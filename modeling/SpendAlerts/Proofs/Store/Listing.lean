import SpendAlerts.Proofs.Calendar.Shift
import SpendAlerts.Proofs.Document.Table
import SpendAlerts.Proofs.Store.AlertDocuments

/-!
Listing the alerts. A listing gives the alerts that can be read, in the order of their ids, and
removes the documents of dangling ones and no others. Only alerts that are not valid have to be
compared with the end of the grace, so one of them is enough to make a listing fail if the grace
reaches behind the start of the calendar, and nothing is removed then.
-/

namespace SpendAlerts

namespace Alert

variable {now limit : Instant} {grace : Int}

/-- The alert is not valid and was last modified before the limit. -/
def Dangling (limit : Instant) (a : Alert) : Prop :=
  a.isValid = false ∧ a.modified < limit

instance (limit : Instant) (a : Alert) : Decidable (a.Dangling limit) :=
  inferInstanceAs (Decidable (_ ∧ _))

theorem isDangling_of_some (hlimit : now.plusSeconds? (-grace) = some limit) (a : Alert) :
    a.isDangling now grace = .ok (decide (a.Dangling limit)) := by
  rw [isDangling, hlimit]
  cases hvalid : a.isValid <;> simp [Dangling, hvalid]

theorem isDangling_of_none (hnone : now.plusSeconds? (-grace) = none) (a : Alert) :
    a.isDangling now grace = if a.isValid = false then .error .dateOutOfRange else .ok false := by
  rw [isDangling, hnone]
  cases a.isValid <;> rfl

end Alert

namespace AlertStore

variable {now limit : Instant} {grace : Int} {d : Documents} {doc : Value} {key id : String}
  {es : List (String × Value)} {s s' : Session} {a : Alert}

/-- The document is that of an alert with a property. -/
def Stores (p : Alert → Prop) (doc : Value) : Prop :=
  ∃ a, Alert.decode doc = .ok a ∧ p a

instance (p : Alert → Prop) [DecidablePred p] (doc : Value) : Decidable (Stores p doc) :=
  match h : Alert.decode doc with
  | .ok a => decidable_of_iff (p a)
      ⟨fun ha => ⟨a, h, ha⟩, fun ⟨_, hb, hp⟩ => Except.ok.inj (h.symm.trans hb) ▸ hp⟩
  | .error _ => isFalse fun ⟨_, hb, _⟩ => nomatch h.symm.trans hb

theorem stores_iff {p : Alert → Prop} (h : Alert.decode doc = .ok a) : Stores p doc ↔ p a := by
  simp [Stores, h]

theorem not_stores_of_error {p : Alert → Prop} {m : Mismatch} (h : Alert.decode doc = .error m) :
    ¬ Stores p doc := by
  simp [Stores, h]

/-- The alerts in some documents, leaving out what does not decode. -/
def alertsIn (es : List (String × Value)) : List Alert :=
  es.filterMap fun e => (ofDocument e.1 e.2).toOption

/-- The alerts that can be read. -/
def readable (d : Documents) : List Alert :=
  alertsIn (d.collection collectionName).entries

/-- The keys of the documents of dangling alerts. -/
def danglingKeys (limit : Instant) (es : List (String × Value)) : List String :=
  (es.filter (Stores (Alert.Dangling limit) ·.2)).map (·.1)

/-- The documents without those of alerts under some ids. -/
def withoutEach (d : Documents) (ids : List String) : Documents :=
  ids.foldl (·.erase collectionName) d

/-- The documents without those of dangling alerts. -/
def sweep (limit : Instant) (d : Documents) : Documents :=
  withoutEach d (danglingKeys limit (d.collection collectionName).entries)

theorem ofDocument_cases (key : String) (doc : Value) :
    (∃ a, Alert.decode doc = .ok a ∧ ofDocument key doc = .ok { a with id := key }) ∨
      ∃ m e, Alert.decode doc = .error m ∧ ofDocument key doc = .error e := by
  rw [ofDocument]
  cases hdecode : Alert.decode doc with
  | ok a =>
      rw [checkNames_of_decode hdecode]
      exact .inl ⟨a, rfl, rfl⟩
  | error m =>
      cases checkNames doc with
      | ok _ => exact .inr ⟨m, _, rfl, rfl⟩
      | error e => exact .inr ⟨m, e, rfl, rfl⟩

theorem id_of_ofDocument (h : ofDocument key doc = .ok a) : a.id = key := by
  obtain ⟨b, -, hb⟩ | ⟨m, e, -, he⟩ := ofDocument_cases key doc
  · cases h.symm.trans hb
    rfl
  · cases h.symm.trans he

/-! ### What is left -/

theorem withoutEach_cons (d : Documents) (id : String) (ids : List String) :
    withoutEach d (id :: ids) = withoutEach (d.erase collectionName id) ids := rfl

theorem find?_withoutEach (d : Documents) (ids : List String) (id : String) :
    (withoutEach d ids).find? collectionName id =
      if id ∈ ids then none else d.find? collectionName id := by
  induction ids generalizing d with
  | nil => rfl
  | cons first ids ih =>
      rw [withoutEach_cons, ih, Documents.find?_erase]
      by_cases hfirst : first = id
      · subst hfirst
        simp
      · simp [hfirst, Ne.symm hfirst]

theorem collection_withoutEach (d : Documents) (ids : List String) {name : String}
    (h : name ≠ collectionName) : (withoutEach d ids).collection name = d.collection name := by
  induction ids generalizing d with
  | nil => rfl
  | cons first ids ih =>
      rw [withoutEach_cons, ih, Documents.collection_erase, if_neg h.symm]

/-- Sweeping removes the documents of dangling alerts. -/
theorem find?_sweep (limit : Instant) (d : Documents) (id : String) :
    (sweep limit d).find? collectionName id =
      (d.find? collectionName id).filter (¬ Stores (Alert.Dangling limit) ·) := by
  have hmem : id ∈ danglingKeys limit (d.collection collectionName).entries ↔
      ∃ doc, d.find? collectionName id = some doc ∧ Stores (Alert.Dangling limit) doc := by
    rw [danglingKeys, List.mem_map]
    constructor
    · rintro ⟨⟨k, doc⟩, he, rfl⟩
      obtain ⟨he, hdangling⟩ := List.mem_filter.1 he
      exact ⟨doc, Table.find?_of_mem_entries he, of_decide_eq_true hdangling⟩
    · rintro ⟨doc, hdoc, hdangling⟩
      have he : (id, doc) ∈ (d.collection collectionName).entries := Entries.mem_of_find? hdoc
      exact ⟨(id, doc), List.mem_filter.2 ⟨he, decide_eq_true hdangling⟩, rfl⟩
  rw [sweep, find?_withoutEach]
  cases hdoc : d.find? collectionName id with
  | none => exact ite_self none
  | some doc =>
      have hkey : id ∈ danglingKeys limit (d.collection collectionName).entries ↔
          Stores (Alert.Dangling limit) doc := by
        rw [hmem, hdoc]
        exact ⟨fun ⟨_, hsome, h⟩ => Option.some.inj hsome ▸ h, fun h => ⟨doc, rfl, h⟩⟩
      by_cases h : Stores (Alert.Dangling limit) doc
      · rw [if_pos (hkey.2 h), Option.filter_some, if_neg (by simpa using h)]
      · rw [if_neg (mt hkey.1 h), Option.filter_some, if_pos (decide_eq_true h)]

theorem collection_sweep (limit : Instant) (d : Documents) {name : String}
    (h : name ≠ collectionName) : (sweep limit d).collection name = d.collection name :=
  collection_withoutEach d _ h

/-- The documents that are left stay in order. -/
theorem entries_sweep (limit : Instant) (d : Documents) :
    ((sweep limit d).collection collectionName).entries =
      (d.collection collectionName).entries.filter (¬ Stores (Alert.Dangling limit) ·.2) := by
  refine Entries.eq_of_mem_iff ((sweep limit d).collection collectionName).ordered
    (List.Pairwise.sublist List.filter_sublist (d.collection collectionName).ordered) ?_
  rintro ⟨id, doc⟩
  have hfind := find?_sweep limit d id
  rw [Entries.mem_iff_find? (Table.ordered _), List.mem_filter,
    Entries.mem_iff_find? (Table.ordered _)]
  change (sweep limit d).find? collectionName id = some doc ↔
    d.find? collectionName id = some doc ∧ _
  rw [hfind, Option.filter_eq_some_iff]

theorem mem_readable : a ∈ readable d ↔ read d a.id = .ok a := by
  rw [readable, alertsIn, List.mem_filterMap]
  constructor
  · rintro ⟨⟨id, doc⟩, he, hread⟩
    have hdoc : d.find? collectionName id = some doc := Table.find?_of_mem_entries he
    have hof : ofDocument id doc = .ok a := toOption_eq_some.1 hread
    have hid : read d id = .ok a := by
      rw [read, hdoc]
      exact hof
    obtain rfl := (read_eq_ok hid).1
    exact hid
  · intro h
    rw [read] at h
    split at h
    · cases h
    · next doc hdoc =>
      exact ⟨(a.id, doc), Entries.mem_of_find? hdoc, toOption_eq_some.2 h⟩

/-- The ids of the alerts that can be read ascend. -/
theorem pairwise_readable (d : Documents) : (readable d).Pairwise (·.id < ·.id) := by
  refine List.pairwise_filterMap.2 ((d.collection collectionName).ordered.imp ?_)
  intro e e' hlt a ha b hb
  rw [← id_of_ofDocument (toOption_eq_some.1 ha), ← id_of_ofDocument (toOption_eq_some.1 hb)] at hlt
  exact hlt

/-! ### Telling what dangles -/

theorem alertsIn_cons_of_ok (h : ofDocument key doc = .ok a) :
    alertsIn ((key, doc) :: es) = a :: alertsIn es :=
  List.filterMap_cons_some (congrArg Except.toOption h)

theorem alertsIn_cons_of_error {e : Fault} (h : ofDocument key doc = .error e) :
    alertsIn ((key, doc) :: es) = alertsIn es :=
  List.filterMap_cons_none (congrArg Except.toOption h)

theorem danglingKeys_cons (limit : Instant) (key : String) (doc : Value)
    (es : List (String × Value)) : danglingKeys limit ((key, doc) :: es) =
      if Stores (Alert.Dangling limit) doc then key :: danglingKeys limit es
      else danglingKeys limit es := by
  by_cases h : Stores (Alert.Dangling limit) doc
  · simp [danglingKeys, h]
  · simp [danglingKeys, h]

theorem deleteDoc_alive (hlive : s.context.isCancelled = false)
    (hlooked : s.context.looked = s.context) (key : String) :
    Documents.deleteDoc collectionName key s =
      (.ok (s.documents.find? collectionName key).isSome,
        ⟨s.context, s.documents.erase collectionName key⟩) := by
  rw [Documents.deleteDoc_apply, hlive, hlooked]
  rfl

/-- In a context that nobody cancels dangling alerts are deleted, and all others are kept. -/
theorem keepAlive_of_some (hlive : s.context.isCancelled = false)
    (hlooked : s.context.looked = s.context) (hlimit : now.plusSeconds? (-grace) = some limit)
    (es : List (String × Value)) : keepAlive now grace es s =
      (.ok (alertsIn (es.filter (¬ Stores (Alert.Dangling limit) ·.2))),
        ⟨s.context, withoutEach s.documents (danglingKeys limit es)⟩) := by
  obtain ⟨context, d⟩ := s
  change context.isCancelled = false at hlive
  change context.looked = context at hlooked
  induction es generalizing d with
  | nil => rfl
  | cons e es ih =>
      obtain ⟨key, doc⟩ := e
      rw [keepAlive, danglingKeys_cons, List.filter_cons]
      obtain ⟨a, hdecode, hread⟩ | ⟨m, e, hdecode, hread⟩ := ofDocument_cases key doc
      · have hdangling : Stores (Alert.Dangling limit) doc ↔
            Alert.Dangling limit { a with id := key } := (stores_iff hdecode).trans .rfl
        simp only [hread, Alert.isDangling_of_some hlimit, ← hdangling]
        by_cases h : Stores (Alert.Dangling limit) doc
        · simp only [h, decide_true, if_true, not_true, decide_false]
          exact (bind_of_ok (deleteDoc_alive hlive hlooked key)).trans (ih _)
        · simp only [h, decide_false, if_false, not_false_eq_true, decide_true, if_true,
            alertsIn_cons_of_ok hread]
          exact bind_of_ok (ih d)
      · have h : ¬ Stores (Alert.Dangling limit) doc := not_stores_of_error hdecode
        simp only [hread, h, if_false, not_false_eq_true, decide_true, if_true,
          alertsIn_cons_of_error hread]
        exact ih d

theorem matching_all (d : Documents) :
    d.matching collectionName [] = (d.collection collectionName).entries :=
  List.filter_eq_self.2 fun _ _ => rfl

theorem query_alive (hlive : s.context.isCancelled = false)
    (hlooked : s.context.looked = s.context) : Documents.query collectionName [] s =
      (.ok (s.documents.collection collectionName).entries, s) := by
  rw [Documents.query_apply, hlive, hlooked, matching_all]
  rfl

theorem list_of_some (hlive : s.context.isCancelled = false)
    (hlooked : s.context.looked = s.context) (hlimit : now.plusSeconds? (-grace) = some limit) :
    list now grace s =
      (.ok (readable (sweep limit s.documents)), ⟨s.context, sweep limit s.documents⟩) := by
  rw [list, bind_of_ok (query_alive hlive hlooked), keepAlive_of_some hlive hlooked hlimit,
    readable, entries_sweep]
  rfl

theorem deleteDoc_eq_error {e : Fault}
    (h : Documents.deleteDoc collectionName key s = (.error e, s')) : e = .cancelled := by
  rw [Documents.deleteDoc_apply] at h
  split at h
  · cases h
    rfl
  · cases h

/-- Once it can be told what dangles, deleting it fails for nothing but the context. -/
theorem keepAlive_eq_error (hlimit : now.plusSeconds? (-grace) = some limit) {e : Fault}
    (h : keepAlive now grace es s = (.error e, s')) : e = .cancelled := by
  induction es generalizing s with
  | nil => cases h
  | cons entry es ih =>
      obtain ⟨key, doc⟩ := entry
      rw [keepAlive] at h
      obtain ⟨a, -, hread⟩ | ⟨m, e, -, hread⟩ := ofDocument_cases key doc
      · simp only [hread, Alert.isDangling_of_some hlimit] at h
        cases hdangling : decide (Alert.Dangling limit { a with id := key }) with
        | true =>
            rw [hdangling] at h
            obtain ⟨e', hdelete, he⟩ | ⟨_, s₁, -, hrest⟩ := bind_cases h
            · cases he
              exact deleteDoc_eq_error hdelete
            · exact ih hrest
        | false =>
            rw [hdangling] at h
            obtain ⟨e', hrest, he⟩ | ⟨as, s₁, -, hpure⟩ := bind_cases h
            · cases he
              exact ih hrest
            · cases hpure
      · simp only [hread] at h
        exact ih h

theorem list_eq_error (hlimit : now.plusSeconds? (-grace) = some limit) {e : Fault}
    (h : list now grace s = (.error e, s')) : e = .cancelled := by
  obtain ⟨e', hquery, he⟩ | ⟨es, s₁, -, hrest⟩ := bind_cases h
  · cases he
    rw [Documents.query_apply] at hquery
    have herror := (Prod.mk.inj hquery).1
    split at herror
    · exact (Except.error.inj herror).symm
    · cases herror
  · exact keepAlive_eq_error hlimit hrest

/-! ### Not telling what dangles -/

/-- Behind the start of the calendar nothing is deleted, and alerts that are not valid cannot be
told from dangling ones. -/
theorem keepAlive_of_none (hnone : now.plusSeconds? (-grace) = none)
    (es : List (String × Value)) (s : Session) : keepAlive now grace es s =
      (if es.any (Stores (·.isValid = false) ·.2) then .error .dateOutOfRange
        else .ok (alertsIn es), s) := by
  induction es with
  | nil => rfl
  | cons e es ih =>
      obtain ⟨key, doc⟩ := e
      rw [keepAlive, List.any_cons]
      obtain ⟨a, hdecode, hread⟩ | ⟨m, e, hdecode, hread⟩ := ofDocument_cases key doc
      · have hstores : Stores (·.isValid = false) doc ↔ a.isValid = false := stores_iff hdecode
        have hdangling := Alert.isDangling_of_none hnone { a with id := key }
        by_cases h : a.isValid = false
        · rw [if_pos h] at hdangling
          simp only [hread, hdangling, hstores.2 h, decide_true, Bool.true_or, if_true]
          rfl
        · rw [if_neg h] at hdangling
          simp only [hread, hdangling, mt hstores.1 h, decide_false, Bool.false_or,
            alertsIn_cons_of_ok hread]
          rw [bind_pure_apply, ih]
          split <;> rfl
      · have hstores : ¬ Stores (·.isValid = false) doc := not_stores_of_error hdecode
        simp only [hread, hstores, decide_false, Bool.false_or, alertsIn_cons_of_error hread]
        exact ih

/-- A property that does not look at ids is one of the alerts that can be read. -/
theorem any_stores_iff {p : Alert → Prop} [DecidablePred p]
    (hp : ∀ a id, p { a with id := id } ↔ p a) :
    es.any (Stores p ·.2) ↔ ∃ a ∈ alertsIn es, p a := by
  rw [List.any_eq_true]
  constructor
  · rintro ⟨⟨key, doc⟩, he, hstores⟩
    obtain ⟨a, hdecode, ha⟩ := of_decide_eq_true hstores
    obtain ⟨b, hb, hread⟩ | ⟨m, e, herror, -⟩ := ofDocument_cases key doc
    · cases hdecode.symm.trans hb
      exact ⟨_, List.mem_filterMap.2 ⟨_, he, toOption_eq_some.2 hread⟩, (hp a key).2 ha⟩
    · cases hdecode.symm.trans herror
  · rintro ⟨a, ha, hpa⟩
    obtain ⟨⟨key, doc⟩, he, hread⟩ := List.mem_filterMap.1 ha
    obtain ⟨b, hb, hof⟩ | ⟨m, e, -, herror⟩ := ofDocument_cases key doc
    · cases hof.symm.trans (toOption_eq_some.1 hread)
      exact ⟨_, he, decide_eq_true ⟨b, hb, (hp b key).1 hpa⟩⟩
    · cases herror.symm.trans (toOption_eq_some.1 hread)

/-- Behind the start of the calendar a listing deletes nothing, and fails if some alert is not
valid. -/
theorem list_of_none (hnone : now.plusSeconds? (-grace) = none) (s : Session) :
    (list now grace s).2.documents = s.documents ∧ ∀ e, (list now grace s).1 = .error e ↔
      (s.context.isCancelled = true ∧ e = .cancelled) ∨ s.context.isCancelled = false ∧
        (∃ a ∈ readable s.documents, a.isValid = false) ∧ e = .dateOutOfRange := by
  have hany : (s.documents.collection collectionName).entries.any (Stores (·.isValid = false) ·.2) ↔
      ∃ a ∈ alertsIn (s.documents.collection collectionName).entries, a.isValid = false :=
    any_stores_iff fun _ _ => .rfl
  rw [list, bind_apply, Documents.query_apply, matching_all, readable, ← hany]
  cases s.context.isCancelled with
  | true =>
      refine ⟨rfl, fun e => ⟨fun h => .inl ⟨rfl, (Except.error.inj h).symm⟩, ?_⟩⟩
      rintro (⟨-, rfl⟩ | ⟨h, -⟩)
      · rfl
      · cases h
  | false =>
      simp only [Bool.false_eq_true, if_false, keepAlive_of_none hnone, false_and, false_or,
        true_and]
      cases (s.documents.collection collectionName).entries.any
        (Stores (·.isValid = false) ·.2) with
      | true =>
          refine fun e => ⟨fun h => ⟨rfl, (Except.error.inj h).symm⟩, ?_⟩
          rintro ⟨-, rfl⟩
          rfl
      | false => exact fun e => ⟨nofun, fun h => nomatch h.1⟩

end AlertStore

end SpendAlerts
