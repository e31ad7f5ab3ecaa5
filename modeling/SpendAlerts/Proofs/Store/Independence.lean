import SpendAlerts.Proofs.Breakdown
import SpendAlerts.Proofs.Document.RoundTrip
import SpendAlerts.Proofs.Store.Repetition

/-!
Writes that do not meet. A query is blind to documents that do not match it, notifications under
different keys are written in any order, and remembering digests at one time commutes even on
the same alert. Remembering touches nothing but the time of an alert, so whatever can be read
can be read after it, as long as the configurations that are stored can be written again.
-/

namespace SpendAlerts

theorem Documents.ordered_matching (d : Documents) (name : String) (filters : List FieldFilter) :
    Entries.Ordered (d.matching name filters) :=
  (d.collection name).ordered.sublist List.filter_sublist

/-- A query sees nothing of the documents that do not match. -/
theorem Documents.matching_congr {d d' : Documents} {name : String} {filters : List FieldFilter}
    (h : ∀ k doc, filters.all (·.holds doc) = true →
      (d.find? name k = some doc ↔ d'.find? name k = some doc)) :
    d.matching name filters = d'.matching name filters := by
  refine Entries.eq_of_mem_iff (d.ordered_matching _ _) (d'.ordered_matching _ _) ?_
  rintro ⟨k, doc⟩
  rw [mem_matching, mem_matching]
  exact and_congr_left (h k doc)

theorem Notification.customerId_of_encode_eq {n m : Notification} (h : n.encode = m.encode) :
    n.customerId = m.customerId := by
  have hholds := n.holds_customerId m.customerId
  rw [h, m.holds_customerId] at hholds
  simpa using hholds

namespace NotificationStore

variable {d d' : Documents} {n : Notification} {ns ms : List Notification}

theorem Keyed.matching_congr (hd : Keyed d) (hd' : Keyed d') {filters : List FieldFilter}
    (h : ∀ n : Notification, filters.all (·.holds n.encode) = true →
      (document? d n.key = some n.encode ↔ document? d' n.key = some n.encode)) :
    d.matching collectionName filters = d'.matching collectionName filters := by
  refine Documents.matching_congr fun k doc hholds => ⟨?_, ?_⟩
  · intro hdoc
    obtain ⟨n, rfl, rfl⟩ := hd k doc hdoc
    exact (h n hholds).1 hdoc
  · intro hdoc
    obtain ⟨n, rfl, rfl⟩ := hd' k doc hdoc
    exact (h n hholds).2 hdoc

theorem Keyed.writeEach (hd : Keyed d) (ns : List Notification) :
    Keyed (NotificationStore.writeEach d ns) := by
  induction ns generalizing d with
  | nil => exact hd
  | cons n ns ih => exact ih (hd.write n)

/-- A key is not touched, or holds one of the notifications written. -/
theorem document?_writeEach (d : Documents) (ns : List Notification) (k : String) :
    ((∀ n ∈ ns, n.key ≠ k) ∧ document? (writeEach d ns) k = document? d k) ∨
      ∃ n ∈ ns, n.key = k ∧ document? (writeEach d ns) k = some n.encode := by
  induction ns generalizing d with
  | nil => exact .inl ⟨List.forall_mem_nil _, rfl⟩
  | cons n ns ih =>
      obtain ⟨hns, hdoc⟩ | ⟨m, hm, hkey, hdoc⟩ := ih (write d n)
      · rw [document?_write] at hdoc
        by_cases hk : n.key = k
        · rw [if_pos hk] at hdoc
          exact .inr ⟨n, List.mem_cons_self, hk, hdoc⟩
        · rw [if_neg hk] at hdoc
          exact .inl ⟨List.forall_mem_cons.2 ⟨hk, hns⟩, hdoc⟩
      · exact .inr ⟨m, List.mem_cons_of_mem _ hm, hkey, hdoc⟩

theorem document?_writeEach_of_ne {k : String} (h : ∀ n ∈ ns, n.key ≠ k) :
    document? (writeEach d ns) k = document? d k := by
  obtain ⟨-, hdoc⟩ | ⟨n, hn, hkey, -⟩ := document?_writeEach d ns k
  · exact hdoc
  · exact absurd hkey (h n hn)

theorem writeEach_write (h : ∀ m ∈ ms, n.key ≠ m.key) :
    writeEach (write d n) ms = write (writeEach d ms) n := by
  induction ms generalizing d with
  | nil => rfl
  | cons m ms ih =>
      rw [List.forall_mem_cons] at h
      change writeEach (write (write d n) m) ms = write (writeEach (write d m) ms) n
      rw [write_comm h.1, ih h.2]

theorem writeEach_comm (h : ∀ n ∈ ns, ∀ m ∈ ms, n.key ≠ m.key) :
    writeEach (writeEach d ns) ms = writeEach (writeEach d ms) ns := by
  induction ns generalizing d with
  | nil => rfl
  | cons n ns ih =>
      rw [List.forall_mem_cons] at h
      change writeEach (writeEach (write d n) ns) ms = writeEach (write (writeEach d ms) n) ns
      rw [ih h.2, writeEach_write h.1]

/-- What is pending for a customer does not depend on notifications of other customers that are
written over each other. -/
theorem pendingOf_writeEach (hd : Keyed d) {customerId : String}
    (hns : ∀ n ∈ ns, n.customerId ≠ customerId)
    (hover : ∀ n ∈ ns, ∀ m : Notification, document? d n.key = some m.encode →
      m.customerId ≠ customerId) :
    pendingOf (writeEach d ns) customerId = pendingOf d customerId := by
  refine congrArg decodeAll ((hd.writeEach ns).matching_congr hd ?_)
  intro m hholds
  obtain ⟨hcustomer, -⟩ := holds_pending.1 hholds
  obtain ⟨-, hsame⟩ | ⟨n, hn, hkey, hdoc⟩ := document?_writeEach d ns m.key
  · rw [hsame]
  · rw [hdoc]
    refine iff_of_false ?_ fun hm => hover n hn m (hkey ▸ hm) hcustomer
    intro heq
    exact hns n hn ((Notification.customerId_of_encode_eq (Option.some.inj heq)).trans hcustomer)

theorem breakdownsIn_congr (hd : Keyed d) (hd' : Keyed d') {etag alertId period : String}
    (h : ∀ n : Notification, n.alertId = alertId → document? d n.key = document? d' n.key) :
    breakdownsIn etag alertId period d = breakdownsIn etag alertId period d' := by
  rw [breakdownsIn, breakdownsIn, hd.matching_congr hd']
  intro n hholds
  rw [h n (holds_periodFilters.1 hholds).2.1]

end NotificationStore

open NotificationStore in
/-- The request of an alert depends on the notifications of this alert alone. -/
theorem QueryRequest.ofDocuments_congr {d d' : Documents} (hd : Keyed d) (hd' : Keyed d')
    {limit : Nat} {a : Alert} {now : Instant}
    (h : ∀ n : Notification, n.alertId = a.id → document? d n.key = document? d' n.key) :
    ofDocuments limit a now d = ofDocuments limit a now d' := by
  have hbreakdowns : ∀ period,
      breakdownsIn a.etag a.id period d = breakdownsIn a.etag a.id period d' :=
    fun _ => breakdownsIn_congr hd hd' h
  simp only [ofDocuments, BreakdownPlan.ofDocuments, hbreakdowns]

/-- The alert without the time of its last digest. -/
def Alert.timeless (a : Alert) : Alert := { a with lastAlerted := none }

namespace AlertStore

variable {d d' : Documents} {id other : String} {ids ids' : List String} {time : Instant}
  {times : String → Instant}

/-- The configurations of the alerts that can be read can be written and read again. -/
def Rewritable (d : Documents) : Prop :=
  ∀ id a, read d id = .ok a → AlertConfig.decode a.config.encode = .ok a.config

theorem Rewritable.of_retains (h : Rewritable d) (hretains : Retains d d') : Rewritable d' := by
  intro id b hb
  obtain ⟨a, _, ha, rfl⟩ := hretains id b hb
  exact h id a ha

theorem rewritable_of_isJson
    (h : ∀ id doc, d.find? collectionName id = some doc → doc.IsJson) : Rewritable d := by
  intro id a ha
  obtain ⟨doc, b, hdoc, hb, rfl⟩ := read_eq_ok_iff.1 ha
  exact AlertConfig.decode_encode (Alert.makes doc b (h id doc hdoc) hb)

/-- Whatever is put can be written again if it can be read at all. -/
theorem Rewritable.put (h : Rewritable d) (a : Alert) :
    Rewritable (d.insert collectionName a.id a.encode) := by
  intro id b hb
  obtain ⟨doc, b, hdoc, hdecode, rfl⟩ := read_eq_ok_iff.1 hb
  rw [Documents.find?_insert] at hdoc
  by_cases hid : a.id = id
  · simp only [hid, and_self, if_true, Option.some.injEq] at hdoc
    subst hdoc
    obtain rfl := Alert.eq_of_decode_encode hdecode
    have hconfig : b.encode.field? "config" = some b.config.encode := rfl
    obtain ⟨config, hread⟩ : ∃ config, AlertConfig.decode b.config.encode = .ok config :=
      Reading.exists_decode_field hdecode rfl hconfig
    rw [hread, b.config.yields config hread]
  · simp only [hid, and_false, if_false] at hdoc
    exact h id _ (read_eq_ok_iff.2 ⟨doc, b, hdoc, hdecode, rfl⟩)

theorem remember_eq (time : Instant) (d : Documents) (id : String) : remember time d id =
    ((d.find? collectionName id).bind fun doc => (Alert.decode doc).toOption).elim d
      fun a => d.insert collectionName id { a with lastAlerted := some time }.encode := by
  rw [remember]
  cases (d.find? collectionName id).bind fun doc => (Alert.decode doc).toOption with
  | none => rfl
  | some a => rfl

theorem remember_cases (time : Instant) (d : Documents) (id : String) :
    remember time d id = d ∨
      ∃ doc a, d.find? collectionName id = some doc ∧ Alert.decode doc = .ok a ∧
        remember time d id =
          d.insert collectionName id { a with lastAlerted := some time }.encode := by
  rw [remember_eq]
  cases hstored : (d.find? collectionName id).bind fun doc => (Alert.decode doc).toOption with
  | none => exact .inl rfl
  | some a =>
      obtain ⟨doc, hdoc, ha⟩ := Option.bind_eq_some_iff.1 hstored
      exact .inr ⟨doc, a, hdoc, toOption_eq_some.1 ha, rfl⟩

theorem retains_remember : Retains d (remember time d id) := by
  obtain hsame | ⟨doc, a, hdoc, ha, hput⟩ := remember_cases time d id
  · exact hsame.symm ▸ .refl d
  · exact hput.symm ▸ retains_insert hdoc ha

theorem retains_rememberEach : Retains d (rememberEach times d ids) := by
  induction ids generalizing d with
  | nil => exact .refl d
  | cons id ids ih => exact retains_remember.trans ih

/-- What is read from the documents is the same but for times of digests. -/
def Alike (d d' : Documents) : Prop :=
  ∀ id, (read d id).map Alert.timeless = (read d' id).map Alert.timeless

/-- Remembering a digest changes nothing that is read but the time. -/
theorem Rewritable.alike_remember (h : Rewritable d) : Alike (remember time d id) d := by
  intro other
  by_cases hid : id = other
  · subst hid
    obtain hsame | ⟨doc, a, hdoc, ha, -⟩ := remember_cases time d id
    · rw [hsame]
    · have hread : read d id = .ok { a with id := id } :=
        read_eq_ok_iff.2 ⟨doc, a, hdoc, ha, rfl⟩
      have hconfig : AlertConfig.decode a.config.encode = .ok a.config :=
        h id { a with id := id } hread
      have hdecode : Alert.decode { a with lastAlerted := some time }.encode =
          .ok { a with lastAlerted := some time } :=
        Alert.decode_encode_of_config hconfig
      rw [hread, read_eq_ok_iff.2 ⟨_, _, find?_remember hdoc ha, hdecode, rfl⟩]
      rfl
  · rw [read_remember_of_ne hid]

theorem Rewritable.alike_rememberEach (h : Rewritable d) : Alike (rememberEach times d ids) d := by
  induction ids generalizing d with
  | nil => exact fun _ => rfl
  | cons id ids ih =>
      exact fun other => (ih (h.of_retains retains_remember) other).trans (h.alike_remember other)

/-- Digests that include each alert at its time are remembered in any order. -/
theorem remember_comm : remember (times other) (remember (times id) d id) other =
    remember (times id) (remember (times other) d other) id := by
  by_cases hid : id = other
  · rw [hid]
  have hother : (remember (times id) d id).find? collectionName other =
      d.find? collectionName other :=
    find?_remember_of_ne hid
  have hfirst : (remember (times other) d other).find? collectionName id =
      d.find? collectionName id :=
    find?_remember_of_ne (Ne.symm hid)
  rw [remember_eq _ (remember (times id) d id), hother,
    remember_eq _ (remember (times other) d other), hfirst, remember_eq _ d id,
    remember_eq _ d other]
  cases (d.find? collectionName id).bind fun doc => (Alert.decode doc).toOption with
  | none => rfl
  | some a =>
      cases (d.find? collectionName other).bind fun doc => (Alert.decode doc).toOption with
      | none => rfl
      | some b => exact d.insert_comm _ hid _ _

theorem rememberEach_comm :
    rememberEach times (rememberEach times d ids) ids' =
      rememberEach times (rememberEach times d ids') ids := by
  have hcomm : RightCommutative fun d id => remember (times id) d id :=
    ⟨fun _ _ _ => remember_comm⟩
  rw [rememberEach, rememberEach, rememberEach, rememberEach, ← List.foldl_append,
    ← List.foldl_append]
  exact List.perm_append_comm.foldl_eq d

end AlertStore

end SpendAlerts
