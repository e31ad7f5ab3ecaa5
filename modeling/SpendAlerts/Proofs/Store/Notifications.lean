import SpendAlerts.Proofs.Document.Notification
import SpendAlerts.Proofs.Document.Table
import SpendAlerts.Proofs.Store.Calls
import Mathlib.Data.List.Nodup

/-!
The store of notifications. Its documents are encodings of notifications under their own
keys, and recording and stamping keep it so. A query over such documents succeeds exactly
if the values of the matching notifications are finite, and gives these notifications;
pending ones are grouped by alert without losing or repeating any.
-/

namespace SpendAlerts

namespace Documents

theorem mem_matching {d : Documents} {name k : String} {filters : List FieldFilter}
    {doc : Value} : (k, doc) ∈ d.matching name filters ↔
      d.find? name k = some doc ∧ filters.all (·.holds doc) = true := by
  rw [matching, List.mem_filter]
  exact and_congr (Entries.mem_iff_find? (d.collection name).ordered) Iff.rfl

theorem nodup_matching (d : Documents) (name : String) (filters : List FieldFilter) :
    ((d.matching name filters).map (·.1)).Nodup :=
  (d.collection name).nodup_keys.sublist (List.filter_sublist.map _)

end Documents

namespace Notification

def sentAt (n : Notification) (time : Instant) : Notification := { n with sent := some time }

@[simp]
theorem key_sentAt (n : Notification) (time : Instant) : (n.sentAt time).key = n.key := rfl

def entry (n : Notification) : String × Value := (n.key, n.encode)

theorem field?_timeSent (n : Notification) :
    n.encode.field? "timeSent" = some (.orNull (fun t => .string t.text) n.sent) := by
  simp [encode, fields, Value.field?, Entries.find?, Entries.find?_append, Value.find?_present]

theorem holds_isNull_timeSent (n : Notification) :
    (FieldFilter.isNull "timeSent").holds n.encode = true ↔ n.sent = none := by
  cases h : n.sent <;>
    simp [FieldFilter.holds, field?_timeSent, h, Value.orNull, Value.isNull]

end Notification

namespace NotificationStore

theorem decode_eq_ok {n m : Notification} :
    decode n.encode = .ok m ↔ Decimal.isFinite n.value = true ∧ m = n := by
  rw [← Notification.decode_encode_eq_ok, decode]
  cases Notification.decode n.encode with
  | ok x => simp
  | error e => simp

def document? (d : Documents) (k : String) : Option Value := d.find? collectionName k

/-- Every document is the encoding of a notification under its own key. -/
def Keyed (d : Documents) : Prop :=
  ∀ k doc, document? d k = some doc → ∃ n : Notification, n.key = k ∧ doc = n.encode

theorem keyed_of_empty {d : Documents} (h : ∀ k, document? d k = none) : Keyed d := by
  intro k doc hdoc
  rw [h k] at hdoc
  cases hdoc

def write (d : Documents) (n : Notification) : Documents :=
  d.insert collectionName n.key n.encode

theorem document?_write (d : Documents) (n : Notification) (k : String) :
    document? (write d n) k = if n.key = k then some n.encode else document? d k := by
  simp [document?, write, Documents.find?_insert]

theorem Keyed.write {d : Documents} (h : Keyed d) (n : Notification) :
    Keyed (NotificationStore.write d n) := by
  intro k doc hdoc
  rw [document?_write] at hdoc
  by_cases hk : n.key = k
  · simp only [hk, if_true, Option.some.injEq] at hdoc
    exact ⟨n, hk, hdoc.symm⟩
  · simp only [hk, if_false] at hdoc
    exact h k doc hdoc

/-- Decoding documents of notifications gives these, unless a value is not finite. -/
theorem decodeAll_eq_ok {docs : List (String × Value)} {ns : List Notification}
    (hk : ∀ e ∈ docs, ∃ n : Notification, n.entry = e) :
    decodeAll docs = .ok ns ↔
      docs = ns.map Notification.entry ∧ ∀ n ∈ ns, Decimal.isFinite n.value = true := by
  induction docs generalizing ns with
  | nil =>
      cases ns with
      | nil => simp [decodeAll]
      | cons n ns => simp [decodeAll]
  | cons e docs ih =>
      obtain ⟨n, rfl⟩ := hk e List.mem_cons_self
      have hdocs : ∀ e ∈ docs, ∃ n : Notification, n.entry = e :=
        fun e he => hk e (List.mem_cons_of_mem _ he)
      rw [decodeAll, bind_eq_ok]
      constructor
      · intro h
        obtain ⟨m, hm, hrest⟩ := h
        obtain ⟨hfinite, rfl⟩ := decode_eq_ok.1 hm
        obtain ⟨ms, hms, hcons⟩ := bind_eq_ok.1 hrest
        obtain ⟨rfl, hall⟩ := (ih hdocs).1 hms
        cases hcons
        exact ⟨rfl, List.forall_mem_cons.2 ⟨hfinite, hall⟩⟩
      · intro h
        obtain ⟨heq, hall⟩ := h
        cases ns with
        | nil => cases heq
        | cons m ms =>
            rw [List.map_cons, List.cons.injEq] at heq
            have hm := List.forall_mem_cons.1 hall
            have hdecode : decode n.encode = .ok m := by
              rw [show n.encode = m.encode from congrArg Prod.snd heq.1]
              exact decode_eq_ok.2 ⟨hm.1, rfl⟩
            exact ⟨m, hdecode, bind_eq_ok.2 ⟨ms, (ih hdocs).2 ⟨heq.2, hm.2⟩, rfl⟩⟩

theorem exists_entry_of_mem_matching {d : Documents} (hd : Keyed d) (filters : List FieldFilter) :
    ∀ e ∈ d.matching collectionName filters, ∃ n : Notification, n.entry = e := by
  intro e he
  obtain ⟨n, hn, hdoc⟩ := hd e.1 e.2 (Documents.mem_matching.1 he).1
  exact ⟨n, Prod.ext hn hdoc.symm⟩

/-- What a query gives: notifications with different keys whose documents match. -/
theorem select_keyed {d : Documents} (hd : Keyed d) {filters : List FieldFilter}
    {ns : List Notification} (h : decodeAll (d.matching collectionName filters) = .ok ns) :
    (ns.map (·.key)).Nodup ∧ ∀ n ∈ ns, Decimal.isFinite n.value = true ∧
      document? d n.key = some n.encode ∧ filters.all (·.holds n.encode) = true := by
  obtain ⟨hdocs, hfinite⟩ := (decodeAll_eq_ok (exists_entry_of_mem_matching hd filters)).1 h
  constructor
  · have hnodup := d.nodup_matching collectionName filters
    rw [hdocs, List.map_map] at hnodup
    exact hnodup
  · intro n hn
    have hmem : n.entry ∈ d.matching collectionName filters := by
      rw [hdocs]
      exact List.mem_map_of_mem hn
    exact ⟨hfinite n hn, Documents.mem_matching.1 hmem⟩

theorem select_apply (filters : List FieldFilter) (s : Session) : select filters s =
    (if s.context.isCancelled then .error .cancelled
      else decodeAll (s.documents.matching collectionName filters),
      { s with context := s.context.looked }) := by
  rw [select, bind_apply, Documents.query_apply]
  cases s.context.isCancelled with
  | false => exact StoreM.ofExcept_apply _ _
  | true => rfl

theorem peeks_select (filters : List FieldFilter) :
    (select filters).Peeks fun d => decodeAll (d.matching collectionName filters) :=
  fun s => .inr (select_apply filters s)

/-- A detection is written under its key, unless what is there cannot be read or has been
sent under the same etag. -/
theorem addDetected_cases {n : Notification} {etag : String} {s s' : Session}
    {r : Except Fault Bool} (h : addDetected n etag s = (r, s')) :
    ((∃ e, r = .error e) ∧ s'.documents = s.documents) ∨
      (r = .ok false ∧ s'.documents = s.documents) ∨
      (r = .ok true ∧ s'.documents = write s.documents n ∧
        ∀ old : Notification, document? s.documents n.key = some old.encode →
          Decimal.isFinite old.value = true ∧ (old.etag = etag → old.sent = none)) := by
  obtain hfail | ⟨-, hkeep⟩ | ⟨doc, hbody, hput⟩ := Documents.transaction_cases h
  · exact .inl hfail
  · exact .inr (.inl hkeep)
  · refine .inr (.inr ?_)
    change recordBody n etag (document? s.documents n.key) = _ at hbody
    cases hdoc : document? s.documents n.key with
    | none =>
        rw [hdoc] at hbody
        cases hbody
        refine ⟨hput.1, hput.2, ?_⟩
        intro old hold
        cases hold
    | some stored =>
        rw [hdoc] at hbody
        simp only [recordBody] at hbody
        split at hbody
        next old hdecode =>
          split at hbody
          · cases hbody
          · next hopen =>
            cases hbody
            refine ⟨hput.1, hput.2, ?_⟩
            intro old' hold
            cases hold
            obtain ⟨hfinite, rfl⟩ := decode_eq_ok.1 hdecode
            refine ⟨hfinite, ?_⟩
            intro hetag
            cases hsent : old.sent with
            | none => rfl
            | some t => exact absurd ⟨hetag, by simp [Notification.isSent, hsent]⟩ hopen
        next => cases hbody

/-- Stamping writes the notification under the key again, with the time of sending. -/
theorem markSent_cases {key : String} {time : Instant} {s s' : Session} {r : Except Fault Unit}
    (hd : Keyed s.documents) (h : markSent key time s = (r, s')) :
    ((∃ e, r = .error e) ∧ s'.documents = s.documents) ∨
      ∃ n : Notification, n.key = key ∧ document? s.documents key = some n.encode ∧
        Decimal.isFinite n.value = true ∧ r = .ok () ∧
        s'.documents = write s.documents (n.sentAt time) := by
  rw [markSent_eq_rewrite] at h
  obtain hfail | ⟨stored, m, -, -, hdoc, hm, rfl, hput⟩ := Documents.rewrite_cases h
  · exact .inl hfail
  · obtain ⟨n, rfl, rfl⟩ := hd key stored hdoc
    obtain ⟨hfinite, rfl⟩ := Notification.decode_encode_eq_ok.1 hm
    exact .inr ⟨m, rfl, hdoc, hfinite, rfl, hput⟩

theorem eq_of_encode_eq {n m : Notification} (hn : Decimal.isFinite n.value = true)
    (h : n.encode = m.encode) : n = m := by
  have hdecode := decode_eq_ok.2 ⟨hn, rfl⟩
  rw [h] at hdecode
  exact (decode_eq_ok.1 hdecode).2

/-- A query gives just the notifications that are stored and match. -/
theorem mem_select {d : Documents} (hd : Keyed d) {filters : List FieldFilter}
    {ns : List Notification} (h : decodeAll (d.matching collectionName filters) = .ok ns)
    {n : Notification} : n ∈ ns ↔
      document? d n.key = some n.encode ∧ filters.all (·.holds n.encode) = true := by
  obtain ⟨-, hns⟩ := select_keyed hd h
  constructor
  · intro hn
    exact (hns n hn).2
  · intro hn
    obtain ⟨hdocs, -⟩ := (decodeAll_eq_ok (exists_entry_of_mem_matching hd filters)).1 h
    have hmem : n.entry ∈ ns.map Notification.entry := by
      rw [← hdocs]
      exact Documents.mem_matching.2 hn
    obtain ⟨m, hm, heq⟩ := List.mem_map.1 hmem
    exact eq_of_encode_eq (hns m hm).1 (Prod.mk.inj heq).2 ▸ hm

/-- The documents of some notifications are stamped, each at the time of its key, and all others
are as they were. -/
structure Stamps (time : String → Instant) (d : Documents) (ns : List Notification)
    (d' : Documents) : Prop where
  sent : ∀ n ∈ ns, document? d' n.key = some (n.sentAt (time n.key)).encode
  others : ∀ k, k ∉ ns.map (·.key) → document? d' k = document? d k

theorem Stamps.nil (time : String → Instant) (d : Documents) : Stamps time d [] d :=
  ⟨List.forall_mem_nil _, fun _ _ => rfl⟩

theorem Stamps.append {time : String → Instant} {d d' d'' : Documents} {ns ms : List Notification}
    (h : Stamps time d ns d') (h' : Stamps time d' ms d'')
    (hkeys : ∀ n ∈ ns, n.key ∉ ms.map (·.key)) : Stamps time d (ns ++ ms) d'' where
  sent n hn := by
    cases List.mem_append.1 hn with
    | inl hn => rw [h'.others _ (hkeys n hn), h.sent n hn]
    | inr hm => exact h'.sent n hm
  others k hk := by
    rw [List.map_append, List.mem_append, not_or] at hk
    rw [h'.others k hk.2, h.others k hk.1]

theorem Stamps.keyed {time : String → Instant} {d d' : Documents} {ns : List Notification}
    (h : Stamps time d ns d') (hd : Keyed d) : Keyed d' := by
  intro k doc hdoc
  by_cases hk : k ∈ ns.map (·.key)
  · obtain ⟨n, hn, rfl⟩ := List.mem_map.1 hk
    rw [h.sent n hn] at hdoc
    exact ⟨n.sentAt (time n.key), rfl, (Option.some.inj hdoc).symm⟩
  · rw [h.others k hk] at hdoc
    exact hd k doc hdoc

theorem Stamps.write {time : String → Instant} {d : Documents} {n : Notification} :
    Stamps time d [n] (NotificationStore.write d (n.sentAt (time n.key))) where
  sent m hm := by
    obtain rfl := List.mem_singleton.1 hm
    simp [document?_write]
  others k hk := by
    have hne : n.key ≠ k := fun heq => hk (by simp [heq])
    simp [document?_write, hne]

/-- The documents after stamping notifications one after the other. -/
def stampEach (time : String → Instant) (d : Documents) (ns : List Notification) : Documents :=
  ns.foldl (fun d n => write d (n.sentAt (time n.key))) d

theorem stampEach_append (time : String → Instant) (d : Documents) (ns ms : List Notification) :
    stampEach time d (ns ++ ms) = stampEach time (stampEach time d ns) ms :=
  List.foldl_append

theorem stamps_stampEach {time : String → Instant} {d : Documents} {ns : List Notification}
    (hkeys : (ns.map (·.key)).Nodup) : Stamps time d ns (stampEach time d ns) := by
  induction ns generalizing d with
  | nil => exact .nil _ _
  | cons n ns ih =>
      rw [List.map_cons, List.nodup_cons] at hkeys
      have hfirst : Stamps time d [n] (write d (n.sentAt (time n.key))) := .write
      refine hfirst.append (ih hkeys.2) ?_
      intro m hm
      rw [List.mem_singleton.1 hm]
      exact hkeys.1

/-- Notifications with different keys that are stored and readable. -/
structure Ready (d : Documents) (ns : List Notification) : Prop where
  keys : (ns.map (·.key)).Nodup
  finite : ∀ n ∈ ns, Decimal.isFinite n.value = true
  stored : ∀ n ∈ ns, document? d n.key = some n.encode

theorem Ready.sublist {d : Documents} {ns ms : List Notification} (h : Ready d ns)
    (hsub : ms.Sublist ns) : Ready d ms where
  keys := h.keys.sublist (hsub.map _)
  finite n hn := h.finite n (hsub.subset hn)
  stored n hn := h.stored n (hsub.subset hn)

theorem Ready.disjoint {d : Documents} {ns ms : List Notification} (h : Ready d (ns ++ ms)) :
    ∀ n ∈ ns, n.key ∉ ms.map (·.key) := by
  intro n hn hm
  have hkeys := h.keys
  rw [List.map_append] at hkeys
  exact (List.nodup_append.1 hkeys).2.2 _ (List.mem_map_of_mem hn) _ hm rfl

theorem Ready.of_stamps {time : String → Instant} {d d' : Documents}
    {ns ms stamped : List Notification} (h : Ready d (ns ++ ms))
    (hstamps : Stamps time d stamped d') (hsub : stamped.Sublist ns) : Ready d' ms := by
  have hms := h.sublist (List.sublist_append_right ns ms)
  refine ⟨hms.keys, hms.finite, ?_⟩
  intro m hm
  rw [hstamps.others, hms.stored m hm]
  intro hmem
  obtain ⟨n, hn, heq⟩ := List.mem_map.1 hmem
  exact h.disjoint n (hsub.subset hn) (heq ▸ List.mem_map_of_mem hm)

/-- Groups of notifications by alert that are ready to be stamped and not sent yet. -/
structure Pending (d : Documents) (groups : List (String × List Notification)) : Prop where
  ids : (groups.map (·.1)).Nodup
  ready : Ready d (groups.flatMap (·.2))
  alertId : ∀ g ∈ groups, ∀ n ∈ g.2, n.alertId = g.1
  unsent : ∀ g ∈ groups, ∀ n ∈ g.2, n.sent = none

theorem Pending.tail {time : String → Instant} {d d' : Documents} {g : String × List Notification}
    {groups : List (String × List Notification)} {stamped : List Notification}
    (h : Pending d (g :: groups)) (hstamps : Stamps time d stamped d')
    (hsub : stamped.Sublist g.2) : Pending d' groups where
  ids := (List.nodup_cons.1 h.ids).2
  ready := h.ready.of_stamps hstamps hsub
  alertId g' hg := h.alertId g' (List.mem_cons_of_mem _ hg)
  unsent g' hg := h.unsent g' (List.mem_cons_of_mem _ hg)

theorem eq_of_mem_entries_byAlert {ns : List Notification} {g : String × List Notification}
    (hg : g ∈ (byAlert ns).entries) : g.2 = ns.filter (·.alertId = g.1) := by
  have hfind := Table.find?_foldl_push (·.alertId) id ns ∅ g.1
  change ((byAlert ns).find? g.1).getD [] = _ at hfind
  rw [Table.find?_of_mem_entries hg, List.map_id] at hfind
  exact hfind

theorem pending_byAlert {d : Documents} {ns : List Notification} (filters : List FieldFilter)
    (hd : Keyed d)
    (h : decodeAll (d.matching collectionName (filters ++ [.isNull "timeSent"])) = .ok ns) :
    Pending d (byAlert ns).entries := by
  obtain ⟨hnodup, hns⟩ := select_keyed hd h
  have hmem : ∀ g ∈ (byAlert ns).entries, ∀ n ∈ g.2, n ∈ ns ∧ n.alertId = g.1 := by
    intro g hg n hn
    rw [eq_of_mem_entries_byAlert hg] at hn
    simpa using hn
  refine ⟨(byAlert ns).nodup_keys, ⟨?_, ?_, ?_⟩, ?_, ?_⟩
  · -- Keys differ inside a group as they did in the query, and between groups by the alert.
    rw [List.map_flatMap]
    refine List.pairwise_flatMap.2 ⟨?_, ?_⟩
    · intro g hg
      rw [eq_of_mem_entries_byAlert hg]
      exact hnodup.sublist (List.filter_sublist.map _)
    · refine (List.pairwise_map.1 (byAlert ns).nodup_keys).imp_of_mem ?_
      intro g g' hg hg' hne k hk k' hk' heq
      obtain ⟨n, hn, rfl⟩ := List.mem_map.1 hk
      obtain ⟨m, hm, rfl⟩ := List.mem_map.1 hk'
      have hsame : n = m :=
        List.inj_on_of_nodup_map hnodup (hmem g hg n hn).1 (hmem g' hg' m hm).1 heq
      exact hne ((hmem g hg n hn).2.symm.trans (hsame ▸ (hmem g' hg' m hm).2))
  · intro n hn
    obtain ⟨g, hg, hn⟩ := List.mem_flatMap.1 hn
    exact (hns n (hmem g hg n hn).1).1
  · intro n hn
    obtain ⟨g, hg, hn⟩ := List.mem_flatMap.1 hn
    exact (hns n (hmem g hg n hn).1).2.1
  · intro g hg n hn
    exact (hmem g hg n hn).2
  · intro g hg n hn
    have hholds := (hns n (hmem g hg n hn).1).2.2
    rw [List.all_append, Bool.and_eq_true] at hholds
    exact n.holds_isNull_timeSent.1 (by simpa using hholds.2)

theorem pendingFor_cases {customerId : String} {s s' : Session}
    {r : Except Fault (Table (List Notification))} (hd : Keyed s.documents)
    (h : pendingFor customerId s = (r, s')) :
    s'.documents = s.documents ∧ ∀ t, r = .ok t → Pending s.documents t.entries := by
  obtain ⟨e, hselect, rfl⟩ | ⟨ns, s₁, hselect, hreturn⟩ := bind_cases h
  · rw [select_apply] at hselect
    obtain ⟨-, rfl⟩ := Prod.mk.inj hselect
    exact ⟨rfl, fun t ht => by cases ht⟩
  · rw [select_apply] at hselect
    obtain ⟨hdecode, rfl⟩ := Prod.mk.inj hselect
    cases hreturn
    refine ⟨rfl, ?_⟩
    intro t ht
    cases ht
    cases hc : s.context.isCancelled with
    | true => simp [hc] at hdecode
    | false =>
        simp only [hc] at hdecode
        exact pending_byAlert [.textEquals "customerId" customerId] hd hdecode

end NotificationStore

end SpendAlerts
