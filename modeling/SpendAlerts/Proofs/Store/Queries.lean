import SpendAlerts.Proofs.Store.Readability

/-!
What queries over notifications give. Where documents are readable encodings under their own
keys, the collection is a list of records in the order of their keys, and a condition on a
field of the document is a condition on the record, so every query is a filter of this list.
Recording notifications with finite values and stamping keep the collection of that kind.
-/

namespace SpendAlerts

theorem FieldFilter.holds_textEquals {doc : Value} {field stored text : String}
    (h : doc.field? field = some (.string stored)) :
    (textEquals field text).holds doc = decide (stored = text) := by
  simp only [holds, textEquals, h, Option.getD_some]
  rfl

namespace Notification

variable (n : Notification)

theorem holds_customerId (text : String) :
    (FieldFilter.textEquals "customerId" text).holds n.encode = decide (n.customerId = text) := by
  refine FieldFilter.holds_textEquals ?_
  simp [encode, fields, Value.field?, Entries.find?, Entries.find?_append, Value.find?_present]

theorem holds_alertId (text : String) :
    (FieldFilter.textEquals "alertId" text).holds n.encode = decide (n.alertId = text) := by
  refine FieldFilter.holds_textEquals ?_
  simp [encode, fields, Value.field?, Entries.find?]

theorem holds_etag (text : String) :
    (FieldFilter.textEquals "etag" text).holds n.encode = decide (n.etag = text) := by
  refine FieldFilter.holds_textEquals ?_
  simp [encode, fields, Value.field?, Entries.find?, Entries.find?_append, Value.find?_present]

theorem holds_period (text : String) :
    (FieldFilter.textEquals "period" text).holds n.encode = decide (n.period = text) := by
  refine FieldFilter.holds_textEquals ?_
  simp [encode, fields, Value.field?, Entries.find?, Entries.find?_append, Value.find?_present]

theorem holds_unsent :
    (FieldFilter.isNull "timeSent").holds n.encode = decide (n.sent = none) :=
  Bool.eq_iff_iff.2 (n.holds_isNull_timeSent.trans decide_eq_true_iff.symm)

/-- Equal encodings agree in these fields, also where the values cannot be read back. -/
theorem fields_of_encode_eq {n m : Notification} (h : n.encode = m.encode) :
    n.etag = m.etag ∧ n.alertId = m.alertId ∧ n.period = m.period ∧ n.breakdown = m.breakdown := by
  have hbreakdown : ∀ n : Notification,
      n.encode.field? "breakdown" = n.breakdown.map Value.string := by
    intro n
    simp [encode, fields, Value.field?, Entries.find?, Entries.find?_append, Value.find?_present]
  refine ⟨?_, ?_, ?_, ?_⟩
  · have hholds := n.holds_etag m.etag
    rw [h, m.holds_etag] at hholds
    simpa using hholds
  · have hholds := n.holds_alertId m.alertId
    rw [h, m.holds_alertId] at hholds
    simpa using hholds
  · have hholds := n.holds_period m.period
    rw [h, m.holds_period] at hholds
    simpa using hholds
  · have hfield := hbreakdown n
    rw [h, hbreakdown] at hfield
    exact Option.map_injective (fun _ _ => Value.string.inj) hfield.symm

end Notification

namespace NotificationStore

variable {d : Documents} {s : Session} {n : Notification}

/-- What reads as a notification under its own key is its encoding. -/
theorem stored_of_read (hd : Keyed d)
    (h : (document? d n.key).bind (fun doc => (decode doc).toOption) = some n) :
    document? d n.key = some n.encode := by
  obtain ⟨doc, hdoc, hread⟩ := Option.bind_eq_some_iff.1 h
  obtain ⟨m, -, rfl⟩ := hd n.key doc hdoc
  obtain ⟨-, rfl⟩ := decode_eq_ok.1 (toOption_eq_some.1 hread)
  exact hdoc

/-- The notifications in the collection, in the order of their keys. -/
def records (d : Documents) : List Notification :=
  (d.collection collectionName).entries.filterMap fun e => (decode e.2).toOption

/-- Every document is the readable encoding of a notification under its own key. -/
structure Orderly (d : Documents) : Prop where
  keyed : Keyed d
  readable : Readable d

theorem Orderly.finite (h : Orderly d) (hn : document? d n.key = some n.encode) :
    Decimal.isFinite n.value = true :=
  (readable_iff h.keyed).1 h.readable n hn

theorem Orderly.write (h : Orderly d) (hn : Decimal.isFinite n.value = true) :
    Orderly (NotificationStore.write d n) := by
  refine ⟨h.keyed.write n, (readable_iff (h.keyed.write n)).2 ?_⟩
  intro m hm
  rw [document?_write] at hm
  split at hm
  · exact eq_of_encode_eq hn (Option.some.inj hm) ▸ hn
  · exact h.finite hm

theorem orderly_of_empty (h : ∀ k, document? d k = none) : Orderly d := by
  refine ⟨keyed_of_empty h, ?_⟩
  intro k doc hdoc
  rw [h k] at hdoc
  cases hdoc

theorem eq_map_entry {es : List (String × Value)}
    (h : ∀ e ∈ es, ∃ n : Notification, n.entry = e ∧ Decimal.isFinite n.value = true) :
    es = (es.filterMap fun e => (decode e.2).toOption).map Notification.entry := by
  induction es with
  | nil => rfl
  | cons e es ih =>
      rw [List.forall_mem_cons] at h
      obtain ⟨⟨n, rfl, hfinite⟩, hes⟩ := h
      have hdecode : (decode n.entry.2).toOption = some n := by
        rw [show decode n.entry.2 = .ok n from decode_eq_ok.2 ⟨hfinite, rfl⟩]
        rfl
      rw [List.filterMap_cons, hdecode, List.map_cons, ← ih hes]

theorem Orderly.entries (h : Orderly d) :
    (d.collection collectionName).entries = (records d).map Notification.entry := by
  refine eq_map_entry ?_
  intro e he
  have hdoc : document? d e.1 = some e.2 := Table.find?_of_mem_entries he
  obtain ⟨n, hkey, hencode⟩ := h.keyed e.1 e.2 hdoc
  refine ⟨n, Prod.ext hkey hencode.symm, h.finite ?_⟩
  rw [hkey, hdoc, hencode]

/-- The records are the notifications that are stored. -/
theorem Orderly.mem_records (h : Orderly d) :
    n ∈ records d ↔ document? d n.key = some n.encode := by
  have hentry : n.entry ∈ (records d).map Notification.entry ↔
      document? d n.key = some n.encode := by
    rw [← h.entries]
    exact Entries.mem_iff_find? (d.collection collectionName).ordered
  rw [← hentry, List.mem_map]
  constructor
  · intro hn
    exact ⟨n, hn, rfl⟩
  · rintro ⟨m, hm, heq⟩
    obtain ⟨hkey, hencode⟩ := Prod.mk.inj heq
    have hstored := hentry.1 (heq ▸ List.mem_map_of_mem hm)
    exact eq_of_encode_eq (h.finite hstored) hencode.symm ▸ hm

theorem Orderly.records_ordered (h : Orderly d) :
    ((records d).map (·.key)).Pairwise (· < ·) := by
  have hordered := (d.collection collectionName).ordered
  rw [h.entries, Entries.Ordered, List.pairwise_map] at hordered
  exact List.pairwise_map.2 hordered

/-- A query gives the records that its conditions hold for. -/
theorem Orderly.decodeAll_matching (h : Orderly d) (filters : List FieldFilter) :
    decodeAll (d.matching collectionName filters) =
      .ok ((records d).filter fun n => filters.all (·.holds n.encode)) := by
  refine (decodeAll_eq_ok (exists_entry_of_mem_matching h.keyed filters)).2 ⟨?_, ?_⟩
  · rw [Documents.matching, h.entries, List.filter_map]
    rfl
  · intro n hn
    exact h.finite (h.mem_records.1 (List.mem_of_mem_filter hn))

theorem Orderly.select_apply (h : Orderly s.documents) (hc : s.context.isCancelled = false)
    {filters : List FieldFilter} {p : Notification → Bool}
    (hp : ∀ n, filters.all (·.holds n.encode) = p n) :
    (select filters s).1 = .ok ((records s.documents).filter p) := by
  rw [NotificationStore.select_apply, hc, ← funext hp]
  exact h.decodeAll_matching filters

theorem bind_pure_fst {α β : Type} {m : StoreM α} {f : α → β} {x : α} (h : (m s).1 = .ok x) :
    ((do return f (← m) : StoreM β) s).1 = .ok (f x) := by
  rw [bind_apply, h]
  rfl

/-- The records of a customer that are not sent yet. -/
def pendingRecords (d : Documents) (customerId alertId : String) : List Notification :=
  (records d).filter fun n => n.customerId = customerId ∧ n.sent = none ∧ n.alertId = alertId

/-- The records of an etag, an alert and a period. -/
def recordsOf (d : Documents) (etag alertId period : String) : List Notification :=
  (records d).filter fun n => n.etag = etag ∧ n.alertId = alertId ∧ n.period = period

/-- The typed records are what is stored, and the queries are filters of them. -/
structure Exact (s : Session) : Prop where
  keyed : ∀ k doc, document? s.documents k = some doc → ∃ n, decode doc = .ok n ∧ n.key = k
  stored : ∀ n : Notification,
    n ∈ records s.documents ↔ document? s.documents n.key = some n.encode
  ordered : ((records s.documents).map (·.key)).Pairwise (· < ·)
  pending : ∀ customerId, ∃ t, ((pendingFor customerId).run s).1 = .ok t ∧ ∀ alertId,
    t.find? alertId = if pendingRecords s.documents customerId alertId = [] then none
      else some (pendingRecords s.documents customerId alertId)
  customers : ∃ customers, (customersWithPending.run s).1 = .ok customers ∧
    customers.Pairwise (· < ·) ∧ ∀ customerId, customerId ∈ customers ↔
      ∃ n ∈ records s.documents, n.sent = none ∧ n.customerId = customerId
  breakdowns : ∀ etag alertId period, ((detectedBreakdowns etag alertId period).run s).1 =
    .ok ⟨(recordsOf s.documents etag alertId period).filterMap (·.breakdown),
      ((recordsOf s.documents etag alertId period).filter (·.sent = none)).length⟩

theorem Orderly.pendingFor_eq (h : Orderly s.documents) (hc : s.context.isCancelled = false)
    (customerId : String) : ((pendingFor customerId).run s).1 =
      .ok (byAlert ((records s.documents).filter fun n =>
        n.customerId = customerId ∧ n.sent = none)) := by
  refine bind_pure_fst (h.select_apply hc ?_)
  intro n
  simp [Notification.holds_customerId, Notification.holds_unsent]

theorem find?_byAlert (ns : List Notification) (alertId : String) :
    (byAlert ns).find? alertId = if ns.filter (·.alertId = alertId) = [] then none
      else some (ns.filter (·.alertId = alertId)) := by
  have hfind := Table.find?_foldl_push_empty Notification.alertId id ns alertId
  rwa [List.map_id] at hfind

theorem mem_entries_byAlert {ns : List Notification} {n : Notification} (hn : n ∈ ns) :
    (n.alertId, ns.filter (·.alertId = n.alertId)) ∈ (byAlert ns).entries := by
  refine (Entries.mem_iff_find? (byAlert ns).ordered).2 ?_
  have hmem : n ∈ ns.filter (·.alertId = n.alertId) := List.mem_filter.2 ⟨hn, by simp⟩
  exact (find?_byAlert ns n.alertId).trans (if_neg (List.ne_nil_of_mem hmem))

theorem Orderly.customers_eq (h : Orderly s.documents) (hc : s.context.isCancelled = false) :
    (customersWithPending.run s).1 = .ok (Table.ofList (((records s.documents).filter fun n =>
      n.sent = none).map fun n => (n.customerId, ()))).keys := by
  refine bind_pure_fst (h.select_apply hc ?_)
  intro n
  simp [Notification.holds_unsent]

theorem Orderly.breakdowns_eq (h : Orderly s.documents) (hc : s.context.isCancelled = false)
    (etag alertId period : String) : ((detectedBreakdowns etag alertId period).run s).1 =
      .ok (breakdownsOf (recordsOf s.documents etag alertId period)) := by
  refine bind_pure_fst (h.select_apply hc ?_)
  intro n
  simp [Notification.holds_etag, Notification.holds_alertId, Notification.holds_period]

theorem Orderly.exact (h : Orderly s.documents) (hc : s.context.isCancelled = false) :
    Exact s where
  keyed k doc hdoc := by
    obtain ⟨n, rfl, rfl⟩ := h.keyed k doc hdoc
    exact ⟨n, decode_eq_ok.2 ⟨h.finite hdoc, rfl⟩, rfl⟩
  stored _ := h.mem_records
  ordered := h.records_ordered
  pending customerId := by
    refine ⟨_, h.pendingFor_eq hc customerId, ?_⟩
    intro alertId
    have hgroup : ((records s.documents).filter fun n =>
        n.customerId = customerId ∧ n.sent = none).filter (·.alertId = alertId) =
          pendingRecords s.documents customerId alertId := by
      rw [pendingRecords, List.filter_filter]
      congr 1
      funext n
      simp [and_comm, and_left_comm]
    rw [find?_byAlert, hgroup]
  customers := by
    refine ⟨_, h.customers_eq hc, List.pairwise_map.2 (Table.ordered _), ?_⟩
    intro customerId
    rw [Table.mem_keys_ofList]
    simp [and_assoc]
  breakdowns etag alertId period := by
    have hunsent : (fun n : Notification => !n.isSent) = fun n => decide (n.sent = none) := by
      funext n
      cases hn : n.sent with
      | none => simp [Notification.isSent, hn]
      | some t => simp [Notification.isSent, hn]
    rw [h.breakdowns_eq hc, breakdownsOf, hunsent]

/-- The pending notifications of a customer, if all of them can be read. -/
def pendingOf (d : Documents) (customerId : String) : Except Fault (List Notification) :=
  decodeAll (d.matching collectionName
    [.textEquals "customerId" customerId, .isNull "timeSent"])

theorem holds_pending {customerId : String} :
    [FieldFilter.textEquals "customerId" customerId, .isNull "timeSent"].all
      (·.holds n.encode) = true ↔ n.customerId = customerId ∧ n.sent = none := by
  simp [Notification.holds_customerId, Notification.holds_unsent]

theorem mem_pendingOf (hd : Keyed d) {customerId : String} {ns : List Notification}
    (h : pendingOf d customerId = .ok ns) : n ∈ ns ↔ document? d n.key = some n.encode ∧
      n.customerId = customerId ∧ n.sent = none :=
  (mem_select hd h).trans (and_congr_right fun _ => holds_pending)

/-- The pending notifications of a customer can be read, unless a value is not finite. -/
theorem exists_pendingOf_iff (hd : Keyed d) {customerId : String} :
    (∃ ns, pendingOf d customerId = .ok ns) ↔
      ¬∃ n, Stuck d n ∧ n.customerId = customerId := by
  rw [pendingOf, exists_decodeAll]
  constructor
  · rintro h ⟨n, hstuck, hcustomer⟩
    obtain ⟨m, hm⟩ := h n.entry
      (Documents.mem_matching.2 ⟨hstuck.stored, holds_pending.2 ⟨hcustomer, hstuck.unsent⟩⟩)
    have hfinite := (decode_eq_ok.1 hm).1
    rw [hstuck.infinite] at hfinite
    cases hfinite
  · intro h e he
    obtain ⟨n, rfl⟩ := exists_entry_of_mem_matching hd _ e he
    obtain ⟨hstored, hholds⟩ := Documents.mem_matching.1 he
    obtain ⟨hcustomer, hunsent⟩ := holds_pending.1 hholds
    refine ⟨n, decode_eq_ok.2 ⟨?_, rfl⟩⟩
    by_contra hinfinite
    exact h ⟨n, ⟨hstored, hunsent, Bool.eq_false_iff.2 hinfinite⟩, hcustomer⟩

/-- A call that writes: a detection under the etag of a refresh, or the stamp of a key. -/
inductive Update where
  | record (context : Context) (n : Notification) (etag : String)
  | stamp (context : Context) (key : String) (time : Instant)

namespace Update

def after (d : Documents) : Update → Documents
  | record context n etag => ((addDetected n etag).run ⟨context, d⟩).2.documents
  | stamp context key time => ((markSent key time).run ⟨context, d⟩).2.documents

def Finite : Update → Prop
  | record _ n _ => Decimal.isFinite n.value = true
  | stamp .. => True

theorem orderly_after (h : Orderly d) {u : Update} (hu : u.Finite) : Orderly (u.after d) := by
  cases u with
  | record context n etag =>
      cases hrun : (addDetected n etag).run ⟨context, d⟩ with
      | mk r s' =>
          rw [after, hrun]
          obtain ⟨-, hsame⟩ | ⟨-, hsame⟩ | ⟨-, hwrite, -⟩ := addDetected_cases hrun
          · exact hsame.symm ▸ h
          · exact hsame.symm ▸ h
          · exact hwrite.symm ▸ h.write hu
  | stamp context key time =>
      cases hrun : (markSent key time).run ⟨context, d⟩ with
      | mk r s' =>
          rw [after, hrun]
          have hd : Keyed (Session.mk context d).documents := h.keyed
          obtain ⟨-, hsame⟩ | ⟨n, -, -, hfinite, -, hwrite⟩ := markSent_cases hd hrun
          · exact hsame.symm ▸ h
          · exact hwrite.symm ▸ h.write (n := n.sentAt time) hfinite

end Update

/-- The documents after some calls. -/
def updated (d : Documents) (us : List Update) : Documents := us.foldl Update.after d

theorem orderly_updated (h : Orderly d) {us : List Update} (hus : ∀ u ∈ us, u.Finite) :
    Orderly (updated d us) := by
  induction us generalizing d with
  | nil => exact h
  | cons u us ih =>
      rw [List.forall_mem_cons] at hus
      exact ih (Update.orderly_after h hus.1) hus.2

/-- After any calls that record notifications with finite values and stamp keys, whatever
their contexts were and whether they succeeded or not, the documents are the records of a
sorted list, and the queries of a live context are filters of this list. -/
theorem queries_exact (hempty : ∀ k, document? d k = none) {us : List Update}
    (hfinite : ∀ u ∈ us, u.Finite) {context : Context} (hlive : context.isCancelled = false) :
    Exact ⟨context, updated d us⟩ :=
  Orderly.exact (s := ⟨context, _⟩) (orderly_updated (orderly_of_empty hempty) hfinite) hlive

namespace Sample

theorem valid_detected : Date.Valid 2024 5 1 := by decide

theorem valid_expiry : Date.Valid 2024 11 1 := by decide

def spend (alertId : String) (breakdown : Option String) (value : Float) : Notification where
  alertId := alertId
  alertName := "Spend"
  sentence := "Spend above $20.00"
  customerId := "acme"
  recipients := ["ops@acme.com"]
  value := value
  period := "2024-05"
  breakdown := breakdown
  breakdownLabel := breakdown.map fun _ => "Service"
  etag := "v1"
  detected := .midnight ⟨2024, 5, 1, valid_detected⟩
  sent := none
  expiry := .midnight ⟨2024, 11, 1, valid_expiry⟩

/-- Two services of one alert, of which one is sent, and another alert. -/
def updates : List Update :=
  [.record .fresh (spend "b1" none 30.0) "v1", .record .fresh (spend "a1" (some "GKE") 25.0) "v1",
    .record .fresh (spend "a1" (some "BigQuery") 40.0) "v1",
    .stamp .fresh (spend "a1" (some "GKE") 25.0).key (.midnight ⟨2024, 5, 2, by decide⟩)]

end Sample

open Sample in
/-- The service that was sent still counts as recorded, and not as pending. -/
theorem queries_exact_two_services :
    Exact ⟨.fresh, updated .empty updates⟩ ∧
      ((detectedBreakdowns "v1" "a1" "2024-05").run ⟨.fresh, updated .empty updates⟩).1 =
        .ok ⟨["BigQuery", "GKE"], 1⟩ := by
  have hfinite : ∀ u ∈ updates, u.Finite := by
    simp [updates, Update.Finite, spend]
    decide +kernel
  have hexact : Exact ⟨.fresh, updated .empty updates⟩ :=
    queries_exact (fun _ => rfl) hfinite rfl
  refine ⟨hexact, ?_⟩
  rw [hexact.breakdowns]
  decide +kernel

end NotificationStore

end SpendAlerts
