import SpendAlerts.Proofs.Store.Notifications

/-!
Which queries over notifications succeed. A query fails in a cancelled context or over a
matching document that does not decode, and in no other case. Documents of notifications
decode exactly if their values are finite, so one notification with a value that is not
finite makes the list of customers fail for all of them, until it is sent.
-/

namespace SpendAlerts

namespace NotificationStore

variable {d : Documents} {s : Session} {n : Notification}

def Readable (d : Documents) : Prop :=
  ∀ k doc, document? d k = some doc → ∃ n, decode doc = .ok n

theorem readable_iff (hd : Keyed d) : Readable d ↔
    ∀ n : Notification, document? d n.key = some n.encode → Decimal.isFinite n.value = true := by
  constructor
  · intro h n hn
    obtain ⟨m, hm⟩ := h n.key n.encode hn
    exact (decode_eq_ok.1 hm).1
  · intro h k doc hdoc
    obtain ⟨n, rfl, rfl⟩ := hd k doc hdoc
    exact ⟨n, decode_eq_ok.2 ⟨h n hdoc, rfl⟩⟩

theorem exists_decodeAll {docs : List (String × Value)} :
    (∃ ns, decodeAll docs = .ok ns) ↔ ∀ e ∈ docs, ∃ n, decode e.2 = .ok n := by
  induction docs with
  | nil => simp [decodeAll]
  | cons e docs ih =>
      rw [List.forall_mem_cons, ← ih]
      constructor
      · intro h
        obtain ⟨ns, hns⟩ := h
        obtain ⟨n, hn, hrest⟩ := bind_eq_ok.1 hns
        obtain ⟨ms, hms, -⟩ := bind_eq_ok.1 hrest
        exact ⟨⟨n, hn⟩, ⟨ms, hms⟩⟩
      · intro h
        obtain ⟨⟨n, hn⟩, ⟨ms, hms⟩⟩ := h
        exact ⟨n :: ms, bind_eq_ok.2 ⟨n, hn, bind_eq_ok.2 ⟨ms, hms, rfl⟩⟩⟩

theorem isOk_iff {α : Type} {x : Except Fault α} : x.isOk = true ↔ ∃ y, x = .ok y := by
  cases x with
  | ok y => exact ⟨fun _ => ⟨y, rfl⟩, fun _ => rfl⟩
  | error e =>
      constructor
      · intro h
        cases h
      · intro h
        obtain ⟨y, hy⟩ := h
        cases hy

/-- A query succeeds exactly if the context is live and all matching documents decode. -/
theorem isOk_select (filters : List FieldFilter) : (select filters s).1.isOk = true ↔
    s.context.isCancelled = false ∧ ∀ k doc, document? s.documents k = some doc →
      filters.all (·.holds doc) = true → ∃ n, decode doc = .ok n := by
  rw [select_apply]
  cases s.context.isCancelled with
  | true => simp [isOk_iff]
  | false =>
      simp only [Bool.false_eq_true, if_false, isOk_iff, exists_decodeAll, true_and]
      constructor
      · intro h k doc hdoc hholds
        exact h (k, doc) (Documents.mem_matching.2 ⟨hdoc, hholds⟩)
      · intro h e he
        obtain ⟨hdoc, hholds⟩ := Documents.mem_matching.1 he
        exact h e.1 e.2 hdoc hholds

theorem isOk_select_then {α : Type} (filters : List FieldFilter)
    (f : List Notification → α) : ((do return f (← select filters) : StoreM α) s).1.isOk =
      (select filters s).1.isOk := by
  rw [bind_apply]
  cases (select filters s).1 with
  | ok ns => rfl
  | error e => rfl

theorem Readable.isOk_select (hd : Readable s.documents) (hc : s.context.isCancelled = false)
    (filters : List FieldFilter) : (select filters s).1.isOk = true :=
  (NotificationStore.isOk_select filters).2 ⟨hc, fun k doc hdoc _ => hd k doc hdoc⟩

/-- Where every document decodes, all queries succeed in a live context. -/
structure Answers (s : Session) : Prop where
  customers : (customersWithPending s).1.isOk = true
  pending : ∀ customerId, (pendingFor customerId s).1.isOk = true
  breakdowns : ∀ etag alertId period, (detectedBreakdowns etag alertId period s).1.isOk = true

theorem Readable.answers (hd : Readable s.documents) (hc : s.context.isCancelled = false) :
    Answers s where
  customers := (isOk_select_then _ _).trans (hd.isOk_select hc _)
  pending _ := (isOk_select_then _ _).trans (hd.isOk_select hc _)
  breakdowns _ _ _ := (isOk_select_then _ _).trans (hd.isOk_select hc _)

/-- An unsent notification is stored whose document does not decode. -/
structure Stuck (d : Documents) (n : Notification) : Prop where
  stored : document? d n.key = some n.encode
  unsent : n.sent = none
  infinite : Decimal.isFinite n.value = false

theorem Stuck.not_readable (h : Stuck d n) : ¬Readable d := by
  intro hd
  obtain ⟨m, hm⟩ := hd n.key n.encode h.stored
  have hfinite := (decode_eq_ok.1 hm).1
  rw [h.infinite] at hfinite
  cases hfinite

/-- One such notification hides the pending ones of all customers. -/
theorem Stuck.customers (h : Stuck s.documents n) :
    (customersWithPending s).1.isOk = false := by
  rw [Bool.eq_false_iff]
  intro hok
  obtain ⟨-, hall⟩ := (isOk_select _).1 ((isOk_select_then _ _).symm.trans hok)
  obtain ⟨m, hm⟩ := hall n.key n.encode h.stored (by simpa using n.holds_isNull_timeSent.2 h.unsent)
  have hfinite := (decode_eq_ok.1 hm).1
  rw [h.infinite] at hfinite
  cases hfinite

theorem Stuck.stamps {d' : Documents} {ns : List Notification} {time : String → Instant}
    (h : Stuck d n) (hns : ∀ m ∈ ns, Decimal.isFinite m.value = true ∧
      document? d m.key = some m.encode) (hstamps : Stamps time d ns d') : Stuck d' n := by
  refine ⟨?_, h.unsent, h.infinite⟩
  rw [hstamps.others, h.stored]
  intro hmem
  obtain ⟨m, hm, hkey⟩ := List.mem_map.1 hmem
  obtain ⟨hfinite, hdoc⟩ := hns m hm
  rw [hkey, h.stored] at hdoc
  obtain rfl := eq_of_encode_eq hfinite (Option.some.inj hdoc).symm
  rw [h.infinite] at hfinite
  cases hfinite

end NotificationStore

end SpendAlerts
