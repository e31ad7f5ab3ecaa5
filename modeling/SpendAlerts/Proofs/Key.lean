import SpendAlerts.Notification
import SpendAlerts.Proofs.Period.Names
import SpendAlerts.Proofs.Text.Base64

/-!
Keys of notifications. The parts of a key stand between separators, and a key determines them: the
alert as long as ids are free of the separator or only one alert is in question, the period because
no name of one has a separator in it, and then the breakdown value from its encoding, which may
have separators but stands last. Only the id of the alert can bring a slash into a key.
-/

namespace SpendAlerts

/-- The name is that of a period. -/
def Period.Named (p : String) : Prop :=
  ∃ i t, Period.name? i t = .ok p

theorem Period.Named.separator_notMem {p : String} (h : Period.Named p) : '_' ∉ p.toList := by
  obtain ⟨i, t, hp⟩ := h
  exact Period.separator_notMem_name? hp

theorem Period.Named.slash_notMem {p : String} (h : Period.Named p) : '/' ∉ p.toList := by
  obtain ⟨i, t, hp⟩ := h
  exact Period.slash_notMem_name? hp

namespace Notification

/-- What stands behind the alert and the separator. -/
def keyRest (n : Notification) : List Char :=
  n.period.toList ++ match n.breakdown with
    | some b => '_' :: (Text.Base64.encodeString .urlSafe b).toList
    | none => []

theorem toList_key (n : Notification) : n.key.toList = n.alertId.toList ++ '_' :: n.keyRest := by
  rw [key, keyRest]
  cases n.breakdown <;> simp

/-- A key determines the alert, unless ids contain the separator. -/
theorem alertId_of_key {n m : Notification} (hn : '_' ∉ n.alertId.toList)
    (hm : '_' ∉ m.alertId.toList) (h : n.key = m.key) : n.alertId = m.alertId := by
  have hlist := congrArg String.toList h
  rw [toList_key, toList_key] at hlist
  exact String.toList_inj.1 (Text.eq_of_append_cons_eq hn hm hlist).1

/-- A period is followed by a separator exactly if there is a breakdown value. -/
theorem keyRest_inj {n m : Notification} (hn : '_' ∉ n.period.toList) (hm : '_' ∉ m.period.toList)
    (h : n.keyRest = m.keyRest) : n.period = m.period ∧ n.breakdown = m.breakdown := by
  rw [keyRest, keyRest] at h
  cases hnb : n.breakdown with
  | none =>
      cases hmb : m.breakdown with
      | none =>
          simp only [hnb, hmb, List.append_nil] at h
          exact ⟨String.toList_inj.1 h, rfl⟩
      | some b =>
          simp only [hnb, hmb, List.append_nil] at h
          exact absurd (h ▸ List.mem_append_right _ List.mem_cons_self) hn
  | some b =>
      cases hmb : m.breakdown with
      | none =>
          simp only [hnb, hmb, List.append_nil] at h
          exact absurd (h ▸ List.mem_append_right _ List.mem_cons_self) hm
      | some b' =>
          simp only [hnb, hmb] at h
          obtain ⟨hperiod, hlabel⟩ := Text.eq_of_append_cons_eq hn hm h
          have hb := Text.Base64.encodeString_injective Text.Base64.Alphabet.readable_urlSafe
            (String.toList_inj.1 hlabel)
          exact ⟨String.toList_inj.1 hperiod, congrArg some hb⟩

/-- For one alert a key is made of a period and a breakdown value, and determines both. -/
theorem key_eq_iff {n m : Notification} (halert : n.alertId = m.alertId)
    (hn : '_' ∉ n.period.toList) (hm : '_' ∉ m.period.toList) :
    n.key = m.key ↔ n.period = m.period ∧ n.breakdown = m.breakdown := by
  constructor
  · intro h
    have hlist := congrArg String.toList h
    rw [toList_key, toList_key, halert] at hlist
    exact keyRest_inj hn hm (List.cons.inj (List.append_cancel_left hlist)).2
  · rintro ⟨hperiod, hbreakdown⟩
    rw [key, key, halert, hperiod, hbreakdown]

theorem slash_mem_key_iff {n : Notification} (hperiod : '/' ∉ n.period.toList) :
    '/' ∈ n.key.toList ↔ '/' ∈ n.alertId.toList := by
  have hrest : '/' ∉ n.keyRest := by
    rw [keyRest]
    cases n.breakdown with
    | none => simpa using hperiod
    | some b => simpa [hperiod] using Text.Base64.slash_notMem_encodeString b
  rw [toList_key, List.mem_append, List.mem_cons]
  exact ⟨fun h => h.resolve_right (by simpa using hrest), .inl⟩

/-- Notifications have the same key exactly if they are of the same alert and period and have the
same breakdown value, where no value and the empty text are different. Ids of different alerts
have to be free of the separator. A slash comes into a key with the id only. -/
theorem key_determines {n m : Notification} (hn : Period.Named n.period)
    (hm : Period.Named m.period)
    (hid : n.alertId = m.alertId ∨ '_' ∉ n.alertId.toList ∧ '_' ∉ m.alertId.toList) :
    (n.key = m.key ↔
      n.alertId = m.alertId ∧ n.period = m.period ∧ n.breakdown = m.breakdown) ∧
    ('/' ∈ n.key.toList ↔ '/' ∈ n.alertId.toList) := by
  refine ⟨⟨fun h => ?_, ?_⟩, slash_mem_key_iff hn.slash_notMem⟩
  · have halert : n.alertId = m.alertId :=
      hid.elim id fun hfree => alertId_of_key hfree.1 hfree.2 h
    exact ⟨halert, (key_eq_iff halert hn.separator_notMem hm.separator_notMem).1 h⟩
  · rintro ⟨halert, hparts⟩
    exact (key_eq_iff halert hn.separator_notMem hm.separator_notMem).2 hparts

theorem valid_may : Date.Valid 2024 5 15 := by decide

theorem valid_november : Date.Valid 2024 11 15 := by decide

/-- A detection of an alert for May 2024, of all costs or of those of one service. -/
def ofMay (alert : String) (service : Option String) : Notification where
  alertId := alert
  alertName := "Spend"
  sentence := ""
  customerId := "acme"
  recipients := []
  value := 30.0
  period := "2024-05"
  breakdown := service
  breakdownLabel := service.map fun _ => "Service"
  etag := "v1"
  detected := .midnight ⟨2024, 5, 15, valid_may⟩
  sent := none
  expiry := .midnight ⟨2024, 11, 15, valid_november⟩

/-- The costs of a service without a name are not those of all services, and a slash in the name of
a service does not get into the key. -/
theorem key_determines_unnamed :
    Period.Named "2024-05" ∧ (ofMay "a_1" none).key ≠ (ofMay "a_1" (some "")).key ∧
      ('_' ∉ "a1".toList ∧ '_' ∉ "a2".toList) ∧
      (ofMay "a1" (some "ads/eu")).key ≠ (ofMay "a2" (some "ads/eu")).key ∧
      '/' ∉ (ofMay "a1" (some "ads/eu")).key.toList := by
  have hnamed : Period.Named "2024-05" :=
    ⟨.month, .midnight ⟨2024, 5, 15, valid_may⟩, by decide +kernel⟩
  have hfree : '_' ∉ "a1".toList ∧ '_' ∉ "a2".toList := by decide
  obtain ⟨hservice, -⟩ :=
    key_determines (n := ofMay "a_1" none) (m := ofMay "a_1" (some "")) hnamed hnamed (.inl rfl)
  obtain ⟨halert, hslash⟩ := key_determines (n := ofMay "a1" (some "ads/eu"))
    (m := ofMay "a2" (some "ads/eu")) hnamed hnamed (.inr hfree)
  refine ⟨hnamed, fun h => ?_, hfree, fun h => ?_, mt hslash.1 (by decide)⟩
  · cases (hservice.1 h).2.2
  · exact absurd (halert.1 h).1 (by decide)

end Notification

end SpendAlerts
