import SpendAlerts.Notification
import SpendAlerts.Proofs.Calendar.Written
import SpendAlerts.Proofs.Document.Reading

/-!
Documents of notifications. A notification with a finite value is read back from its
document, whatever its texts, times and optional fields are. One whose value is not
finite has a document too, but that holds no number and is never read again.
-/

namespace SpendAlerts

namespace Decode

theorem items_map {α : Type} {item : Decoder α} {f : α → Value}
    (h : ∀ x, item (f x) = .ok x) (xs : List α) : items item (xs.map f) = .ok xs := by
  induction xs with
  | nil => rfl
  | cons x xs ih => simp [items, h, ih, bind, Except.bind]

@[simp]
theorem list_strings (xs : List String) : list text (.strings xs) = .ok xs := by
  have h : ∀ s, text (.string s) = .ok s := fun _ => rfl
  exact items_map h xs

@[simp]
theorem instant_text (t : Instant) : instant (.string t.text) = .ok t := by
  simp [instant, Instant.ofText?_text]

@[simp]
theorem option_instant (t : Option Instant) :
    option instant (.orNull (fun t => .string t.text) t) = .ok t := by
  cases t with
  | none => rfl
  | some t => simp [Value.orNull, option, Except.map]

theorem float_ofFloat {x : Float} (h : Decimal.isFinite x = true) :
    float (.ofFloat x) = .ok x := by
  simp [Value.ofFloat, h, float]

end Decode

namespace Notification

theorem nodup_fields (n : Notification) : (n.fields.map (·.1)).Nodup := by
  cases hb : n.breakdown <;> cases hl : n.breakdownLabel <;>
    simp [fields, Value.present, hb, hl]

theorem gives_fields (n : Notification) (h : Decimal.isFinite n.value = true) :
    reading.Gives n.fields n := by
  refine ((((((((((((Reading.Gives.map Notification.mk
    (.present (v := .string n.alertId) ?_ rfl)).seq
    (.present (v := .string n.alertName) ?_ rfl)).seq
    (.present (v := .string n.sentence) ?_ rfl)).seq
    (.present (v := .string n.customerId) ?_ rfl)).seq
    (.present (v := .strings n.recipients) ?_ (Decode.list_strings _))).seq
    (.present (v := .ofFloat n.value) ?_ (Decode.float_ofFloat h))).seq
    (.present (v := .string n.period) ?_ rfl)).seq
    (.optional (f := Value.string) ?_ fun _ => rfl)).seq
    (.optional (f := Value.string) ?_ fun _ => rfl)).seq
    (.present (v := .string n.etag) ?_ rfl)).seq
    (.present (v := .string n.detected.text) ?_ (Decode.instant_text _))).seq
    (.present (v := .orNull (fun t => .string t.text) n.sent) ?_ (Decode.option_instant _))).seq
    (.present (v := .string n.expiry.text) ?_ (Decode.instant_text _))
  all_goals simp [fields, Entries.find?, Entries.find?_append, Value.find?_present]

theorem decode_encode (n : Notification) (h : Decimal.isFinite n.value = true) :
    decode n.encode = .ok n :=
  (n.gives_fields h).ofFields n.nodup_fields

/-- A value that is not finite makes the whole document unreadable. -/
theorem isFinite_of_decode_encode {n m : Notification} (h : decode n.encode = .ok m) :
    Decimal.isFinite n.value = true := by
  have hvalue : ("value", Value.ofFloat n.value) ∈ n.fields := by simp [fields]
  have hwrong : Reading.failure? (Decode.float (.ofFloat n.value)) = none :=
    Reading.wrong?_of_ofFields (c := ⟨"value", true, fun v => Reading.failure? (Decode.float v)⟩)
      h rfl hvalue
  by_contra hnot
  simp [Value.ofFloat, hnot, Decode.float, Reading.failure?] at hwrong

/-- What the document of a notification decodes to, if anything. -/
theorem decode_encode_eq_ok {n m : Notification} :
    decode n.encode = .ok m ↔ Decimal.isFinite n.value = true ∧ m = n := by
  constructor
  · intro h
    have hfinite := isFinite_of_decode_encode h
    rw [decode_encode n hfinite] at h
    cases h
    exact ⟨hfinite, rfl⟩
  · rintro ⟨h, rfl⟩
    exact decode_encode m h

end Notification

end SpendAlerts
