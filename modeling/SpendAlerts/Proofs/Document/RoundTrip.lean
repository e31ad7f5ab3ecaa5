import SpendAlerts.Proofs.Decimal.Rounding
import SpendAlerts.Proofs.Store.AlertDocuments

/-!
Stored documents round-trip. What cannot be written is known: a double that is not finite, and
a limit that is too large for a number of the document. An alert without these is read back as
it is, and what JSON decodes to has none of them, so writing it again and reading that changes
nothing, whatever was left out, in excess or in another form in the document it came from.
-/

namespace SpendAlerts

namespace Value

mutual

/-- A document as JSON has it: doubles are finite, and integers have 64 bits. -/
def IsJson : Value → Prop
  | int n => -2 ^ 63 ≤ n ∧ n < 2 ^ 64
  | float x => Decimal.isFinite x = true
  | list xs => AllJson xs
  | record fields => FieldsJson fields
  | _ => True

def AllJson : List Value → Prop
  | [] => True
  | v :: vs => IsJson v ∧ AllJson vs

def FieldsJson : List (String × Value) → Prop
  | [] => True
  | (_, v) :: rest => IsJson v ∧ FieldsJson rest

end

theorem FieldsJson.find {fields : List (String × Value)} (h : FieldsJson fields) {name : String}
    {v : Value} (hv : Entries.find? name fields = some v) : v.IsJson := by
  induction fields with
  | nil => cases hv
  | cons first rest ih =>
      obtain ⟨k, w⟩ := first
      rw [Entries.find?] at hv
      split at hv
      · cases hv
        exact h.1
      · exact ih h.2 hv

/-- The fields that a list stands for. -/
theorem AllJson.zip {xs : List Value} (h : AllJson xs) (names : List String) :
    FieldsJson (names.zip xs) := by
  induction names generalizing xs with
  | nil => trivial
  | cons name names ih =>
      cases xs with
      | nil => trivial
      | cons v vs => exact ⟨h.1, ih h.2⟩

end Value

namespace Decode

variable {α : Type} {P : α → Prop}

/-- What JSON decodes to has the property. -/
def Makes (decode : Decoder α) (P : α → Prop) : Prop :=
  ∀ v x, v.IsJson → decode v = .ok x → P x

theorem Makes.float : Makes Decode.float fun x => Decimal.isFinite x = true := by
  intro v x hv h
  cases v with
  | int n =>
      cases h
      obtain ⟨hlow, hhigh⟩ : -2 ^ 63 ≤ n ∧ n < 2 ^ 64 := hv
      exact Decimal.isFinite_ofInt (by omega)
  | float x =>
      cases h
      exact hv
  | null | bool _ | string _ | list _ | record _ => cases h

theorem Makes.natBelow (bound : Nat) (expected : String) :
    Makes (Decode.natBelow bound expected) (· < bound) := by
  intro v x _ h
  cases v with
  | int n =>
      cases n with
      | ofNat n =>
          simp only [Decode.natBelow] at h
          split at h
          · next hlt =>
            cases h
            exact hlt
          · cases h
      | negSucc n => cases h
  | null | bool _ | float _ | string _ | list _ | record _ => cases h

theorem Makes.list {item : Decoder α} (h : Makes item P) :
    Makes (Decode.list item) fun xs => ∀ x ∈ xs, P x := by
  intro v ys hv hys
  cases v with
  | list xs =>
      change items item xs = .ok ys at hys
      induction xs generalizing ys with
      | nil =>
          cases hys
          exact List.forall_mem_nil P
      | cons v vs ih =>
          obtain ⟨x, hx, hys⟩ := bind_eq_ok.1 hys
          obtain ⟨xs, hxs, hys⟩ := bind_eq_ok.1 hys
          cases hys
          exact List.forall_mem_cons.2 ⟨h v x hv.1 hx, ih xs hv.2 hxs⟩
  | null | bool _ | int _ | float _ | string _ | record _ => cases hys

theorem Makes.option {decode : Decoder α} (h : Makes decode P) :
    Makes (Decode.option decode) fun o => ∀ x, o = some x → P x := by
  rintro v o hv ho x rfl
  cases v with
  | null => cases ho
  | bool _ | int _ | float _ | string _ | list _ | record _ =>
      obtain ⟨y, hy, hxy⟩ := map_eq_ok.1 ho
      cases hxy
      exact h _ x hv hy

theorem items_map_of_mem {item : Decoder α} {f : α → Value} {xs : List α}
    (h : ∀ x ∈ xs, item (f x) = .ok x) : items item (xs.map f) = .ok xs := by
  induction xs with
  | nil => rfl
  | cons x xs ih =>
      obtain ⟨hx, hxs⟩ := List.forall_mem_cons.1 h
      simp [items, hx, ih hxs]

theorem option_of_ok {decode : Decoder α} {v : Value} {x : α} (hv : v.isNull = false)
    (h : decode v = .ok x) : option decode v = .ok (some x) := by
  cases v with
  | null => cases hv
  | bool _ | int _ | float _ | string _ | list _ | record _ => simp [option, h, Except.map]

theorem list_map_of_mem {item : Decoder α} {f : α → Value} {xs : List α}
    (h : ∀ x ∈ xs, item (f x) = .ok x) : list item (.list (xs.map f)) = .ok xs :=
  items_map_of_mem h

end Decode

namespace Reading

variable {α β : Type}

/-- A field that is left out where there is nothing to write, and decodes where there is. -/
theorem Gives.optionalOf {name : String} {decode : Decoder α} {f : α → Value}
    {fields : List (String × Value)} {o : Option α}
    (hf : ∀ x, o = some x → (f x).isNull = false ∧ decode (f x) = .ok x)
    (hv : Entries.find? name fields = o.map f) :
    (Reading.optional name decode).Gives fields o := by
  cases o with
  | none => exact .absent hv
  | some x => exact .present hv (Decode.option_of_ok (hf x rfl).1 (hf x rfl).2)

/-- What the reading makes of fields of JSON has the property. -/
def Makes (r : Reading α) (P : α → Prop) : Prop :=
  ∀ fields x, Value.FieldsJson fields → r.get fields = .ok x → P x

variable {P : α → Prop} {Q : β → Prop}

theorem Makes.any (r : Reading α) : r.Makes fun _ => True := fun _ _ _ _ => trivial

theorem Makes.seq {f : Reading (α → β)} {r : Reading α} (hf : f.Makes fun g => ∀ x, P x → Q (g x))
    (hr : r.Makes P) : (f <*> r).Makes Q := by
  intro fields y hfields hy
  obtain ⟨g, x, hg, hx, rfl⟩ := get_seq.1 hy
  exact hf fields g hfields hg x (hr fields x hfields hx)

theorem Makes.map {g : α → β} {r : Reading α} (hg : ∀ x, P x → Q (g x)) (hr : r.Makes P) :
    (g <$> r).Makes Q := by
  intro fields y hfields hy
  obtain ⟨x, hx, rfl⟩ := get_map.1 hy
  exact hg x (hr fields x hfields hx)

theorem Makes.fieldOr {name : String} {decode : Decoder α} {default : Option α}
    (h : Decode.Makes decode P) (hdefault : ∀ x, default = some x → P x) :
    (Reading.fieldOr name decode default).Makes P := by
  intro fields x hfields hx
  cases hv : Entries.find? name fields with
  | some v =>
      rw [get_fieldOr hv] at hx
      exact h v x (hfields.find hv) hx
  | none =>
      cases default with
      | none => simp [Reading.fieldOr, hv] at hx
      | some d =>
          simp only [Reading.fieldOr, hv] at hx
          cases hx
          exact hdefault x rfl

theorem Makes.field {name : String} {decode : Decoder α} (h : Decode.Makes decode P) :
    (Reading.field name decode).Makes P :=
  .fieldOr h fun _ hd => by cases hd

theorem Makes.optional {name : String} {decode : Decoder α} (h : Decode.Makes decode P) :
    (Reading.optional name decode).Makes fun o => ∀ x, o = some x → P x :=
  .fieldOr h.option fun _ hd x hx => by
    cases hd
    cases hx

/-- A list is read as the fields that it stands for. -/
theorem Makes.decode {type : String} {r : Reading α} (h : r.Makes P) :
    Decode.Makes (r.decode type) P := by
  intro v x hv hx
  cases v with
  | record fields => exact h fields x hv (get_of_ofFields hx)
  | list xs =>
      refine h _ x (Value.AllJson.zip hv (r.checks.map (·.name))) ?_
      change r.ofItems _ _ xs = .ok x at hx
      simp only [ofItems] at hx
      split at hx
      · cases hx
      · split at hx
        · cases hx
        · split at hx
          · cases hx
          · exact hx
  | null | bool _ | int _ | float _ | string _ => cases hx

end Reading

open Decode (Makes)

/-! ### What can be written -/

def FilterLimit.Storable (l : FilterLimit) : Prop := l.limit < UInt64.size

def DimensionFilter.Storable (f : DimensionFilter) : Prop := ∀ l, f.limit = some l → l.Storable

structure IgnoredRange.Storable (r : IgnoredRange) : Prop where
  lower : Decimal.isFinite r.lower = true
  upper : Decimal.isFinite r.upper = true

structure AlertConfig.Storable (c : AlertConfig) : Prop where
  thresholds : ∀ x ∈ c.thresholds, Decimal.isFinite x = true
  filters : ∀ f ∈ c.filters, f.Storable
  ignoredRange : ∀ r, c.ignoredRange = some r → r.Storable

/-- Every double of the alert is finite, and every limit has 64 bits. -/
def Alert.Storable (a : Alert) : Prop := a.config.Storable

/-! ### What is written is read -/

section Names

open Decode

theorem Condition.named_name (c : Condition) : named ofName? (.string c.name) = .ok c := by
  cases c <;> rfl

theorem Comparison.named_symbol (c : Comparison) : named ofSymbol? (.string c.symbol) = .ok c := by
  cases c <;> rfl

theorem Interval.named_name (i : Interval) : named ofName? (.string i.name) = .ok i := by
  cases i <;> rfl

theorem Metric.named_name (m : Metric) : named ofName? (.string m.name) = .ok m := by
  cases m <;> rfl

theorem LimitOrder.choice_name (o : LimitOrder) : choice choices (.string o.name) = .ok o := by
  cases o <;> rfl

theorem DimensionType.choice_name (t : DimensionType) :
    choice choices (.string t.name) = .ok t := by
  cases t <;> rfl

end Names

theorem FilterLimit.decode_encode {l : FilterLimit} (h : l.Storable) : decode l.encode = .ok l := by
  have hlimit : Decode.natBelow UInt64.size "usize" (.int l.limit) = .ok l.limit := if_pos h
  refine Reading.Gives.ofFields ?_ (by simp)
  exact ((Reading.Gives.map FilterLimit.mk
    (.present rfl hlimit)).seq
    (.present rfl l.order.choice_name)).seq
    (.present rfl l.metric.named_name)

theorem DimensionFilter.decode_encode {f : DimensionFilter} (h : f.Storable) :
    decode f.encode = .ok f := by
  refine Reading.Gives.ofFields ?_ (by cases hl : f.limit <;> simp [Value.present])
  refine (((((Reading.Gives.map DimensionFilter.mk
    (.present (v := .string f.id) ?_ rfl)).seq
    (.present (v := .string f.key) ?_ rfl)).seq
    (.present ?_ f.type.choice_name)).seq
    (.present ?_ (Decode.list_strings f.values))).seq
    (.present (v := .bool f.inverse) ?_ rfl)).seq
    (.optionalOf (f := FilterLimit.encode)
      (fun l hl => ⟨rfl, FilterLimit.decode_encode (h l hl)⟩) ?_)
  all_goals simp [Entries.find?, Entries.find?_append, Value.find?_present]

theorem IgnoredRange.decode_encode {r : IgnoredRange} (h : r.Storable) :
    decode r.encode = .ok r := by
  refine Reading.Gives.ofFields ?_ (by simp)
  exact (Reading.Gives.map IgnoredRange.mk
    (.present rfl (Decode.float_ofFloat h.lower))).seq
    (.present rfl (Decode.float_ofFloat h.upper))

theorem CalculatedMetric.decode_encode (m : CalculatedMetric) : decode m.encode = .ok m := rfl

theorem AlertConfig.decode_encode {c : AlertConfig} (h : c.Storable) :
    decode c.encode = .ok c := by
  have hthresholds := Decode.list_map_of_mem fun x hx => Decode.float_ofFloat (h.thresholds x hx)
  have hfilters := Decode.list_map_of_mem fun f hf => DimensionFilter.decode_encode (h.filters f hf)
  refine Reading.Gives.ofFields ?_ ?_
  · refine ((((((((((((Reading.Gives.map AlertConfig.mk
      (.present ?_ c.condition.named_name)).seq
      (.present ?_ c.comparison.named_symbol)).seq
      (.present ?_ hthresholds)).seq
      (.present ?_ c.metric.named_name)).seq
      (.optional (f := Value.string) ?_ fun _ => rfl)).seq
      (.optionalOf (f := CalculatedMetric.encode) (fun m _ => ⟨rfl, m.decode_encode⟩) ?_)).seq
      (.present ?_ c.interval.named_name)).seq
      (.present ?_ (Decode.list_strings c.breakdowns))).seq
      (.present ?_ hfilters)).seq
      (.present ?_ (Decode.list_strings c.scope))).seq
      (.present (v := .string c.currency) ?_ rfl)).seq
      (.optionalOf (f := IgnoredRange.encode)
        (fun r hr => ⟨rfl, IgnoredRange.decode_encode (h.ignoredRange r hr)⟩) ?_)).seq
      (.present (v := .string c.dataSource) ?_ rfl)
    all_goals simp [Entries.find?, Entries.find?_append, Value.find?_present]
  · cases hm : c.calculatedMetric <;> cases he : c.extendedMetric <;>
      cases hr : c.ignoredRange <;> simp [Value.present]

theorem Alert.nodup_fields (a : Alert) : (a.fields.map (·.1)).Nodup := by
  cases ho : a.organization <;> simp [fields, Value.present, ho]

/-- An alert is read back if its configuration is. -/
theorem Alert.decode_encode_of_config {a : Alert}
    (h : AlertConfig.decode a.config.encode = .ok a.config) : decode a.encode = .ok a := by
  refine Reading.Gives.ofFields ?_ a.nodup_fields
  refine ((((((((((Reading.Gives.map Alert.mk
    (.present (v := .string a.id) ?_ rfl)).seq
    (.present (v := .string a.name) ?_ rfl)).seq
    (.present (v := .string a.customerId) ?_ rfl)).seq
    (.present ?_ h)).seq
    (.present ?_ (Decode.list_strings a.recipients))).seq
    (.present (v := .string a.etag) ?_ rfl)).seq
    (.optional (f := Value.string) ?_ fun _ => rfl)).seq
    (.present ?_ (Decode.instant_text a.created))).seq
    (.present ?_ (Decode.instant_text a.modified))).seq
    (.present ?_ (Decode.option_instant a.lastAlerted))).seq
    (.present (v := .bool a.isValid) ?_ rfl)
  all_goals simp [fields, Entries.find?, Entries.find?_append, Value.find?_present]

theorem Alert.decode_encode {a : Alert} (h : a.Storable) : decode a.encode = .ok a :=
  decode_encode_of_config (AlertConfig.decode_encode h)

/-! ### What JSON decodes to can be written -/

theorem FilterLimit.makes : Makes decode Storable := by
  refine Reading.Makes.decode (((Reading.Makes.map ?_
    (.field (.natBelow _ _))).seq
    (.any _)).seq
    (.any _))
  intros
  assumption

theorem DimensionFilter.makes : Makes decode Storable := by
  refine Reading.Makes.decode ((((((Reading.Makes.map ?_
    (.any _)).seq
    (.any _)).seq
    (.any _)).seq
    (.any _)).seq
    (.any _)).seq
    (.optional FilterLimit.makes))
  intros
  assumption

theorem IgnoredRange.makes : Makes decode Storable := by
  refine Reading.Makes.decode ((Reading.Makes.map ?_
    (.field .float)).seq
    (.field .float))
  intro lower hlower upper hupper
  exact ⟨hlower, hupper⟩

theorem AlertConfig.makes : Makes decode Storable := by
  refine Reading.Makes.decode (((((((((((((Reading.Makes.map ?_
    (.any _)).seq
    (.any _)).seq
    (.field (.list .float))).seq
    (.any _)).seq
    (.any _)).seq
    (.any _)).seq
    (.any _)).seq
    (.any _)).seq
    (.fieldOr (.list DimensionFilter.makes) (by simp))).seq
    (.any _)).seq
    (.any _)).seq
    (.optional IgnoredRange.makes)).seq
    (.any _))
  intros
  constructor <;> assumption

theorem Alert.makes : Makes decode Storable := by
  refine Reading.Makes.decode (((((((((((Reading.Makes.map ?_
    (.any _)).seq
    (.any _)).seq
    (.any _)).seq
    (.field AlertConfig.makes)).seq
    (.any _)).seq
    (.any _)).seq
    (.any _)).seq
    (.any _)).seq
    (.any _)).seq
    (.any _)).seq
    (.any _))
  intros
  assumption

theorem Notification.makes : Makes decode fun n => Decimal.isFinite n.value = true := by
  refine Reading.Makes.decode (((((((((((((Reading.Makes.map ?_
    (.any _)).seq
    (.any _)).seq
    (.any _)).seq
    (.any _)).seq
    (.any _)).seq
    (.field .float)).seq
    (.any _)).seq
    (.any _)).seq
    (.any _)).seq
    (.any _)).seq
    (.any _)).seq
    (.any _)).seq
    (.any _))
  intros
  assumption

namespace AlertStore

theorem get_of_put {a : Alert} (ha : a.Storable) {s : Session} {later : Context}
    (hs : s.context.isCancelled = false) (hlater : later.isCancelled = false) :
    (put a s).1 = .ok () ∧ (get a.id ⟨later, (put a s).2.documents⟩).1 = .ok a := by
  rw [put, Documents.putDoc_apply, get_apply]
  simp only [hs, hlater, Bool.false_eq_true, if_false, true_and]
  rw [read_eq_ok_iff]
  exact ⟨a.encode, a, by simp [Documents.find?_insert], Alert.decode_encode ha, rfl⟩

end AlertStore

/-- Alerts and notifications that can be written are read as they are, an alert that was put is
the alert that is got, and what was once decoded from JSON can be written and is read again. -/
theorem documents_round_trip :
    (∀ a : Alert, a.Storable → Alert.decode a.encode = .ok a) ∧
    (∀ n : Notification, Decimal.isFinite n.value = true →
      Notification.decode n.encode = .ok n) ∧
    (∀ (a : Alert) (s : Session) (later : Context), a.Storable →
      s.context.isCancelled = false → later.isCancelled = false →
      (AlertStore.put a s).1 = .ok () ∧
        (AlertStore.get a.id ⟨later, (AlertStore.put a s).2.documents⟩).1 = .ok a) ∧
    (∀ (v : Value) (a : Alert), v.IsJson → Alert.decode v = .ok a →
      Alert.decode a.encode = .ok a) ∧
    ∀ (v : Value) (n : Notification), v.IsJson → Notification.decode v = .ok n →
      Notification.decode n.encode = .ok n :=
  ⟨fun _ => Alert.decode_encode, Notification.decode_encode,
    fun _ _ _ ha hs hlater => AlertStore.get_of_put ha hs hlater,
    fun v a hv ha => Alert.decode_encode (Alert.makes v a hv ha),
    fun v n hv hn => n.decode_encode (Notification.makes v n hv hn)⟩

namespace RoundTrip

def may : Instant := .midnight ⟨2024, 5, 15, by decide⟩

/-- An alert with a limited filter and a range of values that it ignores. -/
def limited : Alert :=
  .define "a1" "Spend" "acme"
    (((AlertConfig.ofThreshold .value .greater 20.0 .cost .month).withFilter
      ((DimensionFilter.select .fixed "service_description" ["GKE"]).limitedTo
        ⟨10, .desc, .cost⟩)).withIgnoredRange 1.0 2.5)
    ["ops@acme.com"] "v1" true none may

theorem storable_limited : limited.Storable where
  thresholds x hx := by
    obtain rfl := List.mem_singleton.1 hx
    decide
  filters f hf := by
    obtain rfl := List.mem_singleton.1 hf
    intro l hl
    cases hl
    exact show 10 < UInt64.size by decide
  ignoredRange r hr := by
    cases hr
    exact ⟨by decide, by decide⟩

/-- The fields of a notification as a list, with a whole number for its value. -/
def listed : Value :=
  .list [.string "a1", .string "Spend", .string "", .string "acme", .list [], .int 30,
    .string "2024-05", .null, .null, .string "v1", .string may.text, .null, .string may.text]

def read : Notification where
  alertId := "a1"
  alertName := "Spend"
  sentence := ""
  customerId := "acme"
  recipients := []
  value := 30.0
  period := "2024-05"
  breakdown := none
  breakdownLabel := none
  etag := "v1"
  detected := may
  sent := none
  expiry := may

theorem decode_listed : Notification.decode listed = .ok read :=
  toOption_eq_some.1 (by decide +kernel)

end RoundTrip

open RoundTrip in
/-- An alert with a limit is kept, and so is a notification that came as a list. -/
theorem documents_round_trip_limited :
    Alert.decode limited.encode = .ok limited ∧
    (AlertStore.get "a1" ⟨.fresh, (AlertStore.put limited ⟨.fresh, .empty⟩).2.documents⟩).1 =
      .ok limited ∧
    Notification.decode listed = .ok read ∧ Notification.decode read.encode = .ok read :=
  have hlisted : listed.IsJson := by
    simp [listed, Value.IsJson, Value.AllJson]
  ⟨documents_round_trip.1 limited storable_limited,
    (documents_round_trip.2.2.1 limited ⟨.fresh, .empty⟩ .fresh storable_limited rfl rfl).2,
    decode_listed, documents_round_trip.2.2.2.2 listed read hlisted decode_listed⟩

end SpendAlerts
