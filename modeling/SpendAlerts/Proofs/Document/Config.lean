import SpendAlerts.Alert.Config
import SpendAlerts.Proofs.Document.Notification
import SpendAlerts.Proofs.Store.Calls

/-!
Documents of configurations. A configuration is not read back from its document in all
cases, since thresholds that are not finite have no number and limits may be too large,
but what is read back is the configuration itself. So the statements here are about
whatever a document decodes to, one line per field.
-/

namespace SpendAlerts

namespace Decode

variable {α : Type}

/-- Whatever the document decodes to is this value. -/
def Yields (decode : Decoder α) (v : Value) (x : α) : Prop :=
  ∀ y, decode v = .ok y → y = x

theorem Yields.of_eq {decode : Decoder α} {v : Value} {x : α} (h : decode v = .ok x) :
    Yields decode v x := by
  intro y hy
  rw [h] at hy
  exact (Except.ok.inj hy).symm

theorem Yields.text (s : String) : Yields Decode.text (.string s) s := .of_eq rfl

theorem Yields.strings (xs : List String) : Yields (list Decode.text) (.strings xs) xs :=
  .of_eq (list_strings xs)

theorem Yields.bool (b : Bool) : Yields Decode.bool (.bool b) b := .of_eq rfl

theorem Yields.instant (t : Instant) : Yields Decode.instant (.string t.text) t :=
  .of_eq (instant_text t)

theorem Yields.float (x : Float) : Yields Decode.float (.ofFloat x) x := by
  cases hx : Decimal.isFinite x with
  | true => exact .of_eq (float_ofFloat hx)
  | false =>
      intro y hy
      simp [Value.ofFloat, hx, Decode.float] at hy

theorem Yields.natBelow (bound n : Nat) (expected : String) :
    Yields (Decode.natBelow bound expected) (.int n) n := by
  intro m hm
  change (if n < bound then Except.ok n else _) = _ at hm
  split at hm
  · exact (Except.ok.inj hm).symm
  · cases hm

theorem Yields.list {item : Decoder α} {f : α → Value} (h : ∀ x, Yields item (f x) x)
    (xs : List α) : Yields (Decode.list item) (.list (xs.map f)) xs := by
  change ∀ ys, items item (xs.map f) = .ok ys → ys = xs
  induction xs with
  | nil =>
      intro ys hys
      exact (Except.ok.inj hys).symm
  | cons x xs ih =>
      intro zs hzs
      obtain ⟨y, hy, hzs⟩ := bind_eq_ok.1 hzs
      obtain ⟨ys, hys, hzs⟩ := bind_eq_ok.1 hzs
      cases hzs
      rw [h x y hy, ih ys hys]

theorem Yields.option {decode : Decoder α} {v : Value} {x : α} (hv : v.isNull = false)
    (h : Yields decode v x) : Yields (Decode.option decode) v (some x) := by
  intro o ho
  cases v with
  | null => cases hv
  | bool _ | int _ | float _ | string _ | list _ | record _ =>
      simp only [Decode.option] at ho
      cases hd : decode _ with
      | error e =>
          rw [hd] at ho
          cases ho
      | ok y =>
          rw [hd] at ho
          cases ho
          rw [h y hd]

end Decode

namespace Reading

variable {α β : Type} {fields : List (String × Value)}

/-- Whatever the reading makes of the fields is this value. -/
def Yields (r : Reading α) (fields : List (String × Value)) (x : α) : Prop :=
  ∀ y, r.get fields = .ok y → y = x

theorem Yields.seq {f : Reading (α → β)} {r : Reading α} {g : α → β} {x : α}
    (hf : f.Yields fields g) (hr : r.Yields fields x) : (f <*> r).Yields fields (g x) := by
  intro y hy
  obtain ⟨g', x', hg', hx', rfl⟩ := get_seq.1 hy
  rw [hf g' hg', hr x' hx']

theorem Yields.map {r : Reading α} {x : α} (g : α → β) (hr : r.Yields fields x) :
    (g <$> r).Yields fields (g x) := by
  intro y hy
  obtain ⟨x', hx', rfl⟩ := get_map.1 hy
  rw [hr x' hx']

theorem Yields.present {name : String} {decode : Decoder α} {default : Option α} {v : Value}
    {x : α} (hx : Decode.Yields decode v x) (hv : Entries.find? name fields = some v) :
    (fieldOr name decode default).Yields fields x := by
  intro y hy
  rw [get_fieldOr hv] at hy
  exact hx y hy

/-- A field that is left out where there is nothing to write. -/
theorem Yields.optional {name : String} {decode : Decoder α} {f : α → Value} {o : Option α}
    (hf : ∀ x, (f x).isNull = false ∧ Decode.Yields decode (f x) x)
    (hv : Entries.find? name fields = o.map f) :
    (Reading.optional name decode).Yields fields o := by
  cases o with
  | none => exact fun y hy => (Except.ok.inj ((Gives.absent hv).get.symm.trans hy)).symm
  | some x => exact .present (.option (hf x).1 (hf x).2) hv

theorem Yields.decode {r : Reading α} {x : α} (type : String) (h : r.Yields fields x) :
    Decode.Yields (r.decode type) (.record fields) x :=
  fun y hy => h y (get_of_ofFields hy)

end Reading

open Decode (Yields)

theorem Condition.yields (c : Condition) :
    Yields (Decode.named Condition.ofName?) (.string c.name) c := by
  cases c <;> exact .of_eq rfl

theorem Comparison.yields (c : Comparison) :
    Yields (Decode.named Comparison.ofSymbol?) (.string c.symbol) c := by
  cases c <;> exact .of_eq rfl

theorem Interval.yields (i : Interval) :
    Yields (Decode.named Interval.ofName?) (.string i.name) i := by
  cases i <;> exact .of_eq rfl

theorem Metric.yields (m : Metric) :
    Yields (Decode.named Metric.ofName?) (.string m.name) m := by
  cases m <;> exact .of_eq rfl

theorem LimitOrder.yields (o : LimitOrder) :
    Yields (Decode.choice LimitOrder.choices) (.string o.name) o := by
  cases o <;> exact .of_eq rfl

theorem DimensionType.yields (t : DimensionType) :
    Yields (Decode.choice DimensionType.choices) (.string t.name) t := by
  cases t <;> exact .of_eq rfl

theorem FilterLimit.yields (l : FilterLimit) : Yields FilterLimit.decode l.encode l := by
  refine Reading.Yields.decode _ ?_
  exact (((Reading.Yields.map FilterLimit.mk
    (.present (.natBelow _ l.limit _) rfl)).seq
    (.present l.order.yields rfl)).seq
    (.present l.metric.yields rfl))

theorem DimensionFilter.yields (f : DimensionFilter) :
    Yields DimensionFilter.decode f.encode f := by
  refine Reading.Yields.decode _ ?_
  refine (((((Reading.Yields.map DimensionFilter.mk
    (.present (.text f.id) ?_)).seq
    (.present (.text f.key) ?_)).seq
    (.present f.type.yields ?_)).seq
    (.present (.strings f.values) ?_)).seq
    (.present (.bool f.inverse) ?_)).seq
    (.optional (f := FilterLimit.encode) (fun l => ⟨rfl, l.yields⟩) ?_)
  all_goals simp [Entries.find?, Entries.find?_append, Value.find?_present]

theorem IgnoredRange.yields (r : IgnoredRange) : Yields IgnoredRange.decode r.encode r := by
  refine Reading.Yields.decode _ ?_
  exact ((Reading.Yields.map IgnoredRange.mk
    (.present (.float r.lower) rfl)).seq
    (.present (.float r.upper) rfl))

theorem CalculatedMetric.yields (m : CalculatedMetric) :
    Yields CalculatedMetric.decode m.encode m := by
  refine Reading.Yields.decode _ ?_
  exact ((Reading.Yields.map CalculatedMetric.mk
    (.present (.text m.id) rfl)).seq
    (.present (.text m.name) rfl))

theorem AlertConfig.yields (c : AlertConfig) : Yields AlertConfig.decode c.encode c := by
  refine Reading.Yields.decode _ ?_
  refine ((((((((((((Reading.Yields.map AlertConfig.mk
    (.present c.condition.yields ?_)).seq
    (.present c.comparison.yields ?_)).seq
    (.present (.list Yields.float c.thresholds) ?_)).seq
    (.present c.metric.yields ?_)).seq
    (.optional (f := Value.string) (fun s => ⟨rfl, .text s⟩) ?_)).seq
    (.optional (f := CalculatedMetric.encode) (fun m => ⟨rfl, m.yields⟩) ?_)).seq
    (.present c.interval.yields ?_)).seq
    (.present (.strings c.breakdowns) ?_)).seq
    (.present (.list DimensionFilter.yields c.filters) ?_)).seq
    (.present (.strings c.scope) ?_)).seq
    (.present (.text c.currency) ?_)).seq
    (.optional (f := IgnoredRange.encode) (fun r => ⟨rfl, r.yields⟩) ?_)).seq
    (.present (.text c.dataSource) ?_)
  all_goals simp [Entries.find?, Entries.find?_append, Value.find?_present]

end SpendAlerts
