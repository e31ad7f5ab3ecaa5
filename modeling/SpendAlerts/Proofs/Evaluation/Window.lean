import SpendAlerts.Proofs.Evaluation.Forecast

/-!
The window of a forecast. Dates are compared by year, quarter and month there, and periods are told
apart by their names, and both come to the same: the rows that are added up are those whose period
has the name of the one in effect. Forecasts for days and weeks take the period of the month.
-/

namespace SpendAlerts

/-- The interval whose periods forecasts are added up over. -/
def Interval.forecastSpan : Interval → Interval
  | .day | .week | .month => .month
  | .quarter => .quarter
  | .year => .year
  | .hour => .hour

namespace Period

variable {i : Interval}

theorem inWindow_iff_shared (row now : Instant) :
    InWindow i row.date now.date ↔ Shared i.forecastSpan row now := by
  cases i with
  | hour | day | week | month | year => exact Iff.rfl
  | quarter => exact Date.quarter_eq_iff

theorem inWindow_iff_name? (hi : i ≠ .hour) (row now : Instant) :
    InWindow i row.date now.date ↔ name? i.forecastSpan row = name? i.forecastSpan now := by
  have hspan : i.forecastSpan ≠ .hour := by
    cases i with
    | hour => exact absurd rfl hi
    | day | week | month | quarter | year => exact nofun
  exact (inWindow_iff_shared row now).trans (name?_eq_iff hspan).symm

end Period

namespace Evaluation

variable {i : Interval} {request : QueryRequest} {now : Instant} {row : Row} {rows : List Row}

/-- The row has a date, and the period of its date has the name of the period in effect. -/
def InEffect (i : Interval) (request : QueryRequest) (now : Instant) (row : Row) : Prop :=
  ∃ date, rowDate request row true = .ok date ∧
    Period.name? i.forecastSpan date = Period.name? i.forecastSpan now

theorem counted_iff_inEffect (hi : i ≠ .hour) :
    Counted i request now row ↔ InEffect i request now row :=
  exists_congr fun date => and_congr_right fun _ => Period.inWindow_iff_name? hi date now

instance (i : Interval) (request : QueryRequest) (now : Instant) (row : Row) :
    Decidable (InEffect i request now row) :=
  match h : rowDate request row true with
  | .ok date =>
      decidable_of_iff (Period.name? i.forecastSpan date = Period.name? i.forecastSpan now)
        ⟨fun hname => ⟨date, h, hname⟩, fun ⟨_, hdate, hname⟩ =>
          Except.ok.inj (h.symm.trans hdate) ▸ hname⟩
  | .error _ => isFalse fun ⟨_, hdate, _⟩ => nomatch h.symm.trans hdate

theorem amounts_eq_inEffect (hi : i ≠ .hour) :
    amounts i request now rows =
      (rows.filter (InEffect i request now ·)).filterMap amount? := by
  have hfilter : rows.filter (Counted i request now ·) = rows.filter (InEffect i request now ·) :=
    List.filter_congr fun row _ => decide_eq_decide.2 (counted_iff_inEffect hi)
  rw [amounts, hfilter]

theorem readable_iff_inEffect (hi : i ≠ .hour) :
    Readable i request now row ↔ (∃ date, rowDate request row true = .ok date) ∧
      (InEffect i request now row → Numeric row) := by
  rw [← counted_iff_inEffect hi]
  exact ⟨fun h => ⟨h.dated, h.numeric⟩, fun h => ⟨h.1, h.2⟩⟩

/-- A date is in the window exactly if its period has the name of the one in effect, and the rows
of such dates are what a forecast adds up. -/
theorem window_named {i : Interval} (hi : i ≠ .hour) (now : Instant) :
    (∀ row : Instant, ∃ inside, Period.inForecastWindow? i row now = .ok inside ∧
      (inside = true ↔
        Period.name? i.forecastSpan row = Period.name? i.forecastSpan now)) ∧
    ∀ (request : QueryRequest) (rows : List Row) (total : Float),
      forecastTotal i request now 0.0 rows = .ok total ↔
        (∀ row ∈ rows, (∃ date, rowDate request row true = .ok date) ∧
          (InEffect i request now row → Numeric row)) ∧
        total = sum ((rows.filter (InEffect i request now ·)).filterMap amount?) := by
  refine ⟨fun row => ⟨_, Period.inForecastWindow?_eq hi row now, ?_⟩, fun request rows total => ?_⟩
  · rw [decide_eq_true_iff]
    exact Period.inWindow_iff_name? hi row now
  · rw [forecastTotal_eq_ok_iff hi, amounts_eq_inEffect hi]
    simp only [readable_iff_inEffect hi]
    rfl

open Layout in
/-- A weekly alert adds up the forecasts of the whole month. -/
theorem window_named_weekly :
    Period.inForecastWindow? .week (.midnight ⟨2024, 5, 31, by decide⟩) may = .ok true ∧
      Period.inForecastWindow? .week (.midnight ⟨2024, 6, 1, by decide⟩) may = .ok false ∧
      forecastTotal .week forecastRequest may 0.0 forecastRows = .ok 25.0 ∧
      sum ((forecastRows.filter (InEffect .week forecastRequest may ·)).filterMap amount?) =
        25.0 := by
  obtain ⟨hwindow, htotal⟩ := window_named (i := .week) (by decide) may
  have htwentyFive : forecastTotal .week forecastRequest may 0.0 forecastRows = .ok 25.0 := by
    decide +kernel
  obtain ⟨inside, hinside, hname⟩ := hwindow (.midnight ⟨2024, 5, 31, by decide⟩)
  obtain ⟨outside, houtside, hother⟩ := hwindow (.midnight ⟨2024, 6, 1, by decide⟩)
  have hlast : inside = true := hname.2 (by decide +kernel)
  have hnext : outside = false := Bool.eq_false_iff.2 (mt hother.1 (by decide +kernel))
  exact ⟨hlast ▸ hinside, hnext ▸ houtside, htwentyFive,
    ((htotal forecastRequest forecastRows 25.0).1 htwentyFive).2.symm⟩

end Evaluation

end SpendAlerts
