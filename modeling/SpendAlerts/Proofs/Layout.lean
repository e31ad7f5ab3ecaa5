import SpendAlerts.Proofs.Breakdown
import SpendAlerts.Query.Build
import SpendAlerts.Evaluation
import Mathlib.Data.List.Forall2

/-!
The layout of rows, as a request lays them out and as the evaluation reads them. What a row
measures is told apart from where its cells stand: a row is laid out for a request if its cells
stand in the order of the request and hold what is measured. The evaluation of such rows is a
function of what they measure, so no row is misread and none is refused for its layout.
-/

namespace SpendAlerts

/-- What a row measures. -/
structure Measures where
  /-- The day of the row, where rows come by day. -/
  date : Date
  value : Metric → Float
  /-- The change of a metric in percent. -/
  change : Metric → Float
  forecast : Option Float

namespace Measures

variable (m : Measures)

def ValueCell (metric : Metric) (cell : Cell) : Prop :=
  cell.float? = some (m.value metric)

def ChangeCell (metric : Metric) (cell : Cell) : Prop :=
  ∃ pct val, cell = .comparison pct val ∧ pct.float? = some (m.change metric)

/-- A row need not have a forecast. -/
def ForecastCell (cell : Cell) : Prop :=
  match m.forecast with
  | none => cell = .null
  | some x => cell.float? = some x

end Measures

/-- The number stands in the column of a date. -/
structure Date.InColumn (d : Date) (column : String) (n : Int) : Prop where
  year : column = "year" → n = d.year
  month : column = "month" → n = d.month
  day : column = "day" → n = d.day

namespace QueryRequest

open Evaluation (Row)

/-- The cell holds a whole number, and that of the date where rows come by day. -/
def TimeCell (r : QueryRequest) (d : Date) (column : String) (cell : Cell) : Prop :=
  ∃ n, cell.int? = some n ∧ (r.granularity = .day → d.InColumn column n.toInt)

/-- Breakdown values, time columns, values and comparisons follow each other in a row. -/
inductive LaidOut (r : QueryRequest) (m : Measures) : Row → Prop where
  | row {labels times values changes : Row}
      (dated : r.granularity = .day → 1 ≤ m.date.year)
      (label : labels.length = r.breakdowns.length)
      (plain : ∀ cell ∈ labels, cell.breakdown? ≠ none)
      (time : List.Forall₂ (r.TimeCell m.date) r.timeColumns times)
      (value : List.Forall₂ m.ValueCell r.metrics values)
      (change : r.comparative = true → List.Forall₂ m.ChangeCell r.metrics changes) :
      LaidOut r m (labels ++ times ++ values ++ changes)

/-- A row of a forecast has one more cell before its time columns, and ends with the forecast. -/
inductive ForecastLaidOut (r : QueryRequest) (m : Measures) : Row → Prop where
  | row {labels times others : Row} {last : Cell}
      (dated : 1 ≤ m.date.year)
      (label : labels.length = r.breakdowns.length + 1)
      (time : List.Forall₂ (r.TimeCell m.date) r.timeColumns times)
      (forecast : m.ForecastCell last) :
      ForecastLaidOut r m (labels ++ times ++ others ++ [last])

/-- The rows of the result are laid out for the request, and measure what they are said to. -/
structure Answers (r : QueryRequest) (measure : Row → Measures) (result : QueryResult) :
    Prop where
  rows : r.forecast = false → ∀ row ∈ result.rows, r.LaidOut (measure row) row
  forecastRows : r.forecast = true →
    result.forecastRows ≠ [] ∧ ∀ row ∈ result.forecastRows, r.ForecastLaidOut (measure row) row

/-- The parts of a request that the layout depends on come from the configuration. -/
structure ShapedFor (r : QueryRequest) (c : AlertConfig) : Prop where
  interval : c.interval ≠ .hour
  breakdowns : r.breakdowns = c.breakdowns
  metrics : r.metrics = metricsFor c
  granularity : r.granularity = granularityFor c
  timeColumns : timeColumnsFor r.granularity = .ok r.timeColumns
  comparative : r.comparative = decide (c.condition = .percentage)
  forecast : r.forecast = decide (c.condition = .forecast)

theorem shapedFor_of_assemble {a : Alert} {filters : List DimensionFilter} {now : Instant}
    {r : QueryRequest} (h : assemble a filters now = .ok r) : r.ShapedFor a.config := by
  obtain ⟨window, hwindow, h⟩ := bind_eq_ok.1 h
  obtain ⟨columns, hcolumns, h⟩ := bind_eq_ok.1 h
  cases h
  refine ⟨fun hhour => ?_, rfl, rfl, rfl, hcolumns, rfl, rfl⟩
  simp [TimeWindow.forConfig, hhour] at hwindow

theorem shapedFor_of_build {limit : Nat} {a : Alert} {now : Instant} {s s' : Session}
    {r : QueryRequest} (h : build limit a now s = (.ok (some r), s')) : r.ShapedFor a.config := by
  obtain ⟨_, hassemble⟩ := exists_assemble ((peeks_build limit a now).eq_ok h)
  exact shapedFor_of_assemble hassemble

end QueryRequest

/-- The fault says that a row does not fit the layout, or that rows are missing. -/
def Fault.IsMisfit : Fault → Prop
  | invalidCell .. | invalidRow _ | noForecastRows => True
  | _ => False

/-- Nothing is wrong with the layout. -/
def Fits {α : Type} (x : Except Fault α) : Prop := ∀ e, x = .error e → ¬ e.IsMisfit

namespace Fits

variable {α β : Type}

theorem ok (x : α) : Fits (.ok x) := fun _ h => by cases h

theorem error {e : Fault} (he : ¬ e.IsMisfit) : Fits (.error e : Except Fault α) := by
  intro e' h
  cases h
  exact he

theorem bind {x : Except Fault α} {f : α → Except Fault β} (hx : Fits x) (hf : ∀ y, Fits (f y)) :
    Fits (x >>= f) := by
  cases x with
  | error e => exact error (hx e rfl)
  | ok y => exact hf y

theorem map {x : Except Fault α} (f : α → β) (hx : Fits x) : Fits (x.map f) := by
  cases x with
  | error e => exact error (hx e rfl)
  | ok y => exact ok _

theorem name? (i : Interval) (t : Instant) : Fits (Period.name? i t) := by
  cases i with
  | hour => exact error not_false
  | day | week | month | quarter | year => exact ok _

theorem expiry? (i : Interval) (now : Instant) : Fits (Period.expiry? i now) := by
  rw [Period.expiry?]
  split
  · exact ok _
  · exact error not_false

theorem inForecastWindow? (i : Interval) (row now : Instant) :
    Fits (Period.inForecastWindow? i row now) := by
  cases i with
  | hour => exact error not_false
  | day | week | month | quarter | year => exact ok _

theorem split? (id : String) : Fits (Dimension.split? id) := by
  rw [Dimension.split?]
  split
  · split
    · exact ok _
    · exact error not_false
  · exact error not_false

theorem label? (id : String) : Fits (Dimension.label? id) := by
  rw [Dimension.label?]
  split
  · next e he => exact error (split? id e he)
  · split
    · split
      · exact error not_false
      · split
        · exact ok _
        · exact error not_false
    · exact ok _

end Fits

namespace Evaluation

open QueryRequest

variable {a : Alert} {r : QueryRequest} {m : Measures} {now : Instant} {noise : Float}

theorem timeColumns_of_day (hr : r.ShapedFor a.config) (hday : r.granularity = .day) :
    r.timeColumns = ["year", "month", "day"] := by
  have hcolumns := hr.timeColumns
  rw [hday] at hcolumns
  exact (Except.ok.inj hcolumns).symm

theorem ofParts?_self (d : Date) : Date.ofParts? d.year d.month d.day = some d :=
  dif_pos d.valid

theorem datePart_year {d : Date} {cell : Cell} {n : Int64} (hn : cell.int? = some n)
    (hdate : d.InColumn "year" n.toInt) (hyear : 1 ≤ d.year) :
    datePart "year" cell = .ok d.year := by
  have hn' := hdate.year rfl
  simp [datePart, hn, hn', hyear]

theorem datePart_month {d : Date} {cell : Cell} {n : Int64} (hn : cell.int? = some n)
    (hdate : d.InColumn "month" n.toInt) : datePart "month" cell = .ok d.month := by
  have hn' := hdate.month rfl
  obtain ⟨-, -, hlow, hhigh, -, -⟩ := d.valid
  simp [datePart, hn, hn']
  omega

theorem datePart_day {d : Date} {cell : Cell} {n : Int64} (hn : cell.int? = some n)
    (hdate : d.InColumn "day" n.toInt) : datePart "day" cell = .ok d.day := by
  have hn' := hdate.day rfl
  obtain ⟨-, -, -, -, hlow, hhigh⟩ := d.valid
  have hmonth : daysInMonth d.year d.month ≤ 31 := by
    fun_cases daysInMonth d.year d.month <;> omega
  simp [datePart, hn, hn']
  omega

/-- Time columns that hold the parts of a date give this date. -/
theorem rowDate_of_columns {forecastRow : Bool} {before times after : Row} {d : Date}
    (hcolumns : r.timeColumns = ["year", "month", "day"]) (hdated : 1 ≤ d.year)
    (hbefore : before.length = r.timeOffset forecastRow)
    (htimes : List.Forall₂ (fun column cell => ∃ n, Cell.int? cell = some n ∧
      d.InColumn column n.toInt) r.timeColumns times) :
    rowDate r (before ++ (times ++ after)) forecastRow = .ok (.midnight d) := by
  have hlength := htimes.length_eq
  have hdrop : (before ++ (times ++ after)).drop (r.timeOffset forecastRow) = times ++ after :=
    List.drop_left' hbefore
  have hlong : ¬(before ++ (times ++ after)).length <
      r.timeOffset forecastRow + r.timeColumns.length := by
    simp only [List.length_append]
    omega
  have hparts : dateParts ⟨1, 1, 1⟩ r.timeColumns (times ++ after) =
      .ok ⟨d.year, d.month, d.day⟩ := by
    rw [hcolumns] at htimes ⊢
    obtain _ | ⟨⟨_, hy, hyear⟩, _ | ⟨⟨_, hm, hmonth⟩, _ | ⟨⟨_, hd, hday⟩, _ | _⟩⟩⟩ := htimes
    simp [dateParts, datePart_year hy hyear hdated, datePart_month hm hmonth, datePart_day hd hday]
  simp only [rowDate, if_neg hlong, hdrop, hparts, ok_bind, Int.toNat_natCast, ofParts?_self]

/-- The time columns of a row that comes by day give its date. -/
theorem rowDate_eq {forecastRow : Bool} {before times after : Row} (hr : r.ShapedFor a.config)
    (hday : r.granularity = .day) (hdated : 1 ≤ m.date.year)
    (hbefore : before.length = r.timeOffset forecastRow)
    (htimes : List.Forall₂ (r.TimeCell m.date) r.timeColumns times) :
    rowDate r (before ++ (times ++ after)) forecastRow = .ok (.midnight m.date) :=
  rowDate_of_columns (timeColumns_of_day hr hday) hdated hbefore
    (htimes.imp fun _ _ ⟨n, hn, hdate⟩ => ⟨n, hn, hdate hday⟩)

end Evaluation

theorem exists_getElem?_of_forall₂ {α β : Type} {R : α → β → Prop} {xs : List α} {ys : List β}
    (h : List.Forall₂ R xs ys) {i : Nat} {x : α} (hx : xs[i]? = some x) :
    ∃ y, ys[i]? = some y ∧ R x y := by
  induction h generalizing i with
  | nil => cases hx
  | cons hR _ ih =>
      cases i with
      | zero =>
          cases hx
          exact ⟨_, rfl, hR⟩
      | succ i => exact ih hx

namespace QueryRequest.LaidOut

open Evaluation (Row)

variable {r : QueryRequest} {m : Measures} {row : Row} {metric : Metric} {i : Nat}

/-- The values of metrics stand where the request expects them. -/
theorem value_at (h : r.LaidOut m row) (hi : r.metrics[i]? = some metric) :
    ∃ cell, row[r.metricIndex + i]? = some cell ∧ m.ValueCell metric cell := by
  obtain ⟨-, hlabel, -, htime, hvalue, -⟩ := h
  obtain ⟨cell, hcell, hvalue'⟩ := exists_getElem?_of_forall₂ hvalue hi
  refine ⟨cell, ?_, hvalue'⟩
  have htimes := htime.length_eq
  have hshort := (List.getElem?_eq_some_iff.1 hcell).1
  rw [List.getElem?_append_left (by simp [metricIndex]; omega),
    List.getElem?_append_right (by simp [metricIndex]; omega), ← hcell]
  congr 1
  simp [metricIndex]
  omega

/-- The changes of metrics stand where the request expects them. -/
theorem change_at (h : r.LaidOut m row) (hcomparative : r.comparative = true)
    (hi : r.metrics[i]? = some metric) :
    ∃ cell, row[r.comparativeIndex + i]? = some cell ∧ m.ChangeCell metric cell := by
  obtain ⟨-, hlabel, -, htime, hvalue, hchange⟩ := h
  obtain ⟨cell, hcell, hchange'⟩ := exists_getElem?_of_forall₂ (hchange hcomparative) hi
  refine ⟨cell, ?_, hchange'⟩
  have htimes := htime.length_eq
  have hvalues := hvalue.length_eq
  rw [List.getElem?_append_right (by simp [comparativeIndex, metricIndex]; omega), ← hcell]
  congr 1
  simp [comparativeIndex, metricIndex]
  omega

theorem number_eq (h : r.LaidOut m row) (hmetric : r.metrics.head? = some metric) :
    Evaluation.number row r.metricIndex = .ok (m.value metric) := by
  obtain ⟨cell, hcell, hvalue⟩ := h.value_at (i := 0) (List.head?_eq_getElem? ▸ hmetric)
  rw [Nat.add_zero] at hcell
  change cell.float? = some (m.value metric) at hvalue
  simp [Evaluation.number, hcell, hvalue]

theorem change_eq (h : r.LaidOut m row) (hcomparative : r.comparative = true)
    (hi : r.metrics[i]? = some metric) :
    Evaluation.change row (r.comparativeIndex + i) = .ok (m.change metric) := by
  obtain ⟨cell, hcell, pct, val, rfl, hpct⟩ := h.change_at hcomparative hi
  simp [Evaluation.change, hcell, hpct]

/-- A row of a breakdown starts with a breakdown value. -/
theorem exists_head (h : r.LaidOut m row) (hne : r.breakdowns ≠ []) :
    ∃ cell cells s, row = cell :: cells ∧ cell.breakdown? = some s := by
  obtain ⟨-, hlabel, hplain, -, -, -⟩ := h
  rename_i labels _ _ _
  cases labels with
  | nil => exact absurd (List.length_eq_zero_iff.1 hlabel.symm) hne
  | cons cell cells =>
      obtain ⟨s, hs⟩ := Option.ne_none_iff_exists'.1 (hplain cell List.mem_cons_self)
      exact ⟨cell, _, s, rfl, hs⟩

end QueryRequest.LaidOut

namespace Evaluation

open QueryRequest

variable {a : Alert} {r : QueryRequest} {m : Measures} {row : Row} {now : Instant} {noise : Float}

/-- The time at which a row detects, for alerts that look at single days. -/
def dayOf (a : Alert) (m : Measures) : Option Instant :=
  if a.config.interval = .day then some (.midnight m.date) else none

/-- The test of a row by what it measures. -/
def testValue (a : Alert) (now : Instant) (m : Measures) (row : Row) :
    Except Fault (Option Notification) :=
  detect a (some row) (m.value a.config.metric) (dayOf a m) now

/-- A change of costs does not count where the usage has hardly changed. -/
def isNoisy (noise : Float) (a : Alert) (m : Measures) : Bool :=
  a.config.metric = .cost ∧ a.config.satisfiedBy (m.change .cost) ∧
    (m.change .usage).abs <= noise

/-- The test of a row by the change that it measures. -/
def testChange (noise : Float) (a : Alert) (now : Instant) (m : Measures) (row : Row) :
    Except Fault (Option Notification) :=
  if (dayOf a m).any (isBaseline · now.startOfDay) then .ok none
  else if isNoisy noise a m then .ok none
  else detect a (some row) (m.change a.config.metric) (dayOf a m) now

theorem rowTime_eq (hr : r.ShapedFor a.config) (hforecast : a.config.condition ≠ .forecast)
    (h : r.LaidOut m row) : rowTime a.config.interval r row = .ok (dayOf a m) := by
  obtain ⟨hdated, hlabel, -, htime, -, -⟩ := h
  rw [rowTime, dayOf]
  split
  · next hday =>
    have hgranularity : r.granularity = .day := by
      rw [hr.granularity, granularityFor, if_neg hforecast, hday]
    rw [List.append_assoc, List.append_assoc, rowDate_eq hr hgranularity (hdated hgranularity)
      hlabel htime]
    rfl
  · rfl

theorem valueRow_eq (hr : r.ShapedFor a.config) (hcondition : a.config.condition = .value)
    (h : r.LaidOut m row) : valueRow a r now row = testValue a now m row := by
  have hmetric : r.metrics.head? = some a.config.metric := by
    simp [hr.metrics, metricsFor, hcondition]
  simp only [valueRow, rowTime_eq hr (by simp [hcondition]) h, h.number_eq hmetric, ok_bind,
    testValue]

theorem isNoise_eq (hr : r.ShapedFor a.config) (hcondition : a.config.condition = .percentage)
    (h : r.LaidOut m row) : isNoise a r noise row (m.change a.config.metric) =
      .ok (isNoisy noise a m) := by
  rw [isNoise, isNoisy]
  split
  · next hsatisfied =>
    obtain ⟨hcost, hsatisfied⟩ := hsatisfied
    have husage : change row (r.comparativeIndex + 1) = .ok (m.change .usage) :=
      h.change_eq (by simp [hr.comparative, hcondition])
        (by simp [hr.metrics, metricsFor, hcondition, hcost])
    rw [hcost] at hsatisfied
    simp [husage, hcost, hsatisfied]
  · next hnot =>
    have hnot' : ¬(a.config.metric = .cost ∧ a.config.satisfiedBy (m.change .cost) = true) := by
      rintro ⟨hcost, hsatisfied⟩
      exact hnot ⟨hcost, hcost ▸ hsatisfied⟩
    simp only [← and_assoc, hnot', false_and, decide_false]

theorem percentageRow_eq (hr : r.ShapedFor a.config)
    (hcondition : a.config.condition = .percentage) (h : r.LaidOut m row) :
    percentageRow a r noise now row = testChange noise a now m row := by
  have hcomparative : r.comparative = true := by simp [hr.comparative, hcondition]
  have hchange : change row r.comparativeIndex = .ok (m.change a.config.metric) := by
    refine h.change_eq (i := 0) hcomparative ?_
    by_cases hcost : a.config.metric = .cost <;> simp [hr.metrics, metricsFor, hcondition, hcost]
  simp only [percentageRow, rowTime_eq hr (by simp [hcondition]) h, hchange,
    isNoise_eq hr hcondition h, ok_bind, testChange]

/-- The forecasts of the rows in the window of the alert, added up in their order. -/
def totalOf (i : Interval) (now : Instant) (measure : Row → Measures) (total : Float)
    (rows : List Row) : Except Fault Float :=
  rows.foldlM (fun total row => do
    if ← Period.inForecastWindow? i (.midnight (measure row).date) now then
      .ok ((measure row).forecast.elim total (total + ·))
    else .ok total) total

theorem addForecast_eq {total : Float} (h : r.ForecastLaidOut m row) :
    addForecast total row = .ok (m.forecast.elim total (total + ·)) := by
  obtain ⟨-, -, -, hlast⟩ := h
  rw [addForecast, List.getLast?_concat]
  rw [Measures.ForecastCell] at hlast
  split at hlast
  · next hnone =>
    rw [hlast, hnone]
    rfl
  · next x hsome =>
    rw [hsome]
    split
    · next hnull => cases hnull
    · next hnull =>
      rw [Option.some.inj hnull] at hlast
      cases hlast
    · next cell _ hcell =>
      rw [← Option.some.inj hcell, hlast]
      rfl

theorem forecastDate_eq (hr : r.ShapedFor a.config) (hcondition : a.config.condition = .forecast)
    (h : r.ForecastLaidOut m row) : rowDate r row true = .ok (.midnight m.date) := by
  obtain ⟨hdated, hlabel, htime, -⟩ := h
  have hday : r.granularity = .day := by rw [hr.granularity, granularityFor, if_pos hcondition]
  rw [List.append_assoc, List.append_assoc]
  exact rowDate_eq hr hday hdated hlabel htime

theorem forecastTotal_eq {measure : Row → Measures} (hr : r.ShapedFor a.config)
    (hcondition : a.config.condition = .forecast) {rows : List Row}
    (hrows : ∀ row ∈ rows, r.ForecastLaidOut (measure row) row) {total : Float} :
    forecastTotal a.config.interval r now total rows =
      totalOf a.config.interval now measure total rows := by
  induction rows generalizing total with
  | nil => rfl
  | cons row rows ih =>
      obtain ⟨hrow, hrows⟩ := List.forall_mem_cons.1 hrows
      rw [forecastTotal, totalOf, List.foldlM_cons, forecastDate_eq hr hcondition hrow, ok_bind]
      cases Period.inForecastWindow? a.config.interval (.midnight (measure row).date) now with
      | error e => rfl
      | ok inWindow =>
          cases inWindow with
          | false => exact ih hrows
          | true =>
              simp only [ok_bind, if_true, addForecast_eq hrow]
              exact ih hrows

theorem eachRow_congr {f g : Row → Except Fault (Option Notification)} {rows : List Row}
    (h : ∀ row ∈ rows, f row = g row) : eachRow f rows = eachRow g rows := by
  induction rows with
  | nil => rfl
  | cons row rows ih =>
      obtain ⟨hrow, hrows⟩ := List.forall_mem_cons.1 h
      rw [eachRow, eachRow, hrow, ih hrows]

/-- The detections of an alert, told by what the rows measure and not by where their cells
stand. -/
def detections (noise : Float) (a : Alert) (now : Instant) (measure : Row → Measures)
    (result : QueryResult) : Except Fault (List Notification) :=
  match a.config.condition with
  | .value => eachRow (fun row => testValue a now (measure row) row) result.rows
  | .percentage => eachRow (fun row => testChange noise a now (measure row) row) result.rows
  | .forecast => (do
      let total ← totalOf a.config.interval now measure 0.0 result.forecastRows
      detect a none total none now).map Option.toList

theorem evaluate_eq {measure : Row → Measures} {result : QueryResult}
    (hr : r.ShapedFor a.config) (h : r.Answers measure result) :
    evaluate noise a r result now = detections noise a now measure result := by
  rw [evaluate, detections]
  cases hcondition : a.config.condition with
  | value =>
      have hrows := h.rows (by simp [hr.forecast, hcondition])
      exact eachRow_congr fun row hrow => valueRow_eq hr hcondition (hrows row hrow)
  | percentage =>
      have hrows := h.rows (by simp [hr.forecast, hcondition])
      exact eachRow_congr fun row hrow => percentageRow_eq hr hcondition (hrows row hrow)
  | forecast =>
      obtain ⟨hne, hrows⟩ := h.forecastRows (by simp [hr.forecast, hcondition])
      simp only [forecast, if_neg hne, forecastTotal_eq hr hcondition hrows]

/-! ### Nothing is refused for its layout -/

theorem fits_breakdown? (hr : r.ShapedFor a.config) (h : r.LaidOut m row) :
    Fits (breakdown? a (some row)) := by
  cases hdimension : a.config.breakdown? with
  | none =>
      simp only [breakdown?, hdimension]
      exact .ok _
  | some dimension =>
      have hne : r.breakdowns ≠ [] := by
        intro hnil
        rw [hr.breakdowns] at hnil
        simp [AlertConfig.breakdown?, hnil] at hdimension
      obtain ⟨cell, cells, s, rfl, hs⟩ := h.exists_head hne
      simp only [breakdown?, hdimension]
      split
      · exact .ok _
      · rw [Cell.breakdownAt, hs]
        exact (Fits.label? dimension).bind fun _ => .ok _

theorem fits_detect {row : Option Row} (h : Fits (breakdown? a row)) (value : Float)
    (time : Option Instant) : Fits (detect a row value time now) := by
  rw [detect]
  split
  · exact (Fits.expiry? _ _).bind fun _ => h.bind fun _ => (Fits.name? _ _).bind fun _ => .ok _
  · exact .ok _

theorem fits_eachRow {f : Row → Except Fault (Option Notification)} {rows : List Row}
    (h : ∀ row ∈ rows, Fits (f row)) : Fits (eachRow f rows) := by
  induction rows with
  | nil => exact .ok _
  | cons row rows ih =>
      obtain ⟨hrow, hrows⟩ := List.forall_mem_cons.1 h
      exact hrow.bind fun _ => (ih hrows).bind fun _ => .ok _

theorem fits_totalOf (i : Interval) (measure : Row → Measures) (total : Float) (rows : List Row) :
    Fits (totalOf i now measure total rows) := by
  induction rows generalizing total with
  | nil => exact .ok _
  | cons row rows ih =>
      rw [totalOf, List.foldlM_cons]
      refine .bind (.bind (Fits.inForecastWindow? _ _ _) fun inWindow => ?_) ih
      cases inWindow with
      | false => exact .ok _
      | true => exact .ok _

theorem fits_detections {measure : Row → Measures} {result : QueryResult}
    (hr : r.ShapedFor a.config) (h : r.Answers measure result) :
    Fits (detections noise a now measure result) := by
  rw [detections]
  cases hcondition : a.config.condition with
  | value =>
      have hrows := h.rows (by simp [hr.forecast, hcondition])
      exact fits_eachRow fun row hrow => fits_detect (fits_breakdown? hr (hrows row hrow)) _ _
  | percentage =>
      have hrows := h.rows (by simp [hr.forecast, hcondition])
      refine fits_eachRow fun row hrow => ?_
      rw [testChange]
      split
      · exact .ok _
      · split
        · exact .ok _
        · exact fits_detect (fits_breakdown? hr (hrows row hrow)) _ _
  | forecast =>
      have hnone : Fits (breakdown? a none) := by
        cases hdimension : a.config.breakdown? <;> simp only [breakdown?, hdimension] <;>
          exact .ok _
      exact ((fits_totalOf _ measure 0.0 _).bind fun total => fits_detect hnone total none).map _

end Evaluation

open Evaluation in
/-- A request and the evaluation agree on the layout of rows: where the rows of a result are laid
out for the request of an alert, the evaluation tests each row by the value or the change of the
metric of the alert, and no row is refused for its layout. -/
theorem evaluate_laidOut {limit : Nat} {noise : Float} {a : Alert} {now : Instant}
    {s s' : Session} {r : QueryRequest} {measure : Evaluation.Row → Measures}
    {result : QueryResult} (hbuild : QueryRequest.build limit a now s = (.ok (some r), s'))
    (hanswers : r.Answers measure result) :
    evaluate noise a r result now = detections noise a now measure result ∧
      ∀ e, evaluate noise a r result now = .error e → ¬ e.IsMisfit := by
  have hr := QueryRequest.shapedFor_of_build hbuild
  rw [evaluate_eq hr hanswers]
  exact ⟨rfl, fits_detections hr hanswers⟩

namespace Layout

open Evaluation (Row)

theorem valid_may : Date.Valid 2024 5 15 := by decide

def may : Instant := .midnight ⟨2024, 5, 15, valid_may⟩

/-- A daily alert on the change of costs by service. -/
def daily : Alert :=
  .define "a1" "Spend" "acme"
    ((AlertConfig.ofThreshold .percentage .greater 20.0 .cost .day).withBreakdown
      "fixed:service_description")
    ["ops@acme.com"] "v1" true none may

def row : Row :=
  [.text "GKE", .text "2024", .int 5, .int 14, .float 120.0, .float 80.0,
    .comparison (.float 25.0) .null, .comparison (.float 10.0) .null]

def measures : Measures where
  date := ⟨2024, 5, 14, by decide⟩
  value
    | .cost => 120.0
    | _ => 80.0
  change
    | .cost => 25.0
    | _ => 10.0
  forecast := none

theorem laidOut_row {r : QueryRequest} (hr : r.ShapedFor daily.config) :
    r.LaidOut measures row := by
  have hcolumns : r.timeColumns = ["year", "month", "day"] :=
    Evaluation.timeColumns_of_day hr hr.granularity
  have hlabels : ∀ cell ∈ [Cell.text "GKE"], cell.breakdown? ≠ none := by simp [Cell.breakdown?]
  have htimes : List.Forall₂ (r.TimeCell measures.date) r.timeColumns
      [.text "2024", .int 5, .int 14] := by
    rw [hcolumns]
    refine .cons ⟨2024, by decide, fun _ => ?_⟩ (.cons ⟨5, rfl, fun _ => ?_⟩
      (.cons ⟨14, rfl, fun _ => ?_⟩ .nil))
    all_goals constructor <;> decide
  have hvalues : List.Forall₂ measures.ValueCell r.metrics [.float 120.0, .float 80.0] := by
    rw [hr.metrics]
    exact .cons rfl (.cons rfl .nil)
  refine .row (fun _ => by decide) (by rw [hr.breakdowns]; rfl) hlabels htimes hvalues fun _ => ?_
  rw [hr.metrics]
  exact .cons ⟨_, _, rfl, rfl⟩ (.cons ⟨_, _, rfl, rfl⟩ .nil)

end Layout

open Layout in
/-- Costs of a service that rose with its usage are detected for the day of the row. -/
theorem evaluate_laidOut_daily : ∃ r s',
    QueryRequest.build 10 daily may ⟨.fresh, .empty⟩ = (.ok (some r), s') ∧
      r.Answers (fun _ => measures) ⟨[row], []⟩ ∧
      evaluate 5.0 daily r ⟨[row], []⟩ may =
        Evaluation.detections 5.0 daily may (fun _ => measures) ⟨[row], []⟩ ∧
      (evaluate 5.0 daily r ⟨[row], []⟩ may).toOption.map (·.map fun n => (n.value, n.period)) =
        some [(25.0, "2024-05-14")] := by
  have hsome : (QueryRequest.build 10 daily may ⟨.fresh, .empty⟩).1.toOption.join.isSome := by
    decide +kernel
  cases hbuild : QueryRequest.build 10 daily may ⟨.fresh, .empty⟩ with
  | mk built s' =>
  rw [hbuild] at hsome
  obtain _ | _ | r := built
  · cases hsome
  · cases hsome
  have hr := QueryRequest.shapedFor_of_build hbuild
  have hanswers : r.Answers (fun _ => measures) ⟨[row], []⟩ := by
    refine ⟨fun _ cells hcells => ?_, fun hforecast => ?_⟩
    · rw [List.mem_singleton.1 hcells]
      exact laidOut_row hr
    · rw [hr.forecast] at hforecast
      cases hforecast
  have heval : evaluate 5.0 daily r _ may = _ := (evaluate_laidOut hbuild hanswers).1
  refine ⟨r, s', rfl, hanswers, heval, ?_⟩
  rw [heval]
  decide +kernel

end SpendAlerts
