import SpendAlerts.Proofs.Evaluation.Judgement
import SpendAlerts.Proofs.Layout

/-!
Values and percentages are evaluated row by row. A result is evaluated as its rows are on their
own, one after the other, up to the first that fails. Which rows are accepted, what they give and
what the others are refused with is the judgement of the row; here it is shown besides how far a
row is looked at at all.
-/

namespace SpendAlerts

namespace Evaluation

variable {a : Alert} {request : QueryRequest} {noise : Float} {now : Instant} {row : Row}

/-- The evaluation of a result that has no other row. -/
def alone (noise : Float) (a : Alert) (request : QueryRequest) (now : Instant) (row : Row) :
    Except Fault (List Notification) :=
  evaluate noise a request ⟨[row], []⟩ now

/-- What a row gives on its own. -/
structure JudgedAlone (noise : Float) (a : Alert) (request : QueryRequest) (now : Instant)
    (row : Row) : Prop where
  /-- When the row is accepted, what it gives then, and what it is refused with otherwise. -/
  outcome : ∀ r, alone noise a request now row = r ↔
    ∃ o, Judged noise a request now row o ∧ r = o.map Option.toList
  /-- Only rows outside the window give nothing whatever follows their time columns. -/
  unevaluated : OutsideWindow a request now row ↔
    ∀ rest, alone noise a request now (row.take request.metricIndex ++ rest) = .ok []
  tested : ¬ OutsideWindow a request now row → ∀ part, alone noise a request now row = .ok part →
    ∃ x, tested? a request row = some x ∧ (part = [] ∨ ∃ n, part = [n] ∧ n.value = x) ∧
      ((∃ n, part = [n]) ↔ Beyond a.config x ∧ ¬ Noisy noise a request row)
  usageNeeded : ¬ OutsideWindow a request now row → CostSatisfied a request row →
    ∀ part, alone noise a request now row = .ok part →
      ∃ usage, usageChange? request row = some usage
  /-- Without a cost condition that holds, nothing behind the change of the costs matters. -/
  usageUnused : ¬ CostSatisfied a request row →
    alone noise a request now (row.take (request.comparativeIndex + 1)) =
      alone noise a request now row

/-! ### Rows in order -/

section Order

variable {f : Row → Except Fault (Option Notification)} {rows : List Row}

theorem eachRow_eq_ok_iff {ns : List Notification} : eachRow f rows = .ok ns ↔
    ∃ parts, List.Forall₂ (fun row part => (f row).map Option.toList = .ok part) rows parts ∧
      ns = parts.flatten := by
  induction rows generalizing ns with
  | nil =>
      constructor
      · rintro ⟨⟩
        exact ⟨[], .nil, rfl⟩
      · rintro ⟨_, ⟨⟩, rfl⟩
        rfl
  | cons row rows ih =>
      constructor
      · intro h
        obtain ⟨o, ho, h⟩ := bind_eq_ok.1 h
        obtain ⟨ms, hms, h⟩ := bind_eq_ok.1 h
        cases h
        obtain ⟨parts, hparts, rfl⟩ := ih.1 hms
        exact ⟨o.toList :: parts, .cons (map_eq_ok.2 ⟨o, ho, rfl⟩) hparts, rfl⟩
      · rintro ⟨_, hparts, rfl⟩
        cases hparts with
        | cons hpart hrest =>
            obtain ⟨o, ho, rfl⟩ := map_eq_ok.1 hpart
            exact bind_eq_ok.2 ⟨o, ho, bind_eq_ok.2 ⟨_, ih.2 ⟨_, hrest, rfl⟩, rfl⟩⟩

theorem eachRow_eq_error_iff {e : Fault} : eachRow f rows = .error e ↔
    ∃ before row after, rows = before ++ row :: after ∧
      (∀ r ∈ before, ∃ part, (f r).map Option.toList = .ok part) ∧
      (f row).map Option.toList = .error e := by
  induction rows with
  | nil =>
      constructor
      · rintro ⟨⟩
      · rintro ⟨before, row, after, hrows, -⟩
        exact absurd hrows.symm (List.append_ne_nil_of_right_ne_nil _ (List.cons_ne_nil _ _))
  | cons row rows ih =>
      rw [eachRow]
      cases hrow : f row with
      | error e' =>
          constructor
          · rintro ⟨⟩
            exact ⟨[], row, rows, rfl, List.forall_mem_nil _, by rw [hrow]; rfl⟩
          · rintro ⟨before, row', after, hrows, hbefore, herror⟩
            cases before with
            | nil =>
                cases hrows
                rw [hrow] at herror
                exact herror
            | cons first before =>
                cases hrows
                obtain ⟨part, hpart⟩ := hbefore row List.mem_cons_self
                rw [hrow] at hpart
                cases hpart
      | ok o =>
          have hrest : (do let ns ← eachRow f rows; .ok (o.toList ++ ns)) = .error e ↔
              eachRow f rows = .error e := by
            cases eachRow f rows <;> simp [bind, Except.bind]
          rw [ok_bind, hrest, ih]
          constructor
          · rintro ⟨before, row', after, rfl, hbefore, herror⟩
            refine ⟨row :: before, row', after, rfl, List.forall_mem_cons.2 ⟨?_, hbefore⟩, herror⟩
            exact ⟨o.toList, by rw [hrow]; rfl⟩
          · rintro ⟨before, row', after, hrows, hbefore, herror⟩
            cases before with
            | nil =>
                cases hrows
                rw [hrow] at herror
                cases herror
            | cons first before =>
                cases hrows
                exact ⟨before, row', after, rfl, (List.forall_mem_cons.1 hbefore).2, herror⟩

end Order

/-! ### A row on its own -/

theorem evaluate_eq_eachRow (hcondition : a.config.condition ≠ .forecast) (result : QueryResult) :
    evaluate noise a request result now = eachRow (judge noise a request now) result.rows := by
  have hjudge : judge noise a request now =
      if a.config.condition = .percentage then percentageRow a request noise now
      else valueRow a request now := by
    funext row
    rw [judge]
    split <;> rfl
  rw [evaluate, hjudge]
  cases h : a.config.condition with
  | value => rfl
  | percentage => rfl
  | forecast => exact absurd h hcondition

theorem alone_eq (hcondition : a.config.condition ≠ .forecast) (row : Row) :
    alone noise a request now row = (judge noise a request now row).map Option.toList := by
  rw [alone, evaluate_eq_eachRow hcondition, eachRow, eachRow]
  cases judge noise a request now row with
  | error e => rfl
  | ok o => simp [ok_bind, Except.map]

theorem alone_eq_nil_iff (hcondition : a.config.condition ≠ .forecast) :
    alone noise a request now row = .ok [] ↔ judge noise a request now row = .ok none := by
  rw [alone_eq hcondition]
  cases judge noise a request now row with
  | error e => exact ⟨nofun, nofun⟩
  | ok o => cases o <;> simp [Except.map]

/-! ### The cells that are looked at -/

theorem dateParts_append {columns : List String} {cells rest : Row} {parts : DateParts}
    (h : columns.length ≤ cells.length) :
    dateParts parts columns (cells ++ rest) = dateParts parts columns cells := by
  induction columns generalizing parts cells with
  | nil => rfl
  | cons column columns ih =>
      cases cells with
      | nil => cases h
      | cons cell cells =>
          have hrest : columns.length ≤ cells.length := Nat.le_of_succ_le_succ h
          simp only [List.cons_append, dateParts, ih hrest]

/-- The date of a row is read off its breakdown and time columns. -/
theorem rowDate_append {before rest : Row} (h : request.metricIndex ≤ before.length) :
    rowDate request (before ++ rest) false = rowDate request before false := by
  have hoffset : request.timeOffset false = request.breakdowns.length := rfl
  have hindex : request.metricIndex = request.breakdowns.length + request.timeColumns.length := rfl
  have hlong : ¬ before.length < request.timeOffset false + request.timeColumns.length := by omega
  have hlong' : ¬ (before ++ rest).length <
      request.timeOffset false + request.timeColumns.length := by
    rw [List.length_append]
    omega
  have hdrop : (before ++ rest).drop (request.timeOffset false) =
      before.drop (request.timeOffset false) ++ rest := List.drop_append_of_le_length (by omega)
  have hparts : request.timeColumns.length ≤ (before.drop (request.timeOffset false)).length := by
    rw [List.length_drop]
    omega
  simp only [rowDate, if_neg hlong, if_neg hlong', hdrop, dateParts_append hparts]

theorem metricIndex_le_of_rowDate {date : Instant} (h : rowDate request row false = .ok date) :
    request.metricIndex ≤ row.length :=
  length_le_of_rowDate h

theorem rowDate_take {m : Nat} (hm : request.metricIndex ≤ m) :
    rowDate request (row.take m) false = rowDate request row false := by
  by_cases hlong : request.metricIndex ≤ row.length
  · have hbefore : request.metricIndex ≤ (row.take m).length := by
      rw [List.length_take]
      omega
    have hwhole : rowDate request (row.take m ++ row.drop m) false =
        rowDate request (row.take m) false := rowDate_append hbefore
    rw [← hwhole, List.take_append_drop]
  · rw [List.take_of_length_le (by omega)]

theorem rowTime_take {m : Nat} (hm : request.metricIndex ≤ m) (i : Interval) :
    rowTime i request (row.take m) = rowTime i request row := by
  rw [rowTime, rowTime, rowDate_take hm]

theorem outsideWindow_congr {row' : Row}
    (h : rowDate request row' false = rowDate request row false) :
    OutsideWindow a request now row' ↔ OutsideWindow a request now row := by
  rw [OutsideWindow, OutsideWindow, h]

theorem breakdown?_take (m : Nat) :
    breakdown? a (some (row.take (m + 1))) = breakdown? a (some row) := by
  cases row with
  | nil => rfl
  | cons cell cells =>
      cases h : a.config.breakdown? <;> simp only [List.take_succ_cons, breakdown?, h]

theorem detect_take (m : Nat) (x : Float) (time : Option Instant) :
    detect a (some (row.take (m + 1))) x time now = detect a (some row) x time now := by
  rw [detect, detect, breakdown?_take]

theorem number_take {m index : Nat} (h : index < m) :
    number (row.take m) index = number row index := by
  rw [number, number, List.getElem?_take_of_lt h]

theorem change_take {m index : Nat} (h : index < m) :
    change (row.take m) index = change row index := by
  rw [change, change, List.getElem?_take_of_lt h]

/-- The number that is tested stands behind the time columns. -/
theorem tested?_take_metricIndex : tested? a request (row.take request.metricIndex) = none := by
  have hlength : (row.take request.metricIndex).length ≤ request.metricIndex :=
    List.length_take_le _ _
  have hindex : request.metricIndex ≤ request.comparativeIndex := Nat.le_add_right _ _
  rw [tested?, List.getElem?_eq_none hlength, List.getElem?_eq_none (hlength.trans hindex)]
  exact ite_self none

/-- The usage is not looked at unless the costs satisfy the condition. -/
theorem judge_take (h : ¬ CostSatisfied a request row) :
    judge noise a request now (row.take (request.comparativeIndex + 1)) =
      judge noise a request now row := by
  have hindex : request.metricIndex ≤ request.comparativeIndex := Nat.le_add_right _ _
  have hless : request.comparativeIndex < request.comparativeIndex + 1 := Nat.lt_succ_self _
  rw [judge, judge]
  split
  · next hcondition =>
    rw [percentageRow, percentageRow, rowTime_take (hindex.trans hless.le), change_take hless]
    cases rowTime a.config.interval request row with
    | error e => rfl
    | ok time =>
      cases hx : change row request.comparativeIndex with
      | error e => rfl
      | ok x =>
          have htested : tested? a request row = some x := by
            rw [tested?, if_pos hcondition]
            exact change_eq_ok_iff.1 hx
          have hnot : ¬ (a.config.metric = .cost ∧ a.config.satisfiedBy x = true) :=
            fun hcost => h ((costSatisfied_iff htested).2 ⟨⟨hcondition, hcost.1⟩, hcost.2⟩)
          simp only [ok_bind, isNoise, if_neg hnot, detect_take]
  · rw [valueRow, valueRow, rowTime_take (hindex.trans hless.le),
      number_take (Nat.lt_of_le_of_lt hindex hless)]
    simp only [detect_take]

/-- A row inside the window that is accepted has been tested, and gives what its number and the
usage say. -/
theorem Judged.tested {o : Option Notification} (h : Judged noise a request now row (.ok o))
    (hin : ¬ OutsideWindow a request now row) : ∃ x, tested? a request row = some x ∧
      (CostSatisfied a request row → ∃ usage, usageChange? request row = some usage) ∧
      ((o = none ∧ ¬ (Beyond a.config x ∧ ¬ Noisy noise a request row)) ∨
        ∃ n, o = some n ∧ n.value = x ∧ Beyond a.config x ∧ ¬ Noisy noise a request row) := by
  cases h with
  | outside outside => exact absurd outside hin
  | @within x _ tested below =>
      exact ⟨x, tested, fun hsatisfied => absurd (hsatisfied.beyond tested) below,
        .inl ⟨rfl, fun h => below h.1⟩⟩
  | noisy _ satisfied noisy =>
      obtain ⟨-, x, tested, -⟩ := satisfied
      obtain ⟨usage, husage, -⟩ := noisy.2
      exact ⟨x, tested, fun _ => ⟨usage, husage⟩, .inl ⟨rfl, fun h => h.2 noisy⟩⟩
  | @drawn x n _ counts draws =>
      have hmoved : ¬ Noisy noise a request row := by
        rintro ⟨hcosts, usage, husage, hsmall⟩
        obtain ⟨usage', husage', hlarge⟩ := counts.moved hcosts
        cases husage.symm.trans husage'
        exact hlarge hsmall
      refine ⟨x, counts.tested, fun hsatisfied => ?_, .inr ⟨n, rfl, draws.value, counts.beyond,
        hmoved⟩⟩
      obtain ⟨usage, husage, -⟩ := counts.moved hsatisfied.1
      exact ⟨usage, husage⟩

theorem judgedAlone (hcondition : a.config.condition ≠ .forecast) (row : Row) :
    JudgedAlone noise a request now row where
  outcome r := by
    simp only [alone_eq hcondition, ← judge_eq_iff hcondition]
    constructor
    · rintro rfl
      exact ⟨_, rfl, rfl⟩
    · rintro ⟨o, rfl, rfl⟩
      rfl
  unevaluated := by
    constructor
    · intro hout rest
      have hdate : rowDate request (row.take request.metricIndex ++ rest) false =
          rowDate request row false := by
        obtain ⟨-, -, date, _, _, hdate, -⟩ := hout
        have hlong := metricIndex_le_of_rowDate hdate
        rw [rowDate_append (by rw [List.length_take]; omega), rowDate_take (Nat.le_refl _)]
      exact (alone_eq_nil_iff hcondition).2
        (judge_of_outsideWindow ((outsideWindow_congr hdate).2 hout))
    · intro hnothing
      have hjudge := (alone_eq_nil_iff hcondition).1 (hnothing [])
      rw [List.append_nil, judge_eq_iff hcondition] at hjudge
      by_contra hin
      obtain ⟨x, hx, -⟩ := hjudge.tested
        (mt (outsideWindow_congr (rowDate_take (Nat.le_refl _))).1 hin)
      rw [tested?_take_metricIndex] at hx
      cases hx
  tested hin part hpart := by
    rw [alone_eq hcondition] at hpart
    obtain ⟨o, hjudge, rfl⟩ := map_eq_ok.1 hpart
    obtain ⟨x, hx, -, ⟨rfl, hnot⟩ | ⟨n, rfl, hvalue, hcounts⟩⟩ :=
      ((judge_eq_iff hcondition).1 hjudge).tested hin
    · exact ⟨x, hx, .inl rfl, iff_of_false (fun ⟨n, hn⟩ => List.cons_ne_nil n [] hn.symm) hnot⟩
    · exact ⟨x, hx, .inr ⟨n, rfl, hvalue⟩, iff_of_true ⟨n, rfl⟩ hcounts⟩
  usageNeeded hin hcost part hpart := by
    rw [alone_eq hcondition] at hpart
    obtain ⟨o, hjudge, rfl⟩ := map_eq_ok.1 hpart
    obtain ⟨x, -, husage, -⟩ := ((judge_eq_iff hcondition).1 hjudge).tested hin
    exact husage hcost
  usageUnused hcost := by
    rw [alone_eq hcondition, alone_eq hcondition, judge_take hcost]

/-- Evaluation goes row by row, up to the first row that fails, and each row is judged on its
own. The window of a daily percentage, which the judgement refers to, starts five days ago. -/
theorem evaluate_rowwise (hcondition : a.config.condition ≠ .forecast) (noise : Float)
    (request : QueryRequest) (result : QueryResult) (now : Instant) :
    (∀ ns, evaluate noise a request result now = .ok ns ↔
      ∃ parts, List.Forall₂ (fun row part => alone noise a request now row = .ok part)
        result.rows parts ∧ ns = parts.flatten) ∧
    (∀ e, evaluate noise a request result now = .error e ↔
      ∃ before row after, result.rows = before ++ row :: after ∧
        (∀ r ∈ before, ∃ part, alone noise a request now r = .ok part) ∧
        alone noise a request now row = .error e) ∧
    (∀ row, JudgedAlone noise a request now row) ∧
    (a.config.condition = .percentage → a.config.interval = .day →
      ∀ w, TimeWindow.forConfig a.config now.startOfDay = .ok w ↔
        ∃ first : Date, first.dayNumber = now.date.dayNumber - 5 ∧
          w = .custom (.midnight first) now.startOfDay) := by
  refine ⟨fun ns => ?_, fun e => ?_, judgedAlone hcondition,
    fun hpercentage hday w => forConfig_dailyPercentage hpercentage hday⟩
  · rw [evaluate_eq_eachRow hcondition, eachRow_eq_ok_iff]
    simp only [alone_eq hcondition]
  · rw [evaluate_eq_eachRow hcondition, eachRow_eq_error_iff]
    simp only [alone_eq hcondition]

end Evaluation

namespace Layout

open Evaluation (Row)

/-- The request for the daily alert. -/
def request : QueryRequest where
  alertId := "a1"
  customerId := "acme"
  organization := none
  metric := .cost
  metrics := [.cost, .usage]
  extendedMetric := none
  calculatedMetric := none
  currency := "USD"
  dataSource := "billing"
  breakdowns := ["fixed:service_description"]
  timeColumns := ["year", "month", "day"]
  granularity := .day
  filters := [(DimensionFilter.select .fixed "service_description" []).excluding.limitedTo
    ⟨10, .desc, .cost⟩, QueryRequest.discountFilter]
  metricFilters := []
  window := .custom (.midnight ⟨2024, 5, 10, by decide⟩) may
  comparative := true
  forecast := false

theorem build_daily : QueryRequest.build 10 daily may ⟨.fresh, .empty⟩ =
    (.ok (some request), ⟨.fresh, .empty⟩) := rfl

/-- The first day of the window, with no numbers at all. -/
def baseline : Row :=
  [.text "GKE", .int 2024, .int 5, .int 10]

/-- Costs that have hardly changed, with no change of the usage. -/
def steady : Row :=
  [.text "GKE", .int 2024, .int 5, .int 11, .float 95.0, .float 80.0,
    .comparison (.float 5.0) .null]

/-- Costs that rose while the usage has hardly changed. -/
def noisy : Row :=
  [.text "GKE", .int 2024, .int 5, .int 12, .float 120.0, .float 81.0,
    .comparison (.float 25.0) .null, .comparison (.float 1.5) .null]

/-- The daily alert on the costs themselves. -/
def valued : Alert := { daily with config := { daily.config with condition := .value } }

/-- A row with a text for its costs. -/
def worded : Row :=
  [.text "GKE", .int 2024, .int 5, .int 13, .text "many"]

/-- What the alert on costs detects in a row that is far beyond its threshold. -/
def spend : Notification where
  alertId := "a1"
  alertName := ""
  sentence := ""
  customerId := "acme"
  recipients := ["ops@acme.com"]
  value := 120.0
  period := "2024-05-14"
  breakdown := some "GKE"
  breakdownLabel := some "Service"
  etag := "v1"
  detected := .midnight measures.date
  sent := none
  expiry := .midnight ⟨2024, 7, 15, by decide⟩

end Layout

open Layout in
/-- Percentages are left out before the window, below the threshold and as noise. Costs are
detected, and a text in their place refuses the whole result. -/
theorem Evaluation.evaluate_rowwise_daily :
    (daily.config.condition ≠ .forecast ∧
      (evaluate 5.0 daily request ⟨[baseline, steady, noisy, row], []⟩ may).toOption.map
        (·.map fun n => (n.value, n.period)) = some [(25.0, "2024-05-14")] ∧
      (∃ parts, List.Forall₂ (fun row part => alone 5.0 daily request may row = .ok part)
        [baseline, steady, noisy, row] parts) ∧
      JudgedAlone 5.0 daily request may baseline ∧ JudgedAlone 5.0 daily request may noisy) ∧
    valued.config.condition ≠ .forecast ∧
    Judged 5.0 valued request may row (.ok (some spend)) ∧
    evaluate 5.0 valued request ⟨[row, worded, steady], []⟩ may =
      .error (.invalidCell 4 "expected a numeric metric value") := by
  have hcondition : daily.config.condition ≠ .forecast := by decide
  have hvalued : valued.config.condition ≠ .forecast := by decide
  obtain ⟨hok, -, hrows, -⟩ :=
    evaluate_rowwise hcondition 5.0 request ⟨[baseline, steady, noisy, row], []⟩ may
  obtain ⟨-, herror, hjudged, -⟩ :=
    evaluate_rowwise hvalued 5.0 request ⟨[row, worded, steady], []⟩ may
  have hvalues : (evaluate 5.0 daily request ⟨[baseline, steady, noisy, row], []⟩ may).toOption.map
      (·.map fun n => (n.value, n.period)) = some [(25.0, "2024-05-14")] := by
    decide +kernel
  have hspend : alone 5.0 valued request may row = .ok [spend] :=
    toOption_eq_some.1 (by decide +kernel)
  refine ⟨⟨hcondition, hvalues, ?_, hrows baseline, hrows noisy⟩, hvalued, ?_, ?_⟩
  · cases hresult : evaluate 5.0 daily request ⟨[baseline, steady, noisy, row], []⟩ may with
    | error e =>
        rw [hresult] at hvalues
        cases hvalues
    | ok ns =>
        obtain ⟨parts, hparts, -⟩ := (hok ns).1 hresult
        exact ⟨parts, hparts⟩
  · obtain ⟨o, hjudge, ho⟩ := ((hjudged row).outcome _).1 hspend
    obtain _ | _ | n := o
    · cases ho
    · cases ho
    · cases ho
      exact hjudge
  · refine (herror _).2 ⟨[row], worded, [steady], rfl,
      List.forall_mem_singleton.2 ⟨_, hspend⟩, ((hjudged worded).outcome _).2 ⟨.error _, ?_, rfl⟩⟩
    refine .untested ⟨fun _ => ⟨.midnight ⟨2024, 5, 13, by decide⟩, rfl⟩, fun h => ?_⟩
      (.value (by decide) rfl)
    exact absurd h.1 (by decide)

end SpendAlerts
