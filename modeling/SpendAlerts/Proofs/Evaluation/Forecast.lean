import SpendAlerts.Proofs.Evaluation.Rows
import SpendAlerts.Proofs.Period.Names

/-!
Forecasts. The rows of a forecast are read in order, and each has to have a date; those of the
window are added up, and the total is tested once. What is added is the last cell of a row, where
a request puts the forecast. A row that ends with its time columns has its day there: the day is
added as if it was money if it is a whole number, and refused if it is the text of one.
-/

namespace SpendAlerts

/-- The date counts towards the period that holds the other: forecasts for days and weeks are
those of the month. -/
def Period.InWindow (i : Interval) (date now : Date) : Prop :=
  match i with
  | .year => date.year = now.year
  | .quarter => date.year = now.year ∧ date.quarter = now.quarter
  | .month | .week | .day => date.year = now.year ∧ date.month = now.month
  | .hour => False

instance (i : Interval) (date now : Date) : Decidable (Period.InWindow i date now) :=
  match i with
  | .year => inferInstanceAs (Decidable (_ = _))
  | .quarter | .month | .week | .day => inferInstanceAs (Decidable (_ ∧ _))
  | .hour => isFalse not_false

theorem Period.inForecastWindow?_eq {i : Interval} (hi : i ≠ .hour) (row now : Instant) :
    inForecastWindow? i row now = .ok (decide (InWindow i row.date now.date)) := by
  cases i with
  | hour => exact absurd rfl hi
  | year => rfl
  | quarter | month | week | day =>
      exact congrArg _ (Bool.decide_and _ _).symm

namespace Evaluation

variable {a : Alert} {i : Interval} {request : QueryRequest} {noise : Float} {now : Instant}
  {row : Row} {rows : List Row} {total : Float}

/-- The row has a date in the window. -/
def Counted (i : Interval) (request : QueryRequest) (now : Instant) (row : Row) : Prop :=
  ∃ date, rowDate request row true = .ok date ∧ Period.InWindow i date.date now.date

instance (i : Interval) (request : QueryRequest) (now : Instant) (row : Row) :
    Decidable (Counted i request now row) :=
  match h : rowDate request row true with
  | .ok date => decidable_of_iff (Period.InWindow i date.date now.date)
      ⟨fun hwindow => ⟨date, h, hwindow⟩, fun ⟨_, hdate, hwindow⟩ =>
        Except.ok.inj (h.symm.trans hdate) ▸ hwindow⟩
  | .error _ => isFalse fun ⟨_, hdate, _⟩ => nomatch h.symm.trans hdate

/-- The number in the last cell of a row. -/
def amount? (row : Row) : Option Float := row.getLast?.bind Cell.float?

/-- A last cell without a number is empty. -/
def Numeric (row : Row) : Prop :=
  ∀ cell ∈ row.getLast?, cell = .null ∨ cell.float?.isSome

instance (row : Row) : Decidable (Numeric row) :=
  inferInstanceAs (Decidable (∀ cell ∈ row.getLast?, cell = .null ∨ cell.float?.isSome))

/-- The row has a date, and a number or nothing in its last cell if the date is in the window. -/
structure Readable (i : Interval) (request : QueryRequest) (now : Instant) (row : Row) :
    Prop where
  dated : ∃ date, rowDate request row true = .ok date
  numeric : Counted i request now row → Numeric row

/-- The fault of a row that is not readable. -/
inductive Refuses (i : Interval) (request : QueryRequest) (now : Instant) (row : Row) :
    Fault → Prop where
  | undated {e : Fault} (undated : rowDate request row true = .error e) :
      Refuses i request now row e
  | notNumeric (counted : Counted i request now row) (text : ¬ Numeric row) :
      Refuses i request now row (.invalidCell (row.length - 1) "forecast value is not numeric")

/-- The numbers in the rows of the window, in order. -/
def amounts (i : Interval) (request : QueryRequest) (now : Instant) (rows : List Row) :
    List Float :=
  (rows.filter (Counted i request now ·)).filterMap amount?

/-- The total of a forecast. -/
def sum (xs : List Float) : Float := xs.foldl (· + ·) 0.0

/-- What is announced of a total: one detection of it if it satisfies the condition. -/
structure Announces (a : Alert) (now : Instant) (total : Float) (ns : List Notification) :
    Prop where
  atMostOne : ns.length ≤ 1
  fired : ns ≠ [] ↔ Beyond a.config total
  value : ∀ n ∈ ns, n.value = total
  breakdown : ∀ n ∈ ns, n.breakdown = none
  period : ∀ n ∈ ns, Period.name? a.config.interval now = .ok n.period

/-! ### One row -/

theorem readable_or_refuses (i : Interval) (request : QueryRequest) (now : Instant) (row : Row) :
    Readable i request now row ∨ ∃ e, Refuses i request now row e := by
  cases hdate : rowDate request row true with
  | error e => exact .inr ⟨e, .undated hdate⟩
  | ok date =>
      by_cases hnumeric : Counted i request now row → Numeric row
      · exact .inl ⟨⟨date, hdate⟩, hnumeric⟩
      · obtain ⟨hcounted, htext⟩ := Classical.not_imp.1 hnumeric
        exact .inr ⟨_, .notNumeric hcounted htext⟩

theorem not_readable_of_refuses {e : Fault} (h : Refuses i request now row e) :
    ¬ Readable i request now row := by
  rintro ⟨⟨date, hdate⟩, hnumeric⟩
  cases h with
  | undated hundated => cases hdate.symm.trans hundated
  | notNumeric hcounted htext => exact htext (hnumeric hcounted)

/-- A row is refused as a row for its date, and as a cell only if it is in the window. -/
theorem fault_of_refuses {e : Fault} (h : Refuses i request now row e) :
    (∃ reason, e = .invalidRow reason) ∨
      Counted i request now row ∧ ¬ Numeric row ∧
        e = .invalidCell (row.length - 1) "forecast value is not numeric" := by
  cases h with
  | undated hundated => exact .inl (rowDate_eq_error hundated)
  | notNumeric hcounted htext => exact .inr ⟨hcounted, htext, rfl⟩

theorem addForecast_of_numeric (h : Numeric row) (total : Float) :
    addForecast total row = .ok ((amount? row).toList.foldl (· + ·) total) := by
  rw [addForecast, amount?]
  cases hlast : row.getLast? with
  | none => rfl
  | some cell =>
      obtain rfl | hnumber := h cell hlast
      · rfl
      · cases cell with
        | null | text _ | comparison _ _ => cases hnumber
        | int _ | float _ => rfl

theorem addForecast_of_not_numeric (h : ¬ Numeric row) (total : Float) :
    addForecast total row =
      .error (.invalidCell (row.length - 1) "forecast value is not numeric") := by
  simp only [Numeric, not_forall, not_or] at h
  obtain ⟨cell, hlast, hnull, hfloat⟩ := h
  rw [addForecast, hlast]
  cases cell with
  | null => exact absurd rfl hnull
  | int _ | float _ => exact absurd rfl hfloat
  | text _ | comparison _ _ => rfl

/-! ### All rows -/

theorem amounts_cons : amounts i request now (row :: rows) =
    (if Counted i request now row then (amount? row).toList else []) ++
      amounts i request now rows := by
  rw [amounts, amounts, List.filter_cons]
  by_cases h : Counted i request now row
  · rw [if_pos (decide_eq_true h), if_pos h, List.filterMap_cons]
    cases amount? row <;> rfl
  · rw [if_neg (by simpa using h), if_neg h, List.nil_append]

theorem forecastTotal_of_readable (hi : i ≠ .hour) (h : Readable i request now row) :
    forecastTotal i request now total (row :: rows) =
      forecastTotal i request now ((amounts i request now [row]).foldl (· + ·) total) rows := by
  obtain ⟨⟨date, hdate⟩, hnumeric⟩ := h
  rw [forecastTotal, hdate, ok_bind, Period.inForecastWindow?_eq hi, ok_bind, amounts_cons]
  by_cases hwindow : Period.InWindow i date.date now.date
  · have hcounted : Counted i request now row := ⟨date, hdate, hwindow⟩
    rw [if_pos (decide_eq_true hwindow), if_pos hcounted,
      addForecast_of_numeric (hnumeric hcounted)]
    simp [ok_bind, amounts]
  · have hcounted : ¬ Counted i request now row := by
      rintro ⟨date', hdate', hwindow'⟩
      cases hdate.symm.trans hdate'
      exact hwindow hwindow'
    rw [if_neg (by simpa using hwindow), if_neg hcounted]
    rfl

theorem forecastTotal_of_refuses (hi : i ≠ .hour) {e : Fault} (h : Refuses i request now row e) :
    forecastTotal i request now total (row :: rows) = .error e := by
  rw [forecastTotal]
  cases h with
  | undated hundated => rw [hundated]; rfl
  | notNumeric hcounted htext =>
      obtain ⟨date, hdate, hwindow⟩ := hcounted
      rw [hdate, ok_bind, Period.inForecastWindow?_eq hi, ok_bind, if_pos (decide_eq_true hwindow),
        addForecast_of_not_numeric htext]
      rfl

theorem forecastTotal_of_forall (hi : i ≠ .hour)
    (h : ∀ row ∈ rows, Readable i request now row) (total : Float) :
    forecastTotal i request now total rows =
      .ok ((amounts i request now rows).foldl (· + ·) total) := by
  induction rows generalizing total with
  | nil => rfl
  | cons row rows ih =>
      obtain ⟨hrow, hrows⟩ := List.forall_mem_cons.1 h
      rw [forecastTotal_of_readable hi hrow, ih hrows, amounts_cons, amounts_cons,
        List.foldl_append, List.foldl_append]
      rfl

/-- The first row that is not readable is what a forecast is refused for. -/
theorem forecastTotal_of_split (hi : i ≠ .hour) {before after : List Row} {e : Fault}
    (hbefore : ∀ r ∈ before, Readable i request now r) (h : Refuses i request now row e)
    (total : Float) :
    forecastTotal i request now total (before ++ row :: after) = .error e := by
  induction before generalizing total with
  | nil => exact forecastTotal_of_refuses hi h
  | cons first before ih =>
      obtain ⟨hfirst, hbefore⟩ := List.forall_mem_cons.1 hbefore
      rw [List.cons_append, forecastTotal_of_readable hi hfirst, ih hbefore]

/-- All rows are readable, or there is a first that is not. -/
theorem forall_readable_or_split (i : Interval) (request : QueryRequest) (now : Instant)
    (rows : List Row) : (∀ row ∈ rows, Readable i request now row) ∨
      ∃ before row after e, rows = before ++ row :: after ∧
        (∀ r ∈ before, Readable i request now r) ∧ Refuses i request now row e := by
  induction rows with
  | nil => exact .inl (List.forall_mem_nil _)
  | cons row rows ih =>
      obtain hrow | ⟨e, hrow⟩ := readable_or_refuses i request now row
      · obtain hrows | ⟨before, bad, after, e, rfl, hbefore, hbad⟩ := ih
        · exact .inl (List.forall_mem_cons.2 ⟨hrow, hrows⟩)
        · exact .inr ⟨row :: before, bad, after, e, rfl, List.forall_mem_cons.2 ⟨hrow, hbefore⟩,
            hbad⟩
      · exact .inr ⟨[], row, rows, e, rfl, List.forall_mem_nil _, hrow⟩

/-- The total stands for rows that are readable, and for no others. -/
theorem forecastTotal_eq_ok_iff (hi : i ≠ .hour) {x : Float} :
    forecastTotal i request now total rows = .ok x ↔
      (∀ row ∈ rows, Readable i request now row) ∧
        x = (amounts i request now rows).foldl (· + ·) total := by
  obtain h | ⟨before, row, after, e, rfl, hbefore, hrefused⟩ :=
    forall_readable_or_split i request now rows
  · rw [forecastTotal_of_forall hi h]
    exact ⟨fun hx => ⟨h, (Except.ok.inj hx).symm⟩, fun hx => congrArg _ hx.2.symm⟩
  · rw [forecastTotal_of_split hi hbefore hrefused]
    exact ⟨nofun, fun hx => absurd (hx.1 row List.mem_append_cons_self)
      (not_readable_of_refuses hrefused)⟩

theorem forecastTotal_eq_error_iff (hi : i ≠ .hour) (total : Float) {e : Fault} :
    forecastTotal i request now total rows = .error e ↔
      ∃ before row after, rows = before ++ row :: after ∧
        (∀ r ∈ before, Readable i request now r) ∧ Refuses i request now row e := by
  constructor
  · intro he
    obtain h | ⟨before, row, after, e', rfl, hbefore, hrefused⟩ :=
      forall_readable_or_split i request now rows
    · rw [forecastTotal_of_forall hi h] at he
      cases he
    · rw [forecastTotal_of_split hi hbefore hrefused] at he
      cases he
      exact ⟨before, row, after, rfl, hbefore, hrefused⟩
  · rintro ⟨before, row, after, rfl, hbefore, hrefused⟩
    exact forecastTotal_of_split hi hbefore hrefused total

/-! ### The test of the total -/

theorem detectionTime_none (i : Interval) (now : Instant) : detectionTime i none now = now := by
  cases i <;> rfl

theorem breakdown?_none (a : Alert) : breakdown? a none = .ok none := by
  cases h : a.config.breakdown? <;> simp only [breakdown?, h]

theorem announces_of_detect {o : Option Notification}
    (h : detect a none total none now = .ok o) : Announces a now total o.toList := by
  obtain ⟨rfl, hnot⟩ | ⟨n, rfl, hdrawn⟩ := drawn_or_none h
  · exact ⟨Nat.zero_le 1, iff_of_false (absurd rfl) (satisfiedBy_eq_false_iff.1 hnot),
      List.forall_mem_nil _, List.forall_mem_nil _, List.forall_mem_nil _⟩
  · obtain ⟨b, hb, hbreakdown⟩ := hdrawn.breakdown
    cases (breakdown?_none a).symm.trans hb
    have hdetected : n.detected = now := hdrawn.detected.trans (detectionTime_none _ now)
    have hperiod := hdrawn.detects.period
    rw [hdetected] at hperiod
    exact ⟨Nat.le_refl 1, iff_of_true (List.cons_ne_nil _ _) (satisfiedBy_iff.1 hdrawn.satisfied),
      List.forall_mem_singleton.2 hdrawn.value, List.forall_mem_singleton.2 hbreakdown,
      List.forall_mem_singleton.2 hperiod⟩

/-- Nothing stands in the way of the test of a total once the expiry can be represented. -/
theorem exists_detect_total {t : Instant} (hexpiry : Period.expiry? a.config.interval now = .ok t)
    (total : Float) : ∃ o, detect a none total none now = .ok o := by
  obtain ⟨p, hp⟩ := Period.exists_name? (ne_hour_of_expiry? hexpiry) now
  rw [detect]
  split
  · simp only [hexpiry, ok_bind, detectionTime_none, breakdown?_none, hp]
    exact ⟨_, rfl⟩
  · exact ⟨_, rfl⟩

/-- What an evaluation gives is what is announced of the total. -/
theorem announces_of_evaluate (hcondition : a.config.condition = .forecast)
    (hi : a.config.interval ≠ .hour) {result : QueryResult} {ns : List Notification}
    (h : evaluate noise a request result now = .ok ns) :
    (∀ row ∈ result.forecastRows, Readable a.config.interval request now row) ∧
      Announces a now (sum (amounts a.config.interval request now result.forecastRows)) ns := by
  rw [evaluate_of_forecast hcondition] at h
  obtain ⟨o, ho, rfl⟩ := map_eq_ok.1 h
  rw [forecast] at ho
  split at ho
  · cases ho
  · obtain ⟨x, hx, ho⟩ := bind_eq_ok.1 ho
    obtain ⟨hreadable, rfl⟩ := (forecastTotal_eq_ok_iff hi).1 hx
    exact ⟨hreadable, announces_of_detect ho⟩

theorem exists_evaluate {t : Instant} (hcondition : a.config.condition = .forecast)
    (hexpiry : Period.expiry? a.config.interval now = .ok t) (noise : Float) {result : QueryResult}
    (hne : result.forecastRows ≠ [])
    (h : ∀ row ∈ result.forecastRows, Readable a.config.interval request now row) :
    ∃ ns, evaluate noise a request result now = .ok ns := by
  obtain ⟨o, ho⟩ := exists_detect_total hexpiry
    (sum (amounts a.config.interval request now result.forecastRows))
  rw [evaluate_of_forecast hcondition, forecast, if_neg hne,
    forecastTotal_of_forall (ne_hour_of_expiry? hexpiry) h, ok_bind]
  exact ⟨_, congrArg (Except.map Option.toList) ho⟩

/-- A forecast is refused for having no rows, or for the first row that is not readable. -/
theorem evaluate_eq_error_iff {t : Instant} (hcondition : a.config.condition = .forecast)
    (hexpiry : Period.expiry? a.config.interval now = .ok t) {result : QueryResult} {e : Fault} :
    evaluate noise a request result now = .error e ↔
      (result.forecastRows = [] ∧ e = .noForecastRows) ∨
        ∃ before row after, result.forecastRows = before ++ row :: after ∧
          (∀ r ∈ before, Readable a.config.interval request now r) ∧
          Refuses a.config.interval request now row e := by
  have hi := ne_hour_of_expiry? hexpiry
  by_cases hrows : result.forecastRows = []
  · rw [evaluate_of_forecast hcondition, forecast, if_pos hrows]
    constructor
    · rintro ⟨⟩
      exact .inl ⟨hrows, rfl⟩
    · rintro (⟨-, rfl⟩ | ⟨before, row, after, hsplit, -⟩)
      · rfl
      · exact absurd (hsplit.symm.trans hrows)
          (List.append_ne_nil_of_right_ne_nil _ (List.cons_ne_nil _ _))
  · rw [← forecastTotal_eq_error_iff hi 0.0, or_iff_right (fun h => hrows h.1),
      evaluate_of_forecast hcondition, forecast, if_neg hrows]
    cases htotal : forecastTotal a.config.interval request now 0.0 result.forecastRows with
    | error e' =>
        constructor
        · rintro ⟨⟩
          rfl
        · rintro ⟨⟩
          rfl
    | ok x =>
        obtain ⟨o, ho⟩ := exists_detect_total hexpiry x
        rw [ok_bind, ho]
        constructor
        · rintro ⟨⟩
        · rintro ⟨⟩

theorem length_of_not_numeric (h : ¬ Numeric row) : row.length - 1 + 1 = row.length := by
  refine Nat.sub_add_cancel (List.length_pos_iff.2 ?_)
  rintro rfl
  exact h (fun cell hcell => nomatch hcell)

/-- A forecast is the total, in order, of the last cells of the rows in the window, and the total
is tested once. A row has to have a date wherever the date is, and a last cell that can be added
only in the window. Hourly alerts have no expiry. -/
theorem evaluate_forecast_exact {expiry : Instant} (hcondition : a.config.condition = .forecast)
    (hexpiry : Period.expiry? a.config.interval now = .ok expiry) (noise : Float)
    (request : QueryRequest) (result : QueryResult) :
    (result.forecastRows ≠ [] →
      (∀ row ∈ result.forecastRows, Readable a.config.interval request now row) →
      ∃ ns, evaluate noise a request result now = .ok ns ∧
        Announces a now (sum (amounts a.config.interval request now result.forecastRows)) ns) ∧
    (∀ e, evaluate noise a request result now = .error e ↔
      (result.forecastRows = [] ∧ e = .noForecastRows) ∨
        ∃ before row after, result.forecastRows = before ++ row :: after ∧
          (∀ r ∈ before, Readable a.config.interval request now r) ∧
          Refuses a.config.interval request now row e) ∧
    (evaluate noise a request result now = .error .noForecastRows → result.forecastRows = []) ∧
    (∀ index reason, evaluate noise a request result now = .error (.invalidCell index reason) →
      ∃ row ∈ result.forecastRows, Counted a.config.interval request now row ∧ ¬ Numeric row ∧
        index + 1 = row.length ∧ reason = "forecast value is not numeric") := by
  refine ⟨fun hne h => ?_, fun e => evaluate_eq_error_iff hcondition hexpiry, fun h => ?_,
    fun index reason h => ?_⟩
  · obtain ⟨ns, hns⟩ := exists_evaluate hcondition hexpiry noise hne h
    exact ⟨ns, hns, (announces_of_evaluate hcondition (ne_hour_of_expiry? hexpiry) hns).2⟩
  · obtain ⟨hrows, -⟩ | ⟨before, row, after, -, -, hrefused⟩ :=
      (evaluate_eq_error_iff hcondition hexpiry).1 h
    · exact hrows
    · obtain ⟨_, he⟩ | ⟨-, -, he⟩ := fault_of_refuses hrefused
      · cases he
      · cases he
  · obtain ⟨-, hnone⟩ | ⟨before, row, after, hsplit, -, hrefused⟩ :=
      (evaluate_eq_error_iff hcondition hexpiry).1 h
    · cases hnone
    · obtain ⟨_, he⟩ | ⟨hcounted, htext, he⟩ := fault_of_refuses hrefused
      · cases he
      · cases he
        exact ⟨row, hsplit ▸ List.mem_append_cons_self, hcounted, htext,
          length_of_not_numeric htext, rfl⟩

end Evaluation

namespace Layout

open Evaluation (Row)

/-- An alert on the forecast of a month. -/
def monthly : Alert :=
  .define "a1" "Spend" "acme" (.ofThreshold .forecast .greater 20.0 .cost .month)
    ["ops@acme.com"] "v1" true none may

/-- The request for the forecast of a month. -/
def forecastRequest : QueryRequest :=
  { request with
    metrics := [.cost]
    breakdowns := []
    filters := []
    window := .last .month 3 true
    comparative := false
    forecast := true }

theorem build_monthly : QueryRequest.build 10 monthly may ⟨.fresh, .empty⟩ =
    (.ok (some forecastRequest), ⟨.fresh, .empty⟩) := rfl

/-- Forecasts of four days, with one that is missing and one in the month behind. -/
def forecastRows : List Row :=
  [[.text "forecast", .int 2024, .int 5, .int 20, .float 15.0],
    [.text "forecast", .int 2024, .int 5, .int 21, .null],
    [.text "forecast", .text "2024", .int 5, .int 22, .text "GKE", .int 10],
    [.text "forecast", .int 2024, .int 6, .int 1, .text "n/a"]]

end Layout

open Layout in
theorem Evaluation.evaluate_forecast_exact_monthly :
    monthly.config.condition = .forecast ∧
    Period.expiry? monthly.config.interval may = .ok (.midnight ⟨2024, 11, 15, by decide⟩) ∧
    (∀ row ∈ forecastRows, Readable .month forecastRequest may row) ∧
    sum (amounts .month forecastRequest may forecastRows) = 25.0 ∧
    (∃ ns, evaluate 5.0 monthly forecastRequest ⟨[], forecastRows⟩ may = .ok ns ∧
      Announces monthly may 25.0 ns) ∧
    (evaluate 5.0 monthly forecastRequest ⟨[], forecastRows⟩ may).toOption.map
      (·.map fun n => (n.value, n.period)) = some [(25.0, "2024-05")] := by
  have hjune : ¬ Counted .month forecastRequest may
      [.text "forecast", .int 2024, .int 6, .int 1, .text "n/a"] := by
    decide +kernel
  have hreadable : ∀ row ∈ forecastRows, Readable .month forecastRequest may row := by
    refine List.forall_mem_cons.2 ⟨⟨⟨_, rfl⟩, fun _ => by decide⟩, List.forall_mem_cons.2
      ⟨⟨⟨_, rfl⟩, fun _ => by decide⟩, List.forall_mem_cons.2 ⟨⟨⟨_, rfl⟩, fun _ => by decide⟩, ?_⟩⟩⟩
    exact List.forall_mem_singleton.2 ⟨⟨_, rfl⟩, (absurd · hjune)⟩
  have htotal : sum (amounts .month forecastRequest may forecastRows) = 25.0 := by decide +kernel
  have hcondition : monthly.config.condition = .forecast := rfl
  have hexpiry : Period.expiry? monthly.config.interval may =
      .ok (.midnight ⟨2024, 11, 15, by decide⟩) := rfl
  obtain ⟨hok, -⟩ := evaluate_forecast_exact hcondition hexpiry 5.0 forecastRequest
    ⟨[], forecastRows⟩
  obtain ⟨ns, hns, hannounces⟩ := hok (List.cons_ne_nil _ _) hreadable
  exact ⟨hcondition, hexpiry, hreadable, htotal, ⟨ns, hns, htotal ▸ hannounces⟩, by decide +kernel⟩

namespace Evaluation

variable {a : Alert} {i : Interval} {request : QueryRequest} {noise : Float} {now : Instant}
  {row : Row} {rows : List Row}

/-! ### Rows that end with their time columns -/

/-- The row has no cell behind its time columns. -/
def Bare (request : QueryRequest) (row : Row) : Prop :=
  row.length = request.timeOffset true + request.timeColumns.length

/-- The row is in the window, and the number that it ends with is its day. -/
def BillsDay (i : Interval) (request : QueryRequest) (now : Instant) (row : Row) : Prop :=
  Counted i request now row ∧ Bare request row ∧ (amount? row).isSome

instance (i : Interval) (request : QueryRequest) (now : Instant) (row : Row) :
    Decidable (BillsDay i request now row) :=
  inferInstanceAs (Decidable (_ ∧ _ = _ ∧ _))

/-- The number in the last cell behind the time columns. -/
def amountBehind? (request : QueryRequest) (row : Row) : Option Float :=
  amount? (row.drop (request.timeOffset true + request.timeColumns.length))

/-- The numbers behind the time columns of the rows of the window, in order. -/
def amountsBehind (i : Interval) (request : QueryRequest) (now : Instant) (rows : List Row) :
    List Float :=
  (rows.filter (Counted i request now ·)).filterMap (amountBehind? request)

theorem amountBehind?_of_bare (h : Bare request row) : amountBehind? request row = none := by
  rw [amountBehind?, amount?, List.drop_eq_nil_of_le h.le]
  rfl

theorem amountBehind?_of_not_billsDay (hcounted : Counted i request now row)
    (h : ¬ BillsDay i request now row) : amountBehind? request row = amount? row := by
  by_cases hbare : Bare request row
  · have hnone : amount? row = none :=
      Option.not_isSome_iff_eq_none.1 fun hsome => h ⟨hcounted, hbare, hsome⟩
    rw [amountBehind?_of_bare hbare, hnone]
  · obtain ⟨date, hdate, -⟩ := hcounted
    have hbeyond : ¬ row.length ≤ request.timeOffset true + request.timeColumns.length :=
      fun hle => hbare (hle.antisymm (length_le_of_rowDate hdate))
    rw [amountBehind?, amount?, amount?, List.getLast?_drop, if_neg hbeyond]

/-- Of the amounts of counted rows, those that do not stand behind time columns are days: one for
each row that ends with its day. -/
theorem length_amounts (h : ∀ row ∈ rows, Counted i request now row) :
    (rows.filterMap amount?).length =
      (rows.filterMap (amountBehind? request)).length +
        rows.countP (BillsDay i request now ·) := by
  induction rows with
  | nil => rfl
  | cons row rows ih =>
      obtain ⟨hcounted, hrows⟩ := List.forall_mem_cons.1 h
      specialize ih hrows
      rw [List.filterMap_cons, List.filterMap_cons]
      by_cases hbills : BillsDay i request now row
      · obtain ⟨x, hx⟩ := Option.isSome_iff_exists.1 hbills.2.2
        rw [List.countP_cons, if_pos (decide_eq_true hbills), amountBehind?_of_bare hbills.2.1, hx]
        exact congrArg Nat.succ ih
      · rw [List.countP_cons, if_neg (by simpa using hbills),
          amountBehind?_of_not_billsDay hcounted hbills]
        cases amount? row with
        | none => exact ih
        | some x => simp only [List.length_cons, ih, Nat.add_zero, Nat.succ_add]

/-- Only cells behind time columns are added exactly if no row ends with its day. -/
theorem amounts_eq_amountsBehind_iff :
    amounts i request now rows = amountsBehind i request now rows ↔
      ∀ row ∈ rows, ¬ BillsDay i request now row := by
  constructor
  · intro h row hrow hbills
    have hcounted : ∀ r ∈ rows.filter (Counted i request now ·), Counted i request now r :=
      fun r hr => of_decide_eq_true (List.mem_filter.1 hr).2
    have hlength := length_amounts hcounted
    have hsame : (amounts i request now rows).length =
        (amountsBehind i request now rows).length := congrArg List.length h
    have hnone := List.countP_eq_zero.1 (Nat.left_eq_add.1 (hsame.symm.trans hlength)) row
      (List.mem_filter.2 ⟨hrow, decide_eq_true hbills.1⟩)
    exact hnone (decide_eq_true hbills)
  · intro h
    refine (List.filterMap_congr fun row hrow => ?_).symm
    obtain ⟨hmem, hcounted⟩ := List.mem_filter.1 hrow
    exact amountBehind?_of_not_billsDay (of_decide_eq_true hcounted) (h row hmem)

/-- A bare row ends with the day of its date. -/
theorem day_of_bare (hcolumns : request.timeColumns = ["year", "month", "day"])
    (hbare : Bare request row) {d : Date} (h : rowDate request row true = .ok (.midnight d)) :
    ∃ day k, row.getLast? = some day ∧ Cell.int? day = some k ∧ k.toInt = d.day := by
  obtain ⟨-, year, month, day, rest, hdrop, y, m, k, hints, -, -, hday⟩ :=
    cells_of_rowDate hcolumns h
  have hlength : row.length - request.timeOffset true = rest.length + 3 := by
    rw [← List.length_drop, hdrop]
    rfl
  rw [Bare, hcolumns, List.length_cons, List.length_cons, List.length_singleton] at hbare
  obtain rfl : rest = [] := List.length_eq_zero_iff.1 (by omega)
  have hlast : row.getLast? = some day := by
    rw [← List.take_append_drop (request.timeOffset true) row, hdrop]
    simp
  have hcells : year.int? = some y ∧ month.int? = some m ∧ day.int? = some k := by
    simpa [Option.bind_eq_some_iff] using hints
  exact ⟨day, k, hlast, hcells.2.2, hday⟩

theorem amount?_of_billsDay (hcolumns : request.timeColumns = ["year", "month", "day"])
    (h : BillsDay i request now row) :
    ∃ d, rowDate request row true = .ok (.midnight d) ∧
      amount? row = some (Decimal.ofInt d.day) := by
  obtain ⟨⟨date, hdate, -⟩, hbare, hsome⟩ := h
  obtain ⟨d, rfl⟩ := rowDate_eq_midnight hdate
  obtain ⟨day, k, hlast, hint, hday⟩ := day_of_bare hcolumns hbare hdate
  refine ⟨d, hdate, ?_⟩
  rw [amount?, hlast] at hsome ⊢
  cases day with
  | int n =>
      obtain rfl := Option.some.inj hint
      rw [← hday]
      rfl
  | null | float _ | comparison _ _ => cases hint
  | text _ => cases hsome

/-- A bare row whose day is no number but the text of one is refused. -/
theorem not_numeric_of_bare (hcolumns : request.timeColumns = ["year", "month", "day"])
    (hcounted : Counted i request now row) (hbare : Bare request row)
    (h : ¬ BillsDay i request now row) : ¬ Numeric row := by
  intro hnumeric
  obtain ⟨date, hdate, hwindow⟩ := hcounted
  obtain ⟨d, rfl⟩ := rowDate_eq_midnight hdate
  obtain ⟨day, k, hlast, hint, hday⟩ := day_of_bare hcolumns hbare hdate
  obtain rfl | hnumber := hnumeric day hlast
  · cases hint
  · refine h ⟨⟨_, hdate, hwindow⟩, hbare, ?_⟩
    rw [amount?, hlast]
    exact hnumber

/-- With the request of an alert only cells behind the time columns are added up, but for the rows
of the window that end with a whole number for their day: the day is added as an amount. Every
other row of the window that ends with its time columns is refused. -/
theorem forecast_bills_days {limit : Nat} {t : Instant} {s s' : Session}
    (hbuild : QueryRequest.build limit a t s = (.ok (some request), s'))
    (hcondition : a.config.condition = .forecast) (noise : Float) (result : QueryResult)
    (now : Instant) :
    (∀ ns, evaluate noise a request result now = .ok ns → Announces a now
      (sum (amounts a.config.interval request now result.forecastRows)) ns) ∧
    (amounts a.config.interval request now result.forecastRows =
        amountsBehind a.config.interval request now result.forecastRows ↔
      ∀ row ∈ result.forecastRows, ¬ BillsDay a.config.interval request now row) ∧
    (∀ row, BillsDay a.config.interval request now row →
      ∃ d, rowDate request row true = .ok (.midnight d) ∧
        amount? row = some (Decimal.ofInt d.day)) ∧
    (∀ row ∈ result.forecastRows, Counted a.config.interval request now row →
      Bare request row → ¬ BillsDay a.config.interval request now row →
      ∃ e, evaluate noise a request result now = .error e) := by
  have hr := QueryRequest.shapedFor_of_build hbuild
  have hcolumns : request.timeColumns = ["year", "month", "day"] := by
    refine timeColumns_of_day hr ?_
    rw [hr.granularity, QueryRequest.granularityFor, if_pos hcondition]
  refine ⟨fun ns h => (announces_of_evaluate hcondition hr.interval h).2,
    amounts_eq_amountsBehind_iff, fun row => amount?_of_billsDay hcolumns, ?_⟩
  intro row hrow hcounted hbare hbills
  cases hresult : evaluate noise a request result now with
  | error e => exact ⟨e, rfl⟩
  | ok ns =>
      have hreadable := (announces_of_evaluate hcondition hr.interval hresult).1 row hrow
      exact absurd (hreadable.numeric hcounted) (not_numeric_of_bare hcolumns hcounted hbare hbills)

end Evaluation

namespace Layout

open Evaluation (Row)

/-- A row that ends with its time columns. -/
def bareRow : Row :=
  [.text "forecast", .int 2024, .int 5, .int 21]

def bareRows : List Row :=
  [[.text "forecast", .int 2024, .int 5, .int 20, .float 10.0], bareRow]

end Layout

open Layout in
theorem Evaluation.forecast_bills_days_monthly :
    QueryRequest.build 10 monthly may ⟨.fresh, .empty⟩ =
      (.ok (some forecastRequest), ⟨.fresh, .empty⟩) ∧
    monthly.config.condition = .forecast ∧
    BillsDay .month forecastRequest may bareRow ∧ amount? bareRow = some 21.0 ∧
    amounts .month forecastRequest may bareRows ≠
      amountsBehind .month forecastRequest may bareRows ∧
    ∃ ns, evaluate 5.0 monthly forecastRequest ⟨[], bareRows⟩ may = .ok ns ∧
      Announces monthly may 31.0 ns ∧
      ns.map (fun n => (n.value, n.period)) = [(31.0, "2024-05")] := by
  have hbills : BillsDay .month forecastRequest may bareRow := by decide +kernel
  obtain ⟨hok, hbehind, -, -⟩ :=
    forecast_bills_days build_monthly rfl 5.0 ⟨[], bareRows⟩ may
  have hbare : bareRow ∈ bareRows := List.mem_cons_of_mem _ List.mem_cons_self
  have htotal : sum (amounts .month forecastRequest may bareRows) = 31.0 := by decide +kernel
  have hvalues : (evaluate 5.0 monthly forecastRequest ⟨[], bareRows⟩ may).toOption.map
      (·.map fun n => (n.value, n.period)) = some [(31.0, "2024-05")] := by
    decide +kernel
  refine ⟨build_monthly, rfl, hbills, by decide +kernel, fun h => hbehind.1 h bareRow hbare hbills,
    ?_⟩
  cases hresult : evaluate 5.0 monthly forecastRequest ⟨[], bareRows⟩ may with
  | error e =>
      rw [hresult] at hvalues
      cases hvalues
  | ok ns =>
      rw [hresult] at hvalues
      exact ⟨ns, rfl, htotal ▸ hok ns hresult, Option.some.inj hvalues⟩

open Layout in
/-- It is not true that a row without a cell behind its time columns adds nothing or is refused. -/
theorem Evaluation.not_forall_bare_harmless :
    ¬ ∀ (limit : Nat) (noise : Float) (a : Alert) (request : QueryRequest) (t now : Instant)
      (s s' : Session) (before after : List Row) (row : Row),
      QueryRequest.build limit a t s = (.ok (some request), s') →
      a.config.condition = .forecast →
      Counted a.config.interval request now row → Bare request row →
      evaluate noise a request ⟨[], before ++ row :: after⟩ now =
          evaluate noise a request ⟨[], before ++ after⟩ now ∨
        ∃ e, evaluate noise a request ⟨[], before ++ row :: after⟩ now = .error e := by
  intro h
  have hwith : (evaluate 5.0 monthly forecastRequest ⟨[], bareRows⟩ may).toOption.map
      List.length = some 1 := by
    decide +kernel
  have hwithout : (evaluate 5.0 monthly forecastRequest
      ⟨[], [[.text "forecast", .int 2024, .int 5, .int 20, .float 10.0]]⟩ may).toOption.map
      List.length = some 0 := by
    decide +kernel
  obtain hsame | ⟨e, herror⟩ := h 10 5.0 monthly forecastRequest may may _ _
    [[.text "forecast", .int 2024, .int 5, .int 20, .float 10.0]] [] bareRow build_monthly rfl
    (by decide +kernel) rfl
  · have hlengths := (congrArg (fun r => r.toOption.map List.length) hsame).symm.trans hwith
    cases hwithout.symm.trans hlengths
  · cases (congrArg (fun r => r.toOption.map List.length) herror).symm.trans hwith

end SpendAlerts
