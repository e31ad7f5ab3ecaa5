import SpendAlerts.Proofs.Engine.Keys
import SpendAlerts.Proofs.Query.WholeNumber

/-!
Which rows have a date. Where rows come by day, a row is dated exactly if whole numbers stand in
its three time columns and these are the parts of a date of the year one or later; every other row
is refused as a row. Whatever way the parts of a date are given in, the date is the same, and so
is the period of what a daily alert detects in the row.
-/

namespace SpendAlerts

/-- A date of the year one or later has its year in four digits, or more behind a sign. -/
theorem Date.text_of_pos {d : Date} (h : 1 ≤ d.year) :
    d.text = (if 9999 < d.year then ['+'] else []) ++ Decimal.padded 4 d.year.toNat ++
      '-' :: Decimal.padded 2 d.month ++ '-' :: Decimal.padded 2 d.day := by
  rw [text, yearText]
  by_cases hlate : 9999 < d.year
  · have hsign : ¬ d.year < 0 := by omega
    have habs : d.year.natAbs = d.year.toNat := by omega
    simp only [if_pos hlate, if_neg (not_and_of_not_right _ (Int.not_le.2 hlate)), if_neg hsign,
      habs, List.cons_append, List.nil_append]
  · rw [if_neg hlate, if_pos ⟨by omega, Int.not_lt.1 hlate⟩, List.nil_append]

namespace Evaluation

variable {request : QueryRequest} {row : Row} {forecastRow : Bool} {d : Date}

/-- Behind some other cells, the row holds the parts of a date of the year one or later. -/
inductive Dated (offset : Nat) (d : Date) : Row → Prop where
  | row {before rest : Row} {y m k : Cell} (place : before.length = offset) (first : 1 ≤ d.year)
      (year : y.Holds d.year) (month : m.Holds d.month) (day : k.Holds d.day) :
      Dated offset d (before ++ ([y, m, k] ++ rest))

theorem dated_of_rowDate (hcolumns : request.timeColumns = ["year", "month", "day"])
    (h : rowDate request row forecastRow = .ok (.midnight d)) :
    Dated (request.timeOffset forecastRow) d row := by
  obtain ⟨hfirst, year, month, day, rest, hdrop, y, m, k, hints, hy, hm, hk⟩ :=
    cells_of_rowDate hcolumns h
  have hcells : year.int? = some y ∧ month.int? = some m ∧ day.int? = some k := by
    simpa [Option.bind_eq_some_iff] using hints
  simp only [Cell.int?_eq_some_iff, hy, hm, hk] at hcells
  have hplace : (row.take (request.timeOffset forecastRow)).length =
      request.timeOffset forecastRow := by
    have hlong := length_le_of_rowDate h
    rw [List.length_take]
    omega
  rw [← List.take_append_drop (request.timeOffset forecastRow) row, hdrop]
  exact .row hplace hfirst hcells.1 hcells.2.1 hcells.2.2

theorem rowDate_of_dated (hcolumns : request.timeColumns = ["year", "month", "day"])
    (h : Dated (request.timeOffset forecastRow) d row) :
    rowDate request row forecastRow = .ok (.midnight d) := by
  cases h with
  | row place first year month day =>
      obtain ⟨y, hy, hyear⟩ := year.exists_int?
      obtain ⟨m, hm, hmonth⟩ := month.exists_int?
      obtain ⟨k, hk, hday⟩ := day.exists_int?
      refine rowDate_of_columns hcolumns first place ?_
      rw [hcolumns]
      refine .cons ⟨y, hy, ?_⟩ (.cons ⟨m, hm, ?_⟩ (.cons ⟨k, hk, ?_⟩ .nil))
      · constructor <;> simp [hyear]
      · constructor <;> simp [hmonth]
      · constructor <;> simp [hday]

theorem rowDate_eq_ok_iff (hcolumns : request.timeColumns = ["year", "month", "day"])
    {t : Instant} : rowDate request row forecastRow = .ok t ↔
      ∃ d, t = .midnight d ∧ Dated (request.timeOffset forecastRow) d row := by
  constructor
  · intro h
    obtain ⟨d, rfl⟩ := rowDate_eq_midnight h
    exact ⟨d, rfl, dated_of_rowDate hcolumns h⟩
  · rintro ⟨d, rfl, h⟩
    exact rowDate_of_dated hcolumns h

theorem exists_invalidRow_iff (hcolumns : request.timeColumns = ["year", "month", "day"]) :
    (∃ reason, rowDate request row forecastRow = .error (.invalidRow reason)) ↔
      ¬ ∃ d, Dated (request.timeOffset forecastRow) d row := by
  constructor
  · rintro ⟨reason, herror⟩ ⟨d, h⟩
    rw [rowDate_of_dated hcolumns h] at herror
    cases herror
  · intro h
    cases hdate : rowDate request row forecastRow with
    | ok t =>
        obtain ⟨d, -, hdated⟩ := (rowDate_eq_ok_iff hcolumns).1 hdate
        exact absurd ⟨d, hdated⟩ h
    | error e =>
        obtain ⟨reason, rfl⟩ := rowDate_eq_error hdate
        exact ⟨reason, rfl⟩

/-- The parts of a date may be given in any way, each on its own. -/
theorem dated_of_gives {before times rest : Row} (hfirst : 1 ≤ d.year)
    (htimes : List.Forall₂ Cell.Gives times [d.year.toNat, d.month, d.day]) :
    Dated before.length d (before ++ (times ++ rest)) := by
  obtain ⟨-, hlast, -, hmonth, -, hday⟩ := d.valid
  have hdays := (Date.daysInMonth_bounds d.year d.month).2
  have hyear : d.year < 2 ^ 63 := Int.lt_of_le_of_lt hlast (by decide)
  obtain _ | ⟨hy, _ | ⟨hm, _ | ⟨hk, _ | _⟩⟩⟩ := htimes
  have hy := hy.holds (by omega)
  rw [Int.toNat_of_nonneg (by omega)] at hy
  exact .row rfl hfirst hy (hm.holds (by omega)) (hk.holds (by omega))

theorem detected_of_dated {a : Alert} {noise : Float} {now : Instant} {ns : List Notification}
    {n : Notification} (hcolumns : request.timeColumns = ["year", "month", "day"])
    (hrow : Dated (request.timeOffset false) d row) (hday : a.config.interval = .day)
    (h : alone noise a request now row = .ok ns) (hn : n ∈ ns) :
    n.detected = .midnight d ∧ n.period = String.ofList d.text := by
  have hdetected : n.detected = .midnight d := by
    have hcondition : a.config.condition ≠ .forecast := by
      intro hforecast
      rw [alone, evaluate_of_forecast hforecast] at h
      cases h
    rw [alone, evaluate_eq_eachRow hcondition] at h
    obtain ⟨row', hrow', hjudge⟩ := mem_eachRow h hn
    obtain rfl := List.mem_singleton.1 hrow'
    have hdate := rowDate_of_judge hday hjudge
    rw [rowDate_of_dated hcolumns hrow] at hdate
    exact (Except.ok.inj hdate).symm
  have hperiod := (mem_evaluate h hn).1.period
  rw [hday, hdetected] at hperiod
  exact ⟨hdetected, (Except.ok.inj hperiod).symm⟩

/-- A row by day is dated exactly by whole numbers that are the parts of a date, and refused
otherwise. The parts of a date may be numbers or padded texts, and what a daily alert detects in
the row is of that day. -/
theorem rowDate_exact (hcolumns : request.timeColumns = ["year", "month", "day"]) :
    (∀ row forecastRow t, rowDate request row forecastRow = .ok t ↔
      ∃ d, t = .midnight d ∧
        Dated (request.breakdowns.length + if forecastRow then 1 else 0) d row) ∧
    (∀ row forecastRow,
      (∃ reason, rowDate request row forecastRow = .error (.invalidRow reason)) ↔
        ¬ ∃ d, Dated (request.breakdowns.length + if forecastRow then 1 else 0) d row) ∧
    ∀ (d : Date) (before times rest : Row) (forecastRow : Bool), 1 ≤ d.year →
      before.length = request.breakdowns.length + (if forecastRow then 1 else 0) →
      List.Forall₂ Cell.Gives times [d.year.toNat, d.month, d.day] →
      rowDate request (before ++ (times ++ rest)) forecastRow = .ok (.midnight d) ∧
      (forecastRow = false → ∀ (a : Alert) (noise : Float) (now : Instant)
        (ns : List Notification), a.config.interval = .day →
        alone noise a request now (before ++ (times ++ rest)) = .ok ns → ∀ n ∈ ns,
          n.detected = .midnight d ∧
          n.period = String.ofList ((if 9999 < d.year then ['+'] else []) ++
            Decimal.padded 4 d.year.toNat ++ '-' :: Decimal.padded 2 d.month ++
            '-' :: Decimal.padded 2 d.day)) := by
  refine ⟨fun _ _ _ => rowDate_eq_ok_iff hcolumns, fun _ _ => exists_invalidRow_iff hcolumns, ?_⟩
  intro d before times rest forecastRow hfirst hplace htimes
  have hdated : Dated (request.timeOffset forecastRow) d (before ++ (times ++ rest)) := by
    rw [QueryRequest.timeOffset, ← hplace]
    exact dated_of_gives hfirst htimes
  refine ⟨rowDate_of_dated hcolumns hdated, ?_⟩
  rintro rfl a noise now ns hday hns n hn
  rw [← Date.text_of_pos hfirst]
  exact detected_of_dated hcolumns hdated hday hns hn

end Evaluation

namespace Layout

open Evaluation (Row)

theorem valid_thatDay : Date.Valid 2024 5 14 := by decide

def thatDay : Date := ⟨2024, 5, 14, valid_thatDay⟩

/-- The row of the day before, with its date in texts and numbers. -/
def mixed : Row :=
  [.text "GKE"] ++ ([.text (String.ofList (Decimal.padded 4 2024)),
    .text (String.ofList (Decimal.padded 2 5)), .int (Int64.ofNat 14)] ++
      [.float 120.0, .float 80.0, .comparison (.float 25.0) .null, .comparison (.float 10.0) .null])

def noDay : Row := [.text "GKE", .int 2024, .text " +2 ", .int 30]

end Layout

open Layout in
theorem Evaluation.rowDate_exact_mixed :
    request.timeColumns = ["year", "month", "day"] ∧ 1 ≤ thatDay.year ∧
    rowDate request mixed false = .ok (.midnight thatDay) ∧
    (∃ ns, alone 5.0 daily request may mixed = .ok ns ∧ ns.length = 1 ∧
      ∀ n ∈ ns, n.period = "2024-05-14") ∧
    ¬ ∃ d, Dated 1 d noDay := by
  have htimes : List.Forall₂ Cell.Gives
      [.text (String.ofList (Decimal.padded 4 2024)), .text (String.ofList (Decimal.padded 2 5)),
        .int (Int64.ofNat 14)] [thatDay.year.toNat, thatDay.month, thatDay.day] :=
    .cons (.padded 4 2024) (.cons (.padded 2 5) (.cons (.whole 14) .nil))
  have hcolumns : request.timeColumns = ["year", "month", "day"] := rfl
  obtain ⟨-, hrefused, hgiven⟩ := rowDate_exact hcolumns
  obtain ⟨hdate, hperiod⟩ := hgiven thatDay [.text "GKE"] _ [.float 120.0, .float 80.0,
    .comparison (.float 25.0) .null, .comparison (.float 10.0) .null] false (by decide) rfl htimes
  have hone : (alone 5.0 daily request may mixed).toOption.map List.length = some 1 := by
    decide +kernel
  have hname : String.ofList ((if 9999 < thatDay.year then ['+'] else []) ++
      Decimal.padded 4 thatDay.year.toNat ++ '-' :: Decimal.padded 2 thatDay.month ++
        '-' :: Decimal.padded 2 thatDay.day) = "2024-05-14" := by
    decide +kernel
  refine ⟨hcolumns, by decide, hdate, ?_, (hrefused noDay false).1 ⟨_, rfl⟩⟩
  obtain ⟨ns, hns, hlength⟩ := Option.map_eq_some_iff.1 hone
  have hns := toOption_eq_some.1 hns
  refine ⟨ns, hns, hlength, fun n hn => ?_⟩
  rw [← hname]
  exact (hperiod rfl daily 5.0 may ns rfl hns n hn).2

end SpendAlerts
