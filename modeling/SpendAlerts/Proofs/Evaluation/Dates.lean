import SpendAlerts.Proofs.Calendar.DayNumber
import SpendAlerts.Proofs.Evaluation

/-!
Dates of rows. The time columns of a row that comes by day hold the year, the month and the day
of its date and nothing else, so the cells can be told from the date. A row without a date is
refused as a row, whatever is wrong with it: its length, a column, a cell or the date.
-/

namespace SpendAlerts.Evaluation

variable {request : QueryRequest} {row : Row} {forecastRow : Bool}

theorem datePart_eq_ok {column : String} {cell : Cell} {k : Int}
    (h : datePart column cell = .ok k) : ∃ w, cell.int? = some w ∧ w.toInt = k ∧ 1 ≤ k := by
  rw [datePart] at h
  split at h
  · cases h
  · next w hw =>
    have hchecked : ∀ {valid : Bool} {e : Fault}, (valid = true → 1 ≤ w.toInt) →
        (if valid then .ok w.toInt else .error e) = (.ok k : Except Fault Int) →
        w.toInt = k ∧ 1 ≤ k := by
      intro valid e hvalid hk
      split at hk
      · next htrue =>
        cases hk
        exact ⟨rfl, hvalid htrue⟩
      · cases hk
    refine ⟨w, hw, ?_⟩
    split at h
    · exact hchecked of_decide_eq_true h
    · exact hchecked (fun hvalid => of_decide_eq_true (Bool.and_eq_true_iff.1 hvalid).1) h
    · exact hchecked (fun hvalid => of_decide_eq_true (Bool.and_eq_true_iff.1 hvalid).1) h
    · cases h

theorem datePart_eq_error {column : String} {cell : Cell} {e : Fault}
    (h : datePart column cell = .error e) : ∃ reason, e = .invalidRow reason := by
  rw [datePart] at h
  split at h
  · exact ⟨_, (Except.error.inj h).symm⟩
  · next w _ =>
    have hchecked : ∀ {valid : Bool} {reason : String},
        (if valid then .ok w.toInt else .error (.invalidRow reason)) =
          (.error e : Except Fault Int) → e = .invalidRow reason := by
      intro valid reason he
      split at he
      · cases he
      · exact (Except.error.inj he).symm
    split at h
    · exact ⟨_, hchecked h⟩
    · exact ⟨_, hchecked h⟩
    · exact ⟨_, hchecked h⟩
    · exact ⟨_, (Except.error.inj h).symm⟩

theorem dateParts_eq_ok {year month day : Cell} {rest : Row} {p : DateParts}
    (h : dateParts ⟨1, 1, 1⟩ ["year", "month", "day"] (year :: month :: day :: rest) = .ok p) :
    ∃ y m k : Int64, [year, month, day].mapM Cell.int? = some [y, m, k] ∧
      p = ⟨y.toInt, m.toInt, k.toInt⟩ ∧ 1 ≤ y.toInt ∧ 1 ≤ m.toInt ∧ 1 ≤ k.toInt := by
  obtain ⟨y, hy, h⟩ := bind_eq_ok.1 h
  obtain ⟨m, hm, h⟩ := bind_eq_ok.1 h
  obtain ⟨k, hk, h⟩ := bind_eq_ok.1 h
  obtain ⟨y, hyear, rfl, hy1⟩ := datePart_eq_ok hy
  obtain ⟨m, hmonth, rfl, hm1⟩ := datePart_eq_ok hm
  obtain ⟨k, hday, rfl, hk1⟩ := datePart_eq_ok hk
  exact ⟨y, m, k, by simp [hyear, hmonth, hday], (Except.ok.inj h).symm, hy1, hm1, hk1⟩

theorem dateParts_eq_error {parts : DateParts} {columns : List String} {cells : Row} {e : Fault}
    (h : dateParts parts columns cells = .error e) : ∃ reason, e = .invalidRow reason := by
  induction columns generalizing parts cells with
  | nil => cases h
  | cons column columns ih =>
      cases cells with
      | nil => cases h
      | cons cell cells =>
          rw [dateParts] at h
          cases hpart : datePart column cell with
          | error e' =>
              rw [hpart] at h
              cases h
              exact datePart_eq_error hpart
          | ok n =>
              rw [hpart] at h
              exact ih h

theorem rowDate_eq_midnight {date : Instant} (h : rowDate request row forecastRow = .ok date) :
    ∃ d, date = .midnight d := by
  rw [rowDate] at h
  split at h
  · cases h
  · obtain ⟨p, -, h⟩ := bind_eq_ok.1 h
    split at h
    · next d _ =>
      cases h
      exact ⟨d, rfl⟩
    · cases h

theorem rowDate_eq_error {e : Fault} (h : rowDate request row forecastRow = .error e) :
    ∃ reason, e = .invalidRow reason := by
  rw [rowDate] at h
  split at h
  · exact ⟨_, (Except.error.inj h).symm⟩
  · cases hparts : dateParts ⟨1, 1, 1⟩ request.timeColumns
      (row.drop (request.timeOffset forecastRow)) with
    | error e' =>
        rw [hparts] at h
        cases h
        exact dateParts_eq_error hparts
    | ok p =>
        rw [hparts, ok_bind] at h
        split at h
        · cases h
        · exact ⟨_, (Except.error.inj h).symm⟩

/-- A row that has a date reaches to the end of its time columns. -/
theorem length_le_of_rowDate {date : Instant} (h : rowDate request row forecastRow = .ok date) :
    request.timeOffset forecastRow + request.timeColumns.length ≤ row.length := by
  by_contra hshort
  rw [rowDate, if_pos (Nat.lt_of_not_le hshort)] at h
  cases h

/-- The time columns of a row that comes by day hold the numbers of its date. -/
theorem cells_of_rowDate (hcolumns : request.timeColumns = ["year", "month", "day"]) {d : Date}
    (h : rowDate request row forecastRow = .ok (.midnight d)) :
    1 ≤ d.year ∧ ∃ year month day rest, row.drop (request.timeOffset forecastRow) =
        year :: month :: day :: rest ∧
      ∃ y m k : Int64, [year, month, day].mapM Cell.int? = some [y, m, k] ∧
        y.toInt = d.year ∧ m.toInt = d.month ∧ k.toInt = d.day := by
  have hcells : 3 ≤ (row.drop (request.timeOffset forecastRow)).length := by
    have hlong := length_le_of_rowDate h
    rw [hcolumns] at hlong
    rw [List.length_drop]
    exact Nat.le_sub_of_add_le' hlong
  rw [rowDate] at h
  split at h
  · cases h
  obtain ⟨p, hparts, h⟩ := bind_eq_ok.1 h
  rw [hcolumns] at hparts
  match row.drop (request.timeOffset forecastRow), hcells, hparts with
  | year :: month :: day :: rest, _, hparts =>
      obtain ⟨y, m, k, hints, rfl, hy, hm, hk⟩ := dateParts_eq_ok hparts
      split at h
      · next d' hd =>
        obtain rfl : d' = d := congrArg Instant.date (Except.ok.inj h)
        obtain ⟨hyear, hmonth, hday⟩ := Date.ofParts?_eq_some hd
        have hm' : (m.toInt.toNat : Int) = m.toInt := Int.toNat_of_nonneg (by omega)
        have hk' : (k.toInt.toNat : Int) = k.toInt := Int.toNat_of_nonneg (by omega)
        rw [hyear, hmonth, hday, hm', hk']
        exact ⟨hy, year, month, day, rest, rfl, y, m, k, hints, rfl, rfl, rfl⟩
      · cases h

end SpendAlerts.Evaluation
