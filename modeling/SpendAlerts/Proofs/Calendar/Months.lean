import SpendAlerts.Calendar.Instant
import SpendAlerts.Proofs.Calendar.DayNumber

/-!
Moves by months. The months of all years are numbered one after the other, and days come in the
order of their months first. A move by months keeps this order: it may put several days on the last
one of a month, but never a later day in front of an earlier one. It fails only behind the last
month of the calendar.
-/

namespace SpendAlerts

namespace Date

/-- The number of the month, counted over all years. -/
def monthNumber (d : Date) : Int := d.year * 12 + d.month

/-- The number of the last month of the calendar. -/
def lastMonth : Int := maxYear * 12 + 12

/-- The second day is as many months after the first: the same day of its month, or the last one
if the month is too short. -/
structure MonthsLater (k : Nat) (d e : Date) : Prop where
  month : e.monthNumber = d.monthNumber + k
  day : e.day = min d.day (daysInMonth e.year e.month)

/-! ### The order of days -/

theorem monthNumber_eq_iff {d e : Date} :
    d.monthNumber = e.monthNumber ↔ d.year = e.year ∧ d.month = e.month := by
  obtain ⟨-, -, hlow, hhigh, -⟩ := d.valid
  obtain ⟨-, -, hlow', hhigh', -⟩ := e.valid
  rw [monthNumber, monthNumber]
  omega

theorem dayNumber_lt_of_month_lt {d e : Date} (hyear : d.year = e.year) (h : d.month < e.month) :
    d.dayNumber < e.dayNumber := by
  obtain ⟨-, -, hlow, -, -, hday⟩ := d.valid
  obtain ⟨-, -, -, hhigh, hfirst, -⟩ := e.valid
  have hnext := monthStart_succ d.year hlow (Nat.lt_of_lt_of_le h hhigh)
  have hmono := monthStart_mono d.year (Nat.le_add_left 1 d.month) h hhigh
  rw [dayNumber, dayNumber, ← hyear]
  omega

theorem dayNumber_lt_of_year_lt {d e : Date} (h : d.year < e.year) : d.dayNumber < e.dayNumber :=
  calc
    d.dayNumber < yearStart (d.year + 1) := d.dayNumber_bounds.2
    _ ≤ yearStart e.year := yearStart_mono h
    _ ≤ e.dayNumber := e.dayNumber_bounds.1

/-- Days of a month come before those of a later one. -/
theorem dayNumber_lt_of_monthNumber_lt {d e : Date} (h : d.monthNumber < e.monthNumber) :
    d.dayNumber < e.dayNumber := by
  obtain ⟨-, -, hlow, hhigh, -⟩ := d.valid
  obtain ⟨-, -, hlow', hhigh', -⟩ := e.valid
  rw [monthNumber, monthNumber] at h
  rcases Int.lt_or_le d.year e.year with hyear | hyear
  · exact dayNumber_lt_of_year_lt hyear
  · exact dayNumber_lt_of_month_lt (by omega) (by omega)

theorem dayNumber_le_iff_of_monthNumber_eq {d e : Date} (h : d.monthNumber = e.monthNumber) :
    d.dayNumber ≤ e.dayNumber ↔ d.day ≤ e.day := by
  obtain ⟨hyear, hmonth⟩ := monthNumber_eq_iff.1 h
  have hfirst := d.valid.2.2.2.2.1
  have hfirst' := e.valid.2.2.2.2.1
  rw [dayNumber, dayNumber, hyear, hmonth]
  omega

theorem monthNumber_mono {d e : Date} (h : d.dayNumber ≤ e.dayNumber) :
    d.monthNumber ≤ e.monthNumber :=
  Int.not_lt.1 fun hlt => Int.not_lt.2 h (dayNumber_lt_of_monthNumber_lt hlt)

/-! ### Days that are months later -/

namespace MonthsLater

variable {k : Nat} {d d' e e' : Date}

theorem dayNumber_lt (h : MonthsLater k d e) (hk : 0 < k) : d.dayNumber < e.dayNumber :=
  dayNumber_lt_of_monthNumber_lt (by have := h.month; omega)

/-- Of two days in one month, the later is not cut to an earlier day. -/
theorem mono (h : MonthsLater k d e) (h' : MonthsLater k d' e')
    (hle : d.dayNumber ≤ d'.dayNumber) : e.dayNumber ≤ e'.dayNumber := by
  have hmonths := monthNumber_mono hle
  have hmonth := h.month
  have hmonth' := h'.month
  rcases Int.lt_or_le d.monthNumber d'.monthNumber with hlt | hge
  · exact Int.le_of_lt (dayNumber_lt_of_monthNumber_lt (by omega))
  · have hstart : d.monthNumber = d'.monthNumber := Int.le_antisymm hmonths hge
    have hend : e.monthNumber = e'.monthNumber := by omega
    have hday : d.day ≤ d'.day := (dayNumber_le_iff_of_monthNumber_eq hstart).1 hle
    obtain ⟨hyear, hsame⟩ := monthNumber_eq_iff.1 hend
    rw [dayNumber_le_iff_of_monthNumber_eq hend, h.day, h'.day, hyear, hsame]
    omega

theorem unique (h : MonthsLater k d e) (h' : MonthsLater k d e') : e = e' := by
  obtain ⟨hyear, hmonth⟩ := monthNumber_eq_iff.1 (h.month.trans h'.month.symm)
  exact eq_of_parts hyear hmonth (by rw [h.day, h'.day, hyear, hmonth])

end MonthsLater

/-! ### Moves by months -/

theorem monthsLater_of_plusMonths? {d e : Date} {k : Nat} (h : d.plusMonths? k = some e) :
    MonthsLater k d e := by
  obtain ⟨hyear, hmonth, hday⟩ := ofParts?_eq_some h
  refine ⟨?_, by rw [hday, hyear, hmonth]⟩
  rw [monthNumber, monthNumber, hyear, hmonth]
  omega

/-- A move by months fails only behind the last month of the calendar. -/
theorem plusMonths?_eq_none_iff {d : Date} {k : Nat} :
    d.plusMonths? k = none ↔ lastMonth < d.monthNumber + k := by
  obtain ⟨hmin, -, hlow, -, hfirst, -⟩ := d.valid
  have hnumber : d.monthNumber = d.year * 12 + d.month := rfl
  have hlast : lastMonth = maxYear * 12 + 12 := rfl
  rw [plusMonths?, ofParts?, dite_eq_right_iff]
  constructor
  · intro hnone
    by_contra hbefore
    have hday (y : Int) (m : Nat) : 1 ≤ min d.day (daysInMonth y m) :=
      Nat.le_min.2 ⟨hfirst, Nat.le_trans (by decide) (daysInMonth_bounds y m).1⟩
    exact Option.some_ne_none _
      (hnone ⟨by omega, by omega, by omega, by omega, hday _ _, Nat.min_le_right _ _⟩)
  · intro hbehind hvalid
    have := hvalid.2.1
    omega

/-- A move by months gives the day that is so many months later, and no other. -/
theorem plusMonths?_eq_some_iff {d e : Date} {k : Nat} :
    d.plusMonths? k = some e ↔ MonthsLater k d e := by
  refine ⟨monthsLater_of_plusMonths?, fun h => ?_⟩
  have hmonth := h.month
  have hnumber : e.monthNumber = e.year * 12 + e.month := rfl
  have hlast : lastMonth = maxYear * 12 + 12 := rfl
  obtain ⟨-, hmax, -, hhigh, -⟩ := e.valid
  cases hmove : d.plusMonths? k with
  | none =>
      have hbehind := plusMonths?_eq_none_iff.1 hmove
      omega
  | some e' => rw [(monthsLater_of_plusMonths? hmove).unique h]

theorem exists_monthsLater {d : Date} {k : Nat} (h : d.monthNumber + k ≤ lastMonth) :
    ∃ e, MonthsLater k d e := by
  cases hmove : d.plusMonths? k with
  | none => exact absurd (plusMonths?_eq_none_iff.1 hmove) (Int.not_lt.2 h)
  | some e => exact ⟨e, monthsLater_of_plusMonths? hmove⟩

end Date

namespace Instant

theorem plusMonths?_startOfDay (t : Instant) (k : Int) :
    t.startOfDay.plusMonths? k = (t.date.plusMonths? k).map midnight :=
  rfl

theorem lt_midnight {t : Instant} {d : Date} (h : t.date.dayNumber < d.dayNumber) :
    t < midnight d := by
  obtain ⟨hsecond, hnano, -⟩ := t.valid
  change t.ticks < (midnight d).ticks
  simp only [ticks, midnight, billion] at hnano ⊢
  omega

theorem midnight_le_iff (d e : Date) : midnight d ≤ midnight e ↔ d.dayNumber ≤ e.dayNumber := by
  change (midnight d).ticks ≤ (midnight e).ticks ↔ _
  simp only [ticks, midnight, billion]
  omega

theorem dayNumber_le_of_le {t t' : Instant} (h : t ≤ t') :
    t.date.dayNumber ≤ t'.date.dayNumber := by
  obtain ⟨hsecond, hnano, -⟩ := t.valid
  obtain ⟨hsecond', hnano', -⟩ := t'.valid
  change t.ticks ≤ t'.ticks at h
  simp only [ticks, billion] at h hnano hnano'
  omega

end Instant

end SpendAlerts
