import SpendAlerts.Calendar.Date
import Mathlib.Tactic.IntervalCases

/-!
Day numbers determine dates. The year of a day number is found from a guess that is off
by one at most, and the month from the days of the year before it, so that numbering a
date and dating the number again gives the same date for every date of the calendar. The
numbers of dates have no gaps, so what lies between two dates is a date again.
-/

namespace SpendAlerts.Date

theorem ofParts?_eq_some {y : Int} {m k : Nat} {d : Date} (h : ofParts? y m k = some d) :
    d.year = y ∧ d.month = m ∧ d.day = k := by
  rw [ofParts?] at h
  split at h
  · cases h
    exact ⟨rfl, rfl, rfl⟩
  · cases h

theorem eq_of_parts {d e : Date} (hyear : d.year = e.year) (hmonth : d.month = e.month)
    (hday : d.day = e.day) : d = e := by
  obtain ⟨y, m, k, valid⟩ := d
  obtain ⟨y', m', k', valid'⟩ := e
  obtain rfl : y = y' := hyear
  obtain rfl : m = m' := hmonth
  obtain rfl : k = k' := hday
  rfl

theorem daysInMonth_bounds (y : Int) (m : Nat) : 28 ≤ daysInMonth y m ∧ daysInMonth y m ≤ 31 := by
  unfold daysInMonth
  split
  · split <;> decide
  all_goals decide

theorem yearStart_succ (y : Int) :
    yearStart (y + 1) = yearStart y + 365 + if isLeapYear y then 1 else 0 := by
  simp only [yearStart, isLeapYear, Bool.and_eq_true, Bool.or_eq_true, decide_eq_true_eq]
  split <;> omega

/-- The first guess at the year is off by one at most. -/
theorem yearGuess {y n : Int} (low : yearStart y ≤ n) (high : n < yearStart (y + 1)) :
    n * 400 / 146097 + 1 = y - 1 ∨ n * 400 / 146097 + 1 = y ∨ n * 400 / 146097 + 1 = y + 1 := by
  simp only [yearStart] at low high
  omega

theorem yearOf_eq {y n : Int} (low : yearStart y ≤ n) (high : n < yearStart (y + 1)) :
    yearOf n = y := by
  rw [yearOf]
  rcases yearGuess low high with h | h | h
  · have : ¬n < yearStart (y - 1) := by
      have := yearStart_succ (y - 1)
      simp only [Int.sub_add_cancel] at this
      split at this <;> omega
    simp [h, this, low]
  · simp [h]; omega
  · simp [h, high]

theorem monthStart_succ (y : Int) {m : Nat} (low : 1 ≤ m) (high : m < 12) :
    monthStart y (m + 1) = monthStart y m + daysInMonth y m := by
  interval_cases m <;> cases h : isLeapYear y <;> simp [monthStart, daysInMonth, h]

theorem monthStart_mono (y : Int) {a b : Nat} (low : 1 ≤ a) (hab : a ≤ b) (high : b ≤ 12) :
    monthStart y a ≤ monthStart y b := by
  induction b, hab using Nat.le_induction with
  | base => exact Nat.le_refl _
  | succ b hb ih =>
      have := monthStart_succ y (Nat.le_trans low hb) (by omega)
      have := ih (by omega)
      omega

theorem monthOf_eq {y : Int} {m k : Nat} (hm : 1 ≤ m ∧ m ≤ 12) (low : monthStart y m ≤ k)
    (high : m < 12 → k < monthStart y (m + 1)) : monthOf y k = m := by
  have later : ∀ b, m < b → b ≤ 12 → ¬monthStart y b ≤ k := fun b hb h12 hk => by
    have := monthStart_mono y (by omega) (Nat.succ_le_of_lt hb) h12
    have := high (by omega)
    simp only [Nat.succ_eq_add_one] at *
    omega
  obtain ⟨h1, h12⟩ := hm
  interval_cases m <;> simp [monthOf, List.find?, later, low]

theorem dayNumber_bounds (d : Date) :
    yearStart d.year ≤ d.dayNumber ∧ d.dayNumber < yearStart (d.year + 1) := by
  obtain ⟨y, m, n, -, -, h1, h12, hn, hl⟩ := d
  simp only [dayNumber, yearStart_succ]
  interval_cases m <;> cases h : isLeapYear y <;>
    simp [monthStart, daysInMonth, h] at hl ⊢ <;> omega

theorem dayNumber_sub_yearStart (d : Date) :
    (d.dayNumber - yearStart d.year).toNat = monthStart d.year d.month + (d.day - 1) := by
  have := d.valid.2.2.2.2.1
  simp only [dayNumber]
  omega

/-- A date is read back from its day number. -/
theorem ofDayNumber?_dayNumber (d : Date) : ofDayNumber? d.dayNumber = some d := by
  obtain ⟨low, high⟩ := d.dayNumber_bounds
  have hv := d.valid
  have hmonth : monthOf d.year (monthStart d.year d.month + (d.day - 1)) = d.month := by
    apply monthOf_eq ⟨hv.2.2.1, hv.2.2.2.1⟩ (Nat.le_add_right _ _)
    intro h
    have := monthStart_succ d.year hv.2.2.1 h
    have := hv.2.2.2.2
    omega
  have hday : monthStart d.year d.month + (d.day - 1) - monthStart d.year d.month + 1 = d.day := by
    have := hv.2.2.2.2.1
    omega
  simp only [ofDayNumber?, yearOf_eq low high, dayNumber_sub_yearStart, hmonth, hday]
  simp [ofParts?, hv]

theorem dayNumber_injective {d e : Date} (h : d.dayNumber = e.dayNumber) : d = e := by
  have hread := ofDayNumber?_dayNumber d
  rw [h, ofDayNumber?_dayNumber e] at hread
  exact (Option.some.inj hread).symm

/-! ### Days follow each other without gaps -/

theorem yearOf_bounds (n : Int) : yearStart (yearOf n) ≤ n ∧ n < yearStart (yearOf n + 1) := by
  have hlow : yearStart (n * 400 / 146097) ≤ n := by
    simp only [yearStart]
    omega
  have hhigh : n < yearStart (n * 400 / 146097 + 1 + 1 + 1) := by
    simp only [yearStart]
    omega
  rw [yearOf]
  split
  · next hguess => exact ⟨by simpa using hlow, by simpa using hguess⟩
  · next hguess =>
    split
    · next hnext => exact ⟨hnext, hhigh⟩
    · next hnext => exact ⟨Int.not_lt.mp hguess, Int.not_le.mp hnext⟩

theorem yearStart_mono {y z : Int} (h : y ≤ z) : yearStart y ≤ yearStart z := by
  simp only [yearStart]
  omega

/-- A day of the year falls into one of the months up to one that has not ended before. -/
theorem exists_month {y : Int} {k b : Nat} (hb : 1 ≤ b) (h12 : b ≤ 12)
    (h : k < monthStart y b + daysInMonth y b) :
    ∃ m, 1 ≤ m ∧ m ≤ 12 ∧ monthStart y m ≤ k ∧ k < monthStart y m + daysInMonth y m := by
  induction b, hb using Nat.le_induction with
  | base => exact ⟨1, Nat.le_refl 1, by decide, by simp [monthStart], h⟩
  | succ b hb ih =>
      by_cases hk : monthStart y (b + 1) ≤ k
      · exact ⟨b + 1, by omega, h12, hk, h⟩
      · have hsucc := monthStart_succ y hb (by omega)
        exact ih (by omega) (by omega)

theorem exists_dayNumber {n : Int} (low : minYear ≤ yearOf n) (high : yearOf n ≤ maxYear) :
    ∃ d : Date, d.dayNumber = n := by
  obtain ⟨hstart, hend⟩ := yearOf_bounds n
  have hlast : (n - yearStart (yearOf n)).toNat <
      monthStart (yearOf n) 12 + daysInMonth (yearOf n) 12 := by
    rw [yearStart_succ] at hend
    simp only [monthStart, daysInMonth]
    cases hleap : isLeapYear (yearOf n) <;> simp [hleap] at hend ⊢ <;> omega
  obtain ⟨m, h1, h12, hfirst, hday⟩ := exists_month (by decide) (Nat.le_refl 12) hlast
  refine ⟨⟨yearOf n, m, (n - yearStart (yearOf n)).toNat - monthStart (yearOf n) m + 1,
    low, high, h1, h12, by omega, by omega⟩, ?_⟩
  simp only [dayNumber]
  omega

theorem dayNumber_of_ofDayNumber? {n : Int} {d : Date} (h : ofDayNumber? n = some d) :
    d.dayNumber = n := by
  have hyear : Valid (yearOf n) d.month d.day := by
    simp only [ofDayNumber?, ofParts?] at h
    split at h
    · next hvalid =>
      cases h
      exact hvalid
    · cases h
  obtain ⟨d', hd'⟩ := exists_dayNumber hyear.1 hyear.2.1
  have hread := ofDayNumber?_dayNumber d'
  rw [hd', h] at hread
  cases hread
  exact hd'

/-- The days between two dates are dates. -/
theorem exists_dayNumber_between {e d : Date} {n : Int} (low : e.dayNumber ≤ n)
    (high : n ≤ d.dayNumber) : ∃ x : Date, x.dayNumber = n := by
  obtain ⟨hstart, hend⟩ := yearOf_bounds n
  have hlow : e.year ≤ yearOf n := by
    by_contra hlt
    have := yearStart_mono (show yearOf n + 1 ≤ e.year by omega)
    have := e.dayNumber_bounds.1
    omega
  have hhigh : yearOf n ≤ d.year := by
    by_contra hlt
    have := yearStart_mono (show d.year + 1 ≤ yearOf n by omega)
    have := d.dayNumber_bounds.2
    omega
  exact exists_dayNumber (Int.le_trans e.valid.1 hlow) (Int.le_trans hhigh d.valid.2.1)

end SpendAlerts.Date
