import SpendAlerts.Calendar.Instant
import SpendAlerts.Proofs.Calendar.DayNumber

/-!
Moves into the past. The calendar starts with a first day, so an instant can be moved back by its
age in seconds and by no more. A leap second is one second older than the second that it repeats.
-/

namespace SpendAlerts

namespace Date

/-- The first day of the calendar. -/
def first : Date := ⟨minYear, 1, 1, by decide⟩

theorem first_le (d : Date) : first.dayNumber ≤ d.dayNumber :=
  calc
    first.dayNumber = yearStart minYear := rfl
    _ ≤ yearStart d.year := yearStart_mono d.valid.1
    _ ≤ d.dayNumber := d.dayNumber_bounds.1

theorem lt_last (d : Date) : d.dayNumber < yearStart (maxYear + 1) :=
  calc
    d.dayNumber < yearStart (d.year + 1) := d.dayNumber_bounds.2
    _ ≤ yearStart (maxYear + 1) := yearStart_mono (Int.add_le_add_right d.valid.2.1 1)

/-- The days up to a date are those from the first on. -/
theorem ofDayNumber?_isSome_iff {d : Date} {n : Int} (h : n ≤ d.dayNumber) :
    (ofDayNumber? n).isSome ↔ first.dayNumber ≤ n := by
  constructor
  · intro hsome
    obtain ⟨e, he⟩ := Option.isSome_iff_exists.1 hsome
    exact dayNumber_of_ofDayNumber? he ▸ first_le e
  · intro hfirst
    obtain ⟨e, rfl⟩ := exists_dayNumber_between hfirst h
    rw [ofDayNumber?_dayNumber]
    rfl

end Date

namespace Instant

/-- The seconds since the start of the calendar. -/
def age (t : Instant) : Int :=
  (t.date.dayNumber - Date.first.dayNumber) * 86400 + t.second + if billion ≤ t.nano then 1 else 0

theorem age_nonneg (t : Instant) : 0 ≤ t.age := by
  have hfirst := Date.first_le t.date
  rw [age]
  split <;> omega

/-- No instant is older than some half a million years. -/
theorem age_lt (t : Instant) : t.age < 10 ^ 15 := by
  have hlast := Date.lt_last t.date
  have hsecond := t.valid.1
  have hfirst : Date.first.dayNumber = -95746130 := by decide +kernel
  have hend : Date.yearStart (Date.maxYear + 1) = 95745399 := by decide +kernel
  rw [age]
  split <;> omega

/-- A leap second moved back is the second that it repeats, so what is reached has parts of an
instant. -/
theorem isSome_ofParts? (date : Date) (total : Int) (t : Instant) :
    (ofParts? date (total % 86400).toNat
      (if billion ≤ t.nano then t.nano - billion else t.nano)).isSome := by
  have hnano := t.valid.2.1
  have hvalid : Valid (total % 86400).toNat
      (if billion ≤ t.nano then t.nano - billion else t.nano) := by
    rw [Valid]
    split <;> omega
  rw [ofParts?, dif_pos hvalid]
  rfl

/-- An instant can be moved back by its age and no further. -/
theorem plusSeconds?_eq_none_iff (t : Instant) (n : Nat) :
    t.plusSeconds? (-(n : Int)) = none ↔ t.age < n := by
  by_cases hn : n = 0
  · subst hn
    exact iff_of_false (by simp [plusSeconds?]) (Int.not_lt.2 t.age_nonneg)
  · have hmove : (-(n : Int)) ≠ 0 := by omega
    have hback : (-(n : Int)) < 0 := by omega
    have hsecond := t.valid.1
    obtain ⟨total, htotal⟩ : ∃ total, total = t.date.dayNumber * 86400 + t.second +
        (if billion ≤ t.nano then 1 else 0) + -(n : Int) := ⟨_, rfl⟩
    have hdays : total / 86400 ≤ t.date.dayNumber := by
      split at htotal <;> omega
    have hage : Date.first.dayNumber ≤ total / 86400 ↔ (n : Int) ≤ t.age := by
      rw [age]
      split at htotal <;> omega
    have hreached := (Date.ofDayNumber?_isSome_iff hdays).trans hage
    simp only [plusSeconds?, if_neg hmove, hback, and_true, ← htotal]
    cases hday : Date.ofDayNumber? (total / 86400) with
    | none =>
        rw [hday] at hreached
        exact iff_of_true rfl (Int.not_le.1 (mt hreached.2 Bool.false_ne_true))
    | some d =>
        rw [hday] at hreached
        exact iff_of_false (Option.isSome_iff_ne_none.1 (isSome_ofParts? d total t))
          (Int.not_lt.2 (hreached.1 rfl))

end Instant

end SpendAlerts
