import SpendAlerts.Period
import SpendAlerts.Proofs.Calendar.Written
import SpendAlerts.Proofs.Decimal.Digits
import SpendAlerts.Proofs.Text.Separated

/-!
Days as readers see them. The label of a day has its parts in front of blanks, and every part can
be told from the label, so different days have different labels. The suffix of the day is always
two letters and adds nothing. A date as it is written determines the day as well.
-/

namespace SpendAlerts

theorem length_ordinalSuffix (day : Nat) : (ordinalSuffix day).toList.length = 2 := by
  rw [ordinalSuffix]
  split
  · rfl
  · split <;> rfl

theorem blank_notMem_ordinalSuffix (day : Nat) : ' ' ∉ (ordinalSuffix day).toList := by
  rw [ordinalSuffix]
  split
  · decide
  · split <;> decide

theorem blank_notMem_monthName (m : Nat) : ' ' ∉ (monthName m).toList := by
  unfold monthName
  split <;> decide

theorem monthName_injective {m m' : Nat} (hm : 1 ≤ m ∧ m ≤ 12) (hm' : 1 ≤ m' ∧ m' ≤ 12)
    (h : monthName m = monthName m') : m = m' := by
  obtain ⟨hlow, hhigh⟩ := hm
  obtain ⟨hlow', hhigh'⟩ := hm'
  interval_cases m <;> interval_cases m' <;> first | rfl | exact absurd h (by decide)

theorem toList_dayLabel (t : Instant) : (dayLabel t).toList =
    (monthName t.date.month).toList ++ ' ' :: ((Decimal.digits t.date.day ++
      (ordinalSuffix t.date.day).toList) ++ ' ' :: Decimal.signed t.date.year) := by
  simp [dayLabel, Decimal.natText, Decimal.intText]

theorem blank_notMem_day (day : Nat) :
    ' ' ∉ Decimal.digits day ++ (ordinalSuffix day).toList := by
  intro h
  cases List.mem_append.1 h with
  | inl h => exact absurd (Decimal.isDigit_of_mem_digits _ h) (by decide)
  | inr h => exact blank_notMem_ordinalSuffix day h

/-- Different days have different labels. -/
theorem date_eq_of_dayLabel_eq {t t' : Instant} (h : dayLabel t = dayLabel t') :
    t.date = t'.date := by
  have hlist := congrArg String.toList h
  rw [toList_dayLabel, toList_dayLabel] at hlist
  obtain ⟨hmonth, hrest⟩ :=
    Text.eq_of_append_cons_eq (blank_notMem_monthName _) (blank_notMem_monthName _) hlist
  obtain ⟨hday, hyear⟩ :=
    Text.eq_of_append_cons_eq (blank_notMem_day _) (blank_notMem_day _) hrest
  have hdigits := (List.append_inj' hday
    ((length_ordinalSuffix _).trans (length_ordinalSuffix _).symm)).1
  obtain ⟨-, -, hlow, hhigh, -⟩ := t.date.valid
  obtain ⟨-, -, hlow', hhigh', -⟩ := t'.date.valid
  exact Date.eq_of_parts (Decimal.signed_injective hyear)
    (monthName_injective ⟨hlow, hhigh⟩ ⟨hlow', hhigh'⟩ (String.toList_inj.1 hmonth))
    (Decimal.digits_injective hdigits)

/-- The days of one label are the same period. -/
theorem Period.name?_day_eq {t t' : Instant} (h : dayLabel t = dayLabel t') :
    name? .day t = name? .day t' := by
  rw [name?, name?, date_eq_of_dayLabel_eq h]

theorem Date.text_injective {d e : Date} (h : d.text = e.text) : d = e := by
  have hread := Instant.Reader.date?_text d []
  rw [h, Instant.Reader.date?_text e []] at hread
  simp only [Option.some.injEq, Prod.mk.injEq, and_true] at hread
  obtain ⟨hyear, hmonth, hday⟩ := hread
  exact eq_of_parts hyear.symm hmonth.symm hday.symm

/-- A written year ends in front of a dash. -/
theorem Date.yearText_append_inj {y y' : Int} {as bs : List Char}
    (h : yearText y ++ '-' :: as = yearText y' ++ '-' :: bs) : y = y' ∧ as = bs := by
  have hread := Instant.Reader.year?_yearText y as
  rw [h, Instant.Reader.year?_yearText y' bs] at hread
  simp only [Option.some.injEq, Prod.mk.injEq, List.cons.injEq, true_and] at hread
  exact ⟨hread.1.symm, hread.2.symm⟩

end SpendAlerts
