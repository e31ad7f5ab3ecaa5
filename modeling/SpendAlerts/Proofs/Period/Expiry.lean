import SpendAlerts.Period
import SpendAlerts.Proofs.Calendar.Months

/-!
The expiry of detections. A detection is kept for some calendar months from the midnight in front
of it, and the midnight of its expiry is behind it and never in front of that of an earlier
detection. No expiry is given by the hour, or behind the last month of the calendar.
-/

namespace SpendAlerts.Period

/-- For how many calendar months the detections of each interval are kept. -/
def kept : List (Interval × Nat) :=
  [(.day, 2), (.week, 3), (.month, 6), (.quarter, 12), (.year, 36)]

theorem mem_kept_iff {i : Interval} {months : Nat} :
    (i, months) ∈ kept ↔ retention? i = some months := by
  cases i <;> simp [kept, retention?, eq_comm]

theorem kept_pos {i : Interval} {months : Nat} (h : (i, months) ∈ kept) : 0 < months := by
  have hpos : ∀ entry ∈ kept, 0 < entry.2 := by decide
  exact hpos _ h

theorem eq_hour_or_kept (i : Interval) : i = .hour ∨ ∃ months, (i, months) ∈ kept := by
  cases i with
  | hour => exact .inl rfl
  | day | week | month | quarter | year => exact .inr ⟨_, mem_kept_iff.2 rfl⟩

variable {i : Interval} {months : Nat} {t : Instant}

theorem expiry?_of_monthsLater {d : Date} (hkept : (i, months) ∈ kept)
    (hd : t.date.MonthsLater months d) : expiry? i t = .ok (.midnight d) := by
  have hmove : t.startOfDay.plusMonths? months = some (.midnight d) := by
    rw [Instant.plusMonths?_startOfDay, Date.plusMonths?_eq_some_iff.2 hd]
    rfl
  rw [expiry?, mem_kept_iff.1 hkept, Option.bind_some, hmove]

theorem expiry?_of_behind (hkept : (i, months) ∈ kept)
    (hbehind : Date.lastMonth < t.date.monthNumber + months) :
    expiry? i t = .error i.unsupported := by
  have hmove : t.startOfDay.plusMonths? months = none := by
    rw [Instant.plusMonths?_startOfDay, Date.plusMonths?_eq_none_iff.2 hbehind]
    rfl
  rw [expiry?, mem_kept_iff.1 hkept, Option.bind_some, hmove]

theorem expiry?_cases (i : Interval) (t : Instant) :
    (∃ months d, (i, months) ∈ kept ∧ t.date.MonthsLater months d ∧
      expiry? i t = .ok (.midnight d)) ∨
    (i = .hour ∨ ∃ months, (i, months) ∈ kept ∧
      Date.lastMonth < t.date.monthNumber + months) ∧ expiry? i t = .error i.unsupported := by
  obtain rfl | ⟨months, hkept⟩ := eq_hour_or_kept i
  · exact .inr ⟨.inl rfl, rfl⟩
  rcases Int.lt_or_le Date.lastMonth (t.date.monthNumber + months) with hbehind | hwithin
  · exact .inr ⟨.inr ⟨months, hkept, hbehind⟩, expiry?_of_behind hkept hbehind⟩
  · obtain ⟨d, hd⟩ := Date.exists_monthsLater hwithin
    exact .inl ⟨months, d, hkept, hd, expiry?_of_monthsLater hkept hd⟩

/-- An expiry that is given is that of the months that detections are kept for. -/
theorem monthsLater_of_expiry? {e : Instant} (h : expiry? i t = .ok e) :
    ∃ months d, (i, months) ∈ kept ∧ t.date.MonthsLater months d ∧ e = .midnight d := by
  obtain ⟨months, d, hkept, hd, hexpiry⟩ | ⟨-, hexpiry⟩ := expiry?_cases i t
  · exact ⟨months, d, hkept, hd, Except.ok.inj (h.symm.trans hexpiry)⟩
  · cases h.symm.trans hexpiry

theorem lt_of_expiry? {e : Instant} (h : expiry? i t = .ok e) : t < e := by
  obtain ⟨months, d, hkept, hd, rfl⟩ := monthsLater_of_expiry? h
  exact Instant.lt_midnight (hd.dayNumber_lt (kept_pos hkept))

theorem expiry?_mono {t' e e' : Instant} (hle : t ≤ t') (h : expiry? i t = .ok e)
    (h' : expiry? i t' = .ok e') : e ≤ e' := by
  obtain ⟨months, d, hkept, hd, rfl⟩ := monthsLater_of_expiry? h
  obtain ⟨months', d', hkept', hd', rfl⟩ := monthsLater_of_expiry? h'
  obtain rfl : months = months' :=
    Option.some.inj ((mem_kept_iff.1 hkept).symm.trans (mem_kept_iff.1 hkept'))
  exact (Instant.midnight_le_iff d d').2 (hd.mono hd' (Instant.dayNumber_le_of_le hle))

/-- The expiry of a detection is the midnight of the day that is as many calendar months later as
detections of its interval are kept, behind the detection and in the order of detections. It is
missing for the hour and behind the last month of the calendar, and nowhere else. -/
theorem expiry_exact (i : Interval) (t : Instant) :
    (∀ months, (i, months) ∈ kept → t.date.monthNumber + months ≤ Date.lastMonth →
      ∃ d, t.date.MonthsLater months d ∧ expiry? i t = .ok (.midnight d) ∧ t < .midnight d) ∧
    (∀ t' e e', t ≤ t' → expiry? i t = .ok e → expiry? i t' = .ok e' → e ≤ e') ∧
    ∀ fault, expiry? i t = .error fault ↔ fault = i.unsupported ∧
      (i = .hour ∨ ∃ months, (i, months) ∈ kept ∧
        Date.lastMonth < t.date.monthNumber + months) := by
  refine ⟨fun months hkept hwithin => ?_, fun t' e e' hle h h' => expiry?_mono hle h h',
    fun fault => ⟨fun h => ?_, ?_⟩⟩
  · obtain ⟨d, hd⟩ := Date.exists_monthsLater hwithin
    have hexpiry := expiry?_of_monthsLater hkept hd
    exact ⟨d, hd, hexpiry, lt_of_expiry? hexpiry⟩
  · obtain ⟨_, _, -, -, hexpiry⟩ | ⟨hreason, hexpiry⟩ := expiry?_cases i t
    · cases h.symm.trans hexpiry
    · exact ⟨Except.error.inj (h.symm.trans hexpiry), hreason⟩
  · rintro ⟨rfl, rfl | ⟨months, hkept, hbehind⟩⟩
    · rfl
    · exact expiry?_of_behind hkept hbehind

/-- Two months after the last days of 2023 is the last day of a February that has 29, and two months
after the last day of the calendar is no day. -/
theorem expiry_exact_leapDay :
    let eve : Instant := ⟨⟨2023, 12, 31, by decide⟩, 28800, 0, by decide⟩
    let last : Instant := .midnight ⟨262142, 12, 31, by decide⟩
    let leapDay : Date := ⟨2024, 2, 29, by decide⟩
    eve.date.MonthsLater 2 leapDay ∧ expiry? .day eve = .ok (.midnight leapDay) ∧
      eve < .midnight leapDay ∧ expiry? .day last = .error (.unsupportedInterval "day") := by
  intro eve last leapDay
  have hday : (Interval.day, 2) ∈ kept := by decide
  have hleap : eve.date.MonthsLater 2 leapDay := ⟨by decide, by decide⟩
  obtain ⟨hgiven, -, -⟩ := expiry_exact .day eve
  obtain ⟨-, -, hfault⟩ := expiry_exact .day last
  obtain ⟨d, hd, hexpiry, hlt⟩ := hgiven 2 hday (by decide)
  obtain rfl := hd.unique hleap
  exact ⟨hleap, hexpiry, hlt, (hfault _).2 ⟨rfl, .inr ⟨2, hday, by decide⟩⟩⟩

end SpendAlerts.Period
