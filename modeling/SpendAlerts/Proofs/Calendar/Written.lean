import SpendAlerts.Calendar.Timestamp
import SpendAlerts.Proofs.Calendar.DayNumber
import SpendAlerts.Proofs.Decimal.Digits

/-!
Written instants are read back. The reader is wider than the printer, so the statement
goes one way only: each part of a printed instant is read to its own end, and the parts
give the instant again, in every year of the calendar and inside leap seconds as well.
-/

namespace SpendAlerts.Instant

open Decimal

namespace Reader

theorem isBlank_of_isDigit {c : Char} (h : isDigit c = true) : Text.isBlank c = false := by
  obtain ⟨n, hn, rfl⟩ := exists_digit_of_isDigit h
  interval_cases n <;> decide

theorem trimStart_of_digit {c : Char} (h : isDigit c = true) (s : List Char) :
    Text.trimStart (c :: s) = c :: s := by
  simp [Text.trimStart, isBlank_of_isDigit h]

/-- Digits of the full width are read up to their end, whatever follows. -/
theorem number?_append {width : Nat} {ds : List Char} (hd : ∀ c ∈ ds, isDigit c = true)
    (hl : ds.length = width) (hw : 0 < width) (rest : List Char) :
    number? width (ds ++ rest) = some (valueOf ds, rest) := by
  subst hl
  have hne : ds ≠ [] := List.ne_nil_of_length_pos hw
  have htrim : Text.trimStart (ds ++ rest) = ds ++ rest := by
    cases ds with
    | nil => exact absurd rfl hne
    | cons c cs => exact trimStart_of_digit (hd c List.mem_cons_self) _
  have htake : (ds ++ rest).take ds.length = ds := by simp
  have hwhile : ds.takeWhile isDigit = ds := by
    have : (ds ++ []).takeWhile isDigit = ds ++ [].takeWhile isDigit :=
      List.takeWhile_append_of_pos hd
    simpa using this
  simp only [number?, htrim, htake, hwhile, hne, if_false]
  simp

theorem takeWhile_isDigit {ds : List Char} (hd : ∀ c ∈ ds, isDigit c = true) (mark : Char)
    (hm : isDigit mark = false) (rest : List Char) :
    (ds ++ mark :: rest).takeWhile isDigit = ds := by
  rw [List.takeWhile_append_of_pos hd]
  simp [hm]

theorem ranged?_padded {low high n : Nat} (hn : low ≤ n ∧ n ≤ high) (h : n < 100)
    (rest : List Char) : ranged? low high (padded 2 n ++ rest) = some (n, rest) := by
  have hlength := length_padded 2 n (by decide) h
  rw [ranged?, number?_append (isDigit_of_mem_padded 2 n) hlength (by decide), valueOf_padded]
  simp [hn]

theorem year?_yearText (y : Int) (rest : List Char) :
    year? (Date.yearText y ++ '-' :: rest) = some (y, '-' :: rest) := by
  rw [Date.yearText]
  split
  · rename_i hy
    have hl := length_padded 4 y.toNat (by decide) (by omega)
    have hnum := number?_append (isDigit_of_mem_padded 4 y.toNat) hl (by decide) ('-' :: rest)
    rw [valueOf_padded] at hnum
    cases hp : padded 4 y.toNat with
    | nil => exact absurd hp (padded_ne_nil _ _)
    | cons c cs =>
        have hc : isDigit c = true := isDigit_of_mem_padded 4 y.toNat c (hp ▸ List.mem_cons_self)
        rw [hp] at hnum
        have hsign : ¬(c = '-' ∨ c = '+') := by
          rintro (rfl | rfl) <;> exact absurd hc (by decide)
        simp only [List.cons_append] at hnum
        simp [year?, trimStart_of_digit hc, hsign, hnum, Int.toNat_of_nonneg hy.1]
  · rename_i hy
    have hwhile := takeWhile_isDigit (isDigit_of_mem_padded 4 y.natAbs) '-' (by decide) rest
    have hne := padded_ne_nil 4 y.natAbs
    by_cases hneg : y < 0
    · simp [year?, hneg, Text.trimStart, show Text.isBlank '-' = false by decide, hwhile, hne,
        valueOf_padded, -Nat.cast_natAbs]
      omega
    · simp [year?, hneg, Text.trimStart, show Text.isBlank '+' = false by decide, hwhile, hne,
        valueOf_padded, -Nat.cast_natAbs]
      omega

theorem expect?_cons {mark : Char} (h : Text.isBlank mark = false) (rest : List Char) :
    expect? mark (mark :: rest) = some rest := by
  simp [expect?, Text.trimStart, h]

/-- The digits of a fraction count for nanoseconds, whether three, six or nine are written. -/
theorem fraction?_point {places n : Nat} (hp : 0 < places ∧ places ≤ 9) (h : n < 10 ^ places) :
    fraction? ('.' :: padded places n ++ ['Z']) = some (n * 10 ^ (9 - places), ['Z']) := by
  have hl := length_padded places n hp.1 h
  have hwhile := takeWhile_isDigit (isDigit_of_mem_padded places n) 'Z' (by decide) []
  have htake : (padded places n).take 9 = padded places n :=
    List.take_of_length_le (by omega)
  simp [fraction?, hwhile, padded_ne_nil, htake, hl, valueOf_padded]

theorem fraction?_fractionText {nano : Nat} (h : nano < billion) :
    fraction? (fractionText nano ++ ['Z']) = some (nano, ['Z']) := by
  rw [fractionText]
  simp only [billion] at h
  split
  · rename_i hzero
    subst hzero
    rfl
  · split
    · rw [fraction?_point (by decide) (by omega)]
      simp
      omega
    · split
      · rw [fraction?_point (by decide) (by omega)]
        simp
        omega
      · rw [fraction?_point (by decide) (by omega)]
        simp

theorem offset?_zulu : offset? (Text.trimStart ['Z']) = some (0, []) := by
  decide

theorem date?_text (d : Date) (rest : List Char) :
    date? (d.text ++ rest) = some ((d.year, d.month, d.day), rest) := by
  have hdash : Text.isBlank '-' = false := by decide
  have hm : 1 ≤ d.month ∧ d.month ≤ 12 := ⟨d.valid.2.2.1, d.valid.2.2.2.1⟩
  have hd : 1 ≤ d.day ∧ d.day ≤ 31 :=
    ⟨d.valid.2.2.2.2.1, Nat.le_trans d.valid.2.2.2.2.2 (Date.daysInMonth_bounds _ _).2⟩
  simp only [Date.text, List.append_assoc, List.cons_append, date?, year?_yearText,
    expect?_cons hdash, ranged?_padded hm (show d.month < 100 by omega),
    ranged?_padded hd (show d.day < 100 by omega), Option.bind_eq_bind, Option.bind_some]

theorem clock?_text (hour minute second nano : Nat) (hh : hour ≤ 23) (hm : minute ≤ 59)
    (hs : second ≤ 60) (hn : nano < billion) :
    clock? (padded 2 hour ++ ':' :: padded 2 minute ++ ':' :: padded 2 second ++
      fractionText nano ++ ['Z']) = some ((hour, minute, second, nano), ['Z']) := by
  have hcolon : Text.isBlank ':' = false := by decide
  simp only [List.append_assoc, List.cons_append, clock?, expect?_cons hcolon,
    ranged?_padded ⟨Nat.zero_le hour, hh⟩ (by omega),
    ranged?_padded ⟨Nat.zero_le minute, hm⟩ (by omega),
    ranged?_padded ⟨Nat.zero_le second, hs⟩ (by omega), fraction?_fractionText hn,
    Option.bind_eq_bind, Option.bind_some]

end Reader

/-- The parts of an instant as they are printed. -/
def written (t : Instant) : Reader.Fields where
  year := t.date.year
  month := t.date.month
  day := t.date.day
  hour := t.second / 3600
  minute := t.second / 60 % 60
  second := t.second % 60 + if billion ≤ t.nano then 1 else 0
  nano := if billion ≤ t.nano then t.nano - billion else t.nano

theorem fields?_text (t : Instant) : Reader.fields? t.text.toList = some (t.written, ['Z']) := by
  obtain ⟨hs, hn, -⟩ := t.valid
  have hclock := Reader.clock?_text (t.second / 3600) (t.second / 60 % 60)
    (t.second % 60 + if billion ≤ t.nano then 1 else 0)
    (if billion ≤ t.nano then t.nano - billion else t.nano) (by omega) (by omega)
    (by split <;> omega) (by split <;> omega)
  simp only [text, String.toList_ofList, List.append_assoc, List.cons_append] at hclock ⊢
  simp only [Reader.fields?, Reader.date?_text, Reader.separator?, hclock, Option.bind_eq_bind,
    Option.bind_some, written, true_or, if_true]

theorem instant?_written (t : Instant) : t.written.instant? 0 = some t := by
  obtain ⟨hs, hn, hleap⟩ := t.valid
  have hparts : Date.ofParts? t.date.year t.date.month t.date.day = some t.date := by
    simp [Date.ofParts?, t.date.valid]
  have hdays : t.date.plusDays? 0 = some t.date := by
    rw [Date.plusDays?, Int.add_zero, Date.ofDayNumber?_dayNumber]
  have hleap' : t.written.second = 60 ↔ billion ≤ t.nano := by
    simp only [written]
    split <;> omega
  have hclock : (t.written.hour * 3600 + t.written.minute * 60 +
      (if t.written.second = 60 then 59 else t.written.second : Nat) - 0 : Int) = t.second := by
    simp only [hleap']
    simp only [written]
    split <;> omega
  have hnano : (if t.written.second = 60 then t.written.nano + billion else t.written.nano) =
      t.nano := by
    simp only [hleap']
    simp only [written]
    split <;> omega
  have hday : (t.second : Int) / 86400 = 0 := by omega
  have hsecond : ((t.second : Int) % 86400).toNat = t.second := by omega
  simp only [Reader.Fields.instant?, hclock, hnano, hday, hsecond]
  simp only [written, hparts, hdays, Option.bind_eq_bind, Option.bind_some]
  simp [ofParts?, t.valid]

/-- A written instant is read back as the same instant. -/
theorem ofText?_text (t : Instant) : ofText? t.text = some t := by
  have hend : Text.trimStart [] = [] := rfl
  simp only [ofText?, fields?_text, Reader.offset?_zulu, hend, instant?_written,
    Option.bind_eq_bind, Option.bind_some, if_true]

end SpendAlerts.Instant
