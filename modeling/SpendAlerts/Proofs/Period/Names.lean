import SpendAlerts.Proofs.Period

/-!
Names of periods. A name starts with a year, and the characters behind its first one that are no
digits are the marks of its interval, so names of different intervals differ and none has the
separator of keys or a slash in it. Two instants have the same name exactly if they lie in the
same day, week, month, quarter or year. A week belongs to the year of its Thursday, and the
number of the week in that year tells the Thursday.
-/

namespace SpendAlerts

namespace Date

/-- The days lie between one Monday and the Sunday after it; days are counted from a Monday. -/
def SameWeek (d e : Date) : Prop :=
  ∃ monday : Int, 7 ∣ monday ∧ (monday ≤ d.dayNumber ∧ d.dayNumber < monday + 7) ∧
    monday ≤ e.dayNumber ∧ e.dayNumber < monday + 7

/-- The days lie in the same three months from January, April, July or October on. -/
def SameQuarter (d e : Date) : Prop :=
  d.year = e.year ∧ ∃ first ∈ [1, 4, 7, 10],
    (first ≤ d.month ∧ d.month < first + 3) ∧ first ≤ e.month ∧ e.month < first + 3

theorem sameWeek_iff {d e : Date} : d.SameWeek e ↔ d.thursday = e.thursday := by
  rw [thursday, thursday]
  constructor
  · rintro ⟨monday, hmonday, hd, he⟩
    omega
  · intro h
    exact ⟨d.dayNumber - d.dayNumber % 7, by omega, by omega, by omega⟩

instance (d e : Date) : Decidable (d.SameWeek e) :=
  decidable_of_iff _ sameWeek_iff.symm

instance (d e : Date) : Decidable (d.SameQuarter e) :=
  inferInstanceAs (Decidable (_ ∧ _))

theorem thursday_emod (d : Date) : d.thursday % 7 = 3 := by
  rw [thursday]
  omega

/-- The number of a week counts the seven days of a year that its Thursday is in. -/
theorem thursday_bounds (d : Date) : yearStart d.weekYear + 7 * (d.week - 1) ≤ d.thursday ∧
    d.thursday < yearStart d.weekYear + 7 * d.week := by
  have hlow : yearStart d.weekYear ≤ d.thursday := (yearOf_bounds d.thursday).1
  rw [week]
  omega

/-- The year of a week and its number in the year determine the week. -/
theorem week_eq_iff {d e : Date} :
    d.weekYear = e.weekYear ∧ d.week = e.week ↔ d.SameWeek e := by
  rw [sameWeek_iff]
  constructor
  · rintro ⟨hyear, hweek⟩
    obtain ⟨hlow, hhigh⟩ := d.thursday_bounds
    obtain ⟨hlow', hhigh'⟩ := e.thursday_bounds
    rw [hyear, hweek] at hlow hhigh
    -- Both are Thursdays, and of seven days one is.
    have hthursday := d.thursday_emod
    have hthursday' := e.thursday_emod
    omega
  · intro h
    rw [week, week, weekYear, weekYear, h]
    exact ⟨rfl, rfl⟩

theorem quarter_eq_iff {d e : Date} :
    d.year = e.year ∧ d.quarter = e.quarter ↔ d.SameQuarter e := by
  refine and_congr_right fun _ => ?_
  obtain ⟨-, -, hlow, hhigh, -⟩ := d.valid
  obtain ⟨-, -, hlow', hhigh', -⟩ := e.valid
  simp only [quarter, List.mem_cons, List.not_mem_nil, or_false, exists_eq_or_imp,
    exists_eq_left]
  omega

end Date

namespace Period

/-- The instants lie in the same period. -/
def Shared (i : Interval) (t t' : Instant) : Prop :=
  match i with
  | .day => t.date = t'.date
  | .week => t.date.SameWeek t'.date
  | .month => t.date.year = t'.date.year ∧ t.date.month = t'.date.month
  | .quarter => t.date.SameQuarter t'.date
  | .year => t.date.year = t'.date.year
  | .hour => False

instance (i : Interval) (t t' : Instant) : Decidable (Shared i t t') :=
  match i with
  | .day | .year => inferInstanceAs (Decidable (_ = _))
  | .week => inferInstanceAs (Decidable (t.date.SameWeek t'.date))
  | .month => inferInstanceAs (Decidable (_ ∧ _))
  | .quarter => inferInstanceAs (Decidable (t.date.SameQuarter t'.date))
  | .hour => isFalse not_false

/-! ### What names are made of -/

/-- A digit or a sign, and then digits only. -/
def Leads (cs : List Char) : Prop :=
  ∃ lead ds, cs = lead :: ds ∧ (Decimal.isDigit lead = true ∨ lead = '-' ∨ lead = '+') ∧
    ∀ c ∈ ds, Decimal.isDigit c = true

theorem leads_of_digits {cs : List Char} (hne : cs ≠ []) (h : ∀ c ∈ cs, Decimal.isDigit c = true) :
    Leads cs := by
  cases cs with
  | nil => exact absurd rfl hne
  | cons c cs =>
      obtain ⟨hc, hcs⟩ := List.forall_mem_cons.1 h
      exact ⟨c, cs, rfl, .inl hc, hcs⟩

theorem leads_yearText (y : Int) : Leads (Date.yearText y) := by
  rw [Date.yearText]
  split
  · exact leads_of_digits (Decimal.padded_ne_nil _ _) (Decimal.isDigit_of_mem_padded _ _)
  · refine ⟨_, _, rfl, .inr ?_, Decimal.isDigit_of_mem_padded _ _⟩
    split
    · exact .inl rfl
    · exact .inr rfl

theorem leads_signed (n : Int) : Leads (Decimal.signed n) := by
  cases n with
  | ofNat k => exact leads_of_digits (Decimal.digits_ne_nil k) Decimal.isDigit_of_mem_digits
  | negSucc k => exact ⟨_, _, rfl, .inr (.inl rfl), Decimal.isDigit_of_mem_digits⟩

/-- The characters that are no digits. -/
def nonDigits (cs : List Char) : List Char := cs.filter fun c => !Decimal.isDigit c

theorem nonDigits_of_digits {cs : List Char} (h : ∀ c ∈ cs, Decimal.isDigit c = true) :
    nonDigits cs = [] :=
  List.filter_eq_nil_iff.2 fun c hc => by simp [h c hc]

theorem nonDigits_padded (width n : Nat) : nonDigits (Decimal.padded width n) = [] :=
  nonDigits_of_digits (Decimal.isDigit_of_mem_padded width n)

theorem nonDigits_digits (n : Nat) : nonDigits (Decimal.digits n) = [] :=
  nonDigits_of_digits Decimal.isDigit_of_mem_digits

theorem nonDigits_append (as bs : List Char) :
    nonDigits (as ++ bs) = nonDigits as ++ nonDigits bs :=
  List.filter_append _ _

theorem nonDigits_cons {c : Char} (h : Decimal.isDigit c = false) (cs : List Char) :
    nonDigits (c :: cs) = c :: nonDigits cs := by
  simp [nonDigits, h]

/-- What the names of an interval have behind the first character besides digits. -/
def marks : Interval → List Char
  | .day => ['-', '-']
  | .week => ['-', 'W']
  | .month => ['-']
  | .quarter => ['-', 'Q']
  | .year | .hour => []

/-- The name consists of a digit or a sign and of digits and the marks of its interval. -/
def Marked (i : Interval) (name : List Char) : Prop :=
  ∃ lead rest, name = lead :: rest ∧
    (Decimal.isDigit lead = true ∨ lead = '-' ∨ lead = '+') ∧ nonDigits rest = marks i

theorem marked_append {i : Interval} {cs rest : List Char} (h : Leads cs)
    (hrest : nonDigits rest = marks i) : Marked i (cs ++ rest) := by
  obtain ⟨lead, ds, rfl, hlead, hds⟩ := h
  refine ⟨lead, ds ++ rest, rfl, hlead, ?_⟩
  rw [nonDigits_append, nonDigits_of_digits hds, hrest, List.nil_append]

theorem marked_of_name? {i : Interval} {t : Instant} {p : String} (h : name? i t = .ok p) :
    Marked i p.toList := by
  have hdash : Decimal.isDigit '-' = false := by decide
  cases i with
  | hour => cases h
  | day =>
      obtain rfl := Except.ok.inj h
      rw [String.toList_ofList, Date.text, List.append_assoc]
      apply marked_append (leads_yearText _)
      rw [List.cons_append, nonDigits_cons hdash, nonDigits_append, nonDigits_padded,
        nonDigits_cons hdash, nonDigits_padded]
      rfl
  | week =>
      obtain rfl := Except.ok.inj h
      rw [String.toList_ofList]
      apply marked_append (leads_signed _)
      rw [nonDigits_cons hdash, nonDigits_cons (by decide), nonDigits_padded]
      rfl
  | month =>
      obtain rfl := Except.ok.inj h
      rw [String.toList_ofList]
      apply marked_append (leads_yearText _)
      rw [nonDigits_cons hdash, nonDigits_padded]
      rfl
  | quarter =>
      obtain rfl := Except.ok.inj h
      rw [String.toList_ofList]
      apply marked_append (leads_signed _)
      rw [nonDigits_cons hdash, nonDigits_cons (by decide), nonDigits_digits]
      rfl
  | year =>
      obtain rfl := Except.ok.inj h
      rw [String.toList_ofList, ← List.append_nil (Date.yearText _)]
      exact marked_append (leads_yearText _) rfl

theorem marks_injective {i j : Interval} (hi : i ≠ .hour) (hj : j ≠ .hour)
    (h : marks i = marks j) : i = j := by
  revert hi hj h
  cases i <;> cases j <;> decide

theorem marks_subset (i : Interval) : marks i ⊆ ['-', '+', 'W', 'Q'] := by
  cases i <;> decide

theorem ne_hour_of_name? {i : Interval} {t : Instant} {p : String} (h : name? i t = .ok p) :
    i ≠ .hour := by
  rintro rfl
  cases h

theorem exists_name? {i : Interval} (hi : i ≠ .hour) (t : Instant) :
    ∃ p, name? i t = .ok p := by
  cases i with
  | hour => exact absurd rfl hi
  | day | week | month | quarter | year => exact ⟨_, rfl⟩

/-- The marks tell the interval. -/
theorem interval_eq_of_name? {i j : Interval} {t t' : Instant} {p : String}
    (h : name? i t = .ok p) (h' : name? j t' = .ok p) : i = j := by
  obtain ⟨lead, rest, hp, -, hmarks⟩ := marked_of_name? h
  obtain ⟨lead', rest', hp', -, hmarks'⟩ := marked_of_name? h'
  obtain ⟨-, rfl⟩ := List.cons.inj (hp.symm.trans hp')
  exact marks_injective (ne_hour_of_name? h) (ne_hour_of_name? h') (hmarks.symm.trans hmarks')

/-- A name is written with digits, signs and the letters of weeks and quarters. -/
theorem mem_name? {i : Interval} {t : Instant} {p : String} (h : name? i t = .ok p) {c : Char}
    (hc : c ∈ p.toList) : Decimal.isDigit c = true ∨ c ∈ ['-', '+', 'W', 'Q'] := by
  obtain ⟨lead, rest, hp, hlead, hmarks⟩ := marked_of_name? h
  rw [hp] at hc
  cases List.mem_cons.1 hc with
  | inl hfirst =>
      rw [hfirst]
      rcases hlead with hdigit | rfl | rfl
      · exact .inl hdigit
      · exact .inr (by decide)
      · exact .inr (by decide)
  | inr hrest =>
      cases hdigit : Decimal.isDigit c with
      | true => exact .inl rfl
      | false =>
          have hmark : c ∈ marks i := hmarks ▸ List.mem_filter.2 ⟨hrest, by simp [hdigit]⟩
          exact .inr (marks_subset i hmark)

/-- The name of a period does not have the separator of keys in it. -/
theorem separator_notMem_name? {i : Interval} {t : Instant} {p : String}
    (h : name? i t = .ok p) : '_' ∉ p.toList :=
  fun hc => absurd (mem_name? h hc) (by decide)

theorem slash_notMem_name? {i : Interval} {t : Instant} {p : String}
    (h : name? i t = .ok p) : '/' ∉ p.toList :=
  fun hc => absurd (mem_name? h hc) (by decide)

/-! ### Instants of one name -/

theorem mem_signed {n : Int} {c : Char} (h : c ∈ Decimal.signed n) :
    Decimal.isDigit c = true ∨ c = '-' := by
  cases n with
  | ofNat k => exact .inl (Decimal.isDigit_of_mem_digits c h)
  | negSucc k =>
      cases List.mem_cons.1 h with
      | inl hsign => exact .inr hsign
      | inr hdigits => exact .inl (Decimal.isDigit_of_mem_digits c hdigits)

/-- A number and a dash end in front of a mark that is neither. -/
theorem signed_append_inj {mark : Char} (hmark : Decimal.isDigit mark = false) (hdash : mark ≠ '-')
    {n n' : Int} {as bs : List Char}
    (h : Decimal.signed n ++ '-' :: mark :: as = Decimal.signed n' ++ '-' :: mark :: bs) :
    n = n' ∧ as = bs := by
  have hfree (k : Int) : mark ∉ Decimal.signed k ++ ['-'] := by
    intro hmem
    cases List.mem_append.1 hmem with
    | inl hnumber =>
        cases mem_signed hnumber with
        | inl hdigit => exact absurd (hdigit.symm.trans hmark) (by decide)
        | inr hsign => exact hdash hsign
    | inr hlast => exact hdash (List.mem_singleton.1 hlast)
  have hsplit : (Decimal.signed n ++ ['-']) ++ mark :: as =
      (Decimal.signed n' ++ ['-']) ++ mark :: bs := by
    simpa using h
  obtain ⟨hnumber, hrest⟩ := Text.eq_of_append_cons_eq (hfree n) (hfree n') hsplit
  exact ⟨Decimal.signed_injective (List.append_cancel_right hnumber), hrest⟩

theorem shared_of_name?_eq {i : Interval} {t t' : Instant} {p : String} (h : name? i t = .ok p)
    (h' : name? i t' = .ok p) : Shared i t t' := by
  have hname := h.trans h'.symm
  cases i with
  | hour => cases h
  | day => exact Date.text_injective (String.ofList_injective (Except.ok.inj hname))
  | week =>
      obtain ⟨hyear, hweek⟩ := signed_append_inj (by decide) (by decide)
        (String.ofList_injective (Except.ok.inj hname))
      exact Date.week_eq_iff.1 ⟨hyear, Decimal.padded_injective hweek⟩
  | month =>
      obtain ⟨hyear, hmonth⟩ :=
        Date.yearText_append_inj (String.ofList_injective (Except.ok.inj hname))
      exact ⟨hyear, Decimal.padded_injective hmonth⟩
  | quarter =>
      obtain ⟨hyear, hquarter⟩ := signed_append_inj (by decide) (by decide)
        (String.ofList_injective (Except.ok.inj hname))
      exact Date.quarter_eq_iff.1 ⟨hyear, Decimal.digits_injective hquarter⟩
  | year =>
      have hyear := String.ofList_injective (Except.ok.inj hname)
      exact (Date.yearText_append_inj (congrArg (· ++ ['-']) hyear)).1

theorem name?_eq_of_shared {i : Interval} {t t' : Instant} (h : Shared i t t') :
    name? i t = name? i t' := by
  cases i with
  | hour => cases h
  | day => rw [name?, name?, show t.date = t'.date from h]
  | week =>
      obtain ⟨hyear, hweek⟩ := Date.week_eq_iff.2 h
      rw [name?, name?, hyear, hweek]
  | month =>
      obtain ⟨hyear, hmonth⟩ : t.date.year = t'.date.year ∧ t.date.month = t'.date.month := h
      rw [name?, name?, hyear, hmonth]
  | quarter =>
      obtain ⟨hyear, hquarter⟩ := Date.quarter_eq_iff.2 h
      rw [name?, name?, hyear, hquarter]
  | year => rw [name?, name?, show t.date.year = t'.date.year from h]

theorem name?_eq_iff {i : Interval} (hi : i ≠ .hour) {t t' : Instant} :
    name? i t = name? i t' ↔ Shared i t t' := by
  constructor
  · intro h
    obtain ⟨p, hp⟩ := exists_name? hi t'
    exact shared_of_name?_eq (h.trans hp) hp
  · exact name?_eq_of_shared

/-- Every interval but the hour names its periods, and a name stands for one period of one
interval. The characters that keys and paths are separated by do not occur in it. -/
theorem names_exact {i : Interval} (hi : i ≠ .hour) (t t' : Instant) :
    (name? i t = name? i t' ↔ Shared i t t') ∧
    (∀ j, j ≠ i → name? j t' ≠ name? i t) ∧
    ∃ p, name? i t = .ok p ∧ '_' ∉ p.toList ∧ '/' ∉ p.toList := by
  obtain ⟨p, hp⟩ := exists_name? hi t
  refine ⟨name?_eq_iff hi, fun j hj hname => ?_, p, hp, separator_notMem_name? hp,
    slash_notMem_name? hp⟩
  exact hj (interval_eq_of_name? (hname.trans hp) hp)

/-- The last Monday of 2024 and the first Sunday of 2025 lie in the first week of 2025. -/
theorem names_exact_newYear :
    let monday : Instant := .midnight ⟨2024, 12, 30, by decide⟩
    let sunday : Instant := .midnight ⟨2025, 1, 5, by decide⟩
    Shared .week monday sunday ∧ name? .week monday = name? .week sunday ∧
      name? .week monday = .ok "2025-W01" ∧ name? .year monday ≠ name? .year sunday ∧
      name? .month sunday ≠ name? .week monday := by
  intro monday sunday
  have hweek : Shared .week monday sunday := by decide +kernel
  obtain ⟨hsame, hother, -⟩ := names_exact (i := .week) (by decide) monday sunday
  obtain ⟨hyear, -⟩ := names_exact (i := .year) (by decide) monday sunday
  exact ⟨hweek, hsame.2 hweek, by decide +kernel, mt hyear.1 (by decide +kernel),
    hother .month (by decide)⟩

end Period

end SpendAlerts
