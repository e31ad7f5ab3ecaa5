import SpendAlerts.Money
import SpendAlerts.Proofs.Decimal.Digits

/-!
Amounts as they are written. The commas are all that is added to the digits of a magnitude: they
cut the integer part, from the right, into groups of three digits, and taking them out gives the
plain fixed-point text back. The sign tells the values below zero that do not round to zero. An
amount in a currency is the same text with the symbol behind the sign.
-/

namespace SpendAlerts.Money

variable {ds cs : List Char} {places : Nat} {x : Float}

/-! ### Groups of digits -/

/-- The text is the digits in groups with commas between them. All groups have three digits but
the first one, which has one to three. -/
def Cut (ds cs : List Char) : Prop :=
  ∃ first rest, cs = [','].intercalate (first :: rest) ∧ (first :: rest).flatten = ds ∧
    1 ≤ first.length ∧ first.length ≤ 3 ∧ ∀ group ∈ rest, group.length = 3

theorem length_flatten_of_forall {groups : List (List Char)}
    (h : ∀ group ∈ groups, group.length = 3) : groups.flatten.length = 3 * groups.length := by
  induction groups with
  | nil => rfl
  | cons group rest ih =>
      rw [List.forall_mem_cons] at h
      rw [List.flatten_cons, List.length_append, h.1, ih h.2, List.length_cons]
      omega

theorem cut_singleton (c : Char) : Cut [c] [c] :=
  ⟨[c], [], by simp, by simp, by simp, by simp, List.forall_mem_nil _⟩

/-- A digit in front of full groups stands alone, and any other joins the first group. -/
theorem Cut.cons (h : Cut ds cs) (c : Char) :
    Cut (c :: ds) (if ds.length % 3 = 0 then c :: ',' :: cs else c :: cs) := by
  obtain ⟨first, rest, rfl, rfl, hpos, hle, hrest⟩ := h
  have hlength : (first :: rest).flatten.length = first.length + 3 * rest.length := by
    rw [List.flatten_cons, List.length_append, length_flatten_of_forall hrest]
  split
  · next hfull =>
    have hfirst : first.length = 3 := by omega
    refine ⟨[c], first :: rest, ?_, rfl, by simp, by simp, ?_⟩
    · rw [List.intercalate_cons_cons]
      rfl
    · exact List.forall_mem_cons.2 ⟨hfirst, hrest⟩
  · next hopen =>
    refine ⟨c :: first, rest, ?_, rfl, by simp, ?_, hrest⟩
    · cases rest with
      | nil => simp
      | cons group rest => simp [List.intercalate_cons_cons]
    · rw [List.length_cons]
      omega

theorem cut_grouped (h : ds ≠ []) : Cut ds (grouped ds) := by
  induction ds with
  | nil => exact absurd rfl h
  | cons d rest ih =>
      cases rest with
      | nil => exact cut_singleton d
      | cons e rest =>
          have hcons := (ih (List.cons_ne_nil e rest)).cons d
          rw [grouped]
          simpa using hcons

theorem filter_grouped (h : ',' ∉ ds) : (grouped ds).filter (· ≠ ',') = ds := by
  induction ds with
  | nil => rfl
  | cons d rest ih =>
      rw [List.mem_cons, not_or] at h
      have hd : d ≠ ',' := Ne.symm h.1
      rw [grouped]
      split
      · simpa [hd] using ih h.2
      · simpa [hd] using ih h.2

/-! ### The plain text -/

/-- The digits of the magnitude in front of the point. -/
def wholeText (places : Nat) (x : Float) : List Char :=
  (Decimal.fixedParts places (Decimal.magnitude x)).1

/-- The point and the decimals, if any are asked for. -/
def fractionText (places : Nat) (x : Float) : List Char :=
  if places = 0 then [] else '.' :: (Decimal.fixedParts places (Decimal.magnitude x)).2

/-- The magnitude in fixed-point notation. -/
def plainText (places : Nat) (x : Float) : List Char := wholeText places x ++ fractionText places x

theorem isDigit_of_mem_wholeText : ∀ c ∈ wholeText places x, Decimal.isDigit c = true :=
  Decimal.isDigit_of_mem_digits

theorem wholeText_ne_nil : wholeText places x ≠ [] := Decimal.digits_ne_nil _

theorem of_mem_fractionText {c : Char} (h : c ∈ fractionText places x) :
    c = '.' ∨ Decimal.isDigit c = true := by
  rw [fractionText] at h
  split at h
  · cases h
  · next hplaces =>
    simp only [Decimal.fixedParts, hplaces, if_false, List.mem_cons] at h
    exact h.imp_right (Decimal.isDigit_of_mem_padded _ _ c)

theorem comma_notMem_wholeText : ',' ∉ wholeText places x := fun h =>
  absurd (isDigit_of_mem_wholeText _ h) (by decide)

theorem comma_notMem_fractionText : ',' ∉ fractionText places x := by
  intro h
  rcases of_mem_fractionText h with h | h
  · exact absurd h (by decide)
  · exact absurd h (by decide)

theorem magnitudeText_of_finite (h : Decimal.isFinite x = true) : magnitudeText places x =
    (if Decimal.valueOf (wholeText places x) < 2 ^ 128 then grouped (wholeText places x)
      else wholeText places x) ++ fractionText places x := by
  have hnumber : Decimal.isNotANumber x = false := by
    simp only [Decimal.isFinite, decide_eq_true_eq] at h
    simp [Decimal.isNotANumber, Nat.ne_of_lt h]
  rw [magnitudeText, hnumber, h, fractionText, wholeText]
  simp only [Bool.false_eq_true, if_false, Bool.not_true, Nat.pow_eq]
  by_cases hplaces : places = 0
  · simp only [hplaces, if_true, List.append_nil]
  · simp only [hplaces, if_false]

/-- Without its commas a magnitude is in plain notation, however large it is. -/
theorem filter_magnitudeText (h : Decimal.isFinite x = true) :
    (magnitudeText places x).filter (· ≠ ',') = plainText places x := by
  have hkeep : ∀ {cs : List Char}, ',' ∉ cs → cs.filter (· ≠ ',') = cs := fun hcs =>
    List.filter_eq_self.2 fun c hc => decide_eq_true fun heq => hcs (heq ▸ hc)
  rw [magnitudeText_of_finite h, List.filter_append, hkeep comma_notMem_fractionText, plainText]
  split
  · rw [filter_grouped comma_notMem_wholeText]
  · rw [hkeep comma_notMem_wholeText]

theorem minus_notMem_magnitudeText : '-' ∉ magnitudeText places x := by
  intro h
  cases hfinite : Decimal.isFinite x with
  | true =>
      have hplain : '-' ∈ plainText places x := by
        rw [← filter_magnitudeText hfinite]
        exact List.mem_filter.2 ⟨h, rfl⟩
      rcases List.mem_append.1 hplain with hc | hc
      · exact absurd (isDigit_of_mem_wholeText _ hc) (by decide)
      · rcases of_mem_fractionText hc with hc | hc
        · exact absurd hc (by decide)
        · exact absurd hc (by decide)
  | false =>
      rw [magnitudeText, hfinite] at h
      split at h
      · exact absurd h (by decide)
      · change '-' ∈ ['i', 'n', 'f'] at h
        exact absurd h (by decide)

/-! ### The sign -/

/-- The value is below zero and has a digit that is not zero in plain notation. -/
def Negative (places : Nat) (x : Float) : Prop :=
  x < 0.0 ∧ ∃ c ∈ plainText places x, Decimal.isDigit c = true ∧ c ≠ '0'

instance (places : Nat) (x : Float) : Decidable (Negative places x) :=
  inferInstanceAs (Decidable (_ ∧ _))

def signText (places : Nat) (x : Float) : List Char := if Negative places x then ['-'] else []

theorem showsSign_iff (h : Decimal.isFinite x = true) :
    showsSign places x = true ↔ Negative places x := by
  rw [showsSign, Bool.and_eq_true, List.any_eq_true, Negative, ← filter_magnitudeText h]
  refine and_congr decide_eq_true_iff (exists_congr fun c => ?_)
  rw [List.mem_filter, Bool.and_eq_true, decide_eq_true_iff, decide_eq_true_iff]
  constructor
  · rintro ⟨hc, hdigit, hzero⟩
    -- a digit is no comma, so taking the commas out leaves it
    exact ⟨⟨hc, fun heq => absurd (heq ▸ hdigit) (by decide)⟩, hdigit, hzero⟩
  · rintro ⟨⟨hc, -⟩, hdigit, hzero⟩
    exact ⟨hc, hdigit, hzero⟩

theorem toList_groupThousands (h : Decimal.isFinite x = true) :
    (groupThousands x places).toList = signText places x ++ magnitudeText places x := by
  rw [groupThousands, String.toList_ofList, signText]
  simp only [showsSign_iff h]

/-- How a value is laid out with a number of decimals. -/
structure LaidOut (places : Nat) (x : Float) (text : String) : Prop where
  plain : text.toList.filter (· ≠ ',') = signText places x ++ plainText places x
  cut : ∃ whole, text.toList = signText places x ++ whole ++ fractionText places x ∧
    Cut (wholeText places x) whole
  whole : ∀ c ∈ wholeText places x, Decimal.isDigit c = true
  /-- All commas are in the integer part. -/
  fraction : ',' ∉ fractionText places x

theorem laidOut_groupThousands (h : Decimal.isFinite x = true)
    (hbelow : Decimal.valueOf (wholeText places x) < 2 ^ 128) :
    LaidOut places x (groupThousands x places) where
  plain := by
    rw [toList_groupThousands h, List.filter_append, filter_magnitudeText h, signText]
    split
    · rfl
    · rfl
  cut := by
    refine ⟨grouped (wholeText places x), ?_, cut_grouped wholeText_ne_nil⟩
    rw [toList_groupThousands h, magnitudeText_of_finite h, if_pos hbelow, List.append_assoc]
  whole := isDigit_of_mem_wholeText
  fraction := comma_notMem_fractionText

/-- Values with an integer part of up to 128 bits are laid out in groups of three digits, and an
amount has its symbol between the sign and the magnitude, whatever the value and the currency. -/
theorem amounts_exact :
    (∀ x places, Decimal.isFinite x = true →
      Decimal.valueOf (wholeText places x) < 2 ^ 128 →
        LaidOut places x (groupThousands x places)) ∧
    ∀ x currency, ∃ sign magnitude : String, (sign = "" ∨ sign = "-") ∧
      '-' ∉ magnitude.toList ∧ groupThousands x 2 = sign ++ magnitude ∧
        amount x currency = sign ++ symbol currency ++ magnitude := by
  refine ⟨fun x places => laidOut_groupThousands, fun x currency => ?_⟩
  have hminus : '-' ∉ magnitudeText 2 x := minus_notMem_magnitudeText
  cases hsign : showsSign 2 x with
  | true =>
      have htext : (groupThousands x 2).toList = '-' :: magnitudeText 2 x := by
        simp [groupThousands, hsign]
      refine ⟨"-", String.ofList (magnitudeText 2 x), .inr rfl, ?_, ?_, ?_⟩
      · rwa [String.toList_ofList]
      · rw [← String.toList_inj, htext, String.toList_append]
        simp
      · simp only [amount, htext]
  | false =>
      have htext : (groupThousands x 2).toList = magnitudeText 2 x := by
        simp [groupThousands, hsign]
      refine ⟨"", String.ofList (magnitudeText 2 x), .inl rfl, ?_, ?_, ?_⟩
      · rwa [String.toList_ofList]
      · rw [← String.toList_inj, htext, String.empty_append, String.toList_ofList]
      · rw [amount, htext, String.empty_append]
        split
        · next magnitude hmagnitude => exact absurd (hmagnitude ▸ List.mem_cons_self) hminus
        · rfl

/-- Rounding carries into a new group. -/
theorem amounts_exact_rounded : LaidOut 2 (-999.999) "-1,000.00" := by
  have htext : groupThousands (-999.999) 2 = "-1,000.00" := by decide +kernel
  exact htext ▸ amounts_exact.1 (-999.999) 2 (by decide +kernel) (by decide +kernel)

end SpendAlerts.Money
