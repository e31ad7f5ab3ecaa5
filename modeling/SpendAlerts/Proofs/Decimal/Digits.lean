import SpendAlerts.Decimal.Digits
import Mathlib.Tactic.IntervalCases

/-!
Digits and the numbers they stand for. The digits of a number, with or without zeros in
front, are digits and nothing else, and their value is the number again. Of all texts, those
that write a number are read, and no other.
-/

namespace SpendAlerts.Decimal

theorem digit_spec {n : Nat} (h : n < 10) :
    isDigit (digit n) = true ∧ (digit n).toNat = 48 + n := by
  interval_cases n <;> decide

theorem exists_digit_of_isDigit {c : Char} (h : isDigit c = true) : ∃ n < 10, c = digit n := by
  simp only [isDigit, Bool.and_eq_true, decide_eq_true_eq, Char.le_def, UInt32.le_iff_toNat_le]
    at h
  obtain ⟨low, high⟩ := h
  have hlow : 48 ≤ c.toNat := low
  have hhigh : c.toNat ≤ 57 := high
  refine ⟨c.toNat - 48, by omega, ?_⟩
  rw [← Char.ofNat_toNat c]
  generalize c.toNat = n at hlow hhigh
  interval_cases n <;> decide

theorem digits_ne_nil (n : Nat) : digits n ≠ [] := by
  rw [digits]
  split <;> simp

theorem isDigit_of_mem_digits {n : Nat} : ∀ c ∈ digits n, isDigit c = true := by
  induction n using digits.induct with
  | case1 n h =>
      rw [digits]
      simpa [h] using (digit_spec h).1
  | case2 n h ih =>
      intro c hc
      rw [digits] at hc
      simp only [h, if_false, List.mem_append, List.mem_singleton] at hc
      rcases hc with hc | rfl
      · exact ih c hc
      · exact (digit_spec (Nat.mod_lt n (by decide))).1

theorem valueOf_append_singleton (cs : List Char) (c : Char) :
    valueOf (cs ++ [c]) = 10 * valueOf cs + (c.toNat - 48) := by
  simp [valueOf]

theorem valueOf_digits (n : Nat) : valueOf (digits n) = n := by
  induction n using digits.induct with
  | case1 n h =>
      rw [digits]
      simp [h, valueOf, (digit_spec h).2]
  | case2 n h ih =>
      rw [digits]
      have := (digit_spec (Nat.mod_lt n (by decide : 0 < 10))).2
      simp only [h, if_false, valueOf_append_singleton, ih, this]
      omega

theorem digits_injective {n m : Nat} (h : digits n = digits m) : n = m := by
  rw [← valueOf_digits n, h, valueOf_digits]

theorem signed_injective {n m : Int} (h : signed n = signed m) : n = m := by
  have hsign : ∀ k l : Nat, digits k ≠ '-' :: digits l := by
    intro k l hkl
    have hdigit := isDigit_of_mem_digits '-' (hkl ▸ List.mem_cons_self)
    exact absurd hdigit (by decide)
  cases n with
  | ofNat n =>
      cases m with
      | ofNat m => rw [digits_injective h]
      | negSucc m => exact absurd h (hsign n (m + 1))
  | negSucc n =>
      cases m with
      | ofNat m => exact absurd h.symm (hsign m (n + 1))
      | negSucc m =>
          have hsucc := digits_injective (List.cons.inj h).2
          rw [Nat.succ.inj hsucc]

theorem valueOf_zeros (k : Nat) (cs : List Char) :
    valueOf (List.replicate k '0' ++ cs) = valueOf cs := by
  induction k with
  | zero => rfl
  | succ k ih => simpa [List.replicate_succ, valueOf] using ih

theorem valueOf_padded (width n : Nat) : valueOf (padded width n) = n := by
  rw [padded, valueOf_zeros, valueOf_digits]

theorem padded_injective {width n m : Nat} (h : padded width n = padded width m) : n = m := by
  rw [← valueOf_padded width n, h, valueOf_padded]

theorem isDigit_of_mem_padded (width n : Nat) : ∀ c ∈ padded width n, isDigit c = true := by
  intro c hc
  rcases List.mem_append.1 hc with hc | hc
  · rw [List.eq_of_mem_replicate hc]
    decide
  · exact isDigit_of_mem_digits c hc

theorem length_digits_le {n k : Nat} (hk : 0 < k) (h : n < 10 ^ k) : (digits n).length ≤ k := by
  induction n using digits.induct generalizing k with
  | case1 n hn =>
      rw [digits]
      simpa [hn] using Nat.succ_le_of_lt hk
  | case2 n hn ih =>
      rw [digits]
      cases k with
      | zero => omega
      | succ k =>
          have hk' : 0 < k := by
            rcases Nat.eq_zero_or_pos k with rfl | hk'
            · omega
            · exact hk'
          have := ih hk' (by rw [Nat.pow_succ] at h; omega)
          simp only [hn, if_false, List.length_append, List.length_singleton]
          omega

theorem length_padded (width n : Nat) (hw : 0 < width) (h : n < 10 ^ width) :
    (padded width n).length = width := by
  have := length_digits_le hw h
  simp only [padded, List.length_append, List.length_replicate]
  omega

theorem padded_ne_nil (width n : Nat) : padded width n ≠ [] := by
  simp [padded, digits_ne_nil]

/-- At least one digit and nothing else. -/
def Numeral (cs : List Char) : Prop := cs ≠ [] ∧ ∀ c ∈ cs, isDigit c = true

/-- The text writes the number, with a sign or without one. -/
inductive Writes : List Char → Int → Prop where
  | plain {ds : List Char} (numeral : Numeral ds) : Writes ds (valueOf ds)
  | plus {ds : List Char} (numeral : Numeral ds) : Writes ('+' :: ds) (valueOf ds)
  | minus {ds : List Char} (numeral : Numeral ds) : Writes ('-' :: ds) (-(valueOf ds : Int))

theorem numeral_padded (width n : Nat) : Numeral (padded width n) :=
  ⟨padded_ne_nil width n, isDigit_of_mem_padded width n⟩

theorem writes_padded (width n : Nat) : Writes (padded width n) n := by
  have hwrites := Writes.plain (numeral_padded width n)
  rwa [valueOf_padded] at hwrites

theorem readNat?_eq_some_iff {cs : List Char} {n : Nat} :
    readNat? cs = some n ↔ Numeral cs ∧ valueOf cs = n := by
  simp [readNat?, Numeral]

/-- Exactly the written numbers are read, each as what is written. -/
theorem readInt?_eq_some_iff {cs : List Char} {n : Int} : readInt? cs = some n ↔ Writes cs n := by
  constructor
  · intro h
    rw [readInt?.eq_def] at h
    split at h
    · obtain ⟨k, hk, rfl⟩ := Option.map_eq_some_iff.1 h
      obtain ⟨m, hm, hmk⟩ := Option.bind_eq_some_iff.1 hk
      cases hmk
      obtain ⟨hnumeral, rfl⟩ := readNat?_eq_some_iff.1 hm
      exact .minus hnumeral
    · obtain ⟨k, hk, rfl⟩ := Option.map_eq_some_iff.1 h
      obtain ⟨hnumeral, rfl⟩ := readNat?_eq_some_iff.1 hk
      exact .plus hnumeral
    · obtain ⟨k, hk, rfl⟩ := Option.map_eq_some_iff.1 h
      obtain ⟨hnumeral, rfl⟩ := readNat?_eq_some_iff.1 hk
      exact .plain hnumeral
  · intro h
    cases h with
    | plus numeral | minus numeral =>
        simp [readInt?, readNat?_eq_some_iff.2 ⟨numeral, rfl⟩]
    | plain numeral =>
        have hread := readNat?_eq_some_iff.2 ⟨numeral, rfl⟩
        -- A sign is no digit, so the first character decides.
        have hsign (c : Char) (rest : List Char) (hc : isDigit c = false) : cs ≠ c :: rest := by
          rintro rfl
          exact absurd (numeral.2 c List.mem_cons_self) (by simp [hc])
        rw [readInt?.eq_def]
        split
        · exact absurd rfl (hsign '-' _ (by decide))
        · exact absurd rfl (hsign '+' _ (by decide))
        · simp [hread]

end SpendAlerts.Decimal
