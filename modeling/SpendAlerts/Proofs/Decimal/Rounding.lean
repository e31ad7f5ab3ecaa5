import SpendAlerts.Decimal.Binary64
import Mathlib

/-!
The doubles nearest to whole numbers. Rounding a number of 64 bits shifts it by few
places, so the exponent stays far below that of an infinity, and the double is finite.
The bounds are generous; what the double is worth does not matter here.
-/

namespace SpendAlerts.Decimal

open Float.Model Float.Model.UnpackedFloat

/-- A number that is packed without overflow. -/
def Packable : UnpackedFloat → Prop
  | .zero _ => True
  | .finite _ _ e _ => e < 972
  | _ => False

theorem mantissa_shiftRight_le (em : ExtendedMantissa) (k : Nat) :
    (em >>> k).mantissa ≤ em.mantissa := by
  change (k.repeat ExtendedMantissa.shiftRightOne em).mantissa ≤ em.mantissa
  induction k with
  | zero => exact Nat.le_refl _
  | succ k ih => exact Nat.le_trans (Nat.div_le_self _ 2) ih

theorem roundedMantissa_le (em : ExtendedMantissa) : em.roundedMantissa ≤ em.mantissa + 1 := by
  obtain ⟨m, round, sticky⟩ := em
  cases round <;> cases sticky <;>
    simp [ExtendedMantissa.roundedMantissa, ExtendedMantissa.accuracy,
      Accuracy.roundToNearestEven]
  omega

theorem log2_le_of_lt {n k : Nat} (h : n < 2 ^ (k + 1)) : n.log2 ≤ k := by
  by_cases hn : n = 0
  · subst hn
    exact Nat.zero_le k
  · exact Nat.le_of_lt_succ ((Nat.log2_lt hn).2 h)

theorem shiftToTargetExponent_le (m : Nat) {e bound : Int} (he : e ≤ bound)
    (hm : (m.log2 : Int) + 1 + e ≤ bound + 53) (hlow : -1074 ≤ bound) :
    (shiftToTargetExponent Format.binary64 m e .exact).1.mantissa ≤ m ∧
      (shiftToTargetExponent Format.binary64 m e .exact).2 ≤ bound := by
  simp only [shiftToTargetExponent, shiftToExponent, Format.targetExponent, totalExponent,
    Format.mantissaBits, Format.minExponent]
  refine ⟨mantissa_shiftRight_le _ _, ?_⟩
  norm_num
  omega

theorem packable_roundWithAccuracy (sign : Sign) {m : Nat} {e : Int} (hm : m < 2 ^ 64)
    (he : e ≤ 0) (hlog : (m.log2 : Int) + e ≤ 63) :
    Packable (roundWithAccuracy Format.binary64 sign m e .exact) := by
  have hfirst : e ≤ 11 ∧ (m.log2 : Int) + 1 + e ≤ 11 + 53 := by omega
  obtain ⟨hm₁, he₁⟩ := shiftToTargetExponent_le m hfirst.1 hfirst.2 (by decide)
  rw [roundWithAccuracy]
  generalize shiftToTargetExponent Format.binary64 m e .exact = first at hm₁ he₁
  obtain ⟨em₁, e₁⟩ := first
  have hrounded : em₁.roundedMantissa.log2 ≤ 64 := by
    have := roundedMantissa_le em₁
    exact log2_le_of_lt (by simp only at hm₁; omega)
  have hsecond : e₁ ≤ 23 ∧ (em₁.roundedMantissa.log2 : Int) + 1 + e₁ ≤ 23 + 53 := by
    simp only at he₁
    omega
  have he₂ := (shiftToTargetExponent_le em₁.roundedMantissa hsecond.1 hsecond.2 (by decide)).2
  simp only
  split
  · trivial
  · change _ < _
    omega

theorem packable_round (sign : Sign) {m : Nat} (hm : m < 2 ^ 64) :
    Packable (UnpackedFloat.round Format.binary64 sign m 0) := by
  have hlog : m.log2 ≤ 63 := log2_le_of_lt hm
  simp only [UnpackedFloat.round, decreaseExponent]
  have hshift : m.log2 + 1 +
      (0 - Format.binary64.targetExponent (totalExponent m 0)).toNat ≤ 64 := by
    simp only [Format.targetExponent, totalExponent, Format.mantissaBits, Format.minExponent]
    norm_num
    omega
  generalize (0 - Format.binary64.targetExponent (totalExponent m 0)).toNat = k at hshift ⊢
  have hlt : m <<< k < 2 ^ (m.log2 + k + 1) := by
    rw [Nat.shiftLeft_eq, show m.log2 + k + 1 = (m.log2 + 1) + k by omega, Nat.pow_add]
    exact Nat.mul_lt_mul_of_pos_right Nat.lt_log2_self (Nat.two_pow_pos k)
  have hle := log2_le_of_lt hlt
  refine packable_roundWithAccuracy sign ?_ (by omega) (by omega)
  exact Nat.lt_of_lt_of_le hlt (Nat.pow_le_pow_right (by decide) (by omega))

theorem packable_ofInt {n : Int} (h : n.natAbs < 2 ^ 64) :
    Packable (UnpackedFloat.ofInt Format.binary64 n) := by
  rw [UnpackedFloat.ofInt, UnpackedFloat.normalize]
  cases compare n 0 with
  | lt => exact packable_round _ (by omega)
  | eq => trivial
  | gt => exact packable_round _ (by omega)

theorem exponentBits_ofModel (m : Float.Model) :
    exponentBits (.ofModel m) = (@unpackExponent Format.binary64 m.toBits.toBitVec).toNat := by
  simp [exponentBits, Float.toBits, unpackExponent, BitVec.extractLsb, BitVec.extractLsb',
    Nat.shiftRight_eq_div_pow]

theorem isFinite_pack {f : UnpackedFloat} (h : Packable f) :
    isFinite (.ofModel (Float.Model.pack f)) = true := by
  simp only [isFinite, decide_eq_true_eq, exponentBits_ofModel, Float.Model.pack]
  cases f with
  | infinity sign => cases h
  | notANumber => cases h
  | zero sign =>
      change (unpackExponent (packComponents Format.binary64 _ _ _)).toNat < 2047
      rw [unpackExponent_packComponents]
      decide
  | finite sign m e hm =>
      have hbiased : (e + Format.binary64.exponentBias + 52).toNat < 2047 := by
        change e < 972 at h
        have hbias : Format.binary64.exponentBias = 1023 := rfl
        omega
      simp only [UnpackedFloat.pack]
      split
      · next hlarge => exact absurd hlarge (by omega)
      · split
        · rw [unpackExponent_packComponents, BitVec.toNat_ofNat]
          exact Nat.lt_of_le_of_lt (Nat.mod_le _ _) hbiased
        · rw [unpackExponent_packComponents]
          decide

/-- Whole numbers of 64 bits have finite doubles. -/
theorem isFinite_ofInt {n : Int} (h : n.natAbs < 2 ^ 64) : isFinite (ofInt n) = true :=
  isFinite_pack (packable_ofInt h)

end SpendAlerts.Decimal
