/-
  Rounded fractions. A fraction is rounded to a binary64 number with its sign, and never to a NaN
  (`isNegative_ofFraction`, `isNaN_ofFraction`): the fields of what it is rounded to reach at most
  up to those of infinity (`ofFraction_eq`).
-/
import Interpolation.Binary64

namespace Interpolation.Binary64

/-- The fields that stand for infinity. -/
def infiniteFields : Nat := 2047 * Nat.pow 2 52

/-- A fraction is rounded to fields that do not reach beyond those of infinity. -/
theorem ofFraction_eq (negative : Bool) (num den : Nat) :
    ∃ fields ≤ infiniteFields, ofFraction negative num den = ofFields negative fields := by
  have hinfinite : infiniteFields = 2047 * 4503599627370496 := rfl
  unfold ofFraction
  dsimp only
  split
  · next hlt =>
    refine ⟨_, ?_, rfl⟩
    have hpow : Nat.pow 2 52 = 4503599627370496 := rfl
    omega
  · split
    · exact ⟨infiniteFields, Nat.le_refl _, rfl⟩
    · next hlt => exact ⟨_, Nat.le_of_lt (Nat.lt_of_not_le hlt), rfl⟩

theorem toNat_ofFields (negative : Bool) {fields : Nat} (h : fields ≤ infiniteFields) :
    (ofFields negative fields).bits.toNat = (if negative then Nat.pow 2 63 else 0) + fields := by
  have hinfinite : infiniteFields = 9218868437227405312 := rfl
  refine UInt64.toNat_ofNat_of_lt ?_
  have hsize : UInt64.size = 18446744073709551616 := rfl
  have hpow : Nat.pow 2 63 = 9223372036854775808 := rfl
  split <;> omega

theorem isNegative_ofFields (negative : Bool) {fields : Nat} (h : fields ≤ infiniteFields) :
    (ofFields negative fields).isNegative = negative := by
  have hinfinite : infiniteFields = 9218868437227405312 := rfl
  have hpow : Nat.pow 2 63 = 9223372036854775808 := rfl
  unfold isNegative
  rw [toNat_ofFields negative h]
  cases negative
  · exact decide_eq_false (by simp only [Bool.false_eq_true, if_false]; omega)
  · exact decide_eq_true (by simp only [if_true]; omega)

theorem isNaN_ofFields (negative : Bool) {fields : Nat} (h : fields ≤ infiniteFields) :
    (ofFields negative fields).isNaN = false := by
  have hinfinite : infiniteFields = 9218868437227405312 := rfl
  have hpow : Nat.pow 2 63 = 9223372036854775808 := rfl
  -- the exponent field is that of a NaN only for infinity, where the fraction field is zero
  have hfields : (ofFields negative fields).exponentField = 2047 →
      (ofFields negative fields).fractionField = 0 := by
    show (ofFields negative fields).bits.toNat / 4503599627370496 % 2048 = 2047 →
      (ofFields negative fields).bits.toNat % 4503599627370496 = 0
    rw [toNat_ofFields negative h]
    cases negative
    · simp only [Bool.false_eq_true, if_false]
      omega
    · simp only [if_true]
      omega
  unfold isNaN magnitude
  split
  · next hexponent =>
    rw [if_pos (hfields hexponent)]
    rfl
  · split <;> rfl

theorem isNegative_ofFraction (negative : Bool) (num den : Nat) :
    (ofFraction negative num den).isNegative = negative := by
  obtain ⟨fields, hle, heq⟩ := ofFraction_eq negative num den
  rw [heq, isNegative_ofFields negative hle]

theorem isNaN_ofFraction (negative : Bool) (num den : Nat) :
    (ofFraction negative num den).isNaN = false := by
  obtain ⟨fields, hle, heq⟩ := ofFraction_eq negative num den
  rw [heq, isNaN_ofFields negative hle]

end Interpolation.Binary64
