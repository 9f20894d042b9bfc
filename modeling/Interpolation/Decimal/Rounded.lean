/-
  Decimals of a wanted length: with a fixed number of places, or with a fixed number of digits.
  The exact value is rounded to the nearest such decimal, an exact half to the even one.
-/
import Interpolation.Decimal.Shortest

namespace Interpolation.Decimal

/-- The fraction `num / den` with the given number of places. -/
def fixed (places num den : Nat) : Decimal :=
  ⟨Binary64.roundQuotient (num * Nat.pow 10 places) den, -places⟩

/-- The fraction `num / den` with one digit and the given number of places behind it. -/
def significant (places num den : Nat) : Decimal :=
  if num = 0 then ⟨0, -places⟩ else
  let grid := decimalPlace num den - 1 - places
  let c := Binary64.roundQuotient (num * Nat.pow 10 (-grid).toNat) (den * Nat.pow 10 grid.toNat)
  if c = Nat.pow 10 (places + 1) then ⟨Nat.pow 10 places, grid + 1⟩ else ⟨c, grid⟩

end Interpolation.Decimal
