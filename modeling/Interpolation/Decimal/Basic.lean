/-
  Decimal numbers `coefficient · 10 ^ exponent`, and the two ways to lay out their digits:
  positional and with an exponent.
-/
import Interpolation.Text.Numeral

namespace Interpolation

open Text

/-- The number `coefficient · 10 ^ exponent`. -/
structure Decimal where
  coefficient : Nat
  exponent : Int
deriving DecidableEq, Repr

namespace Decimal

def digits (d : Decimal) : List Char := Nat.toDigits 10 d.coefficient

/-- Digits with a point before the last `places` of them, and at least one digit before it. -/
def withPoint (places : Nat) (ds : List Char) : List Char :=
  let ds := zeroFill (places + 1) ds
  let whole := ds.take (ds.length - places)
  if places = 0 then whole else whole ++ '.' :: ds.drop (ds.length - places)

/-- All digits in their places, a point only before places below the units. -/
def positional (d : Decimal) : List Char :=
  withPoint (-d.exponent).toNat (d.digits ++ List.replicate d.exponent.toNat '0')

/-- One digit, `places` digits behind a point, and the exponent that `write` lays out. -/
def scientific (places : Nat) (write : Int → List Char) (d : Decimal) : List Char :=
  withPoint places d.digits ++ write (d.exponent + places)

end Decimal

end Interpolation
