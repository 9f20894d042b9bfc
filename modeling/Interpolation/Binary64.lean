/-
  Binary64 numbers: 64 bits that hold a sign, an exponent of eleven bits and a fraction of 52.
  A number is read as `significand · 2 ^ exponent`, and a fraction of natural numbers is rounded
  to the nearest number, an exact half to the even significand.
-/
namespace Interpolation

structure Binary64 where
  bits : UInt64
deriving DecidableEq, Repr

namespace Binary64

/-- What a number is apart from its sign. -/
inductive Magnitude where
  | nan
  | infinite
  /-- `significand · 2 ^ exponent` -/
  | finite (significand : Nat) (exponent : Int)
deriving DecidableEq, Repr

/-- The sign bit is set; so it is for negative zero and may be for a NaN. -/
def isNegative (x : Binary64) : Bool := Nat.pow 2 63 ≤ x.bits.toNat

/-- The exponent field of eleven bits. -/
def exponentField (x : Binary64) : Nat := x.bits.toNat / Nat.pow 2 52 % Nat.pow 2 11

/-- The fraction field of 52 bits. -/
def fractionField (x : Binary64) : Nat := x.bits.toNat % Nat.pow 2 52

def magnitude (x : Binary64) : Magnitude :=
  if x.exponentField = 2047 then if x.fractionField = 0 then .infinite else .nan
  else if x.exponentField = 0 then .finite x.fractionField (-1074)
  else .finite (Nat.pow 2 52 + x.fractionField) (x.exponentField - 1075)

def isNaN (x : Binary64) : Bool := x.magnitude == .nan

/-- The number with the given sign and the 63 bits of its magnitude. -/
def ofFields (negative : Bool) (magnitude : Nat) : Binary64 :=
  ⟨.ofNat ((if negative then Nat.pow 2 63 else 0) + magnitude)⟩

def infinity (negative : Bool) : Binary64 := ofFields negative (2047 * Nat.pow 2 52)

def nan : Binary64 := ofFields false (2047 * Nat.pow 2 52 + Nat.pow 2 51)

/-- A quotient of natural numbers rounded to the nearest one, an exact half to the even one. -/
def roundQuotient (num den : Nat) : Nat :=
  let q := num / den
  let r := num % den
  if 2 * r < den ∨ (2 * r = den ∧ q % 2 = 0) then q else q + 1

/-- `significand · 2 ^ exponent` as a numerator and a denominator. -/
def fraction (significand : Nat) (exponent : Int) : Nat × Nat :=
  (significand * Nat.pow 2 exponent.toNat, Nat.pow 2 (-exponent).toNat)

/-- The greatest `e` with `2 ^ e ≤ num / den`, for a positive fraction. -/
def binaryPlace (num den : Nat) : Int :=
  let guess : Int := num.log2 - den.log2
  if den * Nat.pow 2 guess.toNat ≤ num * Nat.pow 2 (-guess).toNat then guess else guess - 1

/-- The number nearest to `num / den`; beyond the largest one it is infinite. -/
def ofFraction (negative : Bool) (num den : Nat) : Binary64 :=
  let exponent := max (binaryPlace num den - 52) (-1074)
  let significand :=
    roundQuotient (num * Nat.pow 2 (-exponent).toNat) (den * Nat.pow 2 exponent.toNat)
  if significand < Nat.pow 2 52 then ofFields negative significand
  else
    let field := (exponent + 1075).toNat
    if 2047 * Nat.pow 2 52 ≤ field * Nat.pow 2 52 + (significand - Nat.pow 2 52) then
      infinity negative
    else ofFields negative (field * Nat.pow 2 52 + (significand - Nat.pow 2 52))

def ofNat (n : Nat) : Binary64 := ofFraction false n 1

def ofInt (n : Int) : Binary64 := ofFraction (n < 0) n.natAbs 1

/-- The number that a binary32 word stands for: eight bits of exponent, 23 of fraction. -/
def ofBinary32 (word : UInt32) : Binary64 :=
  let negative : Bool := Nat.pow 2 31 ≤ word.toNat
  let field : Nat := word.toNat / Nat.pow 2 23 % Nat.pow 2 8
  let fractionField : Nat := word.toNat % Nat.pow 2 23
  if field = 255 then if fractionField = 0 then infinity negative else nan
  else
    let (num, den) :=
      if field = 0 then fraction fractionField (-149)
      else fraction (Nat.pow 2 23 + fractionField) (field - 150)
    ofFraction negative num den

/-- The number without its sign. -/
def abs (x : Binary64) : Binary64 := ofFields false (x.bits.toNat % Nat.pow 2 63)

/-- The number with the other sign. -/
def neg (x : Binary64) : Binary64 := ofFields (!x.isNegative) (x.bits.toNat % Nat.pow 2 63)

/-- A finite magnitude as a numerator and a denominator. -/
def ratio (x : Binary64) : Nat × Nat :=
  match x.magnitude with
  | .finite m q => fraction m q
  | _ => (0, 1)

/-- The product of two finite magnitudes. -/
def product (x y : Binary64) : Binary64 :=
  ofFraction false (x.ratio.1 * y.ratio.1) (x.ratio.2 * y.ratio.2)

/-- The quotient of two finite magnitudes. -/
def quotient (x y : Binary64) : Binary64 :=
  ofFraction false (x.ratio.1 * y.ratio.2) (x.ratio.2 * y.ratio.1)

/-- Equality of numbers: a NaN differs from itself, and both zeros are equal. -/
def same (x y : Binary64) : Bool :=
  !x.isNaN && !y.isNaN && (x == y || (x.abs == ofFields false 0 && y.abs == ofFields false 0))

end Binary64

end Interpolation
