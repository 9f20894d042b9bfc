/-
  JSON numbers. The digits are gathered into a significand as long as it is a word of 64 bits;
  integer digits after that only move the point, and further digits behind the point are dropped.
  A number with a point or an exponent, and an integer that fits no word, is the significand times
  a power of ten, where every product and every quotient on the way is rounded.
-/
import Interpolation.Json.Basic
import Interpolation.Text.Numeral

namespace Interpolation.Json

open Text

/-- The parts of a number as written. The digits behind a point and the exponent may be missing. -/
structure NumberText where
  negative : Bool
  whole : List Char
  places : Option (List Char) := none
  exponent : Option Int := none
deriving DecidableEq, Repr

namespace NumberText

/-- Digits at the beginning of a text, at least one, and what follows them. -/
def digits? (cs : List Char) : Option (List Char × List Char) :=
  match cs.takeWhile isAsciiDigit with
  | [] => none
  | ds => some (ds, cs.dropWhile isAsciiDigit)

def natural (ds : List Char) : Nat := ds.foldl (fun n d => 10 * n + digitValue d) 0

/-- The exponent behind its letter. -/
def exponent? : List Char → Option (Int × List Char)
  | '-' :: cs => (digits? cs).map fun (ds, cs) => (-natural ds, cs)
  | '+' :: cs => (digits? cs).map fun (ds, cs) => (natural ds, cs)
  | cs => (digits? cs).map fun (ds, cs) => (natural ds, cs)

/-- Reads the exponent, if there is one. -/
def readExponent (n : NumberText) : List Char → Option (NumberText × List Char)
  | 'e' :: cs | 'E' :: cs => (exponent? cs).map fun (e, cs) => ({ n with exponent := some e }, cs)
  | cs => some (n, cs)

/-- Reads the places behind a point, if there is one, and the exponent. -/
def readPlaces (n : NumberText) : List Char → Option (NumberText × List Char)
  | '.' :: cs => do
    let (ds, cs) ← digits? cs
    readExponent { n with places := some ds } cs
  | cs => readExponent n cs

/-- Reads the part without a sign. Only a lone zero begins with a zero. -/
def readMagnitude (negative : Bool) (cs : List Char) : Option (NumberText × List Char) := do
  let (ds, cs) ← digits? cs
  if ds.head? = some '0' ∧ ds ≠ ['0'] then none
  else readPlaces { negative, whole := ds } cs

/-- A number at the beginning of a text, and what follows it. -/
def read? : List Char → Option (NumberText × List Char)
  | '-' :: cs => readMagnitude true cs
  | cs => readMagnitude false cs

/-- Gathers digits behind a significand; tells it, and how many digits were not taken. -/
def gather : Nat → List Char → Nat × Nat
  | n, [] => (n, 0)
  | n, d :: ds =>
    if 10 * n + digitValue d ≤ maxUnsigned then gather (10 * n + digitValue d) ds
    else (n, ds.length + 1)

/-- The power of ten whose exponent is at most 308. -/
def powerOfTen (e : Nat) : Binary64 := .ofNat (Nat.pow 10 e)

/-- A number times a power of ten, unless it is too large. -/
def scale (x : Binary64) (e : Int) : Option Binary64 :=
  if x = .ofFields false 0 then some x
  else if 308 < e then none
  else if 0 ≤ e then
    let y := x.product (powerOfTen e.toNat)
    if y = .infinity false then none else some y
  else if -308 ≤ e then some (x.quotient (powerOfTen (-e).toNat))
  else scale (x.quotient (powerOfTen 308)) (e + 308)
termination_by (-e).toNat

/-- The value of a number, unless it is too large. -/
def value? (n : NumberText) : Option Json :=
  let (significand, moved) := gather 0 n.whole
  if n.places = none ∧ n.exponent = none ∧ moved = 0 ∧
      (!n.negative ∨ (0 < significand ∧ significand ≤ maxSigned + 1)) then
    some (.integer (if n.negative then -significand else significand))
  else
    let places := n.places.getD []
    let (significand, dropped) := gather significand places
    let point : Int := moved - (places.length - dropped : Nat)
    (scale (.ofNat significand) (point + n.exponent.getD 0)).map fun x =>
      .float (if n.negative then x.neg else x)

end NumberText

end Interpolation.Json
