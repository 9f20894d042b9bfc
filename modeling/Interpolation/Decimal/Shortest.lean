/-
  Shortest digits: the decimal with the fewest digits that reads back as a given binary64 number,
  and among those the one nearest to it. A number `m · 2 ^ q` is read back from every real of an
  interval around it, ends included if `m` is even. On the grid of decimals with a given number
  of digits only the two neighbours of the number have to be tried.
-/
import Interpolation.Binary64
import Interpolation.Decimal.Basic

namespace Interpolation.Decimal

/-- Which of two equally near neighbours is taken. -/
inductive Tie where
  | up
  | even
deriving DecidableEq, Repr

/-- The number of decimal digits of a natural number. -/
def digitCount (n : Nat) : Nat := (Nat.toDigits 10 n).length

/-- The `k` with `10 ^ (k - 1) ≤ num / den < 10 ^ k`, for a positive fraction. -/
def decimalPlace (num den : Nat) : Int :=
  if den ≤ num then digitCount (num / den) else 1 - digitCount ((den - 1) / num)

/-- The distances from a number to the two ends of its interval, in quarters of a unit in the
last place: half a unit, but a quarter of it below a power of two. -/
def halfGaps (significand : Nat) : Nat × Nat :=
  (if significand = Nat.pow 2 52 then 1 else 2, 2)

/-- The neighbour of `significand · 2 ^ exponent` with the given number of digits that lies in its
interval, if there is one; of two the nearer. `place` is the number's decimal place. -/
def neighbour (tie : Tie) (significand : Nat) (exponent place : Int) (count : Nat) :
    Option Decimal :=
  let grid := place - count
  let (below, above) := halfGaps significand
  let scale := Nat.pow 2 (exponent - 2).toNat * Nat.pow 10 (-grid).toNat
  let unit := Nat.pow 2 (2 - exponent).toNat * Nat.pow 10 grid.toNat
  let value := 4 * significand * scale
  let low := (4 * significand - below) * scale
  let high := (4 * significand + above) * scale
  let inside (n : Nat) : Bool :=
    if significand % 2 = 0 then low ≤ n * unit && n * unit ≤ high
    else low < n * unit && n * unit < high
  let lower := value / unit
  let upper := lower + 1
  let lowerDistance := value - lower * unit
  let upperDistance := upper * unit - value
  let preferUpper := upperDistance < lowerDistance ||
    (upperDistance == lowerDistance && (tie == .up || lower % 2 == 1))
  if inside upper && (!inside lower || preferUpper) then
    some (if upper = Nat.pow 10 count then ⟨1, place⟩ else ⟨upper, grid⟩)
  else if inside lower then some ⟨lower, grid⟩
  else none

/-- The shortest decimal of `significand · 2 ^ exponent`; seventeen digits are always enough. -/
def shortest (tie : Tie) (significand : Nat) (exponent : Int) : Decimal :=
  if significand = 0 then ⟨0, 0⟩ else
  let (num, den) := Binary64.fraction significand exponent
  let place := decimalPlace num den
  ((List.range' 1 17).findSome? (neighbour tie significand exponent place)).getD ⟨0, 0⟩

end Interpolation.Decimal
