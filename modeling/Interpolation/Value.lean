/-
  Values: the arguments of a pattern. Every value has a text of its own, which a placeholder
  without a formatter shows; integers are words of 64 bits, and a value counts as unsigned only
  if it was given so or does not fit a signed word.
-/
import Interpolation.Calendar.Directive
import Interpolation.Decimal.Rounded

namespace Interpolation

open Text Calendar

inductive Value where
  | null
  | bool (b : Bool)
  | int (n : Int64)
  | uint (n : UInt64)
  | float (x : Binary64)
  | str (s : String)
  | time (m : Moment)
deriving DecidableEq, Repr

/-- A number in the shortest form that reads back, without an exponent. -/
def Binary64.text (x : Binary64) : String :=
  let sign := if x.isNegative then ['-'] else []
  match x.magnitude with
  | .nan => "NaN"
  | .infinite => String.ofList (sign ++ ['i', 'n', 'f'])
  | .finite significand exponent =>
    String.ofList (sign ++ (Decimal.shortest .up significand exponent).positional)

namespace Value

def typeName : Value → String
  | null => "null"
  | bool _ => "bool"
  | int _ => "int"
  | uint _ => "uint"
  | float _ => "float"
  | str _ => "str"
  | time _ => "time"

/-- The text of a value. -/
def text : Value → String
  | null => "null"
  | bool b => if b then "true" else "false"
  | int n => decimalInt n.toInt
  | uint n => decimal n.toNat
  | float x => x.text
  | str s => s
  | time m => m.layOut defaultLayout

def isInteger : Value → Bool
  | int _ | uint _ => true
  | _ => false

/-- The value as a signed word: of an integer that fits, or 0 and 1 of a truth value. -/
def asInt? : Value → Option Int64
  | int n => some n
  | uint n => if n.toNat ≤ maxSigned then some (.ofNat n.toNat) else none
  | bool b => some (if b then 1 else 0)
  | _ => none

/-- The value as a number, rounded if it is an integer. -/
def asFloat? : Value → Option Binary64
  | int n => some (.ofInt n.toInt)
  | uint n => some (.ofNat n.toNat)
  | float x => some x
  | _ => none

/-- Equality of values: of one type, and numbers by their value. -/
def same : Value → Value → Bool
  | float x, float y => x.same y
  | v, w => v == w

end Value

end Interpolation
