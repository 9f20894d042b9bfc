/-
  How the printf formatter renders a value. A number is kept in three parts, so that zeros can go
  between its sign and its digits. A verb that does not apply to a value counts as generic.
-/
import Interpolation.Formatter.Printf.Spec
import Interpolation.Text.Quoted
import Interpolation.Text.Utf8

namespace Interpolation.Formatter.Printf

open Text

/-- A number before its sign is chosen and its width filled. -/
structure Figure where
  negative : Bool
  /-- what tells the base of the digits -/
  mark : List Char := []
  digits : List Char
deriving DecidableEq, Repr

namespace Radix

def base : Radix → Nat
  | decimal => 10
  | octal => 8
  | binary => 2
  | hexadecimal _ => 16

/-- What stands before the digits in the alternate form. -/
def mark : Radix → List Char
  | decimal => []
  | octal => ['0']
  | binary => ['0', 'b']
  | hexadecimal false => ['0', 'x']
  | hexadecimal true => ['0', 'X']

def upper : Radix → Bool
  | hexadecimal b => b
  | _ => false

end Radix

/-- Letters in upper case, if wanted. -/
def uppercase (upper : Bool) (cs : List Char) : List Char :=
  if upper then cs.map Char.toUpper else cs

/-- An exponent with a sign and at least two digits. -/
def exponentText (e : Int) : List Char :=
  'e' :: (if e < 0 then '-' else '+') :: zeroFill 2 (Nat.toDigits 10 e.natAbs)

/-- A magnitude with a fixed number of digits behind the point. -/
def fixedText (places : Nat) : Binary64.Magnitude → List Char
  | .nan => ['N', 'a', 'N']
  | .infinite => ['i', 'n', 'f']
  | .finite m q =>
    let (num, den) := Binary64.fraction m q
    (Decimal.fixed places num den).positional

/-- The same with one digit before the point and an exponent. -/
def scientificText (places : Nat) : Binary64.Magnitude → List Char
  | .finite m q =>
    let (num, den) := Binary64.fraction m q
    (Decimal.significant places num den).scientific places exponentText
  | x => fixedText places x

/-- The bytes of a text in hexadecimal, two digits each. -/
def hexBytes (s : String) : List Char :=
  (utf8 s).flatMap fun b => zeroFill 2 (Nat.toDigits 16 b.toNat)

/-- The sign and the size of an integer. -/
def integerParts? : Value → Option (Bool × Nat)
  | .int n => some (n.toInt < 0, n.toInt.natAbs)
  | .uint n => some (false, n.toNat)
  | _ => none

/-- The character whose code point is the given integer. -/
def characterOf? (v : Value) : Option Char := do
  if !v.isInteger then none
  let n ← v.asInt?
  if 0 ≤ n.toInt ∧ n.toInt.toNat.isValidChar then some (Char.ofNat n.toInt.toNat) else none

namespace Settings

def sign (s : Settings) (negative : Bool) : List Char :=
  if negative then ['-']
  else if s.flags.plus then ['+']
  else if s.flags.space then [' ']
  else []

/-- Fills up to the width with spaces. -/
def fill (s : Settings) (body : List Char) : List Char :=
  let fill := List.replicate (s.width.getD 0 - body.length) ' '
  if s.flags.left then body ++ fill else fill ++ body

/-- Fills up to the width, with zeros behind the sign if the flags say so. Zeros are counted
against the bytes of the number, spaces against its characters. -/
def fillFigure (s : Settings) (n : Figure) : List Char :=
  let head := s.sign n.negative ++ n.mark
  if s.flags.zero && !s.flags.left then
    let size := utf8Size head + utf8Size n.digits
    head ++ (List.replicate (s.width.getD 0 - size) '0' ++ n.digits)
  else s.fill (head ++ n.digits)

/-- The text, up to the precision. -/
def cut (s : Settings) (cs : List Char) : List Char :=
  match s.precision with
  | none => cs
  | some n => cs.take n

def integer? (s : Settings) (radix : Radix) (v : Value) : Option Figure :=
  (integerParts? v).map fun (negative, n) => {
    negative
    mark := if s.flags.alternate then radix.mark else []
    digits := uppercase radix.upper (Nat.toDigits radix.base n) }

/-- The text of a magnitude as the verb asks for it, with six places unless the precision says
otherwise. A verb that asks for no float leaves it with fixed places. -/
def magnitudeText (s : Settings) (x : Binary64.Magnitude) : List Char :=
  let places := s.precision.getD 6
  match s.verb with
  | .scientific upper => uppercase upper (scientificText places x)
  | .fixed upper => uppercase upper (fixedText places x)
  | _ => fixedText places x

def float? (s : Settings) (v : Value) : Option Figure :=
  v.asFloat?.map fun x => {
    negative := x.isNegative && !x.isNaN
    digits := s.magnitudeText x.magnitude }

/-- A text that may begin with a minus sign, as a number. -/
def figureOf : List Char → Figure
  | '-' :: ds => { negative := true, digits := ds }
  | ds => { negative := false, digits := ds }

/-- The text of a value. Numbers get a sign and zeros as the flags say, and a precision gives a
float that many places; other texts are cut to it. -/
def plain (s : Settings) (v : Value) : List Char :=
  match v, s.precision with
  | .float _, some _ => ((s.float? v).map s.fillFigure).getD []
  | .float _, none | .int _, _ | .uint _, _ => s.fillFigure (figureOf v.text.toList)
  | v, _ => s.fill (s.cut v.text.toList)

/-- A value as the verb asks for, if the verb applies to it. -/
def render? (s : Settings) (v : Value) : Option (List Char) :=
  match s.verb with
  | .generic => some (s.plain v)
  | .text => some (s.fill (s.cut v.text.toList))
  | .quoted => some (s.fill (quote (String.ofList (s.cut v.text.toList))).toList)
  | .integer radix =>
    match radix, v with
    | .hexadecimal upper, .str t => some (s.fill (uppercase upper (hexBytes t)))
    | radix, v => (s.integer? radix v).map s.fillFigure
  | .fixed _ | .scientific _ => (s.float? v).map s.fillFigure
  | .truth =>
    match v with
    | .bool _ => some (s.fill v.text.toList)
    | _ => none
  | .character => (characterOf? v).map fun c => s.fill [c]

def render (s : Settings) (v : Value) : String :=
  String.ofList ((s.render? v).getD (s.plain v))

end Settings

end Interpolation.Formatter.Printf

namespace Interpolation.Formatter

def printf : Formatter Printf.Settings where
  start := {}
  configure := Printf.Settings.configure
  render := Printf.Settings.render

end Interpolation.Formatter
