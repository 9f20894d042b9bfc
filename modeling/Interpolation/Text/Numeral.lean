/-
  Numerals: reading a decimal integer that has to fit a machine word, and writing integers.
  Digits are ASCII; a sign may stand in front. Reading goes from left to right and names the
  first thing that is wrong, so that an excess digit hides a bad character behind it.
-/
namespace Interpolation.Text

/-- Why a text is not a decimal integer of the wanted size. -/
inductive NumeralError where
  | empty
  | invalidDigit
  | tooLarge
  | tooSmall
deriving DecidableEq, Repr

def NumeralError.message : NumeralError → String
  | .empty => "cannot parse integer from empty string"
  | .invalidDigit => "invalid digit found in string"
  | .tooLarge => "number too large to fit in target type"
  | .tooSmall => "number too small to fit in target type"

def isAsciiDigit (c : Char) : Bool := '0' ≤ c && c ≤ '9'

/-- The value of an ASCII digit. -/
def digitValue (c : Char) : Nat := c.toNat - '0'.toNat

/-- Reads digits after those that make up `value`; no value on the way may exceed `maximum`. -/
def readDigits (maximum : Nat) (excess : NumeralError) :
    Nat → List Char → Except NumeralError Nat
  | value, [] => .ok value
  | value, c :: cs =>
    if isAsciiDigit c then
      if value * 10 + digitValue c ≤ maximum then
        readDigits maximum excess (value * 10 + digitValue c) cs
      else .error excess
    else .error .invalidDigit

/-- A natural number up to `maximum`, with an optional plus sign. -/
def readUnsigned (maximum : Nat) : List Char → Except NumeralError Nat
  | [] => .error .empty
  | ['+'] => .error .invalidDigit
  | '+' :: cs => readDigits maximum .tooLarge 0 cs
  | cs => readDigits maximum .tooLarge 0 cs

/-- The largest unsigned word of 64 bits. -/
def maxUnsigned : Nat := Nat.pow 2 64 - 1

/-- The largest signed word of 64 bits. -/
def maxSigned : Nat := Nat.pow 2 63 - 1

/-- An unsigned word of 64 bits, with an optional plus sign. -/
def readWord (cs : List Char) : Except NumeralError Nat := readUnsigned maxUnsigned cs

/-- A signed word of 64 bits, with an optional sign. -/
def readInteger : List Char → Except NumeralError Int
  | ['-'] => .error .invalidDigit
  | '-' :: cs => return -Int.ofNat (← readDigits (maxSigned + 1) .tooSmall 0 cs)
  | cs => return Int.ofNat (← readUnsigned maxSigned cs)

/-- A natural number in decimal. -/
def decimal (n : Nat) : String := String.ofList (Nat.toDigits 10 n)

/-- An integer in decimal, with a sign only if it is negative. -/
def decimalInt (n : Int) : String :=
  if n < 0 then "-" ++ decimal n.natAbs else decimal n.natAbs

/-- Zeros in front of a text up to the given number of characters. -/
def zeroFill (width : Nat) (cs : List Char) : List Char :=
  List.replicate (width - cs.length) '0' ++ cs

end Interpolation.Text
