/-
  Specs of the printf formatter: flags, a width, a precision behind a point and a verb, each of
  which may be missing. The flags take every leading zero, so a width never begins with one.
-/
import Interpolation.Formatter.Basic
import Interpolation.Text.DecimalDigit

namespace Interpolation.Formatter.Printf

open Text

structure Flags where
  /-- `-`: spaces go behind -/
  left : Bool := false
  /-- `+`: a sign also before what is not negative -/
  plus : Bool := false
  /-- a space in place of the sign -/
  space : Bool := false
  /-- `0`: numbers are filled up with zeros -/
  zero : Bool := false
  /-- `#`: a mark before the digits tells their base -/
  alternate : Bool := false
deriving DecidableEq, Repr

inductive Radix where
  | decimal
  | octal
  | binary
  | hexadecimal (upper : Bool)
deriving DecidableEq, Repr

inductive Verb where
  /-- the text of the value -/
  | generic
  /-- the text of the value, cut to the precision -/
  | text
  | quoted
  | integer (radix : Radix)
  | fixed (upper : Bool)
  | scientific (upper : Bool)
  | truth
  /-- the character with the given code point -/
  | character
deriving DecidableEq, Repr

structure Settings where
  flags : Flags := {}
  width : Option Nat := none
  precision : Option Nat := none
  verb : Verb := .generic
deriving DecidableEq, Repr

def isFlag (c : Char) : Bool := ['-', '+', ' ', '0', '#'].contains c

/-- The flags that some characters set. -/
def Flags.ofChars (cs : List Char) : Flags where
  left := cs.contains '-'
  plus := cs.contains '+'
  space := cs.contains ' '
  zero := cs.contains '0'
  alternate := cs.contains '#'

def Verb.ofLetter? : Char → Option Verb
  | 'v' => some .generic
  | 's' => some .text
  | 'q' => some .quoted
  | 'd' => some (.integer .decimal)
  | 'f' => some (.fixed false)
  | 'F' => some (.fixed true)
  | 'e' => some (.scientific false)
  | 'E' => some (.scientific true)
  | 'x' => some (.integer (.hexadecimal false))
  | 'X' => some (.integer (.hexadecimal true))
  | 'o' => some (.integer .octal)
  | 'b' => some (.integer .binary)
  | 't' => some .truth
  | 'c' => some .character
  | _ => none

/-- A spec cut into its parts. Digits are those of any script, so a number may still be refused. -/
structure Parts where
  flags : List Char
  width : List Char
  precision : Option (List Char)
  verb : Verb
deriving DecidableEq, Repr

namespace Parts

/-- The digits behind a point, and what follows them. -/
def splitPrecision : List Char → Option (List Char) × List Char
  | '.' :: cs => (some (cs.takeWhile isDecimalDigit), cs.dropWhile isDecimalDigit)
  | cs => (none, cs)

def verb? : List Char → Option Verb
  | [] => some .generic
  | [c] => Verb.ofLetter? c
  | _ => none

def ofSpec? (spec : List Char) : Option Parts := do
  let afterFlags := spec.dropWhile isFlag
  let (precision, rest) := splitPrecision (afterFlags.dropWhile isDecimalDigit)
  return {
    flags := spec.takeWhile isFlag
    width := afterFlags.takeWhile isDecimalDigit
    precision
    verb := ← verb? rest }

def widthNumber (parts : Parts) : Except String (Option Nat) :=
  if parts.width.isEmpty then .ok none else some <$> fieldNumber "width" parts.width

/-- A point without digits asks for a precision of zero. -/
def precisionNumber (parts : Parts) : Except String (Option Nat) :=
  match parts.precision with
  | none => .ok none
  | some [] => .ok (some 0)
  | some ds => some <$> fieldNumber "precision" ds

end Parts

/-- The settings that a spec asks for. One that is cut into parts but has a number too large
leaves what stands before that number. -/
def Settings.configure (settings : Settings) (spec : String) : Settings × Except Error Unit :=
  match Parts.ofSpec? spec.toList with
  | none => (settings, refusal spec "expected [flags][width][.precision][verb]")
  | some parts =>
    let flags := Flags.ofChars parts.flags
    match parts.widthNumber with
    | .error reason => ({ settings with flags }, refusal spec reason)
    | .ok width =>
      match parts.precisionNumber with
      | .error reason => ({ settings with flags, width }, refusal spec reason)
      | .ok precision => ({ flags, width, precision, verb := parts.verb }, .ok ())

end Interpolation.Formatter.Printf
