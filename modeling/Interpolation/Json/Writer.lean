/-
  JSON values as text: compact, or with every item and member on a line of its own. A float is
  written in the shortest form that reads back, with its digits in their places from 0.0001 up to
  below 10 ^ 16, else with an exponent that always has a sign.
-/
import Interpolation.Decimal.Shortest
import Interpolation.Json.Basic

namespace Interpolation.Json

open Text

/-- How a character of a text is written between quotes. -/
def escape (c : Char) : List Char :=
  if c = '"' then ['\\', '"']
  else if c = '\\' then ['\\', '\\']
  else if c = '\x08' then ['\\', 'b']
  else if c = '\x0c' then ['\\', 'f']
  else if c = '\n' then ['\\', 'n']
  else if c = '\r' then ['\\', 'r']
  else if c = '\t' then ['\\', 't']
  else if c < ' ' then ['\\', 'u'] ++ zeroFill 4 (Nat.toDigits 16 c.toNat)
  else [c]

def quoted (s : String) : List Char := '"' :: s.toList.flatMap escape ++ ['"']

/-- The exponent of a float, with its sign. -/
def exponentText (e : Int) : List Char :=
  'e' :: (if e < 0 then '-' else '+') :: Nat.toDigits 10 e.natAbs

/-- The digits of a float: in their places where few zeros are needed, else with an exponent. -/
def decimalText (d : Decimal) : List Char :=
  let point : Int := d.digits.length + d.exponent
  if -5 < point ∧ point ≤ 16 then
    if 0 ≤ d.exponent then d.positional ++ ['.', '0'] else d.positional
  else
    let places := d.digits.length - 1
    d.scientific places exponentText

/-- A float as text. There is no text for one that is not finite. -/
def floatText (x : Binary64) : List Char :=
  match x.magnitude with
  | .finite m q => (if x.isNegative then ['-'] else []) ++ decimalText (.shortest .even m q)
  | _ => "null".toList

/-- A value on its own, if it holds no others. -/
def scalarText : Json → List Char
  | null => "null".toList
  | bool b => (if b then "true" else "false").toList
  | integer n => (decimalInt n).toList
  | float x => floatText x
  | str s => quoted s
  | array _ | object _ => []

mutual

def compactChars : Json → List Char
  | array items => '[' :: compactItems items ++ [']']
  | object members => '{' :: compactMembers members ++ ['}']
  | v => v.scalarText

/-- Items with commas between them. -/
def compactItems : List Json → List Char
  | [] => []
  | [v] => compactChars v
  | v :: vs => compactChars v ++ ',' :: compactItems vs

/-- Members with commas between them. -/
def compactMembers : List (String × Json) → List Char
  | [] => []
  | [(name, v)] => quoted name ++ ':' :: compactChars v
  | (name, v) :: ms => quoted name ++ ':' :: compactChars v ++ ',' :: compactMembers ms

end

/-- A value without any blanks. -/
def compact (v : Json) : String := String.ofList v.compactChars

/-- A new line that is indented by two spaces for every level. -/
def newLine (level : Nat) : List Char := '\n' :: List.replicate (2 * level) ' '

mutual

/-- A value that begins in a line of the given level. -/
def prettyChars (level : Nat) : Json → List Char
  | array [] => ['[', ']']
  | array items => '[' :: prettyItems (level + 1) items ++ newLine level ++ [']']
  | object [] => ['{', '}']
  | object members => '{' :: prettyMembers (level + 1) members ++ newLine level ++ ['}']
  | v => v.scalarText

def prettyItems (level : Nat) : List Json → List Char
  | [] => []
  | [v] => newLine level ++ prettyChars level v
  | v :: vs => newLine level ++ prettyChars level v ++ ',' :: prettyItems level vs

def prettyMembers (level : Nat) : List (String × Json) → List Char
  | [] => []
  | [(name, v)] => newLine level ++ quoted name ++ ':' :: ' ' :: prettyChars level v
  | (name, v) :: ms =>
    newLine level ++ quoted name ++ ':' :: ' ' :: prettyChars level v ++
      ',' :: prettyMembers level ms

end

/-- A value with every item and member on a line of its own. -/
def pretty (v : Json) : String := String.ofList (v.prettyChars 0)

end Interpolation.Json
