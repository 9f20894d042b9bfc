/-
  Expressions: quoted text, the value of a name, a call of a name with arguments of the pattern,
  and two expressions joined by an operator. An expression is shown without parentheses, so a
  chain of operators reads as one that nests to the right.
-/
import Interpolation.Text.Numeral

namespace Interpolation

open Text

/-- A key, in the namespace before it or in the default one. -/
structure Name where
  space : Option String := none
  key : String
deriving DecidableEq, Repr

inductive Expr where
  | literal (text : String)
  | value (name : Name)
  /-- a call with the arguments at the given indices -/
  | call (name : Name) (params : List Nat)
  | binary (left : Expr) (op : Char) (right : Expr)
deriving DecidableEq, Repr

def Name.display (n : Name) : List Char :=
  match n.space with
  | none => n.key.toList
  | some s => s.toList ++ ':' :: ':' :: n.key.toList

/-- The parameters of a call, separated by a comma and a space. -/
def paramsText : List Nat → List Char
  | [] => []
  | [n] => '$' :: Nat.toDigits 10 n
  | n :: ns => '$' :: Nat.toDigits 10 n ++ ',' :: ' ' :: paramsText ns

namespace Expr

def isBinary : Expr → Bool
  | binary .. => true
  | _ => false

def displayChars : Expr → List Char
  | literal t => '\'' :: t.toList ++ ['\'']
  | value n => n.display
  | call n ps => n.display ++ '(' :: paramsText ps ++ [')']
  | binary l op r => l.displayChars ++ ' ' :: op :: ' ' :: r.displayChars

/-- An expression as text. -/
def display (e : Expr) : String := String.ofList e.displayChars

end Expr

end Interpolation
