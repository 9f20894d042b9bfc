/-
  The ways in which rendering a pattern can fail, what kind each is of, and how it reads.
-/
import Interpolation.Text.Numeral
import Interpolation.Text.Quoted

namespace Interpolation

open Text

/-- Why a pattern, an expression or a formatter spec was refused. -/
inductive Error where
  /-- A byte that cannot stand at this offset of a pattern, and the unfinished token before it. -/
  | invalidPattern (position : Nat) (token : String)
  | unterminatedPlaceholder
  /-- A malformed expression or argument index. -/
  | syntaxError (text : String)
  | unknownOperator (symbol : Char)
  | mixedIndexing
  | indexOutOfRange (index count : Nat)
  | unknownNamespace (name : String)
  | unresolvedKey (key : String)
  | formatterSpec (spec reason : String)
deriving DecidableEq, Repr

/-- What part of a pattern an error is about. -/
inductive ErrorKind where
  | syntaxKind
  | index
  | resolution
  | formatterSpec
deriving DecidableEq, Repr

namespace Error

def kind : Error → ErrorKind
  | invalidPattern .. | unterminatedPlaceholder | syntaxError .. | unknownOperator .. => .syntaxKind
  | mixedIndexing | indexOutOfRange .. => .index
  | unknownNamespace .. | unresolvedKey .. => .resolution
  | formatterSpec .. => .formatterSpec

def message : Error → String
  | invalidPattern position token =>
    "invalid format string at byte " ++ decimal position ++ ": " ++ quote token
  | unterminatedPlaceholder => "unterminated placeholder at end of pattern"
  | syntaxError text => "syntax error: " ++ text
  | unknownOperator symbol => "unknown operator: " ++ symbol.toString
  | mixedIndexing => "cannot mix indexed and non-indexed placeholders"
  | indexOutOfRange index count =>
    "argument index " ++ decimal index ++ " out of range (" ++ decimal count ++ " arguments)"
  | unknownNamespace name => "unknown namespace: " ++ quote name
  | unresolvedKey key => "unresolved key: " ++ key
  | formatterSpec spec reason => "invalid formatter spec " ++ quote spec ++ ": " ++ reason

end Error

end Interpolation
