/-
  How the reading of an expression fails: what was found where something else was needed, or what
  was still needed when the source ended; and how either is told to the writer of the expression.
-/
import Interpolation.Error
import Interpolation.Text.Blank

namespace Interpolation.Expr

open Text

/-- Why the source does not fit. The character is the one that was found, if any. -/
inductive Cause where
  | invalidOperator (found : Char)
  | missingOperator
  | notCalled (found : Option Char)
  | called
  | emptyLabel (found : Option Char)
  | noLiteral (found : Char)
  | noReference (found : Char)
  | noIndex (found : Char)
  | noSeparator (found : Char)
  | indexTooLarge (digits : List Char)
deriving DecidableEq, Repr

/-- What was needed when the source ended. -/
inductive Need where
  | expression
  | literal
  | closingQuote
  | nameAfterColons
  | reference
  | index
  | separator
deriving DecidableEq, Repr

/-- A place of the source, in bytes, and what is wrong there. -/
structure Misfit where
  offset : Nat
  cause : Cause
deriving DecidableEq, Repr

inductive Failure where
  | misfit (m : Misfit)
  | incomplete (need : Need)
deriving DecidableEq, Repr

def Need.text : Need → String
  | expression => "expression"
  | literal => "string literal"
  | closingQuote => "closing quote"
  | nameAfterColons => "name after '::'"
  | reference => "argument reference like $0"
  | index => "argument index"
  | separator => "',' or ')'"

def Cause.text : Cause → String
  | invalidOperator c => "invalid operator " ++ quoteChar c
  | missingOperator => "missing operator"
  | notCalled none => "missing '('"
  | notCalled (some c) => "expected '(', found " ++ quoteChar c
  | called => "unexpected '('"
  | emptyLabel none => "empty label"
  | emptyLabel (some c) => "empty label before " ++ quoteChar c
  | noLiteral c => "expected " ++ Need.literal.text ++ ", found " ++ quoteChar c
  | noReference c => "expected " ++ Need.reference.text ++ ", found " ++ quoteChar c
  | noIndex c => "expected argument index after '$', found " ++ quoteChar c
  | noSeparator c => "expected " ++ Need.separator.text ++ ", found " ++ quoteChar c
  | indexTooLarge ds => "argument index " ++ String.ofList ds ++ " is too large"

/-- The failure as an error about the whole source. A source of blanks is called empty. -/
def Failure.error (src : String) : Failure → Error
  | misfit m => .syntaxError (m.cause.text ++ " in expression " ++ quote src)
  | incomplete need =>
    if (trim src.toList).isEmpty then .syntaxError "empty expression"
    else .syntaxError ("unexpected end of expression " ++ quote src ++ ", expected " ++ need.text)

/-- The error for characters after a whole expression. -/
def leftover (src : String) (offset : Nat) (c : Char) : Error :=
  .syntaxError ("unexpected " ++ quoteChar c ++ " at offset " ++ decimal offset ++
    " in expression " ++ quote src)

end Interpolation.Expr
