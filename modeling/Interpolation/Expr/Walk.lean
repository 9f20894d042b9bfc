/-
  Reading expressions by places. A walker stands at a place of the source, counted in bytes, and
  looks ahead by slicing the source there; it keeps every place that it has stood at. The walk has
  the grammar's parts, with the steps back that the search for an alternative needs. It comes to
  nothing where a slice would split a character, and where a loop goes round too often: no loop
  may go round, and no expression nest, more often than the source has bytes, and once more.
-/
import Interpolation.Expr.Grammar
import Interpolation.Text.Slice

namespace Interpolation.Expr

open Text

structure Walker where
  place : Nat := 0
  /-- all places so far, the last one first -/
  visited : List Nat := [0]
  /-- the furthest misfit after the left side of an operator -/
  noted : Option Misfit := none

abbrev Walk := ExceptT Failure (StateT Walker Option)

namespace Walk

def place : Walk Nat := return (← get).place

def moveTo (n : Nat) : Walk Unit :=
  modify fun w => { w with place := n, visited := n :: w.visited }

/-- What a walk comes to, if it fails in no other way than readings do. -/
def attempt {α : Type} (x : Walk α) : Walk (Except Failure α) :=
  ExceptT.mk do return .ok (← x.run)

def mismatch {α : Type} (cause : Cause) : Walk α := do throw (.misfit ⟨← place, cause⟩)

variable (src : String)

/-- How often a loop may go round. -/
def limit : Nat := src.utf8ByteSize + 1

def slice (start stop : Nat) : Walk String := liftM (slice? src start stop)

/-- What is still ahead. -/
def ahead : Walk (List Char) := return (← slice src (← place) src.utf8ByteSize).toList

def peek : Walk (Option Char) := return (← ahead src).head?

/-- Takes the next character, if there is one. -/
def bump : Walk (Option Char) := do
  let found ← peek src
  match found with
  | none => return none
  | some c =>
    moveTo ((← place) + c.utf8Size)
    return some c

def skipWhile (p : Char → Bool) : Nat → Walk Unit
  | 0 => liftM (none : Option Unit)
  | n + 1 => do
    match ← peek src with
    | none => return
    | some c =>
      if p c then
        moveTo ((← place) + c.utf8Size)
        skipWhile p n

def skipBlanks : Walk Unit := skipWhile src isBlank (limit src)

def label : Walk (List Char) := do
  skipBlanks src
  let start ← place
  skipWhile src isLabelChar (limit src)
  let stop ← place
  if stop = start then mismatch (.emptyLabel (← peek src))
  else return (← slice src start stop).toList

def name : Walk Name := do
  let first ← label src
  let after ← place
  skipBlanks src
  if [':', ':'].isPrefixOf (← ahead src) then
    moveTo ((← place) + 2)
    skipBlanks src
    if (← ahead src).isEmpty then throw (.incomplete .nameAfterColons)
    else return ⟨some (String.ofList first), String.ofList (← label src)⟩
  else
    moveTo after
    return ⟨none, String.ofList first⟩

def expect (want : Char) (need : Need) (otherwise : Char → Cause) : Walk Unit := do
  skipBlanks src
  match ← peek src with
  | none => throw (.incomplete need)
  | some c => if c = want then discard (bump src) else mismatch (otherwise c)

def literalText : Walk Expr := do
  expect src '\'' .literal .noLiteral
  let start ← place
  let text ← ahead src
  let quoted := text.takeWhile (· ≠ '\'')
  if quoted = text then
    moveTo src.utf8ByteSize
    throw (.incomplete .closingQuote)
  else
    moveTo (start + utf8Size quoted + 1)
    return .literal (← slice src start (start + utf8Size quoted))

def bareName : Walk Expr := do
  let n ← name src
  let after ← place
  skipBlanks src
  if (← peek src) = some '(' then mismatch .called
  else
    moveTo after
    return .value n

def reference : Walk Nat := do
  expect src '$' .reference .noReference
  let start ← place
  skipWhile src isAsciiDigit (limit src)
  let digits := (← slice src start (← place)).toList
  if digits.isEmpty then
    match ← peek src with
    | none => throw (.incomplete .index)
    | some c => mismatch (.noIndex c)
  else
    match readWord digits with
    | .ok n => return n
    | .error _ => mismatch (.indexTooLarge digits)

/-- The references of a call up to its closing parenthesis. A character that separates none is
taken, and stepped back over. -/
def references : Nat → Walk (List Nat)
  | 0 => liftM (none : Option (List Nat))
  | m + 1 => do
    let n ← reference src
    skipBlanks src
    match ← bump src with
    | none => throw (.incomplete .separator)
    | some c =>
      if c = ',' then return n :: (← references m)
      else if c = ')' then return [n]
      else
        moveTo ((← place) - c.utf8Size)
        mismatch (.noSeparator c)

def callName : Walk Expr := do
  let n ← name src
  skipBlanks src
  let found ← peek src
  if found = some '(' then
    discard (bump src)
    skipBlanks src
    if (← peek src) = some ')' then
      discard (bump src)
      return .call n []
    else return .call n (← references src (limit src))
  else mismatch (.notCalled found)

variable (g : Grammar)

/-- The first of some alternatives that succeeds, each from the same place. -/
def firstOf (start : Nat) (best : Option Failure) : List (Walk Expr) → Walk Expr
  | [] => throw (best.getD (.incomplete .expression))
  | p :: ps => do
    match ← attempt p with
    | .ok e => return e
    | .error f =>
      if g.stops f then throw f
      else
        moveTo start
        firstOf start (some (Failure.further best f)) ps

def unitAlternatives : List (Walk Expr) := [callName src, bareName src, literalText src]

def unit : Walk Expr := do
  skipBlanks src
  if (← ahead src).isEmpty then throw (.incomplete .expression)
  else firstOf g (← place) none (unitAlternatives src)

/-- An operator and what is right of it. -/
def behindUnit (right : Walk Expr) : Walk (Char × Expr) := do
  skipBlanks src
  match ← peek src with
  | none => mismatch .missingOperator
  | some op =>
    if g.isOperator op then
      discard (bump src)
      return (op, ← right)
    else mismatch (.invalidOperator op)

def joined (right : Walk Expr) : Walk Expr := do
  let left ← unit src g
  match ← attempt (behindUnit src g right) with
  | .ok (op, right) => return .binary left op right
  | .error f =>
    modify fun w => { w with noted := note w.noted f }
    throw f

def expression : Nat → Walk Expr
  | 0 => liftM (none : Option Expr)
  | n + 1 => do
    skipBlanks src
    if (← ahead src).isEmpty then throw (.incomplete .expression)
    else firstOf g (← place) none (joined src g (expression n) :: unitAlternatives src)

/-- The expression that the whole source spells, or what is wrong with it. -/
def ofSource : Walk (Except Error Expr) := do
  match ← attempt (expression src g (limit src)) with
  | .error f => return .error (f.error src)
  | .ok e =>
    skipBlanks src
    match ← peek src with
    | none => return .ok e
    | some c =>
      let w ← get
      match w.noted with
      | some m =>
        return .error (if w.place ≤ m.offset then (Failure.misfit m).error src
          else leftover src w.place c)
      | none => return .error (leftover src w.place c)

end Walk

end Interpolation.Expr
