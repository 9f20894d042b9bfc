/-
  Cursors: a position in the source of an expression, as the number of bytes before it and the
  characters after it. A cursor moves over whole characters only.
-/
import Interpolation.Text.Blank
import Interpolation.Text.Utf8

namespace Interpolation

open Text

structure Cursor where
  /-- the bytes before the position -/
  offset : Nat
  /-- the characters after it -/
  rest : List Char
deriving DecidableEq, Repr

namespace Cursor

def ofSource (src : String) : Cursor := ⟨0, src.toList⟩

/-- The cursor after the characters that satisfy `p`. -/
def skipWhile (p : Char → Bool) (c : Cursor) : Cursor :=
  ⟨c.offset + utf8Size (c.rest.takeWhile p), c.rest.dropWhile p⟩

def skipBlanks (c : Cursor) : Cursor := c.skipWhile isBlank

def peek? (c : Cursor) : Option Char := c.rest.head?

/-- The cursor after the next character. -/
def advance (c : Cursor) : Cursor :=
  match c.rest with
  | [] => c
  | x :: xs => ⟨c.offset + x.utf8Size, xs⟩

theorem length_skipWhile_le (p : Char → Bool) (c : Cursor) :
    (c.skipWhile p).rest.length ≤ c.rest.length :=
  (List.dropWhile_suffix _).length_le

theorem length_skipBlanks_le (c : Cursor) : c.skipBlanks.rest.length ≤ c.rest.length :=
  length_skipWhile_le _ c

theorem length_advance_le (c : Cursor) : c.advance.rest.length ≤ c.rest.length := by
  unfold advance
  split <;> simp_all

theorem length_advance_lt {c : Cursor} {x : Char} (h : c.peek? = some x) :
    c.advance.rest.length < c.rest.length := by
  rcases c with ⟨o, _ | ⟨y, ys⟩⟩ <;> simp_all [advance, peek?]

end Cursor

end Interpolation
