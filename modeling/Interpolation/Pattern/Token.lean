/-
  Tokens of a pattern: the stretches that the byte machine reads without leaving a state. A token
  carries the state that the machine went into after its text, so what the text means is told by
  the state of the token before. Main definitions: `Lexer.byteStep`, `Lexer.tokenStep` and the
  stream of all tokens, `Lexer.drain`.
-/
import Interpolation.Error
import Interpolation.Pattern.State
import Interpolation.Text.Utf8

namespace Interpolation.Pattern

open Text

structure Token where
  /-- the state that was entered after the text -/
  state : State
  text : String
  /-- where the text begins, in bytes -/
  offset : Nat
deriving DecidableEq, Repr

namespace Token

def isEnd (t : Token) : Bool := t.state == .end

def display (t : Token) : String := quote t.text ++ " -> " ++ t.state.name

end Token

/-- The machine over a pattern: the bytes that are left, how many were used up, and its state. -/
structure Lexer where
  rest : List UInt8
  offset : Nat := 0
  state : State := .start
deriving DecidableEq, Repr

namespace Lexer

def ofPattern (pattern : String) : Lexer := { rest := utf8 pattern }

/-- Lets the machine look at one byte, and reports the state it is in then and the byte. Once it
has stopped, and past the end of the input, the byte counts as NUL. -/
def byteStep (l : Lexer) : (State × UInt8) × Lexer :=
  if l.state = .end then ((.end, 0), l) else
  match l.rest with
  | [] => ((.end, 0), { l with state := .end })
  | b :: bs =>
    let (s, used) := l.state.next b
    ((s, b), if used then { rest := bs, offset := l.offset + 1, state := s }
      else { l with state := s })

theorem byteStep_end {l : Lexer} (h : l.state = .end) : l.byteStep = ((.end, 0), l) := if_pos h

theorem byteStep_nil {l : Lexer} (h : l.rest = []) : l.byteStep.1 = (.end, 0) := by
  by_cases hs : l.state = .end
  · rw [byteStep_end hs]
  · simp [byteStep, if_neg hs, h]

theorem byteStep_cons {l : Lexer} {b : UInt8} {bs : List UInt8} (hs : l.state ≠ .end)
    (h : l.rest = b :: bs) :
    l.byteStep = (((l.state.next b).1, b),
      if (l.state.next b).2 then
        { rest := bs, offset := l.offset + 1, state := (l.state.next b).1 }
      else { l with state := (l.state.next b).1 }) := by
  simp [byteStep, if_neg hs, h]

/-- The bytes that the machine reads without leaving its state. -/
def stretch (l : Lexer) : List UInt8 := l.rest.takeWhile l.state.stays

/-- The machine after the bytes that it reads without leaving its state. -/
def afterStretch (l : Lexer) : Lexer :=
  { l with
    rest := l.rest.dropWhile l.state.stays
    offset := l.offset + l.stretch.length }

/-- The text that a stretch of bytes spells. -/
def spelled (bytes : List UInt8) : String := (ofUtf8? bytes).getD ""

/-- Reads until the state changes or the input ends. -/
def tokenStep (l : Lexer) : Except Error Token × Lexer :=
  let text := spelled l.stretch
  let ((state, _), l') := l.afterStretch.byteStep
  if state = .error then (.error (.invalidPattern l.afterStretch.offset text), l')
  else (.ok { state, text, offset := l.offset }, l')

/-- What bounds the number of tokens that are still to come. -/
def credit (l : Lexer) : Nat := 3 * l.rest.length + l.state.credit

theorem credit_byteStep {l : Lexer} (h : l.byteStep.1.1 ≠ l.state) :
    l.byteStep.2.credit < l.credit := by
  by_cases hs : l.state = .end
  · simp [byteStep_end hs, hs] at h
  cases hr : l.rest with
  | nil =>
    have : 0 < l.state.credit := by cases hl : l.state <;> simp_all [State.credit]
    simpa [byteStep, hs, hr, credit, State.credit] using this
  | cons b bs =>
    rw [byteStep_cons hs hr] at h ⊢
    -- a byte that is used up pays for three changes of state
    have hstep : (l.state.next b).1.credit <
        l.state.credit + if (l.state.next b).2 then 3 else 0 := State.credit_step _ _ h
    unfold credit
    rw [hr, List.length_cons]
    split at hstep
    · next hused =>
      rw [if_pos hused]
      dsimp only
      omega
    · next hkept =>
      rw [if_neg hkept]
      simp only [List.length_cons]
      omega

theorem credit_afterStretch_le (l : Lexer) : l.afterStretch.credit ≤ l.credit := by
  have : (l.rest.dropWhile l.state.stays).length ≤ l.rest.length :=
    (List.dropWhile_suffix _).length_le
  simp only [credit, afterStretch]
  omega

/-- After a stretch the state changes, unless the machine has stopped or failed. -/
theorem byteStep_afterStretch (l : Lexer) :
    l.afterStretch.byteStep.1.1 ≠ l.state ∨ l.afterStretch.byteStep.1.1 = .end ∨
      l.afterStretch.byteStep.1.1 = .error := by
  by_cases hs : l.state = .end
  · rw [byteStep_end (l := l.afterStretch) hs]
    simp
  cases hr : l.afterStretch.rest with
  | nil => simp [byteStep_nil hr]
  | cons b bs =>
    rw [byteStep_cons (l := l.afterStretch) hs hr]
    by_cases h : (l.state.next b).1 = l.state
    · have hb : l.state.stays b = false := by
        have := List.head?_dropWhile_not l.state.stays l.rest
        simpa [show l.rest.dropWhile l.state.stays = b :: bs from hr] using this
      have hn : l.state.next b = (l.state, false) := by
        rcases hn : l.state.next b with ⟨s, used⟩
        cases used <;> simp_all [State.stays]
      exact .inr ((State.stopped_of_step_self hn).imp h.trans h.trans)
    · exact .inl h

theorem credit_tokenStep {l l' : Lexer} {t : Token} (h : l.tokenStep = (.ok t, l'))
    (ht : t.isEnd = false) : l'.credit < l.credit := by
  simp only [tokenStep] at h
  split at h
  · simp at h
  · next hne =>
    obtain ⟨h1, rfl⟩ := Prod.mk.inj h
    have hs := byteStep_afterStretch l
    have hend : l.afterStretch.byteStep.1.1 ≠ .end := by
      rintro he
      cases Except.ok.inj h1
      simp [Token.isEnd, he] at ht
    have := credit_byteStep (l := l.afterStretch) (by simp_all [afterStretch])
    exact Nat.lt_of_lt_of_le this (credit_afterStretch_le l)

/-- All tokens up to the end token or to the first error, and the machine after them. -/
def drain (l : Lexer) : List (Except Error Token) × Lexer :=
  match _h : l.tokenStep with
  | (.error e, l') => ([.error e], l')
  | (.ok t, l') =>
    if _ht : t.isEnd then ([.ok t], l')
    else (.ok t :: l'.drain.1, l'.drain.2)
termination_by l.credit
decreasing_by all_goals exact credit_tokenStep _h (by simpa using _ht)

end Lexer

/-- The tokens of a pattern, the end token included. -/
def tokens (pattern : String) : Except Error (List Token) :=
  (Lexer.ofPattern pattern).drain.1.mapM id

end Interpolation.Pattern
