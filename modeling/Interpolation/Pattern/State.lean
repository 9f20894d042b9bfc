/-
  The byte machine that reads a pattern: ten states, and for each state and byte the state that
  follows and whether the byte was used up. A byte that was not is looked at again from the next
  state. The machine tells only six classes of bytes apart.
-/
namespace Interpolation.Pattern

inductive State where
  /-- between two parts of the pattern -/
  | start
  | literal
  /-- after the brace that opens a placeholder -/
  | placeholderStart
  /-- in the digits of an argument index -/
  | parseIndex
  /-- after the colon of a placeholder -/
  | parseFormatterSpec
  | placeholderEnd
  /-- after the two braces that open an expression -/
  | exprBody
  /-- after the first of the two braces that close an expression -/
  | exprBodyEnd
  | «end»
  | error
deriving DecidableEq, Repr

/-- What the machine sees of a byte. -/
inductive ByteClass where
  | nul
  | digit
  | colon
  | opening
  | closing
  | other
deriving DecidableEq, Repr

def ByteClass.of (b : UInt8) : ByteClass :=
  if b = 0 then .nul
  else if '0'.toUInt8 ≤ b ∧ b ≤ '9'.toUInt8 then .digit
  else if b = ':'.toUInt8 then .colon
  else if b = '{'.toUInt8 then .opening
  else if b = '}'.toUInt8 then .closing
  else .other

namespace State

/-- The state after a byte of the given class, and whether the byte was used up. NUL ends the
pattern wherever it stands. -/
def step : State → ByteClass → State × Bool
  | _, .nul => (.end, false)
  | start, .opening => (placeholderStart, true)
  | start, _ => (literal, false)
  | literal, .opening => (placeholderStart, true)
  | literal, _ => (literal, true)
  | placeholderStart, .digit => (parseIndex, false)
  | placeholderStart, .colon => (parseFormatterSpec, true)
  | placeholderStart, .closing => (placeholderEnd, true)
  | placeholderStart, .opening => (exprBody, true)
  | placeholderStart, .other => (error, false)
  | parseIndex, .digit => (parseIndex, true)
  | parseIndex, .colon => (parseFormatterSpec, true)
  | parseIndex, .closing => (placeholderEnd, true)
  | parseIndex, _ => (.end, false)
  | parseFormatterSpec, .closing => (placeholderEnd, true)
  | parseFormatterSpec, _ => (parseFormatterSpec, true)
  | placeholderEnd, _ => (start, false)
  | exprBody, .closing => (exprBodyEnd, true)
  | exprBody, _ => (exprBody, true)
  | exprBodyEnd, .closing => (placeholderEnd, true)
  | exprBodyEnd, _ => (error, false)
  | .end, _ => (.end, false)
  | error, _ => (error, false)

/-- One step of the machine on a byte. -/
def next (s : State) (b : UInt8) : State × Bool := s.step (.of b)

/-- The byte is used up and the state stays as it is. -/
def stays (s : State) (b : UInt8) : Bool := s.next b == (s, true)

/-- A placeholder or an expression is open. -/
def isInside : State → Bool
  | placeholderStart | parseIndex | parseFormatterSpec | exprBody | exprBodyEnd => true
  | _ => false

def name : State → String
  | start => "start"
  | literal => "literal"
  | placeholderStart => "placeholder_start"
  | parseIndex => "parse_index"
  | parseFormatterSpec => "parse_formatter_spec"
  | placeholderEnd => "placeholder_end"
  | exprBody => "expr_body"
  | exprBodyEnd => "expr_body_end"
  | .end => "end"
  | error => "error"

/-- How often the state may still change before a byte is used up. -/
def credit : State → Nat
  | placeholderEnd => 4
  | start | placeholderStart => 3
  | literal | parseIndex | parseFormatterSpec | exprBody | exprBodyEnd => 2
  | error => 1
  | .end => 0

/-- A change of state lowers the credit, or is paid for by the byte that it uses up. -/
theorem credit_step (s : State) (c : ByteClass) (hs : (s.step c).1 ≠ s) :
    (s.step c).1.credit < s.credit + if (s.step c).2 then 3 else 0 := by
  cases s <;> cases c <;> simp_all [step, credit]

/-- Only a machine that has stopped or failed looks at a byte without any effect. -/
theorem stopped_of_step_self {s : State} {c : ByteClass} (h : s.step c = (s, false)) :
    s = .end ∨ s = .error := by
  cases s <;> cases c <;> simp_all [step]

end State

end Interpolation.Pattern
