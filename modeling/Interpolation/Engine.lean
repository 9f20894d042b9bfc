/-
  Engines: the formatters and the environment with which patterns are rendered. The segments of a
  pattern are rendered from left to right, and the first that fails ends the rendering.
-/
import Interpolation.Expr.Evaluation
import Interpolation.Expr.Grammar
import Interpolation.Formatter.Standard
import Interpolation.Pattern.Segment

namespace Interpolation

open Text Pattern

structure Engine (σ : Type) where
  formatters : FormatterTable := .standard
  env : Environment σ := {}

/-- How the placeholders up to a point chose their arguments. -/
inductive Numbering where
  | unused
  /-- in order, with the next index -/
  | implicit (next : Nat)
  /-- by an index of their own -/
  | explicit
deriving DecidableEq, Repr

/-- The argument that a placeholder chooses, and the numbering after it. -/
def Numbering.choose : Numbering → Option Nat → Except Error (Nat × Numbering)
  | implicit _, some _ | explicit, none => .error .mixedIndexing
  | _, some index => .ok (index, explicit)
  | unused, none => .ok (0, implicit 1)
  | implicit next, none => .ok (next, implicit (next + 1))

/-- The index that a placeholder spells. -/
def readIndex : Option String → Except Error (Option Nat)
  | none => .ok none
  | some digits =>
    match readWord digits.toList with
    | .ok n => .ok (some n)
    | .error e =>
      .error (.syntaxError ("invalid argument index " ++ quote digits ++ ": " ++ e.message))

namespace Engine

variable {σ : Type}

/-- An engine without any formatter. -/
def bare : Engine σ := { formatters := .empty }

/-! Changes to what is registered. -/

def putFormatter (engine : Engine σ) (label : Char) (f : Factory) : Engine σ :=
  { engine with formatters := engine.formatters.insert label f }

def dropFormatter (engine : Engine σ) (label : Char) : Engine σ :=
  { engine with formatters := engine.formatters.erase label }

def putInterpreter (engine : Engine σ) (space : String) (f : Interpreter σ) : Engine σ :=
  { engine with env.spaces := engine.env.spaces.insert space f }

def dropInterpreter (engine : Engine σ) (space : String) : Engine σ :=
  { engine with env.spaces := engine.env.spaces.erase space }

def putDefaultSpace (engine : Engine σ) (space : String) : Engine σ :=
  { engine with env.defaultSpace := space }

def putOperator (engine : Engine σ) (symbol : Char) (f : Operator) : Engine σ :=
  { engine with env.operators := engine.env.operators.insert symbol f }

def dropOperator (engine : Engine σ) (symbol : Char) : Engine σ :=
  { engine with env.operators := engine.env.operators.erase symbol }

def clearOperators (engine : Engine σ) : Engine σ :=
  { engine with env.operators := .empty }

def resetOperators (engine : Engine σ) : Engine σ :=
  { engine with env.operators := .standard }

/-! Rendering. -/

/-- The grammar of the expressions that the engine reads. -/
def grammar (engine : Engine σ) : Expr.Grammar := { isOperator := engine.env.operators.contains }

def readExpr (engine : Engine σ) (src : String) : Except Error Expr :=
  Expr.ofSource engine.grammar src

/-- The text of the expression that a source spells. -/
def evaluate (engine : Engine σ) (src : String) (args : List Value) : Eval σ String := do
  let e ← Eval.of (engine.readExpr src)
  e.eval engine.env args

/-- How a placeholder with or without a spec renders its argument. -/
def renderer (engine : Engine σ) : Option String → Except Error (Value → String)
  | none => .ok Value.text
  | some spec => engine.formatters.select spec

/-- The text of an argument placeholder, and the numbering after it. -/
def placeholder (engine : Engine σ) (args : List Value) (numbering : Numbering)
    (index spec : Option String) : Except Error (String × Numbering) := do
  let index ← readIndex index
  let render ← engine.renderer spec
  let (index, numbering) ← numbering.choose index
  let v ← argumentAt args index
  return (render v, numbering)

/-- The text of a segment, and the numbering after it. -/
def segment (engine : Engine σ) (args : List Value) (numbering : Numbering) :
    Segment → Eval σ (String × Numbering)
  | .literal text => pure (text, numbering)
  | .argument index spec => Eval.of (engine.placeholder args numbering index spec)
  | .expression body => return (← engine.evaluate body args, numbering)

/-- The texts of some segments. -/
def pieces (engine : Engine σ) (args : List Value) :
    Numbering → List Segment → Eval σ (List String)
  | _, [] => pure []
  | numbering, s :: ss => do
    let (text, numbering) ← engine.segment args numbering s
    return text :: (← engine.pieces args numbering ss)

/-- What the end of a pattern comes to. An index that was read before a missing brace counts. -/
def finish : Ending → Except Error Unit
  | .complete => .ok ()
  | .unterminated index => do
    let _ ← readIndex index
    .error .unterminatedPlaceholder
  | .refused e => .error e

/-- The text of a pattern with some arguments. -/
def render (engine : Engine σ) (pattern : String) (args : List Value) : Eval σ String := do
  let (segments, ending) := Pattern.segments pattern
  let texts ← engine.pieces args .unused segments
  Eval.of (finish ending)
  return String.join texts

/-- The text of a pattern, or what is wrong with it. -/
def renderOrMessage (engine : Engine σ) (pattern : String) (args : List Value) :
    StateM σ String := do
  match ← (engine.render pattern args).run with
  | .ok text => return text
  | .error e => return e.message

end Engine

end Interpolation
