/-
  Environments: the namespaces in which names are interpreted, the one that a bare name belongs
  to, and the operators. An interpreter may keep a state of any kind, so interpreting may have an
  effect.
-/
import Interpolation.Expr.Operators
import Interpolation.Keyed.NameTable
import Interpolation.Value

namespace Interpolation

/-- A step that may fail, and that may change the state of interpreters even if it does. -/
abbrev Eval (σ : Type) := ExceptT Error (StateM σ)

namespace Eval

variable {σ α : Type}

/-- A step without an effect. -/
def of (r : Except Error α) : Eval σ α := ExceptT.mk (pure r)

/-- The result of a step from a state, and the state after it. -/
def result (step : Eval σ α) (s : σ) : Except Error α × σ := (ExceptT.run step).run s

end Eval

/-- Gives the text of a key with arguments; a key that is not called has none. -/
abbrev Interpreter (σ : Type) := String → List Value → Eval σ String

structure Environment (σ : Type) where
  spaces : NameTable (Interpreter σ) := .empty
  /-- the namespace of a bare name; it may be registered later or never -/
  defaultSpace : String := ""
  operators : OperatorTable := .standard

namespace Environment

variable {σ : Type}

/-- The interpreter of a namespace, or of the default one. -/
def interpreterOf (env : Environment σ) (space : Option String) : Except Error (Interpreter σ) :=
  let space := space.getD env.defaultSpace
  match env.spaces.find? space with
  | none => .error (.unknownNamespace space)
  | some f => .ok f

end Environment

end Interpolation
