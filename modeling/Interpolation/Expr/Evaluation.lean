/-
  The text of an expression in an environment, given the arguments of the pattern. Leaves are
  interpreted from left to right; an operator is looked up before its two sides, and the
  arguments of a call before its namespace.
-/
import Interpolation.Expr.Basic
import Interpolation.Expr.Environment

namespace Interpolation

/-- The argument at an index. -/
def argumentAt (args : List Value) (index : Nat) : Except Error Value :=
  match args[index]? with
  | none => .error (.indexOutOfRange index args.length)
  | some v => .ok v

namespace Expr

variable {σ : Type}

/-- The text of a name that is called with the given arguments. -/
def interpret (env : Environment σ) (name : Name) (args : List Value) : Eval σ String := do
  let f ← Eval.of (env.interpreterOf name.space)
  f name.key args

def eval (env : Environment σ) (args : List Value) : Expr → Eval σ String
  | literal t => pure t
  | value n => interpret env n []
  | call n params => do
    let params ← Eval.of (params.mapM (argumentAt args))
    interpret env n params
  | binary l op r =>
    if env.operators.contains op then do
      let left ← eval env args l
      let right ← eval env args r
      Eval.of (env.operators.combine op left right)
    else throw (.unknownOperator op)

end Expr

end Interpolation
