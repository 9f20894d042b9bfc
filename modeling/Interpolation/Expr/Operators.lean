/-
  Operators: symbols that join the texts of two expressions. A new table knows `+`, which writes
  one text after the other.
-/
import Interpolation.Error
import Interpolation.Keyed.CharTable

namespace Interpolation

/-- Joins the texts of a left and a right expression. -/
abbrev Operator := String → String → String

namespace Operator

def concat : Operator := fun left right => left ++ right

def separatedBy (separator : String) : Operator := fun left right => left ++ separator ++ right

end Operator

abbrev OperatorTable := CharTable Operator

namespace OperatorTable

/-- The symbol that a new table knows. -/
def concatSymbol : Char := '+'

/-- The table with concatenation alone. -/
def standard : OperatorTable := CharTable.empty.insert concatSymbol Operator.concat

/-- Two texts joined by the operator with the given symbol. -/
def combine (operators : OperatorTable) (symbol : Char) (left right : String) :
    Except Error String :=
  match operators.find? symbol with
  | none => .error (.unknownOperator symbol)
  | some f => .ok (f left right)

end OperatorTable

end Interpolation
