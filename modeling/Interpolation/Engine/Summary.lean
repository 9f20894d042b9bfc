/-
  The summary of an engine, for a programmer to look at: the labels of its formatters, its
  namespaces, the default one and the symbols of its operators.
-/
import Interpolation.Engine

namespace Interpolation.Engine

open Text

/-- A record with its fields. -/
def record (name : String) (fields : List (String × String)) : String :=
  name ++ " \x7b " ++ ", ".intercalate (fields.map fun f => f.1 ++ ": " ++ f.2) ++ " \x7d"

def listText (items : List String) : String := "[" ++ ", ".intercalate items ++ "]"

variable {σ : Type}

def formattersSummary (formatters : FormatterTable) : String :=
  record "FormatterRegistry" [("labels", listText (formatters.keys.map quoteChar))]

def operatorsSummary (operators : OperatorTable) : String :=
  record "OperatorTable" [("symbols", listText (operators.keys.map quoteChar))]

def environmentSummary (env : Environment σ) : String :=
  record "InterpreterRegistry" [
    ("namespaces", listText (env.spaces.names.map quote)),
    ("default_namespace", quote env.defaultSpace),
    ("operators", operatorsSummary env.operators)]

def summary (engine : Engine σ) : String :=
  record "Engine" [
    ("formatters", formattersSummary engine.formatters),
    ("interpreters", environmentSummary engine.env)]

end Interpolation.Engine
