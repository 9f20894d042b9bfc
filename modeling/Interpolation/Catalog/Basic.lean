/-
  Catalogs: tables of templates, one for each namespace, with a default namespace and a separator
  for `+`. A template that is called is rendered with its arguments by an engine of its own that
  knows no formatter and no namespace.
-/
import Interpolation.Engine

namespace Interpolation

/-- Templates by their keys. -/
abbrev TemplateTable := NameTable String

namespace TemplateTable

/-- The text of a key: its template, rendered if there are arguments. -/
def text (table : TemplateTable) (key : String) (args : List Value) : Except Error String :=
  match table.find? key with
  | none => .error (.unresolvedKey key)
  | some template =>
    if args.isEmpty then .ok template
    else ((Engine.bare.render template args).result ()).1

/-- The table as what interprets a namespace. -/
def interpreter {σ : Type} (table : TemplateTable) : Interpreter σ :=
  fun key args => Eval.of (table.text key args)

end TemplateTable

structure Catalog where
  defaultSpace : Option String := none
  /-- what `+` writes between its two sides -/
  join : Option String := none
  spaces : NameTable TemplateTable := .empty

namespace Catalog

variable {σ : Type}

/-- The engine with every namespace of the catalog, replacing those it had. -/
def overlaySpaces (catalog : Catalog) (engine : Engine σ) : Engine σ :=
  catalog.spaces.entries.foldl (fun e s => e.putInterpreter s.1 s.2.interpreter) engine

/-- The engine with all that the catalog says. -/
def overlay (catalog : Catalog) (engine : Engine σ) : Engine σ :=
  let engine := catalog.overlaySpaces engine
  let engine := match catalog.defaultSpace with
    | none => engine
    | some space => engine.putDefaultSpace space
  match catalog.join with
  | none => engine
  | some separator => engine.putOperator OperatorTable.concatSymbol (.separatedBy separator)

end Catalog

end Interpolation
