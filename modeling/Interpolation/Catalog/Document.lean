/-
  Catalogs as TOML documents: two optional texts, `default_namespace` and `join`, and the table
  `namespaces` of tables of texts. Other keys are of no concern.
-/
import Interpolation.Catalog.Basic
import Interpolation.Toml.Reader

namespace Interpolation

open Toml

namespace TemplateTable

/-- The key of the text of a date, where a date stands in the place of a table. -/
def momentKey : String := "$__toml_private_datetime"

/-- An entry whose value is a text. -/
def textEntry? : String × Toml → Option (String × String)
  | (key, .str s) => some (key, s)
  | _ => none

/-- A table of texts. A date counts as one with a single text. -/
def ofToml? : Toml → Option TemplateTable
  | .table _ entries => (entries.mapM textEntry?).map .ofList
  | .moment s => some (.ofList [(momentKey, s)])
  | _ => none

end TemplateTable

namespace Catalog

/-- A text that may be missing. -/
def textField? (key : String) (entries : Entries) : Option (Option String) :=
  match entries.lookup key with
  | none => some none
  | some (.str s) => some (some s)
  | some _ => none

/-- A namespace with its table. -/
def spaceEntry? : String × Toml → Option (String × TemplateTable)
  | (space, v) => (TemplateTable.ofToml? v).map (space, ·)

/-- The namespaces, which may be missing. -/
def spacesField? (key : String) (entries : Entries) : Option (NameTable TemplateTable) :=
  match entries.lookup key with
  | none => some .empty
  | some (.table _ spaces) => (spaces.mapM spaceEntry?).map .ofList
  | some _ => none

def ofEntries? (entries : Entries) : Option Catalog := do
  let defaultSpace ← textField? "default_namespace" entries
  let join ← textField? "join" entries
  let spaces ← spacesField? "namespaces" entries
  return { defaultSpace, join, spaces }

/-- The catalog that a TOML text spells. -/
def parse? (source : String) : Option Catalog := do ofEntries? (← Toml.parse? source)

end Catalog

end Interpolation
