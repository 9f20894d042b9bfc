/-
  Formatters: what a placeholder's spec selects to render an argument. A formatter is configured
  by the text behind its label and keeps its settings; a spec that is refused may leave some of
  them changed. The table of labels forgets the settings and starts anew for every placeholder.
-/
import Interpolation.Error
import Interpolation.Keyed.CharTable
import Interpolation.Value

namespace Interpolation

/-- A formatter with settings of some type. -/
structure Formatter (S : Type) where
  /-- the settings before any spec -/
  start : S
  /-- the settings after a spec, and whether the spec was accepted -/
  configure : S → String → S × Except Error Unit
  render : S → Value → String

/-- What a placeholder needs of a formatter: how it renders without a spec, and what a spec makes
of it. -/
structure Factory where
  unconfigured : Value → String
  configured : String → Except Error (Value → String)

namespace Formatter

/-- The largest width, precision or length that a spec may ask for. -/
def maxField : Nat := 65535

/-- A number of a spec that has to be a word and at most `maxField`. -/
def fieldNumber (what : String) (digits : List Char) : Except String Nat :=
  match Text.readWord digits with
  | .error e => .error e.message
  | .ok n =>
    if n ≤ maxField then .ok n
    else .error (what ++ " " ++ Text.decimal n ++ " exceeds " ++ Text.decimal maxField)

/-- A spec was refused for a reason. -/
def refusal (spec reason : String) : Except Error Unit := .error (.formatterSpec spec reason)

/-- The formatter from its start for every use. -/
def factory {S : Type} (f : Formatter S) : Factory where
  unconfigured := f.render f.start
  configured spec :=
    match f.configure f.start spec with
    | (settings, .ok ()) => .ok (f.render settings)
    | (_, .error e) => .error e

/-- A spec that is accepted leads to settings, with which values are rendered. -/
theorem configured_eq_ok {S : Type} {f : Formatter S} {spec : String} {display : Value → String}
    (h : f.factory.configured spec = .ok display) :
    ∃ settings, f.configure f.start spec = (settings, .ok ()) ∧ display = f.render settings := by
  unfold factory at h
  dsimp only at h
  split at h
  · next settings hconfigure =>
    cases h
    exact ⟨settings, hconfigure, rfl⟩
  · cases h

/-- Shows the text of a value, whatever the spec. -/
def plain : Formatter Unit where
  start := ()
  configure _ _ := ((), .ok ())
  render _ := Value.text

end Formatter

abbrev FormatterTable := CharTable Factory

namespace FormatterTable

/-- How the spec of a placeholder renders a value. The first character is the label; an empty
spec and an unknown label show the text of the value. -/
def select (formatters : FormatterTable) (spec : String) : Except Error (Value → String) :=
  match spec.toList with
  | [] => .ok Value.text
  | label :: rest =>
    ((formatters.find? label).getD Formatter.plain.factory).configured (String.ofList rest)

section
variable {formatters : FormatterTable} {label : Char} {spec rest : String}

/-- The formatter under the first character of a spec is configured by the rest of it. -/
theorem select_of_find? {f : Factory} (hf : formatters.find? label = some f)
    (hspec : spec.toList = label :: rest.toList) :
    formatters.select spec = f.configured rest := by
  unfold select
  rw [hspec]
  dsimp only
  rw [hf, String.ofList_toList]
  rfl

theorem select_of_find?_eq_none (hf : formatters.find? label = none)
    (hspec : spec.toList = label :: rest.toList) : formatters.select spec = .ok Value.text := by
  unfold select
  rw [hspec]
  dsimp only
  rw [hf]
  rfl

end

end FormatterTable

end Interpolation
