/-
  The time formatter lays out a moment; any other value is read as seconds after 1970-01-01
  00:00:00. Its spec names a layout or spells one, in which six letters stand for the fields.
-/
import Interpolation.Formatter.Basic
import Interpolation.Text.Blank

namespace Interpolation.Formatter

open Text Calendar

namespace Clock

/-- The layouts with a name of their own. -/
def named : List (String × String) :=
  [("datetime", "%Y-%m-%d %H:%M:%S"), ("YMDhms", "%Y-%m-%d %H:%M:%S"),
    ("date", "%Y-%m-%d"), ("YMD", "%Y-%m-%d"), ("time", "%H:%M:%S"), ("hms", "%H:%M:%S")]

/-- The directive that a letter of a spec stands for; any other character stands for itself. -/
def directive : Char → List Char
  | 'Y' => ['%', 'Y']
  | 'M' => ['%', 'm']
  | 'D' => ['%', 'd']
  | 'h' => ['%', 'H']
  | 'm' => ['%', 'M']
  | 's' => ['%', 'S']
  | '%' => ['%', '%']
  | c => [c]

/-- The layout that a spec asks for. -/
def layout (spec : String) : String :=
  match named.lookup spec with
  | some l => l
  | none =>
    if spec.isEmpty then defaultLayout
    else String.ofList (spec.toList.flatMap directive)

/-- The text of a value as a number of seconds. Blanks around a text are no part of it. -/
def secondsText : Value → List Char
  | .str s => trim s.toList
  | v => v.text.toList

def render (layout : String) : Value → String
  | .time m => m.layOut layout
  | v =>
    match readInteger (secondsText v) with
    | .error e => e.message
    | .ok seconds =>
      match Moment.ofSeconds? seconds with
      | some m => m.layOut layout
      | none => "timestamp " ++ decimalInt seconds ++ " out of range"

end Clock

/-- The settings are a layout. -/
def clock : Formatter String where
  start := defaultLayout
  configure _ spec := (Clock.layout spec, .ok ())
  render := Clock.render

end Interpolation.Formatter
