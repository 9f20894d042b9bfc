/-
  The formatters that an engine starts with, each under its label.
-/
import Interpolation.Formatter.Clock
import Interpolation.Formatter.Mask
import Interpolation.Formatter.Printf.Rendering

namespace Interpolation.FormatterTable

/-- `%` for printf specs, `@` for times and `*` for masks. -/
def standard : FormatterTable :=
  ((CharTable.empty.insert '%' Formatter.printf.factory).insert '@'
    Formatter.clock.factory).insert '*' Formatter.mask.factory

end Interpolation.FormatterTable
