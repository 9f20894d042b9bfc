/-
  The mask formatter hides a value behind a repeated character: as often as a length in the spec
  says, or else once for every character of the value's text.
-/
import Interpolation.Formatter.Basic

namespace Interpolation.Formatter

structure MaskSettings where
  mask : Char := '*'
  length : Option Nat := none
deriving DecidableEq, Repr

namespace MaskSettings

/-- A length of zero stands for that of the value. -/
def readLength : List Char → Except String (Option Nat)
  | [] => .ok none
  | cs => do
    let n ← fieldNumber "length" cs
    return if n = 0 then none else some n

/-- The mask and a length. The mask is kept even if the length is refused. -/
def configure (settings : MaskSettings) (spec : String) : MaskSettings × Except Error Unit :=
  match spec.toList with
  | [] => ({}, .ok ())
  | mask :: rest =>
    match readLength rest with
    | .ok length => ({ mask, length }, .ok ())
    | .error reason => ({ settings with mask }, refusal spec reason)

def render (settings : MaskSettings) (v : Value) : String :=
  String.ofList (List.replicate (settings.length.getD v.text.toList.length) settings.mask)

end MaskSettings

def mask : Formatter MaskSettings where
  start := {}
  configure := MaskSettings.configure
  render := MaskSettings.render

end Interpolation.Formatter
