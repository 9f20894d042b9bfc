/-
  Values of other kinds of data. An integer that fits a signed word is one, whatever type it had;
  only a larger one is unsigned. JSON that holds other JSON becomes its compact text.
-/
import Interpolation.Json.Writer
import Interpolation.Value

namespace Interpolation

open Calendar

/-- Data that a pattern takes as an argument. -/
class ToValue (α : Type) where
  toValue : α → Value

export ToValue (toValue)

namespace Value

/-- The value of an unsigned word. -/
def ofUnsigned (n : UInt64) : Value :=
  if n.toNat ≤ Text.maxSigned then .int (.ofNat n.toNat) else .uint n

/-- The value of an integer that fits a signed or an unsigned word. -/
def ofInteger (n : Int) : Value :=
  if n < 0 then .int (.ofInt n) else ofUnsigned (.ofNat n.toNat)

/-- The value of JSON data. -/
def ofJson : Json → Value
  | .null => .null
  | .bool b => .bool b
  | .integer n => ofInteger n
  | .float x => .float x
  | .str s => .str s
  | v => .str v.compact

end Value

instance : ToValue String := ⟨.str⟩
instance : ToValue Char := ⟨fun c => .str c.toString⟩
instance : ToValue Bool := ⟨.bool⟩
instance : ToValue Int8 := ⟨fun n => .int n.toInt64⟩
instance : ToValue Int16 := ⟨fun n => .int n.toInt64⟩
instance : ToValue Int32 := ⟨fun n => .int n.toInt64⟩
instance : ToValue Int64 := ⟨.int⟩
instance : ToValue ISize := ⟨fun n => .int n.toInt64⟩
instance : ToValue UInt8 := ⟨fun n => .int (.ofNat n.toNat)⟩
instance : ToValue UInt16 := ⟨fun n => .int (.ofNat n.toNat)⟩
instance : ToValue UInt32 := ⟨fun n => .int (.ofNat n.toNat)⟩
instance : ToValue UInt64 := ⟨.ofUnsigned⟩
instance : ToValue USize := ⟨fun n => .ofUnsigned n.toUInt64⟩
instance : ToValue Binary64 := ⟨.float⟩
instance : ToValue Moment := ⟨.time⟩
instance : ToValue Json := ⟨.ofJson⟩

instance {α : Type} [ToValue α] : ToValue (Option α) :=
  ⟨fun | none => .null | some x => toValue x⟩

end Interpolation
