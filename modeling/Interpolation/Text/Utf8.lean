/-
  Text as UTF-8 bytes: the encoding, its size, and the reading back of a byte list. Main
  statement: what was encoded is read back (`ofUtf8?_utf8Chars`).
-/
namespace Interpolation.Text

/-- The bytes of a list of characters. -/
def utf8Chars (cs : List Char) : List UInt8 := cs.flatMap String.utf8EncodeChar

/-- The bytes of a text. -/
def utf8 (s : String) : List UInt8 := utf8Chars s.toList

/-- The number of bytes that a list of characters takes. -/
def utf8Size (cs : List Char) : Nat := cs.foldr (fun c n => c.utf8Size + n) 0

/-- The text that some bytes spell, if they are well-formed UTF-8. -/
def ofUtf8? (bytes : List UInt8) : Option String := String.fromUTF8? bytes.toByteArray

theorem utf8Chars_append (a b : List Char) : utf8Chars (a ++ b) = utf8Chars a ++ utf8Chars b := by
  simp [utf8Chars]

theorem utf8Size_cons (c : Char) (cs : List Char) :
    utf8Size (c :: cs) = c.utf8Size + utf8Size cs := rfl

theorem utf8Size_append (a b : List Char) : utf8Size (a ++ b) = utf8Size a + utf8Size b := by
  induction a with
  | nil => exact (Nat.zero_add (utf8Size b)).symm
  | cons c cs ih => rw [List.cons_append, utf8Size_cons, utf8Size_cons, ih, Nat.add_assoc]

theorem length_utf8Chars (cs : List Char) : (utf8Chars cs).length = utf8Size cs := by
  induction cs with
  | nil => rfl
  | cons c cs ih =>
    rw [utf8Size_cons, ← ih, ← String.length_utf8EncodeChar, ← List.length_append]
    rfl

theorem ofUtf8?_utf8Chars (cs : List Char) : ofUtf8? (utf8Chars cs) = some (String.ofList cs) := by
  have h : (utf8Chars cs).toByteArray = (String.ofList cs).toByteArray := by
    rw [String.toByteArray_ofList]; rfl
  unfold ofUtf8? String.fromUTF8?
  rw [h, dif_pos (String.ofList cs).isValidUTF8]
  rfl

theorem utf8Chars_injective {a b : List Char} (h : utf8Chars a = utf8Chars b) : a = b := by
  have htext : some (String.ofList a) = some (String.ofList b) := by
    rw [← ofUtf8?_utf8Chars, ← ofUtf8?_utf8Chars, h]
  rw [← String.toList_ofList (l := a), Option.some.inj htext, String.toList_ofList]

end Interpolation.Text
