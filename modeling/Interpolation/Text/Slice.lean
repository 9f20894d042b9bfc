/-
  Slices: the text between two places of a text, which are counted in bytes. A slice may not split
  a character, so it is taken between boundaries only.
-/
import Interpolation.Text.Utf8

namespace Interpolation.Text

/-- A place between two characters of a text, or at one of its ends. -/
def IsBoundary (s : String) (n : Nat) : Prop := (⟨n⟩ : String.Pos.Raw).IsValid s

instance (s : String) (n : Nat) : Decidable (IsBoundary s n) :=
  inferInstanceAs (Decidable ((⟨n⟩ : String.Pos.Raw).IsValid s))

/-- The text between two places, if they are in order and neither splits a character. -/
def slice? (s : String) (start stop : Nat) : Option String :=
  if start ≤ stop ∧ IsBoundary s start ∧ IsBoundary s stop then
    ofUtf8? ((utf8 s).extract start stop)
  else none

theorem utf8ByteSize_ofList (cs : List Char) : (String.ofList cs).utf8ByteSize = utf8Size cs := by
  have h : (String.ofList cs).toByteArray = (utf8Chars cs).toByteArray := by
    rw [String.toByteArray_ofList]
    rfl
  rw [← String.size_toByteArray, h, List.size_toByteArray, length_utf8Chars]

theorem utf8Size_toList (s : String) : utf8Size s.toList = s.utf8ByteSize := by
  rw [← utf8ByteSize_ofList, String.ofList_toList]

theorem length_le_utf8Size (cs : List Char) : cs.length ≤ utf8Size cs := by
  induction cs with
  | nil => exact Nat.le_refl _
  | cons c cs ih =>
    have := c.utf8Size_pos
    rw [List.length_cons, utf8Size_cons]
    omega

/-- A boundary is where the characters of a text can be parted. -/
theorem isBoundary_iff {s : String} {n : Nat} :
    IsBoundary s n ↔ ∃ front back, s.toList = front ++ back ∧ n = utf8Size front := by
  unfold IsBoundary
  rw [String.Pos.Raw.isValid_iff_exists_append]
  constructor
  · rintro ⟨s₁, s₂, rfl, hn⟩
    refine ⟨s₁.toList, s₂.toList, String.toList_append, ?_⟩
    rw [utf8Size_toList]
    exact congrArg String.Pos.Raw.byteIdx hn
  · rintro ⟨front, back, hs, rfl⟩
    refine ⟨String.ofList front, String.ofList back, ?_, ?_⟩
    · rw [← String.ofList_append, ← hs, String.ofList_toList]
    · exact String.Pos.Raw.ext (utf8ByteSize_ofList front).symm

theorem isBoundary_zero (s : String) : IsBoundary s 0 := isBoundary_iff.2 ⟨[], s.toList, rfl, rfl⟩

theorem IsBoundary.le {s : String} {n : Nat} (h : IsBoundary s n) : n ≤ s.utf8ByteSize := by
  obtain ⟨front, back, hs, rfl⟩ := isBoundary_iff.1 h
  rw [← utf8Size_toList, hs, utf8Size_append]
  exact Nat.le_add_right _ _

/-- The slice of the middle of a text that is parted twice. -/
theorem slice?_middle {s : String} {front mid back : List Char}
    (h : s.toList = front ++ (mid ++ back)) :
    slice? s (utf8Size front) (utf8Size front + utf8Size mid) = some (String.ofList mid) := by
  have hstart : IsBoundary s (utf8Size front) := isBoundary_iff.2 ⟨front, mid ++ back, h, rfl⟩
  have hstop : IsBoundary s (utf8Size front + utf8Size mid) := by
    refine isBoundary_iff.2 ⟨front ++ mid, back, ?_, (utf8Size_append front mid).symm⟩
    rw [h, List.append_assoc]
  have hbytes : (utf8 s).extract (utf8Size front) (utf8Size front + utf8Size mid) =
      utf8Chars mid := by
    unfold utf8
    rw [h, utf8Chars_append, utf8Chars_append, ← length_utf8Chars, ← length_utf8Chars]
    simp [List.extract]
  unfold slice?
  rw [if_pos ⟨Nat.le_add_right _ _, hstart, hstop⟩, hbytes, ofUtf8?_utf8Chars]

end Interpolation.Text
