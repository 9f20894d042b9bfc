/-
  The width of what is shown. What is shorter than the width is filled up to just this many
  characters, once, and nothing else is changed: with spaces behind or in front, or with zeros
  behind the sign and the mark of a number (`render_width`).

  Zeros are counted against bytes and spaces against characters; numbers are ASCII, so that this
  makes no difference.
-/
import Interpolation.Proofs.Formatter.Printf.Figures

namespace Interpolation.Formatter.Printf

open Text

/-- How a value is shown with a width, by what is shown of it without one. -/
structure Filled (s : Settings) (v : Value) (w : Nat) (body shown : List Char) : Prop where
  /-- nothing is cut off -/
  long : w ≤ body.length → shown = body
  exact : body.length < w → shown.length = w
  left : body.length < w → s.flags.left →
    shown = body ++ List.replicate (w - body.length) ' '
  zeros : body.length < w → ¬ s.flags.left → s.flags.zero → s.verb.ShowsNumber v →
    ∃ digits, body = s.head v ++ digits ∧
      shown = s.head v ++ (List.replicate (w - body.length) '0' ++ digits)
  right : body.length < w → ¬ s.flags.left → ¬ (s.flags.zero ∧ s.verb.ShowsNumber v) →
    shown = List.replicate (w - body.length) ' ' ++ body

namespace Settings

variable {s : Settings} {v : Value}

/-! ## Signs and marks -/

theorem ascii_sign (s : Settings) (negative : Bool) : Ascii (s.sign negative) := by
  unfold sign
  split
  · decide
  · split
    · decide
    · split <;> decide

theorem ascii_mark (verb : Verb) (v : Value) : Ascii (verb.mark v) := by
  cases verb with
  | integer radix =>
    unfold Verb.mark
    dsimp only
    split
    · rcases radix with _ | _ | _ | _ | _ <;> decide
    · decide
  | generic | text | quoted | fixed _ | scientific _ | truth | character =>
    exact List.forall_mem_nil _

theorem ascii_head (s : Settings) (v : Value) : Ascii (s.head v) := by
  refine (s.ascii_sign _).append ?_
  split
  · exact ascii_mark s.verb v
  · decide

/-! ## Numbers and texts with a width -/

theorem head_of_shows {n : Figure} (h : n.Shows s v) :
    s.sign n.negative ++ n.mark = s.head v := by
  unfold head
  rw [h.negative, h.mark]

theorem fillFigure_none {n : Figure} (h : n.Shows s v) :
    { s with width := none }.fillFigure n = s.head v ++ n.digits := by
  rw [← head_of_shows h]
  unfold fillFigure
  dsimp only
  split
  · rw [Option.getD_none, Nat.zero_sub]
    rfl
  · exact fill_of_le (Nat.zero_le _)

/-- The zeros of a number are counted as its characters are. -/
theorem fillFigure_some {n : Figure} (h : n.Shows s v) (w : Nat) :
    { s with width := some w }.fillFigure n =
      if s.flags.zero && !s.flags.left then
        s.head v ++ (List.replicate (w - (s.head v ++ n.digits).length) '0' ++ n.digits)
      else { s with width := some w }.fill (s.head v ++ n.digits) := by
  have hsize : utf8Size (s.head v) + utf8Size n.digits = (s.head v ++ n.digits).length := by
    rw [(s.ascii_head v).utf8Size, h.ascii.utf8Size, List.length_append]
  rw [← hsize, ← head_of_shows h]
  rfl

theorem length_fill (s : Settings) (body : List Char) (w : Nat) :
    ({ s with width := some w }.fill body).length = max w body.length := by
  unfold fill
  dsimp only
  split
  · simp only [Option.getD_some, List.length_append, List.length_replicate]
    omega
  · simp only [Option.getD_some, List.length_append, List.length_replicate]
    omega

/-- What is filled with spaces. -/
theorem filled_fill (body : List Char) (w : Nat)
    (h : ¬ s.flags.left → ¬ (s.flags.zero ∧ s.verb.ShowsNumber v)) :
    Filled s v w body ({ s with width := some w }.fill body) where
  long hle := fill_of_le hle
  exact hlt := by
    rw [length_fill]
    omega
  left _ hleft := if_pos hleft
  zeros _ hleft hzero hnumber := absurd ⟨hzero, hnumber⟩ (h hleft)
  right _ hleft _ := if_neg hleft

/-- What is filled with zeros. -/
theorem filled_zeros (digits : List Char) (w : Nat) (hleft : ¬ s.flags.left) (hzero : s.flags.zero)
    (hnumber : s.verb.ShowsNumber v) :
    Filled s v w (s.head v ++ digits)
      (s.head v ++ (List.replicate (w - (s.head v ++ digits).length) '0' ++ digits)) where
  long hle := by
    rw [Nat.sub_eq_zero_of_le hle]
    rfl
  exact hlt := by
    simp only [List.length_append, List.length_replicate] at hlt ⊢
    omega
  left _ h := absurd h hleft
  zeros _ _ _ _ := ⟨digits, rfl, rfl⟩
  right _ _ h := absurd ⟨hzero, hnumber⟩ h

end Settings

/-- With a width, what is shown without one is filled up to it: on the right with spaces, behind
the sign and the mark with zeros if it is a number, or else on the left with spaces. -/
theorem render_width (s : Settings) (w : Nat) (v : Value) :
    Filled s v w ({ s with width := none }.render v).toList
      ({ s with width := some w }.render v).toList := by
  -- with and without the width it is the same number, or the same text, that is filled
  rcases s.shown v with ⟨hnumber, n, hn, hshown⟩ | ⟨hnumber, body, hshown⟩
  · rw [hshown none, hshown (some w), Settings.fillFigure_none hn, Settings.fillFigure_some hn]
    split
    · next hzeros =>
      simp only [Bool.and_eq_true, Bool.not_eq_true', ← Bool.not_eq_true] at hzeros
      exact Settings.filled_zeros n.digits w hzeros.2 hzeros.1 hnumber
    · next hspaces =>
      refine Settings.filled_fill _ w fun hleft hzero => hspaces ?_
      rw [hzero.1, Bool.eq_false_iff.2 hleft]
      rfl
  · have hbody : { s with width := none }.fill body = body := Settings.fill_of_le (Nat.zero_le _)
    rw [hshown none, hshown (some w), hbody]
    exact Settings.filled_fill body w fun _ h => hnumber h.2

/-- A negative number in hexadecimal has its zeros behind the mark, and a text of three characters
and nine bytes is filled with three spaces. -/
theorem render_width_marked :
    let s : Settings := ⟨{ zero := true, alternate := true }, none, none,
      .integer (.hexadecimal false)⟩
    let t : Settings := ⟨{ left := true, zero := true }, none, some 3, .text⟩
    let v : Value := .int (-255)
    let text : Value := .str "\u2026\u2026\u2026\u2026"
    (s.render v).toList.length < 9 ∧ ¬ s.flags.left ∧ s.flags.zero ∧ s.verb.ShowsNumber v ∧
      (t.render text).toList.length < 6 ∧ t.flags.left ∧
      ({ s with width := some 9 }.render v).toList = "-0x0000ff".toList ∧
      ({ t with width := some 6 }.render text).toList = "\u2026\u2026\u2026   ".toList := by
  intro s t v text
  have hshort : (s.render v).toList.length < 9 := by decide
  have hright : ¬ s.flags.left := by decide
  have hnumber : s.verb.ShowsNumber v := .integer _ rfl
  have hshort' : (t.render text).toList.length < 6 := by decide
  obtain ⟨digits, hbody, hzeros⟩ := (render_width s 9 v).zeros hshort hright rfl hnumber
  have hleft := (render_width t 6 text).left hshort' rfl
  have hdigits : digits = ['f', 'f'] :=
    List.append_cancel_left (hbody.symm.trans (by decide : _ = s.head v ++ ['f', 'f']))
  subst hdigits
  exact ⟨hshort, hright, rfl, hnumber, hshort', rfl, hzeros.trans (by decide),
    hleft.trans (by decide)⟩

end Interpolation.Formatter.Printf
