/-
  Where tokens are cut out of a pattern. A call for a token is a loop that looks at one byte after
  the other, and when it ends, the text since the call began is a slice of the pattern. The loop
  always ends (`lastLook?_eq`). On its way it stands inside of characters, but it begins and ends
  between two of them, so that the slice exists (`Within.next?_eq`).
-/
import Interpolation.Proofs.Pattern.Step
import Interpolation.Text.Slice
import Mathlib.Logic.Function.Iterate

namespace Interpolation.Pattern

open Text

/-- A report at which a call that began in a state ends. -/
def State.EndsCall (origin s : State) : Prop := s = .error ∨ s ≠ origin ∨ s = .end

instance (origin s : State) : Decidable (origin.EndsCall s) :=
  inferInstanceAs (Decidable (_ ∨ _))

namespace Lexer

variable {pattern : String} {l l' : Lexer}

/-! ## A call as a loop -/

/-- The machine in front of the byte at which a call ends. It is nothing if the call has not ended
after the given number of looks. -/
def lastLook? (origin : State) : Nat → Lexer → Option Lexer
  | 0, _ => none
  | n + 1, l => if origin.EndsCall l.byteStep.1.1 then some l else lastLook? origin n l.byteStep.2

/-- A call for a token of a pattern, with a look for each byte that is left and one more. It is
nothing if these are too few, or if the text that the call has passed is no slice of the pattern. -/
def next? (pattern : String) (l : Lexer) : Option (Except Error Token × Lexer) := do
  let last ← lastLook? l.state (l.rest.length + 1) l
  let text ← slice? pattern l.offset last.offset
  let ((state, _), l') := last.byteStep
  if state = .error then return (.error (.invalidPattern last.offset text), l')
  else return (.ok { state, text, offset := l.offset }, l')

theorem endsCall_afterStretch (l : Lexer) : l.state.EndsCall l.afterStretch.byteStep.1.1 := by
  rcases byteStep_afterStretch l with hne | hend | herror
  · exact .inr (.inl hne)
  · exact .inr (.inr hend)
  · exact .inl herror

theorem length_stretch_le (l : Lexer) : l.stretch.length ≤ l.rest.length :=
  (List.takeWhile_prefix _).length_le

/-- The loop of a call ends behind the bytes that the state stays on. -/
theorem lastLook?_eq {n : Nat} (hn : l.stretch.length < n) :
    lastLook? l.state n l = some l.afterStretch := by
  obtain ⟨n, rfl⟩ := Nat.exists_eq_add_one.2 (Nat.zero_lt_of_lt hn)
  induction l using stretch_induction generalizing n with
  | stop l _ hself =>
    have hends := endsCall_afterStretch l
    rw [hself] at hends ⊢
    rw [lastLook?, if_pos hends]
  | step l b bs hr hb ih =>
    rw [stretch_stays hr hb, List.length_cons, Nat.add_lt_add_iff_right] at hn
    obtain ⟨n, rfl⟩ := Nat.exists_eq_add_one.2 (Nat.zero_lt_of_lt hn)
    have hgoesOn : ¬ l.state.EndsCall l.state := by
      rintro (herror | hne | hend)
      · exact (State.ongoing_of_stays hb).2 herror
      · exact hne rfl
      · exact (State.ongoing_of_stays hb).1 hend
    rw [lastLook?, byteStep_stays hr hb, if_neg hgoesOn, afterStretch_stays hr hb]
    exact ih n hn

/-! ## Places between characters -/

/-- The machine stands between two characters of a pattern, in front of what is left of it. -/
def Within (pattern : String) (l : Lexer) : Prop :=
  ∃ front back, pattern.toList = front ++ back ∧ l.rest = utf8Chars back ∧
    l.offset = utf8Size front

theorem within_ofPattern (pattern : String) : Within pattern (ofPattern pattern) :=
  ⟨[], pattern.toList, rfl, rfl, rfl⟩

theorem Within.atText (h : Within pattern l) : l.AtText := by
  obtain ⟨_, back, -, hrest, -⟩ := h
  exact ⟨back, hrest⟩

theorem Within.isBoundary (h : Within pattern l) : IsBoundary pattern l.offset := by
  obtain ⟨front, back, hpattern, -, hoffset⟩ := h
  exact isBoundary_iff.2 ⟨front, back, hpattern, hoffset⟩

/-- Behind whole characters the machine stands between two of them again, and the characters are
what lies between the two places. -/
theorem Within.move {t cs : List Char} (h : Within pattern l)
    (hrest : l.rest = utf8Chars t ++ l'.rest) (hcs : l'.rest = utf8Chars cs)
    (hoffset : l'.offset = l.offset + utf8Size t) :
    Within pattern l' ∧ slice? pattern l.offset l'.offset = some (String.ofList t) := by
  obtain ⟨front, back, hpattern, hback, hfront⟩ := h
  have hsplit : back = t ++ cs := by
    apply utf8Chars_injective
    rw [← hback, hrest, hcs, utf8Chars_append]
  have hpattern : pattern.toList = front ++ (t ++ cs) := by rw [hpattern, hsplit]
  refine ⟨⟨front ++ t, cs, ?_, hcs, ?_⟩, ?_⟩
  · rw [hpattern, List.append_assoc]
  · rw [hoffset, hfront, utf8Size_append]
  · rw [hoffset, hfront, slice?_middle hpattern]

/-- A stretch is a slice, so the loop of a call ends between two characters. -/
theorem Within.afterStretch (h : Within pattern l) :
    Within pattern l.afterStretch ∧
      slice? pattern l.offset l.afterStretch.offset = some (spelled l.stretch) := by
  obtain ⟨cs, hcs⟩ := h.atText
  have hstretch : l.stretch = utf8Chars (cs.takeWhile l.state.staysOn) := by
    unfold stretch
    rw [hcs, takeWhile_utf8Chars l.state.stays_of_mem_encoding]
  have hafter : l.afterStretch.rest = utf8Chars (cs.dropWhile l.state.staysOn) := by
    show l.rest.dropWhile l.state.stays = _
    rw [hcs, dropWhile_utf8Chars l.state.stays_of_mem_encoding]
  have hoffset : l.afterStretch.offset =
      l.offset + utf8Size (cs.takeWhile l.state.staysOn) := by
    show l.offset + l.stretch.length = _
    rw [hstretch, length_utf8Chars]
  rw [hstretch, spelled_utf8Chars]
  refine h.move ?_ hafter hoffset
  rw [← hstretch]
  exact stretch_append_afterStretch l

theorem delimiter_eq_utf8Chars (s : State) :
    ∃ t, s.delimiter = utf8Chars t ∧ s.delimiter.length = utf8Size t := by
  have h : ∃ t, s.delimiter = utf8Chars t := by
    cases s with
    | placeholderStart | exprBody => exact ⟨['{'], rfl⟩
    | parseFormatterSpec => exact ⟨[':'], rfl⟩
    | placeholderEnd | exprBodyEnd => exact ⟨['}'], rfl⟩
    | start | literal | parseIndex | «end» | error => exact ⟨[], rfl⟩
  obtain ⟨t, ht⟩ := h
  exact ⟨t, ht, by rw [ht, length_utf8Chars]⟩

theorem Within.tokenStep (h : Within pattern l) : Within pattern l.tokenStep.2 := by
  obtain ⟨hrest, hoffset, cs, hcs⟩ := byteStep_afterStretch_run h.atText
  obtain ⟨t, ht, hlength⟩ := delimiter_eq_utf8Chars l.afterStretch.byteStep.1.1
  rw [tokenStep_snd]
  rw [ht] at hrest
  rw [hlength] at hoffset
  exact (h.afterStretch.1.move hrest hcs hoffset).1

/-- A call for a token finds the slice that it needs, and does what the machine does. -/
theorem Within.next?_eq (h : Within pattern l) : l.next? pattern = some l.tokenStep := by
  unfold next? Lexer.tokenStep
  rw [lastLook?_eq (Nat.lt_succ_of_le l.length_stretch_le), Option.bind_eq_bind, Option.bind_some,
    h.afterStretch.2, Option.bind_eq_bind, Option.bind_some]
  dsimp only
  split <;> rfl

/-- A call for a token of a pattern ends, and cuts its text out of the pattern between characters:
at the place where the call begins, and at the one where it ends. -/
def Cuts (pattern : String) (l : Lexer) : Prop :=
  ∃ last, lastLook? l.state (l.rest.length + 1) l = some last ∧
    l.offset ≤ last.offset ∧ last.offset ≤ pattern.utf8ByteSize ∧
    IsBoundary pattern l.offset ∧ IsBoundary pattern last.offset ∧
    l.next? pattern = some l.tokenStep

theorem Within.cuts (h : Within pattern l) : Cuts pattern l :=
  ⟨l.afterStretch, lastLook?_eq (Nat.lt_succ_of_le l.length_stretch_le), Nat.le_add_right _ _,
    h.afterStretch.1.isBoundary.le, h.isBoundary, h.afterStretch.1.isBoundary, h.next?_eq⟩

/-- The machine in front of a call for a token of a pattern, behind some calls. -/
def behindCalls (pattern : String) (n : Nat) : Lexer :=
  (fun l : Lexer => l.tokenStep.2)^[n] (ofPattern pattern)

theorem within_behindCalls (pattern : String) (n : Nat) :
    Within pattern (behindCalls pattern n) := by
  induction n with
  | zero => exact within_ofPattern pattern
  | succ n ih =>
    unfold behindCalls at ih ⊢
    rw [Function.iterate_succ_apply']
    exact ih.tokenStep

end Lexer

end Interpolation.Pattern
