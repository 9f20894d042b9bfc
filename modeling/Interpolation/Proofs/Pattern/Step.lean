/-
  One call for a token. The text of a token is what the machine reads without leaving its state,
  and behind the text it skips the delimiter of the state that it goes into (`tokenStep_ok`). A
  machine that has failed fails again at the same place (`tokenStep_failed`), and one that has
  stopped gives end tokens without text (`tokenStep_stopped`).
-/
import Interpolation.Proofs.Pattern.Tokens

namespace Interpolation.Pattern

open Text

/-- The byte that is skipped on the way into a state. -/
def State.delimiter : State → List UInt8
  | placeholderStart | exprBody => ['{'.toUInt8]
  | parseFormatterSpec => [':'.toUInt8]
  | placeholderEnd | exprBodyEnd => ['}'.toUInt8]
  | _ => []

/-! ## Changes of state -/

namespace State

variable {s s' : State} {k : ByteClass} {c : Char}

theorem delimiter_of_kept (h : s.step k = (s', false)) : s'.delimiter = [] := by
  cases s <;> cases k <;> cases h <;> rfl

theorem delimiter_of_used (h : s.step (.ofChar c) = (s', true)) (hne : s' ≠ s) :
    s'.delimiter = String.utf8EncodeChar c := by
  have hk := ByteClass.has_ofChar c
  generalize ByteClass.ofChar c = k at h hk
  cases s <;> cases k <;> cases h <;> first | exact absurd rfl hne | (cases hk; rfl)

theorem zero_not_mem_delimiter (s : State) : 0 ∉ s.delimiter := by
  cases s <;> decide

/-- A machine that fails on a byte leaves it, reads no byte that it could stay on, and fails on
it again. -/
theorem step_error (h : (s.step k).1 = .error) :
    (s.step k).2 = false ∧ error.step k = (error, false) := by
  cases s <;> cases k <;> simp_all [step]

theorem stays_of_step_error (h : (s.step k).1 = .error) (b : UInt8) : s.stays b = false := by
  have hs : s = placeholderStart ∨ s = exprBodyEnd ∨ s = error := by
    cases s <;> cases k <;> simp_all [step]
  unfold stays next
  rcases hs with rfl | rfl | rfl <;> cases ByteClass.of b <;> rfl

/-- Neither a machine that has stopped nor one that has failed uses a byte up. -/
theorem ongoing_of_used (h : (s.step k).2 = true) : s ≠ .end ∧ s ≠ .error := by
  cases s <;> cases k <;> simp_all [step]

theorem ongoing_of_stays {b : UInt8} (h : s.stays b) : s ≠ .end ∧ s ≠ .error :=
  ongoing_of_used (k := .of b) (congrArg Prod.snd (eq_of_beq h))

/-- The machine stops at a NUL, or at a byte that cannot stand behind the digits of an index. -/
theorem step_end (hs : s ≠ .end) (h : (s.step k).1 = .end) :
    k = .nul ∨ s = .parseIndex ∧ k ≠ .digit ∧ k ≠ .colon ∧ k ≠ .closing := by
  cases s <;> cases k <;> simp_all [step]

theorem step_spec_ne_error : (parseFormatterSpec.step k).1 ≠ error := by
  cases k <;> nofun

/-- The digits of an index end where the placeholder does, or in front of its spec. -/
theorem step_index (h : (parseIndex.step k).1 = s) (hs : s ≠ parseIndex) (hend : s ≠ .end) :
    s = placeholderEnd ∨ s = parseFormatterSpec := by
  subst h
  cases k <;> simp_all [step]

theorem kept_of_step_end (hs : s ≠ .end) (h : (s.step k).1 = .end) : (s.step k).2 = false := by
  cases s <;> cases k <;> simp_all [step]

end State

theorem ByteClass.eq_zero_of_nul {b : UInt8} (h : ByteClass.of b = .nul) : b = 0 := by
  unfold ByteClass.of at h
  by_cases h0 : b = 0
  · exact h0
  · rw [if_neg h0] at h
    repeat' split at h
    all_goals cases h

namespace Token

/-- Where the text ends, in bytes. -/
def stop (t : Token) : Nat := t.offset + (utf8 t.text).length

/-- Where the next token begins: behind the text and the delimiter that was skipped. -/
def next (t : Token) : Nat := t.stop + t.state.delimiter.length

end Token

/-- The state that the machine was in when it gave an item. -/
def itemState : Except Error Token → State
  | .ok t => t.state
  | .error _ => .error

namespace Lexer

variable {l l' : Lexer} {t : Token} {e : Error}

/-! ## What a call reports -/

theorem state_byteStep (l : Lexer) : l.byteStep.2.state = l.byteStep.1.1 := by
  by_cases hs : l.state = .end
  · rw [byteStep_end hs]
    exact hs
  cases hr : l.rest with
  | nil => simp [byteStep, hs, hr]
  | cons b bs =>
    rw [byteStep_cons hs hr]
    dsimp only
    split <;> rfl

theorem tokenStep_snd (l : Lexer) : l.tokenStep.2 = l.afterStretch.byteStep.2 := by
  unfold tokenStep
  dsimp only
  split <;> rfl

theorem itemState_tokenStep (l : Lexer) :
    itemState l.tokenStep.1 = l.afterStretch.byteStep.1.1 := by
  unfold tokenStep
  dsimp only
  split
  · next h => exact h.symm
  · rfl

theorem byteStep_error (h : l.byteStep.1.1 = .error) :
    ∃ b bs, l.rest = b :: bs ∧ (l.state.next b).1 = .error ∧
      l.byteStep = ((.error, b), { l with state := .error }) := by
  by_cases hs : l.state = .end
  · rw [byteStep_end hs] at h
    cases h
  cases hr : l.rest with
  | nil =>
    rw [byteStep_nil hr] at h
    cases h
  | cons b bs =>
    rw [byteStep_cons hs hr] at h ⊢
    have he : (l.state.next b).1 = .error := h
    have hu : (l.state.next b).2 = false := (State.step_error he).1
    refine ⟨b, bs, rfl, he, ?_⟩
    rw [he, hu, ← hr]
    rfl

/-! ## Stretches, byte by byte -/

theorem byteStep_stays {b : UInt8} {bs : List UInt8} (hr : l.rest = b :: bs)
    (hb : l.state.stays b) :
    l.byteStep = ((l.state, b), { rest := bs, offset := l.offset + 1, state := l.state }) := by
  have hnext : l.state.next b = (l.state, true) := eq_of_beq hb
  rw [byteStep_cons (State.ongoing_of_stays hb).1 hr, hnext]
  rfl

theorem stretch_stays {b : UInt8} {bs : List UInt8} (hr : l.rest = b :: bs)
    (hb : l.state.stays b) :
    l.stretch = b :: stretch { rest := bs, offset := l.offset + 1, state := l.state } := by
  unfold stretch
  rw [hr]
  exact List.takeWhile_cons_of_pos hb

theorem afterStretch_stays {b : UInt8} {bs : List UInt8} (hr : l.rest = b :: bs)
    (hb : l.state.stays b) :
    l.afterStretch =
      afterStretch { rest := bs, offset := l.offset + 1, state := l.state } := by
  unfold afterStretch
  rw [stretch_stays hr hb, hr]
  dsimp only
  rw [List.dropWhile_cons_of_pos hb, List.length_cons, Nat.add_right_comm, Nat.add_assoc]

theorem afterStretch_eq_self (h : ∀ b ∈ l.rest.head?, l.state.stays b = false) :
    l.stretch = [] ∧ l.afterStretch = l := by
  obtain ⟨rest, offset, s⟩ := l
  cases rest with
  | nil => exact ⟨rfl, rfl⟩
  | cons b bs =>
    have hb : ¬ s.stays b := by simpa using h b rfl
    have hnil : stretch ⟨b :: bs, offset, s⟩ = [] := List.takeWhile_cons_of_neg hb
    refine ⟨hnil, ?_⟩
    unfold afterStretch
    rw [hnil]
    dsimp only
    rw [List.dropWhile_cons_of_neg hb]
    rfl

/-- What holds of a machine that does not stay on its next byte, and of one that does if it holds
behind that byte, holds of every machine. -/
theorem stretch_induction {P : Lexer → Prop}
    (stop : ∀ l : Lexer, l.stretch = [] → l.afterStretch = l → P l)
    (step : ∀ (l : Lexer) (b : UInt8) (bs : List UInt8), l.rest = b :: bs → l.state.stays b →
      P { rest := bs, offset := l.offset + 1, state := l.state } → P l) (l : Lexer) : P l := by
  obtain ⟨rest, offset, s⟩ := l
  induction rest generalizing offset with
  | nil => exact stop _ rfl rfl
  | cons b bs ih =>
    by_cases hb : s.stays b
    · exact step _ b bs rfl hb (ih (offset + 1))
    · have hself := afterStretch_eq_self (l := ⟨b :: bs, offset, s⟩) fun c hc => by
        cases hc
        simpa using hb
      exact stop _ hself.1 hself.2

/-! ## Calls that fail, and calls behind the end -/

/-- A call fails on the byte that it begins with. -/
theorem tokenStep_error (h : l.tokenStep = (.error e, l')) :
    ∃ b bs, l.rest = b :: bs ∧ (l.state.next b).1 = .error ∧
      e = .invalidPattern l.offset "" ∧ l' = { l with state := .error } := by
  have hreport : l.afterStretch.byteStep.1.1 = .error := by
    rw [← itemState_tokenStep, h]
    rfl
  obtain ⟨b, bs, hrest, hnext, hstep⟩ := byteStep_error hreport
  obtain ⟨hnil, hself⟩ := afterStretch_eq_self (l := l) fun b _ => State.stays_of_step_error hnext b
  rw [hself] at hrest hnext hstep
  refine ⟨b, bs, hrest, hnext, ?_⟩
  unfold tokenStep at h
  rw [hself, hnil, hstep] at h
  cases h
  exact ⟨rfl, rfl⟩

/-- Once it has failed on a byte, the machine fails on it at every look. -/
theorem byteStep_failed {b : UInt8} {bs : List UInt8} {s : State} (hr : l.rest = b :: bs)
    (hs : l.state = .error) (hb : (s.next b).1 = .error) : l.byteStep = ((.error, b), l) := by
  have hnext : l.state.next b = (.error, false) := by
    rw [hs]
    exact (State.step_error hb).2
  rw [byteStep_cons (by rw [hs]; decide) hr, hnext]
  cases l
  simp_all

theorem tokenStep_failed {b : UInt8} {bs : List UInt8} {s : State} (hr : l.rest = b :: bs)
    (hs : l.state = .error) (hb : (s.next b).1 = .error) :
    l.tokenStep = (.error (.invalidPattern l.offset ""), l) := by
  have hstep := byteStep_failed hr hs hb
  have hself : l.stretch = [] ∧ l.afterStretch = l := by
    refine afterStretch_eq_self fun c _ => State.stays_of_step_error (k := .of b) ?_ c
    rw [hs]
    exact congrArg Prod.fst (State.step_error hb).2
  unfold tokenStep
  rw [hself.1, hself.2, hstep]
  rfl

theorem tokenStep_stopped (hs : l.state = .end) :
    l.tokenStep = (.ok { state := .end, text := "", offset := l.offset }, l) := by
  have hself : l.stretch = [] ∧ l.afterStretch = l := by
    refine afterStretch_eq_self fun b _ => ?_
    rw [hs]
    unfold State.stays State.next
    cases ByteClass.of b <;> rfl
  unfold tokenStep
  rw [hself.1, hself.2, byteStep_end hs]
  rfl

/-! ## Calls that give a token -/

/-- The machine stands in front of whole characters. -/
def AtText (l : Lexer) : Prop := ∃ cs, l.rest = utf8Chars cs

/-- At the end of a run the machine skips the delimiter of the state that it goes into. -/
theorem byteStep_run {s : State} {rest : List Char} (offset : Nat) (hr : Ends s.staysOn rest) :
    ∃ r, (before rest offset s).byteStep = r ∧ utf8Chars rest = r.1.1.delimiter ++ r.2.rest ∧
      r.2.offset = offset + r.1.1.delimiter.length ∧ r.2.AtText := by
  refine ⟨_, rfl, ?_⟩
  by_cases hs : s = .end
  · rw [byteStep_end (l := before rest offset s) hs]
    exact ⟨rfl, rfl, rest, rfl⟩
  cases rest with
  | nil =>
    have hstep : (before [] offset s).byteStep = ((.end, 0), before [] offset .end) := by
      simp [byteStep, before, hs, utf8Chars]
    rw [hstep]
    exact ⟨rfl, rfl, [], rfl⟩
  | cons c cs =>
    rcases hstep : s.step (.ofChar c) with ⟨s', used⟩
    cases used with
    | false =>
      obtain ⟨b, hb⟩ := byteStep_before_kept offset cs hs hstep
      have hd := State.delimiter_of_kept hstep
      rw [hb, hd]
      exact ⟨rfl, rfl, c :: cs, rfl⟩
    | true =>
      have hne : s' ≠ s := by
        rintro rfl
        have hstay := hr c rfl
        unfold State.staysOn at hstay
        rw [hstep] at hstay
        simp at hstay
      obtain ⟨b, hb⟩ := byteStep_before_used offset cs hs hstep hne
      obtain ⟨d, hd⟩ := ByteClass.encoding_of_separator (State.separator_of_step hstep hne)
      have hdelim := State.delimiter_of_used hstep hne
      rw [hb, hdelim, hd]
      refine ⟨?_, rfl, cs, rfl⟩
      rw [utf8Chars_cons, hd]
      rfl

theorem utf8_spelled_stretch (hl : l.AtText) : utf8 (spelled l.stretch) = l.stretch := by
  obtain ⟨cs, hcs⟩ := hl
  have hstretch : l.stretch = utf8Chars (cs.takeWhile l.state.staysOn) := by
    unfold stretch
    rw [hcs, takeWhile_utf8Chars l.state.stays_of_mem_encoding]
  rw [hstretch, spelled_utf8Chars, utf8, String.toList_ofList]

theorem zero_not_mem_stretch (l : Lexer) : 0 ∉ l.stretch := by
  intro h
  have hstay := List.all_eq_true.1 (List.all_takeWhile (l := l.rest)) 0 h
  rw [stays_nul] at hstay
  cases hstay

theorem stretch_append_afterStretch (l : Lexer) : l.rest = l.stretch ++ l.afterStretch.rest :=
  List.takeWhile_append_dropWhile.symm

theorem byteStep_afterStretch_run (hl : l.AtText) :
    l.afterStretch.rest =
        l.afterStretch.byteStep.1.1.delimiter ++ l.afterStretch.byteStep.2.rest ∧
      l.afterStretch.byteStep.2.offset =
        l.afterStretch.offset + l.afterStretch.byteStep.1.1.delimiter.length ∧
      l.afterStretch.byteStep.2.AtText := by
  obtain ⟨cs, hcs⟩ := hl
  have hafter : l.afterStretch =
      before (cs.dropWhile l.state.staysOn) (l.offset + l.stretch.length) l.state := by
    unfold afterStretch before
    rw [hcs, dropWhile_utf8Chars l.state.stays_of_mem_encoding]
  rw [hafter]
  obtain ⟨r, hr, h⟩ := byteStep_run (l.offset + l.stretch.length)
    (ends_dropWhile l.state.staysOn cs)
  rw [hr]
  exact h

/-- What a call that gives a token does to the machine. -/
structure Reads (l : Lexer) (t : Token) (l' : Lexer) : Prop where
  offset : t.offset = l.offset
  /-- the text of the token is what stands there, and behind it stands the delimiter -/
  rest : l.rest = utf8 t.text ++ (t.state.delimiter ++ l'.rest)
  next : l'.offset = t.next
  state : l'.state = t.state
  atText : l'.AtText
  zero_not_mem : 0 ∉ utf8 t.text

theorem tokenStep_ok (hl : l.AtText) (h : l.tokenStep = (.ok t, l')) : Reads l t l' := by
  obtain ⟨hrest, hoffset, htext⟩ := byteStep_afterStretch_run hl
  have hsnd := tokenStep_snd l
  have hreport := itemState_tokenStep l
  rw [h] at hsnd hreport
  have hsnd : l' = l.afterStretch.byteStep.2 := hsnd
  have hreport : t.state = l.afterStretch.byteStep.1.1 := hreport
  obtain ⟨hat, hspelled⟩ : t.offset = l.offset ∧ t.text = spelled l.stretch := by
    unfold tokenStep at h
    dsimp only at h
    split at h
    · cases h
    · cases h
      exact ⟨rfl, rfl⟩
  have hbytes : utf8 t.text = l.stretch := by rw [hspelled, utf8_spelled_stretch hl]
  rw [← hreport, ← hsnd] at hrest hoffset
  exact {
    offset := hat
    rest := by rw [hbytes, ← hrest]; exact stretch_append_afterStretch l
    next := by rw [hoffset, Token.next, Token.stop, hbytes, hat]; rfl
    state := by rw [hsnd, state_byteStep, hreport]
    atText := by rw [hsnd]; exact htext
    zero_not_mem := by rw [hbytes]; exact zero_not_mem_stretch l }

end Lexer

end Interpolation.Pattern
