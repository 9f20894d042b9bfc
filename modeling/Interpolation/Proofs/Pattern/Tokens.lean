/-
  The tokens of a text, character by character. In front of a run that its state stays on, the
  machine gives one token with the run as its text (`drain_stop`, `drain_leave`, `drain_refuse`);
  what stands behind a NUL gives no token (`drain_behindNul`).
-/
import Interpolation.Proofs.Pattern.Characters

namespace Interpolation.Pattern.Lexer

open Text

/-! ## The stream of tokens, one token at a time -/

theorem drain_of_error {l l' : Lexer} {e : Error} (h : l.tokenStep = (.error e, l')) :
    l.drain.1 = [.error e] := by
  rw [drain]
  split
  · next h' => rw [h] at h'; cases h'; rfl
  · next h' => rw [h] at h'; cases h'

theorem drain_of_end {l l' : Lexer} {t : Token} (h : l.tokenStep = (.ok t, l'))
    (ht : t.isEnd = true) : l.drain.1 = [.ok t] := by
  rw [drain]
  split
  · next h' => rw [h] at h'; cases h'
  · next h' =>
    rw [h] at h'
    cases h'
    rw [dif_pos ht]

theorem drain_of_token {l l' : Lexer} {t : Token} (h : l.tokenStep = (.ok t, l'))
    (ht : t.isEnd = false) : l.drain.1 = .ok t :: l'.drain.1 := by
  rw [drain]
  split
  · next h' => rw [h] at h'; cases h'
  · next h' =>
    rw [h] at h'
    cases h'
    rw [dif_neg (by simp [ht])]

/-! ## The machine in front of characters -/

/-- The machine in a state, in front of some characters. -/
def before (cs : List Char) (offset : Nat) (s : State) : Lexer :=
  { rest := utf8Chars cs, offset, state := s }

theorem ofPattern_eq (pattern : String) :
    ofPattern pattern = before pattern.toList 0 .start := rfl

section
variable {s : State} {t rest cs : List Char} {c : Char} {offset : Nat}

theorem stretch_before (ht : ∀ c ∈ t, s.staysOn c) (hr : Ends s.staysOn rest) :
    (before (t ++ rest) offset s).stretch = utf8Chars t := by
  unfold stretch before
  rw [takeWhile_utf8Chars s.stays_of_mem_encoding, takeWhile_run ht hr]

theorem afterStretch_before (ht : ∀ c ∈ t, s.staysOn c) (hr : Ends s.staysOn rest) :
    (before (t ++ rest) offset s).afterStretch = before rest (offset + utf8Size t) s := by
  unfold afterStretch
  rw [stretch_before ht hr, length_utf8Chars]
  unfold before
  rw [dropWhile_utf8Chars s.stays_of_mem_encoding, dropWhile_run ht hr]

theorem spelled_utf8Chars (t : List Char) : spelled (utf8Chars t) = String.ofList t := by
  unfold spelled
  rw [ofUtf8?_utf8Chars]
  rfl

/-- The token of a run is decided by the byte after it. -/
theorem tokenStep_before (ht : ∀ c ∈ t, s.staysOn c) (hr : Ends s.staysOn rest) {s' : State}
    {b : UInt8} {l : Lexer} (hb : (before rest (offset + utf8Size t) s).byteStep = ((s', b), l)) :
    (before (t ++ rest) offset s).tokenStep =
      (if s' = .error then .error (.invalidPattern (offset + utf8Size t) (String.ofList t))
        else .ok { state := s', text := String.ofList t, offset }, l) := by
  unfold tokenStep
  rw [stretch_before ht hr, afterStretch_before ht hr, hb, spelled_utf8Chars]
  by_cases he : s' = .error
  · rw [if_pos he]
    exact if_pos he
  · rw [if_neg he]
    exact if_neg he

/-- A text that ends in a state gives the end token. -/
theorem drain_stop (ht : ∀ c ∈ t, s.staysOn c) :
    (before t offset s).drain.1 = [.ok { state := .end, text := String.ofList t, offset }] := by
  have hb : (before [] (offset + utf8Size t) s).byteStep =
      ((.end, 0), (before [] (offset + utf8Size t) s).byteStep.2) :=
    Prod.ext (byteStep_nil rfl) rfl
  have h := tokenStep_before ht (ends_nil _) hb
  rw [List.append_nil, if_neg (by decide)] at h
  exact drain_of_end h rfl

/-- The byte that the machine looks at behind a run, when it does not separate two parts. -/
theorem byteStep_before_kept (offset : Nat) (cs : List Char) {s' : State} (hs : s ≠ .end)
    (hstep : s.step (.ofChar c) = (s', false)) :
    ∃ b, (before (c :: cs) offset s).byteStep = ((s', b), before (c :: cs) offset s') := by
  obtain ⟨b, bs, hb⟩ := List.exists_cons_of_ne_nil (String.utf8EncodeChar_ne_nil (c := c))
  have hrest : (before (c :: cs) offset s).rest = b :: (bs ++ utf8Chars cs) := by
    show utf8Chars (c :: cs) = _
    rw [utf8Chars_cons, hb, List.cons_append]
  have hnext : (before (c :: cs) offset s).state.next b = (s', false) := by
    show s.step (.of b) = _
    rw [ByteClass.of_mem_encoding (c := c) (by simp [hb]), hstep]
  refine ⟨b, ?_⟩
  rw [byteStep_cons (l := before (c :: cs) offset s) hs hrest, hnext]
  rfl

/-- The byte that the machine looks at behind a run, when it separates two parts. -/
theorem byteStep_before_used (offset : Nat) (cs : List Char) {s' : State} (hs : s ≠ .end)
    (hstep : s.step (.ofChar c) = (s', true)) (hne : s' ≠ s) :
    ∃ b, (before (c :: cs) offset s).byteStep = ((s', b), before cs (offset + 1) s') := by
  obtain ⟨b, hb⟩ := ByteClass.encoding_of_separator (State.separator_of_step hstep hne)
  have hrest : (before (c :: cs) offset s).rest = b :: utf8Chars cs := by
    show utf8Chars (c :: cs) = _
    rw [utf8Chars_cons, hb, List.singleton_append]
  have hnext : (before (c :: cs) offset s).state.next b = (s', true) := by
    show s.step (.of b) = _
    rw [ByteClass.of_mem_encoding (c := c) (by simp [hb]), hstep]
  refine ⟨b, ?_⟩
  rw [byteStep_cons (l := before (c :: cs) offset s) hs hrest, hnext]
  rfl

/-- A run behind which the machine goes on without the character it has seen. -/
theorem drain_look (s' : State) (ht : ∀ c ∈ t, s.staysOn c) (hs : s ≠ .end)
    (hstep : s.step (.ofChar c) = (s', false)) (he : s' ≠ .error) (hend : s' ≠ .end) :
    (before (t ++ c :: cs) offset s).drain.1 =
      .ok { state := s', text := String.ofList t, offset } ::
        (before (c :: cs) (offset + utf8Size t) s').drain.1 := by
  have hc : s.staysOn c = false := by
    unfold State.staysOn
    rw [hstep]
    simp
  obtain ⟨b, hb⟩ := byteStep_before_kept (offset + utf8Size t) cs hs hstep
  have h := tokenStep_before ht (ends_cons hc) hb
  rw [if_neg he] at h
  exact drain_of_token h (by simpa [Token.isEnd] using hend)

/-- A run behind which the machine goes on with the character used up. -/
theorem drain_leave (s' : State) (ht : ∀ c ∈ t, s.staysOn c) (hc : s.Leaves c s') :
    (before (t ++ c :: cs) offset s).drain.1 =
      .ok { state := s', text := String.ofList t, offset } ::
        (before cs (offset + utf8Size t + 1) s').drain.1 := by
  obtain ⟨hstep, hne, hs, he, hend⟩ := hc
  have hc : s.staysOn c = false := by
    unfold State.staysOn
    rw [hstep]
    simp [hne]
  obtain ⟨b, hb⟩ := byteStep_before_used (offset + utf8Size t) cs hs hstep hne
  have h := tokenStep_before ht (ends_cons hc) hb
  rw [if_neg he] at h
  exact drain_of_token h (by simpa [Token.isEnd] using hend)

/-- A run behind which the machine stops. -/
theorem drain_halt (ht : ∀ c ∈ t, s.staysOn c) (hs : s ≠ .end)
    (hstep : s.step (.ofChar c) = (.end, false)) :
    (before (t ++ c :: cs) offset s).drain.1 =
      [.ok { state := .end, text := String.ofList t, offset }] := by
  have hc : s.staysOn c = false := by
    unfold State.staysOn
    rw [hstep]
    simp
  obtain ⟨b, hb⟩ := byteStep_before_kept (offset + utf8Size t) cs hs hstep
  have h := tokenStep_before ht (ends_cons hc) hb
  rw [if_neg (by decide)] at h
  exact drain_of_end h rfl

/-- A run behind which the machine fails. -/
theorem drain_refuse (ht : ∀ c ∈ t, s.staysOn c) (hs : s ≠ .end)
    (hstep : s.step (.ofChar c) = (.error, false)) :
    (before (t ++ c :: cs) offset s).drain.1 =
      [.error (.invalidPattern (offset + utf8Size t) (String.ofList t))] := by
  have hc : s.staysOn c = false := by
    unfold State.staysOn
    rw [hstep]
    simp
  obtain ⟨b, hb⟩ := byteStep_before_kept (offset + utf8Size t) cs hs hstep
  have h := tokenStep_before ht (ends_cons hc) hb
  rw [if_pos rfl] at h
  exact drain_of_error h

end

/-! ## What stands behind a NUL -/

/-- The machine with a NUL and further bytes behind those that are left. -/
def behindNul (l : Lexer) (junk : List UInt8) : Lexer := { l with rest := l.rest ++ 0 :: junk }

theorem stays_nul (s : State) : s.stays 0 = false := by
  cases s <;> rfl

theorem stretch_behindNul (l : Lexer) (junk : List UInt8) :
    (l.behindNul junk).stretch = l.stretch := by
  unfold stretch behindNul
  rw [List.takeWhile_append]
  split
  · next h =>
    have hall : l.rest.takeWhile l.state.stays = l.rest :=
      (List.takeWhile_prefix _).eq_of_length h
    rw [hall, List.takeWhile_cons_of_neg (by simp [stays_nul]), List.append_nil]
  · rfl

theorem afterStretch_behindNul (l : Lexer) (junk : List UInt8) :
    (l.behindNul junk).afterStretch = l.afterStretch.behindNul junk := by
  unfold afterStretch
  rw [stretch_behindNul]
  unfold behindNul
  rw [List.dropWhile_append]
  split
  · next h =>
    rw [List.isEmpty_iff] at h
    rw [h, List.dropWhile_cons_of_neg (by simp [stays_nul])]
    rfl
  · rfl

/-- The byte step with a NUL behind the input: past the end a NUL is seen instead of nothing. -/
theorem byteStep_behindNul (l : Lexer) (junk : List UInt8) :
    (l.behindNul junk).byteStep = (l.byteStep.1, l.byteStep.2.behindNul junk) := by
  by_cases hs : l.state = .end
  · rw [byteStep_end hs, byteStep_end (l := l.behindNul junk) hs]
  cases hr : l.rest with
  | nil =>
    have hrest : (l.behindNul junk).rest = 0 :: junk := by
      unfold behindNul
      rw [hr, List.nil_append]
    have hnext : (l.behindNul junk).state.next 0 = (.end, false) := by
      show l.state.next 0 = _
      cases l.state <;> rfl
    rw [byteStep_cons (l := l.behindNul junk) hs hrest, hnext]
    simp [byteStep, hs, hr, behindNul]
  | cons b bs =>
    have hrest : (l.behindNul junk).rest = b :: (bs ++ 0 :: junk) := by
      unfold behindNul
      rw [hr, List.cons_append]
    rw [byteStep_cons hs hr, byteStep_cons (l := l.behindNul junk) hs hrest]
    show (((l.state.next b).1, b), if (l.state.next b).2 then _ else _) = _
    by_cases hu : (l.state.next b).2
    · rw [if_pos hu, if_pos hu]
      rfl
    · rw [if_neg hu, if_neg hu]
      rfl

theorem tokenStep_behindNul (l : Lexer) (junk : List UInt8) :
    (l.behindNul junk).tokenStep = (l.tokenStep.1, l.tokenStep.2.behindNul junk) := by
  unfold tokenStep
  rw [stretch_behindNul, afterStretch_behindNul, byteStep_behindNul]
  by_cases he : l.afterStretch.byteStep.1.1 = .error
  · simp only [if_pos he]
    rfl
  · simp only [if_neg he]
    rfl

/-- What stands behind a NUL gives no token. -/
theorem drain_behindNul (l : Lexer) (junk : List UInt8) :
    (l.behindNul junk).drain.1 = l.drain.1 := by
  induction l using drain.induct with
  | case1 l e l' h =>
    have h' := tokenStep_behindNul l junk
    rw [h] at h'
    rw [drain_of_error h, drain_of_error h']
  | case2 l t l' h ht =>
    have h' := tokenStep_behindNul l junk
    rw [h] at h'
    rw [drain_of_end h ht, drain_of_end h' ht]
  | case3 l t l' h ht ih =>
    have h' := tokenStep_behindNul l junk
    rw [h] at h'
    rw [drain_of_token h (by simpa using ht), drain_of_token h' (by simpa using ht), ih]

end Interpolation.Pattern.Lexer
