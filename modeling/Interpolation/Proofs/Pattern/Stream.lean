/-
  The stream of a pattern's tokens as a whole. A run of calls up to the end token or an error reads
  every byte once: into a text, or as a delimiter between two texts (`Run.covers`). Its items tell
  the states that the machine reports byte by byte (`Run.reports`), and further calls repeat the
  ending (`Run.calls`). All of it together is `drain_faithful`.
-/
import Interpolation.Proofs.Pattern.Step
import Mathlib.Data.List.Destutter

namespace Interpolation.Pattern.Lexer

open Text

variable {l l' : Lexer} {t : Token}

/-! ## Runs -/

/-- The items of a machine up to the end token or an error, and the machine behind them. -/
inductive Run : Lexer → List Token → Except Error Token → Lexer → Prop
  | stop {l l' : Lexer} {t : Token} : l.tokenStep = (.ok t, l') → t.isEnd → Run l [] (.ok t) l'
  | fail {l l' : Lexer} {e : Error} : l.tokenStep = (.error e, l') → Run l [] (.error e) l'
  | token {l l₁ l' : Lexer} {t : Token} {ts : List Token} {last : Except Error Token} :
      l.tokenStep = (.ok t, l₁) → t.isEnd = false → Run l₁ ts last l' → Run l (t :: ts) last l'

/-- The items of a run, in order. -/
def items (ts : List Token) (last : Except Error Token) : List (Except Error Token) :=
  ts.map .ok ++ [last]

theorem exists_run_drain (l : Lexer) :
    ∃ ts last l', l.drain.1 = items ts last ∧ Run l ts last l' := by
  induction l using drain.induct with
  | case1 l e l' h => exact ⟨[], .error e, l', drain_of_error h, .fail h⟩
  | case2 l t l' h ht => exact ⟨[], .ok t, l', drain_of_end h ht, .stop h ht⟩
  | case3 l t l' h ht ih =>
    have ht : t.isEnd = false := by simpa using ht
    obtain ⟨ts, last, l₂, hdrain, hrun⟩ := ih
    refine ⟨t :: ts, last, l₂, ?_, .token h ht hrun⟩
    rw [drain_of_token h ht, hdrain]
    rfl

variable {ts : List Token} {last : Except Error Token}

theorem state_eq_end (ht : t.isEnd) : t.state = .end := by
  unfold Token.isEnd at ht
  exact eq_of_beq ht

theorem state_ne_end (ht : t.isEnd = false) : t.state ≠ .end := by
  intro h
  unfold Token.isEnd at ht
  rw [h] at ht
  cases ht

theorem state_ne_error (h : l.tokenStep = (.ok t, l')) : t.state ≠ .error := by
  unfold tokenStep at h
  dsimp only at h
  split at h
  · cases h
  · next hne =>
    cases h
    exact hne

/-- A token that is not the end token leaves the state that it was read in, by a step of it. -/
theorem step_of_token (h : l.tokenStep = (.ok t, l')) (ht : t.isEnd = false) :
    t.state ≠ l.state ∧ ∃ k, (l.state.step k).1 = t.state := by
  have hend := state_ne_end ht
  have hreport : t.state = l.afterStretch.byteStep.1.1 := by
    rw [← itemState_tokenStep, h]
    rfl
  refine ⟨?_, ?_⟩
  · rcases byteStep_afterStretch l with hne | hend' | herror
    · rw [hreport]
      exact hne
    · exact absurd (hreport.trans hend') hend
    · exact absurd (hreport.trans herror) (state_ne_error h)
  · rw [hreport] at hend ⊢
    have hs : l.afterStretch.state ≠ .end := by
      intro hs
      rw [byteStep_end hs] at hend
      exact hend rfl
    cases hr : l.afterStretch.rest with
    | nil =>
      rw [byteStep_nil hr] at hend
      exact absurd rfl hend
    | cons b bs =>
      rw [byteStep_cons hs hr]
      exact ⟨.of b, rfl⟩

/-- A run goes on through states in which the machine neither stopped nor failed. -/
theorem Run.ongoing (h : Run l ts last l') : ∀ t ∈ ts, t.state ≠ .end ∧ t.state ≠ .error := by
  induction h with
  | stop => simp
  | fail => simp
  | token h ht _ ih =>
    intro u hu
    rcases List.mem_cons.1 hu with rfl | hu
    · exact ⟨state_ne_end ht, state_ne_error h⟩
    · exact ih u hu

theorem Run.ending (h : Run l ts last l') :
    (∃ t, last = .ok t ∧ t.state = .end) ∨
      ∃ position, last = .error (.invalidPattern position "") := by
  induction h with
  | stop h ht => exact .inl ⟨_, rfl, state_eq_end ht⟩
  | fail h =>
    obtain ⟨_, _, _, _, rfl, _⟩ := tokenStep_error h
    exact .inr ⟨_, rfl⟩
  | token _ _ _ ih => exact ih

/-! ## What a run covers -/

/-- The bytes that items account for: texts, and the delimiters that were skipped. -/
def covered : List (Except Error Token) → List UInt8
  | [] => []
  | .ok t :: items => utf8 t.text ++ (t.state.delimiter ++ covered items)
  | .error _ :: items => covered items

/-- Every item begins where the one before it ended, behind the delimiter of that one. -/
def Consecutive : Nat → List (Except Error Token) → Prop
  | _, [] => True
  | offset, .ok t :: items => t.offset = offset ∧ Consecutive t.next items
  | offset, .error e :: items => e = .invalidPattern offset "" ∧ Consecutive offset items

/-- The state behind some tokens. -/
def stateBehind : State → List Token → State
  | s, [] => s
  | _, t :: ts => stateBehind t.state ts

/-- What is left in front of a machine that stopped or failed in a state. -/
inductive Halts (s : State) : Except Error Token → List UInt8 → Prop
  | finished {t : Token} : Halts s (.ok t) []
  | nul {t : Token} {rest : List UInt8} : Halts s (.ok t) (0 :: rest)
  | index {t : Token} {b : UInt8} {rest : List UInt8} : s = .parseIndex →
      ByteClass.of b ∉ [.digit, .colon, .closing] → Halts s (.ok t) (b :: rest)
  | refused {e : Error} {b : UInt8} {rest : List UInt8} : s.next b = (.error, false) →
      Halts s (.error e) (b :: rest)

theorem Run.consecutive (h : Run l ts last l') (hl : l.AtText) :
    Consecutive l.offset (items ts last) := by
  induction h with
  | stop h ht => exact ⟨(tokenStep_ok hl h).offset, trivial⟩
  | fail h =>
    obtain ⟨_, _, _, _, he, _⟩ := tokenStep_error h
    exact ⟨he, trivial⟩
  | token h ht _ ih =>
    have hreads := tokenStep_ok hl h
    refine ⟨hreads.offset, ?_⟩
    rw [← hreads.next]
    exact ih hreads.atText

theorem Run.covers (h : Run l ts last l') (hl : l.AtText) :
    l.rest = covered (items ts last) ++ l'.rest ∧ 0 ∉ covered (items ts last) := by
  induction h with
  | @stop l l' t h ht =>
    have hreads := tokenStep_ok hl h
    have hcovered : covered (items [] (.ok t)) = utf8 t.text ++ (t.state.delimiter ++ []) := rfl
    rw [hcovered, List.append_nil]
    refine ⟨by rw [hreads.rest, List.append_assoc], ?_⟩
    rw [List.mem_append, not_or]
    exact ⟨hreads.zero_not_mem, State.zero_not_mem_delimiter _⟩
  | fail h =>
    obtain ⟨_, _, _, _, _, rfl⟩ := tokenStep_error h
    exact ⟨rfl, List.not_mem_nil⟩
  | @token l l₁ l' t ts last h ht _ ih =>
    have hreads := tokenStep_ok hl h
    obtain ⟨hrest, hzero⟩ := ih hreads.atText
    have hcovered : covered (items (t :: ts) last) =
        utf8 t.text ++ (t.state.delimiter ++ covered (items ts last)) := rfl
    rw [hcovered]
    refine ⟨?_, ?_⟩
    · rw [hreads.rest, hrest]
      simp only [List.append_assoc]
    · rw [List.mem_append, List.mem_append, not_or, not_or]
      exact ⟨hreads.zero_not_mem, State.zero_not_mem_delimiter _, hzero⟩

theorem slice_of_tokenStep {front : List UInt8} (hl : l.AtText) (hb : l.offset = front.length)
    (h : l.tokenStep = (.ok t, l')) :
    (front ++ l.rest).extract t.offset t.stop = utf8 t.text := by
  have hreads := tokenStep_ok hl h
  rw [hreads.rest, Token.stop, hreads.offset, hb]
  simp [List.extract]

/-- The text of a token is what stands at its place in the whole input. -/
theorem Run.slice (h : Run l ts last l') (hl : l.AtText) (front : List UInt8)
    (hb : l.offset = front.length) :
    ∀ t, .ok t ∈ items ts last → (front ++ l.rest).extract t.offset t.stop = utf8 t.text := by
  induction h generalizing front with
  | stop h ht =>
    intro u hu
    cases List.mem_singleton.1 hu
    exact slice_of_tokenStep hl hb h
  | fail h =>
    intro u hu
    cases List.mem_singleton.1 hu
  | @token l l₁ l' t ts last h ht _ ih =>
    intro u hu
    rcases List.mem_cons.1 hu with hu | hu
    · cases hu
      exact slice_of_tokenStep hl hb h
    · have hreads := tokenStep_ok hl h
      have hfront : l₁.offset = (front ++ (utf8 t.text ++ t.state.delimiter)).length := by
        rw [hreads.next, Token.next, Token.stop, hreads.offset, hb]
        simp only [List.length_append]
        omega
      have hslice := ih hreads.atText _ hfront u hu
      rw [hreads.rest, ← List.append_assoc (utf8 t.text), ← List.append_assoc front]
      exact hslice

theorem halts_of_stop (hs : l.state ≠ .end) (h : l.tokenStep = (.ok t, l')) (ht : t.isEnd) :
    Halts l.state (.ok t) l'.rest := by
  have hreport := itemState_tokenStep l
  have hsnd := tokenStep_snd l
  rw [h] at hreport hsnd
  obtain rfl : l' = l.afterStretch.byteStep.2 := hsnd
  have hend : l.afterStretch.byteStep.1.1 = .end := by
    rw [← hreport]
    exact state_eq_end ht
  cases hr : l.afterStretch.rest with
  | nil =>
    have hrest : l.afterStretch.byteStep.2.rest = [] := by
      simp [byteStep, show l.afterStretch.state ≠ .end from hs, hr]
    rw [hrest]
    exact .finished
  | cons b bs =>
    rw [byteStep_cons (l := l.afterStretch) hs hr] at hend ⊢
    have hnext : (l.state.step (.of b)).1 = .end := hend
    have hkept : (l.afterStretch.state.next b).2 = false := State.kept_of_step_end hs hnext
    rw [hkept]
    show Halts l.state (.ok t) l.afterStretch.rest
    rw [hr]
    rcases State.step_end hs hnext with hnul | ⟨hindex, h1, h2, h3⟩
    · rw [ByteClass.eq_zero_of_nul hnul]
      exact .nul
    · exact .index hindex (by simp [h1, h2, h3])

theorem Run.halts (h : Run l ts last l') (hs : l.state ≠ .end) (hl : l.AtText) :
    Halts (stateBehind l.state ts) last l'.rest := by
  induction h with
  | stop h ht => exact halts_of_stop hs h ht
  | fail h =>
    obtain ⟨b, bs, hrest, hnext, rfl, rfl⟩ := tokenStep_error h
    show Halts _ _ _
    rw [hrest]
    exact .refused (Prod.ext hnext (State.step_error hnext).1)
  | token h ht _ ih =>
    have hreads := tokenStep_ok hl h
    rw [hreads.state] at ih
    exact ih (state_ne_end ht) hreads.atText

/-! ## Byte by byte and call by call -/

/-- The states that the machine reports when it looks at a byte `n` times. -/
def reports : Lexer → Nat → List State
  | _, 0 => []
  | l, n + 1 => l.byteStep.1.1 :: l.byteStep.2.reports n

/-- The items of `n` calls for a token. -/
def calls : Lexer → Nat → List (Except Error Token)
  | _, 0 => []
  | l, n + 1 => l.tokenStep.1 :: l.tokenStep.2.calls n

/-- What every call behind the last item gives. -/
def again : Except Error Token → Except Error Token
  | .ok t => .ok { state := .end, text := "", offset := t.stop }
  | .error e => .error e

theorem reports_fixed {s : State} {b : UInt8} (h : l.byteStep = ((s, b), l)) (n : Nat) :
    l.reports n = List.replicate n s := by
  induction n with
  | zero => rfl
  | succ n ih =>
    rw [reports, h, ih]
    rfl

theorem calls_fixed {item : Except Error Token} (h : l.tokenStep = (item, l)) (n : Nat) :
    l.calls n = List.replicate n item := by
  induction n with
  | zero => rfl
  | succ n ih =>
    rw [calls, h, ih]
    rfl

/-- Over a stretch the machine reports the state that it stays in. -/
theorem reports_stretch (l : Lexer) (n : Nat) :
    l.reports (l.stretch.length + n) =
      List.replicate l.stretch.length l.state ++ l.afterStretch.reports n := by
  induction l using stretch_induction with
  | stop l hstretch hself => rw [hstretch, hself, List.length_nil, Nat.zero_add]; rfl
  | step l b bs hr hb ih =>
    rw [stretch_stays hr hb, afterStretch_stays hr hb, List.length_cons, Nat.add_right_comm,
      reports, byteStep_stays hr hb, ih, List.replicate_succ]
    rfl

/-- Up to the next item the machine reports its state, and then the state of the item. -/
theorem reports_tokenStep (l : Lexer) (n : Nat) :
    l.reports (l.stretch.length + (n + 1)) =
      List.replicate l.stretch.length l.state ++
        itemState l.tokenStep.1 :: l.tokenStep.2.reports n := by
  rw [reports_stretch, reports, itemState_tokenStep, tokenStep_snd]

theorem destutter'_replicate (s : State) (n : Nat) (r : List State) :
    (List.replicate n s ++ r).destutter' (· ≠ ·) s = r.destutter' (· ≠ ·) s := by
  induction n with
  | zero => rfl
  | succ n ih =>
    rw [List.replicate_succ, List.cons_append, List.destutter'_cons_neg _ (not_not.2 rfl), ih]

/-- Behind the last item the machine reports one state forever. -/
theorem reports_last {item : Except Error Token} {b : UInt8} (h : l.tokenStep = (item, l'))
    (hne : l.state ≠ itemState item) (hb : l'.byteStep = ((itemState item, b), l')) :
    ∃ N, ∀ n, N ≤ n → (l.reports n).destutter' (· ≠ ·) l.state = [l.state, itemState item] := by
  refine ⟨l.stretch.length + 1, fun n hn => ?_⟩
  obtain ⟨m, rfl⟩ := Nat.exists_eq_add_of_le hn
  have hlast := destutter'_replicate (itemState item) m []
  rw [List.append_nil] at hlast
  rw [Nat.add_assoc, Nat.add_comm 1, reports_tokenStep, h, reports_fixed hb,
    destutter'_replicate, List.destutter'_cons_pos _ hne, hlast]
  rfl

/-- The states that are reported, without their repetitions, are those of the items. -/
theorem Run.reports (h : Run l ts last l') (hs : l.state ≠ .end) (he : l.state ≠ .error)
    (hl : l.AtText) :
    ∃ N, ∀ n, N ≤ n → (l.reports n).destutter' (· ≠ ·) l.state =
      l.state :: (items ts last).map itemState := by
  induction h with
  | @stop l l' t h ht =>
    have hend := state_eq_end ht
    refine reports_last (b := 0) h (fun heq => hs (heq.trans hend)) ?_
    rw [byteStep_end ((tokenStep_ok hl h).state.trans hend)]
    show _ = ((t.state, 0), l')
    rw [hend]
  | @fail l l' e h =>
    obtain ⟨b, bs, hrest, hnext, -, hl'⟩ := tokenStep_error h
    refine reports_last (b := b) h he ?_
    exact byteStep_failed (by rw [hl']; exact hrest) (by rw [hl']) hnext
  | @token l l₁ l' t ts last h ht _ ih =>
    have hreads := tokenStep_ok hl h
    have hend := state_ne_end ht
    have herr := state_ne_error h
    obtain ⟨N, hN⟩ := ih (hreads.state ▸ hend) (hreads.state ▸ herr) hreads.atText
    have hne := (step_of_token h ht).1.symm
    refine ⟨l.stretch.length + (N + 1), fun n hn => ?_⟩
    obtain ⟨m, rfl⟩ := Nat.exists_eq_add_of_le hn
    have hm := hN (N + m) (Nat.le_add_right N m)
    rw [hreads.state] at hm
    rw [Nat.add_assoc, Nat.add_right_comm N, reports_tokenStep, h, destutter'_replicate]
    show List.destutter' (· ≠ ·) l.state (t.state :: l₁.reports (N + m)) = _
    rw [List.destutter'_cons_pos _ hne, hm]
    rfl

theorem Run.calls (h : Run l ts last l') (hl : l.AtText) (n : Nat) :
    l.calls ((items ts last).length + n) = items ts last ++ List.replicate n (again last) := by
  induction h with
  | @stop l l' t h ht =>
    have hreads := tokenStep_ok hl h
    have hend := state_eq_end ht
    have hfixed := tokenStep_stopped (hreads.state.trans hend)
    have hstop : t.next = t.stop := by
      unfold Token.next
      rw [hend]
      rfl
    show Lexer.calls l (1 + n) = .ok t :: List.replicate n (again (.ok t))
    rw [hreads.next, hstop] at hfixed
    rw [Nat.add_comm, Lexer.calls, h, calls_fixed hfixed]
    rfl
  | @fail l l' e h =>
    obtain ⟨b, bs, hrest, hnext, he, hl'⟩ := tokenStep_error h
    have hfixed : l'.tokenStep = (.error (.invalidPattern l'.offset ""), l') :=
      tokenStep_failed (by rw [hl']; exact hrest) (by rw [hl']) hnext
    show Lexer.calls l (1 + n) = .error e :: List.replicate n (again (.error e))
    rw [Nat.add_comm, Lexer.calls, h, calls_fixed hfixed, he, hl']
    rfl
  | @token l l₁ l' t ts last h ht _ ih =>
    have hcons : items (t :: ts) last = .ok t :: items ts last := rfl
    rw [hcons, List.length_cons, Nat.add_right_comm, Lexer.calls, h,
      ih (tokenStep_ok hl h).atText]
    rfl

/-! ## The stream of a pattern -/

/-- The items of a pattern's stream: some tokens and a last item. -/
structure Faithful (pattern : String) (ts : List Token) (last : Except Error Token) : Prop where
  /-- the machine goes on behind every token but the last item -/
  ongoing : ∀ t ∈ ts, t.state ≠ .end ∧ t.state ≠ .error
  /-- the last item is an end token or an error -/
  ending : (∃ t, last = .ok t ∧ t.state = .end) ∨
    ∃ position, last = .error (.invalidPattern position "")
  /-- the states are those reported byte by byte, repetitions counted once -/
  states : ∃ N, ∀ n, N ≤ n → ((ofPattern pattern).reports n).destutter (· ≠ ·) =
    (items ts last).map itemState
  /-- a text is what the pattern holds at the place of the token -/
  slice : ∀ t, .ok t ∈ items ts last →
    (utf8 pattern).extract t.offset t.stop = utf8 t.text
  /-- an item begins where the one before it ended, behind the delimiter of that one -/
  consecutive : Consecutive 0 (items ts last)
  /-- texts and delimiters are the pattern up to the place where the machine stopped or failed -/
  covers : ∃ rest, utf8 pattern = covered (items ts last) ++ rest ∧
    0 ∉ covered (items ts last) ∧ Halts (stateBehind .start ts) last rest
  /-- the items are those of one call after the other, and further calls repeat the ending -/
  sticky : ∀ n, (ofPattern pattern).calls ((items ts last).length + n) =
    items ts last ++ List.replicate n (again last)

theorem atText_ofPattern (pattern : String) : (ofPattern pattern).AtText := ⟨pattern.toList, rfl⟩

/-- The machine leaves its first state at the first byte it looks at. -/
theorem report_ofPattern_ne (pattern : String) :
    State.start ≠ (ofPattern pattern).byteStep.1.1 := by
  have hs : (ofPattern pattern).state ≠ .end := by
    show State.start ≠ .end
    decide
  cases hr : (ofPattern pattern).rest with
  | nil =>
    rw [byteStep_nil hr]
    decide
  | cons b bs =>
    rw [byteStep_cons hs hr]
    show State.start ≠ (State.start.step (.of b)).1
    cases ByteClass.of b <;> decide

theorem reports_ofPattern {pattern : String} (h : Run (ofPattern pattern) ts last l') :
    ∃ N, ∀ n, N ≤ n → ((ofPattern pattern).reports n).destutter (· ≠ ·) =
      (items ts last).map itemState := by
  obtain ⟨N, hN⟩ := h.reports (by show State.start ≠ .end; decide)
    (by show State.start ≠ .error; decide) (atText_ofPattern pattern)
  refine ⟨N + 1, fun n hn => ?_⟩
  obtain ⟨m, rfl⟩ := Nat.exists_eq_add_of_le hn
  have hm := hN (N + m + 1) (by omega)
  rw [Lexer.reports] at hm
  have hstart : (ofPattern pattern).state = .start := rfl
  rw [hstart, List.destutter'_cons_pos _ (report_ofPattern_ne pattern)] at hm
  rw [Nat.add_right_comm, Lexer.reports]
  exact (List.cons.inj hm).2

/-- The stream of a pattern's tokens groups its bytes without loss. -/
theorem drain_faithful (pattern : String) :
    ∃ ts last, (ofPattern pattern).drain.1 = items ts last ∧ Faithful pattern ts last := by
  obtain ⟨ts, last, l', hdrain, hrun⟩ := exists_run_drain (ofPattern pattern)
  have htext := atText_ofPattern pattern
  have hs : (ofPattern pattern).state ≠ .end := by
    show State.start ≠ .end
    decide
  obtain ⟨hcovers, hzero⟩ := hrun.covers htext
  refine ⟨ts, last, hdrain, ?_⟩
  exact {
    ongoing := hrun.ongoing
    ending := hrun.ending
    states := reports_ofPattern hrun
    slice := hrun.slice htext [] rfl
    consecutive := hrun.consecutive htext
    covers := ⟨l'.rest, hcovers, hzero, hrun.halts hs htext⟩
    sticky := hrun.calls htext }

end Interpolation.Pattern.Lexer
