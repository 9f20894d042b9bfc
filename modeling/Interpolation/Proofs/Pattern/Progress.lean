/-
  The byte machine gets on. A look at a byte uses it up or leaves it, and no byte is left more than
  twice. Counted over a whole pattern, two looks for each byte and one more are enough for the
  machine to stop or to fail (`Look.budget_lt`): a closing brace is looked at once, and so pays
  for the third look at the byte behind it. Where the machine has stopped or failed, it stays.
-/
import Interpolation.Proofs.Pattern.Cuts
import Interpolation.Proofs.Pattern.Stream

namespace Interpolation.Pattern

open Text

namespace State

variable {s s₁ s₂ : State} {k : ByteClass}

/-- The machine has stopped or failed. -/
def Halted (s : State) : Prop := s = .end ∨ s = .error

instance : DecidablePred Halted := fun _ => inferInstanceAs (Decidable (_ ∨ _))

/-- A byte that was left twice is used up at the third look. -/
theorem used_of_left_twice (h₁ : s.step k = (s₁, false)) (h₂ : s₁.step k = (s₂, false))
    (hs : ¬ s₂.Halted) : (s₂.step k).2 = true := by
  revert hs
  cases s <;> cases k <;> cases h₁ <;> cases h₂ <;> decide

/-- The looks that a state has left in front of a byte, besides two for every byte. A literal that
the byte goes on with has none, since the byte was looked at once before the literal was entered. -/
def slack : State → Option ByteClass → Nat
  | placeholderStart, _ | placeholderEnd, _ => 2
  | literal, some k => if literal.step k = (literal, true) then 0 else 1
  | .end, _ | error, _ => 0
  | _, _ => 1

theorem slack_finished (hs : ¬ s.Halted) : 0 < s.slack none := by
  revert hs
  cases s <;> decide

theorem slack_left (h : s.step k = (s₁, false)) (hs : ¬ s.Halted) :
    s₁.slack (some k) < s.slack (some k) := by
  revert hs
  cases s <;> cases k <;> cases h <;> decide

theorem slack_used (h : s.step k = (s₁, true)) (next : Option ByteClass) :
    s₁.slack next < s.slack (some k) + 2 := by
  have hle : s₁ = .literal ∧ s₁.slack next ≤ 1 ∨ s₁ ≠ .literal ∧ s₁.slack next ≤ 2 := by
    cases next with
    | none => cases s₁ <;> decide
    | some j => cases s₁ <;> cases j <;> decide
  cases s <;> cases k <;> cases h <;> simp [slack, step] at hle ⊢ <;> omega

end State

namespace Lexer

variable {pattern : String} {l l' : Lexer}

/-! ## One look at a byte -/

/-- What a look at a byte does to the machine. -/
inductive Look (l : Lexer) : Lexer → Prop
  | stopped (hs : l.state = .end) : Look l l
  | finished (hs : l.state ≠ .end) (hr : l.rest = []) : Look l { l with state := .end }
  | used {b : UInt8} {bs : List UInt8} {s : State} (hr : l.rest = b :: bs)
      (h : l.state.next b = (s, true)) : Look l { rest := bs, offset := l.offset + 1, state := s }
  | left {b : UInt8} {bs : List UInt8} {s : State} (hs : l.state ≠ .end) (hr : l.rest = b :: bs)
      (h : l.state.next b = (s, false)) : Look l { l with state := s }

/-- The machine after a look at a byte. -/
def look (l : Lexer) : Lexer := l.byteStep.2

theorem look_cases (l : Lexer) : Look l l.look := by
  unfold look
  by_cases hs : l.state = .end
  · rw [byteStep_end hs]
    exact .stopped hs
  cases hr : l.rest with
  | nil =>
    have hstep : l.byteStep.2 = { l with state := .end } := by simp [byteStep, hs, hr]
    rw [hstep]
    exact .finished hs hr
  | cons b bs =>
    rw [byteStep_cons hs hr]
    rcases h : l.state.next b with ⟨s, used⟩
    cases used with
    | true => exact .used hr h
    | false => exact .left hs hr h

/-- The bytes behind the machine and those that are left make up the same text at all times. -/
theorem Look.offset_add_length (h : Look l l') :
    l'.offset + l'.rest.length = l.offset + l.rest.length := by
  cases h with
  | stopped | finished | left => rfl
  | used hr _ =>
    rw [hr, List.length_cons]
    dsimp only
    omega

theorem Look.offset_le (h : Look l l') : l.offset ≤ l'.offset := by
  cases h with
  | stopped | finished | left => exact Nat.le_refl _
  | used => exact Nat.le_succ _

/-! ## Machines that have stopped or failed -/

/-- A machine that has failed stands in front of a byte that it fails on. -/
def Sound (l : Lexer) : Prop := l.state = .error → ∃ b ∈ l.rest.head?, ByteClass.of b ≠ .nul

theorem sound_ofPattern (pattern : String) : (ofPattern pattern).Sound := nofun

theorem Look.sound (h : Look l l') (hl : l.Sound) : l'.Sound := by
  intro herror
  cases h with
  | stopped => exact hl herror
  | finished => cases herror
  | @used b bs s hr hnext =>
    have hfails : (l.state.step (.of b)).1 = .error := (congrArg Prod.fst hnext).trans herror
    have hleft : (l.state.step (.of b)).2 = false := (State.step_error hfails).1
    cases hleft.symm.trans (congrArg Prod.snd hnext)
  | @left b bs s hs hr hnext =>
    obtain rfl : s = .error := herror
    refine ⟨b, by rw [hr]; rfl, fun hnul => ?_⟩
    unfold State.next at hnext
    rw [hnul] at hnext
    cases l.state <;> cases hnext

/-- A machine that has stopped or failed is not changed by further looks. -/
theorem look_halted (hl : l.Sound) (h : l.state.Halted) : l.look = l := by
  unfold look
  rcases h with hend | herror
  · rw [byteStep_end hend]
  · obtain ⟨b, hb, hclass⟩ := hl herror
    obtain ⟨bs, hr⟩ := List.head?_eq_some_iff.1 hb
    have hfails : (State.error.next b).1 = .error := by
      unfold State.next
      cases hk : ByteClass.of b with
      | nul => exact absurd hk hclass
      | digit | colon | opening | closing | other => rfl
    rw [byteStep_failed hr herror hfails]

theorem sound_iterate (hl : l.Sound) (k : Nat) : (look^[k] l).Sound := by
  induction k with
  | zero => exact hl
  | succ k ih =>
    rw [Function.iterate_succ_apply']
    exact (look_cases _).sound ih

theorem iterate_halted (hl : l.Sound) (h : l.state.Halted) (k : Nat) : look^[k] l = l :=
  Function.iterate_fixed (look_halted hl h) k

/-- A machine that goes on after a look went on before it. -/
theorem ongoing_of_look (hl : l.Sound) (h : ¬ l.look.state.Halted) : ¬ l.state.Halted := by
  intro hhalted
  rw [look_halted hl hhalted] at h
  exact h hhalted

/-! ## How many looks there are -/

/-- The looks that there can still be before the machine stops or fails. -/
def budget (l : Lexer) : Nat :=
  2 * l.rest.length + l.state.slack (l.rest.head?.map ByteClass.of)

theorem budget_ofPattern (pattern : String) :
    (ofPattern pattern).budget = 2 * (utf8 pattern).length + 1 := rfl

theorem Look.budget_lt (h : Look l l') (hl : ¬ l.state.Halted) : l'.budget < l.budget := by
  unfold budget
  cases h with
  | stopped hs => exact absurd (.inl hs) hl
  | finished hs hr =>
    have := State.slack_finished hl
    rw [hr]
    show 2 * 0 + 0 < 2 * 0 + l.state.slack none
    omega
  | @used b bs s hr hnext =>
    have := State.slack_used hnext (bs.head?.map ByteClass.of)
    rw [hr, List.length_cons, List.head?_cons, Option.map_some]
    dsimp only
    omega
  | @left b bs s hs hr hnext =>
    have := State.slack_left hnext hl
    rw [hr, List.head?_cons, Option.map_some]
    dsimp only
    omega

theorem budget_iterate (hl : l.Sound) (k : Nat) (h : ¬ (look^[k] l).state.Halted) :
    k + (look^[k] l).budget ≤ l.budget := by
  induction k with
  | zero => exact Nat.le_of_eq (Nat.zero_add _)
  | succ k ih =>
    rw [Function.iterate_succ_apply'] at h ⊢
    have hongoing := ongoing_of_look (sound_iterate hl k) h
    have := ih hongoing
    have := (look_cases (look^[k] l)).budget_lt hongoing
    omega

/-- When the looks that it had are over, the machine has stopped or failed. -/
theorem halted_of_budget (hl : l.Sound) : (look^[l.budget] l).state.Halted := by
  by_contra h
  have := budget_iterate hl l.budget h
  have := (look_cases (look^[l.budget] l)).budget_lt h
  omega

/-! ## Looks in a row -/

theorem offset_le_iterate (l : Lexer) (k : Nat) : l.offset ≤ (look^[k] l).offset := by
  induction k with
  | zero => exact Nat.le_refl _
  | succ k ih =>
    rw [Function.iterate_succ_apply']
    exact Nat.le_trans ih (look_cases _).offset_le

theorem offset_add_length_iterate (l : Lexer) (k : Nat) :
    (look^[k] l).offset + (look^[k] l).rest.length = l.offset + l.rest.length := by
  induction k with
  | zero => rfl
  | succ k ih =>
    rw [Function.iterate_succ_apply', (look_cases _).offset_add_length, ih]

/-- A machine that goes on after a look has used a byte up or has left it. -/
theorem Look.used_or_left (h : Look l l') (hl' : ¬ l'.state.Halted) :
    l'.offset = l.offset + 1 ∨
      l'.rest = l.rest ∧ ∃ b ∈ l.rest.head?, l.state.step (.of b) = (l'.state, false) := by
  cases h with
  | stopped hs => exact absurd (.inl hs) hl'
  | finished => exact absurd (.inl rfl) hl'
  | used => exact .inl rfl
  | @left b bs s hs hr hnext => exact .inr ⟨rfl, b, by rw [hr]; rfl, hnext⟩

theorem offset_look_of_used {b : UInt8} (hb : b ∈ l.rest.head?)
    (h : (l.state.step (.of b)).2 = true) : l.look.offset = l.offset + 1 := by
  obtain ⟨bs, hr⟩ := List.head?_eq_some_iff.1 hb
  have hs := (State.ongoing_of_used h).1
  unfold look
  rw [byteStep_cons hs hr]
  show (if (l.state.step (.of b)).2 then _ else _ : Lexer).offset = _
  rw [if_pos h]

/-- Of three looks in a row one uses a byte up, unless the machine stops or fails before the last
of them. -/
theorem offset_lt_of_three (hl : l.Sound) (h : ¬ (look^[2] l).state.Halted) :
    l.offset < (look^[3] l).offset := by
  have h₁ : ¬ l.look.state.Halted := ongoing_of_look ((look_cases l).sound hl) h
  rcases (look_cases l).used_or_left h₁ with hused | ⟨hrest₁, b, hb, hleft₁⟩
  · have := offset_le_iterate l.look 2
    show l.offset < (look^[2] l.look).offset
    omega
  rcases (look_cases l.look).used_or_left h with hused | ⟨hrest₂, c, hc, hleft₂⟩
  · have := (look_cases l).offset_le
    have := offset_le_iterate l.look.look 1
    show l.offset < (look^[1] l.look.look).offset
    omega
  · -- the same byte is left twice, so it is used up now
    have hb₂ : b ∈ l.look.look.rest.head? := by rw [hrest₂, hrest₁]; exact hb
    obtain rfl : b = c := by
      rw [hrest₁] at hc
      exact Option.mem_unique hb hc
    have hthird := offset_look_of_used hb₂ (State.used_of_left_twice hleft₁ hleft₂ h)
    have := offset_le_iterate l 2
    show l.offset < l.look.look.look.offset
    have htwo : (look^[2] l).offset = l.look.look.offset := rfl
    omega

/-- The loop of a call is over after at most as many looks as there are bytes, and one more. -/
theorem iterate_stretch (l : Lexer) : look^[l.stretch.length] l = l.afterStretch := by
  induction l using stretch_induction with
  | stop l hstretch hself => rw [hstretch, hself]; rfl
  | step l b bs hr hb ih =>
    rw [stretch_stays hr hb, afterStretch_stays hr hb, List.length_cons,
      Function.iterate_succ_apply, look, byteStep_stays hr hb]
    exact ih

theorem look_afterStretch (l : Lexer) : l.tokenStep.2 = look^[l.stretch.length + 1] l := by
  rw [Function.iterate_succ_apply', iterate_stretch, tokenStep_snd]
  rfl

/-! ## The items of a run -/

/-- A run has at most as many items as its machine had looks. -/
theorem Run.length_lt {ts : List Token} {last : Except Error Token} (h : Run l ts last l')
    (hl : l.Sound) (hs : ¬ l.state.Halted) : ts.length < l.budget := by
  induction h with
  | stop | fail => exact Nat.zero_lt_of_lt ((look_cases _).budget_lt hs)
  | @token l l₁ l' t ts last h ht _ ih =>
    have hl₁ : l₁ = look^[l.stretch.length + 1] l := by rw [← look_afterStretch, h]
    have hstate : l₁.state = t.state := by
      have hsnd := tokenStep_snd l
      have hreport := itemState_tokenStep l
      rw [h] at hsnd hreport
      rw [show l₁ = _ from hsnd, state_byteStep]
      exact hreport.symm
    have hs₁ : ¬ l₁.state.Halted := by
      rw [hstate]
      exact not_or.2 ⟨state_ne_end ht, state_ne_error h⟩
    have hrest := ih (hl₁ ▸ sound_iterate hl _) hs₁
    rw [hl₁] at hs₁ hrest
    have := budget_iterate hl _ hs₁
    rw [List.length_cons]
    omega

/-! ## A whole pattern -/

/-- How the machine gets on over a pattern. -/
structure Progress (pattern : String) : Prop where
  /-- two looks for each byte and one more are enough to stop or to fail, which is for good -/
  halts : ∃ k ≤ 2 * pattern.utf8ByteSize + 1, ∃ l : Lexer, l.state.Halted ∧
    ∀ m, k ≤ m → look^[m] (ofPattern pattern) = l
  /-- no look goes back, or past the end of the pattern -/
  offset_le : ∀ k m, k ≤ m → (look^[k] (ofPattern pattern)).offset ≤
    (look^[m] (ofPattern pattern)).offset ∧
      (look^[m] (ofPattern pattern)).offset ≤ pattern.utf8ByteSize
  /-- of three looks in a row one uses a byte up, unless it is over after two of them -/
  uses : ∀ k, (look^[k + 2] (ofPattern pattern)).state.Halted ∨
    (look^[k] (ofPattern pattern)).offset < (look^[k + 3] (ofPattern pattern)).offset
  /-- the loop of a call for a token ends, with a look for each byte at most before its last -/
  calls : ∀ k, ∃ m ≤ (look^[k] (ofPattern pattern)).rest.length, ∀ n, m < n →
    lastLook? (look^[k] (ofPattern pattern)).state n (look^[k] (ofPattern pattern)) =
      some (look^[k + m] (ofPattern pattern))
  /-- the tokens come to an end -/
  items : (ofPattern pattern).drain.1.length ≤ 2 * pattern.utf8ByteSize + 1

theorem progress (pattern : String) : Progress pattern := by
  have hsound := sound_ofPattern pattern
  have hlength : (utf8 pattern).length = pattern.utf8ByteSize := by
    rw [utf8, length_utf8Chars, utf8Size_toList]
  have hbudget : (ofPattern pattern).budget = 2 * pattern.utf8ByteSize + 1 := by
    rw [budget_ofPattern, hlength]
  refine { halts := ?_, offset_le := ?_, uses := ?_, calls := ?_, items := ?_ }
  · have hhalted := halted_of_budget hsound
    rw [hbudget] at hhalted
    refine ⟨_, Nat.le_refl _, _, hhalted, fun m hm => ?_⟩
    obtain ⟨j, rfl⟩ := Nat.exists_eq_add_of_le hm
    rw [Nat.add_comm, Function.iterate_add_apply]
    exact iterate_halted (sound_iterate hsound _) hhalted j
  · intro k m hm
    refine ⟨?_, ?_⟩
    · obtain ⟨j, rfl⟩ := Nat.exists_eq_add_of_le hm
      rw [Nat.add_comm, Function.iterate_add_apply]
      exact offset_le_iterate _ j
    · have := offset_add_length_iterate (ofPattern pattern) m
      have hzero : (ofPattern pattern).offset + (ofPattern pattern).rest.length =
          0 + (utf8 pattern).length := rfl
      omega
  · intro k
    rw [Nat.add_comm k, Nat.add_comm k, Function.iterate_add_apply, Function.iterate_add_apply]
    exact or_iff_not_imp_left.2 (offset_lt_of_three (sound_iterate hsound k))
  · intro k
    refine ⟨_, length_stretch_le _, fun n hn => ?_⟩
    rw [lastLook?_eq hn, Nat.add_comm, Function.iterate_add_apply]
    exact congrArg some (iterate_stretch _).symm
  · obtain ⟨ts, last, l', hdrain, hrun⟩ := exists_run_drain (ofPattern pattern)
    have := hrun.length_lt hsound (by show ¬ State.Halted .start; decide)
    rw [hdrain, items, List.length_append, List.length_map, ← hbudget]
    exact this

end Lexer

end Interpolation.Pattern
