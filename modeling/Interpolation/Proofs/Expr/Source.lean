/-
  The expression that a source spells. A chain is read to the end of the source or not at all,
  since an operator that is left over has no place behind a whole expression; so the end of input
  may end the search for a match without the loss of one (`expression_of_spells`).
-/
import Interpolation.Proofs.Expr.Units
import Mathlib.Data.List.TakeWhile

namespace Interpolation.Expr

open Text

/-! ## Chains -/

/-- The alternative with an operator: a unit, the operator and an expression. -/
def joined (g : Grammar) (noted : Option Misfit) (c : Cursor) :
    Reading (Expr × Cursor) × Option Misfit :=
  match unit g c with
  | .error f => (.error f, noted)
  | .ok (left, after) =>
    match after.skipBlanks.rest with
    | [] =>
      let f := .misfit ⟨after.skipBlanks.offset, .missingOperator⟩
      (.error f, note noted f)
    | op :: _ =>
      if g.isOperator op then
        match expression g noted after.skipBlanks.advance with
        | (.ok (right, after), noted) => (.ok (.binary left op right, after), noted)
        | (.error f, noted) => (.error f, note noted f)
      else
        let f := .misfit ⟨after.skipBlanks.offset, .invalidOperator op⟩
        (.error f, note noted f)

/-- Behind an operator there is less to read than in front of its left side. -/
theorem length_behind_operator {g : Grammar} {c after : Cursor} {left : Expr} {op : Char}
    {rest : List Char} (hunit : unit g c = .ok (left, after))
    (hrest : after.skipBlanks.rest = op :: rest) :
    after.skipBlanks.advance.rest.length < c.rest.length := by
  have h₁ := length_unit hunit
  have h₂ := Cursor.length_skipBlanks_le after
  have h₃ := Cursor.length_advance_lt (c := after.skipBlanks) (x := op)
    (by rw [Cursor.peek?, hrest]; rfl)
  omega

/-- How the alternative with an operator comes out, and what is noted behind it. -/
inductive Joining (g : Grammar) (noted : Option Misfit) (c : Cursor) :
    Reading (Expr × Cursor) × Option Misfit → Prop where
  | noUnit {f : Failure} (hunit : unit g c = .error f) : Joining g noted c (.error f, noted)
  | ended {left : Expr} {after : Cursor} {m : Misfit} (hunit : unit g c = .ok (left, after))
      (hrest : after.skipBlanks.rest = []) (hm : m = ⟨after.skipBlanks.offset, .missingOperator⟩) :
      Joining g noted c (.error (.misfit m), note noted (.misfit m))
  | noOperator {left : Expr} {after : Cursor} {op : Char} {rest : List Char} {m : Misfit}
      (hunit : unit g c = .ok (left, after)) (hrest : after.skipBlanks.rest = op :: rest)
      (hop : g.isOperator op = false) (hm : m = ⟨after.skipBlanks.offset, .invalidOperator op⟩) :
      Joining g noted c (.error (.misfit m), note noted (.misfit m))
  | noRight {left : Expr} {after : Cursor} {op : Char} {rest : List Char} {f : Failure}
      {noted' : Option Misfit} (hunit : unit g c = .ok (left, after))
      (hrest : after.skipBlanks.rest = op :: rest) (hop : g.isOperator op)
      (hright : expression g noted after.skipBlanks.advance = (.error f, noted')) :
      Joining g noted c (.error f, note noted' f)
  | right {left right : Expr} {after d : Cursor} {op : Char} {rest : List Char}
      {noted' : Option Misfit} (hunit : unit g c = .ok (left, after))
      (hrest : after.skipBlanks.rest = op :: rest) (hop : g.isOperator op)
      (hright : expression g noted after.skipBlanks.advance = (.ok (right, d), noted')) :
      Joining g noted c (.ok (.binary left op right, d), noted')

theorem joining_joined (g : Grammar) (noted : Option Misfit) (c : Cursor) :
    Joining g noted c (joined g noted c) := by
  unfold joined
  split
  · rename_i f hunit
    exact .noUnit hunit
  · rename_i left after hunit
    split
    · rename_i hrest
      exact .ended hunit hrest rfl
    · rename_i op rest hrest
      split
      · rename_i hop
        split
        · rename_i right d noted' hright
          exact .right hunit hrest hop hright
        · rename_i f noted' hright
          exact .noRight hunit hrest hop hright
      · rename_i hop
        exact .noOperator hunit hrest (Bool.eq_false_iff.2 hop) rfl

/-- What `expression` computes, without the evidence for its termination. -/
theorem expression_eq (g : Grammar) (noted : Option Misfit) (c : Cursor) :
    expression g noted c =
      if c.skipBlanks.rest.isEmpty then (.error (.incomplete .expression), noted)
      else match (joined g noted c.skipBlanks).1 with
        | .ok r => (.ok r, (joined g noted c.skipBlanks).2)
        | .error f =>
          if g.stops f then (.error f, (joined g noted c.skipBlanks).2)
          else (firstOf g c.skipBlanks (some f) unitAlternatives,
            (joined g noted c.skipBlanks).2) := by
  unfold joined
  rw [expression]
  rcases hu : unit g c.skipBlanks with f | ⟨left, after⟩
  · rfl
  · dsimp only
    rcases hr : after.skipBlanks.rest with _ | ⟨op, tail⟩
    · rfl
    · rfl

/-- Behind an operand and an operator, the right side decides. -/
theorem joined_of_operator {g : Grammar} {c after : Cursor} {l : Expr} {op : Char}
    {mid : List Char} (hl : unit g c = .ok (l, after)) (hop : g.isOperator op)
    (hblank : isBlank op = false) (hword : Word [op] after.rest mid) (noted : Option Misfit) :
    ∃ offset, joined g noted c = match expression g noted ⟨offset, mid⟩ with
      | (.ok (r, d), noted) => (.ok (.binary l op r, d), noted)
      | (.error f, noted) => (.error f, note noted f) := by
  obtain ⟨hskip, offset, hadvance⟩ := advance_of_word hblank hword
  refine ⟨offset, ?_⟩
  unfold joined
  rw [hl]
  dsimp only
  rw [hskip, hadvance]
  dsimp only
  rw [if_pos hop]

theorem joined_of_unit {g : Grammar} {noted : Option Misfit} {c after : Cursor} {l r : Expr}
    {op : Char} {mid rest : List Char} (hl : unit g c = .ok (l, after)) (hop : g.isOperator op)
    (hblank : isBlank op = false) (hword : Word [op] after.rest mid)
    (hr : ∀ offset, Yields (expression g noted ⟨offset, mid⟩).1 r rest) :
    Yields (joined g noted c).1 (.binary l op r) rest := by
  obtain ⟨offset, hjoined⟩ := joined_of_operator hl hop hblank hword noted
  obtain ⟨o, hright⟩ := hr offset
  rw [hjoined]
  rcases hexpr : expression g noted ⟨offset, mid⟩ with ⟨f | ⟨r', d⟩, noted'⟩
  · rw [hexpr] at hright
    cases hright
  · rw [hexpr] at hright
    cases hright
    exact ⟨o, rfl⟩

theorem joined_of_blanks {g : Grammar} {c after : Cursor} {l : Expr}
    (hl : unit g c = .ok (l, after)) (hrest : ∀ x ∈ after.rest, isBlank x)
    (noted : Option Misfit) :
    ∃ m, (joined g noted c).1 = .error (.misfit m) := by
  have hskip : after.skipBlanks.rest = [] := List.dropWhile_eq_nil_iff.2 hrest
  unfold joined
  rw [hl]
  dsimp only
  rw [hskip]
  exact ⟨_, rfl⟩

theorem isBlank_of_skipBlanks {c : Cursor} {x : Char} {xs : List Char}
    (h : c.skipBlanks.rest = x :: xs) : isBlank x = false := by
  apply ends_dropWhile isBlank c.rest
  show x ∈ c.skipBlanks.rest.head?
  rw [h]
  rfl

theorem unit_of_joined {g : Grammar} {noted : Option Misfit} {c : Cursor} {e : Expr}
    {rest : List Char} (h : Yields (joined g noted c).1 e rest) :
    ∃ l op r after offset mid, e = .binary l op r ∧ unit g c = .ok (l, after) ∧
      g.isOperator op ∧ isBlank op = false ∧ Word [op] after.rest mid ∧
      Yields (expression g noted ⟨offset, mid⟩).1 r rest := by
  have hjoining := joining_joined g noted c
  generalize joined g noted c = result at h hjoining
  cases hjoining with
  | noUnit => exact absurd h not_yields_error
  | ended => exact absurd h not_yields_error
  | noOperator => exact absurd h not_yields_error
  | noRight => exact absurd h not_yields_error
  | @right l r after d op mid noted' hunit hrest hop hright =>
    obtain ⟨rfl, rfl⟩ := yields_ok.1 h
    have hblank := isBlank_of_skipBlanks hrest
    have hword := word_of_skipBlanks hblank hrest
    obtain ⟨offset, hadvance⟩ := (advance_of_word hblank hword).2
    rw [hadvance] at hright
    refine ⟨l, op, r, after, offset, mid, rfl, hunit, hop, hblank, hword, ?_⟩
    rw [hright]
    exact yields_ok.2 ⟨rfl, rfl⟩

theorem unit_skipBlanks (g : Grammar) (c : Cursor) : unit g c.skipBlanks = unit g c := by
  unfold unit
  rw [skipBlanks_skipBlanks]

/-- A failure behind which the search goes on is a misfit. -/
theorem misfit_of_not_stops {g : Grammar} {f : Failure} (hg : g.endStops) (h : ¬ g.stops f) :
    ∃ m, f = .misfit m := by
  rcases f with m | need
  · exact ⟨m, rfl⟩
  · exact absurd hg h

theorem joined_or_unit {g : Grammar} {noted : Option Misfit} {c : Cursor} {e : Expr}
    {rest : List Char} (h : Yields (expression g noted c).1 e rest) :
    Yields (joined g noted c.skipBlanks).1 e rest ∨
      ∃ best, Yields (firstOf g c best unitAlternatives) e rest := by
  rw [expression_eq] at h
  split at h
  · exact absurd h not_yields_error
  · split at h
    · rename_i r hjoined
      left
      rw [hjoined]
      exact h
    · split at h
      · exact absurd h not_yields_error
      · rw [firstOf_skipBlanks] at h
        exact .inr ⟨_, h⟩

theorem expression_of_joined {g : Grammar} {noted : Option Misfit} {c : Cursor} {e : Expr}
    {rest : List Char} (hc : ¬ c.skipBlanks.rest.isEmpty)
    (h : Yields (joined g noted c.skipBlanks).1 e rest) :
    Yields (expression g noted c).1 e rest := by
  obtain ⟨offset, h⟩ := h
  rw [expression_eq, if_neg hc, h]
  exact ⟨offset, rfl⟩

theorem expression_of_misfit {g : Grammar} {noted : Option Misfit} {c : Cursor} {m : Misfit}
    (hc : ¬ c.skipBlanks.rest.isEmpty)
    (h : (joined g noted c.skipBlanks).1 = .error (.misfit m)) :
    (expression g noted c).1 = firstOf g c (some (.misfit m)) unitAlternatives := by
  rw [expression_eq, if_neg hc, h]
  exact firstOf_skipBlanks g c _

/-- Whatever is read was spelled, also in front of a rest that is not blank. -/
theorem spells_of_expression {g : Grammar} {noted : Option Misfit} {c : Cursor} {e : Expr}
    {rest : List Char} (h : Yields (expression g noted c).1 e rest) : Spells g e c.rest rest := by
  -- on the length of the text, since the right side of an operator is a shorter one
  induction hlen : c.rest.length using Nat.strongRecOn generalizing c noted e rest with
  | ind n ih =>
    rcases joined_or_unit h with h | ⟨best, h⟩
    · obtain ⟨l, op, r, after, offset, mid, rfl, hl, hop, hblank, hword, hr⟩ := unit_of_joined h
      rw [unit_skipBlanks] at hl
      have hlt : mid.length < n := by
        have hle := length_unit hl
        obtain ⟨w, -, hafter⟩ := hword
        rw [hafter] at hle
        simp only [List.length_append, List.length_cons, List.length_nil] at hle
        omega
      obtain ⟨hunit, hleft⟩ := spells_of_unit (yields_of_eq hl)
      have hright : Spells g r mid rest := ih mid.length hlt hr rfl
      exact .binary hleft hunit hop hblank hword hright
    · exact (spells_of_firstOf h).2

/-- What is spelled without an operator is read, if only blanks follow. -/
theorem expression_of_unit {g : Grammar} {noted : Option Misfit} {c : Cursor} {e : Expr}
    {rest : List Char} (h : Spells g e c.rest rest) (hunit : e.isBinary = false)
    (hrest : ∀ x ∈ rest, isBlank x) : Yields (expression g noted c).1 e rest := by
  have halone : ∀ n, e = .value n → Alone n rest := by
    intro n _ _ after hcolons
    rw [word_iff (by decide), List.dropWhile_eq_nil_iff.2 hrest] at hcolons
    cases hcolons
  obtain ⟨offset, hl⟩ := unit_of_spells h hunit halone
  rw [← unit_skipBlanks] at hl
  obtain ⟨m, hjoined⟩ := joined_of_blanks hl hrest noted
  obtain ⟨o, hfirst⟩ := firstOf_of_spells h hunit halone
  exact ⟨o, by rw [expression_of_misfit (not_isEmpty_of_spells h) hjoined, hfirst]⟩

/-- What is spelled up to the blanks at the end of a text is read. -/
theorem expression_of_spells {g : Grammar} {e : Expr} {cs rest : List Char}
    (h : Spells g e cs rest) (hrest : ∀ x ∈ rest, isBlank x) (noted : Option Misfit)
    (offset : Nat) : Yields (expression g noted ⟨offset, cs⟩).1 e rest := by
  induction h generalizing offset with
  | literal ht hword => exact expression_of_unit (.literal ht hword) rfl hrest
  | value hn hopen => exact expression_of_unit (.value hn hopen) rfl hrest
  | call hn hopen hps => exact expression_of_unit (.call hn hopen hps) rfl hrest
  | @binary l r op cs mid after rest hl hunit hop hblank hword hr _ ih =>
    have halone : ∀ n, l = .value n → Alone n mid :=
      fun _ _ _ _ => Spells.not_colons hword hblank hr
    obtain ⟨o, hleft⟩ := unit_of_spells (c := ⟨offset, cs⟩) hl hunit halone
    rw [← unit_skipBlanks] at hleft
    have hc : ¬ (Cursor.mk offset cs).skipBlanks.rest.isEmpty := not_isEmpty_of_spells hl
    exact expression_of_joined hc (joined_of_unit hleft hop hblank hword (ih hrest))

/-! ## Sources -/

theorem ofSource_of_spelledBy {g : Grammar} {src : String} {e : Expr} (h : SpelledBy g src e) :
    ofSource g src = .ok e := by
  obtain ⟨rest, hspells, hrest⟩ := h
  obtain ⟨offset, hexpr⟩ := expression_of_spells hspells hrest none 0
  have hskip : (Cursor.mk offset rest).skipBlanks.rest = [] := List.dropWhile_eq_nil_iff.2 hrest
  rcases hres : expression g none (.ofSource src) with ⟨r, noted⟩
  obtain rfl : r = .ok (e, ⟨offset, rest⟩) := by
    rw [← hexpr]
    exact (congrArg Prod.fst hres).symm
  unfold ofSource
  rw [hres]
  dsimp only
  split
  · rfl
  · rename_i o x xs heq
    rw [heq] at hskip
    cases hskip

theorem spelledBy_of_ofSource {g : Grammar} {src : String} {e : Expr}
    (h : ofSource g src = .ok e) : SpelledBy g src e := by
  unfold ofSource at h
  split at h
  · cases h
  · rename_i e' after noted hexpr
    split at h
    · rename_i o hskip
      obtain rfl := Except.ok.inj h
      have hspells : Spells g e' src.toList after.rest :=
        spells_of_expression (c := .ofSource src) ⟨after.offset, congrArg Prod.fst hexpr⟩
      exact ⟨after.rest, hspells, List.dropWhile_eq_nil_iff.1 (congrArg Cursor.rest hskip)⟩
    · split at h
      · cases h
      · cases h

theorem Failure.error_eq (src : String) (f : Failure) :
    ∃ text, f.error src = .syntaxError text := by
  unfold Failure.error
  rcases f with m | need
  · exact ⟨_, rfl⟩
  · dsimp only
    split
    · exact ⟨_, rfl⟩
    · exact ⟨_, rfl⟩

/-- Whatever keeps a source from being read, it is reported as an error of syntax. -/
theorem ofSource_error {g : Grammar} {src : String} {err : Error}
    (h : ofSource g src = .error err) : ∃ text, err = .syntaxError text := by
  unfold ofSource at h
  split at h
  · rename_i f noted hexpr
    obtain rfl := Except.error.inj h
    exact Failure.error_eq src f
  · split at h
    · cases h
    · split at h
      · obtain rfl := Except.error.inj h
        split
        · exact Failure.error_eq src _
        · exact ⟨_, rfl⟩
      · obtain rfl := Except.error.inj h
        exact ⟨_, rfl⟩

/-- Reading is deterministic, so a source spells one expression only. -/
theorem SpelledBy.unique {g : Grammar} {src : String} {e e' : Expr} (h : SpelledBy g src e)
    (h' : SpelledBy g src e') : e' = e := by
  have hread := ofSource_of_spelledBy h
  rw [ofSource_of_spelledBy h'] at hread
  exact Except.ok.inj hread

theorem SpelledBy.wellFormed {g : Grammar} {src : String} {e : Expr} (h : SpelledBy g src e) :
    e.WellFormed g := by
  obtain ⟨rest, hspells, -⟩ := h
  exact hspells.wellFormed

/-- A source is accepted exactly if it spells an expression. It spells no other one, a chain of
operators nests to the right, and what is not accepted is an error of syntax. -/
theorem ofSource_eq_ok_iff (g : Grammar) (src : String) :
    (∀ e, ofSource g src = .ok e ↔ SpelledBy g src e) ∧
      (∀ e, SpelledBy g src e → e.NestsRight ∧ ∀ e', SpelledBy g src e' → e' = e) ∧
      ∀ err, ofSource g src = .error err → ∃ text, err = .syntaxError text := by
  refine ⟨?_, ?_, ?_⟩
  · intro e
    exact ⟨spelledBy_of_ofSource, ofSource_of_spelledBy⟩
  · intro e h
    exact ⟨h.wellFormed.nestsRight, fun _ h' => h.unique h'⟩
  · intro err
    exact ofSource_error

/-! ## The end of input -/

/-- What an expression is spelled as depends on the operators alone. -/
theorem Spells.of_isOperator {g g' : Grammar} {e : Expr} {cs rest : List Char}
    (hops : g.isOperator = g'.isOperator) (h : Spells g e cs rest) : Spells g' e cs rest := by
  induction h with
  | literal ht hword => exact .literal ht hword
  | value hn hopen => exact .value hn hopen
  | call hn hopen hps => exact .call hn hopen hps
  | binary _ hunit hop hblank hword _ ihl ihr =>
    rw [hops] at hop
    exact .binary ihl hunit hop hblank hword ihr

theorem SpelledBy.of_isOperator {g g' : Grammar} {src : String} {e : Expr}
    (hops : g.isOperator = g'.isOperator) (h : SpelledBy g src e) : SpelledBy g' src e := by
  obtain ⟨rest, hspells, hrest⟩ := h
  exact ⟨rest, hspells.of_isOperator hops, hrest⟩

/-- Ending the search where the input ends loses nothing: a reader that goes on to the next
alternative there accepts the same sources, and reads each of them as the same expression. -/
theorem ofSource_endStops_iff (isOperator : Char → Bool) (src : String) (e : Expr) :
    ofSource { isOperator } src = .ok e ↔
      ofSource { isOperator, endStops := false } src = .ok e := by
  constructor
  · intro h
    apply ofSource_of_spelledBy
    exact (spelledBy_of_ofSource h).of_isOperator (by rfl)
  · intro h
    apply ofSource_of_spelledBy
    exact (spelledBy_of_ofSource h).of_isOperator (by rfl)

end Interpolation.Expr
