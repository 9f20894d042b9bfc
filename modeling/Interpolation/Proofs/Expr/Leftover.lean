/-
  What is left over behind a whole expression. The misfit that is remembered always explains it:
  whenever characters are left over, one was noted where they begin or behind that
  (`noted_of_leftover`), so the message that blames the place alone is never given. Behind a whole
  expression a character that neither goes on with it nor is an operator is blamed itself
  (`ofSource_of_stuck`).
-/
import Interpolation.Proofs.Expr.Display
import Interpolation.Proofs.Expr.Framing
import Interpolation.Proofs.Expr.Places

namespace Interpolation.Expr

open Text

/-! ## Messages that cannot be confused -/

theorem escape_cases (mark c : Char) :
    escape mark c = [c] ∨ ∃ cs, escape mark c = '\\' :: cs := by
  unfold escape
  repeat' split
  all_goals first | exact .inl rfl | exact .inr ⟨_, rfl⟩

theorem incomplete_error_ne_misfit (src : String) (need : Need) (m : Misfit) :
    (Failure.incomplete need).error src ≠ (Failure.misfit m).error src := by
  intro h
  unfold Failure.error Cause.text at h
  dsimp only at h
  split at h
  · have htext := congrArg String.toList (Error.syntaxError.inj h)
    split at htext <;> simp [String.toList_append] at htext
  · have htext := congrArg String.toList (Error.syntaxError.inj h)
    split at htext <;> simp [String.toList_append] at htext

theorem incomplete_error_ne_leftover (src : String) (need : Need) (offset : Nat) (c : Char) :
    (Failure.incomplete need).error src ≠ leftover src offset c := by
  intro h
  unfold Failure.error leftover at h
  dsimp only at h
  split at h
  · have htext := congrArg String.toList (Error.syntaxError.inj h)
    simp [String.toList_append] at htext
  · have htext := congrArg String.toList (Error.syntaxError.inj h)
    simp [String.toList_append, quoteChar] at htext

theorem misfit_error_ne_leftover (src : String) (m : Misfit) (offset : Nat) (c : Char) :
    (Failure.misfit m).error src ≠ leftover src offset c := by
  intro h
  unfold Failure.error leftover Cause.text at h
  dsimp only at h
  have htext := congrArg String.toList (Error.syntaxError.inj h)
  split at htext
  all_goals simp [String.toList_append, quoteChar] at htext
  -- only a parenthesis behind a value begins alike, and what follows it differs
  rcases escape_cases '\'' c with hc | ⟨cs, hc⟩
  · simp [hc] at htext
  · simp [hc] at htext

/-! ## What is left over is explained -/

/-- A misfit at the offset or behind it is noted. -/
def Explained (noted : Option Misfit) (offset : Nat) : Prop := ∃ m ∈ noted, offset ≤ m.offset

theorem explained_note (noted : Option Misfit) (m : Misfit) :
    Explained (note noted (.misfit m)) m.offset := by
  rcases noted with _ | n
  · exact ⟨m, rfl, Nat.le_refl _⟩
  · unfold note
    dsimp only
    split
    · exact ⟨m, rfl, Nat.le_refl _⟩
    · exact ⟨n, rfl, by omega⟩

theorem Explained.mono {noted : Option Misfit} {o o' : Nat} (h : Explained noted o)
    (ho : o' ≤ o) : Explained noted o' := by
  obtain ⟨m, hm, hle⟩ := h
  exact ⟨m, hm, Nat.le_trans ho hle⟩

section
variable {g : Grammar} {c after : Cursor} {e : Expr}

/-- Which alternative succeeds does not depend on the failures before. -/
theorem firstOf_ok_congr {ps : List (Cursor → Reading (Expr × Cursor))} {r : Expr × Cursor}
    {best : Option Failure} (h : firstOf g c best ps = .ok r) (best' : Option Failure) :
    firstOf g c best' ps = .ok r := by
  induction ps generalizing best best' with
  | nil => cases h
  | cons p ps ih =>
    unfold firstOf at h ⊢
    split at h
    · exact h
    · split at h
      · cases h
      · rename_i hstops
        rw [if_neg hstops]
        exact ih h _

theorem unit_of_firstOf {r : Expr × Cursor} {best : Option Failure}
    (hc : ¬ c.skipBlanks.rest.isEmpty)
    (h : firstOf g c.skipBlanks best unitAlternatives = .ok r) : unit g c = .ok r := by
  unfold unit
  dsimp only
  rw [if_neg hc]
  exact firstOf_ok_congr h none

/-- If the operand is read but no operator with a right side behind it, a misfit is noted where
the operand ends or further on. -/
theorem explained_joined (hg : g.endStops) {noted noted' : Option Misfit} {f : Failure}
    (hunit : unit g c = .ok (e, after)) (hf : ¬ g.stops f)
    (h : joined g noted c = (.error f, noted')) : Explained noted' after.skipBlanks.offset := by
  obtain ⟨m, rfl⟩ := misfit_of_not_stops hg hf
  have hjoining := joining_joined g noted c
  rw [h] at hjoining
  cases hjoining with
  | noUnit hunit' => rw [hunit] at hunit'; cases hunit'
  | ended hunit' hrest hm =>
    rw [hunit] at hunit'
    cases hunit'
    exact (explained_note noted m).mono (by rw [hm])
  | noOperator hunit' hrest hop hm =>
    rw [hunit] at hunit'
    cases hunit'
    exact (explained_note noted m).mono (by rw [hm])
  | noRight hunit' hrest hop hright =>
    rw [hunit] at hunit'
    cases hunit'
    have hle := offset_le_of_expression (congrArg Prod.fst hright)
    have hadvance := (Cursor.reaches_advance after.skipBlanks).offset_le
    exact (explained_note _ m).mono (Nat.le_trans hadvance hle)

/-- If characters are left over, a misfit is noted where they begin or further on. -/
theorem noted_of_leftover (hg : g.endStops) {noted noted' : Option Misfit}
    (h : expression g noted c = (.ok (e, after), noted')) :
    Explained noted' after.skipBlanks.offset := by
  induction hlen : c.rest.length using Nat.strongRecOn generalizing c e noted noted' with
  | ind n ih =>
    rw [expression_eq] at h
    split at h
    · cases h
    rename_i hc
    rcases hjoined : joined g noted c.skipBlanks with ⟨f | r, noted₁⟩
    · rw [hjoined] at h
      dsimp only at h
      split at h
      · cases h
      rename_i hf
      obtain ⟨hfirst, rfl⟩ := Prod.mk.inj h
      have hunit := unit_of_firstOf hc hfirst
      rw [← unit_skipBlanks] at hunit
      exact explained_joined hg hunit hf hjoined
    · rw [hjoined] at h
      dsimp only at h
      obtain ⟨hr, rfl⟩ := Prod.mk.inj h
      obtain rfl := Except.ok.inj hr
      have hjoining := joining_joined g noted c.skipBlanks
      rw [hjoined] at hjoining
      cases hjoining with
      | @right l r before d op rest noted' hunit hrest hop hright =>
        have hlt := length_behind_operator hunit hrest
        have hle := Cursor.length_skipBlanks_le c
        exact ih _ (by omega) hright rfl

end

/-! ## A character that fits nowhere -/

section
variable {g : Grammar} {e : Expr} {cs mid : List Char} {x : Char} {xs : List Char}

theorem firstOf_of_unit {c : Cursor} {r : Expr × Cursor} (h : unit g c.skipBlanks = .ok r)
    (best : Option Failure) : firstOf g c.skipBlanks best unitAlternatives = .ok r := by
  unfold unit at h
  dsimp only at h
  rw [skipBlanks_skipBlanks] at h
  split at h
  · cases h
  · exact firstOf_ok_congr h best

/-- The last unit is not the namespace of a longer name. -/
def Apart (e : Expr) (rest : List Char) : Prop := ∀ n, e.lastUnit = .value n → Alone n rest

/-- The chain is read as far as it goes, and all that is noted is the character behind it. -/
def Stuck (g : Grammar) (e : Expr) (cs mid : List Char) (x : Char) : Prop :=
  ∀ start, ∃ offset, expression g none ⟨start, cs⟩ = (.ok (e, ⟨offset, mid⟩),
    some ⟨(Cursor.mk offset mid).skipBlanks.offset, .invalidOperator x⟩)

theorem stuck_unit (h : Spells g e cs mid) (hunit : e.isBinary = false) (hapart : Apart e mid)
    (hmid : mid.dropWhile isBlank = x :: xs) (hx : g.isOperator x = false) :
    Stuck g e cs mid x := by
  intro start
  have halone : ∀ n, e = .value n → Alone n mid := by
    rintro n rfl
    exact hapart n rfl
  obtain ⟨offset, hread⟩ := unit_of_spells (c := ⟨start, cs⟩) h hunit halone
  rw [← unit_skipBlanks] at hread
  refine ⟨offset, ?_⟩
  have hrest : (Cursor.mk offset mid).skipBlanks.rest = x :: xs := hmid
  have hc : ¬ (Cursor.mk start cs).skipBlanks.rest.isEmpty := not_isEmpty_of_spells h
  have hjoined : joined g none (Cursor.mk start cs).skipBlanks =
      (.error (.misfit ⟨(Cursor.mk offset mid).skipBlanks.offset, .invalidOperator x⟩),
        some ⟨(Cursor.mk offset mid).skipBlanks.offset, .invalidOperator x⟩) := by
    unfold joined
    rw [hread]
    dsimp only
    rw [hrest]
    dsimp only
    rw [hx]
    rfl
  rw [expression_eq, if_neg hc, hjoined]
  exact congrArg (·, _) (firstOf_of_unit hread _)

theorem stuck_of_spells (h : Spells g e cs mid) (hapart : Apart e mid)
    (hmid : mid.dropWhile isBlank = x :: xs) (hx : g.isOperator x = false) :
    Stuck g e cs mid x := by
  induction h with
  | literal ht hword => exact stuck_unit (.literal ht hword) rfl hapart hmid hx
  | value hn hopen => exact stuck_unit (.value hn hopen) rfl hapart hmid hx
  | call hn hopen hps => exact stuck_unit (.call hn hopen hps) rfl hapart hmid hx
  | @binary l r op cs mid' after rest hl hunit hop hblank hword hr _ ih =>
    intro start
    have halone : ∀ n, l = .value n → Alone n mid' :=
      fun _ _ _ _ => Spells.not_colons hword hblank hr
    obtain ⟨o, hread⟩ := unit_of_spells (c := ⟨start, cs⟩) hl hunit halone
    rw [← unit_skipBlanks] at hread
    have hc : ¬ (Cursor.mk start cs).skipBlanks.rest.isEmpty := not_isEmpty_of_spells hl
    obtain ⟨o', hjoined⟩ := joined_of_operator hread hop hblank hword none
    obtain ⟨offset, hright⟩ := ih hapart hmid o'
    refine ⟨offset, ?_⟩
    rw [expression_eq, if_neg hc, hjoined, hright]

/-- The character behind a whole expression is blamed if it fits nowhere. -/
theorem ofSource_of_stuck {src : String} (h : Spells g e src.toList mid) (hapart : Apart e mid)
    (hmid : mid.dropWhile isBlank = x :: xs) (hx : g.isOperator x = false) :
    ofSource g src = .error (.syntaxError
      ("invalid operator " ++ quoteChar x ++ " in expression " ++ quote src)) := by
  obtain ⟨offset, hexpr⟩ := stuck_of_spells h hapart hmid hx 0
  have hskip : (Cursor.mk offset mid).skipBlanks =
      ⟨(Cursor.mk offset mid).skipBlanks.offset, x :: xs⟩ := by
    rw [← hmid]
    rfl
  have hsource : expression g none (.ofSource src) = _ := hexpr
  unfold ofSource
  rw [hsource]
  dsimp only
  rw [hskip]
  dsimp only
  rw [if_pos (Nat.le_refl _)]
  rfl

end

/-! ## Sources -/

/-- Behind the blanks `w`, the character `c` and the text after it do not go on with the last unit
of the expression in front: no label is made longer, no value called, no name given a namespace. -/
structure Detached (e : Expr) (w : List Char) (c : Char) (rest : List Char) : Prop where
  label : e.lastUnit.isValue → w = [] → isLabelChar c = false
  call : e.lastUnit.isValue → c ≠ '('
  name : (∃ key, e.lastUnit = .value ⟨none, key⟩) → ¬ [':', ':'] <+: c :: rest

section
variable {e : Expr} {w rest : List Char} {c : Char}

theorem Detached.parted (h : Detached e w c rest) (hw : ∀ x ∈ w, isBlank x)
    (hc : isBlank c = false) : Parted e (w ++ c :: rest) :=
  parted_of_found hw hc h.label h.call

theorem Detached.apart (h : Detached e w c rest) (hw : ∀ x ∈ w, isBlank x)
    (hc : isBlank c = false) : Apart e (w ++ c :: rest) := by
  rintro ⟨space, key⟩ hlast hspace after hword
  obtain rfl : space = none := hspace
  rw [word_iff (by decide), dropWhile_run hw (ends_cons hc)] at hword
  exact h.name ⟨key, hlast⟩ ⟨after, hword.symm⟩

end

/-- A source that does not end in a blank is spelled to its end. -/
theorem SpelledBy.spells_of_last {g : Grammar} {src : String} {e : Expr} (h : SpelledBy g src e)
    (hlast : ∀ x ∈ src.toList.getLast?, isBlank x = false) : Spells g e src.toList [] := by
  obtain ⟨rest, hspells, hrest⟩ := h
  obtain ⟨t, ht, -⟩ := hspells.framed
  rcases List.eq_nil_or_concat rest with rfl | ⟨r, x, rfl⟩
  · exact hspells
  · have hx := hlast x (by rw [ht]; simp)
    rw [hrest x (by simp)] at hx
    cases hx

/-- Whatever is left over behind a whole expression is explained by what was noted, never by the
place alone. A character that neither goes on with the last unit nor is an operator is itself
blamed. -/
theorem ofSource_leftover (isOperator : Char → Bool) :
    (∀ src offset c, ofSource { isOperator } src ≠ .error (leftover src offset c)) ∧
      (∀ src e after noted,
        expression { isOperator } none (.ofSource src) = (.ok (e, after), noted) →
          after.skipBlanks.rest ≠ [] → ∃ m ∈ noted, after.skipBlanks.offset ≤ m.offset) ∧
      ∀ (u w : String) (c : Char) (rest : List Char) (e : Expr),
        ofSource { isOperator } u = .ok e → (∀ x ∈ u.toList.getLast?, isBlank x = false) →
          (∀ x ∈ w.toList, isBlank x) → isBlank c = false → isOperator c = false →
          Detached e w.toList c rest →
          ofSource { isOperator } (u ++ w ++ String.ofList (c :: rest)) =
            .error (.syntaxError ("invalid operator " ++ quoteChar c ++ " in expression " ++
              quote (u ++ w ++ String.ofList (c :: rest)))) := by
  refine ⟨?_, ?_, ?_⟩
  · intro src offset c h
    unfold ofSource at h
    split at h
    · rename_i f noted hexpr
      have hf := Except.error.inj h
      rcases f with m | need
      · exact misfit_error_ne_leftover src m offset c hf
      · exact incomplete_error_ne_leftover src need offset c hf
    · rename_i e after noted hexpr
      obtain ⟨m, rfl, hle⟩ := noted_of_leftover rfl hexpr
      split at h
      · cases h
      · rename_i o x xs hskip
        rw [hskip] at hle
        dsimp only at h
        rw [if_pos hle] at h
        exact misfit_error_ne_leftover src m offset c (Except.error.inj h)
  · intro src e after noted h _
    exact noted_of_leftover rfl h
  · intro u w c rest e hu hlast hw hc hop hdetached
    have hspells := (spelledBy_of_ofSource hu).spells_of_last hlast
    have hall : (u ++ w ++ String.ofList (c :: rest)).toList =
        u.toList ++ (w.toList ++ c :: rest) := by
      simp only [String.toList_append, String.toList_ofList, List.append_assoc]
    have hparted := hdetached.parted hw hc
    have hlonger : Spells { isOperator } e (u ++ w ++ String.ofList (c :: rest)).toList
        (w.toList ++ c :: rest) := by
      rw [hall]
      exact hspells.extend hparted
    have hfound : (w.toList ++ c :: rest).dropWhile isBlank = c :: rest :=
      dropWhile_run hw (ends_cons hc)
    exact ofSource_of_stuck hlonger (hdetached.apart hw hc) hfound hop

/-- Two more colons behind a name that has a namespace are no operator. -/
theorem ofSource_leftover_colons :
    ∃ e : Expr, ofSource { isOperator := (· == '+') } "x + f::y" = .ok e ∧
      (∀ x ∈ "x + f::y".toList.getLast?, isBlank x = false) ∧ (∀ x ∈ "".toList, isBlank x) ∧
      isBlank ':' = false ∧ (':' == '+') = false ∧ Detached e "".toList ':' [':', 'z'] ∧
      ofSource { isOperator := (· == '+') } "x + f::y::z" =
        .error (.syntaxError "invalid operator ':' in expression \"x + f::y::z\"") := by
  have hread : ofSource { isOperator := (· == '+') } "x + f::y" =
      .ok (.binary (.value ⟨none, "x"⟩) '+' (.value ⟨some "f", "y"⟩)) :=
    ofSource_of_spelledBy (spelledBy_display (by decide))
  have hlast : ∀ x ∈ "x + f::y".toList.getLast?, isBlank x = false := by
    intro x hx
    obtain rfl := Option.some.inj (show some 'y' = some x from hx)
    decide
  have hdetached : Detached (.binary (.value ⟨none, "x"⟩) '+' (.value ⟨some "f", "y"⟩))
      "".toList ':' [':', 'z'] := by
    refine ⟨fun _ _ => by decide, fun _ => by decide, ?_⟩
    rintro ⟨key, hkey⟩
    cases hkey
  exact ⟨_, hread, hlast, List.forall_mem_nil _, by decide, by decide, hdetached,
    (ofSource_leftover (· == '+')).2.2 _ "" ':' [':', 'z'] _ hread hlast (List.forall_mem_nil _)
      (by decide) (by decide) hdetached⟩

end Interpolation.Expr
