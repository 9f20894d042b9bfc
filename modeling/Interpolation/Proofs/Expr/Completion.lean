/-
  What is incomplete can be completed. Where the input ends too early, some text behind it makes
  what was begun a reference, a list of references, a name or an expression
  (`completes_expression`): each need of a reader is met by a text of its own, and what was read
  before stays as it is.
-/
import Interpolation.Proofs.Expr.Framing
import Interpolation.Proofs.Expr.Source

namespace Interpolation.Expr

open Text

variable {c : Cursor} {need : Need}

/-! ## Words -/

theorem word_of_blanks {word cs : List Char} (h : ∀ x ∈ cs, isBlank x) :
    Word word (cs ++ word) [] := ⟨cs, h, by rw [List.append_nil]⟩

/-- A word of several characters is its first one with the others right behind it. -/
theorem word_cons_iff {x : Char} {xs cs rest : List Char} :
    Word (x :: xs) cs rest ↔ Word [x] cs (xs ++ rest) := Iff.rfl

theorem expect_incomplete {want : Char} {need' : Need} {otherwise : Char → Cause}
    (h : expect want need' otherwise c = .error (.incomplete need)) : ∀ x ∈ c.rest, isBlank x := by
  apply List.dropWhile_eq_nil_iff.1
  unfold expect at h
  dsimp only at h
  split at h
  · rename_i hpeek
    exact List.head?_eq_none_iff.1 hpeek
  · split at h
    · cases h
    · cases h

theorem label_not_incomplete (c : Cursor) (need : Need) : label c ≠ .error (.incomplete need) := by
  intro h
  unfold label misfit at h
  dsimp only at h
  split at h
  · cases h
  · cases h

/-! ## References -/

theorem spellsReference_zero {cs : List Char} (h : Word ['$'] cs ['0']) :
    SpellsReference 0 cs [] :=
  ⟨['0'], word_cons_iff.2 h, by decide, List.forall_mem_singleton.2 (by decide), by decide,
    by decide⟩

theorem completes_reference (h : reference c = .error (.incomplete need)) :
    ∃ t n, SpellsReference n (c.rest ++ t) [] := by
  unfold reference at h
  rcases hd : expect '$' .reference .noReference c with f | d
  · rw [hd] at h
    obtain rfl := Except.error.inj h
    exact ⟨['$', '0'], 0, spellsReference_zero ⟨c.rest, expect_incomplete hd, rfl⟩⟩
  · rw [hd, ok_bind] at h
    dsimp only at h
    have hdollar : Word ['$'] c.rest d.rest := (expect_iff (by decide)).1 ⟨d.offset, hd⟩
    split at h
    · split at h
      · rename_i hpeek
        have hrest : d.rest = [] := List.head?_eq_none_iff.1 hpeek
        rw [hrest] at hdollar
        exact ⟨['0'], 0, spellsReference_zero (hdollar.append ['0'])⟩
      · cases h
    · split at h
      · cases h
      · cases h

theorem completes_references (h : references c = .error (.incomplete need)) :
    ∃ t ns, SpellsReferences ns (c.rest ++ t) [] := by
  fun_induction references c with
  | case1 c f hf =>
    obtain rfl := Except.error.inj h
    obtain ⟨t, n, hn⟩ := completes_reference hf
    refine ⟨t ++ [')'], [n], ?_⟩
    rw [← List.append_assoc]
    exact .last (hn.framed.extend trivial) (word_self [')'] [])
  | case2 c n after hn c₁ hrest =>
    have hblanks : ∀ x ∈ after.rest, isBlank x := List.dropWhile_eq_nil_iff.1 hrest
    have hspells := (yields_reference.1 (yields_of_eq hn)).1
    exact ⟨[')'], [n], .last (hspells.framed.extend trivial) (word_of_blanks hblanks)⟩
  | case3 c n after hn c₁ rest hrest ih =>
    rcases hright : references c₁.advance with f | ⟨ns, d⟩
    · rw [hright] at h ih
      obtain rfl := Except.error.inj h
      obtain ⟨t, ns, hns⟩ := ih rfl
      rw [rest_advance hrest] at hns
      have hspells := (yields_reference.1 (yields_of_eq hn)).1
      have hcomma := word_of_skipBlanks (by decide) hrest
      exact ⟨t, n :: ns, .more (hspells.framed.extend trivial) (hcomma.append t) hns⟩
    · rw [hright] at h
      cases h
  | case4 => cases h
  | case5 => cases h

/-! ## Names and units -/

/-- The label that completes what lacks one. -/
theorem isLabel_a : IsLabel "a" := by decide

theorem spellsLabel_behind {cs : List Char} (h : ∀ x ∈ cs, isBlank x) :
    SpellsLabel "a" (cs ++ ['a']) [] := ⟨isLabel_a, word_of_blanks h, ends_nil isLabelChar⟩

theorem name_of_colons {after : Cursor} {first r : List Char}
    (hlabel : label c = .ok (first, after)) (hcolons : Word [':', ':'] after.rest r) :
    ∃ offset, name c =
      if (r.dropWhile isBlank).isEmpty then .error (.incomplete .nameAfterColons)
      else label ⟨offset, r⟩ >>= fun x =>
        pure (⟨some (String.ofList first), String.ofList x.1⟩, x.2) := by
  obtain ⟨offset, hskip⟩ := skipBlanks_of_word (by decide) hcolons
  refine ⟨offset + 2, ?_⟩
  unfold name
  rw [hlabel, ok_bind]
  dsimp only
  rw [hskip, ← label_skipBlanks ⟨offset + 2, r⟩]
  rfl

/-- A name is incomplete only where the key behind a namespace is missing. -/
theorem name_incomplete (h : name c = .error (.incomplete need)) :
    ∃ space mid after, SpellsLabel space c.rest mid ∧ Word [':', ':'] mid after ∧
      ∀ x ∈ after, isBlank x := by
  rcases hlabel : label c with f | ⟨first, d⟩
  · unfold name at h
    rw [hlabel] at h
    rw [Except.error.inj h] at hlabel
    exact absurd hlabel (label_not_incomplete c need)
  · by_cases hcolons : ∃ r, Word [':', ':'] d.rest r
    · obtain ⟨r, hcolons⟩ := hcolons
      obtain ⟨offset, hname⟩ := name_of_colons hlabel hcolons
      refine ⟨_, d.rest, r, yields_label.1 (yields_of_eq hlabel), hcolons, ?_⟩
      rw [hname] at h
      split at h
      · rename_i hempty
        exact List.dropWhile_eq_nil_iff.1 (List.isEmpty_iff.1 hempty)
      · rcases hkey : label ⟨offset, r⟩ with f | x
        · rw [hkey] at h
          rw [Except.error.inj h] at hkey
          exact absurd hkey (label_not_incomplete _ need)
        · rw [hkey] at h
          cases h
    · rw [name_of_label hlabel (not_exists.1 hcolons)] at h
      cases h

theorem completes_name (h : name c = .error (.incomplete need)) :
    ∃ t n, SpellsName n (c.rest ++ t) [] := by
  obtain ⟨space, mid, after, hspace, hcolons, hblanks⟩ := name_incomplete h
  have hends : Ends isLabelChar (mid ++ ['a']) :=
    (hcolons.append ['a']).ends (by decide) (fun _ => isLabelChar_of_isBlank)
  exact ⟨['a'], ⟨some space, "a"⟩, .qualified (hspace.framed.extend hends) (hcolons.append ['a'])
    (spellsLabel_behind hblanks)⟩

/-- The text can be continued to a whole expression without an operator. -/
def CompletesUnit (g : Grammar) (cs : List Char) : Prop :=
  ∃ t e, e.isBinary = false ∧ Spells g e (cs ++ t) []

section
variable {g : Grammar}

theorem completesUnit_of_name (h : name c = .error (.incomplete need)) :
    CompletesUnit g c.rest := by
  obtain ⟨t, n, hn⟩ := completes_name h
  exact ⟨t, .value n, rfl, .value hn (not_paren_of_blanks (List.forall_mem_nil _))⟩

theorem completesUnit_of_blanks {cs : List Char} (h : ∀ x ∈ cs, isBlank x) :
    CompletesUnit g cs :=
  ⟨['a'], .value ⟨none, "a"⟩, rfl, .value (.bare (spellsLabel_behind h))
    (not_paren_of_blanks (List.forall_mem_nil _))⟩

theorem completesUnit_of_callName (h : callName c = .error (.incomplete need)) :
    CompletesUnit g c.rest := by
  rcases hn : name c with f | ⟨n, d⟩
  · unfold callName at h
    rw [hn] at h
    obtain rfl := Except.error.inj h
    exact completesUnit_of_name hn
  · unfold callName at h
    rw [hn, ok_bind] at h
    dsimp only at h
    split at h
    · rename_i hpeek
      obtain ⟨r, hopen⟩ := (peek_skipBlanks (by decide)).1 hpeek
      obtain ⟨offset, hadvance⟩ := (advance_of_word (by decide) hopen).2
      rw [hadvance, references_skipBlanks] at h
      split at h
      · cases h
      · rcases hps : references ⟨offset, r⟩ with f | x
        · rw [hps] at h
          obtain rfl := Except.error.inj h
          obtain ⟨t, ns, hns⟩ := completes_references hps
          have hname := (yields_name.1 (yields_of_eq hn)).1
          have hopen' := hopen.append t
          have hends := hopen'.ends (by decide) (fun _ => isLabelChar_of_isBlank)
          exact ⟨t, .call n ns, rfl, .call (hname.framed.extend hends) hopen' (.some hns)⟩
        · rw [hps] at h
          cases h
    · cases h

theorem completesUnit_of_bareName (h : bareName c = .error (.incomplete need)) :
    CompletesUnit g c.rest := by
  rcases hn : name c with f | ⟨n, d⟩
  · unfold bareName at h
    rw [hn] at h
    obtain rfl := Except.error.inj h
    exact completesUnit_of_name hn
  · unfold bareName at h
    rw [hn, ok_bind] at h
    dsimp only at h
    split at h
    · cases h
    · cases h

theorem completesUnit_of_literalText (h : literalText c = .error (.incomplete need)) :
    CompletesUnit g c.rest := by
  unfold literalText at h
  rcases hd : expect '\'' .literal .noLiteral c with f | d
  · rw [hd] at h
    obtain rfl := Except.error.inj h
    exact completesUnit_of_blanks (expect_incomplete hd)
  · rw [hd, ok_bind] at h
    have hquote : Word ['\''] c.rest d.rest := (expect_iff (by decide)).1 ⟨d.offset, hd⟩
    split at h
    · rename_i o hclose
      have hfree : '\'' ∉ d.rest := by
        intro hmem
        have := List.dropWhile_eq_nil_iff.1 (congrArg Cursor.rest hclose) _ hmem
        simp at this
      refine ⟨['\''], .literal (String.ofList d.rest), rfl, .literal ?_ ?_⟩
      · rw [String.toList_ofList]
        exact hfree
      · rw [String.toList_ofList, word_cons_iff, List.append_nil]
        exact hquote.append ['\'']
    · cases h

theorem completesUnit_of_alternative {p : Cursor → Reading (Expr × Cursor)}
    (hp : p ∈ unitAlternatives) (h : p c = .error (.incomplete need)) :
    CompletesUnit g c.rest := by
  rcases unitAlternatives_cases hp with rfl | rfl | rfl
  · exact completesUnit_of_callName h
  · exact completesUnit_of_bareName h
  · exact completesUnit_of_literalText h

/-! ## Expressions -/

/-- Behind misfits only, the search is incomplete for the sake of one of the alternatives. -/
theorem alternative_incomplete {ps : List (Cursor → Reading (Expr × Cursor))}
    {best : Option Failure} (hbest : ∀ f ∈ best, ∃ m, f = .misfit m) (hps : best = none → ps ≠ [])
    (h : firstOf g c best ps = .error (.incomplete need)) :
    ∃ p ∈ ps, ∃ need, p c = .error (.incomplete need) := by
  induction ps generalizing best with
  | nil =>
    rcases best with _ | f
    · exact absurd rfl (hps rfl)
    · obtain ⟨m, rfl⟩ := hbest f rfl
      cases h
  | cons p ps ih =>
    unfold firstOf at h
    rcases hp : p c with (m | need') | r
    · rw [hp] at h
      have hbest' : ∀ f ∈ some (Failure.further best (.misfit m)), ∃ m, f = .misfit m := by
        intro f hf
        cases hf
        unfold Failure.further
        split
        · split
          · exact ⟨_, rfl⟩
          · exact ⟨_, rfl⟩
        · exact ⟨_, rfl⟩
      obtain ⟨q, hq, hneed⟩ := ih hbest' (fun hnone => absurd hnone (Option.some_ne_none _)) h
      exact ⟨q, List.mem_cons_of_mem p hq, hneed⟩
    · exact ⟨p, List.mem_cons_self, need', hp⟩
    · rw [hp] at h
      cases h

theorem completesUnit_of_firstOf {best : Option Failure} (hbest : ∀ f ∈ best, ∃ m, f = .misfit m)
    (h : firstOf g c.skipBlanks best unitAlternatives = .error (.incomplete need)) :
    CompletesUnit g c.rest := by
  rw [firstOf_skipBlanks] at h
  obtain ⟨p, hp, need', hneed⟩ := alternative_incomplete hbest (fun _ => List.cons_ne_nil _ _) h
  exact completesUnit_of_alternative hp hneed

theorem completesUnit_of_unit (h : unit g c = .error (.incomplete need)) :
    CompletesUnit g c.rest := by
  unfold unit at h
  dsimp only at h
  split at h
  · rename_i hempty
    exact completesUnit_of_blanks (List.dropWhile_eq_nil_iff.1 (List.isEmpty_iff.1 hempty))
  · exact completesUnit_of_firstOf (by simp) h

/-- The text can be continued to a whole expression. -/
def Completes (g : Grammar) (cs : List Char) : Prop := ∃ t e, Spells g e (cs ++ t) []

theorem CompletesUnit.completes {cs : List Char} (h : CompletesUnit g cs) : Completes g cs := by
  obtain ⟨t, e, -, he⟩ := h
  exact ⟨t, e, he⟩

/-- A chain is completed by what completes it behind an operator. -/
theorem spells_right {cs mid after t : List Char} {l r : Expr} {op : Char}
    (hl : Spells g l cs mid) (hunit : l.isBinary = false) (hop : g.isOperator op)
    (hblank : isBlank op = false) (hword : Word [op] mid after) (hr : Spells g r (after ++ t) []) :
    Spells g (.binary l op r) (cs ++ t) [] := by
  have hmem : op ∈ mid := by
    obtain ⟨w, -, rfl⟩ := hword
    simp
  have hleft := hl.extend (hl.parted.append ⟨op, hmem, hblank⟩ t)
  exact .binary hleft hunit hop hblank (hword.append t) hr

theorem completes_expression (hg : g.endStops) {noted : Option Misfit}
    (h : (expression g noted c).1 = .error (.incomplete need)) : Completes g c.rest := by
  -- on the length of the text, since the right side of an operator is a shorter one
  induction hlen : c.rest.length using Nat.strongRecOn generalizing c noted with
  | ind n ih =>
    rw [expression_eq] at h
    split at h
    · rename_i hempty
      have hblanks := List.dropWhile_eq_nil_iff.1 (List.isEmpty_iff.1 hempty)
      exact (completesUnit_of_blanks hblanks).completes
    rcases hjoined : joined g noted c.skipBlanks with ⟨f | r, noted'⟩
    · rw [hjoined] at h
      dsimp only at h
      split at h
      · obtain rfl := Except.error.inj h
        have hjoining := joining_joined g noted c.skipBlanks
        rw [hjoined] at hjoining
        cases hjoining with
        | noUnit hunit =>
          rw [unit_skipBlanks] at hunit
          exact (completesUnit_of_unit hunit).completes
        | @noRight l after op mid _ noted₁ hunit hrest hop hright =>
          rw [unit_skipBlanks] at hunit
          obtain ⟨hl, hleft⟩ := spells_of_unit (yields_of_eq hunit)
          have hblank := isBlank_of_skipBlanks hrest
          have hlt := length_behind_operator hunit hrest
          obtain ⟨t, r, hr⟩ := ih _ (hlen ▸ hlt) (congrArg Prod.fst hright) rfl
          rw [rest_advance hrest] at hr
          have hword := word_of_skipBlanks hblank hrest
          exact ⟨t, _, spells_right hleft hl hop hblank hword hr⟩
      · rename_i hstops
        obtain ⟨m, rfl⟩ := misfit_of_not_stops hg hstops
        have hbest : ∀ f ∈ some (Failure.misfit m), ∃ m, f = .misfit m := by
          intro f hf
          cases hf
          exact ⟨m, rfl⟩
        exact (completesUnit_of_firstOf hbest h).completes
    · rw [hjoined] at h
      cases h

end

end Interpolation.Expr
