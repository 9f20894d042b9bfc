/-
  What an expression is shown as spells it, provided it is well-formed (`spells_display`). Only
  the operator may run into its left side: a value with a parenthesis behind it is a call.
-/
import Interpolation.Proofs.Expr.Source

namespace Interpolation.Expr

open Text

/-! ## Names and parameters -/

theorem spells_name_display {n : Name} {rest : List Char} (hn : n.WellFormed)
    (hrest : Ends isLabelChar rest) : SpellsName n (n.display ++ rest) rest := by
  rcases n with ⟨_ | s, key⟩
  · exact .bare ⟨hn.2, word_self key.toList rest, hrest⟩
  · have hspace : IsLabel s := hn.1 s rfl
    unfold Name.display
    simp only [List.append_assoc, List.cons_append]
    exact .qualified ⟨hspace, word_self _ _, ends_cons (by decide)⟩
      (word_self [':', ':'] (key.toList ++ rest)) ⟨hn.2, word_self _ _, hrest⟩

theorem spells_reference_digits {n : Nat} (rest : List Char) (hn : n ≤ maxUnsigned) :
    SpellsReference n ('$' :: (Nat.toDigits 10 n ++ rest)) rest :=
  ⟨Nat.toDigits 10 n, word_self _ rest, Nat.toDigits_ne_nil,
    fun _ => isAsciiDigit_of_mem_toDigits, digitsValue_toDigits n, hn⟩

theorem spells_paramsText {n : Nat} {ns : List Nat} (rest : List Char)
    (hns : ∀ m ∈ n :: ns, m ≤ maxUnsigned) :
    SpellsReferences (n :: ns) (paramsText (n :: ns) ++ ')' :: rest) rest := by
  induction ns generalizing n with
  | nil =>
    exact .last (spells_reference_digits _ (hns n List.mem_cons_self)) (word_self [')'] rest)
  | cons m ns ih =>
    have htail := ih (fun k hk => hns k (List.mem_cons_of_mem n hk))
    unfold paramsText
    simp only [List.append_assoc, List.cons_append]
    exact .more (spells_reference_digits _ (hns n List.mem_cons_self)) (word_self [','] _)
      (htail.blank (by decide))

theorem spells_params {ns : List Nat} (rest : List Char) (hns : ∀ m ∈ ns, m ≤ maxUnsigned) :
    SpellsParams ns (paramsText ns ++ ')' :: rest) rest := by
  rcases ns with _ | ⟨n, ns⟩
  · exact .none (word_self [')'] rest)
  · exact .some (spells_paramsText rest hns)

/-! ## Expressions -/

/-- An expression without an operator, in front of a text that it does not run into. -/
theorem spells_unit_display {g : Grammar} {e : Expr} {rest : List Char} (he : e.WellFormed g)
    (hunit : e.isBinary = false) (hrest : Ends isLabelChar rest)
    (hopen : e.isValue → ∀ after, ¬ Word ['('] rest after) :
    Spells g e (e.displayChars ++ rest) rest := by
  rcases e with t | n | ⟨n, ps⟩ | ⟨l, op, r⟩
  · exact .literal he (word_self _ rest)
  · exact .value (spells_name_display he hrest) (hopen rfl)
  · unfold displayChars
    simp only [List.append_assoc, List.cons_append]
    exact .call (spells_name_display he.1 (ends_cons (by decide))) (word_self ['('] _)
      (spells_params _ he.2)
  · cases hunit

theorem spells_unit_display_end {g : Grammar} {e : Expr} (he : e.WellFormed g)
    (hunit : e.isBinary = false) : Spells g e e.displayChars [] := by
  have hopen : ∀ after, ¬ Word ['('] [] after := by
    intro after h
    rw [word_iff (by decide)] at h
    cases h
  have h := spells_unit_display he hunit (ends_nil isLabelChar) (fun _ => hopen)
  rw [List.append_nil] at h
  exact h

theorem spells_display {g : Grammar} {e : Expr} (he : e.WellFormed g) :
    Spells g e e.displayChars [] := by
  induction e with
  | literal t => exact spells_unit_display_end he rfl
  | value n => exact spells_unit_display_end he rfl
  | call n ps => exact spells_unit_display_end he rfl
  | binary l op r _ ih =>
    obtain ⟨⟨hunit, hop, hblank, hparen⟩, hl, hr⟩ := he
    have hword : Word [op] (' ' :: op :: ' ' :: r.displayChars) (' ' :: r.displayChars) :=
      word_space [op] _
    have hopen : l.isValue → ∀ after, ¬ Word ['('] (' ' :: op :: ' ' :: r.displayChars) after := by
      intro hvalue after h
      rw [word_iff hblank] at hword
      rw [word_iff (by decide), hword] at h
      exact hparen hvalue (List.cons.inj h).1
    have hleft := spells_unit_display hl hunit (ends_cons (by decide)) hopen
    exact .binary hleft hunit hop hblank hword ((ih hr).blank (by decide))

theorem spelledBy_display {g : Grammar} {e : Expr} (he : e.WellFormed g) :
    SpelledBy g e.display e := by
  refine ⟨[], ?_, by simp⟩
  unfold display
  rw [String.toList_ofList]
  exact spells_display he

/-- Showing an expression and reading it again gives the expression exactly if it is well-formed.
Every expression that is read is, so whatever source it had, its own text reads the same. -/
theorem ofSource_display (g : Grammar) :
    (∀ e : Expr, ofSource g e.display = .ok e ↔ e.WellFormed g) ∧
      ∀ src e, ofSource g src = .ok e → e.WellFormed g ∧ ofSource g e.display = .ok e := by
  have hwell : ∀ src e, ofSource g src = .ok e → e.WellFormed g :=
    fun _ _ h => (spelledBy_of_ofSource h).wellFormed
  have hdisplay : ∀ e : Expr, e.WellFormed g → ofSource g e.display = .ok e :=
    fun _ he => ofSource_of_spelledBy (spelledBy_display he)
  refine ⟨?_, ?_⟩
  · intro e
    exact ⟨hwell e.display e, hdisplay e⟩
  · intro src e h
    exact ⟨hwell src e h, hdisplay e (hwell src e h)⟩

end Interpolation.Expr
