/-
  What is spelled is a text of its own: the spelling does not depend on what follows it, as long
  as that does not run into its last word (`Spells.framed`). Only a value at the end of a chain can
  be run into, by a label character or by an opening parenthesis (`Parted`); what does neither may
  follow a spelling (`Spells.extend`).
-/
import Interpolation.Proofs.Expr.Spelling
import Mathlib.Data.List.TakeWhile

namespace Interpolation.Expr

open Text

/-! ## What follows a spelling -/

/-- The last of the units that operators join. -/
def lastUnit : Expr → Expr
  | binary _ _ r => r.lastUnit
  | e => e

/-- The text does not run into an expression in front of it. -/
def Parted (e : Expr) (rest : List Char) : Prop :=
  e.lastUnit.isValue → Ends isLabelChar rest ∧ ∀ after, ¬ Word ['('] rest after

theorem ends_left {p : Char → Bool} {rest v : List Char} (h : Ends p (rest ++ v)) :
    Ends p rest := by
  cases rest with
  | nil => exact ends_nil p
  | cons c rest => exact ends_cons (h c rfl)

theorem ends_append {p : Char → Bool} {rest v : List Char} (hne : rest ≠ []) (h : Ends p rest) :
    Ends p (rest ++ v) := by
  cases rest with
  | nil => exact absurd rfl hne
  | cons c rest => exact ends_cons (h c rfl)

theorem Word.append {word cs rest : List Char} (h : Word word cs rest) (v : List Char) :
    Word word (cs ++ v) (rest ++ v) := by
  obtain ⟨b, hb, rfl⟩ := h
  exact ⟨b, hb, by simp only [List.append_assoc]⟩

theorem Parted.left {e : Expr} {rest v : List Char} (h : Parted e (rest ++ v)) :
    Parted e rest := by
  intro hvalue
  obtain ⟨hends, hopen⟩ := h hvalue
  exact ⟨ends_left hends, fun after hword => hopen _ (hword.append v)⟩

/-- A text that is not blank parts an expression from everything behind it. -/
theorem Parted.append {e : Expr} {rest : List Char} (h : Parted e rest)
    (hrest : ∃ c ∈ rest, isBlank c = false) (v : List Char) : Parted e (rest ++ v) := by
  obtain ⟨c, hc, hblank⟩ := hrest
  intro hvalue
  obtain ⟨hends, hopen⟩ := h hvalue
  refine ⟨ends_append (List.ne_nil_of_mem hc) hends, ?_⟩
  intro after hword
  have hne : rest.dropWhile isBlank ≠ [] := by
    intro hnil
    rw [List.dropWhile_eq_nil_iff.1 hnil c hc] at hblank
    cases hblank
  obtain ⟨x, xs, hx⟩ := List.exists_cons_of_ne_nil hne
  rw [word_iff (by decide), List.dropWhile_append, hx] at hword
  obtain rfl : x = '(' := (List.cons.inj hword).1
  exact hopen xs ((word_iff (by decide)).2 hx)

theorem ends_of_blanks {rest : List Char} (h : ∀ c ∈ rest, isBlank c) : Ends isLabelChar rest :=
  fun c hc => isLabelChar_of_isBlank (h c (List.mem_of_mem_head? hc))

theorem not_paren_of_blanks {rest : List Char} (h : ∀ c ∈ rest, isBlank c) (after : List Char) :
    ¬ Word ['('] rest after := by
  intro hword
  rw [word_iff (by decide), List.dropWhile_eq_nil_iff.2 h] at hword
  cases hword

theorem parted_of_blanks {e : Expr} {rest : List Char} (h : ∀ c ∈ rest, isBlank c) :
    Parted e rest := fun _ => ⟨ends_of_blanks h, not_paren_of_blanks h⟩

/-- The first character behind some blanks parts an expression from what follows, unless it makes
the last label longer or opens a call. -/
theorem parted_of_found {e : Expr} {w rest : List Char} {c : Char} (hw : ∀ x ∈ w, isBlank x)
    (hc : isBlank c = false) (hlabel : e.lastUnit.isValue → w = [] → isLabelChar c = false)
    (hopen : e.lastUnit.isValue → c ≠ '(') : Parted e (w ++ c :: rest) := by
  intro hvalue
  refine ⟨?_, ?_⟩
  · cases w with
    | nil => exact ends_cons (hlabel hvalue rfl)
    | cons b w => exact ends_cons (isLabelChar_of_isBlank (hw b List.mem_cons_self))
  · intro after hword
    rw [word_iff (by decide), dropWhile_run hw (ends_cons hc)] at hword
    exact hopen hvalue (List.cons.inj hword).1

/-- Behind an operator, what follows may be anything. -/
theorem Parted.behind_operator {e : Expr} {w rest : List Char} {op : Char}
    (hblank : isBlank op = false) (h : Parted e (w ++ op :: rest)) (rest' : List Char) :
    Parted e (w ++ op :: rest') := by
  rw [List.append_cons] at h ⊢
  exact h.left.append ⟨op, by simp, hblank⟩ rest'

/-! ## Spellings in a frame -/

/-- The text begins with one that is spelled in front of whatever is allowed to follow it. -/
def Framed (spells : List Char → List Char → Prop) (allowed : List Char → Prop)
    (cs rest : List Char) : Prop :=
  ∃ t, cs = t ++ rest ∧ ∀ rest', allowed rest' → spells (t ++ rest') rest'

section
variable {spells : List Char → List Char → Prop} {allowed : List Char → Prop}
  {cs rest v : List Char}

theorem Framed.extend (h : Framed spells allowed cs rest) (hv : allowed (rest ++ v)) :
    spells (cs ++ v) (rest ++ v) := by
  obtain ⟨t, rfl, ht⟩ := h
  rw [List.append_assoc]
  exact ht _ hv

end

section
variable {cs rest : List Char}

theorem Word.framed {word : List Char} (h : Word word cs rest) :
    Framed (Word word) (fun _ => True) cs rest := by
  obtain ⟨w, hw, rfl⟩ := h
  refine ⟨w ++ word, by rw [List.append_assoc], ?_⟩
  intro rest' _
  exact ⟨w, hw, by rw [List.append_assoc]⟩

theorem SpellsLabel.framed {s : String} (h : SpellsLabel s cs rest) :
    Framed (SpellsLabel s) (Ends isLabelChar) cs rest := by
  obtain ⟨hs, hword, -⟩ := h
  obtain ⟨t, rfl, ht⟩ := hword.framed
  exact ⟨t, rfl, fun rest' hrest => ⟨hs, ht rest' trivial, hrest⟩⟩

theorem SpellsName.framed {n : Name} (h : SpellsName n cs rest) :
    Framed (SpellsName n) (Ends isLabelChar) cs rest := by
  cases h with
  | bare hkey =>
    obtain ⟨t, rfl, ht⟩ := hkey.framed
    exact ⟨t, rfl, fun rest' hrest => .bare (ht rest' hrest)⟩
  | qualified hspace hcolons hkey =>
    obtain ⟨t, rfl, ht⟩ := hspace.framed
    obtain ⟨u, rfl, hu⟩ := hcolons.framed
    obtain ⟨v, rfl, hv⟩ := hkey.framed
    refine ⟨t ++ (u ++ v), by simp only [List.append_assoc], ?_⟩
    intro rest' hrest
    have hcolons' := hu (v ++ rest') trivial
    have hends := hcolons'.ends (by decide) (fun _ => isLabelChar_of_isBlank)
    rw [List.append_assoc, List.append_assoc]
    exact .qualified (ht _ hends) hcolons' (hv rest' hrest)

theorem SpellsReference.framed {n : Nat} (h : SpellsReference n cs rest) :
    Framed (SpellsReference n) (fun _ => True) cs rest := by
  obtain ⟨ds, hword, hds⟩ := h
  obtain ⟨t, rfl, ht⟩ := hword.framed
  exact ⟨t, rfl, fun rest' hrest => ⟨ds, ht rest' hrest, hds⟩⟩

theorem SpellsReferences.framed {ns : List Nat} (h : SpellsReferences ns cs rest) :
    Framed (SpellsReferences ns) (fun _ => True) cs rest := by
  induction h with
  | last hn hclose =>
    obtain ⟨t, rfl, ht⟩ := hn.framed
    obtain ⟨u, rfl, hu⟩ := hclose.framed
    refine ⟨t ++ u, by rw [List.append_assoc], ?_⟩
    intro rest' hrest
    rw [List.append_assoc]
    exact .last (ht _ hrest) (hu rest' hrest)
  | more hn hcomma _ ih =>
    obtain ⟨t, rfl, ht⟩ := hn.framed
    obtain ⟨u, rfl, hu⟩ := hcomma.framed
    obtain ⟨v, rfl, hv⟩ := ih
    refine ⟨t ++ (u ++ v), by simp only [List.append_assoc], ?_⟩
    intro rest' hrest
    rw [List.append_assoc, List.append_assoc]
    exact .more (ht _ hrest) (hu _ hrest) (hv rest' hrest)

theorem SpellsParams.framed {ns : List Nat} (h : SpellsParams ns cs rest) :
    Framed (SpellsParams ns) (fun _ => True) cs rest := by
  cases h with
  | none hclose =>
    obtain ⟨t, rfl, ht⟩ := hclose.framed
    exact ⟨t, rfl, fun rest' hrest => .none (ht rest' hrest)⟩
  | some hns =>
    obtain ⟨t, rfl, ht⟩ := hns.framed
    exact ⟨t, rfl, fun rest' hrest => .some (ht rest' hrest)⟩

variable {g : Grammar} {e : Expr}

/-- What follows an expression that is spelled does not run into it. -/
theorem Spells.parted (h : Spells g e cs rest) : Parted e rest := by
  induction h with
  | literal _ _ => rintro ⟨⟩
  | value hn hopen =>
    intro _
    refine ⟨?_, hopen⟩
    cases hn with
    | bare hkey => exact hkey.2.2
    | qualified _ _ hkey => exact hkey.2.2
  | call _ _ _ => rintro ⟨⟩
  | binary _ _ _ _ _ _ _ ih => exact ih

theorem Spells.framed (h : Spells g e cs rest) : Framed (Spells g e) (Parted e) cs rest := by
  induction h with
  | literal hquote hword =>
    obtain ⟨t, rfl, ht⟩ := hword.framed
    exact ⟨t, rfl, fun rest' _ => .literal hquote (ht rest' trivial)⟩
  | value hn hopen =>
    obtain ⟨t, rfl, ht⟩ := hn.framed
    refine ⟨t, rfl, ?_⟩
    intro rest' hrest
    obtain ⟨hends, hopen'⟩ := hrest rfl
    exact .value (ht rest' hends) hopen'
  | call hn hopen hps =>
    obtain ⟨t, rfl, ht⟩ := hn.framed
    obtain ⟨u, rfl, hu⟩ := hopen.framed
    obtain ⟨v, rfl, hv⟩ := hps.framed
    refine ⟨t ++ (u ++ v), by simp only [List.append_assoc], ?_⟩
    intro rest' _
    have hopen' := hu (v ++ rest') trivial
    have hends := hopen'.ends (by decide) (fun _ => isLabelChar_of_isBlank)
    rw [List.append_assoc, List.append_assoc]
    exact .call (ht _ hends) hopen' (hv rest' trivial)
  | @binary l r op cs mid after rest hl hunit hop hblank hword _ ihl ihr =>
    have hparted := hl.parted
    obtain ⟨t, rfl, ht⟩ := ihl
    obtain ⟨w, hw, rfl⟩ := hword
    obtain ⟨v, rfl, hv⟩ := ihr
    have hcs : t ++ (w ++ ([op] ++ (v ++ rest))) = (t ++ (w ++ op :: v)) ++ rest := by
      simp only [List.append_assoc, List.cons_append, List.nil_append]
    refine ⟨t ++ (w ++ op :: v), hcs, ?_⟩
    intro rest' hrest
    have hparted' := hparted.behind_operator hblank (v ++ rest')
    simp only [List.append_assoc, List.cons_append]
    exact .binary (ht _ hparted') hunit hop hblank ⟨w, hw, rfl⟩ (hv rest' hrest)

/-- A spelling may be continued by what does not run into it. -/
theorem Spells.extend {v : List Char} (h : Spells g e cs rest) (hv : Parted e (rest ++ v)) :
    Spells g e (cs ++ v) (rest ++ v) :=
  h.framed.extend hv

end

end Interpolation.Expr
