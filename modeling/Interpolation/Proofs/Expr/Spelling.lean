/-
  How expressions are spelled: a relation between an expression, a text that begins with it, and
  the rest of that text. Any blanks may stand before a word. A label goes on as far as it can,
  and no parenthesis follows a value. What is spelled is well-formed (`Spells.wellFormed`).
-/
import Interpolation.Expr.WellFormed
import Interpolation.Proofs.Text.Numeral
import Interpolation.Proofs.Text.Runs

namespace Interpolation.Expr

open Text

/-! ## Words -/

/-- The text begins with a word behind blanks, and goes on with `rest`. -/
def Word (word cs rest : List Char) : Prop :=
  ∃ w, (∀ c ∈ w, isBlank c) ∧ cs = w ++ (word ++ rest)

theorem isLabelChar_of_isBlank {c : Char} (h : isBlank c) : isLabelChar c = false := by
  have hblanks : blanks.all (fun c => !isLabelChar c) := by decide +kernel
  simpa using List.all_eq_true.1 hblanks c (List.contains_iff_mem.1 h)

theorem not_isBlank_of_isLabelChar {c : Char} (h : isLabelChar c) : isBlank c = false := by
  cases hc : isBlank c with
  | false => rfl
  | true => rw [isLabelChar_of_isBlank hc] at h; cases h

/-- Where a word stands, the blanks before it are all that is skipped. -/
theorem word_iff {x : Char} {xs cs rest : List Char} (hx : isBlank x = false) :
    Word (x :: xs) cs rest ↔ cs.dropWhile isBlank = x :: (xs ++ rest) := by
  constructor
  · intro h
    obtain ⟨w, hw, rfl⟩ := h
    exact dropWhile_run hw (ends_cons hx)
  · intro h
    obtain ⟨w, r, rfl, hw, hr⟩ := exists_run isBlank cs
    rw [dropWhile_run hw hr] at h
    exact ⟨w, hw, by rw [h]; rfl⟩

theorem word_self (word rest : List Char) : Word word (word ++ rest) rest :=
  ⟨[], by simp, rfl⟩

/-- A word right behind one blank. -/
theorem word_space (word rest : List Char) : Word word (' ' :: (word ++ rest)) rest :=
  ⟨[' '], List.forall_mem_singleton.2 (by decide), rfl⟩

/-- A text that goes on with a word ends every run that neither blanks nor the word go on with. -/
theorem Word.ends {x : Char} {xs cs rest : List Char} {p : Char → Bool} (h : Word (x :: xs) cs rest)
    (hx : p x = false) (hp : ∀ c, isBlank c → p c = false) : Ends p cs := by
  obtain ⟨w, hw, rfl⟩ := h
  cases w with
  | nil => exact ends_cons hx
  | cons b w => exact ends_cons (hp b (hw b List.mem_cons_self))

/-! ## The relation -/

/-- A label; no label character follows it. -/
def SpellsLabel (s : String) (cs rest : List Char) : Prop :=
  IsLabel s ∧ Word s.toList cs rest ∧ Ends isLabelChar rest

inductive SpellsName : Name → List Char → List Char → Prop where
  | bare {key : String} {cs rest : List Char} (hkey : SpellsLabel key cs rest) :
      SpellsName ⟨none, key⟩ cs rest
  | qualified {space key : String} {cs mid after rest : List Char}
      (hspace : SpellsLabel space cs mid) (hcolons : Word [':', ':'] mid after)
      (hkey : SpellsLabel key after rest) : SpellsName ⟨some space, key⟩ cs rest

/-- A dollar sign and right behind it the digits of an index, with any zeros in front. -/
def SpellsReference (n : Nat) (cs rest : List Char) : Prop :=
  ∃ ds, Word ('$' :: ds) cs rest ∧ ds ≠ [] ∧ (∀ d ∈ ds, isAsciiDigit d) ∧
    digitsValue ds = n ∧ n ≤ maxUnsigned

/-- At least one reference, with commas in between, up to the closing parenthesis. -/
inductive SpellsReferences : List Nat → List Char → List Char → Prop where
  | last {n : Nat} {cs mid rest : List Char} (hn : SpellsReference n cs mid)
      (hclose : Word [')'] mid rest) : SpellsReferences [n] cs rest
  | more {n : Nat} {ns : List Nat} {cs mid after rest : List Char} (hn : SpellsReference n cs mid)
      (hcomma : Word [','] mid after) (hns : SpellsReferences ns after rest) :
      SpellsReferences (n :: ns) cs rest

/-- What stands behind the opening parenthesis of a call. -/
inductive SpellsParams : List Nat → List Char → List Char → Prop where
  | none {cs rest : List Char} (hclose : Word [')'] cs rest) : SpellsParams [] cs rest
  | some {ns : List Nat} {cs rest : List Char} (hns : SpellsReferences ns cs rest) :
      SpellsParams ns cs rest

/-- The text begins with the expression and goes on with `rest`. -/
inductive Spells (g : Grammar) : Expr → List Char → List Char → Prop where
  | literal {t : String} {cs rest : List Char} (ht : '\'' ∉ t.toList)
      (hword : Word ('\'' :: (t.toList ++ ['\''])) cs rest) : Spells g (.literal t) cs rest
  | value {n : Name} {cs rest : List Char} (hn : SpellsName n cs rest)
      (hopen : ∀ after, ¬ Word ['('] rest after) : Spells g (.value n) cs rest
  | call {n : Name} {ps : List Nat} {cs mid after rest : List Char} (hn : SpellsName n cs mid)
      (hopen : Word ['('] mid after) (hps : SpellsParams ps after rest) :
      Spells g (.call n ps) cs rest
  | binary {l r : Expr} {op : Char} {cs mid after rest : List Char} (hl : Spells g l cs mid)
      (hunit : l.isBinary = false) (hop : g.isOperator op) (hblank : isBlank op = false)
      (hword : Word [op] mid after) (hr : Spells g r after rest) :
      Spells g (.binary l op r) cs rest

/-- The whole source is one expression, with any blanks around it. -/
def SpelledBy (g : Grammar) (src : String) (e : Expr) : Prop :=
  ∃ rest, Spells g e src.toList rest ∧ ∀ c ∈ rest, isBlank c

/-- No left side of an operator is itself joined by one, so a chain nests to the right. -/
def NestsRight : Expr → Prop
  | binary l _ r => l.isBinary = false ∧ r.NestsRight
  | _ => True

/-! ## A blank in front -/

theorem Word.blank {word cs rest : List Char} {b : Char} (hb : isBlank b)
    (h : Word word cs rest) : Word word (b :: cs) rest := by
  obtain ⟨w, hw, rfl⟩ := h
  refine ⟨b :: w, ?_, rfl⟩
  intro c hc
  rcases List.mem_cons.1 hc with rfl | hc
  · exact hb
  · exact hw c hc

theorem SpellsLabel.blank {s : String} {cs rest : List Char} {b : Char} (hb : isBlank b)
    (h : SpellsLabel s cs rest) : SpellsLabel s (b :: cs) rest :=
  ⟨h.1, h.2.1.blank hb, h.2.2⟩

theorem SpellsName.blank {n : Name} {cs rest : List Char} {b : Char} (hb : isBlank b)
    (h : SpellsName n cs rest) : SpellsName n (b :: cs) rest := by
  rcases h with hkey | ⟨hspace, hcolons, hkey⟩
  · exact .bare (hkey.blank hb)
  · exact .qualified (hspace.blank hb) hcolons hkey

theorem SpellsReference.blank {n : Nat} {cs rest : List Char} {b : Char} (hb : isBlank b)
    (h : SpellsReference n cs rest) : SpellsReference n (b :: cs) rest := by
  obtain ⟨ds, hword, hds⟩ := h
  exact ⟨ds, hword.blank hb, hds⟩

theorem SpellsReferences.blank {ns : List Nat} {cs rest : List Char} {b : Char} (hb : isBlank b)
    (h : SpellsReferences ns cs rest) : SpellsReferences ns (b :: cs) rest := by
  rcases h with ⟨hn, hclose⟩ | ⟨hn, hcomma, hns⟩
  · exact .last (hn.blank hb) hclose
  · exact .more (hn.blank hb) hcomma hns

theorem Spells.blank {g : Grammar} {e : Expr} {cs rest : List Char} {b : Char} (hb : isBlank b)
    (h : Spells g e cs rest) : Spells g e (b :: cs) rest := by
  induction h with
  | literal ht hword => exact .literal ht (hword.blank hb)
  | value hn hopen => exact .value (hn.blank hb) hopen
  | call hn hopen hps => exact .call (hn.blank hb) hopen hps
  | binary _ hunit hop hblank hword hr ih _ => exact .binary ih hunit hop hblank hword hr

/-! ## What is spelled is well-formed -/

theorem SpellsName.wellFormed {n : Name} {cs rest : List Char} (h : SpellsName n cs rest) :
    n.WellFormed := by
  cases h with
  | bare hkey => exact ⟨by rintro s ⟨⟩, hkey.1⟩
  | qualified hspace _ hkey =>
    refine ⟨?_, hkey.1⟩
    rintro s ⟨⟩
    exact hspace.1

theorem SpellsReference.le {n : Nat} {cs rest : List Char} (h : SpellsReference n cs rest) :
    n ≤ maxUnsigned := by
  obtain ⟨_, _, _, _, _, hn⟩ := h
  exact hn

theorem SpellsReferences.le {ns : List Nat} {cs rest : List Char}
    (h : SpellsReferences ns cs rest) : ∀ n ∈ ns, n ≤ maxUnsigned := by
  induction h with
  | last hn _ =>
    intro m hm
    rw [List.mem_singleton.1 hm]
    exact hn.le
  | more hn _ _ ih =>
    intro m hm
    rcases List.mem_cons.1 hm with rfl | hm
    · exact hn.le
    · exact ih m hm

theorem SpellsParams.le {ns : List Nat} {cs rest : List Char} (h : SpellsParams ns cs rest) :
    ∀ n ∈ ns, n ≤ maxUnsigned := by
  cases h with
  | none _ => intro m hm; cases hm
  | some hns => exact hns.le

theorem Spells.wellFormed {g : Grammar} {e : Expr} {cs rest : List Char} (h : Spells g e cs rest) :
    e.WellFormed g := by
  induction h with
  | literal ht _ => exact ht
  | value hn _ => exact hn.wellFormed
  | call hn _ hps => exact ⟨hn.wellFormed, hps.le⟩
  | binary hl hunit hop hblank hword hr ihl ihr =>
    refine ⟨⟨hunit, hop, hblank, ?_⟩, ihl, ihr⟩
    rintro hvalue rfl
    cases hl with
    | value _ hopen => exact hopen _ hword
    | literal => cases hvalue
    | call => cases hvalue
    | binary => cases hunit

theorem WellFormed.nestsRight {g : Grammar} {e : Expr} (h : e.WellFormed g) : e.NestsRight := by
  induction e with
  | literal t => trivial
  | value n => trivial
  | call n ps => trivial
  | binary l op r _ ih => exact ⟨h.1.1, ih h.2.2⟩

/-! ## How an expression begins -/

theorem SpellsLabel.dropWhile {s : String} {cs rest : List Char} (h : SpellsLabel s cs rest) :
    cs.dropWhile isBlank = s.toList ++ rest := by
  obtain ⟨⟨hne, hs⟩, hword, -⟩ := h
  obtain ⟨x, xs, hx⟩ := List.exists_cons_of_ne_nil hne
  rw [hx] at hword hs ⊢
  exact (word_iff (not_isBlank_of_isLabelChar (hs x List.mem_cons_self))).1 hword

theorem SpellsLabel.head {s : String} {cs rest : List Char} (h : SpellsLabel s cs rest) :
    ∃ x xs, isLabelChar x ∧ cs.dropWhile isBlank = x :: xs := by
  obtain ⟨x, xs, hx⟩ := List.exists_cons_of_ne_nil h.1.1
  have hlabel := h.1.2 x (by rw [hx]; exact List.mem_cons_self)
  exact ⟨x, xs ++ rest, hlabel, by rw [h.dropWhile, hx]; rfl⟩

theorem SpellsName.head {n : Name} {cs rest : List Char} (h : SpellsName n cs rest) :
    ∃ x xs, isLabelChar x ∧ cs.dropWhile isBlank = x :: xs := by
  cases h with
  | bare hkey => exact hkey.head
  | qualified hspace _ _ => exact hspace.head

/-- An expression begins with a label or a quote. -/
theorem Spells.head {g : Grammar} {e : Expr} {cs rest : List Char} (h : Spells g e cs rest) :
    ∃ x xs, (isLabelChar x ∨ x = '\'') ∧ cs.dropWhile isBlank = x :: xs := by
  have name {n : Name} {cs rest : List Char} (hn : SpellsName n cs rest) :
      ∃ x xs, (isLabelChar x ∨ x = '\'') ∧ cs.dropWhile isBlank = x :: xs := by
    obtain ⟨x, xs, hx, hcs⟩ := hn.head
    exact ⟨x, xs, .inl hx, hcs⟩
  induction h with
  | literal _ hword => exact ⟨_, _, .inr rfl, (word_iff (by decide)).1 hword⟩
  | value hn _ => exact name hn
  | call hn _ _ => exact name hn
  | binary _ _ _ _ _ _ ih _ => exact ih

/-- What follows a colon as an operator is no second colon, so the two are no mark of a name. -/
theorem Spells.not_colons {g : Grammar} {e : Expr} {op : Char} {cs mid rest after : List Char}
    (hword : Word [op] cs mid) (hblank : isBlank op = false) (h : Spells g e mid rest) :
    ¬ Word [':', ':'] cs after := by
  intro hcolons
  rw [word_iff (by decide)] at hcolons
  rw [word_iff hblank, hcolons] at hword
  obtain ⟨x, xs, hx, hmid⟩ := h.head
  simp only [List.nil_append, List.cons_append, List.cons.injEq] at hword
  rw [← hword.2, List.dropWhile_cons_of_neg (by decide)] at hmid
  cases hmid
  rcases hx with hx | hx
  · exact absurd hx (by decide)
  · exact absurd hx (by decide)

end Interpolation.Expr
