/-
  What reading yields, word by word: a label, a name or a list of references is read exactly if
  the text begins with a spelling of it. Offsets only serve the reports of failures, so a result
  is described by what was read and what is left.
-/
import Interpolation.Proofs.Expr.Spelling

namespace Interpolation.Expr

open Text

variable {α β : Type}

/-- The reading succeeds with the given value and leaves `rest`. -/
def Yields (r : Reading (α × Cursor)) (x : α) (rest : List Char) : Prop :=
  ∃ offset, r = .ok (x, ⟨offset, rest⟩)

theorem yields_of_eq {r : Reading (α × Cursor)} {x : α} {c : Cursor} (h : r = .ok (x, c)) :
    Yields r x c.rest :=
  ⟨c.offset, h⟩

theorem yields_ok {x y : α} {c : Cursor} {rest : List Char} :
    Yields (.ok (y, c)) x rest ↔ y = x ∧ c.rest = rest := by
  constructor
  · intro h
    obtain ⟨o, h⟩ := h
    cases h
    exact ⟨rfl, rfl⟩
  · intro h
    obtain ⟨rfl, rfl⟩ := h
    exact ⟨c.offset, rfl⟩

theorem not_yields_error {f : Failure} {x : α} {rest : List Char} :
    ¬ Yields (.error f) x rest := by
  intro h
  obtain ⟨_, h⟩ := h
  cases h

theorem ok_bind (x : α) (f : α → Reading β) : (Except.ok x >>= f) = f x := rfl

theorem yields_bind {r : Reading α} {f : α → Reading (β × Cursor)} {y : β} {rest : List Char} :
    Yields (r >>= f) y rest ↔ ∃ x, r = .ok x ∧ Yields (f x) y rest := by
  constructor
  · intro h
    rcases r with e | x
    · exact absurd h not_yields_error
    · exact ⟨x, rfl, h⟩
  · intro h
    obtain ⟨x, rfl, hf⟩ := h
    exact hf

theorem skipBlanks_skipBlanks (c : Cursor) : c.skipBlanks.skipBlanks = c.skipBlanks := by
  have hrest := ends_dropWhile isBlank c.rest
  have htake : c.skipBlanks.rest.takeWhile isBlank = [] := takeWhile_run (t := []) (by simp) hrest
  have hdrop : c.skipBlanks.rest.dropWhile isBlank = c.skipBlanks.rest :=
    dropWhile_run (t := []) (by simp) hrest
  show Cursor.mk (c.skipBlanks.offset + utf8Size (c.skipBlanks.rest.takeWhile isBlank))
    (c.skipBlanks.rest.dropWhile isBlank) = c.skipBlanks
  rw [htake, hdrop]
  rfl

/-! ## Labels and names -/

theorem label_skipBlanks (c : Cursor) : label c.skipBlanks = label c := by
  unfold label
  rw [skipBlanks_skipBlanks]

theorem yields_label {c : Cursor} {t rest : List Char} :
    Yields (label c) t rest ↔ SpellsLabel (String.ofList t) c.rest rest := by
  obtain ⟨w, r, hc, hw, hr⟩ := exists_run isBlank c.rest
  obtain ⟨u, r', rfl, hu, hr'⟩ := exists_run isLabelChar r
  have hskip : c.skipBlanks.rest = u ++ r' := by
    show c.rest.dropWhile isBlank = u ++ r'
    rw [hc, dropWhile_run hw hr]
  have htake : c.skipBlanks.rest.takeWhile isLabelChar = u := by
    rw [hskip, takeWhile_run hu hr']
  have hdrop : (c.skipBlanks.skipWhile isLabelChar).rest = r' := by
    show c.skipBlanks.rest.dropWhile isLabelChar = r'
    rw [hskip, dropWhile_run hu hr']
  unfold label
  dsimp only
  rw [htake]
  constructor
  · intro h
    rcases u with _ | ⟨x, u⟩
    · exact absurd h not_yields_error
    · obtain ⟨rfl, rfl⟩ := yields_ok.1 h
      rw [hdrop]
      refine ⟨⟨?_, ?_⟩, ⟨w, hw, ?_⟩, hr'⟩
      · rw [String.toList_ofList]
        exact List.cons_ne_nil x u
      · rw [String.toList_ofList]
        exact hu
      · rw [String.toList_ofList]
        exact hc
  · intro h
    have hsame : u ++ r' = t ++ rest := by
      rw [← String.toList_ofList (l := t), ← h.dropWhile, ← hskip]
      rfl
    obtain ⟨⟨hne, ht⟩, -, hrest⟩ := h
    rw [String.toList_ofList] at hne ht
    obtain ⟨rfl, rfl⟩ := run_unique hsame hu hr' ht hrest
    rcases u with _ | ⟨x, u⟩
    · exact absurd rfl hne
    · exact yields_ok.2 ⟨rfl, hdrop⟩

theorem label_of_spells {c : Cursor} {s : String} {rest : List Char}
    (h : SpellsLabel s c.rest rest) : ∃ offset, label c = .ok (s.toList, ⟨offset, rest⟩) := by
  rw [← String.ofList_toList (s := s)] at h
  exact yields_label.2 h

/-- Where something else than a label character stands, there is no label. -/
theorem label_misfit {c : Cursor} {x : Char} {xs : List Char}
    (hc : c.rest.dropWhile isBlank = x :: xs) (hx : isLabelChar x = false) :
    ∃ m, label c = .error (.misfit m) := by
  have htake : c.skipBlanks.rest.takeWhile isLabelChar = [] := by
    show (c.rest.dropWhile isBlank).takeWhile isLabelChar = []
    rw [hc]
    exact List.takeWhile_cons_of_neg (by rw [hx]; exact Bool.false_ne_true)
  unfold label
  dsimp only
  rw [htake]
  exact ⟨_, rfl⟩

theorem skipBlanks_of_word {c : Cursor} {x : Char} {xs rest : List Char} (hx : isBlank x = false)
    (h : Word (x :: xs) c.rest rest) : ∃ offset, c.skipBlanks = ⟨offset, x :: (xs ++ rest)⟩ := by
  refine ⟨c.skipBlanks.offset, ?_⟩
  rw [← (word_iff hx).1 h]
  rfl

/-- Without the mark of a namespace behind it, a label is the whole name. -/
theorem name_of_label {c after : Cursor} {t : List Char} (ht : label c = .ok (t, after))
    (hcolons : ∀ r, ¬ Word [':', ':'] after.rest r) :
    name c = .ok (⟨none, String.ofList t⟩, after) := by
  unfold name
  rw [ht, ok_bind]
  dsimp only
  split
  · rename_i offset r heq
    have hrest : after.rest.dropWhile isBlank = ':' :: ([':'] ++ r) := congrArg Cursor.rest heq
    exact absurd ((word_iff (by decide)).2 hrest) (hcolons r)
  · rfl

/-- With that mark behind it, a label is the namespace, and a key has to follow. -/
theorem yields_name_of_colons {c after : Cursor} {t r rest : List Char} {n : Name}
    (ht : label c = .ok (t, after)) (hcolons : Word [':', ':'] after.rest r) :
    Yields (name c) n rest ↔
      ∃ key, n = ⟨some (String.ofList t), key⟩ ∧ SpellsLabel key r rest := by
  obtain ⟨offset, hskip⟩ := skipBlanks_of_word (by decide) hcolons
  unfold name
  rw [ht, ok_bind]
  dsimp only
  rw [hskip]
  show Yields (if (r.dropWhile isBlank).isEmpty then _ else _) n rest ↔ _
  split
  · rename_i hempty
    constructor
    · intro h
      exact absurd h not_yields_error
    · intro h
      obtain ⟨key, -, hkey⟩ := h
      obtain ⟨x, xs, -, hr⟩ := hkey.head
      rw [hr] at hempty
      cases hempty
  · rw [yields_bind]
    constructor
    · intro h
      obtain ⟨⟨key, d⟩, hlabel, h⟩ := h
      obtain ⟨rfl, rfl⟩ := yields_ok.1 h
      rw [label_skipBlanks] at hlabel
      exact ⟨String.ofList key, rfl, yields_label.1 (yields_of_eq hlabel)⟩
    · intro h
      obtain ⟨key, rfl, hkey⟩ := h
      obtain ⟨o, hlabel⟩ := label_of_spells (c := ⟨offset + 2, r⟩) hkey
      refine ⟨(key.toList, ⟨o, rest⟩), ?_, ?_⟩
      · rw [label_skipBlanks]
        exact hlabel
      · exact yields_ok.2 ⟨by rw [String.ofList_toList], rfl⟩

/-- The label of a name without a namespace is not the namespace of a longer one. -/
def Alone (n : Name) (rest : List Char) : Prop :=
  n.space = none → ∀ after, ¬ Word [':', ':'] rest after

theorem yields_name {c : Cursor} {n : Name} {rest : List Char} :
    Yields (name c) n rest ↔ SpellsName n c.rest rest ∧ Alone n rest := by
  constructor
  · intro h
    obtain ⟨⟨t, after⟩, ht, -⟩ := yields_bind.1 h
    have hfirst := yields_label.1 (yields_of_eq ht)
    by_cases hcolons : ∃ r, Word [':', ':'] after.rest r
    · obtain ⟨r, hcolons⟩ := hcolons
      obtain ⟨key, rfl, hkey⟩ := (yields_name_of_colons ht hcolons).1 h
      refine ⟨.qualified hfirst hcolons hkey, ?_⟩
      intro hspace
      cases hspace
    · have hcolons : ∀ r, ¬ Word [':', ':'] after.rest r := not_exists.1 hcolons
      rw [name_of_label ht hcolons] at h
      obtain ⟨rfl, rfl⟩ := yields_ok.1 h
      exact ⟨.bare hfirst, fun _ => hcolons⟩
  · intro h
    obtain ⟨hn, halone⟩ := h
    rcases hn with hkey | ⟨hspace, hcolons, hkey⟩
    · obtain ⟨offset, ht⟩ := label_of_spells hkey
      rw [name_of_label ht (halone rfl), String.ofList_toList]
      exact yields_ok.2 ⟨rfl, rfl⟩
    · obtain ⟨offset, ht⟩ := label_of_spells hspace
      rw [yields_name_of_colons ht hcolons, String.ofList_toList]
      exact ⟨_, rfl, hkey⟩

/-- A word that begins with another character than a colon is no mark of a namespace. -/
theorem alone_of_word {x : Char} {xs cs rest : List Char} {n : Name} (hx : isBlank x = false)
    (hcolon : x ≠ ':') (h : Word (x :: xs) cs rest) : Alone n cs := by
  intro _ after hcolons
  rw [word_iff hx] at h
  rw [word_iff (by decide), h] at hcolons
  exact hcolon (List.cons.inj hcolons).1

/-! ## Words of one character -/

theorem advance_of_word {c : Cursor} {x : Char} {rest : List Char} (hx : isBlank x = false)
    (h : Word [x] c.rest rest) :
    c.skipBlanks.rest = x :: rest ∧ ∃ offset, c.skipBlanks.advance = ⟨offset, rest⟩ := by
  obtain ⟨offset, hskip⟩ := skipBlanks_of_word hx h
  rw [hskip]
  exact ⟨rfl, offset + x.utf8Size, rfl⟩

theorem word_of_skipBlanks {c : Cursor} {x : Char} {xs : List Char} (hx : isBlank x = false)
    (h : c.skipBlanks.rest = x :: xs) : Word [x] c.rest xs := (word_iff hx).2 h

theorem peek_skipBlanks {c : Cursor} {x : Char} (hx : isBlank x = false) :
    c.skipBlanks.peek? = some x ↔ ∃ rest, Word [x] c.rest rest := by
  constructor
  · intro h
    obtain ⟨xs, hxs⟩ := List.head?_eq_some_iff.1 h
    exact ⟨xs, word_of_skipBlanks hx hxs⟩
  · intro h
    obtain ⟨rest, h⟩ := h
    unfold Cursor.peek?
    rw [(advance_of_word hx h).1]
    rfl

theorem rest_advance {c : Cursor} {x : Char} {xs : List Char} (h : c.rest = x :: xs) :
    c.advance.rest = xs := by
  unfold Cursor.advance
  rw [h]

theorem expect_iff {want : Char} {need : Need} {otherwise : Char → Cause} {c : Cursor}
    {rest : List Char} (hwant : isBlank want = false) :
    (∃ offset, expect want need otherwise c = .ok ⟨offset, rest⟩) ↔ Word [want] c.rest rest := by
  constructor
  · intro h
    obtain ⟨offset, h⟩ := h
    unfold expect at h
    rcases hskip : c.skipBlanks.rest with _ | ⟨x, xs⟩
    · simp only [Cursor.peek?, hskip, List.head?_nil] at h
      cases h
    · simp only [Cursor.peek?, hskip, List.head?_cons] at h
      split at h
      · rename_i hx
        have hrest : xs = rest := by
          rw [← rest_advance hskip]
          exact congrArg Cursor.rest (Except.ok.inj h)
        rw [hx, hrest] at hskip
        exact word_of_skipBlanks hwant hskip
      · cases h
  · intro h
    obtain ⟨hskip, offset, hadvance⟩ := advance_of_word hwant h
    refine ⟨offset, ?_⟩
    unfold expect
    simp only [Cursor.peek?, hskip, List.head?_cons, if_pos, hadvance]

/-! ## References -/

theorem yields_reference_of_dollar {c d : Cursor} {ds r rest : List Char} {n : Nat}
    (hd : expect '$' .reference .noReference c = .ok d) (hrest : d.rest = ds ++ r)
    (hds : ∀ x ∈ ds, isAsciiDigit x) (hr : Ends isAsciiDigit r) :
    Yields (reference c) n rest ↔ ds ≠ [] ∧ digitsValue ds = n ∧ n ≤ maxUnsigned ∧ r = rest := by
  have htake : d.rest.takeWhile isAsciiDigit = ds := by rw [hrest, takeWhile_run hds hr]
  have hdrop : (d.skipWhile isAsciiDigit).rest = r := by
    show d.rest.dropWhile isAsciiDigit = r
    rw [hrest, dropWhile_run hds hr]
  unfold reference
  rw [hd, ok_bind]
  dsimp only
  rw [htake]
  by_cases hne : ds = []
  · subst hne
    constructor
    · intro h
      dsimp only at h
      split at h
      · exact absurd h not_yields_error
      · exact absurd h not_yields_error
    · intro h
      obtain ⟨hne, -⟩ := h
      exact absurd rfl hne
  · have hword := readWord_digits hne hds
    split
    · exact absurd rfl hne
    · rw [hword]
      by_cases hle : digitsValue ds ≤ maxUnsigned
      · rw [if_pos hle]
        constructor
        · intro h
          obtain ⟨rfl, hr'⟩ := yields_ok.1 h
          exact ⟨hne, rfl, hle, hdrop.symm.trans hr'⟩
        · intro h
          obtain ⟨-, hn, -, hr'⟩ := h
          exact yields_ok.2 ⟨hn, hdrop.trans hr'⟩
      · rw [if_neg hle]
        constructor
        · intro h
          exact absurd h not_yields_error
        · intro h
          obtain ⟨-, rfl, hn, -⟩ := h
          exact absurd hn hle

theorem yields_reference {c : Cursor} {n : Nat} {rest : List Char} :
    Yields (reference c) n rest ↔ SpellsReference n c.rest rest ∧ Ends isAsciiDigit rest := by
  constructor
  · intro h
    obtain ⟨d, hd, -⟩ := yields_bind.1 h
    have hdollar : Word ['$'] c.rest d.rest := (expect_iff (by decide)).1 ⟨d.offset, hd⟩
    obtain ⟨ds, r, hrest, hds, hr⟩ := exists_run isAsciiDigit d.rest
    obtain ⟨hne, hvalue, hn, rfl⟩ := (yields_reference_of_dollar hd hrest hds hr).1 h
    rw [word_iff (by decide), hrest] at hdollar
    exact ⟨⟨ds, (word_iff (by decide)).2 hdollar, hne, hds, hvalue, hn⟩, hr⟩
  · intro h
    obtain ⟨⟨ds, hword, hne, hds, hvalue, hn⟩, hr⟩ := h
    have hdollar : Word ['$'] c.rest (ds ++ rest) := by
      rw [word_iff (by decide)] at hword ⊢
      exact hword
    have hexpect : ∃ offset, expect '$' .reference .noReference c = .ok ⟨offset, ds ++ rest⟩ :=
      (expect_iff (by decide)).2 hdollar
    obtain ⟨offset, hd⟩ := hexpect
    exact (yields_reference_of_dollar hd rfl hds hr).2 ⟨hne, hvalue, hn, rfl⟩

/-- A reference ends where another word stands, unless that begins with a digit. -/
theorem reference_of_word {c : Cursor} {n : Nat} {x : Char} {mid rest : List Char}
    (hn : SpellsReference n c.rest mid) (hx : isAsciiDigit x = false) (h : Word [x] mid rest) :
    ∃ offset, reference c = .ok (n, ⟨offset, mid⟩) :=
  yields_reference.2 ⟨hn, h.ends hx (fun _ => not_isAsciiDigit_of_isBlank)⟩

/-- What `references` computes, without the evidence for its termination. -/
theorem references_eq (c : Cursor) :
    references c = match reference c with
      | .error f => .error f
      | .ok (n, after) => match after.skipBlanks.rest with
        | [] => .error (.incomplete .separator)
        | ',' :: _ => do
          let (ns, after) ← references after.skipBlanks.advance
          return (n :: ns, after)
        | ')' :: _ => .ok ([n], after.skipBlanks.advance)
        | x :: _ => misfit after.skipBlanks (.noSeparator x) := by
  rw [references]
  split
  · rename_i f hf
    exact hf ▸ rfl
  · rename_i n after hn
    exact hn ▸ rfl

theorem references_of_close {c after : Cursor} {n : Nat} {rest : List Char}
    (hn : reference c = .ok (n, after)) (hclose : Word [')'] after.rest rest) :
    Yields (references c) [n] rest := by
  obtain ⟨hskip, offset, hadvance⟩ := advance_of_word (by decide) hclose
  refine ⟨offset, ?_⟩
  rw [references_eq, hn]
  simp only [hskip, hadvance]

theorem references_of_comma {c after : Cursor} {n : Nat} {r : List Char}
    (hn : reference c = .ok (n, after)) (hcomma : Word [','] after.rest r) :
    ∃ offset, references c = (do
      let (ns, after) ← references ⟨offset, r⟩
      return (n :: ns, after)) := by
  obtain ⟨hskip, offset, hadvance⟩ := advance_of_word (by decide) hcomma
  refine ⟨offset, ?_⟩
  rw [references_eq, hn]
  simp only [hskip, hadvance]

theorem references_of_spells {c : Cursor} {ns : List Nat} {rest : List Char}
    (h : SpellsReferences ns c.rest rest) : Yields (references c) ns rest := by
  generalize hcs : c.rest = cs at h
  induction h generalizing c with
  | last hn hclose =>
    subst hcs
    obtain ⟨offset, hn⟩ := reference_of_word hn (by decide) hclose
    exact references_of_close hn hclose
  | more hn hcomma _ ih =>
    subst hcs
    obtain ⟨offset, hn⟩ := reference_of_word hn (by decide) hcomma
    obtain ⟨o, heq⟩ := references_of_comma hn hcomma
    obtain ⟨o', hns⟩ := ih (c := ⟨o, _⟩) rfl
    rw [heq, hns]
    exact yields_ok.2 ⟨rfl, rfl⟩

theorem spells_of_references {c : Cursor} {ns : List Nat} {rest : List Char}
    (h : Yields (references c) ns rest) : SpellsReferences ns c.rest rest := by
  fun_induction references c generalizing ns rest with
  | case1 => exact absurd h not_yields_error
  | case2 => exact absurd h not_yields_error
  | case3 c n after hn c₁ tail hskip =>
    rename_i ih
    obtain ⟨⟨ns', d⟩, hns, h⟩ := yields_bind.1 h
    obtain ⟨rfl, rfl⟩ := yields_ok.1 h
    have hspells := ih (yields_of_eq hns)
    rw [rest_advance hskip] at hspells
    exact .more (yields_reference.1 (yields_of_eq hn)).1
      (word_of_skipBlanks (by decide) hskip) hspells
  | case4 c n after hn c₁ tail =>
    rename_i hskip
    obtain ⟨rfl, rfl⟩ := yields_ok.1 h
    rw [rest_advance hskip]
    exact .last (yields_reference.1 (yields_of_eq hn)).1 (word_of_skipBlanks (by decide) hskip)
  | case5 => exact absurd h not_yields_error

end Interpolation.Expr
