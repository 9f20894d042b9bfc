/-
  Expressions without an operator: each alternative yields what is spelled in its form, and the
  first that succeeds is found behind misfits only, which never end the search (`unit_of_spells`).
-/
import Interpolation.Proofs.Expr.Reading

namespace Interpolation.Expr

open Text

/-! ## The alternatives -/

/-- The characters that a quoted text may have. -/
def notQuote (c : Char) : Bool := c ≠ '\''

theorem yields_literalText_of_quote {c d : Cursor} {t r rest : List Char} {e : Expr}
    (hd : expect '\'' .literal .noLiteral c = .ok d) (hrest : d.rest = t ++ r)
    (ht : ∀ x ∈ t, notQuote x) (hr : Ends notQuote r) :
    Yields (literalText c) e rest ↔ e = .literal (String.ofList t) ∧ r = '\'' :: rest := by
  have htake : d.rest.takeWhile notQuote = t := by rw [hrest, takeWhile_run ht hr]
  have hdrop : d.rest.dropWhile notQuote = r := by rw [hrest, dropWhile_run ht hr]
  have hclose : d.skipWhile (fun x => decide (x ≠ '\'')) =
      ⟨d.offset + utf8Size (d.rest.takeWhile notQuote), r⟩ := by
    rw [← hdrop]
    rfl
  have htext : d.rest.takeWhile (fun x => decide (x ≠ '\'')) = t := htake
  unfold literalText
  rw [hd, ok_bind, hclose, htext]
  rcases r with _ | ⟨x, xs⟩
  · constructor
    · intro h
      exact absurd h not_yields_error
    · intro h
      obtain ⟨-, h⟩ := h
      cases h
  · have hx : x = '\'' := by
      have := hr x rfl
      simpa [notQuote] using this
    subst hx
    constructor
    · intro h
      obtain ⟨rfl, hr'⟩ := yields_ok.1 h
      exact ⟨rfl, by rw [← hr']; rfl⟩
    · intro h
      obtain ⟨rfl, h⟩ := h
      exact yields_ok.2 ⟨rfl, (List.cons.inj h).2⟩

theorem yields_literalText {c : Cursor} {e : Expr} {rest : List Char} :
    Yields (literalText c) e rest ↔ ∃ t : String, e = .literal t ∧ '\'' ∉ t.toList ∧
      Word ('\'' :: (t.toList ++ ['\''])) c.rest rest := by
  have hmem {t : List Char} : (∀ x ∈ t, notQuote x) ↔ '\'' ∉ t := by
    simp only [notQuote, decide_eq_true_eq]
    constructor
    · intro h hquote
      exact h _ hquote rfl
    · rintro h x hx rfl
      exact h hx
  constructor
  · intro h
    obtain ⟨d, hd, -⟩ := yields_bind.1 h
    have hquote : Word ['\''] c.rest d.rest := (expect_iff (by decide)).1 ⟨d.offset, hd⟩
    obtain ⟨t, r, hrest, ht, hr⟩ := exists_run notQuote d.rest
    obtain ⟨rfl, rfl⟩ := (yields_literalText_of_quote hd hrest ht hr).1 h
    rw [word_iff (by decide), hrest] at hquote
    refine ⟨_, rfl, ?_, ?_⟩
    · rw [String.toList_ofList]
      exact hmem.1 ht
    · rw [word_iff (by decide), hquote, String.toList_ofList]
      simp
  · intro h
    obtain ⟨t, rfl, ht, hword⟩ := h
    have hquote : Word ['\''] c.rest (t.toList ++ '\'' :: rest) := by
      rw [word_iff (by decide)] at hword ⊢
      rw [hword]
      simp
    have hexpect : ∃ offset, expect '\'' .literal .noLiteral c =
        .ok ⟨offset, t.toList ++ '\'' :: rest⟩ := (expect_iff (by decide)).2 hquote
    obtain ⟨offset, hd⟩ := hexpect
    have hr : Ends notQuote ('\'' :: rest) := ends_cons (by decide)
    rw [yields_literalText_of_quote hd rfl (hmem.2 ht) hr, String.ofList_toList]
    exact ⟨rfl, rfl⟩

theorem yields_bareName {c : Cursor} {e : Expr} {rest : List Char} :
    Yields (bareName c) e rest ↔ ∃ n, e = .value n ∧ SpellsName n c.rest rest ∧ Alone n rest ∧
      ∀ after, ¬ Word ['('] rest after := by
  unfold bareName
  rw [yields_bind]
  constructor
  · intro h
    obtain ⟨⟨n, d⟩, hn, h⟩ := h
    dsimp only at h
    split at h
    · exact absurd h not_yields_error
    · rename_i hclosed
      obtain ⟨rfl, rfl⟩ := yields_ok.1 h
      rw [peek_skipBlanks (by decide), not_exists] at hclosed
      obtain ⟨hname, halone⟩ := yields_name.1 (yields_of_eq hn)
      exact ⟨n, rfl, hname, halone, hclosed⟩
  · intro h
    obtain ⟨n, rfl, hname, halone, hclosed⟩ := h
    obtain ⟨offset, hn⟩ := yields_name.2 ⟨hname, halone⟩
    refine ⟨_, hn, ?_⟩
    have hpeek : (Cursor.mk offset rest).skipBlanks.peek? ≠ some '(' := by
      rw [Ne, peek_skipBlanks (by decide), not_exists]
      exact hclosed
    dsimp only
    rw [if_neg hpeek]
    exact yields_ok.2 ⟨rfl, rfl⟩

theorem SpellsReferences.head {ns : List Nat} {cs rest : List Char}
    (h : SpellsReferences ns cs rest) : ∃ xs, cs.dropWhile isBlank = '$' :: xs := by
  have head {n : Nat} {rest : List Char} (hn : SpellsReference n cs rest) :
      ∃ xs, cs.dropWhile isBlank = '$' :: xs := by
    obtain ⟨ds, hword, -⟩ := hn
    exact ⟨_, (word_iff (by decide)).1 hword⟩
  rcases h with ⟨hn, -⟩ | ⟨hn, -, -⟩
  · exact head hn
  · exact head hn

theorem references_skipBlanks (c : Cursor) : references c.skipBlanks = references c := by
  have hreference : reference c.skipBlanks = reference c := by
    unfold reference expect
    rw [skipBlanks_skipBlanks]
  rw [references_eq, references_eq, hreference]

/-- The rest of a call behind its opening parenthesis. -/
theorem yields_params {n : Name} {c : Cursor} {e : Expr} {rest : List Char} :
    Yields (if c.skipBlanks.peek? = some ')' then .ok (.call n [], c.skipBlanks.advance)
      else do
        let (ps, after) ← references c.skipBlanks
        return (.call n ps, after)) e rest ↔
      ∃ ps, e = .call n ps ∧ SpellsParams ps c.rest rest := by
  rw [references_skipBlanks]
  by_cases hpeek : c.skipBlanks.peek? = some ')'
  · rw [if_pos hpeek, yields_ok]
    obtain ⟨r, hclose⟩ := (peek_skipBlanks (by decide)).1 hpeek
    obtain ⟨hskip, offset, hadvance⟩ := advance_of_word (by decide) hclose
    rw [hadvance]
    constructor
    · intro h
      obtain ⟨rfl, rfl⟩ := h
      exact ⟨[], rfl, .none hclose⟩
    · intro h
      obtain ⟨ps, rfl, hps⟩ := h
      rw [word_iff (by decide)] at hclose
      rcases hps with hclose' | hns
      · rw [word_iff (by decide), hclose] at hclose'
        exact ⟨rfl, (List.cons.inj hclose').2⟩
      · obtain ⟨xs, hxs⟩ := hns.head
        rw [hclose] at hxs
        cases hxs
  · rw [if_neg hpeek, yields_bind]
    constructor
    · intro h
      obtain ⟨⟨ps, d⟩, hps, h⟩ := h
      obtain ⟨rfl, rfl⟩ := yields_ok.1 h
      exact ⟨ps, rfl, .some (spells_of_references (yields_of_eq hps))⟩
    · intro h
      obtain ⟨ps, rfl, hps⟩ := h
      rcases hps with hclose | hns
      · exact absurd ((peek_skipBlanks (by decide)).2 ⟨_, hclose⟩) hpeek
      · obtain ⟨offset, h⟩ := references_of_spells hns
        exact ⟨_, h, yields_ok.2 ⟨rfl, rfl⟩⟩

theorem yields_callName {c : Cursor} {e : Expr} {rest : List Char} :
    Yields (callName c) e rest ↔ ∃ n ps mid after, e = .call n ps ∧ SpellsName n c.rest mid ∧
      Word ['('] mid after ∧ SpellsParams ps after rest := by
  unfold callName
  rw [yields_bind]
  constructor
  · intro h
    obtain ⟨⟨n, d⟩, hn, h⟩ := h
    obtain ⟨hname, -⟩ := yields_name.1 (yields_of_eq hn)
    dsimp only at h
    split at h
    · rename_i hpeek
      obtain ⟨after, hopen⟩ := (peek_skipBlanks (by decide)).1 hpeek
      obtain ⟨offset, hadvance⟩ := (advance_of_word (by decide) hopen).2
      rw [hadvance] at h
      obtain ⟨ps, rfl, hps⟩ := yields_params.1 h
      exact ⟨n, ps, _, after, rfl, hname, hopen, hps⟩
    · exact absurd h not_yields_error
  · intro h
    obtain ⟨n, ps, mid, after, rfl, hname, hopen, hps⟩ := h
    have halone : Alone n mid := alone_of_word (by decide) (by decide) hopen
    obtain ⟨offset, hn⟩ := yields_name.2 ⟨hname, halone⟩
    refine ⟨_, hn, ?_⟩
    have hpeek : (Cursor.mk offset mid).skipBlanks.peek? = some '(' :=
      (peek_skipBlanks (by decide)).2 ⟨after, hopen⟩
    obtain ⟨o, hadvance⟩ := (advance_of_word (c := ⟨offset, mid⟩) (by decide) hopen).2
    dsimp only
    rw [hpeek, hadvance]
    exact yields_params.2 ⟨ps, rfl, hps⟩

/-! ## The choice between them -/

theorem mem_of_firstOf {g : Grammar} {c : Cursor} {r : Expr × Cursor} {best : Option Failure}
    {ps : List (Cursor → Reading (Expr × Cursor))} (h : firstOf g c best ps = .ok r) :
    ∃ p ∈ ps, p c = .ok r := by
  induction ps generalizing best with
  | nil => cases h
  | cons p ps ih =>
    unfold firstOf at h
    split at h
    · rename_i r' hp
      rw [h] at hp
      exact ⟨p, List.mem_cons_self, hp⟩
    · split at h
      · cases h
      · obtain ⟨q, hq, hr⟩ := ih h
        exact ⟨q, List.mem_cons_of_mem p hq, hr⟩

theorem firstOf_of_ok {g : Grammar} {c : Cursor} {r : Expr × Cursor} {best : Option Failure}
    {p : Cursor → Reading (Expr × Cursor)} {ps : List (Cursor → Reading (Expr × Cursor))}
    (h : p c = .ok r) : firstOf g c best (p :: ps) = .ok r := by
  unfold firstOf
  rw [h]

/-- A misfit never ends the search. -/
theorem firstOf_of_misfit {g : Grammar} {c : Cursor} {r : Expr × Cursor} {m : Misfit}
    {p : Cursor → Reading (Expr × Cursor)} {ps : List (Cursor → Reading (Expr × Cursor))}
    (h : p c = .error (.misfit m)) (hps : ∀ best, firstOf g c best ps = .ok r)
    (best : Option Failure) : firstOf g c best (p :: ps) = .ok r := by
  unfold firstOf
  rw [h]
  exact hps _

theorem unitAlternatives_cases {p : Cursor → Reading (Expr × Cursor)}
    (hp : p ∈ unitAlternatives) : p = callName ∨ p = bareName ∨ p = literalText := by
  simpa only [unitAlternatives, List.mem_cons, List.not_mem_nil, or_false] using hp

theorem alternative_skipBlanks {p : Cursor → Reading (Expr × Cursor)} (hp : p ∈ unitAlternatives)
    (c : Cursor) : p c.skipBlanks = p c := by
  have hname : name c.skipBlanks = name c := by
    unfold name
    rw [label_skipBlanks]
  rcases unitAlternatives_cases hp with rfl | rfl | rfl
  · unfold callName
    rw [hname]
  · unfold bareName
    rw [hname]
  · unfold literalText expect
    rw [skipBlanks_skipBlanks]

theorem firstOf_skipBlanks (g : Grammar) (c : Cursor) (best : Option Failure) :
    firstOf g c.skipBlanks best unitAlternatives = firstOf g c best unitAlternatives := by
  have hcongr : ∀ ps best, (∀ p ∈ ps, p ∈ unitAlternatives) →
      firstOf g c.skipBlanks best ps = firstOf g c best ps := by
    intro ps
    induction ps with
    | nil =>
      intro best _
      rfl
    | cons p ps ih =>
      intro best hps
      have hrest : ∀ best, firstOf g c.skipBlanks best ps = firstOf g c best ps :=
        fun best => ih best (fun q hq => hps q (List.mem_cons_of_mem p hq))
      unfold firstOf
      rw [alternative_skipBlanks (hps p List.mem_cons_self)]
      simp only [hrest]
  exact hcongr unitAlternatives best (fun _ hp => hp)

theorem spells_of_alternative {g : Grammar} {p : Cursor → Reading (Expr × Cursor)} {c : Cursor}
    {e : Expr} {rest : List Char} (hp : p ∈ unitAlternatives) (h : Yields (p c) e rest) :
    e.isBinary = false ∧ Spells g e c.rest rest := by
  rcases unitAlternatives_cases hp with rfl | rfl | rfl
  · obtain ⟨n, ps, mid, after, rfl, hname, hopen, hps⟩ := yields_callName.1 h
    exact ⟨rfl, .call hname hopen hps⟩
  · obtain ⟨n, rfl, hname, -, hopen⟩ := yields_bareName.1 h
    exact ⟨rfl, .value hname hopen⟩
  · obtain ⟨t, rfl, ht, hword⟩ := yields_literalText.1 h
    exact ⟨rfl, .literal ht hword⟩

theorem names_misfit {c : Cursor} {x : Char} {xs : List Char}
    (hc : c.rest.dropWhile isBlank = x :: xs) (hx : isLabelChar x = false) :
    ∃ m, callName c = .error (.misfit m) ∧ bareName c = .error (.misfit m) := by
  obtain ⟨m, hm⟩ := label_misfit hc hx
  have hname : name c = .error (.misfit m) := by
    unfold name
    rw [hm]
    rfl
  refine ⟨m, ?_, ?_⟩
  · unfold callName
    rw [hname]
    rfl
  · unfold bareName
    rw [hname]
    rfl

theorem callName_misfit {c after : Cursor} {n : Name} (hn : name c = .ok (n, after))
    (hopen : ∀ rest, ¬ Word ['('] after.rest rest) : ∃ m, callName c = .error (.misfit m) := by
  have hpeek : after.skipBlanks.peek? ≠ some '(' := by
    rw [Ne, peek_skipBlanks (by decide), not_exists]
    exact hopen
  unfold callName
  rw [hn]
  dsimp only [bind, Except.bind]
  split
  · rename_i h
    exact absurd h hpeek
  · exact ⟨_, rfl⟩

/-- What is spelled without an operator is found among the alternatives, behind misfits only. -/
theorem firstOf_of_spells {g : Grammar} {c : Cursor} {e : Expr} {rest : List Char}
    (h : Spells g e c.rest rest) (hunit : e.isBinary = false)
    (halone : ∀ n, e = .value n → Alone n rest) :
    ∃ offset, ∀ best, firstOf g c best unitAlternatives = .ok (e, ⟨offset, rest⟩) := by
  rcases h with ⟨ht, hword⟩ | ⟨hname, hopen⟩ | ⟨hname, hopen, hps⟩ | ⟨-, -, -, -, -, -⟩
  · obtain ⟨m, hcall, hbare⟩ := names_misfit ((word_iff (by decide)).1 hword) (by decide)
    obtain ⟨offset, htext⟩ := yields_literalText.2 ⟨_, rfl, ht, hword⟩
    refine ⟨offset, firstOf_of_misfit hcall (firstOf_of_misfit hbare ?_)⟩
    intro best
    exact firstOf_of_ok htext
  · have halone := halone _ rfl
    obtain ⟨o, hn⟩ := yields_name.2 ⟨hname, halone⟩
    obtain ⟨m, hcall⟩ := callName_misfit hn hopen
    obtain ⟨offset, hbare⟩ := yields_bareName.2 ⟨_, rfl, hname, halone, hopen⟩
    refine ⟨offset, firstOf_of_misfit hcall ?_⟩
    intro best
    exact firstOf_of_ok hbare
  · obtain ⟨offset, hcall⟩ := yields_callName.2 ⟨_, _, _, _, rfl, hname, hopen, hps⟩
    exact ⟨offset, fun _ => firstOf_of_ok hcall⟩
  · cases hunit

theorem spells_of_firstOf {g : Grammar} {c : Cursor} {e : Expr} {rest : List Char}
    {best : Option Failure} (h : Yields (firstOf g c best unitAlternatives) e rest) :
    e.isBinary = false ∧ Spells g e c.rest rest := by
  obtain ⟨offset, h⟩ := h
  obtain ⟨p, hp, h⟩ := mem_of_firstOf h
  exact spells_of_alternative hp ⟨offset, h⟩

theorem not_isEmpty_of_spells {g : Grammar} {c : Cursor} {e : Expr} {rest : List Char}
    (h : Spells g e c.rest rest) : ¬ c.skipBlanks.rest.isEmpty := by
  obtain ⟨x, xs, -, hx⟩ := h.head
  show ¬ (c.rest.dropWhile isBlank).isEmpty
  rw [hx]
  exact Bool.false_ne_true

theorem spells_of_unit {g : Grammar} {c : Cursor} {e : Expr} {rest : List Char}
    (h : Yields (unit g c) e rest) : e.isBinary = false ∧ Spells g e c.rest rest := by
  unfold unit at h
  dsimp only at h
  rw [firstOf_skipBlanks] at h
  split at h
  · exact absurd h not_yields_error
  · exact spells_of_firstOf h

theorem unit_of_spells {g : Grammar} {c : Cursor} {e : Expr} {rest : List Char}
    (h : Spells g e c.rest rest) (hunit : e.isBinary = false)
    (halone : ∀ n, e = .value n → Alone n rest) :
    ∃ offset, unit g c = .ok (e, ⟨offset, rest⟩) := by
  obtain ⟨offset, hfirst⟩ := firstOf_of_spells h hunit halone
  refine ⟨offset, ?_⟩
  unfold unit
  dsimp only
  rw [if_neg (not_isEmpty_of_spells h), firstOf_skipBlanks]
  exact hfirst none

end Interpolation.Expr
