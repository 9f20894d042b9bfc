/-
  A spelled expression that is cut. The text in front of the cut is itself spelled, or reading it
  ends in want of more, or it ends in the first of the two colons of a name (`cut_of_spells`). So
  whatever fits up to the cut is never taken for a misfit, that single colon apart. The cut is
  followed through the words, the references of a call, the units and the chain of operators.
-/
import Interpolation.Proofs.Expr.Completion

namespace Interpolation.Expr

open Text

variable {α : Type} {cs t rest : List Char}

/-! ## Words that are cut -/

/-- Reading the text ends in want of more. -/
def Starves (read : Cursor → Reading α) (cs : List Char) : Prop :=
  ∀ offset, ∃ need, read ⟨offset, cs⟩ = .error (.incomplete need)

/-- A character behind blanks stands in what is cut off or in what is left. -/
theorem Word.cut {x : Char} (h : Word [x] (cs ++ t) rest) :
    (∀ c ∈ cs, isBlank c) ∨ ∃ r, rest = r ++ t ∧ Word [x] cs r := by
  obtain ⟨w, hw, heq⟩ := h
  rcases List.append_eq_append_iff.1 heq with ⟨v, rfl, -⟩ | ⟨v, rfl, hv⟩
  · exact .inl fun c hc => hw c (List.mem_append_left _ hc)
  · cases v with
    | nil =>
      rw [List.append_nil]
      exact .inl hw
    | cons y r =>
      obtain ⟨rfl, hrest⟩ := List.cons.inj hv
      exact .inr ⟨r, hrest, w, hw, rfl⟩

theorem SpellsLabel.cut {s : String} (h : SpellsLabel s (cs ++ t) rest) :
    (∀ c ∈ cs, isBlank c) ∨ (∃ s', SpellsLabel s' cs []) ∨
      ∃ r, rest = r ++ t ∧ SpellsLabel s cs r := by
  obtain ⟨hs, hword, hends⟩ := h
  obtain ⟨x, xs, hx⟩ := List.exists_cons_of_ne_nil hs.1
  rw [hx] at hword
  rcases (word_cons_iff.1 hword).cut with hblanks | ⟨r, hr, hfirst⟩
  · exact .inl hblanks
  rcases List.append_eq_append_iff.1 hr with ⟨v, rfl, rfl⟩ | ⟨v, rfl, -⟩
  · refine .inr (.inr ⟨v, rfl, hs, ?_, ends_left hends⟩)
    rw [hx]
    exact word_cons_iff.2 hfirst
  · refine .inr (.inl ⟨String.ofList (x :: r), ⟨?_, ?_⟩, ?_, ends_nil isLabelChar⟩)
    · rw [String.toList_ofList]
      exact List.cons_ne_nil x r
    · intro c hc
      rw [String.toList_ofList] at hc
      refine hs.2 c ?_
      rw [hx]
      exact List.mem_append_left v hc
    · rw [String.toList_ofList, word_cons_iff, List.append_nil]
      exact hfirst

/-- Where a cut through a name falls. -/
inductive NameCut (n : Name) (cs t rest : List Char) : Prop where
  | before (h : ∀ c ∈ cs, isBlank c)
  | shorter {n' : Name} {r : List Char} (hn : SpellsName n' cs r) (hr : ∀ c ∈ r, isBlank c)
  | colon {key : String} {r : List Char} (hkey : SpellsLabel key cs (r ++ [':']))
      (hr : ∀ c ∈ r, isBlank c)
  | colons {space : String} {mid after : List Char} (hspace : SpellsLabel space cs mid)
      (hcolons : Word [':', ':'] mid after) (hafter : ∀ c ∈ after, isBlank c)
  | behind {r : List Char} (hrest : rest = r ++ t) (hn : SpellsName n cs r)

theorem SpellsName.cut {n : Name} (h : SpellsName n (cs ++ t) rest) : NameCut n cs t rest := by
  cases h with
  | bare hkey =>
    rcases hkey.cut with hblanks | ⟨s', hs'⟩ | ⟨r, hr, hs⟩
    · exact .before hblanks
    · exact .shorter (.bare hs') (by simp)
    · exact .behind hr (.bare hs)
  | qualified hspace hcolons hkey =>
    rcases hspace.cut with hblanks | ⟨s', hs'⟩ | ⟨r, rfl, hspace'⟩
    · exact .before hblanks
    · exact .shorter (.bare hs') (by simp)
    rcases (word_cons_iff.1 hcolons).cut with hblanks | ⟨v, hv, hcolon⟩
    · exact .shorter (.bare hspace') hblanks
    -- the first colon is left, so the cut is right behind it or behind the second
    cases v with
    | nil =>
      obtain ⟨w, hw, rfl⟩ := hcolon
      exact .colon hspace' hw
    | cons y v =>
      obtain ⟨rfl, rfl⟩ := List.cons.inj hv
      have hcolons' : Word [':', ':'] r v := word_cons_iff.2 hcolon
      rcases hkey.cut with hblanks | ⟨s', hs'⟩ | ⟨r', hr', hkey'⟩
      · exact .colons hspace' hcolons' hblanks
      · exact .shorter (.qualified hspace' hcolons' hs') (by simp)
      · exact .behind hr' (.qualified hspace' hcolons' hkey')

/-! ## References that are cut -/

theorem expect_of_blanks {want : Char} {need : Need} {otherwise : Char → Cause}
    (h : ∀ c ∈ cs, isBlank c) (offset : Nat) :
    expect want need otherwise ⟨offset, cs⟩ = .error (.incomplete need) := by
  have hrest : (Cursor.mk offset cs).skipBlanks.rest = [] := List.dropWhile_eq_nil_iff.2 h
  unfold expect
  simp only [Cursor.peek?, hrest, List.head?_nil]

theorem starves_reference_of_blanks (h : ∀ c ∈ cs, isBlank c) : Starves reference cs := by
  intro offset
  unfold reference
  rw [expect_of_blanks h]
  exact ⟨_, rfl⟩

theorem digitsValue_le_append (ds es : List Char) : digitsValue ds ≤ digitsValue (ds ++ es) := by
  unfold digitsValue
  rw [Nat.ofDigitChars_append]
  exact le_ofDigitChars es _

theorem SpellsReference.cut {n : Nat} (h : SpellsReference n (cs ++ t) rest) :
    Starves reference cs ∨ (∃ m, SpellsReference m cs []) ∨
      ∃ r, rest = r ++ t ∧ SpellsReference n cs r := by
  obtain ⟨ds, hword, hne, hds, hvalue, hle⟩ := h
  rcases (word_cons_iff.1 hword).cut with hblanks | ⟨r, hr, hdollar⟩
  · exact .inl (starves_reference_of_blanks hblanks)
  rcases List.append_eq_append_iff.1 hr with ⟨v, rfl, rfl⟩ | ⟨v, rfl, -⟩
  · exact .inr (.inr ⟨v, rfl, ds, word_cons_iff.2 hdollar, hne, hds, hvalue, hle⟩)
  · by_cases hr' : r = []
    · subst hr'
      left
      intro offset
      have hexpect : ∃ o, expect '$' .reference .noReference ⟨offset, cs⟩ = .ok ⟨o, []⟩ :=
        (expect_iff (by decide)).2 hdollar
      obtain ⟨o, hexpect⟩ := hexpect
      unfold reference
      rw [hexpect]
      exact ⟨_, rfl⟩
    · refine .inr (.inl ⟨digitsValue r, r, ?_, hr', ?_, rfl, ?_⟩)
      · rw [word_cons_iff, List.append_nil]
        exact hdollar
      · exact fun d hd => hds d (List.mem_append_left v hd)
      · have := digitsValue_le_append r v
        omega

/-- Behind a reference a separator has to follow. -/
theorem starves_of_reference {n : Nat} {r : List Char} (hn : SpellsReference n cs r)
    (hr : ∀ c ∈ r, isBlank c) : Starves references cs := by
  intro offset
  have hends : Ends isAsciiDigit r := by
    intro c hc
    exact not_isAsciiDigit_of_isBlank (hr c (List.mem_of_mem_head? hc))
  obtain ⟨o, hread⟩ := (yields_reference (c := ⟨offset, cs⟩)).2 ⟨hn, hends⟩
  have hrest : (Cursor.mk o r).skipBlanks.rest = [] := List.dropWhile_eq_nil_iff.2 hr
  refine ⟨.separator, ?_⟩
  rw [references_eq, hread]
  simp only [hrest]

theorem starves_of_starved (h : Starves reference cs) : Starves references cs := by
  intro offset
  obtain ⟨need, hneed⟩ := h offset
  refine ⟨need, ?_⟩
  rw [references_eq, hneed]

theorem starves_of_comma {n : Nat} {mid after : List Char} (hn : SpellsReference n cs mid)
    (hcomma : Word [','] mid after) (h : Starves references after) : Starves references cs := by
  intro offset
  obtain ⟨o, hread⟩ := reference_of_word (c := ⟨offset, cs⟩) hn (by decide) hcomma
  obtain ⟨o', heq⟩ := references_of_comma hread hcomma
  obtain ⟨need, hneed⟩ := h o'
  refine ⟨need, ?_⟩
  rw [heq, hneed]
  rfl

theorem SpellsReferences.cut {ns : List Nat} {whole : List Char}
    (h : SpellsReferences ns whole rest) (hwhole : whole = cs ++ t) :
    Starves references cs ∨ ∃ r, rest = r ++ t ∧ SpellsReferences ns cs r := by
  induction h generalizing cs with
  | last hn hclose =>
    subst hwhole
    rcases hn.cut with hstarved | ⟨m, hm⟩ | ⟨r, rfl, hn'⟩
    · exact .inl (starves_of_starved hstarved)
    · exact .inl (starves_of_reference hm (by simp))
    rcases hclose.cut with hblanks | ⟨r', rfl, hclose'⟩
    · exact .inl (starves_of_reference hn' hblanks)
    · exact .inr ⟨r', rfl, .last hn' hclose'⟩
  | more hn hcomma _ ih =>
    subst hwhole
    rcases hn.cut with hstarved | ⟨m, hm⟩ | ⟨r, rfl, hn'⟩
    · exact .inl (starves_of_starved hstarved)
    · exact .inl (starves_of_reference hm (by simp))
    rcases hcomma.cut with hblanks | ⟨r', hr', hcomma'⟩
    · exact .inl (starves_of_reference hn' hblanks)
    rcases ih hr' with hstarved | ⟨r'', hrest, hns⟩
    · exact .inl (starves_of_comma hn' hcomma' hstarved)
    · exact .inr ⟨r'', hrest, .more hn' hcomma' hns⟩

theorem SpellsParams.cut {ns : List Nat} (h : SpellsParams ns (cs ++ t) rest) :
    Starves references cs ∨ ∃ r, rest = r ++ t ∧ SpellsParams ns cs r := by
  cases h with
  | none hclose =>
    rcases hclose.cut with hblanks | ⟨r, hr, hclose'⟩
    · exact .inl (starves_of_starved (starves_reference_of_blanks hblanks))
    · exact .inr ⟨r, hr, .none hclose'⟩
  | some hns =>
    rcases hns.cut rfl with hstarved | ⟨r, hr, hns'⟩
    · exact .inl hstarved
    · exact .inr ⟨r, hr, .some hns'⟩

/-! ## Units that are cut -/

section
variable {g : Grammar}

theorem starves_name {space : String} {mid after : List Char} (hspace : SpellsLabel space cs mid)
    (hcolons : Word [':', ':'] mid after) (hafter : ∀ c ∈ after, isBlank c) : Starves name cs := by
  intro offset
  obtain ⟨o, hlabel⟩ := label_of_spells (c := ⟨offset, cs⟩) hspace
  obtain ⟨o', hname⟩ := name_of_colons hlabel hcolons
  refine ⟨.nameAfterColons, ?_⟩
  rw [hname, if_pos]
  rw [List.dropWhile_eq_nil_iff.2 hafter]
  rfl

theorem Starves.callName_of_name (h : Starves name cs) : Starves callName cs := by
  intro offset
  obtain ⟨need, hneed⟩ := h offset
  refine ⟨need, ?_⟩
  unfold callName
  rw [hneed]
  rfl

/-- Where references are wanting, no parenthesis closes the call. -/
theorem peek_of_starves {c : Cursor} (h : ∃ need, references c = .error (.incomplete need)) :
    c.skipBlanks.peek? ≠ some ')' := by
  intro hpeek
  obtain ⟨need, hneed⟩ := h
  have hexpect : expect '$' .reference .noReference c =
      .error (.misfit ⟨c.skipBlanks.offset, .noReference ')'⟩) := by
    unfold expect
    dsimp only
    rw [hpeek]
    rfl
  rw [references_eq, reference, hexpect] at hneed
  cases hneed

theorem starves_callName {n : Name} {mid after : List Char} (hn : SpellsName n cs mid)
    (hopen : Word ['('] mid after) (h : Starves references after) : Starves callName cs := by
  intro offset
  have halone : Alone n mid := alone_of_word (by decide) (by decide) hopen
  obtain ⟨o, hname⟩ := (yields_name (c := ⟨offset, cs⟩)).2 ⟨hn, halone⟩
  have hpeek : (Cursor.mk o mid).skipBlanks.peek? = some '(' :=
    (peek_skipBlanks (by decide)).2 ⟨after, hopen⟩
  obtain ⟨o', hadvance⟩ := (advance_of_word (c := ⟨o, mid⟩) (by decide) hopen).2
  obtain ⟨need, hneed⟩ := h o'
  refine ⟨need, ?_⟩
  unfold callName
  rw [hname, ok_bind]
  dsimp only
  rw [hpeek, hadvance]
  rw [if_neg (peek_of_starves ⟨need, hneed⟩), references_skipBlanks, hneed]
  rfl

/-- A text that begins with a quote and has no other is wanting in the closing one. -/
theorem starves_literalText {r : List Char} (hquote : Word ['\''] cs r) (hr : '\'' ∉ r) :
    Starves literalText cs := by
  intro offset
  have hexpect : ∃ o, expect '\'' .literal .noLiteral ⟨offset, cs⟩ = .ok ⟨o, r⟩ :=
    (expect_iff (by decide)).2 hquote
  obtain ⟨o, hexpect⟩ := hexpect
  have hclose : ((Cursor.mk o r).skipWhile (· ≠ '\'')).rest = [] := by
    refine List.dropWhile_eq_nil_iff.2 ?_
    intro c hc
    refine decide_eq_true ?_
    rintro rfl
    exact hr hc
  refine ⟨.closingQuote, ?_⟩
  unfold literalText
  rw [hexpect, ok_bind]
  split
  · rfl
  · rename_i hne
    exact absurd (congrArg (Cursor.mk _) hclose) (hne _)

theorem firstOf_of_incomplete {c : Cursor} {need : Need} {best : Option Failure}
    {p : Cursor → Reading (Expr × Cursor)} {ps : List (Cursor → Reading (Expr × Cursor))}
    (hg : g.endStops) (h : p c = .error (.incomplete need)) :
    firstOf g c best (p :: ps) = .error (.incomplete need) := by
  unfold firstOf
  rw [h]
  exact if_pos hg

theorem Starves.unit_of_callName (hg : g.endStops) (h : Starves callName cs) :
    Starves (unit g) cs := by
  intro offset
  unfold unit
  dsimp only
  split
  · exact ⟨_, rfl⟩
  · obtain ⟨need, hneed⟩ := h offset
    rw [firstOf_skipBlanks]
    exact ⟨need, firstOf_of_incomplete hg hneed⟩

theorem Starves.unit_of_literalText {xs : List Char} (hg : g.endStops)
    (hcs : cs.dropWhile isBlank = '\'' :: xs) (h : Starves literalText cs) :
    Starves (unit g) cs := by
  intro offset
  obtain ⟨m, hcall, hbare⟩ := names_misfit (c := ⟨offset, cs⟩) hcs (by decide)
  obtain ⟨need, hneed⟩ := h offset
  refine ⟨need, ?_⟩
  have hempty : (Cursor.mk offset cs).skipBlanks.rest.isEmpty = false := by
    show (cs.dropWhile isBlank).isEmpty = false
    rw [hcs]
    rfl
  unfold unit
  dsimp only
  rw [hempty, if_neg Bool.false_ne_true, firstOf_skipBlanks]
  -- neither name fits a quote, and then the text is found wanting
  unfold unitAlternatives firstOf
  rw [hcall]
  show firstOf g _ _ [bareName, literalText] = _
  unfold firstOf
  rw [hbare]
  exact firstOf_of_incomplete hg hneed

/-- Where a cut through an expression without an operator falls. -/
inductive UnitCut (g : Grammar) (e : Expr) (cs t rest : List Char) : Prop where
  | accepted {e' : Expr} {r : List Char} (h : Spells g e' cs r) (hr : ∀ c ∈ r, isBlank c)
  | starves (h : Starves (unit g) cs)
  | colon {key : String} {r : List Char} (hkey : SpellsLabel key cs (r ++ [':']))
      (hr : ∀ c ∈ r, isBlank c)
  | behind {r : List Char} (hrest : rest = r ++ t) (h : Spells g e cs r)

theorem starves_unit_of_blanks (h : ∀ c ∈ cs, isBlank c) : Starves (unit g) cs := by
  intro offset
  refine ⟨.expression, ?_⟩
  have hempty : (Cursor.mk offset cs).skipBlanks.rest = [] := List.dropWhile_eq_nil_iff.2 h
  unfold unit
  dsimp only
  rw [hempty]
  rfl

/-- A cut through the name with which an expression begins. -/
theorem NameCut.unitCut {n : Name} {e : Expr} {mid : List Char} (hg : g.endStops)
    (h : NameCut n cs t mid) (hbehind : ∀ r, mid = r ++ t → SpellsName n cs r →
      UnitCut g e cs t rest) : UnitCut g e cs t rest := by
  cases h with
  | before hblanks => exact .starves (starves_unit_of_blanks hblanks)
  | shorter hn hr => exact .accepted (.value hn (not_paren_of_blanks hr)) hr
  | colon hkey hr => exact .colon hkey hr
  | colons hspace hcolons hafter =>
    exact .starves ((starves_name hspace hcolons hafter).callName_of_name.unit_of_callName hg)
  | behind hmid hn => exact hbehind _ hmid hn

theorem literal_cut {text : String} (hg : g.endStops) (htext : '\'' ∉ text.toList)
    (hword : Word ('\'' :: (text.toList ++ ['\''])) (cs ++ t) rest) :
    UnitCut g (.literal text) cs t rest := by
  rcases (word_cons_iff.1 hword).cut with hblanks | ⟨r, hr, hquote⟩
  · exact .starves (starves_unit_of_blanks hblanks)
  rw [List.append_assoc] at hr
  have starves (hfree : '\'' ∉ r) : UnitCut g (.literal text) cs t rest := by
    have hcs := (word_iff (by decide)).1 hquote
    exact .starves ((starves_literalText hquote hfree).unit_of_literalText hg hcs)
  rcases List.append_eq_append_iff.1 hr with ⟨v, rfl, hv⟩ | ⟨v, htext', -⟩
  · cases v with
    | nil => exact starves (by rwa [List.append_nil])
    | cons y v =>
      obtain ⟨rfl, hrest⟩ := List.cons.inj hv
      refine .behind hrest (.literal htext ?_)
      rw [word_cons_iff, List.append_assoc]
      exact hquote
  · exact starves fun hm => htext (by rw [htext']; exact List.mem_append_left v hm)

theorem Spells.unitCut {e : Expr} (hg : g.endStops) (h : Spells g e (cs ++ t) rest)
    (hunit : e.isBinary = false) : UnitCut g e cs t rest := by
  cases h with
  | literal htext hword => exact literal_cut hg htext hword
  | value hn hopen =>
    refine hn.cut.unitCut hg ?_
    rintro r rfl hn'
    exact .behind rfl (.value hn' fun after hword => hopen _ (hword.append t))
  | call hn hopen hps =>
    refine hn.cut.unitCut hg ?_
    rintro r rfl hn'
    rcases hopen.cut with hblanks | ⟨r', rfl, hopen'⟩
    · exact .accepted (.value hn' (not_paren_of_blanks hblanks)) hblanks
    rcases hps.cut with hstarved | ⟨r'', hrest, hps'⟩
    · exact .starves ((starves_callName hn' hopen' hstarved).unit_of_callName hg)
    · exact .behind hrest (.call hn' hopen' hps')
  | binary => cases hunit

/-! ## Chains that are cut -/

/-- Reading the text as an expression ends in want of more. -/
def Hungry (g : Grammar) (cs : List Char) : Prop :=
  ∀ noted, Starves (fun c => (expression g noted c).1) cs

theorem Starves.hungry (hg : g.endStops) (h : Starves (unit g) cs) : Hungry g cs := by
  intro noted offset
  obtain ⟨need, hneed⟩ := h offset
  dsimp only
  rw [expression_eq]
  split
  · exact ⟨_, rfl⟩
  · refine ⟨need, ?_⟩
    have hjoined : joined g noted (Cursor.mk offset cs).skipBlanks =
        (.error (.incomplete need), noted) := by
      unfold joined
      rw [unit_skipBlanks, hneed]
    rw [hjoined]
    dsimp only
    rw [if_pos (show g.stops (.incomplete need) from hg)]

theorem hungry_of_right {l : Expr} {op : Char} {mid after : List Char} (hg : g.endStops)
    (hl : Spells g l cs mid) (hunit : l.isBinary = false) (halone : ∀ n, l = .value n → Alone n mid)
    (hop : g.isOperator op) (hblank : isBlank op = false) (hword : Word [op] mid after)
    (h : Hungry g after) : Hungry g cs := by
  intro noted offset
  obtain ⟨o, hread⟩ := unit_of_spells (c := ⟨offset, cs⟩) hl hunit halone
  rw [← unit_skipBlanks] at hread
  obtain ⟨o', hjoined⟩ := joined_of_operator hread hop hblank hword noted
  obtain ⟨need, hneed⟩ := h noted o'
  dsimp only at hneed
  have hc : ¬ (Cursor.mk offset cs).skipBlanks.rest.isEmpty := not_isEmpty_of_spells hl
  refine ⟨need, ?_⟩
  rcases hright : expression g noted ⟨o', after⟩ with ⟨f | x, noted'⟩
  · rw [hright] at hneed hjoined
    obtain rfl := Except.error.inj hneed
    dsimp only
    rw [expression_eq, if_neg hc, hjoined]
    dsimp only
    rw [if_pos (show g.stops (.incomplete need) from hg)]
  · rw [hright] at hneed
    cases hneed

/-- The text is an expression up to a bare name, with a single colon behind it that no operator
makes sense of. -/
def EndsInColon (g : Grammar) (cs : List Char) : Prop :=
  g.isOperator ':' = false ∧ ∃ u e r key, cs = u ++ [':'] ∧ Spells g e u r ∧
    (∀ c ∈ r, isBlank c) ∧ e.lastUnit = .value ⟨none, key⟩

/-- What a text is that goes on to a whole expression. -/
inductive Cut (g : Grammar) (cs : List Char) : Prop where
  | accepted {e : Expr} {r : List Char} (h : Spells g e cs r) (hr : ∀ c ∈ r, isBlank c)
  | hungry (h : Hungry g cs)
  | colon (h : EndsInColon g cs)

theorem alone_of_colon {n : Name} {r : List Char} (hr : ∀ c ∈ r, isBlank c) :
    Alone n (r ++ [':']) := by
  intro _ after hword
  rw [word_iff (by decide), dropWhile_run hr (ends_cons (by decide))] at hword
  cases hword

/-- Behind a bare name a colon is an operator without a right side, or half of a mark. -/
theorem cut_of_colon {key : String} {r : List Char} (hg : g.endStops)
    (hkey : SpellsLabel key cs (r ++ [':'])) (hr : ∀ c ∈ r, isBlank c) : Cut g cs := by
  cases hop : g.isOperator ':' with
  | true =>
    have hparted : Parted (.value ⟨none, key⟩) (r ++ [':']) :=
      parted_of_found hr (by decide) (fun _ _ => by decide) (fun _ => by decide)
    have hnothing : Hungry g [] := (starves_unit_of_blanks (by simp)).hungry hg
    exact .hungry (hungry_of_right hg (.value (.bare hkey) (hparted rfl).2) rfl
      (fun _ _ => alone_of_colon hr) hop (by decide) ⟨r, hr, rfl⟩ hnothing)
  | false =>
    obtain ⟨u, hu, hspells⟩ := hkey.framed
    refine .colon ⟨hop, u ++ r, .value ⟨none, key⟩, r, key, ?_, ?_, hr, rfl⟩
    · rw [hu, List.append_assoc]
    · exact .value (.bare (hspells r (ends_of_blanks hr))) (not_paren_of_blanks hr)

theorem EndsInColon.right {l : Expr} {op : Char} {mid after : List Char}
    (hl : Spells g l cs mid) (hunit : l.isBinary = false) (hop : g.isOperator op)
    (hblank : isBlank op = false) (hword : Word [op] mid after) (h : EndsInColon g after) :
    EndsInColon g cs := by
  obtain ⟨hcolon, u, e, r, key, rfl, hspells, hr, hlast⟩ := h
  obtain ⟨w, hw, rfl⟩ := hword
  obtain ⟨v, rfl, hv⟩ := hl.framed
  have hparted : Parted l (w ++ op :: u) := hl.parted.behind_operator hblank u
  refine ⟨hcolon, v ++ (w ++ op :: u), .binary l op e, r, key, ?_, ?_, hr, hlast⟩
  · simp only [List.append_assoc, List.cons_append, List.nil_append]
  · exact .binary (hv _ hparted) hunit hop hblank ⟨w, hw, rfl⟩ hspells

theorem UnitCut.cut {e : Expr} (hg : g.endStops) (h : UnitCut g e cs t rest)
    (hbehind : ∀ r, rest = r ++ t → Spells g e cs r → Cut g cs) : Cut g cs := by
  cases h with
  | accepted h hr => exact .accepted h hr
  | starves h => exact .hungry (h.hungry hg)
  | colon hkey hr => exact cut_of_colon hg hkey hr
  | behind hr h => exact hbehind _ hr h

theorem cut_of_unit {e : Expr} (hg : g.endStops) (h : Spells g e (cs ++ t) rest)
    (hunit : e.isBinary = false) (hrest : ∀ c ∈ rest, isBlank c) : Cut g cs := by
  refine (h.unitCut hg hunit).cut hg ?_
  rintro r rfl hspells
  exact .accepted hspells fun c hc => hrest c (List.mem_append_left t hc)

/-- Whatever fits up to the cut is accepted or in want of more, a single colon apart. -/
theorem cut_of_spells {e : Expr} {whole : List Char} (hg : g.endStops)
    (h : Spells g e whole rest) (hrest : ∀ c ∈ rest, isBlank c) (hwhole : whole = cs ++ t) :
    Cut g cs := by
  induction h generalizing cs with
  | literal ht hword =>
    subst hwhole
    exact cut_of_unit hg (.literal ht hword) rfl hrest
  | value hn hopen =>
    subst hwhole
    exact cut_of_unit hg (.value hn hopen) rfl hrest
  | call hn hopen hps =>
    subst hwhole
    exact cut_of_unit hg (.call hn hopen hps) rfl hrest
  | @binary l r op _ mid after rest hl hunit hop hblank hword hr _ ih =>
    subst hwhole
    refine (hl.unitCut hg hunit).cut hg ?_
    rintro v rfl hl'
    rcases hword.cut with hblanks | ⟨v', hv', hword'⟩
    · exact .accepted hl' hblanks
    cases ih hrest hv' with
    | accepted hr' hblanks =>
      exact .accepted (.binary hl' hunit hop hblank hword' hr') hblanks
    | hungry hhungry =>
      refine .hungry (hungry_of_right hg hl' hunit ?_ hop hblank hword' hhungry)
      intro n _ _ after' hcolons
      exact Spells.not_colons hword hblank hr (hcolons.append t)
    | colon hcolon => exact .colon (hcolon.right hl' hunit hop hblank hword')

end

end Interpolation.Expr
