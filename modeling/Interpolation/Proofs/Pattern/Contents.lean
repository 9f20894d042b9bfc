/-
  What the segments of a pattern hold. Where a pattern is made of parts, its segments have the same
  placeholders and expressions in the same order (`filter_contents`); only text may be cut in other
  places. A pattern that is refused is refused by its tokens, so the error says where the byte is
  that cannot stand there (`segments_refused`).
-/
import Interpolation.Proofs.Pattern.Spelling
import Interpolation.Proofs.Pattern.Stream

namespace Interpolation.Pattern

open Text

/-- The segments of a pattern, up to where it is broken off or refused. -/
def contents (pattern : String) : List Segment := (segments pattern).1

/-- A placeholder of the pattern takes the next argument. -/
def HasImplicit (pattern : String) : Prop := ∃ p ∈ contents pattern, p.isImplicit

/-- A placeholder of the pattern has an index of its own. -/
def HasExplicit (pattern : String) : Prop := ∃ p ∈ contents pattern, p.isExplicit

instance (pattern : String) : Decidable (HasImplicit pattern) :=
  inferInstanceAs (Decidable (∃ p ∈ contents pattern, p.isImplicit))

instance (pattern : String) : Decidable (HasExplicit pattern) :=
  inferInstanceAs (Decidable (∃ p ∈ contents pattern, p.isExplicit))

/-! ## Placeholders and expressions -/

section
variable {f : Segment → Bool}

theorem filter_textAhead (hf : ∀ text, f (.literal text) = false) (t : List Char)
    (r : List Segment × Ending) : (textAhead t r).1.filter f = r.1.filter f := by
  unfold textAhead
  split
  · rfl
  · exact List.filter_cons_of_neg (by simp [hf])

theorem filter_ahead (p : Segment) {r : List Segment × Ending} {ps : List Segment}
    (h : r.1.filter f = ps.filter f) : (ahead p r).1.filter f = (p :: ps).filter f := by
  show (p :: r.1).filter f = _
  rw [List.filter_cons, List.filter_cons, h]

theorem filter_scan (hf : ∀ text, f (.literal text) = false) {parts : List Segment}
    (hw : ∀ p ∈ parts, p.WellFormed) (hn : '\x00' ∉ spell parts) (offset : Nat) :
    (scan offset (spell parts)).1.filter f = parts.filter f := by
  induction parts generalizing offset with
  | nil =>
    show (scan offset []).1.filter f = _
    rw [scan_nil]
  | cons p ps ih =>
    rw [spell_cons] at hn ⊢
    have hp := hw p List.mem_cons_self
    have hnp : '\x00' ∉ p.spelling := fun hm => hn (List.mem_append_left _ hm)
    have hnps : '\x00' ∉ spell ps := fun hm => hn (List.mem_append_right _ hm)
    have ih := ih (fun q hq => hw q (List.mem_cons_of_mem p hq)) hnps
    cases p with
    | literal t =>
      obtain ⟨u, r, hboth, hbehind⟩ :=
        scan_text offset (forall_staysOn State.staysOn_literal hp hnp) hnps
      have ih := ih (offset + utf8Size t.toList)
      rw [hbehind, filter_textAhead hf] at ih
      rw [List.filter_cons_of_neg (by simp [hf]), ← ih]
      exact (congrArg (·.1.filter f) hboth).trans (filter_textAhead hf _ r)
    | argument index spec =>
      rw [scan_argument hp hnp]
      exact filter_ahead _ (ih _)
    | expression body =>
      rw [scan_expression hp hnp]
      exact filter_ahead _ (ih _)

variable {pattern : String} {parts : List Segment}

/-- All but the text of a pattern is the same in its segments as in any parts it is made of. -/
theorem filter_contents (hf : ∀ text, f (.literal text) = false)
    (hsplit : readable pattern = spell parts) (hw : ∀ p ∈ parts, p.WellFormed) :
    (contents pattern).filter f = parts.filter f := by
  have hn := nul_not_mem_readable pattern
  unfold contents
  rw [segments_eq_readable]
  rw [hsplit] at hn ⊢
  exact filter_scan hf hw hn 0

theorem exists_contents_iff (hf : ∀ text, f (.literal text) = false)
    (hsplit : readable pattern = spell parts) (hw : ∀ p ∈ parts, p.WellFormed) :
    (∃ p ∈ contents pattern, f p) ↔ ∃ p ∈ parts, f p := by
  have hfilter : ∀ ps : List Segment, (∃ p ∈ ps, f p) ↔ ∃ p, p ∈ ps.filter f := by
    intro ps
    simp only [List.mem_filter]
  rw [hfilter, hfilter, filter_contents hf hsplit hw]

theorem not_hasImplicit_iff (hsplit : readable pattern = spell parts)
    (hw : ∀ p ∈ parts, p.WellFormed) :
    ¬ HasImplicit pattern ↔ ∀ p ∈ parts, p.isImplicit = false := by
  unfold HasImplicit
  rw [exists_contents_iff (fun _ => rfl) hsplit hw]
  simp

theorem not_hasExplicit_iff (hsplit : readable pattern = spell parts)
    (hw : ∀ p ∈ parts, p.WellFormed) :
    ¬ HasExplicit pattern ↔ ∀ p ∈ parts, p.isExplicit = false := by
  unfold HasExplicit
  rw [exists_contents_iff (fun _ => rfl) hsplit hw]
  simp

theorem expression_mem_contents_iff {body : String} (hsplit : readable pattern = spell parts)
    (hw : ∀ p ∈ parts, p.WellFormed) :
    .expression body ∈ contents pattern ↔ .expression body ∈ parts := by
  have h := exists_contents_iff (f := (decide <| · = .expression body)) (by simp) hsplit hw
  simpa using h

theorem implicits_contents (hsplit : readable pattern = spell parts)
    (hw : ∀ p ∈ parts, p.WellFormed) : implicits (contents pattern) = implicits parts := by
  unfold implicits
  rw [List.countP_eq_length_filter, List.countP_eq_length_filter,
    filter_contents (fun _ => rfl) hsplit hw]

end

/-! ## Refused patterns -/

theorem group_refused {s : State} {index : Option String} {items : List (Except Error Token)}
    {e : Error} (h : (group s index items).2 = .refused e) : .error e ∈ items := by
  induction items generalizing s index with
  | nil => cases h
  | cons item items ih =>
    cases item with
    | error e' =>
      cases h
      exact List.mem_cons_self
    | ok t =>
      unfold group at h
      dsimp only at h
      split at h
      · cases h
      · split at h
        · cases h
        · exact List.mem_cons_of_mem _ (ih h)

theorem segments_refused {pattern : String} {e : Error}
    (h : (segments pattern).2 = .refused e) : ∃ position, e = .invalidPattern position "" := by
  obtain ⟨ts, last, l', hdrain, hrun⟩ := Lexer.exists_run_drain (Lexer.ofPattern pattern)
  have hmem : .error e ∈ Lexer.items ts last := hdrain ▸ group_refused h
  have hlast : last = .error e := by
    rcases List.mem_append.1 hmem with hts | hlast
    · obtain ⟨t, -, ht⟩ := List.mem_map.1 hts
      cases ht
    · exact (List.mem_singleton.1 hlast).symm
  rcases hrun.ending with ⟨t, rfl, -⟩ | ⟨position, rfl⟩
  · cases hlast
  · cases hlast
    exact ⟨position, rfl⟩

end Interpolation.Pattern
