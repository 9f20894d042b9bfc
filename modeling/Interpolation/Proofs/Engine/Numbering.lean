/-
  How arguments are numbered behind some parts: by the number of placeholders without an index, or
  by the indices that are written. Parts in one style choose their arguments (`choose_next`,
  `choose_written`), a placeholder in the other style is refused (`choose_mixed`).
-/
import Interpolation.Engine
import Interpolation.Proofs.Pattern.Spelling

namespace Interpolation

open Pattern

/-- How the placeholders among some parts chose their arguments. -/
def numberingAfter (parts : List Segment) : Numbering :=
  if parts.any Segment.isExplicit then .explicit
  else if implicits parts = 0 then .unused
  else .implicit (implicits parts)

theorem numberingAfter_explicit {ps : List Segment} {p : Segment} (hp : p ∈ ps)
    (he : p.isExplicit) : numberingAfter ps = .explicit :=
  if_pos (List.any_eq_true.2 ⟨p, hp, he⟩)

theorem numberingAfter_implicit {ps : List Segment} (h : ∀ p ∈ ps, p.isExplicit = false) :
    numberingAfter ps =
      if implicits ps = 0 then .unused else .implicit (implicits ps) := by
  have hany : ¬ ps.any Segment.isExplicit := by
    intro ha
    obtain ⟨p, hp, he⟩ := List.any_eq_true.1 ha
    rw [h p hp] at he
    cases he
  exact if_neg hany

/-- Text and expressions leave the numbering as it is. -/
theorem numberingAfter_concat {ps : List Segment} {p : Segment} (hi : p.isImplicit = false)
    (he : p.isExplicit = false) : numberingAfter (ps ++ [p]) = numberingAfter ps := by
  have hany : (ps ++ [p]).any Segment.isExplicit = ps.any Segment.isExplicit := by
    rw [List.any_append]
    simp [he]
  have himp : implicits (ps ++ [p]) = implicits ps := by
    have hp : implicits [p] = 0 := implicits_eq_zero (by simp [hi])
    rw [implicits_append, hp, Nat.add_zero]
  unfold numberingAfter
  rw [hany, himp]

theorem choose_next {ps : List Segment} {spec : Option String}
    (h : OneStyle (ps ++ [.argument none spec])) :
    (numberingAfter ps).choose none =
      .ok (implicits ps, numberingAfter (ps ++ [.argument none spec])) := by
  have hall := h.no_explicit (p := .argument none spec) (by simp) rfl
  have himp : implicits (ps ++ [.argument none spec]) = implicits ps + 1 := implicits_append ps _
  rw [numberingAfter_implicit hall, himp, if_neg (Nat.succ_ne_zero _),
    numberingAfter_implicit fun q hq => hall q (List.mem_append_left _ hq)]
  by_cases h0 : implicits ps = 0
  · rw [if_pos h0, h0]
    rfl
  · rw [if_neg h0]
    rfl

theorem choose_written {ps : List Segment} {ds : String} {spec : Option String} (i : Nat)
    (h : OneStyle (ps ++ [.argument (some ds) spec])) :
    (numberingAfter ps).choose (some i) =
      .ok (i, numberingAfter (ps ++ [.argument (some ds) spec])) := by
  have hall := h.no_implicit (p := .argument (some ds) spec) (by simp) rfl
  have h0 : implicits ps = 0 := implicits_eq_zero fun q hq => hall q (List.mem_append_left _ hq)
  have hafter : numberingAfter (ps ++ [.argument (some ds) spec]) = .explicit :=
    numberingAfter_explicit (p := .argument (some ds) spec) (by simp) rfl
  rw [hafter]
  unfold numberingAfter
  rw [if_pos h0]
  split <;> rfl

/-- A placeholder in the other style is refused. -/
theorem choose_mixed {ps : List Segment} {index spec : Option String} {read : Option Nat}
    (hread : read.isSome = index.isSome) (hps : OneStyle ps)
    (h : ¬ OneStyle (ps ++ [.argument index spec])) :
    (numberingAfter ps).choose read = .error .mixedIndexing := by
  have key : ∀ f : Segment → Bool, f (.argument index spec) = false →
      ¬ (∀ p ∈ ps ++ [.argument index spec], f p = false) → ∃ p ∈ ps, f p = true := by
    intro f hf hne
    refine Classical.byContradiction fun hno => hne fun p hp => ?_
    rcases List.mem_append.1 hp with hp | hp
    · exact Bool.eq_false_iff.2 fun ht => hno ⟨p, hp, ht⟩
    · rw [List.mem_singleton.1 hp]
      exact hf
  obtain ⟨hexplicit, himplicit⟩ := not_or.1 h
  cases index with
  | none =>
    obtain ⟨p, hp, he⟩ := key Segment.isExplicit rfl hexplicit
    obtain rfl : read = none := Option.not_isSome_iff_eq_none.1 (by simp [hread])
    rw [numberingAfter_explicit hp he]
    rfl
  | some ds =>
    obtain ⟨p, hp, hi⟩ := key Segment.isImplicit rfl himplicit
    obtain ⟨i, rfl⟩ := Option.isSome_iff_exists.1 hread
    have h0 : implicits ps ≠ 0 := fun h0 =>
      (List.countP_eq_zero.1 h0 p hp) hi
    rw [numberingAfter_implicit (hps.no_explicit hp hi), if_neg h0]
    rfl

end Interpolation
