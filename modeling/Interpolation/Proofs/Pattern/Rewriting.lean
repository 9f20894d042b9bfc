/-
  Patterns rewritten part by part. A rewriting is told how many placeholders without an index stand
  before a part, since that number is the index which such a placeholder stands for. What it keeps
  of every part it keeps of the pattern (`forall_mem_rewritten`).
-/
import Interpolation.Proofs.Pattern.Spelling
import Interpolation.Proofs.Text.Numeral

namespace Interpolation

open Text

theorem nul_not_mem_decimal (i : Nat) : '\x00' ∉ (decimal i).toList := by
  unfold decimal
  rw [String.toList_ofList]
  intro h
  exact absurd (isAsciiDigit_of_mem_toDigits h) (by decide)

namespace Pattern

theorem Segment.isIndex_decimal (i : Nat) : IsIndex (decimal i) := by
  unfold IsIndex decimal
  rw [String.toList_ofList]
  exact ⟨Nat.toDigits_ne_nil, fun _ => isAsciiDigit_of_mem_toDigits⟩

theorem nul_not_mem_spell_iff {parts : List Segment} :
    '\x00' ∉ spell parts ↔ ∀ p ∈ parts, '\x00' ∉ p.spelling := by
  unfold spell
  rw [List.mem_flatMap]
  simp

theorem readable_ofList {cs : List Char} (h : '\x00' ∉ cs) : readable (String.ofList cs) = cs := by
  rw [readable_eq_toList, String.toList_ofList]
  rwa [String.toList_ofList]

/-- The rewritten parts of a pattern, with `k` placeholders without an index before them. -/
def rewritten (f : Nat → Segment → Segment) : Nat → List Segment → List Segment
  | _, [] => []
  | k, p :: ps => f k p :: rewritten f (k + implicits [p]) ps

theorem forall_mem_rewritten {f : Nat → Segment → Segment} {P Q : Segment → Prop}
    (hf : ∀ k p, P p → Q (f k p)) {parts : List Segment} (k : Nat) (h : ∀ p ∈ parts, P p) :
    ∀ p ∈ rewritten f k parts, Q p := by
  induction parts generalizing k with
  | nil => simp [rewritten]
  | cons p ps ih =>
    obtain ⟨hp, hps⟩ := List.forall_mem_cons.1 h
    exact List.forall_mem_cons.2 ⟨hf k p hp, ih _ hps⟩

theorem nul_not_mem_rewritten {f : Nat → Segment → Segment}
    (hf : ∀ k p, '\x00' ∉ p.spelling → '\x00' ∉ (f k p).spelling) {parts : List Segment} (k : Nat)
    (h : '\x00' ∉ spell parts) : '\x00' ∉ spell (rewritten f k parts) :=
  nul_not_mem_spell_iff.2 (forall_mem_rewritten hf k (nul_not_mem_spell_iff.1 h))

end Pattern

end Interpolation
