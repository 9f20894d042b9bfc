/-
  Integers in JSON. The decimal text of an integer that fits a signed or an unsigned word is read as
  this integer, not as a float (`parse?_decimalInt`): all its digits are gathered into the
  significand, and there is neither a point nor an exponent.
-/
import Interpolation.Json.Reader
import Interpolation.Proofs.Text.Numeral
import Interpolation.Proofs.Text.Runs

namespace Interpolation.Json

open Text

namespace NumberText

theorem digits?_digits {ds : List Char} (hne : ds ≠ []) (hds : ∀ c ∈ ds, isAsciiDigit c) :
    digits? ds = some (ds, []) := by
  have htake := takeWhile_run hds (ends_nil isAsciiDigit)
  have hdrop := dropWhile_run hds (ends_nil isAsciiDigit)
  rw [List.append_nil] at htake hdrop
  unfold digits?
  rw [htake, hdrop]
  split
  · exact absurd rfl hne
  · rfl

/-- All digits are taken if the number they make up fits a word. -/
theorem gather_digits {ds : List Char} {n : Nat} (hle : Nat.ofDigitChars 10 ds n ≤ maxUnsigned) :
    gather n ds = (Nat.ofDigitChars 10 ds n, 0) := by
  induction ds generalizing n with
  | nil => rw [gather, Nat.ofDigitChars_nil]
  | cons d ds ih =>
    rw [Nat.ofDigitChars_cons] at hle ⊢
    have hstep : 10 * n + digitValue d ≤ maxUnsigned :=
      Nat.le_trans (le_ofDigitChars ds _) hle
    rw [gather, if_pos hstep]
    exact ih hle

/-- The digits of a number are read as such; only those of zero begin with a zero. -/
theorem readMagnitude_toDigits (negative : Bool) (n : Nat) :
    readMagnitude negative (Nat.toDigits 10 n) =
      some ({ negative, whole := Nat.toDigits 10 n }, []) := by
  have hlead : ¬ ((Nat.toDigits 10 n).head? = some '0' ∧ Nat.toDigits 10 n ≠ ['0']) := by
    rintro ⟨hhead, hne⟩
    refine head?_toDigits ?_ hhead
    rintro rfl
    exact hne rfl
  unfold readMagnitude
  rw [digits?_digits Nat.toDigits_ne_nil fun _ => isAsciiDigit_of_mem_toDigits]
  exact if_neg hlead

theorem read?_decimalInt (n : Int) :
    read? (decimalInt n).toList =
      some ({ negative := n < 0, whole := Nat.toDigits 10 n.natAbs }, []) := by
  rw [toList_decimalInt]
  split
  · next hneg =>
    rw [decide_eq_true hneg]
    exact readMagnitude_toDigits true n.natAbs
  · next hnonneg =>
    rw [decide_eq_false hnonneg, List.nil_append, read?]
    · exact readMagnitude_toDigits false n.natAbs
    · intro cs heq
      have hminus : isAsciiDigit '-' :=
        isAsciiDigit_of_mem_toDigits (n := n.natAbs) (heq ▸ List.mem_cons_self)
      cases hminus

theorem value?_integer {n : Int} (hn : FitsWord n) :
    value? { negative := n < 0, whole := Nat.toDigits 10 n.natAbs } = some (.integer n) := by
  obtain ⟨hlow, hhigh⟩ := hn
  have hunsigned : maxUnsigned = 18446744073709551615 := rfl
  have hsigned : maxSigned = 9223372036854775807 := rfl
  have hvalue : Nat.ofDigitChars 10 (Nat.toDigits 10 n.natAbs) 0 = n.natAbs :=
    digitsValue_toDigits n.natAbs
  have hgather : gather 0 (Nat.toDigits 10 n.natAbs) = (n.natAbs, 0) := by
    rw [gather_digits (by omega), hvalue]
  unfold value?
  dsimp only
  rw [hgather]
  dsimp only
  by_cases hneg : n < 0
  · rw [decide_eq_true hneg, if_pos ⟨rfl, rfl, rfl, .inr ⟨by omega, by omega⟩⟩, if_pos rfl]
    exact congrArg (some ∘ integer) (by omega)
  · rw [decide_eq_false hneg, if_pos ⟨rfl, rfl, rfl, .inl rfl⟩, if_neg Bool.false_ne_true]
    exact congrArg (some ∘ integer) (by omega)

end NumberText

/-- The characters that a number cannot begin with: other values and spaces do. -/
def otherStarts : List Char := ['"', 'n', 't', 'f', '[', '\x7b', ' ', '\n', '\t', '\r']

section
variable {c : Char} {cs rest : List Char} {n : NumberText} {v : Json} (hstart : c ∉ otherStarts)
  (hread : NumberText.read? (c :: cs) = some (n, rest)) (hvalue : n.value? = some v)
include hstart hread hvalue

theorem scalar_number : scalar (c :: cs) = some (v, rest) := by
  rw [scalar, hread]
  · show n.value?.bind (fun v => some (v, rest)) = _
    rw [hvalue]
    rfl
  all_goals
    intro _ heq
    cases heq
    exact absurd (by decide) hstart

theorem value_number (depth : Nat) : value (depth + 1) (c :: cs) = some (v, rest) := by
  have hskip : skipSpaces (c :: cs) = c :: cs := by
    refine List.dropWhile_cons_of_neg fun hspace => hstart ?_
    simp only [isSpace, Bool.or_eq_true, beq_iff_eq] at hspace
    rcases hspace with ((rfl | rfl) | rfl) | rfl <;> decide
  rw [value, hskip]
  split
  · next heq =>
    cases heq
    exact absurd (by decide) hstart
  · next heq =>
    cases heq
    exact absurd (by decide) hstart
  · exact scalar_number hstart hread hvalue

end

/-- An integer that fits a word is read from its decimal text. -/
theorem parse?_decimalInt {n : Int} (hn : FitsWord n) :
    parse? (decimalInt n) = some (.integer n) := by
  have hstart : ∀ c ∈ (decimalInt n).toList, c ∉ otherStarts := by
    have hdigit : otherStarts.all (!isAsciiDigit ·) := by decide
    refine forall_mem_decimalInt (fun c hc hmem => ?_) (by decide) n
    simpa [hc] using List.all_eq_true.1 hdigit c hmem
  have hvalue : value maxDepth (decimalInt n).toList = some (.integer n, []) := by
    have hread := NumberText.read?_decimalInt n
    obtain ⟨c, cs, hcons⟩ := List.exists_cons_of_ne_nil (decimalInt_ne_nil n)
    rw [hcons] at hstart hread ⊢
    exact value_number (hstart c List.mem_cons_self) hread (NumberText.value?_integer hn) 126
  unfold parse?
  rw [hvalue]
  rfl

end Interpolation.Json
