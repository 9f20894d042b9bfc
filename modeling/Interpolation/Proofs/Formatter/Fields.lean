/-
  Numbers of specs. A number is read as a word that is small enough. The digits of a width and of a
  precision are cut off from a spec without a sign in front of them, so they are read exactly if
  they are ASCII digits of a number that a spec may ask for (`fieldNumber_eq_ok_iff`); a length is
  all that is left of a spec, so there may be a plus sign (`fieldNumber_eq_ok_iff_signed`).
-/
import Interpolation.Formatter.Basic
import Interpolation.Proofs.Text.Numeral

namespace Interpolation.Formatter

open Text

/-- ASCII digits of a number that a spec may ask for; none stand for zero. -/
def IsField (ds : List Char) : Prop := (∀ c ∈ ds, isAsciiDigit c) ∧ digitsValue ds ≤ 65535

-- the digits are tried, not all characters there are
instance : DecidablePred IsField := fun ds =>
  have : Decidable (∀ c ∈ ds, isAsciiDigit c) := List.decidableBAll _ ds
  inferInstanceAs (Decidable (_ ∧ _))

theorem fieldNumber_eq_ok_iff_readWord {what : String} {cs : List Char} {n : Nat} :
    fieldNumber what cs = .ok n ↔ readWord cs = .ok n ∧ n ≤ maxField := by
  unfold fieldNumber
  constructor
  · intro h
    split at h
    · cases h
    · next m hm =>
      split at h
      · next hle =>
        cases h
        exact ⟨hm, hle⟩
      · cases h
  · rintro ⟨hread, hle⟩
    rw [hread]
    exact if_pos hle

theorem fieldNumber_eq_ok_iff {what : String} {ds : List Char} {n : Nat} (hne : ds ≠ [])
    (hplus : ds.head? ≠ some '+') :
    fieldNumber what ds = .ok n ↔ IsField ds ∧ n = digitsValue ds := by
  rw [fieldNumber_eq_ok_iff_readWord, readWord_eq_ok_iff hplus]
  constructor
  · rintro ⟨⟨-, hds, rfl, -⟩, hle⟩
    exact ⟨⟨hds, hle⟩, rfl⟩
  · rintro ⟨⟨hds, hle⟩, rfl⟩
    exact ⟨⟨hne, hds, rfl, Nat.le_trans hle (by decide)⟩, hle⟩

/-- The sign in front of a number, if it has one. -/
def plusSign (plus : Bool) : List Char := if plus then ['+'] else []

theorem head?_ne_plus_of_isField {ds : List Char} (h : IsField ds) : ds.head? ≠ some '+' := by
  intro hplus
  have hdigit : isAsciiDigit '+' := h.1 '+' (List.mem_of_mem_head? hplus)
  exact absurd hdigit (by decide)

/-- A number of a spec is read from digits, with a plus sign in front of them or without. -/
theorem fieldNumber_eq_ok_iff_signed {what : String} {cs : List Char} {n : Nat} :
    fieldNumber what cs = .ok n ↔
      ∃ plus ds, cs = plusSign plus ++ ds ∧ ds ≠ [] ∧ IsField ds ∧ n = digitsValue ds := by
  constructor
  · intro h
    have hne : cs ≠ [] := by
      rintro rfl
      cases h
    by_cases hplus : cs.head? = some '+'
    · obtain ⟨ds, rfl⟩ := List.head?_eq_some_iff.1 hplus
      obtain ⟨hread, hle⟩ := fieldNumber_eq_ok_iff_readWord.1 h
      obtain ⟨hhead, hread⟩ := readWord_plus.1 hread
      have hne : ds ≠ [] := by
        rintro rfl
        cases hread
      have hfield : fieldNumber what ds = .ok n :=
        fieldNumber_eq_ok_iff_readWord.2 ⟨hread, hle⟩
      exact ⟨true, ds, rfl, hne, (fieldNumber_eq_ok_iff hne hhead).1 hfield⟩
    · exact ⟨false, cs, rfl, hne, (fieldNumber_eq_ok_iff hne hplus).1 h⟩
  · rintro ⟨plus, ds, rfl, hne, hds, hn⟩
    have hhead := head?_ne_plus_of_isField hds
    have hfield : fieldNumber what ds = .ok n := (fieldNumber_eq_ok_iff hne hhead).2 ⟨hds, hn⟩
    cases plus with
    | false => exact hfield
    | true =>
      obtain ⟨hread, hle⟩ := fieldNumber_eq_ok_iff_readWord.1 hfield
      exact fieldNumber_eq_ok_iff_readWord.2 ⟨readWord_plus.2 ⟨hhead, hread⟩, hle⟩

end Interpolation.Formatter
