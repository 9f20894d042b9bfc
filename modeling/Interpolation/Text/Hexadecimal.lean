/-
  Hexadecimal digits, in either case, and numbers of a fixed count of them.
-/
import Interpolation.Text.Numeral

namespace Interpolation.Text

/-- The value of a hexadecimal digit. -/
def hexValue? (c : Char) : Option Nat :=
  if isAsciiDigit c then some (digitValue c)
  else if 'a' ≤ c ∧ c ≤ 'f' then some (c.toNat - 'a'.toNat + 10)
  else if 'A' ≤ c ∧ c ≤ 'F' then some (c.toNat - 'A'.toNat + 10)
  else none

/-- The number that `count` digits behind those of `value` spell, and what follows them. -/
def hexNumber? : Nat → Nat → List Char → Option (Nat × List Char)
  | 0, value, cs => some (value, cs)
  | _ + 1, _, [] => none
  | count + 1, value, c :: cs =>
    (hexValue? c).bind fun d => hexNumber? count (16 * value + d) cs

theorem length_hexNumber? {count value n : Nat} {cs rest : List Char}
    (h : hexNumber? count value cs = some (n, rest)) : rest.length + count = cs.length := by
  induction count generalizing value cs with
  | zero =>
    cases h
    rfl
  | succ count ih =>
    cases cs with
    | nil => cases h
    | cons c cs =>
      obtain ⟨d, _, h⟩ := Option.bind_eq_some_iff.1 h
      have := ih h
      simp only [List.length_cons]
      omega

end Interpolation.Text
