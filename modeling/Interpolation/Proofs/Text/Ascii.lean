/-
  ASCII texts. Each of their characters takes one byte, so that their size in bytes is their length
  (`Ascii.utf8Size`). Digits in any base up to sixteen are ASCII, in either case.
-/
import Interpolation.Proofs.Text.Numeral
import Interpolation.Text.Utf8

namespace Interpolation.Text

/-- All characters are ASCII. -/
def Ascii (cs : List Char) : Prop := ∀ c ∈ cs, c.toNat < 128

instance (cs : List Char) : Decidable (Ascii cs) := List.decidableBAll _ cs

theorem Ascii.append {cs ds : List Char} (hc : Ascii cs) (hd : Ascii ds) : Ascii (cs ++ ds) :=
  List.forall_mem_append.2 ⟨hc, hd⟩

theorem Ascii.utf8Size {cs : List Char} (h : Ascii cs) : utf8Size cs = cs.length := by
  induction cs with
  | nil => rfl
  | cons c cs ih =>
    obtain ⟨hc, hcs⟩ := List.forall_mem_cons.1 h
    have hsize : c.utf8Size = 1 := Char.utf8Size_eq_one_iff.2 (Nat.le_of_lt_succ hc)
    rw [utf8Size_cons, hsize, ih hcs, List.length_cons, Nat.add_comm]

theorem ascii_of_isAsciiDigit {c : Char} (h : isAsciiDigit c) : c.toNat < 128 := by
  unfold isAsciiDigit at h
  simp only [Bool.and_eq_true, decide_eq_true_eq] at h
  have hle : c.toNat ≤ 0x39 := h.2
  omega

/-- A character may be ruled out by trying those that are ASCII. -/
theorem forall_ascii {P : Char → Prop} (h : ∀ n < 128, P (Char.ofNat n)) {c : Char}
    (hc : c.toNat < 128) : P c := by
  have hp := h c.toNat hc
  rwa [Char.ofNat_toNat] at hp

theorem Ascii.map_toUpper {cs : List Char} (h : Ascii cs) : Ascii (cs.map Char.toUpper) :=
  List.forall_mem_map.2 fun c hc =>
    forall_ascii (P := fun c => c.toUpper.toNat < 128) (by decide) (h c hc)

theorem ascii_toDigits {b : Nat} (hb : 1 < b) (hle : b ≤ 16) (n : Nat) :
    Ascii (Nat.toDigits b n) := by
  have hall : ∀ d < 16, (Nat.digitChar d).toNat < 128 := by decide
  exact forall_mem_toDigits hb (fun d hd => hall d (Nat.lt_of_lt_of_le hd hle)) n

end Interpolation.Text
