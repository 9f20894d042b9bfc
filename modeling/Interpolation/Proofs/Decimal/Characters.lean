/-
  The characters of a decimal number. Laid out by positions it is made of digits and a point
  (`forall_mem_positional`), and with an exponent also of what the exponent is written with.
-/
import Interpolation.Decimal.Basic
import Interpolation.Proofs.Text.Numeral

namespace Interpolation.Decimal

open Text

variable {P : Char → Prop}

theorem forall_mem_digits (h : ∀ c, isAsciiDigit c → P c) (d : Decimal) : ∀ c ∈ d.digits, P c :=
  fun c hc => h c (isAsciiDigit_of_mem_toDigits hc)

theorem forall_mem_withPoint (hzero : P '0') (hpoint : P '.') (places : Nat) {ds : List Char}
    (h : ∀ c ∈ ds, P c) : ∀ c ∈ withPoint places ds, P c := by
  have hfilled := forall_mem_zeroFill hzero (places + 1) h
  have hwhole : ∀ c ∈ (zeroFill (places + 1) ds).take
      ((zeroFill (places + 1) ds).length - places), P c :=
    fun c hc => hfilled c (List.mem_of_mem_take hc)
  unfold withPoint
  dsimp only
  split
  · exact hwhole
  · refine List.forall_mem_append.2 ⟨hwhole, List.forall_mem_cons.2 ⟨hpoint, ?_⟩⟩
    exact fun c hc => hfilled c (List.mem_of_mem_drop hc)

theorem forall_mem_positional (h : ∀ c, isAsciiDigit c → P c) (hpoint : P '.') (d : Decimal) :
    ∀ c ∈ d.positional, P c := by
  have hzero : P '0' := h '0' (by decide)
  refine forall_mem_withPoint hzero hpoint _ (List.forall_mem_append.2 ⟨d.forall_mem_digits h, ?_⟩)
  exact fun _ hc => List.eq_of_mem_replicate hc ▸ hzero

theorem forall_mem_scientific (h : ∀ c, isAsciiDigit c → P c) (hpoint : P '.') (places : Nat)
    {write : Int → List Char} (hwrite : ∀ e, ∀ c ∈ write e, P c) (d : Decimal) :
    ∀ c ∈ d.scientific places write, P c :=
  List.forall_mem_append.2
    ⟨forall_mem_withPoint (h '0' (by decide)) hpoint places (d.forall_mem_digits h), hwrite _⟩

end Interpolation.Decimal
