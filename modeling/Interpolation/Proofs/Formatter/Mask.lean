/-
  The grammar of masks. A spec of the mask formatter is nothing, a mask, or a mask with a length
  behind it, in digits and perhaps with a plus sign in front of them; every other spec is refused.
  What an accepted spec makes of a value is the mask over and over: as often as the length says,
  or, if that is zero or not given, once for every character of the value's text.
-/
import Interpolation.Formatter.Mask
import Interpolation.Proofs.Formatter.Fields

namespace Interpolation.Formatter

open Text

/-- The forms of a spec. -/
inductive MaskSpec where
  | nothing
  | unsized (mask : Char)
  | sized (mask : Char) (plus : Bool) (digits : List Char)
deriving DecidableEq, Repr

namespace MaskSpec

def spelling : MaskSpec → List Char
  | nothing => []
  | unsized mask => [mask]
  | sized mask plus digits => mask :: (plusSign plus ++ digits)

/-- A length is at least one digit, of a number that a spec may ask for. -/
def WellFormed : MaskSpec → Prop
  | nothing | unsized _ => True
  | sized _ _ digits => digits ≠ [] ∧ IsField digits

instance : DecidablePred WellFormed
  | nothing | unsized _ => inferInstanceAs (Decidable True)
  | sized _ _ _ => inferInstanceAs (Decidable (_ ∧ _))

def mask : MaskSpec → Char
  | nothing => '*'
  | unsized mask | sized mask _ _ => mask

/-- The length that is given, or zero. -/
def length : MaskSpec → Nat
  | nothing | unsized _ => 0
  | sized _ _ digits => digitsValue digits

/-- How often the mask is shown in place of a value. -/
def count (p : MaskSpec) (v : Value) : Nat :=
  if 1 ≤ p.length then p.length else v.text.toList.length

/-- The settings that show a spec's mask as often as the spec says. -/
def settings (p : MaskSpec) : MaskSettings where
  mask := p.mask
  length := if p.length = 0 then none else some p.length

end MaskSpec

namespace MaskSettings

variable {spec : String}

theorem readLength_cons {c : Char} {cs : List Char} :
    readLength (c :: cs) =
      (fieldNumber "length" (c :: cs)).map fun n => if n = 0 then none else some n := by
  show (fieldNumber "length" (c :: cs) >>= fun n => pure (if n = 0 then none else some n)) = _
  cases fieldNumber "length" (c :: cs) <;> rfl

theorem configure_of_wellFormed {p : MaskSpec} (settings : MaskSettings) (h : p.WellFormed)
    (hspelling : p.spelling = spec.toList) :
    settings.configure spec = (p.settings, .ok ()) := by
  unfold configure
  rw [← hspelling]
  cases p with
  | nothing => rfl
  | unsized mask => rfl
  | sized mask plus digits =>
    obtain ⟨hne, hfield⟩ := h
    have hnumber : fieldNumber "length" (plusSign plus ++ digits) = .ok (digitsValue digits) :=
      fieldNumber_eq_ok_iff_signed.2 ⟨plus, digits, rfl, hne, hfield, rfl⟩
    have hne' : plusSign plus ++ digits ≠ [] := List.append_ne_nil_of_right_ne_nil _ hne
    obtain ⟨c, cs, hcons⟩ := List.exists_cons_of_ne_nil hne'
    have hlength : readLength (plusSign plus ++ digits) =
        .ok (if digitsValue digits = 0 then none else some (digitsValue digits)) := by
      rw [hcons] at hnumber ⊢
      rw [readLength_cons, hnumber]
      rfl
    dsimp only [MaskSpec.spelling]
    rw [hlength]
    rfl

/-- A spec that is written in none of the forms is refused. -/
theorem exists_wellFormed_or_refused (settings : MaskSettings) (spec : String) :
    (∃ p : MaskSpec, p.WellFormed ∧ p.spelling = spec.toList) ∨
      ∃ reason, (settings.configure spec).2 = .error (.formatterSpec spec reason) := by
  unfold configure
  match spec.toList with
  | [] => exact .inl ⟨.nothing, trivial, rfl⟩
  | [c] => exact .inl ⟨.unsized c, trivial, rfl⟩
  | c :: d :: ds =>
    dsimp only
    rw [readLength_cons]
    cases hnumber : fieldNumber "length" (d :: ds) with
    | error reason => exact .inr ⟨reason, rfl⟩
    | ok n =>
      obtain ⟨plus, digits, hcons, hne, hfield, -⟩ := fieldNumber_eq_ok_iff_signed.1 hnumber
      refine .inl ⟨.sized c plus digits, ⟨hne, hfield⟩, ?_⟩
      rw [hcons]
      rfl

theorem render_settings (p : MaskSpec) (v : Value) :
    p.settings.render v = String.ofList (List.replicate (p.count v) p.mask) := by
  unfold render MaskSpec.settings MaskSpec.count
  by_cases hzero : p.length = 0
  · rw [if_pos hzero, if_neg (by omega)]
    rfl
  · rw [if_neg hzero, if_pos (by omega)]
    rfl

/-- Whatever the settings before, a spec is accepted exactly if it is nothing, a mask, or a mask
with a length, and refused otherwise; an accepted one shows its mask as often as its length says,
or as often as the value's text has characters if the length is zero or not given. -/
theorem configure_forms (settings : MaskSettings) (spec : String) :
    ((settings.configure spec).2 = .ok () ↔
      ∃ p : MaskSpec, p.WellFormed ∧ p.spelling = spec.toList) ∧
    ((¬ ∃ p : MaskSpec, p.WellFormed ∧ p.spelling = spec.toList) →
      ∃ reason, (settings.configure spec).2 = .error (.formatterSpec spec reason)) ∧
    ∀ p : MaskSpec, p.WellFormed → p.spelling = spec.toList → ∀ v,
      (settings.configure spec).1.render v =
        String.ofList (List.replicate (p.count v) p.mask) := by
  have hcases := exists_wellFormed_or_refused settings spec
  refine ⟨⟨fun haccepted => ?_, ?_⟩, fun hnone => ?_, fun p hp hspelling v => ?_⟩
  · rcases hcases with hwritten | ⟨reason, hrefused⟩
    · exact hwritten
    · rw [hrefused] at haccepted
      cases haccepted
  · rintro ⟨p, hp, hspelling⟩
    rw [configure_of_wellFormed settings hp hspelling]
  · exact hcases.resolve_left hnone
  · rw [configure_of_wellFormed settings hp hspelling]
    exact render_settings p v

/-- A digit or a plus sign may be the mask, a length of zero counts as none, and a sign needs
digits behind it. -/
theorem configure_forms_signs :
    let settings : MaskSettings := { mask := '#', length := some 3 }
    let p : MaskSpec := .sized '+' true ['0', '2']
    let q : MaskSpec := .sized '7' false ['0', '0']
    (p.WellFormed ∧ p.spelling = "++02".toList ∧ ∀ v, p.count v = 2) ∧
      (∀ v, (settings.configure "++02").1.render v = "++") ∧
      (q.WellFormed ∧ q.spelling = "700".toList) ∧
      (settings.configure "700").1.render (.str "a\u00e9\u5bc6") = "777" ∧
      (¬ ∃ r : MaskSpec, r.WellFormed ∧ r.spelling = "x+".toList) ∧
      ∃ reason, (settings.configure "x+").2 = .error (.formatterSpec "x+" reason) := by
  intro settings p q
  have hp : p.WellFormed := by decide
  have hq : q.WellFormed := by decide
  obtain ⟨-, -, hshown⟩ := configure_forms settings "++02"
  obtain ⟨-, -, hshown'⟩ := configure_forms settings "700"
  obtain ⟨haccepted, hrefused, -⟩ := configure_forms settings "x+"
  have hnone : ¬ ∃ r : MaskSpec, r.WellFormed ∧ r.spelling = "x+".toList := by
    rw [← haccepted]
    exact nofun
  have hzeros : (settings.configure "700").1.render (.str "a\u00e9\u5bc6") = "777" :=
    hshown' q hq (by decide) _
  exact ⟨⟨hp, by decide, fun _ => rfl⟩, hshown p hp (by decide), ⟨hq, by decide⟩, hzeros, hnone,
    hrefused hnone⟩

end MaskSettings

end Interpolation.Formatter
