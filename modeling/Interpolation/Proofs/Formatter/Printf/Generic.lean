/-
  Verbs and the values they are made for (`Verb.AppliesTo`). A value that the verb does not apply
  to is shown as the generic verb shows it (`render_of_not_appliesTo`), and without flags, width
  and precision this is the text of the value (`render_unset`).

  The verb stays in the settings when it does not apply, and the text of a float depends on it;
  but the verbs that change this text apply to every float, so none of them is left there.
-/
import Interpolation.Formatter.Printf.Rendering

namespace Interpolation

open Text

namespace Value

/-- The integer that a value is. -/
def integer? : Value → Option Int
  | int n => some n.toInt
  | uint n => some n.toNat
  | _ => none

/-- An integer or a float. -/
def IsNumber : Value → Prop
  | int _ | uint _ | float _ => True
  | _ => False

theorem isNumber_iff {v : Value} : v.IsNumber ↔ v.asFloat?.isSome := by
  cases v <;> simp [IsNumber, asFloat?]

/-- A signed word is the integer that it was made from, if that is not too large. -/
theorem asInt?_uint {n : UInt64} {i : Int64} (h : (uint n).asInt? = some i) :
    i.toInt = n.toNat := by
  replace h : (if n.toNat ≤ maxSigned then some (Int64.ofNat n.toNat) else none) = some i := h
  split at h
  · next hle =>
    cases h
    exact Int64.toInt_ofNat_of_lt (Nat.lt_of_le_of_lt hle (by decide))
  · cases h

end Value

namespace Formatter.Printf

/-- The verb is made for the value. -/
inductive Verb.AppliesTo : Verb → Value → Prop
  | generic (v : Value) : AppliesTo generic v
  | text (v : Value) : AppliesTo text v
  | quoted (v : Value) : AppliesTo quoted v
  | integer (radix : Radix) {v : Value} (h : v.isInteger) : AppliesTo (integer radix) v
  | bytes (upper : Bool) (t : String) : AppliesTo (integer (.hexadecimal upper)) (.str t)
  | fixed (upper : Bool) {v : Value} (h : v.IsNumber) : AppliesTo (fixed upper) v
  | scientific (upper : Bool) {v : Value} (h : v.IsNumber) : AppliesTo (scientific upper) v
  | truth (b : Bool) : AppliesTo truth (.bool b)
  | character (c : Char) {v : Value} (h : v.integer? = some (c.toNat : Int)) :
      AppliesTo character v

/-! ## Where a verb applies -/

theorem Verb.not_appliesTo_float {verb : Verb} {x : Binary64} (h : ¬ verb.AppliesTo (.float x)) :
    (∀ upper, verb ≠ .fixed upper) ∧ ∀ upper, verb ≠ .scientific upper := by
  constructor
  · rintro upper rfl
    exact h (.fixed upper trivial)
  · rintro upper rfl
    exact h (.scientific upper trivial)

theorem toNat_ofNat_of_isValidChar {n : Nat} (h : n.isValidChar) : (Char.ofNat n).toNat = n := by
  rw [Char.ofNat, dif_pos h]
  rfl

/-- The verb for characters takes the integers that are code points. -/
theorem characterOf?_eq_some_iff {v : Value} {c : Char} :
    characterOf? v = some c ↔ v.integer? = some (c.toNat : Int) := by
  have hcode {n : Int} : (if 0 ≤ n ∧ n.toNat.isValidChar then some (Char.ofNat n.toNat) else none) =
      some c ↔ n = c.toNat := by
    constructor
    · intro h
      split at h
      · next hn =>
        cases h
        rw [toNat_ofNat_of_isValidChar hn.2, Int.toNat_of_nonneg hn.1]
      · cases h
    · rintro rfl
      have hvalid : c.toNat.isValidChar := c.valid
      rw [Int.toNat_natCast, if_pos ⟨Int.natCast_nonneg _, hvalid⟩, Char.ofNat_toNat]
  have hc : c.toNat ≤ maxSigned := by
    have hvalid : c.toNat.isValidChar := c.valid
    have : maxSigned = 9223372036854775807 := rfl
    omega
  cases v with
  | int n =>
    show (if 0 ≤ n.toInt ∧ n.toInt.toNat.isValidChar then some (Char.ofNat n.toInt.toNat)
      else none) = some c ↔ some n.toInt = some _
    rw [hcode, Option.some_inj]
  | uint n =>
    show (Value.asInt? (.uint n)).bind (fun i =>
      if 0 ≤ i.toInt ∧ i.toInt.toNat.isValidChar then some (Char.ofNat i.toInt.toNat)
      else none) = some c ↔ some (n.toNat : Int) = some _
    rw [Option.some_inj]
    constructor
    · intro h
      obtain ⟨i, hi, hcharacter⟩ := Option.bind_eq_some_iff.1 h
      rw [← Value.asInt?_uint hi]
      exact hcode.1 hcharacter
    · intro h
      have hn : n.toNat = c.toNat := Int.ofNat_inj.1 h
      have hi : Value.asInt? (.uint n) = some (.ofNat n.toNat) := if_pos (hn ▸ hc)
      rw [hi, Option.bind_some, hcode, Value.asInt?_uint hi, h]
  | null | bool _ | float _ | str _ | time _ => exact ⟨nofun, nofun⟩

namespace Settings

variable {s : Settings} {v : Value}

theorem integer?_isSome_iff {radix : Radix} : (s.integer? radix v).isSome ↔ v.isInteger := by
  cases v <;> simp [integer?, integerParts?, Value.isInteger]

theorem float?_isSome_iff : (s.float? v).isSome ↔ v.IsNumber := by
  rw [Value.isNumber_iff, float?, Option.isSome_map]

/-- The verbs for integers show the bytes of a text, in hexadecimal, and otherwise integers. -/
theorem render?_integer {radix : Radix} (hverb : s.verb = .integer radix)
    (hbytes : ∀ upper t, radix = .hexadecimal upper → v ≠ .str t) :
    s.render? v = (s.integer? radix v).map s.fillFigure := by
  unfold render?
  rw [hverb]
  dsimp only
  split
  · next upper t => exact absurd rfl (hbytes upper t rfl)
  · rfl

/-- A value is shown as the verb asks exactly if the verb applies to it. -/
theorem render?_isSome_iff : (s.render? v).isSome ↔ s.verb.AppliesTo v := by
  obtain ⟨flags, width, precision, verb⟩ := s
  cases verb with
  | generic => exact ⟨fun _ => .generic v, fun _ => rfl⟩
  | text => exact ⟨fun _ => .text v, fun _ => rfl⟩
  | quoted => exact ⟨fun _ => .quoted v, fun _ => rfl⟩
  | integer radix =>
    by_cases hbytes : ∃ upper t, radix = .hexadecimal upper ∧ v = .str t
    · obtain ⟨upper, t, rfl, rfl⟩ := hbytes
      exact ⟨fun _ => .bytes upper t, fun _ => rfl⟩
    · rw [render?_integer rfl fun upper t hradix hv => hbytes ⟨upper, t, hradix, hv⟩,
        Option.isSome_map, integer?_isSome_iff]
      refine ⟨fun h => .integer radix h, fun h => ?_⟩
      cases h with
      | integer _ h => exact h
      | bytes upper t => exact absurd ⟨upper, t, rfl, rfl⟩ hbytes
  | fixed upper =>
    show ((float? _ v).map _).isSome ↔ _
    rw [Option.isSome_map, float?_isSome_iff]
    exact ⟨fun h => .fixed upper h, fun h => by cases h with | fixed _ h => exact h⟩
  | scientific upper =>
    show ((float? _ v).map _).isSome ↔ _
    rw [Option.isSome_map, float?_isSome_iff]
    exact ⟨fun h => .scientific upper h, fun h => by cases h with | scientific _ h => exact h⟩
  | truth =>
    cases v with
    | bool b => exact ⟨fun _ => .truth b, fun _ => rfl⟩
    | null | int _ | uint _ | float _ | str _ | time _ => exact ⟨nofun, nofun⟩
  | character =>
    show ((characterOf? v).map _).isSome ↔ _
    rw [Option.isSome_map, Option.isSome_iff_exists]
    constructor
    · rintro ⟨c, hc⟩
      exact .character c (characterOf?_eq_some_iff.1 hc)
    · intro h
      cases h with
      | character c h => exact ⟨c, characterOf?_eq_some_iff.2 h⟩

/-! ## Values that the verb does not apply to -/

/-- A verb that asks for no float leaves it with fixed places, as the generic verb does. -/
theorem plain_generic (h : ¬ s.verb.AppliesTo v) :
    s.plain v = { s with verb := .generic }.plain v := by
  obtain ⟨flags, width, precision, verb⟩ := s
  cases v with
  | float x =>
    cases precision with
    | none => rfl
    | some places =>
      obtain ⟨hfixed, hscientific⟩ := Verb.not_appliesTo_float h
      cases verb with
      | fixed upper => exact absurd rfl (hfixed upper)
      | scientific upper => exact absurd rfl (hscientific upper)
      | generic | text | quoted | integer _ | truth | character => rfl
  | null | bool _ | int _ | uint _ | str _ | time _ => rfl

theorem render_eq_plain (h : ¬ s.verb.AppliesTo v) : s.render v = String.ofList (s.plain v) := by
  have hnone : s.render? v = none := by
    rw [← Option.not_isSome_iff_eq_none, render?_isSome_iff]
    exact h
  unfold render
  rw [hnone]
  rfl

theorem render_of_not_appliesTo (h : ¬ s.verb.AppliesTo v) :
    s.render v = { s with verb := .generic }.render v :=
  (render_eq_plain h).trans (congrArg String.ofList (plain_generic h))

/-! ## Settings that ask for nothing -/

/-- A text that is as long as the width is not filled. -/
theorem fill_of_le {body : List Char} (h : s.width.getD 0 ≤ body.length) : s.fill body = body := by
  unfold fill
  rw [Nat.sub_eq_zero_of_le h, List.replicate_zero]
  split
  · exact List.append_nil body
  · rfl

theorem fill_unset (body : List Char) : ({} : Settings).fill body = body :=
  fill_of_le (Nat.zero_le _)

/-- A minus sign is taken off and put back. -/
theorem fillFigure_figureOf_unset (cs : List Char) :
    ({} : Settings).fillFigure (figureOf cs) = cs := by
  unfold figureOf
  split
  · exact fill_unset _
  · exact fill_unset _

/-- Without flags, width and precision the generic verb shows the text of every value. -/
theorem render_unset (v : Value) : ({} : Settings).render v = v.text := by
  have hplain : ({} : Settings).plain v = v.text.toList := by
    cases v with
    | int _ | uint _ | float _ => exact fillFigure_figureOf_unset _
    | null | bool _ | str _ | time _ => exact fill_unset _
  show String.ofList (({} : Settings).plain v) = v.text
  rw [hplain, String.ofList_toList]

end Settings

end Formatter.Printf

end Interpolation
