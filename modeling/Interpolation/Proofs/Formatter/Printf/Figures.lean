/-
  What a value is shown as. Whatever the width, a value is shown either as a number, with a sign
  and the mark of its base in front of the digits, or as a text, and which of the two only depends
  on the verb and the value (`Settings.shown`). Every later statement about what is shown goes
  through this one.

  Numbers are ASCII, so that their bytes are as many as their characters.
-/
import Interpolation.Proofs.Binary64
import Interpolation.Proofs.Decimal.Characters
import Interpolation.Proofs.Formatter.Printf.Generic
import Interpolation.Proofs.Text.Ascii

namespace Interpolation

open Text

namespace Value

/-- The number is shown with a minus sign: it is less than zero, or it is a float with the sign of
such a number. -/
def isNegative : Value → Bool
  | int n => n.toInt < 0
  | float x => x.isNegative && !x.isNaN
  | _ => false

/-- Digits are ASCII and hold no minus sign. -/
theorem unsigned_of_isAsciiDigit {c : Char} (h : isAsciiDigit c) : c ≠ '-' ∧ c.toNat < 128 := by
  refine ⟨?_, ascii_of_isAsciiDigit h⟩
  rintro rfl
  cases h

theorem unsigned_toDigits (n : Nat) : ∀ c ∈ Nat.toDigits 10 n, c ≠ '-' ∧ c.toNat < 128 :=
  fun _ hc => unsigned_of_isAsciiDigit (isAsciiDigit_of_mem_toDigits hc)

/-- The text of a number is ASCII, and has a minus sign in front if the number is negative, and
nowhere else. -/
theorem text_of_isNumber {v : Value} (h : v.IsNumber) :
    ∃ ds, v.text.toList = (if v.isNegative then ['-'] else []) ++ ds ∧
      ∀ c ∈ ds, c ≠ '-' ∧ c.toNat < 128 := by
  cases v with
  | int n =>
    refine ⟨Nat.toDigits 10 n.toInt.natAbs, ?_, unsigned_toDigits _⟩
    show (decimalInt n.toInt).toList = (if decide (n.toInt < 0) then ['-'] else []) ++ _
    rw [toList_decimalInt]
    simp only [decide_eq_true_eq]
  | uint n => exact ⟨Nat.toDigits 10 n.toNat, String.toList_ofList, unsigned_toDigits _⟩
  | float x =>
    show ∃ ds, x.text.toList = (if x.isNegative && !x.isNaN then ['-'] else []) ++ ds ∧ _
    unfold Binary64.text Binary64.isNaN
    cases x.magnitude with
    | nan =>
      rw [beq_self_eq_true, Bool.not_true, Bool.and_false]
      exact ⟨['N', 'a', 'N'], (by decide : "NaN".toList = [] ++ ['N', 'a', 'N']), by simp⟩
    | infinite =>
      refine ⟨['i', 'n', 'f'], ?_, by simp⟩
      show (String.ofList _).toList = (if x.isNegative && true then ['-'] else []) ++ _
      rw [String.toList_ofList, Bool.and_true]
    | finite m q =>
      refine ⟨(Decimal.shortest .up m q).positional, ?_,
        Decimal.forall_mem_positional (fun _ => unsigned_of_isAsciiDigit) (by decide) _⟩
      show (String.ofList _).toList = (if x.isNegative && true then ['-'] else []) ++ _
      rw [String.toList_ofList, Bool.and_true]
  | null | bool _ | str _ | time _ => exact absurd h id

end Value

namespace Formatter.Printf

/-! ## Numbers and texts -/

/-- The verb shows the value as a number: as an integer or a float that it is made for, or as the
generic verb does. -/
inductive Verb.ShowsNumber : Verb → Value → Prop
  | integer (radix : Radix) {v : Value} (h : v.isInteger) : ShowsNumber (integer radix) v
  | fixed (upper : Bool) {v : Value} (h : v.IsNumber) : ShowsNumber (fixed upper) v
  | scientific (upper : Bool) {v : Value} (h : v.IsNumber) : ShowsNumber (scientific upper) v
  | generic {v : Value} (h : v.IsNumber) : ShowsNumber generic v
  | fallback {verb : Verb} {v : Value} (h : v.IsNumber) (hverb : ¬ verb.AppliesTo v) :
      ShowsNumber verb v

/-- What stands before the digits of the value in the alternate form, if the verb shows it as an
integer. -/
def Verb.mark : Verb → Value → List Char
  | integer radix, v => if v.isInteger then radix.mark else []
  | _, _ => []

/-- The sign and the mark of a value that is shown as a number. -/
def Settings.head (s : Settings) (v : Value) : List Char :=
  s.sign v.isNegative ++ if s.flags.alternate then s.verb.mark v else []

theorem Verb.ShowsNumber.isNumber {verb : Verb} {v : Value} (h : verb.ShowsNumber v) :
    v.IsNumber := by
  cases h with
  | integer radix h =>
    cases v with
    | int _ | uint _ => trivial
    | null | bool _ | float _ | str _ | time _ => cases h
  | fixed _ h | scientific _ h | generic h | fallback h _ => exact h

theorem Verb.mark_of_not_appliesTo {verb : Verb} {v : Value} (h : ¬ verb.AppliesTo v) :
    verb.mark v = [] := by
  cases verb with
  | integer radix => exact if_neg fun hv => h (.integer radix hv)
  | generic | text | quoted | fixed _ | scientific _ | truth | character => rfl

/-- The verbs for numbers. -/
def Verb.IsNumeric : Verb → Prop
  | generic | integer _ | fixed _ | scientific _ => True
  | text | quoted | truth | character => False

/-- Where it applies, a verb that is not for numbers shows none. -/
theorem Verb.not_showsNumber {verb : Verb} {v : Value} (happlies : verb.AppliesTo v)
    (hverb : ¬ verb.IsNumeric) : ¬ verb.ShowsNumber v := by
  intro h
  cases h with
  | fallback _ h => exact h happlies
  | integer | fixed | scientific | generic => exact hverb trivial

/-- The number shows the value with the flags and the verb of the settings. -/
structure Figure.Shows (n : Figure) (s : Settings) (v : Value) : Prop where
  negative : n.negative = v.isNegative
  mark : n.mark = if s.flags.alternate then s.verb.mark v else []
  ascii : Ascii n.digits

namespace Settings

/-- Whatever the width, the value is shown as a number. -/
def ShownAsNumber (s : Settings) (v : Value) (n : Figure) : Prop :=
  n.Shows s v ∧ ∀ width, ({ s with width }.render v).toList = { s with width }.fillFigure n

/-- Whatever the width, the value is shown as a text. -/
def ShownAsText (s : Settings) (v : Value) (body : List Char) : Prop :=
  ∀ width, ({ s with width }.render v).toList = { s with width }.fill body

end Settings

/-! ## Characters of numbers -/

theorem Radix.base_bounds (radix : Radix) : 1 < radix.base ∧ radix.base ≤ 16 := by
  cases radix with
  | decimal | octal | binary => decide
  | hexadecimal upper => exact (by decide : 1 < 16 ∧ 16 ≤ 16)

theorem ascii_uppercase {cs : List Char} (h : Ascii cs) (upper : Bool) :
    Ascii (uppercase upper cs) := by
  cases upper
  · exact h
  · exact h.map_toUpper

theorem ascii_fixedText (places : Nat) (x : Binary64.Magnitude) : Ascii (fixedText places x) := by
  cases x with
  | nan => exact (by decide : Ascii ['N', 'a', 'N'])
  | infinite => exact (by decide : Ascii ['i', 'n', 'f'])
  | finite m q => exact Decimal.forall_mem_positional (fun _ => ascii_of_isAsciiDigit) (by decide) _

theorem ascii_exponentText (e : Int) : Ascii (exponentText e) := by
  refine List.forall_mem_cons.2 ⟨by decide, List.forall_mem_cons.2 ⟨?_, ?_⟩⟩
  · split <;> decide
  · exact forall_mem_zeroFill (by decide) 2 (ascii_toDigits (by decide) (by decide) _)

theorem ascii_scientificText (places : Nat) (x : Binary64.Magnitude) :
    Ascii (scientificText places x) := by
  cases x with
  | nan => exact ascii_fixedText places .nan
  | infinite => exact ascii_fixedText places .infinite
  | finite m q =>
    exact Decimal.forall_mem_scientific (fun _ => ascii_of_isAsciiDigit) (by decide) places
      ascii_exponentText _

namespace Settings

variable {s : Settings} {v : Value}

theorem ascii_magnitudeText (s : Settings) (x : Binary64.Magnitude) :
    Ascii (s.magnitudeText x) := by
  unfold magnitudeText
  dsimp only
  split
  · exact ascii_uppercase (ascii_scientificText _ x) _
  · exact ascii_uppercase (ascii_fixedText _ x) _
  · exact ascii_fixedText _ x

/-! ## The numbers that values are shown as -/

/-- An integer, or a float that stands for one, has the sign of the value. -/
theorem isNegative_asFloat? {x : Binary64} (h : v.asFloat? = some x) :
    (x.isNegative && !x.isNaN) = v.isNegative := by
  have hrounded (negative : Bool) (n : Nat) :
      ((Binary64.ofFraction negative n 1).isNegative &&
        !(Binary64.ofFraction negative n 1).isNaN) = negative := by
    rw [Binary64.isNegative_ofFraction, Binary64.isNaN_ofFraction]
    exact Bool.and_true negative
  cases v with
  | int n =>
    cases h
    exact hrounded _ _
  | uint n =>
    cases h
    exact hrounded _ _
  | float y =>
    cases h
    rfl
  | null | bool _ | str _ | time _ => cases h

theorem shows_integer? {radix : Radix} {n : Figure} (hverb : s.verb = .integer radix)
    (h : s.integer? radix v = some n) : n.Shows s v := by
  have hascii (m : Nat) : Ascii (uppercase radix.upper (Nat.toDigits radix.base m)) :=
    ascii_uppercase (ascii_toDigits radix.base_bounds.1 radix.base_bounds.2 m) _
  cases v with
  | int m =>
    cases h
    exact ⟨rfl, by rw [hverb]; rfl, hascii _⟩
  | uint m =>
    cases h
    exact ⟨rfl, by rw [hverb]; rfl, hascii _⟩
  | null | bool _ | float _ | str _ | time _ => cases h

theorem shows_float? {n : Figure} (hmark : s.verb.mark v = []) (h : s.float? v = some n) :
    n.Shows s v := by
  obtain ⟨x, hx, rfl⟩ := Option.map_eq_some_iff.1 h
  refine ⟨isNegative_asFloat? hx, ?_, s.ascii_magnitudeText _⟩
  rw [hmark, ite_self]

theorem figureOf_signed (negative : Bool) {ds : List Char} (h : ∀ c ∈ ds, c ≠ '-') :
    figureOf ((if negative then ['-'] else []) ++ ds) = { negative, digits := ds } := by
  cases negative with
  | true => rfl
  | false =>
    unfold figureOf
    split
    · next cs heq =>
      have hmem : '-' ∈ '-' :: cs := List.mem_cons_self
      rw [← heq] at hmem
      exact absurd rfl (h '-' hmem)
    · rfl

theorem shows_figureOf (hmark : s.verb.mark v = []) (h : v.IsNumber) :
    (figureOf v.text.toList).Shows s v := by
  obtain ⟨ds, htext, hds⟩ := Value.text_of_isNumber h
  rw [htext, figureOf_signed _ fun c hc => (hds c hc).1]
  exact ⟨rfl, by rw [hmark, ite_self], fun c hc => (hds c hc).2⟩

/-! ## What is shown -/

/-- A number that the verb asks nothing of is shown as a number without a mark. -/
theorem plain_of_isNumber (s : Settings) (hmark : s.verb.mark v = []) (h : v.IsNumber) :
    ∃ n : Figure, n.Shows s v ∧
      ∀ width, { s with width }.plain v = { s with width }.fillFigure n := by
  obtain ⟨flags, w, precision, verb⟩ := s
  cases v with
  | int m => exact ⟨_, shows_figureOf hmark h, fun _ => rfl⟩
  | uint m => exact ⟨_, shows_figureOf hmark h, fun _ => rfl⟩
  | float x =>
    cases precision with
    | none => exact ⟨_, shows_figureOf hmark h, fun _ => rfl⟩
    | some places => exact ⟨_, shows_float? hmark rfl, fun _ => rfl⟩
  | null | bool _ | str _ | time _ => exact absurd h id

theorem plain_of_not_isNumber (s : Settings) (h : ¬ v.IsNumber) :
    ∃ body, ∀ width, { s with width }.plain v = { s with width }.fill body := by
  cases v with
  | int _ | uint _ | float _ => exact absurd trivial h
  | null | bool _ | str _ | time _ => exact ⟨s.cut _, fun _ => rfl⟩

theorem toList_render_of_some {body : List Char} (h : s.render? v = some body) :
    (s.render v).toList = body := by
  unfold render
  rw [h]
  exact String.toList_ofList

theorem shownAsNumber_integer? {radix : Radix} {n : Figure} (hverb : s.verb = .integer radix)
    (h : s.integer? radix v = some n) : s.ShownAsNumber v n := by
  refine ⟨shows_integer? hverb h, fun width => toList_render_of_some ?_⟩
  have hbytes : ∀ upper t, radix = .hexadecimal upper → v ≠ .str t := by
    rintro upper t - rfl
    cases h
  have hsome : { s with width }.render? v =
      ({ s with width }.integer? radix v).map { s with width }.fillFigure :=
    render?_integer hverb hbytes
  exact hsome.trans (congrArg (Option.map _) h)

theorem shownAsNumber_float? {upper : Bool} {n : Figure}
    (hverb : s.verb = .fixed upper ∨ s.verb = .scientific upper) (h : s.float? v = some n) :
    s.ShownAsNumber v n := by
  have hmark : s.verb.mark v = [] := by
    rcases hverb with hverb | hverb
    · rw [hverb]
      rfl
    · rw [hverb]
      rfl
  refine ⟨shows_float? hmark h, fun width => toList_render_of_some ?_⟩
  have hsome : { s with width }.render? v =
      ({ s with width }.float? v).map { s with width }.fillFigure := by
    unfold render?
    dsimp only
    rcases hverb with hverb | hverb
    · rw [hverb]
    · rw [hverb]
  exact hsome.trans (congrArg (Option.map _) h)

theorem shownAsText_bytes {upper : Bool} (hverb : s.verb = .integer (.hexadecimal upper))
    (t : String) : s.ShownAsText (.str t) (uppercase upper (hexBytes t)) := by
  refine fun width => toList_render_of_some ?_
  unfold render?
  dsimp only
  rw [hverb]

/-- A value that is shown as the generic verb shows it. -/
theorem shown_of_plain (hmark : s.verb.mark v = [])
    (h : ∀ width, ({ s with width }.render v).toList = { s with width }.plain v) :
    (v.IsNumber ∧ ∃ n, s.ShownAsNumber v n) ∨ (¬ v.IsNumber ∧ ∃ body, s.ShownAsText v body) := by
  by_cases hv : v.IsNumber
  · obtain ⟨n, hn, hplain⟩ := s.plain_of_isNumber hmark hv
    exact .inl ⟨hv, n, hn, fun width => (h width).trans (hplain width)⟩
  · obtain ⟨body, hplain⟩ := s.plain_of_not_isNumber hv
    exact .inr ⟨hv, body, fun width => (h width).trans (hplain width)⟩

theorem shown_of_not_appliesTo (h : ¬ s.verb.AppliesTo v) :
    (v.IsNumber ∧ ∃ n, s.ShownAsNumber v n) ∨ (¬ v.IsNumber ∧ ∃ body, s.ShownAsText v body) :=
  shown_of_plain (Verb.mark_of_not_appliesTo h) fun width => by
    rw [render_eq_plain (s := { s with width }) h, String.toList_ofList]

/-- Whatever the width, a value is shown as a number if its verb shows it so, and as a text
otherwise. -/
theorem shown (s : Settings) (v : Value) :
    (s.verb.ShowsNumber v ∧ ∃ n, s.ShownAsNumber v n) ∨
      (¬ s.verb.ShowsNumber v ∧ ∃ body, s.ShownAsText v body) := by
  by_cases happlies : s.verb.AppliesTo v
  · obtain ⟨flags, w, precision, verb⟩ := s
    dsimp only at happlies ⊢
    cases happlies with
    | generic =>
      rcases shown_of_plain (s := ⟨flags, w, precision, .generic⟩) rfl
        fun _ => toList_render_of_some rfl with ⟨hv, hn⟩ | ⟨hv, hbody⟩
      · exact .inl ⟨.generic hv, hn⟩
      · exact .inr ⟨fun h => hv h.isNumber, hbody⟩
    | text =>
      exact .inr ⟨Verb.not_showsNumber (.text v) nofun, cut ⟨flags, w, precision, .text⟩
        v.text.toList, fun _ => toList_render_of_some rfl⟩
    | quoted =>
      exact .inr ⟨Verb.not_showsNumber (.quoted v) nofun, (quote (String.ofList
        (cut ⟨flags, w, precision, .quoted⟩ v.text.toList))).toList,
        fun _ => toList_render_of_some rfl⟩
    | integer radix h =>
      obtain ⟨n, hn⟩ := Option.isSome_iff_exists.1 (integer?_isSome_iff.2 h)
      exact .inl ⟨.integer radix h, n, shownAsNumber_integer? rfl hn⟩
    | bytes upper t => exact .inr ⟨fun h => h.isNumber, _, shownAsText_bytes rfl t⟩
    | fixed upper h =>
      obtain ⟨n, hn⟩ := Option.isSome_iff_exists.1 (float?_isSome_iff.2 h)
      exact .inl ⟨.fixed upper h, n, shownAsNumber_float? (.inl rfl) hn⟩
    | scientific upper h =>
      obtain ⟨n, hn⟩ := Option.isSome_iff_exists.1 (float?_isSome_iff.2 h)
      exact .inl ⟨.scientific upper h, n, shownAsNumber_float? (.inr rfl) hn⟩
    | truth b =>
      exact .inr ⟨fun h => h.isNumber, (Value.bool b).text.toList,
        fun _ => toList_render_of_some rfl⟩
    | character c h =>
      refine .inr ⟨Verb.not_showsNumber (.character c h) nofun, [c],
        fun _ => toList_render_of_some ?_⟩
      exact congrArg (Option.map _) (characterOf?_eq_some_iff.2 h)
  · rcases shown_of_not_appliesTo happlies with ⟨hv, hn⟩ | ⟨hv, hbody⟩
    · exact .inl ⟨.fallback hv happlies, hn⟩
    · exact .inr ⟨fun h => hv h.isNumber, hbody⟩

end Settings

end Formatter.Printf

end Interpolation
