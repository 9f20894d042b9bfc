/-
  Layouts that a spec spells. Each character of such a spec becomes a directive that is accepted
  and stands for the same field, or for the character (`items?_append_directive`). So a moment is
  shown as what the characters of the spec stand for, one after the other, and no layout is ever
  refused (`render_layout`).
-/
import Interpolation.Formatter.Clock
import Interpolation.Proofs.Calendar.Counting
import Interpolation.Proofs.Text.Numeral
import Mathlib.Data.List.Forall2

namespace Interpolation

open Text

namespace Calendar

/-! ## Numbers of a moment -/

/-- Two digits that spell the number. -/
structure IsTwoDigits (n : Nat) (cs : List Char) : Prop where
  length : cs.length = 2
  digits : ∀ c ∈ cs, isAsciiDigit c
  value : digitsValue cs = n

/-- A year as text: its digits, at least four and no zeros in front of more, behind a sign if it is
negative or above 9999. -/
def IsYear (year : Int) (cs : List Char) : Prop :=
  ∃ ds, cs = (if year < 0 then ['-'] else if 9999 < year then ['+'] else []) ++ ds ∧
    (∀ c ∈ ds, isAsciiDigit c) ∧ digitsValue ds = year.natAbs ∧ 4 ≤ ds.length ∧
    (4 < ds.length → ds.head? ≠ some '0')

theorem isTwoDigits_twoDigits {n : Nat} (h : n < 100) : IsTwoDigits n (twoDigits n) where
  length := by
    have hle := (Nat.length_toDigits_le_iff (b := 10) (n := n) (k := 2) (by decide) (by decide)).2 h
    unfold twoDigits
    rw [length_zeroFill]
    exact Nat.max_eq_left hle
  digits := forall_mem_zeroFill (by decide) 2 fun _ => isAsciiDigit_of_mem_toDigits
  value := (digitsValue_zeroFill 2 _).trans (digitsValue_toDigits n)

theorem isYear_yearText (year : Int) : IsYear year (yearText year) := by
  refine ⟨zeroFill 4 (Nat.toDigits 10 year.natAbs), ?_,
    forall_mem_zeroFill (by decide) 4 fun _ => isAsciiDigit_of_mem_toDigits,
    (digitsValue_zeroFill 4 _).trans (digitsValue_toDigits _), ?_, fun hlong => ?_⟩
  · unfold yearText
    dsimp only
    split
    · rfl
    · split <;> rfl
  · rw [length_zeroFill]
    exact Nat.le_max_left 4 _
  · rw [length_zeroFill] at hlong
    rw [zeroFill_of_le (by omega)]
    refine head?_toDigits fun hzero => ?_
    rw [hzero] at hlong
    exact absurd hlong (by decide)

end Calendar

namespace Formatter.Clock

open Calendar

/-! ## Characters of a spec -/

/-- What a character of a spec stands for in a moment. -/
inductive StandsFor (m : Moment) : Char → List Char → Prop
  | year {cs : List Char} (h : IsYear m.date.year cs) : StandsFor m 'Y' cs
  | month {cs : List Char} (h : IsTwoDigits m.date.month cs) : StandsFor m 'M' cs
  | day {cs : List Char} (h : IsTwoDigits m.date.day cs) : StandsFor m 'D' cs
  | hour {cs : List Char} (h : IsTwoDigits m.hour cs) : StandsFor m 'h' cs
  | minute {cs : List Char} (h : IsTwoDigits m.minute cs) : StandsFor m 'm' cs
  | second {cs : List Char}
      (h : IsTwoDigits (if 1000000000 ≤ m.nanosecond then m.second + 1 else m.second) cs) :
      StandsFor m 's' cs
  | other {c : Char} (h : c ∉ ['Y', 'M', 'D', 'h', 'm', 's']) : StandsFor m c [c]

/-- The item of a layout that a character of a spec becomes. -/
def item : Char → Item
  | 'Y' => .field .year
  | 'M' => .field .month
  | 'D' => .field .day
  | 'h' => .field .hour
  | 'm' => .field .minute
  | 's' => .field .second
  | c => .char c

/-- A directive for a field is read as the field. -/
theorem items?_field {letter : Char} {f : Field} (h : Field.ofDirective? letter = some f)
    (rest : List Char) :
    items? ('%' :: letter :: rest) = (items? rest).map (.field f :: ·) := by
  have hletter : letter ≠ '%' := by
    rintro rfl
    cases h
  rw [items?]
  · rw [h]
    cases items? rest <;> rfl
  · exact hletter

theorem items?_char {c : Char} (h : c ≠ '%') (rest : List Char) :
    items? (c :: rest) = (items? rest).map (.char c :: ·) := by
  rw [items?]
  · rfl
  all_goals
    intros
    exact h ‹_›

/-- The directive of a character is read as its item, whatever follows. -/
theorem items?_append_directive (c : Char) (rest : List Char) :
    items? (directive c ++ rest) = (items? rest).map (item c :: ·) := by
  unfold directive
  split
  · exact items?_field rfl rest
  · exact items?_field rfl rest
  · exact items?_field rfl rest
  · exact items?_field rfl rest
  · exact items?_field rfl rest
  · exact items?_field rfl rest
  · rfl
  · rw [item]
    · exact items?_char ‹_› rest
    all_goals assumption

/-- A spec is read as the items of its characters. -/
theorem items?_flatMap_directive (cs : List Char) :
    items? (cs.flatMap directive) = some (cs.map item) := by
  induction cs with
  | nil => rfl
  | cons c cs ih =>
    rw [List.flatMap_cons, items?_append_directive, ih]
    rfl

/-- The second that is shown is the next one in a leap second. -/
theorem shownSecond_eq {m : Moment} (hm : m.Valid) :
    m.shownSecond = if 1000000000 ≤ m.nanosecond then m.second + 1 else m.second := by
  have hlt := hm.nanosecond_lt
  unfold Moment.shownSecond
  split <;> omega

/-- The item of a character is shown as what the character stands for. -/
theorem standsFor_item {m : Moment} (hm : m.Valid) (c : Char) :
    StandsFor m c ((item c).text m) := by
  obtain ⟨hdate, hhour, hminute, hsecond, hnanosecond⟩ := hm
  obtain ⟨hfirst, hmonth, -, hday⟩ := Date.valid_iff.1 hdate
  have hlength := (monthLength_bounds (isLeap m.date.year) hfirst hmonth).2
  unfold item
  split
  · exact .year (isYear_yearText _)
  · exact .month (isTwoDigits_twoDigits (by omega))
  · exact .day (isTwoDigits_twoDigits (by omega))
  · exact .hour (isTwoDigits_twoDigits (by omega))
  · exact .minute (isTwoDigits_twoDigits (by omega))
  · have hshown := shownSecond_eq ⟨hdate, hhour, hminute, hsecond, hnanosecond⟩
    refine .second (hshown ▸ isTwoDigits_twoDigits ?_)
    rw [hshown]
    split <;> omega
  · refine .other fun hmem => ?_
    simp only [List.mem_cons, List.not_mem_nil, or_false] at hmem
    rcases hmem with h | h | h | h | h | h <;> exact absurd h ‹_›

/-! ## Layouts -/

/-- A spec without a name of its own is a layout by its characters. -/
theorem layout_eq {spec : String} (hname : spec ∉ named.map Prod.fst) (hne : spec ≠ "") :
    layout spec = String.ofList (spec.toList.flatMap directive) := by
  unfold layout
  rw [lookup_eq_none hname]
  exact if_neg (by simpa using hne)

/-- The layout of any spec is accepted. -/
theorem items?_layout (spec : String) : ∃ is, items? (layout spec).toList = some is := by
  unfold layout
  split
  · next l hlookup =>
    obtain ⟨before, after, hsplit, -⟩ := List.lookup_eq_some_iff.1 hlookup
    have hmem : (spec, l) ∈ named := hsplit ▸ List.mem_append_right _ List.mem_cons_self
    have hall : ∀ e ∈ named, (items? e.2.toList).isSome := by decide
    exact Option.isSome_iff_exists.1 (hall _ hmem)
  · split
    · exact Option.isSome_iff_exists.1 (by decide)
    · rw [String.toList_ofList]
      exact ⟨_, items?_flatMap_directive _⟩

/-- No spec leads to a layout that is refused. A spec that has no name of its own is taken by its
characters: a moment is shown as what they stand for, in their order. -/
theorem render_layout (spec : String) :
    (∃ is, items? (layout spec).toList = some is) ∧
    (spec ≠ "" → spec ∉ ["datetime", "YMDhms", "date", "YMD", "time", "hms"] →
      ∃ display, clock.factory.configured spec = .ok display ∧
        ∀ m : Moment, m.Valid →
          ∃ pieces, List.Forall₂ (StandsFor m) spec.toList pieces ∧
            display (.time m) = String.ofList pieces.flatten) := by
  refine ⟨items?_layout spec, fun hne hname => ⟨render (layout spec), rfl, fun m hm => ?_⟩⟩
  refine ⟨(spec.toList.map item).map (Item.text m), ?_, ?_⟩
  · rw [List.map_map, List.forall₂_map_right_iff]
    exact List.forall₂_same.2 fun c _ => standsFor_item hm c
  · show m.layOut (layout spec) = _
    rw [Moment.layOut, Moment.layOut?, layout_eq hname hne, String.toList_ofList,
      items?_flatMap_directive]
    rfl

theorem render_layout_leapSecond :
    let spec := "h%m年 Y\ts"
    let m : Moment := ⟨⟨-5, 12, 31⟩, 23, 59, 59, 1500000000⟩
    spec ≠ "" ∧ spec ∉ ["datetime", "YMDhms", "date", "YMD", "time", "hms"] ∧ m.Valid ∧
      ∃ display pieces, clock.factory.configured spec = .ok display ∧
        List.Forall₂ (StandsFor m) spec.toList pieces ∧
        display (.time m) = String.ofList pieces.flatten ∧
        display (.time m) = "23%59年 -0005\t60" := by
  intro spec m
  have hne : spec ≠ "" := by decide
  have hname : spec ∉ ["datetime", "YMDhms", "date", "YMD", "time", "hms"] := by decide
  have hm : m.Valid := ⟨Date.valid_iff.2 (by decide), by decide, by decide, by decide, by decide⟩
  obtain ⟨display, hconfigured, hdisplay⟩ := (render_layout spec).2 hne hname
  obtain ⟨pieces, hpieces, hshown⟩ := hdisplay m hm
  refine ⟨hne, hname, hm, display, pieces, hconfigured, hpieces, hshown, ?_⟩
  have hrender : clock.factory.configured spec = .ok (render (layout spec)) := rfl
  rw [← Except.ok.inj (hrender.symm.trans hconfigured)]
  decide

end Formatter.Clock

end Interpolation
