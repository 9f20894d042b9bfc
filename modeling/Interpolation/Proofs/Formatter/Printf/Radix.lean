/-
  Integers in a base. Whatever the flags and the width, an integer can be read back from what is
  shown of it: without the spaces around it, a sign, the mark of the base in the alternate form,
  and digits (`Script.read?`). So no two integers are shown alike. The bytes of a text in
  hexadecimal are read back two digits at a time (`Script.readBytes?`). Main statement:
  `render_radix`.

  How a base is written is set down here once more, in a table of its own (`Radix.script`).
-/
import Interpolation.Proofs.Formatter.Printf.Width
import Interpolation.Proofs.Text.Runs
import Mathlib.Data.List.Basic

namespace Interpolation.Formatter.Printf

open Text

/-- How integers are written in a base: what stands before the digits in the alternate form, and
the digits by their values. -/
structure Script where
  mark : List Char
  digits : List Char

def Radix.script : Radix → Script
  | decimal => ⟨[], "0123456789".toList⟩
  | octal => ⟨"0".toList, "01234567".toList⟩
  | binary => ⟨"0b".toList, "01".toList⟩
  | hexadecimal false => ⟨"0x".toList, "0123456789abcdef".toList⟩
  | hexadecimal true => ⟨"0X".toList, "0123456789ABCDEF".toList⟩

namespace Script

/-- The number that digits behind those of a value spell. -/
def digitsValue? (script : Script) : Nat → List Char → Option Nat
  | value, [] => some value
  | value, c :: cs =>
    (script.digits.idxOf? c).bind fun d => script.digitsValue? (script.digits.length * value + d) cs

/-- The natural number that a text spells with at least one digit. -/
def readNatural? (script : Script) (cs : List Char) : Option Nat :=
  if cs = [] then none else script.digitsValue? 0 cs

/-- The bytes that a text spells with two digits each. -/
def readBytes? (script : Script) : List Char → Option (List UInt8)
  | [] => some []
  | [_] => none
  | high :: low :: cs =>
    (script.readNatural? [high, low]).bind fun n => (script.readBytes? cs).map (UInt8.ofNat n :: ·)

end Script

/-- The text without the spaces at its two ends. -/
def withoutSpaces (cs : List Char) : List Char :=
  ((cs.dropWhile (· == ' ')).reverse.dropWhile (· == ' ')).reverse

/-- The sign that a text begins with, if there is one, and what follows it. -/
def splitSign : List Char → Option Char × List Char
  | '-' :: cs => (some '-', cs)
  | '+' :: cs => (some '+', cs)
  | cs => (none, cs)

/-- The natural number that a text spells behind the mark of the base, which stands there in the
alternate form. -/
def Script.readMarked? (script : Script) (alternate : Bool) (cs : List Char) : Option Nat :=
  if alternate then (cs.dropPrefix? script.mark).bind script.readNatural?
  else script.readNatural? cs

/-- The sign and the integer that a text spells, with spaces around it. -/
def Script.read? (script : Script) (alternate : Bool) (shown : List Char) :
    Option (Option Char × Int) :=
  let (sign, cs) := splitSign (withoutSpaces shown)
  (script.readMarked? alternate cs).map fun (n : Nat) =>
    (sign, if sign = some '-' then -(n : Int) else n)

/-! ## Digits -/

namespace Script

variable {script : Script}

theorem digitsValue?_append (value : Nat) (cs ds : List Char) :
    script.digitsValue? value (cs ++ ds) =
      (script.digitsValue? value cs).bind fun n => script.digitsValue? n ds := by
  induction cs generalizing value with
  | nil => rfl
  | cons c cs ih =>
    rw [List.cons_append, digitsValue?, digitsValue?, Option.bind_assoc]
    exact congrArg _ (funext fun d => ih _)

/-- Zeros in front of a number change nothing. -/
theorem digitsValue?_zeros (hzero : script.digits.idxOf? '0' = some 0) (k : Nat) (cs : List Char) :
    script.digitsValue? 0 (List.replicate k '0' ++ cs) = script.digitsValue? 0 cs := by
  induction k with
  | zero => rfl
  | succ k ih =>
    rw [List.replicate_succ, List.cons_append, digitsValue?, hzero, Option.bind_some, Nat.mul_zero]
    exact ih

end Script

theorem uppercase_append (upper : Bool) (cs ds : List Char) :
    uppercase upper (cs ++ ds) = uppercase upper cs ++ uppercase upper ds := by
  cases upper
  · rfl
  · exact List.map_append

theorem uppercase_singleton (upper : Bool) (c : Char) :
    uppercase upper [c] = [if upper then c.toUpper else c] := by
  cases upper <;> rfl

theorem uppercase_zeros (upper : Bool) (k : Nat) :
    uppercase upper (List.replicate k '0') = List.replicate k '0' := by
  cases upper
  · rfl
  · exact List.map_replicate

namespace Radix

theorem base_eq (radix : Radix) : radix.base = radix.script.digits.length := by
  rcases radix with _ | _ | _ | _ | _ <;> rfl

theorem mark_eq (radix : Radix) : radix.mark = radix.script.mark := by
  rcases radix with _ | _ | _ | _ | _ <;> rfl

/-- The digits of a number, as they are shown. -/
def numeral (radix : Radix) (n : Nat) : List Char :=
  uppercase radix.upper (Nat.toDigits radix.base n)

theorem idxOf?_zero (radix : Radix) : radix.script.digits.idxOf? '0' = some 0 := by
  rcases radix with _ | _ | _ | _ | _ <;> rfl

/-- The digits of the base are shown as they stand in its script. -/
theorem idxOf?_digitChar (radix : Radix) {d : Nat} (hd : d < radix.base) :
    radix.script.digits.idxOf?
      (if radix.upper then (Nat.digitChar d).toUpper else Nat.digitChar d) = some d := by
  rcases radix with _ | _ | _ | _ | _
  · exact (by decide : ∀ d < 10, "0123456789".toList.idxOf? (Nat.digitChar d) = some d) d hd
  · exact (by decide : ∀ d < 8, "01234567".toList.idxOf? (Nat.digitChar d) = some d) d hd
  · exact (by decide : ∀ d < 2, "01".toList.idxOf? (Nat.digitChar d) = some d) d hd
  · exact (by decide : ∀ d < 16, "0123456789abcdef".toList.idxOf? (Nat.digitChar d) = some d) d hd
  · exact (by decide : ∀ d < 16, "0123456789ABCDEF".toList.idxOf? (Nat.digitChar d).toUpper =
      some d) d hd

theorem digitsValue?_digitChar (radix : Radix) (value : Nat) {d : Nat} (hd : d < radix.base) :
    radix.script.digitsValue? value (uppercase radix.upper [Nat.digitChar d]) =
      some (radix.base * value + d) := by
  rw [uppercase_singleton, Script.digitsValue?, radix.idxOf?_digitChar hd, Option.bind_some,
    radix.base_eq]
  rfl

/-- The digits of a number spell it. -/
theorem digitsValue?_numeral (radix : Radix) (n : Nat) :
    radix.script.digitsValue? 0 (radix.numeral n) = some n := by
  have hbase := radix.base_bounds.1
  -- all digits but the last are those of a smaller number
  induction n using Nat.strongRecOn with
  | ind n ih =>
    unfold numeral at ih ⊢
    rw [Nat.toDigits_eq_if hbase]
    split
    · next hlt => rw [radix.digitsValue?_digitChar 0 hlt, Nat.mul_zero, Nat.zero_add]
    · next hge =>
      have hsmaller : n / radix.base < n := Nat.div_lt_self (by omega) hbase
      have hdigit : n % radix.base < radix.base := Nat.mod_lt n (by omega)
      rw [uppercase_append, Script.digitsValue?_append, ih _ hsmaller, Option.bind_some,
        radix.digitsValue?_digitChar _ hdigit, Nat.div_add_mod]

/-- What holds of the digits in the script holds of those of a number. -/
theorem forall_mem_numeral (radix : Radix) {P : Char → Prop}
    (h : ∀ c ∈ radix.script.digits, P c) (n : Nat) : ∀ c ∈ radix.numeral n, P c := by
  have hdigit {d : Nat} (hd : d < radix.base) :
      P (if radix.upper then (Nat.digitChar d).toUpper else Nat.digitChar d) := by
    obtain ⟨hlt, heq, -⟩ := List.idxOf?_eq_some_iff.1 (radix.idxOf?_digitChar hd)
    exact h _ (heq ▸ List.getElem_mem hlt)
  unfold numeral uppercase
  split
  · next hupper =>
    refine List.forall_mem_map.2
      (forall_mem_toDigits (P := fun c => P c.toUpper) radix.base_bounds.1 (fun d hd => ?_) n)
    simpa [hupper] using hdigit hd
  · next hlower =>
    refine forall_mem_toDigits radix.base_bounds.1 (fun d hd => ?_) n
    simpa [hlower] using hdigit hd

theorem numeral_ne_nil (radix : Radix) (n : Nat) : radix.numeral n ≠ [] := by
  unfold numeral uppercase
  split
  · exact fun h => Nat.toDigits_ne_nil (List.map_eq_nil_iff.1 h)
  · exact Nat.toDigits_ne_nil

/-- A number behind the mark of the base, if it has one, and any zeros. -/
def marked (radix : Radix) (alternate : Bool) (zeros n : Nat) : List Char :=
  (if alternate then radix.mark else []) ++ (List.replicate zeros '0' ++ radix.numeral n)

theorem marked_ne_nil (radix : Radix) (alternate : Bool) (zeros n : Nat) :
    radix.marked alternate zeros n ≠ [] :=
  List.append_ne_nil_of_right_ne_nil _
    (List.append_ne_nil_of_right_ne_nil _ (radix.numeral_ne_nil n))

/-- Neither a space nor a sign stands in such a number. -/
theorem forall_mem_marked (radix : Radix) (alternate : Bool) (zeros n : Nat) :
    ∀ c ∈ radix.marked alternate zeros n, c ∉ [' ', '-', '+'] := by
  have hscript : ∀ c ∈ radix.mark ++ radix.script.digits, c ∉ [' ', '-', '+'] := by
    rcases radix with _ | _ | _ | _ | _ <;> simp [Radix.mark, Radix.script]
  obtain ⟨hmark, hdigits⟩ := List.forall_mem_append.1 hscript
  refine List.forall_mem_append.2 ⟨?_, List.forall_mem_append.2 ⟨?_, ?_⟩⟩
  · split
    · exact hmark
    · exact List.forall_mem_nil _
  · exact fun c hc => List.eq_of_mem_replicate hc ▸ (by decide : '0' ∉ [' ', '-', '+'])
  · exact radix.forall_mem_numeral hdigits n

theorem readNatural?_zeros (radix : Radix) (zeros n : Nat) :
    radix.script.readNatural? (List.replicate zeros '0' ++ radix.numeral n) = some n := by
  unfold Script.readNatural?
  rw [if_neg (List.append_ne_nil_of_right_ne_nil _ (radix.numeral_ne_nil n)),
    Script.digitsValue?_zeros radix.idxOf?_zero, radix.digitsValue?_numeral]

theorem readMarked?_marked (radix : Radix) (alternate : Bool) (zeros n : Nat) :
    radix.script.readMarked? alternate (radix.marked alternate zeros n) = some n := by
  unfold Script.readMarked? marked
  cases alternate
  · exact radix.readNatural?_zeros zeros n
  · show ((radix.mark ++ _).dropPrefix? radix.script.mark).bind _ = _
    rw [List.dropPrefix?_append_of_beq _ (beq_iff_eq.2 radix.mark_eq), Option.bind_some,
      radix.readNatural?_zeros]

end Radix

/-! ## Reading back what is shown -/

theorem withoutSpaces_spaced {core : List Char} (hne : core ≠ []) (h : ∀ c ∈ core, c ≠ ' ')
    (before after : Nat) :
    withoutSpaces (List.replicate before ' ' ++ (core ++ List.replicate after ' ')) = core := by
  have hspaces (k : Nat) : ∀ c ∈ List.replicate k ' ', (c == ' ') = true :=
    fun c hc => beq_iff_eq.2 (List.eq_of_mem_replicate hc)
  have hends {cs : List Char} (hcs : cs ≠ []) (hall : ∀ c ∈ cs, c ≠ ' ') (rest : List Char) :
      Ends (· == ' ') (cs ++ rest) := by
    obtain ⟨c, cs, rfl⟩ := List.exists_cons_of_ne_nil hcs
    exact ends_cons (beq_eq_false_iff_ne.2 (hall c List.mem_cons_self))
  have hback : Ends (· == ' ') core.reverse := by
    rw [← List.append_nil core.reverse]
    exact hends (List.reverse_ne_nil_iff.2 hne) (fun c hc => h c (List.mem_reverse.1 hc)) []
  unfold withoutSpaces
  rw [dropWhile_run (hspaces before) (hends hne h _), List.reverse_append, List.reverse_replicate,
    dropWhile_run (hspaces after) hback, List.reverse_reverse]

theorem splitSign_append {sign : Option Char} (hsign : ∀ c ∈ sign, c = '-' ∨ c = '+')
    {rest : List Char} (hminus : '-' ∉ rest) (hplus : '+' ∉ rest) :
    splitSign (sign.toList ++ rest) = (sign, rest) := by
  cases sign with
  | none =>
    show splitSign rest = (none, rest)
    unfold splitSign
    split
    · exact absurd List.mem_cons_self hminus
    · exact absurd List.mem_cons_self hplus
    · rfl
  | some c =>
    rcases hsign c rfl with rfl | rfl
    · rfl
    · rfl

namespace Settings

/-- The sign of a number as it shows. -/
def visibleSign (s : Settings) (negative : Bool) : Option Char :=
  if negative then some '-' else if s.flags.plus then some '+' else none

/-- The sign that does not show is at most a space. -/
theorem sign_eq (s : Settings) (negative : Bool) :
    ∃ k, s.sign negative = List.replicate k ' ' ++ (s.visibleSign negative).toList := by
  unfold sign visibleSign
  split
  · exact ⟨0, rfl⟩
  · split
    · exact ⟨0, rfl⟩
    · split
      · exact ⟨1, rfl⟩
      · exact ⟨0, rfl⟩

theorem mem_visibleSign (s : Settings) (negative : Bool) :
    ∀ c ∈ s.visibleSign negative, c = '-' ∨ c = '+' := by
  unfold visibleSign
  split
  · rintro c ⟨⟩
    exact .inl rfl
  · split
    · rintro c ⟨⟩
      exact .inr rfl
    · nofun

/-- Whatever the flags and the width, a number stands between spaces, and its zeros stand between
the mark and the digits. -/
theorem fillFigure_eq (s : Settings) (n : Figure) :
    ∃ before zeros after, s.fillFigure n = List.replicate before ' ' ++
      (((s.visibleSign n.negative).toList ++ (n.mark ++ (List.replicate zeros '0' ++ n.digits))) ++
        List.replicate after ' ') := by
  obtain ⟨k, hsign⟩ := s.sign_eq n.negative
  unfold fillFigure
  dsimp only
  -- a space in place of the sign counts to those in front
  split
  · refine ⟨k, s.width.getD 0 - (utf8Size (s.sign n.negative ++ n.mark) + utf8Size n.digits), 0, ?_⟩
    rw [hsign]
    simp only [List.append_assoc, List.replicate_zero, List.append_nil]
  · unfold fill
    dsimp only
    split
    · refine ⟨k, 0, s.width.getD 0 - (s.sign n.negative ++ n.mark ++ n.digits).length, ?_⟩
      rw [hsign]
      simp only [List.append_assoc, List.replicate_zero, List.nil_append]
    · refine ⟨s.width.getD 0 - (s.sign n.negative ++ n.mark ++ n.digits).length + k, 0, 0, ?_⟩
      rw [hsign]
      simp only [List.append_assoc, List.replicate_zero, List.nil_append, List.append_nil,
        List.replicate_add]

theorem visibleSign_eq_minus_iff {s : Settings} {negative : Bool} :
    s.visibleSign negative = some '-' ↔ negative := by
  cases negative
  · show (if s.flags.plus then some '+' else none) = some '-' ↔ _
    split <;> simp
  · simp [visibleSign]

/-- A number that is shown in a base is read back, with the sign that shows. -/
theorem read?_fillFigure (s : Settings) (radix : Radix) (m : Nat) {n : Figure}
    (hmark : n.mark = if s.flags.alternate then radix.mark else [])
    (hdigits : n.digits = radix.numeral m) :
    radix.script.read? s.flags.alternate (s.fillFigure n) =
      some (s.visibleSign n.negative, if n.negative then -(m : Int) else m) := by
  obtain ⟨before, zeros, after, hshown⟩ := s.fillFigure_eq n
  have hmarked : n.mark ++ (List.replicate zeros '0' ++ n.digits) =
      radix.marked s.flags.alternate zeros m := by
    rw [hmark, hdigits]
    rfl
  have hplain := radix.forall_mem_marked s.flags.alternate zeros m
  have hcore : ∀ c ∈ (s.visibleSign n.negative).toList ++ radix.marked s.flags.alternate zeros m,
      c ≠ ' ' := by
    rintro c hc rfl
    rcases List.mem_append.1 hc with hc | hc
    · rcases s.mem_visibleSign _ ' ' (Option.mem_toList.1 hc) with h | h <;> cases h
    · exact hplain ' ' hc (by decide)
  have hsigned := splitSign_append (s.mem_visibleSign n.negative)
    (fun hc => hplain '-' hc (by decide)) (fun hc => hplain '+' hc (by decide))
  unfold Script.read?
  rw [hshown, hmarked, withoutSpaces_spaced (List.append_ne_nil_of_right_ne_nil _
    (radix.marked_ne_nil _ zeros m)) hcore, hsigned]
  dsimp only
  rw [radix.readMarked?_marked]
  simp only [Option.map_some, visibleSign_eq_minus_iff]

theorem integer?_eq (s : Settings) (radix : Radix) {v : Value} {n : Int}
    (h : v.integer? = some n) :
    s.integer? radix v = some
      ⟨decide (n < 0), if s.flags.alternate then radix.mark else [], radix.numeral n.natAbs⟩ := by
  cases v with
  | int m =>
    cases h
    rfl
  | uint m =>
    cases h
    have hnonneg : decide ((m.toNat : Int) < 0) = false :=
      decide_eq_false (Int.not_lt.2 (Int.natCast_nonneg _))
    rw [hnonneg]
    rfl
  | null | bool _ | float _ | str _ | time _ => cases h

theorem toList_render_integer {s : Settings} {radix : Radix} (hverb : s.verb = .integer radix)
    {v : Value} {n : Int} (h : v.integer? = some n) :
    (s.render v).toList = s.fillFigure
      ⟨decide (n < 0), if s.flags.alternate then radix.mark else [], radix.numeral n.natAbs⟩ :=
  (shownAsNumber_integer? hverb (s.integer?_eq radix h)).2 s.width

end Settings

/-! ## The bytes of a text -/

/-- A byte is two digits. -/
theorem exists_digits (upper : Bool) (b : UInt8) :
    ∃ high low, uppercase upper (zeroFill 2 (Nat.toDigits 16 b.toNat)) = [high, low] ∧
      (Radix.hexadecimal upper).script.readNatural? [high, low] = some b.toNat := by
  have hsplit : uppercase upper (zeroFill 2 (Nat.toDigits 16 b.toNat)) =
      List.replicate (2 - (Nat.toDigits 16 b.toNat).length) '0' ++
        (Radix.hexadecimal upper).numeral b.toNat := by
    unfold zeroFill
    rw [uppercase_append, uppercase_zeros]
    rfl
  have hlength : (uppercase upper (zeroFill 2 (Nat.toDigits 16 b.toNat))).length = 2 := by
    have hdigits : (Nat.toDigits 16 b.toNat).length ≤ 2 :=
      (Nat.length_toDigits_le_iff (by decide) (by decide)).2 b.toNat_lt
    have hcase : ∀ cs : List Char, (uppercase upper cs).length = cs.length := by
      intro cs
      cases upper
      · rfl
      · exact List.length_map _
    rw [hcase, zeroFill, List.length_append, List.length_replicate]
    omega
  obtain ⟨high, low, hpair⟩ := List.length_eq_two.1 hlength
  refine ⟨high, low, hpair, ?_⟩
  rw [← hpair, hsplit, Radix.readNatural?_zeros]

theorem readBytes?_hexBytes (upper : Bool) (t : String) :
    (uppercase upper (hexBytes t)).length = 2 * (utf8 t).length ∧
      (Radix.hexadecimal upper).script.readBytes? (uppercase upper (hexBytes t)) =
        some (utf8 t) := by
  unfold hexBytes
  induction utf8 t with
  | nil => cases upper <;> exact ⟨rfl, rfl⟩
  | cons b bytes ih =>
    obtain ⟨high, low, hpair, hread⟩ := exists_digits upper b
    rw [List.flatMap_cons, uppercase_append, hpair]
    constructor
    · rw [List.length_append, ih.1, List.length_cons]
      show 2 + 2 * bytes.length = 2 * (bytes.length + 1)
      omega
    · rw [List.cons_append, List.cons_append, List.nil_append, Script.readBytes?, hread,
        Option.bind_some, ih.2]
      show some (UInt8.ofNat b.toNat :: bytes) = _
      rw [UInt8.ofNat_toNat]

/-- In every base, with any flags and width, an integer is read back from what is shown of it,
with a minus sign just if it is negative and otherwise with a plus sign just if the flags ask for
one; so different integers are shown differently. A precision changes nothing. Without a width, the
bytes of a text are shown in hexadecimal by two digits each and can be read back. -/
theorem render_radix (flags : Flags) (width precision : Option Nat) (radix : Radix) :
    let s : Settings := ⟨flags, width, precision, .integer radix⟩
    (∀ v n, v.integer? = some n →
      radix.script.read? flags.alternate (s.render v).toList =
        some (if n < 0 then some '-' else if flags.plus then some '+' else none, n)) ∧
    (∀ v v' n n', v.integer? = some n → v'.integer? = some n' → n ≠ n' →
      s.render v ≠ s.render v') ∧
    (∀ v n precision', v.integer? = some n →
      { s with precision := precision' }.render v = s.render v) ∧
    ∀ upper t, radix = .hexadecimal upper → width = none →
      (s.render (.str t)).toList.length = 2 * (utf8 t).length ∧
        radix.script.readBytes? (s.render (.str t)).toList = some (utf8 t) := by
  intro s
  have hread : ∀ v n, v.integer? = some n →
      radix.script.read? flags.alternate (s.render v).toList =
        some (if n < 0 then some '-' else if flags.plus then some '+' else none, n) := by
    intro v n hv
    rw [Settings.toList_render_integer (s := s) rfl hv]
    refine (s.read?_fillFigure radix n.natAbs rfl rfl).trans ?_
    by_cases hn : n < 0
    · simp only [Settings.visibleSign, hn, decide_true, if_true]
      rw [Int.ofNat_natAbs_of_nonpos (Int.le_of_lt hn), Int.neg_neg]
    · simp only [Settings.visibleSign, hn, decide_false, if_false, Bool.false_eq_true]
      rw [Int.natAbs_of_nonneg (Int.not_lt.1 hn)]
  refine ⟨hread, ?_, ?_, ?_⟩
  · intro v v' n n' hv hv' hne heq
    have hboth := hread v n hv
    rw [heq, hread v' n' hv'] at hboth
    exact hne (Prod.mk.inj (Option.some.inj hboth)).2.symm
  · intro v n precision' hv
    refine String.toList_inj.1 ?_
    rw [Settings.toList_render_integer (s := s) rfl hv,
      Settings.toList_render_integer (s := { s with precision := precision' }) rfl hv]
    rfl
  · rintro upper t rfl rfl
    have hshown : s.ShownAsText (.str t) (uppercase upper (hexBytes t)) :=
      Settings.shownAsText_bytes rfl t
    have hunfilled : s.fill (uppercase upper (hexBytes t)) = uppercase upper (hexBytes t) :=
      Settings.fill_of_le (Nat.zero_le _)
    rw [hshown none, hunfilled]
    exact readBytes?_hexBytes upper t

/-- The integer furthest below zero, and one beyond the signed words. -/
theorem render_radix_ends :
    let flags : Flags := { plus := true, zero := true, alternate := true }
    let s : Settings := ⟨flags, some 22, none, .integer (.hexadecimal true)⟩
    let least : Value := .int (-9223372036854775808)
    let most : Value := .uint 18446744073709551615
    least.integer? = some (-9223372036854775808) ∧ most.integer? = some 18446744073709551615 ∧
      s.render least = "-0X0008000000000000000" ∧ s.render most = "+0X000FFFFFFFFFFFFFFFF" ∧
      (Radix.hexadecimal true).script.read? true "-0X0008000000000000000".toList =
        some (some '-', -9223372036854775808) ∧
      (Radix.hexadecimal true).script.read? true "+0X000FFFFFFFFFFFFFFFF".toList =
        some (some '+', 18446744073709551615) ∧
      s.render least ≠ s.render most ∧
      { s with precision := some 3 }.render least = s.render least ∧
      ({ s with width := none }.render (.str "\u00e9!")).toList = "C3A921".toList ∧
      (Radix.hexadecimal true).script.readBytes? "C3A921".toList = some [0xc3, 0xa9, 0x21] := by
  intro flags s least most
  have hleast : least.integer? = some (-9223372036854775808) := rfl
  have hmost : most.integer? = some 18446744073709551615 := rfl
  obtain ⟨hread, hdistinct, hprecision, -⟩ := render_radix flags (some 22) none (.hexadecimal true)
  obtain ⟨-, -, -, hbytes⟩ := render_radix flags none none (.hexadecimal true)
  have hshown : s.render least = "-0X0008000000000000000" := by decide +kernel
  have hshown' : s.render most = "+0X000FFFFFFFFFFFFFFFF" := by decide +kernel
  have htext : ({ s with width := none }.render (.str "\u00e9!")).toList = "C3A921".toList := by
    decide +kernel
  have hback := hread least _ hleast
  have hback' := hread most _ hmost
  have hspelled := (hbytes true "\u00e9!" rfl rfl).2
  exact ⟨hleast, hmost, hshown, hshown', hshown ▸ hback, hshown' ▸ hback',
    hdistinct least most _ _ hleast hmost (by decide), hprecision least _ (some 3) hleast, htext,
    htext ▸ hspelled⟩

end Interpolation.Formatter.Printf
