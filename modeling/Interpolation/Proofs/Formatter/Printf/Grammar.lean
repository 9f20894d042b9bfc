/-
  The grammar of printf specs. A spec is accepted exactly if it is written as flags, a width, a
  precision and a letter, where the numbers have ASCII digits and are not too large
  (`Written.WellFormed`). It is written so in one way only, since a width does not begin with a
  zero, and the settings are those that its parts ask for (`configure_grammar`). A spec is cut
  before its numbers are read, so digits of other scripts are cut off as well and refused then. If
  a spec can be cut at all it is cut (`ofSpec?_isSome_iff`), and with the most flags.
-/
import Interpolation.Formatter.Printf.Spec
import Interpolation.Proofs.Formatter.Fields
import Interpolation.Proofs.Text.Runs
import Mathlib.Data.List.Basic

namespace Interpolation.Formatter.Printf

open Text

/-! ## Kinds of characters -/

theorem isDecimalDigit_of_isAsciiDigit {c : Char} (h : isAsciiDigit c) : isDecimalDigit c := by
  unfold isAsciiDigit at h
  simp only [Bool.and_eq_true, decide_eq_true_eq] at h
  have hlow : ¬ c.toNat < 0x30 := Nat.not_lt.2 h.1
  have hhigh : c.toNat ≤ 0x39 := h.2
  unfold isDecimalDigit decimalDigitRanges
  rw [Ranges.contains, if_neg hlow, if_pos hhigh]

theorem isFlag_iff {c : Char} : isFlag c ↔ c ∈ ['-', '+', ' ', '0', '#'] := List.contains_iff_mem

/-- A zero is the only digit among the flags. -/
theorem eq_zero_of_isFlag {c : Char} (hflag : isFlag c) (hdigit : isDecimalDigit c) : c = '0' := by
  have hall : ∀ c ∈ ['-', '+', ' ', '0', '#'], !isDecimalDigit c || c == '0' :=
    List.all_eq_true.1 (by decide)
  simpa [hdigit] using hall c (isFlag_iff.1 hflag)

/-- The letter that asks for a verb. -/
def Verb.letter : Verb → Char
  | generic => 'v'
  | text => 's'
  | quoted => 'q'
  | integer .decimal => 'd'
  | integer .octal => 'o'
  | integer .binary => 'b'
  | integer (.hexadecimal upper) => if upper then 'X' else 'x'
  | fixed upper => if upper then 'F' else 'f'
  | scientific upper => if upper then 'E' else 'e'
  | truth => 't'
  | character => 'c'

theorem Verb.ofLetter?_eq_some_iff {c : Char} {v : Verb} :
    ofLetter? c = some v ↔ v.letter = c := by
  constructor
  · intro h
    unfold ofLetter? at h
    split at h <;> cases h <;> rfl
  · rintro rfl
    rcases v with _ | _ | _ | (_ | _ | _ | _ | _) | (_ | _) | (_ | _) | _ | _ <;> rfl

/-- The letters of verbs. -/
def letters : List Char := "vsqdfFeExXobtc".toList

theorem mem_letters_iff {c : Char} : c ∈ letters ↔ ∃ v, Verb.ofLetter? c = some v := by
  constructor
  · intro h
    have hall : ∀ c ∈ letters, (Verb.ofLetter? c).isSome := List.all_eq_true.1 (by decide)
    exact Option.isSome_iff_exists.1 (hall c h)
  · rintro ⟨v, hv⟩
    rw [Verb.ofLetter?_eq_some_iff] at hv
    subst hv
    rcases v with _ | _ | _ | (_ | _ | _ | _ | _) | (_ | _) | (_ | _) | _ | _ <;> decide

/-- A letter belongs to no other part of a spec. -/
theorem letter_alone {c : Char} (h : c ∈ letters) :
    isFlag c = false ∧ isDecimalDigit c = false ∧ c ≠ '.' := by
  have hall : ∀ c ∈ letters, !isFlag c && !isDecimalDigit c && c != '.' :=
    List.all_eq_true.1 (by decide)
  simpa [and_assoc] using hall c h

/-! ## Specs by their parts -/

/-- A spec by the characters of its parts: flags, width, the digits of a precision behind a point,
and the letter of a verb. -/
@[ext]
structure Written where
  flags : List Char
  width : List Char
  precision : Option (List Char)
  letter : Option Char
deriving DecidableEq

def pointed : Option (List Char) → List Char
  | none => []
  | some ds => '.' :: ds

namespace Written

def spelling (p : Written) : List Char :=
  p.flags ++ (p.width ++ (pointed p.precision ++ p.letter.toList))

/-- The parts of an accepted spec. -/
structure WellFormed (p : Written) : Prop where
  flags : ∀ c ∈ p.flags, c ∈ ['-', '+', ' ', '0', '#']
  width : IsField p.width
  /-- a zero would be a flag -/
  leading : p.width.head? ≠ some '0'
  precision : ∀ ds ∈ p.precision, IsField ds
  letter : ∀ c ∈ p.letter, c ∈ letters

instance (p : Written) : Decidable p.WellFormed :=
  have : Decidable (∀ c ∈ p.flags, c ∈ ['-', '+', ' ', '0', '#']) := List.decidableBAll _ p.flags
  have : Decidable (∀ c ∈ p.letter, c ∈ letters) := p.letter.decidableForallMem
  decidable_of_iff ((∀ c ∈ p.flags, c ∈ ['-', '+', ' ', '0', '#']) ∧ IsField p.width ∧
      p.width.head? ≠ some '0' ∧ (∀ ds ∈ p.precision, IsField ds) ∧ ∀ c ∈ p.letter, c ∈ letters)
    ⟨fun ⟨hflags, hwidth, hleading, hprecision, hletter⟩ =>
      ⟨hflags, hwidth, hleading, hprecision, hletter⟩,
    fun h => ⟨h.flags, h.width, h.leading, h.precision, h.letter⟩⟩

/-- The settings are those that the parts ask for. -/
structure Asks (p : Written) (settings : Settings) : Prop where
  left : settings.flags.left ↔ '-' ∈ p.flags
  plus : settings.flags.plus ↔ '+' ∈ p.flags
  space : settings.flags.space ↔ ' ' ∈ p.flags
  zero : settings.flags.zero ↔ '0' ∈ p.flags
  alternate : settings.flags.alternate ↔ '#' ∈ p.flags
  width : settings.width = if p.width = [] then none else some (digitsValue p.width)
  precision : settings.precision = p.precision.map digitsValue
  verb : settings.verb.letter = p.letter.getD 'v'

/-- The characters of the parts are of their kinds, but a number may have digits of any script
and any size. -/
structure Matches (p : Written) : Prop where
  flags : ∀ c ∈ p.flags, isFlag c
  width : ∀ c ∈ p.width, isDecimalDigit c
  precision : ∀ ds ∈ p.precision, ∀ c ∈ ds, isDecimalDigit c
  letter : ∀ c ∈ p.letter, c ∈ letters

theorem wellFormed_iff {p : Written} :
    p.WellFormed ↔ p.Matches ∧ p.width.head? ≠ some '0' ∧ IsField p.width ∧
      ∀ ds ∈ p.precision, IsField ds := by
  constructor
  · intro h
    refine ⟨⟨fun c hc => isFlag_iff.2 (h.flags c hc), fun c hc => ?_, fun ds hds c hc => ?_,
      h.letter⟩, h.leading, h.width, h.precision⟩
    · exact isDecimalDigit_of_isAsciiDigit (h.width.1 c hc)
    · exact isDecimalDigit_of_isAsciiDigit ((h.precision ds hds).1 c hc)
  · rintro ⟨h, hleading, hwidth, hprecision⟩
    exact ⟨fun c hc => isFlag_iff.1 (h.flags c hc), hwidth, hleading, hprecision, h.letter⟩

/-! ## The cut of a spec -/

section
variable {p : Written} (h : p.Matches)
include h

theorem Matches.ends_letter : Ends isDecimalDigit p.letter.toList := by
  rcases hl : p.letter with _ | c
  · exact ends_nil _
  · exact ends_cons (letter_alone (h.letter c hl)).2.1

theorem Matches.ends_width :
    Ends isDecimalDigit (pointed p.precision ++ p.letter.toList) := by
  rcases p.precision with _ | ds
  · exact h.ends_letter
  · exact ends_cons (by decide)

theorem Matches.ends_flags (hleading : p.width.head? ≠ some '0') :
    Ends isFlag (p.width ++ (pointed p.precision ++ p.letter.toList)) := by
  rcases hw : p.width with _ | ⟨c, cs⟩
  · rcases p.precision with _ | ds
    · rcases hl : p.letter with _ | c
      · exact ends_nil _
      · exact ends_cons (letter_alone (h.letter c hl)).1
    · exact ends_cons (by decide)
  · rw [hw] at hleading
    refine ends_cons (Bool.eq_false_iff.2 fun hflag => hleading ?_)
    have hdigit := h.width c (hw ▸ List.mem_cons_self)
    exact congrArg some (eq_zero_of_isFlag hflag hdigit)

theorem Matches.splitPrecision :
    Parts.splitPrecision (pointed p.precision ++ p.letter.toList) =
      (p.precision, p.letter.toList) := by
  rcases hd : p.precision with _ | ds
  · rcases hl : p.letter with _ | c
    · rfl
    · have hpoint := (letter_alone (h.letter c hl)).2.2
      show Parts.splitPrecision [c] = (none, [c])
      unfold Parts.splitPrecision
      split
      · next heq => exact absurd (List.cons.inj heq).1 hpoint
      · rfl
  · show (some ((ds ++ p.letter.toList).takeWhile isDecimalDigit),
      (ds ++ p.letter.toList).dropWhile isDecimalDigit) = _
    have hds := h.precision ds hd
    rw [takeWhile_run hds h.ends_letter, dropWhile_run hds h.ends_letter]

/-- A spec is cut into the parts as which it is written, if no zero begins the width. -/
theorem Matches.ofSpec? (hleading : p.width.head? ≠ some '0') :
    ∃ verb : Verb, verb.letter = p.letter.getD 'v' ∧
      Parts.ofSpec? p.spelling = some ⟨p.flags, p.width, p.precision, verb⟩ := by
  have hflags := h.ends_flags hleading
  have hverb : ∃ verb : Verb, verb.letter = p.letter.getD 'v' ∧
      Parts.verb? p.letter.toList = some verb := by
    rcases hl : p.letter with _ | c
    · exact ⟨.generic, rfl, rfl⟩
    · obtain ⟨verb, hverb⟩ := mem_letters_iff.1 (h.letter c hl)
      exact ⟨verb, Verb.ofLetter?_eq_some_iff.1 hverb, hverb⟩
  obtain ⟨verb, hletter, hverb⟩ := hverb
  refine ⟨verb, hletter, ?_⟩
  unfold Parts.ofSpec? spelling
  dsimp only
  rw [takeWhile_run h.flags hflags, dropWhile_run h.flags hflags,
    takeWhile_run h.width h.ends_width, dropWhile_run h.width h.ends_width, h.splitPrecision]
  dsimp only
  rw [hverb]
  rfl

end

theorem exists_pointed (cs : List Char) :
    ∃ precision rest, cs = pointed precision ++ rest ∧
      (∀ ds ∈ precision, ∀ c ∈ ds, isDecimalDigit c) ∧
      Parts.splitPrecision cs = (precision, rest) := by
  unfold Parts.splitPrecision
  split
  · next cs =>
    obtain ⟨ds, rest, rfl, hds, hrest⟩ := exists_run isDecimalDigit cs
    rw [takeWhile_run hds hrest, dropWhile_run hds hrest]
    exact ⟨some ds, rest, rfl, by simpa using hds, rfl⟩
  · exact ⟨none, cs, rfl, by simp, rfl⟩

theorem exists_letter {rest : List Char} {verb : Verb} (h : Parts.verb? rest = some verb) :
    ∃ letter : Option Char, rest = letter.toList ∧ ∀ c ∈ letter, c ∈ letters := by
  unfold Parts.verb? at h
  split at h
  · exact ⟨none, rfl, by simp⟩
  · next c => exact ⟨some c, rfl, by simpa using mem_letters_iff.2 ⟨verb, h⟩⟩
  · cases h

/-- A spec that is cut into parts is written in that way, and no zero begins the width. -/
theorem exists_matches {cs : List Char} {parts : Parts} (h : Parts.ofSpec? cs = some parts) :
    ∃ p : Written, p.Matches ∧ p.width.head? ≠ some '0' ∧ p.spelling = cs := by
  obtain ⟨flags, afterFlags, rfl, hflags, hends⟩ := exists_run isFlag cs
  obtain ⟨width, afterWidth, rfl, hwidth, hends'⟩ := exists_run isDecimalDigit afterFlags
  obtain ⟨precision, rest, rfl, hprecision, hsplit⟩ := exists_pointed afterWidth
  unfold Parts.ofSpec? at h
  dsimp only at h
  rw [dropWhile_run hflags hends, dropWhile_run hwidth hends', hsplit] at h
  obtain ⟨verb, hverb, -⟩ := Option.bind_eq_some_iff.1 h
  obtain ⟨letter, rfl, hletter⟩ := exists_letter hverb
  refine ⟨⟨flags, width, precision, letter⟩, ⟨hflags, hwidth, hprecision, hletter⟩, ?_, rfl⟩
  intro hzero
  obtain ⟨cs, rfl⟩ := List.head?_eq_some_iff.1 hzero
  cases hends '0' rfl

/-- The parts of a spec are those as which it is written. -/
theorem exists_matches_parts {cs : List Char} {parts : Parts} (h : Parts.ofSpec? cs = some parts) :
    ∃ p : Written, p.Matches ∧ p.width.head? ≠ some '0' ∧ p.spelling = cs ∧
      ∃ verb, parts = ⟨p.flags, p.width, p.precision, verb⟩ := by
  obtain ⟨p, hmatches, hleading, hspelling⟩ := exists_matches h
  obtain ⟨verb, -, hparts⟩ := hmatches.ofSpec? hleading
  rw [hspelling, h] at hparts
  exact ⟨p, hmatches, hleading, hspelling, verb, Option.some.inj hparts⟩

/-- However a spec is written, its zeros before the width can be taken for flags. -/
theorem Matches.exists_leading {p : Written} (h : p.Matches) :
    ∃ q : Written, q.Matches ∧ q.width.head? ≠ some '0' ∧ q.spelling = p.spelling ∧
      p.flags <+: q.flags := by
  obtain ⟨zeros, width, hwidth, hzeros, hends⟩ := exists_run (· == '0') p.width
  refine ⟨⟨p.flags ++ zeros, width, p.precision, p.letter⟩, ⟨?_, ?_, h.precision, h.letter⟩, ?_,
    ?_, List.prefix_append _ _⟩
  · intro c hc
    rcases List.mem_append.1 hc with hc | hc
    · exact h.flags c hc
    · rw [eq_of_beq (hzeros c hc)]
      decide
  · exact fun c hc => h.width c (hwidth ▸ List.mem_append_right _ hc)
  · exact fun hzero => absurd (hends '0' hzero) (by decide)
  · unfold spelling
    rw [hwidth]
    simp only [List.append_assoc]

/-- However a spec is written, it is cut, and no other way to write it has more flags. -/
theorem Matches.exists_parts {p : Written} (h : p.Matches) :
    ∃ parts, Parts.ofSpec? p.spelling = some parts ∧ p.flags <+: parts.flags := by
  obtain ⟨q, hq, hleading, hspelling, hflags⟩ := h.exists_leading
  obtain ⟨verb, -, hparts⟩ := hq.ofSpec? hleading
  rw [← hspelling, hparts]
  exact ⟨_, rfl, hflags⟩

/-- The cut misses no spec that can be written in any way. -/
theorem ofSpec?_isSome_iff {cs : List Char} :
    (Parts.ofSpec? cs).isSome ↔ ∃ p : Written, p.Matches ∧ p.spelling = cs := by
  rw [Option.isSome_iff_exists]
  constructor
  · rintro ⟨parts, hparts⟩
    obtain ⟨p, hp, -, hspelling⟩ := exists_matches hparts
    exact ⟨p, hp, hspelling⟩
  · rintro ⟨p, hp, rfl⟩
    obtain ⟨parts, hparts, -⟩ := hp.exists_parts
    exact ⟨parts, hparts⟩

/-- A spec is written in one way only, if no zero begins the width. -/
theorem spelling_unique {p q : Written} (hp : p.Matches) (hp' : p.width.head? ≠ some '0')
    (hq : q.Matches) (hq' : q.width.head? ≠ some '0') (h : p.spelling = q.spelling) : p = q := by
  obtain ⟨verb, -, hparts⟩ := hp.ofSpec? hp'
  obtain ⟨verb', -, hparts'⟩ := hq.ofSpec? hq'
  rw [h, hparts'] at hparts
  obtain ⟨hflags, hwidth, hprecision, -⟩ := Parts.mk.inj (Option.some.inj hparts)
  -- a missing letter asks for the same verb as `v`, so only the spelling tells them apart
  unfold spelling at h
  rw [hflags, hwidth, hprecision] at h
  have htoList : p.letter.toList = q.letter.toList :=
    List.append_cancel_left (List.append_cancel_left (List.append_cancel_left h))
  have hletter : p.letter = q.letter := by simpa using congrArg List.head? htoList
  exact Written.ext hflags.symm hwidth.symm hprecision.symm hletter

end Written

/-! ## The numbers of a spec -/

theorem some_eq_ok_iff {x : Except String Nat} {number : Option Nat} :
    some <$> x = .ok number ↔ ∃ n, x = .ok n ∧ number = some n := by
  cases x with
  | error e => simp [Functor.map, Except.map]
  | ok n => simp [Functor.map, Except.map, eq_comm]

theorem some_fieldNumber_eq_ok_iff {what : String} {ds : List Char} {number : Option Nat}
    (hne : ds ≠ []) (hplus : ds.head? ≠ some '+') :
    some <$> fieldNumber what ds = .ok number ↔ IsField ds ∧ number = some (digitsValue ds) := by
  simp only [some_eq_ok_iff, fieldNumber_eq_ok_iff hne hplus]
  constructor
  · rintro ⟨n, ⟨hds, rfl⟩, hnumber⟩
    exact ⟨hds, hnumber⟩
  · rintro ⟨hds, hnumber⟩
    exact ⟨_, ⟨hds, rfl⟩, hnumber⟩

theorem isField_nil : IsField [] := ⟨List.forall_mem_nil _, by decide⟩

theorem head?_ne_plus {ds : List Char} (hds : ∀ c ∈ ds, isDecimalDigit c) :
    ds.head? ≠ some '+' := by
  intro h
  obtain ⟨cs, rfl⟩ := List.head?_eq_some_iff.1 h
  exact absurd (hds '+' List.mem_cons_self) (by decide)

section
variable {p : Written} {parts : Parts} {width precision : Option Nat} (h : p.Matches)
include h

theorem Written.Matches.widthNumber_eq_ok_iff (hparts : parts.width = p.width) :
    parts.widthNumber = .ok width ↔
      IsField p.width ∧ width = if p.width = [] then none else some (digitsValue p.width) := by
  unfold Parts.widthNumber
  rw [hparts]
  by_cases hnil : p.width = []
  · simp [hnil, isField_nil, eq_comm]
  · rw [if_neg hnil, if_neg (by simpa using hnil)]
    exact some_fieldNumber_eq_ok_iff hnil (head?_ne_plus h.width)

theorem Written.Matches.precisionNumber_eq_ok_iff (hparts : parts.precision = p.precision) :
    parts.precisionNumber = .ok precision ↔
      (∀ ds ∈ p.precision, IsField ds) ∧ precision = p.precision.map digitsValue := by
  unfold Parts.precisionNumber
  rw [hparts]
  rcases hp : p.precision with _ | _ | ⟨c, cs⟩
  · simp [eq_comm]
  · simp [isField_nil, digitsValue, eq_comm]
  · have hplus := head?_ne_plus (h.precision _ hp)
    simpa using some_fieldNumber_eq_ok_iff (List.cons_ne_nil c cs) hplus

end

/-! ## Accepted and refused specs -/

/-- A spec is refused, or it is cut into parts whose numbers can be read. -/
theorem Settings.configure_cases (settings : Settings) (spec : String) :
    (∃ reason, (settings.configure spec).2 = refusal spec reason) ∨
      ∃ parts width precision, Parts.ofSpec? spec.toList = some parts ∧
        parts.widthNumber = .ok width ∧ parts.precisionNumber = .ok precision ∧
        settings.configure spec =
          (⟨Flags.ofChars parts.flags, width, precision, parts.verb⟩, .ok ()) := by
  unfold configure
  split
  · exact .inl ⟨_, rfl⟩
  · next parts hparts =>
    dsimp only
    split
    · exact .inl ⟨_, rfl⟩
    · next width hwidth =>
      split
      · exact .inl ⟨_, rfl⟩
      · next precision hprecision =>
        exact .inr ⟨parts, width, precision, hparts, hwidth, hprecision, rfl⟩

theorem Settings.configure_eq_ok (settings : Settings) {spec : String} {parts : Parts}
    {width precision : Option Nat} (hparts : Parts.ofSpec? spec.toList = some parts)
    (hwidth : parts.widthNumber = .ok width)
    (hprecision : parts.precisionNumber = .ok precision) :
    settings.configure spec =
      (⟨Flags.ofChars parts.flags, width, precision, parts.verb⟩, .ok ()) := by
  unfold configure
  rw [hparts]
  dsimp only
  rw [hwidth]
  dsimp only
  rw [hprecision]

namespace Written

variable {p : Written} {settings : Settings} {spec : String}

/-- A spec that is written well is accepted, with the settings that its parts ask for. -/
theorem WellFormed.configure (settings : Settings) (h : p.WellFormed)
    (hspelling : p.spelling = spec.toList) :
    ∃ s, settings.configure spec = (s, .ok ()) ∧ p.Asks s := by
  obtain ⟨hmatches, hleading, hwidth, hprecision⟩ := wellFormed_iff.1 h
  obtain ⟨verb, hverb, hparts⟩ := hmatches.ofSpec? hleading
  rw [hspelling] at hparts
  refine ⟨_, settings.configure_eq_ok hparts
    ((hmatches.widthNumber_eq_ok_iff rfl).2 ⟨hwidth, rfl⟩)
    ((hmatches.precisionNumber_eq_ok_iff rfl).2 ⟨hprecision, rfl⟩), ?_⟩
  exact ⟨List.contains_iff_mem, List.contains_iff_mem, List.contains_iff_mem,
    List.contains_iff_mem, List.contains_iff_mem, rfl, rfl, hverb⟩

/-- A spec that is accepted is written well. -/
theorem exists_wellFormed (h : (settings.configure spec).2 = .ok ()) :
    ∃ p : Written, p.WellFormed ∧ p.spelling = spec.toList := by
  rcases settings.configure_cases spec with ⟨reason, hrefused⟩ | hcases
  · rw [hrefused] at h
    cases h
  · obtain ⟨parts, width, precision, hparts, hwidth, hprecision, -⟩ := hcases
    obtain ⟨p, hmatches, hleading, hspelling, verb, rfl⟩ := exists_matches_parts hparts
    have hwidth := ((hmatches.widthNumber_eq_ok_iff rfl).1 hwidth).1
    have hprecision := ((hmatches.precisionNumber_eq_ok_iff rfl).1 hprecision).1
    exact ⟨p, wellFormed_iff.2 ⟨hmatches, hleading, hwidth, hprecision⟩, hspelling⟩

theorem WellFormed.unique {q : Written} (hp : p.WellFormed) (hq : q.WellFormed)
    (h : p.spelling = q.spelling) : p = q := by
  obtain ⟨hmatches, hleading, -⟩ := wellFormed_iff.1 hp
  obtain ⟨hmatches', hleading', -⟩ := wellFormed_iff.1 hq
  exact spelling_unique hmatches hleading hmatches' hleading' h

/-- A width is absent, or it is not zero. -/
theorem WellFormed.width_ne_zero (h : p.WellFormed) (hasks : p.Asks settings) :
    settings.width ≠ some 0 := by
  rw [hasks.width]
  split
  · exact Option.some_ne_none 0 ∘ Eq.symm
  · next hne =>
    intro hzero
    exact digitsValue_ne_zero hne h.width.1 h.leading (Option.some.inj hzero)

end Written

/-- Whatever the settings before, a spec is accepted exactly if it is written as flags, a width, a
precision and a letter that are well-formed. It is written so in one way only, and its settings are
those that the parts ask for; a width of zero cannot be asked for. Every other spec is refused. -/
theorem configure_grammar (settings : Settings) (spec : String) :
    ((settings.configure spec).2 = .ok () ↔
      ∃ p : Written, p.WellFormed ∧ p.spelling = spec.toList) ∧
    (∀ p : Written, p.WellFormed → p.spelling = spec.toList →
      p.Asks (settings.configure spec).1 ∧ (settings.configure spec).1.width ≠ some 0 ∧
        ∀ q : Written, q.WellFormed → q.spelling = spec.toList → q = p) ∧
    ((¬ ∃ p : Written, p.WellFormed ∧ p.spelling = spec.toList) →
      ∃ reason, (settings.configure spec).2 = .error (.formatterSpec spec reason)) := by
  have haccepted : (settings.configure spec).2 = .ok () ↔
      ∃ p : Written, p.WellFormed ∧ p.spelling = spec.toList := by
    refine ⟨Written.exists_wellFormed, ?_⟩
    rintro ⟨p, hp, hspelling⟩
    obtain ⟨s, hs, -⟩ := hp.configure settings hspelling
    rw [hs]
  refine ⟨haccepted, fun p hp hspelling => ?_, fun hnone => ?_⟩
  · obtain ⟨s, hs, hasks⟩ := hp.configure settings hspelling
    rw [hs]
    exact ⟨hasks, hp.width_ne_zero hasks,
      fun q hq hspelling' => hq.unique hp (hspelling'.trans hspelling.symm)⟩
  · rcases settings.configure_cases spec with hrefused | ⟨_, _, _, _, _, _, hok⟩
    · exact hrefused
    · exact absurd (haccepted.1 (congrArg Prod.snd hok)) hnone

/-- Zeros are a flag, or begin a precision; a digit of another script is refused. -/
theorem configure_grammar_zeros :
    let settings : Settings := { width := some 5, verb := .text }
    let p : Written := ⟨['0', '+', '0'], ['8'], some ['0', '3'], some 'f'⟩
    p.WellFormed ∧ p.spelling = "0+08.03f".toList ∧
      p.Asks (settings.configure "0+08.03f").1 ∧
      settings.configure "0+08.03f" =
        (⟨{ plus := true, zero := true }, some 8, some 3, .fixed false⟩, .ok ()) ∧
      (¬ ∃ q : Written, q.WellFormed ∧ q.spelling = "\u0663d".toList) ∧
      ∃ reason, (settings.configure "\u0663d").2 = .error (.formatterSpec "\u0663d" reason) := by
  intro settings p
  have hp : p.WellFormed := by decide
  have hspelling : p.spelling = "0+08.03f".toList := by decide
  obtain ⟨-, hasks, -⟩ := configure_grammar settings "0+08.03f"
  obtain ⟨haccepted, -, hrefused⟩ := configure_grammar settings "\u0663d"
  have hnone : ¬ ∃ q : Written, q.WellFormed ∧ q.spelling = "\u0663d".toList := by
    rw [← haccepted]
    decide
  exact ⟨hp, hspelling, (hasks p hp hspelling).1, by decide, hnone, hrefused hnone⟩

end Interpolation.Formatter.Printf
