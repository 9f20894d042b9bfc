/-
  Numerals: what a run of digits is read as (`readUnsigned_digits`), that nothing else is read
  without a sign (`readWord_eq_ok_iff`), that the digits of a number spell it
  (`digitsValue_toDigits`), and that an integer is read back from its decimal text
  (`readInteger_decimalInt`).
-/
import Interpolation.Text.Blank
import Interpolation.Text.Numeral

namespace Interpolation.Text

/-- The number that decimal digits spell. -/
def digitsValue (ds : List Char) : Nat := Nat.ofDigitChars 10 ds 0

theorem le_ofDigitChars (ds : List Char) (n : Nat) : n ≤ Nat.ofDigitChars 10 ds n := by
  induction ds generalizing n with
  | nil => exact Nat.le_of_eq Nat.ofDigitChars_nil.symm
  | cons c cs ih =>
    rw [Nat.ofDigitChars_cons]
    have := ih (10 * n + (c.toNat - '0'.toNat))
    omega

/-- Digits after a value that fits are read to the end, or to the first that is one too many. -/
theorem readDigits_digits {maximum : Nat} {excess : NumeralError} {ds : List Char} {n : Nat}
    (hds : ∀ c ∈ ds, isAsciiDigit c) (hn : n ≤ maximum) :
    readDigits maximum excess n ds =
      if Nat.ofDigitChars 10 ds n ≤ maximum then .ok (Nat.ofDigitChars 10 ds n)
      else .error excess := by
  induction ds generalizing n with
  | nil => rw [Nat.ofDigitChars_nil, if_pos hn, readDigits]
  | cons c cs ih =>
    have hvalue : n * 10 + digitValue c = 10 * n + (c.toNat - '0'.toNat) := by
      rw [Nat.mul_comm]
      rfl
    rw [readDigits, if_pos (hds c List.mem_cons_self), hvalue, Nat.ofDigitChars_cons]
    by_cases hle : 10 * n + (c.toNat - '0'.toNat) ≤ maximum
    · rw [if_pos hle]
      exact ih (fun d hd => hds d (List.mem_cons_of_mem c hd)) hle
    · have := le_ofDigitChars cs (10 * n + (c.toNat - '0'.toNat))
      rw [if_neg hle, if_neg (by omega)]

/-- At least one digit is read as the number it spells, if that is at most the largest. -/
theorem readUnsigned_digits {maximum : Nat} {ds : List Char} (hne : ds ≠ [])
    (hds : ∀ c ∈ ds, isAsciiDigit c) :
    readUnsigned maximum ds =
      if digitsValue ds ≤ maximum then .ok (digitsValue ds) else .error .tooLarge := by
  have hplus : ∀ cs, ds ≠ '+' :: cs := by
    rintro cs rfl
    exact absurd (hds '+' List.mem_cons_self) (by decide)
  unfold digitsValue
  rw [readUnsigned]
  · exact readDigits_digits hds (Nat.zero_le _)
  · exact hne
  · exact hplus []
  · exact hplus

theorem readWord_digits {ds : List Char} (hne : ds ≠ []) (hds : ∀ c ∈ ds, isAsciiDigit c) :
    readWord ds =
      if digitsValue ds ≤ maxUnsigned then .ok (digitsValue ds) else .error .tooLarge :=
  readUnsigned_digits hne hds

theorem isAsciiDigit_of_readDigits {maximum : Nat} {excess : NumeralError} {ds : List Char}
    {value n : Nat} (h : readDigits maximum excess value ds = .ok n) :
    ∀ c ∈ ds, isAsciiDigit c := by
  induction ds generalizing value with
  | nil => exact List.forall_mem_nil _
  | cons c cs ih =>
    rw [readDigits] at h
    split at h
    · next hc =>
      split at h
      · exact List.forall_mem_cons.2 ⟨hc, ih h⟩
      · cases h
    · cases h

/-- Without a sign, just the digits of a number that fits a word are read as this number. -/
theorem readWord_eq_ok_iff {ds : List Char} {n : Nat} (hplus : ds.head? ≠ some '+') :
    readWord ds = .ok n ↔
      ds ≠ [] ∧ (∀ c ∈ ds, isAsciiDigit c) ∧ digitsValue ds = n ∧ n ≤ maxUnsigned := by
  constructor
  · intro h
    have hds : ∀ c ∈ ds, isAsciiDigit c := by
      unfold readWord readUnsigned at h
      split at h
      · cases h
      · cases h
      · cases hplus rfl
      · exact isAsciiDigit_of_readDigits h
    have hne : ds ≠ [] := by
      rintro rfl
      cases h
    rw [readWord_digits hne hds] at h
    split at h
    · next hle =>
      cases h
      exact ⟨hne, hds, rfl, hle⟩
    · cases h
  · rintro ⟨hne, hds, rfl, hle⟩
    rw [readWord_digits hne hds, if_pos hle]

/-- A word is read as without the plus sign in front of it, but a second sign is refused. -/
theorem readWord_plus {cs : List Char} {n : Nat} :
    readWord ('+' :: cs) = .ok n ↔ cs.head? ≠ some '+' ∧ readWord cs = .ok n := by
  cases cs with
  | nil => exact ⟨nofun, fun h => nomatch h.2⟩
  | cons c cs =>
    by_cases hc : c = '+'
    · subst hc
      exact ⟨nofun, fun h => absurd rfl h.1⟩
    · have hread : readWord ('+' :: c :: cs) = readWord (c :: cs) := by
        unfold readWord
        rw [readUnsigned, readUnsigned]
        · exact List.cons_ne_nil c cs
        · exact fun h => hc (List.cons.inj h).1
        · exact fun ds h => hc (List.cons.inj h).1
        · exact List.cons_ne_nil c cs
      have hhead : (c :: cs).head? ≠ some '+' := fun h => hc (Option.some.inj h)
      rw [hread]
      exact ⟨fun h => ⟨hhead, h⟩, fun h => h.2⟩

/-- Digits that do not begin with a zero do not stand for zero. -/
theorem digitsValue_ne_zero {ds : List Char} (hne : ds ≠ []) (hds : ∀ c ∈ ds, isAsciiDigit c)
    (hzero : ds.head? ≠ some '0') : digitsValue ds ≠ 0 := by
  obtain ⟨c, cs, rfl⟩ := List.exists_cons_of_ne_nil hne
  have hc : '0'.toNat ≤ c.toNat := by
    have := hds c List.mem_cons_self
    unfold isAsciiDigit at this
    simp only [Bool.and_eq_true, decide_eq_true_eq] at this
    exact this.1
  have hzero' : c.toNat ≠ '0'.toNat := by
    intro h
    exact hzero (congrArg some (Char.toNat_inj.1 h))
  have hle := le_ofDigitChars cs (10 * 0 + (c.toNat - '0'.toNat))
  unfold digitsValue
  rw [Nat.ofDigitChars_cons]
  omega

theorem not_isAsciiDigit_of_isBlank {c : Char} (h : isBlank c) : isAsciiDigit c = false := by
  have hblanks : blanks.all (fun c => !isAsciiDigit c) := by decide
  simpa using List.all_eq_true.1 hblanks c (List.contains_iff_mem.1 h)

theorem not_isBlank_of_isAsciiDigit {c : Char} (h : isAsciiDigit c) : isBlank c = false := by
  cases hc : isBlank c with
  | false => rfl
  | true => rw [not_isAsciiDigit_of_isBlank hc] at h; cases h

theorem isAsciiDigit_of_mem_toDigits {n : Nat} {c : Char} (hc : c ∈ Nat.toDigits 10 n) :
    isAsciiDigit c := by
  have h := Nat.isDigit_of_mem_toDigits (by decide) (by decide) hc
  unfold Char.isDigit at h
  unfold isAsciiDigit
  simpa [Char.le_def] using h

/-- What holds of the digits of a base holds of all digits of a number. -/
theorem forall_mem_toDigits {b : Nat} (hb : 1 < b) {P : Char → Prop}
    (h : ∀ d < b, P (Nat.digitChar d)) (n : Nat) : ∀ c ∈ Nat.toDigits b n, P c := by
  induction n using Nat.strongRecOn with
  | ind n ih =>
    rw [Nat.toDigits_eq_if hb]
    split
    · next hlt => exact List.forall_mem_singleton.2 (h n hlt)
    · next hge =>
      have hlt : n / b < n := Nat.div_lt_self (by omega) hb
      exact List.forall_mem_append.2 ⟨ih (n / b) hlt,
        List.forall_mem_singleton.2 (h (n % b) (Nat.mod_lt n (by omega)))⟩

theorem forall_mem_zeroFill {P : Char → Prop} (hzero : P '0') (width : Nat) {cs : List Char}
    (h : ∀ c ∈ cs, P c) : ∀ c ∈ zeroFill width cs, P c :=
  List.forall_mem_append.2 ⟨fun _ hc => List.eq_of_mem_replicate hc ▸ hzero, h⟩

theorem digitsValue_toDigits (n : Nat) : digitsValue (Nat.toDigits 10 n) = n :=
  Nat.ofDigitChars_ten_toDigits

/-- Only the digits of zero begin with a zero. -/
theorem head?_toDigits {n : Nat} (hn : n ≠ 0) : (Nat.toDigits 10 n).head? ≠ some '0' := by
  induction n using Nat.strongRecOn with
  | ind n ih =>
    rw [Nat.toDigits_eq_if (by decide)]
    split
    · next hlt =>
      have hall : ∀ d < 10, d ≠ 0 → [Nat.digitChar d].head? ≠ some '0' := by decide
      exact hall n hlt hn
    · next hge =>
      have hhead := ih (n / 10) (by omega) (by omega)
      obtain ⟨c, cs, hcons⟩ :=
        List.exists_cons_of_ne_nil (Nat.toDigits_ne_nil (b := 10) (n := n / 10))
      rw [hcons] at hhead ⊢
      exact hhead

theorem length_zeroFill (width : Nat) (cs : List Char) :
    (zeroFill width cs).length = max width cs.length := by
  unfold zeroFill
  rw [List.length_append, List.length_replicate]
  omega

theorem zeroFill_of_le {width : Nat} {cs : List Char} (h : width ≤ cs.length) :
    zeroFill width cs = cs := by
  unfold zeroFill
  rw [Nat.sub_eq_zero_of_le h]
  rfl

theorem digitsValue_zeroFill (width : Nat) (cs : List Char) :
    digitsValue (zeroFill width cs) = digitsValue cs := by
  unfold zeroFill digitsValue
  rw [Nat.ofDigitChars_append]
  induction width - cs.length with
  | zero => rfl
  | succ k ih =>
    rw [List.replicate_succ, Nat.ofDigitChars_cons]
    exact ih

/-! ## Integers -/

/-- The integer is one of a signed word of 64 bits. -/
def FitsSigned (n : Int) : Prop := -9223372036854775808 ≤ n ∧ n < 9223372036854775808

instance : DecidablePred FitsSigned := fun _ => inferInstanceAs (Decidable (_ ∧ _))

/-- The integer is one of a signed or of an unsigned word of 64 bits. -/
def FitsWord (n : Int) : Prop := -9223372036854775808 ≤ n ∧ n < 18446744073709551616

instance : DecidablePred FitsWord := fun _ => inferInstanceAs (Decidable (_ ∧ _))

theorem decimalInt_natCast (n : Nat) : decimalInt n = decimal n :=
  if_neg (Int.not_lt.2 (Int.natCast_nonneg n))

/-- An integer in decimal is a sign, if it is negative, and the digits of its magnitude. -/
theorem toList_decimalInt (n : Int) :
    (decimalInt n).toList = (if n < 0 then ['-'] else []) ++ Nat.toDigits 10 n.natAbs := by
  unfold decimalInt decimal
  split
  · rw [String.toList_append, String.toList_ofList, String.toList_ofList]
  · exact String.toList_ofList

theorem forall_mem_decimalInt {P : Char → Prop} (hdigit : ∀ c, isAsciiDigit c → P c)
    (hminus : P '-') (n : Int) : ∀ c ∈ (decimalInt n).toList, P c := by
  rw [toList_decimalInt]
  refine List.forall_mem_append.2 ⟨?_, fun c hc => hdigit c (isAsciiDigit_of_mem_toDigits hc)⟩
  split
  · exact List.forall_mem_singleton.2 hminus
  · exact List.forall_mem_nil _

theorem decimalInt_ne_nil (n : Int) : (decimalInt n).toList ≠ [] := by
  rw [toList_decimalInt]
  exact List.append_ne_nil_of_right_ne_nil _ Nat.toDigits_ne_nil

/-- An integer that fits a signed word is read back from its decimal text. -/
theorem readInteger_decimalInt {n : Int} (hn : FitsSigned n) :
    readInteger (decimalInt n).toList = .ok n := by
  obtain ⟨hlow, hhigh⟩ := hn
  have hdigits : ∀ c ∈ Nat.toDigits 10 n.natAbs, isAsciiDigit c :=
    fun _ => isAsciiDigit_of_mem_toDigits
  have hvalue := digitsValue_toDigits n.natAbs
  have hmax : maxSigned = 9223372036854775807 := rfl
  rw [toList_decimalInt]
  split
  · next hneg =>
    have hread : readDigits (maxSigned + 1) .tooSmall 0 (Nat.toDigits 10 n.natAbs) =
        .ok n.natAbs := by
      rw [readDigits_digits hdigits (Nat.zero_le _)]
      show (if digitsValue (Nat.toDigits 10 n.natAbs) ≤ _ then
        Except.ok (digitsValue (Nat.toDigits 10 n.natAbs)) else _) = _
      rw [hvalue, if_pos (by omega)]
    rw [List.singleton_append, readInteger, hread]
    · show Except.ok (-(n.natAbs : Int)) = .ok n
      rw [Int.ofNat_natAbs_of_nonpos (Int.le_of_lt hneg), Int.neg_neg]
    · exact Nat.toDigits_ne_nil
  · next hnonneg =>
    have hread : readUnsigned maxSigned (Nat.toDigits 10 n.natAbs) = .ok n.natAbs := by
      rw [readUnsigned_digits Nat.toDigits_ne_nil hdigits, hvalue, if_pos (by omega)]
    have hminus : ∀ cs, Nat.toDigits 10 n.natAbs ≠ '-' :: cs := by
      intro cs heq
      exact absurd (hdigits '-' (heq ▸ List.mem_cons_self)) (by decide)
    rw [List.nil_append, readInteger, hread]
    · show Except.ok (n.natAbs : Int) = .ok n
      rw [Int.natAbs_of_nonneg (Int.not_lt.1 hnonneg)]
    · exact hminus []
    · exact hminus

end Interpolation.Text
