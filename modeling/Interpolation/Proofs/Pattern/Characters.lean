/-
  The byte machine over characters. All bytes of a character are of one class, so the machine
  leaves a state at the first byte of a character or not at all, and what it reads is told by
  characters: a stretch of characters that the state stays on, and the character that ends it.
-/
import Interpolation.Pattern.Token
import Interpolation.Proofs.Text.Runs

namespace Interpolation.Pattern

open Text

/-! ## Classes of characters -/

/-- What the machine sees of every byte of a character. -/
def ByteClass.ofChar (c : Char) : ByteClass :=
  if c = '\x00' then .nul
  else if isAsciiDigit c then .digit
  else if c = ':' then .colon
  else if c = '{' then .opening
  else if c = '}' then .closing
  else .other

theorem encoding_of_ascii {c : Char} (hc : c.val.toNat ≤ 127) :
    String.utf8EncodeChar c = [UInt8.ofNat c.val.toNat] := by
  unfold String.utf8EncodeChar
  exact if_pos hc

theorem le_of_mem_encoding {c : Char} {b : UInt8} (hc : ¬ c.val.toNat ≤ 127)
    (hb : b ∈ String.utf8EncodeChar c) : 128 ≤ b.toNat := by
  unfold String.utf8EncodeChar at hb
  simp only [if_neg hc] at hb
  split at hb
  · simp only [List.mem_cons, List.not_mem_nil, or_false] at hb
    rcases hb with rfl | rfl <;> simp only [UInt8.toNat_ofNat'] <;> omega
  · split at hb
    · simp only [List.mem_cons, List.not_mem_nil, or_false] at hb
      rcases hb with rfl | rfl | rfl <;> simp only [UInt8.toNat_ofNat'] <;> omega
    · simp only [List.mem_cons, List.not_mem_nil, or_false] at hb
      rcases hb with rfl | rfl | rfl | rfl <;> simp only [UInt8.toNat_ofNat'] <;> omega

namespace ByteClass

theorem of_eq_other {b : UInt8} (hb : 128 ≤ b.toNat) : ByteClass.of b = .other := by
  have hne : ∀ a : UInt8, a.toNat < 128 → b ≠ a := fun a ha h => by subst h; omega
  have hle : ¬ b ≤ '9'.toUInt8 := by
    rw [UInt8.le_iff_toNat_le]
    have : ('9'.toUInt8).toNat = 57 := rfl
    omega
  unfold ByteClass.of
  rw [if_neg (hne 0 (by decide)), if_neg (fun h => hle h.2), if_neg (hne _ (by decide)),
    if_neg (hne _ (by decide)), if_neg (hne _ (by decide))]

theorem ofChar_eq_other {c : Char} (hc : ¬ c.val.toNat ≤ 127) : ofChar c = .other := by
  have hne : ∀ d : Char, d.val.toNat ≤ 127 → c ≠ d := fun d hd h => hc (h ▸ hd)
  have hdigit : ¬ isAsciiDigit c := by
    intro h
    simp only [isAsciiDigit, Bool.and_eq_true, decide_eq_true_eq, Char.le_def,
      UInt32.le_iff_toNat_le] at h
    have : ('9' : Char).val.toNat = 57 := rfl
    omega
  unfold ofChar
  rw [if_neg (hne _ (by decide)), if_neg hdigit, if_neg (hne _ (by decide)),
    if_neg (hne _ (by decide)), if_neg (hne _ (by decide))]

theorem of_ascii (n : Nat) (hn : n < 128) :
    ByteClass.of (UInt8.ofNat n) = ofChar (Char.ofNat n) := by
  revert n
  decide

/-- All bytes of a character are of the class of the character. -/
theorem of_mem_encoding {c : Char} {b : UInt8} (hb : b ∈ String.utf8EncodeChar c) :
    ByteClass.of b = ofChar c := by
  by_cases hc : c.val.toNat ≤ 127
  · rw [encoding_of_ascii hc, List.mem_singleton] at hb
    have h := of_ascii c.val.toNat (by omega)
    rwa [show Char.ofNat c.val.toNat = c from Char.ofNat_toNat c, ← hb] at h
  · rw [of_eq_other (le_of_mem_encoding hc hb), ofChar_eq_other hc]

theorem ofChar_digit {c : Char} (hc : isAsciiDigit c) : ofChar c = .digit := by
  have h0 : c ≠ '\x00' := by rintro rfl; exact absurd hc (by decide)
  unfold ofChar
  rw [if_neg h0, if_pos hc]

/-- The characters of a class. -/
def Has : ByteClass → Char → Prop
  | nul, c => c = '\x00'
  | digit, c => isAsciiDigit c
  | colon, c => c = ':'
  | opening, c => c = '{'
  | closing, c => c = '}'
  | other, c => c ≠ '\x00' ∧ ¬ isAsciiDigit c ∧ c ≠ ':' ∧ c ≠ '{' ∧ c ≠ '}'

theorem has_ofChar (c : Char) : (ofChar c).Has c := by
  unfold ofChar
  repeat' split
  all_goals simp_all [Has]

theorem ofChar_of_has {k : ByteClass} {c : Char} (h : k.Has c) : ofChar c = k := by
  cases k with
  | nul => rw [show c = '\x00' from h]; rfl
  | digit => exact ofChar_digit h
  | colon => rw [show c = ':' from h]; rfl
  | opening => rw [show c = '{' from h]; rfl
  | closing => rw [show c = '}' from h]; rfl
  | other =>
    obtain ⟨h0, hd, h1, h2, h3⟩ := h
    unfold ofChar
    rw [if_neg h0, if_neg hd, if_neg h1, if_neg h2, if_neg h3]

theorem ofChar_eq_iff {k : ByteClass} {c : Char} : ofChar c = k ↔ k.Has c :=
  ⟨fun h => h ▸ has_ofChar c, ofChar_of_has⟩

/-- A character of one of the classes that separate the parts of a pattern is one byte. -/
theorem encoding_of_separator {c : Char}
    (hc : ofChar c = .colon ∨ ofChar c = .opening ∨ ofChar c = .closing) :
    ∃ b, String.utf8EncodeChar c = [b] := by
  rw [ofChar_eq_iff, ofChar_eq_iff, ofChar_eq_iff] at hc
  rcases hc with rfl | rfl | rfl
  · exact ⟨_, rfl⟩
  · exact ⟨_, rfl⟩
  · exact ⟨_, rfl⟩

end ByteClass

/-! ## States on characters -/

namespace State

/-- The character is used up and the state stays as it is. -/
def staysOn (s : State) (c : Char) : Bool := s.step (.ofChar c) == (s, true)

/-- The character is used up and the machine goes on in another state. -/
def Leaves (s : State) (c : Char) (s' : State) : Prop :=
  s.step (.ofChar c) = (s', true) ∧ s' ≠ s ∧ s ≠ .end ∧ s' ≠ .error ∧ s' ≠ .end

instance (s : State) (c : Char) (s' : State) : Decidable (s.Leaves c s') :=
  inferInstanceAs (Decidable (_ ∧ _))

theorem stays_of_mem_encoding (s : State) (c : Char) :
    ∀ b ∈ String.utf8EncodeChar c, s.stays b = s.staysOn c := by
  intro b hb
  unfold stays staysOn next
  rw [ByteClass.of_mem_encoding hb]

/-- A byte that is used up while the state changes separates two parts of the pattern. -/
theorem separator_of_step {s s' : State} {k : ByteClass} (h : s.step k = (s', true))
    (hne : s' ≠ s) : k = .colon ∨ k = .opening ∨ k = .closing := by
  cases s <;> cases k <;> simp_all [step]

/-- A state that only NUL and one class of characters make it leave. -/
theorem staysOn_iff {s : State} {k : ByteClass} {c : Char}
    (h : ∀ j, s.step j = (s, true) ↔ j ≠ k ∧ j ≠ .nul) :
    s.staysOn c ↔ ¬ k.Has c ∧ c ≠ '\x00' := by
  have hn : ByteClass.ofChar c = .nul ↔ c = '\x00' := ByteClass.ofChar_eq_iff
  unfold staysOn
  rw [beq_iff_eq, h, Ne, Ne, ByteClass.ofChar_eq_iff, hn]

theorem staysOn_literal {c : Char} : literal.staysOn c ↔ c ≠ '{' ∧ c ≠ '\x00' :=
  staysOn_iff (k := .opening) fun j => by cases j <;> decide

theorem staysOn_parseFormatterSpec {c : Char} :
    parseFormatterSpec.staysOn c ↔ c ≠ '}' ∧ c ≠ '\x00' :=
  staysOn_iff (k := .closing) fun j => by cases j <;> decide

theorem staysOn_exprBody {c : Char} : exprBody.staysOn c ↔ c ≠ '}' ∧ c ≠ '\x00' :=
  staysOn_iff (k := .closing) fun j => by cases j <;> decide

theorem staysOn_parseIndex {c : Char} : parseIndex.staysOn c ↔ isAsciiDigit c := by
  have hd : ByteClass.ofChar c = .digit ↔ isAsciiDigit c := ByteClass.ofChar_eq_iff
  rw [← hd]
  unfold staysOn
  cases ByteClass.ofChar c <;> decide

end State

end Interpolation.Pattern
