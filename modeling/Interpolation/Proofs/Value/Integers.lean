/-
  Integers as values. Whatever an integer comes from, a word of some size, one that may be missing or
  its decimal text in JSON, it becomes the same value: a signed word if it fits one, and an unsigned
  word else (`Converts.represents`). So values of integers are equal if the integers are, and the text
  of such a value leads back to it (`integers_converted`).
-/
import Interpolation.CommandLine
import Interpolation.Proofs.Json.Integers

namespace Interpolation

open Text

namespace Value

/-- The value of an integer: a signed word, or an unsigned one if it does not fit. -/
inductive Represents (n : Int) : Value → Prop
  | int (k : Int64) (value : k.toInt = n) : Represents n (.int k)
  | uint (k : UInt64) (value : (k.toNat : Int) = n) (large : ¬ FitsSigned n) :
      Represents n (.uint k)

/-- The value is made from the integer: from a word that has it, from such a word that may be
missing, or from its decimal text, if that is to be read as JSON. -/
inductive Converts (n : Int) : Value → Prop
  | int8 (k : Int8) (h : k.toInt = n) : Converts n (toValue k)
  | int16 (k : Int16) (h : k.toInt = n) : Converts n (toValue k)
  | int32 (k : Int32) (h : k.toInt = n) : Converts n (toValue k)
  | int64 (k : Int64) (h : k.toInt = n) : Converts n (toValue k)
  | isize (k : ISize) (h : k.toInt = n) : Converts n (toValue k)
  | uint8 (k : UInt8) (h : (k.toNat : Int) = n) : Converts n (toValue k)
  | uint16 (k : UInt16) (h : (k.toNat : Int) = n) : Converts n (toValue k)
  | uint32 (k : UInt32) (h : (k.toNat : Int) = n) : Converts n (toValue k)
  | uint64 (k : UInt64) (h : (k.toNat : Int) = n) : Converts n (toValue k)
  | usize (k : USize) (h : (k.toNat : Int) = n) : Converts n (toValue k)
  | optional {α : Type} [ToValue α] (x : α) (h : Converts n (toValue x)) :
      Converts n (toValue (some x))
  | json {v : Value} (fits : FitsWord n)
      (h : CommandLine.argument? true (decimalInt n) = .ok v) : Converts n v

section
variable {n m : Int} {v w : Value}

/-! ## One value for an integer -/

theorem fitsSigned_toInt (k : Int64) : FitsSigned k.toInt := ⟨k.le_toInt, k.toInt_lt⟩

theorem Represents.fitsWord (h : Represents n v) : FitsWord n := by
  unfold FitsWord
  cases h with
  | int k value =>
    have := fitsSigned_toInt k
    unfold FitsSigned at this
    omega
  | uint k value large =>
    have := k.toNat_lt
    omega

theorem Represents.unique (h : Represents n v) (h' : Represents n w) : v = w := by
  cases h with
  | int k value =>
    cases h' with
    | int k' value' => exact congrArg Value.int (Int64.toInt_inj.1 (value.trans value'.symm))
    | uint k' value' large => exact absurd (value ▸ fitsSigned_toInt k) large
  | uint k value large =>
    cases h' with
    | int k' value' => exact absurd (value' ▸ fitsSigned_toInt k') large
    | uint k' value' large' =>
      have heq : k.toNat = k'.toNat := by omega
      exact congrArg Value.uint (UInt64.toNat_inj.1 heq)

theorem Represents.integer_unique (h : Represents n v) (h' : Represents m v) : n = m := by
  cases h with
  | int k value =>
    cases h' with
    | int k' value' => exact value.symm.trans value'
  | uint k value large =>
    cases h' with
    | uint k' value' large' => exact value.symm.trans value'

/-- Values of integers are equal if and only if the integers are. -/
theorem Represents.eq_iff (h : Represents n v) (h' : Represents m w) : v = w ↔ n = m :=
  ⟨fun heq => h.integer_unique (heq ▸ h'), fun heq => h.unique (heq ▸ h')⟩

theorem Represents.same_iff (h : Represents n v) (h' : Represents m w) : v.same w ↔ n = m := by
  rw [← h.eq_iff h']
  cases h <;> exact beq_iff_eq

theorem Represents.asInt?_eq (h : Represents n v) :
    v.asInt?.map Int64.toInt = if FitsSigned n then some n else none := by
  cases h with
  | int k value =>
    rw [if_pos (value ▸ fitsSigned_toInt k), ← value]
    rfl
  | uint k value large =>
    have hmax : maxSigned = 9223372036854775807 := rfl
    have hnone : asInt? (.uint k) = none := by
      refine if_neg fun hle => large ?_
      unfold FitsSigned
      omega
    rw [if_neg large, hnone]
    rfl

theorem Represents.text_eq (h : Represents n v) : v.text = decimalInt n := by
  cases h with
  | int k value => exact congrArg decimalInt value
  | uint k value large =>
    rw [← value, decimalInt_natCast]
    rfl

/-! ## Converting -/

theorem represents_ofNat {k : Nat} (h : k ≤ maxSigned) : Represents k (.int (.ofNat k)) :=
  .int _ (Int64.toInt_ofNat_of_lt (Nat.lt_succ_of_le h))

theorem represents_ofUnsigned (k : UInt64) : Represents k.toNat (ofUnsigned k) := by
  have hmax : maxSigned = 9223372036854775807 := rfl
  unfold ofUnsigned
  split
  · next hle => exact represents_ofNat hle
  · next hgt =>
    refine .uint k rfl ?_
    unfold FitsSigned
    omega

theorem represents_ofInteger (hn : FitsWord n) : Represents n (ofInteger n) := by
  obtain ⟨hlow, hhigh⟩ := hn
  unfold ofInteger
  split
  · next hneg => exact .int _ (Int64.toInt_ofInt_of_le hlow (Int.lt_trans hneg (by decide)))
  · next hnonneg =>
    have hlt : n.toNat < 18446744073709551616 := by omega
    have hword : (UInt64.ofNat n.toNat).toNat = n.toNat := UInt64.toNat_ofNat_of_lt' hlt
    have h := represents_ofUnsigned (UInt64.ofNat n.toNat)
    rwa [hword, Int.toNat_of_nonneg (Int.not_lt.1 hnonneg)] at h

/-- The decimal text of an integer that fits a word is JSON, and has the value of the integer. -/
theorem argument?_decimalInt (hn : FitsWord n) :
    CommandLine.argument? true (decimalInt n) = .ok (ofInteger n) := by
  unfold CommandLine.argument?
  rw [if_pos rfl, Json.parse?_decimalInt hn]
  rfl

/-- All ways to convert an integer lead to its value. -/
theorem Converts.represents (h : Converts n v) : Represents n v := by
  induction h with
  | int8 k h => exact .int _ (k.toInt_toInt64.trans h)
  | int16 k h => exact .int _ (k.toInt_toInt64.trans h)
  | int32 k h => exact .int _ (k.toInt_toInt64.trans h)
  | int64 k h => exact .int k h
  | isize k h => exact .int _ (k.toInt_toInt64.trans h)
  | uint8 k h => exact h ▸ represents_ofNat (Nat.le_trans (Nat.le_of_lt k.toNat_lt) (by decide))
  | uint16 k h => exact h ▸ represents_ofNat (Nat.le_trans (Nat.le_of_lt k.toNat_lt) (by decide))
  | uint32 k h => exact h ▸ represents_ofNat (Nat.le_trans (Nat.le_of_lt k.toNat_lt) (by decide))
  | uint64 k h => exact h ▸ represents_ofUnsigned k
  | usize k h => exact h ▸ k.toNat_toUInt64 ▸ represents_ofUnsigned k.toUInt64
  | optional x h ih => exact ih
  | json fits h =>
    rw [argument?_decimalInt fits] at h
    cases h
    exact represents_ofInteger fits

/-- The texts of some values of integers, read as JSON, give the values back. -/
theorem mapM_argument?_text {vs : List Value} (h : ∀ v ∈ vs, ∃ n, Represents n v) :
    (vs.map text).mapM (CommandLine.argument? true) = .ok vs := by
  induction vs with
  | nil => rfl
  | cons v vs ih =>
    obtain ⟨n, hv⟩ := h v List.mem_cons_self
    have hargument : CommandLine.argument? true v.text = .ok v := by
      rw [hv.text_eq, argument?_decimalInt hv.fitsWord]
      exact congrArg _ ((represents_ofInteger hv.fitsWord).unique hv)
    rw [List.map_cons, List.mapM_cons, hargument, ih fun w hw => h w (List.mem_cons_of_mem v hw)]
    rfl

end

/-- An integer that fits a signed or an unsigned word is also read from JSON. However it was
converted, its value is a signed word if it fits one and else an unsigned one, so that the value as a
signed word is the integer itself where there is one; the text of the value is the integer in
decimal. Values of integers are equal if the integers are, and some of them are given back by their
texts, read as JSON. -/
theorem integers_converted :
    (∀ n : Int, FitsWord n →
      (∃ v, CommandLine.argument? true (decimalInt n) = .ok v) ∧
      ∀ v, Converts n v →
        (FitsSigned n → ∃ k : Int64, k.toInt = n ∧ v = .int k) ∧
        (¬ FitsSigned n → ∃ k : UInt64, (k.toNat : Int) = n ∧ v = .uint k) ∧
        (∀ k, v = .uint k → ¬ FitsSigned k.toNat) ∧
        v.asInt?.map Int64.toInt = (if FitsSigned n then some n else none) ∧
        v.text = decimalInt n) ∧
    (∀ n m v w, Converts n v → Converts m w → (v = w ↔ n = m) ∧ (v.same w ↔ n = m)) ∧
    ∀ vs : List Value, (∀ v ∈ vs, ∃ n, Converts n v) →
      (vs.map text).mapM (CommandLine.argument? true) = .ok vs := by
  refine ⟨fun n hn => ⟨⟨_, argument?_decimalInt hn⟩, fun v hv => ?_⟩,
    fun n m v w hv hw => ⟨hv.represents.eq_iff hw.represents, hv.represents.same_iff hw.represents⟩,
    fun vs hvs => mapM_argument?_text fun v hv => (hvs v hv).imp fun _ h => h.represents⟩
  have h := hv.represents
  refine ⟨fun hsigned => ?_, fun hsigned => ?_, ?_, h.asInt?_eq, h.text_eq⟩
  · cases h with
    | int k value => exact ⟨k, value, rfl⟩
    | uint k value large => exact absurd hsigned large
  · cases h with
    | int k value => exact absurd (value ▸ fitsSigned_toInt k) hsigned
    | uint k value large => exact ⟨k, value, rfl⟩
  · rintro k rfl
    cases h with
    | uint k value large => exact value ▸ large

/-- The first integer that fits no signed word, and two that are equal but not of one type. -/
theorem integers_converted_ends :
    let large : Value := toValue (some (9223372036854775808 : UInt64))
    let small : Value := toValue (255 : UInt8)
    let other : Value := toValue (some (255 : Int16))
    Converts 9223372036854775808 large ∧ Converts 255 small ∧ Converts 255 other ∧
      (∃ k : UInt64, (k.toNat : Int) = 9223372036854775808 ∧ large = .uint k) ∧
      large.asInt?.map Int64.toInt = none ∧
      (∃ k : Int64, k.toInt = 255 ∧ small = .int k) ∧ small = other ∧ ¬ large.same small ∧
      ([large, small].map text).mapM (CommandLine.argument? true) = .ok [large, small] := by
  intro large small other
  have hlarge : Converts 9223372036854775808 large :=
    .optional (9223372036854775808 : UInt64) (.uint64 _ rfl)
  have hsmall : Converts 255 small := .uint8 255 rfl
  have hother : Converts 255 other := .optional (255 : Int16) (.int16 255 rfl)
  obtain ⟨hvalues, hequal, htexts⟩ := integers_converted
  obtain ⟨-, huint, -, hasInt, -⟩ := (hvalues _ (by decide)).2 large hlarge
  obtain ⟨hint, -⟩ := (hvalues _ (by decide)).2 small hsmall
  refine ⟨hlarge, hsmall, hother, huint (by decide), hasInt.trans (if_neg (by decide)),
    hint (by decide), (hequal _ _ _ _ hsmall hother).1.2 rfl, ?_, ?_⟩
  · exact fun heq => absurd ((hequal _ _ _ _ hlarge hsmall).2.1 heq) (by decide)
  · refine htexts _ fun v hv => ?_
    rcases List.mem_cons.1 hv with rfl | hv
    · exact ⟨_, hlarge⟩
    · exact ⟨255, List.mem_singleton.1 hv ▸ hsmall⟩

end Value

end Interpolation
