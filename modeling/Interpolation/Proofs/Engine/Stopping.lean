/-
  Where rendering stops. `Stops` lists what can stand behind parts that were shown and keep a
  pattern from being rendered, with the error of each: a placeholder or an expression that fails,
  and text that is no part of a pattern. Filling fails with that error (`fill_stops`), whatever
  stands further behind.
-/
import Interpolation.Proofs.Engine.Showing

namespace Interpolation.Engine

open Text Pattern

variable {σ : Type}

/-- Text that opens a placeholder or an expression and does not close it. An index that is closed
by nothing is not looked at, one in front of a colon is. -/
inductive Unclosed : List Char → Prop
  | brace : Unclosed ['{']
  | index {ds : String} {more : List Char} : Segment.IsIndex ds →
      (∀ c ∈ more.head?, ¬ isAsciiDigit c ∧ c ≠ ':' ∧ c ≠ '}') →
      Unclosed ('{' :: (ds.toList ++ more))
  | spec {index : Option String} {k i : Nat} {spec : List Char} :
      (∀ ds ∈ index, Segment.IsIndex ds) → Takes k index i → '}' ∉ spec →
      Unclosed ('{' :: (index.elim [] String.toList ++ ':' :: spec))
  | body {body : List Char} : '}' ∉ body → Unclosed ('{' :: '{' :: body)

/-- The error of an index that does not fit a word. -/
def indexTooLarge (ds : String) : Error :=
  .syntaxError ("invalid argument index " ++ quote ds ++ ": " ++ NumeralError.tooLarge.message)

theorem takes_or_tooLarge (k : Nat) (index : Option String) :
    (∃ i, Takes k index i) ∨ ∃ ds, index = some ds ∧ maxUnsigned < digitsValue ds.toList := by
  cases index with
  | none => exact .inl ⟨k, .next⟩
  | some ds =>
    rcases Nat.lt_or_ge maxUnsigned (digitsValue ds.toList) with hlarge | hle
    · exact .inr ⟨ds, rfl, hlarge⟩
    · exact .inl ⟨_, .written hle⟩

/-- Why rendering stops in front of some text, behind parts that were shown. -/
inductive Stops (engine : Engine σ) (args : List Value) (earlier : List Segment) (st : σ) :
    List Char → Error → σ → Prop
  | index {ds : String} {c : Char} {more : List Char} : Segment.IsIndex ds →
      maxUnsigned < digitsValue ds.toList → c = ':' ∨ c = '}' →
      Stops engine args earlier st ('{' :: (ds.toList ++ c :: more)) (indexTooLarge ds) st
  | spec {index : Option String} {i : Nat} {spec : String} {more : List Char} {e : Error} :
      (Segment.argument index (some spec)).WellFormed → Takes (implicits earlier) index i →
      engine.formatters.select spec = .error e →
      Stops engine args earlier st ((Segment.argument index (some spec)).spelling ++ more) e st
  | mixed {index spec : Option String} {i : Nat} {display : Value → String} {more : List Char} :
      (Segment.argument index spec).WellFormed → Takes (implicits earlier) index i →
      Displays engine spec display → ¬ OneStyle (earlier ++ [.argument index spec]) →
      Stops engine args earlier st ((Segment.argument index spec).spelling ++ more)
        .mixedIndexing st
  | range {index spec : Option String} {i : Nat} {display : Value → String} {more : List Char} :
      (Segment.argument index spec).WellFormed → Takes (implicits earlier) index i →
      Displays engine spec display → OneStyle (earlier ++ [.argument index spec]) →
      args.length ≤ i →
      Stops engine args earlier st ((Segment.argument index spec).spelling ++ more)
        (.indexOutOfRange i args.length) st
  /-- the body of an expression is evaluated before its second closing brace is looked for -/
  | body {body : String} {more : List Char} {e : Error} {st' : σ} : '}' ∉ body.toList →
      (engine.evaluate body args).result st = (.error e, st') →
      Stops engine args earlier st ('{' :: '{' :: (body.toList ++ '}' :: more)) e st'
  | bodyBrace {body text : String} {c : Char} {more : List Char} {st' : σ} :
      '}' ∉ body.toList → (engine.evaluate body args).result st = (.ok text, st') → c ≠ '}' →
      Stops engine args earlier st ('{' :: '{' :: (body.toList ++ '}' :: c :: more))
        (.invalidPattern (utf8Size (spell earlier ++ '{' :: '{' :: (body.toList ++ ['}']))) "") st'
  | bodyEnd {body text : String} {st' : σ} : '}' ∉ body.toList →
      (engine.evaluate body args).result st = (.ok text, st') →
      Stops engine args earlier st ('{' :: '{' :: (body.toList ++ ['}']))
        .unterminatedPlaceholder st'
  | character {c : Char} {more : List Char} : ¬ isAsciiDigit c → c ≠ ':' → c ≠ '}' → c ≠ '{' →
      Stops engine args earlier st ('{' :: c :: more)
        (.invalidPattern (utf8Size (spell earlier ++ ['{'])) "") st
  | unclosed {rest : List Char} : Unclosed rest →
      Stops engine args earlier st rest .unterminatedPlaceholder st

/-! ## Filling stops -/

section
variable {engine : Engine σ} {args : List Value} {earlier : List Segment} {st st' : σ}
  {index spec : Option String}

theorem readIndex_tooLarge {ds : String} (hd : Segment.IsIndex ds)
    (h : maxUnsigned < digitsValue ds.toList) :
    readIndex (some ds) = .error (indexTooLarge ds) := by
  unfold readIndex
  simp only
  rw [readWord_digits hd.1 hd.2, if_neg (Nat.not_le.2 h)]
  rfl

/-- An index in front of a colon is looked at whether or not the placeholder is closed. -/
theorem fill_index_tooLarge {ds : String} {cs : List Char} {offset : Nat} (n : Numbering)
    (hd : Segment.IsIndex ds) (h : maxUnsigned < digitsValue ds.toList) (hn : '\x00' ∉ cs) :
    (engine.fill args n (scanFrom .parseFormatterSpec (some ds) offset cs)).result st =
      (.error (indexTooLarge ds), st) := by
  obtain ⟨t, rest, rfl, ht, hends⟩ := exists_run State.parseFormatterSpec.staysOn cs
  cases rest with
  | nil =>
    rw [List.append_nil, scan_spec_nil ht, fill_end, finish, readIndex_tooLarge hd h]
    rfl
  | cons c rest =>
    have hc : ¬ State.parseFormatterSpec.staysOn c := by simp [hends c rfl]
    have h0 : c ≠ '\x00' := by
      rintro rfl
      exact hn (by simp)
    rw [State.staysOn_parseFormatterSpec] at hc
    obtain rfl : c = '}' := Classical.byContradiction fun hne => hc ⟨hne, h0⟩
    rw [scan_spec_closing ht]
    refine fill_ahead_error ?_
    show (engine.placeholder args n _ _, st) = _
    unfold placeholder
    rw [readIndex_tooLarge hd h]
    rfl

/-- An unclosed text holds no part, and its index is read if it is looked at. -/
theorem scan_unclosed {rest : List Char} (offset : Nat) (h : Unclosed rest) (hn : '\x00' ∉ rest) :
    ∃ index read, scan offset rest = ([], .unterminated index) ∧
      readIndex index = .ok read := by
  cases h with
  | brace =>
    refine ⟨none, none, ?_, rfl⟩
    rw [scan_opening, scan_start_nil]
  | @index ds more hd hmore =>
    refine ⟨none, none, ?_, rfl⟩
    rw [scan_opening, scan_start_index hd]
    cases more with
    | nil => rw [List.append_nil, scan_index_nil hd.2]
    | cons c more =>
      obtain ⟨hdigit, hcolon, hbrace⟩ := hmore c rfl
      rw [scan_index_other hd.2 hdigit hcolon hbrace]
  | @spec index k i spec hw ht hbrace =>
    have hns : '\x00' ∉ spec := fun hm => hn (by simp [hm])
    exact ⟨index, _, scan_unclosed_spec hw hbrace hns, readIndex_of_takes ht hw⟩
  | @body body hbrace =>
    have hns : '\x00' ∉ body := fun hm => hn (by simp [hm])
    refine ⟨none, none, ?_, rfl⟩
    rw [scan_opening, scan_start_opening,
      scan_body_nil (forall_staysOn State.staysOn_exprBody hbrace hns)]

theorem fill_unclosed {rest : List Char} {offset : Nat} (n : Numbering) (h : Unclosed rest)
    (hn : '\x00' ∉ rest) :
    (engine.fill args n (scan offset rest)).result st = (.error .unterminatedPlaceholder, st) := by
  obtain ⟨index, read, hscan, hread⟩ := scan_unclosed offset h hn
  rw [hscan, fill_end, finish, hread]
  rfl

/-- A placeholder that fails ends the rendering, whatever follows. -/
theorem fill_argument_error {more : List Char} {offset : Nat} {e : Error} {n : Numbering}
    (hw : (Segment.argument index spec).WellFormed)
    (hn : '\x00' ∉ (Segment.argument index spec).spelling ++ more)
    (h : engine.placeholder args n index spec = .error e) :
    (engine.fill args n (scan offset
      ((Segment.argument index spec).spelling ++ more))).result st = (.error e, st) := by
  rw [scan_argument hw fun hm => hn (List.mem_append_left _ hm)]
  refine fill_ahead_error ?_
  show (engine.placeholder args n index spec, st) = _
  rw [h]

theorem fill_stops {rest : List Char} {e : Error} (hone : OneStyle earlier)
    (hn : '\x00' ∉ rest) (h : Stops engine args earlier st rest e st') :
    (engine.fill args (numberingAfter earlier) (scan (utf8Size (spell earlier)) rest)).result st =
      (.error e, st') := by
  cases h with
  | @index ds c more hd hlarge hc =>
    rw [scan_opening, scan_start_index hd]
    rcases hc with rfl | rfl
    · rw [scan_index_colon hd.2, String.ofList_toList]
      exact fill_index_tooLarge _ hd hlarge fun hm => hn (by simp [hm])
    · rw [scan_index_closing hd.2, String.ofList_toList]
      refine fill_ahead_error ?_
      show (engine.placeholder args _ _ _, st) = _
      unfold placeholder
      rw [readIndex_tooLarge hd hlarge]
      rfl
  | @spec index i spec more e hw ht he =>
    exact fill_argument_error hw hn (placeholder_refused _ hw.1 ht he)
  | @mixed index spec i display more hw ht hd hmixed =>
    refine fill_argument_error hw hn ?_
    rw [placeholder_eq _ hw ht hd, choose_mixed Option.isSome_map hone hmixed]
    rfl
  | @range index spec i display more hw ht hd hone' hi =>
    refine fill_argument_error hw hn ?_
    rw [placeholder_eq _ hw ht hd, choose_of_takes ht hone']
    show (argumentAt args i >>= _) = _
    rw [argumentAt_of_le hi]
    rfl
  | @body body more e st' hb he =>
    rw [scan_expression_body hb fun hm => hn (by simp [hm]), String.ofList_toList]
    exact fill_ahead_error (Eval.result_bind_error he)
  | @bodyBrace body text c more st' hb he hc =>
    have h0 : c ≠ '\x00' := by
      rintro rfl
      exact hn (by simp)
    rw [scan_expression_body hb fun hm => hn (by simp [hm]), String.ofList_toList,
      fill_ahead (Eval.result_bind_ok he), scan_bodyEnd_other hc h0]
    have hsize : utf8Size (spell earlier ++ '{' :: '{' :: (body.toList ++ ['}'])) =
        utf8Size (spell earlier) + utf8Size body.toList + 3 := by
      rw [utf8Size_append, utf8Size_ascii_cons rfl, utf8Size_ascii_cons rfl, utf8Size_append]
      have : utf8Size ['}'] = 1 := rfl
      omega
    rw [hsize, fill_end]
    rfl
  | @bodyEnd body text st' hb he =>
    rw [scan_expression_body hb fun hm => hn (by simp [hm]), String.ofList_toList,
      fill_ahead (Eval.result_bind_ok he), scan_bodyEnd_nil, fill_end]
    rfl
  | @character c more hd hcolon hclosing hopening =>
    have h0 : c ≠ '\x00' := by
      rintro rfl
      exact hn (by simp)
    rw [scan_character h0 hd hcolon hopening hclosing, utf8Size_append]
    exact fill_end engine args _ st _
  | unclosed hu => exact fill_unclosed _ hu hn

end

end Interpolation.Engine
