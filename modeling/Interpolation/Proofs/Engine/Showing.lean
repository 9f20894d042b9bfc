/-
  What the parts of a pattern show. `Shows` adds up the texts of some parts from left to right:
  literal text, the arguments that placeholders take, and evaluated expressions. Filling follows it
  (`fill_shows`): behind parts that show, rendering goes on as if the pattern began there.
-/
import Interpolation.Proofs.Engine.Filling
import Interpolation.Proofs.Engine.Numbering
import Interpolation.Proofs.Text.Numeral

namespace Interpolation.Engine

open Text Pattern

variable {σ : Type}

/-- The index of the argument that a placeholder takes, after `k` placeholders without an index. -/
inductive Takes (k : Nat) : Option String → Nat → Prop
  | next : Takes k none k
  | written {ds : String} : digitsValue ds.toList ≤ maxUnsigned →
      Takes k (some ds) (digitsValue ds.toList)

/-- How a placeholder displays its argument: without a spec as the text of the value, else as the
formatters read the spec. -/
inductive Displays (engine : Engine σ) : Option String → (Value → String) → Prop
  | bare : Displays engine none Value.text
  | spec {spec : String} {display : Value → String} :
      engine.formatters.select spec = .ok display → Displays engine (some spec) display

/-- What a part adds to the text after `k` placeholders without an index. Only an expression may
change the state of interpreters, from the one before the text to the one behind it. -/
inductive Shown (engine : Engine σ) (args : List Value) (k : Nat) :
    Segment → σ → String → σ → Prop
  | literal {text : String} {st : σ} : Shown engine args k (.literal text) st text st
  | argument {index spec : Option String} {i : Nat} {display : Value → String} {v : Value}
      {st : σ} : Takes k index i → Displays engine spec display → args[i]? = some v →
      Shown engine args k (.argument index spec) st (display v) st
  | expression {body text : String} {st st' : σ} :
      (engine.evaluate body args).result st = (.ok text, st') →
      Shown engine args k (.expression body) st text st'

/-- What some parts add to the text, from left to right. -/
inductive Shows (engine : Engine σ) (args : List Value) :
    Nat → List Segment → σ → String → σ → Prop
  | nil {k : Nat} {st : σ} : Shows engine args k [] st "" st
  | cons {k : Nat} {p : Segment} {ps : List Segment} {text out : String} {st st₁ st' : σ} :
      Shown engine args k p st text st₁ →
      Shows engine args (k + implicits [p]) ps st₁ out st' →
      Shows engine args k (p :: ps) st (text ++ out) st'

/-! ## Filling follows what parts show -/

section
variable {engine : Engine σ} {args : List Value} {earlier : List Segment} {st st' : σ}
  {index spec : Option String} {i k : Nat} {display : Value → String}

/-- The renderer of a placeholder is how it displays its argument. -/
theorem renderer_eq_ok_iff : engine.renderer spec = .ok display ↔ Displays engine spec display := by
  constructor
  · intro h
    cases spec with
    | none =>
      cases h
      exact .bare
    | some spec => exact .spec h
  · intro h
    cases h with
    | bare => rfl
    | spec h => exact h

/-- A placeholder displays its argument unless its spec is refused. -/
theorem displays_or_refused (engine : Engine σ) (spec : Option String) :
    (∃ display, Displays engine spec display) ∨
      ∃ t e, spec = some t ∧ engine.formatters.select t = .error e := by
  cases spec with
  | none => exact .inl ⟨_, .bare⟩
  | some t =>
    cases hselect : engine.formatters.select t with
    | error e => exact .inr ⟨t, e, rfl, hselect⟩
    | ok display => exact .inl ⟨display, .spec hselect⟩

theorem readIndex_of_takes (h : Takes k index i) (hw : ∀ ds ∈ index, Segment.IsIndex ds) :
    readIndex index = .ok (index.map fun _ => i) := by
  cases h with
  | next => rfl
  | written hle =>
    obtain ⟨hne, hdigits⟩ := hw _ rfl
    unfold readIndex
    simp only
    rw [readWord_digits hne hdigits, if_pos hle]
    rfl

/-- The argument that a placeholder takes is the one that the numbering chooses. -/
theorem choose_of_takes (h : Takes (implicits earlier) index i)
    (hone : OneStyle (earlier ++ [.argument index spec])) :
    (numberingAfter earlier).choose (index.map fun _ => i) =
      .ok (i, numberingAfter (earlier ++ [.argument index spec])) := by
  cases h with
  | next => exact choose_next hone
  | written hle => exact choose_written _ hone

theorem argumentAt_of_getElem? {v : Value} (h : args[i]? = some v) :
    argumentAt args i = .ok v := by
  unfold argumentAt
  rw [h]

theorem argumentAt_of_le (h : args.length ≤ i) :
    argumentAt args i = .error (.indexOutOfRange i args.length) := by
  unfold argumentAt
  rw [List.getElem?_eq_none h]

/-- Indices of arguments that are there are resolved to these. -/
theorem mapM_argumentAt_of_lt {is : List Nat} (h : ∀ i ∈ is, i < args.length) :
    ∃ passed, is.mapM (argumentAt args) = .ok passed ∧
      passed.map some = is.map (args[·]?) := by
  induction is with
  | nil => exact ⟨[], rfl, rfl⟩
  | cons i is ih =>
    obtain ⟨hi, his⟩ := List.forall_mem_cons.1 h
    obtain ⟨passed, hmap, hpassed⟩ := ih his
    have hv : args[i]? = some args[i] := List.getElem?_eq_getElem hi
    refine ⟨args[i] :: passed, ?_, ?_⟩
    · rw [List.mapM_cons, argumentAt_of_getElem? hv, hmap]
      rfl
    · rw [List.map_cons, List.map_cons, hv, hpassed]

/-- The first index without an argument fails. -/
theorem mapM_argumentAt_of_le {before after : List Nat} (hbefore : ∀ j ∈ before, j < args.length)
    (h : args.length ≤ i) :
    (before ++ i :: after).mapM (argumentAt args) =
      .error (.indexOutOfRange i args.length) := by
  obtain ⟨passed, hmap, -⟩ := mapM_argumentAt_of_lt hbefore
  rw [List.mapM_append, hmap, List.mapM_cons, argumentAt_of_le h]
  rfl

theorem segment_argument {n : Numbering} {r : Except Error (String × Numbering)}
    (h : engine.placeholder args n index spec = r) :
    (engine.segment args n (.argument index spec)).result st = (r, st) := by
  rw [← h]
  rfl

/-- A placeholder whose index fits comes down to its spec and the choice of its argument. -/
theorem placeholder_of_takes (n : Numbering) (hindex : ∀ ds ∈ index, Segment.IsIndex ds)
    (ht : Takes k index i) (spec : Option String) :
    engine.placeholder args n index spec =
      (engine.renderer spec >>= fun display =>
        n.choose (index.map fun _ => i) >>= fun r =>
          argumentAt args r.1 >>= fun v => pure (display v, r.2)) := by
  unfold placeholder
  rw [readIndex_of_takes ht hindex]
  rfl

/-- A placeholder that chooses an argument shows it as its spec says. -/
theorem placeholder_of_choose {n m : Numbering} {j : Nat}
    (hindex : ∀ ds ∈ index, Segment.IsIndex ds) (ht : Takes k index i)
    (hchoose : n.choose (index.map fun _ => i) = .ok (j, m)) (spec : Option String) :
    engine.placeholder args n index spec =
      (engine.renderer spec >>= fun display =>
        (argumentAt args j).map fun v => (display v, m)) := by
  rw [placeholder_of_takes n hindex ht, hchoose]
  cases engine.renderer spec with
  | error e => rfl
  | ok display =>
    show (argumentAt args j >>= _) = (argumentAt args j).map _
    cases argumentAt args j <;> rfl

/-- A placeholder comes down to the choice of its argument once index and spec are accepted. -/
theorem placeholder_eq (n : Numbering) (hw : (Segment.argument index spec).WellFormed)
    (ht : Takes k index i) (hd : Displays engine spec display) :
    engine.placeholder args n index spec =
      (n.choose (index.map fun _ => i) >>= fun r =>
        argumentAt args r.1 >>= fun v => pure (display v, r.2)) := by
  rw [placeholder_of_takes n hw.1 ht, renderer_eq_ok_iff.2 hd]
  rfl

/-- A placeholder whose spec is refused fails before it chooses an argument. -/
theorem placeholder_refused {t : String} {e : Error} (n : Numbering)
    (hindex : ∀ ds ∈ index, Segment.IsIndex ds) (ht : Takes k index i)
    (he : engine.formatters.select t = .error e) :
    engine.placeholder args n index (some t) = .error e := by
  rw [placeholder_of_takes n hindex ht]
  show (engine.formatters.select t >>= _) = _
  rw [he]
  rfl

theorem segment_shown {p : Segment} {text : String} (hw : p.WellFormed)
    (h : Shown engine args (implicits earlier) p st text st')
    (hone : OneStyle (earlier ++ [p])) :
    (engine.segment args (numberingAfter earlier) p).result st =
      (.ok (text, numberingAfter (earlier ++ [p])), st') := by
  cases h with
  | literal =>
    rw [numberingAfter_concat rfl rfl]
    rfl
  | argument ht hd hv =>
    show (engine.placeholder args (numberingAfter earlier) _ _, st) = _
    rw [placeholder_eq _ hw ht hd, choose_of_takes ht hone]
    show (argumentAt args _ >>= _, st) = _
    rw [argumentAt_of_getElem? hv]
    rfl
  | expression he =>
    rw [numberingAfter_concat rfl rfl]
    exact Eval.result_bind_ok he

/-- A part that shows adds its text, and what follows is filled behind it. -/
theorem fill_shown {p : Segment} {text : String} {rest : List Char} {offset : Nat}
    (hw : p.WellFormed) (h : Shown engine args (implicits earlier) p st text st')
    (hone : OneStyle (earlier ++ [p])) (hn : '\x00' ∉ p.spelling ++ rest) :
    (engine.fill args (numberingAfter earlier) (scan offset (p.spelling ++ rest))).result st =
      inFront text ((engine.fill args (numberingAfter (earlier ++ [p]))
        (scan (offset + utf8Size p.spelling) rest)).result st') := by
  have hns : '\x00' ∉ p.spelling := fun hm => hn (List.mem_append_left _ hm)
  have hnr : '\x00' ∉ rest := fun hm => hn (List.mem_append_right _ hm)
  have hseg := segment_shown hw h hone
  cases p with
  | literal t =>
    cases h
    rw [numberingAfter_concat rfl rfl]
    have hstay := forall_staysOn State.staysOn_literal hw hns
    exact (fill_literal hstay hnr).trans (by rw [String.ofList_toList]; rfl)
  | argument index spec => rw [scan_argument hw hns, fill_ahead hseg]
  | expression body => rw [scan_expression hw hns, fill_ahead hseg]

theorem fill_shows {parts : List Segment} {rest : List Char} {offset : Nat} {out : String}
    (hw : ∀ p ∈ parts, p.WellFormed) (hone : OneStyle (earlier ++ parts))
    (hn : '\x00' ∉ spell parts ++ rest)
    (h : Shows engine args (implicits earlier) parts st out st') :
    (engine.fill args (numberingAfter earlier) (scan offset (spell parts ++ rest))).result st =
      inFront out ((engine.fill args (numberingAfter (earlier ++ parts))
        (scan (offset + utf8Size (spell parts)) rest)).result st') := by
  induction parts generalizing earlier offset st out with
  | nil =>
    cases h
    rw [List.append_nil]
    exact (inFront_empty _).symm
  | cons p ps ih =>
    cases h with
    | cons hp hps =>
      rw [List.append_cons] at hone ⊢
      rw [spell_cons, List.append_assoc] at hn ⊢
      rw [← implicits_append] at hps
      have hn' : '\x00' ∉ spell ps ++ rest := fun hm => hn (List.mem_append_right _ hm)
      rw [fill_shown (hw p List.mem_cons_self) hp hone.left hn,
        ih (fun q hq => hw q (List.mem_cons_of_mem p hq)) hone hn' hps, inFront_append,
        utf8Size_append, Nat.add_assoc]

end

end Interpolation.Engine
