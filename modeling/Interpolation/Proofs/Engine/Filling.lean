/-
  Rendering one part at a time. A pattern that was read into parts is filled from left to right;
  each equation takes one part off the front and says what it adds to the text, and a literal may
  be taken off in pieces (`fill_literal`).
-/
import Interpolation.Engine
import Interpolation.Proofs.Pattern.Spelling

namespace Interpolation

open Text Pattern

/-! ## Results of steps -/

namespace Eval

variable {σ α β : Type}

/-- A step is what it comes to from every state. -/
theorem ext {x y : Eval σ α} (h : ∀ st, x.result st = y.result st) : x = y := funext h

@[simp]
theorem result_pure (a : α) (st : σ) : (pure a : Eval σ α).result st = (.ok a, st) := rfl

@[simp]
theorem result_of (r : Except Error α) (st : σ) : (Eval.of r).result st = (r, st) := rfl

theorem result_bind (x : Eval σ α) (f : α → Eval σ β) (st : σ) :
    (x >>= f).result st =
      match x.result st with
      | (.ok a, st') => (f a).result st'
      | (.error e, st') => (.error e, st') := by
  unfold result
  simp only [ExceptT.run_bind, StateT.run_bind]
  rcases x.run.run st with ⟨r, st'⟩
  cases r <;> rfl

theorem result_bind_ok {x : Eval σ α} {f : α → Eval σ β} {a : α} {st st' : σ}
    (h : x.result st = (.ok a, st')) : (x >>= f).result st = (f a).result st' := by
  rw [result_bind, h]

theorem result_bind_error {x : Eval σ α} {f : α → Eval σ β} {e : Error} {st st' : σ}
    (h : x.result st = (.error e, st')) : (x >>= f).result st = (.error e, st') := by
  rw [result_bind, h]

theorem result_of_bind (r : Except Error α) (f : α → Eval σ β) (st : σ) :
    (Eval.of r >>= f).result st =
      match r with
      | .ok a => (f a).result st
      | .error e => (.error e, st) := by
  rw [result_bind, result_of]
  cases r <;> rfl

end Eval

namespace Engine

variable {σ : Type} {engine : Engine σ} {args : List Value} {n n' : Numbering} {st st' : σ}

/-! ## Filling -/

/-- The text of the parts of a pattern, when the numbering of arguments is known before them. -/
def fill (engine : Engine σ) (args : List Value) (n : Numbering) (r : List Segment × Ending) :
    Eval σ String := do
  let texts ← engine.pieces args n r.1
  Eval.of (finish r.2)
  return String.join texts

/-- A text in front of the result of what follows it. -/
def inFront (text : String) (r : Except Error String × σ) : Except Error String × σ :=
  (r.1.map (text ++ ·), r.2)

theorem inFront_empty (r : Except Error String × σ) : inFront "" r = r := by
  obtain ⟨r, st⟩ := r
  cases r with
  | error e => rfl
  | ok text =>
    show (Except.ok ("" ++ text), st) = _
    rw [String.empty_append]

theorem inFront_append (a b : String) (r : Except Error String × σ) :
    inFront (a ++ b) r = inFront a (inFront b r) := by
  obtain ⟨r, st⟩ := r
  cases r with
  | error e => rfl
  | ok text =>
    show (Except.ok (a ++ b ++ text), st) = (Except.ok (a ++ (b ++ text)), st)
    rw [String.append_assoc]

/-- A pattern is rendered by filling the parts of its readable text. -/
theorem render_eq_fill (engine : Engine σ) (pattern : String) (args : List Value) :
    engine.render pattern args = engine.fill args .unused (scan 0 (readable pattern)) := by
  rw [← segments_eq_readable]
  rfl

theorem fill_end (engine : Engine σ) (args : List Value) (n : Numbering) (st : σ)
    (ending : Ending) :
    (engine.fill args n ([], ending)).result st = ((finish ending).map fun _ => "", st) := by
  unfold fill
  rw [pieces, Eval.result_bind_ok (Eval.result_pure [] st), Eval.result_of_bind]
  cases finish ending <;> rfl

/-- The first part adds its text, and its numbering goes on to the parts after it. -/
theorem fill_ahead {p : Segment} {r : List Segment × Ending} {text : String}
    (h : (engine.segment args n p).result st = (.ok (text, n'), st')) :
    (engine.fill args n (ahead p r)).result st =
      inFront text ((engine.fill args n' r).result st') := by
  unfold fill ahead
  rw [pieces, Eval.result_bind, Eval.result_bind_ok h, Eval.result_bind, Eval.result_bind]
  rcases (engine.pieces args n' r.1).result st' with ⟨res, st₁⟩
  cases res with
  | error e => rfl
  | ok texts =>
    show (Eval.of (finish r.2) >>= _).result st₁ =
      inFront text ((Eval.of (finish r.2) >>= _).result st₁)
    rw [Eval.result_of_bind, Eval.result_of_bind]
    cases finish r.2 with
    | error e => rfl
    | ok u =>
      show (Except.ok (String.join (text :: texts)), st₁) = _
      rw [String.join_cons]
      rfl

/-- A part that fails ends the rendering. -/
theorem fill_ahead_error {p : Segment} {r : List Segment × Ending} {e : Error}
    (h : (engine.segment args n p).result st = (.error e, st')) :
    (engine.fill args n (ahead p r)).result st = (.error e, st') := by
  unfold fill ahead
  rw [pieces, Eval.result_bind, Eval.result_bind_error h]

/-- Two first parts that show the same may be exchanged. -/
theorem fill_ahead_congr {p q : Segment} {r r' : List Segment × Ending}
    (hfirst : engine.segment args n p = engine.segment args n q)
    (hrest : ∀ n' st', (engine.fill args n' r).result st' = (engine.fill args n' r').result st') :
    (engine.fill args n (ahead p r)).result st = (engine.fill args n (ahead q r')).result st := by
  rcases hp : (engine.segment args n p).result st with ⟨res, st'⟩
  have hq := hp
  rw [hfirst] at hq
  cases res with
  | error e => rw [fill_ahead_error hp, fill_ahead_error hq]
  | ok shown => rw [fill_ahead hp, fill_ahead hq, hrest]

theorem fill_textAhead (engine : Engine σ) (args : List Value) (n : Numbering) (t : List Char)
    (r : List Segment × Ending) (st : σ) :
    (engine.fill args n (textAhead t r)).result st =
      inFront (String.ofList t) ((engine.fill args n r).result st) := by
  unfold textAhead
  split
  · next hnil =>
    subst hnil
    exact (inFront_empty _).symm
  · exact fill_ahead rfl

/-- Text in front of a pattern is shown as it is, and may be taken off in pieces. -/
theorem fill_literal {t cs : List Char} {offset : Nat} (ht : ∀ c ∈ t, State.literal.staysOn c)
    (hn : '\x00' ∉ cs) :
    (engine.fill args n (scan offset (t ++ cs))).result st =
      inFront (String.ofList t)
        ((engine.fill args n (scan (offset + utf8Size t) cs)).result st) := by
  obtain ⟨u, r, hboth, hbehind⟩ := scan_text offset ht hn
  rw [hboth, hbehind, fill_textAhead, fill_textAhead, String.ofList_append, inFront_append]

end Engine

end Interpolation
