/-
  Arguments that nothing asks for. An argument is found by its index, whatever stands behind it, so
  with further arguments at the end of the list every step of a rendering comes to what it came to
  without them, unless its index was out of range (`Kept`). A rendering that succeeds, or fails for
  another reason than that, is therefore the same with further arguments (`render_append_args`).
-/
import Interpolation.Proofs.Engine.Filling
import Mathlib.Data.List.Basic

namespace Interpolation

open Pattern

variable {σ α β : Type}

/-! ## Results that are kept -/

/-- The second result is the first, unless the first is that an index is out of range. -/
def Kept (r r' : Except Error α) : Prop := r' = r ∨ ∃ i count, r = .error (.indexOutOfRange i count)

theorem kept_self (r : Except Error α) : Kept r r := .inl rfl

theorem Kept.bind {r r' : Except Error α} {f f' : α → Except Error β} (hr : Kept r r')
    (hf : ∀ a, Kept (f a) (f' a)) : Kept (r >>= f) (r' >>= f') := by
  rcases hr with rfl | ⟨i, count, rfl⟩
  · cases r' with
    | error e => exact kept_self _
    | ok a => exact hf a
  · exact .inr ⟨i, count, rfl⟩

theorem kept_mapM {f f' : β → Except Error α} (hf : ∀ b, Kept (f b) (f' b)) (bs : List β) :
    Kept (bs.mapM f) (bs.mapM f') := by
  induction bs with
  | nil => exact kept_self _
  | cons b bs ih =>
    rw [List.mapM_cons, List.mapM_cons]
    exact (hf b).bind fun a => ih.bind fun as => kept_self _

namespace Eval

/-- From every state the second step comes to the same as the first, and leaves the same state,
unless the first comes to an index that is out of range. -/
def Kept (x y : Eval σ α) : Prop :=
  ∀ st, y.result st = x.result st ∨ ∃ i count, (x.result st).1 = .error (.indexOutOfRange i count)

theorem kept_self (x : Eval σ α) : Kept x x := fun _ => .inl rfl

theorem kept_of {r r' : Except Error α} (h : Interpolation.Kept r r') :
    Kept (Eval.of r : Eval σ α) (Eval.of r') := by
  rcases h with rfl | ⟨i, count, rfl⟩
  · exact kept_self _
  · exact fun _ => .inr ⟨i, count, rfl⟩

theorem Kept.bind {x y : Eval σ α} {f g : α → Eval σ β} (h : Kept x y)
    (hf : ∀ a, Kept (f a) (g a)) : Kept (x >>= f) (y >>= g) := by
  intro st
  have hst := h st
  rcases hx : x.result st with ⟨r, st'⟩
  rw [hx] at hst
  rcases hst with hy | ⟨i, count, rfl⟩
  · cases r with
    | error e => exact .inl (by rw [result_bind_error hy, result_bind_error hx])
    | ok a =>
      rw [result_bind_ok hx, result_bind_ok hy]
      exact hf a st'
  · exact .inr ⟨i, count, by rw [result_bind_error hx]⟩

end Eval

/-! ## Further arguments -/

variable (args extra : List Value)

/-- An argument is found where it was, whatever stands behind it. -/
theorem kept_argumentAt (i : Nat) : Kept (argumentAt args i) (argumentAt (args ++ extra) i) := by
  unfold argumentAt
  by_cases hi : i < args.length
  · rw [List.getElem?_append_left hi, List.getElem?_eq_getElem hi]
    exact kept_self _
  · rw [List.getElem?_eq_none (Nat.le_of_not_lt hi)]
    exact .inr ⟨i, args.length, rfl⟩

namespace Expr

theorem kept_eval (env : Environment σ) (e : Expr) :
    Eval.Kept (e.eval env args) (e.eval env (args ++ extra)) := by
  induction e with
  | literal t => exact Eval.kept_self _
  | value n => exact Eval.kept_self _
  | call n params =>
    have hparams := kept_mapM (kept_argumentAt args extra) params
    exact (Eval.kept_of hparams).bind fun passed => Eval.kept_self _
  | binary l op r ihl ihr =>
    unfold eval
    split
    · exact ihl.bind fun left => ihr.bind fun right => Eval.kept_self _
    · exact Eval.kept_self _

end Expr

namespace Engine

variable (engine : Engine σ)

theorem kept_evaluate (src : String) :
    Eval.Kept (engine.evaluate src args) (engine.evaluate src (args ++ extra)) :=
  (Eval.kept_self _).bind fun e => e.kept_eval args extra engine.env

theorem kept_placeholder (n : Numbering) (index spec : Option String) :
    Kept (engine.placeholder args n index spec)
      (engine.placeholder (args ++ extra) n index spec) := by
  unfold placeholder
  -- only the argument itself is looked for in the list
  refine (kept_self _).bind fun index => (kept_self _).bind fun display => ?_
  refine (kept_self _).bind fun chosen => ?_
  exact (kept_argumentAt args extra chosen.1).bind fun v => kept_self _

theorem kept_segment (n : Numbering) (p : Segment) :
    Eval.Kept (engine.segment args n p) (engine.segment (args ++ extra) n p) := by
  cases p with
  | literal text => exact Eval.kept_self _
  | argument index spec => exact Eval.kept_of (engine.kept_placeholder args extra n index spec)
  | expression body =>
    exact (engine.kept_evaluate args extra body).bind fun text => Eval.kept_self _

theorem kept_pieces (n : Numbering) (parts : List Segment) :
    Eval.Kept (engine.pieces args n parts) (engine.pieces (args ++ extra) n parts) := by
  induction parts generalizing n with
  | nil => exact Eval.kept_self _
  | cons p ps ih =>
    unfold pieces
    refine (engine.kept_segment args extra n p).bind fun r => ?_
    exact (ih r.2).bind fun texts => Eval.kept_self _

theorem kept_render (pattern : String) :
    Eval.Kept (engine.render pattern args) (engine.render pattern (args ++ extra)) :=
  (engine.kept_pieces args extra .unused _).bind fun _ => Eval.kept_self _

/-- Further arguments change no result: a pattern that is rendered has the same text with them, and
one that fails, other than for an index out of range, fails with the same error. Interpreters with
a state leave it the same. -/
theorem render_append_args (pattern : String) (st st' : σ) :
    (∀ text, (engine.render pattern args).result st = (.ok text, st') →
        (engine.render pattern (args ++ extra)).result st = (.ok text, st')) ∧
      ∀ e, (engine.render pattern args).result st = (.error e, st') →
        (∀ i count, e ≠ .indexOutOfRange i count) →
        (engine.render pattern (args ++ extra)).result st = (.error e, st') := by
  have hkept := engine.kept_render args extra pattern st
  refine ⟨fun text h => ?_, fun e h hrange => ?_⟩
  · rw [h] at hkept
    rcases hkept with hsame | ⟨i, count, he⟩
    · exact hsame
    · cases he
  · rw [h] at hkept
    rcases hkept with hsame | ⟨i, count, he⟩
    · exact hsame
    · exact absurd (Except.error.inj he) (hrange i count)

theorem render_append_args_swapped :
    let engine : Engine Unit := {}
    let args := [Value.str "Ann", .str "Bob"]
    let extra := [Value.int 7]
    (engine.render "\x7b1\x7d, \x7b0:*\x7d" args).result () = (.ok "Bob, ***", ()) ∧
      (engine.render "\x7b1\x7d, \x7b0:*\x7d" (args ++ extra)).result () =
        (.ok "Bob, ***", ()) ∧
      (engine.render "\x7b0\x7d \x7b\x7d" args).result () = (.error .mixedIndexing, ()) ∧
      (∀ i count, Error.mixedIndexing ≠ .indexOutOfRange i count) ∧
      (engine.render "\x7b0\x7d \x7b\x7d" (args ++ extra)).result () =
        (.error .mixedIndexing, ()) := by
  intro engine args extra
  have hok : (engine.render "\x7b1\x7d, \x7b0:*\x7d" args).result () = (.ok "Bob, ***", ()) := by
    decide +kernel
  have herror : (engine.render "\x7b0\x7d \x7b\x7d" args).result () =
      (.error .mixedIndexing, ()) := by decide +kernel
  have hrange : ∀ i count, Error.mixedIndexing ≠ .indexOutOfRange i count := nofun
  obtain ⟨hsame, -⟩ := render_append_args args extra engine "\x7b1\x7d, \x7b0:*\x7d" () ()
  obtain ⟨-, hfails⟩ := render_append_args args extra engine "\x7b0\x7d \x7b\x7d" () ()
  exact ⟨hok, hsame _ hok, herror, hrange, hfails _ herror hrange⟩

/-- An index that was out of range may be in range with further arguments. -/
example :
    let engine : Engine Unit := bare
    (engine.render "\x7b\x7d" []).result () = (.error (.indexOutOfRange 0 0), ()) ∧
      (engine.render "\x7b\x7d" ([] ++ [Value.null])).result () = (.ok "null", ()) := by
  decide +kernel

end Engine

end Interpolation
