/-
  Grouping. An expression whose operators are all `+` has terms, and where `+` joins texts with a
  separator it is evaluated as its terms are, one after the other (`eval_eq_evalTerms`): how they
  were grouped matters neither for the result nor for the calls of interpreters. An expression is
  shown without its grouping, so what is read from its text has the same terms, but nests them to
  the right (`nest`); it is therefore evaluated as the expression itself (`eval_sum`).
-/
import Interpolation.Proofs.Engine.Embedding
import Interpolation.Proofs.Engine.EvaluationOrder

namespace Interpolation

variable {σ : Type} {env : Environment σ} {separator : String}

/-! ## The operator -/

/-- In the environment `+` writes one text after the other, with the separator between them. -/
def Environment.JoinsWith (env : Environment σ) (separator : String) : Prop :=
  env.operators.find? OperatorTable.concatSymbol = some (.separatedBy separator) ∨
    separator = "" ∧ env.operators.find? OperatorTable.concatSymbol = some .concat

theorem Environment.JoinsWith.combine (h : env.JoinsWith separator) (left right : String) :
    env.operators.combine OperatorTable.concatSymbol left right =
      .ok (left ++ separator ++ right) := by
  unfold OperatorTable.combine
  rcases h with h | ⟨rfl, h⟩
  · rw [h]
    rfl
  · rw [h, String.append_empty]
    rfl

theorem Environment.JoinsWith.contains (h : env.JoinsWith separator) :
    env.operators.contains OperatorTable.concatSymbol := by
  rcases h with h | ⟨-, h⟩ <;> exact Option.isSome_iff_exists.2 ⟨_, h⟩

namespace Expr

/-! ## Terms -/

/-- All operators are `+`. -/
def IsSum : Expr → Prop
  | binary l op r => op = OperatorTable.concatSymbol ∧ l.IsSum ∧ r.IsSum
  | _ => True

instance decidableIsSum : (e : Expr) → Decidable e.IsSum
  | literal _ | value _ | call .. => .isTrue trivial
  | binary l op r =>
    have := decidableIsSum l
    have := decidableIsSum r
    inferInstanceAs (Decidable (op = OperatorTable.concatSymbol ∧ l.IsSum ∧ r.IsSum))

/-- The parts without an operator, from left to right. -/
def terms : Expr → List Expr
  | binary l _ r => l.terms ++ r.terms
  | e => [e]

theorem terms_of_unit {e : Expr} (h : e.isBinary = false) : e.terms = [e] := by
  cases e with
  | binary => cases h
  | literal | value | call => rfl

theorem isSum_of_unit {e : Expr} (h : e.isBinary = false) : e.IsSum := by
  cases e with
  | binary => cases h
  | literal | value | call => trivial

theorem terms_ne_nil (e : Expr) : e.terms ≠ [] := by
  induction e with
  | literal | value | call => exact List.cons_ne_nil _ _
  | binary l op r ihl _ => exact List.append_ne_nil_of_left_ne_nil ihl _

theorem isBinary_of_mem_terms {e t : Expr} (h : t ∈ e.terms) : t.isBinary = false := by
  induction e with
  | literal | value | call =>
    obtain rfl := List.mem_singleton.1 h
    rfl
  | binary l op r ihl ihr => exact (List.mem_append.1 h).elim ihl ihr

/-! ## Evaluating the terms -/

/-- Terms are evaluated one after the other, up to the first that fails; its error is the result,
and else their texts joined with the separator. -/
def evalTerms (env : Environment σ) (args : List Value) (separator : String) (ts : List Expr) :
    Eval σ String := do
  let texts ← ts.mapM (eval env args)
  return separator.intercalate texts

theorem evalTerms_append (args : List Value) {ts us : List Expr} (hts : ts ≠ []) (hus : us ≠ []) :
    evalTerms env args separator (ts ++ us) = do
      let left ← evalTerms env args separator ts
      let right ← evalTerms env args separator us
      return left ++ separator ++ right := by
  obtain ⟨t, ts, rfl⟩ := List.exists_cons_of_ne_nil hts
  obtain ⟨u, us, rfl⟩ := List.exists_cons_of_ne_nil hus
  -- as both lists have a first element, so have their texts
  have hjoin (a b : String) (as bs : List String) :
      separator.intercalate (a :: as ++ b :: bs) =
        separator.intercalate (a :: as) ++ separator ++ separator.intercalate (b :: bs) :=
    String.intercalate_append_of_ne_nil (List.cons_ne_nil _ _) (List.cons_ne_nil _ _)
  unfold evalTerms
  rw [List.mapM_append, List.mapM_cons, List.mapM_cons]
  simp only [bind_assoc, pure_bind, hjoin]

/-- Whatever the grouping, a sum is evaluated as its terms are. -/
theorem eval_eq_evalTerms (h : env.JoinsWith separator) (args : List Value) {e : Expr}
    (he : e.IsSum) : e.eval env args = evalTerms env args separator e.terms := by
  have hunit (e : Expr) : e.eval env args = evalTerms env args separator [e] := by
    unfold evalTerms
    simp only [List.mapM_cons, List.mapM_nil, bind_assoc, pure_bind, String.intercalate_singleton,
      bind_pure]
  induction e with
  | literal | value | call => exact hunit _
  | binary l op r ihl ihr =>
    obtain ⟨rfl, hl, hr⟩ := he
    rw [terms, evalTerms_append args l.terms_ne_nil r.terms_ne_nil, ← ihl hl, ← ihr hr, eval,
      if_pos h.contains]
    simp only [h.combine]
    rfl

/-! ## The text of a sum -/

theorem display_binary (l r : Expr) :
    (binary l OperatorTable.concatSymbol r).display = l.display ++ " + " ++ r.display := by
  show String.ofList (l.displayChars ++ ([' ', '+', ' '] ++ r.displayChars)) = _
  rw [String.ofList_append, String.ofList_append, ← String.append_assoc]
  rfl

/-- A sum is shown by its terms alone. -/
theorem display_eq_intercalate {e : Expr} (he : e.IsSum) :
    e.display = " + ".intercalate (e.terms.map display) := by
  induction e with
  | literal | value | call => exact String.intercalate_singleton.symm
  | binary l op r ihl ihr =>
    obtain ⟨rfl, hl, hr⟩ := he
    have hleft : l.terms.map display ≠ [] := mt List.map_eq_nil_iff.1 l.terms_ne_nil
    have hright : r.terms.map display ≠ [] := mt List.map_eq_nil_iff.1 r.terms_ne_nil
    rw [terms, List.map_append, String.intercalate_append_of_ne_nil hleft hright, ← ihl hl,
      ← ihr hr, display_binary]

/-- The sum of terms, with the operators nested to the right as they are read. -/
def nest : Expr → List Expr → Expr
  | t, [] => t
  | t, u :: us => binary t OperatorTable.concatSymbol (nest u us)

section
variable {t : Expr} {ts : List Expr} (hunits : ∀ u ∈ t :: ts, u.isBinary = false)
include hunits

theorem isSum_nest : (nest t ts).IsSum := by
  induction ts generalizing t with
  | nil => exact isSum_of_unit (hunits t List.mem_cons_self)
  | cons u us ih =>
    obtain ⟨ht, hus⟩ := List.forall_mem_cons.1 hunits
    exact ⟨rfl, isSum_of_unit ht, ih hus⟩

theorem terms_nest : (nest t ts).terms = t :: ts := by
  induction ts generalizing t with
  | nil => exact terms_of_unit (hunits t List.mem_cons_self)
  | cons u us ih =>
    obtain ⟨ht, hus⟩ := List.forall_mem_cons.1 hunits
    rw [nest, terms, terms_of_unit ht, ih hus]
    rfl

theorem wellFormed_nest {g : Grammar} (hplus : g.isOperator OperatorTable.concatSymbol)
    (hts : ∀ u ∈ t :: ts, u.WellFormed g) : (nest t ts).WellFormed g := by
  induction ts generalizing t with
  | nil => exact hts t List.mem_cons_self
  | cons u us ih =>
    obtain ⟨hunit, hunits⟩ := List.forall_mem_cons.1 hunits
    obtain ⟨ht, hus⟩ := List.forall_mem_cons.1 hts
    exact ⟨⟨hunit, hplus, by decide, fun _ => by decide⟩, ht, ih hunits hus⟩

end

/-- Whatever the grouping, the text of a sum of well-formed terms reads as the sum that nests them
to the right. -/
theorem spelledBy_display_sum {g : Grammar} (hplus : g.isOperator OperatorTable.concatSymbol)
    {e : Expr} (he : e.IsSum) (hts : ∀ t ∈ e.terms, t.WellFormed g) :
    ∃ e' : Expr, SpelledBy g e.display e' ∧ e'.IsSum ∧ e'.terms = e.terms := by
  obtain ⟨t, ts, hterms⟩ := List.exists_cons_of_ne_nil e.terms_ne_nil
  have hunits : ∀ u ∈ t :: ts, u.isBinary = false :=
    fun u hu => isBinary_of_mem_terms (hterms ▸ hu)
  have hwell : (nest t ts).WellFormed g := wellFormed_nest hunits hplus (hterms ▸ hts)
  have hsame : (nest t ts).terms = e.terms := (terms_nest hunits).trans hterms.symm
  have hsum := isSum_nest hunits
  refine ⟨nest t ts, ?_, hsum, hsame⟩
  rw [display_eq_intercalate he, ← hsame, ← display_eq_intercalate hsum]
  exact spelledBy_display hwell

end Expr

namespace Engine

/-- Where `+` joins texts with a separator, grouping does not matter. A sum is evaluated as its
terms are, from left to right up to the first that fails. So two sums of the same terms come to the
same and make the same calls, and the text of a sum of well-formed terms, which shows no grouping,
is evaluated as the sum itself. -/
theorem eval_sum (engine : Engine σ) (args : List Value) {separator : String}
    (hplus : engine.env.JoinsWith separator) :
    (∀ e : Expr, e.IsSum →
      e.eval engine.env args = Expr.evalTerms engine.env args separator e.terms ∧
      e.eval engine.env.recorded args = Expr.evalTerms engine.env.recorded args separator e.terms) ∧
    (∀ e e' : Expr, e.IsSum → e'.IsSum → e.terms = e'.terms →
      e.eval engine.env args = e'.eval engine.env args ∧
      e.eval engine.env.recorded args = e'.eval engine.env.recorded args) ∧
    ∀ e : Expr, e.IsSum → (∀ t ∈ e.terms, t.WellFormed engine.grammar) →
      engine.evaluate e.display args = e.eval engine.env args := by
  have hrecorded : engine.env.recorded.JoinsWith separator := hplus
  have hterms {e : Expr} (he : e.IsSum) := And.intro (Expr.eval_eq_evalTerms hplus args he)
    (Expr.eval_eq_evalTerms hrecorded args he)
  have hgroup {e e' : Expr} (he : e.IsSum) (he' : e'.IsSum) (h : e.terms = e'.terms) :
      e.eval engine.env args = e'.eval engine.env args ∧
        e.eval engine.env.recorded args = e'.eval engine.env.recorded args := by
    rw [(hterms he).1, (hterms he).2, (hterms he').1, (hterms he').2, h]
    exact ⟨rfl, rfl⟩
  refine ⟨fun e he => hterms he, fun e e' he he' h => hgroup he he' h, fun e he hwell => ?_⟩
  obtain ⟨e', hspelled, he', hsame⟩ := Expr.spelledBy_display_sum hplus.contains he hwell
  rw [evaluate_of_spelledBy engine args hspelled]
  exact (hgroup he' he hsame).1

/-- Two groupings of three terms with a separator, where the interpreter answers a call in turn. -/
theorem eval_sum_separated :
    let engine : Engine Nat := {
      env := {
        spaces := .insert .empty "" fun key _ => do
          modify (· + 1)
          return key
        operators := .insert .empty '+' (.separatedBy "-") } }
    let a := Expr.value { key := "a" }
    let b := Expr.call { key := "b" } [0]
    let left := Expr.binary (.binary a '+' (.literal "x")) '+' b
    let right := Expr.binary a '+' (.binary (.literal "x") '+' b)
    engine.env.JoinsWith "-" ∧ left.IsSum ∧ right.IsSum ∧ left.terms = right.terms ∧
      (∀ t ∈ left.terms, t.WellFormed engine.grammar) ∧
      left.eval engine.env.recorded [.int 7] = right.eval engine.env.recorded [.int 7] ∧
      left.eval engine.env [.int 7] = Expr.evalTerms engine.env [.int 7] "-" right.terms ∧
      engine.evaluate left.display [.int 7] = left.eval engine.env [.int 7] ∧
      (right.eval engine.env.recorded [.int 7]).result (0, []) =
        (.ok "a-x-b", 2, [⟨"", "a", [], .ok "a"⟩, ⟨"", "b", [.int 7], .ok "b"⟩]) := by
  intro engine a b left right
  have hplus : engine.env.JoinsWith "-" := .inl rfl
  have hl : left.IsSum := by decide
  have hr : right.IsSum := by decide
  have hsame : left.terms = right.terms := rfl
  have hwell : ∀ t ∈ left.terms, t.WellFormed engine.grammar := by decide
  obtain ⟨hterms, hgroup, hdisplay⟩ := eval_sum engine [.int 7] hplus
  exact ⟨hplus, hl, hr, hsame, hwell, (hgroup left right hl hr hsame).2, (hterms left hl).1,
    hdisplay left hl hwell, rfl⟩

end Engine

end Interpolation
