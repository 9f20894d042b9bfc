/-
  Operators that are read are known. Reading and evaluating look operators up in the same table, so
  however that table was changed, every operator of an expression that was read can be applied, and
  no rendering reports an unknown one (`operatorsKnown_after`). What is registered from outside may
  fail with any error; interpreters and formatters are asked not to report an unknown operator of
  their own accord. Templates and the standard formatters do not. What is asked of the formatters
  is needed, and so is the one table: an operator may be dropped between reading and evaluating
  (`unknownOperator_reported`).
-/
import Interpolation.Catalog.Basic
import Interpolation.Proofs.Engine.Filling
import Interpolation.Proofs.Expr.Display
import Interpolation.Proofs.Pattern.Contents

namespace Interpolation

open Text Pattern

variable {σ α β : Type}

/-! ## Results that report no unknown operator -/

/-- The result is not that an operator is unknown. -/
def NoneUnknown (r : Except Error α) : Prop := ∀ op, r ≠ .error (.unknownOperator op)

theorem noneUnknown_ok (a : α) : NoneUnknown (.ok a) := nofun

/-- An error is the same whatever was asked for. -/
theorem NoneUnknown.error {e : Error} (h : NoneUnknown (.error e : Except Error α)) :
    NoneUnknown (.error e : Except Error β) := by
  intro op he
  exact h op (congrArg Except.error (Except.error.inj he))

theorem NoneUnknown.bind {r : Except Error α} {f : α → Except Error β} (hr : NoneUnknown r)
    (hf : ∀ a, NoneUnknown (f a)) : NoneUnknown (r >>= f) := by
  cases r with
  | error e => exact hr.error
  | ok a => exact hf a

theorem noneUnknown_mapM {f : β → Except Error α} (hf : ∀ b, NoneUnknown (f b)) (bs : List β) :
    NoneUnknown (bs.mapM f) := by
  induction bs with
  | nil => exact noneUnknown_ok []
  | cons b bs ih =>
    rw [List.mapM_cons]
    exact (hf b).bind fun a => ih.bind fun as => noneUnknown_ok (a :: as)

/-- From no state does the step come to an unknown operator. -/
def Eval.OperatorsKnown (step : Eval σ α) : Prop := ∀ st, NoneUnknown (step.result st).1

def Interpreter.OperatorsKnown (f : Interpreter σ) : Prop :=
  ∀ key args, (f key args).OperatorsKnown

def FormatterTable.OperatorsKnown (formatters : FormatterTable) : Prop :=
  ∀ spec, NoneUnknown (formatters.select spec)

namespace Eval

theorem operatorsKnown_of {r : Except Error α} (h : NoneUnknown r) :
    (Eval.of r : Eval σ α).OperatorsKnown := fun _ => h

theorem OperatorsKnown.bind {x : Eval σ α} {f : α → Eval σ β} (hx : x.OperatorsKnown)
    (hf : ∀ a, (f a).OperatorsKnown) : (x >>= f).OperatorsKnown := by
  intro st
  have h := hx st
  rw [result_bind]
  rcases hr : x.result st with ⟨r, st'⟩
  rw [hr] at h
  cases r with
  | error e => exact NoneUnknown.error h
  | ok a => exact hf a st'

end Eval

/-! ## Formatters -/

namespace Formatter

theorem noneUnknown_configured {S : Type} (f : Formatter S) {spec : String}
    (h : NoneUnknown (f.configure f.start spec).2) : NoneUnknown (f.factory.configured spec) := by
  unfold factory
  dsimp only
  split
  · exact noneUnknown_ok _
  · next heq =>
    rw [heq] at h
    exact h.error

theorem noneUnknown_refusal (spec reason : String) : NoneUnknown (refusal spec reason) := nofun

theorem noneUnknown_printf (settings : Printf.Settings) (spec : String) :
    NoneUnknown (printf.configure settings spec).2 := by
  show NoneUnknown (settings.configure spec).2
  unfold Printf.Settings.configure
  split
  · exact noneUnknown_refusal _ _
  · dsimp only
    split
    · exact noneUnknown_refusal _ _
    · split
      · exact noneUnknown_refusal _ _
      · exact noneUnknown_ok ()

theorem noneUnknown_mask (settings : MaskSettings) (spec : String) :
    NoneUnknown (mask.configure settings spec).2 := by
  show NoneUnknown (settings.configure spec).2
  unfold MaskSettings.configure
  split
  · exact noneUnknown_ok ()
  · split
    · exact noneUnknown_ok ()
    · exact noneUnknown_refusal _ _

end Formatter

namespace FormatterTable

theorem operatorsKnown_empty : OperatorsKnown .empty := by
  intro spec
  unfold select
  split
  · exact noneUnknown_ok _
  · exact noneUnknown_ok _

theorem OperatorsKnown.insert {formatters : FormatterTable} {f : Factory} (label : Char)
    (h : formatters.OperatorsKnown) (hf : ∀ spec, NoneUnknown (f.configured spec)) :
    FormatterTable.OperatorsKnown (CharTable.insert formatters label f) := by
  intro spec
  have hspec := h spec
  unfold select at hspec ⊢
  cases hs : spec.toList with
  | nil => exact noneUnknown_ok _
  | cons c rest =>
    rw [hs] at hspec
    dsimp only at hspec ⊢
    rw [CharTable.find?_insert]
    split
    · exact hf _
    · exact hspec

theorem operatorsKnown_standard : standard.OperatorsKnown := by
  refine .insert _ (.insert _ (.insert _ operatorsKnown_empty ?_) ?_) ?_
  · exact fun spec => Formatter.noneUnknown_configured _ (Formatter.noneUnknown_printf _ spec)
  · exact fun spec => Formatter.noneUnknown_configured Formatter.clock (noneUnknown_ok ())
  · exact fun spec => Formatter.noneUnknown_configured _ (Formatter.noneUnknown_mask _ spec)

end FormatterTable

/-! ## Expressions -/

theorem noneUnknown_argumentAt (args : List Value) (index : Nat) :
    NoneUnknown (argumentAt args index) := by
  unfold argumentAt
  split
  · exact nofun
  · exact noneUnknown_ok _

namespace Expr

/-- The operators of an expression, from left to right. -/
def operators : Expr → List Char
  | binary l op r => l.operators ++ op :: r.operators
  | _ => []

theorem WellFormed.isOperator {g : Grammar} {e : Expr} (h : e.WellFormed g) :
    ∀ op ∈ e.operators, g.isOperator op := by
  induction e with
  | literal | value | call => exact fun op hop => absurd hop List.not_mem_nil
  | binary l op r ihl ihr =>
    obtain ⟨⟨-, hop, -, -⟩, hl, hr⟩ := h
    intro c hc
    rcases List.mem_append.1 hc with hc | hc
    · exact ihl hl c hc
    · rcases List.mem_cons.1 hc with rfl | hc
      · exact hop
      · exact ihr hr c hc

end Expr

/-- What an operator of the table makes of two texts. -/
theorem OperatorTable.combine_of_contains {operators : OperatorTable} {op : Char}
    (h : operators.contains op) (left right : String) :
    ∃ text, operators.combine op left right = .ok text := by
  obtain ⟨f, hf⟩ := Option.isSome_iff_exists.1 h
  refine ⟨f left right, ?_⟩
  unfold combine
  rw [hf]

/-! ## Evaluation -/

section
variable {env : Environment σ} {engine : Engine σ}

theorem Expr.operatorsKnown_interpret (name : Name) (args : List Value)
    (hspaces : ∀ space f, env.spaces.find? space = some f → f.OperatorsKnown) :
    (interpret env name args).OperatorsKnown := by
  unfold interpret Environment.interpreterOf
  dsimp only
  intro st
  rw [Eval.result_of_bind]
  split
  · next f hf =>
    split at hf
    · cases hf
    · next hfind =>
      cases hf
      exact hspaces _ _ hfind name.key args st
  · next e he =>
    split at he
    · cases he
      exact nofun
    · cases he

/-- An expression whose operators are all in the table is evaluated without looking for others. -/
theorem Expr.operatorsKnown_eval (args : List Value)
    (hspaces : ∀ space f, env.spaces.find? space = some f → f.OperatorsKnown) {e : Expr}
    (he : ∀ op ∈ e.operators, env.operators.contains op) : (e.eval env args).OperatorsKnown := by
  induction e with
  | literal t => exact Eval.operatorsKnown_of (noneUnknown_ok t)
  | value n => exact operatorsKnown_interpret n [] hspaces
  | call n ps =>
    have hparams := noneUnknown_mapM (noneUnknown_argumentAt args) ps
    exact .bind (Eval.operatorsKnown_of hparams) fun _ => operatorsKnown_interpret n _ hspaces
  | binary l op r ihl ihr =>
    have hop : env.operators.contains op := he op (by simp [operators])
    unfold eval
    rw [if_pos hop]
    refine .bind (ihl fun c hc => he c (List.mem_append_left _ hc)) fun left => ?_
    refine .bind (ihr fun c hc => he c ?_) fun right => ?_
    · exact List.mem_append_right _ (List.mem_cons_of_mem _ hc)
    · obtain ⟨text, htext⟩ := OperatorTable.combine_of_contains hop left right
      rw [htext]
      exact Eval.operatorsKnown_of (noneUnknown_ok text)

end

namespace Engine

variable {engine : Engine σ}

/-- Every operator of an expression that was read is in the table it was read with. -/
theorem contains_of_readExpr {src : String} {e : Expr} (h : engine.readExpr src = .ok e) :
    ∀ op ∈ e.operators, engine.env.operators.contains op :=
  (Expr.spelledBy_of_ofSource h).wellFormed.isOperator

theorem operatorsKnown_evaluate
    (hspaces : ∀ space f, engine.env.spaces.find? space = some f → f.OperatorsKnown)
    (src : String) (args : List Value) : (engine.evaluate src args).OperatorsKnown := by
  intro st
  unfold evaluate
  rw [Eval.result_of_bind]
  cases hread : engine.readExpr src with
  | error e =>
    obtain ⟨text, rfl⟩ := Expr.ofSource_error hread
    exact nofun
  | ok e => exact e.operatorsKnown_eval args hspaces (contains_of_readExpr hread) st

/-! ## Rendering -/

theorem noneUnknown_readIndex (index : Option String) : NoneUnknown (readIndex index) := by
  unfold readIndex
  split
  · exact noneUnknown_ok none
  · split
    · exact noneUnknown_ok _
    · exact nofun

theorem noneUnknown_choose (n : Numbering) (index : Option Nat) :
    NoneUnknown (n.choose index) := by
  unfold Numbering.choose
  split
  · exact nofun
  · exact nofun
  · exact noneUnknown_ok _
  · exact noneUnknown_ok _
  · exact noneUnknown_ok _

theorem noneUnknown_placeholder (hformatters : engine.formatters.OperatorsKnown)
    (args : List Value) (n : Numbering) (index spec : Option String) :
    NoneUnknown (engine.placeholder args n index spec) := by
  have hrenderer : NoneUnknown (engine.renderer spec) := by
    cases spec with
    | none => exact noneUnknown_ok _
    | some spec => exact hformatters spec
  unfold placeholder
  refine (noneUnknown_readIndex index).bind fun index => hrenderer.bind fun render => ?_
  refine (noneUnknown_choose n index).bind fun r => ?_
  exact (noneUnknown_argumentAt args r.1).bind fun v => noneUnknown_ok _

theorem noneUnknown_finish (pattern : String) :
    NoneUnknown (finish (Pattern.segments pattern).2) := by
  cases hend : (Pattern.segments pattern).2 with
  | complete => exact noneUnknown_ok ()
  | unterminated index => exact (noneUnknown_readIndex index).bind fun _ => nofun
  | refused e =>
    obtain ⟨position, rfl⟩ := segments_refused hend
    exact nofun

section
variable (hspaces : ∀ space f, engine.env.spaces.find? space = some f → f.OperatorsKnown)
  (hformatters : engine.formatters.OperatorsKnown)
include hspaces hformatters

theorem operatorsKnown_segment (args : List Value) (n : Numbering) (s : Segment) :
    (engine.segment args n s).OperatorsKnown := by
  cases s with
  | literal text => exact Eval.operatorsKnown_of (noneUnknown_ok _)
  | argument index spec =>
    exact Eval.operatorsKnown_of (noneUnknown_placeholder hformatters args n index spec)
  | expression body =>
    refine (operatorsKnown_evaluate hspaces body args).bind fun text => ?_
    exact Eval.operatorsKnown_of (noneUnknown_ok (text, n))

theorem operatorsKnown_pieces (args : List Value) (n : Numbering) (ss : List Segment) :
    (engine.pieces args n ss).OperatorsKnown := by
  induction ss generalizing n with
  | nil => exact Eval.operatorsKnown_of (noneUnknown_ok [])
  | cons s ss ih =>
    refine (operatorsKnown_segment hspaces hformatters args n s).bind fun r => ?_
    exact (ih r.2).bind fun texts => Eval.operatorsKnown_of (noneUnknown_ok (r.1 :: texts))

theorem operatorsKnown_render (pattern : String) (args : List Value) :
    (engine.render pattern args).OperatorsKnown := by
  refine (operatorsKnown_pieces hspaces hformatters args .unused _).bind fun texts => ?_
  refine (Eval.operatorsKnown_of (noneUnknown_finish pattern)).bind fun _ => ?_
  exact Eval.operatorsKnown_of (noneUnknown_ok (String.join texts))

end

end Engine

/-- Templates are rendered without any operator from outside. -/
theorem TemplateTable.operatorsKnown_interpreter (table : TemplateTable) :
    Interpreter.OperatorsKnown (table.interpreter : Interpreter σ) := by
  intro key args
  refine Eval.operatorsKnown_of ?_
  unfold text
  split
  · exact nofun
  · next template _ =>
    split
    · exact noneUnknown_ok template
    · have hbare : ((Engine.bare : Engine Unit).render template args).OperatorsKnown :=
        Engine.operatorsKnown_render nofun FormatterTable.operatorsKnown_empty template args
      exact hbare ()

/-! ## Changes to the operators -/

/-- A change to the operators that an engine knows. Putting replaces what had the same symbol. -/
inductive OperatorChange where
  | put (symbol : Char) (f : Operator)
  | drop (symbol : Char)
  | clear
  | reset

namespace Engine

def change (engine : Engine σ) : OperatorChange → Engine σ
  | .put symbol f => engine.putOperator symbol f
  | .drop symbol => engine.dropOperator symbol
  | .clear => engine.clearOperators
  | .reset => engine.resetOperators

/-- The engine after some changes, from the first to the last. -/
def after (engine : Engine σ) (changes : List OperatorChange) : Engine σ :=
  changes.foldl change engine

/-- A change to the operators keeps all else. -/
theorem change_keeps (engine : Engine σ) (c : OperatorChange) :
    (engine.change c).formatters = engine.formatters ∧
      (engine.change c).env.spaces = engine.env.spaces := by
  cases c with
  | put | drop | clear | reset => exact ⟨rfl, rfl⟩

theorem after_keeps (engine : Engine σ) (changes : List OperatorChange) :
    (engine.after changes).formatters = engine.formatters ∧
      (engine.after changes).env.spaces = engine.env.spaces := by
  induction changes generalizing engine with
  | nil => exact ⟨rfl, rfl⟩
  | cons c changes ih =>
    obtain ⟨hformatters, hspaces⟩ := change_keeps engine c
    obtain ⟨hformatters', hspaces'⟩ := ih (engine.change c)
    exact ⟨hformatters'.trans hformatters, hspaces'.trans hspaces⟩

/-- After any changes to the operators of an engine, every operator of an expression that is read
is found and can be applied, and neither evaluating nor rendering reports an unknown one, unless
an interpreter or a formatter from outside does so itself. -/
theorem operatorsKnown_after (engine : Engine σ) (changes : List OperatorChange)
    (hspaces : ∀ space f, engine.env.spaces.find? space = some f → f.OperatorsKnown) :
    (∀ src e, (engine.after changes).readExpr src = .ok e → ∀ op ∈ e.operators,
        (engine.after changes).env.operators.contains op ∧ ∀ left right, ∃ text,
          (engine.after changes).env.operators.combine op left right = .ok text) ∧
      (∀ src args, ((engine.after changes).evaluate src args).OperatorsKnown) ∧
      (engine.formatters.OperatorsKnown →
        ∀ pattern args, ((engine.after changes).render pattern args).OperatorsKnown) ∧
      FormatterTable.OperatorsKnown .standard ∧ FormatterTable.OperatorsKnown .empty ∧
      ∀ table : TemplateTable, Interpreter.OperatorsKnown (table.interpreter : Interpreter σ) := by
  obtain ⟨hkeepf, hkeeps⟩ := after_keeps engine changes
  rw [← hkeeps] at hspaces
  refine ⟨?_, ?_, ?_, FormatterTable.operatorsKnown_standard, FormatterTable.operatorsKnown_empty,
    TemplateTable.operatorsKnown_interpreter⟩
  · intro src e hread op hop
    have hcontains := contains_of_readExpr hread op hop
    exact ⟨hcontains, OperatorTable.combine_of_contains hcontains⟩
  · exact operatorsKnown_evaluate hspaces
  · intro hformatters
    exact operatorsKnown_render hspaces (hkeepf ▸ hformatters)

theorem operatorsKnown_after_exchange :
    ∃ (engine : Engine Unit) (changes : List OperatorChange) (e : Expr),
      changes = [.drop '+', .put '*' (.separatedBy "-")] ∧
      (∀ space f, engine.env.spaces.find? space = some f → f.OperatorsKnown) ∧
      (engine.after changes).readExpr "'a' * en::hello" = .ok e ∧ '*' ∈ e.operators ∧
      (engine.after changes).env.operators.contains '*' ∧
      (engine.after changes).env.operators.contains '+' = false ∧
      ((engine.after changes).evaluate "'a' * en::hello" []).result () = (.ok "a-Hello", ()) ∧
      (∀ src args, ((engine.after changes).evaluate src args).OperatorsKnown) ∧
      ∀ pattern args, ((engine.after changes).render pattern args).OperatorsKnown := by
  let table : TemplateTable := .ofList [("hello", "Hello")]
  let engine : Engine Unit := putInterpreter {} "en" table.interpreter
  let changes : List OperatorChange := [.drop '+', .put '*' (.separatedBy "-")]
  have hspaces : ∀ space f, engine.env.spaces.find? space = some f → f.OperatorsKnown := by
    intro space f hf
    have hlookup : [("en", table.interpreter)].lookup space = some f := hf
    rw [List.lookup_cons] at hlookup
    split at hlookup
    · cases hlookup
      exact table.operatorsKnown_interpreter
    · cases hlookup
  let e : Expr := .binary (.literal "a") '*' (.value ⟨some "en", "hello"⟩)
  have he : e.WellFormed (engine.after changes).grammar := by decide +kernel
  have hread : (engine.after changes).readExpr "'a' * en::hello" = .ok e :=
    Expr.ofSource_of_spelledBy (Expr.spelledBy_display he)
  obtain ⟨hops, hevaluate, hrender, hstandard, -⟩ := operatorsKnown_after engine changes hspaces
  have hstar : '*' ∈ e.operators := by decide
  refine ⟨engine, changes, e, rfl, hspaces, hread, hstar, (hops _ e hread '*' hstar).1, by decide,
    ?_, hevaluate, hrender hstandard⟩
  unfold evaluate
  rw [Eval.result_of_bind, hread]
  rfl

/-- Without any interpreter, a formatter that refuses its spec with that error reports an unknown
operator, even one that is known. And an expression whose operator was dropped after it was read
is not evaluated. -/
theorem unknownOperator_reported :
    let refusing : Factory :=
      { unconfigured := Value.text, configured := fun _ => .error (.unknownOperator '-') }
    let engine : Engine Unit := putFormatter {} '!' refusing
    let changes : List OperatorChange := [.put '-' .concat]
    let e : Expr := .binary (.literal "a") '-' (.literal "b")
    (∀ space f, engine.env.spaces.find? space = some f → f.OperatorsKnown) ∧
      (engine.after changes).env.operators.contains '-' ∧
      ((engine.after changes).render "\x7b:!\x7d" [.int 1]).result () =
        (.error (.unknownOperator '-'), ()) ∧
      ¬ (∀ pattern args, ((engine.after changes).render pattern args).OperatorsKnown) ∧
      (engine.after changes).readExpr "'a' - 'b'" = .ok e ∧
      (e.eval (engine.after (changes ++ [.drop '-'])).env []).result () =
        (.error (.unknownOperator '-'), ()) := by
  intro refusing engine changes e
  have hrender : ((engine.after changes).render "\x7b:!\x7d" [.int 1]).result () =
      (.error (.unknownOperator '-'), ()) := by decide +kernel
  have he : e.WellFormed (engine.after changes).grammar := by decide +kernel
  have hread : (engine.after changes).readExpr "'a' - 'b'" = .ok e :=
    Expr.ofSource_of_spelledBy (Expr.spelledBy_display he)
  refine ⟨nofun, by decide +kernel, hrender, fun h => ?_, hread, rfl⟩
  exact h "\x7b:!\x7d" [.int 1] () '-' (congrArg Prod.fst hrender)

end Engine

end Interpolation
