/-
  The order of evaluation. An expression is evaluated in steps (`Expr.steps`): an operator is looked
  up, its left side is evaluated, then its right side, and then it is applied; a call resolves its
  parameters from left to right, then its namespace, and then it calls. What a step does and how it
  fails is said by rules, `Done` and `Fails`, which leave no choice. Evaluating is taking the steps
  up to the first that fails (`Ends`, `eval_in_order`). Interpreters have states of any kind, so
  calls are seen by recording them next to the state (`Environment.recorded`): the calls are those
  of the names, in their order, that the steps come to, and none else.
-/
import Interpolation.Proofs.Engine.Filling
import Interpolation.Proofs.Engine.Showing
import Interpolation.Proofs.Keyed.Overlaying
import Mathlib.Data.List.Forall2

namespace Interpolation

variable {σ α β : Type}

/-! ## Recording calls -/

/-- A call of the interpreter of a namespace, and its answer. -/
structure Call where
  space : String
  key : String
  args : List Value
  answer : Except Error String
deriving DecidableEq

/-- The interpreter of a namespace, with the calls that it answered in its state. -/
def Interpreter.recorded (space : String) (f : Interpreter σ) : Interpreter (σ × List Call) :=
  fun key args => ExceptT.mk fun st =>
    let r := (f key args).result st.1
    (r.1, r.2, st.2 ++ [⟨space, key, args, r.1⟩])

/-- The environment, with all calls of interpreters in its state. -/
def Environment.recorded (env : Environment σ) : Environment (σ × List Call) where
  spaces := env.spaces.mapEntries Interpreter.recorded
  defaultSpace := env.defaultSpace
  operators := env.operators

/-- From a state a computation comes to a result and makes some calls: the recorded one comes to
the same, and the calls follow those that were recorded before. -/
structure Observed (x : Eval σ α) (recorded : Eval (σ × List Call) α) (st : σ)
    (r : Except Error α) (calls : List Call) (st' : σ) : Prop where
  result : x.result st = (r, st')
  records : ∀ earlier, recorded.result (st, earlier) = (r, st', earlier ++ calls)

namespace Observed

variable {x : Eval σ α} {x' : Eval (σ × List Call) α} {f : α → Eval σ β}
  {f' : α → Eval (σ × List Call) β} {st st₁ st' : σ} {calls more : List Call}

theorem of (r : Except Error α) (st : σ) : Observed (Eval.of r) (Eval.of r) st r [] st where
  result := rfl
  records earlier := by rw [Eval.result_of, List.append_nil]

theorem unique {r r' : Except Error α} (h : Observed x x' st r calls st₁)
    (h' : Observed x x' st r' more st') : r = r' ∧ calls = more ∧ st₁ = st' := by
  have hrecords := (h.records []).symm.trans (h'.records [])
  obtain ⟨rfl, hboth⟩ := Prod.mk.inj hrecords
  obtain ⟨rfl, rfl⟩ := Prod.mk.inj hboth
  exact ⟨rfl, rfl, rfl⟩

theorem bind {a : α} {r : Except Error β} (h : Observed x x' st (.ok a) calls st₁)
    (hf : Observed (f a) (f' a) st₁ r more st') :
    Observed (x >>= f) (x' >>= f') st r (calls ++ more) st' where
  result := (Eval.result_bind_ok h.result).trans hf.result
  records earlier := by
    rw [Eval.result_bind_ok (h.records earlier), hf.records, List.append_assoc]

/-- What follows without an effect makes no call. -/
theorem bind_of {a : α} {f : α → Except Error β} {r : Except Error β}
    (h : Observed x x' st (.ok a) calls st') (hf : f a = r) :
    Observed (x >>= fun a => Eval.of (f a)) (x' >>= fun a => Eval.of (f a)) st r calls st' where
  result := by rw [Eval.result_bind_ok h.result, hf, Eval.result_of]
  records earlier := by rw [Eval.result_bind_ok (h.records earlier), hf, Eval.result_of]

theorem bind_error {e : Error} (h : Observed x x' st (.error e) calls st') :
    Observed (x >>= f) (x' >>= f') st (.error e) calls st' where
  result := Eval.result_bind_error h.result
  records earlier := Eval.result_bind_error (h.records earlier)

end Observed

namespace Expr

/-! ## Steps -/

inductive Step where
  /-- an operator is looked up, before its sides are evaluated -/
  | operator (symbol : Char)
  | text (t : String)
  /-- a parameter of a call is resolved -/
  | argument (index : Nat)
  /-- the namespace of a name is resolved -/
  | space (name : Option String)
  /-- the interpreter of the name is called -/
  | call (name : Name) (params : List Nat)
  /-- the operator is applied to the texts of its sides -/
  | join (symbol : Char)

/-- The steps of evaluating an expression, in their order. -/
def steps : Expr → List Step
  | literal t => [.text t]
  | value n => [.space n.space, .call n []]
  | call n params => params.map .argument ++ [.space n.space, .call n params]
  | binary l op r => .operator op :: (l.steps ++ (r.steps ++ [.join op]))

/-- The names of an expression from left to right, each with its parameters. -/
def leaves : Expr → List (Name × List Nat)
  | literal _ => []
  | value n => [(n, [])]
  | call n params => [(n, params)]
  | binary l _ r => l.leaves ++ r.leaves

/-- The name that a step calls, with its parameters. -/
def Step.leaf : Step → Option (Name × List Nat)
  | call n params => some (n, params)
  | _ => none

theorem filterMap_leaf_steps (e : Expr) : e.steps.filterMap Step.leaf = e.leaves := by
  induction e with
  | literal t => rfl
  | value n => rfl
  | call n params =>
    have hparams : (params.map Step.argument).filterMap Step.leaf = [] := by
      rw [List.filterMap_map]
      exact List.filterMap_eq_nil_iff.2 fun _ _ => rfl
    rw [steps, List.filterMap_append, hparams]
    rfl
  | binary l op r ihl ihr =>
    show (l.steps ++ (r.steps ++ [Step.join op])).filterMap Step.leaf = l.leaves ++ r.leaves
    rw [List.filterMap_append, List.filterMap_append, ihl, ihr]
    exact congrArg (l.leaves ++ ·) (List.append_nil _)

section
variable (env : Environment σ) (args : List Value)

/-- A step succeeds: it makes some calls, and leads from the texts that were not yet joined, the
last first, and the state of the interpreters to others. -/
inductive Done : Step → List String × σ → List Call → List String × σ → Prop
  | operator {op c} (h : env.operators.contains op) : Done (.operator op) c [] c
  | text {t ts st} : Done (.text t) (ts, st) [] (t :: ts, st)
  | argument {i c} (h : i < args.length) : Done (.argument i) c [] c
  | space {name f c} (h : env.spaces.find? (name.getD env.defaultSpace) = some f) :
      Done (.space name) c [] c
  | call {n : Name} {params passed f t ts st st'}
      (hpassed : passed.map some = params.map (args[·]?))
      (hspace : env.spaces.find? (n.space.getD env.defaultSpace) = some f)
      (hcall : (f n.key passed).result st = (.ok t, st')) :
      Done (.call n params) (ts, st)
        [⟨n.space.getD env.defaultSpace, n.key, passed, .ok t⟩] (t :: ts, st')
  | join {op f l r ts st} (h : env.operators.find? op = some f) :
      Done (.join op) (r :: l :: ts, st) [] (f l r :: ts, st)

/-- A step fails in a state: with an error, after some calls and in another state. Joining texts
does not fail. -/
inductive Fails : Step → σ → Error → List Call → σ → Prop
  | operator {op st} (h : ¬ env.operators.contains op) :
      Fails (.operator op) st (.unknownOperator op) [] st
  | argument {i st} (h : args.length ≤ i) :
      Fails (.argument i) st (.indexOutOfRange i args.length) [] st
  | space {name st} (h : env.spaces.find? (name.getD env.defaultSpace) = none) :
      Fails (.space name) st (.unknownNamespace (name.getD env.defaultSpace)) [] st
  | call {n : Name} {params passed f e st st'}
      (hpassed : passed.map some = params.map (args[·]?))
      (hspace : env.spaces.find? (n.space.getD env.defaultSpace) = some f)
      (hcall : (f n.key passed).result st = (.error e, st')) :
      Fails (.call n params) st e
        [⟨n.space.getD env.defaultSpace, n.key, passed, .error e⟩] st'

/-- All of the steps succeed, one after the other. -/
inductive Runs : List Step → List String × σ → List Call → List String × σ → Prop
  | nil {c} : Runs [] c [] c
  | cons {step steps c c₁ c' calls more} (h : Done env args step c calls c₁)
      (hs : Runs steps c₁ more c') : Runs (step :: steps) c (calls ++ more) c'

/-- The last of the steps fails, after those before it have succeeded. -/
inductive Breaks : List Step → List String × σ → Error → List Call → σ → Prop
  | last {step ts st e calls st'} (h : Fails env args step st e calls st') :
      Breaks [step] (ts, st) e calls st'
  | cons {step steps c c₁ e calls more st'} (h : Done env args step c calls c₁)
      (hs : Breaks steps c₁ e more st') : Breaks (step :: steps) c e (calls ++ more) st'

/-- The call is that of a name: in its namespace, or the default one, with its key and with the
arguments that its parameters stand for. -/
structure Made (leaf : Name × List Nat) (call : Call) : Prop where
  space : call.space = leaf.1.space.getD env.defaultSpace
  key : call.key = leaf.1.key
  args : call.args.map some = leaf.2.map (args[·]?)

/-- The text of an expression, from those of its names: its operators are applied from the
bottom up. -/
inductive Joined (operators : OperatorTable) : Expr → List String → String → Prop
  | literal {t} : Joined operators (literal t) [] t
  | value {n t} : Joined operators (value n) [t] t
  | call {n params t} : Joined operators (call n params) [t] t
  | binary {l op r f left right t u} (hl : Joined operators l left t)
      (hr : Joined operators r right u) (h : operators.find? op = some f) :
      Joined operators (binary l op r) (left ++ right) (f t u)

/-- What evaluating an expression comes to, with some texts that wait to be joined: the calls that
are made, the result, and the state of the interpreters after it. -/
inductive Ends (e : Expr) (ts : List String) (st : σ) :
    Except Error String → List Call → σ → Prop
  /-- All steps succeed. Each name is called once, and the operators are applied to the answers. -/
  | value {text answers calls st'} (hruns : Runs env args e.steps (ts, st) calls (text :: ts, st'))
      (hcalls : List.Forall₂ (Made env args) e.leaves calls)
      (hanswers : calls.map (·.answer) = answers.map .ok)
      (hjoined : Joined env.operators e answers text) :
      Ends e ts st (.ok text) calls st'
  /-- A step fails. Only names up to it were called, each once, and its error is the result. -/
  | error {failure taken rest calls st'} (hsteps : e.steps = taken ++ rest)
      (hbreaks : Breaks env args taken (ts, st) failure calls st')
      (hleaves : e.leaves = taken.filterMap Step.leaf ++ rest.filterMap Step.leaf)
      (hcalls : List.Forall₂ (Made env args) (taken.filterMap Step.leaf) calls) :
      Ends e ts st (.error failure) calls st'

end

/-! ## Runs -/

section
variable {env : Environment σ} {args : List Value} {c c₁ c' : List String × σ}
  {calls more : List Call} {failure : Error} {taken rest : List Step} {st st' : σ}

theorem Runs.append (h : Runs env args taken c calls c₁) (hs : Runs env args rest c₁ more c') :
    Runs env args (taken ++ rest) c (calls ++ more) c' := by
  induction h with
  | nil => exact hs
  | cons hstep _ ih =>
    rw [List.append_assoc]
    exact .cons hstep (ih hs)

theorem Runs.breaks (h : Runs env args taken c calls c₁)
    (hs : Breaks env args rest c₁ failure more st') :
    Breaks env args (taken ++ rest) c failure (calls ++ more) st' := by
  induction h with
  | nil => exact hs
  | cons hstep _ ih =>
    rw [List.append_assoc]
    exact .cons hstep (ih hs)

theorem Runs.one {step : Step} (h : Done env args step c calls c') :
    Runs env args [step] c calls c' :=
  List.append_nil calls ▸ .cons h .nil

theorem Runs.arguments {params : List Nat} (h : ∀ i ∈ params, i < args.length) :
    Runs env args (params.map .argument) c [] c := by
  induction params with
  | nil => exact .nil
  | cons i params ih =>
    obtain ⟨hi, hparams⟩ := List.forall_mem_cons.1 h
    exact .cons (.argument hi) (ih hparams)

/-- A step that succeeds makes the calls of the name that it calls, if any. -/
theorem Done.made {step : Step} (h : Done env args step c calls c') {steps : List Step}
    (hs : List.Forall₂ (Made env args) (steps.filterMap Step.leaf) more) :
    List.Forall₂ (Made env args) ((step :: steps).filterMap Step.leaf) (calls ++ more) := by
  cases h with
  | call hpassed => exact .cons ⟨rfl, rfl, hpassed⟩ hs
  | operator | text | argument | space | join => exact hs

theorem Runs.made (h : Runs env args taken c calls c') :
    List.Forall₂ (Made env args) (taken.filterMap Step.leaf) calls := by
  induction h with
  | nil => exact .nil
  | cons hstep _ ih => exact hstep.made ih

theorem Breaks.made (h : Breaks env args taken c failure calls st') :
    List.Forall₂ (Made env args) (taken.filterMap Step.leaf) calls := by
  induction h with
  | cons hstep _ ih => exact hstep.made ih
  | last hfails =>
    cases hfails with
    | call hpassed => exact .cons ⟨rfl, rfl, hpassed⟩ .nil
    | operator | argument | space => exact .nil

/-- If all steps succeed, the names have been called. -/
theorem Ends.of_runs {e : Expr} {ts answers : List String} {text : String}
    (hruns : Runs env args e.steps (ts, st) calls (text :: ts, st'))
    (hanswers : calls.map (·.answer) = answers.map .ok)
    (hjoined : Joined env.operators e answers text) : Ends env args e ts st (.ok text) calls st' :=
  .value hruns (filterMap_leaf_steps e ▸ hruns.made) hanswers hjoined

/-- If a step fails, the names up to it have been called. -/
theorem Ends.of_breaks {e : Expr} {ts : List String} (hsteps : e.steps = taken ++ rest)
    (hbreaks : Breaks env args taken (ts, st) failure calls st') :
    Ends env args e ts st (.error failure) calls st' := by
  have hleaves : e.leaves = taken.filterMap Step.leaf ++ rest.filterMap Step.leaf := by
    rw [← filterMap_leaf_steps, hsteps, List.filterMap_append]
  exact .error hsteps hbreaks hleaves hbreaks.made

/-! ## The rules leave no choice -/

/-- A name with parameters stands for one interpreter and one list of arguments. -/
theorem called_unique {space : String} {params : List Nat} {passed passed' : List Value}
    {f f' : Interpreter σ} (hpassed : passed.map some = params.map (args[·]?))
    (hpassed' : passed'.map some = params.map (args[·]?)) (hf : env.spaces.find? space = some f)
    (hf' : env.spaces.find? space = some f') : passed = passed' ∧ f = f' :=
  ⟨(List.map_inj_right fun _ _ => Option.some.inj).1 (hpassed.trans hpassed'.symm),
    Option.some.inj (hf.symm.trans hf')⟩

theorem Done.unique {step : Step} (h : Done env args step c calls c₁)
    (h' : Done env args step c more c') : calls = more ∧ c₁ = c' := by
  cases h with
  | call hpassed hspace hcall =>
    cases h' with
    | call hpassed' hspace' hcall' =>
      obtain ⟨rfl, rfl⟩ := called_unique hpassed hpassed' hspace hspace'
      obtain ⟨ht, rfl⟩ := Prod.mk.inj (hcall.symm.trans hcall')
      obtain rfl := Except.ok.inj ht
      exact ⟨rfl, rfl⟩
  | join h =>
    cases h' with
    | join h' =>
      obtain rfl := Option.some.inj (h.symm.trans h')
      exact ⟨rfl, rfl⟩
  | operator | text | argument | space =>
    cases h'
    exact ⟨rfl, rfl⟩

theorem Fails.unique {step : Step} {failure' : Error} {st₁ : σ}
    (h : Fails env args step st failure calls st₁) (h' : Fails env args step st failure' more st') :
    failure = failure' ∧ calls = more ∧ st₁ = st' := by
  cases h with
  | call hpassed hspace hcall =>
    cases h' with
    | call hpassed' hspace' hcall' =>
      obtain ⟨rfl, rfl⟩ := called_unique hpassed hpassed' hspace hspace'
      obtain ⟨he, rfl⟩ := Prod.mk.inj (hcall.symm.trans hcall')
      obtain rfl := Except.error.inj he
      exact ⟨rfl, rfl, rfl⟩
  | operator | argument | space =>
    cases h'
    exact ⟨rfl, rfl, rfl⟩

/-- A step that succeeds does not fail. -/
theorem Done.not_fails {step : Step} {ts : List String} (h : Done env args step (ts, st) calls c')
    (h' : Fails env args step st failure more st') : False := by
  cases h' with
  | operator hop =>
    cases h with
    | operator hop' => exact hop hop'
  | argument hi =>
    cases h with
    | argument hi' => exact absurd hi' (Nat.not_lt.2 hi)
  | space hspace =>
    cases h with
    | space hspace' => exact Option.some_ne_none _ (hspace'.symm.trans hspace)
  | call hpassed hspace hcall =>
    cases h with
    | call hpassed' hspace' hcall' =>
      obtain ⟨rfl, rfl⟩ := called_unique hpassed hpassed' hspace hspace'
      cases hcall.symm.trans hcall'

theorem Runs.unique (h : Runs env args taken c calls c₁) (h' : Runs env args taken c more c') :
    calls = more ∧ c₁ = c' := by
  induction h generalizing more with
  | nil =>
    cases h'
    exact ⟨rfl, rfl⟩
  | cons hstep _ ih =>
    cases h' with
    | cons hstep' hs' =>
      obtain ⟨rfl, rfl⟩ := hstep.unique hstep'
      obtain ⟨rfl, rfl⟩ := ih hs'
      exact ⟨rfl, rfl⟩

/-- Steps that all succeed do not fail on the way. -/
theorem Runs.not_breaks (h : Runs env args (taken ++ rest) c calls c')
    (hbreaks : Breaks env args taken c failure more st') : False := by
  induction hbreaks generalizing calls with
  | last hfails =>
    cases h with
    | cons hstep _ => exact hstep.not_fails hfails
  | cons hstep _ ih =>
    cases h with
    | cons hstep' hs =>
      obtain ⟨-, rfl⟩ := hstep.unique hstep'
      exact ih hs

theorem Breaks.unique {taken' rest' : List Step} {failure' : Error} {st₁ : σ}
    (h : Breaks env args taken c failure calls st₁)
    (h' : Breaks env args taken' c failure' more st') (hsteps : taken ++ rest = taken' ++ rest') :
    failure = failure' ∧ calls = more ∧ st₁ = st' := by
  -- the steps agree as long as both succeed, and where one fails the other does not succeed
  induction h generalizing taken' more with
  | last hfails =>
    cases h' with
    | last hfails' =>
      obtain ⟨rfl, -⟩ := List.cons.inj hsteps
      exact hfails.unique hfails'
    | cons hstep' _ =>
      obtain ⟨rfl, -⟩ := List.cons.inj hsteps
      exact (hstep'.not_fails hfails).elim
  | cons hstep _ ih =>
    cases h' with
    | last hfails' =>
      obtain ⟨rfl, -⟩ := List.cons.inj hsteps
      exact (hstep.not_fails hfails').elim
    | cons hstep' hs' =>
      obtain ⟨rfl, hsteps'⟩ := List.cons.inj hsteps
      obtain ⟨rfl, rfl⟩ := hstep.unique hstep'
      obtain ⟨rfl, rfl, rfl⟩ := ih hs' hsteps'
      exact ⟨rfl, rfl, rfl⟩

/-- From a state evaluating ends in one way only. -/
theorem Ends.unique {e : Expr} {ts : List String} {r r' : Except Error String} {st₁ : σ}
    (h : Ends env args e ts st r calls st₁) (h' : Ends env args e ts st r' more st') :
    r = r' ∧ calls = more ∧ st₁ = st' := by
  cases h with
  | value hruns =>
    cases h' with
    | value hruns' =>
      obtain ⟨rfl, hc⟩ := hruns.unique hruns'
      cases hc
      exact ⟨rfl, rfl, rfl⟩
    | error hsteps hbreaks => exact ((hsteps ▸ hruns).not_breaks hbreaks).elim
  | error hsteps hbreaks =>
    cases h' with
    | value hruns' => exact ((hsteps ▸ hruns').not_breaks hbreaks).elim
    | error hsteps' hbreaks' =>
      obtain ⟨rfl, hcalls⟩ := hbreaks.unique hbreaks' (hsteps.symm.trans hsteps')
      exact ⟨rfl, hcalls⟩

/-! ## Evaluating takes the steps -/

/-- Either all parameters stand for an argument, or there is a first that does not. -/
theorem parameters_cases (args : List Value) (params : List Nat) :
    (∀ i ∈ params, i < args.length) ∨ ∃ before i after, params = before ++ i :: after ∧
      (∀ j ∈ before, j < args.length) ∧ args.length ≤ i := by
  cases hfind : params.find? (args.length ≤ ·) with
  | none =>
    refine .inl fun i hi => ?_
    simpa using List.find?_eq_none.1 hfind i hi
  | some i =>
    obtain ⟨hi, before, after, hsplit, hbefore⟩ := List.find?_eq_some_iff_append.1 hfind
    exact .inr ⟨before, i, after, hsplit, by simpa using hbefore, by simpa using hi⟩

theorem interpret_of_find {n : Name} {f : Interpreter σ} (passed : List Value)
    (h : env.spaces.find? (n.space.getD env.defaultSpace) = some f) :
    interpret env n passed = f n.key passed := by
  unfold interpret Environment.interpreterOf
  dsimp only
  rw [h]
  rfl

theorem interpret_unknown {n : Name} (passed : List Value)
    (h : env.spaces.find? (n.space.getD env.defaultSpace) = none) :
    interpret env n passed =
      Eval.of (.error (.unknownNamespace (n.space.getD env.defaultSpace))) := by
  unfold interpret Environment.interpreterOf
  dsimp only
  rw [h]
  rfl

/-- An interpreter that is called is recorded with its answer. -/
theorem observed_interpret {n : Name} {f : Interpreter σ} {passed : List Value}
    {r : Except Error String} (h : env.spaces.find? (n.space.getD env.defaultSpace) = some f)
    (hcall : (f n.key passed).result st = (r, st')) :
    Observed (interpret env n passed) (interpret env.recorded n passed) st r
      [⟨n.space.getD env.defaultSpace, n.key, passed, r⟩] st' := by
  have hrecorded := NameTable.find?_mapEntries Interpreter.recorded env.spaces
    (n.space.getD env.defaultSpace)
  rw [h] at hrecorded
  rw [interpret_of_find passed h, interpret_of_find passed hrecorded]
  refine ⟨hcall, fun earlier => ?_⟩
  show (((f n.key passed).result st).1, ((f n.key passed).result st).2, _) = _
  rw [hcall]

theorem observed_unknown {n : Name} (passed : List Value) (st : σ)
    (h : env.spaces.find? (n.space.getD env.defaultSpace) = none) :
    Observed (interpret env n passed) (interpret env.recorded n passed) st
      (.error (.unknownNamespace (n.space.getD env.defaultSpace))) [] st := by
  have hrecorded := NameTable.find?_mapEntries Interpreter.recorded env.spaces
    (n.space.getD env.defaultSpace)
  rw [h] at hrecorded
  rw [interpret_unknown passed h, interpret_unknown passed hrecorded]
  exact .of _ st

/-- A name whose parameters are resolved goes on with its namespace and its call. -/
theorem ends_interpret {e : Expr} {n : Name} {params : List Nat} {passed : List Value}
    (hsteps : e.steps = params.map .argument ++ [.space n.space, .call n params])
    (hparams : ∀ i ∈ params, i < args.length) (hpassed : passed.map some = params.map (args[·]?))
    (hjoined : ∀ t, Joined env.operators e [t] t) (ts : List String) (st : σ) :
    ∃ r calls st', Observed (interpret env n passed) (interpret env.recorded n passed) st r calls
      st' ∧ Ends env args e ts st r calls st' := by
  have harguments : Runs env args (params.map .argument) (ts, st) [] (ts, st) := .arguments hparams
  cases hspace : env.spaces.find? (n.space.getD env.defaultSpace) with
  | none =>
    have htaken : e.steps = (params.map .argument ++ [.space n.space]) ++ [.call n params] :=
      hsteps.trans (List.append_assoc _ [Step.space n.space] _).symm
    exact ⟨_, _, _, observed_unknown passed st hspace,
      .of_breaks htaken (harguments.breaks (.last (.space hspace)))⟩
  | some f =>
    rcases hcall : (f n.key passed).result st with ⟨r, st'⟩
    refine ⟨_, _, _, observed_interpret hspace hcall, ?_⟩
    cases r with
    | error failure =>
      refine .of_breaks (hsteps.trans (List.append_nil _).symm) (harguments.breaks ?_)
      exact .cons (.space hspace) (.last (.call hpassed hspace hcall))
    | ok t =>
      have hruns := harguments.append (.cons (.space hspace) (.one (.call hpassed hspace hcall)))
      exact .of_runs (hsteps ▸ hruns) rfl (hjoined t)

/-- A call of which a parameter stands for no argument ends there. -/
theorem ends_argument {n : Name} {before after : List Nat} {i : Nat}
    (hbefore : ∀ j ∈ before, j < args.length) (hi : args.length ≤ i) (ts : List String) (st : σ) :
    Ends env args (call n (before ++ i :: after)) ts st
      (.error (.indexOutOfRange i args.length)) [] st := by
  have hsteps : (call n (before ++ i :: after)).steps =
      (before.map .argument ++ [.argument i]) ++
        (after.map .argument ++ [.space n.space, .call n (before ++ i :: after)]) := by
    rw [steps, List.map_append, List.append_assoc, List.append_assoc]
    rfl
  exact .of_breaks hsteps ((Runs.arguments hbefore).breaks (.last (.argument hi)))

section
variable {l r : Expr} {op : Char} {ts : List String} {t u : String}

theorem Ends.left_error (hop : env.operators.contains op)
    (h : Ends env args l ts st (.error failure) calls st') :
    Ends env args (binary l op r) ts st (.error failure) calls st' := by
  cases h with
  | @error _ taken rest _ _ hsteps hbreaks =>
    have htaken : (binary l op r).steps =
        (.operator op :: taken) ++ (rest ++ (r.steps ++ [.join op])) := by
      rw [steps, hsteps, List.append_assoc]
      rfl
    have hbroken := Breaks.cons (.operator hop) hbreaks
    exact .of_breaks htaken hbroken

theorem Ends.right_error {st₁ : σ} (hop : env.operators.contains op)
    (hl : Ends env args l ts st (.ok t) calls st₁)
    (hr : Ends env args r (t :: ts) st₁ (.error failure) more st') :
    Ends env args (binary l op r) ts st (.error failure) (calls ++ more) st' := by
  cases hl with
  | value hruns =>
    cases hr with
    | @error _ taken rest _ _ hsteps hbreaks =>
      have htaken : (binary l op r).steps =
          (.operator op :: (l.steps ++ taken)) ++ (rest ++ [.join op]) := by
        rw [steps, hsteps, List.cons_append, List.append_assoc, List.append_assoc]
      have hbroken := Breaks.cons (.operator hop) (hruns.breaks hbreaks)
      exact .of_breaks htaken hbroken

/-- When both sides have a text, the operator joins them. -/
theorem Ends.join {st₁ : σ} {f : Operator} (hf : env.operators.find? op = some f)
    (hl : Ends env args l ts st (.ok t) calls st₁)
    (hr : Ends env args r (t :: ts) st₁ (.ok u) more st') :
    Ends env args (binary l op r) ts st (.ok (f t u)) (calls ++ more) st' := by
  have hop : env.operators.contains op := Option.isSome_iff_exists.2 ⟨f, hf⟩
  cases hl with
  | @value _ left _ _ hruns _ hanswers hjoined =>
    cases hr with
    | @value _ right _ _ hrunsr _ hanswersr hjoinedr =>
      have hjoin : Runs env args (r.steps ++ [.join op]) (t :: ts, st₁) more (f t u :: ts, st') :=
        List.append_nil more ▸ hrunsr.append (.one (.join hf))
      have hruns' := Runs.cons (.operator hop) (hruns.append hjoin)
      have hanswers' : (calls ++ more).map (·.answer) = (left ++ right).map .ok := by
        rw [List.map_append, hanswers, hanswersr, List.map_append]
      exact .of_runs hruns' hanswers' (.binary hjoined hjoinedr hf)

end

/-- Evaluating takes the steps of the rules, whatever texts wait to be joined. -/
theorem eval_ends (env : Environment σ) (args : List Value) (e : Expr) (ts : List String)
    (st : σ) :
    ∃ r calls st', Observed (e.eval env args) (e.eval env.recorded args) st r calls st' ∧
      Ends env args e ts st r calls st' := by
  induction e generalizing ts st with
  | literal t =>
    exact ⟨.ok t, [], st, .of (.ok t) st, .of_runs (.one .text) rfl .literal⟩
  | value n =>
    have hsteps : (value n).steps = [].map .argument ++ [.space n.space, .call n []] := rfl
    exact ends_interpret hsteps (List.forall_mem_nil _) rfl (fun _ => .value) ts st
  | call n params =>
    unfold eval
    rcases parameters_cases args params with hparams | ⟨before, i, after, rfl, hbefore, hi⟩
    · obtain ⟨passed, hmap, hpassed⟩ := Engine.mapM_argumentAt_of_lt hparams
      obtain ⟨r, calls, st', hobserved, hends⟩ :=
        ends_interpret (by rfl) hparams hpassed (fun _ => .call) ts st
      rw [hmap]
      exact ⟨r, calls, st', (Observed.of (.ok passed) st).bind hobserved, hends⟩
    · rw [Engine.mapM_argumentAt_of_le hbefore hi]
      exact ⟨_, _, _, (Observed.of _ st).bind_error, ends_argument hbefore hi ts st⟩
  | binary l op r ihl ihr =>
    -- the right side is evaluated with the text of the left one waiting
    unfold eval
    by_cases hop : env.operators.contains op
    · rw [if_pos hop, if_pos (show env.recorded.operators.contains op from hop)]
      obtain ⟨rl, calls, st₁, hleft, hl⟩ := ihl ts st
      cases rl with
      | error failure => exact ⟨_, calls, st₁, hleft.bind_error, hl.left_error hop⟩
      | ok t =>
        obtain ⟨rr, more, st₂, hright, hr⟩ := ihr (t :: ts) st₁
        cases rr with
        | error failure =>
          exact ⟨_, _, st₂, hleft.bind hright.bind_error, hl.right_error hop hr⟩
        | ok u =>
          obtain ⟨f, hf⟩ := Option.isSome_iff_exists.1 hop
          have hcombine : env.operators.combine op t u = .ok (f t u) := by
            unfold OperatorTable.combine
            rw [hf]
          exact ⟨_, _, st₂, hleft.bind (hright.bind_of hcombine), hl.join hf hr⟩
    · rw [if_neg hop, if_neg (show ¬ env.recorded.operators.contains op from hop)]
      have htaken : (binary l op r).steps =
          [.operator op] ++ (l.steps ++ (r.steps ++ [.join op])) := rfl
      exact ⟨_, _, _, .of _ st, .of_breaks htaken (.last (.operator hop))⟩

end

/-- Evaluating an expression comes to something from every state, and to what the rules say: its
steps are taken in their order up to the first that fails, whose error is the result. The names
whose calls are among these steps are called, from left to right and each once, with the arguments
that their parameters stand for. If no step fails, the operators are applied to the answers. -/
theorem eval_in_order (env : Environment σ) (args : List Value) (e : Expr) (st : σ) :
    (∃ r calls st', Observed (e.eval env args) (e.eval env.recorded args) st r calls st') ∧
      ∀ r calls st', Observed (e.eval env args) (e.eval env.recorded args) st r calls st' ↔
        Ends env args e [] st r calls st' := by
  obtain ⟨r₀, calls₀, st₀, hobserved, hends⟩ := eval_ends env args e [] st
  refine ⟨⟨r₀, calls₀, st₀, hobserved⟩, fun r calls st' => ⟨fun h => ?_, fun h => ?_⟩⟩
  · obtain ⟨rfl, rfl, rfl⟩ := hobserved.unique h
    exact hends
  · obtain ⟨rfl, rfl, rfl⟩ := hends.unique h
    exact hobserved

/-- A name behind two that have been called asks for an argument that is not there. -/
example :
    let env : Environment Nat := {
      spaces := .insert .empty "" fun key _ => do
        modify (· + 1)
        return key }
    let sides := binary (value { key := "a" }) '+' (value { key := "b" })
    ((binary sides '+' (call { key := "c" } [3])).eval env.recorded []).result (0, []) =
      (.error (.indexOutOfRange 3 0), 2, [⟨"", "a", [], .ok "a"⟩, ⟨"", "b", [], .ok "b"⟩]) := by
  rfl

end Expr

end Interpolation
