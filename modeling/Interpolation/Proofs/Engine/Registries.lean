/-
  What an engine has registered after any changes to it. The changes to interpreters, formatters
  and operators go to three tables, each of which holds what the changes to it say, whatever came
  between them (`registered_vacant`). What a new engine starts with counts as put before all
  changes, so that nothing is special about it (`registered_changed`).
-/
import Interpolation.Proofs.Engine.Operators
import Interpolation.Proofs.Keyed.Registration

namespace Interpolation

open Registration

variable {σ : Type}

/-- A change to what an engine has registered. Putting replaces what was there. -/
inductive Change (σ : Type) where
  | putInterpreter (space : String) (f : Interpreter σ)
  | dropInterpreter (space : String)
  | putDefaultSpace (space : String)
  | putFormatter (label : Char) (f : Factory)
  | dropFormatter (label : Char)
  | operators (c : OperatorChange)

/-- What a change does to the table of symbols. Starting anew leaves concatenation alone. -/
def OperatorChange.symbols : OperatorChange → List (Registration Char Operator)
  | put symbol f => [.put symbol f]
  | drop symbol => [.drop symbol]
  | clear => [.clear]
  | reset => [.clear, .put OperatorTable.concatSymbol .concat]

namespace Change

/-- What a change does to the table of namespaces. -/
def spaces : Change σ → List (Registration String (Interpreter σ))
  | putInterpreter space f => [.put space f]
  | dropInterpreter space => [.drop space]
  | _ => []

/-- What a change does to the table of labels. -/
def labels : Change σ → List (Registration Char Factory)
  | putFormatter label f => [.put label f]
  | dropFormatter label => [.drop label]
  | _ => []

def symbols : Change σ → List (Registration Char Operator)
  | operators c => c.symbols
  | _ => []

def defaultSpace? : Change σ → Option String
  | putDefaultSpace space => some space
  | _ => none

/-- What every engine has from the start. -/
def initial : List (Change σ) := [.operators (.put OperatorTable.concatSymbol .concat)]

/-- The formatters that an engine has from the start unless it is bare. -/
def builtins : List (Change σ) :=
  [.putFormatter '%' Formatter.printf.factory, .putFormatter '@' Formatter.clock.factory,
    .putFormatter '*' Formatter.mask.factory]

end Change

namespace Engine

def perform (engine : Engine σ) : Change σ → Engine σ
  | .putInterpreter space f => engine.putInterpreter space f
  | .dropInterpreter space => engine.dropInterpreter space
  | .putDefaultSpace space => engine.putDefaultSpace space
  | .putFormatter label f => engine.putFormatter label f
  | .dropFormatter label => engine.dropFormatter label
  | .operators c => engine.change c

/-- The engine after some changes, from the first to the last. -/
def changed (engine : Engine σ) (changes : List (Change σ)) : Engine σ :=
  changes.foldl perform engine

/-- An engine has registered what a history says. Namespaces are listed in the order in which they
arrived, labels and symbols in ascending order, each of them once and only while it is present. What
is asked for is what was put last under its name; what is absent is an unknown namespace or an
unknown operator, and an unknown label shows the text of a value. A bare name belongs to the default
namespace that was set last, if that is present. -/
structure Registered (engine : Engine σ) (history : List (Change σ)) : Prop where
  spaces : engine.env.spaces.Records (history.flatMap Change.spaces)
  labels : engine.formatters.Records (history.flatMap Change.labels)
  symbols : engine.env.operators.Records (history.flatMap Change.symbols)
  defaultSpace :
    engine.env.defaultSpace = ((history.filterMap Change.defaultSpace?).getLast?).getD ""
  interpreterOf : ∀ space f, Holds (history.flatMap Change.spaces) space f →
    engine.env.interpreterOf (some space) = .ok f
  interpreterOf_absent : ∀ space, ¬ Present (history.flatMap Change.spaces) space →
    engine.env.interpreterOf (some space) = .error (.unknownNamespace space)
  interpreterOf_none :
    engine.env.interpreterOf none = engine.env.interpreterOf (some engine.env.defaultSpace)
  select : ∀ label f, Holds (history.flatMap Change.labels) label f →
    ∀ spec rest : String, spec.toList = label :: rest.toList →
      engine.formatters.select spec = f.configured rest
  select_absent : ∀ label, ¬ Present (history.flatMap Change.labels) label →
    ∀ spec rest : String, spec.toList = label :: rest.toList →
      engine.formatters.select spec = .ok Value.text
  combine : ∀ symbol f, Holds (history.flatMap Change.symbols) symbol f →
    ∀ left right, engine.env.operators.combine symbol left right = .ok (f left right)
  combine_absent : ∀ symbol, ¬ Present (history.flatMap Change.symbols) symbol →
    ∀ left right, engine.env.operators.combine symbol left right = .error (.unknownOperator symbol)

/-! ## The tables of a changed engine -/

/-- An engine with nothing registered, not even an operator. -/
def vacant : Engine σ := { formatters := .empty, env.operators := .empty }

/-- A change is made to each of the three tables by its own part in it. -/
theorem perform_tables (engine : Engine σ) (c : Change σ) :
    (engine.perform c).env.spaces = c.spaces.foldl NameTable.change engine.env.spaces ∧
      (engine.perform c).formatters = c.labels.foldl CharTable.change engine.formatters ∧
      (engine.perform c).env.operators = c.symbols.foldl CharTable.change engine.env.operators := by
  cases c with
  | operators c => cases c <;> exact ⟨rfl, rfl, rfl⟩
  | _ => exact ⟨rfl, rfl, rfl⟩

/-- If every change is made to a table by its part in it, all changes are made by their parts. -/
theorem table_changed {τ ρ : Type} (table : Engine σ → τ) {part : Change σ → List ρ}
    {change : τ → ρ → τ}
    (hperform : ∀ engine c, table (perform engine c) = (part c).foldl change (table engine))
    (engine : Engine σ) (changes : List (Change σ)) :
    table (engine.changed changes) = (changes.flatMap part).foldl change (table engine) := by
  induction changes generalizing engine with
  | nil => rfl
  | cons c changes ih =>
    show table ((engine.perform c).changed changes) = _
    rw [ih, hperform, List.flatMap_cons, List.foldl_append]

variable (history : List (Change σ))

theorem spaces_changed : (vacant.changed history).env.spaces =
    NameTable.after (history.flatMap Change.spaces) :=
  table_changed (·.env.spaces) (fun engine c => (perform_tables engine c).1) vacant history

theorem labels_changed : (vacant.changed history).formatters =
    CharTable.after (history.flatMap Change.labels) :=
  table_changed (·.formatters) (fun engine c => (perform_tables engine c).2.1) vacant history

theorem symbols_changed : (vacant.changed history).env.operators =
    CharTable.after (history.flatMap Change.symbols) :=
  table_changed (·.env.operators) (fun engine c => (perform_tables engine c).2.2) vacant history

theorem defaultSpace_changed : (vacant.changed history).env.defaultSpace =
    ((history.filterMap Change.defaultSpace?).getLast?).getD "" := by
  induction history using List.reverseRecOn with
  | nil => rfl
  | append_singleton history c ih =>
    have hlast : vacant.changed (history ++ [c]) = (vacant.changed history).perform c := by
      unfold changed
      rw [List.foldl_append]
      rfl
    rw [hlast, List.filterMap_append]
    cases c with
    | putDefaultSpace space =>
      show space = ((history.filterMap Change.defaultSpace? ++ [space]).getLast?).getD ""
      rw [List.getLast?_concat, Option.getD_some]
    | operators c =>
      show _ = ((history.filterMap Change.defaultSpace? ++ []).getLast?).getD ""
      rw [List.append_nil, ← ih]
      cases c <;> rfl
    | _ =>
      show (vacant.changed history).env.defaultSpace =
        ((history.filterMap Change.defaultSpace? ++ []).getLast?).getD ""
      rw [List.append_nil, ih]

/-- Any history is what an engine has registered that began with nothing. -/
theorem registered_vacant : (vacant.changed history).Registered history := by
  have hspaces := NameTable.records_after (history.flatMap Change.spaces)
  have hlabels := CharTable.records_after (history.flatMap Change.labels)
  have hsymbols := CharTable.records_after (history.flatMap Change.symbols)
  rw [← spaces_changed] at hspaces
  rw [← labels_changed] at hlabels
  rw [← symbols_changed] at hsymbols
  refine ⟨hspaces, hlabels, hsymbols, defaultSpace_changed history, ?_, ?_, rfl, ?_, ?_, ?_, ?_⟩
  · intro space f h
    unfold Environment.interpreterOf
    dsimp only [Option.getD_some]
    rw [(hspaces.find_iff space f).2 h]
  · intro space h
    unfold Environment.interpreterOf
    dsimp only [Option.getD_some]
    rw [eq_none_of_not_present (hspaces.find_iff space) h]
  · intro label f h spec rest hspec
    exact FormatterTable.select_of_find? ((hlabels.find_iff label f).2 h) hspec
  · intro label h spec rest hspec
    exact FormatterTable.select_of_find?_eq_none
      (eq_none_of_not_present (hlabels.find_iff label) h) hspec
  · intro symbol f h left right
    unfold OperatorTable.combine
    rw [(hsymbols.find_iff symbol f).2 h]
  · intro symbol h left right
    unfold OperatorTable.combine
    rw [eq_none_of_not_present (hsymbols.find_iff symbol) h]

/-- After any changes, a bare engine has registered what they say, with concatenation put before
them, and an engine with the standard formatters what they say behind these. -/
theorem registered_changed (changes : List (Change σ)) :
    (bare.changed changes).Registered (Change.initial ++ changes) ∧
      (({} : Engine σ).changed changes).Registered
        (Change.initial ++ Change.builtins ++ changes) := by
  have hbare : (bare : Engine σ) = vacant.changed Change.initial := rfl
  have hnew : ({} : Engine σ) = vacant.changed (Change.initial ++ Change.builtins) := rfl
  have happend : ∀ start : List (Change σ),
      (vacant.changed start).changed changes = vacant.changed (start ++ changes) :=
    fun start => List.foldl_append.symm
  rw [hbare, hnew, happend, happend]
  exact ⟨registered_vacant _, registered_vacant _⟩

end Engine

end Interpolation
