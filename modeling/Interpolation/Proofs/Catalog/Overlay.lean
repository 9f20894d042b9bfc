/-
  Catalogs laid over an engine. A catalog replaces the namespaces that it has as a whole and puts
  new ones behind the others; it sets the default namespace and `+` if it says so, and leaves the
  rest alone (`Catalog.overlaid`). Doing it again changes nothing, and of several catalogs the last
  one that says something prevails (`prevails_foldl`).
-/
import Interpolation.Catalog.Basic
import Interpolation.Proofs.Keyed.Overlaying
import Mathlib.Data.List.Induction

namespace Interpolation

variable {σ : Type}

/-! ## What prevails -/

/-- What the last of some sources says that says anything, or else what is given. -/
inductive Prevails {ρ α : Type} (said : ρ → Option α) (given : α) (sources : List ρ) : α → Prop
  | said (before after : List ρ) (source : ρ) (v : α)
      (split : sources = before ++ source :: after) (voiced : said source = some v)
      (silent : ∀ s ∈ after, said s = none) : Prevails said given sources v
  | given (silent : ∀ s ∈ sources, said s = none) : Prevails said given sources given

section
variable {ρ τ α : Type} {said : ρ → Option α} {given v : α} {sources : List ρ} {s : ρ}

/-- A source that says nothing changes nothing. -/
theorem Prevails.concat_silent (h : Prevails said given sources v) (hs : said s = none) :
    Prevails said given (sources ++ [s]) v := by
  have hlast : ∀ s' ∈ [s], said s' = none := List.forall_mem_singleton.2 hs
  cases h with
  | said before after source v split voiced silent =>
    refine .said before (after ++ [s]) source v ?_ voiced (List.forall_mem_append.2 ⟨silent, hlast⟩)
    rw [split, List.append_assoc]
    rfl
  | given silent => exact .given (List.forall_mem_append.2 ⟨silent, hlast⟩)

/-- If every source replaces what is read by what it says, the last one to say something prevails. -/
theorem prevails_foldl (said : ρ → Option α) (read : τ → α) {lay : τ → ρ → τ}
    (hlay : ∀ t s, read (lay t s) = (said s).getD (read t)) (t : τ) (sources : List ρ) :
    Prevails said (read t) sources (read (sources.foldl lay t)) := by
  induction sources using List.reverseRecOn with
  | nil => exact .given (List.forall_mem_nil _)
  | append_singleton sources s ih =>
    rw [List.foldl_append, List.foldl_cons, List.foldl_nil, hlay]
    cases hs : said s with
    | some v => exact .said sources [] s v rfl hs (List.forall_mem_nil _)
    | none => exact ih.concat_silent hs

end

/-! ## One catalog -/

/-- The interpreter answers from a table alone: a key of the table has its template as the text,
rendered if there are arguments, and any other key is unresolved. -/
structure Interpreter.Answers (f : Interpreter σ) (table : TemplateTable) : Prop where
  template : ∀ key template st, table.find? key = some template →
    (f key []).result st = (.ok template, st)
  rendered : ∀ key template v args st, table.find? key = some template →
    (f key (v :: args)).result st =
      (((Engine.bare.render template (v :: args)).result ()).1, st)
  unresolved : ∀ key args st, table.find? key = none →
    (f key args).result st = (.error (.unresolvedKey key), st)

theorem TemplateTable.answers_interpreter (table : TemplateTable) :
    (table.interpreter : Interpreter σ).Answers table := by
  refine ⟨fun key template st h => ?_, fun key template v args st h => ?_, fun key args st h => ?_⟩
  · show (table.text key [], st) = _
    rw [text, h]
    rfl
  · show (table.text key (v :: args), st) = _
    rw [text, h]
    rfl
  · show (table.text key args, st) = _
    rw [text, h]

namespace Catalog

/-- What an engine has after a catalog was laid over it. -/
structure Overlaid (catalog : Catalog) (engine after : Engine σ) : Prop where
  space : ∀ space table, catalog.spaces.find? space = some table →
    after.env.interpreterOf (some space) = .ok table.interpreter ∧
      (table.interpreter : Interpreter σ).Answers table
  space_kept : ∀ space, catalog.spaces.find? space = none →
    after.env.interpreterOf (some space) = engine.env.interpreterOf (some space)
  names : after.env.spaces.names =
    engine.env.spaces.names ++ catalog.spaces.names.filter (· ∉ engine.env.spaces.names)
  defaultSpace : after.env.defaultSpace = catalog.defaultSpace.getD engine.env.defaultSpace
  join : ∀ separator, catalog.join = some separator → ∀ left right,
    after.env.operators.combine '+' left right = .ok (left ++ separator ++ right)
  operator_kept : ∀ symbol, symbol ≠ '+' ∨ catalog.join = none →
    after.env.operators.find? symbol = engine.env.operators.find? symbol
  formatters : after.formatters = engine.formatters

/-- The tables of the catalog, as what interprets its namespaces. -/
def interpreters (catalog : Catalog) : NameTable (Interpreter σ) :=
  catalog.spaces.mapEntries fun _ table => table.interpreter

theorem overlaySpaces_eq (catalog : Catalog) (engine : Engine σ) :
    catalog.overlaySpaces engine =
      { engine with env.spaces := engine.env.spaces.putAll catalog.interpreters } := by
  unfold overlaySpaces NameTable.putAll interpreters NameTable.mapEntries
  rw [List.foldl_map]
  induction catalog.spaces.entries generalizing engine with
  | nil => rfl
  | cons e es ih => exact ih _

/-- The engine after a catalog was laid over it, part by part. -/
theorem overlay_eq (catalog : Catalog) (engine : Engine σ) :
    catalog.overlay engine =
      { formatters := engine.formatters
        env :=
          { spaces := engine.env.spaces.putAll catalog.interpreters
            defaultSpace := catalog.defaultSpace.getD engine.env.defaultSpace
            operators := catalog.join.elim engine.env.operators fun separator =>
              engine.env.operators.insert '+' (.separatedBy separator) } } := by
  unfold overlay
  rw [overlaySpaces_eq]
  cases catalog.defaultSpace <;> cases catalog.join <;> rfl

theorem interpreterOf_overlay (catalog : Catalog) (engine : Engine σ) (space : String) :
    (catalog.overlay engine).env.interpreterOf (some space) =
      ((catalog.spaces.find? space).map fun table => .ok table.interpreter).getD
        (engine.env.interpreterOf (some space)) := by
  unfold Environment.interpreterOf
  dsimp only [Option.getD_some]
  rw [overlay_eq, NameTable.find?_putAll, interpreters, NameTable.find?_mapEntries]
  cases catalog.spaces.find? space <;> rfl

theorem find?_operators_overlay (catalog : Catalog) (engine : Engine σ) (symbol : Char) :
    (catalog.overlay engine).env.operators.find? symbol =
      if symbol = '+' then
        (catalog.join.map fun separator => some (.separatedBy separator)).getD
          (engine.env.operators.find? '+')
      else engine.env.operators.find? symbol := by
  rw [overlay_eq]
  cases catalog.join with
  | none =>
    split
    · next h => exact h ▸ rfl
    · rfl
  | some separator => exact CharTable.find?_insert engine.env.operators '+' _ symbol

theorem overlaid (catalog : Catalog) (engine : Engine σ) :
    catalog.Overlaid engine (catalog.overlay engine) where
  space space table h := by
    rw [interpreterOf_overlay, h]
    exact ⟨rfl, table.answers_interpreter⟩
  space_kept space h := by
    rw [interpreterOf_overlay, h]
    rfl
  names := by
    rw [overlay_eq, NameTable.names_putAll, interpreters, NameTable.names_mapEntries]
  defaultSpace := by rw [overlay_eq]
  join separator h left right := by
    unfold OperatorTable.combine
    rw [find?_operators_overlay, if_pos rfl, h]
    rfl
  operator_kept symbol h := by
    rw [find?_operators_overlay]
    split
    · next hsymbol =>
      rw [h.resolve_left (absurd hsymbol), hsymbol]
      rfl
    · rfl
  formatters := by rw [overlay_eq]

theorem overlay_overlay (catalog : Catalog) (engine : Engine σ) :
    catalog.overlay (catalog.overlay engine) = catalog.overlay engine := by
  rw [overlay_eq catalog (catalog.overlay engine), overlay_eq catalog engine]
  dsimp only
  rw [NameTable.putAll_putAll]
  congr 2
  · cases catalog.defaultSpace <;> rfl
  · cases catalog.join with
    | none => rfl
    | some separator => exact CharTable.insert_insert _ _ _

/-! ## Several catalogs -/

/-- The engine with some catalogs laid over it, one after the other. -/
def overlayAll (catalogs : List Catalog) (engine : Engine σ) : Engine σ :=
  catalogs.foldl (fun e catalog => catalog.overlay e) engine

/-- A catalog that is laid over an engine replaces its own namespaces as a whole, sets the default
namespace and `+` if it says so, and changes nothing else; a second time it changes nothing at all.
Of several catalogs the last one that has a namespace, a default namespace or a separator prevails,
and the engine where none has. -/
theorem overlay_prevails :
    (∀ (catalog : Catalog) (engine : Engine σ),
      catalog.Overlaid engine (catalog.overlay engine) ∧
        catalog.overlay (catalog.overlay engine) = catalog.overlay engine) ∧
    ∀ (catalogs : List Catalog) (engine : Engine σ),
      (∀ space, Prevails
        (fun c => (c.spaces.find? space).map fun table => .ok table.interpreter)
        (engine.env.interpreterOf (some space)) catalogs
        ((overlayAll catalogs engine).env.interpreterOf (some space))) ∧
      Prevails defaultSpace engine.env.defaultSpace catalogs
        (overlayAll catalogs engine).env.defaultSpace ∧
      Prevails (fun c => c.join.map fun separator => some (Operator.separatedBy separator))
        (engine.env.operators.find? '+') catalogs
        ((overlayAll catalogs engine).env.operators.find? '+') := by
  refine ⟨fun catalog engine => ⟨catalog.overlaid engine, catalog.overlay_overlay engine⟩,
    fun catalogs engine => ⟨fun space => ?_, ?_, ?_⟩⟩
  · exact prevails_foldl _ (fun e => e.env.interpreterOf (some space))
      (fun e c => c.interpreterOf_overlay e space) engine catalogs
  · exact prevails_foldl _ (fun e => e.env.defaultSpace)
      (fun e c => (c.overlaid e).defaultSpace) engine catalogs
  · exact prevails_foldl _ (fun e => e.env.operators.find? '+')
      (fun e c => c.find?_operators_overlay e '+') engine catalogs

end Catalog

end Interpolation
