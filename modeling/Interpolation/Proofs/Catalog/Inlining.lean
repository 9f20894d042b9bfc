/-
  Templates written in place. A call of a template has the text of the template itself, as a
  pattern of the engine that calls, once every placeholder of it has the index of the argument that
  the call passes there (`evaluate_call`). The two runs are on different engines and arguments:
  the engine of a template knows no formatter, so that a spec in a template has no effect.
-/
import Interpolation.Catalog.Basic
import Interpolation.Proofs.Engine.Rendering
import Interpolation.Proofs.Engine.WrittenIndices

namespace Interpolation

open Text Pattern

/-! ## Templates -/

namespace Pattern

/-- Which of its arguments a placeholder shows, behind `k` placeholders without an index. -/
def shownAt (k : Nat) (index : Option String) : Nat := index.elim k fun ds => digitsValue ds.toList

/-- A part of a template with the argument that is passed in the place of the parameter. -/
def Segment.inlined (params : List Nat) (k : Nat) : Segment → Segment
  | argument index _ => argument (some (decimal (params.getD (shownAt k index) 0))) none
  | p => p

/-- The parts of a template, written in place of a call with the arguments at the given indices. -/
def inlined (params : List Nat) (parts : List Segment) : List Segment :=
  rewritten (Segment.inlined params) 0 parts

/-- The parts of a template for the given number of arguments: text and placeholders in one style,
each for one of the arguments. -/
structure IsTemplate (count : Nat) (parts : List Segment) : Prop where
  wellFormed : ∀ p ∈ parts, p.WellFormed
  no_expression : ∀ body, .expression body ∉ parts
  oneStyle : OneStyle parts
  implicits_le : implicits parts ≤ count
  index_lt : ∀ ds spec, .argument (some ds) spec ∈ parts → digitsValue ds.toList < count

section
variable {params : List Nat} {k : Nat} {p : Segment}

theorem Segment.inlined_wellFormed (h : p.WellFormed) : (p.inlined params k).WellFormed := by
  cases p with
  | literal | expression => exact h
  | argument index spec =>
    refine ⟨?_, by simp⟩
    rintro ds ⟨⟩
    exact isIndex_decimal _

theorem Segment.inlined_explicit : (p.inlined params k).isImplicit = false := by
  cases p <;> rfl

theorem Segment.nul_not_mem_inlined (h : '\x00' ∉ p.spelling) :
    '\x00' ∉ (p.inlined params k).spelling := by
  cases p with
  | literal | expression => exact h
  | argument index spec =>
    have hi := nul_not_mem_decimal (params.getD (shownAt k index) 0)
    simpa [inlined, spelling] using hi

end

section
variable {params : List Nat} {parts : List Segment}

theorem inlined_wellFormed (h : ∀ p ∈ parts, p.WellFormed) :
    ∀ p ∈ inlined params parts, p.WellFormed :=
  forall_mem_rewritten (fun _ _ => Segment.inlined_wellFormed) 0 h

theorem inlined_oneStyle : OneStyle (inlined params parts) :=
  .inr (forall_mem_rewritten (fun _ _ _ => Segment.inlined_explicit) 0 fun _ _ => trivial)

theorem nul_not_mem_inlined (h : '\x00' ∉ spell parts) : '\x00' ∉ spell (inlined params parts) :=
  nul_not_mem_rewritten (fun _ _ => Segment.nul_not_mem_inlined) 0 h

end

end Pattern

namespace Engine

variable {σ : Type}

/-! ## The arguments of a call -/

theorem mapM_argumentAt {args : List Value} {params : List Nat}
    (h : ∀ i ∈ params, i < args.length) :
    ∃ passed, params.mapM (argumentAt args) = .ok passed ∧
      ∀ j i : Nat, params[j]? = some i → passed[j]? = args[i]? := by
  obtain ⟨passed, hmap, hpassed⟩ := mapM_argumentAt_of_lt h
  refine ⟨passed, hmap, fun j i hj => ?_⟩
  have hboth : (passed.map some)[j]? = (params.map (args[·]?))[j]? := by rw [hpassed]
  rw [List.getElem?_map, List.getElem?_map, hj] at hboth
  obtain ⟨v, hv, hv'⟩ := Option.map_eq_some_iff.1 hboth
  rw [hv, hv']

/-- Without formatters every spec shows the text of the value. -/
theorem displays_bare (spec : Option String) : Displays (bare : Engine σ) spec Value.text := by
  cases spec with
  | none => exact .bare
  | some spec =>
    refine .spec ?_
    show FormatterTable.select .empty spec = _
    unfold FormatterTable.select
    split <;> rfl

theorem takes_shownAt {k : Nat} {index : Option String} (h : shownAt k index ≤ maxUnsigned) :
    Takes k index (shownAt k index) := by
  cases index with
  | none => exact .next
  | some ds => exact .written h

/-- The text of a key that is called with arguments is that of its template as a pattern. -/
theorem text_eq_render {table : TemplateTable} {key template : String} {passed : List Value}
    (hkey : table.find? key = some template) (hne : passed ≠ []) :
    table.text key passed = (((bare : Engine Unit).render template passed).result ()).1 := by
  unfold TemplateTable.text
  rw [hkey]
  cases passed with
  | nil => exact absurd rfl hne
  | cons v vs => rfl

/-! ## Two runs -/

section
variable {args passed : List Value} {params : List Nat} (engine : Engine σ)
  (hargs : args.length ≤ maxUnsigned) (hparams : params.length ≤ maxUnsigned)
  (hlt : ∀ i ∈ params, i < args.length)
  (hpassed : ∀ j i : Nat, params[j]? = some i → passed[j]? = args[i]?)
include hargs hparams hlt hpassed

/-- A placeholder of a template shows the argument that is passed for it, as it does in place. -/
theorem shown_inlined {k : Nat} {index spec : Option String}
    (hj : shownAt k index < params.length) :
    ∃ text, Shown (bare : Engine Unit) passed k (.argument index spec) () text () ∧
      ∀ k' st,
        Shown engine args k' ((Segment.argument index spec).inlined params k) st text st := by
  have hparam := List.getElem?_eq_getElem hj
  have hi : params[shownAt k index] < args.length := hlt _ (List.getElem_mem hj)
  have hv := List.getElem?_eq_getElem hi
  refine ⟨args[params[shownAt k index]].text, ?_, ?_⟩
  · refine .argument (takes_shownAt (by omega)) (displays_bare spec) ?_
    rw [hpassed _ _ hparam, hv]
  · intro k' st
    have hgetD : params.getD (shownAt k index) 0 = params[shownAt k index] := by
      rw [List.getD_eq_getElem?_getD, hparam, Option.getD_some]
    show Shown engine args k' (.argument (some (decimal (params.getD _ 0))) none) st _ st
    rw [hgetD]
    exact .argument (takes_decimal (by omega)) .bare hv

theorem shows_inlined {parts : List Segment} {k : Nat} (hbody : ∀ body, .expression body ∉ parts)
    (hk : k + implicits parts ≤ params.length)
    (hindex : ∀ ds spec, .argument (some ds) spec ∈ parts →
      digitsValue ds.toList < params.length) :
    ∃ text, Shows (bare : Engine Unit) passed k parts () text () ∧
      ∀ k' st, Shows engine args k' (rewritten (Segment.inlined params) k parts) st text st := by
  induction parts generalizing k with
  | nil => exact ⟨"", .nil, fun _ _ => .nil⟩
  | cons p ps ih =>
    have hstep : ∃ text, Shown (bare : Engine Unit) passed k p () text () ∧
        ∀ k' st, Shown engine args k' (p.inlined params k) st text st := by
      cases p with
      | literal t => exact ⟨t, .literal, fun _ _ => .literal⟩
      | argument index spec =>
        refine shown_inlined engine hargs hparams hlt hpassed ?_
        cases index with
        | none =>
          have hone : implicits (.argument none spec :: ps) = implicits ps + 1 :=
            List.countP_cons_of_pos rfl
          show k < params.length
          omega
        | some ds => exact hindex ds spec List.mem_cons_self
      | expression body => exact absurd List.mem_cons_self (hbody body)
    have hcount : implicits (p :: ps) = implicits [p] + implicits ps := implicits_append [p] ps
    obtain ⟨text, hshown, hshown'⟩ := hstep
    obtain ⟨out, hshows, hshows'⟩ := ih (k := k + implicits [p])
      (fun body hm => hbody body (List.mem_cons_of_mem p hm)) (by omega)
      (fun ds spec hm => hindex ds spec (List.mem_cons_of_mem p hm))
    exact ⟨text ++ out, .cons hshown hshows, fun k' st => .cons (hshown' k' st) (hshows' _ st)⟩

end

/-- A call of a template has a text, and it is that of the template in its place. The namespace may
be left out where it is the default one. An argument and its place among those that are passed
have a word as their index. -/
theorem evaluate_call (engine : Engine σ) {args : List Value} {params : List Nat} {name : Name}
    {table : TemplateTable} {parts : List Segment} (hargs : args.length ≤ maxUnsigned)
    (hparams : params.length ≤ maxUnsigned) (hname : name.WellFormed)
    (hspace : engine.env.spaces.find? (name.space.getD engine.env.defaultSpace) =
      some table.interpreter)
    (hkey : table.find? name.key = some (String.ofList (spell parts)))
    (hparts : IsTemplate params.length parts) (hnul : '\x00' ∉ spell parts)
    (hne : params ≠ []) (hlt : ∀ i ∈ params, i < args.length) :
    ∃ text, ∀ st,
      (engine.evaluate (Expr.call name params).display args).result st = (.ok text, st) ∧
        (engine.render (String.ofList (spell (inlined params parts))) args).result st =
          (.ok text, st) := by
  obtain ⟨passed, hmap, hpassed⟩ := mapM_argumentAt hlt
  have hpassed_ne : passed ≠ [] := by
    rintro rfl
    obtain ⟨i, params, rfl⟩ := List.exists_cons_of_ne_nil hne
    have hi : args[i]? = none := (hpassed 0 i rfl).symm
    exact absurd (hlt i List.mem_cons_self) (Nat.not_lt.2 (List.getElem?_eq_none_iff.1 hi))
  obtain ⟨text, hshows, hshows'⟩ := shows_inlined engine hargs hparams hlt hpassed
    hparts.no_expression (k := 0) (by simpa using hparts.implicits_le) hparts.index_lt
  refine ⟨text, fun st => ⟨?_, ?_⟩⟩
  · have hcall : (Expr.call name params).WellFormed engine.grammar := by
      refine ⟨hname, fun i hi => ?_⟩
      have := hlt i hi
      omega
    rw [evaluate_of_spelledBy engine args (Expr.spelledBy_display hcall)]
    show (Eval.of (params.mapM (argumentAt args)) >>= _).result st = _
    rw [Eval.result_of_bind, hmap]
    show (Eval.of (engine.env.interpreterOf name.space) >>= _).result st = _
    rw [Eval.result_of_bind, Environment.interpreterOf, hspace]
    show (table.text name.key passed, st) = _
    rw [text_eq_render hkey hpassed_ne,
      render_complete (readable_ofList hnul) hparts.wellFormed hparts.oneStyle hshows]
  · exact render_complete (readable_ofList (nul_not_mem_inlined hnul))
      (inlined_wellFormed hparts.wellFormed) inlined_oneStyle (hshows' 0 st)

theorem evaluate_call_swapped :
    let table : TemplateTable := .ofList
      [("swap", "\x7b1:%d\x7d \x7b00\x7d!"), ("pair", "\x7b\x7d and \x7b:*\x7d")]
    let engine : Engine Unit := putDefaultSpace (putInterpreter {} "en" table.interpreter) "en"
    let args := [Value.str "a", .str "b", .str "c"]
    args.length ≤ maxUnsigned ∧ [2, 0].length ≤ maxUnsigned ∧ [1, 1].length ≤ maxUnsigned ∧
      (engine.evaluate "en::swap($2, $0)" args).result () = (.ok "a c!", ()) ∧
      (engine.render "\x7b0\x7d \x7b2\x7d!" args).result () = (.ok "a c!", ()) ∧
      (engine.evaluate "pair($1, $1)" args).result () = (.ok "b and b", ()) ∧
      (engine.render "\x7b1\x7d and \x7b1\x7d" args).result () = (.ok "b and b", ()) := by
  intro table engine args
  have hargs : args.length ≤ maxUnsigned := by decide
  have hparams : [2, 0].length ≤ maxUnsigned := by decide
  have hparams' : [1, 1].length ≤ maxUnsigned := by decide
  have hspace : engine.env.spaces.find? "en" = some table.interpreter := by rfl
  let swap : List Segment :=
    [.argument (some "1") (some "%d"), .literal " ", .argument (some "00") none, .literal "!"]
  have hswap : IsTemplate [2, 0].length swap := by
    refine ⟨by decide, by simp [swap], .inr (by decide), by decide, ?_⟩
    intro ds spec h
    simp only [swap, List.mem_cons, Segment.argument.injEq, reduceCtorEq, Option.some.injEq,
      List.not_mem_nil, or_false, false_or] at h
    rcases h with ⟨rfl, -⟩ | ⟨rfl, -⟩ <;> decide
  let pair : List Segment :=
    [.argument none none, .literal " and ", .argument none (some "*")]
  have hpair : IsTemplate [1, 1].length pair :=
    ⟨by decide, by simp [pair], .inl (by decide), by decide, by simp [pair]⟩
  have hname : (⟨some "en", "swap"⟩ : Name).WellFormed := by decide
  have hname' : (⟨none, "pair"⟩ : Name).WellFormed := by decide
  obtain ⟨text, hcall⟩ := evaluate_call engine hargs hparams hname hspace
    (by decide +kernel) hswap (by decide) (by decide) (by decide)
  obtain ⟨text', hcall'⟩ := evaluate_call engine hargs hparams' hname' hspace
    (by decide +kernel) hpair (by decide) (by decide) (by decide)
  have hsource : (Expr.call ⟨some "en", "swap"⟩ [2, 0]).display = "en::swap($2, $0)" := by decide
  have hsource' : (Expr.call ⟨none, "pair"⟩ [1, 1]).display = "pair($1, $1)" := by decide
  have hplace : String.ofList (spell (inlined [2, 0] swap)) = "\x7b0\x7d \x7b2\x7d!" := by
    decide +kernel
  have hplace' : String.ofList (spell (inlined [1, 1] pair)) = "\x7b1\x7d and \x7b1\x7d" := by
    decide +kernel
  have hrender : (engine.render "\x7b0\x7d \x7b2\x7d!" args).result () = (.ok "a c!", ()) := by
    decide +kernel
  have hrender' : (engine.render "\x7b1\x7d and \x7b1\x7d" args).result () =
      (.ok "b and b", ()) := by decide +kernel
  obtain ⟨heval, hsame⟩ := hcall ()
  obtain ⟨heval', hsame'⟩ := hcall' ()
  rw [hplace, hrender] at hsame
  rw [hplace', hrender'] at hsame'
  rw [hsource, ← hsame] at heval
  rw [hsource', ← hsame'] at heval'
  exact ⟨hargs, hparams, hparams', heval, hrender, heval', hrender'⟩

end Engine

end Interpolation
