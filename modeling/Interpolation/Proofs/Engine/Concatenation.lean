/-
  Patterns one behind the other. Behind a pattern that was rendered, another one is rendered as if
  it began there, with the numbering of arguments where the first left it (`render_append_iff`). So
  the texts add up if the second pattern is in the same style: with the same arguments if no
  placeholder takes the next one, and else without those that were taken (`render_append`).
-/
import Interpolation.Proofs.Engine.Rendering
import Interpolation.Proofs.Pattern.Contents

namespace Interpolation

open Text Pattern

variable {σ : Type}

/-! ## The arguments that an expression refers to -/

namespace Expr

/-- The indices of the arguments that an expression refers to, from left to right. -/
def params : Expr → List Nat
  | literal _ | value _ => []
  | call _ params => params
  | binary l _ r => l.params ++ r.params

theorem mapM_argumentAt_congr {args args' : List Value} {is : List Nat}
    (h : ∀ i ∈ is, argumentAt args i = argumentAt args' i) :
    is.mapM (argumentAt args) = is.mapM (argumentAt args') := by
  induction is with
  | nil => rfl
  | cons i is ih =>
    rw [List.mapM_cons, List.mapM_cons, h i List.mem_cons_self,
      ih fun j hj => h j (List.mem_cons_of_mem i hj)]

/-- An expression depends on no other arguments than those that it refers to. -/
theorem eval_congr {env : Environment σ} {e : Expr} {args args' : List Value}
    (h : ∀ i ∈ e.params, argumentAt args i = argumentAt args' i) :
    e.eval env args = e.eval env args' := by
  induction e with
  | literal | value => rfl
  | call n ps =>
    have hps : ps.mapM (argumentAt args) = ps.mapM (argumentAt args') := mapM_argumentAt_congr h
    unfold eval
    rw [hps]
  | binary l op r ihl ihr =>
    unfold eval
    rw [ihl fun i hi => h i (List.mem_append_left _ hi),
      ihr fun i hi => h i (List.mem_append_right _ hi)]

end Expr

namespace Engine

variable {engine : Engine σ} {args args' : List Value} {ps qs : List Segment} {p q a b s : String}
  {st st' st'' : σ}

/-- The expression that a body spells refers to no argument. -/
def Parameterless (engine : Engine σ) (body : String) : Prop :=
  ∀ e, engine.readExpr body = .ok e → e.params = []

theorem evaluate_congr {body : String}
    (h : ∀ e, engine.readExpr body = .ok e →
      ∀ i ∈ e.params, argumentAt args i = argumentAt args' i) :
    engine.evaluate body args = engine.evaluate body args' := by
  unfold evaluate
  cases hread : engine.readExpr body with
  | error e => rfl
  | ok e =>
    show e.eval engine.env args = e.eval engine.env args'
    exact Expr.eval_congr (h e hread)

theorem evaluate_of_parameterless {body : String} (h : engine.Parameterless body)
    (args args' : List Value) : engine.evaluate body args = engine.evaluate body args' := by
  refine evaluate_congr fun e he i hi => ?_
  rw [h e he] at hi
  cases hi

/-! ## Parts one behind the other -/

theorem Shows.append {k : Nat} (hps : Shows engine args k ps st a st')
    (hqs : Shows engine args (k + implicits ps) qs st' b st'') :
    Shows engine args k (ps ++ qs) st (a ++ b) st'' := by
  induction hps with
  | nil =>
    rw [String.empty_append]
    exact hqs
  | @cons k p ps text out st st₁ st' hp _ ih =>
    rw [String.append_assoc]
    refine .cons hp (ih ?_)
    rw [Nat.add_assoc, ← implicits_append]
    exact hqs

/-- A part that refers to no argument but the next shows the same wherever that one stands. -/
theorem Shown.move {x : Segment} {text : String} {k k' : Nat}
    (h : Shown engine args k x st text st') (hexplicit : x.isExplicit = false)
    (hbody : ∀ body, x = .expression body → engine.Parameterless body)
    (hnext : args[k]? = args'[k']?) : Shown engine args' k' x st text st' := by
  cases h with
  | literal => exact .literal
  | argument ht hr hv =>
    cases ht with
    | next => exact .argument .next hr (hnext ▸ hv)
    | written => cases hexplicit
  | expression he =>
    rw [evaluate_of_parameterless (hbody _ rfl) args args'] at he
    exact .expression he

theorem Shows.move {k k' : Nat} (h : Shows engine args k qs st b st')
    (hexplicit : ∀ x ∈ qs, x.isExplicit = false)
    (hbody : ∀ body, .expression body ∈ qs → engine.Parameterless body)
    (hnext : ∀ j, args[k + j]? = args'[k' + j]?) : Shows engine args' k' qs st b st' := by
  induction h generalizing k' with
  | nil => exact .nil
  | @cons k x xs text out st st₁ st' hx _ ih =>
    refine .cons (hx.move (hexplicit x List.mem_cons_self) ?_ (hnext 0)) (ih ?_ ?_ ?_)
    · rintro body rfl
      exact hbody body List.mem_cons_self
    · exact fun y hy => hexplicit y (List.mem_cons_of_mem x hy)
    · exact fun body hy => hbody body (List.mem_cons_of_mem x hy)
    · intro j
      rw [Nat.add_assoc, Nat.add_assoc]
      exact hnext _

/-! ## Patterns one behind the other -/

theorem readable_append (hp : '\x00' ∉ p.toList) (q : String) :
    readable (p ++ q) = readable p ++ readable q := by
  rw [readable_eq_toList hp]
  unfold readable
  rw [String.toList_append, List.takeWhile_append_of_pos]
  intro c hc
  exact decide_eq_true fun h0 => hp (h0 ▸ hc)

/-- Behind parts that show, a pattern renders what its own parts show from there on. -/
theorem render_append_iff (hp : '\x00' ∉ p.toList) (hsplit : readable p = spell ps)
    (hw : ∀ x ∈ ps, x.WellFormed) (hone : OneStyle ps) (hps : Shows engine args 0 ps st a st') :
    (engine.render (p ++ q) args).result st = (.ok s, st'') ↔
      ∃ qs b, readable q = spell qs ∧ (∀ x ∈ qs, x.WellFormed) ∧ OneStyle (ps ++ qs) ∧
        Shows engine args (implicits ps) qs st' b st'' ∧ s = a ++ b := by
  have hboth : readable (p ++ q) = spell ps ++ readable q := by
    rw [readable_append hp, hsplit]
  have hwell {qs : List Segment} (hwq : ∀ x ∈ qs, x.WellFormed) : ∀ x ∈ ps ++ qs, x.WellFormed :=
    fun x hx => (List.mem_append.1 hx).elim (hw x) (hwq x)
  have hshows {qs : List Segment} {b : String} {st₂ : σ}
      (hqs : Shows engine args (implicits ps) qs st' b st₂) :
      Shows engine args 0 (ps ++ qs) st (a ++ b) st₂ := hps.append (by rwa [Nat.zero_add])
  have hcomplete {qs : List Segment} {b : String} {st₂ : σ} (hq : readable q = spell qs)
      (hwq : ∀ x ∈ qs, x.WellFormed) (hone : OneStyle (ps ++ qs))
      (hqs : Shows engine args (implicits ps) qs st' b st₂) :
      (engine.render (p ++ q) args).result st = (.ok (a ++ b), st₂) := by
    refine render_complete ?_ (hwell hwq) hone (hshows hqs)
    rw [hboth, hq, spell_append]
  constructor
  · intro h
    obtain ⟨qs, rest, b, st₁, hq, hwq, hone', hqs, hrest⟩ :
      Progress engine args ps st' (readable q) := progress _ hone
    rcases hrest with rfl | ⟨e, st₂, hstops⟩
    · rw [List.append_nil] at hq
      rw [hcomplete hq hwq hone' hqs] at h
      cases h
      exact ⟨qs, b, hq, hwq, hone', hqs, rfl⟩
    · have hsplit' : readable (p ++ q) = spell (ps ++ qs) ++ rest := by
        rw [hboth, hq, spell_append, List.append_assoc]
      rw [render_stopped hsplit' (hwell hwq) hone' (hshows hqs) hstops] at h
      cases h
  · rintro ⟨qs, b, hq, hwq, hone', hqs, rfl⟩
    exact hcomplete hq hwq hone' hqs

/-! ## The law of concatenation -/

section
variable (hp : '\x00' ∉ p.toList) (h : (engine.render p args).result st = (.ok a, st'))
include hp h

/-- Patterns that share the arguments: the first takes none, or both write their indices. -/
theorem render_append_shared (hi : ¬ HasImplicit p) (he : ¬ HasExplicit p ∨ ¬ HasImplicit q) :
    (engine.render (p ++ q) args).result st = (.ok s, st'') ↔
      ∃ b, s = a ++ b ∧ (engine.render q args).result st' = (.ok b, st'') := by
  obtain ⟨ps, hsplit, hw, hone, hps⟩ := exists_parts h
  have hnone := (not_hasImplicit_iff hsplit hw).1 hi
  rw [render_append_iff hp hsplit hw hone hps, implicits_eq_zero hnone]
  constructor
  · rintro ⟨qs, b, hq, hwq, hone', hqs, rfl⟩
    have honeq : OneStyle qs := (oneStyle_append_iff.1 hone').imp And.right And.right
    exact ⟨b, rfl, render_complete hq hwq honeq hqs⟩
  · rintro ⟨b, rfl, hb⟩
    obtain ⟨qs, hq, hwq, honeq, hqs⟩ := exists_parts hb
    refine ⟨qs, b, hq, hwq, oneStyle_append_iff.2 ?_, hqs, rfl⟩
    rcases he with he | he
    · have hnone' := (not_hasExplicit_iff hsplit hw).1 he
      exact honeq.imp (.intro hnone') (.intro hnone)
    · exact .inr ⟨hnone, (not_hasImplicit_iff hq hwq).1 he⟩

/-- A pattern that takes the arguments in order goes on behind those that were taken. -/
theorem render_append_taken (hi : HasImplicit p) (he : ¬ HasExplicit q)
    (hbody : ∀ body, .expression body ∈ contents q → engine.Parameterless body) :
    (engine.render (p ++ q) args).result st = (.ok s, st'') ↔
      ∃ b, s = a ++ b ∧
        (engine.render q (args.drop (implicits (contents p)))).result st' = (.ok b, st'') := by
  obtain ⟨ps, hsplit, hw, hone, hps⟩ := exists_parts h
  have hnone : ∀ x ∈ ps, x.isExplicit = false := by
    obtain ⟨x, hx, hxi⟩ := (exists_contents_iff (fun _ => rfl) hsplit hw).1 hi
    exact hone.no_explicit hx hxi
  have hbodies {qs : List Segment} (hq : readable q = spell qs) (hwq : ∀ x ∈ qs, x.WellFormed) :
      ∀ body, .expression body ∈ qs → engine.Parameterless body :=
    fun body hx => hbody body ((expression_mem_contents_iff hq hwq).2 hx)
  rw [render_append_iff hp hsplit hw hone hps, implicits_contents hsplit hw]
  generalize implicits ps = k
  constructor
  · rintro ⟨qs, b, hq, hwq, -, hqs, rfl⟩
    have hnoneq := (not_hasExplicit_iff hq hwq).1 he
    refine ⟨b, rfl, render_complete hq hwq (.inl hnoneq) ?_⟩
    refine hqs.move hnoneq (hbodies hq hwq) fun j => ?_
    rw [Nat.zero_add, List.getElem?_drop]
  · rintro ⟨b, rfl, hb⟩
    obtain ⟨qs, hq, hwq, -, hqs⟩ := exists_parts hb
    have hnoneq := (not_hasExplicit_iff hq hwq).1 he
    refine ⟨qs, b, hq, hwq, oneStyle_append_iff.2 (.inl ⟨hnone, hnoneq⟩), ?_, rfl⟩
    refine hqs.move hnoneq (hbodies hq hwq) fun j => ?_
    rw [Nat.zero_add, List.getElem?_drop]

/-- Placeholders in both styles are refused. -/
theorem render_append_mixed
    (hmixed : HasImplicit p ∧ HasExplicit q ∨ HasExplicit p ∧ HasImplicit q) :
    ∃ e st'', (engine.render (p ++ q) args).result st = (.error e, st'') := by
  obtain ⟨ps, hsplit, hw, hone, hps⟩ := exists_parts h
  rcases hr : (engine.render (p ++ q) args).result st with ⟨r, st''⟩
  cases r with
  | error e => exact ⟨e, st'', rfl⟩
  | ok s =>
    obtain ⟨qs, b, hq, hwq, hone', -, -⟩ := (render_append_iff hp hsplit hw hone hps).1 hr
    rw [oneStyle_append_iff, ← not_hasExplicit_iff hsplit hw, ← not_hasExplicit_iff hq hwq,
      ← not_hasImplicit_iff hsplit hw, ← not_hasImplicit_iff hq hwq] at hone'
    exfalso
    rcases hone' with ⟨hpe, hqe⟩ | ⟨hpi, hqi⟩
    · exact hmixed.elim (fun h => hqe h.2) (fun h => hpe h.1)
    · exact hmixed.elim (fun h => hpi h.1) (fun h => hqi h.2)

end

/-- A pattern behind one that was rendered. Where the first takes no argument, or neither takes the
next one, the second adds the text that it is rendered to with the same arguments. Behind
placeholders that took the next argument, a pattern that refers to none by its index adds the text
that it is rendered to without those that were taken. Placeholders in both styles are refused. An
interpreter with a state is found by the second pattern as the first left it. -/
theorem render_append (engine : Engine σ) (args : List Value) {p a : String} {st st' : σ}
    (hp : '\x00' ∉ p.toList) (h : (engine.render p args).result st = (.ok a, st')) (q : String) :
    (¬ HasImplicit p ∧ ¬ HasExplicit p ∨ ¬ HasImplicit p ∧ ¬ HasImplicit q →
        ∀ s st'', (engine.render (p ++ q) args).result st = (.ok s, st'') ↔
          ∃ b, s = a ++ b ∧ (engine.render q args).result st' = (.ok b, st'')) ∧
      (HasImplicit p → ¬ HasExplicit q →
        (∀ body, .expression body ∈ contents q → engine.Parameterless body) →
        ∀ s st'', (engine.render (p ++ q) args).result st = (.ok s, st'') ↔
          ∃ b, s = a ++ b ∧
            (engine.render q (args.drop (implicits (contents p)))).result st' = (.ok b, st'')) ∧
      (HasImplicit p ∧ HasExplicit q ∨ HasExplicit p ∧ HasImplicit q →
        ∃ e st'', (engine.render (p ++ q) args).result st = (.error e, st'')) := by
  refine ⟨?_, ?_, render_append_mixed hp h⟩
  · rintro (⟨hi, he⟩ | ⟨hi, he⟩) s st''
    · exact render_append_shared hp h hi (.inl he)
    · exact render_append_shared hp h hi (.inr he)
  · intro hi he hbody s st''
    exact render_append_taken hp h hi he hbody

theorem render_append_names :
    let engine : Engine Unit := bare
    let args := [Value.str "Ann", Value.str "Bob"]
    '\x00' ∉ "Hi ".toList ∧ (engine.render "Hi " args).result () = (.ok "Hi ", ()) ∧
      (engine.render ("Hi " ++ "\x7b1\x7d") args).result () = (.ok ("Hi " ++ "Bob"), ()) ∧
      '\x00' ∉ "\x7b\x7d, ".toList ∧
      (engine.render "\x7b\x7d, " args).result () = (.ok "Ann, ", ()) ∧
      (engine.render ("\x7b\x7d, " ++ "\x7b\x7d") args).result () =
        (.ok ("Ann, " ++ "Bob"), ()) ∧
      ∃ e st, (engine.render ("\x7b\x7d, " ++ "\x7b1\x7d") args).result () = (.error e, st) := by
  intro engine args
  have hnul : '\x00' ∉ "Hi ".toList := by decide
  have hhi : (engine.render "Hi " args).result () = (.ok "Hi ", ()) := by decide +kernel
  have hnul' : '\x00' ∉ "\x7b\x7d, ".toList := by decide
  have hann : (engine.render "\x7b\x7d, " args).result () = (.ok "Ann, ", ()) := by decide +kernel
  obtain ⟨hshared, -, -⟩ := render_append engine args hnul hhi "\x7b1\x7d"
  obtain ⟨-, htaken, -⟩ := render_append engine args hnul' hann "\x7b\x7d"
  obtain ⟨-, -, hmixed⟩ := render_append engine args hnul' hann "\x7b1\x7d"
  refine ⟨hnul, hhi, ?_, hnul', hann, ?_, hmixed (.inl ⟨by decide +kernel, by decide +kernel⟩)⟩
  · exact (hshared (.inl ⟨by decide +kernel, by decide +kernel⟩) _ _).2
      ⟨"Bob", rfl, by decide +kernel⟩
  · have hcontents : contents "\x7b\x7d" = [.argument none none] := by decide +kernel
    have hbody : ∀ body, .expression body ∈ contents "\x7b\x7d" → engine.Parameterless body := by
      intro body hm
      rw [hcontents] at hm
      cases List.mem_singleton.1 hm
    exact (htaken (by decide +kernel) (by decide +kernel) hbody _ _).2
      ⟨"Bob", rfl, by decide +kernel⟩

end Engine

end Interpolation
