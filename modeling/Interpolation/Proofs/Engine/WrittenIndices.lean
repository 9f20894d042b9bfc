/-
  Written indices. A placeholder without an index takes the argument behind those that were taken
  before it, so a pattern that leaves all its indices out is rendered as the one in which every
  placeholder has the index that it stands for (`render_numbered`). The two runs keep different
  numberings, which choose the same argument at every step (`placeholder_agree`).
-/
import Interpolation.Proofs.Engine.Embedding
import Interpolation.Proofs.Engine.Showing
import Interpolation.Proofs.Pattern.Rewriting

namespace Interpolation

open Text Pattern

/-! ## Writing the indices out -/

namespace Pattern

/-- A part with the index of its argument, if it is a placeholder that has none. -/
def Segment.withIndex (k : Nat) : Segment → Segment
  | argument none spec => argument (some (decimal k)) spec
  | p => p

/-- The parts of a pattern with every index written. -/
def numbered (parts : List Segment) : List Segment := rewritten Segment.withIndex 0 parts

theorem Segment.withIndex_wellFormed (k : Nat) {p : Segment} (h : p.WellFormed) :
    (p.withIndex k).WellFormed := by
  rcases p with t | ⟨_ | ds, spec⟩ | body
  · exact h
  · refine ⟨?_, h.2⟩
    rintro ds ⟨⟩
    exact isIndex_decimal k
  · exact h
  · exact h

theorem Segment.nul_not_mem_withIndex (k : Nat) {p : Segment} (h : '\x00' ∉ p.spelling) :
    '\x00' ∉ (p.withIndex k).spelling := by
  rcases p with t | ⟨_ | ds, spec⟩ | body
  · exact h
  · have hk := nul_not_mem_decimal k
    simp only [withIndex, spelling, Option.elim_none, Option.elim_some, List.nil_append,
      List.mem_cons, List.mem_append, not_or] at h ⊢
    exact ⟨h.1, hk, h.2⟩
  · exact h
  · exact h

end Pattern

theorem Engine.takes_decimal {k i : Nat} (hi : i ≤ maxUnsigned) :
    Takes k (some (decimal i)) i := by
  have hvalue : digitsValue (decimal i).toList = i := by
    unfold decimal
    rw [String.toList_ofList, digitsValue_toDigits]
  have h : Takes k (some (decimal i)) (digitsValue (decimal i).toList) :=
    .written (by rwa [hvalue])
  rwa [hvalue] at h

/-! ## Two runs -/

/-- What the two styles keep after `k` placeholders. -/
inductive Numbering.Agree : Nat → Numbering → Numbering → Prop
  | unused : Agree 0 .unused .unused
  | used {k : Nat} : Agree k (.implicit k) .explicit

namespace Engine

variable {σ : Type} {engine : Engine σ} {args : List Value} {n n' : Numbering} {k : Nat}

theorem choose_agree (h : n.Agree k n') :
    n.choose none = .ok (k, .implicit (k + 1)) ∧ n'.choose (some k) = .ok (k, .explicit) := by
  cases h with
  | unused => exact ⟨rfl, rfl⟩
  | used => exact ⟨rfl, rfl⟩

/-- With and without its index, a placeholder fails alike or shows the same argument. -/
theorem placeholder_agree (h : n.Agree k n') (hk : k ≤ maxUnsigned) (spec : Option String) :
    (∃ e, engine.placeholder args n none spec = .error e ∧
        engine.placeholder args n' (some (decimal k)) spec = .error e) ∨
      ∃ text, k < args.length ∧
        engine.placeholder args n none spec = .ok (text, .implicit (k + 1)) ∧
        engine.placeholder args n' (some (decimal k)) spec = .ok (text, .explicit) := by
  obtain ⟨hnext, hwritten⟩ := choose_agree h
  have hindex : ∀ ds ∈ some (decimal k), Segment.IsIndex ds := by
    rintro ds ⟨⟩
    exact Segment.isIndex_decimal k
  rw [placeholder_of_choose (by simp) (.next (k := k)) hnext,
    placeholder_of_choose hindex (takes_decimal (k := 0) hk) hwritten]
  cases engine.renderer spec with
  | error e => exact .inl ⟨e, rfl, rfl⟩
  | ok display =>
    by_cases hlt : k < args.length
    · rw [argumentAt_of_getElem? (List.getElem?_eq_getElem hlt)]
      exact .inr ⟨display args[k], hlt, rfl, rfl⟩
    · rw [argumentAt_of_le (Nat.le_of_not_lt hlt)]
      exact .inl ⟨.indexOutOfRange k args.length, rfl, rfl⟩

/-- The two runs go on alike behind `k` placeholders, all of which found their argument. -/
theorem fill_agree {parts : List Segment} {st : σ} (h : n.Agree k n') (hk : k ≤ args.length)
    (hargs : args.length ≤ maxUnsigned) (hw : ∀ p ∈ parts, p.WellFormed)
    (hi : ∀ p ∈ parts, p.isExplicit = false) (hn : '\x00' ∉ spell parts) (o o' : Nat) :
    (engine.fill args n' (scan o' (spell (rewritten Segment.withIndex k parts)))).result st =
      (engine.fill args n (scan o (spell parts))).result st := by
  induction parts generalizing k n n' st o o' with
  | nil =>
    show (engine.fill args n' (scan o' [])).result st = (engine.fill args n (scan o [])).result st
    rw [scan_nil, scan_nil, fill_end, fill_end]
  | cons p ps ih =>
    obtain ⟨hp, hps⟩ := List.forall_mem_cons.1 hw
    obtain ⟨hpi, hpsi⟩ := List.forall_mem_cons.1 hi
    rw [spell_cons] at hn
    have hnp : '\x00' ∉ p.spelling := fun hm => hn (List.mem_append_left _ hm)
    have hnps : '\x00' ∉ spell ps := fun hm => hn (List.mem_append_right _ hm)
    have hwk := Segment.withIndex_wellFormed k hp
    have hnk := Segment.nul_not_mem_withIndex k hnp
    rw [rewritten, spell_cons, spell_cons]
    cases p with
    | literal t =>
      have hstay := forall_staysOn State.staysOn_literal hp hnp
      have hnk' : '\x00' ∉ spell (rewritten Segment.withIndex k ps) :=
        nul_not_mem_rewritten (fun k _ => Segment.nul_not_mem_withIndex k) k hnps
      show (engine.fill args n' (scan o' (t.toList ++ spell (rewritten _ k ps)))).result st =
        (engine.fill args n (scan o (t.toList ++ spell ps))).result st
      rw [fill_literal hstay hnps, fill_literal hstay hnk', ih h hk hps hpsi hnps]
    | argument index spec =>
      cases index with
      | some ds => cases hpi
      | none =>
        show (engine.fill args n' (scan o' ((Segment.argument (some (decimal k)) spec).spelling ++
          spell (rewritten Segment.withIndex (k + 1) ps)))).result st = _
        rw [scan_argument hp hnp, scan_argument hwk hnk]
        rcases placeholder_agree h (Nat.le_trans hk hargs) spec with
          ⟨e, hnone, hsome⟩ | ⟨text, hlt, hnone, hsome⟩
        · rw [fill_ahead_error (segment_argument hsome), fill_ahead_error (segment_argument hnone)]
        · rw [fill_ahead (segment_argument hsome), fill_ahead (segment_argument hnone),
            ih .used hlt hps hpsi hnps]
    | expression body =>
      show (engine.fill args n' (scan o' ((Segment.expression body).spelling ++
        spell (rewritten Segment.withIndex k ps)))).result st = _
      rw [scan_expression hp hnp, scan_expression hp hnp]
      rcases he : (engine.evaluate body args).result st with ⟨r, st'⟩
      cases r with
      | error e =>
        rw [fill_ahead_error (Eval.result_bind_error he),
          fill_ahead_error (Eval.result_bind_error he)]
      | ok text =>
        rw [fill_ahead (Eval.result_bind_ok he), fill_ahead (Eval.result_bind_ok he),
          ih h hk hps hpsi hnps]

/-- A pattern without an index is rendered as the same pattern with every index written, whether
that succeeds or fails: every placeholder shows the same argument, and where the first step fails
it fails with the same error. The number of arguments is a word, as an index has to be. -/
theorem render_numbered (engine : Engine σ) {args : List Value} (hargs : args.length ≤ maxUnsigned)
    {pattern : String} {parts : List Segment} (hsplit : pattern.toList = spell parts)
    (hw : ∀ p ∈ parts, p.WellFormed) (hi : ∀ p ∈ parts, p.isExplicit = false)
    (hn : '\x00' ∉ pattern.toList) :
    engine.render (String.ofList (spell (numbered parts))) args = engine.render pattern args := by
  have hns : '\x00' ∉ spell parts := hsplit ▸ hn
  have hnumbered : '\x00' ∉ spell (numbered parts) :=
    nul_not_mem_rewritten (fun k _ => Segment.nul_not_mem_withIndex k) 0 hns
  refine Eval.ext fun st => ?_
  rw [render_eq_fill, render_eq_fill, readable_ofList hnumbered, readable_eq_toList hn, hsplit]
  exact fill_agree .unused (Nat.zero_le _) hargs hw hi hns 0 0

theorem render_numbered_names :
    let engine : Engine Unit := {}
    let pattern := "\x7b\x7d, \x7b:*x3\x7d\x7b\x7b'!'\x7d\x7d"
    let parts : List Segment :=
      [.argument none none, .literal ", ", .argument none (some "*x3"), .expression "'!'"]
    let written := "\x7b0\x7d, \x7b1:*x3\x7d\x7b\x7b'!'\x7d\x7d"
    let both := [Value.str "Ann", .str "Bob"]
    let one := [Value.str "Ann"]
    both.length ≤ maxUnsigned ∧ one.length ≤ maxUnsigned ∧ pattern.toList = spell parts ∧
      (∀ p ∈ parts, p.WellFormed) ∧ (∀ p ∈ parts, p.isExplicit = false) ∧
      '\x00' ∉ pattern.toList ∧ String.ofList (spell (numbered parts)) = written ∧
      (engine.render written both).result () = (.ok "Ann, xxx!", ()) ∧
      (engine.render written one).result () = (.error (.indexOutOfRange 1 1), ()) := by
  intro engine pattern parts written both one
  have hboth : both.length ≤ maxUnsigned := by decide
  have hone : one.length ≤ maxUnsigned := by decide
  have hsplit : pattern.toList = spell parts := by decide
  have hw : ∀ p ∈ parts, p.WellFormed := by decide
  have hi : ∀ p ∈ parts, p.isExplicit = false := by decide
  have hn : '\x00' ∉ pattern.toList := by decide
  have hwritten : String.ofList (spell (numbered parts)) = written := by decide +kernel
  have hall := render_numbered engine hboth hsplit hw hi hn
  have hfirst := render_numbered engine hone hsplit hw hi hn
  rw [hwritten] at hall hfirst
  refine ⟨hboth, hone, hsplit, hw, hi, hn, hwritten, ?_, ?_⟩
  · rw [hall]
    decide +kernel
  · rw [hfirst]
    decide +kernel

end Engine

end Interpolation
