/-
  The bare label of the printf formatter. A placeholder that has it for its spec shows what it
  shows without one, so it may be left out everywhere in a pattern (`render_unlabelled`). Together
  with the verbs that do not apply to a value this makes the generic verb one function
  (`render_generic`).
-/
import Interpolation.Proofs.Engine.Filling
import Interpolation.Proofs.Formatter.Printf.Generic
import Interpolation.Proofs.Pattern.Rewriting
import Mathlib.Data.List.Basic

namespace Interpolation

open Text Pattern

/-! ## Leaving the label out -/

namespace Pattern

/-- A placeholder without its spec, if that is the bare label of the printf formatter. -/
def Segment.unlabelled : Segment → Segment
  | argument index spec => argument index (if spec = some "%" then none else spec)
  | p => p

theorem Segment.unlabelled_wellFormed {p : Segment} (h : p.WellFormed) :
    p.unlabelled.WellFormed := by
  cases p with
  | literal t => exact h
  | argument index spec =>
    refine ⟨h.1, fun s hs => ?_⟩
    split at hs
    · cases hs
    · exact h.2 s hs
  | expression body => exact h

theorem Segment.nul_not_mem_unlabelled {p : Segment} (h : '\x00' ∉ p.spelling) :
    '\x00' ∉ p.unlabelled.spelling := by
  cases p with
  | literal t => exact h
  | argument index spec =>
    unfold unlabelled
    dsimp only
    split
    · next hspec =>
      subst hspec
      simpa [spelling] using h
    · exact h
  | expression body => exact h

theorem nul_not_mem_map_unlabelled {parts : List Segment} (h : '\x00' ∉ spell parts) :
    '\x00' ∉ spell (parts.map Segment.unlabelled) := by
  rw [nul_not_mem_spell_iff] at h ⊢
  exact List.forall_mem_map.2 fun p hp => Segment.nul_not_mem_unlabelled (h p hp)

end Pattern

namespace Engine

variable {σ : Type} {engine : Engine σ} {args : List Value}

theorem renderer_bareLabel
    (hlabel : engine.formatters.find? '%' = some Formatter.printf.factory) :
    engine.renderer (some "%") = engine.renderer none := by
  have hunset : Formatter.printf.factory.configured "" = .ok Value.text := by
    show Except.ok (Formatter.Printf.Settings.render {}) = _
    exact congrArg Except.ok (funext Formatter.Printf.Settings.render_unset)
  have hselect : engine.formatters.select "%" = Formatter.printf.factory.configured "" :=
    FormatterTable.select_of_find? hlabel rfl
  exact hselect.trans hunset

theorem segment_unlabelled
    (hlabel : engine.formatters.find? '%' = some Formatter.printf.factory) (n : Numbering)
    (p : Segment) : engine.segment args n p.unlabelled = engine.segment args n p := by
  cases p with
  | literal t => rfl
  | argument index spec =>
    unfold Segment.unlabelled
    dsimp only
    split
    · next hspec =>
      subst hspec
      have hplaceholder : engine.placeholder args n index none =
          engine.placeholder args n index (some "%") := by
        unfold placeholder
        rw [renderer_bareLabel hlabel]
      exact congrArg Eval.of hplaceholder
    · rfl
  | expression body => rfl

theorem fill_unlabelled
    (hlabel : engine.formatters.find? '%' = some Formatter.printf.factory) {parts : List Segment}
    (hw : ∀ p ∈ parts, p.WellFormed) (hn : '\x00' ∉ spell parts) (n : Numbering) (o o' : Nat)
    (st : σ) :
    (engine.fill args n (scan o' (spell (parts.map Segment.unlabelled)))).result st =
      (engine.fill args n (scan o (spell parts))).result st := by
  -- the offsets differ where a label has been left out, so each side has its own
  induction parts generalizing n o o' st with
  | nil =>
    show (engine.fill args n (scan o' [])).result st = (engine.fill args n (scan o [])).result st
    rw [scan_nil, scan_nil]
  | cons p ps ih =>
    obtain ⟨hp, hps⟩ := List.forall_mem_cons.1 hw
    rw [spell_cons, List.mem_append, not_or] at hn
    obtain ⟨hnp, hnps⟩ := hn
    have hwu := Segment.unlabelled_wellFormed hp
    have hnu := Segment.nul_not_mem_unlabelled hnp
    rw [List.map_cons, spell_cons, spell_cons]
    cases p with
    | literal t =>
      have hstay := forall_staysOn State.staysOn_literal hp hnp
      have hnpsu : '\x00' ∉ spell (ps.map Segment.unlabelled) := nul_not_mem_map_unlabelled hnps
      show (engine.fill args n (scan o' (t.toList ++ spell (ps.map _)))).result st =
        (engine.fill args n (scan o (t.toList ++ spell ps))).result st
      rw [fill_literal hstay hnps, fill_literal hstay hnpsu, ih hps hnps]
    | argument index spec =>
      unfold Segment.unlabelled at hwu hnu ⊢
      rw [scan_argument hwu hnu, scan_argument hp hnp]
      exact fill_ahead_congr (segment_unlabelled hlabel n (.argument index spec))
        fun n' st' => ih hps hnps n' _ _ st'
    | expression body =>
      show (engine.fill args n (scan o' ((Segment.expression body).spelling ++
        spell (ps.map _)))).result st = _
      rw [scan_expression hp hnp, scan_expression hp hnp]
      exact fill_ahead_congr rfl fun n' st' => ih hps hnps n' _ _ st'

/-- The bare label may be left out wherever it is the spec of a placeholder. -/
theorem render_unlabelled (args : List Value)
    (hlabel : engine.formatters.find? '%' = some Formatter.printf.factory) {parts : List Segment}
    (hw : ∀ p ∈ parts, p.WellFormed) (hn : '\x00' ∉ spell parts) :
    engine.render (String.ofList (spell (parts.map Segment.unlabelled))) args =
      engine.render (String.ofList (spell parts)) args := by
  refine Eval.ext fun st => ?_
  rw [render_eq_fill, render_eq_fill, readable_ofList (nul_not_mem_map_unlabelled hn),
    readable_ofList hn]
  exact fill_unlabelled hlabel hw hn .unused 0 0 st

end Engine

/-- A value that the verb does not apply to is shown as by the generic verb with the same flags,
width and precision. Without any of these the generic verb shows the text of every value, so a
pattern shows the same with the bare label of the formatter and without it. -/
theorem Formatter.Printf.render_generic :
    (∀ (s : Settings) (v : Value), ¬ s.verb.AppliesTo v →
      s.render v = { s with verb := .generic }.render v) ∧
    (∀ v : Value, Settings.render { verb := .generic } v = v.text) ∧
    ∀ (σ : Type) (engine : Engine σ), engine.formatters.find? '%' = some printf.factory →
      ∀ parts : List Segment, (∀ p ∈ parts, p.WellFormed) → '\x00' ∉ spell parts →
      ∀ args : List Value,
        engine.render (String.ofList (spell (parts.map Segment.unlabelled))) args =
          engine.render (String.ofList (spell parts)) args := by
  refine ⟨fun s v => Settings.render_of_not_appliesTo, Settings.render_unset, ?_⟩
  intro σ engine hlabel parts hw hn args
  exact Engine.render_unlabelled args hlabel hw hn

/-- The octal verb leaves a float to the generic one, with the sign, zeros and places that the rest
of the spec asks for. -/
theorem Formatter.Printf.render_generic_octal :
    let s : Settings :=
      ⟨{ plus := true, zero := true, alternate := true }, some 9, some 2, .integer .octal⟩
    let v : Value := .float ⟨0x4004000000000000⟩
    let engine : Engine Unit := {}
    let parts : List Segment :=
      [.argument (some "0") (some "%"), .literal " or ", .argument (some "0") (some "%.1f")]
    ¬ s.verb.AppliesTo v ∧ s.render v = { s with verb := .generic }.render v ∧
      s.render v = "+00002.50" ∧ engine.formatters.find? '%' = some printf.factory ∧
      (∀ p ∈ parts, p.WellFormed) ∧ '\x00' ∉ spell parts ∧
      engine.render "\x7b0\x7d or \x7b0:%.1f\x7d" [v] =
        engine.render "\x7b0:%\x7d or \x7b0:%.1f\x7d" [v] ∧
      (engine.render "\x7b0\x7d or \x7b0:%.1f\x7d" [v]).result () = (.ok "2.5 or 2.5", ()) := by
  intro s v engine parts
  have hverb : ¬ s.verb.AppliesTo v := by
    intro h
    cases h with
    | integer _ h => cases h
  have hlabel : engine.formatters.find? '%' = some printf.factory := rfl
  have hw : ∀ p ∈ parts, p.WellFormed := by decide
  have hn : '\x00' ∉ spell parts := by decide
  obtain ⟨hfallback, -, hpattern⟩ := render_generic
  have hbare := hpattern Unit engine hlabel parts hw hn [v]
  have hspelled : String.ofList (spell parts) = "\x7b0:%\x7d or \x7b0:%.1f\x7d" := by decide
  have hshort : String.ofList (spell (parts.map Segment.unlabelled)) =
      "\x7b0\x7d or \x7b0:%.1f\x7d" := by decide
  rw [hspelled, hshort] at hbare
  exact ⟨hverb, hfallback s v hverb, by decide +kernel, hlabel, hw, hn, hbare, by decide +kernel⟩

end Interpolation
