/-
  Expressions in patterns. A pattern that holds nothing but an expression is rendered as its body
  is evaluated (`render_expression`), and the text of a well-formed expression, with any blanks
  around it, is evaluated as the expression itself (`evaluate_of_spelledBy`).
-/
import Interpolation.Proofs.Engine.Filling
import Interpolation.Proofs.Expr.Blanks
import Interpolation.Proofs.Expr.Display

namespace Interpolation

open Text Pattern

namespace Engine

variable {σ : Type}

theorem evaluate_of_spelledBy (engine : Engine σ) (args : List Value) {src : String} {e : Expr}
    (h : Expr.SpelledBy engine.grammar src e) :
    engine.evaluate src args = e.eval engine.env args := by
  have hread : engine.readExpr src = .ok e := Expr.ofSource_of_spelledBy h
  refine Eval.ext fun st => ?_
  unfold evaluate
  rw [Eval.result_of_bind, hread]

/-- A pattern that is one expression shows what its body is evaluated to, or fails with it. -/
theorem render_expression (engine : Engine σ) (args : List Value) {body : String}
    (hb : '}' ∉ body.toList) (hn : '\x00' ∉ body.toList) :
    engine.render ("\x7b\x7b" ++ body ++ "\x7d\x7d") args = engine.evaluate body args := by
  have htext : ("\x7b\x7b" ++ body ++ "\x7d\x7d").toList = (Segment.expression body).spelling := by
    rw [String.toList_append, String.toList_append]
    rfl
  have hnul : '\x00' ∉ (Segment.expression body).spelling := by
    simpa [Segment.spelling] using hn
  have hscan : scan 0 (readable ("\x7b\x7b" ++ body ++ "\x7d\x7d")) =
      ahead (.expression body) ([], .complete) := by
    rw [readable_eq_toList (by rwa [htext]), htext, ← List.append_nil (Segment.spelling _),
      scan_expression hb hnul, scan_nil]
  refine Eval.ext fun st => ?_
  rw [render_eq_fill, hscan]
  rcases he : (engine.evaluate body args).result st with ⟨r, st'⟩
  cases r with
  | error e => exact fill_ahead_error (Eval.result_bind_error he)
  | ok text =>
    rw [fill_ahead (Eval.result_bind_ok he), fill_end]
    show (Except.ok (text ++ ""), st') = _
    rw [String.append_empty]

/-- The text of a well-formed expression is evaluated as the expression itself, whether it succeeds
or fails; and so is a pattern that holds the text, with any blanks around it, and nothing else. -/
theorem evaluate_display (engine : Engine σ) (args : List Value) {e : Expr}
    (he : e.WellFormed engine.grammar) :
    engine.evaluate e.display args = e.eval engine.env args ∧
      ('}' ∉ e.display.toList → '\x00' ∉ e.display.toList →
        ∀ w₁ w₂ : String, (∀ c ∈ w₁.toList, isBlank c) → (∀ c ∈ w₂.toList, isBlank c) →
          engine.render ("\x7b\x7b" ++ (w₁ ++ e.display ++ w₂) ++ "\x7d\x7d") args =
            e.eval engine.env args) := by
  have hspelled := Expr.spelledBy_display he
  refine ⟨evaluate_of_spelledBy engine args hspelled, ?_⟩
  intro hbrace hnul w₁ w₂ h₁ h₂
  have hbody {c : Char} (hc : isBlank c = false) (hd : c ∉ e.display.toList) :
      c ∉ (w₁ ++ e.display ++ w₂).toList := by
    have hblank {w : String} (hw : ∀ c ∈ w.toList, isBlank c) : c ∉ w.toList := by
      intro hm
      rw [hw c hm] at hc
      cases hc
    simp only [String.toList_append, List.mem_append, not_or]
    exact ⟨⟨hblank h₁, hd⟩, hblank h₂⟩
  rw [render_expression engine args (hbody (by decide) hbrace) (hbody (by decide) hnul)]
  exact evaluate_of_spelledBy engine args (hspelled.around h₁ h₂)

theorem evaluate_display_joined :
    ∃ e : Expr, e.display = "'a\x7b' + 'b'" ∧ e.WellFormed (bare : Engine Unit).grammar ∧
      '}' ∉ e.display.toList ∧ '\x00' ∉ e.display.toList ∧
      (∀ c ∈ " ".toList, isBlank c) ∧ (∀ c ∈ "\t\n".toList, isBlank c) ∧
      (bare : Engine Unit).evaluate e.display [] = e.eval (bare : Engine Unit).env [] ∧
      (bare : Engine Unit).render ("\x7b\x7b" ++ (" " ++ e.display ++ "\t\n") ++ "\x7d\x7d") [] =
        e.eval (bare : Engine Unit).env [] ∧
      (e.eval (bare : Engine Unit).env []).result () = (.ok "a\x7bb", ()) := by
  have he : (Expr.binary (.literal "a\x7b") '+' (.literal "b")).WellFormed
      (bare : Engine Unit).grammar := by decide
  have hbrace : '}' ∉ (Expr.binary (.literal "a\x7b") '+' (.literal "b")).display.toList := by
    decide
  have hnul : '\x00' ∉ (Expr.binary (.literal "a\x7b") '+' (.literal "b")).display.toList := by
    decide
  obtain ⟨heval, hrender⟩ := evaluate_display (bare : Engine Unit) [] he
  have hspace : ∀ c ∈ " ".toList, isBlank c := List.all_eq_true.1 (by decide)
  have htab : ∀ c ∈ "\t\n".toList, isBlank c := List.all_eq_true.1 (by decide)
  exact ⟨_, by decide, he, hbrace, hnul, hspace, htab, heval,
    hrender hbrace hnul " " "\t\n" hspace htab, by rfl⟩

end Engine

end Interpolation
