/-
  Blanks around an expression. A text that spells an expression spells it too with blanks behind
  what it leaves (`Spells.behind`), since blanks end a label and hide no parenthesis; with those in
  front, a source may be written with any blanks around it (`SpelledBy.around`).
-/
import Interpolation.Proofs.Expr.Framing

namespace Interpolation.Expr

open Text

section
variable {cs rest w : List Char}

theorem Parted.behind {e : Expr} (hw : ∀ c ∈ w, isBlank c) (h : Parted e rest) :
    Parted e (rest ++ w) := by
  by_cases hrest : ∃ c ∈ rest, isBlank c = false
  · exact h.append hrest w
  · refine parted_of_blanks ?_
    intro c hc
    rcases List.mem_append.1 hc with hc | hc
    · by_contra hblank
      exact hrest ⟨c, hc, by simpa using hblank⟩
    · exact hw c hc

theorem Spells.behind {g : Grammar} {e : Expr} (hw : ∀ c ∈ w, isBlank c)
    (h : Spells g e cs rest) : Spells g e (cs ++ w) (rest ++ w) :=
  h.extend (h.parted.behind hw)

theorem Spells.blanks {g : Grammar} {e : Expr} (hw : ∀ c ∈ w, isBlank c)
    (h : Spells g e cs rest) : Spells g e (w ++ cs) rest := by
  induction w with
  | nil => exact h
  | cons b w ih =>
    exact (ih fun c hc => hw c (List.mem_cons_of_mem b hc)).blank (hw b List.mem_cons_self)

end

/-- A source may be written with any blanks around it. -/
theorem SpelledBy.around {g : Grammar} {src w₁ w₂ : String} {e : Expr}
    (h₁ : ∀ c ∈ w₁.toList, isBlank c) (h₂ : ∀ c ∈ w₂.toList, isBlank c) (h : SpelledBy g src e) :
    SpelledBy g (w₁ ++ src ++ w₂) e := by
  obtain ⟨rest, hspells, hrest⟩ := h
  refine ⟨rest ++ w₂.toList, ?_, ?_⟩
  · rw [String.toList_append, String.toList_append]
    exact (hspells.blanks h₁).behind h₂
  · intro c hc
    rcases List.mem_append.1 hc with hc | hc
    · exact hrest c hc
    · exact h₂ c hc

end Interpolation.Expr
