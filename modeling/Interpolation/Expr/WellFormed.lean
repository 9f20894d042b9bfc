/-
  Well-formed expressions: those whose text reads back as the expression itself. Names are made
  of label characters, texts hold no quote, indices are words, and an operator is one of the
  language that no blank and no call can be mistaken for.
-/
import Interpolation.Expr.Grammar

namespace Interpolation

open Text

/-- A text that reads as one label. -/
def IsLabel (s : String) : Prop := s.toList ≠ [] ∧ ∀ c ∈ s.toList, Expr.isLabelChar c

-- the characters of the label are tried, not all there are
instance (s : String) : Decidable (IsLabel s) :=
  have : Decidable (∀ c ∈ s.toList, Expr.isLabelChar c) := List.decidableBAll _ s.toList
  inferInstanceAs (Decidable (_ ∧ _))

def Name.WellFormed (n : Name) : Prop := (∀ s ∈ n.space, IsLabel s) ∧ IsLabel n.key

instance (n : Name) : Decidable n.WellFormed := inferInstanceAs (Decidable (_ ∧ _))

namespace Expr

def isValue : Expr → Bool
  | value _ => true
  | _ => false

/-- The symbol may stand behind the given left side. -/
def Grammar.Joins (g : Grammar) (left : Expr) (symbol : Char) : Prop :=
  left.isBinary = false ∧ g.isOperator symbol ∧ isBlank symbol = false ∧
    (left.isValue → symbol ≠ '(')

instance (g : Grammar) (left : Expr) (symbol : Char) : Decidable (g.Joins left symbol) :=
  inferInstanceAs (Decidable (_ ∧ _))

def WellFormed (g : Grammar) : Expr → Prop
  | literal t => '\'' ∉ t.toList
  | value n => n.WellFormed
  | call n params => n.WellFormed ∧ ∀ i ∈ params, i ≤ maxUnsigned
  | binary l op r => g.Joins l op ∧ l.WellFormed g ∧ r.WellFormed g

instance decidableWellFormed (g : Grammar) : (e : Expr) → Decidable (e.WellFormed g)
  | literal t => inferInstanceAs (Decidable ('\'' ∉ t.toList))
  | value n => inferInstanceAs (Decidable n.WellFormed)
  | call n params => inferInstanceAs (Decidable (n.WellFormed ∧ ∀ i ∈ params, i ≤ maxUnsigned))
  | binary l op r =>
    have := decidableWellFormed g l
    have := decidableWellFormed g r
    inferInstanceAs (Decidable (g.Joins l op ∧ l.WellFormed g ∧ r.WellFormed g))

end Expr

end Interpolation
