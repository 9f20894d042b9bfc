/-
  Reading expressions. The grammar, with blanks allowed between any two of its words:

    expression  :=  unit operator expression  |  unit
    unit        :=  name '(' [ reference { ',' reference } ] ')'  |  name  |  quoted text
    name        :=  label [ '::' label ]
    reference   :=  '$' digits

  The alternatives are tried in turn from the same place. One that runs out of input ends the
  search, since no other could succeed then; of the mismatches of all, the furthest is reported,
  and among equals the first. What came after the left side of an operator is remembered, to
  explain characters that are left over after a whole expression.
-/
import Interpolation.Expr.Basic
import Interpolation.Expr.Cursor
import Interpolation.Expr.Failure
import Interpolation.Text.Alphanumeric

namespace Interpolation.Expr

open Text

/-- Reading a part fails, or yields what was read and where it ends. -/
abbrev Reading := Except Failure

/-- The operators of the language, and whether the end of input ends the search for a match. -/
structure Grammar where
  isOperator : Char → Bool
  endStops : Bool := true

def isLabelChar (c : Char) : Bool := isAlphanumeric c || c == '_' || c == '.'

/-- The misfit at a cursor. -/
def misfit {α : Type} (c : Cursor) (cause : Cause) : Reading (α × Cursor) :=
  .error (.misfit ⟨c.offset, cause⟩)

def label (c : Cursor) : Reading (List Char × Cursor) :=
  let c := c.skipBlanks
  match c.rest.takeWhile isLabelChar with
  | [] => misfit c (.emptyLabel c.peek?)
  | cs => .ok (cs, c.skipWhile isLabelChar)

def name (c : Cursor) : Reading (Name × Cursor) := do
  let (first, after) ← label c
  match after.skipBlanks with
  | ⟨offset, ':' :: ':' :: rest⟩ =>
    let c := (Cursor.mk (offset + 2) rest).skipBlanks
    if c.rest.isEmpty then .error (.incomplete .nameAfterColons) else
    let (key, after) ← label c
    return (⟨some (String.ofList first), String.ofList key⟩, after)
  | _ => return (⟨none, String.ofList first⟩, after)

/-- The given character after blanks. -/
def expect (want : Char) (need : Need) (otherwise : Char → Cause) (c : Cursor) :
    Reading Cursor :=
  let c := c.skipBlanks
  match c.peek? with
  | none => .error (.incomplete need)
  | some x => if x = want then .ok c.advance else .error (.misfit ⟨c.offset, otherwise x⟩)

def literalText (c : Cursor) : Reading (Expr × Cursor) := do
  let c ← expect '\'' .literal .noLiteral c
  match (c.skipWhile (· ≠ '\'')) with
  | ⟨_, []⟩ => .error (.incomplete .closingQuote)
  | close => return (.literal (String.ofList (c.rest.takeWhile (· ≠ '\''))), close.advance)

/-- A name that no parenthesis follows. -/
def bareName (c : Cursor) : Reading (Expr × Cursor) := do
  let (n, after) ← name c
  if after.skipBlanks.peek? = some '(' then misfit after.skipBlanks .called
  else return (.value n, after)

/-- A reference to an argument by its index. -/
def reference (c : Cursor) : Reading (Nat × Cursor) := do
  let c ← expect '$' .reference .noReference c
  let after := c.skipWhile isAsciiDigit
  match c.rest.takeWhile isAsciiDigit with
  | [] =>
    match c.peek? with
    | none => .error (.incomplete .index)
    | some x => misfit c (.noIndex x)
  | ds =>
    match readWord ds with
    | .ok n => return (n, after)
    | .error _ => misfit after (.indexTooLarge ds)

/-! Reading never lengthens what is left to read. -/

theorem length_label {c c' : Cursor} {cs : List Char} (h : label c = .ok (cs, c')) :
    c'.rest.length ≤ c.rest.length := by
  simp only [label, misfit] at h
  split at h
  · cases h
  · cases h
    exact Nat.le_trans (Cursor.length_skipWhile_le _ _) (Cursor.length_skipBlanks_le _)

theorem length_expect {want : Char} {need : Need} {otherwise : Char → Cause} {c c' : Cursor}
    (h : expect want need otherwise c = .ok c') : c'.rest.length < c.rest.length := by
  simp only [expect] at h
  split at h
  · cases h
  · next x hx =>
    split at h
    · cases h
      exact Nat.lt_of_lt_of_le (Cursor.length_advance_lt hx) (Cursor.length_skipBlanks_le _)
    · cases h

theorem length_reference {c c' : Cursor} {n : Nat} (h : reference c = .ok (n, c')) :
    c'.rest.length < c.rest.length := by
  simp only [reference, misfit, bind, Except.bind] at h
  split at h
  · cases h
  · next d hd =>
    have hlt := length_expect hd
    split at h
    · split at h <;> cases h
    · split at h
      · cases h
        exact Nat.lt_of_le_of_lt (Cursor.length_skipWhile_le _ _) hlt
      · cases h

/-- The references of a call up to its closing parenthesis. -/
def references (c : Cursor) : Reading (List Nat × Cursor) :=
  match _h : reference c with
  | .error f => .error f
  | .ok (n, after) =>
    let c := after.skipBlanks
    match c.rest with
    | [] => .error (.incomplete .separator)
    | ',' :: _ => do
      let (ns, after) ← references c.advance
      return (n :: ns, after)
    | ')' :: _ => .ok ([n], c.advance)
    | x :: _ => misfit c (.noSeparator x)
termination_by c.rest.length
decreasing_by
  have := length_reference _h
  have := Cursor.length_advance_le after.skipBlanks
  have := Cursor.length_skipBlanks_le after
  omega

/-- A name with the references that it is called with. -/
def callName (c : Cursor) : Reading (Expr × Cursor) := do
  let (n, after) ← name c
  let c := after.skipBlanks
  match c.peek? with
  | some '(' =>
    let c := c.advance.skipBlanks
    if c.peek? = some ')' then return (.call n [], c.advance)
    else
      let (ps, after) ← references c
      return (.call n ps, after)
  | found => misfit c (.notCalled found)

/-- The failure that is kept of an earlier and a later one: the further, else the earlier. -/
def Failure.further : Option Failure → Failure → Failure
  | some (.misfit a), .misfit b => if b.offset ≤ a.offset then .misfit a else .misfit b
  | _, f => f

/-- The end of input, if it ends the search. -/
def Grammar.stops (g : Grammar) : Failure → Bool
  | .incomplete _ => g.endStops
  | .misfit _ => false

/-- The first of some alternatives that succeeds, after earlier ones that failed with `best`. -/
def firstOf (g : Grammar) (c : Cursor) (best : Option Failure) :
    List (Cursor → Reading (Expr × Cursor)) → Reading (Expr × Cursor)
  | [] => .error (best.getD (.incomplete .expression))
  | p :: ps =>
    match p c with
    | .ok r => .ok r
    | .error f =>
      if g.stops f then .error f else firstOf g c (some (Failure.further best f)) ps

/-- The alternatives without an operator. -/
def unitAlternatives : List (Cursor → Reading (Expr × Cursor)) := [callName, bareName, literalText]

def unit (g : Grammar) (c : Cursor) : Reading (Expr × Cursor) :=
  let c := c.skipBlanks
  if c.rest.isEmpty then .error (.incomplete .expression)
  else firstOf g c none unitAlternatives

theorem length_name {c c' : Cursor} {n : Name} (h : name c = .ok (n, c')) :
    c'.rest.length ≤ c.rest.length := by
  simp only [name, bind, Except.bind, pure, Except.pure] at h
  split at h
  · cases h
  · next r hr =>
    have hfirst := length_label hr
    have hskip := Cursor.length_skipBlanks_le r.2
    split at h
    · next offset rest hrest =>
      have hcolons := Cursor.length_skipBlanks_le ⟨offset + 2, rest⟩
      rw [hrest] at hskip
      simp only [List.length_cons] at hskip hcolons
      split at h
      · cases h
      · split at h
        · cases h
        · next r' hr' =>
          have hkey := length_label hr'
          cases h
          omega
    · cases h
      exact hfirst

theorem length_references {c c' : Cursor} {ns : List Nat} (h : references c = .ok (ns, c')) :
    c'.rest.length ≤ c.rest.length := by
  fun_induction references c generalizing ns c' with
  | case1 => cases h
  | case2 => cases h
  | case3 c n after hr c₁ _ _ =>
    rename_i ih
    simp only [bind, Except.bind, pure, Except.pure] at h
    split at h
    · cases h
    · next r hr' =>
      have := ih hr'
      have := length_reference hr
      have : c₁.rest.length ≤ after.rest.length := Cursor.length_skipBlanks_le after
      have := Cursor.length_advance_le c₁
      cases h
      omega
  | case4 c n after hr c₁ _ =>
    have := length_reference hr
    have : c₁.rest.length ≤ after.rest.length := Cursor.length_skipBlanks_le after
    have := Cursor.length_advance_le c₁
    cases h
    omega
  | case5 => cases h

theorem length_callName {c c' : Cursor} {e : Expr} (h : callName c = .ok (e, c')) :
    c'.rest.length ≤ c.rest.length := by
  simp only [callName, misfit, bind, Except.bind, pure, Except.pure] at h
  split at h
  · cases h
  · next r hr =>
    have hname := length_name hr
    have h₁ := Cursor.length_skipBlanks_le r.2
    have h₂ := Cursor.length_advance_le r.2.skipBlanks
    have h₃ := Cursor.length_skipBlanks_le r.2.skipBlanks.advance
    split at h
    · split at h
      · have h₄ := Cursor.length_advance_le r.2.skipBlanks.advance.skipBlanks
        cases h
        omega
      · split at h
        · cases h
        · next r' hr' =>
          have h₄ := length_references hr'
          cases h
          omega
    · cases h

theorem length_bareName {c c' : Cursor} {e : Expr} (h : bareName c = .ok (e, c')) :
    c'.rest.length ≤ c.rest.length := by
  simp only [bareName, misfit, bind, Except.bind, pure, Except.pure] at h
  split at h
  · cases h
  · next r hr =>
    have hname := length_name hr
    split at h
    · cases h
    · cases h
      exact hname

theorem length_literalText {c c' : Cursor} {e : Expr} (h : literalText c = .ok (e, c')) :
    c'.rest.length ≤ c.rest.length := by
  simp only [literalText, bind, Except.bind, pure, Except.pure] at h
  split at h
  · cases h
  · next d hd =>
    have h₁ := length_expect hd
    have h₂ := Cursor.length_skipWhile_le (· ≠ '\'') d
    split at h
    · cases h
    · have h₃ := Cursor.length_advance_le (d.skipWhile (· ≠ '\''))
      cases h
      omega

theorem length_firstOf {g : Grammar} {c c' : Cursor} {e : Expr}
    {ps : List (Cursor → Reading (Expr × Cursor))} {best : Option Failure}
    (hps : ∀ p ∈ ps, ∀ {e c'}, p c = .ok (e, c') → c'.rest.length ≤ c.rest.length)
    (h : firstOf g c best ps = .ok (e, c')) : c'.rest.length ≤ c.rest.length := by
  induction ps generalizing best with
  | nil => cases h
  | cons p ps ih =>
    simp only [firstOf] at h
    split at h
    · next r hr =>
      cases h
      exact hps p List.mem_cons_self hr
    · split at h
      · cases h
      · exact ih (fun q hq => hps q (List.mem_cons_of_mem _ hq)) h

theorem length_unit {g : Grammar} {c c' : Cursor} {e : Expr} (h : unit g c = .ok (e, c')) :
    c'.rest.length ≤ c.rest.length := by
  simp only [unit] at h
  split at h
  · cases h
  · refine Nat.le_trans (length_firstOf (fun p hp => ?_) h) (Cursor.length_skipBlanks_le c)
    simp only [unitAlternatives, List.mem_cons, List.not_mem_nil, or_false] at hp
    rcases hp with rfl | rfl | rfl
    · exact length_callName
    · exact length_bareName
    · exact length_literalText

/-- Remembers a misfit after the left side of an operator, if it is further than before. -/
def note (noted : Option Misfit) : Failure → Option Misfit
  | .incomplete _ => noted
  | .misfit m =>
    match noted with
    | some n => if n.offset < m.offset then some m else some n
    | none => some m

/-- An expression, and the furthest misfit after the left side of an operator. -/
def expression (g : Grammar) (noted : Option Misfit) (start : Cursor) :
    Reading (Expr × Cursor) × Option Misfit :=
  let c := start.skipBlanks
  if c.rest.isEmpty then (.error (.incomplete .expression), noted) else
  /- a unit, an operator and an expression -/
  let (joined, noted) : Reading (Expr × Cursor) × Option Misfit :=
    match _hu : unit g c with
    | .error f => (.error f, noted)
    | .ok (left, after) =>
      match _hr : after.skipBlanks.rest with
      | [] =>
        let f := .misfit ⟨after.skipBlanks.offset, .missingOperator⟩
        (.error f, note noted f)
      | op :: _ =>
        if g.isOperator op then
          match expression g noted after.skipBlanks.advance with
          | (.ok (right, after), noted) => (.ok (.binary left op right, after), noted)
          | (.error f, noted) => (.error f, note noted f)
        else
          let f := .misfit ⟨after.skipBlanks.offset, .invalidOperator op⟩
          (.error f, note noted f)
  match joined with
  | .ok r => (.ok r, noted)
  | .error f =>
    if g.stops f then (.error f, noted)
    else (firstOf g c (some f) unitAlternatives, noted)
termination_by start.rest.length
decreasing_by
  have h₁ := length_unit _hu
  have h₂ := Cursor.length_skipBlanks_le after
  have h₃ : after.skipBlanks.advance.rest.length < after.skipBlanks.rest.length :=
    Cursor.length_advance_lt (x := op) (by simp [Cursor.peek?, _hr])
  have h₄ : c.rest.length ≤ start.rest.length := Cursor.length_skipBlanks_le start
  omega

/-- The expression that a whole source spells. -/
def ofSource (g : Grammar) (src : String) : Except Error Expr :=
  match expression g none (.ofSource src) with
  | (.error f, _) => .error (f.error src)
  | (.ok (e, after), noted) =>
    match after.skipBlanks with
    | ⟨_, []⟩ => .ok e
    | ⟨offset, x :: _⟩ =>
      match noted with
      | some m => .error (if offset ≤ m.offset then (Failure.misfit m).error src
          else leftover src offset x)
      | none => .error (leftover src offset x)

end Interpolation.Expr
