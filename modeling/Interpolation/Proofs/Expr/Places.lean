/-
  Where reading gets to. A cursor only moves over characters of the source (`Cursor.Reaches`), and
  so does every part of the grammar: what is read ends, and a misfit lies, at a place that the
  cursor reaches from where the part began (`Onward`). There is one lemma for each part, up to
  `onward_expression`; so no misfit lies before the place where the reading of its part began.
-/
import Interpolation.Proofs.Expr.Source

namespace Interpolation

open Text

namespace Cursor

/-- The cursor comes from another one by moving over characters. -/
def Reaches (c d : Cursor) : Prop :=
  ∃ t, c.rest = t ++ d.rest ∧ d.offset = c.offset + utf8Size t

theorem Reaches.refl (c : Cursor) : c.Reaches c := ⟨[], rfl, rfl⟩

theorem Reaches.trans {c d e : Cursor} (h : c.Reaches d) (h' : d.Reaches e) : c.Reaches e := by
  obtain ⟨t, hcd, hd⟩ := h
  obtain ⟨u, hde, he⟩ := h'
  refine ⟨t ++ u, ?_, ?_⟩
  · rw [hcd, hde, List.append_assoc]
  · rw [he, hd, utf8Size_append, Nat.add_assoc]

theorem Reaches.offset_le {c d : Cursor} (h : c.Reaches d) : c.offset ≤ d.offset := by
  obtain ⟨t, -, hd⟩ := h
  omega

theorem reaches_skipWhile (p : Char → Bool) (c : Cursor) : c.Reaches (c.skipWhile p) :=
  ⟨c.rest.takeWhile p, List.takeWhile_append_dropWhile.symm, rfl⟩

theorem reaches_skipBlanks (c : Cursor) : c.Reaches c.skipBlanks := reaches_skipWhile isBlank c

theorem reaches_advance (c : Cursor) : c.Reaches c.advance := by
  rcases c with ⟨offset, _ | ⟨x, xs⟩⟩
  · exact .refl _
  · exact ⟨[x], rfl, rfl⟩

end Cursor

namespace Expr

variable {α β : Type} {c : Cursor}

/-- What is read ends, and a misfit lies, where the cursor gets to. -/
def Onward (c : Cursor) (place : α → Cursor) : Reading α → Prop
  | .ok x => c.Reaches (place x)
  | .error (.misfit m) => ∃ d, c.Reaches d ∧ d.offset = m.offset
  | .error (.incomplete _) => True

theorem Onward.from {d : Cursor} {place : α → Cursor} {r : Reading α} (hd : c.Reaches d)
    (h : Onward d place r) : Onward c place r := by
  rcases r with (m | need) | x
  · obtain ⟨e, he, hm⟩ := h
    exact ⟨e, hd.trans he, hm⟩
  · trivial
  · exact hd.trans h

theorem Onward.bind {place : α → Cursor} {place' : β → Cursor} {r : Reading α}
    {f : α → Reading β} (hr : Onward c place r) (hf : ∀ x, Onward (place x) place' (f x)) :
    Onward c place' (r >>= f) := by
  rcases r with (m | need) | x
  · exact hr
  · trivial
  · exact (hf x).from hr

/-- A failure lies where it lies, whatever was to be read. -/
theorem Onward.error {place : α → Cursor} {place' : β → Cursor} {f : Failure}
    (h : Onward c place (.error f : Reading α)) : Onward c place' (.error f : Reading β) := by
  rcases f with m | need
  · exact h
  · trivial

theorem onward_misfit {d : Cursor} (hd : c.Reaches d) (cause : Cause) :
    Onward c Prod.snd (misfit d cause : Reading (α × Cursor)) := ⟨d, hd, rfl⟩

/-! ## Words -/

theorem onward_label (c : Cursor) : Onward c Prod.snd (label c) := by
  have hskip := c.reaches_skipBlanks
  unfold label
  dsimp only
  split
  · exact onward_misfit hskip _
  · exact hskip.trans (Cursor.reaches_skipWhile _ _)

theorem onward_name (c : Cursor) : Onward c Prod.snd (name c) := by
  refine (onward_label c).bind ?_
  rintro ⟨first, after⟩
  dsimp only
  split
  · rename_i offset rest heq
    have hcolons : after.Reaches ⟨offset + 2, rest⟩ := by
      refine after.reaches_skipBlanks.trans ?_
      rw [heq]
      exact ⟨[':', ':'], rfl, rfl⟩
    have hskip := hcolons.trans (Cursor.reaches_skipBlanks _)
    split
    · trivial
    · refine Onward.from hskip ((onward_label _).bind ?_)
      intro x
      exact .refl _
  · exact .refl _

theorem onward_expect (want : Char) (need : Need) (otherwise : Char → Cause) (c : Cursor) :
    Onward c id (expect want need otherwise c) := by
  have hskip := c.reaches_skipBlanks
  unfold expect
  dsimp only
  split
  · trivial
  · split
    · exact hskip.trans (Cursor.reaches_advance _)
    · exact ⟨c.skipBlanks, hskip, rfl⟩

theorem onward_reference (c : Cursor) : Onward c Prod.snd (reference c) := by
  refine (onward_expect _ _ _ c).bind ?_
  intro d
  have hdigits := d.reaches_skipWhile isAsciiDigit
  dsimp only [id]
  split
  · split
    · trivial
    · exact onward_misfit (.refl d) _
  · split
    · exact hdigits
    · exact onward_misfit hdigits _

theorem onward_references (c : Cursor) : Onward c Prod.snd (references c) := by
  have behind {c d : Cursor} {n : Nat} (hn : reference c = .ok (n, d)) :
      c.Reaches d.skipBlanks := by
    have h := onward_reference c
    rw [hn] at h
    exact Cursor.Reaches.trans h d.reaches_skipBlanks
  fun_induction references c with
  | case1 c f hf =>
    have h := onward_reference c
    rw [hf] at h
    exact h.error
  | case2 => trivial
  | case3 c n d hn _ _ _ ih =>
    have hadvance := (behind hn).trans (Cursor.reaches_advance _)
    refine Onward.from hadvance (ih.bind ?_)
    intro x
    exact .refl _
  | case4 c n d hn =>
    exact (behind hn).trans (Cursor.reaches_advance _)
  | case5 c n d hn =>
    exact onward_misfit (behind hn) _

/-! ## Alternatives and chains -/

theorem onward_callName (c : Cursor) : Onward c Prod.snd (callName c) := by
  refine (onward_name c).bind ?_
  rintro ⟨n, after⟩
  have hskip := after.reaches_skipBlanks
  have hopen := (hskip.trans (Cursor.reaches_advance _)).trans (Cursor.reaches_skipBlanks _)
  dsimp only
  split
  · split
    · exact hopen.trans (Cursor.reaches_advance _)
    · refine Onward.from hopen ((onward_references _).bind ?_)
      intro x
      exact .refl _
  · exact onward_misfit hskip _

theorem onward_bareName (c : Cursor) : Onward c Prod.snd (bareName c) := by
  refine (onward_name c).bind ?_
  rintro ⟨n, after⟩
  dsimp only
  split
  · exact onward_misfit after.reaches_skipBlanks _
  · exact .refl _

theorem onward_literalText (c : Cursor) : Onward c Prod.snd (literalText c) := by
  refine (onward_expect _ _ _ c).bind ?_
  intro d
  have hclose := d.reaches_skipWhile (· ≠ '\'')
  dsimp only [id]
  split
  · trivial
  · exact hclose.trans (Cursor.reaches_advance _)

theorem onward_alternative {p : Cursor → Reading (Expr × Cursor)} (hp : p ∈ unitAlternatives)
    (c : Cursor) : Onward c Prod.snd (p c) := by
  rcases unitAlternatives_cases hp with rfl | rfl | rfl
  · exact onward_callName c
  · exact onward_bareName c
  · exact onward_literalText c

/-- Of two failures that lie onward, the one that is kept does too. -/
theorem onward_further {best : Option Failure} {f : Failure}
    (hbest : ∀ b ∈ best, Onward c Prod.snd (.error b : Reading (Expr × Cursor)))
    (hf : Onward c Prod.snd (.error f : Reading (Expr × Cursor))) :
    Onward c Prod.snd (.error (Failure.further best f) : Reading (Expr × Cursor)) := by
  unfold Failure.further
  split
  · split
    · exact hbest _ rfl
    · exact hf
  · exact hf

theorem onward_firstOf {g : Grammar} {ps : List (Cursor → Reading (Expr × Cursor))}
    {best : Option Failure} (hps : ∀ p ∈ ps, Onward c Prod.snd (p c))
    (hbest : ∀ b ∈ best, Onward c Prod.snd (.error b : Reading (Expr × Cursor))) :
    Onward c Prod.snd (firstOf g c best ps) := by
  induction ps generalizing best with
  | nil =>
    unfold firstOf
    cases best with
    | none => trivial
    | some b => exact hbest b rfl
  | cons p ps ih =>
    have hp := hps p List.mem_cons_self
    unfold firstOf
    split
    · rename_i r hr
      rw [hr] at hp
      exact hp
    · rename_i f hf
      rw [hf] at hp
      split
      · exact hp
      · refine ih (fun q hq => hps q (List.mem_cons_of_mem p hq)) ?_
        intro b hb
        cases hb
        exact onward_further hbest hp

theorem onward_unitAlternatives {g : Grammar} {best : Option Failure}
    (hbest : ∀ b ∈ best, Onward c Prod.snd (.error b : Reading (Expr × Cursor))) :
    Onward c Prod.snd (firstOf g c best unitAlternatives) :=
  onward_firstOf (fun _ hp => onward_alternative hp c) hbest

theorem onward_unit (g : Grammar) (c : Cursor) : Onward c Prod.snd (unit g c) := by
  unfold unit
  dsimp only
  split
  · trivial
  · exact Onward.from c.reaches_skipBlanks (onward_unitAlternatives (by simp))

theorem onward_joined {g : Grammar} {noted : Option Misfit}
    (ih : ∀ d : Cursor, d.rest.length < c.rest.length →
      Onward d Prod.snd (expression g noted d).1) :
    Onward c Prod.snd (joined g noted c).1 := by
  have hunit' := onward_unit g c
  have behind {left : Expr} {after : Cursor} (h : unit g c = .ok (left, after)) :
      c.Reaches after.skipBlanks := by
    rw [h] at hunit'
    exact Cursor.Reaches.trans hunit' after.reaches_skipBlanks
  have right {left : Expr} {after : Cursor} {op : Char} {rest : List Char}
      (h : unit g c = .ok (left, after)) (hrest : after.skipBlanks.rest = op :: rest) :
      Onward c Prod.snd (expression g noted after.skipBlanks.advance).1 := by
    exact Onward.from ((behind h).trans (Cursor.reaches_advance _))
      (ih _ (length_behind_operator h hrest))
  have hjoining := joining_joined g noted c
  generalize joined g noted c = result at hjoining
  cases hjoining with
  | noUnit hunit =>
    rw [hunit] at hunit'
    exact hunit'.error
  | ended hunit hrest hm =>
    subst hm
    exact onward_misfit (behind hunit) _
  | noOperator hunit hrest hop hm =>
    subst hm
    exact onward_misfit (behind hunit) _
  | noRight hunit hrest hop hright =>
    have h := right hunit hrest
    rw [hright] at h
    exact h.error
  | right hunit hrest hop hright =>
    have h := right hunit hrest
    rw [hright] at h
    exact h

theorem onward_expression (g : Grammar) (noted : Option Misfit) (c : Cursor) :
    Onward c Prod.snd (expression g noted c).1 := by
  -- on the length of the text, since the right side of an operator is a shorter one
  induction hlen : c.rest.length using Nat.strongRecOn generalizing c with
  | ind n ih =>
    have hskip := c.reaches_skipBlanks
    have hjoined : Onward c.skipBlanks Prod.snd (joined g noted c.skipBlanks).1 := by
      refine onward_joined ?_
      intro d hd
      have := Cursor.length_skipBlanks_le c
      exact ih d.rest.length (by omega) d rfl
    rw [expression_eq]
    split
    · trivial
    · split
      · rename_i r hr
        rw [hr] at hjoined
        exact hjoined.from hskip
      · rename_i f hf
        rw [hf] at hjoined
        split
        · exact Onward.from hskip hjoined
        · refine Onward.from hskip (onward_unitAlternatives ?_)
          intro b hb
          cases hb
          exact hjoined

/-- A misfit in the reading of an expression does not lie before that expression. -/
theorem offset_le_of_expression {g : Grammar} {noted : Option Misfit} {m : Misfit}
    (h : (expression g noted c).1 = .error (.misfit m)) : c.offset ≤ m.offset := by
  have honward := onward_expression g noted c
  rw [h] at honward
  obtain ⟨d, hd, hm⟩ := honward
  have := hd.offset_le
  omega

end Expr

end Interpolation
