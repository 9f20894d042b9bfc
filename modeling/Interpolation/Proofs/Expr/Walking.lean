/-
  Reading by places does what reading over characters does. Where a cursor stands in front of what
  is left of the source, a walker that stands at the same place sees the same characters, and it
  moves as the cursor does: one lemma for each part of the grammar, up to `gives_expression`. So
  every slice exists, every loop ends within its limit, and all places lie between characters.
-/
import Interpolation.Expr.Walk
import Interpolation.Proofs.Expr.Places
import Interpolation.Proofs.Pattern.Cuts
import Mathlib.Data.List.Forall2

namespace Interpolation

open Text

namespace Cursor

variable {src : String} {c d : Cursor}

theorem Reaches.isBoundary (h : (ofSource src).Reaches c) : IsBoundary src c.offset := by
  obtain ⟨t, hsrc, hoffset⟩ := h
  exact isBoundary_iff.2 ⟨t, c.rest, hsrc, by rw [hoffset]; exact Nat.zero_add _⟩

/-- What a cursor moves over is the slice between its two places. -/
theorem Reaches.slice {t : List Char} (h : (ofSource src).Reaches c) (hrest : c.rest = t ++ d.rest)
    (hoffset : d.offset = c.offset + utf8Size t) :
    slice? src c.offset d.offset = some (String.ofList t) := by
  obtain ⟨front, hsrc, hfront⟩ := h
  have hfront : c.offset = utf8Size front := by rw [hfront]; exact Nat.zero_add _
  rw [hoffset, hfront]
  apply slice?_middle
  rw [← hrest]
  exact hsrc

/-- The end of the source, from any cursor in it. -/
theorem Reaches.ending (h : (ofSource src).Reaches c) :
    src.utf8ByteSize = c.offset + utf8Size c.rest := by
  obtain ⟨front, hsrc, hfront⟩ := h
  have hsrc : src.toList = front ++ c.rest := hsrc
  have hfront : c.offset = 0 + utf8Size front := hfront
  rw [← utf8Size_toList, hsrc, utf8Size_append, hfront, Nat.zero_add]

/-! Moves by one character. -/

variable {b : Char} {p : Char → Bool}

theorem rest_of_peek (hb : c.peek? = some b) : c.rest = b :: c.advance.rest := by
  rcases c with ⟨offset, _ | ⟨x, xs⟩⟩
  · cases hb
  · cases hb
    rfl

theorem advance_end (h : c.peek? = none) : c.advance = c := by
  rcases c with ⟨offset, _ | ⟨x, xs⟩⟩
  · rfl
  · cases h

theorem offset_advance (hb : c.peek? = some b) : c.advance.offset = c.offset + b.utf8Size := by
  rcases c with ⟨offset, _ | ⟨x, xs⟩⟩
  · cases hb
  · cases hb
    rfl

theorem skipWhile_stop (h : ∀ b ∈ c.peek?, ¬ p b) : c.skipWhile p = c := by
  rcases c with ⟨offset, _ | ⟨x, xs⟩⟩
  · rfl
  · unfold skipWhile
    dsimp only
    rw [List.takeWhile_cons_of_neg (h x rfl), List.dropWhile_cons_of_neg (h x rfl)]
    rfl

theorem rest_skipWhile_eq_nil_iff : (c.skipWhile p).rest = [] ↔ c.rest.takeWhile p = c.rest := by
  have hrest : c.rest.takeWhile p ++ (c.skipWhile p).rest = c.rest :=
    List.takeWhile_append_dropWhile
  constructor
  · intro hnil
    rw [hnil, List.append_nil] at hrest
    exact hrest
  · intro hall
    rw [hall] at hrest
    exact List.append_right_eq_self.1 hrest

theorem not_of_peek_skipWhile (hb : (c.skipWhile p).peek? = some b) : ¬ p b := by
  have := List.head?_dropWhile_not p c.rest
  rw [show (c.rest.dropWhile p).head? = some b from hb] at this
  simpa using this

theorem skipWhile_step (hb : c.peek? = some b) (hp : p b) :
    c.skipWhile p = c.advance.skipWhile p := by
  rcases c with ⟨offset, _ | ⟨x, xs⟩⟩
  · cases hb
  · cases hb
    unfold skipWhile
    dsimp only
    rw [List.takeWhile_cons_of_pos hp, List.dropWhile_cons_of_pos hp, utf8Size_cons,
      ← Nat.add_assoc]
    rfl

end Cursor

namespace Expr

/-! ## Walkers -/

namespace Walker

variable {src : String} {noted : Option Misfit} {w : Walker} {c d : Cursor}

/-- All places so far lie between characters, and the given misfit is noted. -/
structure Safe (src : String) (noted : Option Misfit) (w : Walker) : Prop where
  visited : ∀ n ∈ w.visited, IsBoundary src n
  noted : w.noted = noted

/-- The walker stands where a cursor of the source does. -/
structure At (src : String) (noted : Option Misfit) (w : Walker) (c : Cursor) : Prop
    extends Safe src noted w where
  place : w.place = c.offset
  reaches : (Cursor.ofSource src).Reaches c

theorem at_start (src : String) : At src none {} (.ofSource src) where
  visited n hn := by
    obtain rfl : n = 0 := List.mem_singleton.1 hn
    exact isBoundary_zero src
  noted := rfl
  place := rfl
  reaches := .refl _

/-- The walker after a move. -/
def moved (w : Walker) (n : Nat) : Walker := { w with place := n, visited := n :: w.visited }

/-- A walker may move to every cursor of the source, also back. -/
theorem Safe.moved (h : w.Safe src noted) (hd : (Cursor.ofSource src).Reaches d) :
    (w.moved d.offset).At src noted d where
  visited n hn := by
    rcases List.mem_cons.1 hn with rfl | hn
    · exact hd.isBoundary
    · exact h.visited n hn
  noted := h.noted
  place := rfl
  reaches := hd

theorem At.length_lt (h : w.At src noted c) : c.rest.length < Walk.limit src := by
  have := h.reaches.ending
  have := length_le_utf8Size c.rest
  unfold Walk.limit
  omega

end Walker

namespace Walk

variable {α β : Type} {src : String} {noted noted' : Option Misfit} {w w' : Walker}
  {c d : Cursor} {x : Walk α} {f : α → Walk β} {a : α}

/-! ## Results of walks -/

/-- What a walk comes to, and the walker behind it. -/
def result (x : Walk α) (w : Walker) : Option (Except Failure α × Walker) := x.run.run w

@[simp]
theorem result_pure (a : α) (w : Walker) : (pure a : Walk α).result w = some (.ok a, w) := rfl

@[simp]
theorem result_place (w : Walker) : place.result w = some (.ok w.place, w) := rfl

@[simp]
theorem result_get (w : Walker) : (get : Walk Walker).result w = some (.ok w, w) := rfl

@[simp]
theorem result_moveTo (n : Nat) (w : Walker) : (moveTo n).result w = some (.ok (), w.moved n) := rfl

@[simp]
theorem result_mismatch (cause : Cause) (w : Walker) :
    (mismatch cause : Walk α).result w = some (.error (.misfit ⟨w.place, cause⟩), w) := rfl

theorem result_bind (x : Walk α) (f : α → Walk β) (w : Walker) :
    (x >>= f).result w =
      match x.result w with
      | none => none
      | some (.ok a, w') => (f a).result w'
      | some (.error e, w') => some (.error e, w') := by
  unfold result
  simp only [ExceptT.run_bind, StateT.run_bind]
  rcases x.run.run w with _ | ⟨r, w'⟩
  · rfl
  · cases r <;> rfl

theorem result_bind_ok (h : x.result w = some (.ok a, w')) :
    (x >>= f).result w = (f a).result w' := by
  rw [result_bind, h]

theorem result_bind_error {e : Failure} (h : x.result w = some (.error e, w')) :
    (x >>= f).result w = some (.error e, w') := by
  rw [result_bind, h]

theorem result_attempt {r : Except Failure α} (h : x.result w = some (r, w')) :
    (attempt x).result w = some (.ok r, w') := by
  unfold result at h
  unfold attempt result
  rw [ExceptT.run_mk, StateT.run_bind, h]
  rfl

/-! ## What walks give -/

/-- A walk gives what reading gives, and the walker gets to the end of what is read. -/
inductive Gives (src : String) (noted : Option Misfit) :
    Reading (α × Cursor) → Option (Except Failure α × Walker) → Prop
  | ok {a : α} {d : Cursor} {w : Walker} : w.At src noted d →
      Gives src noted (.ok (a, d)) (some (.ok a, w))
  | error {f : Failure} {w : Walker} : w.Safe src noted →
      Gives src noted (.error f) (some (.error f, w))

theorem Gives.exists_ok (h : Gives src noted (.ok (a, d)) (x.result w)) :
    ∃ w', x.result w = some (.ok a, w') ∧ w'.At src noted d := by
  generalize x.result w = res at h ⊢
  cases h with
  | @ok _ _ w' hat => exact ⟨w', rfl, hat⟩

theorem Gives.then {r : Reading (β × Cursor)} (h : Gives src noted (.ok (a, d)) (x.result w))
    (hf : ∀ {w}, w.At src noted d → Gives src noted' r ((f a).result w)) :
    Gives src noted' r ((x >>= f).result w) := by
  obtain ⟨w', hres, hat⟩ := h.exists_ok
  rw [result_bind_ok hres]
  exact hf hat

theorem Gives.bind {r : Reading (α × Cursor)} {k : α × Cursor → Reading (β × Cursor)}
    (h : Gives src noted r (x.result w))
    (hf : ∀ {a d w}, w.At src noted d → Gives src noted (k (a, d)) ((f a).result w)) :
    Gives src noted (r >>= k) ((x >>= f).result w) := by
  generalize hres : x.result w = res at h
  cases h with
  | ok hat =>
    rw [result_bind_ok hres]
    exact hf hat
  | error hsafe =>
    rw [result_bind_error hres]
    exact .error hsafe

/-- Where reading a part fails, so does the walk, whatever was to follow. -/
theorem Gives.fails {e : Failure} (h : Gives src noted (.error e) (x.result w)) :
    Gives src noted (.error e) ((x >>= f).result w) := by
  generalize hres : x.result w = res at h
  cases h with
  | error hsafe =>
    rw [result_bind_error hres]
    exact .error hsafe

/-- What holds behind both outcomes of a part holds behind the attempt at it. -/
theorem Gives.attempt {r : Reading (α × Cursor)} {f : Except Failure α → Walk β}
    {P : Option (Except Failure β × Walker) → Prop} (h : Gives src noted r (x.result w))
    (hok : ∀ {a d w}, r = .ok (a, d) → w.At src noted d → P ((f (.ok a)).result w))
    (herror : ∀ {e w}, r = .error e → w.Safe src noted → P ((f (.error e)).result w)) :
    P ((attempt x >>= f).result w) := by
  generalize hres : x.result w = res at h
  cases h with
  | ok hat =>
    rw [result_bind_ok (result_attempt hres)]
    exact hok rfl hat
  | error hsafe =>
    rw [result_bind_ok (result_attempt hres)]
    exact herror rfl hsafe

/-- A part that is read for its end only. -/
theorem Gives.behind {r : Reading Cursor} {x : Walk Unit} {f : Unit → Walk β}
    {k : Cursor → Reading (β × Cursor)} (h : Gives src noted (r.map fun d => ((), d)) (x.result w))
    (hf : ∀ {d w}, w.At src noted d → Gives src noted (k d) ((f ()).result w)) :
    Gives src noted (r >>= k) ((x >>= f).result w) := by
  have hbind : r >>= k = r.map (fun d => ((), d)) >>= fun d => k d.2 := by cases r <;> rfl
  rw [hbind]
  exact h.bind hf

/-- A walk that moves once. -/
theorem gives_moveTo {n : Nat} (h : w.Safe src noted) (hd : (Cursor.ofSource src).Reaches d)
    (hn : n = d.offset) : Gives src noted (.ok ((), d)) ((moveTo n).result w) := by
  rw [result_moveTo, hn]
  exact .ok (h.moved hd)

/-! ## Looking ahead -/

theorem result_slice {t : List Char} {m n : Nat} (h : slice? src m n = some (String.ofList t)) :
    (slice src m n).result w = some (.ok (String.ofList t), w) := by
  unfold slice result
  rw [h]
  rfl

theorem result_ahead (h : w.At src noted c) : (ahead src).result w = some (.ok c.rest, w) := by
  have hslice := h.reaches.slice (d := ⟨c.offset + utf8Size c.rest, []⟩)
    (List.append_nil _).symm rfl
  unfold ahead
  rw [result_bind_ok (result_place w), h.place, h.reaches.ending,
    result_bind_ok (result_slice hslice), result_pure, String.toList_ofList]

theorem result_peek (h : w.At src noted c) : (peek src).result w = some (.ok c.peek?, w) := by
  unfold peek
  rw [result_bind_ok (result_ahead h)]
  rfl

/-- Moves over the next character. -/
theorem gives_next {b : Char} (h : w.At src noted c) (hb : c.peek? = some b) :
    Gives src noted (.ok ((), c.advance)) ((moveTo (w.place + b.utf8Size)).result w) :=
  gives_moveTo h.toSafe (h.reaches.trans c.reaches_advance)
    (by rw [h.place, Cursor.offset_advance hb])

theorem gives_bump (h : w.At src noted c) :
    Gives src noted (.ok (c.peek?, c.advance)) ((bump src).result w) := by
  unfold bump
  rw [result_bind_ok (result_peek h)]
  cases hb : c.peek? with
  | none =>
    rw [Cursor.advance_end hb]
    exact .ok h
  | some b =>
    dsimp only
    rw [result_bind_ok (result_place w)]
    exact (gives_next h hb).then fun hat => .ok hat

theorem gives_pass (h : w.At src noted c) :
    Gives src noted (.ok ((), c.advance)) ((discard (bump src)).result w) :=
  (gives_bump h).then fun h => .ok h

theorem gives_skipWhile {p : Char → Bool} {n : Nat} (h : w.At src noted c)
    (hn : c.rest.length < n) :
    Gives src noted (.ok ((), c.skipWhile p)) ((skipWhile src p n).result w) := by
  induction n generalizing w c with
  | zero => exact absurd hn (Nat.not_lt_zero _)
  | succ n ih =>
    unfold skipWhile
    rw [result_bind_ok (result_peek h)]
    cases hb : c.peek? with
    | none =>
      rw [Cursor.skipWhile_stop (by simp [hb])]
      exact .ok h
    | some b =>
      dsimp only
      by_cases hp : p b
      · rw [if_pos hp, Cursor.skipWhile_step hb hp, result_bind_ok (result_place w)]
        refine (gives_next h hb).then fun hat => ih hat ?_
        rw [Cursor.rest_of_peek hb, List.length_cons] at hn
        exact Nat.lt_of_succ_lt_succ hn
      · rw [if_neg hp, Cursor.skipWhile_stop (by simpa [hb] using hp)]
        exact .ok h

theorem gives_skipBlanks (h : w.At src noted c) :
    Gives src noted (.ok ((), c.skipBlanks)) ((skipBlanks src).result w) :=
  gives_skipWhile h h.length_lt

/-! ## Words -/

theorem gives_misfit (h : w.At src noted c) (cause : Cause) :
    Gives src noted (misfit c cause : Reading (α × Cursor)) ((mismatch cause).result w) := by
  rw [result_mismatch, h.place]
  exact .error h.toSafe

section
variable {p : Char → Bool}

theorem result_slice_skipWhile (h : w.At src noted c) (h' : w'.At src noted (c.skipWhile p))
    (v : Walker) :
    (slice src w.place w'.place).result v =
      some (.ok (String.ofList (c.rest.takeWhile p)), v) := by
  rw [h.place, h'.place]
  exact result_slice (h.reaches.slice List.takeWhile_append_dropWhile.symm rfl)

theorem skipWhile_of_nil (ht : c.rest.takeWhile p = []) : c.skipWhile p = c := by
  apply Cursor.skipWhile_stop
  intro b hb hp
  rw [Cursor.rest_of_peek hb, List.takeWhile_cons_of_pos hp] at ht
  cases ht

/-- The place tells whether a character was passed. -/
theorem place_skipWhile (h : w.At src noted c) (h' : w'.At src noted (c.skipWhile p)) :
    w'.place = w.place ↔ c.rest.takeWhile p = [] := by
  have := length_le_utf8Size (c.rest.takeWhile p)
  have hoffset : (c.skipWhile p).offset = c.offset + utf8Size (c.rest.takeWhile p) := rfl
  rw [h.place, h'.place, ← List.length_eq_zero_iff, hoffset]
  constructor
  · omega
  · intro ht
    rw [List.length_eq_zero_iff.1 ht]
    rfl

end

theorem gives_label (h : w.At src noted c) :
    Gives src noted (Expr.label c) ((label src).result w) := by
  unfold label Expr.label
  refine (gives_skipBlanks h).then fun {w} h => ?_
  dsimp only
  generalize c.skipBlanks = c at h
  rw [result_bind_ok (result_place w)]
  refine (gives_skipWhile h h.length_lt).then fun {w'} h' => ?_
  rw [result_bind_ok (result_place w')]
  split
  · next ht =>
    rw [if_pos ((place_skipWhile h h').2 ht)]
    rw [skipWhile_of_nil ht] at h'
    rw [result_bind_ok (result_peek h')]
    exact gives_misfit h' _
  · next ht =>
    rw [if_neg fun hplace => ht ((place_skipWhile h h').1 hplace),
      result_bind_ok (result_slice_skipWhile h h' w'), result_pure, String.toList_ofList]
    exact .ok h'

theorem gives_name (h : w.At src noted c) :
    Gives src noted (Expr.name c) ((name src).result w) := by
  unfold name Expr.name
  refine (gives_label h).bind fun {first after w₁} h₁ => ?_
  rw [result_bind_ok (result_place w₁)]
  refine (gives_skipBlanks h₁).then fun {w₂} h₂ => ?_
  rw [result_bind_ok (result_ahead h₂)]
  dsimp only
  split
  · next offset rest hcolons =>
    rw [hcolons] at h₂ ⊢
    have hmove : Cursor.Reaches ⟨offset, ':' :: ':' :: rest⟩ ⟨offset + 2, rest⟩ :=
      ⟨[':', ':'], rfl, rfl⟩
    have hprefix : [':', ':'].isPrefixOf (':' :: ':' :: rest) = true := rfl
    rw [if_pos hprefix, result_bind_ok (result_place w₂)]
    refine (gives_moveTo h₂.toSafe (h₂.reaches.trans hmove) (by rw [h₂.place])).then fun {w} h => ?_
    refine (gives_skipBlanks h).then fun {w} h => ?_
    generalize (Cursor.mk (offset + 2) rest).skipBlanks = c at h
    rw [result_bind_ok (result_ahead h)]
    split
    · exact .error h.toSafe
    · exact (gives_label h).bind fun h => .ok h
  · next hnone =>
    have hprefix : ¬ [':', ':'].isPrefixOf after.skipBlanks.rest := by
      rw [List.isPrefixOf_iff_prefix]
      rintro ⟨rest, hrest⟩
      exact hnone after.skipBlanks.offset rest (congrArg _ hrest.symm)
    rw [if_neg hprefix]
    exact (gives_moveTo h₂.toSafe h₁.reaches h₁.place).then fun h => .ok h

theorem gives_expect (want : Char) (need : Need) (otherwise : Char → Cause)
    (h : w.At src noted c) :
    Gives src noted ((Expr.expect want need otherwise c).map fun d => ((), d))
      ((expect src want need otherwise).result w) := by
  unfold expect Expr.expect
  refine (gives_skipBlanks h).then fun {w} h => ?_
  dsimp only
  generalize c.skipBlanks = c at h
  rw [result_bind_ok (result_peek h)]
  cases hb : c.peek? with
  | none => exact .error h.toSafe
  | some b =>
    dsimp only
    split
    · exact gives_pass h
    · rw [result_mismatch, h.place]
      exact .error h.toSafe

theorem gives_reference (h : w.At src noted c) :
    Gives src noted (Expr.reference c) ((reference src).result w) := by
  unfold reference Expr.reference
  refine (gives_expect _ _ _ h).behind fun {c w} h => ?_
  rw [result_bind_ok (result_place w)]
  refine (gives_skipWhile h h.length_lt).then fun {w'} h' => ?_
  rw [result_bind_ok (result_place w'), result_bind_ok (result_slice_skipWhile h h' w'),
    String.toList_ofList]
  dsimp only
  split
  · next ht =>
    rw [skipWhile_of_nil ht] at h'
    rw [ht, if_pos (by rfl), result_bind_ok (result_peek h')]
    cases c.peek? with
    | none => exact .error h'.toSafe
    | some x => exact gives_misfit h' _
  · next ht =>
    rw [if_neg (by simpa using ht)]
    cases readWord (c.rest.takeWhile isAsciiDigit) with
    | ok n => exact .ok h'
    | error e => exact gives_misfit h' _

/-! ## Alternatives -/

theorem gives_literalText (h : w.At src noted c) :
    Gives src noted (Expr.literalText c) ((literalText src).result w) := by
  unfold literalText Expr.literalText
  refine (gives_expect _ _ _ h).behind fun {c w} h => ?_
  rw [result_bind_ok (result_place w), result_bind_ok (result_ahead h), h.place]
  dsimp only
  generalize hquoted : c.rest.takeWhile (· ≠ '\'') = quoted
  have hoffset : (c.skipWhile (· ≠ '\'')).offset = c.offset + utf8Size quoted := by
    rw [← hquoted]
    rfl
  have hrest : c.rest = quoted ++ (c.skipWhile (· ≠ '\'')).rest := by
    rw [← hquoted]
    exact List.takeWhile_append_dropWhile.symm
  have hreaches := h.reaches.trans (c.reaches_skipWhile (· ≠ '\''))
  have hend := Cursor.rest_skipWhile_eq_nil_iff (c := c) (p := (· ≠ '\''))
  have hquote (b : Char) := Cursor.not_of_peek_skipWhile (b := b) (c := c) (p := (· ≠ '\''))
  have hslice := h.reaches.slice hrest hoffset
  rw [hquoted] at hend
  generalize c.skipWhile (· ≠ '\'') = close at hoffset hrest hreaches hend hquote hslice
  rcases close with ⟨offset, _ | ⟨b, bs⟩⟩
  · have hmove : src.utf8ByteSize = offset := by
      rw [h.reaches.ending, ← hend.1 rfl]
      exact hoffset.symm
    rw [if_pos (hend.1 rfl)]
    exact (gives_moveTo h.toSafe hreaches hmove).then fun h => .error h.toSafe
  · obtain rfl : b = '\'' := by simpa using hquote b rfl
    have hmove : c.offset + utf8Size quoted + 1 = offset + Char.utf8Size '\'' := by
      rw [← hoffset]
      rfl
    rw [if_neg fun hall => nomatch hend.2 hall]
    refine (gives_moveTo h.toSafe (hreaches.trans (Cursor.reaches_advance _)) hmove).then
      fun {w} h => ?_
    rw [← hoffset, result_bind_ok (result_slice hslice)]
    exact .ok h

theorem gives_bareName (h : w.At src noted c) :
    Gives src noted (Expr.bareName c) ((bareName src).result w) := by
  unfold bareName Expr.bareName
  refine (gives_name h).bind fun {n after w} h => ?_
  rw [result_bind_ok (result_place w)]
  refine (gives_skipBlanks h).then fun {w'} h' => ?_
  rw [result_bind_ok (result_peek h')]
  dsimp only
  split
  · exact gives_misfit h' _
  · exact (gives_moveTo h'.toSafe h.reaches h.place).then fun h => .ok h

theorem gives_references {n : Nat} (h : w.At src noted c) (hn : c.rest.length < n) :
    Gives src noted (Expr.references c) ((references src n).result w) := by
  induction n generalizing w c with
  | zero => exact absurd hn (Nat.not_lt_zero _)
  | succ n ih =>
    have hreference := gives_reference h
    rw [references_eq]
    unfold references
    cases href : Expr.reference c with
    | error f =>
      rw [href] at hreference
      exact hreference.fails
    | ok r =>
      obtain ⟨m, after⟩ := r
      have hlength := length_reference href
      have hskip := Cursor.length_skipBlanks_le after
      rw [href] at hreference
      refine hreference.then fun {w} h => (gives_skipBlanks h).then fun {w} h => ?_
      dsimp only
      generalize after.skipBlanks = c at h hskip
      have hadvance := Cursor.length_advance_le c
      refine (gives_bump h).then fun {w} h' => ?_
      split
      · next hrest =>
        rw [Cursor.peek?, hrest]
        exact .error h'.toSafe
      · next hrest =>
        rw [Cursor.peek?, hrest]
        exact (ih h' (by omega)).bind fun h => .ok h
      · next hrest =>
        rw [Cursor.peek?, hrest]
        exact .ok h'
      · next x rest hcomma hclose hrest =>
        have hpeek : c.peek? = some x := by rw [Cursor.peek?, hrest]; rfl
        have hback : w.place - x.utf8Size = c.offset := by
          rw [h'.place, Cursor.offset_advance hpeek, Nat.add_sub_cancel]
        rw [hpeek]
        dsimp only
        rw [if_neg hcomma, if_neg hclose, result_bind_ok (result_place w)]
        exact (gives_moveTo h'.toSafe h.reaches hback).then fun h => gives_misfit h _

theorem gives_callName (h : w.At src noted c) :
    Gives src noted (Expr.callName c) ((callName src).result w) := by
  unfold callName Expr.callName
  refine (gives_name h).bind fun {n after w} h => ?_
  refine (gives_skipBlanks h).then fun {w} h => ?_
  dsimp only
  generalize after.skipBlanks = c at h
  rw [result_bind_ok (result_peek h)]
  split
  · next hopen =>
    rw [if_pos hopen]
    refine (gives_pass h).then fun {w} h => (gives_skipBlanks h).then fun {w} h => ?_
    generalize c.advance.skipBlanks = c at h
    rw [result_bind_ok (result_peek h)]
    split
    · exact (gives_pass h).then fun h => .ok h
    · exact (gives_references h h.length_lt).bind fun h => .ok h
  · next hopen =>
    rw [if_neg hopen]
    exact gives_misfit h _

/-- An alternative of the walk and one of reading, from a cursor. -/
def Follows (src : String) (noted : Option Misfit) (c : Cursor) (x : Walk Expr)
    (read : Cursor → Reading (Expr × Cursor)) : Prop :=
  ∀ {w}, w.At src noted c → Gives src noted (read c) (x.result w)

theorem gives_firstOf {g : Grammar} {xs : List (Walk Expr)}
    {reads : List (Cursor → Reading (Expr × Cursor))} {best : Option Failure}
    (hxs : List.Forall₂ (Follows src noted c) xs reads) (h : w.At src noted c) :
    Gives src noted (Expr.firstOf g c best reads) ((firstOf g c.offset best xs).result w) := by
  induction hxs generalizing best w with
  | nil => exact .error h.toSafe
  | @cons x read xs reads hx _ ih =>
    unfold firstOf Expr.firstOf
    refine (hx h).attempt (fun hr hat => ?_) fun hr hsafe => ?_
    · rw [hr]
      exact .ok hat
    · rw [hr]
      dsimp only
      split
      · exact .error hsafe
      · exact (gives_moveTo hsafe h.reaches rfl).then ih

theorem follows_unitAlternatives (src : String) (noted : Option Misfit) (c : Cursor) :
    List.Forall₂ (Follows src noted c) (unitAlternatives src) Expr.unitAlternatives :=
  .cons gives_callName (.cons gives_bareName (.cons gives_literalText .nil))

theorem gives_unit (g : Grammar) (h : w.At src noted c) :
    Gives src noted (Expr.unit g c) ((unit src g).result w) := by
  unfold unit Expr.unit
  refine (gives_skipBlanks h).then fun {w} h => ?_
  dsimp only
  generalize c.skipBlanks = c at h
  rw [result_bind_ok (result_ahead h)]
  split
  · exact .error h.toSafe
  · rw [result_bind_ok (result_place w), h.place]
    exact gives_firstOf (follows_unitAlternatives src noted c) h

/-! ## Expressions -/

/-- What is read behind the left side of an operator. -/
def readBehindUnit (g : Grammar) (noted : Option Misfit) (after : Cursor) :
    Reading ((Char × Expr) × Cursor) × Option Misfit :=
  match after.skipBlanks.rest with
  | [] => (misfit after.skipBlanks .missingOperator, noted)
  | op :: _ =>
    if g.isOperator op then
      let (right, noted) := Expr.expression g noted after.skipBlanks.advance
      (do let (right, after) ← right; return ((op, right), after), noted)
    else (misfit after.skipBlanks (.invalidOperator op), noted)

theorem joined_eq (g : Grammar) (noted : Option Misfit) (c : Cursor) :
    Expr.joined g noted c =
      match Expr.unit g c with
      | .error f => (.error f, noted)
      | .ok (left, after) =>
        match readBehindUnit g noted after with
        | (.ok ((op, right), d), noted) => (.ok (.binary left op right, d), noted)
        | (.error f, noted) => (.error f, note noted f) := by
  unfold Expr.joined readBehindUnit
  cases Expr.unit g c with
  | error f => rfl
  | ok r =>
    dsimp only
    cases r.2.skipBlanks.rest with
    | nil => rfl
    | cons op rest =>
      dsimp only
      split
      · rcases Expr.expression g noted r.2.skipBlanks.advance with ⟨_ | _, noted'⟩ <;> rfl
      · rfl

/-- The right side of an operator, walked and read from wherever less is left than the given. -/
def FollowsRight (src : String) (g : Grammar) (n : Nat) (right : Walk Expr) : Prop :=
  ∀ {noted c w}, w.At src noted c → c.rest.length < n →
    Gives src (Expr.expression g noted c).2 (Expr.expression g noted c).1 (right.result w)

theorem gives_behindUnit {g : Grammar} {n : Nat} {right : Walk Expr}
    (hright : FollowsRight src g n right) (h : w.At src noted c) (hn : c.rest.length ≤ n) :
    Gives src (readBehindUnit g noted c).2 (readBehindUnit g noted c).1
      ((behindUnit src g right).result w) := by
  unfold behindUnit readBehindUnit
  have hskip := Cursor.length_skipBlanks_le c
  refine (gives_skipBlanks h).then fun {w} h => ?_
  generalize c.skipBlanks = c at h hskip
  rw [result_bind_ok (result_peek h)]
  cases hrest : c.rest with
  | nil =>
    rw [Cursor.peek?, hrest]
    exact gives_misfit h _
  | cons op rest =>
    have hpeek : c.peek? = some op := by rw [Cursor.peek?, hrest]; rfl
    rw [hpeek]
    dsimp only
    split
    · have hlt := Cursor.length_advance_lt hpeek
      refine (gives_pass h).then fun {w} h => ?_
      exact (hright h (Nat.lt_of_lt_of_le hlt (Nat.le_trans hskip hn))).bind fun h => .ok h
    · exact gives_misfit h _

/-- The alternative with an operator. -/
theorem gives_joined {g : Grammar} {n : Nat} {right : Walk Expr}
    (hright : FollowsRight src g n right) (h : w.At src noted c) (hn : c.rest.length ≤ n) :
    Gives src (Expr.joined g noted c).2 (Expr.joined g noted c).1
      ((joined src g right).result w) := by
  rw [joined_eq]
  unfold joined
  have hunit := gives_unit g h
  cases hread : Expr.unit g c with
  | error f =>
    rw [hread] at hunit
    exact hunit.fails
  | ok r =>
    obtain ⟨left, after⟩ := r
    rw [hread] at hunit
    have hlength := length_unit hread
    refine hunit.then fun {w} h => ?_
    have hbehind := gives_behindUnit hright h (Nat.le_trans hlength hn)
    dsimp only
    generalize readBehindUnit g noted after = r at hbehind
    obtain ⟨r, noted'⟩ := r
    refine hbehind.attempt (fun hr hat => ?_) fun hr hsafe => ?_
    · subst hr
      exact .ok hat
    · subst hr
      exact .error ⟨hsafe.visited, congrArg (note · _) hsafe.noted⟩

theorem gives_expression (g : Grammar) {n : Nat} (h : w.At src noted c) (hn : c.rest.length < n) :
    Gives src (Expr.expression g noted c).2 (Expr.expression g noted c).1
      ((expression src g n).result w) := by
  induction n generalizing w c noted with
  | zero => exact absurd hn (Nat.not_lt_zero _)
  | succ n ih =>
    rw [expression_eq]
    unfold expression
    have hskip := Cursor.length_skipBlanks_le c
    refine (gives_skipBlanks h).then fun {w} h => ?_
    generalize c.skipBlanks = c at h hskip
    rw [result_bind_ok (result_ahead h)]
    split
    · exact .error h.toSafe
    · rw [result_bind_ok (result_place w), h.place]
      unfold firstOf
      have hjoined := gives_joined ih h (Nat.le_trans hskip (Nat.le_of_lt_succ hn))
      generalize Expr.joined g noted c = r at hjoined ⊢
      obtain ⟨r, noted'⟩ := r
      refine hjoined.attempt (fun hr hat => ?_) fun hr hsafe => ?_
      · subst hr
        exact .ok hat
      · subst hr
        dsimp only
        split
        · exact .error hsafe
        · refine (gives_moveTo hsafe h.reaches rfl).then fun h => ?_
          exact gives_firstOf (follows_unitAlternatives src noted' c) h

/-- A walk comes to a value, and all its places lie between characters. -/
def Reads (src : String) (a : α) (res : Option (Except Failure α × Walker)) : Prop :=
  ∃ w, res = some (.ok a, w) ∧ ∀ n ∈ w.visited, IsBoundary src n

/-- A walk over a source comes to what reading it comes to. -/
theorem reads_ofSource (g : Grammar) (src : String) :
    Reads src (Expr.ofSource g src) ((ofSource src g).result {}) := by
  have h := Walker.at_start src
  have hexpr := gives_expression g h h.length_lt
  unfold ofSource Expr.ofSource
  generalize Expr.expression g none (.ofSource src) = r at hexpr ⊢
  obtain ⟨r, noted⟩ := r
  refine hexpr.attempt (fun {e after w} hr hat => ?_) fun {f w} hr hsafe => ?_
  · subst hr
    obtain ⟨w', hres, hat'⟩ := (gives_skipBlanks hat).exists_ok
    refine ⟨w', ?_, hat'.visited⟩
    dsimp only
    rw [result_bind_ok hres, result_bind_ok (result_peek hat')]
    generalize after.skipBlanks = d at hat'
    rcases d with ⟨offset, _ | ⟨x, xs⟩⟩
    · rfl
    · have hnoted : w'.noted = noted := hat'.noted
      have hplace : w'.place = offset := hat'.place
      rw [Cursor.peek?, List.head?_cons]
      dsimp only
      rw [result_bind_ok (result_get w'), hnoted, hplace]
      cases noted <;> rfl
  · subst hr
    exact ⟨w, rfl, hsafe.visited⟩

end Walk

end Expr

/-- Every slice that is taken to read a pattern or an expression exists. The calls for the tokens
of a pattern cut it between characters, and so does the walk over the source of an expression,
which stands between characters at all times. -/
theorem slices_between_characters :
    (∀ pattern n, Pattern.Lexer.Cuts pattern (Pattern.Lexer.behindCalls pattern n)) ∧
      ∀ (g : Expr.Grammar) (src : String),
        Expr.Walk.Reads src (Expr.ofSource g src) ((Expr.Walk.ofSource src g).result {}) :=
  ⟨fun pattern n => (Pattern.Lexer.within_behindCalls pattern n).cuts, Expr.Walk.reads_ofSource⟩

end Interpolation
