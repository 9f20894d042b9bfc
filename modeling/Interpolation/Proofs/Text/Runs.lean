/-
  Runs of characters: a stretch that satisfies a test, and what follows it. A text is cut in one
  way only if the stretch is as long as it can be, so `takeWhile` and `dropWhile` give back the two
  parts of a text that was put together from a run and a rest that ends it.
-/
import Interpolation.Text.Blank
import Interpolation.Text.Utf8

namespace Interpolation.Text

/-- The text is empty or begins with a character that fails the test, so it ends a run. -/
def Ends (p : Char → Bool) (rest : List Char) : Prop := ∀ c ∈ rest.head?, p c = false

theorem ends_nil (p : Char → Bool) : Ends p [] := by
  intro c hc
  cases hc

theorem ends_cons {p : Char → Bool} {c : Char} {rest : List Char} (hc : p c = false) :
    Ends p (c :: rest) := by
  intro d hd
  cases hd
  exact hc

theorem ends_append {p : Char → Bool} {cs : List Char} (hne : cs ≠ [])
    (h : ∀ c ∈ cs, p c = false) (rest : List Char) : Ends p (cs ++ rest) := by
  obtain ⟨c, cs, rfl⟩ := List.exists_cons_of_ne_nil hne
  exact ends_cons (h c List.mem_cons_self)

theorem takeWhile_run {p : Char → Bool} {t rest : List Char} (ht : ∀ c ∈ t, p c)
    (hr : Ends p rest) : (t ++ rest).takeWhile p = t := by
  rw [List.takeWhile_append_of_pos ht]
  cases rest with
  | nil => simp
  | cons c rest => simp [hr c rfl]

theorem dropWhile_run {p : Char → Bool} {t rest : List Char} (ht : ∀ c ∈ t, p c)
    (hr : Ends p rest) : (t ++ rest).dropWhile p = rest := by
  rw [List.dropWhile_append_of_pos ht]
  cases rest with
  | nil => simp
  | cons c rest => simp [hr c rfl]

/-- A text is cut into a run and a rest that ends it in one way only. -/
theorem run_unique {p : Char → Bool} {t u rest r : List Char} (h : t ++ rest = u ++ r)
    (ht : ∀ c ∈ t, p c) (hrest : Ends p rest) (hu : ∀ c ∈ u, p c) (hr : Ends p r) :
    t = u ∧ rest = r := by
  refine ⟨?_, ?_⟩
  · rw [← takeWhile_run ht hrest, h, takeWhile_run hu hr]
  · rw [← dropWhile_run ht hrest, h, dropWhile_run hu hr]

theorem ends_dropWhile (p : Char → Bool) (cs : List Char) : Ends p (cs.dropWhile p) := by
  intro c hc
  have h := List.head?_dropWhile_not p cs
  rw [hc] at h
  simpa using h

/-- Blanks around a text without any are trimmed. -/
theorem trim_around {before cs after : List Char} (hbefore : ∀ c ∈ before, isBlank c)
    (hafter : ∀ c ∈ after, isBlank c) (hne : cs ≠ []) (hcs : ∀ c ∈ cs, isBlank c = false) :
    trim (before ++ cs ++ after) = cs := by
  have hreverse : ∀ c ∈ cs.reverse, isBlank c = false := fun c hc => hcs c (List.mem_reverse.1 hc)
  unfold trim
  rw [List.append_assoc, dropWhile_run hbefore (ends_append hne hcs after), List.reverse_append,
    dropWhile_run (fun c hc => hafter c (List.mem_reverse.1 hc)), List.reverse_reverse]
  rw [← List.append_nil cs.reverse]
  exact ends_append (List.reverse_ne_nil_iff.2 hne) hreverse []

/-- Every text is a run and a rest that ends it. -/
theorem exists_run (p : Char → Bool) (cs : List Char) :
    ∃ t rest, cs = t ++ rest ∧ (∀ c ∈ t, p c) ∧ Ends p rest :=
  ⟨cs.takeWhile p, cs.dropWhile p, List.takeWhile_append_dropWhile.symm,
    List.all_eq_true.1 List.all_takeWhile, ends_dropWhile p cs⟩

/-- A test on bytes that agrees on all bytes of a character cuts between characters. -/
theorem takeWhile_utf8Chars {p : UInt8 → Bool} {q : Char → Bool}
    (h : ∀ c, ∀ b ∈ String.utf8EncodeChar c, p b = q c) (cs : List Char) :
    (utf8Chars cs).takeWhile p = utf8Chars (cs.takeWhile q) := by
  induction cs with
  | nil => rfl
  | cons c cs ih =>
    show (String.utf8EncodeChar c ++ utf8Chars cs).takeWhile p = _
    by_cases hc : q c
    · rw [List.takeWhile_append_of_pos (fun b hb => by rw [h c b hb, hc]), ih,
        List.takeWhile_cons_of_pos hc]
      rfl
    · obtain ⟨b, bs, hb⟩ := List.exists_cons_of_ne_nil (String.utf8EncodeChar_ne_nil (c := c))
      have hpb : ¬ p b := by rw [h c b (by simp [hb])]; exact hc
      rw [List.takeWhile_cons_of_neg hc, hb, List.cons_append, List.takeWhile_cons_of_neg hpb]
      rfl

theorem dropWhile_utf8Chars {p : UInt8 → Bool} {q : Char → Bool}
    (h : ∀ c, ∀ b ∈ String.utf8EncodeChar c, p b = q c) (cs : List Char) :
    (utf8Chars cs).dropWhile p = utf8Chars (cs.dropWhile q) := by
  have hsplit : (utf8Chars cs).takeWhile p ++ (utf8Chars cs).dropWhile p =
      utf8Chars (cs.takeWhile q) ++ utf8Chars (cs.dropWhile q) := by
    rw [List.takeWhile_append_dropWhile, ← utf8Chars_append, List.takeWhile_append_dropWhile]
  rw [takeWhile_utf8Chars h] at hsplit
  exact List.append_cancel_left hsplit

theorem utf8Chars_cons (c : Char) (cs : List Char) :
    utf8Chars (c :: cs) = String.utf8EncodeChar c ++ utf8Chars cs := rfl

end Interpolation.Text
