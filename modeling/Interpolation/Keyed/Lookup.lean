/-
  Looking up a key in a list of pairs: what is found after a pair was put in front, after the pairs
  with a key were taken out, and for which keys.
-/
namespace Interpolation

universe u

variable {κ : Type} [DecidableEq κ] {α : Type u}

theorem lookup_cons_ite (e : κ × α) (es : List (κ × α)) (k : κ) :
    (e :: es).lookup k = if k = e.1 then some e.2 else es.lookup k := by
  by_cases h : k = e.1
  · subst h
    rw [if_pos rfl, List.lookup_cons_self]
  · rw [if_neg h, List.lookup_cons, beq_false_of_ne h]

theorem lookup_filter_ne (es : List (κ × α)) (k k' : κ) :
    (es.filter (·.1 ≠ k)).lookup k' = if k' = k then none else es.lookup k' := by
  induction es with
  | nil =>
    rw [List.filter_nil, List.lookup_nil, ite_self]
  | cons e es ih =>
    by_cases he : e.1 = k
    · rw [List.filter_cons_of_neg (by simp [he]), ih, lookup_cons_ite, he]
      split <;> rfl
    · rw [List.filter_cons_of_pos (by simp [he]), lookup_cons_ite, lookup_cons_ite, ih]
      by_cases hk : k' = e.1
      · rw [if_pos hk, if_pos hk, if_neg fun h => he (hk.symm.trans h)]
      · rw [if_neg hk, if_neg hk]

theorem mem_map_fst_iff {es : List (κ × α)} {k : κ} :
    k ∈ es.map (·.1) ↔ (es.lookup k).isSome := by
  rw [List.lookup_isSome_iff]
  constructor
  · intro h
    obtain ⟨e, he, rfl⟩ := List.mem_map.1 h
    exact ⟨e, he, beq_self_eq_true e.1⟩
  · rintro ⟨e, he, hk⟩
    exact List.mem_map.2 ⟨e, he, (eq_of_beq hk).symm⟩

theorem lookup_eq_none {es : List (κ × α)} {k : κ} (h : k ∉ es.map (·.1)) :
    es.lookup k = none :=
  Option.not_isSome_iff_eq_none.1 fun hk => h (mem_map_fst_iff.2 hk)

end Interpolation
