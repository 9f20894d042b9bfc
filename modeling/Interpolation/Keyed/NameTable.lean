/-
  Tables keyed by a name, in the order in which the names came. Replacing an entry keeps its
  place; an entry that was erased and comes again goes to the end.
-/
import Interpolation.Keyed.Lookup

namespace Interpolation

universe u

/-- Entries with distinct names. -/
structure NameTable (α : Type u) where
  entries : List (String × α) := []
  distinct : (entries.map (·.1)).Nodup := by simp

namespace NameTable

variable {α : Type u}

def empty : NameTable α := {}

/-- An entry in the place of the one with its name, or at the end. -/
def put (k : String) (v : α) : List (String × α) → List (String × α)
  | [] => [(k, v)]
  | (k', v') :: rest => if k' = k then (k, v) :: rest else (k', v') :: put k v rest

theorem map_put (k : String) (v : α) (es : List (String × α)) :
    (put k v es).map (·.1) =
      if k ∈ es.map (·.1) then es.map (·.1) else es.map (·.1) ++ [k] := by
  induction es with
  | nil => rfl
  | cons e es ih =>
    by_cases h : e.1 = k
    · simp [put, h]
    · have h' : k ≠ e.1 := fun h' => h h'.symm
      simp only [put, if_neg h, List.map_cons, ih, List.mem_cons, h', false_or]
      split <;> simp

theorem lookup_put (k : String) (v : α) (k' : String) (es : List (String × α)) :
    (put k v es).lookup k' = if k' = k then some v else es.lookup k' := by
  induction es with
  | nil => exact lookup_cons_ite (k, v) [] k'
  | cons e es ih =>
    simp only [put]
    split
    · next he =>
      rw [lookup_cons_ite, lookup_cons_ite, he]
      split <;> rfl
    · next he =>
      rw [lookup_cons_ite, lookup_cons_ite, ih]
      by_cases hk : k' = e.1
      · rw [if_pos hk, if_pos hk, if_neg fun h => he (hk.symm.trans h)]
      · rw [if_neg hk, if_neg hk]

theorem distinct_put {k : String} {v : α} {es : List (String × α)}
    (h : (es.map (·.1)).Nodup) : ((put k v es).map (·.1)).Nodup := by
  rw [map_put]
  split
  · exact h
  · next hk =>
    refine List.nodup_append.2 ⟨h, by simp, fun a ha b hb => ?_⟩
    rintro rfl
    exact hk (List.mem_singleton.1 hb ▸ ha)

def find? (t : NameTable α) (k : String) : Option α := t.entries.lookup k

def contains (t : NameTable α) (k : String) : Bool := (t.find? k).isSome

def insert (t : NameTable α) (k : String) (v : α) : NameTable α :=
  ⟨put k v t.entries, distinct_put t.distinct⟩

def erase (t : NameTable α) (k : String) : NameTable α :=
  ⟨t.entries.filter (·.1 ≠ k), t.distinct.sublist ((List.filter_sublist).map _)⟩

/-- The names, in their order. -/
def names (t : NameTable α) : List String := t.entries.map (·.1)

theorem mem_names_iff {t : NameTable α} {k : String} : k ∈ t.names ↔ (t.find? k).isSome :=
  mem_map_fst_iff

/-- An entry that was put into a table is found there, and the others are found as before. -/
theorem find?_insert (t : NameTable α) (k : String) (v : α) (k' : String) :
    (t.insert k v).find? k' = if k' = k then some v else t.find? k' :=
  lookup_put k v k' t.entries

theorem find?_erase (t : NameTable α) (k k' : String) :
    (t.erase k).find? k' = if k' = k then none else t.find? k' :=
  lookup_filter_ne t.entries k k'

/-- A new name comes last, a name that is there already keeps its place. -/
theorem names_insert (t : NameTable α) (k : String) (v : α) :
    (t.insert k v).names = if k ∈ t.names then t.names else t.names ++ [k] :=
  map_put k v t.entries

example : (((empty.insert "B" 0).insert "A" 0).insert "B" 1).names = ["B", "A"] := by decide

/-- The other names keep their order. -/
theorem names_erase (t : NameTable α) (k : String) :
    (t.erase k).names = t.names.filter (· ≠ k) := by
  unfold names
  rw [List.filter_map]
  rfl

example : ((((empty.insert "B" 0).insert "A" 0).erase "B").insert "B" 1).names = ["A", "B"] := by
  decide

def size (t : NameTable α) : Nat := t.entries.length

/-- The table of some entries; of two with one name the later counts, in the earlier's place. -/
def ofList (es : List (String × α)) : NameTable α :=
  es.foldl (fun t e => t.insert e.1 e.2) empty

end NameTable

end Interpolation
