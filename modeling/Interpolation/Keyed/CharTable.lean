/-
  Tables keyed by a character, in the order of code points. Adding an entry replaces the one with
  the same key.
-/
import Interpolation.Keyed.Lookup

namespace Interpolation

universe u

/-- The key of the first entry is below that of the second. -/
def KeyBelow {α : Type u} (p q : Char × α) : Prop := p.1 < q.1

/-- Entries with strictly ascending keys. -/
structure CharTable (α : Type u) where
  entries : List (Char × α) := []
  ascending : entries.Pairwise KeyBelow := by simp

namespace CharTable

variable {α : Type u}

def empty : CharTable α := {}

/-- An entry put into its place among ascending ones. -/
def place (k : Char) (v : α) : List (Char × α) → List (Char × α)
  | [] => [(k, v)]
  | (k', v') :: rest =>
    if k < k' then (k, v) :: (k', v') :: rest
    else if k = k' then (k, v) :: rest
    else (k', v') :: place k v rest

theorem mem_place {k : Char} {v : α} {p : Char × α} {es : List (Char × α)}
    (h : p ∈ place k v es) : p = (k, v) ∨ p ∈ es := by
  induction es with
  | nil => simpa [place] using h
  | cons e es ih =>
    simp only [place] at h
    split at h
    · simpa using h
    · split at h
      · rcases List.mem_cons.1 h with h | h
        · exact .inl h
        · exact .inr (List.mem_cons_of_mem _ h)
      · rcases List.mem_cons.1 h with h | h
        · exact .inr (h ▸ List.mem_cons_self)
        · exact (ih h).imp_right (List.mem_cons_of_mem _)

theorem ascending_place {k : Char} {v : α} {es : List (Char × α)}
    (h : es.Pairwise KeyBelow) : (place k v es).Pairwise KeyBelow := by
  induction es with
  | nil => simp [place]
  | cons e es ih =>
    obtain ⟨he, hes⟩ := List.pairwise_cons.1 h
    simp only [place]
    split
    · next hlt =>
      refine List.pairwise_cons.2 ⟨fun p hp => ?_, h⟩
      rcases List.mem_cons.1 hp with rfl | hp
      · exact hlt
      · exact Char.lt_trans hlt (he p hp)
    · next hge =>
      split
      · next heq =>
        subst heq
        exact List.pairwise_cons.2 ⟨fun p hp => he p hp, hes⟩
      · next hne =>
        refine List.pairwise_cons.2 ⟨fun p hp => ?_, ih hes⟩
        rcases mem_place hp with rfl | hp
        · show e.1 < k
          exact Char.not_le.1 fun hle => hne (Char.le_antisymm hle (Char.not_lt.1 hge))
        · exact he p hp

def find? (t : CharTable α) (k : Char) : Option α := t.entries.lookup k

def contains (t : CharTable α) (k : Char) : Bool := (t.find? k).isSome

def insert (t : CharTable α) (k : Char) (v : α) : CharTable α :=
  ⟨place k v t.entries, ascending_place t.ascending⟩

def erase (t : CharTable α) (k : Char) : CharTable α :=
  ⟨t.entries.filter (·.1 ≠ k), t.ascending.filter _⟩

theorem lookup_place (k : Char) (v : α) (k' : Char) (es : List (Char × α)) :
    (place k v es).lookup k' = if k' = k then some v else es.lookup k' := by
  induction es with
  | nil => exact lookup_cons_ite (k, v) [] k'
  | cons e es ih =>
    simp only [place]
    split
    · exact lookup_cons_ite (k, v) (e :: es) k'
    · simp only [lookup_cons_ite e]
      split
      · next heq =>
        rw [lookup_cons_ite, heq]
        split <;> rfl
      · next hne =>
        rw [lookup_cons_ite, ih]
        split
        · next h => rw [if_neg fun hk => hne (hk.symm.trans h)]
        · rfl

/-- An entry that was put into a table is found there, and the others are found as before. -/
theorem find?_insert (t : CharTable α) (k : Char) (v : α) (k' : Char) :
    (t.insert k v).find? k' = if k' = k then some v else t.find? k' :=
  lookup_place k v k' t.entries

theorem find?_erase (t : CharTable α) (k k' : Char) :
    (t.erase k).find? k' = if k' = k then none else t.find? k' :=
  lookup_filter_ne t.entries k k'

/-- The keys, in ascending order. -/
def keys (t : CharTable α) : List Char := t.entries.map (·.1)

theorem mem_keys_iff {t : CharTable α} {k : Char} : k ∈ t.keys ↔ (t.find? k).isSome :=
  mem_map_fst_iff

theorem keys_ascending (t : CharTable α) : t.keys.Pairwise (· < ·) :=
  List.pairwise_map.2 t.ascending

end CharTable

end Interpolation
