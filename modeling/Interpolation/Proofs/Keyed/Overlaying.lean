/-
  Tables laid over one another. All entries of a table are put into another: what the one has is
  found afterwards, whatever the other had under the name, and the rest is found as before
  (`NameTable.find?_putAll`). New names come last, in the order of their table
  (`NameTable.names_putAll`), so that doing it again changes nothing (`NameTable.putAll_putAll`).
-/
import Interpolation.Keyed.CharTable
import Interpolation.Keyed.NameTable

namespace Interpolation

universe u

namespace NameTable

/-! ## Entries of another type -/

section
variable {α β : Type}

/-- For each entry another under the same name. -/
def mapEntries (f : String → α → β) (t : NameTable α) : NameTable β :=
  ⟨t.entries.map fun e => (e.1, f e.1 e.2), by rw [List.map_map]; exact t.distinct⟩

theorem find?_mapEntries (f : String → α → β) (t : NameTable α) (k : String) :
    (t.mapEntries f).find? k = (t.find? k).map (f k) := by
  show List.lookup k (t.entries.map _) = (t.entries.lookup k).map (f k)
  induction t.entries with
  | nil => rfl
  | cons e es ih =>
    rw [List.map_cons, lookup_cons_ite, lookup_cons_ite, ih]
    split
    · next h => rw [h, Option.map_some]
    · rfl

theorem names_mapEntries (f : String → α → β) (t : NameTable α) :
    (t.mapEntries f).names = t.names := by
  unfold names mapEntries
  rw [List.map_map]
  rfl

end

variable {α : Type u}

/-! ## Tables as what is found in them -/

theorem entries_ext {es es' : List (String × α)} (hdistinct : (es.map (·.1)).Nodup)
    (hnames : es.map (·.1) = es'.map (·.1)) (hfind : ∀ k, es.lookup k = es'.lookup k) :
    es = es' := by
  induction es generalizing es' with
  | nil => exact (List.map_eq_nil_iff.1 hnames.symm).symm
  | cons e es ih =>
    cases es' with
    | nil => cases hnames
    | cons e' es' =>
      obtain ⟨hname, hrest⟩ := List.cons.inj hnames
      obtain ⟨hfresh, hdistinct⟩ := List.nodup_cons.1 hdistinct
      have hvalue := hfind e.1
      rw [lookup_cons_ite, lookup_cons_ite, if_pos rfl, if_pos hname] at hvalue
      have hhead : e = e' := Prod.ext hname (Option.some.inj hvalue)
      subst hhead
      refine congrArg (e :: ·) (ih hdistinct hrest fun k => ?_)
      by_cases hk : k = e.1
      · rw [hk, lookup_eq_none hfresh, lookup_eq_none (hrest ▸ hfresh)]
      · have := hfind k
        rwa [lookup_cons_ite, lookup_cons_ite, if_neg hk, if_neg hk] at this

/-- Two tables are equal if they have the same names in the same order, and the same under each. -/
theorem ext_find? {t t' : NameTable α} (hnames : t.names = t'.names)
    (hfind : ∀ k, t.find? k = t'.find? k) : t = t' := by
  cases t
  cases t'
  congr 1
  exact entries_ext ‹_› hnames hfind

/-! ## Putting all entries of a table -/

/-- The table with all entries of another, in the order in which they stand there. -/
def putAll (t u : NameTable α) : NameTable α := u.entries.foldl (fun t e => t.insert e.1 e.2) t

theorem find?_foldl_insert {es : List (String × α)} (h : (es.map (·.1)).Nodup)
    (t : NameTable α) (k : String) :
    (es.foldl (fun t e => t.insert e.1 e.2) t).find? k = (es.lookup k).or (t.find? k) := by
  induction es generalizing t with
  | nil => rfl
  | cons e es ih =>
    obtain ⟨hfresh, hes⟩ := List.nodup_cons.1 h
    rw [List.foldl_cons, ih hes, find?_insert, lookup_cons_ite]
    by_cases hk : k = e.1
    · rw [if_pos hk, if_pos hk, hk, lookup_eq_none hfresh]
      rfl
    · rw [if_neg hk, if_neg hk]

theorem names_foldl_insert {es : List (String × α)} (h : (es.map (·.1)).Nodup)
    (t : NameTable α) :
    (es.foldl (fun t e => t.insert e.1 e.2) t).names =
      t.names ++ (es.map (·.1)).filter (· ∉ t.names) := by
  induction es generalizing t with
  | nil => exact (List.append_nil _).symm
  | cons e es ih =>
    obtain ⟨hfresh, hes⟩ := List.nodup_cons.1 h
    rw [List.foldl_cons, ih hes, names_insert, List.map_cons]
    by_cases he : e.1 ∈ t.names
    · rw [if_pos he, List.filter_cons_of_neg (by simpa using he)]
    · -- the names behind the first one are others, so that they are as new as before
      have hsame : (es.map (·.1)).filter (· ∉ t.names ++ [e.1]) =
          (es.map (·.1)).filter (· ∉ t.names) := by
        refine List.filter_congr fun k hk => ?_
        have hne : k ≠ e.1 := by
          rintro rfl
          exact hfresh hk
        simp [hne]
      rw [if_neg he, List.filter_cons_of_pos (by simpa using he), hsame, List.append_assoc]
      rfl

theorem find?_putAll (t u : NameTable α) (k : String) :
    (t.putAll u).find? k = (u.find? k).or (t.find? k) :=
  find?_foldl_insert u.distinct t k

theorem names_putAll (t u : NameTable α) :
    (t.putAll u).names = t.names ++ u.names.filter (· ∉ t.names) :=
  names_foldl_insert u.distinct t

theorem putAll_putAll (t u : NameTable α) : (t.putAll u).putAll u = t.putAll u := by
  refine ext_find? ?_ fun k => ?_
  · rw [names_putAll (t.putAll u)]
    refine List.append_right_eq_self.2 (List.filter_eq_nil_iff.2 fun k hk => ?_)
    have hmem : k ∈ (t.putAll u).names := by
      rw [mem_names_iff, find?_putAll, Option.isSome_or, mem_names_iff.1 hk]
      rfl
    simpa using hmem
  · rw [find?_putAll, find?_putAll, ← Option.or_assoc, Option.or_self]

end NameTable

namespace CharTable

variable {α : Type u}

theorem place_place (k : Char) (v : α) (es : List (Char × α)) :
    place k v (place k v es) = place k v es := by
  induction es with
  | nil => simp [place]
  | cons e es ih =>
    by_cases hlt : k < e.1
    · simp [place, hlt]
    · by_cases heq : k = e.1
      · simp [place, heq]
      · simp [place, hlt, heq, ih]

theorem insert_insert (t : CharTable α) (k : Char) (v : α) :
    (t.insert k v).insert k v = t.insert k v := by
  unfold insert
  congr 1
  exact place_place k v t.entries

end CharTable

end Interpolation
