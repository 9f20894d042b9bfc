/-
  What a table holds after any registrations. A key is present if the last change that concerns it
  put a value under it (`Holds`), and it arrived at the moment since which it has been present
  (`Arrives`). After any changes a table has exactly the keys that are present, and finds under
  each the value that was put there last (`NameTable.records_after`, `CharTable.records_after`);
  names stand in the order in which they arrived, characters in that of code points.
-/
import Interpolation.Keyed.CharTable
import Interpolation.Keyed.NameTable
import Mathlib.Data.List.Induction

namespace Interpolation

universe u

/-- A change to a table. Putting replaces what was under the key. -/
inductive Registration (κ : Type) (α : Type u) where
  | put (key : κ) (value : α)
  | drop (key : κ)
  | clear

namespace Registration

variable {κ : Type} {α : Type u}

/-- The change decides what is under a key after it. -/
def Concerns (k : κ) : Registration κ α → Prop
  | put key _ => key = k
  | drop key => key = k
  | clear => True

/-- The last change that concerns the key puts the value under it. -/
def Holds (events : List (Registration κ α)) (k : κ) (v : α) : Prop :=
  ∃ before after, events = before ++ put k v :: after ∧ ∀ e ∈ after, ¬ e.Concerns k

/-- The last change that concerns the key puts a value under it. -/
def Present (events : List (Registration κ α)) (k : κ) : Prop := ∃ v, Holds events k v

/-- With the change at an index, the key is no longer absent, and it has been present since. -/
structure Arrives (events : List (Registration κ α)) (i : Nat) (k : κ) : Prop where
  lt : i < events.length
  absent : ¬ Present (events.take i) k
  since : ∀ j, i < j → j ≤ events.length → Present (events.take j) k

/-- What is under a key after a change, by what was there before. -/
def seen [DecidableEq κ] (k : κ) (found : Option α) : Registration κ α → Option α
  | put key value => if k = key then some value else found
  | drop key => if k = key then none else found
  | clear => none

/-! ## The last change to a key -/

section
variable {events : List (Registration κ α)} {e : Registration κ α} {k : κ} {v : α} {i j : Nat}

theorem not_holds_nil : ¬ Holds ([] : List (Registration κ α)) k v := by
  rintro ⟨before, after, h, -⟩
  exact List.append_ne_nil_of_right_ne_nil before (List.cons_ne_nil _ after) h.symm

theorem holds_concat :
    Holds (events ++ [e]) k v ↔ e = put k v ∨ ¬ e.Concerns k ∧ Holds events k v := by
  constructor
  · rintro ⟨before, after, hsplit, hafter⟩
    rcases List.eq_nil_or_concat after with rfl | ⟨after, last, rfl⟩
    · exact .inl (List.singleton_inj.1 (List.append_inj_right' hsplit rfl))
    · rw [List.concat_eq_append] at hsplit hafter
      have hsplit' : events ++ [e] = (before ++ put k v :: after) ++ [last] := by
        rw [hsplit, List.append_assoc]
        rfl
      obtain ⟨rfl, hlast⟩ := List.append_inj' hsplit' rfl
      obtain rfl := List.singleton_inj.1 hlast
      refine .inr ⟨?_, before, after, rfl, fun d hd => hafter d (List.mem_append_left _ hd)⟩
      exact hafter e (List.mem_append_right _ (List.mem_singleton_self e))
  · rintro (rfl | ⟨he, before, after, rfl, hafter⟩)
    · exact ⟨events, [], rfl, List.forall_mem_nil _⟩
    · refine ⟨before, after ++ [e], by rw [List.append_assoc]; rfl, ?_⟩
      intro d hd
      rcases List.mem_append.1 hd with hd | hd
      · exact hafter d hd
      · exact List.mem_singleton.1 hd ▸ he

theorem seen_eq_some_iff [DecidableEq κ] {found : Option α} :
    e.seen k found = some v ↔ e = put k v ∨ ¬ e.Concerns k ∧ found = some v := by
  cases e with
  | put key value =>
    by_cases hk : k = key
    · subst hk
      simp [seen, Concerns]
    · have hk' : ¬ key = k := fun h => hk h.symm
      simp [seen, Concerns, hk, hk']
  | drop key =>
    by_cases hk : k = key
    · subst hk
      simp [seen, Concerns]
    · have hk' : ¬ key = k := fun h => hk h.symm
      simp [seen, Concerns, hk, hk']
  | clear => simp [seen, Concerns]

/-- Any table whose changes are seen as they should be finds what was put last. -/
theorem find_foldl_iff [DecidableEq κ] {τ : Type u} {find : τ → κ → Option α}
    {change : τ → Registration κ α → τ} {start : τ} (hstart : ∀ k, find start k = none)
    (hchange : ∀ t e k, find (change t e) k = e.seen k (find t k))
    (events : List (Registration κ α)) (k : κ) (v : α) :
    find (events.foldl change start) k = some v ↔ Holds events k v := by
  induction events using List.reverseRecOn with
  | nil =>
    rw [List.foldl_nil, hstart]
    exact ⟨nofun, fun h => absurd h not_holds_nil⟩
  | append_singleton events e ih =>
    rw [List.foldl_append, List.foldl_cons, List.foldl_nil, hchange, seen_eq_some_iff, ih,
      holds_concat]

/-- Under a key that is absent nothing is found. -/
theorem eq_none_of_not_present {found : Option α} (h : ∀ v, found = some v ↔ Holds events k v)
    (hk : ¬ Present events k) : found = none :=
  Option.eq_none_iff_forall_ne_some.2 fun v hv => hk ⟨v, (h v).1 hv⟩

/-! ## Arriving -/

/-- A key that stays present arrived when it did before. -/
theorem Arrives.concat (h : Arrives events i k) (hp : Present (events ++ [e]) k) :
    Arrives (events ++ [e]) i k := by
  have hlen : (events ++ [e]).length = events.length + 1 := List.length_append
  refine ⟨?_, ?_, fun j hij hj => ?_⟩
  · exact hlen ▸ Nat.lt_succ_of_lt h.lt
  · rw [List.take_append_of_le_length (Nat.le_of_lt h.lt)]
    exact h.absent
  · rcases Nat.lt_or_ge events.length j with hlt | hle
    · rw [List.take_of_length_le (by omega)]
      exact hp
    · rw [List.take_append_of_le_length hle]
      exact h.since j hij hle

/-- A key that the last change made present has just arrived. -/
theorem arrives_last (ha : ¬ Present events k) (hp : Present (events ++ [e]) k) :
    Arrives (events ++ [e]) events.length k := by
  have hlen : (events ++ [e]).length = events.length + 1 := List.length_append
  refine ⟨by omega, ?_, fun j hij hj => ?_⟩
  · rw [List.take_left]
    exact ha
  · rw [List.take_of_length_le (by omega)]
    exact hp

theorem exists_arrives (h : Present events k) : ∃ i, Arrives events i k := by
  induction events using List.reverseRecOn with
  | nil =>
    obtain ⟨v, hv⟩ := h
    exact absurd hv not_holds_nil
  | append_singleton events e ih =>
    by_cases hp : Present events k
    · obtain ⟨i, hi⟩ := ih hp
      exact ⟨i, hi.concat h⟩
    · exact ⟨events.length, arrives_last hp h⟩

theorem Arrives.unique (hi : Arrives events i k) (hj : Arrives events j k) : i = j := by
  rcases Nat.lt_trichotomy i j with hlt | heq | hgt
  · exact absurd (hi.since j hlt (Nat.le_of_lt hj.lt)) hj.absent
  · exact heq
  · exact absurd (hj.since i hgt (Nat.le_of_lt hi.lt)) hi.absent

end

end Registration

open Registration

/-! ## Tables of names -/

namespace NameTable

variable {α : Type u}

def change (t : NameTable α) : Registration String α → NameTable α
  | .put k v => t.insert k v
  | .drop k => t.erase k
  | .clear => empty

/-- The table after some changes, from the first to the last. -/
def after (events : List (Registration String α)) : NameTable α := events.foldl change empty

/-- The table holds what the changes say: no name twice, exactly the names that are present, in the
order in which they arrived, and with each of them what was put there last. -/
structure Records (t : NameTable α) (events : List (Registration String α)) : Prop where
  distinct : t.names.Nodup
  mem_iff : ∀ k, k ∈ t.names ↔ Present events k
  order : t.names.Pairwise fun a b =>
    ∀ i j, Arrives events i a → Arrives events j b → i < j
  find_iff : ∀ k v, t.find? k = some v ↔ Holds events k v

theorem find?_change (t : NameTable α) (e : Registration String α) (k : String) :
    (t.change e).find? k = e.seen k (t.find? k) := by
  cases e with
  | put key v => exact find?_insert t key v k
  | drop key => exact find?_erase t key k
  | clear => rfl

/-- A change adds at most the name that it puts, at the end. -/
theorem names_change (t : NameTable α) (e : Registration String α) :
    (t.change e).names.Sublist t.names ∨
      ∃ k v, e = .put k v ∧ k ∉ t.names ∧ (t.change e).names = t.names ++ [k] := by
  cases e with
  | put k v =>
    show (t.insert k v).names.Sublist t.names ∨ _
    by_cases hk : k ∈ t.names
    · rw [names_insert, if_pos hk]
      exact .inl (List.Sublist.refl _)
    · exact .inr ⟨k, v, rfl, hk, (names_insert t k v).trans (if_neg hk)⟩
  | drop k =>
    show (t.erase k).names.Sublist t.names ∨ _
    rw [names_erase]
    exact .inl List.filter_sublist
  | clear => exact .inl (List.nil_sublist _)

variable (events : List (Registration String α))

theorem find?_after_iff (k : String) (v : α) :
    (after events).find? k = some v ↔ Holds events k v :=
  find_foldl_iff (fun _ => rfl) find?_change events k v

theorem mem_names_after (k : String) : k ∈ (after events).names ↔ Present events k := by
  rw [mem_names_iff, Option.isSome_iff_exists]
  exact exists_congr (find?_after_iff events k)

theorem after_concat (e : Registration String α) :
    after (events ++ [e]) = (after events).change e := by
  unfold after
  rw [List.foldl_append]
  rfl

/-- The names stand in the order in which they arrived. -/
theorem names_after_arrive : (after events).names.Pairwise fun a b =>
    ∃ i j, Arrives events i a ∧ Arrives events j b ∧ i < j := by
  induction events using List.reverseRecOn with
  | nil => exact List.Pairwise.nil
  | append_singleton events e ih =>
    have hpresent : ∀ k ∈ (after (events ++ [e])).names, Present (events ++ [e]) k :=
      fun k hk => (mem_names_after _ k).1 hk
    have hkept : ∀ {l : List String}, l.Sublist (after events).names →
        (∀ k ∈ l, Present (events ++ [e]) k) → l.Pairwise fun a b =>
          ∃ i j, Arrives (events ++ [e]) i a ∧ Arrives (events ++ [e]) j b ∧ i < j := by
      intro l hl hp
      refine (ih.sublist hl).imp_of_mem fun ha hb => ?_
      rintro ⟨i, j, hi, hj, hij⟩
      exact ⟨i, j, hi.concat (hp _ ha), hj.concat (hp _ hb), hij⟩
    rw [after_concat] at hpresent ⊢
    rcases names_change (after events) e with hsub | ⟨k, v, rfl, hk, hnames⟩
    · exact hkept hsub hpresent
    · rw [hnames] at hpresent ⊢
      refine List.pairwise_append.2 ⟨hkept (List.Sublist.refl _) fun a ha =>
        hpresent a (List.mem_append_left _ ha), List.pairwise_singleton _ k, ?_⟩
      intro a ha b hb
      obtain rfl := List.mem_singleton.1 hb
      obtain ⟨i, hi⟩ := exists_arrives ((mem_names_after events a).1 ha)
      have hb' : ¬ Present events b := fun h => hk ((mem_names_after events b).2 h)
      exact ⟨i, events.length, hi.concat (hpresent a (List.mem_append_left _ ha)),
        arrives_last hb' (hpresent b (List.mem_append_right _ hb)), hi.lt⟩

theorem records_after : (after events).Records events where
  distinct := (after events).distinct
  mem_iff := mem_names_after events
  order := (names_after_arrive events).imp fun h i j hi hj => by
    obtain ⟨i', j', hi', hj', hlt⟩ := h
    rw [hi.unique hi', hj.unique hj']
    exact hlt
  find_iff := find?_after_iff events

end NameTable

/-! ## Tables of characters -/

namespace CharTable

variable {α : Type u}

def change (t : CharTable α) : Registration Char α → CharTable α
  | .put k v => t.insert k v
  | .drop k => t.erase k
  | .clear => empty

/-- The table after some changes, from the first to the last. -/
def after (events : List (Registration Char α)) : CharTable α := events.foldl change empty

/-- The table holds what the changes say: exactly the keys that are present, in ascending order,
and with each of them what was put there last. -/
structure Records (t : CharTable α) (events : List (Registration Char α)) : Prop where
  ascending : t.keys.Pairwise (· < ·)
  mem_iff : ∀ k, k ∈ t.keys ↔ Present events k
  find_iff : ∀ k v, t.find? k = some v ↔ Holds events k v

theorem find?_change (t : CharTable α) (e : Registration Char α) (k : Char) :
    (t.change e).find? k = e.seen k (t.find? k) := by
  cases e with
  | put key v => exact find?_insert t key v k
  | drop key => exact find?_erase t key k
  | clear => rfl

theorem find?_after_iff (events : List (Registration Char α)) (k : Char) (v : α) :
    (after events).find? k = some v ↔ Holds events k v :=
  find_foldl_iff (fun _ => rfl) find?_change events k v

theorem records_after (events : List (Registration Char α)) : (after events).Records events where
  ascending := (after events).keys_ascending
  mem_iff k := by
    rw [mem_keys_iff, Option.isSome_iff_exists]
    exact exists_congr (find?_after_iff events k)
  find_iff := find?_after_iff events

end CharTable

end Interpolation
