import Mathlib

/-!
# A table with a list of its keys

A map that is kept as a list of entries, beside a list that names its keys in an order of its
own. New keys go to either end of that list, and removals touch both.
-/

namespace Roster

variable {κ ν : Type*} [DecidableEq κ]

def find (table : List (κ × ν)) (key : κ) : Option ν :=
  (table.find? fun entry => entry.1 = key).map Prod.snd

def remove (table : List (κ × ν)) (key : κ) : List (κ × ν) :=
  table.filter fun entry => entry.1 ≠ key

def put (table : List (κ × ν)) (key : κ) (value : ν) : List (κ × ν) :=
  remove table key ++ [(key, value)]

variable {table : List (κ × ν)} {names : List κ} {key k : κ} {value : ν}

-- The map

theorem find_cons (entry : κ × ν) (table : List (κ × ν)) (key : κ) :
    find (entry :: table) key = if entry.1 = key then some entry.2 else find table key := by
  unfold find
  rw [List.find?_cons]
  by_cases h : entry.1 = key
  · simp [h]
  · simp [h]

theorem find_remove (table : List (κ × ν)) (key k : κ) :
    find (remove table key) k = if k = key then none else find table k := by
  induction table with
  | nil => simp [remove, find]
  | cons entry table ih =>
    unfold remove at ih ⊢
    rw [List.filter_cons]
    by_cases h : entry.1 = key
    · rw [if_neg (by simp [h]), ih, find_cons]
      by_cases hk : k = key
      · rw [if_pos hk, if_pos hk]
      · rw [if_neg hk, if_neg hk, if_neg fun heq => hk (heq.symm.trans h)]
    · rw [if_pos (by simp [h]), find_cons, find_cons, ih]
      by_cases hk : entry.1 = k
      · rw [if_pos hk, if_pos hk, if_neg fun heq => h (hk.trans heq)]
      · rw [if_neg hk, if_neg hk]

theorem find_append (table rest : List (κ × ν)) (k : κ) :
    find (table ++ rest) k = (find table k).or (find rest k) := by
  induction table with
  | nil => rfl
  | cons entry table ih =>
    rw [List.cons_append, find_cons, find_cons, ih]
    split
    · rfl
    · rfl

theorem find_put (table : List (κ × ν)) (key : κ) (value : ν) (k : κ) :
    find (put table key value) k = if k = key then some value else find table k := by
  unfold put
  rw [find_append, find_remove, find_cons]
  by_cases hk : k = key
  · rw [if_pos hk, if_pos hk.symm, if_pos hk]
    rfl
  · rw [if_neg hk, if_neg fun h => hk h.symm, if_neg hk]
    exact Option.or_none

theorem mem_of_find (h : find table k = some value) : (k, value) ∈ table := by
  unfold find at h
  obtain ⟨entry, hentry, rfl⟩ := Option.map_eq_some_iff.mp h
  have hkey := List.find?_some hentry
  rw [decide_eq_true_iff] at hkey
  exact hkey ▸ List.mem_of_find?_eq_some hentry

theorem find_isSome : (find table k).isSome = true ↔ k ∈ table.map Prod.fst := by
  induction table with
  | nil => simp [find]
  | cons entry table ih =>
    rw [find_cons, List.map_cons, List.mem_cons, ← ih]
    by_cases h : entry.1 = k
    · rw [if_pos h]
      exact iff_of_true rfl (.inl h.symm)
    · rw [if_neg h]
      exact ⟨.inr, fun hor => hor.resolve_left fun heq => h heq.symm⟩

/-- Where no key stands twice, an entry is what the map has for its key. -/
theorem find_of_mem (hnodup : (table.map Prod.fst).Nodup) (h : (k, value) ∈ table) :
    find table k = some value := by
  induction table with
  | nil => cases h
  | cons entry table ih =>
    rw [List.map_cons, List.nodup_cons] at hnodup
    rw [find_cons]
    rcases List.mem_cons.mp h with rfl | h
    · exact if_pos rfl
    · have hne : entry.1 ≠ k := fun heq =>
        hnodup.1 (heq ▸ List.mem_map_of_mem (f := Prod.fst) h)
      rw [if_neg hne]
      exact ih hnodup.2 h

-- The list of the keys

structure Lists (names : List κ) (table : List (κ × ν)) : Prop where
  nodup : names.Nodup
  distinct : (table.map Prod.fst).Nodup
  mem_iff : ∀ key, key ∈ names ↔ (find table key).isSome = true

theorem Lists.nil : Lists ([] : List κ) ([] : List (κ × ν)) :=
  ⟨List.nodup_nil, List.nodup_nil, fun key => by simp [find]⟩

theorem distinct_remove (h : (table.map Prod.fst).Nodup) (key : κ) :
    ((remove table key).map Prod.fst).Nodup :=
  h.sublist (List.filter_sublist.map Prod.fst)

theorem distinct_put (h : (table.map Prod.fst).Nodup) (key : κ) (value : ν) :
    ((put table key value).map Prod.fst).Nodup := by
  unfold put
  rw [List.map_append, List.nodup_append]
  refine ⟨distinct_remove h key, List.nodup_singleton _, ?_⟩
  intro a ha b hb
  rw [List.map_singleton, List.mem_singleton] at hb
  rw [← find_isSome, find_remove] at ha
  rintro rfl
  rw [if_pos hb] at ha
  cases ha

/-- A new key, at whichever place of the list. -/
theorem Lists.put {front back : List κ} (h : Lists (front ++ back) table)
    (hnew : find table key = none) (value : ν) :
    Lists (front ++ key :: back) (put table key value) := by
  have hnot : key ∉ front ++ back := fun hmem => by
    have hsome := (h.mem_iff key).mp hmem
    rw [hnew] at hsome
    cases hsome
  refine ⟨List.nodup_middle.mpr (List.nodup_cons.mpr ⟨hnot, h.nodup⟩),
    distinct_put h.distinct key value, fun k => ?_⟩
  rw [List.perm_middle.mem_iff, List.mem_cons, h.mem_iff, find_put]
  by_cases hk : k = key
  · rw [if_pos hk]
    exact iff_of_true (.inl hk) rfl
  · rw [if_neg hk]
    exact ⟨fun hor => hor.resolve_left hk, .inr⟩

theorem Lists.remove (h : Lists names table) (key : κ) :
    Lists (names.filter fun k => k ≠ key) (remove table key) := by
  refine ⟨h.nodup.filter _, distinct_remove h.distinct key, fun k => ?_⟩
  rw [List.mem_filter, h.mem_iff, find_remove, decide_eq_true_iff]
  by_cases hk : k = key
  · rw [if_pos hk]
    exact iff_of_false (fun hand => hand.2 hk) nofun
  · rw [if_neg hk]
    exact and_iff_left hk

end Roster
