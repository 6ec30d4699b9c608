import Mathlib

/-!
# Sizes, counts and sums of an ordered map

Facts about `Std.ExtTreeMap` that a program proof needs when it erases many
keys, updates many values, counts the entries with a property, or keeps the
sum of a measure.
-/

namespace TreeMap

open Std (ExtTreeMap TransCmp LawfulEqCmp)

variable {α β : Type*} {cmp : α → α → Ordering} [TransCmp cmp] [LawfulEqCmp cmp]

/-! ## Erasing and updating -/

omit [LawfulEqCmp cmp] in
theorem size_erase_of_mem {m : ExtTreeMap α β cmp} {k : α} (hk : k ∈ m) :
    (m.erase k).size + 1 = m.size := by
  have hpos : m.size ≠ 0 := fun hzero => by
    rw [← ExtTreeMap.eq_empty_iff_size_eq_zero] at hzero
    exact ExtTreeMap.not_mem_empty (hzero ▸ hk)
  rw [ExtTreeMap.size_erase, if_pos (ExtTreeMap.mem_iff_contains.mp hk)]
  omega

theorem erase_of_not_mem {m : ExtTreeMap α β cmp} {k : α} (hk : k ∉ m) : m.erase k = m := by
  refine ExtTreeMap.ext_getElem? fun a => ?_
  rw [ExtTreeMap.getElem?_erase]
  split
  next ha => rw [← LawfulEqCmp.eq_of_compare ha, ExtTreeMap.getElem?_eq_none hk]
  next => rfl

section Entries

variable {γ : Type*}

omit [LawfulEqCmp cmp] in
/-- A loop whose rounds change the entry of their own key only. -/
theorem getElem?_foldl_entries {step : ExtTreeMap α γ cmp → α × β → ExtTreeMap α γ cmp}
    {f : α → β → Option γ → Option γ}
    (hsame : ∀ m e, (step m e)[e.1]? = f e.1 e.2 m[e.1]?)
    (hother : ∀ m e k, e.1 ≠ k → (step m e)[k]? = m[k]?) {es : List (α × β)}
    (hkeys : es.Pairwise fun a b => a.1 ≠ b.1) (m₀ : ExtTreeMap α γ cmp) (k : α) :
    (∀ v, (k, v) ∈ es → (es.foldl step m₀)[k]? = f k v m₀[k]?) ∧
      ((∀ v, (k, v) ∉ es) → (es.foldl step m₀)[k]? = m₀[k]?) := by
  induction es generalizing m₀ with
  | nil => simp
  | cons e es ih =>
    obtain ⟨hhead, htail⟩ := List.pairwise_cons.mp hkeys
    obtain ⟨hmem, hnot⟩ := ih htail (step m₀ e)
    rw [List.foldl_cons]
    constructor
    · intro v hv
      rcases List.mem_cons.mp hv with rfl | hv
      · rw [hnot fun w hw => hhead (k, w) hw rfl, hsame]
      · rw [hmem v hv, hother m₀ e k fun heq => hhead (k, v) hv heq]
    · intro hv
      have hne : e.1 ≠ k := fun heq => hv e.2 (heq ▸ List.mem_cons_self)
      rw [hnot fun w hw => hv w (List.mem_cons_of_mem e hw), hother m₀ e k hne]

theorem getElem?_foldl_toList {step : ExtTreeMap α γ cmp → α × β → ExtTreeMap α γ cmp}
    {f : α → β → Option γ → Option γ}
    (hsame : ∀ m e, (step m e)[e.1]? = f e.1 e.2 m[e.1]?)
    (hother : ∀ m e k, e.1 ≠ k → (step m e)[k]? = m[k]?) (m : ExtTreeMap α β cmp)
    (m₀ : ExtTreeMap α γ cmp) (k : α) :
    (m.toList.foldl step m₀)[k]? = m[k]?.elim m₀[k]? fun v => f k v m₀[k]? := by
  have hkeys : m.toList.Pairwise fun a b => a.1 ≠ b.1 :=
    ExtTreeMap.distinct_keys_toList.imp fun hne heq => hne (LawfulEqCmp.compare_eq_iff_eq.mpr heq)
  obtain ⟨hmem, hnot⟩ := getElem?_foldl_entries hsame hother hkeys m₀ k
  cases hk : m[k]? with
  | some v => exact hmem v (ExtTreeMap.mem_toList_iff_getElem?_eq_some.mpr hk)
  | none =>
    refine hnot fun v hv => ?_
    rw [ExtTreeMap.mem_toList_iff_getElem?_eq_some.mp hv] at hk
    cases hk

/-- A loop that fails by a test of its elements alone. -/
theorem foldlM_guard {δ ε : Type*} (test : ε → Bool) (step : δ → ε → δ) (d : δ) (es : List ε) :
    es.foldlM (fun d e => if test e then some (step d e) else none) d =
      if es.all test then some (es.foldl step d) else none := by
  induction es generalizing d with
  | nil => rfl
  | cons e es ih =>
    cases htest : test e with
    | false => simp [htest]
    | true => simp [htest, ih]

end Entries

section Lists

variable [DecidableEq α]

omit [LawfulEqCmp cmp] [DecidableEq α] in
theorem foldl_insert_eq (m : ExtTreeMap α β cmp) (es : List (α × β)) :
    es.foldl (fun m e => m.insert e.1 e.2) m = m.insertMany es := by
  induction es generalizing m with
  | nil => exact ExtTreeMap.insertMany_nil.symm
  | cons e es ih => rw [List.foldl_cons, ih, ExtTreeMap.insertMany_cons]

theorem foldl_insert_toList (m : ExtTreeMap α β cmp) :
    m.toList.foldl (fun m e => m.insert e.1 e.2) ∅ = m := by
  rw [foldl_insert_eq]
  refine ExtTreeMap.ext_getElem? fun k => ?_
  cases hk : m[k]? with
  | some v =>
    have hmem : (k, v) ∈ m.toList := ExtTreeMap.mem_toList_iff_getElem?_eq_some.mpr hk
    exact ExtTreeMap.getElem?_insertMany_list_of_mem Std.ReflCmp.compare_self
      ExtTreeMap.distinct_keys_toList hmem
  | none =>
    have hkeys : (m.toList.map Prod.fst).contains k = false := by
      rw [List.contains_eq_mem, decide_eq_false_iff_not, List.mem_map]
      rintro ⟨⟨k', v⟩, hmem, rfl⟩
      rw [ExtTreeMap.mem_toList_iff_getElem?_eq_some.mp hmem] at hk
      cases hk
    rw [ExtTreeMap.getElem?_insertMany_list_of_contains_eq_false hkeys]
    exact ExtTreeMap.getElem?_empty

theorem getElem?_foldl_erase (m : ExtTreeMap α β cmp) (ks : List α) (k : α) :
    (ks.foldl .erase m)[k]? = if k ∈ ks then none else m[k]? := by
  induction ks generalizing m with
  | nil => simp
  | cons a ks ih =>
    rw [List.foldl_cons, ih, ExtTreeMap.getElem?_erase]
    simp only [List.mem_cons, Std.LawfulEqCmp.compare_eq_iff_eq]
    grind

theorem keys_foldl_erase (m : ExtTreeMap α β cmp) (ks : List α) :
    (ks.foldl .erase m).keys = m.keys.filter fun k => k ∉ ks := by
  have hmem : ∀ k, k ∈ (ks.foldl .erase m).keys ↔ k ∈ m.keys.filter fun k => k ∉ ks := by
    intro k
    rw [List.mem_filter, ExtTreeMap.mem_keys, ExtTreeMap.mem_keys,
      ExtTreeMap.mem_iff_isSome_getElem?, ExtTreeMap.mem_iff_isSome_getElem?, getElem?_foldl_erase]
    grind
  have hperm := (List.perm_ext_iff_of_nodup ExtTreeMap.nodup_keys
    (ExtTreeMap.nodup_keys.filter _)).mpr hmem
  -- both lists are strictly ordered, so the permutation is the identity
  refine hperm.eq_of_pairwise (fun a b _ _ hab hba => ?_) ExtTreeMap.ordered_keys
    (ExtTreeMap.ordered_keys.filter _)
  have hgt := Std.OrientedCmp.gt_of_lt hab
  rw [hba] at hgt
  cases hgt

omit [DecidableEq α] in
theorem size_foldl_erase {m : ExtTreeMap α β cmp} {ks : List α} (hnodup : ks.Nodup)
    (hmem : ∀ k ∈ ks, k ∈ m) : (ks.foldl .erase m).size + ks.length = m.size := by
  induction ks generalizing m with
  | nil => rfl
  | cons a ks ih =>
    rw [List.nodup_cons] at hnodup
    have hrest : ∀ k ∈ ks, k ∈ m.erase a := fun k hk => by
      rw [ExtTreeMap.mem_erase, ne_eq, Std.LawfulEqCmp.compare_eq_iff_eq]
      exact ⟨fun hak => hnodup.1 (hak ▸ hk), hmem k (List.mem_cons_of_mem _ hk)⟩
    have := ih hnodup.2 hrest
    have := size_erase_of_mem (hmem a (List.mem_cons_self ..))
    rw [List.foldl_cons, List.length_cons]
    omega

omit [LawfulEqCmp cmp] [DecidableEq α] in
theorem size_le_size_foldl_erase (m : ExtTreeMap α β cmp) (ks : List α) :
    m.size ≤ (ks.foldl .erase m).size + ks.length := by
  induction ks generalizing m with
  | nil => exact Nat.le_refl _
  | cons a ks ih =>
    have := ih (m.erase a)
    have := ExtTreeMap.size_le_size_erase (t := m) (k := a)
    rw [List.foldl_cons, List.length_cons]
    omega

/-- Updating by a function that does nothing the second time. -/
theorem getElem?_foldl_modify (m : ExtTreeMap α β cmp) {f : β → β} (hf : ∀ v, f (f v) = f v)
    (ks : List α) (k : α) :
    (ks.foldl (fun m k => m.modify k f) m)[k]? = if k ∈ ks then m[k]?.map f else m[k]? := by
  induction ks generalizing m with
  | nil => simp
  | cons a ks ih =>
    rw [List.foldl_cons, ih]
    simp only [ExtTreeMap.getElem?_modify, List.mem_cons, Std.LawfulEqCmp.compare_eq_iff_eq]
    by_cases hka : a = k
    · subst hka
      cases m[a]? <;> simp [hf]
    · have : k ≠ a := fun h => hka h.symm
      simp [hka, this]

omit [LawfulEqCmp cmp] [DecidableEq α] in
theorem size_foldl_modify (m : ExtTreeMap α β cmp) (f : β → β) (ks : List α) :
    (ks.foldl (fun m k => m.modify k f) m).size = m.size := by
  induction ks generalizing m with
  | nil => rfl
  | cons a ks ih => rw [List.foldl_cons, ih, ExtTreeMap.size_modify]

/-! ## Counting -/

def keysWhere (m : ExtTreeMap α β cmp) (p : β → Bool) : Finset α :=
  ((m.toList.filter fun e => p e.2).map Prod.fst).toFinset

theorem mem_keysWhere {m : ExtTreeMap α β cmp} {p : β → Bool} {k : α} :
    k ∈ keysWhere m p ↔ ∃ v, m[k]? = some v ∧ p v = true := by
  simp only [keysWhere, List.mem_toFinset, List.mem_map, List.mem_filter, Prod.exists,
    exists_and_right, exists_eq_right, ExtTreeMap.mem_toList_iff_getElem?_eq_some]

omit [LawfulEqCmp cmp] in
theorem card_keysWhere (m : ExtTreeMap α β cmp) (p : β → Bool) :
    (keysWhere m p).card = (m.toList.filter fun e => p e.2).length := by
  have hkeys : (m.toList.map Prod.fst).Nodup := by
    rw [ExtTreeMap.map_fst_toList_eq_keys]
    exact ExtTreeMap.nodup_keys
  have hnodup : ((m.toList.filter fun e => p e.2).map Prod.fst).Nodup :=
    hkeys.sublist (List.filter_sublist.map _)
  rw [keysWhere, List.toFinset_card_of_nodup hnodup, List.length_map]

end Lists

/-! ## Summing -/

variable {M : Type*} [AddCommMonoid M]

def sumValues (m : ExtTreeMap α β cmp) (f : β → M) : M := (m.toList.map fun e => f e.2).sum

variable {m : ExtTreeMap α β cmp} {f : β → M} {k : α} {v old : β}

omit [LawfulEqCmp cmp] in
theorem sumValues_empty : sumValues (∅ : ExtTreeMap α β cmp) f = 0 := by
  have hnil : (∅ : ExtTreeMap α β cmp).toList = [] :=
    List.length_eq_zero_iff.mp (by rw [ExtTreeMap.length_toList, ExtTreeMap.size_empty])
  rw [sumValues, hnil, List.map_nil, List.sum_nil]

/-- Only the keys and the measured values matter. -/
theorem sumValues_congr {m' : ExtTreeMap α β cmp}
    (h : ∀ k : α, m[k]?.map f = m'[k]?.map f) : sumValues m f = sumValues m' f := by
  have hnodup : ∀ m : ExtTreeMap α β cmp, (m.toList.map fun e => (e.1, f e.2)).Nodup := by
    intro m
    refine List.Nodup.of_map Prod.fst ?_
    rw [List.map_map]
    show (m.toList.map Prod.fst).Nodup
    rw [ExtTreeMap.map_fst_toList_eq_keys]
    exact ExtTreeMap.nodup_keys
  have hmem : ∀ (m : ExtTreeMap α β cmp) (k : α) (x : M),
      (k, x) ∈ m.toList.map (fun e => (e.1, f e.2)) ↔ m[k]?.map f = some x := by
    intro m k x
    simp only [List.mem_map, Prod.exists, Prod.mk.injEq, Option.map_eq_some_iff,
      ExtTreeMap.mem_toList_iff_getElem?_eq_some]
    constructor
    · rintro ⟨k', v, hv, rfl, rfl⟩
      exact ⟨v, hv, rfl⟩
    · rintro ⟨v, hv, rfl⟩
      exact ⟨k, v, hv, rfl, rfl⟩
  have hperm : (m.toList.map fun e => (e.1, f e.2)).Perm
      (m'.toList.map fun e => (e.1, f e.2)) :=
    (List.perm_ext_iff_of_nodup (hnodup m) (hnodup m')).mpr fun ⟨k, x⟩ => by
      rw [hmem, hmem, h]
  have hsum := (hperm.map Prod.snd).sum_eq
  rwa [List.map_map, List.map_map] at hsum

omit [LawfulEqCmp cmp] in
theorem nodup_toList (m : ExtTreeMap α β cmp) : m.toList.Nodup := by
  refine List.Nodup.of_map Prod.fst ?_
  rw [ExtTreeMap.map_fst_toList_eq_keys]
  exact ExtTreeMap.nodup_keys

theorem toList_perm_erase (hk : m[k]? = some v) :
    m.toList.Perm ((k, v) :: (m.erase k).toList) := by
  refine (List.perm_ext_iff_of_nodup (nodup_toList m) ?_).mpr ?_
  · refine List.nodup_cons.mpr ⟨fun hmem => ?_, nodup_toList _⟩
    rw [ExtTreeMap.mem_toList_iff_getElem?_eq_some, ExtTreeMap.getElem?_erase_self] at hmem
    cases hmem
  · rintro ⟨a, b⟩
    rw [List.mem_cons, ExtTreeMap.mem_toList_iff_getElem?_eq_some,
      ExtTreeMap.mem_toList_iff_getElem?_eq_some, ExtTreeMap.getElem?_erase]
    by_cases ha : a = k
    · subst ha
      simp [hk, eq_comm]
    · have hne : cmp k a ≠ .eq := fun heq => ha (LawfulEqCmp.eq_of_compare heq).symm
      simp [hne, ha]

theorem sumValues_erase (hk : m[k]? = some v) : sumValues m f = f v + sumValues (m.erase k) f := by
  have hsum := ((toList_perm_erase hk).map fun e => f e.2).sum_eq
  rwa [List.map_cons, List.sum_cons] at hsum

theorem sumValues_insert (hk : k ∉ m) : sumValues (m.insert k v) f = f v + sumValues m f := by
  rw [sumValues_erase (v := v) ExtTreeMap.getElem?_insert_self]
  congr 1
  refine sumValues_congr fun a => ?_
  rw [ExtTreeMap.getElem?_erase, ExtTreeMap.getElem?_insert]
  split
  next heq => rw [← LawfulEqCmp.eq_of_compare heq, ExtTreeMap.getElem?_eq_none hk]
  next => rfl

/-- A value that measures the same takes the place of another. -/
theorem sumValues_insert_same (hk : m[k]? = some old) (hv : f v = f old) :
    sumValues (m.insert k v) f = sumValues m f := by
  refine sumValues_congr fun a => ?_
  rw [ExtTreeMap.getElem?_insert]
  split
  next heq => rw [← LawfulEqCmp.eq_of_compare heq, hk, Option.map_some, Option.map_some, hv]
  next => rfl

end TreeMap
