import Mathlib

/-!
# Accumulators found by their key

A list of accumulators, one for each key: a new contribution is added to the
first accumulator that a predicate selects, and starts an accumulator of its
own when none is selected.
-/

namespace Tally

variable {α κ : Type*}

def upsert (selects : α → Bool) (update : α → α) (fresh : α) : List α → List α
  | [] => [fresh]
  | e :: v => if selects e then update e :: v else e :: upsert selects update fresh v

def total [DecidableEq κ] (key : α → κ) (val : α → Nat) (k : κ) (v : List α) : Nat :=
  ((v.filter fun e => key e = k).map val).sum

structure Fitting (key : α → κ) (selects : α → Bool) (fresh : α) (v : List α) : Prop where
  hit : ∀ e, v.find? selects = some e → key e = key fresh
  miss : v.find? selects = none → ∀ e ∈ v, key e ≠ key fresh

section Selection

variable {key : α → κ} {selects : α → Bool} {update : α → α} {fresh : α} {v : List α}

/-- A predicate that is the key's own test always fits. -/
theorem Fitting.of_iff (h : ∀ e ∈ v, selects e = true ↔ key e = key fresh) :
    Fitting key selects fresh v where
  hit e he := (h e (List.mem_of_find?_eq_some he)).mp (List.find?_some he)
  miss hnone e he hkey := by
    rw [List.find?_eq_none] at hnone
    exact hnone e he ((h e he).mpr hkey)

theorem upsert_of_miss (h : v.find? selects = none) :
    upsert selects update fresh v = v ++ [fresh] := by
  induction v with
  | nil => rfl
  | cons e v ih =>
    rw [List.find?_cons] at h
    cases he : selects e with
    | true => rw [he] at h; simp at h
    | false =>
      rw [he] at h
      rw [upsert, he, if_neg Bool.false_ne_true, ih h, List.cons_append]

theorem upsert_of_hit (update : α → α) (fresh : α) {e : α} (h : v.find? selects = some e) :
    ∃ front back, v = front ++ e :: back ∧
      upsert selects update fresh v = front ++ update e :: back := by
  induction v with
  | nil => simp at h
  | cons a v ih =>
    rw [List.find?_cons] at h
    cases ha : selects a with
    | true =>
      rw [ha] at h
      obtain rfl : a = e := Option.some.inj h
      exact ⟨[], v, rfl, by rw [upsert, ha, if_pos rfl, List.nil_append]⟩
    | false =>
      rw [ha] at h
      obtain ⟨front, back, hv, hup⟩ := ih h
      refine ⟨a :: front, back, by rw [hv, List.cons_append], ?_⟩
      rw [upsert, ha, if_neg Bool.false_ne_true, hup, List.cons_append]

theorem forall_upsert {P : α → Prop} (hfresh : P fresh)
    (hupdate : ∀ e, v.find? selects = some e → P e → P (update e)) (hv : ∀ e ∈ v, P e) :
    ∀ e ∈ upsert selects update fresh v, P e := by
  cases hfind : v.find? selects with
  | none =>
    rw [upsert_of_miss hfind]
    intro e he
    rcases List.mem_append.mp he with he | he
    · exact hv e he
    · rw [List.mem_singleton.mp he]
      exact hfresh
  | some a =>
    obtain ⟨front, back, rfl, hup⟩ := upsert_of_hit update fresh hfind
    rw [hup]
    intro e he
    rcases List.mem_append.mp he with he | he
    · exact hv e (List.mem_append_left _ he)
    · rcases List.mem_cons.mp he with rfl | he
      · exact hupdate a hfind (hv a (by simp))
      · exact hv e (by simp [he])

theorem nodup_upsert (hkey : ∀ e, key (update e) = key e) (hfit : Fitting key selects fresh v)
    (hv : (v.map key).Nodup) : ((upsert selects update fresh v).map key).Nodup := by
  cases hfind : v.find? selects with
  | none =>
    rw [upsert_of_miss hfind, List.map_append, List.map_singleton]
    refine hv.append (List.nodup_singleton _) ?_
    intro k hk hfresh
    obtain ⟨e, he, rfl⟩ := List.mem_map.mp hk
    exact hfit.miss hfind e he (List.mem_singleton.mp hfresh)
  | some a =>
    obtain ⟨front, back, rfl, hup⟩ := upsert_of_hit update fresh hfind
    rw [hup]
    rw [List.map_append, List.map_cons] at hv ⊢
    rw [hkey]
    exact hv

end Selection

section Totals

variable [DecidableEq κ] (key : α → κ) (val : α → Nat) (k : κ)

@[simp] theorem total_nil : total key val k [] = 0 := rfl

@[simp] theorem total_cons (e : α) (v : List α) :
    total key val k (e :: v) = (if key e = k then val e else 0) + total key val k v := by
  unfold total
  by_cases h : key e = k
  · rw [List.filter_cons_of_pos (by simpa using h), List.map_cons, List.sum_cons, if_pos h]
  · rw [List.filter_cons_of_neg (by simpa using h), if_neg h, Nat.zero_add]

@[simp] theorem total_append (v w : List α) :
    total key val k (v ++ w) = total key val k v + total key val k w := by
  unfold total
  rw [List.filter_append, List.map_append, List.sum_append]

variable {key val k}

theorem total_flatten_set {vs : List (List α)} {i : Nat} {e : α} {rest : List α}
    (h : vs[i]? = some (e :: rest)) :
    total key val k vs.flatten =
      (if key e = k then val e else 0) + total key val k (vs.set i rest).flatten := by
  induction vs generalizing i with
  | nil => simp at h
  | cons v vs ih =>
    cases i with
    | zero =>
      obtain rfl : v = e :: rest := Option.some.inj h
      rw [List.set_cons_zero, List.flatten_cons, List.flatten_cons, total_append, total_append,
        total_cons, Nat.add_assoc]
    | succ i =>
      rw [List.getElem?_cons_succ] at h
      rw [List.set_cons_succ, List.flatten_cons, List.flatten_cons, total_append, total_append,
        ih h]
      omega

/-- A fitting contribution of `d` is counted once, under its own key. -/
theorem total_upsert {selects : α → Bool} {update : α → α} {fresh : α} {v : List α} {d : Nat}
    (hkey : ∀ e, key (update e) = key e) (hfit : Fitting key selects fresh v)
    (hfresh : val fresh = d)
    (hupdate : ∀ e, v.find? selects = some e → val (update e) = val e + d) :
    total key val k (upsert selects update fresh v) =
      total key val k v + if key fresh = k then d else 0 := by
  cases hfind : v.find? selects with
  | none =>
    rw [upsert_of_miss hfind, total_append, total_cons, total_nil, hfresh, Nat.add_zero]
  | some a =>
    obtain ⟨front, back, rfl, hup⟩ := upsert_of_hit update fresh hfind
    rw [hup, total_append, total_append, total_cons, total_cons, hkey, hupdate a hfind,
      hfit.hit a hfind]
    split <;> omega

end Totals

end Tally
