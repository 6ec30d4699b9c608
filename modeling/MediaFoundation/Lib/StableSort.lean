import Mathlib.Tactic.Linarith

/-!
# Stable sorting by a comparison

What a stable sort with a given comparison promises. The comparison has to be a strict weak order
on the elements; with any other nothing is promised.
-/

namespace StableSort

variable {α : Type} {lt : α → α → Bool} {l r : List α}

structure StrictWeakOrderOn (lt : α → α → Bool) (l : List α) : Prop where
  irrefl : ∀ x ∈ l, lt x x = false
  trans : ∀ x ∈ l, ∀ y ∈ l, ∀ z ∈ l, lt x y = true → lt y z = true → lt x z = true
  incomp : ∀ x ∈ l, ∀ y ∈ l, ∀ z ∈ l, lt x y = false → lt y z = false → lt x z = false

structure StablySorted (lt : α → α → Bool) (l r : List α) : Prop where
  perm : r.Perm l
  sorted : r.Pairwise fun a b => lt b a = false
  stable : ∀ x ∈ l,
    (r.filter fun y => !lt x y && !lt y x) = l.filter fun y => !lt x y && !lt y x

/-- `r` is a list that a stable sort of `l` may leave. -/
def Leaves (lt : α → α → Bool) (l r : List α) : Prop :=
  StrictWeakOrderOn lt l → StablySorted lt l r

theorem StrictWeakOrderOn.nil (lt : α → α → Bool) : StrictWeakOrderOn lt [] where
  irrefl := by simp
  trans := by simp
  incomp := by simp

/-- A comparison that holds of an element and itself is one only of no elements. -/
theorem strictWeakOrderOn_iff_nil (hrefl : ∀ x, lt x x = true) :
    StrictWeakOrderOn lt l ↔ l = [] := by
  constructor
  · intro h
    cases l with
    | nil => rfl
    | cons x l =>
      have hx := h.irrefl x (by simp)
      simp [hrefl x] at hx
  · intro h
    rw [h]
    exact .nil lt

theorem leaves_nil (h : Leaves lt [] r) : r = [] := by
  have hperm := (h (.nil lt)).perm
  simpa using hperm

end StableSort
