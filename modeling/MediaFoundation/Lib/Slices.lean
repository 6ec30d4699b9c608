import Mathlib

/-!
# Slices of a list

A slice is so many elements from a place on. A buffer that shows a part of a
file is told by an equation between a slice of the one and a slice of the
other; the lemmas cut such an equation, join two of them, and say what a write
into the buffer leaves of it.
-/

namespace Slices

variable {α : Type*}

def slice (l : List α) (i n : Nat) : List α := (l.drop i).take n

/-- The list with other elements from a place on. -/
def write (l : List α) (i : Nat) (bs : List α) : List α := l.take i ++ bs ++ l.drop (i + bs.length)

variable {l l' bs : List α} {i i' j n m : Nat}

@[simp] theorem slice_zero (l : List α) (i : Nat) : slice l i 0 = [] := List.take_zero

theorem length_slice_of_le (h : i + n ≤ l.length) : (slice l i n).length = n := by
  rw [slice, List.length_take, List.length_drop]
  omega

theorem slice_self (l : List α) : slice l 0 l.length = l := by
  rw [slice, List.drop_zero, List.take_length]

theorem slice_slice (h : j + m ≤ n) : slice (slice l i n) j m = slice l (i + j) m := by
  rw [slice, slice, slice, List.drop_take, List.take_take, List.drop_drop,
    Nat.min_eq_left (by omega)]

theorem slice_add (l : List α) (i n m : Nat) :
    slice l i (n + m) = slice l i n ++ slice l (i + n) m := by
  rw [slice, slice, slice, List.take_add, List.drop_drop]

/-- A part of equal slices. -/
theorem slice_sub (h : slice l i n = slice l' i' n) (hle : j + m ≤ n) :
    slice l (i + j) m = slice l' (i' + j) m := by
  rw [← slice_slice hle, h, slice_slice hle]

theorem slice_join (h : slice l i n = slice l' i' n) (h' : slice l (i + n) m = slice l' (i' + n) m) :
    slice l i (n + m) = slice l' i' (n + m) := by
  rw [slice_add, slice_add, h, h']

theorem length_write (h : i + bs.length ≤ l.length) : (write l i bs).length = l.length := by
  rw [write, List.length_append, List.length_append, List.length_take, List.length_drop]
  omega

theorem slice_write (h : i ≤ l.length) : slice (write l i bs) i bs.length = bs := by
  have htake : (l.take i).length = i := List.length_take_of_le h
  rw [slice, write, List.append_assoc, List.drop_left' htake, List.take_left]

theorem slice_write_below (h : j + n ≤ i) (hi : i ≤ l.length) :
    slice (write l i bs) j n = slice l j n := by
  have htake : (l.take i).length = i := List.length_take_of_le hi
  rw [slice, write, List.append_assoc, List.drop_append_of_le_length (by omega),
    List.take_append_of_le_length (by rw [List.length_drop]; omega), List.drop_take,
    List.take_take, Nat.min_eq_left (by omega)]
  rfl

end Slices
