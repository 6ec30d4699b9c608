import Mathlib

/-!
# Circular memory

`N` slots of memory that hold a window of an unbounded stream: position `p` of
the stream lives in slot `p % N`. A run of positions is copied in and out by
one or two linear copies, the second one starting again at slot `0`.
-/

namespace Ring

variable {α : Type*} {N : Nat}

/-! ## Linear copies -/

def store (mem : Nat → α) (index count : Nat) (src : Nat → α) : Nat → α := fun slot =>
  if index ≤ slot ∧ slot < index + count then src (slot - index) else mem slot

def load (mem : Nat → α) (index count : Nat) : List α :=
  (List.range count).map fun i => mem (index + i)

theorem store_of_mem {mem src : Nat → α} {index count slot : Nat} (hlo : index ≤ slot)
    (hhi : slot < index + count) : store mem index count src slot = src (slot - index) :=
  if_pos ⟨hlo, hhi⟩

theorem store_of_notMem {mem src : Nat → α} {index count slot : Nat}
    (h : slot < index ∨ index + count ≤ slot) : store mem index count src slot = mem slot :=
  if_neg (by omega)

/-! ## Copies around the end -/

def ringStore (N : Nat) (mem : Nat → α) (index count : Nat) (src : Nat → α) : Nat → α :=
  if index + count < N then store mem index count src
  else store (store mem index (N - index) src) 0 (count - (N - index))
    fun i => src (i + (N - index))

def ringLoad (N : Nat) (mem : Nat → α) (index count : Nat) : List α :=
  if index + count < N then load mem index count
  else load mem index (N - index) ++ load mem 0 (count - (N - index))

theorem mod_of_lt_turn {pos p : Nat} (hN : 0 < N) (hlo : pos ≤ p) (hhi : p < pos + N) :
    p % N = if pos % N + (p - pos) < N then pos % N + (p - pos)
      else pos % N + (p - pos) - N := by
  have hp : p = pos + (p - pos) := by omega
  have hpos := Nat.mod_lt pos hN
  rw [hp, Nat.add_mod, Nat.mod_eq_of_lt (a := p - pos) (by omega), Nat.add_sub_cancel_left]
  split
  next hlt => exact Nat.mod_eq_of_lt hlt
  next hge => rw [Nat.mod_eq_sub_mod (by omega), Nat.mod_eq_of_lt (by omega)]

theorem ringStore_of_mem {mem src : Nat → α} {pos count p : Nat} (hN : 0 < N) (hcount : count ≤ N)
    (hlo : pos ≤ p) (hhi : p < pos + count) :
    ringStore N mem (pos % N) count src (p % N) = src (p - pos) := by
  have hslot := mod_of_lt_turn hN hlo (by omega)
  have hpos := Nat.mod_lt pos hN
  unfold ringStore
  split
  next hfit =>
    rw [if_pos (by omega)] at hslot
    rw [store_of_mem (by omega) (by omega), hslot, Nat.add_sub_cancel_left]
  next hfit =>
    split at hslot
    · rw [store_of_notMem (by omega), store_of_mem (by omega) (by omega), hslot,
        Nat.add_sub_cancel_left]
    · rw [store_of_mem (by omega) (by omega)]
      congr 1
      omega

/-- The positions of the turn after the run stay as they are. -/
theorem ringStore_of_notMem {mem src : Nat → α} {pos count p : Nat} (hN : 0 < N)
    (hlo : pos + count ≤ p) (hhi : p < pos + N) :
    ringStore N mem (pos % N) count src (p % N) = mem (p % N) := by
  have hslot := mod_of_lt_turn hN (by omega) hhi
  have hpos := Nat.mod_lt pos hN
  unfold ringStore
  split
  · split at hslot
    · exact store_of_notMem (by omega)
    · exact store_of_notMem (by omega)
  · split at hslot
    · omega
    · rw [store_of_notMem (by omega), store_of_notMem (by omega)]

theorem ringLoad_eq {mem : Nat → α} {pos count : Nat} (hN : 0 < N) (hcount : count ≤ N) :
    ringLoad N mem (pos % N) count = (List.range count).map fun i => mem ((pos + i) % N) := by
  have hpos := Nat.mod_lt pos hN
  have hslot : ∀ i < count, (pos + i) % N =
      if pos % N + i < N then pos % N + i else pos % N + i - N := fun i hi => by
    have hturn := mod_of_lt_turn hN (Nat.le_add_right pos i) (by omega)
    rwa [Nat.add_sub_cancel_left] at hturn
  unfold ringLoad load
  split
  next hfit =>
    refine List.map_congr_left fun i hi => ?_
    rw [hslot i (List.mem_range.mp hi), if_pos (by have := List.mem_range.mp hi; omega)]
  next hfit =>
    have hsplit : count = (N - pos % N) + (count - (N - pos % N)) := by omega
    conv_rhs => rw [hsplit, List.range_add, List.map_append, List.map_map]
    congr 1
    · refine List.map_congr_left fun i hi => ?_
      have := List.mem_range.mp hi
      rw [hslot i (by omega), if_pos (by omega)]
    · refine List.map_congr_left fun i hi => ?_
      have := List.mem_range.mp hi
      rw [Function.comp_apply, hslot _ (by omega), if_neg (by omega)]
      congr 1
      omega

/-! ## The window of a stream -/

/-- The slots of the positions from `lo` to `hi` hold what the stream has there. -/
def Holds (N : Nat) (mem : Nat → α) (stream : Nat → Option α) (lo hi : Nat) : Prop :=
  ∀ p, lo ≤ p → p < hi → stream p = some (mem (p % N))

/-- The stream with a run of positions written. -/
def overwrite (stream : Nat → Option α) (pos count : Nat) (src : Nat → α) : Nat → Option α :=
  fun p => if pos ≤ p ∧ p < pos + count then some (src (p - pos)) else stream p

/-- **Writing keeps the window**, up to a turn behind its end. -/
theorem Holds.write {mem src : Nat → α} {stream : Nat → Option α} {lo lo' hi pos count : Nat}
    (h : Holds N mem stream lo hi) (hN : 0 < N) (hlo : lo ≤ lo') (hpos : lo' ≤ pos)
    (hhi : pos ≤ hi) (hend : max hi (pos + count) ≤ lo' + N) :
    Holds N (ringStore N mem (pos % N) count src) (overwrite stream pos count src) lo'
      (max hi (pos + count)) := by
  intro p hp hp'
  unfold overwrite
  by_cases hrun : pos ≤ p ∧ p < pos + count
  · rw [if_pos hrun, ringStore_of_mem hN (by omega) hrun.1 hrun.2]
  · rw [if_neg hrun, h p (by omega) (by omega)]
    by_cases hafter : pos + count ≤ p
    · rw [ringStore_of_notMem hN hafter (by omega)]
    · -- before the run: a turn later it is a position after the run
      have hturn : ringStore N mem (pos % N) count src ((p + N) % N) = mem ((p + N) % N) :=
        ringStore_of_notMem hN (by omega) (by omega)
      rw [Nat.add_mod_right] at hturn
      rw [hturn]

theorem Holds.load {mem : Nat → α} {stream : Nat → Option α} {lo hi pos count : Nat}
    (h : Holds N mem stream lo hi) (hN : 0 < N) (hlo : lo ≤ pos) (hend : pos + count ≤ hi)
    (hcount : count ≤ N) :
    (ringLoad N mem (pos % N) count).map some = (List.range count).map fun i => stream (pos + i) := by
  rw [ringLoad_eq hN hcount, List.map_map]
  refine List.map_congr_left fun i hi => ?_
  have := List.mem_range.mp hi
  exact (h (pos + i) (by omega) (by omega)).symm

end Ring
