import Mathlib

/-!
# A stream in segments

A range of a stream that is held as a list of segments, each of its own
length. Readers and trimmers of such a list work segment by segment; `Covers`
says which range of the stream the list is, and the lemmas say how the range
moves when a segment joins at the back or leaves, whole or in part, at the front.
-/

namespace Segments

variable {α : Type*}

structure Segment (α : Type*) where
  length : Nat
  get : Nat → α

def Segment.toList (s : Segment α) : List α := (List.range s.length).map s.get

def Segment.drop (s : Segment α) (n : Nat) : Segment α := ⟨s.length - n, fun i => s.get (n + i)⟩

def total : List (Segment α) → Nat
  | [] => 0
  | s :: rest => s.length + total rest

def Covers (stream : Nat → Option α) : Nat → List (Segment α) → Prop
  | _, [] => True
  | lo, s :: rest =>
    (∀ i < s.length, stream (lo + i) = some (s.get i)) ∧ Covers stream (lo + s.length) rest

def write (stream : Nat → Option α) (lo : Nat) (s : Segment α) : Nat → Option α := fun p =>
  if lo ≤ p ∧ p < lo + s.length then some (s.get (p - lo)) else stream p

attribute [local grind =] total Covers write

section Lemmas

variable {stream stream' : Nat → Option α} {lo : Nat} {s : Segment α} {segs : List (Segment α)}

theorem total_append : total (segs ++ [s]) = total segs + s.length := by
  induction segs with
  | nil => simp [total]
  | cons t rest ih => rw [List.cons_append, total, total, ih, Nat.add_assoc]

theorem Covers.congr (h : Covers stream lo segs)
    (hsame : ∀ p, lo ≤ p → p < lo + total segs → stream' p = stream p) :
    Covers stream' lo segs := by
  induction segs generalizing lo with
  | nil => trivial
  | cons t rest ih =>
    rw [total] at hsame
    refine ⟨fun i hi => ?_, ih h.2 fun p hp hp' => hsame p (by omega) (by omega)⟩
    rw [hsame (lo + i) (by omega) (by omega), h.1 i hi]

theorem Covers.concat (h : Covers stream lo segs)
    (hs : ∀ i < s.length, stream (lo + total segs + i) = some (s.get i)) :
    Covers stream lo (segs ++ [s]) := by
  induction segs generalizing lo with
  | nil => exact ⟨hs, trivial⟩
  | cons t rest ih =>
    refine ⟨h.1, ih h.2 fun i hi => ?_⟩
    rw [← hs i hi, total]
    congr 1
    omega

/-- **A segment joins at the back** when it is written where the range ends. -/
theorem Covers.write (h : Covers stream lo segs) :
    Covers (write stream (lo + total segs) s) lo (segs ++ [s]) := by
  refine (h.congr fun p hp hp' => if_neg (by omega)).concat fun i hi => ?_
  refine (if_pos (by omega)).trans ?_
  rw [Nat.add_sub_cancel_left]

/-- **The front segment leaves in part.** -/
theorem Covers.drop {n : Nat} (h : Covers stream lo (s :: segs)) (hn : n ≤ s.length) :
    Covers stream (lo + n) (s.drop n :: segs) := by
  refine ⟨fun i hi => ?_, ?_⟩
  · have hlt : n + i < s.length := by simp only [Segment.drop] at hi; omega
    rw [Nat.add_assoc, h.1 (n + i) hlt]
    rfl
  · have hend : lo + n + (s.drop n).length = lo + s.length := by
      simp only [Segment.drop]
      omega
    rw [hend]
    exact h.2

theorem exists_covers (lo : Nat) (segs : List (Segment α)) : ∃ stream, Covers stream lo segs := by
  induction segs generalizing lo with
  | nil => exact ⟨fun _ => none, trivial⟩
  | cons s rest ih =>
    obtain ⟨stream, hrest⟩ := ih (lo + s.length)
    refine ⟨write stream lo s, fun i hi => (if_pos (by omega)).trans ?_,
      hrest.congr fun p hp _ => if_neg (by omega)⟩
    rw [Nat.add_sub_cancel_left]

/-- The elements of the segments, one after the other, are the range of the stream. -/
theorem Covers.flatten (h : Covers stream lo segs) :
    (segs.flatMap Segment.toList).map some =
      (List.range (total segs)).map fun i => stream (lo + i) := by
  induction segs generalizing lo with
  | nil => rfl
  | cons t rest ih =>
    rw [List.flatMap_cons, List.map_append, ih h.2, total, List.range_add, List.map_append,
      List.map_map]
    congr 1
    · rw [Segment.toList, List.map_map]
      refine List.map_congr_left fun i hi => ?_
      rw [Function.comp_apply, h.1 i (List.mem_range.mp hi)]
    · refine List.map_congr_left fun i _ => ?_
      rw [Function.comp_apply, Nat.add_assoc]

end Lemmas

end Segments
