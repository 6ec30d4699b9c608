import MediaFoundation.Demux.DataPacker
import MediaFoundation.Lib.Runs
import MediaFoundation.Lib.Words

/-!
# The stream behind DataPacker

Every buffer that `PushData` takes is recorded in a stream, at its media
offset. While each buffer starts where the cached data ends, the queue is a
range of that stream: whatever `RemoveOldData` trims off its front, the rest
still is one, so the positions that two reads remember decide only how much
is trimmed, never what is left.
-/

namespace MediaFoundation.Demux

open DataPacker Segments Words

-- The stream

abbrev Stream := Nat → Option UInt8

def Buffer.segment (b : Buffer) : Segment UInt8 := ⟨b.memory.size.toNat, b.memory.addr⟩

def DataPacker.segments (p : DataPacker) : List (Segment UInt8) := p.que.map Buffer.segment

theorem total_buffers (b : Buffer) (rest : List Buffer) : total ((b :: rest).map Buffer.segment) =
    b.memory.size.toNat + total (rest.map Buffer.segment) := rfl

/-- `PushData` takes the buffer at once. -/
def DataPacker.Accepts (p : DataPacker) (b : Buffer) : Prop :=
  0 < getBufferSize b ∧ p.que.length < capacity

instance (p : DataPacker) (b : Buffer) : Decidable (p.Accepts b) :=
  inferInstanceAs (Decidable (_ ∧ _))

def record (stream : Stream) (p : DataPacker) (c : Call) (_ : DataPacker) : Stream :=
  match c with
  | .pushData b offset => if p.Accepts b then write stream offset.toNat b.segment else stream
  | _ => stream

def stepWithStream : DataPacker × Stream → Call → Option (DataPacker × Stream) :=
  Runs.withGhost step record

-- The condition

/-- A buffer starts where the cached data ends. It is below 2 GiB, and with it
the cached data is below 4 GiB and ends before the last media offset. -/
def KeepsStream (x : DataPacker × Stream) : Call → Prop
  | .pushData b offset => x.1.Accepts b →
    (x.1.que ≠ [] → offset.toNat = x.1.mediaOffset.toNat + x.1.size.toNat) ∧
      b.memory.size.toNat < 2 ^ 31 ∧
      x.1.size.toNat + b.memory.size.toNat < 2 ^ 32 ∧
      offset.toNat + b.memory.size.toNat < 2 ^ 64
  | _ => True

-- Memory

namespace Memory

theorem getWritableAddr_eq {m : Memory} {n : UInt64} (h : n ≤ m.capacity) :
    m.getWritableAddr n = some { m with size := n, size_le := h } :=
  dif_neg (UInt64.not_lt.mpr h)

theorem le_capacity {m : Memory} {n : UInt64} (h : n.toNat ≤ m.size.toNat) :
    m.size - n ≤ m.capacity ∧ n ≤ m.capacity := by
  have hcap := UInt64.le_iff_toNat_le.mp m.size_le
  rw [UInt64.le_iff_toNat_le, UInt64.le_iff_toNat_le, toNat_diff h]
  omega

theorem getReadOnlyData_eq {m : Memory} {n : UInt64} (h : n ≤ m.capacity) :
    m.getReadOnlyData n = some fun i => m.addr (n.toNat + i) :=
  if_neg (UInt64.not_lt.mpr h)

theorem updateDataSize_eq {m : Memory} {n : UInt64} (h : n ≤ m.capacity) :
    m.updateDataSize n = { m with size := n, size_le := h } :=
  dif_neg (UInt64.not_lt.mpr h)

end Memory

-- The queue is a range of the stream

structure Packs (p : DataPacker) (stream : Stream) : Prop where
  size_eq : p.size.toNat = total p.segments
  covers : Covers stream p.mediaOffset.toNat p.segments
  end_lt : p.mediaOffset.toNat + total p.segments < 2 ^ 64
  small : ∀ b ∈ p.que, b.memory.size.toNat < 2 ^ 31

namespace Packs

variable {p p' : DataPacker} {stream : Stream} {front : Buffer} {rest : List Buffer}

theorem of_segments {lo : Nat} (segs : List (Segment UInt8)) (hsegs : p.segments = segs)
    (hsize : p.size.toNat = total segs) (hoffset : p.mediaOffset.toNat = lo)
    (hcovers : Covers stream lo segs) (hend : lo + total segs < 2 ^ 64)
    (hsmall : ∀ b ∈ p.que, b.memory.size.toNat < 2 ^ 31) : Packs p stream := by
  subst hsegs hoffset
  exact ⟨hsize, hcovers, hend, hsmall⟩

/-- The queue and its extent are all that matters. -/
theorem congr (h : Packs p stream) (hque : p'.que = p.que) (hsize : p'.size = p.size)
    (hoffset : p'.mediaOffset = p.mediaOffset) : Packs p' stream :=
  .of_segments _ (congrArg (List.map Buffer.segment) hque) (hsize ▸ h.size_eq) (hoffset ▸ rfl)
    h.covers h.end_lt (hque ▸ h.small)

theorem empty (hque : p.que = []) (hsize : p.size = 0) : Packs p stream :=
  .of_segments _ (congrArg (List.map Buffer.segment) hque) (hsize ▸ rfl) rfl trivial
    p.mediaOffset.toNat_lt fun _ hb => absurd (hque ▸ hb) List.not_mem_nil

theorem segments_eq (hque : p.que = front :: rest) :
    p.segments = front.segment :: rest.map Buffer.segment := by
  rw [DataPacker.segments, hque, List.map_cons]

theorem total_eq (hque : p.que = front :: rest) :
    total p.segments = front.memory.size.toNat + total (rest.map Buffer.segment) := by
  rw [segments_eq hque]
  rfl

-- Removing data

theorem updateWhenFrontDataRemoved_eq {n : UInt64} (hn : n ≤ p.size.toUInt64) :
    p.updateWhenFrontDataRemoved n =
      ({ p with mediaOffset := p.mediaOffset + n, size := p.size - n.toUInt32 }, true) := by
  rw [updateWhenFrontDataRemoved]
  exact if_neg (not_not_intro hn)

theorem front_removed (hsize : p.size.toNat = total p.segments)
    (hend : p.mediaOffset.toNat + total p.segments < 2 ^ 64) (hque : p.que = front :: rest)
    {n : UInt64} (hn : n.toNat ≤ front.memory.size.toNat) :
    n ≤ p.size.toUInt64 ∧ (p.mediaOffset + n).toNat = p.mediaOffset.toNat + n.toNat ∧
      (p.size - n.toUInt32).toNat =
        front.memory.size.toNat - n.toNat + total (rest.map Buffer.segment) := by
  have hlt := p.size.toNat_lt
  rw [total_eq hque] at hsize hend
  have hword : n.toUInt32.toNat = n.toNat := by
    rw [UInt64.toNat_toUInt32, Nat.mod_eq_of_lt (by omega)]
  refine ⟨?_, toNat_sum (by omega), ?_⟩
  · rw [UInt64.le_iff_toNat_le, UInt32.toNat_toUInt64]
    omega
  · rw [UInt32.toNat_sub_of_le _ _ (UInt32.le_iff_toNat_le.mpr (by omega)), hword]
    omega

/-- **The front buffer leaves whole.** -/
theorem pop_front (h : Packs p stream) (hque : p.que = front :: rest) :
    ∃ q, p.updateWhenFrontDataRemoved (getBufferSize front) = (q, true) ∧
      Packs { q with que := rest } stream := by
  obtain ⟨hle, hoffset, hsize⟩ := front_removed h.size_eq h.end_lt hque (Nat.le_refl _)
  have hcovers := h.covers
  have hend := h.end_lt
  rw [segments_eq hque] at hcovers
  rw [total_eq hque] at hend
  refine ⟨_, updateWhenFrontDataRemoved_eq hle, ?_⟩
  exact .of_segments (rest.map Buffer.segment) rfl (hsize.trans (by omega)) hoffset hcovers.2 (by omega)
    fun b hb => h.small b (hque ▸ List.mem_cons_of_mem _ hb)

/-- **The front buffer leaves in part.** Its rest moves to the start of its memory. -/
theorem removeBufferContent (h : Packs p stream) (hque : p.que = front :: rest) (n : UInt64) :
    Packs (p.removeBufferContent front rest n) stream := by
  unfold DataPacker.removeBufferContent
  split
  · exact h
  split
  · exact h
  next hlt =>
    have hlt := UInt64.lt_iff_toNat_lt.mp (Decidable.not_not.mp hlt)
    have hcopy : (front.memory.size - n).toNat = front.memory.size.toNat - n.toNat :=
      toNat_diff hlt.le
    obtain ⟨hwritable, hreadable⟩ := Memory.le_capacity hlt.le
    obtain ⟨hle, hoffset, hsize⟩ := front_removed h.size_eq h.end_lt hque hlt.le
    have hcovers := h.covers
    have hend := h.end_lt
    rw [segments_eq hque] at hcovers
    rw [total_eq hque] at hend
    have hdrop := hcovers.drop (n := n.toNat) hlt.le
    have hlength : (front.memory.size - n).toNat = (front.segment.drop n.toNat).length := hcopy
    simp only [Memory.getWritableAddr_eq hwritable, Memory.getReadOnlyData_eq hreadable]
    rw [updateWhenFrontDataRemoved_eq]
    swap
    · exact hle
    refine .of_segments (_ :: rest.map Buffer.segment) rfl
      (hsize.trans (congrArg (· + _) hcopy.symm)) hoffset
      ⟨fun i hi => ?_, ?_⟩ ?_ fun b hb => ?_
    · -- the byte was moved down by `n`
      have hi : i < (front.memory.size - n).toNat := hi
      refine (hdrop.1 i (hlength ▸ hi)).trans (congrArg some ?_)
      exact (Ring.store_of_mem (Nat.zero_le i) (by omega)).symm
    · show Covers stream (_ + (front.memory.size - n).toNat) _
      rw [hlength]
      exact hdrop.2
    · show _ + ((front.memory.size - n).toNat + total (rest.map Buffer.segment)) < _
      omega
    · have hfront := h.small front (hque ▸ List.mem_cons_self)
      rcases List.mem_cons.mp hb with rfl | hb
      · show (front.memory.size - n).toNat < _
        omega
      · exact h.small b (hque ▸ List.mem_cons_of_mem _ hb)

theorem removeWhole (count : Nat) (h : Packs p stream) :
    (p.removeWhole count).2 = true ∧ Packs (p.removeWhole count).1 stream := by
  induction count generalizing p with
  | zero => exact ⟨rfl, h⟩
  | succ count ih =>
    unfold DataPacker.removeWhole
    split
    next hque => exact ⟨rfl, h⟩
    next front rest hque =>
      obtain ⟨q, hq, hrest⟩ := h.pop_front hque
      rw [hq]
      exact ih hrest

theorem removeTo (h : Packs p stream) (position : Position) :
    Packs (p.removeTo position) stream := by
  obtain ⟨hdone, hwhole⟩ := h.removeWhole position.index.toNat
  unfold DataPacker.removeTo
  generalize p.removeWhole position.index.toNat = r at hdone hwhole
  obtain ⟨q, done⟩ := r
  have hdone : done = true := hdone
  subst hdone
  simp only
  split
  next hque => exact hwhole
  next front rest hque =>
    split
    · obtain ⟨q', hq', hrest⟩ := hwhole.pop_front hque
      rw [hq']
      exact hrest
    · exact hwhole.removeBufferContent hque _

theorem removeOldData (h : Packs p stream) (position : Position) :
    Packs (p.removeOldData position) stream := by
  have hto := h.removeTo position
  unfold DataPacker.removeOldData
  simp only
  split
  next hque => exact .empty hque rfl
  next front rest hque => exact hto.congr rfl rfl rfl

-- The calls

/-- The size of a queue that one more buffer has joined. -/
theorem pushed_size {b : Buffer} (hsize : p.size.toNat = total p.segments)
    (hfits : p.size.toNat + b.memory.size.toNat < 2 ^ 32) :
    (p.size + (getBufferSize b).toUInt32).toNat = total (p.segments ++ [b.segment]) := by
  have hword : (getBufferSize b).toUInt32.toNat = b.memory.size.toNat := by
    show b.memory.size.toUInt32.toNat = _
    rw [UInt64.toNat_toUInt32, Nat.mod_eq_of_lt (by omega)]
  rw [UInt32.toNat_add, hword, Nat.mod_eq_of_lt (by omega), total_append, hsize]
  rfl

theorem pushData (h : Packs p stream) {b : Buffer} {offset : UInt64}
    (hk : KeepsStream (p, stream) (.pushData b offset)) :
    Packs (p.pushData b offset).1
      (record stream p (.pushData b offset) (p.pushData b offset).1) := by
  unfold record DataPacker.pushData
  simp only
  split
  next hempty => rwa [if_neg fun hacc => hempty hacc.1]
  next hsome =>
    split
    next hfull => rwa [if_neg fun hacc => absurd hfull (Nat.not_le.mpr hacc.2)]
    next hroom =>
      have hacc : p.Accepts b := ⟨Decidable.not_not.mp hsome, Nat.not_le.mp hroom⟩
      obtain ⟨hstart, hsmall, hsize, hend⟩ := hk hacc
      have htotal := pushed_size h.size_eq (b := b) (by omega)
      have hsmall : ∀ b' ∈ p.que ++ [b], b'.memory.size.toNat < 2 ^ 31 := fun b' hb' => by
        rcases List.mem_append.mp hb' with hb' | hb'
        · exact h.small b' hb'
        · rwa [List.mem_singleton.mp hb']
      have hsegs : (p.que ++ [b]).map Buffer.segment = p.segments ++ [b.segment] :=
        List.map_append
      rw [if_pos hacc]
      split
      next hque =>
        have hque : p.segments = [] := by
          rw [DataPacker.segments, List.isEmpty_iff.mp hque, List.map_nil]
        rw [hque] at hsegs htotal
        have hnil : Covers stream offset.toNat [] := trivial
        have hcovers : Covers (write stream offset.toNat b.segment) offset.toNat [b.segment] :=
          hnil.write
        exact .of_segments [b.segment] hsegs htotal rfl hcovers hend hsmall
      next hque =>
        have hstart := hstart fun hnil => hque (List.isEmpty_iff.mpr hnil)
        rw [h.size_eq] at hstart
        rw [hstart] at hend ⊢
        refine .of_segments (p.segments ++ [b.segment]) hsegs htotal rfl h.covers.write ?_ hsmall
        rw [total_append, ← Nat.add_assoc]
        exact hend

theorem isDataAvailable (h : Packs p stream) (offset : UInt64) (size : UInt32) :
    Packs (p.isDataAvailable offset size).1 stream := by
  unfold DataPacker.isDataAvailable
  simp only
  split
  next hque => exact .empty rfl rfl
  next front rest hque =>
    split
    · exact .empty rfl rfl
    · split
      · exact h
      · exact h

theorem peekRange (h : Packs p stream) (offset : UInt64) (size : UInt32) (out : Buffer) :
    Packs (p.peekRange offset size out).1 stream := by
  unfold DataPacker.peekRange
  split
  · exact h
  · exact h

/-- The positions only decide how much is trimmed. -/
theorem getRange (h : Packs p stream) (offset : UInt64) (size : UInt32) (out : Buffer) :
    Packs (p.getRange offset size out).1 stream := by
  unfold DataPacker.getRange
  split
  · exact h
  split
  · exact h
  next front rest hque =>
    simp only
    split
    · exact h.congr rfl rfl rfl
    next position hposition =>
      split
      · exact .empty rfl rfl
      split
      · refine removeOldData ?_ position
        exact h.congr rfl rfl rfl
      · exact h.congr rfl rfl rfl

theorem step {x y : DataPacker × Stream} {c : Call} (h : Packs x.1 x.2)
    (hk : KeepsStream x c) (hs : stepWithStream x c = some y) : Packs y.1 y.2 := by
  obtain ⟨p, stream⟩ := x
  obtain ⟨q, stream'⟩ := y
  obtain ⟨hq, hstream⟩ := Runs.withGhost_some.mp hs
  have hq : (p.perform c).1 = q := Option.some.inj hq
  have hstream : stream' = record stream p c q := hstream
  subst hq hstream
  cases c with
  | pushData b offset => exact h.pushData hk
  | isDataAvailable offset size => exact h.isDataAvailable offset size
  | peekRange offset size out => exact h.peekRange offset size out
  | getRange offset size out => exact h.getRange offset size out
  | flush => exact .empty rfl rfl
  | setEos => exact h.congr rfl rfl rfl

end Packs

end MediaFoundation.Demux
