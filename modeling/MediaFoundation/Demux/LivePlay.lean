import MediaFoundation.Demux.SourceReads

/-!
# DataPacker in live play

In live play a read takes no offset: it copies from the front of the queue and
removes what it copied (`data_packer.cpp`). Signed overflow of the bytes that
it still needs is undefined: no result stands for it.

The counters of the packer are those of its queue as long as `size_`, which
adds sizes of 64 bits in 32, does not wrap. No condition is put on the offsets
of the buffers, or on the positions that are removed to.
-/

namespace MediaFoundation.Demux

open DataPacker Segments Words

-- The live GetRange

/-- Where the loop of the live `GetRange` stops. -/
structure LiveCopy where
  out : Buffer
  needCopySize : Int32
  index : Nat
  lastBufferOffsetEnd : UInt32

namespace DataPacker

def liveLoop : List Buffer → Int32 → Nat → Nat → Buffer → Option LiveCopy
  | [], needCopySize, index, _, out =>
    some { out, needCopySize, index, lastBufferOffsetEnd := 0 }
  | b :: rest, needCopySize, index, dst, out =>
    let currCopySize := min (toInt32 (getBufferSize b)) needCopySize
    let r := copyFirstBuffer currCopySize.toInt64.toUInt64 b dst out 0
    let currCopySize := toInt32 r.2
    if needCopySize.toInt - currCopySize.toInt < Int32.minValue.toInt then none
    else
      let needCopySize := needCopySize - currCopySize
      if needCopySize ≤ 0 then
        some { out := r.1, needCopySize, index, lastBufferOffsetEnd := currCopySize.toUInt32 }
      else liveLoop rest needCopySize (index + 1) (dst + r.2.toNat) r.1

/-- `GetRange` without an offset. A wait that ends at the end of the stream
returns false and changes nothing. -/
def liveGetRange (p : DataPacker) (size : UInt32) (bufferPtr : Buffer) :
    Option (DataPacker × Reply) :=
  if ¬ size.toUInt64 ≤ bufferPtr.memory.capacity then some (p, .range false bufferPtr)
  else if p.que.isEmpty then
    if p.isEos then some (p, .range false bufferPtr) else some (p, .waits)
  else match bufferPtr.memory.getWritableAddr size.toUInt64 with
    | none => some (p, .range false bufferPtr)
    | some memory =>
      (liveLoop p.que size.toInt32 0 0 { bufferPtr with memory }).map fun r =>
        let needCopySize := if r.needCopySize < 0 then 0 else r.needCopySize
        let out := { r.out with
          memory := r.out.memory.updateDataSize (size - needCopySize.toUInt32).toUInt64 }
        let endPosition : Position :=
          { index := r.index
            bufferOffset := r.lastBufferOffsetEnd
            mediaOffset := p.mediaOffset + size.toUInt64 - needCopySize.toInt64.toUInt64 }
        (p.removeOldData endPosition, .range true out)

end DataPacker

inductive LiveCall where
  | call (c : Call)
  | liveGetRange (size : UInt32) (bufferPtr : Buffer)

def liveStep (p : DataPacker) : LiveCall → Option DataPacker
  | .call c => step p c
  | .liveGetRange size bufferPtr => (p.liveGetRange size bufferPtr).map Prod.fst

-- What is cached

/-- The counters are those of the queue, and no buffer is empty. -/
structure Counts (p : DataPacker) : Prop where
  size_eq : p.size.toNat = total p.segments
  end_lt : p.mediaOffset.toNat + total p.segments < 2 ^ 64
  pos : ∀ b ∈ p.que, 0 < b.memory.size.toNat

/-- The front moved by `n` bytes. -/
def Trims (p q : DataPacker) (n : Nat) : Prop :=
  q.mediaOffset.toNat = p.mediaOffset.toNat + n ∧ q.size.toNat + n = p.size.toNat

def Position.reach (position : Position) (que : List Buffer) : Nat :=
  total ((que.take position.index.toNat).map Buffer.segment) +
    match que.drop position.index.toNat with
    | [] => 0
    | b :: _ => min b.memory.size.toNat position.bufferOffset.toNat

theorem Position.reach_nil {position : Position} {que : List Buffer}
    (h : que.drop position.index.toNat = []) :
    position.reach que = total ((que.take position.index.toNat).map Buffer.segment) := by
  rw [reach, h, Nat.add_zero]

theorem Position.reach_cons {position : Position} {que rest : List Buffer} {b : Buffer}
    (h : que.drop position.index.toNat = b :: rest) :
    position.reach que = total ((que.take position.index.toNat).map Buffer.segment) +
      min b.memory.size.toNat position.bufferOffset.toNat := by
  rw [reach, h]

theorem Trims.refl (p : DataPacker) : Trims p p 0 := ⟨rfl, rfl⟩

theorem Trims.trans {p q r : DataPacker} {n m : Nat} (h : Trims p q n) (h' : Trims q r m) :
    Trims p r (n + m) := by
  unfold Trims at *
  omega

namespace Counts

variable {p p' : DataPacker} {front : Buffer} {rest : List Buffer}

theorem of_segments {lo : Nat} (segs : List (Segment UInt8)) (hsegs : p.segments = segs)
    (hsize : p.size.toNat = total segs) (hoffset : p.mediaOffset.toNat = lo)
    (hend : lo + total segs < 2 ^ 64) (hpos : ∀ b ∈ p.que, 0 < b.memory.size.toNat) :
    Counts p := by
  subst hsegs hoffset
  exact ⟨hsize, hend, hpos⟩

theorem congr (h : Counts p) (hque : p'.que = p.que) (hsize : p'.size = p.size)
    (hoffset : p'.mediaOffset = p.mediaOffset) : Counts p' :=
  .of_segments _ (congrArg (List.map Buffer.segment) hque) (hsize ▸ h.size_eq) (hoffset ▸ rfl)
    h.end_lt (hque ▸ h.pos)

theorem empty (hque : p.que = []) (hsize : p.size = 0) : Counts p :=
  .of_segments _ (congrArg (List.map Buffer.segment) hque) (hsize ▸ rfl) rfl
    p.mediaOffset.toNat_lt fun _ hb => absurd (hque ▸ hb) List.not_mem_nil

theorem pop_front (h : Counts p) (hque : p.que = front :: rest) :
    ∃ q, p.updateWhenFrontDataRemoved (getBufferSize front) = (q, true) ∧
      Counts { q with que := rest } ∧ Trims p { q with que := rest } front.memory.size.toNat := by
  obtain ⟨hle, hoffset, hsize⟩ := Packs.front_removed h.size_eq h.end_lt hque (Nat.le_refl _)
  have hend := h.end_lt
  have hall := h.size_eq
  rw [Packs.total_eq hque] at hend hall
  refine ⟨_, Packs.updateWhenFrontDataRemoved_eq hle, ?_, hoffset, ?_⟩
  · exact .of_segments (rest.map Buffer.segment) rfl (hsize.trans (by omega)) hoffset (by omega)
      fun b hb => h.pos b (hque ▸ List.mem_cons_of_mem _ hb)
  · show (p.size - front.memory.size.toUInt32).toNat + _ = _
    rw [hsize]
    omega

theorem removeBufferContent (h : Counts p) (hque : p.que = front :: rest) {n : UInt64}
    (hn : n.toNat < front.memory.size.toNat) :
    Counts (p.removeBufferContent front rest n) ∧
      Trims p (p.removeBufferContent front rest n) n.toNat := by
  unfold DataPacker.removeBufferContent
  split
  next hzero =>
    subst hzero
    exact ⟨h, .refl p⟩
  next =>
    have hcopy : (front.memory.size - n).toNat = front.memory.size.toNat - n.toNat :=
      toNat_diff hn.le
    obtain ⟨hwritable, hreadable⟩ := Memory.le_capacity hn.le
    obtain ⟨hle, hoffset, hsize⟩ := Packs.front_removed h.size_eq h.end_lt hque hn.le
    have hend := h.end_lt
    have hall := h.size_eq
    rw [Packs.total_eq hque] at hend hall
    rw [if_neg (not_not_intro (UInt64.lt_iff_toNat_lt.mpr hn))]
    simp only [Memory.getWritableAddr_eq hwritable, Memory.getReadOnlyData_eq hreadable]
    rw [Packs.updateWhenFrontDataRemoved_eq]
    swap
    · exact hle
    refine ⟨.of_segments (_ :: rest.map Buffer.segment) rfl
      (hsize.trans (congrArg (· + _) hcopy.symm)) hoffset ?_ fun b hb => ?_, hoffset, ?_⟩
    · show _ + ((front.memory.size - n).toNat + total (rest.map Buffer.segment)) < _
      omega
    · rcases List.mem_cons.mp hb with rfl | hb
      · show 0 < (front.memory.size - n).toNat
        omega
      · exact h.pos b (hque ▸ List.mem_cons_of_mem _ hb)
    · show (p.size - n.toUInt32).toNat + _ = _
      rw [hsize]
      omega

/-- **Whole buffers leave at the front.** -/
theorem removeWhole (h : Counts p) (count : Nat) :
    ∃ q, p.removeWhole count = (q, true) ∧ Counts q ∧ q.que = p.que.drop count ∧
      Trims p q (total ((p.que.take count).map Buffer.segment)) := by
  induction count generalizing p with
  | zero => exact ⟨p, rfl, h, rfl, .refl p⟩
  | succ count ih =>
    unfold DataPacker.removeWhole
    split
    next hque => exact ⟨p, rfl, h, by rw [hque]; rfl, by rw [hque]; exact .refl p⟩
    next front rest hque =>
      obtain ⟨q, hq, hrest, htrims⟩ := h.pop_front hque
      obtain ⟨r, hr, hcounts, hdrop, htrims'⟩ := ih hrest
      rw [hq]
      refine ⟨r, hr, hcounts, by rw [hque]; exact hdrop, ?_⟩
      rw [hque]
      exact htrims.trans htrims'

/-- **A removal moves the front to the position.** -/
theorem removeTo (h : Counts p) (position : Position) :
    Counts (p.removeTo position) ∧ Trims p (p.removeTo position) (position.reach p.que) := by
  obtain ⟨q, hq, hcounts, hdrop, htrims⟩ := h.removeWhole position.index.toNat
  unfold DataPacker.removeTo
  rw [hq]
  simp only
  split
  next hque =>
    rw [Position.reach_nil (hdrop.symm.trans hque)]
    exact ⟨hcounts, htrims⟩
  next front rest hque =>
    rw [Position.reach_cons (hdrop.symm.trans hque)]
    split
    next hle =>
      obtain ⟨r, hr, hrest, htrims'⟩ := hcounts.pop_front hque
      rw [UInt64.le_iff_toNat_le, UInt32.toNat_toUInt64] at hle
      have hle : front.memory.size.toNat ≤ position.bufferOffset.toNat := hle
      rw [hr, Nat.min_eq_left hle]
      exact ⟨hrest, htrims.trans htrims'⟩
    next hlt =>
      rw [UInt64.le_iff_toNat_le, UInt32.toNat_toUInt64, Nat.not_le] at hlt
      have hlt : position.bufferOffset.toNat < front.memory.size.toNat := hlt
      have hpart : position.bufferOffset.toUInt64.toNat = position.bufferOffset.toNat :=
        UInt32.toNat_toUInt64 _
      obtain ⟨hrest, htrims'⟩ := hcounts.removeBufferContent hque (hpart ▸ hlt)
      rw [Nat.min_eq_right hlt.le, ← hpart]
      exact ⟨hrest, htrims.trans htrims'⟩

theorem removeOldData (h : Counts p) (position : Position) :
    Counts (p.removeOldData position) ∧
      (p.removeOldData position).size.toNat + position.reach p.que = p.size.toNat ∧
      ((p.removeOldData position).que ≠ [] → (p.removeOldData position).mediaOffset.toNat =
        p.mediaOffset.toNat + position.reach p.que) := by
  obtain ⟨hto, hoffset, hsize⟩ := h.removeTo position
  unfold DataPacker.removeOldData
  simp only
  split
  next hque =>
    refine ⟨.empty hque rfl, ?_, fun hne => absurd hque hne⟩
    have hzero : (p.removeTo position).size.toNat = 0 := by
      rw [hto.size_eq, DataPacker.segments, hque]
      rfl
    rw [hzero] at hsize
    exact hsize
  next front rest hque => exact ⟨hto.congr rfl rfl rfl, hsize, fun _ => hoffset⟩

end Counts

-- The condition

/-- Where the cached data ends once a buffer pushed at `offset` has joined it. -/
def DataPacker.endWith (p : DataPacker) (b : Buffer) (offset : UInt64) : Nat :=
  (if p.que = [] then offset.toNat else p.mediaOffset.toNat + p.size.toNat) + b.memory.size.toNat

/-- A buffer that is pushed leaves the cached data below 4 GiB, and its end below the last
media offset. -/
def KeepsCount (p : DataPacker) : LiveCall → Prop
  | .call (.pushData b offset) => p.Accepts b →
    p.size.toNat + b.memory.size.toNat < 2 ^ 32 ∧ p.endWith b offset < 2 ^ 64
  | _ => True

-- The calls

theorem liveGetRange_cases {p p' : DataPacker} {size : UInt32} {out : Buffer} {r : Reply}
    (hr : p.liveGetRange size out = some (p', r)) :
    p' = p ∨ ∃ position, p' = p.removeOldData position := by
  unfold DataPacker.liveGetRange at hr
  split at hr
  · cases hr
    exact .inl rfl
  split at hr
  · split at hr
    · cases hr
      exact .inl rfl
    · cases hr
      exact .inl rfl
  split at hr
  · cases hr
    exact .inl rfl
  · obtain ⟨copy, -, hr⟩ := Option.map_eq_some_iff.mp hr
    cases hr
    exact .inr ⟨_, rfl⟩

namespace Counts

variable {p p' : DataPacker}

theorem pushData (h : Counts p) {b : Buffer} {offset : UInt64}
    (hk : KeepsCount p (.call (.pushData b offset))) : Counts (p.pushData b offset).1 := by
  unfold DataPacker.pushData
  split
  · exact h
  next hsome =>
    split
    · exact h
    next hroom =>
      obtain ⟨hsize, hend⟩ := hk ⟨Decidable.not_not.mp hsome, Nat.not_le.mp hroom⟩
      have hb : 0 < b.memory.size.toNat := UInt64.lt_iff_toNat_lt.mp (Decidable.not_not.mp hsome)
      have htotal := Packs.pushed_size h.size_eq (b := b) (by omega)
      have hsegs : (p.que ++ [b]).map Buffer.segment = p.segments ++ [b.segment] :=
        List.map_append
      have hpos : ∀ c ∈ p.que ++ [b], 0 < c.memory.size.toNat := fun c hc => by
        rcases List.mem_append.mp hc with hc | hc
        · exact h.pos c hc
        · rwa [List.mem_singleton.mp hc]
      have hsum : total (p.segments ++ [b.segment]) = p.size.toNat + b.memory.size.toNat := by
        rw [total_append, h.size_eq]
        rfl
      unfold DataPacker.endWith at hend
      simp only
      split
      next hque =>
        have hque := List.isEmpty_iff.mp hque
        have hzero : p.size.toNat = 0 := by
          rw [h.size_eq, DataPacker.segments, hque]
          rfl
        rw [if_pos hque] at hend
        have hend : offset.toNat + total (p.segments ++ [b.segment]) < 2 ^ 64 := by omega
        exact .of_segments _ hsegs htotal rfl hend hpos
      next hque =>
        rw [if_neg fun hnil => hque (List.isEmpty_iff.mpr hnil)] at hend
        have hend : p.mediaOffset.toNat + total (p.segments ++ [b.segment]) < 2 ^ 64 := by omega
        exact .of_segments _ hsegs htotal rfl hend hpos

theorem isDataAvailable (h : Counts p) (offset : UInt64) (size : UInt32) :
    Counts (p.isDataAvailable offset size).1 := by
  unfold DataPacker.isDataAvailable
  simp only
  split
  · exact .empty rfl rfl
  · split
    · exact .empty rfl rfl
    · split
      · exact h
      · exact h

theorem peekRange (h : Counts p) (offset : UInt64) (size : UInt32) (out : Buffer) :
    Counts (p.peekRange offset size out).1 := by
  unfold DataPacker.peekRange
  split
  · exact h
  · exact h

theorem getRange (h : Counts p) (offset : UInt64) (size : UInt32) (out : Buffer) :
    Counts (p.getRange offset size out).1 := by
  unfold DataPacker.getRange
  split
  · exact h
  split
  · exact h
  next front rest hque =>
    simp only
    split
    · exact h.congr rfl rfl rfl
    next position hposition =>
      split
      · exact .empty rfl rfl
      split
      · have hnoted : Counts { p with prevGet := p.currentGet, currentGet := position } :=
          h.congr rfl rfl rfl
        exact (hnoted.removeOldData position).1
      · exact h.congr rfl rfl rfl

theorem liveGetRange (h : Counts p) {size : UInt32} {out : Buffer} {r : Reply}
    (hr : p.liveGetRange size out = some (p', r)) : Counts p' := by
  rcases liveGetRange_cases hr with rfl | ⟨position, rfl⟩
  · exact h
  · exact (h.removeOldData position).1

/-- **Every call keeps the counters.** -/
theorem step (h : Counts p) {c : LiveCall} (hk : KeepsCount p c) (hs : liveStep p c = some p') :
    Counts p' := by
  cases c with
  | liveGetRange size out =>
    obtain ⟨⟨q, r⟩, hr, rfl⟩ := Option.map_eq_some_iff.mp hs
    exact h.liveGetRange hr
  | call c =>
    cases hs
    cases c with
    | pushData b offset => exact h.pushData hk
    | isDataAvailable offset size => exact h.isDataAvailable offset size
    | peekRange offset size out => exact h.peekRange offset size out
    | getRange offset size out => exact h.getRange offset size out
    | flush => exact .empty rfl rfl
    | setEos => exact h.congr rfl rfl rfl

theorem packs (h : Counts p) (hsmall : ∀ b ∈ p.que, b.memory.size.toNat < 2 ^ 31) :
    ∃ stream, Packs p stream := by
  obtain ⟨stream, hcovers⟩ := exists_covers p.mediaOffset.toNat p.segments
  exact ⟨stream, h.size_eq, hcovers, h.end_lt, hsmall⟩

end Counts

end MediaFoundation.Demux
