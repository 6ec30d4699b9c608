import MediaFoundation.Demux.PackerStream

/-!
# What DataPacker reads

A range that `IsDataAvailable` reports is read by `PeekRange` and `GetRange`
byte for byte: from the buffer it starts in, and then buffer by buffer.

The two disagree in one place. At the very end of two or more buffers a range
of no bytes is available, but `FindFirstBufferToCopy` finds no buffer that it
starts in, so the read fails.
-/

namespace MediaFoundation.Demux

open DataPacker Segments Words

-- What is read

/-- The range ends before the last media offset, and it is not the empty range
at the end of two or more buffers. -/
def Readable (p : DataPacker) (offset : UInt64) (size : UInt32) : Prop :=
  offset.toNat + size.toNat < 2 ^ 64 ∧
    (size = 0 → 2 ≤ p.que.length → offset.toNat ≠ p.mediaOffset.toNat + p.size.toNat)

def Copied (stream : Stream) (lo count : Nat) (m : Memory) : Prop :=
  ∀ i < count, stream (lo + i) = some (m.addr i)

structure Serves (stream : Stream) (offset : UInt64) (size : UInt32) (out : Buffer) : Prop where
  size_eq : out.memory.size = size.toUInt64
  bytes : Copied stream offset.toNat size.toNat out.memory

variable {stream : Stream} {lo dst : Nat} {offset prev : UInt64} {size : UInt32}
  {b front : Buffer} {bs rest : List Buffer} {out : Buffer}

theorem Copied.copyIn {m : Memory} {count : Nat} {src : Nat → UInt8} (h : Copied stream lo dst m)
    (hsrc : ∀ i < count, stream (lo + dst + i) = some (src i)) :
    Copied stream lo (dst + count) (m.copyIn dst count src) := by
  intro i hi
  show stream (lo + i) = some (Ring.store m.addr dst count src i)
  by_cases hlt : i < dst
  · rw [Ring.store_of_notMem (.inl hlt)]
    exact h i hlt
  · have hsrc := hsrc (i - dst) (by omega)
    rw [Ring.store_of_mem (by omega) hi, ← hsrc]
    congr 1
    omega

-- The copies

theorem copyFirstBuffer_copied {start : UInt64} (hsmall : b.memory.size.toNat < 2 ^ 31)
    (hstart : start.toNat ≤ b.memory.size.toNat)
    (hbytes : ∀ i < b.memory.size.toNat, stream (prev.toNat + i) = some (b.memory.addr i)) :
    (copyFirstBuffer size.toUInt64 b 0 out (toInt32 start)).2.toNat =
        min (b.memory.size.toNat - start.toNat) size.toNat ∧
      (copyFirstBuffer size.toUInt64 b 0 out (toInt32 start)).1.memory.size = out.memory.size ∧
      Copied stream (prev.toNat + start.toNat)
        (min (b.memory.size.toNat - start.toNat) size.toNat)
        (copyFirstBuffer size.toUInt64 b 0 out (toInt32 start)).1.memory := by
  have hback : (toInt32 start).toInt64.toUInt64 = start := toUInt64_toInt32 (by omega)
  have hremain : (getBufferSize b - start).toNat = b.memory.size.toNat - start.toNat :=
    toNat_diff hstart
  have hpos : 0 < toInt32 (getBufferSize b - start) ↔ 0 < (getBufferSize b - start).toNat :=
    toInt32_pos (by omega)
  have hvalue : (toInt32 (getBufferSize b - start)).toInt64.toUInt64 = getBufferSize b - start :=
    toUInt64_toInt32 (by omega)
  unfold copyFirstBuffer
  simp only [hback, hvalue, hpos]
  split
  next hnone =>
    have hzero : min (b.memory.size.toNat - start.toNat) size.toNat = 0 := by omega
    rw [hzero]
    exact ⟨rfl, rfl, fun i hi => absurd hi (Nat.not_lt_zero i)⟩
  next hsome =>
    have hmin : (min (getBufferSize b - start) size.toUInt64).toNat =
        min (b.memory.size.toNat - start.toNat) size.toNat := by
      rw [toNat_min, hremain, UInt32.toNat_toUInt64]
    refine ⟨hmin, rfl, ?_⟩
    have hcopied : Copied stream (prev.toNat + start.toNat) 0 out.memory :=
      fun i hi => absurd hi (Nat.not_lt_zero i)
    have hsrc : ∀ i < min (b.memory.size.toNat - start.toNat) size.toNat,
        stream (prev.toNat + start.toNat + 0 + i) = some (b.memory.addr (start.toNat + i)) :=
      fun i hi => by
        rw [Nat.add_zero, Nat.add_assoc]
        exact hbytes _ (by omega)
    have hall := hcopied.copyIn hsrc
    rw [Nat.zero_add] at hall
    rw [hmin]
    exact hall

/-- **The loop over the later buffers.** At media offset `prev` the output holds
the range up to there, so `dst` bytes, and `needCopySize` bytes are to follow, as
far as the buffers have them. -/
theorem copyFromSuccessiveBuffer_copied {offsetEnd : UInt64} {need : UInt32}
    (hcovers : Covers stream prev.toNat (bs.map Buffer.segment))
    (hfit : prev.toNat + total (bs.map Buffer.segment) < 2 ^ 64)
    (hsmall : ∀ b ∈ bs, b.memory.size.toNat < 2 ^ 31)
    (hneed : offsetEnd.toNat = prev.toNat + need.toNat)
    (hdst : lo + dst = prev.toNat) (h : Copied stream lo dst out.memory) :
    (copyFromSuccessiveBuffer offsetEnd prev bs dst out need).2.toNat =
        need.toNat - total (bs.map Buffer.segment) ∧
      (copyFromSuccessiveBuffer offsetEnd prev bs dst out need).1.memory.size = out.memory.size ∧
      Copied stream lo (dst + min need.toNat (total (bs.map Buffer.segment)))
        (copyFromSuccessiveBuffer offsetEnd prev bs dst out need).1.memory := by
  induction bs generalizing prev dst out need with
  | nil => exact ⟨rfl, rfl, by rwa [List.map_nil, total, Nat.min_zero, Nat.add_zero]⟩
  | cons b rest ih =>
    rw [total_buffers] at hfit ⊢
    have hsum : (prev + getBufferSize b).toNat = prev.toNat + b.memory.size.toNat :=
      toNat_sum (by show _ + b.memory.size.toNat < _; omega)
    have hb := hsmall b List.mem_cons_self
    unfold copyFromSuccessiveBuffer
    simp only [UInt64.le_iff_toNat_le, hsum]
    split
    next hlast =>
      have hmin : min need.toNat (b.memory.size.toNat + total (rest.map Buffer.segment)) =
          need.toNat := by omega
      refine ⟨by rw [UInt32.toNat_zero]; omega, rfl, ?_⟩
      rw [hmin]
      refine h.copyIn fun i hi => ?_
      rw [hdst]
      exact hcovers.1 i (by show i < b.memory.size.toNat; omega)
    next hmore =>
      have hword : (getBufferSize b).toUInt32.toNat = b.memory.size.toNat := by
        show b.memory.size.toUInt32.toNat = _
        rw [UInt64.toNat_toUInt32, Nat.mod_eq_of_lt (by omega)]
      have hleft : (need - (getBufferSize b).toUInt32).toNat =
          need.toNat - b.memory.size.toNat := by
        rw [UInt32.toNat_sub_of_le _ _ (UInt32.le_iff_toNat_le.mpr (by omega)), hword]
      have hcopied : Copied stream lo (dst + b.memory.size.toNat)
          (out.memory.copyIn dst b.memory.size.toNat b.memory.addr) := h.copyIn fun i hi => by
        rw [hdst]
        exact hcovers.1 i hi
      obtain ⟨hzero, hsize, hrest⟩ := @ih (dst + b.memory.size.toNat) (prev + getBufferSize b)
        { out with memory := out.memory.copyIn dst b.memory.size.toNat b.memory.addr }
        (need - (getBufferSize b).toUInt32) (by rw [hsum]; exact hcovers.2) (by omega)
        (fun c hc => hsmall c (List.mem_cons_of_mem _ hc)) (by omega) (by omega) hcopied
      rw [hleft] at hzero hrest
      have hdone : dst + b.memory.size.toNat +
          min (need.toNat - b.memory.size.toNat) (total (rest.map Buffer.segment)) =
          dst + min need.toNat (b.memory.size.toNat + total (rest.map Buffer.segment)) := by omega
      rw [hdone] at hrest
      exact ⟨by rw [getBufferSize] at *; omega, hsize, hrest⟩

-- The buffer a read starts in

theorem findFirstBufferToCopy_spec (hcovers : Covers stream prev.toNat (bs.map Buffer.segment))
    (hfit : prev.toNat + total (bs.map Buffer.segment) < 2 ^ 64)
    (hlo : prev.toNat ≤ offset.toNat)
    (hhi : offset.toNat < prev.toNat + total (bs.map Buffer.segment)) (startIndex : Nat) :
    ∃ i start b rest, findFirstBufferToCopy offset prev bs startIndex = some (i, start, b, rest) ∧
      start.toNat ≤ offset.toNat ∧ offset.toNat < start.toNat + b.memory.size.toNat ∧
      start.toNat + total ((b :: rest).map Buffer.segment) =
        prev.toNat + total (bs.map Buffer.segment) ∧
      Covers stream start.toNat ((b :: rest).map Buffer.segment) ∧ b :: rest ⊆ bs := by
  induction bs generalizing prev startIndex with
  | nil => exact absurd hlo (Nat.not_le.mpr hhi)
  | cons b rest ih =>
    have hdiff : (offset - prev).toNat = offset.toNat - prev.toNat := toNat_diff hlo
    unfold findFirstBufferToCopy
    split
    next hin =>
      have hlt : (offset - prev).toNat < b.memory.size.toNat := UInt64.lt_iff_toNat_lt.mp hin.2
      exact ⟨startIndex, prev, b, rest, rfl, hlo, by omega, rfl, hcovers, List.Subset.refl _⟩
    next hout =>
      have hpast : prev.toNat + b.memory.size.toNat ≤ offset.toNat := by
        by_contra hlt
        refine hout ⟨UInt64.le_iff_toNat_le.mpr hlo, ?_⟩
        rw [UInt64.lt_iff_toNat_lt, hdiff]
        show _ < b.memory.size.toNat
        omega
      rw [total_buffers] at hfit hhi
      have hsum : (prev + getBufferSize b).toNat = prev.toNat + b.memory.size.toNat :=
        toNat_sum (by show _ + b.memory.size.toNat < _; omega)
      obtain ⟨i, start, c, cs, hfind, hstart, hin, hsame, hcov, hsub⟩ :=
        @ih (prev + getBufferSize b) (by rw [hsum]; exact hcovers.2) (by omega) (by omega)
          (by omega) (startIndex + 1)
      refine ⟨i, start, c, cs, hfind, hstart, hin, ?_, hcov, ?_⟩
      · rw [hsame, hsum, total_buffers, Nat.add_assoc]
      · exact List.subset_cons_of_subset b hsub

-- IsDataAvailable

theorem availableLoop_true {offsetEnd : UInt64}
    (hfit : prev.toNat + total (bs.map Buffer.segment) < 2 ^ 64)
    (h : (availableLoop offsetEnd prev bs).1 = true) :
    offsetEnd.toNat ≤ prev.toNat + total (bs.map Buffer.segment) := by
  induction bs generalizing prev with
  | nil =>
    unfold availableLoop at h
    split at h
    next hle => exact UInt64.le_iff_toNat_le.mp hle
    · cases h
  | cons b rest ih =>
    rw [total_buffers] at hfit ⊢
    have hsum : (prev + getBufferSize b).toNat = prev.toNat + b.memory.size.toNat :=
      toNat_sum (by show _ + b.memory.size.toNat < _; omega)
    unfold availableLoop at h
    simp only at h
    split at h
    next hle =>
      rw [UInt64.le_iff_toNat_le, hsum] at hle
      omega
    next hmore =>
      have hrest := ih (by omega) h
      omega

theorem isDataAvailable_true {p : DataPacker} {cur : Option UInt64} (hp : Packs p stream)
    (hend : offset.toNat + size.toNat < 2 ^ 64)
    (h : (p.isDataAvailable offset size).2 = .available true cur) :
    (p.isDataAvailable offset size).1 = p ∧ p.que ≠ [] ∧ p.mediaOffset.toNat ≤ offset.toNat ∧
      offset.toNat + size.toNat ≤ p.mediaOffset.toNat + total p.segments := by
  have hsum : (offset + size.toUInt64).toNat = offset.toNat + size.toNat := by
    rw [toNat_sum (by rwa [UInt32.toNat_toUInt64]), UInt32.toNat_toUInt64]
  have hfit := hp.end_lt
  unfold DataPacker.isDataAvailable at h ⊢
  simp only at h ⊢
  split at h
  · cases h
  next front rest hque =>
    rw [Packs.total_eq hque] at hfit ⊢
    have hfront : (p.mediaOffset + getBufferSize front).toNat =
        p.mediaOffset.toNat + front.memory.size.toNat :=
      toNat_sum (by show _ + front.memory.size.toNat < _; omega)
    split at h
    · cases h
    next hhit =>
      rw [not_or, UInt64.not_lt, UInt64.le_iff_toNat_le] at hhit
      rw [if_neg (by rw [not_or, UInt64.not_lt, UInt64.le_iff_toNat_le]; exact hhit)]
      have hne : p.que ≠ [] := by rw [hque]; exact List.cons_ne_nil _ _
      split at h
      next hone =>
        injection h with hle _
        have hle := of_decide_eq_true hle
        rw [UInt64.le_iff_toNat_le, hsum, hfront] at hle
        exact ⟨if_pos hone ▸ rfl, hne, hhit.1, by omega⟩
      next hmany =>
        injection h with hle _
        have hle := availableLoop_true (by omega) hle
        rw [hsum, hfront] at hle
        exact ⟨if_neg hmany ▸ rfl, hne, hhit.1, by omega⟩

-- PeekRange

/-- What a copy that succeeds leaves. -/
def DataPacker.Peeked.Serves (r : Peeked) (stream : Stream) (offset : UInt64) (size : UInt32) : Prop :=
  r.position.isSome ∧ Demux.Serves stream offset size r.out

/-- The output holds these bytes of the stream, and the copy succeeded. -/
structure DataPacker.Peeked.Fills (r : Peeked) (stream : Stream) (lo count : Nat) : Prop where
  position : r.position.isSome
  size_eq : r.out.memory.size.toNat = count
  bytes : Copied stream lo count r.out.memory

theorem copyRange_fills {start : UInt64} (i : Nat)
    (hcovers : Covers stream start.toNat ((b :: rest).map Buffer.segment))
    (hfit : start.toNat + total ((b :: rest).map Buffer.segment) < 2 ^ 64)
    (hsmall : ∀ c ∈ b :: rest, c.memory.size.toNat < 2 ^ 31)
    (hlo : start.toNat ≤ offset.toNat)
    (hin : offset.toNat < start.toNat + b.memory.size.toNat)
    (hend : offset.toNat + size.toNat < 2 ^ 64)
    (hout : out.memory.size = size.toUInt64) :
    (copyRange offset size i start b rest out).Fills stream offset.toNat
      (min size.toNat (start.toNat + total ((b :: rest).map Buffer.segment) - offset.toNat)) := by
  rw [total_buffers] at hfit ⊢
  have hb := hsmall b List.mem_cons_self
  have hdiff : (offset - start).toNat = offset.toNat - start.toNat := toNat_diff hlo
  have hnonneg : 0 ≤ toInt32 (offset - start) := toInt32_nonneg (by omega)
  obtain ⟨hcount, hsize, hcopied⟩ :=
    @copyFirstBuffer_copied stream start size b out (offset - start) hb (by omega) hcovers.1
  have hoffset : start.toNat + (offset - start).toNat = offset.toNat := by omega
  rw [hoffset, ← hcount] at hcopied
  have hsize := hsize.trans hout
  unfold copyRange
  simp only [if_neg (not_not_intro hnonneg)]
  generalize copyFirstBuffer size.toUInt64 b 0 out (toInt32 (offset - start)) = first at *
  have hword : first.2.toUInt32.toNat = first.2.toNat := by
    have hlt := size.toNat_lt
    rw [UInt64.toNat_toUInt32, Nat.mod_eq_of_lt (by omega)]
  have hneed : (size - first.2.toUInt32).toNat = size.toNat - first.2.toNat := by
    rw [UInt32.toNat_sub_of_le _ _ (UInt32.le_iff_toNat_le.mpr (by omega)), hword]
  split
  next hdone =>
    -- the first buffer is enough
    rw [hdone, UInt32.toNat_zero] at hneed
    have hall : first.2.toNat = min size.toNat
        (start.toNat + (b.memory.size.toNat + total (rest.map Buffer.segment)) - offset.toNat) := by
      omega
    refine ⟨rfl, ?_, hall ▸ hcopied⟩
    rw [hsize, UInt32.toNat_toUInt64]
    omega
  next hmore =>
    have hmore : (size - first.2.toUInt32).toNat ≠ 0 := fun hzero =>
      hmore (UInt32.toNat_inj.mp hzero)
    have hnext : (start + getBufferSize b).toNat = start.toNat + b.memory.size.toNat :=
      toNat_sum (by show _ + b.memory.size.toNat < _; omega)
    have hsum : (offset + size.toUInt64).toNat = offset.toNat + size.toNat := by
      rw [toNat_sum (by rwa [UInt32.toNat_toUInt64]), UInt32.toNat_toUInt64]
    have hrest : Covers stream (start + getBufferSize b).toNat (rest.map Buffer.segment) := by
      rw [hnext]
      exact hcovers.2
    have hneed' : (offset + size.toUInt64).toNat =
        (start + getBufferSize b).toNat + (size - first.2.toUInt32).toNat := by omega
    have hloop := copyFromSuccessiveBuffer_copied hrest (by omega)
      (fun c hc => hsmall c (List.mem_cons_of_mem _ hc)) hneed' (by omega) hcopied
    generalize copyFromSuccessiveBuffer (offset + size.toUInt64) (start + getBufferSize b) rest
      first.2.toNat first.1 (size - first.2.toUInt32) = last at hloop ⊢
    obtain ⟨hleft, hsize', hcopied'⟩ := hloop
    have hall : first.2.toNat +
        min (size - first.2.toUInt32).toNat (total (rest.map Buffer.segment)) = min size.toNat
        (start.toNat + (b.memory.size.toNat + total (rest.map Buffer.segment)) - offset.toNat) := by
      omega
    -- the size is corrected to what there was
    have hreal : (size - last.2).toUInt64.toNat = size.toNat - last.2.toNat := by
      rw [UInt32.toNat_toUInt64,
        UInt32.toNat_sub_of_le _ _ (UInt32.le_iff_toNat_le.mpr (by omega))]
    have hroom : (size - last.2).toUInt64 ≤ last.1.memory.capacity := by
      have hcap := UInt64.le_iff_toNat_le.mp last.1.memory.size_le
      rw [hsize'.trans hsize, UInt32.toNat_toUInt64] at hcap
      rw [UInt64.le_iff_toNat_le, hreal]
      omega
    rw [hall] at hcopied'
    rw [Memory.updateDataSize_eq hroom]
    refine ⟨rfl, ?_, hcopied'⟩
    show (size - last.2).toUInt64.toNat = _
    omega

/-- **A copy fills the output with the range, as far as it is cached.** -/
theorem peekRangeInternal_fills {p : DataPacker} (hp : Packs p stream)
    (hque : p.que = front :: rest) (hlo : p.mediaOffset.toNat ≤ offset.toNat)
    (hend : offset.toNat + size.toNat < 2 ^ 64)
    (hin : p.mediaOffset.toNat + front.memory.size.toNat < offset.toNat + size.toNat →
      offset.toNat < p.mediaOffset.toNat + total p.segments)
    (hcap : size.toUInt64 ≤ out.memory.capacity) :
    (p.peekRangeInternal front rest offset size out).Fills stream offset.toNat
      (min size.toNat (p.mediaOffset.toNat + total p.segments - offset.toNat)) := by
  have hcovers := hp.covers
  have hfit := hp.end_lt
  have hsmall := hp.small
  have htotal := Packs.total_eq hque
  rw [hque] at hsmall
  rw [DataPacker.segments, hque] at hcovers
  have hfront := hsmall front List.mem_cons_self
  have hsum : (offset + size.toUInt64).toNat = offset.toNat + size.toNat := by
    rw [toNat_sum (by rwa [UInt32.toNat_toUInt64]), UInt32.toNat_toUInt64]
  have hcur : (p.mediaOffset + getBufferSize front).toNat =
      p.mediaOffset.toNat + front.memory.size.toNat :=
    toNat_sum (by show _ + front.memory.size.toNat < _; omega)
  have hdiff : (offset - p.mediaOffset).toNat = offset.toNat - p.mediaOffset.toNat :=
    toNat_diff hlo
  unfold peekRangeInternal
  simp only [Memory.getWritableAddr_eq hcap, UInt64.le_iff_toNat_le, hsum, hcur]
  split
  next hfirst =>
    -- the first buffer is enough
    have hnonneg : 0 ≤ toInt32 (offset - p.mediaOffset) := toInt32_nonneg (by omega)
    rw [if_neg (not_not_intro hnonneg)]
    obtain ⟨-, hsize, hcopied⟩ := @copyFirstBuffer_copied stream p.mediaOffset size front
      { out with memory := { out.memory with size := size.toUInt64, size_le := hcap } }
      (offset - p.mediaOffset) hfront (by omega) hcovers.1
    rw [Nat.min_eq_right (by omega), hdiff, Nat.add_sub_cancel' hlo] at hcopied
    have hall : min size.toNat (p.mediaOffset.toNat + total p.segments - offset.toNat) =
        size.toNat := by omega
    rw [hall]
    exact ⟨rfl, (congrArg UInt64.toNat hsize).trans size.toNat_toUInt64, hcopied⟩
  next hspan =>
    have hhi := hin (Nat.not_le.mp hspan)
    have hsegs : p.segments = (front :: rest).map Buffer.segment := by
      rw [DataPacker.segments, hque]
    rw [hsegs] at hfit hhi ⊢
    obtain ⟨i, start, c, cs, hfind, hstart, hin, hsame, hcov, hsub⟩ :=
      findFirstBufferToCopy_spec hcovers hfit hlo hhi 0
    rw [hfind, ← hsame]
    rw [← hsame] at hfit
    exact copyRange_fills i hcov hfit (fun d hd => hsmall d (hsub hd)) hstart hin hend rfl

theorem peekRangeInternal_serves {p : DataPacker} (hp : Packs p stream)
    (hque : p.que = front :: rest) (hread : Readable p offset size)
    (hlo : p.mediaOffset.toNat ≤ offset.toNat)
    (hend : offset.toNat + size.toNat ≤ p.mediaOffset.toNat + total p.segments)
    (hcap : size.toUInt64 ≤ out.memory.capacity) :
    (p.peekRangeInternal front rest offset size out).Serves stream offset size := by
  have htotal := Packs.total_eq hque
  have hsize := hp.size_eq
  have hin : p.mediaOffset.toNat + front.memory.size.toNat < offset.toNat + size.toNat →
      offset.toNat < p.mediaOffset.toNat + total p.segments := by
    intro hspan
    -- only the empty range at the end of all buffers starts in none of them
    by_contra hpast
    have hzero : size.toNat = 0 := by omega
    refine hread.2 (UInt32.toNat_inj.mp hzero) ?_ (by omega)
    cases rest with
    | nil => simp only [List.map_nil, total] at htotal; omega
    | cons _ _ => simp only [hque, List.length_cons]; omega
  have hall : min size.toNat (p.mediaOffset.toNat + total p.segments - offset.toNat) =
      size.toNat := by omega
  obtain ⟨hposition, hcount, hbytes⟩ := peekRangeInternal_fills hp hque hlo hread.1 hin hcap
  rw [hall] at hcount hbytes
  have hcount := hcount.trans size.toNat_toUInt64.symm
  exact ⟨hposition, UInt64.toNat_inj.mp hcount, hbytes⟩

-- Reads after IsDataAvailable

def Reply.Serves (r : Reply) (stream : Stream) (offset : UInt64) (size : UInt32) : Prop :=
  ∃ out, r = .range true out ∧ Demux.Serves stream offset size out

/-- After `IsDataAvailable` reports a range, both reads serve it. -/
def ServesAvailable (p : DataPacker) (stream : Stream) : Prop :=
  ∀ offset size cur out, (p.isDataAvailable offset size).2 = .available true cur →
    Readable p offset size → size.toUInt64 ≤ out.memory.capacity →
    ((p.isDataAvailable offset size).1.peekRange offset size out).2.Serves stream offset size ∧
      ((p.isDataAvailable offset size).1.getRange offset size out).2.Serves stream offset size

/-- `getRange` replies what the copy left, whatever is removed afterwards. -/
theorem getRange_reply {p : DataPacker} (hque : p.que = front :: rest)
    (hcap : size.toUInt64 ≤ out.memory.capacity) :
    (p.getRange offset size out).2 =
      .range ({ p with prevGet := p.currentGet : DataPacker }.peekRangeInternal front rest offset
          size out).position.isSome
        ({ p with prevGet := p.currentGet : DataPacker }.peekRangeInternal front rest offset
          size out).out := by
  unfold getRange
  rw [if_neg (not_not_intro hcap)]
  split
  next hnil => exact absurd (hque.symm.trans hnil) (List.cons_ne_nil _ _)
  next front' rest' hcons =>
    obtain ⟨rfl, rfl⟩ := List.cons.inj (hcons.symm.trans hque)
    simp only
    split
    next hnone => rw [hnone]; rfl
    next position hsome =>
      rw [hsome]
      split
      · rfl
      split
      · rfl
      · rfl

theorem Packs.servesAvailable {p : DataPacker} (hp : Packs p stream) :
    ServesAvailable p stream := by
  intro offset size cur out havail hread hcap
  obtain ⟨hsame, hne, hlo, hend⟩ := isDataAvailable_true hp hread.1 havail
  rw [hsame]
  obtain ⟨front, rest, hque⟩ := List.exists_cons_of_ne_nil hne
  constructor
  · obtain ⟨hposition, hserves⟩ := peekRangeInternal_serves hp hque hread hlo hend hcap
    unfold DataPacker.peekRange
    rw [hque]
    exact ⟨_, congrArg (Reply.range · _) hposition, hserves⟩
  · -- `getRange` notes the last position before it copies
    have hnoted : Packs { p with prevGet := p.currentGet } stream := hp.congr rfl rfl rfl
    obtain ⟨hposition, hserves⟩ := peekRangeInternal_serves hnoted hque hread hlo hend hcap
    exact ⟨_, (getRange_reply hque hcap).trans (congrArg (Reply.range · _) hposition), hserves⟩

-- The packer over runs

def emptyPacker : DataPacker × Stream := ({}, fun _ => none)

def bufferFrom (first size : Nat) : Buffer where
  pts := 0
  dts := 0
  memory := ⟨.ofNat size, .ofNat size, fun i => .ofNat (first + i), UInt64.le_refl _⟩

/-- The second read starts in the middle of the first buffer, and trims it there. -/
def readTwice : List Call :=
  [.pushData (bufferFrom 1 3) 10, .pushData (bufferFrom 4 2) 13,
    .getRange 10 1 (bufferFrom 0 4), .getRange 12 2 (bufferFrom 0 4)]

def pushTwice : List Call := [.pushData (bufferFrom 1 1) 0, .pushData (bufferFrom 2 1) 1]

end MediaFoundation.Demux
