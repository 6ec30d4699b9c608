import MediaFoundation.Demux.LivePlay

/-!
# The live read and the positioned read

Two loops copy from the queue: that of the live `GetRange` counts down in
signed words from the front, that of `PeekRangeInternal` looks for the buffers
of a range. They copy the same bytes, but the live one stamps the output anew
with every buffer, so its output has the time of the last buffer that it read.
-/

namespace MediaFoundation.Demux

open DataPacker Segments Words

-- The loop

/-- The buffer that holds the last of the first `count` bytes. -/
def lastRead (prev : Buffer) : List Buffer → Nat → Buffer
  | [], _ => prev
  | b :: rest, count =>
    if count ≤ b.memory.size.toNat then b else lastRead b rest (count - b.memory.size.toNat)

def SameStamp (out b : Buffer) : Prop := out.pts = b.pts ∧ out.dts = b.dts

theorem copyFirstBuffer_eq {size : UInt64} {b out : Buffer} {dst : Nat}
    (hpos : 0 < b.memory.size.toNat) (hsmall : b.memory.size.toNat < 2 ^ 31) :
    copyFirstBuffer size b dst out 0 =
      ({ pts := b.pts
         dts := b.dts
         memory := out.memory.copyIn dst (min b.memory.size size).toNat b.memory.addr },
        min b.memory.size size) := by
  have hremain : getBufferSize b - (0 : Int32).toInt64.toUInt64 = b.memory.size :=
    UInt64.sub_zero _
  have hvalue : (toInt32 b.memory.size).toInt64.toUInt64 = b.memory.size :=
    toUInt64_toInt32 hsmall
  have hsrc : (fun i => b.memory.addr ((0 : Int32).toInt64.toUInt64.toNat + i)) =
      b.memory.addr := funext fun i => congrArg b.memory.addr (Nat.zero_add i)
  have hsome : 0 < toInt32 b.memory.size := (toInt32_pos hsmall).mpr hpos
  unfold copyFirstBuffer
  simp only [hremain, hvalue, hsrc, hsome, not_true_eq_false, if_false]

/-- What the loop leaves after `dst` bytes from `lo` on, when `need` more are to follow. -/
structure LiveCopy.Reads (r : LiveCopy) (stream : Stream) (lo dst need : Nat) (prev out : Buffer)
    (que : List Buffer) (index : Nat) : Prop where
  left : ∃ n : UInt64, n.toNat = need - total (que.map Buffer.segment) ∧ n.toNat < 2 ^ 31 ∧
    r.needCopySize = toInt32 n
  size_eq : r.out.memory.size = out.memory.size
  bytes : Copied stream lo (dst + min need (total (que.map Buffer.segment))) r.out.memory
  stamp : SameStamp r.out (lastRead prev que need)
  stop : ∃ i, r.index = index + i ∧ ∀ offset,
    Position.reach ⟨i, r.lastBufferOffsetEnd, offset⟩ que =
      min need (total (que.map Buffer.segment))

theorem Position.reach_zero {last : UInt32} {offset : UInt64} {b : Buffer} {rest : List Buffer} :
    Position.reach ⟨0, last, offset⟩ (b :: rest) = min b.memory.size.toNat last.toNat :=
  Nat.zero_add _

theorem Position.reach_succ {i : Nat} {last : UInt32} {offset : UInt64} {b : Buffer}
    {rest : List Buffer} :
    Position.reach ⟨(i + 1 : Nat), last, offset⟩ (b :: rest) =
      b.memory.size.toNat + Position.reach ⟨i, last, offset⟩ rest := by
  simp only [reach, Int.toNat_natCast, List.take_succ_cons, List.drop_succ_cons, List.map_cons,
    total, Nat.add_assoc]
  rfl

/-- **The loop reads on over the buffers** until it has enough or there are no more. -/
theorem liveLoop_reads {stream : Stream} {lo dst index : Nat} {n : UInt64} {prev out : Buffer}
    {que : List Buffer} (hn : n.toNat < 2 ^ 31)
    (hcovers : Covers stream (lo + dst) (que.map Buffer.segment))
    (hsmall : ∀ b ∈ que, b.memory.size.toNat < 2 ^ 31)
    (hpos : ∀ b ∈ que, 0 < b.memory.size.toNat)
    (hbytes : Copied stream lo dst out.memory) (hstamp : SameStamp out prev) :
    ∃ r, liveLoop que (toInt32 n) index dst out = some r ∧
      r.Reads stream lo dst n.toNat prev out que index := by
  induction que generalizing dst index n prev out with
  | nil =>
    refine ⟨_, rfl, ⟨n, rfl, hn, rfl⟩, rfl, ?_, hstamp, 0, rfl, fun _ => ?_⟩
    · rwa [List.map_nil, total, Nat.min_zero, Nat.add_zero]
    · rw [List.map_nil, total, Nat.min_zero]
      rfl
  | cons b rest ih =>
    have hb := hsmall b List.mem_cons_self
    have hb' := hpos b List.mem_cons_self
    have hc : (min b.memory.size n).toNat = min b.memory.size.toNat n.toNat := toNat_min _ _
    have hcurr : min (toInt32 (getBufferSize b)) (toInt32 n) = toInt32 (min b.memory.size n) :=
      toInt32_min hb hn
    have hback : (toInt32 (min b.memory.size n)).toInt64.toUInt64 = min b.memory.size n :=
      toUInt64_toInt32 (by omega)
    have hmin : min b.memory.size (min b.memory.size n) = min b.memory.size n := by
      rw [← UInt64.toNat_inj, toNat_min, hc]
      omega
    have hleft : (n - min b.memory.size n).toNat = n.toNat - min b.memory.size.toNat n.toNat := by
      rw [toNat_diff (by omega), hc]
    have hsub : toInt32 n - toInt32 (min b.memory.size n) = toInt32 (n - min b.memory.size n) :=
      toInt32_sub hn (by omega)
    have hdefined : ¬ (toInt32 n).toInt - (toInt32 (min b.memory.size n)).toInt <
        Int32.minValue.toInt := by
      rw [toInt32, toInt32, toInt_toInt32 hn, toInt_toInt32 (by omega), hc, Int32.toInt_minValue]
      omega
    have hstop : toInt32 (n - min b.memory.size n) ≤ 0 ↔ n.toNat ≤ b.memory.size.toNat := by
      rw [Int32.le_iff_toInt_le, toInt32, toInt_toInt32 (by omega), hleft]
      show (_ : Int) ≤ 0 ↔ _
      omega
    have hread : Copied stream lo (dst + (min b.memory.size n).toNat)
        (out.memory.copyIn dst (min b.memory.size n).toNat b.memory.addr) :=
      hbytes.copyIn fun i hi => hcovers.1 i (by show i < b.memory.size.toNat; omega)
    unfold liveLoop
    simp only [hcurr, hback, copyFirstBuffer_eq hb' hb, hmin, hsub, if_neg hdefined, hstop]
    split
    next hle =>
      have hall : (min b.memory.size n).toNat =
          min n.toNat (b.memory.size.toNat + total (rest.map Buffer.segment)) := by omega
      have hlast : (toInt32 (min b.memory.size n)).toUInt32.toNat = (min b.memory.size n).toNat := by
        rw [toInt32, UInt32.toUInt32_toInt32, UInt64.toNat_toUInt32, Nat.mod_eq_of_lt (by omega)]
      refine ⟨_, rfl, ⟨_, ?_, by omega, rfl⟩, rfl, ?_, ?_, 0, rfl, fun _ => ?_⟩
      · rw [hleft, total_buffers]
        omega
      · rw [total_buffers, ← hall]
        exact hread
      · rw [lastRead, if_pos hle]
        exact ⟨rfl, rfl⟩
      · rw [total_buffers, ← hall]
        refine Position.reach_zero.trans ?_
        rw [hlast, hc]
        omega
    next hmore =>
      have hwhole : (min b.memory.size n).toNat = b.memory.size.toNat := by omega
      have hrest : Covers stream (lo + (dst + (min b.memory.size n).toNat))
          (rest.map Buffer.segment) := by
        rw [hwhole, ← Nat.add_assoc]
        exact hcovers.2
      obtain ⟨r, hr, ⟨m, hm, hm', hneed⟩, hsize, hbytes', hstamp', i, hi, hreach⟩ :=
        @ih (dst + (min b.memory.size n).toNat) (index + 1) (n - min b.memory.size n) b
          { pts := b.pts
            dts := b.dts
            memory := out.memory.copyIn dst (min b.memory.size n).toNat b.memory.addr }
          (by omega) hrest (fun c hc => hsmall c (List.mem_cons_of_mem _ hc))
          (fun c hc => hpos c (List.mem_cons_of_mem _ hc)) hread ⟨rfl, rfl⟩
      have hleft : (n - min b.memory.size n).toNat = n.toNat - b.memory.size.toNat := by omega
      rw [hleft] at hm hbytes' hstamp' hreach
      refine ⟨r, hr, ⟨m, ?_, hm', hneed⟩, hsize, ?_, ?_, i + 1, by omega, fun offset => ?_⟩
      · rw [total_buffers]
        omega
      · have hall : dst + (min b.memory.size n).toNat +
            min (n.toNat - b.memory.size.toNat) (total (rest.map Buffer.segment)) =
            dst + min n.toNat (b.memory.size.toNat + total (rest.map Buffer.segment)) := by omega
        rw [total_buffers, ← hall]
        exact hbytes'
      · rw [lastRead, if_neg hmore]
        exact hstamp'
      · rw [total_buffers, Position.reach_succ, hreach]
        omega

-- The condition

def KeepsReads (p : DataPacker) (c : LiveCall) : Prop :=
  KeepsCount p c ∧
    match c with
    | .call (.pushData b _) => p.Accepts b → b.memory.size.toNat < 2 ^ 31
    | _ => True

/-- The range is one that a positioned read can take, its size fits a signed word, and the last
buffer that is read has the time of the first one. -/
structure LiveReadable (p : DataPacker) (size : UInt32) : Prop where
  size_lt : size.toNat < 2 ^ 31
  end_lt : p.mediaOffset.toNat + size.toNat < 2 ^ 64
  stamp : ∃ front ∈ p.que.head?, SameStamp (lastRead front p.que size.toNat) front

-- The agreement

def DataPacker.bytes (p : DataPacker) : List UInt8 := p.segments.flatMap Segment.toList

/-- The live read returns what the positioned read would, with the time of the front buffer, and
takes exactly that off the front of the queue. -/
def LiveAgrees (p : DataPacker) (size : UInt32) (out : Buffer) : Prop :=
  ∃ q live read, p.liveGetRange size out = some (q, .range true live) ∧
    (p.getRange p.mediaOffset size out).2 = .range true read ∧
    live.bytes = read.bytes ∧ SameStamp live read ∧
    (∃ front ∈ p.que.head?, SameStamp read front) ∧
    p.bytes = live.bytes ++ q.bytes ∧
    (q.que ≠ [] →
      q.mediaOffset.toNat = p.mediaOffset.toNat + live.bytes.length ∧
        q.size.toNat + live.bytes.length = p.size.toNat)

section Agreement

variable {p : DataPacker} {stream : Stream} {size : UInt32} {out front : Buffer}
  {rest : List Buffer}

theorem map_bytes {lo count : Nat} (hsize : out.memory.size.toNat = count)
    (hbytes : Copied stream lo count out.memory) :
    out.bytes.map some = (List.range count).map fun i => stream (lo + i) := by
  subst hsize
  rw [Buffer.bytes, Segment.toList, List.map_map]
  exact List.map_congr_left fun i hi => (hbytes i (List.mem_range.mp hi)).symm

theorem SameStamp.trans {b c : Buffer} (h : SameStamp out b) (h' : SameStamp b c) :
    SameStamp out c :=
  ⟨h.1.trans h'.1, h.2.trans h'.2⟩

theorem SameStamp.symm {b : Buffer} (h : SameStamp out b) : SameStamp b out :=
  ⟨h.1.symm, h.2.symm⟩

/-- **The live read** copies what there is, and removes it. -/
theorem liveGetRange_reads (hp : Packs p stream) (hc : Counts p) (hque : p.que ≠ [])
    (hcap : size.toUInt64 ≤ out.memory.capacity) (hsize : size.toNat < 2 ^ 31) :
    ∃ position live, p.liveGetRange size out = some (p.removeOldData position, .range true live) ∧
      position.reach p.que = min size.toNat (total p.segments) ∧
      live.memory.size.toNat = min size.toNat (total p.segments) ∧
      Copied stream p.mediaOffset.toNat (min size.toNat (total p.segments)) live.memory ∧
      SameStamp live (lastRead out p.que size.toNat) := by
  have hneed : size.toInt32 = toInt32 size.toUInt64 := by
    rw [toInt32, UInt32.toUInt32_toUInt64]
  have hwide : size.toUInt64.toNat = size.toNat := UInt32.toNat_toUInt64 _
  have hbytes : Copied stream p.mediaOffset.toNat 0
      ({ out.memory with size := size.toUInt64, size_le := hcap } : Memory) :=
    fun i hi => absurd hi (Nat.not_lt_zero i)
  obtain ⟨r, hr, ⟨n, hn, hn', hleft⟩, hrsize, hcopied, hstamp, i, hi, hreach⟩ :=
    @liveLoop_reads stream p.mediaOffset.toNat 0 0 size.toUInt64 out
      { out with memory := { out.memory with size := size.toUInt64, size_le := hcap } } p.que
      (hwide ▸ hsize) hp.covers hp.small hc.pos hbytes ⟨rfl, rfl⟩
  rw [hwide] at hn hcopied hstamp hreach
  rw [Nat.zero_add] at hcopied hi
  have hsegs : total (p.que.map Buffer.segment) = total p.segments := rfl
  rw [hsegs] at hn hcopied hreach
  have hword : n.toUInt32.toNat = n.toNat := by
    rw [UInt64.toNat_toUInt32, Nat.mod_eq_of_lt (by omega)]
  have hnonneg : ¬ r.needCopySize < 0 := by
    rw [hleft]
    exact Int32.not_lt.mpr (toInt32_nonneg hn')
  have hcount : (size - r.needCopySize.toUInt32).toUInt64.toNat =
      min size.toNat (total p.segments) := by
    rw [hleft, toInt32, UInt32.toUInt32_toInt32, UInt32.toNat_toUInt64,
      UInt32.toNat_sub_of_le _ _ (UInt32.le_iff_toNat_le.mpr (by omega)), hword]
    omega
  have hroom : (size - r.needCopySize.toUInt32).toUInt64 ≤ r.out.memory.capacity := by
    have hle := UInt64.le_iff_toNat_le.mp r.out.memory.size_le
    have hall : r.out.memory.size.toNat = size.toNat := (congrArg UInt64.toNat hrsize).trans hwide
    rw [UInt64.le_iff_toNat_le, hcount]
    omega
  unfold DataPacker.liveGetRange
  rw [if_neg (not_not_intro hcap), if_neg (mt List.isEmpty_iff.mp hque),
    Memory.getWritableAddr_eq hcap, hneed]
  simp only [hr, Option.map_some, if_neg hnonneg, Memory.updateDataSize_eq hroom]
  refine ⟨_, _, rfl, ?_, hcount, hcopied, hstamp⟩
  rw [hi]
  exact hreach _

/-- A size that turns negative makes the loop stop after the front buffer, and the output claims
the whole size. -/
theorem liveGetRange_overruns (hc : Counts p) (hque : p.que = front :: rest)
    (hsmall : front.memory.size.toNat < 2 ^ 31) (hsize : 2 ^ 31 ≤ size.toNat)
    (hcap : size.toUInt64 ≤ out.memory.capacity) {q : DataPacker} {live : Buffer}
    (h : p.liveGetRange size out = some (q, .range true live)) :
    live.memory.size = size.toUInt64 ∧
      q.size.toNat + front.memory.size.toNat = p.size.toNat := by
  have hpos := hc.pos front (hque ▸ List.mem_cons_self)
  have hneg : size.toInt32.toInt < 0 := by
    have hlt := size.toNat_lt
    rw [← Int32.toInt_toBitVec, UInt32.toBitVec_toInt32, BitVec.toInt_eq_toNat_cond]
    have hnat : size.toBitVec.toNat = size.toNat := rfl
    split
    next hlow => omega
    next hhigh => omega
  have hneg' : size.toInt32 < 0 := Int32.lt_iff_toInt_lt.mpr hneg
  have hfront := toInt_toInt32 hsmall
  have hcurr : min (toInt32 (getBufferSize front)) size.toInt32 = size.toInt32 := by
    refine if_neg ?_
    rw [Int32.le_iff_toInt_le, toInt32]
    show ¬ front.memory.size.toUInt32.toInt32.toInt ≤ _
    omega
  have hmin : min front.memory.size size.toInt32.toInt64.toUInt64 = front.memory.size := by
    have hwide := toUInt64_of_neg hneg'
    rw [← UInt64.toNat_inj, toNat_min]
    omega
  unfold DataPacker.liveGetRange at h
  rw [if_neg (not_not_intro hcap), hque, if_neg (by rw [List.isEmpty_cons]; decide),
    Memory.getWritableAddr_eq hcap] at h
  simp only [liveLoop, hcurr, copyFirstBuffer_eq hpos hsmall, hmin] at h
  split at h
  · cases h
  next hdefined =>
    have hdiff : (size.toInt32 - toInt32 front.memory.size).toInt =
        size.toInt32.toInt - front.memory.size.toNat := by
      rw [toInt32, hfront, Int32.toInt_minValue] at hdefined
      rw [Int32.toInt_sub, toInt32, hfront]
      exact Int.bmod_eq_of_le (by norm_num; omega) (by norm_num; omega)
    have hdone : size.toInt32 - toInt32 front.memory.size < 0 := by
      rw [Int32.lt_iff_toInt_lt, hdiff]
      show _ < (0 : Int)
      omega
    have hroom : (size - (0 : Int32).toUInt32).toUInt64 = size.toUInt64 :=
      congrArg UInt32.toUInt64 (UInt32.sub_zero size)
    rw [if_pos (Int32.le_of_lt hdone)] at h
    simp only [Option.map_some, if_pos hdone, hroom, Option.some.injEq, Prod.mk.injEq,
      Reply.range.injEq] at h
    obtain ⟨rfl, -, rfl⟩ := h
    constructor
    · refine congrArg Memory.size (Memory.updateDataSize_eq (m := ?_) ?_)
      exact hcap
    · obtain ⟨-, hleft, -⟩ := hc.removeOldData ⟨0, (toInt32 front.memory.size).toUInt32,
        p.mediaOffset + size.toUInt64 - (0 : Int32).toInt64.toUInt64⟩
      rw [hque, Position.reach_zero, toInt32, UInt32.toUInt32_toInt32, UInt64.toNat_toUInt32,
        Nat.mod_eq_of_lt (by omega), Nat.min_self] at hleft
      exact hleft

-- The positioned read

theorem copyFromSuccessiveBuffer_stamp {offsetEnd prev : UInt64} {dst : Nat} {need : UInt32} :
    SameStamp (copyFromSuccessiveBuffer offsetEnd prev rest dst out need).1 out := by
  induction rest generalizing prev dst out need with
  | nil => exact ⟨rfl, rfl⟩
  | cons b rest ih =>
    unfold copyFromSuccessiveBuffer
    simp only
    split
    · exact ⟨rfl, rfl⟩
    · exact ih.trans ⟨rfl, rfl⟩

/-- A read from the start of the cache takes the time of the front buffer. -/
theorem peekRangeInternal_stamp (hpos : 0 < front.memory.size.toNat)
    (hsmall : front.memory.size.toNat < 2 ^ 31) (hcap : size.toUInt64 ≤ out.memory.capacity) :
    SameStamp (p.peekRangeInternal front rest p.mediaOffset size out).out front := by
  have hzero : toInt32 (p.mediaOffset - p.mediaOffset) = 0 := by
    rw [UInt64.sub_self]
    rfl
  have hnonneg : ¬ ¬ (0 : Int32) ≤ 0 := by decide
  unfold peekRangeInternal
  simp only [Memory.getWritableAddr_eq hcap, hzero, if_neg hnonneg]
  split
  · rw [copyFirstBuffer_eq hpos hsmall]
    exact ⟨rfl, rfl⟩
  · have hin : p.mediaOffset ≤ p.mediaOffset ∧
        p.mediaOffset - p.mediaOffset < getBufferSize front := by
      rw [UInt64.sub_self, UInt64.lt_iff_toNat_lt]
      exact ⟨UInt64.le_refl _, hpos⟩
    unfold findFirstBufferToCopy copyRange
    simp only [if_pos hin, hzero, if_neg hnonneg, copyFirstBuffer_eq hpos hsmall]
    split
    · exact ⟨rfl, rfl⟩
    · exact copyFromSuccessiveBuffer_stamp.trans ⟨rfl, rfl⟩

/-- A read whose end wraps copies from the front buffer only, and leaves the size as it was
asked for. -/
theorem peekRangeInternal_wraps (hpos : 0 < front.memory.size.toNat)
    (hsmall : front.memory.size.toNat < 2 ^ 31) (hcap : size.toUInt64 ≤ out.memory.capacity)
    (hfit : p.mediaOffset.toNat + front.memory.size.toNat < 2 ^ 64)
    (hwrap : 2 ^ 64 ≤ p.mediaOffset.toNat + size.toNat) :
    (p.peekRangeInternal front rest p.mediaOffset size out).out.memory.size = size.toUInt64 := by
  have hfirst : p.mediaOffset + size.toUInt64 ≤ p.mediaOffset + getBufferSize front := by
    have hlt := p.mediaOffset.toNat_lt
    have hlt' := size.toNat_lt
    rw [UInt64.le_iff_toNat_le, UInt64.toNat_add, UInt64.toNat_add, UInt32.toNat_toUInt64]
    show _ ≤ (p.mediaOffset.toNat + front.memory.size.toNat) % _
    omega
  have hzero : toInt32 (p.mediaOffset - p.mediaOffset) = 0 := by
    rw [UInt64.sub_self]
    rfl
  unfold peekRangeInternal
  simp only [Memory.getWritableAddr_eq hcap, hzero, if_pos hfirst]
  rw [copyFirstBuffer_eq hpos hsmall]
  rfl

/-- **The positioned read from the start of the cache.** -/
theorem getRange_reads (hp : Packs p stream) (hc : Counts p) (hque : p.que = front :: rest)
    (hcap : size.toUInt64 ≤ out.memory.capacity)
    (hend : p.mediaOffset.toNat + size.toNat < 2 ^ 64) :
    ∃ read, (p.getRange p.mediaOffset size out).2 = .range true read ∧
      read.memory.size.toNat = min size.toNat (total p.segments) ∧
      Copied stream p.mediaOffset.toNat (min size.toNat (total p.segments)) read.memory ∧
      SameStamp read front := by
  have hnoted : Packs { p with prevGet := p.currentGet } stream := hp.congr rfl rfl rfl
  have hpos := hc.pos front (hque ▸ List.mem_cons_self)
  have hsmall := hp.small front (hque ▸ List.mem_cons_self)
  have htotal := Packs.total_eq hque
  obtain ⟨hposition, hsize, hbytes⟩ := @peekRangeInternal_fills stream p.mediaOffset size front
    rest out { p with prevGet := p.currentGet } hnoted hque (Nat.le_refl _) hend
    (fun _ => by show _ < p.mediaOffset.toNat + total p.segments; omega) hcap
  have hcount : min size.toNat (p.mediaOffset.toNat + total p.segments - p.mediaOffset.toNat) =
      min size.toNat (total p.segments) := by rw [Nat.add_sub_cancel_left]
  refine ⟨_, (getRange_reply hque hcap).trans (congrArg (Reply.range · _) hposition),
    hsize.trans hcount, ?_, peekRangeInternal_stamp hpos hsmall hcap⟩
  rw [← hcount]
  exact hbytes

-- The two reads

theorem cached_length (p : DataPacker) : p.bytes.length = total p.segments := by
  unfold DataPacker.bytes
  induction p.segments with
  | nil => rfl
  | cons s rest ih =>
    rw [List.flatMap_cons, List.length_append, ih, Segment.toList, List.length_map,
      List.length_range, total]

theorem bytes_removed {q : DataPacker} {live : Buffer} {n : Nat} (hp : Packs p stream)
    (hq : Packs q stream) (hlive : live.memory.size.toNat = n)
    (hbytes : Copied stream p.mediaOffset.toNat n live.memory)
    (hsize : q.size.toNat + n = p.size.toNat)
    (hoffset : q.que ≠ [] → q.mediaOffset.toNat = p.mediaOffset.toNat + n) :
    p.bytes = live.bytes ++ q.bytes := by
  have hall : total p.segments = n + total q.segments := by
    rw [← hp.size_eq, ← hq.size_eq, ← hsize, Nat.add_comm]
  have hrest : q.bytes.map some =
      (List.range (total q.segments)).map fun i => stream (p.mediaOffset.toNat + (n + i)) := by
    by_cases hnil : q.que = []
    · rw [DataPacker.bytes, DataPacker.segments, hnil]
      rfl
    · rw [DataPacker.bytes, hq.covers.flatten, hoffset hnil]
      simp only [Nat.add_assoc]
  refine List.map_injective_iff.mpr (Option.some_injective _) ?_
  rw [List.map_append, map_bytes hlive hbytes, hrest, DataPacker.bytes, hp.covers.flatten, hall,
    List.range_add, List.map_append, List.map_map]
  rfl

/-- Agreement is exactly readability, in every state whose counters are right. -/
theorem Counts.liveAgrees_iff (hc : Counts p)
    (hsmall : ∀ b ∈ p.que, b.memory.size.toNat < 2 ^ 31) (hque : p.que ≠ [])
    (hcap : size.toUInt64 ≤ out.memory.capacity) :
    LiveAgrees p size out ↔ LiveReadable p size := by
  obtain ⟨stream, hp⟩ := hc.packs hsmall
  obtain ⟨front, rest, hcons⟩ := List.exists_cons_of_ne_nil hque
  have hpos := hc.pos front (hcons ▸ List.mem_cons_self)
  have hfront := hsmall front (hcons ▸ List.mem_cons_self)
  have hhead : front ∈ p.que.head? := hcons ▸ rfl
  have hfit := hc.end_lt
  have htotal := Packs.total_eq hcons
  constructor
  · rintro ⟨q, live, read, hlive, hread, hbytes, hstamp, ⟨front', hfront', hstamp'⟩, hremoved, -⟩
    have hsize : size.toNat < 2 ^ 31 := by
      by_contra hlarge
      obtain ⟨hclaimed, hleft⟩ :=
        liveGetRange_overruns hc hcons hfront (Nat.not_lt.mp hlarge) hcap hlive
      have hlength := congrArg List.length hremoved
      have hq := hc.liveGetRange hlive
      rw [List.length_append, bytes_length, cached_length, cached_length, ← hc.size_eq,
        ← hq.size_eq, hclaimed, UInt32.toNat_toUInt64] at hlength
      omega
    obtain ⟨position, live', hlive', -, hcount, -, hlast⟩ :=
      liveGetRange_reads hp hc hque hcap hsize
    have hsame : live' = live := by
      rw [hlive'] at hlive
      cases hlive
      rfl
    subst hsame
    refine ⟨hsize, ?_, front, hhead, ?_⟩
    · by_contra hwrap
      have hclaimed := @peekRangeInternal_wraps { p with prevGet := p.currentGet } size out front
        rest hpos hfront hcap (by show p.mediaOffset.toNat + _ < _; omega) (Nat.not_lt.mp hwrap)
      rw [getRange_reply hcons hcap] at hread
      injection hread with _ hread
      have hlength := congrArg List.length hbytes
      rw [bytes_length, bytes_length, hcount, ← hread] at hlength
      have hread := hlength.trans (congrArg UInt64.toNat hclaimed)
      rw [UInt32.toNat_toUInt64] at hread
      omega
    · have hfront' : front' = front := by
        rw [hcons] at hfront'
        exact (Option.some.inj hfront').symm
      subst hfront'
      rw [hcons] at hlast ⊢
      exact (hlast.symm.trans hstamp).trans hstamp'
  · rintro ⟨hsize, hend, front', hfront', hstamp⟩
    have hfront' : front' = front := by
      rw [hcons] at hfront'
      exact (Option.some.inj hfront').symm
    subst hfront'
    obtain ⟨position, live, hlive, hreach, hcount, hcopied, hlast⟩ :=
      liveGetRange_reads hp hc hque hcap hsize
    obtain ⟨read, hread, hcount', hcopied', hstamp'⟩ := getRange_reads hp hc hcons hcap hend
    obtain ⟨-, hleft, hmoved⟩ := hc.removeOldData position
    have hlength : live.bytes.length = min size.toNat (total p.segments) := by
      rw [bytes_length, hcount]
    rw [hreach] at hleft hmoved
    refine ⟨_, live, read, hlive, hread, ?_, ?_, ⟨front', hhead, hstamp'⟩,
      bytes_removed hp (hp.removeOldData position) hcount hcopied hleft hmoved,
      fun hne => ⟨?_, ?_⟩⟩
    · refine List.map_injective_iff.mpr (Option.some_injective _) ?_
      exact (map_bytes hcount hcopied).trans (map_bytes hcount' hcopied').symm
    · rw [hcons] at hlast hstamp
      exact (hlast.trans hstamp).trans hstamp'.symm
    · rw [hlength]
      exact hmoved hne
    · rw [hlength]
      exact hleft

end Agreement

-- The packer over runs

theorem Counts.small_step {p p' : DataPacker} {c : LiveCall} (h : Counts p)
    (hsmall : ∀ b ∈ p.que, b.memory.size.toNat < 2 ^ 31) (hk : KeepsReads p c)
    (hs : liveStep p c = some p') : ∀ b ∈ p'.que, b.memory.size.toNat < 2 ^ 31 := by
  obtain ⟨stream, hp⟩ := h.packs hsmall
  cases c with
  | liveGetRange size out =>
    obtain ⟨⟨q, r⟩, hr, rfl⟩ := Option.map_eq_some_iff.mp hs
    rcases liveGetRange_cases hr with rfl | ⟨position, rfl⟩
    · exact hsmall
    · exact (hp.removeOldData position).small
  | call c =>
    cases hs
    cases c with
    | pushData b offset =>
      have hb := hk.2
      unfold DataPacker.perform DataPacker.pushData
      simp only
      split
      · exact hsmall
      next hsome =>
        split
        · exact hsmall
        next hroom =>
          have hb := hb ⟨Decidable.not_not.mp hsome, Nat.not_le.mp hroom⟩
          have hall : ∀ c ∈ p.que ++ [b], c.memory.size.toNat < 2 ^ 31 := fun c hc => by
            rcases List.mem_append.mp hc with hc | hc
            · exact hsmall c hc
            · rwa [List.mem_singleton.mp hc]
          split
          · exact hall
          · exact hall
    | isDataAvailable offset size => exact (hp.isDataAvailable offset size).small
    | peekRange offset size out => exact (hp.peekRange offset size out).small
    | getRange offset size out => exact (hp.getRange offset size out).small
    | flush => exact fun b hb => absurd hb List.not_mem_nil
    | setEos => exact hsmall

def pushSameTime : List LiveCall :=
  [.call (.pushData (bufferFrom 1 1) 0), .call (.pushData (bufferFrom 2 1) 1)]

def laterBuffer : Buffer := { bufferFrom 2 1 with pts := 40, dts := 40 }

def pushTwoTimes : List LiveCall :=
  [.call (.pushData (bufferFrom 1 1) 0), .call (.pushData laterBuffer 1)]

end MediaFoundation.Demux
