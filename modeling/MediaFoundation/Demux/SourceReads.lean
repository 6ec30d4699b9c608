import MediaFoundation.Demux.DemuxerFilter
import MediaFoundation.Demux.PackerReads

/-!
# What a demuxer plugin sees of the source

While the packer takes what is pulled, it caches a range of the source, so each read is a
range of the source too. One read is not: a range that starts in cached data which ends with
the source, and goes on past it. `checkRange_` pulls at the end of the source, and drops the
cache with the bytes that were asked for, since `IsEmpty` says that there are none.
-/

namespace MediaFoundation.Demux

open DataPacker Segments Words

variable {curOffset : UInt64}

-- The source

def Buffer.bytes (b : Buffer) : List UInt8 := b.segment.toList

def contents (src : List UInt8) : Stream := fun i => src[i]?

/-- `PullData` hands over the bytes of the source from an offset on, or reports its end. -/
structure Supplies (pullData : PullData) (src : List UInt8) : Prop where
  bytes : ∀ offset size b, size ≤ b.memory.capacity → offset.toNat < src.length →
    ∃ out, pullData offset size b = (.success, out) ∧
      out.bytes = (src.drop offset.toNat).take size.toNat
  ends : ∀ offset size b, src.length ≤ offset.toNat →
    (pullData offset size b).1 = .endOfStream

/-- What the caller of a `ReadAt` is to get: the bytes that the source has there, and no data
past its end. The other calls only have to return. -/
def Answers (src : List UInt8) : SourceCall → ReadReply → Prop
  | .readAt offset buffer expectedLen, r =>
    if offset.toUInt64.toNat < src.length then
      ∃ out, r = .returns .ok (some out) ∧
        out.bytes = (src.drop offset.toUInt64.toNat).take expectedLen.toNat
    else ∃ rtv, rtv ≠ .ok ∧ r = .returns rtv buffer
  | _, r => ∃ rtv out, r = .returns rtv out

def AllAnswered (src : List UInt8) (transcript : List (SourceCall × ReadReply)) : Prop :=
  ∀ cr ∈ transcript, Answers src cr.1 cr.2

-- The condition

section Condition

variable (src : List UInt8) (p : DataPacker) (offset : UInt64) (size : UInt32)

def PullsAt (curOffset : UInt64) : Prop :=
  (p.isDataAvailable offset size).2.availability offset = (false, curOffset)

/-- The packer takes what the check pulls: some bytes, below 2 GiB, and with them the cached
data is below 4 GiB. -/
def Room : Prop :=
  ∀ curOffset, PullsAt p offset size curOffset → curOffset.toNat < src.length →
    (p.isDataAvailable offset size).1.que.length < capacity ∧ size ≠ 0 ∧
      min size.toNat (src.length - curOffset.toNat) < 2 ^ 31 ∧
      (p.isDataAvailable offset size).1.size.toNat +
        min size.toNat (src.length - curOffset.toNat) < 2 ^ 32

/-- The range starts in cached data that ends with the source, and goes on past it. -/
def PastCachedEnd : Prop :=
  ∃ curOffset, PullsAt p offset size curOffset ∧ offset < curOffset ∧
    src.length ≤ curOffset.toNat

variable {src p offset size}

theorem pullsAt_iff : PullsAt p offset size curOffset ↔
    ((p.isDataAvailable offset size).2.availability offset).1 = false ∧
      curOffset = ((p.isDataAvailable offset size).2.availability offset).2 := by
  unfold PullsAt
  rw [Prod.ext_iff]
  exact and_congr_right' eq_comm

instance : Decidable (Room src p offset size) :=
  decidable_of_iff
    (((p.isDataAvailable offset size).2.availability offset).1 = false →
      ((p.isDataAvailable offset size).2.availability offset).2.toNat < src.length →
      (p.isDataAvailable offset size).1.que.length < capacity ∧ size ≠ 0 ∧
        min size.toNat (src.length -
          ((p.isDataAvailable offset size).2.availability offset).2.toNat) < 2 ^ 31 ∧
        (p.isDataAvailable offset size).1.size.toNat + min size.toNat (src.length -
          ((p.isDataAvailable offset size).2.availability offset).2.toNat) < 2 ^ 32)
    ⟨fun h _ hpulls hlt => by
      obtain ⟨hno, rfl⟩ := pullsAt_iff.mp hpulls
      exact h hno hlt, fun h hno => h _ (pullsAt_iff.mpr ⟨hno, rfl⟩)⟩

instance : Decidable (PastCachedEnd src p offset size) :=
  decidable_of_iff
    (((p.isDataAvailable offset size).2.availability offset).1 = false ∧
      offset < ((p.isDataAvailable offset size).2.availability offset).2 ∧
      src.length ≤ ((p.isDataAvailable offset size).2.availability offset).2.toNat)
    (by simp only [PastCachedEnd, pullsAt_iff, and_assoc, exists_and_left, exists_eq_left])

end Condition

/-- A `ReadAt` of a plugin that gets its bytes. -/
structure ReadMet (src : List UInt8) (f : DemuxerFilter) (offset : Int64)
    (buffer : Option Buffer) (expectedLen : UInt64) : Prop where
  nonneg : 0 ≤ offset
  fits : ∃ bufferPtr, buffer = some bufferPtr ∧ expectedLen ≤ bufferPtr.memory.capacity
  prepared : f.pluginState ≠ .null
  valid : offset.toUInt64.toNat < src.length → f.isOffsetValid offset
  /-- The length survives the cast to `uint32_t`, as far as the source goes. -/
  some_bytes : expectedLen.toUInt32 ≠ 0
  whole : min expectedLen.toNat (src.length - offset.toUInt64.toNat) =
    min expectedLen.toUInt32.toNat (src.length - offset.toUInt64.toNat)
  room : Room src f.dataPacker offset.toUInt64 expectedLen.toUInt32
  not_past : ¬ PastCachedEnd src f.dataPacker offset.toUInt64 expectedLen.toUInt32

/-- A `ReadAt` of a sniffer that returns. It drops the cache too, but then tries again. -/
structure PeekMet (src : List UInt8) (f : DemuxerFilter) (offset : Int64)
    (expectedLen : UInt64) : Prop where
  nonneg : 0 ≤ offset
  room : Room src f.dataPacker offset.toUInt64 expectedLen.toUInt32
  again : PastCachedEnd src f.dataPacker offset.toUInt64 expectedLen.toUInt32 →
    Room src {} offset.toUInt64 expectedLen.toUInt32

def Met (src : List UInt8) (f : DemuxerFilter) : SourceCall → Prop
  | .readAt offset buffer expectedLen => ReadMet src f offset buffer expectedLen
  | .typeFinderReadAt offset _ expectedLen =>
    expectedLen ≠ 0 → DemuxerFilter.typeFinderIsOffsetValid f.mediaDataSize offset →
      PeekMet src f offset expectedLen
  | .setPluginState _ => True

-- Cached data

section Cache

variable {src : List UInt8} {stream : Stream} {p : DataPacker} {offset : UInt64} {size : UInt32}
  {pullData : PullData} {out : Buffer}

theorem bytes_length (b : Buffer) : b.bytes.length = b.memory.size.toNat := by
  unfold Buffer.bytes Segment.toList
  rw [List.length_map, List.length_range]
  rfl

theorem bytes_getElem? {b : Buffer} {i : Nat} (hi : i < b.memory.size.toNat) :
    b.bytes[i]? = some (b.memory.addr i) := by
  have hlt : i < (List.range b.segment.length).length := by rwa [List.length_range]
  show ((List.range b.segment.length).map b.segment.get)[i]? = _
  rw [List.getElem?_map, List.getElem?_eq_getElem hlt, List.getElem_range]
  rfl

theorem Packs.end_le (hp : Packs p (contents src)) (hsome : 0 < total p.segments) :
    p.mediaOffset.toNat + total p.segments ≤ src.length := by
  have hlast : contents src (p.mediaOffset.toNat + (total p.segments - 1)) ∈
      (p.segments.flatMap Segment.toList).map some := by
    rw [hp.covers.flatten]
    exact List.mem_map.mpr ⟨_, List.mem_range.mpr (by omega), rfl⟩
  obtain ⟨a, -, ha⟩ := List.mem_map.mp hlast
  have hlt := (List.getElem?_eq_some_iff.mp ha.symm).1
  omega

/-- Bytes of the source that are written over it change nothing. -/
theorem write_contents {b : Buffer} {n : Nat}
    (hb : b.bytes = (src.drop offset.toNat).take n) :
    write (contents src) offset.toNat b.segment = contents src := by
  funext i
  unfold write
  split
  next hin =>
    have hlt : i - offset.toNat < b.memory.size.toNat := by
      have := hin.2
      rw [show b.segment.length = b.memory.size.toNat from rfl] at this
      omega
    have hlen : i - offset.toNat < n := by
      have hle : b.bytes.length ≤ n := by
        rw [hb]
        exact List.length_take_le _ _
      rw [bytes_length] at hle
      omega
    have hbyte := bytes_getElem? hlt
    rw [hb, List.getElem?_take_of_lt hlen, List.getElem?_drop,
      Nat.add_sub_cancel' hin.1] at hbyte
    exact hbyte.symm
  · rfl

theorem bytes_of_copied {lo count : Nat} (hsize : out.memory.size.toNat = count)
    (hbytes : Copied (contents src) lo count out.memory) :
    out.bytes = (src.drop lo).take count := by
  refine List.ext_getElem? fun i => ?_
  by_cases hi : i < count
  · rw [bytes_getElem? (hsize ▸ hi), List.getElem?_take_of_lt hi, List.getElem?_drop]
    exact (hbytes i hi).symm
  · rw [List.getElem?_eq_none (by rw [bytes_length]; omega),
      List.getElem?_eq_none (by rw [List.length_take]; omega)]

-- IsDataAvailable

theorem availableLoop_spec (offsetEnd prev : UInt64) (bs : List Buffer)
    (hfit : prev.toNat + total (bs.map Buffer.segment) < 2 ^ 64) :
    availableLoop offsetEnd prev bs = (true, none) ∨
      ∃ curOffset, availableLoop offsetEnd prev bs = (false, some curOffset) ∧
        curOffset.toNat = prev.toNat + total (bs.map Buffer.segment) ∧
        curOffset < offsetEnd := by
  induction bs generalizing prev with
  | nil =>
    unfold availableLoop
    split
    · exact .inl rfl
    next hgt => exact .inr ⟨prev, rfl, rfl, UInt64.not_le.mp hgt⟩
  | cons b rest ih =>
    rw [total_buffers] at hfit ⊢
    have hsum : (prev + getBufferSize b).toNat = prev.toNat + b.memory.size.toNat :=
      toNat_sum (by show _ + b.memory.size.toNat < _; omega)
    unfold availableLoop
    simp only
    split
    · exact .inl rfl
    · rcases ih (prev + getBufferSize b) (by omega) with h | ⟨curOffset, h, hend, hlt⟩
      · exact .inl h
      · exact .inr ⟨curOffset, h, by omega, hlt⟩

/-- A check finds the range, drops the cache, or is told where the cached data ends. -/
theorem isDataAvailable_cases (hp : Packs p stream) (hend : offset.toNat + size.toNat < 2 ^ 64) :
    (∃ end?, (p.isDataAvailable offset size).2 = .available true end?) ∨
    (PullsAt p offset size offset ∧ (p.isDataAvailable offset size).1 = {} ∧
      (p.que ≠ [] → p.mediaOffset.toNat ≤ offset.toNat →
        p.mediaOffset.toNat + total p.segments < offset.toNat)) ∨
    ∃ curOffset, PullsAt p offset size curOffset ∧ (p.isDataAvailable offset size).1 = p ∧
      p.que ≠ [] ∧ curOffset.toNat = p.mediaOffset.toNat + total p.segments ∧
      p.mediaOffset.toNat ≤ offset.toNat ∧ offset.toNat ≤ curOffset.toNat ∧
      curOffset.toNat < offset.toNat + size.toNat := by
  have hfit := hp.end_lt
  have hsize := hp.size_eq
  have hsum : (offset + size.toUInt64).toNat = offset.toNat + size.toNat := by
    rw [toNat_sum (by rwa [UInt32.toNat_toUInt64]), UInt32.toNat_toUInt64]
  have hcached : (p.mediaOffset + p.size.toUInt64).toNat =
      p.mediaOffset.toNat + total p.segments := by
    rw [toNat_sum (by rw [UInt32.toNat_toUInt64]; omega), UInt32.toNat_toUInt64, hsize]
  unfold PullsAt DataPacker.isDataAvailable
  simp only
  split
  next hque => exact .inr (.inl ⟨rfl, rfl, fun hne => absurd hque hne⟩)
  next front rest hque =>
    have htotal := Packs.total_eq hque
    have hfront : (p.mediaOffset + getBufferSize front).toNat =
        p.mediaOffset.toNat + front.memory.size.toNat :=
      toNat_sum (by show _ + front.memory.size.toNat < _; omega)
    have hne : p.que ≠ [] := hque ▸ List.cons_ne_nil _ _
    split
    next hmiss =>
      rw [UInt64.lt_iff_toNat_lt, UInt64.lt_iff_toNat_lt, hcached] at hmiss
      exact .inr (.inl ⟨rfl, rfl, fun _ hlo => hmiss.resolve_left (Nat.not_lt.mpr hlo)⟩)
    next hhit =>
      rw [not_or, UInt64.not_lt, UInt64.not_lt, UInt64.le_iff_toNat_le, UInt64.le_iff_toNat_le,
        hcached] at hhit
      split
      next hone =>
        rw [List.isEmpty_iff.mp hone, List.map_nil, total] at htotal
        by_cases hle : offset + size.toUInt64 ≤ p.mediaOffset + getBufferSize front
        · exact .inl ⟨_, by rw [decide_eq_true hle]⟩
        · refine .inr (.inr ⟨p.mediaOffset + getBufferSize front, ?_, rfl, hne, by omega,
            hhit.1, by omega, ?_⟩)
          · rw [decide_eq_false hle]
            rfl
          · rw [UInt64.le_iff_toNat_le] at hle
            omega
      next hmany =>
        rcases availableLoop_spec (offset + size.toUInt64) (p.mediaOffset + getBufferSize front)
          rest (by omega) with h | ⟨curOffset, h, hcur, hlt⟩
        · exact .inl ⟨none, by rw [h]⟩
        · refine .inr (.inr ⟨curOffset, by rw [h]; rfl, rfl, hne, by omega, hhit.1, by omega, ?_⟩)
          rw [UInt64.lt_iff_toNat_lt, hsum] at hlt
          exact hlt

-- PushData

theorem pushData_accepted {b : Buffer} (h : p.Accepts b) (offset : UInt64) :
    (p.pushData b offset).2 = .void ∧ (p.pushData b offset).1.que = p.que ++ [b] ∧
      (p.pushData b offset).1.mediaOffset =
        if p.que.isEmpty then offset else p.mediaOffset := by
  unfold pushData
  rw [if_neg (not_not_intro h.1), if_neg (Nat.not_le.mpr h.2)]
  refine ⟨rfl, ?_, ?_⟩
  · simp only
    split
    · rfl
    · rfl
  · simp only
    split
    · rfl
    · rfl

/-- **What is pulled joins the cache.** -/
theorem push_pulled {b : Buffer} {n : Nat} (hp : Packs p (contents src))
    (hstart : p.que ≠ [] → offset.toNat = p.mediaOffset.toNat + p.size.toNat)
    (hfit : offset.toNat + n < 2 ^ 64) (hb : b.bytes = (src.drop offset.toNat).take n)
    (hlt : offset.toNat < src.length) (hn : n ≠ 0) (hfull : p.que.length < capacity)
    (hsmall : min n (src.length - offset.toNat) < 2 ^ 31)
    (hsize : p.size.toNat + min n (src.length - offset.toNat) < 2 ^ 32) :
    ∃ q, p.pushData b offset = (q, .void) ∧ Packs q (contents src) ∧ q.que ≠ [] ∧
      q.mediaOffset.toNat = (if p.que.isEmpty then offset else p.mediaOffset).toNat ∧
      q.mediaOffset.toNat + total q.segments =
        offset.toNat + min n (src.length - offset.toNat) := by
  have hcount : b.memory.size.toNat = min n (src.length - offset.toNat) := by
    rw [← bytes_length, hb, List.length_take, List.length_drop]
  have hacc : p.Accepts b := by
    refine ⟨?_, hfull⟩
    show 0 < b.memory.size
    rw [UInt64.lt_iff_toNat_lt, hcount, UInt64.toNat_zero]
    omega
  obtain ⟨hvoid, hque, hoffset⟩ := pushData_accepted hacc offset
  have hkeeps : KeepsStream (p, contents src) (.pushData b offset) := fun _ =>
    ⟨hstart, by omega, by rw [hcount]; exact hsize, by rw [hcount]; omega⟩
  have hpacks := hp.pushData hkeeps
  have hrecord : record (contents src) p (.pushData b offset) (p.pushData b offset).1 =
      contents src := (if_pos hacc).trans (write_contents hb)
  rw [hrecord] at hpacks
  have hne : (p.pushData b offset).1.que ≠ [] := by
    rw [hque]
    exact List.append_ne_nil_of_right_ne_nil _ (List.cons_ne_nil _ _)
  refine ⟨_, Prod.ext rfl hvoid, hpacks, hne, congrArg UInt64.toNat hoffset, ?_⟩
  rw [hoffset, DataPacker.segments, hque, List.map_append]
  have hsingle : total (p.que.map Buffer.segment ++ [b].map Buffer.segment) =
      total p.segments + b.memory.size.toNat := total_append
  rw [hsingle, hcount]
  split
  next hempty =>
    have hnone : total p.segments = 0 := by
      rw [DataPacker.segments, List.isEmpty_iff.mp hempty]
      rfl
    omega
  next hsome =>
    have hstart := hstart fun hnil => hsome (List.isEmpty_iff.mpr hnil)
    have htotal := hp.size_eq
    omega

-- checkRange_

/-- The packer holds the range, as far as the source has it. -/
structure Ready (src : List UInt8) (p : DataPacker) (offset : UInt64) (size : UInt32) : Prop where
  packs : Packs p (contents src)
  cached : p.que ≠ []
  lo : p.mediaOffset.toNat ≤ offset.toNat
  hi : min (offset.toNat + size.toNat) src.length ≤ p.mediaOffset.toNat + total p.segments
  within : offset.toNat ≤ p.mediaOffset.toNat + total p.segments
  inside : size ≠ 0 → offset.toNat < src.length

theorem checkRange_available {end? : Option UInt64}
    (h : (p.isDataAvailable offset size).2 = .available true end?) :
    DemuxerFilter.checkRange pullData p offset size =
      ((p.isDataAvailable offset size).1, some true) := by
  simp only [DemuxerFilter.checkRange, h, Reply.availability, if_true]

theorem checkRange_pulled {b : Buffer} {q : DataPacker}
    (h : PullsAt p offset size curOffset)
    (hpull : pullData curOffset size.toUInt64 (allocMemory size.toUInt64) = (.success, b))
    (hpush : (p.isDataAvailable offset size).1.pushData b curOffset = (q, .void)) :
    DemuxerFilter.checkRange pullData p offset size = (q, some true) := by
  unfold PullsAt at h
  simp only [DemuxerFilter.checkRange, h, Bool.false_eq_true, if_false, hpull, hpush]

/-- At the end of the source nothing that is cached seems worth keeping. -/
theorem checkRange_ended (h : PullsAt p offset size curOffset)
    (hpull : (pullData curOffset size.toUInt64 (allocMemory size.toUInt64)).1 = .endOfStream)
    (hcached : offset < curOffset → 0 < (p.isDataAvailable offset size).1.size) :
    DemuxerFilter.checkRange pullData p offset size = ({}, some false) := by
  unfold PullsAt at h
  have hnone : (decide (offset < curOffset) && !(p.isDataAvailable offset size).1.isEmpty) =
      false := by
    by_cases hlt : offset < curOffset
    · rw [DataPacker.isEmpty, decide_eq_true (hcached hlt), Bool.not_true, Bool.and_false]
    · rw [decide_eq_false hlt, Bool.false_and]
  simp only [DemuxerFilter.checkRange, h, Bool.false_eq_true, if_false]
  generalize pullData curOffset size.toUInt64 (allocMemory size.toUInt64) = answer at hpull
  obtain ⟨code, b⟩ := answer
  have hpull : code = .endOfStream := hpull
  subst hpull
  simp only [hnone, Bool.false_eq_true, if_false]
  rfl

theorem checkRange_pulls {q : DataPacker} (hup : Supplies pullData src)
    (hfit : curOffset.toNat + size.toNat < 2 ^ 64) (hroom : Room src p offset size)
    (hpulls : PullsAt p offset size curOffset) (hq : (p.isDataAvailable offset size).1 = q)
    (hpacks : Packs q (contents src))
    (hcur : q.que ≠ [] → curOffset.toNat = q.mediaOffset.toNat + q.size.toNat)
    (hlo : (if q.que.isEmpty then curOffset else q.mediaOffset).toNat ≤ offset.toNat)
    (hle : offset.toNat ≤ curOffset.toNat) (hcached : offset < curOffset → 0 < q.size) :
    (∃ q', DemuxerFilter.checkRange pullData p offset size = (q', some true) ∧
      Ready src q' offset size) ∨
    (DemuxerFilter.checkRange pullData p offset size = ({}, some false) ∧
      (src.length ≤ offset.toNat ∨ PastCachedEnd src p offset size)) := by
  by_cases hlt : curOffset.toNat < src.length
  · obtain ⟨b, hpull, hb⟩ := hup.bytes curOffset size.toUInt64 (allocMemory size.toUInt64)
      (UInt64.le_refl _) hlt
    obtain ⟨hfull, hsome, hsmall, hsize⟩ := hroom curOffset hpulls hlt
    rw [hq] at hfull hsize
    rw [UInt32.toNat_toUInt64] at hb
    have hpos : size.toNat ≠ 0 := fun hzero => hsome (UInt32.toNat_inj.mp hzero)
    obtain ⟨q', hpush, hpacks', hne, hoffset, hend⟩ :=
      push_pulled hpacks hcur hfit hb hlt hpos hfull hsmall hsize
    refine .inl ⟨q', checkRange_pulled hpulls hpull (hq ▸ hpush), hpacks', hne, ?_, ?_, ?_, ?_⟩
    · rwa [hoffset]
    · rw [hend]
      omega
    · rw [hend]
      omega
    · intro _
      omega
  · have hended := hup.ends curOffset size.toUInt64 (allocMemory size.toUInt64) (by omega)
    refine .inr ⟨checkRange_ended hpulls hended (hq ▸ hcached), ?_⟩
    by_cases hbefore : offset < curOffset
    · exact .inr ⟨curOffset, hpulls, hbefore, by omega⟩
    · rw [UInt64.lt_iff_toNat_lt] at hbefore
      exact .inl (by omega)

/-- **A check leaves the range in the packer**, as far as the source has it. It fails past the
end of the source, and for the ranges that are lost; then the packer is empty. -/
theorem checkRange_spec (hup : Supplies pullData src) (hp : Packs p (contents src))
    (hlt : offset.toNat < 2 ^ 63) (hroom : Room src p offset size) :
    (∃ q, DemuxerFilter.checkRange pullData p offset size = (q, some true) ∧
      Ready src q offset size) ∨
    (DemuxerFilter.checkRange pullData p offset size = ({}, some false) ∧
      (src.length ≤ offset.toNat ∨ PastCachedEnd src p offset size)) := by
  have hword := size.toNat_lt
  have hend : offset.toNat + size.toNat < 2 ^ 64 := by omega
  rcases isDataAvailable_cases hp hend with ⟨end?, havail⟩ | ⟨hpulls, hflush, -⟩ |
      ⟨curOffset, hpulls, hsame, hne, hcur, hlo, hle, hcurlt⟩
  · -- the range is cached
    obtain ⟨hsame, hne, hlo, hhi⟩ := isDataAvailable_true hp hend havail
    refine .inl ⟨p, ?_, hp, hne, hlo, by omega, by omega, fun hsome => ?_⟩
    · rw [checkRange_available havail, hsame]
    · have hpos : size.toNat ≠ 0 := fun hzero => hsome (UInt32.toNat_inj.mp hzero)
      have hle := hp.end_le (by omega)
      omega
  · -- the cache was dropped
    refine checkRange_pulls hup hend hroom hpulls hflush (.empty rfl rfl)
      (fun hne => absurd rfl hne) (Nat.le_refl _) (Nat.le_refl _) fun hlt => ?_
    exact absurd hlt (UInt64.lt_irrefl offset)
  · -- the range starts in the cache, and the pull is to extend it
    have hsize := hp.size_eq
    have hsome : ¬ p.que.isEmpty = true := fun hnil => hne (List.isEmpty_iff.mp hnil)
    refine checkRange_pulls hup (by omega) hroom hpulls hsame hp (fun _ => by omega) ?_ hle
      fun hbefore => ?_
    · rwa [if_neg hsome]
    · rw [UInt64.lt_iff_toNat_lt] at hbefore
      rw [UInt32.lt_iff_toNat_lt, UInt32.toNat_zero]
      omega

-- Reads of a packer that holds the range

theorem Ready.getRange (h : Ready src p offset size) (hlt : offset.toNat < 2 ^ 63)
    (hsome : size ≠ 0) (hcap : size.toUInt64 ≤ out.memory.capacity) :
    ∃ out', (p.getRange offset size out).2 = .range true out' ∧
      out'.bytes = (src.drop offset.toNat).take size.toNat := by
  obtain ⟨front, rest, hque⟩ := List.exists_cons_of_ne_nil h.cached
  have hlo := h.lo
  have hhi := h.hi
  have hinside := h.inside hsome
  have hpos : size.toNat ≠ 0 := fun hzero => hsome (UInt32.toNat_inj.mp hzero)
  have hle := h.packs.end_le (by omega)
  have hin : offset.toNat < p.mediaOffset.toNat + total p.segments := by omega
  have hword := size.toNat_lt
  have hend : offset.toNat + size.toNat < 2 ^ 64 := by omega
  -- `GetRange` notes the last position before it copies
  have hnoted : Packs { p with prevGet := p.currentGet } (contents src) :=
    h.packs.congr rfl rfl rfl
  obtain ⟨hposition, hcount, hbytes⟩ :=
    peekRangeInternal_fills hnoted hque hlo hend (fun _ => hin) hcap
  have hall : min size.toNat (p.mediaOffset.toNat + total p.segments - offset.toNat) =
      min size.toNat (src.length - offset.toNat) := by omega
  refine ⟨_, (getRange_reply hque hcap).trans (congrArg (Reply.range · _) hposition), ?_⟩
  have hread := bytes_of_copied hcount hbytes
  rw [hread, List.take_eq_take_iff, List.length_drop]
  show min (min size.toNat (p.mediaOffset.toNat + total p.segments - offset.toNat)) _ = _
  omega

theorem peekRange_returns (hne : p.que ≠ []) (offset : UInt64) (size : UInt32) (out : Buffer) :
    ∃ result out', (p.peekRange offset size out).2 = .range result out' := by
  obtain ⟨front, rest, hque⟩ := List.exists_cons_of_ne_nil hne
  unfold DataPacker.peekRange
  rw [hque]
  exact ⟨_, _, rfl⟩

theorem Ready.room (h : Ready src p offset size) (hoffset : offset.toNat < 2 ^ 63) :
    Room src p offset size := by
  intro curOffset hpulls hlt
  have hhi := h.hi
  have hword := size.toNat_lt
  have hend : offset.toNat + size.toNat < 2 ^ 64 := by omega
  rcases isDataAvailable_cases h.packs hend with ⟨end?, havail⟩ | ⟨-, -, hmiss⟩ |
      ⟨curOffset', hpulls', -, -, hcur, -, hle, hlt'⟩
  · unfold PullsAt at hpulls
    rw [havail] at hpulls
    exact absurd (congrArg Prod.fst hpulls) Bool.noConfusion
  · exact absurd (hmiss h.cached h.lo) (Nat.not_lt.mpr h.within)
  · obtain rfl : curOffset = curOffset' := congrArg Prod.snd (hpulls.symm.trans hpulls')
    omega

theorem pullsAt_empty (h : PullsAt {} offset size curOffset) :
    offset = curOffset :=
  congrArg Prod.snd (show (false, offset) = (false, curOffset) from h)

theorem room_empty (hle : src.length ≤ offset.toNat) : Room src {} offset size := by
  intro curOffset hpulls hlt
  rw [← pullsAt_empty hpulls] at hlt
  omega

theorem not_pastCachedEnd_empty : ¬ PastCachedEnd src {} offset size := by
  rintro ⟨curOffset, hpulls, hlt, -⟩
  rw [pullsAt_empty hpulls] at hlt
  exact UInt64.lt_irrefl curOffset hlt

-- The calls

theorem offset_lt {offset : Int64} (hoffset : 0 ≤ offset) : offset.toUInt64.toNat < 2 ^ 63 := by
  rw [Int64.toNat_toUInt64_of_le hoffset]
  exact offset.toNatClampNeg_lt

theorem getRange_answers {len : UInt64} (hup : Supplies pullData src)
    (hp : Packs p (contents src)) (hlt : offset.toNat < 2 ^ 63) (hcap : len ≤ out.memory.capacity)
    (hsome : len.toUInt32 ≠ 0) (hroom : Room src p offset len.toUInt32)
    (hpast : ¬ PastCachedEnd src p offset len.toUInt32) :
    ∃ q r, DemuxerFilter.getRange pullData p offset len out = (q, r) ∧ Packs q (contents src) ∧
      if offset.toNat < src.length then ∃ out', r = .range true out' ∧
        out'.bytes = (src.drop offset.toNat).take len.toUInt32.toNat
      else r = .range false out := by
  unfold DemuxerFilter.getRange DemuxerFilter.throughCheck
  rcases checkRange_spec hup hp hlt hroom with ⟨q, hcheck, hready⟩ | ⟨hcheck, hwhy⟩
  · have hcap' : len.toUInt32.toUInt64 ≤ out.memory.capacity := by
      rw [UInt64.le_iff_toNat_le] at hcap ⊢
      rw [UInt32.toNat_toUInt64, UInt64.toNat_toUInt32]
      exact (Nat.mod_le _ _).trans hcap
    obtain ⟨out', hreply, hbytes⟩ := hready.getRange hlt hsome hcap'
    refine ⟨_, _, by rw [hcheck], hready.packs.getRange _ _ _, ?_⟩
    rw [if_pos (hready.inside hsome)]
    exact ⟨out', hreply, hbytes⟩
  · refine ⟨_, _, by rw [hcheck], .empty rfl rfl, ?_⟩
    rw [if_neg (Nat.not_lt.mpr (hwhy.resolve_right hpast))]

theorem readAt_answers {f : DemuxerFilter} {offset : Int64} {buffer : Option Buffer}
    {len : UInt64} (hup : Supplies pullData src)
    (hp : Packs f.dataPacker (contents src)) (hm : ReadMet src f offset buffer len) :
    Answers src (.readAt offset buffer len) (f.readAt pullData offset buffer len).2 ∧
      Packs (f.readAt pullData offset buffer len).1.dataPacker (contents src) := by
  obtain ⟨bufferPtr, rfl, hcap⟩ := hm.fits
  have hlen : len ≠ 0 := by
    rintro rfl
    exact hm.some_bytes rfl
  have htake : (src.drop offset.toUInt64.toNat).take len.toUInt32.toNat =
      (src.drop offset.toUInt64.toNat).take len.toNat := by
    rw [List.take_eq_take_iff, List.length_drop]
    exact hm.whole.symm
  obtain ⟨q, r, hread, hpacks, hr⟩ := getRange_answers hup hp (offset_lt hm.nonneg) hcap
    hm.some_bytes hm.room hm.not_past
  rw [htake] at hr
  have hanswer : ∀ failure, failure ≠ .ok →
      Answers src (.readAt offset (some bufferPtr) len) (r.toRead failure) := by
    intro failure hfailure
    unfold Answers
    by_cases hlt : offset.toUInt64.toNat < src.length
    · simp only [if_pos hlt] at hr ⊢
      obtain ⟨out', rfl, hbytes⟩ := hr
      exact ⟨out', rfl, hbytes⟩
    · simp only [if_neg hlt] at hr ⊢
      subst hr
      exact ⟨failure, hfailure, rfl⟩
  unfold DemuxerFilter.readAt
  simp only
  split
  next hinvalid =>
    refine ⟨?_, hp⟩
    have hpast : ¬ offset.toUInt64.toNat < src.length := by
      intro hlt
      rcases hinvalid with hzero | hinvalid
      · exact hlen hzero
      · rw [hm.valid hlt] at hinvalid
        exact absurd hinvalid Bool.noConfusion
    show if _ then _ else _
    rw [if_neg hpast]
    exact ⟨.errorUnknown, by decide, rfl⟩
  · split
    next hnull => exact absurd hnull hm.prepared
    · rw [hread]
      exact ⟨hanswer _ (by decide), hpacks⟩
    · rw [hread]
      exact ⟨hanswer _ (by decide), hpacks⟩

theorem tryCheckRange_spec (hup : Supplies pullData src) (hlt : offset.toNat < 2 ^ 63)
    (left : Nat) (hp : Packs p (contents src))
    (hroom : Room src p offset size)
    (hagain : PastCachedEnd src p offset size → Room src {} offset size) :
    ∃ q i, DemuxerFilter.tryCheckRange pullData offset size left p = (q, some i) ∧
      Packs q (contents src) ∧ Room src q offset size := by
  induction left generalizing p with
  | zero =>
    unfold DemuxerFilter.tryCheckRange
    rcases checkRange_spec hup hp hlt hroom with ⟨q, hcheck, hready⟩ | ⟨hcheck, hwhy⟩
    · exact ⟨q, _, by rw [hcheck], hready.packs, hready.room hlt⟩
    · exact ⟨{}, _, by rw [hcheck], .empty rfl rfl, hwhy.elim room_empty hagain⟩
  | succ left ih =>
    unfold DemuxerFilter.tryCheckRange
    rcases checkRange_spec hup hp hlt hroom with ⟨q, hcheck, hready⟩ | ⟨hcheck, hwhy⟩
    · exact ⟨q, _, by rw [hcheck], hready.packs, hready.room hlt⟩
    · -- the next try starts from an empty packer
      rw [hcheck]
      exact ih (.empty rfl rfl) (hwhy.elim room_empty hagain)
        fun hpast => absurd hpast not_pastCachedEnd_empty

theorem peekRange_answers {len : UInt64} (out : Buffer) (hup : Supplies pullData src)
    (hp : Packs p (contents src)) (hlt : offset.toNat < 2 ^ 63)
    (hroom : Room src p offset len.toUInt32) :
    ∃ q result out', DemuxerFilter.peekRange pullData p offset len out =
      (q, .range result out') ∧ Packs q (contents src) := by
  unfold DemuxerFilter.peekRange DemuxerFilter.throughCheck
  rcases checkRange_spec hup hp hlt hroom with ⟨q, hcheck, hready⟩ | ⟨hcheck, -⟩
  · obtain ⟨result, out', hreply⟩ := peekRange_returns hready.cached offset len.toUInt32 out
    exact ⟨_, result, out', by rw [hcheck]; exact Prod.ext rfl hreply,
      hready.packs.peekRange _ _ _⟩
  · exact ⟨{}, false, out, by rw [hcheck], .empty rfl rfl⟩

theorem typeFinderReadAt_answers {f : DemuxerFilter} {offset : Int64} {buffer : Option Buffer}
    {len : UInt64} (hup : Supplies pullData src)
    (hp : Packs f.dataPacker (contents src))
    (hm : Met src f (.typeFinderReadAt offset buffer len)) :
    Answers src (.typeFinderReadAt offset buffer len)
        (f.typeFinderReadAt pullData offset buffer len).2 ∧
      Packs (f.typeFinderReadAt pullData offset buffer len).1.dataPacker (contents src) := by
  unfold DemuxerFilter.typeFinderReadAt
  split
  · exact ⟨⟨_, _, rfl⟩, hp⟩
  next bufferPtr =>
    split
    · exact ⟨⟨_, _, rfl⟩, hp⟩
    next hvalid =>
      rw [not_or, Bool.not_eq_true', Bool.not_eq_false] at hvalid
      obtain ⟨hnonneg, hroom, hagain⟩ := hm hvalid.1 hvalid.2
      have hlt := offset_lt hnonneg
      obtain ⟨q, i, htry, hpacks, hroom⟩ :=
        tryCheckRange_spec hup hlt maxTryTimes hp hroom hagain
      rw [htry]
      simp only
      split
      · exact ⟨⟨_, _, rfl⟩, hpacks⟩
      · obtain ⟨q', result, out', hpeek, hpacks'⟩ :=
          peekRange_answers bufferPtr hup hpacks hlt hroom
        rw [hpeek]
        refine ⟨?_, hpacks'⟩
        cases result with
        | true | false => exact ⟨_, _, rfl⟩

/-- **One call** is answered, and leaves a packer that caches a range of the source. -/
theorem perform_answers {f : DemuxerFilter} {c : SourceCall} (hup : Supplies pullData src)
    (hp : Packs f.dataPacker (contents src)) (hm : Met src f c) :
    Answers src c (f.perform pullData c).2 ∧
      Packs (f.perform pullData c).1.dataPacker (contents src) := by
  cases c with
  | readAt offset buffer len => exact readAt_answers hup hp hm
  | typeFinderReadAt offset buffer len => exact typeFinderReadAt_answers hup hp hm
  | setPluginState s => exact ⟨⟨_, _, rfl⟩, hp⟩

end Cache

-- Runs

theorem Answers.returns {src : List UInt8} {c : SourceCall} {r : ReadReply}
    (h : Answers src c r) : ∃ rtv out, r = .returns rtv out := by
  cases c with
  | readAt offset buffer len =>
    by_cases hlt : offset.toUInt64.toNat < src.length
    · rw [Answers, if_pos hlt] at h
      obtain ⟨out, hr, -⟩ := h
      exact ⟨_, _, hr⟩
    · rw [Answers, if_neg hlt] at h
      obtain ⟨rtv, -, hr⟩ := h
      exact ⟨_, _, hr⟩
  | typeFinderReadAt offset buffer len | setPluginState s => exact h

/-- Upstream of a source: the bytes are copied, and their number is noted. -/
def pullFrom (src : List UInt8) : PullData := fun offset size b =>
  if offset.toNat < src.length then
    let count := min size.toNat (src.length - offset.toNat)
    (.success, { b with
      memory := (b.memory.copyIn 0 count fun i => src.getD (offset.toNat + i) 0).updateDataSize
        (.ofNat count) })
  else (.endOfStream, b)

theorem supplies_pullFrom (src : List UInt8) : Supplies (pullFrom src) src where
  bytes offset size b hcap hlt := by
    refine ⟨_, if_pos hlt, ?_⟩
    have hsize := size.toNat_lt
    have hcount : (UInt64.ofNat (min size.toNat (src.length - offset.toNat))).toNat =
        min size.toNat (src.length - offset.toNat) :=
      UInt64.toNat_ofNat_of_lt (by show _ < 2 ^ 64; omega)
    have hroom : UInt64.ofNat (min size.toNat (src.length - offset.toNat)) ≤
        b.memory.capacity := by
      rw [UInt64.le_iff_toNat_le] at hcap ⊢
      omega
    rw [Memory.updateDataSize_eq (m := b.memory.copyIn 0 _ _) hroom]
    rw [bytes_of_copied hcount, List.take_eq_take_iff, List.length_drop]
    · omega
    · intro i hi
      have hin : offset.toNat + i < src.length := by omega
      show src[offset.toNat + i]? = some (Ring.store b.memory.addr 0 _
        (fun i => src.getD (offset.toNat + i) 0) i)
      rw [Ring.store_of_mem (Nat.zero_le i) (by omega), Nat.sub_zero, List.getD_eq_getElem?_getD,
        List.getElem?_eq_getElem hin]
      rfl
  ends offset size b hle := by
    show (ite _ _ _ : PullCode × Buffer).1 = _
    rw [if_neg (Nat.not_lt.mpr hle)]

def fiveBytes : List UInt8 := [1, 2, 3, 4, 5]

def parsing : DemuxerFilter := { pluginState := .parseFrame }

def readInto (capacity : UInt64) (offset : Int64) (expectedLen : UInt64) : SourceCall :=
  .readAt offset (some (allocMemory capacity)) expectedLen

/-- The second read is past what is cached, and the last one is past the end of the source. -/
def readAll : List SourceCall :=
  [readInto 8 0 4, readInto 8 2 8, .typeFinderReadAt 0 (some (allocMemory 8)) 2, readInto 8 9 1]

end MediaFoundation.Demux
