import MediaFoundation.Basic
import MediaFoundation.Meta.Meta

/-!
# Cloning a buffer

`AVBuffer::Clone` and `CopyAVMemory` (`avbuffer.cpp`) over the bytes at all
addresses. The copy begins at the base of the destination, and the destination
then gets the offset of the source, too.

Conventions:

* An address is a number, and `GetAddr` gives the same one each time. Two
  memories may overlap, or be one.
* `memcpy_s` fails for more room than `SECUREC_MEM_MAX`, for more bytes than
  there is room, and for ranges that overlap, and then clears the destination.
* The pointers to the two buffers are not null.
-/

namespace MediaFoundation.BufferClone

abbrev Bytes := Nat → UInt8

/-- A memory at an address. `SetSize` and `SetOffset` keep the size and the offset
within the capacity. -/
structure Memory where
  addr : Option Nat
  capacity : Int32
  offset : Int32
  size : Int32
  offset_mem : 0 ≤ offset ∧ offset ≤ capacity
  size_mem : 0 ≤ size ∧ size ≤ capacity

structure Buffer where
  pts : Int64
  dts : Int64
  duration : Int64
  flag : UInt32
  metadata : Option Meta
  memory : Option Memory

def eos : UInt32 := 1

def securecMemMax : Nat := 0x7fffffff

namespace Memory

def setSize (m : Memory) (size : Int32) : Memory :=
  if h : size ≤ m.capacity ∧ 0 ≤ size then { m with size, size_mem := ⟨h.2, h.1⟩ } else m

def setOffset (m : Memory) (offset : Int32) : Memory :=
  if h : offset ≤ m.capacity ∧ 0 ≤ offset then { m with offset, offset_mem := ⟨h.2, h.1⟩ } else m

/-- The `GetSize()` bytes from `GetAddr() + GetOffset()`. -/
def payload (m : Memory) (bytes : Bytes) : List UInt8 :=
  match m.addr with
  | some addr =>
    (List.range m.size.toInt.toNat).map fun i => bytes (addr + m.offset.toInt.toNat + i)
  | none => []

end Memory

-- Clone

def clear (bytes : Bytes) (dest count : Nat) : Bytes := fun a =>
  if dest ≤ a ∧ a < dest + count then 0 else bytes a

def copy (bytes : Bytes) (dest src count : Nat) : Bytes := fun a =>
  if dest ≤ a ∧ a < dest + count then bytes (src + (a - dest)) else bytes a

/-- Whether the call returns `EOK`, and the bytes afterwards. -/
def memcpyS (bytes : Bytes) (dest destMax src count : Nat) : Bool × Bytes :=
  if destMax = 0 ∨ securecMemMax < destMax then (false, bytes)
  else if destMax < count then (false, clear bytes dest destMax)
  else if (dest < src ∧ src < dest + count) ∨ (src < dest ∧ dest < src + count) then
    (false, clear bytes dest destMax)
  else (true, copy bytes dest src count)

/-- What a call does: its status, the destination and the bytes afterwards, and where it
has read and how much. -/
structure Cloned where
  status : Status
  dst : Buffer
  bytes : Bytes
  reads : List (Nat × Nat) := []

def copyMeta (src dst : Buffer) : Buffer := { dst with metadata := src.metadata }

def copyAVMemory (bytes : Bytes) (src dst : Buffer) : Cloned :=
  match src.memory, dst.memory with
  | some srcMemory, some dstMemory =>
    match srcMemory.addr, dstMemory.addr with
    | some srcAddr, some dstAddr =>
      if dstMemory.capacity < srcMemory.size then
        { status := .errorInvalidBufferSize, dst, bytes }
      else
        let from_ := srcAddr + srcMemory.offset.toInt.toNat
        let count := srcMemory.size.toInt.toNat
        let copied := memcpyS bytes dstAddr dstMemory.capacity.toInt.toNat from_ count
        if !copied.1 then { status := .errorUnknown, dst, bytes := copied.2, reads := [(from_, count)] }
        else
          let dstMemory := (dstMemory.setSize srcMemory.size).setOffset srcMemory.offset
          { status := .ok, dst := { dst with memory := some dstMemory }, bytes := copied.2,
            reads := [(from_, count)] }
    | _, _ => { status := .errorNullPointBuffer, dst, bytes }
  | _, _ => { status := .errorNullPointBuffer, dst, bytes }

def clone (bytes : Bytes) (src dst : Buffer) : Cloned :=
  let dst := { dst with pts := src.pts, dts := src.dts, duration := src.duration, flag := src.flag }
  let dst := copyMeta src dst
  if dst.flag &&& eos ≠ 0 then { status := .ok, dst, bytes }
  else copyAVMemory bytes src dst

-- The payload

def ReadsWithin (m : Memory) (reads : List (Nat × Nat)) : Prop :=
  ∀ r ∈ reads, ∀ a, r.1 ≤ a → a < r.1 + r.2 →
    ∃ addr, m.addr = some addr ∧ addr ≤ a ∧ a < addr + m.capacity.toInt.toNat

/-- **A faithful clone** has read within its source and has its payload. -/
def Faithful (bytes : Bytes) (src dst : Buffer) : Prop :=
  ∃ m m', src.memory = some m ∧ (clone bytes src dst).dst.memory = some m' ∧
    ReadsWithin m (clone bytes src dst).reads ∧
    m'.payload (clone bytes src dst).bytes = m.payload bytes

/-- The offset that the destination gets: that of the source, or its own when that of
the source is too large. -/
def offsetOf (m m' : Memory) : Int32 := if m.offset ≤ m'.capacity then m.offset else m'.offset

/-- The payload lies within the capacity of the source. After its bytes at the base of
the destination come the old ones, and what stands at the offset is the payload again. -/
def Fits (bytes : Bytes) (src dst : Buffer) : Prop :=
  ∃ m m' addr addr', src.memory = some m ∧ dst.memory = some m' ∧ m.addr = some addr ∧
    m'.addr = some addr' ∧ m.offset.toInt + m.size.toInt ≤ m.capacity.toInt ∧
    let offset := (offsetOf m m').toInt.toNat
    let size := m.size.toInt.toNat
    let payload := addr + m.offset.toInt.toNat
    ∀ i < size, (if offset + i < size then bytes (payload + (offset + i))
      else bytes (addr' + (offset + i))) = bytes (payload + i)

-- A clone that succeeds

namespace Memory

variable {m m' : Memory}

theorem toInt_mem (m : Memory) : 0 ≤ m.offset.toInt ∧ m.offset.toInt ≤ m.capacity.toInt ∧
    0 ≤ m.size.toInt ∧ m.size.toInt ≤ m.capacity.toInt := by
  have hoffset := m.offset_mem
  have hsize := m.size_mem
  simp only [Int32.le_iff_toInt_le, Int32.toInt_zero] at hoffset hsize
  exact ⟨hoffset.1, hoffset.2, hsize⟩

/-- The memory after both calls: the size that fits, and the offset if it does. -/
theorem set_eq (h : m.size ≤ m'.capacity) :
    ((m'.setSize m.size).setOffset m.offset).addr = m'.addr ∧
      ((m'.setSize m.size).setOffset m.offset).size = m.size ∧
      ((m'.setSize m.size).setOffset m.offset).offset = offsetOf m m' := by
  have hsize : m'.setSize m.size = { m' with size := m.size, size_mem := ⟨m.size_mem.1, h⟩ } :=
    dif_pos ⟨h, m.size_mem.1⟩
  rw [hsize]
  unfold setOffset offsetOf
  by_cases hoffset : m.offset ≤ m'.capacity
  · rw [dif_pos ⟨hoffset, m.offset_mem.1⟩, if_pos hoffset]
    exact ⟨rfl, rfl, rfl⟩
  · rw [dif_neg fun hle => hoffset hle.1, if_neg hoffset]
    exact ⟨rfl, rfl, rfl⟩

end Memory

variable {bytes : Bytes} {src dst : Buffer}

theorem memcpyS_ok {dest destMax from_ count : Nat} (h : (memcpyS bytes dest destMax from_ count).1) :
    (memcpyS bytes dest destMax from_ count).2 = copy bytes dest from_ count := by
  unfold memcpyS at h ⊢
  split_ifs at h ⊢
  rfl

theorem clone_ok (hstatus : (clone bytes src dst).status = .ok) (hflag : src.flag &&& eos = 0) :
    ∃ m m' addr addr', src.memory = some m ∧ dst.memory = some m' ∧ m.addr = some addr ∧
      m'.addr = some addr' ∧ m.size ≤ m'.capacity ∧
      (clone bytes src dst).dst.memory = some ((m'.setSize m.size).setOffset m.offset) ∧
      (clone bytes src dst).bytes =
        copy bytes addr' (addr + m.offset.toInt.toNat) m.size.toInt.toNat ∧
      (clone bytes src dst).reads = [(addr + m.offset.toInt.toNat, m.size.toInt.toNat)] := by
  unfold clone copyAVMemory copyMeta at *
  simp only [hflag, ne_eq, not_true_eq_false, if_false] at hstatus ⊢
  cases hsrc : src.memory with
  | none => rw [hsrc] at hstatus; cases hstatus
  | some m =>
    cases hdst : dst.memory with
    | none => rw [hsrc, hdst] at hstatus; cases hstatus
    | some m' =>
      simp only [hsrc, hdst] at hstatus ⊢
      cases haddr : m.addr with
      | none => rw [haddr] at hstatus; cases hstatus
      | some addr =>
        cases haddr' : m'.addr with
        | none => rw [haddr, haddr'] at hstatus; cases hstatus
        | some addr' =>
          simp only [haddr, haddr'] at hstatus ⊢
          split at hstatus
          · cases hstatus
          next hsize =>
            split at hstatus
            · cases hstatus
            next hcopied =>
              rw [Bool.not_eq_true, Bool.not_eq_false'] at hcopied
              rw [if_neg hsize, hcopied]
              exact ⟨m, m', addr, addr', rfl, rfl, haddr, haddr', Int32.not_lt.mp hsize, rfl,
                memcpyS_ok hcopied, rfl⟩

theorem readsWithin_iff {m : Memory} {addr : Nat} (haddr : m.addr = some addr) :
    ReadsWithin m [(addr + m.offset.toInt.toNat, m.size.toInt.toNat)] ↔
      m.offset.toInt + m.size.toInt ≤ m.capacity.toInt := by
  obtain ⟨hoffset, hoffset', hsize, hsize'⟩ := m.toInt_mem
  unfold ReadsWithin
  simp only [List.mem_singleton, forall_eq, haddr, Option.some.injEq, exists_eq_left']
  constructor
  · intro h
    by_cases hempty : m.size.toInt = 0
    · omega
    · have hlast := h (addr + m.offset.toInt.toNat + m.size.toInt.toNat - 1) (by omega) (by omega)
      omega
  · intro h a hlo hhi
    omega

theorem copy_at (bytes : Bytes) (dest from_ count k : Nat) :
    copy bytes dest from_ count (dest + k) =
      if k < count then bytes (from_ + k) else bytes (dest + k) := by
  unfold copy
  by_cases hk : k < count
  · rw [if_pos ⟨by omega, by omega⟩, if_pos hk, Nat.add_sub_cancel_left]
  · rw [if_neg (by omega), if_neg hk]

theorem faithful_iff_fits (hstatus : (clone bytes src dst).status = .ok)
    (hflag : src.flag &&& eos = 0) : Faithful bytes src dst ↔ Fits bytes src dst := by
  obtain ⟨m, m', addr, addr', hsrc, hdst, haddr, haddr', hsize, hmemory, hbytes, hreads⟩ :=
    clone_ok hstatus hflag
  obtain ⟨haddr'', hsize', hoffset'⟩ := Memory.set_eq hsize
  have hpayload : ((m'.setSize m.size).setOffset m.offset).payload (clone bytes src dst).bytes =
      m.payload bytes ↔ ∀ i < m.size.toInt.toNat,
        (if (offsetOf m m').toInt.toNat + i < m.size.toInt.toNat
          then bytes (addr + m.offset.toInt.toNat + ((offsetOf m m').toInt.toNat + i))
          else bytes (addr' + ((offsetOf m m').toInt.toNat + i))) =
            bytes (addr + m.offset.toInt.toNat + i) := by
    unfold Memory.payload
    rw [haddr'', haddr', haddr, hsize', hoffset', hbytes]
    simp only [List.map_inj_left, List.mem_range, Nat.add_assoc addr', copy_at]
  unfold Faithful Fits
  simp only [hsrc, hdst, hmemory, hreads, Option.some.injEq, exists_and_left, exists_eq_left',
    haddr, haddr', readsWithin_iff haddr, hpayload]

def Buffer.payload (b : Buffer) (bytes : Bytes) : Option (List UInt8) :=
  b.memory.map fun m => m.payload bytes

theorem Faithful.payload_eq (h : Faithful bytes src dst) :
    (clone bytes src dst).dst.payload (clone bytes src dst).bytes = src.payload bytes := by
  obtain ⟨m, m', hsrc, hdst, -, hpayload⟩ := h
  rw [Buffer.payload, Buffer.payload, hsrc, hdst]
  exact congrArg some hpayload

/-- **When a clone is faithful**: if it succeeds, and the stream has not ended. The clone of
a faithful clone, when it is one, has the same payload again. -/
theorem clone_faithful (hstatus : (clone bytes src dst).status = .ok)
    (hflag : src.flag &&& eos = 0) :
    (Faithful bytes src dst ↔ Fits bytes src dst) ∧
      ∀ third, Faithful bytes src dst →
        Faithful (clone bytes src dst).bytes (clone bytes src dst).dst third →
          (clone (clone bytes src dst).bytes (clone bytes src dst).dst third).dst.payload
            (clone (clone bytes src dst).bytes (clone bytes src dst).dst third).bytes =
              src.payload bytes :=
  ⟨faithful_iff_fits hstatus hflag, fun _ h h' => h'.payload_eq.trans h.payload_eq⟩

-- two memories of 16 bytes in a row of numbers

def memoryAt (addr : Nat) (offset size : Int32) (hoffset : 0 ≤ offset ∧ offset ≤ 16)
    (hsize : 0 ≤ size ∧ size ≤ 16) : Memory where
  addr := some addr
  capacity := 16
  offset := offset
  size := size
  offset_mem := hoffset
  size_mem := hsize

def bufferAt (memory : Memory) : Buffer where
  pts := 5
  dts := 0
  duration := 0
  flag := 0
  metadata := none
  memory := some memory

def numbers : Bytes := fun a => UInt8.ofNat a

def source (offset size : Int32) (hoffset : 0 ≤ offset ∧ offset ≤ 16)
    (hsize : 0 ≤ size ∧ size ≤ 16) : Buffer :=
  bufferAt (memoryAt 100 offset size hoffset hsize)

theorem zero_within : (0 : Int32) ≤ 0 ∧ (0 : Int32) ≤ 16 := by decide

def destination : Buffer := bufferAt (memoryAt 200 0 0 zero_within zero_within)

theorem clone_faithful_base : Faithful numbers (source 0 4 (by decide) (by decide)) destination := by
  refine (clone_faithful rfl rfl).1.mpr ⟨_, _, 100, 200, rfl, rfl, rfl, rfl, by decide, ?_⟩
  decide

/-- The payload at offset 4 arrives at the base, and the destination looks for it at
offset 4; the payload of 16 bytes at offset 4 is read beyond the capacity. -/
theorem clone_misplaces :
    ((clone numbers (source 4 4 (by decide) (by decide)) destination).status = .ok ∧
      ¬ Faithful numbers (source 4 4 (by decide) (by decide)) destination) ∧
    ((clone numbers (source 4 16 (by decide) (by decide)) destination).status = .ok ∧
      ¬ Faithful numbers (source 4 16 (by decide) (by decide)) destination) := by
  refine ⟨⟨rfl, ?_⟩, rfl, ?_⟩
  · rw [faithful_iff_fits rfl rfl]
    rintro ⟨_, _, _, _, ⟨⟩, ⟨⟩, ⟨⟩, ⟨⟩, -, hbytes⟩
    exact absurd (hbytes 0 (by decide)) (by decide)
  · rw [faithful_iff_fits rfl rfl]
    rintro ⟨_, _, _, _, ⟨⟩, ⟨⟩, ⟨⟩, ⟨⟩, hend, -⟩
    exact absurd hend (by decide)

end MediaFoundation.BufferClone
