import MediaFoundation.Basic
import MediaFoundation.Common.MessageParcel

/-!
# AVMemory

The memory of an `AVBuffer` and its way through a parcel (`avmemory.cpp`,
`av_shared_memory_ext.cpp`, `av_hardware_memory.cpp`). The writer sends the
numbers of the memory, and the descriptor only on demand; the reader makes a
new memory of all of it, or brings the offset and the size of one it already
has up to date and skips the rest.

Conventions:

* The memory itself is not modelled, only the object behind its descriptor.
  `AshmemGetSize` and `GetFdSize` are the size of that object, descriptors are
  duplicated without fail, and `mmap` says which mappings succeed.
* A surface memory is read and written by the graphics library. It is left
  out: to the reader its type is one that it does not know.
-/

namespace MediaFoundation

open Wire ParcelM

/-- The part of a memory that `AVMemory` itself keeps. `SetOffset`, `SetSize` and
`Write` keep the offset and the size within the capacity. -/
structure AVMemoryCommon where
  capacity : Int32
  align : Int32
  offset : Int32
  size : Int32
  offset_mem : 0 ≤ offset ∧ offset ≤ capacity
  size_mem : 0 ≤ size ∧ size ≤ capacity

inductive AVMemorySubclass where
  | virtual
  | sharedExt
  | hardware (isSecure : Bool)

structure AVMemory extends AVMemoryCommon where
  subclass : AVMemorySubclass
  fd : Option Backing
  memFlag : MemoryFlag

/-- Whether a memory object can be mapped with this capacity and flag. -/
abbrev Mmap := Backing → Int32 → MemoryFlag → Bool

namespace AVMemory

def getMemoryType (m : AVMemory) : MemoryType :=
  match m.subclass with
  | .virtual => .virtualMemory
  | .sharedExt => .sharedMemory
  | .hardware _ => .hardwareMemory

-- Writing

def writeCommonToMessageParcel (m : AVMemory) : ParcelM Unit := Call.rewinding do
  writeInt32 m.capacity
  writeInt32 m.align
  writeInt32 m.offset
  writeInt32 m.size

/-- `WriteToMessageParcel` of both memories that can be sent. -/
def writeFd (m : AVMemory) (updateAVMemory : Bool) : ParcelM Unit := Call.rewinding do
  writeBool updateAVMemory
  if updateAVMemory then do
    writeFileDescriptor m.fd
    writeUint32 m.memFlag.toUInt8.toUInt32
  else pure ()

def writeToMessageParcel (m : AVMemory) (updateAVMemory : Bool) : ParcelM Unit :=
  match m.subclass with
  | .virtual => Call.fail
  | .sharedExt => m.writeFd updateAVMemory
  | .hardware isSecure => if isSecure then Call.fail else m.writeFd updateAVMemory

-- Reading into a memory

def skipCommonFromMessageParcel (m : AVMemory) : ParcelM AVMemory := do
  skipInt32 2
  let offset ← readInt32Into
  if hoffset : 0 ≤ offset ∧ offset ≤ m.capacity then do
    let size ← readInt32Into
    if hsize : 0 ≤ size ∧ size ≤ m.capacity then
      pure { m with offset, size, offset_mem := hoffset, size_mem := hsize }
    else Call.fail
  else Call.fail

/-- The descriptor that arrives is closed again. -/
def readFromMessageParcel (m : AVMemory) : ParcelM Unit :=
  match m.subclass with
  | .virtual => Call.fail
  | _ => do
    let updateAVMemory ← readBool
    if updateAVMemory then do
      let _ ← readFileDescriptor
      let _ ← readUint32
      pure ()
    else pure ()

-- Reading a new memory

def readCommonFromMessageParcel : ParcelM AVMemoryCommon := do
  let capacity ← readInt32Into
  if 0 ≤ capacity then do
    let align ← readInt32Into
    if align ≤ capacity ∧ 0 ≤ align then do
      let offset ← readInt32Into
      if hoffset : 0 ≤ offset ∧ offset ≤ capacity then do
        let size ← readInt32Into
        if hsize : 0 ≤ size ∧ size ≤ capacity then
          pure { capacity, align, offset, size, offset_mem := hoffset, size_mem := hsize }
        else Call.fail
      else Call.fail
    else Call.fail
  else Call.fail

def readMemoryFlag : ParcelM MemoryFlag := do
  let flag ← readUint32
  match MemoryFlag.ofUInt8 flag.toUInt8 with
  | .unlisted _ _ => Call.fail
  | flagValue => pure flagValue

def initShared (common : AVMemoryCommon) : ParcelM AVMemory := do
  let update ← readBool
  if update then do
    match ← readFileDescriptor with
    | some backing =>
      if backing.size.toInt32 = common.capacity then do
        let memFlag ← readMemoryFlag
        pure { common with subclass := .sharedExt, fd := some backing, memFlag }
      else Call.fail
    | none => Call.fail
  else Call.fail

def mapMemoryAddr (mmap : Mmap) (backing : Backing) (capacity : Int32) (memFlag : MemoryFlag) :
    Bool :=
  decide (0 < capacity) && decide (capacity.toInt64 ≤ backing.size) && mmap backing capacity memFlag

/-- `AVHardwareMemory::Init`. The allocator that it makes is not a secure one. -/
def initHardware (mmap : Mmap) (common : AVMemoryCommon) : ParcelM AVMemory := do
  let update ← readBool
  if update then do
    match ← readFileDescriptor with
    | some backing => do
      let memFlag ← readMemoryFlag
      if mapMemoryAddr mmap backing common.capacity memFlag then
        pure { common with subclass := .hardware false, fd := some backing, memFlag }
      else Call.fail
    | none => Call.fail
  else Call.fail

def createAVMemory (mmap : Mmap) : ParcelM AVMemory := do
  let type ← readUint8
  match MemoryType.ofUInt8 type with
  | .sharedMemory => do
    let common ← readCommonFromMessageParcel
    initShared common
  | .hardwareMemory => do
    let common ← readCommonFromMessageParcel
    initHardware mmap common
  | _ => Call.fail

-- The round trip

/-- The reader accepts the descriptor: it is as large as a shared memory says,
and a hardware memory, which is not a secure one, can be mapped again. -/
def Covers (mmap : Mmap) (m : AVMemory) (backing : Backing) : Prop :=
  match m.subclass with
  | .virtual => False
  | .sharedExt => backing.size.toInt32 = m.capacity
  | .hardware isSecure => isSecure = false ∧ mapMemoryAddr mmap backing m.capacity m.memFlag

/-- The memory passes the checks of the reader. -/
structure Sendable (mmap : Mmap) (m : AVMemory) : Prop where
  align_mem : m.align ≤ m.capacity ∧ 0 ≤ m.align
  listed : ∀ code h, m.memFlag ≠ .unlisted code h
  covers : ∃ backing, m.fd = some backing ∧ Covers mmap m backing

variable {mmap : Mmap} {m mc : AVMemory}

theorem writeCommon_carries (h : m.align ≤ m.capacity ∧ 0 ≤ m.align) :
    Carries m.writeCommonToMessageParcel readCommonFromMessageParcel m.toAVMemoryCommon := by
  have hcapacity : 0 ≤ m.capacity := Int32.le_trans m.size_mem.1 m.size_mem.2
  refine Carries.rewinding (Carries.bind (a := m.capacity) (.take rfl) ?_)
  simp only [if_pos hcapacity]
  refine Carries.bind (a := m.align) (.take rfl) ?_
  simp only [if_pos h]
  refine Carries.bind (a := m.offset) (.take rfl) ?_
  simp only [dif_pos m.offset_mem]
  exact Carries.last (a := m.size) (.take rfl) (dif_pos m.size_mem)

theorem readMemoryFlag_carries {flag : MemoryFlag} (h : ∀ code h, flag ≠ .unlisted code h) :
    Carries (writeUint32 flag.toUInt8.toUInt32) readMemoryFlag flag := by
  refine Carries.last (a := flag.toUInt8.toUInt32) (.takeD rfl) ?_
  simp only [UInt8.toUInt8_toUInt32, MemoryFlag.ofUInt8_toUInt8]

/-- Only a secure allocator keeps its descriptor to itself. -/
theorem writeToMessageParcel_eq {backing : Backing} (h : Covers mmap m backing)
    (updateAVMemory : Bool) : m.writeToMessageParcel updateAVMemory = m.writeFd updateAVMemory := by
  unfold writeToMessageParcel
  unfold Covers at h
  cases hsub : m.subclass with
  | virtual => rw [hsub] at h; exact absurd h id
  | sharedExt => rfl
  | hardware isSecure =>
    rw [hsub] at h
    simp only [h.1]
    rfl

/-- **A memory is made again** of what the writer sends of it. -/
theorem createAVMemory_carries (h : m.Sendable mmap) :
    Carries
      (writeUint8 m.getMemoryType.toUInt8 >>= fun _ => m.writeCommonToMessageParcel >>= fun _ =>
        m.writeToMessageParcel true)
      (createAVMemory mmap) m := by
  obtain ⟨backing, hfd, hcovers⟩ := h.covers
  refine Carries.bind (a := m.getMemoryType.toUInt8) (.takeD rfl) ?_
  simp only [MemoryType.ofUInt8_toUInt8]
  have hcommon := writeCommon_carries h.align_mem
  have hflag := readMemoryFlag_carries h.listed
  have hfield : Carries (writeFileDescriptor m.fd) readFileDescriptor (some backing) := by
    rw [hfd]
    exact .takeD rfl
  have hupdate : Carries (writeBool true) readBool true := .takeD rfl
  have hwrite := writeToMessageParcel_eq hcovers true
  obtain ⟨common, subclass, fd, memFlag⟩ := m
  have hfd : fd = some backing := hfd
  subst hfd
  cases subclass with
  | virtual => exact absurd hcovers id
  | sharedExt =>
    have hsize : backing.size.toInt32 = common.capacity := hcovers
    refine hcommon.bind ?_
    rw [hwrite]
    refine Carries.rewinding (hupdate.bind ?_)
    refine hfield.bind ?_
    simp only [if_pos hsize]
    exact hflag.last rfl
  | hardware isSecure =>
    obtain ⟨hsecure, hmap⟩ := hcovers
    subst hsecure
    refine hcommon.bind ?_
    rw [hwrite]
    refine Carries.rewinding (hupdate.bind ?_)
    exact hfield.bind (hflag.last (if_pos hmap))

-- The update of a copy

structure Same (m mc : AVMemory) : Prop where
  capacity : mc.capacity = m.capacity
  align : mc.align = m.align
  subclass : mc.subclass = m.subclass
  fd : mc.fd = m.fd
  memFlag : mc.memFlag = m.memFlag

theorem skipCommon_carries (hsame : m.Same mc) :
    Carries m.writeCommonToMessageParcel mc.skipCommonFromMessageParcel m := by
  obtain ⟨common, subclass, fd, memFlag⟩ := m
  obtain ⟨common', subclass', fd', memFlag'⟩ := mc
  obtain ⟨hcapacity, halign, hsubclass, hfd, hflag⟩ := hsame
  obtain ⟨capacity, align, offset, size, hoffset, hsize⟩ := common
  obtain ⟨capacity', align', offset', size', hoffset', hsize'⟩ := common'
  simp only at hcapacity halign hsubclass hfd hflag
  subst hcapacity halign hsubclass hfd hflag
  refine ⟨[.int32 _, .int32 _, .int32 offset, .int32 size],
    ((Puts.put _).bind ((Puts.put _).bind ((Puts.put _).bind (.put _)))).rewinding, ?_⟩
  -- the capacity and the alignment are skipped
  refine (skipInt32_takes [_, _]).bind (Takes.cons (a := offset) (.take rfl) ?_)
  simp only [dif_pos hoffset]
  refine Takes.last (a := size) (.take rfl) ?_
  simp only [dif_pos hsize]
  exact .pure _

theorem readFd_carries (h : m.Sendable mmap) (updateAVMemory : Bool) :
    Carries (m.writeToMessageParcel updateAVMemory) m.readFromMessageParcel () := by
  obtain ⟨backing, hfd, hcovers⟩ := h.covers
  have hfield : Carries (writeFileDescriptor m.fd) readFileDescriptor (some backing) := by
    rw [hfd]
    exact .takeD rfl
  have hread : Carries (m.writeFd updateAVMemory) (do
      let updateAVMemory ← readBool
      if updateAVMemory then do
        let _ ← readFileDescriptor
        let _ ← readUint32
        pure ()
      else pure ()) () := by
    refine Carries.rewinding (Carries.bind (a := updateAVMemory) (.takeD rfl) ?_)
    cases updateAVMemory with
    | false => exact .pure ()
    | true =>
      refine hfield.bind (Carries.last (a := m.memFlag.toUInt8.toUInt32) (.takeD rfl) rfl)
  rw [writeToMessageParcel_eq hcovers]
  unfold readFromMessageParcel
  unfold Covers at hcovers
  cases hsub : m.subclass with
  | virtual => rw [hsub] at hcovers; exact absurd hcovers id
  | sharedExt | hardware isSecure => exact hread

end AVMemory

end MediaFoundation
