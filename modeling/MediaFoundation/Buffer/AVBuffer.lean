import MediaFoundation.Buffer.AVMemory
import MediaFoundation.Meta.Meta

/-!
# AVBuffer

`AVBuffer::WriteToMessageParcel` and `ReadFromMessageParcel` (`avbuffer.cpp`).
A buffer without memory makes one from the parcel and takes over the identity
of the sender; a buffer that has one follows the sender if it is the same.

Convention: `meta_` is not null, since every `CreateAVBuffer` sets it.
-/

namespace MediaFoundation

open Wire ParcelM
open Std (ExtTreeMap)

structure AVBuffer where
  uniqueId : UInt64
  pts : Int64
  dts : Int64
  duration : Int64
  flag : UInt32
  metadata : Meta
  memory : Option AVMemory
  /-- The upper half of a generated id counts from one. -/
  uniqueId_ne : uniqueId ≠ 0

namespace AVBuffer

-- WriteToMessageParcel and ReadFromMessageParcel

def writeAttributes (b : AVBuffer) : ParcelM Unit := do
  writeUint64 (if b.memory.isNone then 0 else b.uniqueId)
  writeInt64 b.pts
  writeInt64 b.dts
  writeInt64 b.duration
  writeUint32 b.flag
  b.metadata.toParcel

def writeToMessageParcel (b : AVBuffer) (updateAVMemory : Bool) : ParcelM Unit :=
  match b.memory with
  | none => b.writeAttributes.rewinding
  | some m =>
    if m.getMemoryType = .virtualMemory then do
      -- what has been written stays in the parcel
      b.writeAttributes.rewinding
      Call.fail
    else Call.rewinding do
      b.writeAttributes
      writeUint8 m.getMemoryType.toUInt8
      m.writeCommonToMessageParcel
      m.writeToMessageParcel updateAVMemory

/-- `ReadFromMessageParcel` of a buffer that is not read as a surface buffer. A
failure leaves the buffer as it was. -/
def readFromMessageParcel (rawDataCapacity : Nat) (mmap : Mmap) (b : AVBuffer) :
    ParcelM AVBuffer := do
  let uid ← readUint64Into
  let pts ← readInt64Into
  let dts ← readInt64Into
  let duration ← readInt64Into
  let flag ← readUint32Into
  let metadata ← Meta.fromParcel rawDataCapacity
  match b.memory with
  | some m =>
    if b.uniqueId ≠ uid then Call.fail
    else do
      let _ ← readUint8
      let m ← m.skipCommonFromMessageParcel
      m.readFromMessageParcel
      pure { b with pts, dts, duration, flag, metadata, memory := some m }
  | none =>
    if huid : uid ≠ 0 then do
      let m ← AVMemory.createAVMemory mmap
      pure { uniqueId := uid, pts, dts, duration, flag, metadata, memory := some m,
             uniqueId_ne := huid }
    else pure { b with pts, dts, duration, flag, metadata }

-- The round trip

structure Sendable (rawDataCapacity : Nat) (mmap : Mmap) (b : AVBuffer) : Prop where
  memory : ∃ m, b.memory = some m ∧ m.Sendable mmap
  metadata : b.metadata.Parcelable rawDataCapacity

def IsCopy (b c : AVBuffer) : Prop :=
  c.uniqueId = b.uniqueId ∧ ∃ m mc, b.memory = some m ∧ c.memory = some mc ∧ m.Same mc

variable {rawDataCapacity : Nat} {mmap : Mmap} {b c : AVBuffer}

theorem attributes_carries {w : ParcelM Unit} {k : UInt64 → Int64 → Int64 → Int64 → UInt32 →
      Meta → ParcelM AVBuffer} (hb : b.Sendable rawDataCapacity mmap)
    (h : Carries w (k b.uniqueId b.pts b.dts b.duration b.flag b.metadata) c) :
    Carries (b.writeAttributes >>= fun _ => w) (do
      let uid ← readUint64Into
      let pts ← readInt64Into
      let dts ← readInt64Into
      let duration ← readInt64Into
      let flag ← readUint32Into
      let metadata ← Meta.fromParcel rawDataCapacity
      k uid pts dts duration flag metadata) c := by
  obtain ⟨m, hm, -⟩ := hb.memory
  have huid : (if b.memory.isNone then 0 else b.uniqueId) = b.uniqueId := by rw [hm]; rfl
  simp only [writeAttributes, Call.bind_assoc, huid]
  refine Carries.bind (a := b.uniqueId) (.take rfl) ?_
  refine Carries.bind (a := b.pts) (.take rfl) ?_
  refine Carries.bind (a := b.dts) (.take rfl) ?_
  refine Carries.bind (a := b.duration) (.take rfl) ?_
  refine Carries.bind (a := b.flag) (.take rfl) ?_
  exact (Meta.toParcel_carries hb.metadata).bind h

theorem writeToMessageParcel_eq {m : AVMemory} (hb : b.memory = some m) (hm : m.Sendable mmap)
    (updateAVMemory : Bool) :
    b.writeToMessageParcel updateAVMemory = (b.writeAttributes >>= fun _ =>
      writeUint8 m.getMemoryType.toUInt8 >>= fun _ => m.writeCommonToMessageParcel >>= fun _ =>
        m.writeToMessageParcel updateAVMemory).rewinding := by
  obtain ⟨backing, -, hcovers⟩ := hm.covers
  have htype : m.getMemoryType ≠ .virtualMemory := by
    unfold AVMemory.Covers at hcovers
    unfold AVMemory.getMemoryType
    cases hsub : m.subclass with
    | virtual => rw [hsub] at hcovers; exact absurd hcovers id
    | sharedExt | hardware isSecure => exact nofun
  unfold writeToMessageParcel
  rw [hb]
  exact if_neg htype

/-- **A new buffer** becomes what the sender is. -/
theorem new_carries (hb : b.Sendable rawDataCapacity mmap) (hc : c.memory = none) :
    Carries (b.writeToMessageParcel true) (c.readFromMessageParcel rawDataCapacity mmap) b := by
  obtain ⟨m, hm, hsend⟩ := hb.memory
  rw [writeToMessageParcel_eq hm hsend]
  refine Carries.rewinding (attributes_carries hb ?_)
  simp only [hc, dif_pos b.uniqueId_ne]
  refine (AVMemory.createAVMemory_carries hsend).last ?_
  rw [← hm]

/-- **A copy** is brought up to date. -/
theorem copy_carries (hb : b.Sendable rawDataCapacity mmap) (hc : b.IsCopy c)
    (updateAVMemory : Bool) :
    Carries (b.writeToMessageParcel updateAVMemory)
      (c.readFromMessageParcel rawDataCapacity mmap) b := by
  obtain ⟨m, hm, hsend⟩ := hb.memory
  obtain ⟨huid, m', mc, hm', hmc, hsame⟩ := hc
  obtain rfl : m = m' := Option.some.inj (hm.symm.trans hm')
  rw [writeToMessageParcel_eq hm hsend]
  refine Carries.rewinding (attributes_carries hb ?_)
  simp only [hmc, if_neg (not_not_intro huid)]
  refine Carries.bind (a := m.getMemoryType.toUInt8) (.takeD rfl) ?_
  refine (AVMemory.skipCommon_carries hsame).bind ?_
  refine (AVMemory.readFd_carries hsend updateAVMemory).last ?_
  obtain ⟨uid, pts, dts, duration, flag, metadata, memory, hne⟩ := b
  have huid : c.uniqueId = uid := huid
  have hm : memory = some m := hm
  subst huid hm
  rfl

/-- **AVBuffer parcel round trip.** A new buffer reads from the parcel exactly
what the sender wrote, and becomes equal to it; and a copy that reads what the
sender writes later, with or without its descriptor, is equal to it again. -/
theorem roundTrip (hb : b.Sendable rawDataCapacity mmap) :
    (∀ c : AVBuffer, c.memory = none →
        Carries (b.writeToMessageParcel true) (c.readFromMessageParcel rawDataCapacity mmap) b) ∧
      ∀ c : AVBuffer, b.IsCopy c → ∀ updateAVMemory,
        Carries (b.writeToMessageParcel updateAVMemory)
          (c.readFromMessageParcel rawDataCapacity mmap) b :=
  ⟨fun _ hc => new_carries hb hc, fun _ hc updateAVMemory => copy_carries hb hc updateAVMemory⟩

-- a shared memory of 16 bytes, and a hardware memory that may be secure

def sharedMemory (offset size : Int32) (hoffset : 0 ≤ offset ∧ offset ≤ 16)
    (hsize : 0 ≤ size ∧ size ≤ 16) : AVMemory where
  capacity := 16
  align := 8
  offset := offset
  size := size
  offset_mem := hoffset
  size_mem := hsize
  subclass := .sharedExt
  fd := some ⟨1, 16⟩
  memFlag := .memoryReadWrite

def hardwareMemory (align : Int32) (isSecure : Bool) : AVMemory where
  capacity := 16
  align := align
  offset := 0
  size := 0
  offset_mem := by decide
  size_mem := by decide
  subclass := .hardware isSecure
  fd := some ⟨1, 16⟩
  memFlag := .memoryReadWrite

def bufferOf (pts : Int64) (memory : Option AVMemory) : AVBuffer where
  uniqueId := 7
  pts := pts
  dts := 0
  duration := 0
  flag := 0
  metadata := ⟨∅⟩
  memory := memory
  uniqueId_ne := by decide

def sender : AVBuffer := bufferOf 5 (some (sharedMemory 1 2 (by decide) (by decide)))

/-- What the sender was when it was sent for the first time. -/
def staleCopy : AVBuffer := bufferOf 0 (some (sharedMemory 0 0 (by decide) (by decide)))

theorem roundTrip_sender :
    Carries (sender.writeToMessageParcel true)
        ((bufferOf 0 none).readFromMessageParcel 1000 fun _ _ _ => true) sender ∧
      Carries (sender.writeToMessageParcel false)
        (staleCopy.readFromMessageParcel 1000 fun _ _ _ => true) sender := by
  have hempty : ∀ (tag : String) (v : Any), (∅ : ExtTreeMap String Any)[tag]? = some v →
      Any.Parcelable (getDefaultAnyValue tag 0) v := fun tag v hv => by
    rw [ExtTreeMap.getElem?_empty] at hv
    cases hv
  have hb : sender.Sendable 1000 fun _ _ _ => true :=
    ⟨⟨_, rfl, by decide, nofun, _, rfl, rfl⟩, Nat.zero_le _, by decide, hempty⟩
  have hcopy : sender.IsCopy staleCopy := ⟨rfl, _, _, rfl, rfl, rfl, rfl, rfl, rfl, rfl⟩
  exact ⟨(roundTrip hb).1 _ rfl, (roundTrip hb).2 _ hcopy false⟩

/-- The writer refuses a secure hardware memory, and the reader one whose
alignment is larger than its capacity. -/
theorem secure_memory_is_refused :
    ((bufferOf 0 (some (hardwareMemory 0 true))).writeToMessageParcel true []).1 = none ∧
      ((bufferOf 0 (some (hardwareMemory 32 false))).writeToMessageParcel true []).1 = some () ∧
      ((bufferOf 0 none).readFromMessageParcel 1000 (fun _ _ _ => true)
        ((bufferOf 0 (some (hardwareMemory 32 false))).writeToMessageParcel true []).2).1 = none :=
  ⟨rfl, rfl, rfl⟩

end AVBuffer

end MediaFoundation
