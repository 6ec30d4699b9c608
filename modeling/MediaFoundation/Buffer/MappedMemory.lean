import MediaFoundation.Buffer.AVBufferCreate

/-!
# The memory at `base_`

`AVMemory` with all four subclasses and with what is mapped at `base_`
(`avmemory.cpp`, `av_virtual_memory.cpp`, `av_shared_memory_ext.cpp`,
`av_hardware_memory.cpp`, `av_surface_memory.cpp`): how a memory comes to be,
`SetSize`, `SetOffset`, `Write`, `Read`, `Reset`, and its update from a parcel.

Conventions:

* The numbers of a memory are what the code last stored there. Nothing is
  assumed of them.
* The bytes are left out. A call of `Write` or `Read` returns, beside the
  memory and its result, the sums and differences that it has formed, as exact
  numbers, and what it has passed to `memcpy_s`.
* `CreateAVMemory` is private. It is called by `AVBuffer`, whose checks come
  first, with the allocators of `AVAllocatorFactory`.
* The kernel and the graphics library are parameters, `Services`. They report
  true sizes; none gives memory of negative size.
-/

namespace MediaFoundation

open Wire ParcelM

structure SurfaceBuffer where
  id : Nat
  size : UInt32
deriving DecidableEq

structure Services where
  /-- `new uint8_t[capacity]`. -/
  heap : Int32 → Bool
  ashmemCreate : Int32 → Option Backing
  mmap : Mmap
  getVirAddr : SurfaceBuffer → Bool
  readSurface : ParcelM SurfaceBuffer

namespace MappedMemory

inductive Subclass where
  | virtual
  | surface
  | sharedExt
  | hardware (isSecure : Bool)
deriving DecidableEq

/-- The memory that a pointer leads to: the surface it belongs to, if any, and
the number of its bytes. -/
structure Region where
  surfaceBuffer : Option SurfaceBuffer
  length : Nat

end MappedMemory

open MappedMemory in
structure MappedMemory where
  subclass : Subclass
  capacity : Int32
  align : Int32
  offset : Int32 := 0
  size : Int32 := 0
  fd : Option Backing := none
  memFlag : MemoryFlag := .memoryReadWrite
  surfaceBuffer : Option SurfaceBuffer := none
  base : Option Region := none
  isFirstFlag : Bool := true

namespace MappedMemory

def invalidPosition : Int32 := -1

/-- The bytes of a file that a mapping of this length reaches. -/
def mapping (backing : Backing) (capacity : Int32) : Region :=
  ⟨none, min capacity.toInt.toNat backing.size.toUInt64.toNat⟩

-- Coming to be

/-- The allocators of `AVAllocatorFactory`. A surface allocator gives what its
configuration makes of the graphics library. -/
inductive Allocator where
  | virtual
  | surface (alloc : Option SurfaceBuffer)
  | shared (memFlag : MemoryFlag)
  | hardware (fd : Backing) (capacity : Int32) (memFlag : MemoryFlag) (isSecure : Bool)

section Creation

variable (services : Services)

/-- `CreateAVMemory` with an allocator, and the `Init` of its memory. -/
def createWithAllocator (allocator : Allocator) (capacity align : Int32) : Option MappedMemory :=
  match allocator with
  | .virtual =>
    let capacity := AVMemory.initCapacity capacity align
    if 0 ≤ capacity ∧ services.heap capacity then
      some { subclass := .virtual, capacity, align, base := some ⟨none, capacity.toInt.toNat⟩ }
    else none
  | .surface alloc =>
    match alloc with
    | some surfaceBuffer => some
        { subclass := .surface, capacity := surfaceBuffer.size.toInt32, align,
          surfaceBuffer := some surfaceBuffer }
    | none => none
  | .shared memFlag =>
    let capacity := AVMemory.initCapacity capacity align
    if 0 ≤ capacity then
      match services.ashmemCreate capacity with
      | some backing =>
        if backing.size.toInt32 = capacity then
          some { subclass := .sharedExt, capacity, align, fd := some backing, memFlag }
        else none
      | none => none
    else none
  | .hardware fd allocatorCapacity memFlag isSecure =>
    -- nothing is mapped of a secure buffer
    if isSecure then
      some { subclass := .hardware isSecure, capacity, align, fd := some fd, memFlag }
    else if AVMemory.mapMemoryAddr services.mmap fd allocatorCapacity memFlag then
      some { subclass := .hardware isSecure, capacity, align, fd := some fd, memFlag,
             base := some (mapping fd allocatorCapacity) }
    else none

/-- The numbers of the header of a parcel. -/
structure Common where
  capacity : Int32
  align : Int32
  offset : Int32
  size : Int32

def readCommonFromMessageParcel : ParcelM Common := do
  let capacity ← readInt32Into
  if 0 ≤ capacity then do
    let align ← readInt32Into
    if align ≤ capacity ∧ 0 ≤ align then do
      let offset ← readInt32Into
      if offset ≤ capacity ∧ 0 ≤ offset then do
        let size ← readInt32Into
        if size ≤ capacity ∧ 0 ≤ size then pure { capacity, align, offset, size } else Call.fail
      else Call.fail
    else Call.fail
  else Call.fail

def initSurfaceBuffer (common : Common) : ParcelM MappedMemory := do
  let update ← readBool
  if update then do
    let surfaceBuffer ← services.readSurface
    pure { common with
      subclass := .surface, capacity := surfaceBuffer.size.toInt32,
      surfaceBuffer := some surfaceBuffer }
  else Call.fail

def initShared (common : Common) : ParcelM MappedMemory := do
  let update ← readBool
  if update then do
    match ← readFileDescriptor with
    | some backing =>
      if backing.size.toInt32 = common.capacity then do
        let memFlag ← AVMemory.readMemoryFlag
        pure { common with subclass := .sharedExt, fd := some backing, memFlag }
      else Call.fail
    | none => Call.fail
  else Call.fail

def initHardware (common : Common) : ParcelM MappedMemory := do
  let update ← readBool
  if update then do
    match ← readFileDescriptor with
    | some backing => do
      let memFlag ← AVMemory.readMemoryFlag
      if AVMemory.mapMemoryAddr services.mmap backing common.capacity memFlag then
        pure { common with
          subclass := .hardware false, fd := some backing, memFlag,
          base := some (mapping backing common.capacity) }
      else Call.fail
    | none => Call.fail
  else Call.fail

def createAVMemory (isSurfaceBuffer : Bool) : ParcelM MappedMemory :=
  if isSurfaceBuffer then initSurfaceBuffer services ⟨0, 0, 0, 0⟩
  else do
    let type ← readUint8
    match MemoryType.ofUInt8 type with
    | .surfaceMemory => do
      let common ← readCommonFromMessageParcel
      initSurfaceBuffer services common
    | .sharedMemory => do
      let common ← readCommonFromMessageParcel
      initShared common
    | .hardwareMemory => do
      let common ← readCommonFromMessageParcel
      initHardware services common
    | _ => Call.fail

/-- The ways to a memory: the overloads of `CreateAVBuffer`, and a parcel. -/
inductive Origin where
  | allocator (allocator : Allocator) (capacity align : Int32)
  /-- The memory of the caller, of `capacity` bytes. -/
  | pointer (capacity size : Int32)
  | surface (surfaceBuffer : SurfaceBuffer)
  | parcel (isSurfaceBuffer : Bool) (parcel : MessageParcel)

def create : Origin → Option MappedMemory
  | .allocator allocator capacity align =>
    if 0 ≤ capacity ∧ 0 ≤ align then createWithAllocator services allocator capacity align
    else none
  | .pointer capacity size =>
    if 0 ≤ capacity ∧ 0 ≤ size ∧ size ≤ capacity then
      some { subclass := .virtual, capacity, align := 0, size,
             base := some ⟨none, capacity.toInt.toNat⟩ }
    else none
  | .surface surfaceBuffer => some
      { subclass := .surface, capacity := surfaceBuffer.size.toInt32, align := 0,
        size := surfaceBuffer.size.toInt32, surfaceBuffer := some surfaceBuffer }
  | .parcel isSurfaceBuffer p => (createAVMemory services isSurfaceBuffer p).1

end Creation

-- Access

/-- What a call has computed and copied: sums and differences as exact numbers,
and the places in this memory, with their lengths, that `memcpy_s` was given. -/
structure Access where
  exact : List Int := []
  copied : List (Int × Int) := []

def setSize (m : MappedMemory) (size : Int32) : MappedMemory :=
  if size ≤ m.capacity ∧ 0 ≤ size then { m with size } else m

def setOffset (m : MappedMemory) (offset : Int32) : MappedMemory :=
  if offset ≤ m.capacity ∧ 0 ≤ offset then { m with offset } else m

def reset (m : MappedMemory) : MappedMemory := { m with size := 0 }

/-- `GetAddr`. Shared memory and surfaces are mapped when somebody first asks, and a
surface only then. -/
def getAddr (services : Services) (m : MappedMemory) : MappedMemory :=
  if !m.isFirstFlag then m
  else
    match m.subclass, m.fd, m.surfaceBuffer with
    | .sharedExt, some backing, _ =>
      if 0 < m.capacity ∧ backing.size.toInt32 = m.capacity ∧
          services.mmap backing m.capacity m.memFlag then
        { m with base := some (mapping backing m.capacity), isFirstFlag := false }
      else m
    | .surface, _, some surfaceBuffer =>
      if services.getVirAddr surfaceBuffer then
        { m with base := some ⟨some surfaceBuffer, surfaceBuffer.size.toNat⟩, isFirstFlag := false }
      else { m with isFirstFlag := false }
    | _, _, _ => m

/-- `memcpy_s` with as much room as there is to copy. A negative length is too
large a `size_t`. -/
def memcpyS (length : Int32) (overlaps : Bool) : Bool := decide (0 < length) && !overlaps

/-- `GetMemoryFlag() & MEMORY_WRITE_ONLY`, and likewise `MEMORY_READ_ONLY`. -/
def hasFlag (m : MappedMemory) (flag : MemoryFlag) : Bool :=
  match m.subclass with
  | .virtual | .surface => true
  | _ => m.memFlag.toUInt8 &&& flag.toUInt8 ≠ 0

section Access

variable (services : Services)

/-- `Write` from a pointer that is not null, or is, and that leads into this memory, or
does not. The result is the number of bytes written. -/
def write (m : MappedMemory) (hasIn : Bool) (writeSize position : Int32) (overlaps : Bool) :
    MappedMemory × Int32 × Access :=
  if !hasIn ∨ ¬ 0 < writeSize ∨ !m.hasFlag .memoryWriteOnly then (m, 0, {})
  else
    let m := m.getAddr services
    if m.base.isNone then (m, 0, {})
    else
      let start := if position ≤ invalidPosition then m.size else min position m.capacity
      let unusedSize := m.capacity - start
      let length := min writeSize unusedSize
      let exact := [m.capacity.toInt - start.toInt, length.toInt + start.toInt]
      if length + start ≤ m.capacity then
        let copied := [(start.toInt, length.toInt)]
        if memcpyS length overlaps then
          ({ m with size := start + length }, length, { exact, copied })
        else (m, 0, { exact, copied })
      else (m, 0, { exact })

/-- `Read`, likewise. -/
def read (m : MappedMemory) (hasOut : Bool) (readSize position : Int32) (overlaps : Bool) :
    MappedMemory × Int32 × Access :=
  if !hasOut ∨ ¬ 0 < readSize ∨ !m.hasFlag .memoryReadOnly then (m, 0, {})
  else
    let m := m.getAddr services
    if m.base.isNone then (m, 0, {})
    else
      let start := if position ≤ invalidPosition then 0 else min position m.size
      let maxLength := if position ≤ invalidPosition then m.size else m.size - start
      let length := min readSize maxLength
      let exact := [m.size.toInt - start.toInt, length.toInt + start.toInt]
      if length + start ≤ m.capacity then
        let copied := [(start.toInt, length.toInt)]
        if memcpyS length overlaps then (m, length, { exact, copied })
        else (m, 0, { exact, copied })
      else (m, 0, { exact })

end Access

-- Updates from a parcel

/-- What a call leaves behind when it fails is part of the result. -/
def attempt {α : Type} (m : ParcelM α) : ParcelM (Option α) := fun p =>
  let r := m p
  (some r.1, r.2)

def readOffsetAndSize (capacity : Int32) : ParcelM (Int32 × Int32) := do
  skipInt32 2
  let offset ← readInt32Into
  if offset ≤ capacity ∧ 0 ≤ offset then do
    let size ← readInt32Into
    if size ≤ capacity ∧ 0 ≤ size then pure (offset, size) else Call.fail
  else Call.fail

/-- Whether the call succeeds, and the memory afterwards. -/
def skipCommonFromMessageParcel (m : MappedMemory) : ParcelM (Bool × MappedMemory) := do
  match ← attempt (readOffsetAndSize m.capacity) with
  | some (offset, size) => pure (true, { m with size, offset })
  | none => pure (false, m)

/-- `ReadFromMessageParcel` of the subclasses. A descriptor that arrives is closed
again; a surface is read in the place of the old one. -/
def readFromMessageParcel (services : Services) (m : MappedMemory) :
    ParcelM (Bool × MappedMemory) :=
  match m.subclass with
  | .virtual => pure (false, m)
  | .surface => do
    let update ← readBool
    if update then do
      match ← attempt services.readSurface with
      | some surfaceBuffer => pure (true, { m with surfaceBuffer := some surfaceBuffer })
      | none => pure (false, m)
    else pure (true, m)
  | _ => do
    let update ← readBool
    if update then do
      let _ ← readFileDescriptor
      let _ ← readUint32
      pure (true, m)
    else pure (true, m)

def updateFromMessageParcel (services : Services) (m : MappedMemory) :
    ParcelM (Bool × MappedMemory) := do
  let _ ← readUint8
  let (skipped, m) ← m.skipCommonFromMessageParcel
  if skipped then m.readFromMessageParcel services else pure (false, m)

theorem readUint8_some (p : MessageParcel) : ∃ type, readUint8 p = (some type, (readUint8 p).2) := by
  obtain ⟨type, q, h⟩ := Call.takeD_some ParcelField.uint8? 0 p
  have h : readUint8 p = (some type, q) := h
  exact ⟨type, by rw [h]⟩

theorem updateFromMessageParcel_eq (services : Services) (m : MappedMemory) (p : MessageParcel) :
    m.updateFromMessageParcel services p =
      match readOffsetAndSize m.capacity (readUint8 p).2 with
      | (some (offset, size), q) => { m with size, offset }.readFromMessageParcel services q
      | (none, q) => (some (false, m), q) := by
  obtain ⟨type, htype⟩ := readUint8_some p
  unfold updateFromMessageParcel
  rw [Call.bind_some htype]
  cases h : readOffsetAndSize m.capacity (readUint8 p).2 with
  | mk r q =>
    have hattempt : attempt (readOffsetAndSize m.capacity) (readUint8 p).2 = (some r, q) := by
      rw [attempt, h]
    unfold skipCommonFromMessageParcel
    rw [Call.bind_assoc, Call.bind_some hattempt]
    cases r with
    | none | some numbers => rfl

/-- The memory itself cannot be read: nothing is read of virtual memory, and of a surface
what the graphics library can read. -/
def Unreadable (services : Services) (m : MappedMemory) (q : MessageParcel) : Prop :=
  m.subclass = .virtual ∨ (m.subclass = .surface ∧
    ∃ p q', readBool q = (some true, p) ∧ services.readSurface p = (none, q'))

/-- The subclass leaves the memory as it is, or puts another surface in. -/
theorem readFromMessageParcel_cases (services : Services) (m : MappedMemory) (q : MessageParcel) :
    ∃ q', (Unreadable services m q ∧ m.readFromMessageParcel services q = (some (false, m), q')) ∨
      (¬ Unreadable services m q ∧ (m.readFromMessageParcel services q = (some (true, m), q') ∨
        (m.subclass = .surface ∧ ∃ p surfaceBuffer, readBool q = (some true, p) ∧
          services.readSurface p = (some surfaceBuffer, q') ∧
          m.readFromMessageParcel services q =
            (some (true, { m with surfaceBuffer := some surfaceBuffer }), q')))) := by
  obtain ⟨update, q₁, hupdate⟩ := Call.takeD_some ParcelField.bool? false q
  have hupdate : readBool q = (some update, q₁) := hupdate
  have hskipped : ∃ q', (do
      let update ← readBool
      if update then do
        let _ ← readFileDescriptor
        let _ ← readUint32
        pure (true, m)
      else pure (true, m) : ParcelM (Bool × MappedMemory)) q = (some (true, m), q') := by
    rw [Call.bind_some hupdate]
    cases update with
    | false => exact ⟨q₁, rfl⟩
    | true =>
      obtain ⟨fd, q₂, hfd⟩ := Call.takeD_some (fun f => (ParcelField.fileDescriptor? f).map some) none q₁
      obtain ⟨flag, q₃, hflag⟩ := Call.takeD_some ParcelField.uint32? 0 q₂
      have hfd : readFileDescriptor q₁ = (some fd, q₂) := hfd
      have hflag : readUint32 q₂ = (some flag, q₃) := hflag
      refine ⟨q₃, ?_⟩
      simp only [if_true]
      rw [Call.bind_some hfd, Call.bind_some hflag]
      rfl
  obtain ⟨q₄, hskipped⟩ := hskipped
  unfold readFromMessageParcel Unreadable
  cases hsub : m.subclass with
  | virtual => exact ⟨q, .inl ⟨.inl rfl, rfl⟩⟩
  | sharedExt | hardware isSecure => exact ⟨q₄, .inr ⟨by simp, .inl hskipped⟩⟩
  | surface =>
    simp only
    rw [Call.bind_some hupdate]
    cases update with
    | false =>
      refine ⟨q₁, .inr ⟨?_, .inl rfl⟩⟩
      rintro (hvirtual | ⟨-, p, q', htrue, -⟩)
      · cases hvirtual
      · rw [hupdate] at htrue
        cases htrue
    | true =>
      cases hread : services.readSurface q₁ with
      | mk r q₂ =>
        have hattempt : attempt services.readSurface q₁ = (some r, q₂) := by rw [attempt, hread]
        simp only [if_true]
        rw [Call.bind_some hattempt]
        cases r with
        | none => exact ⟨q₂, .inl ⟨.inr ⟨trivial, q₁, q₂, hupdate, hread⟩, rfl⟩⟩
        | some surfaceBuffer =>
          refine ⟨q₂, .inr ⟨?_, .inr ⟨trivial, q₁, surfaceBuffer, hupdate, hread, rfl⟩⟩⟩
          rintro (hvirtual | ⟨-, p, q', htrue, hnone⟩)
          · cases hvirtual
          · cases hupdate.symm.trans htrue
            cases hread.symm.trans hnone

theorem updateFromMessageParcel_cases (services : Services) (m : MappedMemory) (p : MessageParcel) :
    ∃ q', ((readOffsetAndSize m.capacity (readUint8 p).2).1 = none ∧
        m.updateFromMessageParcel services p = (some (false, m), q')) ∨
      ∃ offset size q, readOffsetAndSize m.capacity (readUint8 p).2 = (some (offset, size), q) ∧
        ((Unreadable services m q ∧
            m.updateFromMessageParcel services p = (some (false, { m with size, offset }), q')) ∨
          (¬ Unreadable services m q ∧
            ∃ m', m.updateFromMessageParcel services p = (some (true, m'), q'))) := by
  rw [updateFromMessageParcel_eq]
  cases hheader : readOffsetAndSize m.capacity (readUint8 p).2 with
  | mk r q =>
    cases r with
    | none => exact ⟨q, .inl ⟨rfl, rfl⟩⟩
    | some numbers =>
      obtain ⟨offset, size⟩ := numbers
      obtain ⟨q', ⟨hun, hread⟩ | ⟨hreadable, hread | ⟨-, -, surfaceBuffer, -, -, hread⟩⟩⟩ :=
        readFromMessageParcel_cases services { m with size, offset } q
      · exact ⟨q', .inr ⟨offset, size, q, rfl, .inl ⟨hun, hread⟩⟩⟩
      · exact ⟨q', .inr ⟨offset, size, q, rfl, .inr ⟨hreadable, _, hread⟩⟩⟩
      · exact ⟨q', .inr ⟨offset, size, q, rfl, .inr ⟨hreadable, _, hread⟩⟩⟩

end MappedMemory

end MediaFoundation
