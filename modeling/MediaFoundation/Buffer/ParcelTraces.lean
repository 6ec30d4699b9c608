import MediaFoundation.Buffer.MappedMemory
import MediaFoundation.Meta.Meta

/-!
# What a failed transfer leaves behind

`AVBuffer::WriteToMessageParcel` and `ReadFromMessageParcel` (`avbuffer.cpp`)
when a parcel refuses what is written, or holds what cannot be read. A failed
write rewinds the parcel, but not when the memory is virtual and the attributes
have been written; a failed read leaves the attributes alone, but not the
offset and the size when only the memory itself cannot be read.

Conventions:

* A parcel refuses fields as it likes. `RewindWrite` and `SetDataSize` give a
  parcel back as it was; the graphics library only appends to it.
* `meta_` is not null, since every `CreateAVBuffer` sets it.
-/

namespace MediaFoundation

open Wire ParcelM

structure MappedBuffer where
  uniqueId : UInt64
  pts : Int64
  dts : Int64
  duration : Int64
  flag : UInt32
  metadata : Meta
  memory : Option MappedMemory

abbrev ParcelAccepts := MessageParcel → ParcelField → Bool

/-- Whether it takes these fields, one after the other. -/
def ParcelAccepts.all (accepts : ParcelAccepts) : MessageParcel → List ParcelField → Bool
  | _, [] => true
  | p, f :: fs => accepts p f && accepts.all (p ++ [f]) fs

-- Writing

section Writing

variable (accepts : ParcelAccepts)

def writeField (f : ParcelField) : ParcelM Unit := fun p =>
  if accepts p f then (some (), p ++ [f]) else (none, p)

def writeFields : List ParcelField → ParcelM Unit
  | [] => pure ()
  | f :: fs => do
    writeField accepts f
    writeFields fs

/-- `Meta::ToParcel`, which rewinds: it fails when a value cannot be written, and when the
parcel refuses a field. -/
def metaToParcel (metadata : Meta) : ParcelM Unit :=
  match metadata.toParcel [] with
  | (some (), fields) => (writeFields accepts fields).rewinding
  | (none, _) => Call.fail

namespace MappedMemory

def writeCommonToMessageParcel (m : MappedMemory) : ParcelM Unit := Call.rewinding do
  writeField accepts (.int32 m.capacity)
  writeField accepts (.int32 m.align)
  writeField accepts (.int32 m.offset)
  writeField accepts (.int32 m.size)

/-- `WriteToMessageParcel` of shared and of hardware memory. -/
def writeFd (m : MappedMemory) (updateAVMemory : Bool) : ParcelM Unit := Call.rewinding do
  writeField accepts (.bool updateAVMemory)
  if updateAVMemory then do
    match m.fd with
    | some backing => writeField accepts (.fileDescriptor backing)
    | none => Call.fail
    writeField accepts (.uint32 m.memFlag.toUInt8.toUInt32)
  else pure ()

/-- `writeSurface` is `SurfaceBuffer::WriteToMessageParcel`. What it has written stays when
it fails. -/
def writeToMessageParcel (writeSurface : Option SurfaceBuffer → ParcelM Unit) (m : MappedMemory)
    (updateAVMemory : Bool) : ParcelM Unit :=
  match m.subclass with
  | .virtual => Call.fail
  | .surface => do
    writeField accepts (.bool updateAVMemory)
    if updateAVMemory then writeSurface m.surfaceBuffer else pure ()
  | .sharedExt => m.writeFd accepts updateAVMemory
  | .hardware isSecure => if isSecure then Call.fail else m.writeFd accepts updateAVMemory

def getMemoryType (m : MappedMemory) : MemoryType :=
  match m.subclass with
  | .virtual => .virtualMemory
  | .surface => .surfaceMemory
  | .sharedExt => .sharedMemory
  | .hardware _ => .hardwareMemory

end MappedMemory

namespace MappedBuffer

def attributeFields (b : MappedBuffer) : List ParcelField :=
  [.uint64 (if b.memory.isNone then 0 else b.uniqueId), .int64 b.pts, .int64 b.dts,
    .int64 b.duration, .uint32 b.flag]

def writeAttributes (b : MappedBuffer) : ParcelM Unit := do
  writeFields accepts b.attributeFields
  metaToParcel accepts b.metadata

def writeToMessageParcel (writeSurface : Option SurfaceBuffer → ParcelM Unit) (b : MappedBuffer)
    (updateAVMemory : Bool) : ParcelM Unit :=
  match b.memory with
  | none => (b.writeAttributes accepts).rewinding
  | some m =>
    if m.getMemoryType = .virtualMemory then do
      (b.writeAttributes accepts).rewinding
      -- what has been written stays in the parcel
      Call.fail
    else Call.rewinding do
      b.writeAttributes accepts
      writeField accepts (.uint8 m.getMemoryType.toUInt8)
      m.writeCommonToMessageParcel accepts
      m.writeToMessageParcel accepts writeSurface updateAVMemory

end MappedBuffer

end Writing

-- Reading

namespace MappedBuffer

open MappedMemory (attempt)

/-- The attributes of a parcel, and the identity of its sender. -/
structure Attributes where
  uid : UInt64
  pts : Int64
  dts : Int64
  duration : Int64
  flag : UInt32
  metadata : Meta

def readAttributes (rawDataCapacity : Nat) : ParcelM Attributes := do
  let uid ← readUint64Into
  let pts ← readInt64Into
  let dts ← readInt64Into
  let duration ← readInt64Into
  let flag ← readUint32Into
  let metadata ← Meta.fromParcel rawDataCapacity
  pure { uid, pts, dts, duration, flag, metadata }

def assign (b : MappedBuffer) (a : Attributes) : MappedBuffer :=
  { b with
    pts := a.pts, dts := a.dts, duration := a.duration, flag := a.flag, metadata := a.metadata }

/-- Whether the call succeeds, and the buffer afterwards. -/
def readFromMessageParcel (services : Services) (rawDataCapacity : Nat) (b : MappedBuffer)
    (isSurfaceBuffer : Bool) : ParcelM (Bool × MappedBuffer) :=
  if isSurfaceBuffer then
    match b.memory with
    | some _ => pure (false, b)
    | none => do
      match ← attempt (MappedMemory.createAVMemory services true) with
      | some m => pure (true, { b with memory := some m })
      | none => pure (false, b)
  else do
    match ← attempt (readAttributes rawDataCapacity) with
    | none => pure (false, b)
    | some a =>
      match b.memory with
      | some m =>
        if b.uniqueId ≠ a.uid then pure (false, b)
        else do
          let (updated, m) ← m.updateFromMessageParcel services
          let b := { b with memory := some m }
          if updated then pure (true, b.assign a) else pure (false, b)
      | none =>
        if a.uid ≠ 0 then do
          match ← attempt (MappedMemory.createAVMemory services false) with
          | some m => pure (true, { b with memory := some m, uniqueId := a.uid }.assign a)
          | none => pure (false, b)
        else pure (true, b.assign a)

-- A failed write

section Writing

variable {accepts : ParcelAccepts} {writeSurface : Option SurfaceBuffer → ParcelM Unit}
  {b : MappedBuffer} {p : MessageParcel}

theorem writeFields_of_all {fs : List ParcelField} (h : accepts.all p fs) :
    writeFields accepts fs p = (some (), p ++ fs) := by
  induction fs generalizing p with
  | nil => rw [List.append_nil]; rfl
  | cons f fs ih =>
    rw [ParcelAccepts.all, Bool.and_eq_true] at h
    have hput : writeField accepts f p = (some (), p ++ [f]) := if_pos h.1
    rw [writeFields, Call.bind_some hput, ih h.2, List.append_assoc]
    rfl

theorem writeFields_of_not_all {fs : List ParcelField} (h : ¬ accepts.all p fs) :
    (writeFields accepts fs p).1 = none := by
  induction fs generalizing p with
  | nil => exact absurd rfl h
  | cons f fs ih =>
    by_cases hf : accepts p f
    · have hput : writeField accepts f p = (some (), p ++ [f]) := if_pos hf
      rw [writeFields, Call.bind_some hput]
      rw [ParcelAccepts.all, hf, Bool.true_and] at h
      exact ih h
    · have hput : writeField accepts f p = (none, p) := if_neg hf
      rw [writeFields, Call.bind_none hput]

theorem all_append {fs gs : List ParcelField} :
    accepts.all p (fs ++ gs) = (accepts.all p fs && accepts.all (p ++ fs) gs) := by
  induction fs generalizing p with
  | nil => rw [List.append_nil]; rfl
  | cons f fs ih => rw [List.cons_append, ParcelAccepts.all, ParcelAccepts.all, ih, Bool.and_assoc,
      List.append_assoc, List.singleton_append]

/-- A failure that is rewound leaves no trace. -/
theorem rewinding_clean {m : ParcelM Unit} (h : (m.rewinding p).1 = none) :
    (m.rewinding p).2 = p := by
  cases hm : m p with
  | mk r q =>
    cases r with
    | none => rw [Call.rewinding_none (by rw [hm])]
    | some a =>
      rw [Call.rewinding_some hm] at h
      cases h

theorem metaToParcel_eq {metadata : Meta} {fs : List ParcelField}
    (hmeta : metadata.toParcel [] = (some (), fs)) :
    metaToParcel accepts metadata p = if accepts.all p fs then (some (), p ++ fs) else (none, p) := by
  have hput : metaToParcel accepts metadata = (writeFields accepts fs).rewinding := by
    unfold metaToParcel
    rw [hmeta]
  rw [hput]
  split
  next hall => exact Call.rewinding_some (writeFields_of_all hall)
  next hall => exact Call.rewinding_none (writeFields_of_not_all hall)

def sentFields (b : MappedBuffer) : List ParcelField :=
  b.attributeFields ++ (b.metadata.toParcel []).2

theorem writeAttributes_eq (accepts : ParcelAccepts) (b : MappedBuffer) (p : MessageParcel) :
    (b.metadata.Writable ∧ accepts.all p b.sentFields ∧
        b.writeAttributes accepts p = (some (), p ++ b.sentFields)) ∨
      (¬ (b.metadata.Writable ∧ accepts.all p b.sentFields) ∧
        (b.writeAttributes accepts p).1 = none) := by
  by_cases hfields : accepts.all p b.attributeFields
  swap
  · refine .inr ⟨?_, ?_⟩
    · rintro ⟨-, hall⟩
      rw [sentFields, all_append, Bool.and_eq_true] at hall
      exact hfields hall.1
    · rw [writeAttributes, Call.bind_none (Prod.ext (writeFields_of_not_all hfields) rfl)]
  have hput := writeFields_of_all hfields
  rw [writeAttributes, Call.bind_some hput]
  by_cases hwritable : b.metadata.Writable
  swap
  · refine .inr ⟨fun h => hwritable h.1, ?_⟩
    have hfail : metaToParcel accepts b.metadata = Call.fail := by
      unfold metaToParcel
      rw [Meta.toParcel_fails hwritable]
    rw [hfail]
    rfl
  obtain ⟨fs, hputs⟩ := Meta.toParcel_puts hwritable
  have hmeta : b.metadata.toParcel [] = (some (), _) := hputs []
  rw [sentFields, all_append, hfields, Bool.true_and, metaToParcel_eq hmeta, hmeta]
  split
  next hall => exact .inl ⟨hwritable, hall, by rw [List.append_assoc]⟩
  next hall => exact .inr ⟨fun h => hall h.2, rfl⟩

/-- The write fails without a trace, if it fails. -/
def WriteClean (accepts : ParcelAccepts) (writeSurface : Option SurfaceBuffer → ParcelM Unit)
    (b : MappedBuffer) (updateAVMemory : Bool) (p : MessageParcel) : Prop :=
  (b.writeToMessageParcel accepts writeSurface updateAVMemory p).1 = none →
    (b.writeToMessageParcel accepts writeSurface updateAVMemory p).2 = p

def WriteLeaves (accepts : ParcelAccepts) (b : MappedBuffer) (p : MessageParcel) : Prop :=
  (∃ m, b.memory = some m ∧ m.subclass = .virtual) ∧ b.metadata.Writable ∧
    accepts.all p b.sentFields

theorem writeToMessageParcel_clean (accepts : ParcelAccepts)
    (writeSurface : Option SurfaceBuffer → ParcelM Unit) (b : MappedBuffer) (updateAVMemory : Bool)
    (p : MessageParcel) :
    WriteClean accepts writeSurface b updateAVMemory p ↔ ¬ WriteLeaves accepts b p := by
  unfold WriteClean WriteLeaves writeToMessageParcel
  cases hmemory : b.memory with
  | none => simpa using rewinding_clean
  | some m =>
    have hvirtual : m.getMemoryType = .virtualMemory ↔ m.subclass = .virtual := by
      unfold MappedMemory.getMemoryType
      cases m.subclass <;> simp
    simp only [Option.some.injEq, exists_eq_left', hvirtual]
    split
    next hsub =>
      simp only [hsub, true_and]
      rcases writeAttributes_eq accepts b p with ⟨hwritable, hall, hwrite⟩ | ⟨hnot, hwrite⟩
      · -- the attributes are there, and stay there
        rw [Call.bind_some (Call.rewinding_some hwrite)]
        constructor
        · intro hclean
          have hsame : p ++ b.sentFields = p := hclean rfl
          have hempty := List.append_right_eq_self.mp hsame
          simp [sentFields, attributeFields] at hempty
        · intro hnot
          exact absurd ⟨hwritable, hall⟩ hnot
      · rw [Call.bind_none (Call.rewinding_none hwrite)]
        exact ⟨fun _ => hnot, fun _ _ => rfl⟩
    next hsub =>
      refine ⟨fun _ h => hsub h.1, fun _ => rewinding_clean⟩

end Writing

-- A failed read

section Reading

/-- The attributes, and the offset and size of the memory, are the same. -/
def Same (b b' : MappedBuffer) : Prop :=
  b'.pts = b.pts ∧ b'.dts = b.dts ∧ b'.duration = b.duration ∧ b'.flag = b.flag ∧
    b'.metadata = b.metadata ∧
    b'.memory.map (fun m => (m.offset, m.size)) = b.memory.map (fun m => (m.offset, m.size))

theorem Same.refl (b : MappedBuffer) : b.Same b := ⟨rfl, rfl, rfl, rfl, rfl, rfl⟩

def ReadClean (services : Services) (rawDataCapacity : Nat) (b : MappedBuffer)
    (isSurfaceBuffer : Bool) (p : MessageParcel) : Prop :=
  b.memory.isSome → ∀ b', (b.readFromMessageParcel services rawDataCapacity isSurfaceBuffer p).1 =
    some (false, b') → b.Same b'

/-- The parcel comes from this buffer and its header has another offset or size, and the
memory itself cannot be read. -/
def ReadLeaves (services : Services) (rawDataCapacity : Nat) (b : MappedBuffer)
    (isSurfaceBuffer : Bool) (p : MessageParcel) : Prop :=
  isSurfaceBuffer = false ∧ ∃ m a q offset size q', b.memory = some m ∧
    readAttributes rawDataCapacity p = (some a, q) ∧ b.uniqueId = a.uid ∧
    MappedMemory.readOffsetAndSize m.capacity (readUint8 q).2 = (some (offset, size), q') ∧
    (offset, size) ≠ (m.offset, m.size) ∧ MappedMemory.Unreadable services m q'

variable {services : Services} {rawDataCapacity : Nat} {b : MappedBuffer} {p : MessageParcel}

theorem readLeaves_iff {m : MappedMemory} {a : Attributes} {q : MessageParcel}
    (hmemory : b.memory = some m) (hread : readAttributes rawDataCapacity p = (some a, q)) :
    ReadLeaves services rawDataCapacity b false p ↔ b.uniqueId = a.uid ∧ ∃ offset size q',
      MappedMemory.readOffsetAndSize m.capacity (readUint8 q).2 = (some (offset, size), q') ∧
        (offset, size) ≠ (m.offset, m.size) ∧ MappedMemory.Unreadable services m q' := by
  constructor
  · rintro ⟨-, m', a', q₁, offset, size, q', hm, ha, huid, hheader, hne, hun⟩
    cases hmemory.symm.trans hm
    cases hread.symm.trans ha
    exact ⟨huid, offset, size, q', hheader, hne, hun⟩
  · rintro ⟨huid, offset, size, q', hheader, hne, hun⟩
    exact ⟨rfl, m, a, q, offset, size, q', hmemory, hread, huid, hheader, hne, hun⟩

theorem readFromMessageParcel_cases {m : MappedMemory} (hmemory : b.memory = some m) :
    (¬ ReadLeaves services rawDataCapacity b false p ∧
        ∃ q, b.readFromMessageParcel services rawDataCapacity false p = (some (false, b), q)) ∨
      (¬ ReadLeaves services rawDataCapacity b false p ∧
        ∃ b' q, b.readFromMessageParcel services rawDataCapacity false p = (some (true, b'), q)) ∨
      ∃ offset size q, (ReadLeaves services rawDataCapacity b false p ↔
          (offset, size) ≠ (m.offset, m.size)) ∧
        b.readFromMessageParcel services rawDataCapacity false p =
          (some (false, { b with memory := some { m with size, offset } }), q) := by
  unfold readFromMessageParcel
  simp only [Bool.false_eq_true, if_false]
  cases hread : readAttributes rawDataCapacity p with
  | mk r q =>
    have hattempt : attempt (readAttributes rawDataCapacity) p = (some r, q) := by
      rw [attempt, hread]
    rw [Call.bind_some hattempt]
    cases r with
    | none =>
      refine .inl ⟨?_, q, rfl⟩
      rintro ⟨-, m', a, q₁, offset, size, q', -, ha, -⟩
      cases hread.symm.trans ha
    | some a =>
      rw [readLeaves_iff hmemory hread]
      simp only [hmemory]
      by_cases huid : b.uniqueId = a.uid
      swap
      · rw [if_pos huid]
        exact .inl ⟨fun h => huid h.1, q, rfl⟩
      rw [if_neg (not_not_intro huid)]
      obtain ⟨q', ⟨hheader, hupdate⟩ | ⟨offset, size, q₁, hheader, hupdate⟩⟩ :=
        MappedMemory.updateFromMessageParcel_cases services m q
      · -- the header does not fit the capacity
        rw [Call.bind_some hupdate]
        have hb : { b with memory := some m } = b := by rw [← hmemory]
        refine .inl ⟨?_, q', ?_⟩
        · rintro ⟨-, offset, size, q₁, hsome, -⟩
          have hnone := congrArg Prod.fst hsome
          rw [hheader] at hnone
          cases hnone
        · simp only [hb]
          rfl
      · rw [huid, hheader]
        obtain ⟨hun, hupdate⟩ | ⟨hreadable, m', hupdate⟩ := hupdate
        · rw [Call.bind_some hupdate]
          refine .inr (.inr ⟨offset, size, q', ⟨?_, ?_⟩, rfl⟩)
          · rintro ⟨-, offset', size', q₂, hsame, hne, -⟩
            cases hsame
            exact hne
          · intro hne
            exact ⟨rfl, offset, size, q₁, rfl, hne, hun⟩
        · rw [Call.bind_some hupdate]
          refine .inr (.inl ⟨?_, _, q', rfl⟩)
          rintro ⟨-, offset', size', q₂, hsame, -, hun⟩
          cases hsame
          exact hreadable hun

theorem readFromMessageParcel_clean (services : Services) (rawDataCapacity : Nat)
    (b : MappedBuffer) (isSurfaceBuffer : Bool) (p : MessageParcel) :
    ReadClean services rawDataCapacity b isSurfaceBuffer p ↔
      ¬ ReadLeaves services rawDataCapacity b isSurfaceBuffer p := by
  cases hmemory : b.memory with
  | none =>
    refine ⟨fun _ => ?_, fun _ h => ?_⟩
    · rintro ⟨-, m, a, q, offset, size, q', hm, -⟩
      rw [hmemory] at hm
      cases hm
    · rw [hmemory] at h
      cases h
  | some m =>
    have hsome : b.memory.isSome := by rw [hmemory]; rfl
    cases isSurfaceBuffer with
    | true =>
      refine ⟨fun _ h => absurd h.1 (by simp), fun _ _ b' hb' => ?_⟩
      simp only [readFromMessageParcel, if_true, hmemory] at hb'
      cases hb'
      exact .refl b
    | false =>
      rcases readFromMessageParcel_cases hmemory with
        ⟨hnot, q, hread⟩ | ⟨hnot, b', q, hread⟩ | ⟨offset, size, q, hleaves, hread⟩
      · refine ⟨fun _ => hnot, fun _ _ b' hb' => ?_⟩
        rw [hread] at hb'
        cases hb'
        exact .refl b
      · refine ⟨fun _ => hnot, fun _ _ b'' hb' => ?_⟩
        rw [hread] at hb'
        cases hb'
      · rw [hleaves, not_not]
        constructor
        · intro hclean
          obtain ⟨-, -, -, -, -, hsame⟩ := hclean hsome _ (by rw [hread])
          rw [hmemory] at hsame
          exact Option.some.inj hsame
        · intro hsame _ b' hb'
          rw [hread] at hb'
          cases hb'
          refine ⟨rfl, rfl, rfl, rfl, rfl, ?_⟩
          rw [hmemory]
          exact congrArg some hsame

end Reading

/-- **When a failed transfer leaves no trace**: the parcel after a write, and the buffer
after a read. -/
theorem transfers_clean (accepts : ParcelAccepts) (writeSurface : Option SurfaceBuffer → ParcelM Unit)
    (services : Services) (rawDataCapacity : Nat) (b : MappedBuffer)
    (updateAVMemory isSurfaceBuffer : Bool) (p : MessageParcel) :
    (WriteClean accepts writeSurface b updateAVMemory p ↔ ¬ WriteLeaves accepts b p) ∧
      (ReadClean services rawDataCapacity b isSurfaceBuffer p ↔
        ¬ ReadLeaves services rawDataCapacity b isSurfaceBuffer p) :=
  ⟨writeToMessageParcel_clean accepts writeSurface b updateAVMemory p,
    readFromMessageParcel_clean services rawDataCapacity b isSurfaceBuffer p⟩

-- a buffer of 16 bytes, and a parcel that ends before its surface

def bufferOn (subclass : MappedMemory.Subclass) : MappedBuffer where
  uniqueId := 7
  pts := 0
  dts := 0
  duration := 0
  flag := 0
  metadata := ⟨∅⟩
  memory := some { subclass, capacity := 16, align := 0, surfaceBuffer := some ⟨1, 16⟩ }

def cutParcel : MessageParcel :=
  [.uint64 7, .int64 5, .int64 0, .int64 0, .uint32 0, .int32 0, .uint8 2, .int32 16, .int32 0,
    .int32 4, .int32 8, .bool true]

def librariesOnly : Services where
  heap := fun _ => true
  ashmemCreate := fun _ => none
  mmap := fun _ _ _ => true
  getVirAddr := fun _ => true
  readSurface := do
    let size ← readUint32Into
    pure ⟨1, size⟩

/-- Virtual memory leaves the attributes in the parcel; a surface that does not arrive
leaves its offset and its size in the buffer. -/
theorem transfers_leave_traces :
    ¬ WriteClean (fun _ _ => true) (fun _ => pure ()) (bufferOn .virtual) true [] ∧
      ¬ ReadClean librariesOnly 1000 (bufferOn .surface) false cutParcel := by
  constructor
  · intro hclean
    have hleft : [ParcelField.uint64 7, .int64 0, .int64 0, .int64 0, .uint32 0, .int32 0] = [] :=
      hclean rfl
    cases hleft
  · intro hclean
    obtain ⟨-, -, -, -, -, hsame⟩ := hclean rfl _ rfl
    cases hsame

end MappedBuffer

end MediaFoundation
