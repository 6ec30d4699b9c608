import MediaFoundation.Lib.Ring
import MediaFoundation.Lib.Segments

/-!
# DataPacker

`DataPacker` of the demuxer filter, with the parts of `Plugin::Memory` and
`Plugin::Buffer` that it uses (`data_packer.cpp`, `plugin_buffer.cpp`). Buffers
of a media file are queued, and ranges of the file are copied out of them.

Conventions:

* `size_t` and `uint64_t` are `UInt64`, `uint32_t` is `UInt32`, and the casts
  between them and `int32_t` are the casts of the source. Indices into the
  queue are `Nat` and `Int`: the queue never holds more than 30 buffers.
* The memory behind a buffer is a function from offsets to bytes. `memcpy_s`
  copies, since every call passes the number of bytes also as the room.
* A call that waits on a condition variable replies `waits` and keeps nothing:
  it goes on like a new call.
* The buffers that a caller pushes are not changed behind the packer's back.
-/

namespace MediaFoundation.Demux

-- Memory and Buffer

/-- `Memory`, from `GetRealAddr` on. No call makes the size exceed the capacity. -/
structure Memory where
  capacity : UInt64
  size : UInt64
  addr : Nat → UInt8
  size_le : size ≤ capacity

namespace Memory

/-- `GetReadOnlyData`; no result is the null pointer. -/
def getReadOnlyData (m : Memory) (position : UInt64) : Option (Nat → UInt8) :=
  if m.capacity < position then none else some fun i => m.addr (position.toNat + i)

/-- `GetWritableAddr`, at position 0, which is the only one used; no result is
the null pointer. The size is set before anything is written. -/
def getWritableAddr (m : Memory) (estimatedWriteSize : UInt64) : Option Memory :=
  if h : m.capacity < estimatedWriteSize then none
  else some { m with size := estimatedWriteSize, size_le := UInt64.not_lt.mp h }

/-- `UpdateDataSize`, at position 0. -/
def updateDataSize (m : Memory) (realWriteSize : UInt64) : Memory :=
  if h : m.capacity < realWriteSize then m
  else { m with size := realWriteSize, size_le := UInt64.not_lt.mp h }

/-- `memcpy_s` or `memmove_s` of `count` bytes to these offsets. -/
def copyIn (m : Memory) (offset count : Nat) (src : Nat → UInt8) : Memory :=
  { m with addr := Ring.store m.addr offset count src }

end Memory

structure Buffer where
  pts : Int64
  dts : Int64
  memory : Memory

def getBufferSize (b : Buffer) : UInt64 := b.memory.size

-- DataPacker

structure Position where
  /-- `-1` means that the position is invalid. -/
  index : Int
  bufferOffset : UInt32
  mediaOffset : UInt64

def Position.lt (p other : Position) : Bool :=
  if p.index < 0 ∨ other.index < 0 then false
  else if p.index ≠ other.index then decide (p.index < other.index)
  else decide (p.bufferOffset < other.bufferOffset)

def invalidPosition : Position := ⟨-1, 0, 0⟩

def maxBufferNumberInDataPacker : Nat := 30

structure DataPacker where
  que : List Buffer := []
  size : UInt32 := 0
  mediaOffset : UInt64 := 0
  pts : UInt64 := 0
  dts : UInt64 := 0
  isEos : Bool := false
  prevGet : Position := invalidPosition
  currentGet : Position := invalidPosition

inductive Reply where
  | void
  | waits
  | available (result : Bool) (curOffset : Option UInt64)
  | range (result : Bool) (out : Buffer)

namespace DataPacker

-- the capacity of the queue is a constant of the class
def capacity : Nat := maxBufferNumberInDataPacker

def flushInternal (_ : DataPacker) : DataPacker := {}

def pushData (p : DataPacker) (bufferPtr : Buffer) (offset : UInt64) : DataPacker × Reply :=
  if ¬ 0 < getBufferSize bufferPtr then (p, .void)
  else if capacity ≤ p.que.length then (p, .waits)
  else
    let p := { p with size := p.size + (getBufferSize bufferPtr).toUInt32 }
    let p := if p.que.isEmpty then
      { p with
        mediaOffset := offset
        dts := bufferPtr.dts.toUInt64
        pts := bufferPtr.pts.toUInt64 }
      else p
    ({ p with que := p.que ++ [bufferPtr] }, .void)

-- IsDataAvailable

def availableLoop (offsetEnd : UInt64) : UInt64 → List Buffer → Bool × Option UInt64
  | preOffsetEnd, [] =>
    if offsetEnd ≤ preOffsetEnd then (true, none) else (false, some preOffsetEnd)
  | preOffsetEnd, b :: rest =>
    let curOffsetEnd := preOffsetEnd + getBufferSize b
    if offsetEnd ≤ curOffsetEnd then (true, none) else availableLoop offsetEnd curOffsetEnd rest

def isDataAvailable (p : DataPacker) (offset : UInt64) (size : UInt32) : DataPacker × Reply :=
  let curOffsetTemp := p.mediaOffset
  match p.que with
  | [] => (p.flushInternal, .available false (some offset))
  | front :: rest =>
    if offset < curOffsetTemp ∨ curOffsetTemp + p.size.toUInt64 < offset then
      -- the cached data cannot serve the offset, so it is dropped
      (p.flushInternal, .available false (some offset))
    else
      let offsetEnd := offset + size.toUInt64
      let curOffsetEnd := p.mediaOffset + getBufferSize front
      if rest.isEmpty then
        (p, .available (decide (offsetEnd ≤ curOffsetEnd)) (some curOffsetEnd))
      else
        let r := availableLoop offsetEnd curOffsetEnd rest
        (p, .available r.1 r.2)

-- PeekRange

/-- The cast of an unsigned distance to `int32_t`. -/
def toInt32 (n : UInt64) : Int32 := n.toUInt32.toInt32

def findFirstBufferToCopy (offset : UInt64) :
    UInt64 → List Buffer → Nat → Option (Nat × UInt64 × Buffer × List Buffer)
  | _, [], _ => none
  | prevOffset, b :: rest, startIndex =>
    if prevOffset ≤ offset ∧ offset - prevOffset < getBufferSize b then
      some (startIndex, prevOffset, b, rest)
    else findFirstBufferToCopy offset (prevOffset + getBufferSize b) rest (startIndex + 1)

/-- `CopyFirstBuffer`: the output with the bytes at `dst`, and how many there are. -/
def copyFirstBuffer (size : UInt64) (src : Buffer) (dst : Nat) (out : Buffer)
    (bufferOffset : Int32) : Buffer × UInt64 :=
  let remainSize := toInt32 (getBufferSize src - bufferOffset.toInt64.toUInt64)
  if ¬ 0 < remainSize then (out, 0)
  else
    let copySize := min remainSize.toInt64.toUInt64 size
    ({ pts := src.pts
       dts := src.dts
       memory := out.memory.copyIn dst copySize.toNat fun i =>
         src.memory.addr (bufferOffset.toInt64.toUInt64.toNat + i) }, copySize)

def copyFromSuccessiveBuffer (offsetEnd : UInt64) :
    UInt64 → List Buffer → Nat → Buffer → UInt32 → Buffer × UInt32
  | _, [], _, out, needCopySize => (out, needCopySize)
  | prevOffset, b :: rest, dst, out, needCopySize =>
    let curOffsetEnd := prevOffset + getBufferSize b
    if offsetEnd ≤ curOffsetEnd then
      ({ out with memory := out.memory.copyIn dst needCopySize.toNat b.memory.addr }, 0)
    else
      let copySize := getBufferSize b
      copyFromSuccessiveBuffer offsetEnd (prevOffset + copySize) rest (dst + copySize.toNat)
        { out with memory := out.memory.copyIn dst copySize.toNat b.memory.addr }
        (needCopySize - copySize.toUInt32)

/-- What a copy leaves: the output, and where it started if it succeeded. -/
structure Peeked where
  out : Buffer
  position : Option Position

/-- The copy of a range whose first buffer is `src`, at media offset `prevOffset`. -/
def copyRange (offset : UInt64) (size : UInt32) (index : Nat) (prevOffset : UInt64)
    (src : Buffer) (rest : List Buffer) (out : Buffer) : Peeked :=
  let bufferOffset := toInt32 (offset - prevOffset)
  if ¬ 0 ≤ bufferOffset then { out, position := none }
  else
    let position := some { index, bufferOffset := bufferOffset.toUInt32, mediaOffset := offset }
    let first := copyFirstBuffer size.toUInt64 src 0 out bufferOffset
    let needCopySize := size - first.2.toUInt32
    if needCopySize = 0 then { out := first.1, position }
    else
      let r := copyFromSuccessiveBuffer (offset + size.toUInt64) (prevOffset + getBufferSize src)
        rest first.2.toNat first.1 needCopySize
      { out := { r.1 with memory := r.1.memory.updateDataSize (size - r.2).toUInt64 }, position }

/-- `PeekRangeInternal` on a queue that is not empty, up to the note of the
position in `currentGet`. -/
def peekRangeInternal (p : DataPacker) (front : Buffer) (rest : List Buffer) (offset : UInt64)
    (size : UInt32) (bufferPtr : Buffer) : Peeked :=
  match bufferPtr.memory.getWritableAddr size.toUInt64 with
  | none => { out := bufferPtr, position := none }
  | some memory =>
    let out := { bufferPtr with memory }
    let offsetEnd := offset + size.toUInt64
    let curOffsetEnd := p.mediaOffset + getBufferSize front
    if offsetEnd ≤ curOffsetEnd then
      -- the first buffer is enough
      let bufferOffset := toInt32 (offset - p.mediaOffset)
      if ¬ 0 ≤ bufferOffset then { out, position := none }
      else
        { out := (copyFirstBuffer size.toUInt64 front 0 out bufferOffset).1
          position := some
            { index := 0, bufferOffset := bufferOffset.toUInt32, mediaOffset := offset } }
    else
      match findFirstBufferToCopy offset p.mediaOffset (front :: rest) 0 with
      | none => { out, position := none }
      | some (startIndex, prevOffset, src, rest) =>
        copyRange offset size startIndex prevOffset src rest out

def peekRange (p : DataPacker) (offset : UInt64) (size : UInt32) (bufferPtr : Buffer) :
    DataPacker × Reply :=
  match p.que with
  | [] => (p, .waits)
  | front :: rest =>
    let r := p.peekRangeInternal front rest offset size bufferPtr
    (p, .range r.position.isSome r.out)

-- Removing data

def updateWhenFrontDataRemoved (p : DataPacker) (removeSize : UInt64) : DataPacker × Bool :=
  let p := { p with mediaOffset := p.mediaOffset + removeSize }
  if ¬ removeSize ≤ p.size.toUInt64 then (p, false)
  else ({ p with size := p.size - removeSize.toUInt32 }, true)

def removeBufferContent (p : DataPacker) (front : Buffer) (rest : List Buffer)
    (removeSize : UInt64) : DataPacker :=
  if removeSize = 0 then p
  else if ¬ removeSize < front.memory.size then p
  else
    let copySize := front.memory.size - removeSize
    let memory := match front.memory.getWritableAddr copySize,
        front.memory.getReadOnlyData removeSize with
      | some memory, some src => memory.copyIn 0 copySize.toNat src
      | some memory, none => memory
      | none, _ => front.memory
    ({ p with que := { front with memory } :: rest }.updateWhenFrontDataRemoved removeSize).1

/-- The loop of `RemoveTo` over the buffers before the position. -/
def removeWhole (p : DataPacker) : Nat → DataPacker × Bool
  | 0 => (p, true)
  | count + 1 =>
    match p.que with
    | [] => (p, true)
    | front :: rest =>
      match p.updateWhenFrontDataRemoved (getBufferSize front) with
      | (p, false) => (p, false)
      | (p, true) => removeWhole { p with que := rest } count

def removeTo (p : DataPacker) (position : Position) : DataPacker :=
  match p.removeWhole position.index.toNat with
  | (p, false) => p
  | (p, true) =>
    match p.que with
    | [] => p
    | front :: rest =>
      if getBufferSize front ≤ position.bufferOffset.toUInt64 then
        match p.updateWhenFrontDataRemoved (getBufferSize front) with
        | (p, false) => p
        | (p, true) => { p with que := rest }
      else p.removeBufferContent front rest position.bufferOffset.toUInt64

def removeOldData (p : DataPacker) (position : Position) : DataPacker :=
  let p := p.removeTo position
  match p.que with
  | [] => { p with mediaOffset := 0, size := 0, pts := 0, dts := 0 }
  | front :: _ => { p with pts := front.pts.toUInt64, dts := front.dts.toUInt64 }

-- GetRange, Flush and SetEos

def getRange (p : DataPacker) (offset : UInt64) (size : UInt32) (bufferPtr : Buffer) :
    DataPacker × Reply :=
  if ¬ size.toUInt64 ≤ bufferPtr.memory.capacity then (p, .range false bufferPtr)
  else match p.que with
    | [] => (p, .waits)
    | front :: rest =>
      let p := { p with prevGet := p.currentGet }
      let r := p.peekRangeInternal front rest offset size bufferPtr
      match r.position with
      | none => (p, .range false r.out)
      | some position =>
        let p := { p with currentGet := position }
        if p.isEos ∧ p.size ≤ size then (p.flushInternal, .range true r.out)
        else if p.prevGet.lt p.currentGet then
          (p.removeOldData p.currentGet, .range true r.out)
        else (p, .range true r.out)

def flush (p : DataPacker) : DataPacker := p.flushInternal

def setEos (p : DataPacker) : DataPacker := { p with isEos := true }

end DataPacker

-- The calls

inductive Call where
  | pushData (bufferPtr : Buffer) (offset : UInt64)
  | isDataAvailable (offset : UInt64) (size : UInt32)
  | peekRange (offset : UInt64) (size : UInt32) (bufferPtr : Buffer)
  | getRange (offset : UInt64) (size : UInt32) (bufferPtr : Buffer)
  | flush
  | setEos

def DataPacker.perform (p : DataPacker) : Call → DataPacker × Reply
  | .pushData bufferPtr offset => p.pushData bufferPtr offset
  | .isDataAvailable offset size => p.isDataAvailable offset size
  | .peekRange offset size bufferPtr => p.peekRange offset size bufferPtr
  | .getRange offset size bufferPtr => p.getRange offset size bufferPtr
  | .flush => (p.flush, .void)
  | .setEos => (p.setEos, .void)

def step (p : DataPacker) (c : Call) : Option DataPacker := some (p.perform c).1

end MediaFoundation.Demux
