import MediaFoundation.Lib.Ring

/-!
# RingBuffer

`RingBuffer` of `osal/utils/ring_buffer.h`: a byte stream in `bufferSize`
slots, with the absolute positions `head` and `tail` of what is readable.
`size_t` and `uint64_t` are `UInt64`, so sums and differences wrap as there.

The memory behind `buffer` and behind the pointers of the callers is a
function from offsets to bytes. `memcpy_s` copies, since every call passes
the number of bytes also as the room. A `ReadBuffer` that waits keeps nothing
from before the wait: it goes on like a call with one wait less.
-/

namespace MediaFoundation.Osal

/-! ## Data -/

structure RingBuffer where
  bufferSize : UInt64
  buffer : Nat → UInt8 := fun _ => 0
  head : UInt64 := 0
  tail : UInt64 := 0
  isActive : Bool := true
  mediaOffset : UInt64 := 0
  isReadBlockingAllowed : Bool := true

/-- A sum or a difference that the code evaluates. -/
inductive Arith where
  | sum (a b : UInt64)
  | diff (a b : UInt64)

/-- A `memcpy_s` from or to these bytes of `buffer_`. -/
structure Copy where
  offset : UInt64
  count : UInt64

inductive Reply where
  | void
  | waits
  | size (n : UInt64)
  | bool (b : Bool)
deriving DecidableEq

structure Outcome where
  ring : RingBuffer
  reply : Reply := .void
  /-- What `ReadBuffer` leaves at its pointer. -/
  bytes : List UInt8 := []
  copies : List Copy := []
  arith : List Arith := []

/-- The arguments of `WriteBuffer`; `none` is the null pointer. -/
structure Write where
  ptr : Option (Nat → UInt8)
  writeSize : UInt64

def sizeMax : UInt64 := 0xFFFFFFFFFFFFFFFF

namespace RingBuffer

/-! ## Reading and writing -/

def getSize (r : RingBuffer) : UInt64 := r.tail - r.head

def getFreeSize (r : RingBuffer) : UInt64 := r.bufferSize - r.getSize

/-- How many bytes a `ReadBuffer` that does not wait takes. -/
def readable (r : RingBuffer) (readSize : UInt64) : UInt64 :=
  let available := r.tail - r.head
  if readSize < available then readSize else available

def readCopy (r : RingBuffer) (available : UInt64) : Outcome :=
  let ring := { r with head := r.head + available, mediaOffset := r.mediaOffset + available }
  let reply := .size available
  let index := r.head % r.bufferSize
  let arith := [.sum index available, .sum r.head available, .sum r.mediaOffset available]
  if index + available < r.bufferSize then
    { ring, reply, arith
      bytes := Ring.load r.buffer index.toNat available.toNat
      copies := [⟨index, available⟩] }
  else
    let room := r.bufferSize - index
    { ring, reply
      bytes := Ring.load r.buffer index.toNat room.toNat ++
        Ring.load r.buffer 0 (available - room).toNat
      copies := [⟨index, room⟩, ⟨0, available - room⟩]
      arith := arith ++ [.diff r.bufferSize index, .diff available room] }

def readBuffer (r : RingBuffer) (ptr : Bool) (readSize : UInt64) (waitTimes : Int32) : Outcome :=
  if ¬ r.isActive ∨ ¬ r.isReadBlockingAllowed then { ring := r, reply := .size 0 }
  else
    let available := r.tail - r.head
    let arith := [.diff r.tail r.head]
    if 0 < waitTimes ∧ available = 0 then { ring := r, reply := .waits, arith }
    else if ¬ ptr then { ring := r, reply := .size 0, arith }
    else
      let o := r.readCopy (r.readable readSize)
      { o with arith := arith ++ o.arith }

def writeCopy (r : RingBuffer) (w : Write) : Outcome :=
  match w.ptr with
  | none => { ring := r, reply := .bool false }
  | some ptr =>
    let index := r.tail % r.bufferSize
    let arith := [.sum index w.writeSize, .sum r.tail w.writeSize]
    if index + w.writeSize < r.bufferSize then
      { ring := { r with
          buffer := Ring.store r.buffer index.toNat w.writeSize.toNat ptr
          tail := r.tail + w.writeSize }
        reply := .bool true
        copies := [⟨index, w.writeSize⟩]
        arith }
    else
      let room := r.bufferSize - index
      { ring := { r with
          buffer := Ring.store (Ring.store r.buffer index.toNat room.toNat ptr) 0
            (w.writeSize - room).toNat fun i => ptr (i + room.toNat)
          tail := r.tail + w.writeSize }
        reply := .bool true
        copies := [⟨index, room⟩, ⟨0, w.writeSize - room⟩]
        arith := arith ++ [.diff r.bufferSize index, .diff w.writeSize room] }

def writeLoop (r : RingBuffer) (w : Write) : Outcome :=
  let arith := [.sum w.writeSize r.tail, .sum r.head r.bufferSize]
  if r.head + r.bufferSize < w.writeSize + r.tail then { ring := r, reply := .waits, arith }
  else
    let o := r.writeCopy w
    { o with arith := arith ++ o.arith }

def writeBuffer (r : RingBuffer) (w : Write) : Outcome :=
  if ¬ r.isActive then { ring := r, reply := .bool false }
  else
    let arith := [.diff sizeMax r.tail]
    if sizeMax - r.tail < w.writeSize then { ring := r, reply := .bool false, arith }
    else
      let o := r.writeLoop w
      { o with arith := arith ++ o.arith }

def resumeWrite (r : RingBuffer) (w : Write) : Outcome :=
  if ¬ r.isActive then { ring := r, reply := .bool false } else r.writeLoop w

/-! ## Moving the window -/

def setActive (r : RingBuffer) (active cleanData : Bool) : RingBuffer :=
  let r := { r with isActive := active }
  if ¬ active ∧ cleanData then { r with head := 0, tail := 0 } else r

def setReadBlocking (r : RingBuffer) (isReadBlockingAllowed : Bool) : RingBuffer :=
  { r with isReadBlockingAllowed }

def setMediaOffset (r : RingBuffer) (offset : UInt64) : RingBuffer :=
  { r with mediaOffset := offset }

def clear (r : RingBuffer) : RingBuffer := { r with head := 0, tail := 0 }

def setTail (r : RingBuffer) (newTail : UInt64) : RingBuffer :=
  if r.head ≤ newTail then { r with tail := newTail } else r

def minPosition (r : RingBuffer) : UInt64 :=
  if r.bufferSize < r.tail then r.tail - r.bufferSize else 0

/-- The second case of `Seek`, once it is within the free size. -/
def seekBackward (r : RingBuffer) (offset : UInt64) : Outcome :=
  let maxInterval := r.head - r.minPosition
  let interval := r.mediaOffset - offset
  let arith := (if r.bufferSize < r.tail then [.diff r.tail r.bufferSize] else []) ++
    [.diff r.head r.minPosition, .diff r.mediaOffset offset]
  if interval ≤ maxInterval then
    { ring := { r with head := r.head - interval, mediaOffset := offset }
      reply := .bool true
      arith := arith ++ [.diff r.head interval] }
  else { ring := r, reply := .bool false, arith }

def seek (r : RingBuffer) (offset : UInt64) : Outcome :=
  if r.mediaOffset ≤ offset then
    let arith := [.diff offset r.mediaOffset, .diff r.tail r.head]
    if offset - r.mediaOffset < r.getSize then
      { ring := { r with head := r.head + (offset - r.mediaOffset), mediaOffset := offset }
        reply := .bool true
        arith := arith ++ [.sum r.head (offset - r.mediaOffset)] }
    else { ring := r, reply := .bool false, arith }
  else
    let arith := [.diff r.mediaOffset offset, .diff r.tail r.head, .diff r.bufferSize r.getSize]
    if r.mediaOffset - offset ≤ r.bufferSize - r.getSize then
      let o := r.seekBackward offset
      { o with arith := arith ++ o.arith }
    else { ring := r, reply := .bool false, arith }

def setHead (r : RingBuffer) (newHead : UInt64) : Outcome :=
  if r.head ≤ newHead ∧ newHead ≤ r.tail then
    { ring := { r with mediaOffset := r.mediaOffset + (newHead - r.head), head := newHead }
      reply := .bool true
      arith := [.diff newHead r.head, .sum r.mediaOffset (newHead - r.head)] }
  else { ring := r, reply := .bool false }

end RingBuffer

/-! ## The calls, and the writers that wait -/

inductive Action where
  | readBuffer (ptr : Bool) (readSize : UInt64) (waitTimes : Int32)
  | writeBuffer (w : Write)
  /-- The wait of the thread's `WriteBuffer` ends. -/
  | resumeWrite
  | setActive (active cleanData : Bool)
  | setReadBlocking (isReadBlockingAllowed : Bool)
  | setMediaOffset (offset : UInt64)
  | clear
  | setTail (newTail : UInt64)
  | seek (offset : UInt64)
  | setHead (newHead : UInt64)
  | getSize
  | getFreeSize

structure Label where
  thread : Nat
  action : Action

structure System where
  ring : RingBuffer
  writers : Nat → Option Write := fun _ => none

def System.init (bufferSize : UInt64) : System where
  ring := { bufferSize }

/-- The calls that neither wait for room nor end such a wait. -/
def RingBuffer.perform (r : RingBuffer) : Action → Outcome
  | .readBuffer ptr readSize waitTimes => r.readBuffer ptr readSize waitTimes
  | .setActive active cleanData => { ring := r.setActive active cleanData }
  | .setReadBlocking allowed => { ring := r.setReadBlocking allowed }
  | .setMediaOffset offset => { ring := r.setMediaOffset offset }
  | .clear => { ring := r.clear }
  | .setTail newTail => { ring := r.setTail newTail }
  | .seek offset => r.seek offset
  | .setHead newHead => r.setHead newHead
  | .getSize => { ring := r, reply := .size r.getSize, arith := [.diff r.tail r.head] }
  | .getFreeSize =>
    { ring := r, reply := .size r.getFreeSize,
      arith := [.diff r.tail r.head, .diff r.bufferSize r.getSize] }
  | .writeBuffer _ | .resumeWrite => { ring := r }

def System.install (s : System) (thread : Nat) (w : Write) (o : Outcome) : System where
  ring := o.ring
  writers := Function.update s.writers thread (if o.reply = .waits then some w else none)

/-- **One step**: a call of an idle thread, or the end of its wait for room. -/
def exec (s : System) (l : Label) : Option (System × Outcome) :=
  match s.writers l.thread, l.action with
  | some w, .resumeWrite =>
    let o := s.ring.resumeWrite w
    some (s.install l.thread w o, o)
  | some _, _ => none
  | none, .resumeWrite => none
  | none, .writeBuffer w =>
    let o := s.ring.writeBuffer w
    some (s.install l.thread w o, o)
  | none, action =>
    let o := s.ring.perform action
    some ({ s with ring := o.ring }, o)

def step (s : System) (l : Label) : Option System := (exec s l).map Prod.fst

end MediaFoundation.Osal
