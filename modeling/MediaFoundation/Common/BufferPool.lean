import MediaFoundation.Lib.Runs
import MediaFoundation.Lib.Waiters

/-!
# BufferPool

`foundation/utils/buffer_pool.h`: a list of free buffers. A buffer that is handed out comes back
through the deleter of its last reference.

Conventions:

* An event is what one thread does while it holds `mutex_`. `Init` takes no mutex: it is one event
  up to `freeBuffers_.clear()`, and then one for each turn of its loop. What two threads do to the
  list at the same time is left out.
* A thread that waits in `AllocateBuffer` is resumed when it has been notified, or for no reason.
  The numbers `k` say which of the sleeping threads a notification reaches.
* The destructor is two events: it makes the pool inactive and notifies, then it waits for
  `allocInProgress`. No member is called on a pool that is being destroyed, but threads that wait
  in one go on, and buffers that are released are deleted.
* `id` tells the buffers apart. `appended`, `asked` and `handed` only record what happens: the
  buffers that came from `Append`, what the last `Init` was called with once it has returned, and
  every buffer that was handed out with what had been asked for.
-/

namespace MediaFoundation.BufferPool

inductive BufferMetaType where
  | audio
  | video
deriving DecidableEq

/-- A `Plugin::Buffer` with the capacity of its memory. -/
structure Buffer where
  id : Nat
  size : Nat
  metaType : BufferMetaType
  appended : Bool

structure Asked where
  msgSize : Nat
  type : BufferMetaType

/-- An `Init` in its loop. -/
structure Filling where
  i : Nat
  msgSize : Nat
  type : BufferMetaType

structure Handed where
  buffer : Buffer
  asked : Option Asked

structure State where
  freeBuffers : List Buffer := []
  poolSize : Nat
  msgSize : Nat := 0
  align : Nat := 0
  isActive : Bool := true
  allocInProgress : Bool := false
  metaType : BufferMetaType := .audio
  filling : List Filling := []
  /-- The threads that wait in `AllocateBuffer`. -/
  cv : Waiters Unit := []
  outstanding : List Buffer := []
  /-- The destructor has begun. -/
  destroyed : Bool := false
  /-- The destructor has returned. -/
  gone : Bool := false
  nextId : Nat := 0
  asked : Option Asked := none
  handed : List Handed := []

def create (poolSize : Nat) : State := { poolSize }

def State.capacity (s : State) : Nat := s.poolSize

def State.newBuffer (s : State) (msgSize : Nat) (type : BufferMetaType) : Buffer :=
  ⟨s.nextId, msgSize, type, false⟩

-- Init, Append and SetActive

def initPool (s : State) (msgSize : Nat) (type : BufferMetaType) (align : Nat) : State :=
  if s.msgSize = msgSize ∧ align = s.align then { s with asked := some ⟨msgSize, type⟩ }
  else { s with
    metaType := type
    msgSize
    align
    freeBuffers := []
    filling := s.filling ++ [⟨0, msgSize, type⟩]
    asked := none }

/-- The loop of the `j`-th `Init` that is under way: one more buffer, or the end. -/
def fill (s : State) (j : Nat) : Option State :=
  s.filling[j]?.map fun f =>
    if f.i < s.poolSize then { s with
      freeBuffers := s.freeBuffers ++ [s.newBuffer f.msgSize f.type]
      nextId := s.nextId + 1
      filling := s.filling.set j { f with i := f.i + 1 } }
    else { s with
      filling := s.filling.eraseIdx j
      asked := some ⟨f.msgSize, f.type⟩ }

/-- `freeBuffers_.emplace_back` and the notification of one thread. -/
def putFree (s : State) (buffer : Buffer) (k : Nat) : State :=
  { s with
    freeBuffers := s.freeBuffers ++ [buffer]
    cv := s.cv.notifyOne k }

def State.appends (s : State) : Bool := s.isActive && decide (s.freeBuffers.length < s.poolSize)

/-- A buffer that is refused is deleted. -/
def append (s : State) (size : Nat) (metaType : BufferMetaType) (k : Nat) : State :=
  if s.appends then
    putFree { s with nextId := s.nextId + 1 } ⟨s.nextId, size, metaType, true⟩ k
  else s

def setActive (s : State) (active : Bool) (k : Nat) : State :=
  let s := if active then s else { s with cv := s.cv.notifyOne k }
  { s with isActive := active }

-- Handing out

/-- The front of an empty list is undefined. -/
def allocateBufferUnprotected (s : State) : Option State :=
  match s.freeBuffers with
  | [] => none
  | buffer :: rest => some { s with
      freeBuffers := rest
      outstanding := s.outstanding ++ [buffer]
      handed := s.handed ++ [⟨buffer, s.asked⟩] }

def finishAllocate (s : State) : Option State :=
  (if s.isActive then allocateBufferUnprotected s else some s).map fun s =>
    { s with allocInProgress := false }

/-- What threads wait for. -/
def State.mayAllocate (s : State) : Bool := !s.isActive || !s.freeBuffers.isEmpty

def allocateBuffer (s : State) : Option State :=
  let s := { s with allocInProgress := true }
  if s.freeBuffers.isEmpty && s.isActive then some { s with cv := s.cv.sleep () }
  else finishAllocate s

/-- The `i`-th thread that waits has the mutex again. -/
def resumeAllocate (s : State) (i : Nat) : Option State :=
  s.cv[i]?.bind fun _ =>
    if s.mayAllocate then finishAllocate { s with cv := s.cv.eraseIdx i }
    else some { s with cv := s.cv.resume i () }

def allocateBufferNonBlocking (s : State) : Option State :=
  if s.freeBuffers.isEmpty || !s.isActive then some s else allocateBufferUnprotected s

def allocateAppendBufferNonBlocking (s : State) : Option State :=
  if !s.isActive then some s
  else if s.freeBuffers.isEmpty then
    allocateBufferUnprotected { s with
      poolSize := s.poolSize + 1
      freeBuffers := [s.newBuffer s.msgSize s.metaType]
      nextId := s.nextId + 1 }
  else allocateBufferUnprotected s

-- Release and destruction

def release (s : State) (i k : Nat) : Option State :=
  s.outstanding[i]?.map fun buffer =>
    let s := { s with outstanding := s.outstanding.eraseIdx i }
    if s.destroyed then s else putFree s buffer k

def destruct (s : State) (k : Nat) : State :=
  { s with
    isActive := false
    destroyed := true
    cv := s.cv.notifyOne k }

def finishDestruct (s : State) : Option State :=
  if s.destroyed && !s.gone && !s.allocInProgress then
    some { s with
      freeBuffers := []
      gone := true }
  else none

-- Any interleaving

inductive Event where
  | init (msgSize : Nat) (type : BufferMetaType) (align : Nat)
  | fill (j : Nat)
  | append (size : Nat) (metaType : BufferMetaType) (k : Nat)
  | setActive (active : Bool) (k : Nat)
  | allocateBuffer
  | allocateBufferNonBlocking
  | allocateAppendBufferNonBlocking
  | resumeAllocate (i : Nat)
  | release (i k : Nat)
  | destruct (k : Nat)
  | finishDestruct

def call (s : State) (result : Option State) : Option State := if s.destroyed then none else result

def step (s : State) : Event → Option State
  | .init msgSize type align => call s (some (initPool s msgSize type align))
  | .fill j => call s (fill s j)
  | .append size metaType k => call s (some (append s size metaType k))
  | .setActive active k => call s (some (setActive s active k))
  | .allocateBuffer => call s (allocateBuffer s)
  | .allocateBufferNonBlocking => call s (allocateBufferNonBlocking s)
  | .allocateAppendBufferNonBlocking => call s (allocateAppendBufferNonBlocking s)
  | .resumeAllocate i => if s.gone then none else resumeAllocate s i
  | .release i k => release s i k
  | .destruct k => call s (some (destruct s k))
  | .finishDestruct => finishDestruct s

end MediaFoundation.BufferPool
