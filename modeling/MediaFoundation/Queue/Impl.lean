import MediaFoundation.Basic

/-!
# AVBufferQueueImpl, one critical section at a time

The data of `AVBufferQueueImpl` and its `queueMutex_`-protected blocks, from
`avbuffer_queue.cpp`. A block is a function from the queue to the queue it
leaves and to what the code after the block needs; blocks that can
dereference a null `shared_ptr` return an `Option`, `none` being the crash.

Conventions:

* `cachedBufferMap_[id]` inserts a default element when `id` is absent. It is
  `element` when a `find` just before it succeeded, else `touch` followed by
  `element`; `absentLookups` counts the insertions.
* `requestCondition.notify_all()` is `notifyAll`; `notified` counts the calls.
* `GetCachedBufferCount` casts the map's size to `uint32_t`; the source states
  that the map never gets that large, so sizes and counts are `Nat` here.
* `Env` is what a block reads outside the queue: the configuration and flag of
  the buffer objects at that moment, and the outcome of `CreateAVBuffer`.
-/

namespace MediaFoundation.Queue

open Std (ExtTreeMap)

/-! ## Data -/

inductive AVBufferState where
  | released
  | requested
  | pushed
  | returned
  | acquired
  | attached
deriving DecidableEq

/-- An element of the map. The defaults are those of the value-initialised
element that `operator[]` inserts. -/
structure AVBufferElement where
  config : AVBufferConfig := {}
  state : AVBufferState := .released
  isDeleting : Bool := false
  buffer : Option AVBufferRef := none
deriving DecidableEq

structure AVBufferQueueImpl where
  size : Nat
  memoryType : MemoryType
  disableAlloc : Bool
  cachedBufferMap : ExtTreeMap UInt64 AVBufferElement := ∅
  freeBufferList : List UInt64 := []
  dirtyBufferList : List UInt64 := []
  memoryUsage : UInt32 := 0
  notified : Nat := 0
  absentLookups : Nat := 0

/-- What a buffer object holds when a block looks at it. -/
structure AVBufferContents where
  config : AVBufferConfig
  flag : UInt32

structure Env where
  contents : AVBufferRef → AVBufferContents
  created : Option AVBufferRef

def avbufferQueueMaxQueueSize : Nat := 500
def avbufferQueueMaxQueueSizeForLarger : Nat := 500

def avbufferFlagEos : UInt32 := 1

namespace AVBufferQueueImpl

/-- The constructor with a size; the one without starts as `create 0 .unknownMemory false`. -/
def create (size : Nat) (type : MemoryType) (disableAlloc : Bool) : AVBufferQueueImpl where
  size := if avbufferQueueMaxQueueSize < size then avbufferQueueMaxQueueSize else size
  memoryType := type
  disableAlloc := disableAlloc

/-! ## Access to the map -/

def element (q : AVBufferQueueImpl) (uniqueId : UInt64) : AVBufferElement :=
  q.cachedBufferMap[uniqueId]?.getD {}

def setElement (q : AVBufferQueueImpl) (uniqueId : UInt64) (ele : AVBufferElement) :
    AVBufferQueueImpl :=
  { q with cachedBufferMap := q.cachedBufferMap.insert uniqueId ele }

/-- The insertion that `cachedBufferMap_[uniqueId]` makes for an absent id. -/
def touch (q : AVBufferQueueImpl) (uniqueId : UInt64) : AVBufferQueueImpl :=
  if uniqueId ∈ q.cachedBufferMap then q
  else { q.setElement uniqueId {} with absentLookups := q.absentLookups + 1 }

def getCachedBufferCount (q : AVBufferQueueImpl) : Nat := q.cachedBufferMap.size

def notifyAll (q : AVBufferQueueImpl) : AVBufferQueueImpl := { q with notified := q.notified + 1 }

def totalMemoryCalculation (q : AVBufferQueueImpl) (isAdd : Bool) (capacity : Int32) :
    AVBufferQueueImpl :=
  if ¬ 0 < capacity then q
  else if isAdd then { q with memoryUsage := q.memoryUsage + capacity.toUInt32 }
  else if capacity.toUInt32 ≤ q.memoryUsage then
    { q with memoryUsage := q.memoryUsage - capacity.toUInt32 }
  else q

def addElement (q : AVBufferQueueImpl) (uniqueId : UInt64) (ele : AVBufferElement) :
    AVBufferQueueImpl :=
  (q.setElement uniqueId ele).totalMemoryCalculation true ele.config.capacity

def eraseElement (q : AVBufferQueueImpl) (uniqueId : UInt64) : AVBufferQueueImpl :=
  { q with cachedBufferMap := q.cachedBufferMap.erase uniqueId }

def deleteCachedBufferById (q : AVBufferQueueImpl) (uniqueId : UInt64) : AVBufferQueueImpl :=
  match q.cachedBufferMap[uniqueId]? with
  | none => q
  | some ele => (q.totalMemoryCalculation false ele.config.capacity).eraseElement uniqueId

/-! ## The free list -/

def insertInOrder (q : AVBufferQueueImpl) (uniqueId : UInt64) :
    List UInt64 → AVBufferQueueImpl × List UInt64
  | [] => (q, [uniqueId])
  | it :: rest =>
    let q := if it ≠ uniqueId then (q.touch it).touch uniqueId else q
    if it ≠ uniqueId ∧
        (q.element uniqueId).config.capacity ≤ (q.element it).config.capacity then
      (q, uniqueId :: it :: rest)
    else
      let r := insertInOrder q uniqueId rest
      (r.1, it :: r.2)

def insertFreeBufferInOrder (q : AVBufferQueueImpl) (uniqueId : UInt64) : AVBufferQueueImpl :=
  let r := q.insertInOrder uniqueId q.freeBufferList
  { r.1 with freeBufferList := r.2 }

/-- The loop of `PopFromFreeBufferList`: the first id of the list whose buffer
can serve the configuration. -/
def findFree (q : AVBufferQueueImpl) (config : AVBufferConfig) :
    List UInt64 → AVBufferQueueImpl × Option UInt64
  | [] => (q, none)
  | it :: rest =>
    let q := q.touch it
    if config.le (q.element it).config then (q, some it) else findFree q config rest

/-- `PopFromFreeBufferList`; no result is `ERROR_NO_FREE_BUFFER`. -/
def popFromFreeBufferList (q : AVBufferQueueImpl) (config : AVBufferConfig) :
    AVBufferQueueImpl × Option (Option AVBufferRef) :=
  match q.findFree config q.freeBufferList with
  | (q, some it) =>
    ({ q with freeBufferList := q.freeBufferList.erase it }, some (q.element it).buffer)
  | (q, none) =>
    match q.freeBufferList with
    | [] => (q, none)
    | front :: rest =>
      let q := q.touch front
      ({ q with freeBufferList := rest }, some (q.element front).buffer)

/-! ## Deleting buffers -/

/-- One of the two list loops of `DeleteBuffers`: deletes from the front until
the list is empty or the count is used up. -/
def deleteListed (q : AVBufferQueueImpl) : List UInt64 → Nat → AVBufferQueueImpl × List UInt64 × Nat
  | [], count => (q, [], count)
  | front :: rest, count =>
    let q := q.deleteCachedBufferById front
    if count - 1 = 0 then (q, rest, 0) else deleteListed q rest (count - 1)

def markElement (m : ExtTreeMap UInt64 AVBufferElement) (uniqueId : UInt64) :
    ExtTreeMap UInt64 AVBufferElement :=
  m.modify uniqueId fun ele => { ele with isDeleting := true }

/-- The last loop of `DeleteBuffers`: marks the first `count` elements of the
map, in the order of their ids, whether or not they are marked already. -/
def markDeleting (q : AVBufferQueueImpl) (count : Nat) : AVBufferQueueImpl :=
  { q with
    cachedBufferMap := (q.cachedBufferMap.keys.take count).foldl markElement q.cachedBufferMap }

def deleteBuffers (q : AVBufferQueueImpl) (count : Nat) : AVBufferQueueImpl :=
  if count = 0 then q
  else
    let f := q.deleteListed q.freeBufferList count
    let q := { f.1 with freeBufferList := f.2.1 }
    if f.2.2 = 0 then q
    else
      let d := q.deleteListed q.dirtyBufferList f.2.2
      let q := { d.1 with dirtyBufferList := d.2.1 }
      if d.2.2 = 0 then q else q.markDeleting d.2.2

/-! ## Size -/

def getQueueSize (q : AVBufferQueueImpl) : Nat := q.size

/-- The resize that `SetLargerQueueSizeLocked` and
`SetQueueSizeBeforeAttachBufferLocked` both spell out. -/
def resizeLocked (q : AVBufferQueueImpl) (size : Nat) : AVBufferQueueImpl :=
  if q.size < size then
    let q := { q with size := size }
    if ¬ q.disableAlloc then q.notifyAll else q
  else { q.deleteBuffers (q.size - size) with size := size }

def setLargerQueueSizeLocked (q : AVBufferQueueImpl) (size : Nat) : AVBufferQueueImpl × Status :=
  if size ≤ avbufferQueueMaxQueueSizeForLarger ∧ size ≠ q.size then (q.resizeLocked size, .ok)
  else (q, .errorInvalidBufferSize)

def setQueueSize (q : AVBufferQueueImpl) (size : Nat) : AVBufferQueueImpl × Status :=
  if size ≤ avbufferQueueMaxQueueSize ∧ size ≠ q.size then q.setLargerQueueSizeLocked size
  else (q, .errorInvalidBufferSize)

def setLargerQueueSize (q : AVBufferQueueImpl) (size : Nat) : AVBufferQueueImpl × Status :=
  q.setLargerQueueSizeLocked size

def setQueueSizeBeforeAttachBufferLocked (q : AVBufferQueueImpl) (size : Nat) :
    AVBufferQueueImpl :=
  q.resizeLocked size

/-! ## RequestBuffer -/

/-- `CheckConfig`; no result is `ERROR_UNEXPECTED_MEMORY_TYPE`. -/
def checkConfig (q : AVBufferQueueImpl) (config : AVBufferConfig) : Option AVBufferQueueImpl :=
  if config.memoryType = .unknownMemory then none
  else if q.memoryType ≠ .unknownMemory ∧ config.memoryType ≠ q.memoryType then none
  else some { q with memoryType := config.memoryType }

/-- `AllocBuffer` and the move of the new element to `REQUESTED` that follows
both of its calls. -/
def allocBuffer (q : AVBufferQueueImpl) (env : Env) : AVBufferQueueImpl × Except Status AVBufferRef :=
  match env.created with
  | none => (q, .error .errorCreateBuffer)
  | some bufferImpl =>
    (q.addElement bufferImpl.uniqueId
      { config := (env.contents bufferImpl).config, state := .requested,
        isDeleting := false, buffer := some bufferImpl }, .ok bufferImpl)

def requestReuseBuffer (q : AVBufferQueueImpl) (env : Env) (buffer : Option AVBufferRef)
    (config : AVBufferConfig) : AVBufferQueueImpl × Except Status AVBufferRef :=
  match buffer with
  | none => (q, .error .errorNullPointBuffer)
  | some buffer =>
    match q.cachedBufferMap[buffer.uniqueId]? with
    | none => (q, .error .errorCreateBuffer)
    | some ele =>
      if config.le ele.config then
        (q.setElement buffer.uniqueId
          { ele with config := { ele.config with size := config.size }, state := .requested },
          .ok buffer)
      else (q.deleteCachedBufferById buffer.uniqueId).allocBuffer env

def waitPredicate (q : AVBufferQueueImpl) : Bool :=
  !q.freeBufferList.isEmpty || decide (q.getCachedBufferCount < q.size)

/-- The part of `RequestBufferWaitUs` after a `wait_for` that returned true. -/
def requestAfterWait (q : AVBufferQueueImpl) (env : Env) (configCopy : AVBufferConfig) :
    AVBufferQueueImpl × Except Status AVBufferRef :=
  match q.popFromFreeBufferList configCopy with
  | (q, some buffer) => q.requestReuseBuffer env buffer configCopy
  | (q, none) =>
    if q.size ≤ q.getCachedBufferCount then (q, .error .errorNoFreeBuffer)
    else q.allocBuffer env

/-- `RequestBufferWaitUs` from `CheckConfig` to its end, or to the wait on
`requestCondition`: then there is no result yet. -/
def requestBufferWaitUs (q : AVBufferQueueImpl) (env : Env) (configCopy : AVBufferConfig)
    (timeoutUs : Int64) : AVBufferQueueImpl × Option (Except Status AVBufferRef) :=
  match q.checkConfig configCopy with
  | none => (q, some (.error .errorUnexpectedMemoryType))
  | some q =>
    match q.popFromFreeBufferList configCopy with
    | (q, some buffer) =>
      let r := q.requestReuseBuffer env buffer configCopy
      (r.1, some r.2)
    | (q, none) =>
      if q.size ≤ q.getCachedBufferCount then
        if timeoutUs = 0 then
          let r := q.requestAfterWait env configCopy
          (r.1, some r.2)
        else (q, none)
      else
        let r := q.allocBuffer env
        (r.1, some r.2)

/-- `RequestBufferWaitUs` from the moment its wait ends. A wait with a timeout
checks the predicate: false sends the thread back to sleep, or ends the call
when the time is up. A wait without one (`timeoutUs < 0`) checks nothing. -/
def requestBufferResume (q : AVBufferQueueImpl) (env : Env) (configCopy : AVBufferConfig)
    (timeoutUs : Int64) (timedOut : Bool) :
    AVBufferQueueImpl × Option (Except Status AVBufferRef) :=
  if 0 < timeoutUs ∧ ¬ q.waitPredicate then
    if timedOut then (q, some (.error .errorWaitTimeout)) else (q, none)
  else
    let r := q.requestAfterWait env configCopy
    (r.1, some r.2)

/-! ## PushBuffer and ReturnBuffer -/

def cancelBuffer (q : AVBufferQueueImpl) (uniqueId : UInt64) : AVBufferQueueImpl × Status :=
  match q.cachedBufferMap[uniqueId]? with
  | none => (q, .errorInvalidBufferId)
  | some ele =>
    if ele.state = .requested ∨ ele.state = .pushed then
      let q := q.insertFreeBufferInOrder uniqueId
      ((q.setElement uniqueId { q.element uniqueId with state := .released }).notifyAll, .ok)
    else (q, .errorInvalidBufferState)

inductive PushOutcome where
  | failed (status : Status)
  | deleted
  | pushed (buffer : Option AVBufferRef)

def pushElement (q : AVBufferQueueImpl) (uniqueId : UInt64) (ele : AVBufferElement) :
    AVBufferQueueImpl × PushOutcome :=
  if ele.state = .requested ∨ ele.state = .attached then
    (q.setElement uniqueId { ele with state := .pushed }, .pushed ele.buffer)
  else (q, .failed .errorInvalidBufferState)

def pushBuffer (q : AVBufferQueueImpl) (env : Env) (uniqueId : UInt64) (available : Bool) :
    Option (AVBufferQueueImpl × PushOutcome) :=
  match q.cachedBufferMap[uniqueId]? with
  | none => some (q, .failed .errorInvalidBufferId)
  | some ele =>
    if ele.isDeleting then some (q.deleteCachedBufferById uniqueId, .deleted)
    else if available then
      match ele.buffer with
      | none => none
      | some buffer =>
        if ¬ 0 ≤ (env.contents buffer).config.size then some (q, .failed .errorInvalidBufferSize)
        else some (q.pushElement uniqueId ele)
    else some (q.pushElement uniqueId ele)

inductive ReturnOutcome where
  | failed (status : Status)
  | deleted
  /-- Back on the free list; the producer listener is told next. -/
  | cancelled
  /-- At the end of the dirty list; the consumer listener is told next. -/
  | appended (buffer : AVBufferRef)

def returnBuffer (q : AVBufferQueueImpl) (env : Env) (uniqueId : UInt64) (available : Bool) :
    Option (AVBufferQueueImpl × ReturnOutcome) :=
  match q.cachedBufferMap[uniqueId]? with
  | none => some (q, .failed .errorInvalidBufferId)
  | some ele =>
    if ele.isDeleting then some (q.deleteCachedBufferById uniqueId, .deleted)
    else if ele.state ≠ .pushed then some (q, .failed .errorInvalidBufferState)
    else if ¬ available then
      match q.cancelBuffer uniqueId with
      | (q, .ok) => some (q, .cancelled)
      | (q, status) => some (q, .failed status)
    else
      match ele.buffer with
      | none => none
      | some buffer =>
        let config := (env.contents buffer).config
        let isEosBuffer := (env.contents buffer).flag &&& avbufferFlagEos ≠ 0
        if ¬ isEosBuffer ∧ ¬ 0 < config.size then some (q, .failed .errorInvalidBufferSize)
        else
          let q := q.setElement uniqueId { ele with config := config, state := .returned }
          some ({ q with dirtyBufferList := q.dirtyBufferList ++ [uniqueId] }, .appended buffer)

/-! ## AttachBuffer and DetachBuffer -/

def attachAvailableBufferLocked (q : AVBufferQueueImpl) (env : Env) (buffer : AVBufferRef) :
    AVBufferQueueImpl × Status :=
  let ele : AVBufferElement :=
    { config := (env.contents buffer).config, state := .attached,
      isDeleting := false, buffer := some buffer }
  let cachedCount := q.getCachedBufferCount
  if q.size ≤ cachedCount then
    let validCount := q.dirtyBufferList.length + q.freeBufferList.length
    let toBeDeleteCount := cachedCount - q.size
    if toBeDeleteCount < validCount then
      ((q.deleteBuffers (toBeDeleteCount + 1)).addElement buffer.uniqueId ele, .ok)
    else (q, .errorOutOfRange)
  else (q.addElement buffer.uniqueId ele, .ok)

def attachBuffer (q : AVBufferQueueImpl) (env : Env) (buffer : AVBufferRef)
    (config : AVBufferConfig) : AVBufferQueueImpl × Status :=
  if buffer.uniqueId ∈ q.cachedBufferMap then (q, .errorInvalidBufferId)
  else match q.checkConfig config with
    | none => (q, .errorUnexpectedMemoryType)
    | some q => q.attachAvailableBufferLocked env buffer

def setQueueSizeAndAttachBuffer (q : AVBufferQueueImpl) (env : Env) (size : Nat)
    (buffer : AVBufferRef) (config : AVBufferConfig) : AVBufferQueueImpl × Status :=
  let q := if size ≤ avbufferQueueMaxQueueSize ∧ size ≠ q.size then
    q.setQueueSizeBeforeAttachBufferLocked size else q
  q.attachBuffer env buffer config

def detachBuffer (q : AVBufferQueueImpl) (uniqueId : UInt64) (force : Bool) :
    AVBufferQueueImpl × Status :=
  match q.cachedBufferMap[uniqueId]? with
  | none => (q, .errorInvalidBufferId)
  | some ele =>
    if ¬ force ∧ ¬ (ele.state = .requested ∨ ele.state = .acquired) then
      (q, .errorInvalidBufferState)
    else ((q.totalMemoryCalculation false ele.config.capacity).eraseElement uniqueId, .ok)

/-! ## AcquireBuffer and ReleaseBuffer -/

/-- `PopFromDirtyBufferList`; no result is `ERROR_NO_DIRTY_BUFFER`. -/
def popFromDirtyBufferList (q : AVBufferQueueImpl) :
    AVBufferQueueImpl × Option (Option AVBufferRef) :=
  match q.dirtyBufferList with
  | [] => (q, none)
  | front :: rest =>
    let q := q.touch front
    ({ q with dirtyBufferList := rest }, some (q.element front).buffer)

def acquireBuffer (q : AVBufferQueueImpl) :
    Option (AVBufferQueueImpl × Except Status AVBufferRef) :=
  match q.popFromDirtyBufferList with
  | (q, none) => some (q, .error .errorNoDirtyBuffer)
  | (_, some none) => none
  | (q, some (some buffer)) =>
    let q := q.touch buffer.uniqueId
    some (q.setElement buffer.uniqueId { q.element buffer.uniqueId with state := .acquired },
      .ok buffer)

inductive ReleaseOutcome where
  | failed (status : Status)
  | deleted
  /-- On the free list; the producer listener is told next. -/
  | released

def releaseBuffer (q : AVBufferQueueImpl) (uniqueId : UInt64) :
    AVBufferQueueImpl × ReleaseOutcome :=
  match q.cachedBufferMap[uniqueId]? with
  | none => (q, .failed .errorInvalidBufferId)
  | some ele =>
    if ele.state = .acquired ∨ ele.state = .attached then
      let q := q.setElement uniqueId { ele with state := .released }
      if ele.isDeleting then (q.deleteCachedBufferById uniqueId, .deleted)
      else ((q.insertFreeBufferInOrder uniqueId).notifyAll, .released)
    else (q, .failed .errorInvalidBufferState)

/-! ## Clear and ClearBufferIf -/

def clearElement (q : AVBufferQueueImpl) (uniqueId : UInt64) : AVBufferQueueImpl :=
  match q.cachedBufferMap[uniqueId]? with
  | none => q
  | some ele =>
    if ele.state = .pushed ∨ ele.state = .returned then
      (q.setElement uniqueId { ele with state := .released }).insertFreeBufferInOrder uniqueId
    else q

def clear (q : AVBufferQueueImpl) : AVBufferQueueImpl :=
  (q.cachedBufferMap.keys.foldl clearElement { q with dirtyBufferList := [] }).notifyAll

/-- The loop of `ClearBufferIf` over the dirty list, and the ids it leaves
there. The message about a cleared buffer reads the buffer's `pts_`. -/
def clearDirtyIf (pred : Option AVBufferRef → Bool) (q : AVBufferQueueImpl) :
    List UInt64 → Option (AVBufferQueueImpl × List UInt64)
  | [] => some (q, [])
  | uniqueId :: rest =>
    let keep := (clearDirtyIf pred q rest).map fun r => (r.1, uniqueId :: r.2)
    match q.cachedBufferMap[uniqueId]? with
    | none => keep
    | some ele =>
      if ele.state ≠ .pushed ∧ ele.state ≠ .returned then keep
      else if pred ele.buffer then
        if ele.buffer = none then none
        else clearDirtyIf pred ((q.setElement uniqueId
          { ele with state := .released }).insertFreeBufferInOrder uniqueId) rest
      else keep

def clearBufferIf (q : AVBufferQueueImpl) (pred : Option AVBufferRef → Bool) :
    Option AVBufferQueueImpl :=
  (clearDirtyIf pred q q.dirtyBufferList).map fun r =>
    { r.1 with dirtyBufferList := r.2 }.notifyAll

end AVBufferQueueImpl

end MediaFoundation.Queue
