import MediaFoundation.Lib.Runs

/-!
# AsyncMode

`pipeline/filters/codec/async_mode.cpp`: a codec filter that is served by three tasks, with the
blocking queue, the buffer pool and the tasks of `src/engine` as far as it uses them.

Conventions:

* A block is what one thread does while it holds a mutex, or one access to a member outside of one.
  Five threads take their blocks in any order: the one that calls `PushData`, the three tasks, the
  one in which the plug-in calls `OnOutputBufferDone`, and the one that calls `FlushStart` and
  `FlushEnd` in turn.
* At most one thread waits on each condition variable. The flag of a condition variable says that
  this thread has been notified since it went to sleep; a thread also wakes up for no reason.
* The mode is prepared and configured; `Stop` and `Release` are not called, so no task is stopped.
  A null buffer changes nothing in `PushData` and `OnOutputBufferDone` and is left out.
* What the plug-in answers, and whether an output buffer is valid, come with the label.
* An output buffer that is released goes back to the pool; the pool counts them.
* `call` and `flushes` of a buffer, and `History`, only record what happens.
-/

namespace MediaFoundation.AsyncMode

def bufferFlagEos : UInt32 := 0x00000001

/-- The buffer of one `PushData` or `OnOutputBufferDone`: its flag, the number of calls before it,
and the number of `FlushStart`s that had been entered when it was. -/
structure AVBuffer where
  flag : UInt32
  call : Nat
  flushes : Nat
deriving DecidableEq

def AVBuffer.eos (b : AVBuffer) : Bool := b.flag &&& bufferFlagEos != 0

/-- `Plugin::Status`; the other errors are one. -/
inductive Status where
  | ok
  | endOfStream
  | errorAgain
  | errorNotEnoughData
  | error
deriving DecidableEq

-- BlockingQueue

structure BlockingQueue where
  que_ : List AVBuffer
  capacity_ : Nat
  isActive : Bool
  cvFull_ : Bool
  cvEmpty_ : Bool
deriving DecidableEq

namespace BlockingQueue

def enqueue (q : BlockingQueue) (value : AVBuffer) : BlockingQueue :=
  { q with que_ := q.que_ ++ [value], cvEmpty_ := true }

/-- `Push` up to its wait, and whether it returns. -/
def push (q : BlockingQueue) (value : AVBuffer) : BlockingQueue × Bool :=
  if !q.isActive then (q, true)
  else if q.capacity_ ≤ q.que_.length then ({ q with cvFull_ := false }, false)
  else (q.enqueue value, true)

def pushWoken (q : BlockingQueue) (value : AVBuffer) : BlockingQueue × Bool :=
  if !q.isActive then (q, true)
  else if q.capacity_ ≤ q.que_.length then (q, false)
  else (q.enqueue value, true)

/-- What `Pop` comes to: it waits, or returns a buffer or none. -/
inductive Popped where
  | waits
  | returns (el : Option AVBuffer)

def pop (q : BlockingQueue) : BlockingQueue × Popped :=
  if !q.isActive then (q, .returns none)
  else
    match q.que_ with
    | [] => ({ q with cvEmpty_ := false }, .waits)
    | el :: rest => ({ q with que_ := rest, cvFull_ := true }, .returns (some el))

def popWoken (q : BlockingQueue) : BlockingQueue × Popped :=
  if !q.isActive then (q, .returns none)
  else
    match q.que_ with
    | [] => (q, .waits)
    | el :: rest => ({ q with que_ := rest, cvFull_ := true }, .returns (some el))

def clearUnprotected (q : BlockingQueue) : BlockingQueue :=
  if q.que_.isEmpty then q
  else { q with que_ := [], cvFull_ := q.cvFull_ || q.que_.length == q.capacity_ }

def setActive (q : BlockingQueue) (active : Bool) : BlockingQueue :=
  let q := { q with isActive := active }
  if active then q else { q.clearUnprotected with cvEmpty_ := true }

end BlockingQueue

-- BufferPool

structure BufferPool where
  freeBuffers_ : Nat
  lent : Nat
  isActive_ : Bool
  cv_ : Bool
deriving DecidableEq

namespace BufferPool

def setActive (p : BufferPool) (active : Bool) : BufferPool :=
  { p with isActive_ := active, cv_ := p.cv_ || !active }

def recycleBuffer (p : BufferPool) : BufferPool :=
  { p with freeBuffers_ := p.freeBuffers_ + 1, lent := p.lent - 1, cv_ := true }

/-- What `AllocateBuffer` comes to: it waits, or returns a buffer or none. -/
inductive Allocated where
  | waits
  | returns (buffer : Bool)

def allocateBufferUnprotected (p : BufferPool) : BufferPool × Allocated :=
  if p.isActive_ then
    ({ p with freeBuffers_ := p.freeBuffers_ - 1, lent := p.lent + 1 }, .returns true)
  else (p, .returns false)

def allocateBuffer (p : BufferPool) : BufferPool × Allocated :=
  if p.freeBuffers_ == 0 && p.isActive_ then ({ p with cv_ := false }, .waits)
  else p.allocateBufferUnprotected

def allocateWoken (p : BufferPool) : BufferPool × Allocated :=
  if p.freeBuffers_ == 0 && p.isActive_ then (p, .waits)
  else p.allocateBufferUnprotected

end BufferPool

-- Task

inductive RunningState where
  | started
  | pausing
  | paused
deriving DecidableEq

/-- Where the thread of a task stands in `Run`: before it looks at the state, in the handler,
before it takes `stateMutex_`, or in the timed wait. -/
inductive Loop (η : Type) where
  | top
  | handler (at_ : η)
  | locking
  | parked
deriving DecidableEq

structure Task (η : Type) where
  runningState_ : RunningState
  loop : Loop η
deriving DecidableEq

namespace Task

variable {η : Type}

def start (t : Task η) : Task η := { t with runningState_ := .started }

/-- `Pause` up to its wait, and whether it waits. -/
def pause (t : Task η) : Task η × Bool :=
  match t.runningState_ with
  | .started => ({ t with runningState_ := .pausing }, true)
  | .pausing => (t, true)
  | .paused => (t, false)

def pauseAsync (t : Task η) : Task η :=
  if t.runningState_ = .started then { t with runningState_ := .pausing } else t

/-- A block of `Run` outside the handler, which begins at `first`. The timed wait may end at any
time. -/
def turn (first : η) (t : Task η) : Task η :=
  match t.loop with
  | .top => { t with loop := if t.runningState_ = .started then .handler first else .locking }
  | .handler _ => t
  | .locking =>
    if t.runningState_ = .started then { t with loop := .top }
    else { runningState_ := .paused, loop := .parked }
  | .parked => { t with loop := .top }

def goto (at_ : η) (t : Task η) : Task η := { t with loop := .handler at_ }

def leave (t : Task η) : Task η := { t with loop := .locking }

end Task

-- Where the threads stand

inductive PushData where
  | idle
  | entered (buffer : AVBuffer)
  | pushing (buffer : AVBuffer)
  | waiting (buffer : AVBuffer)
deriving DecidableEq

inductive HandleFrame where
  | pop
  | waitingPop
  | queueInput (oneBuffer : AVBuffer)
  | refused (oneBuffer : AVBuffer)
  | beforeWait (oneBuffer : AVBuffer)
  | waiting (oneBuffer : AVBuffer)
  | finish (oneBuffer : AVBuffer)
deriving DecidableEq

inductive DecodeFrame where
  | allocate
  | waitingAllocate
  | queueOutput
  | testNeed
  | notify
deriving DecidableEq

inductive FinishFrame where
  | takeFront
  | pushData (frameBuffer : AVBuffer)
  | finish (frameBuffer : AVBuffer)
deriving DecidableEq

inductive OnOutputBufferDone where
  | idle
  | deactivatePool (buffer : AVBuffer)
  | pauseDecode (buffer : AVBuffer)
  | enqueue (buffer : AVBuffer)
  | testNeed
  | notify
deriving DecidableEq

/-- The next block of the thread that flushes: up to `flushed` in or after `FlushStart`, then in
`FlushEnd`. -/
inductive Flush where
  | idle
  | deactivateQueue
  | testNeed
  | notify
  | pauseHandle
  | awaitHandle
  | deactivatePool
  | pauseDecode
  | awaitDecode
  | pausePush
  | awaitPush
  | clearOutput
  | flushed
  | activateQueue
  | testNeedAgain
  | notifyAgain
  | startHandle
  | activatePool
  | startDecode
  | startPush
deriving DecidableEq

/-- A buffer that was handed to the plug-in, the number of `FlushEnd`s that had been entered, and
whether the plug-in took it. -/
structure Handed where
  buffer : AVBuffer
  flushEnds : Nat
  taken : Bool
deriving DecidableEq

/-- A buffer that was pushed downstream, and the number of `FlushEnd`s that had been entered. -/
structure Delivered where
  buffer : AVBuffer
  flushEnds : Nat
deriving DecidableEq

structure History where
  entered : List AVBuffer := []
  handed : List Handed := []
  produced : List AVBuffer := []
  delivered : List Delivered := []
  flushStarts : Nat := 0
  flushEnds : Nat := 0
deriving DecidableEq

structure System where
  stopped_ : Bool
  inBufQue_ : BlockingQueue
  isNeedQueueInputBuffer_ : Bool
  /-- The `HandleFrame` that waits on `cv_` has been notified. -/
  cv_ : Bool
  outBufPool_ : BufferPool
  outBufQue_ : List AVBuffer
  outPortPushes : Bool
  handleFrameTask_ : Task HandleFrame
  decodeFrameTask_ : Task DecodeFrame
  pushTask_ : Task FinishFrame
  pushData : PushData
  outputDone : OnOutputBufferDone
  flush : Flush
  history : History
deriving DecidableEq

/-- After `Prepare` and `Configure`, with some of the output buffers queued to the plug-in. -/
def configured (capacity freeBuffers lent : Nat) (outPortPushes : Bool) : System where
  stopped_ := false
  inBufQue_ := ⟨[], capacity, true, false, false⟩
  isNeedQueueInputBuffer_ := true
  cv_ := false
  outBufPool_ := ⟨freeBuffers, lent, true, false⟩
  outBufQue_ := []
  outPortPushes
  handleFrameTask_ := ⟨.started, .top⟩
  decodeFrameTask_ := ⟨.started, .top⟩
  pushTask_ := ⟨.started, .top⟩
  pushData := .idle
  outputDone := .idle
  flush := .idle
  history := {}

namespace System

-- PushData

def enterPushData (s : System) (flag : UInt32) : Option System :=
  match s.pushData with
  | .idle =>
    let buffer : AVBuffer := ⟨flag, s.history.entered.length, s.history.flushStarts⟩
    some { s with
      pushData := .entered buffer
      history := { s.history with entered := s.history.entered ++ [buffer] } }
  | _ => none

def afterPush (s : System) (buffer : AVBuffer) (r : BlockingQueue × Bool) : System :=
  { s with inBufQue_ := r.1, pushData := if r.2 then .idle else .waiting buffer }

def pushDataBlock (s : System) : Option System :=
  match s.pushData with
  | .idle => none
  | .entered buffer =>
    -- a stopped mode sleeps for a while instead
    some { s with pushData := if s.stopped_ then .idle else .pushing buffer }
  | .pushing buffer => some (s.afterPush buffer (s.inBufQue_.push buffer))
  | .waiting buffer => some (s.afterPush buffer (s.inBufQue_.pushWoken buffer))

-- HandleFrame

def afterPop (s : System) (r : BlockingQueue × BlockingQueue.Popped) : System :=
  { s with
    inBufQue_ := r.1
    handleFrameTask_ :=
      match r.2 with
      | .waits => s.handleFrameTask_.goto .waitingPop
      | .returns none => s.handleFrameTask_.leave
      | .returns (some oneBuffer) => s.handleFrameTask_.goto (.queueInput oneBuffer) }

def handleFrameBlock (s : System) (status : Status) : System :=
  match s.handleFrameTask_.loop with
  | .handler .pop => s.afterPop s.inBufQue_.pop
  | .handler .waitingPop => s.afterPop s.inBufQue_.popWoken
  | .handler (.queueInput oneBuffer) =>
    let handed : Handed := ⟨oneBuffer, s.history.flushEnds, status != .errorAgain⟩
    { s with
      handleFrameTask_ := s.handleFrameTask_.goto
        (if status = .errorAgain then .refused oneBuffer else .finish oneBuffer)
      history := { s.history with handed := s.history.handed ++ [handed] } }
  | .handler (.refused oneBuffer) =>
    { s with
      handleFrameTask_ := s.handleFrameTask_.goto
        (if s.stopped_ then .finish oneBuffer else .beforeWait oneBuffer) }
  | .handler (.beforeWait oneBuffer) =>
    { s with
      isNeedQueueInputBuffer_ := false
      cv_ := false
      handleFrameTask_ := s.handleFrameTask_.goto (.waiting oneBuffer) }
  | .handler (.waiting oneBuffer) =>
    { s with handleFrameTask_ := s.handleFrameTask_.goto (.queueInput oneBuffer) }
  | .handler (.finish oneBuffer) =>
    let task := if oneBuffer.eos then s.handleFrameTask_.pauseAsync else s.handleFrameTask_
    { s with handleFrameTask_ := task.leave }
  | _ => { s with handleFrameTask_ := s.handleFrameTask_.turn .pop }

-- DecodeFrame

def afterAllocate (s : System) (r : BufferPool × BufferPool.Allocated) : System :=
  { s with
    outBufPool_ := r.1
    decodeFrameTask_ :=
      match r.2 with
      | .waits => s.decodeFrameTask_.goto .waitingAllocate
      | .returns true => s.decodeFrameTask_.goto .queueOutput
      | .returns false => s.decodeFrameTask_.leave }

/-- A block of `DecodeFrame`, or of the loop that calls it. A buffer that is not valid is released
at once. -/
def decodeFrameBlock (s : System) (valid : Bool) (status : Status) : System :=
  match s.decodeFrameTask_.loop with
  | .handler .allocate => s.afterAllocate s.outBufPool_.allocateBuffer
  | .handler .waitingAllocate => s.afterAllocate s.outBufPool_.allocateWoken
  | .handler .queueOutput =>
    if !valid then
      { s with
        outBufPool_ := s.outBufPool_.recycleBuffer
        decodeFrameTask_ := s.decodeFrameTask_.leave }
    else
      { s with
        decodeFrameTask_ :=
          if status = .errorNotEnoughData then s.decodeFrameTask_.goto .testNeed
          else s.decodeFrameTask_.leave }
  | .handler .testNeed =>
    { s with
      decodeFrameTask_ :=
        if s.isNeedQueueInputBuffer_ then s.decodeFrameTask_.leave
        else s.decodeFrameTask_.goto .notify }
  | .handler .notify => { s with cv_ := true, decodeFrameTask_ := s.decodeFrameTask_.leave }
  | _ => { s with decodeFrameTask_ := s.decodeFrameTask_.turn .allocate }

-- FinishFrame

def finishFrameBlock (s : System) : System :=
  match s.pushTask_.loop with
  | .handler .takeFront =>
    match s.outBufQue_ with
    | [] => { s with pushTask_ := s.pushTask_.leave }
    | frameBuffer :: rest =>
      { s with outBufQue_ := rest, pushTask_ := s.pushTask_.goto (.pushData frameBuffer) }
  | .handler (.pushData frameBuffer) =>
    if s.outPortPushes then
      let delivered : Delivered := ⟨frameBuffer, s.history.flushEnds⟩
      { s with
        pushTask_ := s.pushTask_.goto (.finish frameBuffer)
        history := { s.history with delivered := s.history.delivered ++ [delivered] } }
    else { s with pushTask_ := s.pushTask_.leave }
  | .handler (.finish frameBuffer) =>
    let task := if frameBuffer.eos then s.pushTask_.pauseAsync else s.pushTask_
    { s with pushTask_ := task.leave }
  | _ => { s with pushTask_ := s.pushTask_.turn .takeFront }

-- OnOutputBufferDone

def enterOutputDone (s : System) (flag : UInt32) : Option System :=
  match s.outputDone with
  | .idle =>
    let buffer : AVBuffer := ⟨flag, s.history.produced.length, s.history.flushStarts⟩
    some { s with
      outputDone := if buffer.eos then .deactivatePool buffer else .enqueue buffer
      history := { s.history with produced := s.history.produced ++ [buffer] } }
  | _ => none

def outputDoneBlock (s : System) : Option System :=
  match s.outputDone with
  | .idle => none
  | .deactivatePool buffer =>
    some { s with
      outBufPool_ := s.outBufPool_.setActive false
      outputDone := .pauseDecode buffer }
  | .pauseDecode buffer =>
    some { s with
      decodeFrameTask_ := s.decodeFrameTask_.pauseAsync
      outputDone := .enqueue buffer }
  | .enqueue buffer =>
    some { s with outBufQue_ := s.outBufQue_ ++ [buffer], outputDone := .testNeed }
  | .testNeed =>
    some { s with outputDone := if s.isNeedQueueInputBuffer_ then .idle else .notify }
  | .notify =>
    some { s with isNeedQueueInputBuffer_ := true, cv_ := true, outputDone := .idle }

-- FlushStart and FlushEnd

def enterFlushStart (s : System) : Option System :=
  if s.flush = .idle then
    some { s with
      stopped_ := true
      flush := .deactivateQueue
      history := { s.history with flushStarts := s.history.flushStarts + 1 } }
  else none

def enterFlushEnd (s : System) : Option System :=
  if s.flush = .flushed then
    some { s with
      stopped_ := false
      flush := .activateQueue
      history := { s.history with flushEnds := s.history.flushEnds + 1 } }
  else none

/-- A block of `FlushStart` or `FlushEnd`. The wait in `Pause` ends when the task has paused. -/
def flushBlock (s : System) : Option System :=
  match s.flush with
  | .idle => none
  | .deactivateQueue =>
    some { s with inBufQue_ := s.inBufQue_.setActive false, flush := .testNeed }
  | .testNeed =>
    some { s with flush := if s.isNeedQueueInputBuffer_ then .pauseHandle else .notify }
  | .notify => some { s with isNeedQueueInputBuffer_ := true, cv_ := true, flush := .pauseHandle }
  | .pauseHandle =>
    some { s with
      handleFrameTask_ := s.handleFrameTask_.pause.1
      flush := if s.handleFrameTask_.pause.2 then .awaitHandle else .deactivatePool }
  | .awaitHandle =>
    if s.handleFrameTask_.runningState_ = .paused then some { s with flush := .deactivatePool }
    else none
  | .deactivatePool =>
    some { s with outBufPool_ := s.outBufPool_.setActive false, flush := .pauseDecode }
  | .pauseDecode =>
    some { s with
      decodeFrameTask_ := s.decodeFrameTask_.pause.1
      flush := if s.decodeFrameTask_.pause.2 then .awaitDecode else .pausePush }
  | .awaitDecode =>
    if s.decodeFrameTask_.runningState_ = .paused then some { s with flush := .pausePush }
    else none
  | .pausePush =>
    some { s with
      pushTask_ := s.pushTask_.pause.1
      flush := if s.pushTask_.pause.2 then .awaitPush else .clearOutput }
  | .awaitPush =>
    if s.pushTask_.runningState_ = .paused then some { s with flush := .clearOutput } else none
  | .clearOutput => some { s with outBufQue_ := [], flush := .flushed }
  | .flushed => none
  | .activateQueue =>
    some { s with inBufQue_ := s.inBufQue_.setActive true, flush := .testNeedAgain }
  | .testNeedAgain =>
    some { s with flush := if s.isNeedQueueInputBuffer_ then .startHandle else .notifyAgain }
  | .notifyAgain =>
    some { s with isNeedQueueInputBuffer_ := true, cv_ := true, flush := .startHandle }
  | .startHandle =>
    some { s with handleFrameTask_ := s.handleFrameTask_.start, flush := .activatePool }
  | .activatePool =>
    some { s with outBufPool_ := s.outBufPool_.setActive true, flush := .startDecode }
  | .startDecode =>
    some { s with decodeFrameTask_ := s.decodeFrameTask_.start, flush := .startPush }
  | .startPush => some { s with pushTask_ := s.pushTask_.start, flush := .idle }

def release (s : System) : Option System :=
  if s.outBufPool_.lent = 0 then none
  else some { s with outBufPool_ := s.outBufPool_.recycleBuffer }

end System

-- The system

inductive Label where
  | enterPushData (flag : UInt32)
  | pushData
  | handleFrame (status : Status)
  | decodeFrame (valid : Bool) (status : Status)
  | finishFrame
  | enterOutputDone (flag : UInt32)
  | outputDone
  | enterFlushStart
  | enterFlushEnd
  | flush
  | release
deriving DecidableEq

def step (s : System) : Label → Option System
  | .enterPushData flag => s.enterPushData flag
  | .pushData => s.pushDataBlock
  | .handleFrame status => some (s.handleFrameBlock status)
  | .decodeFrame valid status => some (s.decodeFrameBlock valid status)
  | .finishFrame => some s.finishFrameBlock
  | .enterOutputDone flag => s.enterOutputDone flag
  | .outputDone => s.outputDoneBlock
  | .enterFlushStart => s.enterFlushStart
  | .enterFlushEnd => s.enterFlushEnd
  | .flush => s.flushBlock
  | .release => s.release

abbrev run := Runs.run step

end MediaFoundation.AsyncMode
