import MediaFoundation.Codec.AsyncMode

/-!
# Who wakes the input thread of a codec

A `HandleFrame` whose buffer the plug-in does not take sleeps on `cv_`
(`async_mode.cpp`). It is woken by `Stop`, `Release`, `FlushStart` and `FlushEnd`,
by `OnOutputBufferDone` and by a `DecodeFrame` that gets no data. Each of them
tests `isNeedQueueInputBuffer_` first, without `mutex_`.

Conventions, beside those of `AsyncMode`:

* Any number of calls are under way. A call is the list of the blocks that it has
  yet to take. The queue, the pool and the tasks of `src/engine` are as in
  `AsyncMode`, but tasks can be stopped as well.
* A queue, a pool or a task that `Stop` or `Release` has given up counts as one
  that is inactive or stopped.
* `FinishFrame` returns in one block, and `outBufQue_` is left out with it.
-/

namespace MediaFoundation.AsyncWake

open AsyncMode (AVBuffer BlockingQueue BufferPool HandleFrame DecodeFrame)

-- Task

inductive RunningState where
  | started
  | pausing
  | paused
  | stopping
  | stopped
deriving DecidableEq

/-- Where the thread of a task stands in `Run`, if there is one and it has not ended. -/
inductive Loop (η : Type) where
  | none
  | top
  | handler (at_ : η)
  | locking
  | parked
  | ended
deriving DecidableEq

structure Task (η : Type) where
  runningState_ : RunningState
  loop : Loop η

namespace Task

variable {η : Type}

def start (t : Task η) : Task η :=
  { runningState_ := .started, loop := match t.loop with | .none => .top | loop => loop }

/-- `Stop` up to its wait. -/
def stop (t : Task η) : Task η :=
  if t.runningState_ = .stopped then t else { t with runningState_ := .stopping }

/-- `Pause` up to its wait. -/
def pause (t : Task η) : Task η :=
  if t.runningState_ = .started then { t with runningState_ := .pausing } else t

def pauseAwaits (t : Task η) : List RunningState :=
  match t.runningState_ with
  | .started => [.paused, .stopped]
  | .stopping => [.stopped]
  | .pausing => [.paused]
  | .paused | .stopped => []

def lookStopped (t : Task η) : Task η :=
  if t.runningState_ = .stopping ∨ t.runningState_ = .stopped then
    { runningState_ := .stopped, loop := .ended }
  else { t with loop := .top }

/-- A block of `Run` outside the handler, which begins at `first`. The timed wait may end at any
time. -/
def turn (first : η) (t : Task η) : Task η :=
  match t.loop with
  | .none | .ended | .handler _ => t
  | .top => { t with loop := if t.runningState_ = .started then .handler first else .locking }
  | .locking =>
    if t.runningState_ = .pausing ∨ t.runningState_ = .paused then
      { runningState_ := .paused, loop := .parked }
    else t.lookStopped
  | .parked => t.lookStopped

def goto (at_ : η) (t : Task η) : Task η := { t with loop := .handler at_ }

def leave (t : Task η) : Task η := { t with loop := .locking }

end Task

-- The calls

inductive TaskName where
  | handle | decode | push
deriving DecidableEq

inductive Block where
  | setStopped (stopped : Bool)
  | queueActive (active : Bool)
  | poolActive (active : Bool)
  | testNeed
  | notify
  | start (t : TaskName)
  | stop (t : TaskName)
  | awaitStopped (t : TaskName)
  | pause (t : TaskName)
  | awaitState (t : TaskName) (states : List RunningState)
  | pauseAsync (t : TaskName)
deriving DecidableEq

inductive CallName where
  | stop
  | release
  | flushStart
  | flushEnd
  /-- `OnOutputBufferDone`, with the end of the stream or without. -/
  | outputDone (eos : Bool)
deriving DecidableEq

namespace CallName

def blocks : CallName → List Block
  | .stop =>
    [.setStopped true, .poolActive false, .stop .decode, .stop .push, .queueActive false,
      .testNeed, .stop .handle]
  | .release =>
    [.setStopped true, .queueActive false, .testNeed, .stop .handle, .poolActive false,
      .stop .decode, .stop .push]
  | .flushStart =>
    [.setStopped true, .queueActive false, .testNeed, .pause .handle, .poolActive false,
      .pause .decode, .pause .push]
  | .flushEnd =>
    [.setStopped false, .queueActive true, .testNeed, .start .handle, .poolActive true,
      .start .decode, .start .push]
  | .outputDone true => [.poolActive false, .pauseAsync .decode, .testNeed]
  | .outputDone false => [.testNeed]

def halts : CallName → Bool
  | .stop | .release | .flushStart => true
  | _ => false

end CallName

structure Call where
  name : CallName
  rest : List Block

structure System where
  stopped_ : Bool
  inBufQue_ : BlockingQueue
  isNeedQueueInputBuffer_ : Bool
  cv_ : Bool
  outBufPool_ : BufferPool
  handleFrameTask_ : Task HandleFrame
  decodeFrameTask_ : Task DecodeFrame
  pushTask_ : Task Unit
  calls : List Call

/-- After `Prepare` and `Configure`, with some of the output buffers queued to the plug-in. -/
def configured (capacity freeBuffers lent : Nat) : System where
  stopped_ := false
  inBufQue_ := ⟨[], capacity, true, false, false⟩
  isNeedQueueInputBuffer_ := true
  cv_ := false
  outBufPool_ := ⟨freeBuffers, lent, true, false⟩
  handleFrameTask_ := ⟨.started, .top⟩
  decodeFrameTask_ := ⟨.started, .top⟩
  pushTask_ := ⟨.started, .top⟩
  calls := []

namespace System

-- HandleFrame

def afterPop (s : System) (r : BlockingQueue × BlockingQueue.Popped) : System :=
  { s with
    inBufQue_ := r.1
    handleFrameTask_ :=
      match r.2 with
      | .waits => s.handleFrameTask_.goto .waitingPop
      | .returns none => s.handleFrameTask_.leave
      | .returns (some oneBuffer) => s.handleFrameTask_.goto (.queueInput oneBuffer) }

def handleFrameBlock (s : System) (status : AsyncMode.Status) : System :=
  match s.handleFrameTask_.loop with
  | .handler .pop => s.afterPop s.inBufQue_.pop
  | .handler .waitingPop => s.afterPop s.inBufQue_.popWoken
  | .handler (.queueInput oneBuffer) =>
    { s with
      handleFrameTask_ := s.handleFrameTask_.goto
        (if status = .errorAgain then .refused oneBuffer else .finish oneBuffer) }
  | .handler (.refused oneBuffer) =>
    { s with
      handleFrameTask_ := s.handleFrameTask_.goto
        (if s.stopped_ then .finish oneBuffer else .beforeWait oneBuffer) }
  | .handler (.beforeWait oneBuffer) =>
    { s with
      isNeedQueueInputBuffer_ := false
      cv_ := false
      handleFrameTask_ := s.handleFrameTask_.goto (.waiting oneBuffer) }
  | .handler (.waiting oneBuffer) =>
    { s with handleFrameTask_ := s.handleFrameTask_.goto (.queueInput oneBuffer) }
  | .handler (.finish oneBuffer) =>
    -- at the end of the stream the task is paused, without a wait
    let task := if oneBuffer.eos then s.handleFrameTask_.pause else s.handleFrameTask_
    { s with handleFrameTask_ := task.leave }
  | _ => { s with handleFrameTask_ := s.handleFrameTask_.turn .pop }

-- DecodeFrame and FinishFrame

def afterAllocate (s : System) (r : BufferPool × BufferPool.Allocated) : System :=
  { s with
    outBufPool_ := r.1
    decodeFrameTask_ :=
      match r.2 with
      | .waits => s.decodeFrameTask_.goto .waitingAllocate
      | .returns true => s.decodeFrameTask_.goto .queueOutput
      | .returns false => s.decodeFrameTask_.leave }

/-- A block of `DecodeFrame`, or of the loop that calls it. A buffer that is not valid is released
at once. -/
def decodeFrameBlock (s : System) (valid : Bool) (status : AsyncMode.Status) : System :=
  match s.decodeFrameTask_.loop with
  | .handler .allocate => s.afterAllocate s.outBufPool_.allocateBuffer
  | .handler .waitingAllocate => s.afterAllocate s.outBufPool_.allocateWoken
  | .handler .queueOutput =>
    if !valid then
      { s with
        outBufPool_ := s.outBufPool_.recycleBuffer
        decodeFrameTask_ := s.decodeFrameTask_.leave }
    else
      { s with
        decodeFrameTask_ :=
          if status = .errorNotEnoughData then s.decodeFrameTask_.goto .testNeed
          else s.decodeFrameTask_.leave }
  | .handler .testNeed =>
    { s with
      decodeFrameTask_ :=
        if s.isNeedQueueInputBuffer_ then s.decodeFrameTask_.leave
        else s.decodeFrameTask_.goto .notify }
  | .handler .notify => { s with cv_ := true, decodeFrameTask_ := s.decodeFrameTask_.leave }
  | _ => { s with decodeFrameTask_ := s.decodeFrameTask_.turn .allocate }

def finishFrameBlock (s : System) : System :=
  match s.pushTask_.loop with
  | .handler _ => { s with pushTask_ := s.pushTask_.leave }
  | _ => { s with pushTask_ := s.pushTask_.turn () }

-- The other threads

def pushData (s : System) (buffer : AVBuffer) : Option System :=
  if (s.inBufQue_.push buffer).2 then some { s with inBufQue_ := (s.inBufQue_.push buffer).1 }
  else none

def recycle (s : System) : Option System :=
  if s.outBufPool_.lent = 0 then none
  else some { s with outBufPool_ := s.outBufPool_.recycleBuffer }

def enter (s : System) (name : CallName) : System :=
  { s with calls := s.calls ++ [⟨name, name.blocks⟩] }

def onTask (s : System) (f : ∀ {η : Type}, Task η → Task η) : TaskName → System
  | .handle => { s with handleFrameTask_ := f s.handleFrameTask_ }
  | .decode => { s with decodeFrameTask_ := f s.decodeFrameTask_ }
  | .push => { s with pushTask_ := f s.pushTask_ }

def ofTask {α : Type} (s : System) (f : ∀ {η : Type}, Task η → α) : TaskName → α
  | .handle => f s.handleFrameTask_
  | .decode => f s.decodeFrameTask_
  | .push => f s.pushTask_

def state (s : System) (t : TaskName) : RunningState := s.ofTask (fun task => task.runningState_) t

/-- The first block of a call that is under way: what it does, and the blocks that come then. -/
def block (s : System) : List Block → Option (System × List Block)
  | [] => none
  | .setStopped stopped :: rest => some ({ s with stopped_ := stopped }, rest)
  | .queueActive active :: rest =>
    some ({ s with inBufQue_ := s.inBufQue_.setActive active }, rest)
  | .poolActive active :: rest =>
    some ({ s with outBufPool_ := s.outBufPool_.setActive active }, rest)
  | .testNeed :: rest => some (s, if s.isNeedQueueInputBuffer_ then rest else .notify :: rest)
  | .notify :: rest => some ({ s with isNeedQueueInputBuffer_ := true, cv_ := true }, rest)
  | .start t :: rest => some (s.onTask Task.start t, rest)
  | .stop t :: rest =>
    some (s.onTask Task.stop t, if s.state t = .stopped then rest else .awaitStopped t :: rest)
  | .awaitStopped t :: rest =>
    -- the thread is joined
    if s.state t = .stopped then
      some (s.onTask (fun task => { task with loop := .none }) t, rest)
    else none
  | .pause t :: rest =>
    let states := s.ofTask Task.pauseAwaits t
    some (s.onTask Task.pause t, if states = [] then rest else .awaitState t states :: rest)
  | .awaitState t states :: rest => if s.state t ∈ states then some (s, rest) else none
  | .pauseAsync t :: rest => some (s.onTask Task.pause t, rest)

def call (s : System) (i : Nat) : Option System :=
  match s.calls[i]? with
  | some c =>
    (s.block c.rest).map fun r => { r.1 with calls := s.calls.set i { c with rest := r.2 } }
  | none => none

end System

inductive Label where
  | handleFrame (status : AsyncMode.Status)
  | decodeFrame (valid : Bool) (status : AsyncMode.Status)
  | finishFrame
  | pushData (buffer : AVBuffer)
  | recycle
  | enter (name : CallName)
  | call (i : Nat)
deriving DecidableEq

def step (s : System) : Label → Option System
  | .handleFrame status => some (s.handleFrameBlock status)
  | .decodeFrame valid status => some (s.decodeFrameBlock valid status)
  | .finishFrame => some s.finishFrameBlock
  | .pushData buffer => s.pushData buffer
  | .recycle => s.recycle
  | .enter name => some (s.enter name)
  | .call i => s.call i

abbrev run := Runs.run step

-- What a step does to a task

namespace Task

variable {η : Type} {first : η} {t t' : Task η}

def Dead (t : Task η) : Prop := t.loop = .none ∨ t.loop = .ended

inductive Goes (first : η) (t : Task η) : Task η → Prop
  | turn : Goes first t (t.turn first)
  | goto (at_ next : η) (h : t.loop = .handler at_) : Goes first t (t.goto next)
  | leave (at_ : η) (h : t.loop = .handler at_) : Goes first t t.leave
  | pauseLeave (at_ : η) (h : t.loop = .handler at_) : Goes first t t.pause.leave

theorem start_handler {at_ : η} : t.start.loop = .handler at_ ↔ t.loop = .handler at_ := by
  unfold start
  cases t.loop <;> simp

theorem turn_handler {at_ : η} (h : (t.turn first).loop = .handler at_) :
    at_ = first ∨ t.loop = .handler at_ := by
  have hlook : ∀ u : Task η, u.lookStopped.loop ≠ .handler at_ := by
    intro u
    unfold lookStopped
    split <;> nofun
  unfold turn at h
  split at h
  next => exact .inr h
  next => exact .inr h
  next => exact .inr h
  next =>
    dsimp only at h
    split at h
    · exact .inl (Loop.handler.inj h).symm
    · cases h
  next =>
    split at h
    · cases h
    · exact absurd h (hlook t)
  next => exact absurd h (hlook t)

@[simp] theorem stop_loop : t.stop.loop = t.loop := by unfold stop; split <;> rfl

@[simp] theorem pause_loop : t.pause.loop = t.loop := by unfold pause; split <;> rfl

end Task

def Block.does {η : Type} (t : TaskName) (task : Task η) : Block → Task η
  | .start u => if u = t then task.start else task
  | .stop u => if u = t then task.stop else task
  | .pause u | .pauseAsync u => if u = t then task.pause else task
  | .awaitStopped u => if u = t then { task with loop := .none } else task
  | _ => task

namespace System

def next (s : System) (i : Nat) : Option Block := s.calls[i]?.bind fun c => c.rest.head?

variable {s s' : System} {i : Nat} {b : Block} {rest rest' : List Block}

def effect (s : System) : Block → System
  | .setStopped stopped => { s with stopped_ := stopped }
  | .queueActive active => { s with inBufQue_ := s.inBufQue_.setActive active }
  | .poolActive active => { s with outBufPool_ := s.outBufPool_.setActive active }
  | .testNeed | .awaitState _ _ => s
  | .notify => { s with isNeedQueueInputBuffer_ := true, cv_ := true }
  | .start t => s.onTask Task.start t
  | .stop t => s.onTask Task.stop t
  | .pause t | .pauseAsync t => s.onTask Task.pause t
  | .awaitStopped t => s.onTask (fun task => { task with loop := .none }) t

theorem block_effect (h : s.block (b :: rest) = some (s', rest')) : s' = s.effect b := by
  cases b with
  | awaitStopped t | awaitState t states =>
    obtain ⟨-, h⟩ := Option.ite_none_right_eq_some.mp h
    exact (Prod.mk.inj (Option.some.inj h)).1.symm
  | _ => exact (Prod.mk.inj (Option.some.inj h)).1.symm

theorem onTask_does {f : ∀ {η : Type}, Task η → Task η} {u : TaskName}
    (h : ∀ t {η : Type} (task : Task η), b.does t task = if u = t then f task else task) :
    (s.onTask f u).handleFrameTask_ = b.does .handle s.handleFrameTask_ ∧
    (s.onTask f u).decodeFrameTask_ = b.does .decode s.decodeFrameTask_ ∧
    (s.onTask f u).pushTask_ = b.does .push s.pushTask_ := by
  rw [h, h, h]
  cases u <;> exact ⟨rfl, rfl, rfl⟩

theorem effect_does (s : System) (b : Block) :
    (s.effect b).handleFrameTask_ = b.does .handle s.handleFrameTask_ ∧
    (s.effect b).decodeFrameTask_ = b.does .decode s.decodeFrameTask_ ∧
    (s.effect b).pushTask_ = b.does .push s.pushTask_ := by
  cases b with
  | start u | stop u | pause u | pauseAsync u | awaitStopped u => exact onTask_does fun _ _ _ => rfl
  | _ => exact ⟨rfl, rfl, rfl⟩

theorem onTask_frame (s : System) (f : ∀ {η : Type}, Task η → Task η) (u : TaskName) :
    (s.onTask f u).cv_ = s.cv_ ∧
    (s.onTask f u).isNeedQueueInputBuffer_ = s.isNeedQueueInputBuffer_ ∧
    (s.onTask f u).outBufPool_ = s.outBufPool_ := by
  cases u <;> exact ⟨rfl, rfl, rfl⟩

theorem effect_flags (s : System) (b : Block) :
    (s.effect b).cv_ = s.cv_ ∧
      (s.effect b).isNeedQueueInputBuffer_ = s.isNeedQueueInputBuffer_ ∧ b ≠ .notify ∨
    (s.effect b).cv_ = true := by
  cases b with
  | notify => exact .inr rfl
  | start u | stop u | pause u | pauseAsync u | awaitStopped u =>
    obtain ⟨hcv, hneed, -⟩ := s.onTask_frame _ u
    exact .inl ⟨hcv, hneed, nofun⟩
  | _ => exact .inl ⟨rfl, rfl, nofun⟩

theorem effect_pool (s : System) (b : Block) :
    (s.effect b).outBufPool_.isActive_ = s.outBufPool_.isActive_ ∨
      b = .poolActive (s.effect b).outBufPool_.isActive_ := by
  cases b with
  | poolActive active => exact .inr rfl
  | start u | stop u | pause u | pauseAsync u | awaitStopped u =>
    exact .inl (congrArg BufferPool.isActive_ (s.onTask_frame _ u).2.2)
  | _ => exact .inl rfl

theorem block_rest (h : s.block (b :: rest) = some (s', rest')) :
    rest' = rest ∧ (b = .testNeed → s.isNeedQueueInputBuffer_ = true) ∨
    rest' = .notify :: rest ∧ b = .testNeed ∧ s.isNeedQueueInputBuffer_ = false ∨
    (∃ t, rest' = .awaitStopped t :: rest ∧ b = .stop t) ∨
    ∃ t states, rest' = .awaitState t states :: rest ∧ b = .pause t := by
  cases b with
  | setStopped | queueActive | poolActive | notify | start | pauseAsync =>
    obtain ⟨-, rfl⟩ := Prod.mk.inj (Option.some.inj h)
    exact .inl ⟨rfl, nofun⟩
  | testNeed =>
    obtain ⟨-, rfl⟩ := Prod.mk.inj (Option.some.inj h)
    cases hneed : s.isNeedQueueInputBuffer_ with
    | true => exact .inl ⟨rfl, fun _ => rfl⟩
    | false => exact .inr (.inl ⟨rfl, rfl, rfl⟩)
  | stop t =>
    obtain ⟨-, rfl⟩ := Prod.mk.inj (Option.some.inj h)
    split
    · exact .inl ⟨rfl, nofun⟩
    · exact .inr (.inr (.inl ⟨t, rfl, rfl⟩))
  | pause t =>
    obtain ⟨-, rfl⟩ := Prod.mk.inj (Option.some.inj h)
    split
    · exact .inl ⟨rfl, nofun⟩
    · exact .inr (.inr (.inr ⟨t, _, rfl, rfl⟩))
  | awaitStopped t | awaitState t states =>
    obtain ⟨-, h⟩ := Option.ite_none_right_eq_some.mp h
    obtain ⟨-, rfl⟩ := Prod.mk.inj (Option.some.inj h)
    exact .inl ⟨rfl, nofun⟩

theorem block_awaits {t : TaskName} (h : s.block (.awaitStopped t :: rest) = some (s', rest')) :
    s.state t = .stopped :=
  (Option.ite_none_right_eq_some.mp h).1

theorem handleFrameBlock_frame (s : System) (status : AsyncMode.Status) :
    (s.handleFrameBlock status).decodeFrameTask_ = s.decodeFrameTask_ ∧
    (s.handleFrameBlock status).pushTask_ = s.pushTask_ ∧
    (s.handleFrameBlock status).outBufPool_ = s.outBufPool_ ∧
    (s.handleFrameBlock status).calls = s.calls := by
  unfold handleFrameBlock
  split <;> exact ⟨rfl, rfl, rfl, rfl⟩

theorem decodeFrameBlock_frame (s : System) (valid : Bool) (status : AsyncMode.Status) :
    (s.decodeFrameBlock valid status).handleFrameTask_ = s.handleFrameTask_ ∧
    (s.decodeFrameBlock valid status).pushTask_ = s.pushTask_ ∧
    (s.decodeFrameBlock valid status).isNeedQueueInputBuffer_ = s.isNeedQueueInputBuffer_ ∧
    (s.decodeFrameBlock valid status).calls = s.calls ∧
    ((s.decodeFrameBlock valid status).cv_ = s.cv_ ∨
      (s.decodeFrameBlock valid status).cv_ = true) := by
  unfold decodeFrameBlock
  split
  next => exact ⟨rfl, rfl, rfl, rfl, .inl rfl⟩
  next => exact ⟨rfl, rfl, rfl, rfl, .inl rfl⟩
  next =>
    split
    · exact ⟨rfl, rfl, rfl, rfl, .inl rfl⟩
    · exact ⟨rfl, rfl, rfl, rfl, .inl rfl⟩
  next => exact ⟨rfl, rfl, rfl, rfl, .inl rfl⟩
  next => exact ⟨rfl, rfl, rfl, rfl, .inr rfl⟩
  next => exact ⟨rfl, rfl, rfl, rfl, .inl rfl⟩

theorem allocateBuffer_isActive (p : BufferPool) :
    p.allocateBuffer.1.isActive_ = p.isActive_ ∧ p.allocateWoken.1.isActive_ = p.isActive_ := by
  unfold BufferPool.allocateBuffer BufferPool.allocateWoken BufferPool.allocateBufferUnprotected
  constructor
  · split
    · rfl
    · split <;> rfl
  · split
    · rfl
    · split <;> rfl

theorem decodeFrameBlock_pool (s : System) (valid : Bool) (status : AsyncMode.Status) :
    (s.decodeFrameBlock valid status).outBufPool_.isActive_ = s.outBufPool_.isActive_ := by
  unfold decodeFrameBlock
  split
  next => exact (allocateBuffer_isActive s.outBufPool_).1
  next => exact (allocateBuffer_isActive s.outBufPool_).2
  next => split <;> rfl
  next => rfl
  next => rfl
  next => rfl

theorem handleFrameBlock_goes (s : System) (status : AsyncMode.Status) :
    s.handleFrameTask_.Goes .pop (s.handleFrameBlock status).handleFrameTask_ := by
  have hpopped : ∀ at_ r, s.handleFrameTask_.loop = .handler at_ →
      s.handleFrameTask_.Goes .pop (s.afterPop r).handleFrameTask_ := by
    rintro at_ ⟨q, _ | _ | oneBuffer⟩ h
    · exact .goto at_ _ h
    · exact .leave at_ h
    · exact .goto at_ _ h
  unfold handleFrameBlock
  split
  next h => exact hpopped _ _ h
  next h => exact hpopped _ _ h
  next h => exact .goto _ _ h
  next h => exact .goto _ _ h
  next h => exact .goto _ _ h
  next h => exact .goto _ _ h
  next oneBuffer h =>
    cases heos : oneBuffer.eos with
    | true => exact .pauseLeave _ h
    | false => exact .leave _ h
  next => exact .turn

theorem decodeFrameBlock_goes (s : System) (valid : Bool) (status : AsyncMode.Status) :
    s.decodeFrameTask_.Goes .allocate (s.decodeFrameBlock valid status).decodeFrameTask_ := by
  have hallocated : ∀ at_ r, s.decodeFrameTask_.loop = .handler at_ →
      s.decodeFrameTask_.Goes .allocate (s.afterAllocate r).decodeFrameTask_ := by
    rintro at_ ⟨p, _ | _ | _⟩ h
    · exact .goto at_ _ h
    · exact .leave at_ h
    · exact .goto at_ _ h
  unfold decodeFrameBlock
  split
  next h => exact hallocated _ _ h
  next h => exact hallocated _ _ h
  next h =>
    split
    · exact .leave _ h
    · dsimp only
      split
      · exact .goto _ _ h
      · exact .leave _ h
  next h =>
    dsimp only
    split
    · exact .leave _ h
    · exact .goto _ _ h
  next h => exact .leave _ h
  next => exact .turn

theorem finishFrameBlock_goes (s : System) :
    ∃ pushTask_, s.finishFrameBlock = { s with pushTask_ } ∧ s.pushTask_.Goes () pushTask_ := by
  unfold finishFrameBlock
  split
  next h => exact ⟨_, rfl, .leave _ h⟩
  next => exact ⟨_, rfl, .turn⟩

end System

inductive Takes (s : System) : Label → System → Prop
  | handleFrame (status : AsyncMode.Status) :
    Takes s (.handleFrame status) (s.handleFrameBlock status)
  | decodeFrame (valid : Bool) (status : AsyncMode.Status) :
    Takes s (.decodeFrame valid status) (s.decodeFrameBlock valid status)
  | finishFrame (pushTask_ : Task Unit) (hgoes : s.pushTask_.Goes () pushTask_) :
    Takes s .finishFrame { s with pushTask_ }
  | pushData (buffer : AVBuffer) (inBufQue_ : BlockingQueue) :
    Takes s (.pushData buffer) { s with inBufQue_ }
  | recycle : Takes s .recycle { s with outBufPool_ := s.outBufPool_.recycleBuffer }
  | enter (name : CallName) : Takes s (.enter name) (s.enter name)
  | call (i : Nat) (c : Call) (b : Block) (rest rest' : List Block) (hc : s.calls[i]? = some c)
    (hrest : c.rest = b :: rest) (hblock : s.block (b :: rest) = some (s.effect b, rest')) :
    Takes s (.call i) { s.effect b with calls := s.calls.set i { c with rest := rest' } }

theorem next_eq {s : System} {i : Nat} {c : Call} (hc : s.calls[i]? = some c) :
    s.next i = c.rest.head? := by
  rw [System.next, hc]
  rfl

variable {s s' : System} {l : Label}

theorem step_takes (hstep : step s l = some s') : Takes s l s' := by
  cases l with
  | handleFrame status => exact Option.some.inj hstep ▸ .handleFrame status
  | decodeFrame valid status => exact Option.some.inj hstep ▸ .decodeFrame valid status
  | finishFrame =>
    obtain ⟨pushTask_, heq, hgoes⟩ := s.finishFrameBlock_goes
    cases hstep
    rw [heq]
    exact .finishFrame pushTask_ hgoes
  | pushData buffer =>
    obtain ⟨-, heq⟩ := Option.ite_none_right_eq_some.mp hstep
    exact Option.some.inj heq ▸ .pushData buffer _
  | recycle =>
    obtain ⟨-, heq⟩ := Option.ite_none_left_eq_some.mp hstep
    exact Option.some.inj heq ▸ .recycle
  | enter name => exact Option.some.inj hstep ▸ .enter name
  | call i =>
    have hcall : s.call i = some s' := hstep
    unfold System.call at hcall
    split at hcall
    next c hc =>
      obtain ⟨⟨u, rest'⟩, hblock, rfl⟩ := Option.map_eq_some_iff.mp hcall
      cases hrest : c.rest with
      | nil =>
        rw [hrest] at hblock
        cases hblock
      | cons b rest =>
        rw [hrest] at hblock
        obtain rfl := System.block_effect hblock
        exact .call i c b rest rest' hc hrest hblock
    next => cases hcall

theorem mem_calls_step {c : Call} (hstep : step s l = some s') (hc : c ∈ s'.calls) :
    c ∈ s.calls ∨ (∃ name, c = ⟨name, name.blocks⟩) ∨
    ∃ i d b rest calls, l = .call i ∧ s.calls[i]? = some d ∧ d.name = c.name ∧
      d.rest = b :: rest ∧ s.block (b :: rest) = some (s.effect b, c.rest) ∧
      s' = { s.effect b with calls } := by
  cases step_takes hstep with
  | handleFrame status => exact .inl ((s.handleFrameBlock_frame status).2.2.2 ▸ hc)
  | decodeFrame valid status =>
    obtain ⟨-, -, -, hcalls, -⟩ := s.decodeFrameBlock_frame valid status
    exact .inl (hcalls ▸ hc)
  | finishFrame | pushData | recycle => exact .inl hc
  | enter name =>
    obtain hc | hc := List.mem_append.mp hc
    · exact .inl hc
    · exact .inr (.inl ⟨name, List.mem_singleton.mp hc⟩)
  | call i d b rest rest' hd hrest hblock =>
    obtain hc | rfl := List.mem_or_eq_of_mem_set hc
    · exact .inl hc
    · exact .inr (.inr ⟨i, d, b, rest, _, rfl, hd, rfl, hrest, hblock, rfl⟩)

theorem getElem?_calls_step {i : Nat} {c : Call} (hstep : step s l = some s')
    (hc : s.calls[i]? = some c) :
    s'.calls[i]? = some c ∧ l ≠ .call i ∨
    ∃ b rest rest', l = .call i ∧ c.rest = b :: rest ∧
      s.block (b :: rest) = some (s.effect b, rest') ∧
      s'.calls[i]? = some { c with rest := rest' } := by
  have hlt : i < s.calls.length := (List.getElem?_eq_some_iff.mp hc).1
  cases step_takes hstep with
  | handleFrame status =>
    exact .inl ⟨(s.handleFrameBlock_frame status).2.2.2 ▸ hc, nofun⟩
  | decodeFrame valid status =>
    obtain ⟨-, -, -, hcalls, -⟩ := s.decodeFrameBlock_frame valid status
    exact .inl ⟨hcalls ▸ hc, nofun⟩
  | finishFrame | pushData | recycle => exact .inl ⟨hc, nofun⟩
  | enter name => exact .inl ⟨(List.getElem?_append_left hlt).trans hc, nofun⟩
  | call j d b rest rest' hd hrest hblock =>
    by_cases hji : j = i
    · subst hji
      obtain rfl := Option.some.inj (hd.symm.trans hc)
      exact .inr ⟨b, rest, rest', rfl, hrest, hblock, List.getElem?_set_self hlt⟩
    · refine .inl ⟨?_, fun heq => hji (Label.call.inj heq)⟩
      exact (List.getElem?_set_ne hji).trans hc

def Touched {η : Type} (s : System) (l : Label) (t : TaskName) (task task' : Task η) : Prop :=
  task' = task ∨ ∃ i b, l = .call i ∧ s.next i = some b ∧
    (b = .awaitStopped t → task.runningState_ = .stopped) ∧ task' = b.does t task

/-- **What one step does to the tasks**, when it is not a block of the task's own thread. -/
theorem touched_step (hstep : step s l = some s') :
    ((∀ status, l ≠ .handleFrame status) →
      Touched s l .handle s.handleFrameTask_ s'.handleFrameTask_) ∧
    ((∀ valid status, l ≠ .decodeFrame valid status) →
      Touched s l .decode s.decodeFrameTask_ s'.decodeFrameTask_) ∧
    (l ≠ .finishFrame → Touched s l .push s.pushTask_ s'.pushTask_) := by
  cases step_takes hstep with
  | handleFrame status =>
    obtain ⟨hdecode, hpush, -⟩ := s.handleFrameBlock_frame status
    exact ⟨fun h => absurd rfl (h status), fun _ => .inl hdecode, fun _ => .inl hpush⟩
  | decodeFrame valid status =>
    obtain ⟨hhandle, hpush, -⟩ := s.decodeFrameBlock_frame valid status
    exact ⟨fun _ => .inl hhandle, fun h => absurd rfl (h valid status), fun _ => .inl hpush⟩
  | finishFrame => exact ⟨fun _ => .inl rfl, fun _ => .inl rfl, fun h => absurd rfl h⟩
  | pushData | recycle | enter => exact ⟨fun _ => .inl rfl, fun _ => .inl rfl, fun _ => .inl rfl⟩
  | call i c b rest rest' hc hrest hblock =>
    obtain ⟨hhandle, hdecode, hpush⟩ := s.effect_does b
    have hnext : s.next i = some b := by rw [next_eq hc, hrest, List.head?_cons]
    have hstopped : ∀ t, b = .awaitStopped t → s.state t = .stopped := by
      rintro t rfl
      exact System.block_awaits hblock
    exact ⟨fun _ => .inr ⟨i, b, rfl, hnext, hstopped .handle, hhandle⟩,
      fun _ => .inr ⟨i, b, rfl, hnext, hstopped .decode, hdecode⟩,
      fun _ => .inr ⟨i, b, rfl, hnext, hstopped .push, hpush⟩⟩

/-- What the thread of a task keeps, and the calls keep, is kept of the task. -/
theorem ofTask_step {P Q : ∀ {η : Type}, Task η → Prop} {t : TaskName}
    (hstep : step s l = some s')
    (hgoes : ∀ {η : Type} {first : η} {task task' : Task η},
      task.Goes first task' → P task → Q task')
    (htouched : ∀ {η : Type} {task task' : Task η}, Touched s l t task task' → P task → Q task')
    (h : s.ofTask P t) : s'.ofTask Q t := by
  obtain ⟨hhandle, hdecode, hpush⟩ := touched_step hstep
  cases t with
  | handle =>
    by_cases hl : ∃ status, l = .handleFrame status
    · obtain ⟨status, rfl⟩ := hl
      cases hstep
      exact hgoes (s.handleFrameBlock_goes status) h
    · exact htouched (hhandle fun status heq => hl ⟨status, heq⟩) h
  | decode =>
    by_cases hl : ∃ valid status, l = .decodeFrame valid status
    · obtain ⟨valid, status, rfl⟩ := hl
      cases hstep
      exact hgoes (s.decodeFrameBlock_goes valid status) h
    · exact htouched (hdecode fun valid status heq => hl ⟨valid, status, heq⟩) h
  | push =>
    by_cases hl : l = .finishFrame
    · subst hl
      cases step_takes hstep with
      | finishFrame pushTask_ hpushes => exact hgoes hpushes h
    · exact htouched (hpush hl) h

theorem pool_step (hstep : step s l = some s') :
    s'.outBufPool_.isActive_ = s.outBufPool_.isActive_ ∨
      ∃ i, l = .call i ∧ s.next i = some (.poolActive s'.outBufPool_.isActive_) := by
  cases step_takes hstep with
  | handleFrame status =>
    exact .inl (congrArg BufferPool.isActive_ (s.handleFrameBlock_frame status).2.2.1)
  | decodeFrame valid status => exact .inl (s.decodeFrameBlock_pool valid status)
  | finishFrame | pushData | recycle | enter => exact .inl rfl
  | call i c b rest rest' hc hrest hblock =>
    obtain heq | hactive := s.effect_pool b
    · exact .inl heq
    · refine .inr ⟨i, rfl, ?_⟩
      rw [next_eq hc, hrest, List.head?_cons]
      exact congrArg some hactive

end MediaFoundation.AsyncWake
