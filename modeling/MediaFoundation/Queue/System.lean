import MediaFoundation.Lib.Runs
import MediaFoundation.Queue.Impl

/-!
# The queue under any interleaving

`AVBufferQueueImpl` used by any number of threads. A step is one block of one
thread: the queue blocks of `Impl.lean`, and the blocks under the listener
mutexes that `PushBuffer` and `ReturnBuffer` run after them. A run is a list
of labels, so the theorems about runs are about every interleaving.

`OnBufferFilled` and the acquired buffer hand a buffer to a *party*: a party
is whoever acts, numbered freely; a broker listener is known by its party.
-/

namespace MediaFoundation.Queue

open AVBufferQueueImpl

/-! ## Calls and threads -/

inductive Call where
  /-- `seen` is the `memoryType_` that the call read before it took the lock. -/
  | requestBufferWaitUs (config : AVBufferConfig) (timeoutUs : Int64) (seen : MemoryType)
  | pushBuffer (uniqueId : UInt64) (available : Bool)
  | returnBuffer (uniqueId : UInt64) (available : Bool)
  /-- `config` is the configuration that the call read before it took the lock. -/
  | attachBuffer (buffer : AVBufferRef) (config : AVBufferConfig) (isFilled : Bool)
  | setQueueSizeAndAttachBuffer (size : Nat) (buffer : AVBufferRef) (config : AVBufferConfig)
      (isFilled : Bool)
  | detachBuffer (uniqueId : UInt64)
  | acquireBuffer
  | releaseBuffer (uniqueId : UInt64)
  | setQueueSize (size : Nat)
  | setLargerQueueSize (size : Nat)
  | clear
  | clearBufferIf (pred : Option AVBufferRef → Bool)

/-- On whose behalf `PushBuffer` runs: for a party, or inside `AttachBuffer`. -/
inductive Caller where
  | client (party : Nat)
  | attach
deriving DecidableEq

inductive Thread where
  | idle
  | requesting (party : Nat) (configCopy : AVBufferConfig) (timeoutUs : Int64) (awake : Bool)
  /-- `AttachBuffer` before the `PushBuffer` of `PushBufferOnFilled`. -/
  | pushFilled (uniqueId : UInt64)
  | releaseAttached (uniqueId : UInt64)
  | brokerBlock (caller : Caller) (uniqueId : UInt64) (buffer : Option AVBufferRef)
  /-- `PushBuffer` before its `ReturnBuffer`. -/
  | returnBlock (caller : Caller) (uniqueId : UInt64) (available : Bool)
  /-- Before the producer listener is told; the call returns `OK` after it. -/
  | producerBlock
  /-- `ReturnBuffer` before the consumer listener is told. -/
  | consumerBlock (caller : Caller) (uniqueId : UInt64)
  /-- `PushBufferOnFilled` before the forced detach. -/
  | detachBlock (uniqueId : UInt64) (status : Status)
deriving DecidableEq

def Thread.wake : Thread → Thread
  | .requesting party configCopy timeoutUs _ => .requesting party configCopy timeoutUs true
  | thread => thread

/-- The thread waits, and nobody has notified it. -/
def Thread.asleep : Thread → Bool
  | .requesting _ _ _ awake => !awake
  | _ => false

inductive Event where
  | handedOut (buffer : AVBufferRef) (party : Nat)
  /-- A party's buffer is on its way through `PushBuffer`. -/
  | passing (uniqueId : UInt64)
  /-- The queue, or the broker behind it, has the buffer back. -/
  | takenBack (uniqueId : UInt64)
  /-- The call that was to give the buffer back failed. -/
  | refused (uniqueId : UInt64) (party : Nat)
  /-- `ReturnBuffer` put the buffer at the end of the dirty list. -/
  | appended (buffer : AVBufferRef)
  | acquired (buffer : AVBufferRef)
  | cleared
  | clearedIf (pred : Option AVBufferRef → Bool)
  /-- A resize or an attach deleted the first `count` buffers of the dirty list. -/
  | dropped (count : Nat)

structure Outcome where
  queue : AVBufferQueueImpl
  next : Thread := .idle
  status : Status := .ok
  buffer : Option AVBufferRef := none
  events : List Event := []

structure Listeners where
  brokerListeners : List (Option Nat) := []
  producerListener : Option Nat := none
  consumerListener : Option Nat := none

/-! ## How a call goes on after a block -/

/-- The end of `PushBuffer`: `AttachBuffer` goes on to detach after a failure. -/
def finish (q : AVBufferQueueImpl) (caller : Caller) (uniqueId : UInt64) (status : Status)
    (events : List Event) : Outcome :=
  match caller with
  | .client _ => { queue := q, status, events }
  | .attach =>
    if status = .ok then { queue := q, events }
    else { queue := q, next := .detachBlock uniqueId status, events }

theorem finish_queue (q : AVBufferQueueImpl) (caller : Caller) (id : UInt64) (st : Status)
    (es : List Event) : (finish q caller id st es).queue = q ∧
      (finish q caller id st es).events = es := by
  unfold finish
  split
  · exact ⟨rfl, rfl⟩
  · split <;> exact ⟨rfl, rfl⟩

theorem finish_next (q : AVBufferQueueImpl) (caller : Caller) (id : UInt64) (st : Status)
    (es : List Event) : (finish q caller id st es).next = .idle ∨
      caller = .attach ∧ ∃ status, (finish q caller id st es).next = .detachBlock id status := by
  unfold finish
  split
  · exact .inl rfl
  · split
    · exact .inl rfl
    · exact .inr ⟨rfl, st, rfl⟩

theorem finish_ok_next (q : AVBufferQueueImpl) (caller : Caller) (id : UInt64)
    (es : List Event) : (finish q caller id .ok es).next = .idle := by
  cases caller <;> rfl

def refusal (caller : Caller) (uniqueId : UInt64) : List Event :=
  match caller with
  | .client party => [.refused uniqueId party]
  | .attach => []

def afterRequest (party : Nat) (configCopy : AVBufferConfig) (timeoutUs : Int64)
    (r : AVBufferQueueImpl × Option (Except Status AVBufferRef)) : Outcome :=
  match r with
  | (q, none) => { queue := q, next := .requesting party configCopy timeoutUs false }
  | (q, some (.error status)) => { queue := q, status }
  | (q, some (.ok buffer)) =>
    { queue := q, buffer := some buffer, events := [.handedOut buffer party] }

def afterPush (caller : Caller) (uniqueId : UInt64) (available : Bool)
    (r : AVBufferQueueImpl × PushOutcome) : Outcome :=
  match r with
  | (q, .failed status) => finish q caller uniqueId status []
  | (q, .deleted) => finish q caller uniqueId .ok [.takenBack uniqueId]
  | (q, .pushed buffer) =>
    { queue := q
      next := if available then .brokerBlock caller uniqueId buffer
        else .returnBlock caller uniqueId available
      events := match caller with
        | .client _ => [.passing uniqueId]
        | .attach => [] }

def afterReturn (caller : Caller) (uniqueId : UInt64)
    (r : AVBufferQueueImpl × ReturnOutcome) : Outcome :=
  match r with
  | (q, .failed status) => finish q caller uniqueId status (refusal caller uniqueId)
  | (q, .deleted) => finish q caller uniqueId .ok [.takenBack uniqueId]
  | (q, .cancelled) =>
    { queue := q, next := .producerBlock, events := [.takenBack uniqueId] }
  | (q, .appended buffer) =>
    { queue := q, next := .consumerBlock caller uniqueId,
      events := [.takenBack uniqueId, .appended buffer] }

/-- How many buffers a block deleted from the dirty list. -/
def droppedEvent (q q' : AVBufferQueueImpl) : Event :=
  .dropped (q.dirtyBufferList.length - q'.dirtyBufferList.length)

def afterAttach (q : AVBufferQueueImpl) (uniqueId : UInt64) (isFilled : Bool)
    (r : AVBufferQueueImpl × Status) : Outcome :=
  { queue := r.1
    next := if r.2 = .ok then
      if isFilled then .pushFilled uniqueId else .releaseAttached uniqueId
      else .idle
    status := r.2
    events := [droppedEvent q r.1] }

def afterRelease (uniqueId : UInt64) (r : AVBufferQueueImpl × ReleaseOutcome) : Outcome :=
  match r with
  | (q, .failed status) => { queue := q, status }
  | (q, .deleted) => { queue := q, events := [.takenBack uniqueId] }
  | (q, .released) => { queue := q, next := .producerBlock, events := [.takenBack uniqueId] }

def afterAcquire (party : Nat) (r : AVBufferQueueImpl × Except Status AVBufferRef) : Outcome :=
  match r with
  | (q, .error status) => { queue := q, status }
  | (q, .ok buffer) =>
    { queue := q, buffer := some buffer,
      events := [.acquired buffer, .handedOut buffer party] }

/-! ## The blocks -/

def configCopy (config : AVBufferConfig) (seen : MemoryType) : AVBufferConfig :=
  if config.memoryType = .unknownMemory then { config with memoryType := seen } else config

def startCall (q : AVBufferQueueImpl) (env : Env) (party : Nat) : Call → Option Outcome
  | .requestBufferWaitUs config timeoutUs seen =>
    let config := configCopy config seen
    some (afterRequest party config timeoutUs (q.requestBufferWaitUs env config timeoutUs))
  | .pushBuffer uniqueId available =>
    (q.pushBuffer env uniqueId available).map (afterPush (.client party) uniqueId available)
  | .returnBuffer uniqueId available =>
    (q.returnBuffer env uniqueId available).map (afterReturn (.client party) uniqueId)
  | .attachBuffer buffer config isFilled =>
    some (afterAttach q buffer.uniqueId isFilled (q.attachBuffer env buffer config))
  | .setQueueSizeAndAttachBuffer size buffer config isFilled =>
    some (afterAttach q buffer.uniqueId isFilled
      (q.setQueueSizeAndAttachBuffer env size buffer config))
  | .detachBuffer uniqueId =>
    match q.detachBuffer uniqueId false with
    | (q, .ok) => some { queue := q, events := [.takenBack uniqueId] }
    | (q, status) => some { queue := q, status }
  | .acquireBuffer => q.acquireBuffer.map (afterAcquire party)
  | .releaseBuffer uniqueId => some (afterRelease uniqueId (q.releaseBuffer uniqueId))
  | .setQueueSize size =>
    let r := q.setQueueSize size
    some { queue := r.1, status := r.2, events := [droppedEvent q r.1] }
  | .setLargerQueueSize size =>
    let r := q.setLargerQueueSize size
    some { queue := r.1, status := r.2, events := [droppedEvent q r.1] }
  | .clear => some { queue := q.clear, events := [.cleared] }
  | .clearBufferIf pred =>
    (q.clearBufferIf pred).map fun q' => { queue := q', events := [.clearedIf pred] }

/-- The broker that `PushBuffer` hands a filled buffer to: the last listener set. -/
def Listeners.broker (ls : Listeners) : Option Nat := ls.brokerListeners.getLast?.join

/-- The next block of a call. `timedOut` tells how a wait with a timeout ended. -/
def resumeCall (q : AVBufferQueueImpl) (ls : Listeners) (env : Env) (timedOut : Bool) :
    Thread → Option Outcome
  | .idle => some { queue := q }
  | .requesting party configCopy timeoutUs _ =>
    some (afterRequest party configCopy timeoutUs
      (q.requestBufferResume env configCopy timeoutUs timedOut))
  | .pushFilled uniqueId =>
    (q.pushBuffer env uniqueId true).map (afterPush .attach uniqueId true)
  | .releaseAttached uniqueId => some (afterRelease uniqueId (q.releaseBuffer uniqueId))
  | .brokerBlock caller uniqueId buffer =>
    match ls.broker, buffer with
    | some party, some buffer =>
      some (finish q caller uniqueId .ok [.takenBack uniqueId, .handedOut buffer party])
    | some _, none => some (finish q caller uniqueId .ok [])
    | none, _ => some { queue := q, next := .returnBlock caller uniqueId true }
  | .returnBlock caller uniqueId available =>
    (q.returnBuffer env uniqueId available).map (afterReturn caller uniqueId)
  | .producerBlock => some { queue := q }
  | .consumerBlock caller uniqueId =>
    match ls.consumerListener with
    | some _ => some (finish q caller uniqueId .ok [])
    | none => some (finish q caller uniqueId .errorNoConsumerListener (refusal caller uniqueId))
  | .detachBlock uniqueId status =>
    some { queue := (q.detachBuffer uniqueId true).1, status }

/-! ## The system -/

structure System where
  queue : AVBufferQueueImpl
  listeners : Listeners := {}
  threads : Nat → Thread := fun _ => .idle
  crashed : Bool := false

inductive Action where
  | call (call : Call)
  | resume (timedOut : Bool)
  | setBrokerListener (listener : Option Nat)
  | removeBrokerListener (listener : Option Nat)
  | setProducerListener (listener : Option Nat)
  | setConsumerListener (listener : Option Nat)

structure Label where
  thread : Nat
  party : Nat
  env : Env
  action : Action

/-- The block that a label runs; no block for a change of the listeners, or
when the thread is not where the label needs it. -/
def block (s : System) (l : Label) : Option (Option Outcome) :=
  match s.threads l.thread, l.action with
  | .idle, .call c => some (startCall s.queue l.env l.party c)
  | .idle, _ => none
  | _, .call _ => none
  | thread, .resume timedOut => some (resumeCall s.queue s.listeners l.env timedOut thread)
  | _, _ => none

theorem block_cases {s : System} {l : Label} {r : Option Outcome} (h : block s l = some r) :
    (∃ c, s.threads l.thread = .idle ∧ l.action = .call c ∧
      r = startCall s.queue l.env l.party c) ∨
    ∃ timedOut, s.threads l.thread ≠ .idle ∧ l.action = .resume timedOut ∧
      r = resumeCall s.queue s.listeners l.env timedOut (s.threads l.thread) := by
  unfold block at h
  split at h
  next c hthread haction => exact .inl ⟨c, hthread, haction, (Option.some.inj h).symm⟩
  · cases h
  · cases h
  next timedOut haction hbusy =>
    exact .inr ⟨timedOut, hbusy, haction, (Option.some.inj h).symm⟩
  · cases h

/-- The listener calls. They end in the block they start in. -/
def setListener (ls : Listeners) : Action → Option Listeners
  | .setBrokerListener listener =>
    some { ls with brokerListeners := ls.brokerListeners ++ [listener] }
  | .removeBrokerListener listener =>
    if ls.brokerListeners.getLast? = some listener then
      some { ls with brokerListeners := ls.brokerListeners.dropLast }
    else some ls
  | .setProducerListener listener => some { ls with producerListener := listener }
  | .setConsumerListener listener => some { ls with consumerListener := listener }
  | _ => none

def System.install (s : System) (thread : Nat) (o : Outcome) : System :=
  let threads := Function.update s.threads thread o.next
  { s with
    queue := o.queue
    threads := if s.queue.notified < o.queue.notified then fun t => (threads t).wake
      else threads }

/-- **One step of the system**, with the events that it makes. -/
def exec (s : System) (l : Label) : Option (System × List Event) :=
  if s.crashed then none
  else match block s l with
    | some (some o) => some (s.install l.thread o, o.events)
    | some none => some ({ s with crashed := true }, [])
    | none =>
      if s.threads l.thread = .idle then
        (setListener s.listeners l.action).map fun ls => ({ s with listeners := ls }, [])
      else none

def step (s : System) (l : Label) : Option System := (exec s l).map Prod.fst

def eventsOf (s : System) (l : Label) : List Event := ((exec s l).map Prod.snd).getD []

def System.init (size : Nat) (type : MemoryType) (disableAlloc : Bool) : System where
  queue := create size type disableAlloc

theorem step_cases {s t : System} {l : Label} (h : step s l = some t) :
    s.crashed = false ∧
    ((∃ o, block s l = some (some o) ∧ t = s.install l.thread o ∧ eventsOf s l = o.events) ∨
      (block s l = some none ∧ t = { s with crashed := true } ∧ eventsOf s l = []) ∨
      ∃ ls, s.threads l.thread = .idle ∧ setListener s.listeners l.action = some ls ∧
        t = { s with listeners := ls } ∧ eventsOf s l = []) := by
  unfold step at h
  unfold eventsOf
  unfold exec at h ⊢
  cases hcrash : s.crashed with
  | true => simp [hcrash] at h
  | false =>
    refine ⟨rfl, ?_⟩
    simp only [hcrash, Bool.false_eq_true, if_false] at h ⊢
    cases hb : block s l with
    | some r =>
      cases r with
      | some o =>
        simp only [hb, Option.map_some, Option.some.injEq] at h
        exact .inl ⟨o, rfl, h.symm, rfl⟩
      | none =>
        simp only [hb, Option.map_some, Option.some.injEq] at h
        exact .inr (.inl ⟨rfl, h.symm, rfl⟩)
    | none =>
      simp only [hb] at h ⊢
      by_cases hidle : s.threads l.thread = .idle
      · rw [if_pos hidle] at h ⊢
        cases hls : setListener s.listeners l.action with
        | none => simp [hls] at h
        | some ls =>
          simp only [hls, Option.map_some, Option.some.injEq] at h
          exact .inr (.inr ⟨ls, hidle, rfl, h.symm, rfl⟩)
      · simp [if_neg hidle] at h

end MediaFoundation.Queue
