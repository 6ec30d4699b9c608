import MediaFoundation.Lib.DueQueue

/-!
# TaskInner

One task of a pipeline thread (`taskInner.cpp`) and the loop of the thread
(`pipeline_threadpool.cpp`). Each event is a block that a lock or the thread's
own order keeps together; an interleaving is a list of events.

Conventions:

* The calls of other threads are one block each: `stateMutex_` is held
  throughout. `Stop` and `Pause` wait for `jobMutex_` first, which `HandleJob` holds.
* A job on the thread itself calls `Stop`, `Pause` and the two others without a
  lock. Their stores are blocks of their own: `proceed` is the next of them.
  The job may be one of another task of the thread.
* `UpdateThreadPriority` holds no lock between its three parts.
* The clock is read in microseconds and never goes back; `dt` is the time that
  passes before a block reads it again. A time beyond 63 bits is an undefined
  sum, and the head of an empty queue an undefined access: no step.
* Whether a caller waits for its job is left out, and so are the other tasks of
  the thread; `nextId`, `withdrawn` and `executed` only record what happens.
-/

namespace MediaFoundation.TaskInner

def adjustUs : Int := 500

inductive RunningState where
  | started | paused | stopped
deriving DecidableEq

structure Job where
  id : Nat
  submittedUs : Int
  delayUs : Int
deriving DecidableEq

structure Taken where
  job : Job
  inJobQueue : Bool
  dueUs : Int
  timeUs : Int
  state : RunningState
  seen : Nat
  /-- The task had been paused or stopped since the thread selected it. -/
  withdrawn : Bool
deriving DecidableEq

/-- A job whose function has been entered, and when. -/
structure Execution where
  taken : Taken
  startUs : Int
  startState : RunningState

/-- Where the pipeline thread is, as far as the task is concerned. -/
inductive Pc where
  /-- In its loop, or in a job of another task. -/
  | idle
  /-- It has released its mutex to call `HandleJob`. -/
  | selected
  /-- In `HandleJob`, with `singleLoop_` as it was read. -/
  | entered (singleLoop : Bool)
  | taken (t : Taken)
  | running (t : Taken)
  | looping (currentTopProcessUs : Int)
deriving DecidableEq

/-- The stores that a call of a job on the thread has yet to make. -/
inductive Pending where
  | none | storePaused | clearTop
deriving DecidableEq

/-- A call of `UpdateThreadPriority` that is under way. -/
structure Toggle where
  tmpFlag : Bool
  submitted : Bool

structure State where
  nowUs : Int
  runningState : RunningState := .paused
  singleLoop : Bool
  topProcessUs : Int := -1
  topIsJob : Bool := false
  jobQueue : DueQueue Job := .empty
  msgQueue : DueQueue Job := .empty
  pc : Pc := .idle
  pending : Pending := .none
  toggles : List Toggle := []
  nextId : Nat := 0
  withdrawn : Bool := false
  executed : List Execution := []

def init (nowUs : Nat) (singleLoop : Bool) : State := { nowUs, singleLoop }

-- The queues and the top

/-- The head of `jobQueue_`, which is only handled in the state STARTED. -/
def eligibleJob (s : State) : Option (Int × Job) :=
  if s.runningState = .started then s.jobQueue.head? else none

def updateTop (s : State) : State :=
  match s.msgQueue.head?, eligibleJob s with
  | none, none => { s with topProcessUs := -1 }
  | none, some job => { s with topProcessUs := job.1, topIsJob := true }
  | some msg, none => { s with topProcessUs := msg.1, topIsJob := false }
  | some msg, some job =>
    if msg.1 ≤ s.nowUs ∨ msg.1 ≤ job.1 then { s with topProcessUs := msg.1, topIsJob := false }
    else { s with topProcessUs := job.1, topIsJob := true }

def queue (s : State) (inJobQueue : Bool) : DueQueue Job :=
  if inJobQueue then s.jobQueue else s.msgQueue

def insertJob (s : State) (delayUs : Int) (inJobQueue : Bool) (dt : Nat) : Option State :=
  let wantedUs := s.nowUs + max delayUs 0
  let processTime := (queue s inJobQueue).freeTime wantedUs
  let added := (queue s inJobQueue).add wantedUs ⟨s.nextId, s.nowUs, delayUs⟩
  if 2 ^ 63 ≤ processTime then none
  else
    let s' := { s with nextId := s.nextId + 1, nowUs := s.nowUs + dt }
    let s' := if inJobQueue then { s' with jobQueue := added } else { s' with msgQueue := added }
    some (if processTime ≤ s.topProcessUs ∨ s.topProcessUs = -1 then updateTop s' else s')

-- Start, Pause and Stop

def start (s : State) : State :=
  if s.singleLoop then { s with runningState := .started, topProcessUs := s.nowUs }
  else updateTop { s with runningState := .started }

def leave (s : State) (state : RunningState) : State :=
  { s with
    runningState := state
    topProcessUs := -1
    withdrawn := s.withdrawn || decide (s.runningState = .started) }

def pauseAsync (s : State) : State := if s.runningState = .started then leave s .paused else s

def stopAsync (s : State) : State := if s.runningState = .stopped then s else leave s .stopped

def jobMutexFree : Pc → Bool
  | .idle | .selected => true
  | _ => false

/-- The thread runs a job, and no call of it is under way. -/
def inSelf (s : State) : Bool :=
  match s.pc, s.pending with
  | .idle, .none | .running _, .none | .looping _, .none => true
  | _, _ => false

def pauseInSelf (s : State) : State :=
  if s.runningState = .started then { s with pending := .storePaused } else s

def stopInSelf (s : State) : State := { s with runningState := .stopped, pending := .clearTop }

def proceed (s : State) : Option State :=
  match s.pending with
  | .none => none
  | .storePaused => some { s with runningState := .paused, pending := .clearTop }
  | .clearTop => some { s with topProcessUs := -1, pending := .none }

-- UpdateThreadPriority

def clearSingleLoop (s : State) : State :=
  { s with singleLoop := false, toggles := s.toggles ++ [⟨s.singleLoop, false⟩] }

/-- The `SubmitJobOnce` of the `i`-th call that is under way. -/
def submitPriority (s : State) (i : Nat) (dt : Nat) : Option State :=
  match s.toggles[i]? with
  | some ⟨tmpFlag, false⟩ =>
    insertJob { s with toggles := s.toggles.set i ⟨tmpFlag, true⟩ } 0 false dt
  | _ => none

def restoreSingleLoop (s : State) (i : Nat) : Option State :=
  match s.toggles[i]? with
  | some ⟨tmpFlag, true⟩ => some { s with singleLoop := tmpFlag, toggles := s.toggles.eraseIdx i }
  | _ => none

-- The pipeline thread

/-- `Run` up to the release of the mutex, when it picks this task. -/
def select (s : State) : Option State :=
  if s.pc = .idle ∧ s.pending = .none ∧ s.topProcessUs ≠ -1 ∧ s.topProcessUs ≤ s.nowUs + adjustUs then
    some { s with pc := .selected, withdrawn := false }
  else none

def enter (s : State) : Option State :=
  if s.pc = .selected then some { s with pc := .entered s.singleLoop } else none

def take (s : State) (inJobQueue : Bool) : Option State :=
  (queue s inJobQueue).head?.map fun e =>
    let t : Taken :=
      { job := e.2, inJobQueue, dueUs := e.1, timeUs := s.nowUs, state := s.runningState
        seen := s.nextId, withdrawn := s.withdrawn }
    let rest := (queue s inJobQueue).tail
    if inJobQueue then { s with pc := .taken t, jobQueue := rest }
    else { s with pc := .taken t, msgQueue := rest }

def handle (s : State) : Option State :=
  match s.pc with
  | .entered true =>
    if s.runningState = .paused ∨ s.runningState = .stopped then
      some { s with topProcessUs := -1, pc := .idle }
    else some { s with pc := .looping s.topProcessUs }
  | .entered false =>
    if s.topIsJob ∧ s.runningState ≠ .started then some { s with pc := .idle }
    else take s s.topIsJob
  | _ => none

def begin (s : State) : Option State :=
  match s.pc with
  | .taken t =>
    some { s with
      pc := .running t
      executed := s.executed ++ [⟨t, s.nowUs, s.runningState⟩] }
  | _ => none

/-- The end of `HandleJob`; the job of a single loop has returned `nextDelayUs`. -/
def finish (s : State) (nextDelayUs : Int) : Option State :=
  match s.pc, s.pending with
  | .running _, .none => some (updateTop { s with pc := .idle })
  | .looping currentTopProcessUs, .none =>
    if s.topProcessUs ≠ -1 ∧ currentTopProcessUs = s.topProcessUs then
      some { s with pc := .idle, topProcessUs := s.nowUs + nextDelayUs }
    else some { s with pc := .idle }
  | _, _ => none

-- Any interleaving

inductive Event where
  | tick (dt : Nat)
  | submitJob (delayUs : Int) (dt : Nat)
  | submitJobOnce (delayUs : Int) (dt : Nat)
  | clearSingleLoop
  | submitPriority (i : Nat) (dt : Nat)
  | restoreSingleLoop (i : Nat)
  | start
  | pause
  | pauseAsync
  | stop
  | stopAsync
  | pauseInSelf
  | stopInSelf
  | proceed
  | select
  | enter
  | handle
  | begin
  | finish (nextDelayUs : Int)
deriving DecidableEq

def step (s : State) : Event → Option State
  | .tick dt => some { s with nowUs := s.nowUs + dt }
  | .submitJob delayUs dt => insertJob s delayUs true dt
  | .submitJobOnce delayUs dt => insertJob s delayUs false dt
  | .clearSingleLoop => some (clearSingleLoop s)
  | .submitPriority i dt => submitPriority s i dt
  | .restoreSingleLoop i => restoreSingleLoop s i
  | .start => some (start s)
  | .pause => if jobMutexFree s.pc then some (pauseAsync s) else none
  | .pauseAsync => some (pauseAsync s)
  | .stop => if jobMutexFree s.pc then some (stopAsync s) else none
  | .stopAsync => some (stopAsync s)
  | .pauseInSelf => if inSelf s then some (pauseInSelf s) else none
  | .stopInSelf => if inSelf s then some (stopInSelf s) else none
  | .proceed => proceed s
  | .select => select s
  | .enter => enter s
  | .handle => handle s
  | .begin => begin s
  | .finish nextDelayUs => finish s nextDelayUs

end MediaFoundation.TaskInner
