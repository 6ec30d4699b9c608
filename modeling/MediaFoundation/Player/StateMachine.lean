import MediaFoundation.Player.States

/-!
# The player's state machine

`state_machine.cpp` of the player: the intents that its task takes from the
queue one after another, and the transitions that a state asks for.

Conventions:

* `TransitionTo` and `ProcAction` call each other; `fuel` bounds how deep.
* What happens in a `ProcessIntent` is written down as a list of events.
-/

namespace MediaFoundation.Player

structure Job where
  intent : Intent
  param : Param
deriving DecidableEq

inductive Event where
  /-- `Execute` of the current state returned. -/
  | executed (code : ErrorCode) (action : Action)
  | entered (state : StateId) (code : ErrorCode) (action : Action)
  | stateChanged (state : StateId)
  /-- `intentSync_.Notify`, which is what the sender of the intent gets. -/
  | notified (intent : Intent) (code : ErrorCode)
deriving DecidableEq

structure StateMachine where
  curState : StateId := .idle
  lastIntent : Intent := .intentButt
  pendingJobs : List Job := []
  callback : Bool := true
  calls : List Call := []
  /-- The events of the last `ProcessIntent`. -/
  events : List Event := []

def Action.nextState : Action → Option StateId
  | .transToIdle => some .idle
  | .transToInit => some .init
  | .transToPreparing => some .preparing
  | .transToReady => some .ready
  | .transToPlaying => some .playing
  | .transToPause => some .pause
  | .transToStopped => some .stopped
  | .transToEos => some .eos
  | .actionPending | .actionButt => none

namespace StateMachine

def log (m : StateMachine) (event : Event) : StateMachine := { m with events := m.events ++ [event] }

def returned (m : StateMachine) (r : Returned) (event : ErrorCode → Action → Event) : StateMachine :=
  { m with calls := r.calls, events := m.events ++ [event r.code r.action] }

section Transitions

variable (executor : PlayExecutor)

def procAction (transitionTo : StateMachine → StateId → Option (StateMachine × ErrorCode))
    (m : StateMachine) (nextAction : Action) : Option (StateMachine × ErrorCode) :=
  match nextAction.nextState with
  | some nextState => transitionTo m nextState
  | none => some (m, .success)

def onStateChanged (m : StateMachine) : StateMachine :=
  if m.callback then m.log (.stateChanged m.curState) else m

def transitionTo : Nat → StateMachine → StateId → Option (StateMachine × ErrorCode)
  | 0, _, _ => none
  | fuel + 1, m, state =>
    if state ≠ m.curState then
      let m := { m with curState := state }
      let r := enter executor m.calls state m.lastIntent
      let m := m.returned r (.entered state)
      if r.code = .success then
        (procAction (transitionTo fuel) m r.action).map fun (m, rtv) => (m.onStateChanged, rtv)
      else some (m.onStateChanged, r.code)
    else some (m, .success)

def onIntentExecuted (m : StateMachine) (intent : Intent) (action : Action) (result : ErrorCode) :
    StateMachine :=
  if action = .actionPending then m
  else if result = .errorNoNotify then m
  else if intent = .notifyReady ∧ action = .transToPlaying then m.log (.notified .play result)
  else m.log (.notified intent result)

def processIntent (fuel : Nat) (m : StateMachine) (intent : Intent) (param : Param) :
    Option (StateMachine × Action) :=
  let m := { m with lastIntent := intent, events := [] }
  let r := execute executor m.calls m.curState intent param
  let m := m.returned r .executed
  let proc :=
    if r.action ≠ .actionButt then
      (procAction (transitionTo executor fuel) m r.action).map fun (m, ret) =>
        (m, if r.code = .success then ret else r.code)
    else some (m, r.code)
  proc.map fun (m, rtv) =>
    (m.onIntentExecuted intent r.action rtv, if rtv = .success then r.action else .actionButt)

end Transitions

end StateMachine

-- The task

structure Report where
  job : Job
  before : StateMachine
  after : StateMachine

structure Task where
  machine : StateMachine
  reports : List Report := []

def Task.run (executor : PlayExecutor) (fuel : Nat) (t : Task) (job : Job) : Option (Task × Action) :=
  (t.machine.processIntent executor fuel job.intent job.param).map fun (machine, action) =>
    (⟨machine, t.reports ++ [⟨job, t.machine, machine⟩]⟩, action)

def Task.pend (t : Task) (job : Job) : Task :=
  { t with machine := { t.machine with pendingJobs := t.machine.pendingJobs ++ [job] } }

/-- `DoTask` for the job that it takes from the queue: after a transition the
oldest pending job is tried again. -/
def Task.doTask (executor : PlayExecutor) (fuel : Nat) (t : Task) (job : Job) : Option Task :=
  (t.run executor fuel job).bind fun (t, action) =>
    match action with
    | .actionPending => some (t.pend job)
    | .actionButt => some t
    | _ =>
      match t.machine.pendingJobs with
      | [] => some t
      | job :: rest =>
        (Task.run executor fuel { t with machine := { t.machine with pendingJobs := rest } } job).map
          fun (t, action) => if action = .actionPending then t.pend job else t

end MediaFoundation.Player
