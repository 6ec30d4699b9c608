import MediaFoundation.Lib.Runs

/-!
# CodecCmdExecutor

`plugins/codec_adapter/codec_cmd_executor.cpp`: commands go to the component, and a timed wait
looks for the result that an event of the component has left.

Conventions:

* One thread calls `SendCmd` and `WaitCmdResult`; the events come from another one. A step is what
  a thread does while it holds `mutex_`. `SendCmd` does not take it and is one step as well.
* A thread that waits looks again when it has been notified, or for no reason (`wake`), and once
  more when its time is over (`timeOut`).
* The two other events change nothing and are left out.
* `seen` and `answers` only record what happens: what was reported since the last `SendCmd` of a
  command, and what each `WaitCmdResult` returned, with what had been reported by then.
-/

namespace MediaFoundation.CodecCmd

inductive OmxState where
  | invalid
  | loaded
  | idle
  | executing
  | pause
  | waitForResources
  | other (value : UInt32)
deriving DecidableEq

inductive PortCmd where
  | flush
  | portEnable
  | portDisable
deriving DecidableEq

inductive Command where
  | stateSet (state : OmxState)
  | port (cmd : PortCmd) (portIndex : UInt32)
deriving DecidableEq

inductive Result where
  | invalid
  | success
  | fail
deriving DecidableEq

inductive LastCmd where
  | none
  | error
  | completed
deriving DecidableEq

/-- What has happened to a command since it was sent. -/
structure Seen where
  sent : Bool := false
  completed : Bool := false
  failed : Bool := false

structure Answer where
  command : Command
  result : Bool
  timedOut : Bool
  seen : Seen

structure State where
  inPortIndex : UInt32
  lastCmd : LastCmd := .none
  stateResult : OmxState := .invalid
  /-- `resultMap_` of the other commands. -/
  portResult : PortCmd → Result × Result := fun _ => (.invalid, .invalid)
  waiting : Option Command := none
  seen : Command → Seen := fun _ => {}
  answers : List Answer := []

def create (inPortIndex : UInt32) : State := { inPortIndex }

def State.outPortIndex (s : State) : UInt32 := s.inPortIndex + 1

def State.setPair (s : State) (cmd : PortCmd) (pair : Result × Result) : State :=
  { s with portResult := Function.update s.portResult cmd pair }

-- SendCmd

/-- A new state makes the earlier one obsolete. -/
def sends (sent c : Command) (seen : Seen) : Seen :=
  match sent, c with
  | .stateSet state, .stateSet state' => { sent := decide (state = state') }
  | _, _ => if sent = c then { sent := true } else seen

def sendCmd (s : State) (c : Command) : State :=
  let s := match c with
    | .stateSet _ => { s with stateResult := .invalid }
    | .port _ _ => s
  { s with seen := fun c' => sends c c' (s.seen c') }

-- WaitCmdResult

def lookState (s : State) (state : OmxState) : State × Option Bool :=
  if s.lastCmd = .error then ({ s with stateResult := .invalid }, some false)
  else (s, if s.stateResult = state then some true else none)

def lookPort (s : State) (cmd : PortCmd) (portIndex : UInt32) : State × Option Bool :=
  let tempPair := s.portResult cmd
  if s.lastCmd = .error then
    if portIndex = s.inPortIndex then (s.setPair cmd (.fail, tempPair.2), some false)
    else (s.setPair cmd (tempPair.2, .fail), some false)
  else if portIndex = s.inPortIndex then
    (if tempPair.1 ≠ .invalid then s.setPair cmd (.invalid, tempPair.2) else s,
      if tempPair.1 = .success then some true else none)
  else
    (if tempPair.2 ≠ .invalid then s.setPair cmd (tempPair.2, .invalid) else s,
      if tempPair.2 = .success then some true else none)

def look (s : State) : Command → State × Option Bool
  | .stateSet state => lookState s state
  | .port cmd portIndex => lookPort s cmd portIndex

def answer (s : State) (c : Command) (result timedOut : Bool) : State :=
  { s with
    waiting := none
    answers := s.answers ++ [⟨c, result, timedOut, s.seen c⟩] }

/-- One round of the timed wait. `result` is still true when the time is over. -/
def waitRound (s : State) (c : Command) (timedOut : Bool) : State :=
  match look s c with
  | (s, some result) => answer s c result timedOut
  | (s, none) => if timedOut then answer s c true timedOut else { s with waiting := some c }

-- OnEvent

def handleEventCmdComplete (s : State) (c : Command) : State :=
  let s := match c with
    | .stateSet state => { s with stateResult := state }
    | .port cmd portIndex =>
      let tempPair := s.portResult cmd
      if portIndex = s.inPortIndex then s.setPair cmd (.success, tempPair.2)
      else s.setPair cmd (tempPair.2, .success)
  { s with
    lastCmd := .completed
    seen := Function.update s.seen c { s.seen c with completed := true } }

/-- `HandleEventCmdComplete` of a command that nobody waits for. -/
def handleEventOther (s : State) : State := { s with lastCmd := .completed }

def handleEventError (s : State) : State :=
  { s with
    lastCmd := .error
    seen := fun c => { s.seen c with failed := true } }

-- Any interleaving

inductive Event where
  | sendCmd (c : Command)
  | waitCmdResult (c : Command)
  | wake
  | timeOut
  | cmdComplete (c : Command)
  | otherComplete
  | error

def step (s : State) : Event → Option State
  | .sendCmd c => if s.waiting.isSome then none else some (sendCmd s c)
  | .waitCmdResult c => if s.waiting.isSome then none else some (waitRound s c false)
  | .wake => s.waiting.map fun c => waitRound s c false
  | .timeOut => s.waiting.map fun c => waitRound s c true
  | .cmdComplete c => some (handleEventCmdComplete s c)
  | .otherComplete => some (handleEventOther s)
  | .error => some (handleEventError s)

end MediaFoundation.CodecCmd
