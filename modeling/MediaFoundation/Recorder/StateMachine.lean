import MediaFoundation.Lib.Runs
import MediaFoundation.Recorder.States

/-!
# The recorder's state machine

`state_machine.cpp` of the recorder: the intents that its task takes from the queue one after
another, and the one that it tries again after a transition.

Conventions:

* No state asks for a transition on entry, so `ProcAction` does nothing in
  `TransitionTo`. The callback is left out.
* Jobs are numbered as they are taken. `executions` only records what the jobs did.
-/

namespace MediaFoundation.Recorder

open Player (ErrorCode)

structure Job where
  id : Nat
  intent : Intent
deriving DecidableEq

structure Execution where
  job : Job
  /-- `rtv`. -/
  code : ErrorCode
  notified : Option (Intent × ErrorCode)

structure StateMachine where
  curState : StateId := .init
  lastIntent : Intent := .intentButt
  pendingJobs : List Job := []
  /-- The calls of the executor, the last one first. -/
  calls : List Called := []
  /-- The number of jobs that have been taken from the queue. -/
  taken : Nat := 0
  /-- The last one first. -/
  executions : List Execution := []

def Action.nextState : Action → Option StateId
  | .transToInit => some .init
  | .transToRecordingSetting => some .recordingSetting
  | .transToReady => some .ready
  | .transToRecording => some .recording
  | .transToPause => some .pause
  | .transToError => some .error
  | .actionPending | .actionButt => none

section Task

variable (executor : RecorderExecutor)

def transitionTo (m : StateMachine) (state : StateId) : StateMachine × ErrorCode :=
  if state ≠ m.curState then
    let r := enter executor m.calls state m.lastIntent
    ({ m with
      curState := state
      calls := r.calls }, r.code)
  else (m, .success)

def procAction (m : StateMachine) (nextAction : Action) : StateMachine × ErrorCode :=
  match nextAction.nextState with
  | some nextState => transitionTo executor m nextState
  | none => (m, .success)

def onIntentExecuted (intent : Intent) (action : Action) (result : ErrorCode) :
    Option (Intent × ErrorCode) :=
  if action = .actionPending then none
  else if intent = .notifyReady ∧ action = .transToRecording then some (.start, result)
  else some (intent, result)

/-- The machine after an `Execute`, and `rtv`. -/
def proceed (m : StateMachine) (r : Returned) : StateMachine × ErrorCode :=
  let m := { m with calls := r.calls }
  if r.action ≠ .actionButt then
    let proc := procAction executor m r.action
    (proc.1, if r.code = .success then proc.2 else r.code)
  else (m, r.code)

def processIntent (m : StateMachine) (job : Job) : StateMachine × Action :=
  let r := execute executor m.calls m.curState job.intent
  let done := proceed executor { m with lastIntent := job.intent } r
  ({ done.1 with
    executions := ⟨job, done.2, onIntentExecuted job.intent r.action done.2⟩ :: m.executions },
    if done.2 = .success then r.action else .actionButt)

def pend (m : StateMachine) (job : Job) : StateMachine :=
  { m with pendingJobs := m.pendingJobs ++ [job] }

def pendIf (ret : StateMachine × Action) (job : Job) : StateMachine :=
  if ret.2 = .actionPending then pend ret.1 job else ret.1

def retry (m : StateMachine) : StateMachine :=
  match m.pendingJobs with
  | [] => m
  | job :: rest => pendIf (processIntent executor { m with pendingJobs := rest } job) job

def doTask (m : StateMachine) (intent : Intent) : StateMachine :=
  let job := ⟨m.taken, intent⟩
  let ret := processIntent executor { m with taken := m.taken + 1 } job
  match ret.2 with
  | .actionPending => pend ret.1 job
  | .transToInit | .transToRecordingSetting | .transToReady | .transToRecording | .transToPause =>
    retry executor ret.1
  | .transToError | .actionButt => ret.1

def machineAfter (intents : List Intent) : StateMachine := intents.foldl (doTask executor) {}

end Task

-- What the machine has to do with the recorder

def Call.controls : Call → Bool
  | .doStart | .doResume | .doPause | .doStop => true
  | _ => false

def Call.starts : Call → Bool
  | .doStart | .doResume => true
  | _ => false

def lastControl (m : StateMachine) : Option Called := m.calls.find? fun c => c.call.controls

def lastStart (m : StateMachine) : Option Called := m.calls.find? fun c => c.call.starts

def Started (m : StateMachine) : Prop :=
  m.curState = .recording →
    ∃ c, lastControl m = some c ∧ c.call.starts = true ∧ c.code = .success

/-- In `RECORDING`, entered with success, the recorder has been started last, or been stopped: the
machine stays there until the end of the recording is notified. -/
def StartedOrStopped (m : StateMachine) : Prop :=
  m.curState = .recording → (∀ c, lastStart m = some c → c.code = .success) →
    ∃ c, lastControl m = some c ∧ (c.call.starts = true ∨ c.call = .doStop) ∧ c.code = .success

def executionsOf (m : StateMachine) (job : Job) : List Execution :=
  m.executions.filter fun e => e.job = job

def notifications (m : StateMachine) (job : Job) : List (Intent × ErrorCode) :=
  (executionsOf m job).filterMap Execution.notified

/-- A job is a `START` that is pending, or its sender has been told what its last execution came
to, once. -/
def Told (m : StateMachine) (job : Job) : Prop :=
  (job ∈ m.pendingJobs ∧ job.intent = .start ∧ notifications m job = []) ∨
    (job ∉ m.pendingJobs ∧ ∃ e, (executionsOf m job).head? = some e ∧
      notifications m job = [(job.intent, e.code)])

section Run

variable (executor : RecorderExecutor)

def executed (m : StateMachine) (intent : Intent) : StateMachine :=
  (processIntent executor { m with taken := m.taken + 1 } ⟨m.taken, intent⟩).1

/-- When `RECORDING_SETTING` is left for `READY` or `INIT`, the oldest pending job is executed
again. -/
def Retried (m : StateMachine) (intent : Intent) : Prop :=
  ∀ job rest, m.curState = .recordingSetting → m.pendingJobs = job :: rest →
    (executed executor m intent).curState = .ready ∨
      (executed executor m intent).curState = .init →
    (doTask executor m intent).pendingJobs = rest ∧
      ∃ e, (doTask executor m intent).executions = e :: (executed executor m intent).executions ∧
        e.job = job

/-- While a `START` is pending there comes no other one, and `RECORDING_SETTING` is not left for
`ERROR`. -/
def Clear (m : StateMachine) (intent : Intent) : Prop :=
  m.curState = .recordingSetting → m.pendingJobs ≠ [] →
    intent ≠ .start ∧ (executed executor m intent).curState ≠ .error

def step (m : StateMachine) (intent : Intent) : Option StateMachine :=
  some (doTask executor m intent)

structure KeepsStep (intents : List Intent) : Prop where
  recording : StartedOrStopped (machineAfter executor intents)
  told : ∀ i intent, intents[i]? = some intent → Told (machineAfter executor intents) ⟨i, intent⟩
  retried : ∀ intent, Retried executor (machineAfter executor intents) intent
  cleared : Runs.Along (step executor) (Clear executor) {} intents →
    (machineAfter executor intents).pendingJobs ≠ [] →
      (machineAfter executor intents).curState = .recordingSetting

end Run

-- What the states ask for

/-- The actions that only a few states ask for. -/
def Action.ordinary : Action → Bool
  | .actionPending | .transToRecording => false
  | _ => true

section Execute

variable {executor : RecorderExecutor} {calls : List Called} {state : StateId} {intent : Intent}
  {success otherwise : Action}

theorem perform_cases (executor : RecorderExecutor) (calls : List Called) (call : Call)
    (success otherwise : Action) :
    (executor.perform calls call success otherwise).code = .success ∧
        (executor.perform calls call success otherwise).action = success ∨
      (executor.perform calls call success otherwise).action = otherwise := by
  by_cases hret : executor.answer calls call = .success
  · simp [RecorderExecutor.perform, hret]
  · simp [RecorderExecutor.perform, hret]

theorem perform_ordinary (call : Call) (hsuccess : success.ordinary = true)
    (hotherwise : otherwise.ordinary = true) :
    (executor.perform calls call success otherwise).action.ordinary = true := by
  rcases perform_cases executor calls call success otherwise with ⟨-, haction⟩ | haction
  · rw [haction]
    exact hsuccess
  · rw [haction]
    exact hotherwise

theorem set_ordinary (call : Call) : (set executor calls call).action.ordinary = true :=
  perform_ordinary call rfl rfl

theorem execute_cases (executor : RecorderExecutor) (calls : List Called) (state : StateId)
    (intent : Intent) :
    (state = .recordingSetting ∧ intent = .start ∧
        execute executor calls state intent = withoutCall calls .success .actionPending) ∨
      (state ≠ .recording ∧ intent ≠ .notifyReady ∧
        execute executor calls state intent = withoutCall calls .success .transToRecording) ∨
      (execute executor calls state intent).action.ordinary = true := by
  cases intent with
  | start => cases state <;> simp [execute, start, withoutCall, invalidOperation, Action.ordinary]
  | resume => cases state <;> simp [execute, resume, withoutCall, invalidOperation, Action.ordinary]
  | setVideoSource | setAudioSource =>
    refine Or.inr (Or.inr ?_)
    cases state with
    | init | recordingSetting => exact set_ordinary _
    | _ => rfl
  | setOutputFormat | configure =>
    refine Or.inr (Or.inr ?_)
    cases state with
    | recordingSetting => exact set_ordinary _
    | _ => rfl
  | prepare =>
    refine Or.inr (Or.inr ?_)
    cases state with
    | recordingSetting => exact perform_ordinary _ rfl rfl
    | _ => rfl
  | stop =>
    refine Or.inr (Or.inr ?_)
    cases state with
    | recordingSetting | recording | pause => exact perform_ordinary _ rfl rfl
    | _ => rfl
  | notifyComplete =>
    refine Or.inr (Or.inr ?_)
    cases state with
    | init | recording => exact perform_ordinary _ rfl rfl
    | _ => rfl
  | _ =>
    refine Or.inr (Or.inr ?_)
    cases state <;> rfl

theorem execute_recording (executor : RecorderExecutor) (calls : List Called) (intent : Intent) :
    (∃ s, s ≠ .recording ∧ (execute executor calls .recording intent).action.nextState = some s) ∨
      (execute executor calls .recording intent).action.nextState = none ∧
        ((execute executor calls .recording intent).calls = calls ∨
          (∃ code, (execute executor calls .recording intent).calls =
            ⟨.doOnComplete, code⟩ :: calls) ∨
          (execute executor calls .recording intent).calls = ⟨.doStop, .success⟩ :: calls) := by
  cases intent with
  | stop =>
    by_cases hret : executor.answer calls .doStop = .success
    · exact Or.inr (by simp [execute, stop, RecorderExecutor.perform, hret, Action.nextState])
    · exact Or.inl (by simp [execute, stop, RecorderExecutor.perform, hret, Action.nextState])
  | notifyComplete =>
    by_cases hret : executor.answer calls .doOnComplete = .success
    · exact Or.inl (by simp [execute, onComplete, RecorderExecutor.perform, hret, Action.nextState])
    · exact Or.inr (by simp [execute, onComplete, RecorderExecutor.perform, hret, Action.nextState])
  | pause => exact Or.inl ⟨.pause, by simp, rfl⟩
  | reset => exact Or.inl ⟨.init, by simp, rfl⟩
  | notifyError => exact Or.inl ⟨.error, by simp, rfl⟩
  | _ => exact Or.inr ⟨rfl, Or.inl rfl⟩

theorem execute_setting (executor : RecorderExecutor) (calls : List Called) (intent : Intent) :
    (intent = .start ∧ execute executor calls .recordingSetting intent =
        withoutCall calls .success .actionPending) ∨
      (execute executor calls .recordingSetting intent).action = .actionButt ∨
      (execute executor calls .recordingSetting intent).action = .transToError ∨
      (execute executor calls .recordingSetting intent).code = .success ∧
        ((execute executor calls .recordingSetting intent).action = .transToRecordingSetting ∨
          (execute executor calls .recordingSetting intent).action = .transToReady ∨
          (execute executor calls .recordingSetting intent).action = .transToInit) := by
  cases intent with
  | start => exact Or.inl ⟨rfl, rfl⟩
  | setVideoSource | setAudioSource | setOutputFormat | configure =>
    rcases perform_cases executor calls _ .transToRecordingSetting .actionButt with
      ⟨hcode, haction⟩ | haction
    · exact Or.inr (Or.inr (Or.inr ⟨hcode, Or.inl haction⟩))
    · exact Or.inr (Or.inl haction)
  | prepare =>
    rcases perform_cases executor calls .doPrepare .actionButt .transToError with
      ⟨-, haction⟩ | haction
    · exact Or.inr (Or.inl haction)
    · exact Or.inr (Or.inr (Or.inl haction))
  | stop =>
    rcases perform_cases executor calls .doStop .transToInit .transToError with
      ⟨hcode, haction⟩ | haction
    · exact Or.inr (Or.inr (Or.inr ⟨hcode, Or.inr (Or.inr haction)⟩))
    · exact Or.inr (Or.inr (Or.inl haction))
  | reset => exact Or.inr (Or.inr (Or.inr ⟨rfl, Or.inr (Or.inr rfl)⟩))
  | notifyReady => exact Or.inr (Or.inr (Or.inr ⟨rfl, Or.inr (Or.inl rfl)⟩))
  | notifyError => exact Or.inr (Or.inr (Or.inl rfl))
  | _ => exact Or.inr (Or.inl rfl)

end Execute

-- One job

section Job

variable {executor : RecorderExecutor} {m : StateMachine} {job : Job} {r : Returned}

theorem proceed_stays (h : r.action.nextState = none) :
    proceed executor m r = ({ m with calls := r.calls }, r.code) := by
  unfold proceed
  dsimp only
  split
  · simp only [procAction, h]
    split
    · rename_i hcode
      rw [hcode]
    · rfl
  · rfl

theorem proceed_enters {s : StateId} (h : r.action.nextState = some s) :
    (proceed executor m r).1.curState = s ∧
      (proceed executor m r).1.calls =
        if s ≠ m.curState then (enter executor r.calls s m.lastIntent).calls else r.calls := by
  have hne : r.action ≠ .actionButt := by
    intro hbutt
    rw [hbutt] at h
    cases h
  unfold proceed
  simp only [if_pos hne, procAction, h, transitionTo]
  split
  · exact ⟨rfl, rfl⟩
  · rename_i hsame
    exact ⟨(not_not.mp hsame).symm, rfl⟩

theorem proceed_frame : (proceed executor m r).1.pendingJobs = m.pendingJobs ∧
    (proceed executor m r).1.taken = m.taken := by
  unfold proceed procAction transitionTo
  dsimp only
  split
  · split
    · split <;> exact ⟨rfl, rfl⟩
    · exact ⟨rfl, rfl⟩
  · exact ⟨rfl, rfl⟩

@[simp] theorem processIntent_pendingJobs :
    (processIntent executor m job).1.pendingJobs = m.pendingJobs := proceed_frame.1

@[simp] theorem processIntent_taken : (processIntent executor m job).1.taken = m.taken :=
  proceed_frame.2

theorem processIntent_told (executor : RecorderExecutor) (m : StateMachine) (job : Job) :
    ∃ e, (processIntent executor m job).1.executions = e :: m.executions ∧ e.job = job ∧
      ((processIntent executor m job).2 = .actionPending ∧ job.intent = .start ∧
          m.curState = .recordingSetting ∧
          (processIntent executor m job).1.curState = .recordingSetting ∧ e.notified = none ∨
        (processIntent executor m job).2 ≠ .actionPending ∧
          e.notified = some (job.intent, e.code)) := by
  refine ⟨_, rfl, rfl, ?_⟩
  rcases execute_cases executor m.calls m.curState job.intent with
    ⟨hstate, hintent, hr⟩ | ⟨-, hintent, hr⟩ | hordinary
  · refine Or.inl ?_
    simp only [processIntent, hr]
    rw [proceed_stays rfl]
    exact ⟨rfl, hintent, hstate, hstate, rfl⟩
  · refine Or.inr ?_
    simp only [processIntent, hr, withoutCall, onIntentExecuted]
    refine ⟨?_, by simp [hintent]⟩
    split <;> simp
  · refine Or.inr ?_
    have hpending : (execute executor m.calls m.curState job.intent).action ≠ .actionPending := by
      intro h
      rw [h] at hordinary
      cases hordinary
    have hrecording : (execute executor m.calls m.curState job.intent).action ≠
        .transToRecording := by
      intro h
      rw [h] at hordinary
      cases hordinary
    simp only [processIntent, onIntentExecuted]
    refine ⟨?_, by simp [hpending, hrecording]⟩
    split
    · exact hpending
    · simp

theorem processIntent_setting (executor : RecorderExecutor) (job : Job)
    (hstate : m.curState = .recordingSetting) :
    (processIntent executor m job).1.curState = .error ∨
      (processIntent executor m job).1.curState = .recordingSetting ∨
      ((processIntent executor m job).1.curState = .ready ∧
        (processIntent executor m job).2 = .transToReady) ∨
      ((processIntent executor m job).1.curState = .init ∧
        (processIntent executor m job).2 = .transToInit) := by
  simp only [processIntent, hstate]
  generalize hr : execute executor m.calls .recordingSetting job.intent = r
  have hcases := execute_setting executor m.calls job.intent
  rw [hr] at hcases
  rcases hcases with ⟨-, rfl⟩ | haction | haction | ⟨hcode, haction | haction | haction⟩
  · rw [proceed_stays rfl]
    exact Or.inr (Or.inl rfl)
  · rw [proceed_stays (by rw [haction]; rfl)]
    exact Or.inr (Or.inl rfl)
  · exact Or.inl (proceed_enters (by rw [haction]; rfl)).1
  · exact Or.inr (Or.inl (proceed_enters (by rw [haction]; rfl)).1)
  · refine Or.inr (Or.inr (Or.inl ?_))
    simp [proceed, procAction, transitionTo, enter, withoutCall, haction, hcode, Action.nextState]
  · refine Or.inr (Or.inr (Or.inr ?_))
    simp [proceed, procAction, transitionTo, enter, withoutCall, haction, hcode, Action.nextState]

-- The last call of the recorder

/-- In `RECORDING` the last of the calls is that of the entry, or a stop that succeeded. -/
def Controlled (m : StateMachine) : Prop :=
  m.curState = .recording →
    ∃ c, lastControl m = some c ∧ (c.call.starts = true ∨ c.call = .doStop ∧ c.code = .success)

theorem Controlled.processIntent (h : Controlled m) (executor : RecorderExecutor) (job : Job) :
    Controlled (processIntent executor m job).1 := by
  unfold Recorder.processIntent
  generalize hr : execute executor m.calls m.curState job.intent = r
  intro hrecording
  cases hnext : r.action.nextState with
  | none =>
    simp only [proceed_stays hnext] at hrecording ⊢
    obtain ⟨c, hc, hlast⟩ := h hrecording
    rw [hrecording] at hr
    have hcases := execute_recording executor m.calls job.intent
    rw [hr, hnext] at hcases
    rcases hcases with ⟨s, -, hs⟩ | ⟨-, hcalls | ⟨code, hcalls⟩ | hcalls⟩
    · cases hs
    · exact ⟨c, by simpa [lastControl, hcalls] using hc, hlast⟩
    · exact ⟨c, by simpa [lastControl, hcalls, Call.controls] using hc, hlast⟩
    · exact ⟨⟨.doStop, .success⟩, by simp [lastControl, hcalls, Call.controls], by simp⟩
  | some s =>
    obtain ⟨hstate, hcalls⟩ :
        (proceed executor { m with lastIntent := job.intent } r).1.curState = s ∧ _ :=
      proceed_enters hnext
    simp only [hstate] at hrecording
    subst hrecording
    have hne : m.curState ≠ .recording := by
      intro hsame
      rw [hsame] at hr
      have hcases := execute_recording executor m.calls job.intent
      rw [hr, hnext] at hcases
      rcases hcases with ⟨s, hs, hsome⟩ | ⟨hnone, -⟩
      · exact hs (Option.some.inj hsome).symm
      · cases hnone
    rw [if_pos (Ne.symm hne)] at hcalls
    simp only [lastControl, hcalls, enter, RecorderExecutor.perform]
    by_cases hresume : job.intent = .resume
    · simp [hresume, Call.controls, Call.starts]
    · simp [hresume, Call.controls, Call.starts]

theorem lastStart_of_lastControl {c : Called} (h : lastControl m = some c)
    (hstarts : c.call.starts = true) : lastStart m = some c := by
  obtain ⟨-, before, after, hcalls, hbefore⟩ := List.find?_eq_some_iff_append.mp h
  refine List.find?_eq_some_iff_append.mpr ⟨hstarts, before, after, hcalls, ?_⟩
  intro b hb
  have hcontrols := hbefore b hb
  cases hcall : b.call <;> simp_all [Call.controls, Call.starts]

theorem Controlled.startedOrStopped (h : Controlled m) : StartedOrStopped m := by
  intro hrecording hsuccess
  obtain ⟨c, hc, hstarts | ⟨hstop, hcode⟩⟩ := h hrecording
  · exact ⟨c, hc, Or.inl hstarts, hsuccess c (lastStart_of_lastControl hc hstarts)⟩
  · exact ⟨c, hc, Or.inr hstop, hcode⟩

-- What the sender is told

theorem notifications_cons {e : Execution} {before after : StateMachine}
    (h : after.executions = e :: before.executions) (job : Job) :
    notifications after job =
      if e.job = job then e.notified.toList ++ notifications before job
      else notifications before job := by
  unfold notifications executionsOf
  rw [h, List.filter_cons]
  by_cases hjob : e.job = job
  · cases hnotified : e.notified <;> simp [hjob, hnotified]
  · simp [hjob]

theorem told_self (hnew : job ∉ m.pendingJobs) (hnone : notifications m job = []) :
    Told (pendIf (processIntent executor m job) job) job := by
  obtain ⟨e, hexecutions, hjob, hcases⟩ := processIntent_told executor m job
  have hnotifications := notifications_cons hexecutions job
  rw [if_pos hjob, hnone, List.append_nil] at hnotifications
  rcases hcases with ⟨hpending, hstart, -, -, hnotified⟩ | ⟨hdone, hnotified⟩
  · refine Or.inl ?_
    rw [hnotified] at hnotifications
    simp only [pendIf, if_pos hpending]
    refine ⟨?_, hstart, ?_⟩
    · simp [pend]
    · exact hnotifications
  · refine Or.inr ?_
    rw [hnotified] at hnotifications
    simp only [pendIf, if_neg hdone]
    refine ⟨?_, e, ?_, ?_⟩
    · rw [processIntent_pendingJobs]
      exact hnew
    · simp [executionsOf, hexecutions, hjob]
    · exact hnotifications

theorem told_other {other : Job} (h : Told m other) (hne : job ≠ other) :
    Told (pendIf (processIntent executor m job) job) other := by
  obtain ⟨e, hexecutions, hjob, -⟩ := processIntent_told executor m job
  have hnotifications := notifications_cons hexecutions other
  rw [if_neg (by rw [hjob]; exact hne)] at hnotifications
  have hof : executionsOf (processIntent executor m job).1 other = executionsOf m other := by
    simp [executionsOf, hexecutions, hjob, hne]
  unfold pendIf
  split
  · rcases h with ⟨hmem, hstart, hnone⟩ | ⟨hmem, e', he', hnone⟩
    · exact Or.inl ⟨by simp [pend, hmem], hstart, hnotifications.trans hnone⟩
    · refine Or.inr ⟨by simp [pend, hmem, hne.symm], e', ?_, hnotifications.trans hnone⟩
      exact hof.symm ▸ he'
  · rcases h with ⟨hmem, hstart, hnone⟩ | ⟨hmem, e', he', hnone⟩
    · exact Or.inl ⟨by simp [hmem], hstart, hnotifications.trans hnone⟩
    · refine Or.inr ⟨by simp [hmem], e', ?_, hnotifications.trans hnone⟩
      exact hof.symm ▸ he'

structure Jobs (m : StateMachine) : Prop where
  nodup : m.pendingJobs.Nodup
  pending : ∀ job ∈ m.pendingJobs, job.id < m.taken
  executed : ∀ e ∈ m.executions, e.job.id < m.taken

theorem Jobs.pendIf (h : Jobs m) (hid : job.id < m.taken) (hnew : job ∉ m.pendingJobs) :
    Jobs (pendIf (processIntent executor m job) job) := by
  obtain ⟨e, hexecutions, hjob, -⟩ := processIntent_told executor m job
  have hexecuted : ∀ e ∈ (processIntent executor m job).1.executions, e.job.id < m.taken := by
    intro e' he'
    rw [hexecutions] at he'
    rcases List.mem_cons.mp he' with rfl | he'
    · rw [hjob]
      exact hid
    · exact h.executed e' he'
  unfold Recorder.pendIf
  split
  · refine ⟨?_, ?_, ?_⟩
    · simpa [pend, List.nodup_append, h.nodup] using fun a ha => ne_of_mem_of_not_mem ha hnew
    · intro other hmem
      simp only [pend, processIntent_pendingJobs, List.mem_append, List.mem_singleton] at hmem
      rcases hmem with hmem | rfl
      · simpa [pend] using h.pending other hmem
      · simpa [pend] using hid
    · intro e' he'
      simpa [pend] using hexecuted e' he'
  · refine ⟨?_, ?_, ?_⟩
    · rw [processIntent_pendingJobs]
      exact h.nodup
    · intro other hmem
      rw [processIntent_pendingJobs] at hmem
      rw [processIntent_taken]
      exact h.pending other hmem
    · intro e' he'
      rw [processIntent_taken]
      exact hexecuted e' he'

-- A DoTask

/-- The transitions after which a pending job is tried again. -/
def Action.retries : Action → Bool
  | .transToInit | .transToRecordingSetting | .transToReady | .transToRecording | .transToPause =>
    true
  | .transToError | .actionPending | .actionButt => false

theorem doTask_eq (executor : RecorderExecutor) (m : StateMachine) (intent : Intent) :
    doTask executor m intent =
      let ret := processIntent executor { m with taken := m.taken + 1 } ⟨m.taken, intent⟩
      if ret.2.retries then retry executor (pendIf ret ⟨m.taken, intent⟩)
      else pendIf ret ⟨m.taken, intent⟩ := by
  unfold doTask pendIf
  dsimp only
  generalize processIntent executor { m with taken := m.taken + 1 } ⟨m.taken, intent⟩ = ret
  obtain ⟨m₁, action⟩ := ret
  cases action <;> simp [Action.retries]

theorem doTask_keeps {P : StateMachine → Prop} {intent : Intent}
    (hjob : P (pendIf (processIntent executor { m with taken := m.taken + 1 } ⟨m.taken, intent⟩)
      ⟨m.taken, intent⟩))
    (hretry : ∀ m, P m → P (retry executor m)) : P (doTask executor m intent) := by
  rw [doTask_eq]
  dsimp only
  split
  · exact hretry _ hjob
  · exact hjob

theorem Controlled.pendIf (h : Controlled m) (executor : RecorderExecutor) (job : Job) :
    Controlled (pendIf (Recorder.processIntent executor m job) job) := by
  unfold Recorder.pendIf
  split
  · exact h.processIntent executor job
  · exact h.processIntent executor job

theorem Controlled.retry (h : Controlled m) (executor : RecorderExecutor) :
    Controlled (retry executor m) := by
  unfold Recorder.retry
  split
  · exact h
  · rename_i job rest _
    exact Controlled.pendIf (m := { m with pendingJobs := rest }) h executor job

@[simp] theorem pendIf_taken :
    (pendIf (processIntent executor m job) job).taken = m.taken := by
  unfold pendIf
  split <;> simp [pend]

@[simp] theorem retry_taken : (retry executor m).taken = m.taken := by
  unfold retry
  split <;> simp

theorem Jobs.retry (h : Jobs m) : Jobs (retry executor m) := by
  unfold Recorder.retry
  split
  · exact h
  · rename_i job rest hpending
    have hnodup := h.nodup
    have hids := h.pending
    rw [hpending] at hnodup hids
    have hrest : Jobs { m with pendingJobs := rest } :=
      ⟨(List.nodup_cons.mp hnodup).2, fun other hmem => hids other (List.mem_cons_of_mem _ hmem),
        h.executed⟩
    exact hrest.pendIf (hids job List.mem_cons_self) (List.nodup_cons.mp hnodup).1

theorem told_retry {other : Job} (hjobs : Jobs m) (h : Told m other) :
    Told (retry executor m) other := by
  unfold retry
  split
  · exact h
  · rename_i job rest hpending
    have hnodup := hjobs.nodup
    rw [hpending] at hnodup
    by_cases hsame : job = other
    · subst hsame
      rcases h with ⟨-, -, hnone⟩ | ⟨hmem, -⟩
      · exact told_self (List.nodup_cons.mp hnodup).1 hnone
      · exact absurd (hpending ▸ List.mem_cons_self) hmem
    · refine told_other ?_ hsame
      unfold Told at h ⊢
      rw [hpending] at h
      simpa [notifications, executionsOf, Ne.symm hsame] using h

structure Taken (intents : List Intent) (m : StateMachine) : Prop where
  controlled : Controlled m
  taken : m.taken = intents.length
  jobs : Jobs m
  told : ∀ i intent, intents[i]? = some intent → Told m ⟨i, intent⟩

variable {intents : List Intent}

theorem Taken.retry (h : Taken intents m) (executor : RecorderExecutor) :
    Taken intents (retry executor m) := by
  refine ⟨h.controlled.retry executor, retry_taken.trans h.taken, h.jobs.retry, ?_⟩
  intro i intent hi
  exact told_retry h.jobs (h.told i intent hi)

/-- The next job has a number that no one has had before it. -/
theorem Taken.next (h : Taken intents m) (executor : RecorderExecutor) (intent : Intent) :
    Taken (intents ++ [intent])
      (pendIf (processIntent executor { m with taken := m.taken + 1 } ⟨m.taken, intent⟩)
        ⟨m.taken, intent⟩) := by
  have hjobs : Jobs { m with taken := m.taken + 1 } := by
    refine ⟨h.jobs.nodup, ?_, ?_⟩
    · intro job hmem
      exact (h.jobs.pending job hmem).trans (Nat.lt_succ_self _)
    · intro e he
      exact (h.jobs.executed e he).trans (Nat.lt_succ_self _)
  have hnew : (⟨m.taken, intent⟩ : Job) ∉ m.pendingJobs := by
    intro hmem
    exact Nat.lt_irrefl _ (h.jobs.pending _ hmem)
  have hnone : executionsOf m ⟨m.taken, intent⟩ = [] := by
    refine List.filter_eq_nil_iff.mpr ?_
    intro e he hjob
    have hlt := h.jobs.executed e he
    rw [of_decide_eq_true hjob] at hlt
    exact Nat.lt_irrefl _ hlt
  refine ⟨?_, ?_, ?_, ?_⟩
  · exact Controlled.pendIf (m := { m with taken := m.taken + 1 }) h.controlled executor _
  · simp [h.taken]
  · exact hjobs.pendIf (Nat.lt_succ_self _) hnew
  · intro i other hi
    by_cases hlast : i < intents.length
    · rw [List.getElem?_append_left hlast] at hi
      refine told_other (m := { m with taken := m.taken + 1 }) (h.told i other hi) ?_
      intro hsame
      injection hsame with hid
      have htaken := h.taken
      omega
    · obtain ⟨rfl, rfl⟩ : i = intents.length ∧ other = intent := by
        rw [List.getElem?_append_right (by omega)] at hi
        have hlt := (List.getElem?_eq_some_iff.mp hi).1
        simp only [List.length_singleton] at hlt
        have hzero : i - intents.length = 0 := by omega
        simp only [hzero, List.getElem?_cons_zero, Option.some.injEq] at hi
        exact ⟨by omega, hi.symm⟩
      rw [← h.taken]
      have hnotifications : notifications m ⟨m.taken, other⟩ = [] := by
        rw [notifications, hnone]
        rfl
      exact told_self hnew hnotifications

theorem Taken.doTask (h : Taken intents m) (executor : RecorderExecutor) (intent : Intent) :
    Taken (intents ++ [intent]) (doTask executor m intent) := by
  refine doTask_keeps (h.next executor intent) ?_
  intro m h
  exact h.retry executor

theorem machineAfter_append (executor : RecorderExecutor) (intents : List Intent)
    (intent : Intent) : machineAfter executor (intents ++ [intent]) =
      Recorder.doTask executor (machineAfter executor intents) intent := by
  simp [machineAfter]

theorem taken_machineAfter (executor : RecorderExecutor) (intents : List Intent) :
    Taken intents (machineAfter executor intents) := by
  induction intents using List.reverseRecOn with
  | nil =>
    refine ⟨?_, rfl, ⟨List.nodup_nil, by simp [machineAfter], by simp [machineAfter]⟩, by simp⟩
    intro hrecording
    cases hrecording
  | append_singleton intents intent ih =>
    rw [machineAfter_append]
    exact ih.doTask executor intent

-- The pending jobs

theorem pendIf_pendingJobs : (pendIf (processIntent executor m job) job).pendingJobs =
    if (processIntent executor m job).2 = .actionPending then m.pendingJobs ++ [job]
    else m.pendingJobs := by
  unfold pendIf
  split <;> simp [pend]

theorem pending_setting (h : (processIntent executor m job).2 = .actionPending) :
    job.intent = .start ∧ m.curState = .recordingSetting ∧
      (processIntent executor m job).1.curState = .recordingSetting := by
  obtain ⟨e, -, -, ⟨-, hstart, hstate, hcur, -⟩ | ⟨hdone, -⟩⟩ := processIntent_told executor m job
  · exact ⟨hstart, hstate, hcur⟩
  · exact absurd h hdone

theorem retried (executor : RecorderExecutor) (m : StateMachine) (intent : Intent) :
    Retried executor m intent := by
  intro job rest hstate hpending hleft
  have hframe : (executed executor m intent).pendingJobs = job :: rest :=
    processIntent_pendingJobs.trans hpending
  have hdoTask : doTask executor m intent = retry executor (executed executor m intent) := by
    have hcases := processIntent_setting (m := { m with taken := m.taken + 1 }) executor
      ⟨m.taken, intent⟩ hstate
    rw [doTask_eq]
    unfold executed at hleft ⊢
    rcases hcases with hcur | hcur | ⟨-, haction⟩ | ⟨-, haction⟩
    · simp [hcur] at hleft
    · simp [hcur] at hleft
    · simp [pendIf, haction, Action.retries]
    · simp [pendIf, haction, Action.retries]
  have hgone : (executed executor m intent).curState ≠ .recordingSetting := by
    rcases hleft with hcur | hcur <;> simp [hcur]
  rw [hdoTask]
  generalize executed executor m intent = m₁ at hframe hgone
  obtain ⟨e, hexecutions, hjob, -⟩ :=
    processIntent_told executor { m₁ with pendingJobs := rest } job
  have hdone : (processIntent executor { m₁ with pendingJobs := rest } job).2 ≠ .actionPending := by
    intro h
    exact hgone (pending_setting h).2.1
  have hretry : retry executor m₁ =
      (processIntent executor { m₁ with pendingJobs := rest } job).1 := by
    simp [retry, hframe, pendIf, hdone]
  rw [hretry]
  exact ⟨by simp, e, hexecutions, hjob⟩

def OnePending (m : StateMachine) : Prop :=
  m.pendingJobs ≠ [] → m.curState = .recordingSetting ∧ ∃ job, m.pendingJobs = [job]

theorem onePending_pendIf (h : m.pendingJobs = []) :
    OnePending (pendIf (processIntent executor m job) job) := by
  intro hne
  rw [pendIf_pendingJobs, h] at hne ⊢
  split at hne
  · rename_i hpending
    refine ⟨?_, job, ?_⟩
    · simp only [pendIf, if_pos hpending]
      exact (pending_setting hpending).2.2
    · rw [if_pos hpending]
      rfl
  · exact absurd rfl hne

theorem onePending_retry (h : m.pendingJobs = [] ∨ ∃ job, m.pendingJobs = [job]) :
    OnePending (retry executor m) := by
  rcases h with hnil | ⟨job, hone⟩
  · intro hne
    simp [retry, hnil] at hne
  · simp only [retry, hone]
    exact onePending_pendIf rfl

theorem OnePending.doTask {intent : Intent} (h : OnePending m)
    (hclear : Clear executor m intent) : OnePending (doTask executor m intent) := by
  rw [doTask_eq]
  dsimp only
  by_cases hnil : m.pendingJobs = []
  · have hnext : OnePending
        (pendIf (processIntent executor { m with taken := m.taken + 1 } ⟨m.taken, intent⟩)
          ⟨m.taken, intent⟩) := onePending_pendIf hnil
    split
    · refine onePending_retry ?_
      by_cases hnone : (pendIf (processIntent executor { m with taken := m.taken + 1 }
          ⟨m.taken, intent⟩) ⟨m.taken, intent⟩).pendingJobs = []
      · exact Or.inl hnone
      · exact Or.inr (hnext hnone).2
    · exact hnext
  · obtain ⟨hstate, hone⟩ := h hnil
    obtain ⟨hstart, herror⟩ := hclear hstate hnil
    have hdone : (processIntent executor { m with taken := m.taken + 1 }
        ⟨m.taken, intent⟩).2 ≠ .actionPending := by
      intro hpending
      exact hstart (pending_setting hpending).1
    simp only [pendIf, if_neg hdone]
    have hcases := processIntent_setting (m := { m with taken := m.taken + 1 }) executor
      ⟨m.taken, intent⟩ hstate
    split
    · exact onePending_retry (Or.inr (by simpa using hone))
    · rename_i hretries
      rcases hcases with hcur | hcur | ⟨-, haction⟩ | ⟨-, haction⟩
      · exact absurd hcur herror
      · exact fun _ => ⟨hcur, by simpa using hone⟩
      · simp [haction, Action.retries] at hretries
      · simp [haction, Action.retries] at hretries

theorem run_step (executor : RecorderExecutor) (intents : List Intent) (m : StateMachine) :
    Runs.run (step executor) m intents = some (intents.foldl (Recorder.doTask executor) m) := by
  induction intents generalizing m with
  | nil => rfl
  | cons intent intents ih => exact ih (Recorder.doTask executor m intent)

/-- **The machine keeps step with the recorder**, after any intents and with any answers of the
executor. -/
theorem keeps_step (executor : RecorderExecutor) (intents : List Intent) :
    KeepsStep executor intents := by
  have htaken := taken_machineAfter executor intents
  refine ⟨htaken.controlled.startedOrStopped, htaken.told, ?_, ?_⟩
  · intro intent
    exact retried executor _ intent
  · intro hclear hpending
    have hone : OnePending (machineAfter executor intents) := by
      refine Runs.run_invariant (I := OnePending) ?_ ?_ hclear (run_step executor intents {})
      · intro m intent m' h hclear hstep
        injection hstep with hm
        exact hm ▸ h.doTask hclear
      · intro hne
        exact absurd rfl hne
    exact (hone hpending).1

end Job

def succeeds : RecorderExecutor := ⟨fun _ _ => .success⟩

/-- After a stop the machine stays in `RECORDING`, where the recorder has not been started last. -/
theorem stopped_not_started :
    ¬ Started (machineAfter succeeds [.setAudioSource, .notifyReady, .start, .stop]) := by
  intro h
  obtain ⟨c, hc, hstarts, -⟩ := h rfl
  have hstop : some ⟨.doStop, .success⟩ = some c := hc
  injection hstop with hstop
  subst hstop
  cases hstarts

end MediaFoundation.Recorder
