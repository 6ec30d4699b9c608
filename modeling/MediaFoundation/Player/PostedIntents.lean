import MediaFoundation.Player.Decisions

/-!
# Posted intents and their answers

The player's task between the two queues of `state_machine.cpp`: the intents
that were posted (`jobs_`) and those that wait for another state
(`pendingJobs_`), with every `ProcessIntent` that the task has made.

Conventions:

* Intents are numbered as they are posted. `SendEvent` posts like
  `SendEventAsync` and then waits.
* `DoTask` is two blocks, so that an intent can be posted between the intent that
  it takes and the pending one that it tries again (`doTask_eq`).
* `jobs_` is active and never full; a full queue only makes a sender wait.
* The machine's own list of pending jobs stays empty, `pendingJobs` has the jobs
  with their numbers.
-/

namespace MediaFoundation.Player

-- The executor

/-- `HiPlayerImpl` as the executor: what its calls come to. The code that stands
for no notification is its own, no filter and no plugin has it. -/
structure HiPlayer where
  isSingleLoop : List Call → Bool
  result : List Call → Call → ErrorCode
  noNotify : ∀ calls call, result calls call ≠ .errorNoNotify

namespace HiPlayer

/-- A seek of the application is answered by `DoSeek` itself. -/
def answer (player : HiPlayer) (calls : List Call) : Call → ErrorCode
  | .doSeek _ _ true => .errorNoNotify
  | call => player.result calls call

def executor (player : HiPlayer) : PlayExecutor where
  isSingleLoop := player.isSingleLoop
  answer := player.answer

def notify : Call → Option (Intent × ErrorCode)
  | .doSeek _ _ true => some (.seek, .success)
  | _ => none

end HiPlayer

-- The two queues

structure Posted where
  id : Nat
  job : Job
deriving DecidableEq

structure Execution where
  posted : Posted
  before : StateMachine
  after : StateMachine
  /-- What the job returned. -/
  action : Action
  /-- Whether it was taken from the pending ones. -/
  retry : Bool

structure Fsm where
  machine : StateMachine := {}
  jobs : List Posted := []
  pendingJobs : List Posted := []
  /-- `DoTask` is about to try a pending job. -/
  owed : Bool := false
  posted : List Posted := []
  /-- The last one first. -/
  executions : List Execution := []

inductive Label where
  | post (job : Job)
  | take
  | retry

namespace Fsm

/-- `SendEventAsync`. -/
def post (s : Fsm) (job : Job) : Fsm :=
  { s with
    jobs := s.jobs ++ [⟨s.posted.length, job⟩]
    posted := s.posted ++ [⟨s.posted.length, job⟩] }

section Task

variable (executor : PlayExecutor) (fuel : Nat)

def run (s : Fsm) (p : Posted) (retry : Bool) : Option Fsm :=
  (s.machine.processIntent executor fuel p.job.intent p.job.param).map fun (machine, action) =>
    { s with
      machine
      executions := ⟨p, s.machine, machine, action, retry⟩ :: s.executions }

def action (s : Fsm) : Action :=
  match s.executions with
  | [] => .actionButt
  | e :: _ => e.action

/-- `DoTask` up to the switch over the action, and its first cases. -/
def take (s : Fsm) : Option Fsm :=
  match s.owed, s.jobs with
  | false, p :: jobs =>
    (run executor fuel { s with jobs } p false).map fun s =>
      match s.action with
      | .actionPending => { s with pendingJobs := s.pendingJobs ++ [p] }
      | .actionButt => s
      | _ => { s with owed := !s.pendingJobs.isEmpty }
  | _, _ => none

/-- The case of a transition. -/
def retry (s : Fsm) : Option Fsm :=
  match s.owed, s.pendingJobs with
  | true, p :: pendingJobs =>
    (run executor fuel { s with pendingJobs, owed := false } p true).map fun s =>
      match s.action with
      | .actionPending => { s with pendingJobs := s.pendingJobs ++ [p] }
      | _ => s
  | _, _ => none

def step (s : Fsm) : Label → Option Fsm
  | .post job => some (s.post job)
  | .take => s.take executor fuel
  | .retry => s.retry executor fuel

end Task

end Fsm

namespace StateMachine

variable {executor : PlayExecutor}

theorem transitioned_eq (m : StateMachine) (state : StateId) :
    m.transitioned executor state =
      { m with
        curState := state
        calls := (enter executor m.calls state m.lastIntent).calls
        events := m.events ++ .entered state (enter executor m.calls state m.lastIntent).code
          (enter executor m.calls state m.lastIntent).action :: m.changes state } := by
  unfold transitioned onStateChanged changes returned
  simp only
  split
  · simp [log]
  · rfl

end StateMachine

namespace Fsm

variable {executor : PlayExecutor} {fuel : Nat}

theorem exists_processIntent (executor : PlayExecutor) (fuel : Nat) (m : StateMachine) (job : Job) :
    ∃ after action,
      m.processIntent executor (fuel + 1) job.intent job.param = some (after, action) :=
  ⟨_, _, StateMachine.processIntent_eq fuel m job.intent job.param⟩

def taken (s : Fsm) (p : Posted) (jobs : List Posted) (after : StateMachine)
    (action : Action) : Fsm :=
  { s with
    machine := after
    jobs
    pendingJobs := if action = .actionPending then s.pendingJobs ++ [p] else s.pendingJobs
    owed := action.nextState.isSome && !s.pendingJobs.isEmpty
    executions := ⟨p, s.machine, after, action, false⟩ :: s.executions }

def retried (s : Fsm) (p : Posted) (rest : List Posted) (after : StateMachine)
    (action : Action) : Fsm :=
  { s with
    machine := after
    pendingJobs := if action = .actionPending then rest ++ [p] else rest
    owed := false
    executions := ⟨p, s.machine, after, action, true⟩ :: s.executions }

theorem take_eq {s : Fsm} {p : Posted} {jobs : List Posted} {after : StateMachine} {action : Action}
    (howed : s.owed = false) (hjobs : s.jobs = p :: jobs)
    (h : s.machine.processIntent executor fuel p.job.intent p.job.param = some (after, action)) :
    s.take executor fuel = some (s.taken p jobs after action) := by
  unfold take
  rw [howed, hjobs]
  simp only [run, h, Option.map_some, Fsm.action, taken]
  cases action with
  | actionPending | actionButt => simp [Action.nextState]
  | _ => simp [Action.nextState]

theorem retry_eq {s : Fsm} {p : Posted} {rest : List Posted} {after : StateMachine}
    {action : Action}
    (howed : s.owed = true) (hpending : s.pendingJobs = p :: rest)
    (h : s.machine.processIntent executor fuel p.job.intent p.job.param = some (after, action)) :
    s.retry executor fuel = some (s.retried p rest after action) := by
  unfold retry
  rw [howed, hpending]
  simp only [run, h, Option.map_some, Fsm.action, retried]
  cases action with
  | actionPending => simp
  | _ => rfl

theorem step_cases {s s' : Fsm} {label : Label} (h : s.step executor (fuel + 1) label = some s') :
    (∃ job, label = .post job ∧ s' = s.post job) ∨
      (∃ p jobs after action, label = .take ∧ s.owed = false ∧ s.jobs = p :: jobs ∧
        s.machine.processIntent executor (fuel + 1) p.job.intent p.job.param =
          some (after, action) ∧
        s' = s.taken p jobs after action) ∨
      ∃ p rest after action, label = .retry ∧ s.owed = true ∧ s.pendingJobs = p :: rest ∧
        s.machine.processIntent executor (fuel + 1) p.job.intent p.job.param =
          some (after, action) ∧
        s' = s.retried p rest after action := by
  cases label with
  | post job => exact .inl ⟨job, rfl, (Option.some.inj h).symm⟩
  | take =>
    refine .inr (.inl ?_)
    change s.take executor (fuel + 1) = some s' at h
    cases howed : s.owed with
    | true => simp [take, howed] at h
    | false =>
      cases hjobs : s.jobs with
      | nil => simp [take, hjobs] at h
      | cons p jobs =>
        obtain ⟨after, action, hprocess⟩ := exists_processIntent executor fuel s.machine p.job
        rw [take_eq howed hjobs hprocess] at h
        exact ⟨p, jobs, after, action, rfl, rfl, rfl, hprocess, (Option.some.inj h).symm⟩
  | retry =>
    refine .inr (.inr ?_)
    change s.retry executor (fuel + 1) = some s' at h
    cases howed : s.owed with
    | false => simp [retry, howed] at h
    | true =>
      cases hpending : s.pendingJobs with
      | nil => simp [retry, hpending] at h
      | cons p rest =>
        obtain ⟨after, action, hprocess⟩ := exists_processIntent executor fuel s.machine p.job
        rw [retry_eq howed hpending hprocess] at h
        exact ⟨p, rest, after, action, rfl, rfl, rfl, hprocess, (Option.some.inj h).symm⟩

end Fsm

end MediaFoundation.Player
