import MediaFoundation.Lib.Response
import MediaFoundation.Osal.TaskDue

/-!
# The callers that wait for their jobs

`SubmitJob` and `SubmitJobOnce` with `wait` (`taskInner.cpp`). The caller keeps
the key that its job has been inserted under, and waits on `replyCond_` until
its queue holds that key no more.

`HandleJob` erases the key before it calls the job, so a caller that looks in
between goes away too early; and a later submission may get the key again, so a
caller may wait on for a job that is not its own.

Conventions, beside those of `TaskInner`:

* The callers are not on the pipeline thread.
* `done` records the jobs that have been called and have returned.
* A caller wakes up when it is notified, and whenever it likes.
-/

namespace MediaFoundation.TaskWaits

open TaskInner Response

variable {c : Caller} {i : Nat} {key : Option (Bool × Int)}

/-- How far the thread is with the job that `HandleJob` has called. -/
inductive Stage where
  | called | returned | notified
deriving DecidableEq

inductive Phase where
  /-- The caller is about to take `stateMutex_` and to look at its queue. -/
  | ready
  | blocked
  | returned
deriving DecidableEq

/-- A call with `wait`, from the end of its `InsertJob` on. -/
structure Caller where
  jobId : Nat
  inJobQueue : Bool
  time : Int
  phase : Phase := .ready

structure System where
  task : State
  stage : Stage := .called
  callers : List Caller := []
  done : List Nat := []

def init (nowUs : Nat) (singleLoop : Bool) : System := { task := TaskInner.init nowUs singleLoop }

inductive Label where
  /-- A block of the task, where no caller waits. -/
  | task (e : Event)
  | submitAndWait (delayUs : Int) (inJobQueue : Bool) (dt : Nat)
  /-- The predicate of the `i`-th caller, under `stateMutex_`. -/
  | look (i : Nat)
  | wake (i : Nat)
  | jobReturns
  | notifyAll

-- The steps

def isRunning : Pc → Bool
  | .running _ => true
  | _ => false

/-- A job calls its task before it returns, and `HandleJob` ends after the notification. -/
def allowed (s : System) : Event → Bool
  | .pauseInSelf | .stopInSelf => !isRunning s.task.pc || s.stage == .called
  | .finish _ => !isRunning s.task.pc || s.stage == .notified
  | _ => true

def taskStep (s : System) (e : Event) : Option System :=
  if allowed s e then
    (step s.task e).map fun task =>
      { s with task, stage := if e = .begin then .called else s.stage }
  else none

/-- The key that `InsertJob` returns. -/
def processTime (s : State) (delayUs : Int) (inJobQueue : Bool) : Int :=
  (queue s inJobQueue).freeTime (s.nowUs + max delayUs 0)

def submitAndWait (s : System) (delayUs : Int) (inJobQueue : Bool) (dt : Nat) : Option System :=
  (insertJob s.task delayUs inJobQueue dt).map fun task =>
    { s with
      task
      callers := s.callers ++
        [{ jobId := s.task.nextId, inJobQueue, time := processTime s.task delayUs inJobQueue }] }

def setPhase (s : System) (i : Nat) (c : Caller) (phase : Phase) : System :=
  { s with callers := s.callers.set i { c with phase } }

def look (s : System) (i : Nat) : Option System :=
  match s.callers[i]? with
  | some c =>
    if c.phase ≠ .ready then none
    else if c.time ∈ (queue s.task c.inJobQueue).dues then some (setPhase s i c .blocked)
    else some (setPhase s i c .returned)
  | none => none

def wake (s : System) (i : Nat) : Option System :=
  match s.callers[i]? with
  | some c => if c.phase = .blocked then some (setPhase s i c .ready) else none
  | none => none

def jobReturns (s : System) : Option System :=
  match s.task.pc with
  | .running t =>
    if s.stage = .called ∧ s.task.pending = .none then
      some { s with stage := .returned, done := s.done ++ [t.job.id] }
    else none
  | _ => none

def Caller.notify (c : Caller) : Caller :=
  if c.phase = .blocked then { c with phase := .ready } else c

def notifyAll (s : System) : Option System :=
  if isRunning s.task.pc ∧ s.stage = .returned then
    some { s with stage := .notified, callers := s.callers.map Caller.notify }
  else none

def sysStep (s : System) : Label → Option System
  | .task e => taskStep s e
  | .submitAndWait delayUs inJobQueue dt => submitAndWait s delayUs inJobQueue dt
  | .look i => look s i
  | .wake i => wake s i
  | .jobReturns => jobReturns s
  | .notifyAll => notifyAll s

-- What one block of the task does to the jobs

/-- The job that `HandleJob` has taken and has not notified its callers of. -/
def inHand (s : System) : Option (Nat × Stage) :=
  match s.task.pc with
  | .taken t => some (t.job.id, .called)
  | .running t => if s.stage = .notified then none else some (t.job.id, s.stage)
  | _ => none

def insertedKey (s : State) : Event → Option (Bool × Int)
  | .submitJob delayUs _ => some (true, processTime s delayUs true)
  | .submitJobOnce delayUs _ => some (false, processTime s delayUs false)
  | .submitPriority _ _ => some (false, processTime s 0 false)
  | _ => none

def takenIds (s : State) : List Nat := (takenJobs s).map fun t => t.job.id

/-- What a block does, as far as the callers can tell. -/
inductive Shows (s s' : System) (key : Option (Bool × Int)) : Prop where
  | stay (hqueue : ∀ b, queue s'.task b = queue s.task b)
      (htaken : takenIds s'.task = takenIds s.task) (hhand : inHand s' = inHand s) : Shows s s' key
  | insert (b : Bool) (delayUs : Int) (job : Job)
      (hkey : key = some (b, processTime s.task delayUs b))
      (hself : queue s'.task b = (queue s.task b).add (s.task.nowUs + max delayUs 0) job)
      (hid : job.id = s.task.nextId)
      (hother : queue s'.task (!b) = queue s.task (!b))
      (htaken : takenIds s'.task = takenIds s.task) (hhand : inHand s' = inHand s) : Shows s s' key
  | take (t : Taken) (hhead : (queue s.task t.inJobQueue).head? = some (t.dueUs, t.job))
      (hself : queue s'.task t.inJobQueue = (queue s.task t.inJobQueue).tail)
      (hother : queue s'.task (!t.inJobQueue) = queue s.task (!t.inJobQueue))
      (htaken : takenIds s'.task = takenIds s.task ++ [t.job.id])
      (hbefore : inHand s = none) (hhand : inHand s' = some (t.job.id, .called)) : Shows s s' key

variable {s s' : System}

theorem inHand_congr (hpc : s'.task.pc = s.task.pc) (hstage : s'.stage = s.stage) :
    inHand s' = inHand s := by
  rw [inHand, inHand, hpc, hstage]

theorem takenIds_congr {s s' : State} (h : ledger s' = ledger s) : takenIds s' = takenIds s := by
  have htaken : takenJobs s' = takenJobs s := congrArg Ledger.taken h
  rw [takenIds, takenIds, htaken]

theorem Shows.of_ledger (hledger : ledger s'.task = ledger s.task)
    (hhand : inHand s' = inHand s) : Shows s s' key := by
  refine .stay (fun b => ?_) (takenIds_congr hledger) hhand
  exact congrArg (Ledger.queue · b) hledger

theorem insertJob_does {s s' : State} {delayUs : Int} {b : Bool} {dt : Nat}
    (h : insertJob s delayUs b dt = some s') :
    queue s' b = (queue s b).add (s.nowUs + max delayUs 0) ⟨s.nextId, s.nowUs, delayUs⟩ ∧
      queue s' (!b) = queue s (!b) ∧ takenIds s' = takenIds s ∧ s'.pc = s.pc := by
  have hledger : ledger s' = ledger (inserted s delayUs b dt) := by
    obtain rfl | ⟨rfl, -⟩ := insertJob_cases h
    · exact ledger_updateTop _
    · rfl
  refine ⟨(congrArg (Ledger.queue · b) hledger).trans ?_,
    (congrArg (Ledger.queue · (!b)) hledger).trans ?_,
    (takenIds_congr hledger).trans ?_,
    (insertJob_keeps h).pc⟩
  · cases b <;> rfl
  · cases b <;> rfl
  · cases b <;> rfl

theorem insertJob_shows {task : State} {delayUs : Int} {b : Bool} {dt : Nat}
    (h : insertJob s.task delayUs b dt = some task) (htask : s'.task = task)
    (hstage : s'.stage = s.stage) : Shows s s' (some (b, processTime s.task delayUs b)) := by
  obtain ⟨hself, hother, htaken, hpc⟩ := insertJob_does h
  subst htask
  exact .insert b delayUs _ rfl hself rfl hother htaken (inHand_congr hpc hstage)

theorem handle_shows {task : State} (h : handle s.task = some task) :
    Shows s { s with task } none := by
  have hnone : inHand s = none := by
    obtain ⟨hpc, -⟩ | ⟨hpc, -⟩ := handle_cases h
    · rw [inHand, hpc]
    · rw [inHand, hpc]
  cases handle_moves h with
  | stay hledger =>
    refine .of_ledger hledger ?_
    rw [hnone]
    obtain ⟨-, rfl | rfl⟩ | ⟨hpc, rfl | ⟨e, jobQueue, msgQueue, -, rfl⟩⟩ := handle_cases h
    · rfl
    · rfl
    · rfl
    · -- a job was taken, which the ledger shows
      have htaken := congrArg (fun l : Ledger => l.taken.length) hledger
      simp [ledger, takenJobs, underway, hpc] at htaken
  | insert b delayUs hself hother htaken hnext =>
    obtain ⟨-, rfl | rfl⟩ | ⟨-, rfl | ⟨e, jobQueue, msgQueue, -, rfl⟩⟩ := handle_cases h
    all_goals exact absurd hnext (Nat.succ_ne_self _).symm
  | take t hhead hself hother htaken hnext hseen hstate hfrom =>
    refine .take t hhead hself hother ?_ hnone ?_
    · rw [takenIds, takenIds, htaken, List.map_append]
      rfl
    · obtain ⟨hpc, -⟩ | ⟨hpc, rfl | ⟨e, jobQueue, msgQueue, -, rfl⟩⟩ := handle_cases h
      · rw [hfrom.1] at hpc
        cases hpc
      · simp [takenJobs, underway, hpc] at htaken
      · have hlast : takenAs s.task e = t := by
          simpa [takenJobs, underway, hpc] using htaken
        rw [← hlast]
        rfl

/-- **One block of the task.** -/
theorem taskStep_shows {e : Event} (h : taskStep s e = some s') :
    Shows s s' (insertedKey s.task e) := by
  unfold taskStep at h
  obtain ⟨hallowed, h⟩ := Option.ite_none_right_eq_some.mp h
  obtain ⟨task, hstep, rfl⟩ := Option.map_eq_some_iff.mp h
  have hcall : isCall e = true → e ≠ .begin →
      inHand { s with task, stage := if e = .begin then .called else s.stage } = inHand s := by
    intro he hne
    exact inHand_congr (step_keeps he hstep).pc (if_neg hne)
  cases e with
  | tick dt => exact .of_ledger (Option.some.inj hstep ▸ rfl) (hcall rfl nofun)
  | submitJob delayUs dt | submitJobOnce delayUs dt => exact insertJob_shows hstep rfl rfl
  | clearSingleLoop =>
    cases hstep
    exact .of_ledger rfl rfl
  | submitPriority i dt =>
    obtain ⟨tmpFlag, -, hinsert⟩ := submitPriority_cases hstep
    obtain ⟨hself, hother, htaken, hpc⟩ := insertJob_does hinsert
    exact .insert false 0 _ rfl hself rfl hother htaken (inHand_congr hpc rfl)
  | restoreSingleLoop i =>
    refine .of_ledger (restoreSingleLoop_stays hstep) ?_
    obtain ⟨tmpFlag, -, rfl⟩ := restoreSingleLoop_cases hstep
    rfl
  | start => exact .of_ledger (Option.some.inj hstep ▸ start_stays _) (hcall rfl nofun)
  | pause =>
    obtain ⟨-, heq⟩ := Option.ite_none_right_eq_some.mp hstep
    exact .of_ledger (Option.some.inj heq ▸ pauseAsync_stays _) (hcall rfl nofun)
  | pauseAsync => exact .of_ledger (Option.some.inj hstep ▸ pauseAsync_stays _) (hcall rfl nofun)
  | stop =>
    obtain ⟨-, heq⟩ := Option.ite_none_right_eq_some.mp hstep
    exact .of_ledger (Option.some.inj heq ▸ stopAsync_stays _) (hcall rfl nofun)
  | stopAsync => exact .of_ledger (Option.some.inj hstep ▸ stopAsync_stays _) (hcall rfl nofun)
  | pauseInSelf =>
    obtain ⟨-, heq⟩ := Option.ite_none_right_eq_some.mp hstep
    refine .of_ledger (Option.some.inj heq ▸ ?_) (hcall rfl nofun)
    unfold pauseInSelf
    split
    · rfl
    · rfl
  | stopInSelf =>
    obtain ⟨-, heq⟩ := Option.ite_none_right_eq_some.mp hstep
    exact .of_ledger (Option.some.inj heq ▸ rfl) (hcall rfl nofun)
  | proceed => exact .of_ledger (proceed_stays hstep) (hcall rfl nofun)
  | select =>
    obtain ⟨⟨hpc, -⟩, heq⟩ := Option.ite_none_right_eq_some.mp hstep
    cases heq
    refine .of_ledger ?_ ?_
    · simp [ledger, takenJobs, underway, hpc]
    · simp [inHand, hpc]
  | enter =>
    obtain ⟨hpc, heq⟩ := Option.ite_none_right_eq_some.mp hstep
    cases heq
    refine .of_ledger ?_ ?_
    · simp [ledger, takenJobs, underway, hpc]
    · simp [inHand, hpc]
  | handle => exact handle_shows hstep
  | begin =>
    refine .of_ledger (begin_stays hstep) ?_
    obtain ⟨t, hpc, rfl⟩ := begin_cases hstep
    simp [inHand, hpc]
  | finish nextDelayUs =>
    refine .of_ledger (finish_stays hstep) ?_
    obtain ⟨⟨t, hpc⟩, -, rfl⟩ | ⟨⟨top, hpc⟩, top', rfl⟩ := finish_cases hstep
    · have hstage : s.stage = .notified := by simpa [allowed, isRunning, hpc] using hallowed
      have hidle := (updateTop_keeps { s.task with pc := .idle }).pc
      simp [inHand, hpc, hstage, hidle]
    · simp [inHand, hpc]

theorem Shows.queue_cases (h : Shows s s' key) (b : Bool) :
    queue s'.task b = queue s.task b ∨
    (∃ wanted job, queue s'.task b = (queue s.task b).add wanted job ∧
      key = some (b, (queue s.task b).freeTime wanted)) ∨
    ∃ e, (queue s.task b).head? = some e ∧ queue s'.task b = (queue s.task b).tail ∧
      e.2.id ∈ takenIds s'.task ∧ inHand s' = some (e.2.id, .called) := by
  cases h with
  | stay hqueue _ _ => exact .inl (hqueue b)
  | insert c delayUs job hkey hself hid hother _ _ =>
    by_cases hb : b = c
    · subst hb
      exact .inr (.inl ⟨_, job, hself, hkey⟩)
    · obtain rfl := Bool.eq_not_of_ne hb
      exact .inl hother
  | take t hhead hself hother htaken _ hhand =>
    by_cases hb : b = t.inJobQueue
    · subst hb
      refine .inr (.inr ⟨_, hhead, hself, ?_, hhand⟩)
      rw [htaken]
      exact List.mem_append_right _ (List.mem_singleton_self _)
    · obtain rfl := Bool.eq_not_of_ne hb
      exact .inl hother

theorem Shows.taken_mono (h : Shows s s' key) {id : Nat}
    (hid : id ∈ takenIds s.task) : id ∈ takenIds s'.task := by
  cases h with
  | stay _ htaken _ | insert _ _ _ _ _ _ _ htaken _ => exact htaken ▸ hid
  | take _ _ _ _ htaken _ _ =>
    rw [htaken]
    exact List.mem_append_left _ hid

-- What a run keeps of a caller

def InQueue (s : System) (c : Caller) : Prop :=
  ∃ e ∈ (queue s.task c.inJobQueue).entries, e.1 = c.time ∧ e.2.id = c.jobId

def Gone (s : System) (c : Caller) : Prop :=
  c.time ∉ (queue s.task c.inJobQueue).dues ∧ c.jobId ∈ takenIds s.task

/-- Nobody inserts a job under the key of a caller that has not returned. -/
def Fresh (s : System) (key : Option (Bool × Int)) : Prop :=
  ∀ c ∈ s.callers, c.phase ≠ .returned → key ≠ some (c.inJobQueue, c.time)

/-- No insertion uses a caller's key again, and no caller looks at its queue while the thread
has the caller's job and has not finished it. -/
def Undisturbed (s : System) : Label → Prop
  | .task e => Fresh s (insertedKey s.task e)
  | .submitAndWait delayUs b _ => Fresh s (some (b, processTime s.task delayUs b))
  | .look i => ∀ c ∈ s.callers[i]?, inHand s ≠ some (c.jobId, .called)
  | _ => True

structure Served (s : System) (c : Caller) : Prop where
  returned : c.phase = .returned → c.jobId ∈ s.done
  waits : c.phase ≠ .returned → InQueue s c ∨ Gone s c
  /-- A caller that sleeps will be notified. -/
  blocked : c.phase = .blocked → InQueue s c ∨ ∃ stage, inHand s = some (c.jobId, stage)

/-- The job that has been called and has not returned. -/
def unfinished (s : System) : List Nat :=
  match inHand s with
  | some (id, .called) => [id]
  | _ => []

structure Kept (s : System) : Prop where
  accounts : Accounts (ledger s.task)
  books : takenIds s.task = s.done ++ unfinished s
  callers : ∀ c ∈ s.callers, Served s c

theorem InQueue.mem_dues (h : InQueue s c) :
    c.time ∈ (queue s.task c.inJobQueue).dues := by
  obtain ⟨e, he, htime, -⟩ := h
  exact htime ▸ List.mem_map_of_mem he

theorem Shows.inQueue (h : Shows s s' key)
    (hc : InQueue s c) :
    InQueue s' c ∨ Gone s' c ∧ inHand s' = some (c.jobId, .called) := by
  obtain ⟨e, he, htime, hid⟩ := hc
  obtain hsame | ⟨wanted, job, hadd, -⟩ | ⟨e', hhead, htail, htaken, hhand⟩ :=
    h.queue_cases c.inJobQueue
  · exact .inl ⟨e, hsame ▸ he, htime, hid⟩
  · refine .inl ⟨e, ?_, htime, hid⟩
    rw [hadd]
    exact (DueQueue.entries_add _ _ _).mem_iff.mpr (List.mem_cons_of_mem _ he)
  · rw [DueQueue.entries_of_head? hhead] at he
    rcases List.mem_cons.mp he with rfl | he
    · refine .inr ⟨⟨?_, hid ▸ htaken⟩, hid ▸ hhand⟩
      rw [htail, ← htime]
      exact DueQueue.head?_not_mem_tail hhead
    · exact .inl ⟨e, htail ▸ he, htime, hid⟩

theorem Shows.gone (h : Shows s s' key)
    (hkey : key ≠ some (c.inJobQueue, c.time)) (hc : Gone s c) : Gone s' c := by
  refine ⟨?_, h.taken_mono hc.2⟩
  obtain hsame | ⟨wanted, job, hadd, heq⟩ | ⟨e, -, htail, -, -⟩ := h.queue_cases c.inJobQueue
  · rw [hsame]
    exact hc.1
  · rw [hadd, DueQueue.mem_dues_add, not_or]
    refine ⟨fun htime => hkey ?_, hc.1⟩
    rw [heq, htime]
  · rw [htail]
    exact fun hmem => hc.1 (DueQueue.mem_dues_of_tail hmem)

theorem Shows.served (h : Shows s s' key)
    (hdone : s'.done = s.done) (hkey : c.phase ≠ .returned → key ≠ some (c.inJobQueue, c.time))
    (hc : Served s c) : Served s' c := by
  refine ⟨fun hphase => hdone ▸ hc.returned hphase, fun hphase => ?_, fun hphase => ?_⟩
  · rcases hc.waits hphase with hqueue | hgone
    · exact (h.inQueue hqueue).imp_right And.left
    · exact .inr (h.gone (hkey hphase) hgone)
  · rcases hc.blocked hphase with hqueue | ⟨stage, hhand⟩
    · exact (h.inQueue hqueue).imp_right fun hgone => ⟨_, hgone.2⟩
    · refine .inr ⟨stage, ?_⟩
      cases h with
      | stay _ _ hsame | insert _ _ _ _ _ _ _ _ hsame => exact hsame.trans hhand
      | take _ _ _ _ _ hbefore _ =>
        rw [hbefore] at hhand
        cases hhand

theorem Shows.books (h : Shows s s' key) (hdone : s'.done = s.done)
    (hbooks : takenIds s.task = s.done ++ unfinished s) :
    takenIds s'.task = s'.done ++ unfinished s' := by
  cases h with
  | stay _ htaken hhand => rw [htaken, hdone, hbooks, unfinished, unfinished, hhand]
  | insert _ _ _ _ _ _ _ htaken hhand => rw [htaken, hdone, hbooks, unfinished, unfinished, hhand]
  | take _ _ _ _ htaken hbefore hhand =>
    rw [htaken, hdone, hbooks, unfinished, unfinished, hbefore, hhand, List.append_nil]

-- Every step

theorem kept_task {e : Event} (h : Kept s) (hfresh : Fresh s (insertedKey s.task e))
    (hstep : taskStep s e = some s') : Kept s' := by
  have hshows := taskStep_shows hstep
  unfold taskStep at hstep
  obtain ⟨-, hstep⟩ := Option.ite_none_right_eq_some.mp hstep
  obtain ⟨task, htask, rfl⟩ := Option.map_eq_some_iff.mp hstep
  exact ⟨accounts_step h.accounts htask, hshows.books rfl h.books,
    fun c hc => hshows.served rfl (hfresh c hc) (h.callers c hc)⟩

theorem kept_submit {delayUs : Int} {b : Bool} {dt : Nat} (h : Kept s)
    (hfresh : Fresh s (some (b, processTime s.task delayUs b)))
    (hstep : submitAndWait s delayUs b dt = some s') : Kept s' := by
  obtain ⟨task, htask, rfl⟩ := Option.map_eq_some_iff.mp hstep
  have hshows : Shows s { s with task } (some (b, processTime s.task delayUs b)) :=
    insertJob_shows htask rfl rfl
  have haccounts : Accounts (ledger task) := by
    cases b with
    | true => exact accounts_step (e := .submitJob delayUs dt) h.accounts htask
    | false => exact accounts_step (e := .submitJobOnce delayUs dt) h.accounts htask
  refine ⟨haccounts, hshows.books rfl h.books, fun c hc => ?_⟩
  rcases List.mem_append.mp hc with hc | hc
  · have hserved := hshows.served rfl (hfresh c hc) (h.callers c hc)
    exact ⟨hserved.returned, hserved.waits, hserved.blocked⟩
  · obtain rfl := List.mem_singleton.mp hc
    refine ⟨nofun, fun _ => .inl ?_, nofun⟩
    refine ⟨(_, ⟨s.task.nextId, s.task.nowUs, delayUs⟩), ?_, rfl, rfl⟩
    show _ ∈ (queue task b).entries
    rw [(insertJob_does htask).1]
    exact (DueQueue.entries_add _ _ _).mem_iff.mpr List.mem_cons_self

theorem kept_setPhase {phase : Phase} (h : Kept s)
    (hc : Served s { c with phase }) : Kept (setPhase s i c phase) := by
  refine ⟨h.accounts, h.books, fun c' hc' => ?_⟩
  rcases List.mem_or_eq_of_mem_set hc' with hc' | rfl
  · have hserved := h.callers c' hc'
    exact ⟨hserved.returned, hserved.waits, hserved.blocked⟩
  · exact ⟨hc.returned, hc.waits, hc.blocked⟩

theorem look_cases (h : look s i = some s') :
    ∃ c, s.callers[i]? = some c ∧ c.phase = .ready ∧
      (c.time ∈ (queue s.task c.inJobQueue).dues ∧ s' = setPhase s i c .blocked ∨
        c.time ∉ (queue s.task c.inJobQueue).dues ∧ s' = setPhase s i c .returned) := by
  unfold look at h
  split at h
  next c hc =>
    split at h
    · cases h
    next hready =>
      refine ⟨c, hc, not_not.mp hready, ?_⟩
      split at h
      next hmem => exact .inl ⟨hmem, (Option.some.inj h).symm⟩
      next hmem => exact .inr ⟨hmem, (Option.some.inj h).symm⟩
  next => cases h

/-- A job that has been taken and is not the unfinished one has returned. -/
theorem Kept.mem_done {id : Nat} (h : Kept s) (hid : id ∈ takenIds s.task)
    (hhand : inHand s ≠ some (id, .called)) : id ∈ s.done := by
  rw [h.books] at hid
  refine (List.mem_append.mp hid).resolve_right fun hmem => hhand ?_
  unfold unfinished at hmem
  split at hmem
  next id' heq =>
    obtain rfl := List.mem_singleton.mp hmem
    exact heq
  next => cases hmem

theorem kept_look (h : Kept s)
    (hlook : ∀ c ∈ s.callers[i]?, inHand s ≠ some (c.jobId, .called))
    (hstep : look s i = some s') : Kept s' := by
  obtain ⟨c, hc, hready, ⟨hmem, rfl⟩ | ⟨hmem, rfl⟩⟩ := look_cases hstep
  · have hserved := h.callers c (List.mem_of_getElem? hc)
    have hqueue : InQueue s c := by
      refine (hserved.waits (by rw [hready]; decide)).resolve_right fun hgone => ?_
      exact hgone.1 hmem
    exact kept_setPhase h ⟨nofun, fun _ => .inl hqueue, fun _ => .inl hqueue⟩
  · have hserved := h.callers c (List.mem_of_getElem? hc)
    have hgone : Gone s c := by
      refine (hserved.waits (by rw [hready]; decide)).resolve_left fun hqueue => ?_
      exact hmem hqueue.mem_dues
    have hdone := h.mem_done hgone.2 (hlook c hc)
    exact kept_setPhase h ⟨fun _ => hdone, fun hne => absurd rfl hne, nofun⟩

theorem wake_cases (h : wake s i = some s') :
    ∃ c, s.callers[i]? = some c ∧ c.phase = .blocked ∧ s' = setPhase s i c .ready := by
  unfold wake at h
  split at h
  next c hc =>
    obtain ⟨hblocked, h⟩ := Option.ite_none_right_eq_some.mp h
    exact ⟨c, hc, hblocked, (Option.some.inj h).symm⟩
  next => cases h

theorem kept_wake (h : Kept s) (hstep : wake s i = some s') : Kept s' := by
  obtain ⟨c, hc, hblocked, rfl⟩ := wake_cases hstep
  have hserved := h.callers c (List.mem_of_getElem? hc)
  refine kept_setPhase h ⟨nofun, fun _ => ?_, nofun⟩
  exact hserved.waits (by rw [hblocked]; decide)

theorem jobReturns_cases (h : jobReturns s = some s') :
    ∃ t, s.task.pc = .running t ∧ s.stage = .called ∧
      s' = { s with stage := .returned, done := s.done ++ [t.job.id] } := by
  unfold jobReturns at h
  split at h
  next t hpc =>
    obtain ⟨⟨hstage, -⟩, h⟩ := Option.ite_none_right_eq_some.mp h
    exact ⟨t, hpc, hstage, (Option.some.inj h).symm⟩
  next => cases h

theorem kept_jobReturns (h : Kept s) (hstep : jobReturns s = some s') : Kept s' := by
  obtain ⟨t, hpc, hstage, rfl⟩ := jobReturns_cases hstep
  have hhand : inHand s = some (t.job.id, .called) := by simp [inHand, hpc, hstage]
  have hhand' : inHand { s with stage := .returned, done := s.done ++ [t.job.id] } =
      some (t.job.id, .returned) := by
    simp [inHand, hpc]
  refine ⟨h.accounts, ?_, fun c hc => ?_⟩
  · have hbooks := h.books
    rw [unfinished, hhand] at hbooks
    rw [unfinished, hhand']
    exact hbooks.trans (List.append_nil _).symm
  · have hserved := h.callers c hc
    refine ⟨fun hphase => List.mem_append_left _ (hserved.returned hphase), hserved.waits,
      fun hphase => ?_⟩
    rcases hserved.blocked hphase with hqueue | ⟨stage, hstage⟩
    · exact .inl hqueue
    · rw [hhand] at hstage
      have hid : t.job.id = c.jobId := (Prod.mk.inj (Option.some.inj hstage)).1
      exact .inr ⟨_, hid ▸ hhand'⟩

theorem notifyAll_cases (h : notifyAll s = some s') :
    isRunning s.task.pc = true ∧ s.stage = .returned ∧
      s' = { s with stage := .notified, callers := s.callers.map Caller.notify } := by
  obtain ⟨⟨hrunning, hstage⟩, h⟩ := Option.ite_none_right_eq_some.mp h
  exact ⟨hrunning, hstage, (Option.some.inj h).symm⟩

theorem Served.notify (h : Served s c) : Served s c.notify := by
  unfold Caller.notify
  split
  next hblocked => exact ⟨nofun, fun _ => h.waits (by rw [hblocked]; decide), nofun⟩
  next => exact h

theorem notify_ne_blocked (c : Caller) : c.notify.phase ≠ .blocked := by
  unfold Caller.notify
  split
  · exact nofun
  next hblocked => exact hblocked

theorem kept_notifyAll (h : Kept s) (hstep : notifyAll s = some s') : Kept s' := by
  obtain ⟨hrunning, hstage, rfl⟩ := notifyAll_cases hstep
  refine ⟨h.accounts, ?_, fun c' hc' => ?_⟩
  · refine h.books.trans (congrArg (s.done ++ ·) ?_)
    cases hpc : s.task.pc with
    | running t => simp [unfinished, inHand, hpc, hstage]
    | _ => simp [hpc, isRunning] at hrunning
  · obtain ⟨c, hc, rfl⟩ := List.mem_map.mp hc'
    have hserved := (h.callers c hc).notify
    exact ⟨hserved.returned, hserved.waits, fun hphase => absurd hphase (notify_ne_blocked c)⟩

/-- **Every undisturbed step** keeps what is known of the callers. -/
theorem kept_step {l : Label} (h : Kept s) (hl : Undisturbed s l) (hstep : sysStep s l = some s') :
    Kept s' := by
  cases l with
  | task e => exact kept_task h hl hstep
  | submitAndWait delayUs b dt => exact kept_submit h hl hstep
  | look i => exact kept_look h hl hstep
  | wake i => exact kept_wake h hstep
  | jobReturns => exact kept_jobReturns h hstep
  | notifyAll => exact kept_notifyAll h hstep

theorem kept_init (nowUs : Nat) (singleLoop : Bool) : Kept (init nowUs singleLoop) :=
  ⟨accounts_init nowUs singleLoop, rfl, nofun⟩

-- The callers come back

inductive Helper where
  | thread
  | caller (i : Nat)

def Ready : Helper → System → Prop
  | .thread, s => isRunning s.task.pc = true ∧ s.stage = .returned
  | .caller i, s => ∃ c ∈ s.callers[i]?, c.phase = .ready

def Acts : Helper → System → Label → Prop
  | .thread, _, l => l = .notifyAll
  | .caller i, _, l => l = .look i

def Owed (i : Nat) (s : System) : Prop :=
  Kept s ∧ ∃ c, s.callers[i]? = some c ∧ c.jobId ∈ s.done ∧ c.phase ≠ .returned

def Returned (i : Nat) (s : System) : Prop := ∃ c, s.callers[i]? = some c ∧ c.phase = .returned

def isBlocked (i : Nat) (s : System) : Bool := s.callers[i]?.any fun c => c.phase == .blocked

def rank (i : Nat) (s : System) : Nat := if isBlocked i s then 1 else 0

def helper (i : Nat) (s : System) : Helper := if isBlocked i s then .thread else .caller i

theorem isBlocked_eq (hc : s.callers[i]? = some c) :
    isBlocked i s = decide (c.phase = .blocked) := by
  rw [isBlocked, hc, Option.any_some]
  rfl

theorem Kept.apart {id : Nat} (h : Kept s) (hid : id ∈ s.done) :
    (∀ b, ∀ e ∈ (queue s.task b).entries, e.2.id ≠ id) ∧ inHand s ≠ some (id, .called) := by
  have hnodup : (waitingIds s.task.jobQueue ++ waitingIds s.task.msgQueue ++
      takenIds s.task).Nodup :=
    h.accounts.ids.nodup_iff.mpr List.nodup_range
  have htaken : id ∈ takenIds s.task := by
    rw [h.books]
    exact List.mem_append_left _ hid
  obtain ⟨-, hnodupTaken, hdisjoint⟩ := List.nodup_append'.mp hnodup
  refine ⟨fun b e he heq => ?_, fun hhand => ?_⟩
  · refine hdisjoint ?_ htaken
    have hmem : id ∈ waitingIds (queue s.task b) := heq ▸ List.mem_map_of_mem he
    cases b with
    | true => exact List.mem_append_left _ hmem
    | false => exact List.mem_append_right _ hmem
  · rw [h.books, unfinished, hhand] at hnodupTaken
    exact (List.nodup_append'.mp hnodupTaken).2.2 hid (List.mem_singleton_self id)

theorem Kept.not_inQueue (h : Kept s) (hid : c.jobId ∈ s.done) : ¬ InQueue s c := by
  rintro ⟨e, he, -, heq⟩
  exact (h.apart hid).1 _ e he heq

theorem caller_step {l : Label} (hstep : sysStep s l = some s')
    (hc : s.callers[i]? = some c) :
    (s'.callers[i]? = some c ∧ l ≠ .look i ∧ (l = .notifyAll → c.phase ≠ .blocked)) ∨
    (c.phase = .blocked ∧ s'.callers[i]? = some { c with phase := .ready }) ∨
    (c.phase = .ready ∧ l = .look i ∧ (c.time ∈ (queue s.task c.inJobQueue).dues ∨
      s'.callers[i]? = some { c with phase := .returned })) := by
  have hlt : i < s.callers.length := (List.getElem?_eq_some_iff.mp hc).1
  have hset : ∀ k d phase, s.callers[k]? = some d →
      (setPhase s k d phase).callers[i]? = if k = i then some { c with phase } else some c := by
    intro k d phase hd
    show (s.callers.set k { d with phase })[i]? = _
    rw [List.getElem?_set]
    split
    next hki =>
      subst hki
      rw [if_pos hlt, Option.some.inj (hd.symm.trans hc)]
    next => exact hc
  cases l with
  | task e =>
    refine .inl ⟨?_, nofun, nofun⟩
    obtain ⟨-, hstep⟩ := Option.ite_none_right_eq_some.mp hstep
    obtain ⟨task, -, rfl⟩ := Option.map_eq_some_iff.mp hstep
    exact hc
  | submitAndWait delayUs b dt =>
    refine .inl ⟨?_, nofun, nofun⟩
    obtain ⟨task, -, rfl⟩ := Option.map_eq_some_iff.mp hstep
    exact (List.getElem?_append_left hlt).trans hc
  | look k =>
    obtain ⟨d, hd, hready, hcases⟩ := look_cases hstep
    by_cases hki : k = i
    · subst hki
      obtain rfl := Option.some.inj (hd.symm.trans hc)
      refine .inr (.inr ⟨hready, rfl, ?_⟩)
      obtain ⟨hmem, -⟩ | ⟨-, rfl⟩ := hcases
      · exact .inl hmem
      · refine .inr ?_
        rw [hset k d _ hd, if_pos rfl]
    · refine .inl ⟨?_, fun heq => hki (Label.look.inj heq), nofun⟩
      obtain ⟨-, rfl⟩ | ⟨-, rfl⟩ := hcases
      · rw [hset k d _ hd, if_neg hki]
      · rw [hset k d _ hd, if_neg hki]
  | wake k =>
    obtain ⟨d, hd, hblocked, rfl⟩ := wake_cases hstep
    by_cases hki : k = i
    · subst hki
      obtain rfl := Option.some.inj (hd.symm.trans hc)
      refine .inr (.inl ⟨hblocked, ?_⟩)
      rw [hset k d _ hd, if_pos rfl]
    · refine .inl ⟨?_, nofun, nofun⟩
      rw [hset k d _ hd, if_neg hki]
  | jobReturns =>
    obtain ⟨t, -, -, rfl⟩ := jobReturns_cases hstep
    exact .inl ⟨hc, nofun, nofun⟩
  | notifyAll =>
    obtain ⟨-, -, rfl⟩ := notifyAll_cases hstep
    have hnotify : (s.callers.map Caller.notify)[i]? = some c.notify := by
      rw [List.getElem?_map, hc, Option.map_some]
    by_cases hblocked : c.phase = .blocked
    · refine .inr (.inl ⟨hblocked, ?_⟩)
      rw [Caller.notify, if_pos hblocked] at hnotify
      exact hnotify
    · refine .inl ⟨?_, nofun, fun _ => hblocked⟩
      rw [Caller.notify, if_neg hblocked] at hnotify
      exact hnotify

theorem done_step {l : Label} {id : Nat} (hstep : sysStep s l = some s') (hid : id ∈ s.done) :
    id ∈ s'.done := by
  cases l with
  | task e =>
    obtain ⟨-, hstep⟩ := Option.ite_none_right_eq_some.mp hstep
    obtain ⟨task, -, rfl⟩ := Option.map_eq_some_iff.mp hstep
    exact hid
  | submitAndWait delayUs b dt =>
    obtain ⟨task, -, rfl⟩ := Option.map_eq_some_iff.mp hstep
    exact hid
  | look i =>
    obtain ⟨c, -, -, ⟨-, rfl⟩ | ⟨-, rfl⟩⟩ := look_cases hstep
    · exact hid
    · exact hid
  | wake i =>
    obtain ⟨c, -, -, rfl⟩ := wake_cases hstep
    exact hid
  | jobReturns =>
    obtain ⟨t, -, -, rfl⟩ := jobReturns_cases hstep
    exact List.mem_append_left _ hid
  | notifyAll =>
    obtain ⟨-, -, rfl⟩ := notifyAll_cases hstep
    exact hid

theorem inHand_cases {id : Nat} {stage : Stage} (h : inHand s = some (id, stage)) :
    stage = .called ∨ isRunning s.task.pc = true ∧ s.stage = .returned := by
  unfold inHand at h
  split at h
  next t hpc => exact .inl (Prod.mk.inj (Option.some.inj h)).2.symm
  next t hpc =>
    obtain ⟨hstage, h⟩ := Option.ite_none_left_eq_some.mp h
    have heq : s.stage = stage := (Prod.mk.inj (Option.some.inj h)).2
    cases hcase : s.stage with
    | called => exact .inl (heq ▸ hcase)
    | returned => exact .inr ⟨by rw [hpc]; rfl, rfl⟩
    | notified => exact absurd hcase hstage
  next => cases h

/-- The thread has yet to notify a caller that sleeps though its job has returned. -/
theorem Owed.ready (h : Owed i s) : Ready (helper i s) s := by
  obtain ⟨hkept, c, hc, hdone, hopen⟩ := h
  rw [helper, isBlocked_eq hc]
  by_cases hblocked : c.phase = .blocked
  · rw [if_pos (decide_eq_true hblocked)]
    have hserved := hkept.callers c (List.mem_of_getElem? hc)
    obtain ⟨stage, hhand⟩ := (hserved.blocked hblocked).resolve_left (hkept.not_inQueue hdone)
    rcases inHand_cases hhand with rfl | hreturned
    · exact absurd hhand (hkept.apart hdone).2
    · exact hreturned
  · rw [if_neg (by rw [decide_eq_true_iff]; exact hblocked)]
    refine ⟨c, hc, ?_⟩
    cases heq : c.phase with
    | ready => rfl
    | blocked => exact absurd heq hblocked
    | returned => exact absurd heq hopen

theorem Owed.step {l : Label} (h : Owed i s) (hl : Undisturbed s l)
    (hstep : sysStep s l = some s') :
    Returned i s' ∨ Owed i s' ∧ (rank i s' < rank i s ∨
      rank i s' = rank i s ∧ helper i s' = helper i s ∧ ¬ Acts (helper i s) s l) := by
  obtain ⟨hkept, c, hc, hdone, hopen⟩ := h
  have hkept' := kept_step hkept hl hstep
  have hdone' := done_step hstep hdone
  have hbefore := isBlocked_eq hc
  obtain ⟨hc', hlook, hnotify⟩ | ⟨hblocked, hc'⟩ | ⟨hready, -, hmem | hc'⟩ := caller_step hstep hc
  · have hsame : isBlocked i s' = isBlocked i s := by rw [hbefore, isBlocked_eq hc']
    refine .inr ⟨⟨hkept', c, hc', hdone', hopen⟩, .inr ⟨?_, ?_, ?_⟩⟩
    · rw [rank, rank, hsame]
    · rw [helper, helper, hsame]
    · rw [helper, hbefore]
      split
      next hblocked => exact fun heq => hnotify heq (of_decide_eq_true hblocked)
      next => exact hlook
  · refine .inr ⟨⟨hkept', _, hc', hdone', nofun⟩, .inl ?_⟩
    rw [rank, rank, hbefore, isBlocked_eq hc', hblocked]
    exact Nat.zero_lt_one
  · -- the key of a finished job is not in use
    have hserved := hkept.callers c (List.mem_of_getElem? hc)
    have hgone := (hserved.waits hopen).resolve_left (hkept.not_inQueue hdone)
    exact absurd hmem hgone.1
  · exact .inl ⟨_, hc', rfl⟩

theorem owed_descent (i : Nat) :
    Descent sysStep Undisturbed Ready Acts (Owed i) (Returned i) (rank i) (helper i) :=
  ⟨fun _ h => h.ready, fun _ _ _ h hl hstep => h.step hl hstep⟩

theorem endless_kept {r : Endless sysStep} (h : Kept (r.state 0))
    (hundisturbed : ∀ i, Undisturbed (r.state i) (r.label i)) (i : Nat) : Kept (r.state i) := by
  induction i with
  | zero => exact h
  | succ i ih => exact kept_step ih (hundisturbed i) (r.steps i)

def ReturnsAfter (s : System) : Prop := ∀ c ∈ s.callers, c.phase = .returned → c.jobId ∈ s.done

instance (s : System) : Decidable (ReturnsAfter s) := by unfold ReturnsAfter; infer_instance

def ReturnsThen (r : Endless sysStep) : Prop :=
  ∀ k i c, (r.state k).callers[i]? = some c → c.jobId ∈ (r.state k).done →
    ∃ j ≥ k, Returned i (r.state j)

/-- **A caller that waits returns after its own job**, and does return, in the runs in which
nobody looks for a job that the thread is about to call, or uses a key again too early. -/
theorem waits_right (nowUs : Nat) (singleLoop : Bool) :
    (∀ labels s, Runs.Along sysStep Undisturbed (init nowUs singleLoop) labels →
      Runs.run sysStep (init nowUs singleLoop) labels = some s → ReturnsAfter s) ∧
    ∀ r : Endless sysStep, r.state 0 = init nowUs singleLoop →
      (∀ i, Undisturbed (r.state i) (r.label i)) → Fair Ready Acts r → ReturnsThen r := by
  refine ⟨fun labels s halong hrun c hc => ?_, fun r hinit hundisturbed hfair k i c hc hdone => ?_⟩
  · have hkept : Kept s :=
      Runs.run_invariant (fun _ _ _ h hl hstep => kept_step h hl hstep)
        (kept_init nowUs singleLoop) halong hrun
    exact (hkept.callers c hc).returned
  · have hkept := endless_kept (hinit ▸ kept_init nowUs singleLoop) hundisturbed k
    by_cases hphase : c.phase = .returned
    · exact ⟨k, Nat.le_refl k, c, hc, hphase⟩
    · exact (owed_descent i).responds hfair hundisturbed k ⟨hkept, c, hc, hdone, hphase⟩

-- Runs

instance (s : System) (key : Option (Bool × Int)) : Decidable (Fresh s key) := by
  unfold Fresh
  infer_instance

instance : ∀ (s : System) (l : Label), Decidable (Undisturbed s l)
  | s, .task e => inferInstanceAs (Decidable (Fresh s (insertedKey s.task e)))
  | s, .submitAndWait delayUs b _ =>
    inferInstanceAs (Decidable (Fresh s (some (b, processTime s.task delayUs b))))
  | s, .look i =>
    inferInstanceAs (Decidable (∀ c ∈ s.callers[i]?, inHand s ≠ some (c.jobId, .called)))
  | _, .wake _ | _, .jobReturns | _, .notifyAll => isTrue trivial

/-- Nobody has anything to do for a caller. -/
def Quiet (s : System) : Prop :=
  (isRunning s.task.pc = false ∨ s.stage ≠ .returned) ∧ ∀ c ∈ s.callers, c.phase ≠ .ready

instance (s : System) : Decidable (Quiet s) := by unfold Quiet; infer_instance

theorem Quiet.not_ready (h : Quiet s) (t : Helper) : ¬ Ready t s := by
  cases t with
  | thread =>
    rintro ⟨hrunning, hstage⟩
    rcases h.1 with hnot | hnot
    · rw [hnot] at hrunning
      cases hrunning
    · exact hnot hstage
  | caller i =>
    rintro ⟨c, hc, hready⟩
    exact h.2 c (List.mem_of_getElem? hc) hready

def later (s : System) : System := { s with task := { s.task with nowUs := s.task.nowUs + 1 } }

def timePasses (s : System) : Endless sysStep :=
  .iterate later (.task (.tick 1)) (fun _ => rfl) s

theorem timePasses_fair (h : Quiet s) : Fair Ready Acts (timePasses s) :=
  .of_never fun t i => (Endless.iterate_keeps (fun _ h => ⟨h.1, h.2⟩) h i : Quiet _).not_ready t

theorem timePasses_undisturbed (i : Nat) :
    Undisturbed ((timePasses s).state i) ((timePasses s).label i) :=
  fun _ _ _ => nofun

def waitingRun : List Label :=
  [.submitAndWait 0 false 0, .look 0, .task .select, .task .enter, .task .handle, .task .begin,
    .jobReturns, .notifyAll, .look 0, .task (.finish 0)]

theorem waits_right_waitingRun :
    (∃ s, Runs.run sysStep (init 0 false) waitingRun = some s ∧ ReturnsAfter s) ∧
      ∃ r : Endless sysStep, r.state 0 = init 0 false ∧ ReturnsThen r := by
  obtain ⟨hafter, hthen⟩ := waits_right 0 false
  obtain ⟨s, hrun, hquiet⟩ :
      ∃ s, Runs.run sysStep (init 0 false) waitingRun = some s ∧ Quiet s := ⟨_, rfl, by decide⟩
  have halong : Runs.Along sysStep Undisturbed (init 0 false) waitingRun := by decide
  refine ⟨⟨s, hrun, hafter _ s halong hrun⟩, ?_⟩
  obtain ⟨r, hinit, hundisturbed, htail⟩ :=
    exists_prepend (@timePasses_undisturbed s) hrun halong
  exact ⟨r, hinit, hthen r hinit hundisturbed ((timePasses_fair hquiet).of_tail _ htail)⟩

/-- The caller looks before the thread calls the job that it has taken. -/
def earlyLook : List Label :=
  [.submitAndWait 0 false 0, .task .select, .task .enter, .task .handle, .look 0]

/-- A job is submitted under the key of one that is running. The task is paused before its turn. -/
def reusedKey : List Label :=
  [.task .start, .submitAndWait 0 true 0, .task .select, .task .enter, .task .handle, .task .begin,
    .task (.submitJob 0 0), .look 0, .jobReturns, .notifyAll, .look 0, .task .pauseAsync,
    .task (.finish 0)]

def Stranded (s : System) : Prop :=
  ∃ c ∈ s.callers[0]?, c.jobId ∈ s.done ∧ c.phase = .blocked

theorem returns_early_stranded :
    (∃ s, Runs.run sysStep (init 0 false) earlyLook = some s ∧ s.task.executed = [] ∧
      ¬ ReturnsAfter s) ∧
    ∃ r : Endless sysStep, r.state 0 = init 0 false ∧ Fair Ready Acts r ∧ ¬ ReturnsThen r := by
  refine ⟨⟨_, rfl, rfl, by decide⟩, ?_⟩
  obtain ⟨s, hrun, hquiet, hstranded⟩ :
      ∃ s, Runs.run sysStep (init 0 false) reusedKey = some s ∧ Quiet s ∧ Stranded s :=
    ⟨_, rfl, by decide, ⟨_, rfl, by decide, rfl⟩⟩
  have halong : Runs.Along sysStep (fun _ _ => True) (init 0 false) reusedKey :=
    Runs.along_of_forall_mem (fun _ _ _ => trivial) _
  obtain ⟨r, hinit, -, htail⟩ :=
    @exists_prepend _ _ _ _ (timePasses s) (fun _ => trivial) _ _ hrun halong
  refine ⟨r, hinit, (timePasses_fair hquiet).of_tail _ htail, fun hthen => ?_⟩
  have hkeeps : ∀ s, Stranded s → Stranded (later s) := fun _ h => h
  have hlasting : ∀ i, Stranded (r.state (i + reusedKey.length)) := by
    intro i
    rw [(htail i).1]
    exact Endless.iterate_keeps hkeeps hstranded i
  obtain ⟨c, hc, hdone, -⟩ := hlasting 0
  obtain ⟨j, hj, c', hc', hreturned⟩ := hthen _ 0 c hc hdone
  obtain ⟨c'', hc'', -, hblocked⟩ := hlasting (j - reusedKey.length)
  rw [Nat.sub_add_cancel (by omega)] at hc''
  obtain rfl := Option.some.inj (hc''.symm.trans hc')
  rw [hreturned] at hblocked
  cases hblocked

end MediaFoundation.TaskWaits
