import MediaFoundation.Osal.TaskDue

/-!
# TaskThread

The loop of a pipeline thread (`PipeLineThread::Run`) with one of its tasks, and
the notifications that wake it up (`LockJobState`, `UnLockJobState`). The task
and its events are those of `TaskInner`.

Conventions:

* A call of another thread holds `mutex_` throughout, and notifies the thread
  after it has released it: `notifying` counts the notifications under way. A
  call from a job on the thread itself takes no lock and notifies nobody.
* Of the other tasks the loop sees the due times that `NextJobUs` returns. They
  are arguments of the look.
* `WaitFor` counts from the time that the loop has read.
* The task stays in `taskList_`.
-/

namespace MediaFoundation.TaskThread

open TaskInner

variable {e : Event}

def int64Max : Int := 2 ^ 63 - 1

def usPerMs : Int := 1000

inductive Place where
  /-- In its loop, or in `HandleJob` of the task. -/
  | awake
  /-- In `Wait` or in `WaitFor`, until a time if it is the latter. -/
  | waiting (untilUs : Option Int)
  /-- In a job of another task. -/
  | elsewhere
deriving DecidableEq

structure System where
  task : State
  place : Place := .awake
  notifying : Nat := 0

def init (nowUs : Nat) : System := { task := TaskInner.init nowUs false }

inductive Label where
  | outside (e : Event)
  /-- A call of a job on the thread. -/
  | inSelf (e : Event)
  | notifyAll
  | look (before after : List Int)
  /-- The job of another task ends. -/
  | back
  | wake
  /-- `HandleJob`. -/
  | thread (e : Event)

-- The loop of Run

def nextTaskFrom : List Int → Nat → Int × Option Nat → Int × Option Nat
  | [], _, next => next
  | taskJobUs :: rest, i, next =>
    if taskJobUs = -1 then nextTaskFrom rest (i + 1) next
    else if taskJobUs < next.1 then nextTaskFrom rest (i + 1) (taskJobUs, some i)
    else nextTaskFrom rest (i + 1) next

def nextTask (jobsUs : List Int) : Int × Option Nat := nextTaskFrom jobsUs 0 (int64Max, none)

def look (s : System) (before after : List Int) : Option System :=
  if s.task.pc = .idle ∧ s.task.pending = .none ∧ s.place = .awake then
    match nextTask (before ++ s.task.topProcessUs :: after) with
    | (_, none) => some { s with place := .waiting none }
    | (nextJobUs, some i) =>
      if nextJobUs > s.task.nowUs + adjustUs then
        let timeoutMs := (nextJobUs - s.task.nowUs + adjustUs) / usPerMs
        some { s with place := .waiting (some (s.task.nowUs + timeoutMs * usPerMs)) }
      else if i = before.length then (select s.task).map fun task => { s with task }
      else some { s with place := .elsewhere }
  else none

-- The calls

def outsideCall : Event → Bool
  | .tick _ | .submitJob _ _ | .submitJobOnce _ _ => true
  | .clearSingleLoop | .submitPriority _ _ | .restoreSingleLoop _ => true
  | .start | .pause | .pauseAsync | .stop | .stopAsync => true
  | _ => false

def selfCall : Event → Bool
  | .submitJob _ _ | .submitJobOnce _ _ => true
  | .clearSingleLoop | .submitPriority _ _ | .restoreSingleLoop _ => true
  | .start | .pauseInSelf | .stopInSelf | .proceed => true
  | _ => false

def handling : Event → Bool
  | .enter | .handle | .begin | .finish _ => true
  | _ => false

/-- What `UnLockJobState` is called with. -/
def notifyChange (s s' : State) : Event → Bool
  | .submitJob _ _ | .submitJobOnce _ _ | .submitPriority _ _ => s.topProcessUs != s'.topProcessUs
  | .start => true
  | .pause | .pauseAsync | .stop | .stopAsync => s.runningState != s'.runningState
  | _ => false

def isRunning : Pc → Bool
  | .running _ => true
  | _ => false

def inJob (s : System) : Bool := isRunning s.task.pc || s.place == .elsewhere

def isWaiting : Place → Bool
  | .waiting _ => true
  | _ => false

def outside (s : System) (e : Event) : Option System :=
  if outsideCall e then
    (step s.task e).map fun task =>
      { s with task, notifying := s.notifying + (notifyChange s.task task e).toNat }
  else none

def inSelf (s : System) (e : Event) : Option System :=
  if selfCall e ∧ inJob s ∧ (e = .proceed ∨ s.task.pending = .none) then
    (step s.task e).map fun task => { s with task } else none

def notifyAll (s : System) : Option System :=
  if s.notifying = 0 then none
  else some { s with
    notifying := s.notifying - 1
    place := if isWaiting s.place then .awake else s.place }

def back (s : System) : Option System :=
  if s.place = .elsewhere ∧ s.task.pending = .none then some { s with place := .awake } else none

/-- The time is up, or the thread wakes up for no reason. -/
def wake (s : System) : Option System :=
  if isWaiting s.place then some { s with place := .awake } else none

def thread (s : System) (e : Event) : Option System :=
  if handling e then (step s.task e).map fun task => { s with task } else none

def sysStep (s : System) : Label → Option System
  | .outside e => outside s e
  | .inSelf e => inSelf s e
  | .notifyAll => notifyAll s
  | .look before after => look s before after
  | .back => back s
  | .wake => wake s
  | .thread e => thread s e

attribute [local grind =] nextTaskFrom sysStep look

-- The task that the loop picks

theorem nextTaskFrom_append (xs ys : List Int) (i : Nat) (next : Int × Option Nat) :
    nextTaskFrom (xs ++ ys) i next = nextTaskFrom ys (i + xs.length) (nextTaskFrom xs i next) := by
  induction xs generalizing i next with
  | nil => rfl
  | cons t xs ih =>
    have hlength : i + (t :: xs).length = i + 1 + xs.length := by rw [List.length_cons]; omega
    rw [List.cons_append, nextTaskFrom, nextTaskFrom, hlength]
    split
    · exact ih _ _
    · split
      · exact ih _ _
      · exact ih _ _

theorem nextTaskFrom_later {ts : List Int} {next : Int × Option Nat}
    (h : ∀ t ∈ ts, t = -1 ∨ next.1 ≤ t) (i : Nat) : nextTaskFrom ts i next = next := by
  induction ts generalizing i with
  | nil => rfl
  | cons t ts ih =>
    have hrest := ih (fun u hu => h u (List.mem_cons_of_mem _ hu)) (i + 1)
    rw [nextTaskFrom]
    split
    · exact hrest
    next hne =>
      have hle := (h t List.mem_cons_self).resolve_left hne
      rw [if_neg (by omega)]
      exact hrest

theorem nextTaskFrom_cases (ts : List Int) (i : Nat) (next : Int × Option Nat) :
    nextTaskFrom ts i next = next ∨
      ∃ t ∈ ts, t ≠ -1 ∧ t < next.1 ∧ ∃ j, nextTaskFrom ts i next = (t, some j) := by
  induction ts generalizing i next with
  | nil => exact .inl rfl
  | cons t ts ih =>
    rw [nextTaskFrom]
    split
    · refine (ih (i + 1) next).imp_right ?_
      rintro ⟨u, hu, h⟩
      exact ⟨u, List.mem_cons_of_mem _ hu, h⟩
    next hne =>
      split
      next hlt =>
        right
        obtain h | ⟨u, hu, hu', hu'', j, h⟩ := ih (i + 1) (t, some i)
        · exact ⟨t, List.mem_cons_self, hne, hlt, i, h⟩
        · exact ⟨u, List.mem_cons_of_mem _ hu, hu', hu''.trans hlt, j, h⟩
      · refine (ih (i + 1) next).imp_right ?_
        rintro ⟨u, hu, h⟩
        exact ⟨u, List.mem_cons_of_mem _ hu, h⟩

theorem nextTaskFrom_le {ts : List Int} {t : Int} (ht : t ∈ ts) (hne : t ≠ -1) (i : Nat)
    (next : Int × Option Nat) : (nextTaskFrom ts i next).1 ≤ t := by
  induction ts generalizing i next with
  | nil => cases ht
  | cons u ts ih =>
    have hmono : ∀ next', next'.1 ≤ t → (nextTaskFrom ts (i + 1) next').1 ≤ t := by
      intro next' hle
      obtain h | ⟨v, -, -, hv, j, h⟩ := nextTaskFrom_cases ts (i + 1) next'
      · rw [h]
        exact hle
      · rw [h]
        exact hv.le.trans hle
    rw [nextTaskFrom]
    rcases List.mem_cons.mp ht with rfl | ht
    · rw [if_neg hne]
      split
      · exact hmono _ (Int.le_refl _)
      next hle => exact hmono _ (by omega)
    · split
      · exact ih ht _ _
      · split
        · exact ih ht _ _
        · exact ih ht _ _

theorem nextTask_first {before after : List Int} {top : Int} (hne : top ≠ -1)
    (hmax : top < int64Max) (hbefore : ∀ t ∈ before, t = -1 ∨ top < t)
    (hafter : ∀ t ∈ after, t = -1 ∨ top ≤ t) :
    nextTask (before ++ top :: after) = (top, some before.length) := by
  have hlater : top < (nextTaskFrom before 0 (int64Max, none)).1 := by
    obtain h | ⟨t, ht, hdue, -, j, h⟩ := nextTaskFrom_cases before 0 (int64Max, none)
    · rw [h]
      exact hmax
    · rw [h]
      exact (hbefore t ht).resolve_left hdue
  rw [nextTask, nextTaskFrom_append, nextTaskFrom, if_neg hne, if_pos hlater, Nat.zero_add]
  exact nextTaskFrom_later hafter _

-- What the events leave alone

theorem updateTop_pending (s : State) : (updateTop s).pending = s.pending := by
  obtain ⟨top, isJob, heq, -⟩ := updateTop_spec s
  rw [heq]

theorem insertJob_pending {s s' : State} {delayUs : Int} {b : Bool} {dt : Nat}
    (h : insertJob s delayUs b dt = some s') : s'.pending = s.pending := by
  have hinserted := (inserted_fields s delayUs b dt).1
  obtain rfl | ⟨rfl, -⟩ := insertJob_cases h
  · exact (updateTop_pending _).trans hinserted
  · exact hinserted

theorem call_pc {s s' : State} (he : handling e = false) (hselect : e ≠ .select)
    (h : step s e = some s') : s'.pc = s.pc := by
  by_cases hcall : isCall e = true
  · exact (step_keeps hcall h).pc
  cases e with
  | clearSingleLoop => exact Option.some.inj h ▸ rfl
  | submitPriority i dt =>
    obtain ⟨tmpFlag, -, hinsert⟩ := submitPriority_cases h
    exact (insertJob_keeps hinsert).pc
  | restoreSingleLoop i =>
    obtain ⟨tmpFlag, -, rfl⟩ := restoreSingleLoop_cases h
    rfl
  | select => exact absurd rfl hselect
  | enter | handle | begin | finish nextDelayUs => cases he
  | _ => exact absurd rfl hcall

theorem pauseAsync_pending (s : State) : (pauseAsync s).pending = s.pending := by
  unfold pauseAsync
  split
  · rfl
  · rfl

theorem stopAsync_pending (s : State) : (stopAsync s).pending = s.pending := by
  unfold stopAsync
  split
  · rfl
  · rfl

theorem start_pending (s : State) : (start s).pending = s.pending := by
  unfold start
  split
  · rfl
  · exact updateTop_pending _

theorem outside_pending {s s' : State} (he : outsideCall e = true)
    (h : step s e = some s') : s'.pending = s.pending := by
  cases e with
  | tick dt | clearSingleLoop => exact Option.some.inj h ▸ rfl
  | submitJob delayUs dt | submitJobOnce delayUs dt => exact insertJob_pending h
  | submitPriority i dt =>
    obtain ⟨tmpFlag, -, hinsert⟩ := submitPriority_cases h
    exact (insertJob_pending hinsert).trans rfl
  | restoreSingleLoop i =>
    obtain ⟨tmpFlag, -, rfl⟩ := restoreSingleLoop_cases h
    rfl
  | start => exact Option.some.inj h ▸ start_pending s
  | pause =>
    obtain ⟨-, h⟩ := Option.ite_none_right_eq_some.mp h
    exact Option.some.inj h ▸ pauseAsync_pending s
  | pauseAsync => exact Option.some.inj h ▸ pauseAsync_pending s
  | stop =>
    obtain ⟨-, h⟩ := Option.ite_none_right_eq_some.mp h
    exact Option.some.inj h ▸ stopAsync_pending s
  | stopAsync => exact Option.some.inj h ▸ stopAsync_pending s
  | _ => cases he

theorem pauseAsync_quiet {s : State} (h : s.runningState = (pauseAsync s).runningState) :
    pauseAsync s = s := by
  unfold pauseAsync at h ⊢
  split at h
  next hstarted => rw [hstarted] at h; cases h
  next hstarted => exact if_neg hstarted

theorem stopAsync_quiet {s : State} (h : s.runningState = (stopAsync s).runningState) :
    stopAsync s = s := by
  unfold stopAsync at h ⊢
  split at h
  next hstopped => exact if_pos hstopped
  next hstopped => exact absurd h hstopped

theorem top_of_quiet {s s' : State} (he : outsideCall e = true)
    (h : step s e = some s') (hquiet : notifyChange s s' e = false) :
    s'.topProcessUs = s.topProcessUs := by
  have hsame : ∀ x y : Int, (x != y) = false → y = x := by
    intro x y hxy
    exact (bne_eq_false_iff_eq.mp hxy).symm
  cases e with
  | tick dt | clearSingleLoop => exact Option.some.inj h ▸ rfl
  | submitJob delayUs dt | submitJobOnce delayUs dt | submitPriority i dt => exact hsame _ _ hquiet
  | restoreSingleLoop i =>
    obtain ⟨tmpFlag, -, rfl⟩ := restoreSingleLoop_cases h
    rfl
  | start => cases hquiet
  | pause =>
    obtain ⟨-, h⟩ := Option.ite_none_right_eq_some.mp h
    cases h
    rw [pauseAsync_quiet (bne_eq_false_iff_eq.mp hquiet)]
  | pauseAsync =>
    cases h
    rw [pauseAsync_quiet (bne_eq_false_iff_eq.mp hquiet)]
  | stop =>
    obtain ⟨-, h⟩ := Option.ite_none_right_eq_some.mp h
    cases h
    rw [stopAsync_quiet (bne_eq_false_iff_eq.mp hquiet)]
  | stopAsync =>
    cases h
    rw [stopAsync_quiet (bne_eq_false_iff_eq.mp hquiet)]
  | _ => cases he

/-- `HandleJob` makes no calls of its own. -/
theorem thread_pending {s s' : State} (he : handling e = true)
    (h : step s e = some s') : s.pc ≠ .idle ∧ s'.pending = s.pending := by
  cases e with
  | enter =>
    obtain ⟨hpc, h⟩ := Option.ite_none_right_eq_some.mp h
    exact ⟨by rw [hpc]; exact nofun, Option.some.inj h ▸ rfl⟩
  | handle =>
    obtain ⟨hpc, rfl | rfl⟩ | ⟨hpc, rfl | ⟨e, jobQueue, msgQueue, -, rfl⟩⟩ := handle_cases h
    all_goals exact ⟨by rw [hpc]; exact nofun, rfl⟩
  | begin =>
    obtain ⟨t, hpc, rfl⟩ := begin_cases h
    exact ⟨by rw [hpc]; exact nofun, rfl⟩
  | finish nextDelayUs =>
    obtain ⟨⟨t, hpc⟩, -, rfl⟩ | ⟨⟨top, hpc⟩, top', rfl⟩ := finish_cases h
    · exact ⟨by rw [hpc]; exact nofun, updateTop_pending _⟩
    · exact ⟨by rw [hpc]; exact nofun, rfl⟩
  | _ => cases he

-- What a run keeps of the thread

/-- A thread that sleeps is notified, or wakes up when the top is due. -/
def Woken (s : System) : Prop :=
  ∀ untilUs, s.place = .waiting untilUs → s.task.topProcessUs = -1 ∨
    int64Max ≤ s.task.topProcessUs ∨ 0 < s.notifying ∨
    ∃ w, untilUs = some w ∧ w ≤ s.task.topProcessUs + adjustUs

/-- Only an awake thread is in `HandleJob`, and only a job makes calls. -/
structure Placed (s : System) : Prop where
  timed : Timed s.task
  away : s.place ≠ .awake → s.task.pc = .idle
  calling : s.task.pending ≠ .none → inJob s = true
  woken : Woken s

variable {s s' : System}

theorem inJob_iff : inJob s = true ↔ isRunning s.task.pc = true ∨ s.place = .elsewhere := by
  rw [inJob, Bool.or_eq_true, beq_iff_eq]

theorem look_cases {before after : List Int} (h : look s before after = some s') :
    s.task.pc = .idle ∧ s.task.pending = .none ∧ s.place = .awake ∧
      ((s' = { s with place := .waiting none } ∧
          (s.task.topProcessUs = -1 ∨ int64Max ≤ s.task.topProcessUs)) ∨
        (∃ w, s' = { s with place := .waiting (some w) } ∧ s.task.nowUs < w ∧
          (s.task.topProcessUs = -1 ∨ w ≤ s.task.topProcessUs + adjustUs)) ∨
        (∃ task, select s.task = some task ∧ s' = { s with task }) ∨
        s' = { s with place := .elsewhere }) := by
  obtain ⟨⟨hpc, hpending, hplace⟩, h⟩ := Option.ite_none_right_eq_some.mp h
  refine ⟨hpc, hpending, hplace, ?_⟩
  have hleast : s.task.topProcessUs = -1 ∨
      (nextTask (before ++ s.task.topProcessUs :: after)).1 ≤ s.task.topProcessUs := by
    refine or_iff_not_imp_left.mpr fun hne => nextTaskFrom_le ?_ hne 0 _
    exact List.mem_append_right _ List.mem_cons_self
  split at h
  next nextJobUs hnext =>
    refine .inl ⟨(Option.some.inj h).symm, hleast.imp_right fun hle => ?_⟩
    obtain heq | ⟨t, -, -, -, j, heq⟩ :=
      nextTaskFrom_cases (before ++ s.task.topProcessUs :: after) 0 (int64Max, none)
    · rw [nextTask, heq] at hle
      exact hle
    · rw [nextTask, heq] at hnext
      cases hnext
  next nextJobUs i hnext =>
    rw [hnext] at hleast
    right
    split at h
    next hlater =>
      refine .inl ⟨_, (Option.some.inj h).symm, ?_, hleast.imp_right fun hle => ?_⟩
      · unfold usPerMs adjustUs at *
        omega
      · unfold usPerMs adjustUs at *
        omega
    next hdue =>
      split at h
      · obtain ⟨task, htask, rfl⟩ := Option.map_eq_some_iff.mp h
        exact .inr (.inl ⟨task, htask, rfl⟩)
      · exact .inr (.inr (Option.some.inj h).symm)

theorem outside_cases (h : outside s e = some s') :
    outsideCall e = true ∧ ∃ task, step s.task e = some task ∧
      s' = { s with task, notifying := s.notifying + (notifyChange s.task task e).toNat } := by
  obtain ⟨he, h⟩ := Option.ite_none_right_eq_some.mp h
  obtain ⟨task, htask, rfl⟩ := Option.map_eq_some_iff.mp h
  exact ⟨he, task, htask, rfl⟩

theorem inSelf_cases (h : inSelf s e = some s') :
    selfCall e = true ∧ inJob s = true ∧ ∃ task, step s.task e = some task ∧
      s' = { s with task } := by
  obtain ⟨⟨he, hjob, -⟩, h⟩ := Option.ite_none_right_eq_some.mp h
  obtain ⟨task, htask, rfl⟩ := Option.map_eq_some_iff.mp h
  exact ⟨he, hjob, task, htask, rfl⟩

theorem thread_cases (h : thread s e = some s') :
    handling e = true ∧ ∃ task, step s.task e = some task ∧ s' = { s with task } := by
  obtain ⟨he, h⟩ := Option.ite_none_right_eq_some.mp h
  obtain ⟨task, htask, rfl⟩ := Option.map_eq_some_iff.mp h
  exact ⟨he, task, htask, rfl⟩

theorem notifyAll_cases (h : notifyAll s = some s') :
    0 < s.notifying ∧ s' = { s with
      notifying := s.notifying - 1
      place := if isWaiting s.place then .awake else s.place } := by
  obtain ⟨hpos, h⟩ := Option.ite_none_left_eq_some.mp h
  exact ⟨Nat.pos_of_ne_zero hpos, (Option.some.inj h).symm⟩

theorem back_cases (h : back s = some s') :
    s.place = .elsewhere ∧ s.task.pending = .none ∧ s' = { s with place := .awake } := by
  obtain ⟨⟨hplace, hpending⟩, h⟩ := Option.ite_none_right_eq_some.mp h
  exact ⟨hplace, hpending, (Option.some.inj h).symm⟩

theorem wake_cases (h : wake s = some s') :
    isWaiting s.place = true ∧ s' = { s with place := .awake } := by
  obtain ⟨hplace, h⟩ := Option.ite_none_right_eq_some.mp h
  exact ⟨hplace, (Option.some.inj h).symm⟩

/-- A sleeping thread runs no job. -/
theorem Placed.not_waiting (h : Placed s) (hjob : inJob s = true) (untilUs : Option Int) :
    s.place ≠ .waiting untilUs := by
  intro hplace
  rcases inJob_iff.mp hjob with hrunning | helsewhere
  · have hpc := h.away (by rw [hplace]; exact nofun)
    rw [hpc] at hrunning
    cases hrunning
  · rw [hplace] at helsewhere
    cases helsewhere

theorem Placed.awake (h : Placed s) (hpc : s.task.pc ≠ .idle) : s.place = .awake := by
  by_contra hplace
  exact hpc (h.away hplace)

/-- **Every step** keeps the thread awake, or sees to it that it is woken. -/
theorem Placed.step {l : Label} (h : Placed s) (hstep : sysStep s l = some s') : Placed s' := by
  cases l with
  | outside e =>
    obtain ⟨he, task, htask, rfl⟩ := outside_cases hstep
    have hpc : task.pc = s.task.pc :=
      call_pc (by cases e <;> first | rfl | cases he) (by rintro rfl; cases he) htask
    have hpending := outside_pending he htask
    refine ⟨timed_step h.timed htask, fun hplace => hpc.trans (h.away hplace), fun hne => ?_,
      fun untilUs hplace => ?_⟩
    · have hjob := h.calling (hpending ▸ hne)
      rw [inJob] at hjob ⊢
      rw [hpc]
      exact hjob
    · show task.topProcessUs = -1 ∨ int64Max ≤ task.topProcessUs ∨
        0 < s.notifying + (notifyChange s.task task e).toNat ∨
        ∃ w, untilUs = some w ∧ w ≤ task.topProcessUs + adjustUs
      cases hnotify : notifyChange s.task task e with
      | true => exact .inr (.inr (.inl (Nat.succ_pos _)))
      | false =>
        rw [top_of_quiet he htask hnotify]
        exact h.woken untilUs hplace
  | inSelf e =>
    obtain ⟨he, hjob, task, htask, rfl⟩ := inSelf_cases hstep
    have hpc : task.pc = s.task.pc :=
      call_pc (by cases e <;> first | rfl | cases he) (by rintro rfl; cases he) htask
    refine ⟨timed_step h.timed htask, fun hplace => hpc.trans (h.away hplace), fun _ => ?_,
      fun untilUs hplace => absurd hplace (h.not_waiting hjob untilUs)⟩
    rw [inJob] at hjob ⊢
    rw [hpc]
    exact hjob
  | notifyAll =>
    obtain ⟨-, rfl⟩ := notifyAll_cases hstep
    cases hplace : s.place with
    | waiting u =>
      refine ⟨h.timed, fun hne => absurd rfl hne, fun hne => ?_, nofun⟩
      exact absurd hplace (h.not_waiting (h.calling hne) u)
    | awake =>
      refine ⟨h.timed, fun hne => absurd rfl hne, fun hne => ?_, nofun⟩
      have hjob := h.calling hne
      rw [inJob, hplace] at hjob
      exact hjob
    | elsewhere =>
      refine ⟨h.timed, fun _ => h.away (by rw [hplace]; exact nofun), fun _ => ?_, nofun⟩
      exact inJob_iff.mpr (.inr rfl)
  | look before after =>
    obtain ⟨hpc, hpending, hplace, hcases⟩ := look_cases hstep
    obtain ⟨rfl, htop⟩ | ⟨w, rfl, -, htop⟩ | ⟨task, htask, rfl⟩ | rfl := hcases
    · refine ⟨h.timed, fun _ => hpc, fun hne => absurd hpending hne, fun untilUs _ => ?_⟩
      exact htop.imp_right .inl
    · refine ⟨h.timed, fun _ => hpc, fun hne => absurd hpending hne, fun untilUs heq => ?_⟩
      exact htop.imp_right fun hle => .inr (.inr ⟨w, (Place.waiting.inj heq).symm, hle⟩)
    · have hselected : task.pending = .none := by
        obtain ⟨-, hselect⟩ := Option.ite_none_right_eq_some.mp htask
        exact Option.some.inj hselect ▸ hpending
      refine ⟨timed_select h.timed htask, fun hne => absurd hplace hne,
        fun hne => absurd hselected hne, fun untilUs heq => ?_⟩
      rw [hplace] at heq
      cases heq
    · exact ⟨h.timed, fun _ => hpc, fun hne => absurd hpending hne, nofun⟩
  | back =>
    obtain ⟨-, hpending, rfl⟩ := back_cases hstep
    exact ⟨h.timed, fun hne => absurd rfl hne, fun hne => absurd hpending hne, nofun⟩
  | wake =>
    obtain ⟨hwaiting, rfl⟩ := wake_cases hstep
    refine ⟨h.timed, fun hne => absurd rfl hne, fun hne => ?_, nofun⟩
    cases hplace : s.place with
    | waiting u => exact absurd hplace (h.not_waiting (h.calling hne) u)
    | awake | elsewhere => rw [hplace] at hwaiting; cases hwaiting
  | thread e =>
    obtain ⟨he, task, htask, rfl⟩ := thread_cases hstep
    obtain ⟨hbusy, hpending⟩ := thread_pending he htask
    have hplace := h.awake hbusy
    refine ⟨timed_step h.timed htask, fun hne => absurd hplace hne, fun hne => ?_,
      fun untilUs heq => ?_⟩
    · -- a call is under way in a running job only, and that one cannot end
      have hjob := h.calling (hpending ▸ hne)
      rw [inJob_iff, hplace] at hjob
      have hrunning := hjob.resolve_right nofun
      cases e with
      | finish nextDelayUs =>
        obtain ⟨-, hnone, -⟩ | ⟨⟨top, hpc⟩, -⟩ := finish_cases htask
        · exact absurd (hpending.trans hnone) hne
        · rw [hpc] at hrunning
          cases hrunning
      | enter =>
        obtain ⟨hpc, -⟩ := Option.ite_none_right_eq_some.mp htask
        rw [hpc] at hrunning
        cases hrunning
      | handle =>
        obtain ⟨hpc, -⟩ | ⟨hpc, -⟩ := handle_cases htask
        all_goals rw [hpc] at hrunning; cases hrunning
      | begin =>
        obtain ⟨t, hpc, -⟩ := begin_cases htask
        rw [hpc] at hrunning
        cases hrunning
      | _ => cases he
    · rw [show s.place = .awake from hplace] at heq
      cases heq

theorem placed_init (nowUs : Nat) : Placed (init nowUs) :=
  ⟨timed_init nowUs, fun hne => absurd rfl hne, fun hne => absurd rfl hne, nofun⟩

end MediaFoundation.TaskThread
