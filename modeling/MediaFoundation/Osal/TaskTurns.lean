import MediaFoundation.Lib.Response
import MediaFoundation.Osal.TaskTop

/-!
# The messages get their turn

A message of a task whose top is cleared rightly is selected at last: once it is
due, `UpdateTop` prefers the messages to every job, and each `HandleJob` takes
the first of them. What it takes beside is that the other tasks of the thread
are not for ever due before the message.
-/

namespace MediaFoundation.TaskThread

open TaskInner Response

-- A message in its queue

def Selected (dueUs : Int) (job : Job) (s : State) : Prop :=
  ∃ t ∈ takenJobs s, t.job = job ∧ t.dueUs = dueUs ∧ t.inJobQueue = false

section Message

variable {s s' : State} {dueUs : Int} {job : Job}

theorem message_moves (h : Moves s s') (hm : (dueUs, job) ∈ s.msgQueue.entries) :
    (dueUs, job) ∈ s'.msgQueue.entries ∨ Selected dueUs job s' := by
  cases h with
  | stay hledger =>
    left
    rw [show s'.msgQueue = s.msgQueue from congrArg Ledger.msgQueue hledger]
    exact hm
  | insert b delayUs hself hother htaken hnext =>
    left
    cases b with
    | true =>
      rw [show s'.msgQueue = s.msgQueue from hother]
      exact hm
    | false =>
      rw [show s'.msgQueue = s.msgQueue.add _ _ from hself]
      exact (DueQueue.entries_add _ _ _).mem_iff.mpr (List.mem_cons_of_mem _ hm)
  | take t hhead hself hother htaken hnext hseen hstate hfrom =>
    cases hqueue : t.inJobQueue with
    | true =>
      rw [hqueue] at hother
      left
      rw [show s'.msgQueue = s.msgQueue from hother]
      exact hm
    | false =>
      rw [hqueue] at hhead hself
      rw [DueQueue.entries_of_head? (show s.msgQueue.head? = some (t.dueUs, t.job) from hhead)] at hm
      rcases List.mem_cons.mp hm with heq | hm
      · obtain ⟨hdue, hjob⟩ := Prod.mk.inj heq
        refine .inr ⟨t, ?_, hjob.symm, hdue.symm, hqueue⟩
        rw [htaken]
        exact List.mem_append_right _ (List.mem_singleton_self t)
      · left
        rw [show s'.msgQueue = s.msgQueue.tail from hself]
        exact hm

theorem selected_moves (h : Moves s s') (hselected : Selected dueUs job s) :
    Selected dueUs job s' := by
  obtain ⟨t, ht, hjob⟩ := hselected
  refine ⟨t, ?_, hjob⟩
  cases h with
  | stay hledger =>
    rw [show takenJobs s' = takenJobs s from congrArg Ledger.taken hledger]
    exact ht
  | insert b delayUs hself hother htaken hnext => exact htaken ▸ ht
  | take u hhead hself hother htaken hnext hseen hstate hfrom =>
    rw [htaken]
    exact List.mem_append_left _ ht

end Message

def earlier (s : State) (dueUs : Int) : Nat := s.msgQueue.entries.countP fun m => m.1 ≤ dueUs

/-- A call leaves a message that is due where it is, with nothing new before it, and makes
`UpdateTop` prefer no job to it. -/
structure Ahead (s s' : State) (dueUs : Int) : Prop where
  earlier : earlier s' dueUs = earlier s dueUs
  flag : s'.topIsJob = true → s.topIsJob = true
  nowUs : s.nowUs ≤ s'.nowUs

section Calls

variable {s s' : State} {dueUs : Int} {job : Job}

theorem Ahead.of_queue (hqueue : s'.msgQueue = s.msgQueue) (hflag : s'.topIsJob = s.topIsJob)
    (hnow : s.nowUs ≤ s'.nowUs) : Ahead s s' dueUs :=
  ⟨by rw [TaskThread.earlier, TaskThread.earlier, hqueue], fun h => hflag ▸ h, hnow⟩

theorem earlier_inserted (hm : (dueUs, job) ∈ s.msgQueue.entries) (hdue : dueUs ≤ s.nowUs)
    (delayUs : Int) (b : Bool) (dt : Nat) :
    earlier (inserted s delayUs b dt) dueUs = earlier s dueUs := by
  cases b with
  | true => rfl
  | false =>
    have hfree := s.msgQueue.freeTime_not_mem (s.nowUs + max delayUs 0)
    have hle := s.msgQueue.le_freeTime (s.nowUs + max delayUs 0)
    have hne : s.msgQueue.freeTime (s.nowUs + max delayUs 0) ≠ dueUs := by
      intro heq
      rw [heq] at hfree
      exact hfree (List.mem_map_of_mem hm)
    refine ((DueQueue.entries_add _ _ _).countP_eq _).trans ?_
    rw [List.countP_cons_of_neg]
    · rfl
    · rw [decide_eq_true_iff]
      show ¬ s.msgQueue.freeTime (s.nowUs + max delayUs 0) ≤ dueUs
      omega

theorem ahead_updateTop (hm : (dueUs, job) ∈ s.msgQueue.entries) (hdue : dueUs ≤ s.nowUs)
    {u : State} (h : Ahead u s dueUs) : Ahead u (updateTop s) dueUs := by
  have hflag := updateTop_message hm hdue
  have hnow := (updateTop_keeps s).nowUs
  have hqueue : (updateTop s).msgQueue = s.msgQueue := congrArg Ledger.msgQueue (ledger_updateTop s)
  refine ⟨?_, fun htop => ?_, h.nowUs.trans hnow⟩
  · rw [earlier, hqueue]
    exact h.earlier
  · rw [hflag] at htop
    cases htop

theorem ahead_insertJob {delayUs : Int} {b : Bool} {dt : Nat}
    (hm : (dueUs, job) ∈ s.msgQueue.entries) (hdue : dueUs ≤ s.nowUs)
    (hinsert : insertJob s delayUs b dt = some s') : Ahead s s' dueUs := by
  have hnow := (inserted_keeps s delayUs b dt).nowUs
  have hinserted : Ahead s (inserted s delayUs b dt) dueUs :=
    ⟨earlier_inserted hm hdue delayUs b dt, fun h => (inserted_queue s delayUs b dt).2.2 ▸ h, hnow⟩
  obtain rfl | ⟨rfl, -⟩ := insertJob_cases hinsert
  · have hm' := (inserted_entries s delayUs b dt false).1 _ hm
    exact ahead_updateTop hm' (hdue.trans hnow) hinserted
  · exact hinserted

theorem ahead_call {e : Event} (he : outsideCall e = true ∨ selfCall e = true)
    (hm : (dueUs, job) ∈ s.msgQueue.entries) (hdue : dueUs ≤ s.nowUs)
    (hstep : step s e = some s') : Ahead s s' dueUs := by
  have hpauseAsync : Ahead s (pauseAsync s) dueUs := by
    unfold pauseAsync
    split
    · exact .of_queue rfl rfl (Int.le_refl _)
    · exact .of_queue rfl rfl (Int.le_refl _)
  have hstopAsync : Ahead s (stopAsync s) dueUs := by
    unfold stopAsync
    split
    · exact .of_queue rfl rfl (Int.le_refl _)
    · exact .of_queue rfl rfl (Int.le_refl _)
  cases e with
  | tick dt =>
    cases hstep
    exact .of_queue rfl rfl (by show s.nowUs ≤ s.nowUs + dt; omega)
  | submitJob delayUs dt | submitJobOnce delayUs dt => exact ahead_insertJob hm hdue hstep
  | clearSingleLoop =>
    cases hstep
    exact .of_queue rfl rfl (Int.le_refl _)
  | submitPriority i dt =>
    obtain ⟨tmpFlag, -, hinsert⟩ := submitPriority_cases hstep
    have hm' : (dueUs, job) ∈
        { s with toggles := s.toggles.set i ⟨tmpFlag, true⟩ }.msgQueue.entries := hm
    have h := ahead_insertJob hm' hdue hinsert
    exact ⟨h.earlier, h.flag, h.nowUs⟩
  | restoreSingleLoop i =>
    obtain ⟨tmpFlag, -, rfl⟩ := restoreSingleLoop_cases hstep
    exact .of_queue rfl rfl (Int.le_refl _)
  | start =>
    cases hstep
    unfold start
    split
    · exact .of_queue rfl rfl (Int.le_refl _)
    · have hm' : (dueUs, job) ∈ { s with runningState := .started }.msgQueue.entries := hm
      exact ahead_updateTop hm' hdue (.of_queue rfl rfl (Int.le_refl _))
  | pause =>
    obtain ⟨-, hstep⟩ := Option.ite_none_right_eq_some.mp hstep
    exact Option.some.inj hstep ▸ hpauseAsync
  | pauseAsync => exact Option.some.inj hstep ▸ hpauseAsync
  | stop =>
    obtain ⟨-, hstep⟩ := Option.ite_none_right_eq_some.mp hstep
    exact Option.some.inj hstep ▸ hstopAsync
  | stopAsync => exact Option.some.inj hstep ▸ hstopAsync
  | pauseInSelf =>
    obtain ⟨-, hstep⟩ := Option.ite_none_right_eq_some.mp hstep
    cases hstep
    unfold pauseInSelf
    split
    · exact .of_queue rfl rfl (Int.le_refl _)
    · exact .of_queue rfl rfl (Int.le_refl _)
  | stopInSelf =>
    obtain ⟨-, hstep⟩ := Option.ite_none_right_eq_some.mp hstep
    cases hstep
    exact .of_queue rfl rfl (Int.le_refl _)
  | proceed =>
    have hproceed : proceed s = some s' := hstep
    unfold proceed at hproceed
    split at hproceed
    · cases hproceed
    · cases hproceed
      exact .of_queue rfl rfl (Int.le_refl _)
    · cases hproceed
      exact .of_queue rfl rfl (Int.le_refl _)
  | _ => exact he.elim nofun nofun

end Calls

theorem step_nowUs {s s' : State} {e : Event} (h : step s e = some s') : s.nowUs ≤ s'.nowUs := by
  by_cases hcall : isCall e = true
  · exact (step_keeps hcall h).nowUs
  cases e with
  | clearSingleLoop => exact Option.some.inj h ▸ Int.le_refl _
  | submitPriority i dt =>
    obtain ⟨tmpFlag, -, hinsert⟩ := submitPriority_cases h
    exact (insertJob_keeps hinsert).nowUs
  | restoreSingleLoop i =>
    obtain ⟨tmpFlag, -, rfl⟩ := restoreSingleLoop_cases h
    exact Int.le_refl _
  | select | enter =>
    obtain ⟨-, h⟩ := Option.ite_none_right_eq_some.mp h
    exact Option.some.inj h ▸ Int.le_refl _
  | handle =>
    obtain ⟨-, rfl | rfl⟩ | ⟨-, rfl | ⟨e, jobQueue, msgQueue, -, rfl⟩⟩ := handle_cases h
    all_goals exact Int.le_refl _
  | begin =>
    obtain ⟨t, -, rfl⟩ := begin_cases h
    exact Int.le_refl _
  | finish nextDelayUs =>
    obtain ⟨-, -, rfl⟩ | ⟨-, top, rfl⟩ := finish_cases h
    · exact (updateTop_keeps { s with pc := .idle }).nowUs
    · exact Int.le_refl _
  | _ => exact absurd rfl hcall

-- Who has to go on

/-- The thread is awake, or its time is up. -/
def canGoOn (s : System) : Bool :=
  match s.place with
  | .waiting none => false
  | .waiting (some w) => decide (w ≤ s.task.nowUs)
  | _ => true

inductive Helper where
  | thread | notifier

def Ready : Helper → System → Prop
  | .thread, s => canGoOn s = true
  | .notifier, s => 0 < s.notifying

/-- The thread goes on in its loop or in `HandleJob`. The job itself does not. -/
def Acts : Helper → System → Label → Prop
  | .thread, _, .look _ _ | .thread, _, .back | .thread, _, .wake | .thread, _, .thread _ => True
  | .thread, _, _ => False
  | .notifier, _, l => l = .notifyAll

def helper (s : System) : Helper := if canGoOn s then .thread else .notifier

/-- How far the thread is from taking its next job. -/
def stage (s : System) : Nat :=
  match s.task.pc with
  | .idle => if s.place = .awake then 3 else if canGoOn s then 4 else 5
  | .selected => 2
  | .entered _ => 1
  | .taken _ => 7
  | .running _ => 6
  | .looping _ => 0

/-- A job is going to be taken before the messages. -/
def flag (s : State) : Nat := (s.topIsJob && atTop s.pc).toNat

def rank (dueUs : Int) (s : System) : Nat :=
  (earlier s.task dueUs + flag s.task) * 8 + stage s

structure Waits (dueUs : Int) (job : Job) (s : System) : Prop where
  kept : Kept s
  queued : (dueUs, job) ∈ s.task.msgQueue.entries
  due : dueUs + adjustUs ≤ s.task.nowUs

/-- The other tasks are due after `dueUs`, when the loop looks at them. -/
def OthersLater (dueUs : Int) : Label → Prop
  | .look before after => ∀ t ∈ before ++ after, t = -1 ∨ dueUs < t
  | _ => True

section Turns

variable {s s' : System} {dueUs : Int} {job : Job}

theorem Waits.le_now (h : Waits dueUs job s) : dueUs ≤ s.task.nowUs := by
  have hdue := h.due
  unfold adjustUs at hdue
  omega

theorem Waits.candidate (h : Waits dueUs job s) : ∃ e, Candidate s.task e := by
  obtain ⟨e, he⟩ := head_of_mem h.queued
  exact ⟨e, .inl he⟩

theorem Waits.top (h : Waits dueUs job s) (hpc : s.task.pc = .idle)
    (hpending : s.task.pending = .none) :
    s.task.topProcessUs ≠ -1 ∧ s.task.topProcessUs ≤ dueUs := by
  obtain ⟨-, hnone⟩ | ⟨e, he, hetop, hfirst⟩ | ⟨hentered, -⟩ :=
    h.kept.current.fits (by rw [hpc]; rfl) hpending
  · obtain ⟨e, he⟩ := h.candidate
    exact absurd he (hnone e)
  · have hpos := h.kept.current.sane.of_candidate (named_candidate he)
    exact ⟨by omega, hfirst _ h.queued⟩
  · rw [hpc] at hentered
    cases hentered

theorem Waits.ready (hmax : dueUs < int64Max) (h : Waits dueUs job s) : Ready (helper s) s := by
  unfold helper
  split
  next hgo => exact hgo
  next hgo =>
    have hplace : ∃ u, s.place = .waiting u ∧ ∀ w, u = some w → s.task.nowUs < w := by
      unfold canGoOn at hgo
      split at hgo
      next hplace => exact ⟨none, hplace, nofun⟩
      next w hplace =>
        refine ⟨some w, hplace, fun w' hw => ?_⟩
        rw [decide_eq_true_iff] at hgo
        have heq := Option.some.inj hw
        omega
      next => exact absurd rfl hgo
    obtain ⟨u, hplace, hlater⟩ := hplace
    have hpc := h.kept.placed.away (by rw [hplace]; exact nofun)
    have hpending : s.task.pending = .none := by
      by_contra hne
      exact h.kept.placed.not_waiting (h.kept.placed.calling hne) u hplace
    obtain ⟨htop, hle⟩ := h.top hpc hpending
    obtain hnone | hge | hpos | ⟨w, hw, hle'⟩ := h.kept.placed.woken u hplace
    · exact absurd hnone htop
    · omega
    · exact hpos
    · have hlt := hlater w hw
      have hdue := h.due
      omega

theorem stage_lt (s : System) : stage s < 8 := by
  unfold stage
  split
  · split
    · omega
    · split <;> omega
  all_goals omega

theorem canGoOn_mono (hplace : s'.place = s.place) (hnow : s.task.nowUs ≤ s'.task.nowUs)
    (h : canGoOn s = true) : canGoOn s' = true := by
  unfold canGoOn at h ⊢
  rw [hplace]
  split at h
  next hs => cases h
  next w hs =>
    rw [decide_eq_true_iff] at h ⊢
    exact h.trans hnow
  next hne hne' => rfl

/-- Where the thread stays, a call brings nobody farther from the message. -/
theorem rank_call (s s' : System) (hahead : Ahead s.task s'.task dueUs)
    (hpc : s'.task.pc = s.task.pc) (hplace : s'.place = s.place)
    (haway : s.place ≠ .awake → s.task.pc = .idle) :
    rank dueUs s' < rank dueUs s ∨ rank dueUs s' = rank dueUs s ∧ helper s' = helper s := by
  have hflag : flag s'.task ≤ flag s.task := by
    unfold flag
    rw [hpc]
    cases htop : s'.task.topIsJob with
    | true => rw [hahead.flag htop]
    | false => exact Nat.zero_le _
  have hstage : stage s' < stage s ∨ stage s' = stage s ∧ canGoOn s' = canGoOn s := by
    have hmono := canGoOn_mono hplace hahead.nowUs
    by_cases hawake : s.place = .awake
    · refine .inr ⟨?_, ?_⟩
      · unfold stage
        rw [hpc, hplace, if_pos hawake, if_pos hawake]
      · unfold canGoOn
        rw [hplace, hawake]
    · unfold stage
      rw [hpc, haway hawake, hplace]
      simp only [if_neg hawake]
      cases hgo : canGoOn s with
      | true => exact .inr ⟨by rw [hmono hgo], hmono hgo⟩
      | false =>
        cases hgo' : canGoOn s' with
        | true => exact .inl (by decide)
        | false => exact .inr ⟨rfl, rfl⟩
  have hlt := stage_lt s
  rw [rank, rank, hahead.earlier, helper, helper]
  rcases hstage with hless | ⟨hsame, hgo⟩
  · exact .inl (by omega)
  · rw [hgo, hsame]
    rcases hflag.lt_or_eq with hless | hsame
    · exact .inl (by omega)
    · exact .inr ⟨by rw [hsame], rfl⟩

theorem Waits.step_cases {l : Label} (h : Waits dueUs job s) (hl : Undisturbed s l)
    (hstep : sysStep s l = some s') : Selected dueUs job s'.task ∨ Waits dueUs job s' := by
  have hkept := h.kept.step hl hstep
  have hdue := h.due
  obtain hsame | ⟨e, htask, -⟩ := sysStep_task hstep
  · exact .inr ⟨hkept, hsame ▸ h.queued, hsame ▸ h.due⟩
  · have hnow := step_nowUs htask
    rcases message_moves (step_moves htask) h.queued with hm | hselected
    · exact .inr ⟨hkept, hm, hdue.trans hnow⟩
    · exact .inl hselected

theorem look_selects {before after : List Int} (hmax : dueUs < int64Max) (h : Waits dueUs job s)
    (hothers : OthersLater dueUs (.look before after)) (hlook : look s before after = some s') :
    select s.task = some s'.task ∧ s'.place = s.place := by
  obtain ⟨hpc, hpending, hplace, -⟩ := look_cases hlook
  obtain ⟨htop, hle⟩ := h.top hpc hpending
  have hnow := h.le_now
  have hadjust : (0 : Int) ≤ adjustUs := by decide
  have hfirst : nextTask (before ++ s.task.topProcessUs :: after) =
      (s.task.topProcessUs, some before.length) := by
    refine nextTask_first htop (by omega) (fun t ht => ?_) (fun t ht => ?_)
    · exact (hothers t (List.mem_append_left _ ht)).imp_right fun hlt => by omega
    · exact (hothers t (List.mem_append_right _ ht)).imp_right fun hlt => by omega
  rw [look, if_pos ⟨hpc, hpending, hplace⟩, hfirst] at hlook
  simp only at hlook
  rw [if_neg (by omega), if_true] at hlook
  obtain ⟨task, htask, rfl⟩ := Option.map_eq_some_iff.mp hlook
  exact ⟨htask, rfl⟩

theorem stage_idle (hpc : s.task.pc = .idle) (hplace : s.place = .awake) : stage s = 3 := by
  unfold stage
  rw [hpc]
  exact if_pos hplace

theorem stage_away (hpc : s.task.pc = .idle) (hplace : s.place ≠ .awake) : 3 < stage s := by
  unfold stage
  rw [hpc]
  show 3 < if s.place = .awake then 3 else if canGoOn s then 4 else 5
  rw [if_neg hplace]
  split <;> omega

theorem rank_awake (hplace : s.place ≠ .awake) (hpc : s.task.pc = .idle)
    (htask : s'.task = s.task) (hplace' : s'.place = .awake) : rank dueUs s' < rank dueUs s := by
  have hstage := stage_away hpc hplace
  have hstage' := stage_idle (htask ▸ hpc) hplace'
  rw [rank, rank, htask]
  omega

theorem rank_look (hselect : select s.task = some s'.task) (hplace : s.place = .awake) :
    rank dueUs s' < rank dueUs s := by
  obtain ⟨⟨hpc, -⟩, hselect⟩ := Option.ite_none_right_eq_some.mp hselect
  have heq := (Option.some.inj hselect).symm
  have hstage' : stage s' = 2 := by
    unfold stage
    rw [heq]
  have hflag : flag s'.task = flag s.task := by
    rw [flag, flag, heq, hpc]
    rfl
  have hearlier : earlier s'.task dueUs = earlier s.task dueUs := by rw [earlier, earlier, heq]
  rw [rank, rank, hflag, hearlier, stage_idle hpc hplace, hstage']
  omega

theorem rank_enter (h : enter s.task = some s'.task) : rank dueUs s' < rank dueUs s := by
  obtain ⟨hpc, h⟩ := Option.ite_none_right_eq_some.mp h
  have heq := (Option.some.inj h).symm
  have hstage : stage s = 2 := by rw [stage, hpc]
  have hstage' : stage s' = 1 := by
    unfold stage
    rw [heq]
  have hflag : flag s'.task = flag s.task := by
    rw [flag, flag, heq, hpc]
    rfl
  have hearlier : earlier s'.task dueUs = earlier s.task dueUs := by rw [earlier, earlier, heq]
  rw [rank, rank, hflag, hearlier, hstage, hstage']
  omega

theorem rank_begin (h : begin s.task = some s'.task) : rank dueUs s' < rank dueUs s := by
  obtain ⟨t, hpc, heq⟩ := begin_cases h
  have hstage : stage s = 7 := by rw [stage, hpc]
  have hstage' : stage s' = 6 := by
    unfold stage
    rw [heq]
  have hflag' : flag s'.task = 0 := by
    rw [flag, heq]
    exact congrArg Bool.toNat (Bool.and_false _)
  have hearlier : earlier s'.task dueUs = earlier s.task dueUs := by rw [earlier, earlier, heq]
  rw [rank, rank, hflag', hearlier, hstage, hstage']
  omega

theorem rank_finish {nextDelayUs : Int} (hwaits : Waits dueUs job s)
    (h : finish s.task nextDelayUs = some s'.task) (hplace : s'.place = .awake) :
    rank dueUs s' < rank dueUs s := by
  obtain ⟨⟨t, hpc⟩, -, heq⟩ | ⟨⟨top, hpc⟩, -⟩ := finish_cases h
  · have hqueued : (dueUs, job) ∈ { s.task with pc := .idle }.msgQueue.entries := hwaits.queued
    have htop := updateTop_message hqueued hwaits.le_now
    have hqueue : s'.task.msgQueue = s.task.msgQueue := by
      rw [heq]
      exact congrArg Ledger.msgQueue (ledger_updateTop _)
    have hpc' : s'.task.pc = .idle := by
      rw [heq]
      exact (updateTop_keeps { s.task with pc := .idle }).pc
    have hflag' : flag s'.task = 0 := by
      rw [flag, heq, htop]
      rfl
    have hstage : stage s = 6 := by rw [stage, hpc]
    rw [rank, rank, hflag', earlier, hqueue, stage_idle hpc' hplace, hstage, earlier]
    omega
  · have hmulti := hwaits.kept.placed.timed.multi.pc
    rw [hpc] at hmulti
    cases hmulti

theorem rank_handle (hwaits : Waits dueUs job s)
    (h : handle s.task = some s'.task) : rank dueUs s' < rank dueUs s := by
  have htimed := hwaits.kept.placed.timed
  obtain ⟨hpc, -⟩ | ⟨hpc, -⟩ := handle_cases h
  · have hmulti := htimed.multi.pc
    rw [hpc] at hmulti
    cases hmulti
  · have hat : atTop s.task.pc = true := by rw [hpc]; rfl
    have hquiet := htimed.multi.quiet (by rw [hpc]; rfl)
    have hstage : stage s = 1 := by rw [stage, hpc]
    rw [handle_entered hpc] at h
    split at h
    next hearly =>
      obtain ⟨e, he⟩ := hwaits.candidate
      have hfits := hwaits.kept.current.fits hat hquiet
      exact absurd he ((hfits.of_early hearly.1 hearly.2).2 e)
    next =>
      obtain ⟨e, hhead, heq⟩ := Option.map_eq_some_iff.mp h
      have htaken : ∃ t, s'.task.pc = .taken t := by
        rw [← heq]
        cases s.task.topIsJob with
        | true | false => exact ⟨_, rfl⟩
      obtain ⟨t, hpc'⟩ := htaken
      have hstage' : stage s' = 7 := by rw [stage, hpc']
      have hflag' : flag s'.task = 0 := by
        rw [flag, hpc']
        exact congrArg Bool.toNat (Bool.and_false _)
      rw [rank, rank, hflag', hstage, hstage']
      cases htop : s.task.topIsJob with
      | true =>
        have hflag : flag s.task = 1 := by
          rw [flag, htop, hat]
          rfl
        have hqueue : s'.task.msgQueue = s.task.msgQueue := by
          rw [← heq, htop]
          rfl
        rw [hflag, earlier, hqueue, earlier]
        omega
      | false =>
        -- the first message is due no later than the one that waits
        rw [htop] at hhead
        have hle : e.1 ≤ dueUs := DueQueue.head?_le hhead hwaits.queued
        have hqueue : s'.task.msgQueue = s.task.msgQueue.tail := by
          rw [← heq, htop]
          rfl
        have hentries : s.task.msgQueue.entries = e :: s.task.msgQueue.tail.entries :=
          DueQueue.entries_of_head? hhead
        have hearlier : earlier s.task dueUs = earlier s'.task dueUs + 1 := by
          rw [earlier, earlier, hqueue, hentries]
          exact List.countP_cons_of_pos (decide_eq_true hle)
        rw [hearlier]
        omega

/-- **Each step** selects the message, or brings it nearer, or leaves it to the helper. -/
theorem message_step {l : Label} (hmax : dueUs < int64Max) (h : Waits dueUs job s)
    (hl : Undisturbed s l ∧ OthersLater dueUs l) (hstep : sysStep s l = some s') :
    Selected dueUs job s'.task ∨ Waits dueUs job s' ∧ (rank dueUs s' < rank dueUs s ∨
      rank dueUs s' = rank dueUs s ∧ helper s' = helper s ∧ ¬ Acts (helper s) s l) := by
  refine (h.step_cases hl.1 hstep).imp_right fun h' => ⟨h', ?_⟩
  have haway := h.kept.placed.away
  cases l with
  | outside e =>
    obtain ⟨he, task, htask, rfl⟩ := outside_cases hstep
    have hpc : task.pc = s.task.pc :=
      call_pc (by cases e <;> first | rfl | cases he) (by rintro rfl; cases he) htask
    have hahead := ahead_call (.inl he) h.queued h.le_now htask
    have hrank := rank_call s
      { s with task, notifying := s.notifying + (notifyChange s.task task e).toNat }
      hahead hpc rfl haway
    refine hrank.imp_right fun hsame => ⟨hsame.1, hsame.2, ?_⟩
    cases helper s with
    | thread => exact id
    | notifier => exact nofun
  | inSelf e =>
    obtain ⟨he, -, task, htask, rfl⟩ := inSelf_cases hstep
    have hpc : task.pc = s.task.pc :=
      call_pc (by cases e <;> first | rfl | cases he) (by rintro rfl; cases he) htask
    have hahead := ahead_call (.inr he) h.queued h.le_now htask
    refine (rank_call s { s with task } hahead hpc rfl haway).imp_right fun hsame =>
      ⟨hsame.1, hsame.2, ?_⟩
    cases helper s with
    | thread => exact id
    | notifier => exact nofun
  | notifyAll =>
    obtain ⟨hpos, rfl⟩ := notifyAll_cases hstep
    cases hplace : s.place with
    | waiting u =>
      have hne : s.place ≠ .awake := by rw [hplace]; exact nofun
      exact .inl (rank_awake hne (haway hne) rfl rfl)
    | awake =>
      have hgo : canGoOn s = true := by rw [canGoOn, hplace]
      refine .inr ⟨?_, ?_, ?_⟩
      · simp [rank, stage, hplace, isWaiting]
      · simp [helper, canGoOn, hplace, isWaiting]
      · rw [helper, if_pos hgo]
        exact id
    | elsewhere =>
      have hgo : canGoOn s = true := by rw [canGoOn, hplace]
      refine .inr ⟨?_, ?_, ?_⟩
      · simp [rank, stage, hplace, isWaiting, canGoOn]
      · simp [helper, canGoOn, hplace, isWaiting]
      · rw [helper, if_pos hgo]
        exact id
  | look before after =>
    obtain ⟨hselect, -⟩ := look_selects hmax h hl.2 hstep
    exact .inl (rank_look hselect (look_cases hstep).2.2.1)
  | back =>
    obtain ⟨hplace, -, rfl⟩ := back_cases hstep
    have hne : s.place ≠ .awake := by rw [hplace]; exact nofun
    exact .inl (rank_awake hne (haway hne) rfl rfl)
  | wake =>
    obtain ⟨hwaiting, rfl⟩ := wake_cases hstep
    have hne : s.place ≠ .awake := by
      intro hplace
      rw [hplace] at hwaiting
      cases hwaiting
    exact .inl (rank_awake hne (haway hne) rfl rfl)
  | thread e =>
    obtain ⟨he, task, htask, rfl⟩ := thread_cases hstep
    left
    cases e with
    | enter => exact rank_enter htask
    | handle => exact rank_handle h htask
    | begin => exact rank_begin htask
    | finish nextDelayUs =>
      exact rank_finish h htask (h.kept.placed.awake (thread_pending he htask).1)
    | _ => cases he

theorem message_descent (hmax : dueUs < int64Max) (job : Job) :
    Descent sysStep (fun s l => Undisturbed s l ∧ OthersLater dueUs l) Ready Acts
      (Waits dueUs job) (fun s => Selected dueUs job s.task) (rank dueUs) helper :=
  ⟨fun _ h => h.ready hmax, fun _ _ _ h hl hstep => message_step hmax h hl hstep⟩

end Turns

-- Every run

section Endless

variable {r : Endless sysStep} {dueUs : Int} {job : Job}

theorem endless_kept (h : Kept (r.state 0))
    (hundisturbed : ∀ i, Undisturbed (r.state i) (r.label i)) (i : Nat) : Kept (r.state i) := by
  induction i with
  | zero => exact h
  | succ i ih => exact ih.step (hundisturbed i) (r.steps i)

theorem endless_nowUs {i j : Nat} (hij : i ≤ j) :
    (r.state i).task.nowUs ≤ (r.state j).task.nowUs := by
  induction j, hij using Nat.le_induction with
  | base => exact Int.le_refl _
  | succ j hij ih =>
    refine ih.trans ?_
    obtain hsame | ⟨e, htask, -⟩ := sysStep_task (r.steps j)
    · rw [hsame]
    · exact step_nowUs htask

theorem endless_message {k j : Nat} (hkj : k ≤ j)
    (hm : (dueUs, job) ∈ (r.state k).task.msgQueue.entries) :
    (dueUs, job) ∈ (r.state j).task.msgQueue.entries ∨ Selected dueUs job (r.state j).task := by
  induction j, hkj using Nat.le_induction with
  | base => exact .inl hm
  | succ j hkj ih =>
    obtain hsame | ⟨e, htask, -⟩ := sysStep_task (r.steps j)
    · rw [hsame]
      exact ih
    · rcases ih with hm | hselected
      · exact message_moves (step_moves htask) hm
      · exact .inr (selected_moves (step_moves htask) hselected)

/-- A message is selected at last, if its time comes and the other tasks of the thread are due
later from some time on. -/
def SelectsMessages (r : Endless sysStep) : Prop :=
  ∀ k dueUs job, (dueUs, job) ∈ (r.state k).task.msgQueue.entries → dueUs < int64Max →
    (∃ i, dueUs + adjustUs ≤ (r.state i).task.nowUs) →
    (∃ i, ∀ j ≥ i, OthersLater dueUs (r.label j)) →
    ∃ j ≥ k, Selected dueUs job (r.state j).task

theorem selectsMessages (h : Kept (r.state 0))
    (hundisturbed : ∀ i, Undisturbed (r.state i) (r.label i)) (hfair : Fair Ready Acts r) :
    SelectsMessages r := by
  rintro k dueUs job hm hmax ⟨i, hi⟩ ⟨i', hi'⟩
  -- from `n` on the message is due and the other tasks are due later
  obtain ⟨n, hk, hin, hin'⟩ : ∃ n, k ≤ n ∧ i ≤ n ∧ i' ≤ n := ⟨k + i + i', by omega⟩
  rcases endless_message hk hm with hqueued | hselected
  · have hwaits : Waits dueUs job ((r.drop n).state 0) := by
      refine ⟨endless_kept h hundisturbed _, ?_, ?_⟩
      · rw [Endless.drop_state_zero]
        exact hqueued
      · rw [Endless.drop_state_zero]
        exact hi.trans (endless_nowUs hin)
    have hallowed : ∀ j, Undisturbed ((r.drop n).state j) ((r.drop n).label j) ∧
        OthersLater dueUs ((r.drop n).label j) := fun j =>
      ⟨hundisturbed _, hi' _ (by omega)⟩
    obtain ⟨j, -, hselected⟩ :=
      (message_descent hmax job).responds (hfair.drop n) hallowed 0 hwaits
    exact ⟨j + n, by omega, hselected⟩
  · exact ⟨n, hk, hselected⟩

end Endless

/-- **The top is faithful**, the thread is woken and does not spin, and every message is selected,
in the runs in which the top is cleared only where nothing is runnable or `HandleJob` updates it
afterwards. -/
theorem top_faithful (nowUs : Nat) :
    (∀ labels s, Runs.Along sysStep Undisturbed (init nowUs) labels →
      Runs.run sysStep (init nowUs) labels = some s →
        (Settled s.task → Faithful s.task) ∧ Woken s ∧ Notifies s ∧ NoSpin s) ∧
    ∀ r : Endless sysStep, r.state 0 = init nowUs →
      (∀ i, Undisturbed (r.state i) (r.label i)) → Fair Ready Acts r → SelectsMessages r := by
  refine ⟨fun labels s halong hrun => ?_, fun r hinit hundisturbed hfair => ?_⟩
  · have hkept : Kept s :=
      Runs.run_invariant (fun _ _ _ h hl hstep => h.step hl hstep) (kept_init nowUs) halong hrun
    exact ⟨hkept.current.faithful, hkept.placed.woken, hkept.placed.notifies,
      hkept.current.noSpin hkept.placed⟩
  · exact selectsMessages (hinit ▸ kept_init nowUs) hundisturbed hfair

-- Runs

instance : ∀ (s : State) (e : Event), Decidable (ClearsRightly s e)
  | s, .pause | s, .pauseAsync => inferInstanceAs (Decidable
      (s.runningState = .started → s.msgQueue.head? = none ∨ updatesLater s = true))
  | s, .stop | s, .stopAsync => inferInstanceAs (Decidable
      (s.runningState ≠ .stopped → s.msgQueue.head? = none ∨ updatesLater s = true))
  | s, .proceed => inferInstanceAs (Decidable
      (s.pending = .clearTop → ¬ Runnable s ∨ updatesLater s = true))
  | _, .tick _ | _, .submitJob _ _ | _, .submitJobOnce _ _ | _, .clearSingleLoop => isTrue trivial
  | _, .submitPriority _ _ | _, .restoreSingleLoop _ | _, .start => isTrue trivial
  | _, .pauseInSelf | _, .stopInSelf | _, .select | _, .enter => isTrue trivial
  | _, .handle | _, .begin | _, .finish _ => isTrue trivial

instance : ∀ (s : System) (l : Label), Decidable (Undisturbed s l)
  | s, .outside e | s, .inSelf e => inferInstanceAs (Decidable (ClearsRightly s.task e))
  | _, .notifyAll | _, .look _ _ | _, .back | _, .wake | _, .thread _ => isTrue trivial

def later (s : System) : System := { s with task := { s.task with nowUs := s.task.nowUs + 1 } }

def timePasses (s : System) : Endless sysStep :=
  .iterate later (.outside (.tick 1)) (fun _ => rfl) s

/-- The thread sleeps with no time set, and nobody is about to notify it. -/
def Asleep (s : System) : Prop := s.place = .waiting none ∧ s.notifying = 0

instance (s : System) : Decidable (Asleep s) := by unfold Asleep; infer_instance

theorem timePasses_fair {s : System} (h : Asleep s) : Fair Ready Acts (timePasses s) := by
  refine .of_never fun t i => ?_
  have hasleep : Asleep ((timePasses s).state i) :=
    Endless.iterate_keeps (fun _ h => ⟨h.1, h.2⟩) h i
  cases t with
  | thread =>
    rw [Ready, canGoOn, hasleep.1]
    exact Bool.false_ne_true
  | notifier =>
    rw [Ready, hasleep.2]
    exact Nat.lt_irrefl 0

theorem timePasses_nowUs (s : System) (i : Nat) :
    ((timePasses s).state i).task.nowUs = s.task.nowUs + i := by
  induction i with
  | zero => exact (Int.add_zero _).symm
  | succ i ih =>
    have hstep : (timePasses s).state (i + 1) = later ((timePasses s).state i) :=
      Function.iterate_succ_apply' later i s
    rw [hstep, Nat.cast_succ, ← Int.add_assoc, ← ih]
    rfl

def waitsForMessage : List Label :=
  [.outside .start, .notifyAll, .look [] [], .outside (.submitJobOnce 1000 0), .notifyAll,
    .look [] [], .outside (.tick 1000), .wake, .look [] [], .thread .enter, .thread .handle,
    .thread .begin, .inSelf .pauseInSelf, .inSelf .proceed, .inSelf .proceed, .thread (.finish 0),
    .look [] []]

theorem top_faithful_waitsForMessage :
    (∃ s, Runs.run sysStep (init 0) waitsForMessage = some s ∧ Faithful s.task ∧ NoSpin s) ∧
      ∃ r : Endless sysStep, r.state 0 = init 0 ∧ SelectsMessages r := by
  obtain ⟨hstates, hmessages⟩ := top_faithful 0
  obtain ⟨s, hrun, hasleep, hsettled⟩ : ∃ s, Runs.run sysStep (init 0) waitsForMessage = some s ∧
      Asleep s ∧ Settled s.task := ⟨_, rfl, by decide, rfl, rfl⟩
  have halong : Runs.Along sysStep Undisturbed (init 0) waitsForMessage := by decide
  obtain ⟨hfaithful, -, -, hspin⟩ := hstates _ s halong hrun
  refine ⟨⟨s, hrun, hfaithful hsettled, hspin⟩, ?_⟩
  obtain ⟨r, hinit, hundisturbed, htail⟩ :=
    @exists_prepend _ _ _ _ (timePasses s) (fun _ => trivial) _ _ hrun halong
  exact ⟨r, hinit, hmessages r hinit hundisturbed ((timePasses_fair hasleep).of_tail _ htail)⟩

def pausedMessage : List Label :=
  [.outside .start, .notifyAll, .outside (.submitJobOnce 1000 0), .notifyAll, .outside .pause,
    .notifyAll, .look [] []]

/-- A message waits, and nothing has been taken. -/
def Forgotten (s : System) : Prop :=
  (1000, ⟨0, 0, 1000⟩) ∈ s.task.msgQueue.entries ∧ takenJobs s.task = []

theorem message_forgotten :
    (∃ s, Runs.run sysStep (init 0) pausedMessage = some s ∧ Settled s.task ∧ ¬ Faithful s.task) ∧
    ∃ r : Endless sysStep, r.state 0 = init 0 ∧ Fair Ready Acts r ∧ ¬ SelectsMessages r := by
  obtain ⟨s, hrun, hsettled, htop, hnow, hasleep, hforgotten⟩ :
      ∃ s, Runs.run sysStep (init 0) pausedMessage = some s ∧ Settled s.task ∧
        (s.task.topProcessUs = -1 ∧ Runnable s.task) ∧ s.task.nowUs = 0 ∧ Asleep s ∧ Forgotten s :=
    ⟨_, rfl, ⟨rfl, rfl⟩, ⟨rfl, by decide⟩, rfl, by decide, by decide, rfl⟩
  refine ⟨⟨s, hrun, hsettled, fun hfaithful => hfaithful.none_iff.mp htop.1 htop.2⟩, ?_⟩
  have halong : Runs.Along sysStep (fun _ _ => True) (init 0) pausedMessage :=
    Runs.along_of_forall_mem (fun _ _ _ => trivial) _
  obtain ⟨r, hinit, -, htail⟩ :=
    @exists_prepend _ _ _ _ (timePasses s) (fun _ => trivial) _ _ hrun halong
  refine ⟨r, hinit, (timePasses_fair hasleep).of_tail _ htail, fun hselects => ?_⟩
  have hkeeps : ∀ s, Forgotten s → Forgotten (later s) := fun _ h => h
  have hlasting : ∀ i, Forgotten (r.state (i + pausedMessage.length)) := by
    intro i
    rw [(htail i).1]
    exact Endless.iterate_keeps hkeeps hforgotten i
  have hdue : (1000 : Int) + adjustUs ≤ (r.state (1500 + pausedMessage.length)).task.nowUs := by
    rw [(htail 1500).1, timePasses_nowUs, hnow]
    decide
  have hothers : ∀ j ≥ pausedMessage.length, OthersLater 1000 (r.label j) := by
    intro j hj
    obtain ⟨i, rfl⟩ := Nat.exists_eq_add_of_le' hj
    rw [(htail i).2]
    trivial
  obtain ⟨j, hj, t, ht, -⟩ :=
    hselects _ 1000 _ (hlasting 0).1 (by decide) ⟨_, hdue⟩ ⟨_, hothers⟩
  obtain ⟨i, rfl⟩ := Nat.exists_eq_add_of_le' (show pausedMessage.length ≤ j by omega)
  rw [(hlasting i).2] at ht
  cases ht

end MediaFoundation.TaskThread
