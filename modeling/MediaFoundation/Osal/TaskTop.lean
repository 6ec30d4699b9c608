import MediaFoundation.Osal.TaskThread

/-!
# The cached due time of a task

`topProcessUs_` is recomputed by `UpdateTop` at some places, and cleared by
`Pause` and `Stop` at others. Where it is cleared although a message waits, the
thread does not see the task any more, until somebody updates the top.
-/

namespace MediaFoundation.TaskThread

open TaskInner

-- Clearing the top

def Runnable (s : State) : Prop := s.msgQueue.head? ≠ none ∨ eligibleJob s ≠ none

instance (s : State) : Decidable (Runnable s) := by unfold Runnable; infer_instance

/-- `HandleJob` will take a message or has taken its job, so it gets to its `UpdateTop`. -/
def updatesLater (s : State) : Bool :=
  match s.pc with
  | .entered _ => !s.topIsJob
  | .taken _ | .running _ => true
  | _ => false

/-- Where the event clears the top, nothing is runnable then, or `HandleJob` still updates it. -/
def ClearsRightly (s : State) : Event → Prop
  | .pause | .pauseAsync =>
    s.runningState = .started → s.msgQueue.head? = none ∨ updatesLater s = true
  | .stop | .stopAsync =>
    s.runningState ≠ .stopped → s.msgQueue.head? = none ∨ updatesLater s = true
  | .proceed => s.pending = .clearTop → ¬ Runnable s ∨ updatesLater s = true
  | _ => True

def Undisturbed (s : System) : Label → Prop
  | .outside e | .inSelf e => ClearsRightly s.task e
  | _ => True

-- What the top says of the queues

/-- Nothing is runnable, or the top is the first key of the queue that the flag names. It may be
stale while `HandleJob` is about to take a message. -/
def Fits (s : State) : Prop :=
  (s.topProcessUs = -1 ∧ ∀ e, ¬ Candidate s e) ∨
  (∃ e, named s = some e ∧ e.1 = s.topProcessUs ∧
    ∀ m ∈ s.msgQueue.entries, s.topProcessUs ≤ m.1) ∨
  (s.pc = .entered false ∧ s.topIsJob = false ∧ ∃ m, s.msgQueue.head? = some m)

/-- The clock and the due times are no negative numbers. -/
structure Sane (s : State) : Prop where
  nowUs : 0 ≤ s.nowUs
  dues : ∀ b, ∀ e ∈ (queue s b).entries, 0 ≤ e.1

def Stocked (s : State) : Prop := ∃ e, (queue s s.topIsJob).head? = some e

structure Current (s : State) : Prop where
  fits : atTop s.pc = true → s.pending = .none → Fits s
  /-- What the thread is going to take is there. -/
  stocked : picked s.pc = true → Stocked s
  sane : Sane s

variable {s s' : State}

theorem updateTop_first (h : ∃ e, Candidate s e) :
    ∀ m ∈ s.msgQueue.entries, (updateTop s).topProcessUs ≤ m.1 := by
  intro m hm
  unfold updateTop
  split
  next hmsg hjob =>
    obtain ⟨e, he | he⟩ := h
    · rw [hmsg] at he
      cases he
    · rw [hjob] at he
      cases he
  next job hmsg _ =>
    rw [List.head?_eq_none_iff.mp hmsg] at hm
    cases hm
  next msg hmsg _ => exact DueQueue.head?_le hmsg hm
  next msg job hmsg _ =>
    have hle := DueQueue.head?_le hmsg hm
    split
    next => exact hle
    next hlater =>
      show job.1 ≤ m.1
      omega

theorem updateTop_message {m : Int × Job} (hm : m ∈ s.msgQueue.entries) (hdue : m.1 ≤ s.nowUs) :
    (updateTop s).topIsJob = false := by
  unfold updateTop
  split
  next hmsg _ =>
    rw [List.head?_eq_none_iff.mp hmsg] at hm
    cases hm
  next job hmsg _ =>
    rw [List.head?_eq_none_iff.mp hmsg] at hm
    cases hm
  next => rfl
  next msg job hmsg _ =>
    have hle := DueQueue.head?_le hmsg hm
    rw [if_pos (.inl (hle.trans hdue))]

theorem updateTop_fits (s : State) : Fits (updateTop s) := by
  have hfirst := @updateTop_first s
  obtain ⟨top, isJob, heq, hspec⟩ := updateTop_spec s
  rw [heq] at hspec hfirst ⊢
  obtain ⟨htop, hnone⟩ | ⟨e, he, hetop, -⟩ := hspec
  · exact .inl ⟨htop, hnone⟩
  · have hcandidate := named_candidate he
    exact .inr (.inl ⟨e, he, hetop, hfirst ⟨e, hcandidate⟩⟩)

theorem eligibleJob_head {e : Int × Job} (h : eligibleJob s = some e) :
    s.jobQueue.head? = some e :=
  (Option.ite_none_right_eq_some.mp h).2

theorem updateTop_stocked (h : Stocked s) : Stocked (updateTop s) := by
  unfold updateTop
  split
  next => exact h
  next job _ hjob => exact ⟨job, eligibleJob_head hjob⟩
  next msg hmsg _ => exact ⟨msg, hmsg⟩
  next msg job hmsg hjob =>
    split
    next => exact ⟨msg, hmsg⟩
    next => exact ⟨job, eligibleJob_head hjob⟩

theorem current_updateTop (hstocked : picked s.pc = true → Stocked s) (hsane : Sane s) :
    Current (updateTop s) := by
  refine ⟨fun _ _ => updateTop_fits s, fun hpicked => ?_, ?_⟩
  · exact updateTop_stocked (hstocked ((updateTop_keeps s).pc ▸ hpicked))
  · obtain ⟨top, isJob, heq, -⟩ := updateTop_spec s
    rw [heq]
    exact ⟨hsane.nowUs, hsane.dues⟩

-- Insertions

theorem inserted_queue (s : State) (delayUs : Int) (b : Bool) (dt : Nat) :
    queue (inserted s delayUs b dt) b =
        (queue s b).add (s.nowUs + max delayUs 0) ⟨s.nextId, s.nowUs, delayUs⟩ ∧
      queue (inserted s delayUs b dt) (!b) = queue s (!b) ∧
      (inserted s delayUs b dt).topIsJob = s.topIsJob := by
  cases b with
  | true | false => exact ⟨rfl, rfl, rfl⟩

/-- What waited still waits, and what is new has got the free key. -/
theorem inserted_entries (s : State) (delayUs : Int) (b : Bool) (dt : Nat) (c : Bool) :
    (∀ e ∈ (queue s c).entries, e ∈ (queue (inserted s delayUs b dt) c).entries) ∧
      ∀ e ∈ (queue (inserted s delayUs b dt) c).entries, e ∈ (queue s c).entries ∨
        e.1 = (queue s b).freeTime (s.nowUs + max delayUs 0) := by
  obtain ⟨hself, hother, -⟩ := inserted_queue s delayUs b dt
  by_cases hc : c = b
  · subst hc
    rw [hself]
    refine ⟨fun e he => ?_, fun e he => ?_⟩
    · exact (DueQueue.entries_add _ _ _).mem_iff.mpr (List.mem_cons_of_mem _ he)
    · rcases List.mem_cons.mp ((DueQueue.entries_add _ _ _).mem_iff.mp he) with rfl | he
      · exact .inr rfl
      · exact .inl he
  · obtain rfl := Bool.eq_not_of_ne hc
    rw [hother]
    exact ⟨fun e he => he, fun e he => .inl he⟩

theorem head_of_mem {q : DueQueue Job} {e : Int × Job} (he : e ∈ q.entries) :
    ∃ e', q.head? = some e' := by
  refine Option.ne_none_iff_exists'.mp fun hnone => ?_
  rw [List.head?_eq_none_iff.mp hnone] at he
  cases he

theorem head_inserted {delayUs : Int} {b c : Bool} {dt : Nat} {e : Int × Job}
    (h : (queue s c).head? = some e) :
    ∃ e', (queue (inserted s delayUs b dt) c).head? = some e' :=
  head_of_mem ((inserted_entries s delayUs b dt c).1 e (DueQueue.head?_mem h))

theorem sane_inserted (h : Sane s) (delayUs : Int) (b : Bool) (dt : Nat) :
    Sane (inserted s delayUs b dt) := by
  refine ⟨h.nowUs.trans (inserted_keeps s delayUs b dt).nowUs, fun c e he => ?_⟩
  rcases (inserted_entries s delayUs b dt c).2 e he with he | hkey
  · exact h.dues c e he
  · have hfree := (queue s b).le_freeTime (s.nowUs + max delayUs 0)
    have hnow := h.nowUs
    omega

theorem current_insertJob {delayUs : Int} {b : Bool} {dt : Nat} (h : Current s)
    (hinsert : insertJob s delayUs b dt = some s') : Current s' := by
  have hpc := (inserted_keeps s delayUs b dt).pc
  have hstocked : picked (inserted s delayUs b dt).pc = true → Stocked (inserted s delayUs b dt) := by
    intro hpicked
    obtain ⟨e, he⟩ := h.stocked (hpc ▸ hpicked)
    obtain ⟨e', he'⟩ := @head_inserted s delayUs b s.topIsJob dt e he
    exact ⟨e', (inserted_queue s delayUs b dt).2.2 ▸ he'⟩
  obtain rfl | ⟨rfl, hne, hlater⟩ := insertJob_cases hinsert
  · exact current_updateTop hstocked (sane_inserted h.sane delayUs b dt)
  · refine ⟨fun hat hpending => ?_, hstocked, sane_inserted h.sane delayUs b dt⟩
    obtain ⟨hpending', htop, -⟩ := inserted_fields s delayUs b dt
    obtain ⟨hnone, -⟩ | ⟨e, he, hetop, hfirst⟩ | ⟨hentered, hmsg, m, hm⟩ :=
      h.fits (hpc ▸ hat) (hpending' ▸ hpending)
    · exact absurd hnone hne
    · refine .inr (.inl ⟨e, named_inserted he (hetop ▸ hlater), hetop.trans htop.symm, ?_⟩)
      intro m hm
      rw [htop]
      rcases (inserted_entries s delayUs b dt false).2 m hm with hm | hkey
      · exact hfirst m hm
      · omega
    · obtain ⟨m', hm'⟩ := @head_inserted s delayUs b false dt m hm
      exact .inr (.inr ⟨hpc.trans hentered, (inserted_queue s delayUs b dt).2.2.trans hmsg, m', hm'⟩)

-- Start, Pause and Stop

theorem Current.congr (h : Current s) (hpc : s'.pc = s.pc) (hpending : s'.pending = s.pending)
    (htop : s'.topProcessUs = s.topProcessUs) (hflag : s'.topIsJob = s.topIsJob)
    (hstate : s'.runningState = s.runningState) (hnow : s.nowUs ≤ s'.nowUs)
    (hqueue : ∀ b, queue s' b = queue s b) : Current s' := by
  have hmsg : s'.msgQueue = s.msgQueue := hqueue false
  have hjob : s'.jobQueue = s.jobQueue := hqueue true
  refine ⟨fun hat hp => ?_, fun hpicked => ?_, h.sane.nowUs.trans hnow, fun b => ?_⟩
  · have hfits := h.fits (hpc ▸ hat) (hpending ▸ hp)
    unfold Fits Candidate named eligibleJob at hfits ⊢
    rw [hpc, htop, hflag, hstate, hmsg, hjob]
    exact hfits
  · obtain ⟨e, he⟩ := h.stocked (hpc ▸ hpicked)
    refine ⟨e, ?_⟩
    rw [hqueue, hflag]
    exact he
  · rw [hqueue]
    exact h.sane.dues b

theorem current_leave {state : RunningState} (htimed : Timed s) (h : Current s)
    (hstate : state ≠ .started)
    (hclear : s.msgQueue.head? = none ∨ updatesLater s = true) : Current (leave s state) := by
  refine ⟨fun hat hpending => ?_, h.stocked, h.sane.nowUs, h.sane.dues⟩
  rcases hclear with hnone | hlater
  · refine .inl ⟨rfl, fun e he => ?_⟩
    rcases he with he | he
    · rw [show (leave s state).msgQueue.head? = none from hnone] at he
      cases he
    · exact hstate (Option.ite_none_right_eq_some.mp he).1
  · unfold updatesLater at hlater
    split at hlater
    next singleLoop hpc =>
      have hmulti := htimed.multi.pc
      rw [hpc] at hmulti
      obtain rfl := Bool.not_eq_true' _ |>.mp hmulti
      have hflag : s.topIsJob = false := by simpa using hlater
      obtain ⟨m, hm⟩ := h.stocked (by rw [hpc]; rfl)
      rw [hflag] at hm
      exact .inr (.inr ⟨hpc, hflag, m, hm⟩)
    next hpc =>
      rw [show (leave s state).pc = _ from hpc] at hat
      cases hat
    next hpc =>
      rw [show (leave s state).pc = _ from hpc] at hat
      cases hat
    next => cases hlater

theorem current_pauseAsync (htimed : Timed s) (h : Current s)
    (hclear : s.runningState = .started → s.msgQueue.head? = none ∨ updatesLater s = true) :
    Current (pauseAsync s) := by
  unfold pauseAsync
  split
  next hstarted => exact current_leave htimed h (by decide) (hclear hstarted)
  next => exact h

theorem current_stopAsync (htimed : Timed s) (h : Current s)
    (hclear : s.runningState ≠ .stopped → s.msgQueue.head? = none ∨ updatesLater s = true) :
    Current (stopAsync s) := by
  unfold stopAsync
  split
  next => exact h
  next hstopped => exact current_leave htimed h (by decide) (hclear hstopped)

theorem current_start (htimed : Timed s) (h : Current s) : Current (start s) := by
  rw [start, htimed.multi.singleLoop]
  exact current_updateTop h.stocked ⟨h.sane.nowUs, h.sane.dues⟩

theorem current_calling (h : Current s) (hpicked : ¬ picked s'.pc = true)
    (hpending : s'.pending ≠ .none) (hnow : s'.nowUs = s.nowUs)
    (hqueue : ∀ b, queue s' b = queue s b) : Current s' := by
  refine ⟨fun _ hp => absurd hp hpending, fun hp => absurd hp hpicked, ?_, fun b => ?_⟩
  · rw [hnow]
    exact h.sane.nowUs
  · rw [hqueue]
    exact h.sane.dues b

theorem current_proceed (htimed : Timed s) (h : Current s)
    (hclear : s.pending = .clearTop → ¬ Runnable s ∨ updatesLater s = true)
    (hproceed : proceed s = some s') : Current s' := by
  have hquiet : s.pending ≠ .none → ¬ picked s.pc = true := fun hp hpicked =>
    hp (htimed.multi.quiet hpicked)
  unfold proceed at hproceed
  split at hproceed
  next => cases hproceed
  next hp =>
    cases hproceed
    exact current_calling h (hquiet (by rw [hp]; exact nofun)) nofun rfl fun _ => rfl
  next hp =>
    cases hproceed
    have hnot := hquiet (by rw [hp]; exact nofun)
    refine ⟨fun hat _ => .inl ⟨rfl, fun e he => ?_⟩, fun hpicked => absurd hpicked hnot,
      h.sane.nowUs, h.sane.dues⟩
    rcases hclear hp with hidle | hlater
    · refine hidle ?_
      rcases he with he | he
      · exact .inl (by rw [show s.msgQueue.head? = some e from he]; exact nofun)
      · exact .inr (by rw [show eligibleJob s = some e from he]; exact nofun)
    · unfold updatesLater at hlater
      split at hlater
      next hpc => rw [hpc] at hnot; exact hnot rfl
      next hpc => rw [show s.pc = _ from hpc] at hat; cases hat
      next hpc => rw [show s.pc = _ from hpc] at hat; cases hat
      next => cases hlater

-- The thread

theorem stocked_of_named {e : Int × Job} (h : named s = some e) : Stocked s := by
  cases hflag : s.topIsJob with
  | true =>
    rw [named, if_pos hflag] at h
    exact ⟨e, by rw [hflag]; exact eligibleJob_head h⟩
  | false =>
    rw [named, hflag] at h
    exact ⟨e, by rw [hflag]; exact h⟩

theorem current_select (h : Current s) (hselect : select s = some s') : Current s' := by
  obtain ⟨⟨hpc, hpending, htop, -⟩, hselect⟩ := Option.ite_none_right_eq_some.mp hselect
  cases hselect
  obtain ⟨hnone, -⟩ | ⟨e, he, hfirst⟩ | ⟨hentered, -⟩ := h.fits (by rw [hpc]; rfl) hpending
  · exact absurd hnone htop
  · exact ⟨fun _ _ => .inr (.inl ⟨e, he, hfirst⟩), fun _ => stocked_of_named he, h.sane.nowUs,
      h.sane.dues⟩
  · rw [hpc] at hentered
    cases hentered

theorem current_enter (h : Current s) (henter : enter s = some s') : Current s' := by
  obtain ⟨hpc, henter⟩ := Option.ite_none_right_eq_some.mp henter
  cases henter
  refine ⟨fun _ hpending => ?_, fun _ => h.stocked (by rw [hpc]; rfl), h.sane.nowUs, h.sane.dues⟩
  obtain hnone | hnamed | ⟨hentered, -⟩ := h.fits (by rw [hpc]; rfl) hpending
  · exact .inl hnone
  · exact .inr (.inl hnamed)
  · rw [hpc] at hentered
    cases hentered

theorem handle_entered (hpc : s.pc = .entered false) : handle s =
    if s.topIsJob = true ∧ s.runningState ≠ .started then some { s with pc := .idle }
    else take s s.topIsJob := by
  rw [handle, hpc]

theorem Fits.of_early (h : Fits s) (hflag : s.topIsJob = true) (hstate : s.runningState ≠ .started) :
    s.topProcessUs = -1 ∧ ∀ e, ¬ Candidate s e := by
  obtain hnone | ⟨e, he, -⟩ | ⟨-, hmsg, -⟩ := h
  · exact hnone
  · rw [named, if_pos hflag, eligibleJob, if_neg hstate] at he
    cases he
  · rw [hflag] at hmsg
    cases hmsg

theorem current_handle (htimed : Timed s) (h : Current s) (hhandle : handle s = some s') :
    Current s' := by
  obtain ⟨hpc, -⟩ | ⟨hpc, -⟩ := handle_cases hhandle
  · have hmulti := htimed.multi.pc
    rw [hpc] at hmulti
    cases hmulti
  · rw [handle_entered hpc] at hhandle
    split at hhandle
    next hearly =>
      cases hhandle
      have hfits := h.fits (by rw [hpc]; rfl) (htimed.multi.quiet (by rw [hpc]; rfl))
      exact ⟨fun _ _ => .inl (hfits.of_early hearly.1 hearly.2), nofun, h.sane.nowUs, h.sane.dues⟩
    next =>
      obtain ⟨e, hhead, rfl⟩ := Option.map_eq_some_iff.mp hhandle
      have htail : ∀ b, ∀ e ∈ (queue s b).tail.entries, 0 ≤ e.1 := fun b e he =>
        h.sane.dues b e (List.mem_of_mem_tail he)
      cases hflag : s.topIsJob with
      | true =>
        refine ⟨nofun, nofun, h.sane.nowUs, fun b => ?_⟩
        cases b with
        | true => exact htail true
        | false => exact h.sane.dues false
      | false =>
        refine ⟨nofun, nofun, h.sane.nowUs, fun b => ?_⟩
        cases b with
        | true => exact h.sane.dues true
        | false => exact htail false

theorem current_finish {nextDelayUs : Int} (htimed : Timed s) (h : Current s)
    (hfinish : finish s nextDelayUs = some s') : Current s' := by
  obtain ⟨-, -, rfl⟩ | ⟨⟨top, hpc⟩, -⟩ := finish_cases hfinish
  · exact current_updateTop nofun ⟨h.sane.nowUs, h.sane.dues⟩
  · have hmulti := htimed.multi.pc
    rw [hpc] at hmulti
    cases hmulti

/-- **One block** that clears the top rightly. -/
theorem current_step {e : Event} (htimed : Timed s) (h : Current s) (hclear : ClearsRightly s e)
    (hstep : step s e = some s') : Current s' := by
  cases e with
  | tick dt =>
    cases hstep
    exact h.congr rfl rfl rfl rfl rfl (by show s.nowUs ≤ s.nowUs + dt; omega) fun _ => rfl
  | submitJob delayUs dt | submitJobOnce delayUs dt => exact current_insertJob h hstep
  | clearSingleLoop =>
    cases hstep
    exact h.congr rfl rfl rfl rfl rfl (Int.le_refl _) fun _ => rfl
  | submitPriority i dt =>
    obtain ⟨tmpFlag, -, hinsert⟩ := submitPriority_cases hstep
    refine current_insertJob ?_ hinsert
    exact h.congr rfl rfl rfl rfl rfl (Int.le_refl _) fun _ => rfl
  | restoreSingleLoop i =>
    obtain ⟨tmpFlag, -, rfl⟩ := restoreSingleLoop_cases hstep
    exact h.congr rfl rfl rfl rfl rfl (Int.le_refl _) fun _ => rfl
  | start => exact Option.some.inj hstep ▸ current_start htimed h
  | pause =>
    obtain ⟨-, hstep⟩ := Option.ite_none_right_eq_some.mp hstep
    exact Option.some.inj hstep ▸ current_pauseAsync htimed h hclear
  | pauseAsync => exact Option.some.inj hstep ▸ current_pauseAsync htimed h hclear
  | stop =>
    obtain ⟨-, hstep⟩ := Option.ite_none_right_eq_some.mp hstep
    exact Option.some.inj hstep ▸ current_stopAsync htimed h hclear
  | stopAsync => exact Option.some.inj hstep ▸ current_stopAsync htimed h hclear
  | pauseInSelf =>
    obtain ⟨hself, hstep⟩ := Option.ite_none_right_eq_some.mp hstep
    cases hstep
    unfold pauseInSelf
    split
    · exact current_calling h (inSelf_not_picked (s := s) hself) nofun rfl fun _ => rfl
    · exact h
  | stopInSelf =>
    obtain ⟨hself, hstep⟩ := Option.ite_none_right_eq_some.mp hstep
    cases hstep
    exact current_calling h (inSelf_not_picked (s := s) hself) nofun rfl fun _ => rfl
  | proceed => exact current_proceed htimed h hclear hstep
  | select => exact current_select h hstep
  | enter => exact current_enter h hstep
  | handle => exact current_handle htimed h hstep
  | begin =>
    obtain ⟨t, -, rfl⟩ := begin_cases hstep
    exact ⟨nofun, nofun, h.sane.nowUs, h.sane.dues⟩
  | finish nextDelayUs => exact current_finish htimed h hstep

-- What holds in the states of a run

/-- The top is -1 exactly if nothing is runnable, and the first key of the named queue otherwise. -/
structure Faithful (s : State) : Prop where
  none_iff : s.topProcessUs = -1 ↔ ¬ Runnable s
  first : s.topProcessUs ≠ -1 → ∃ e, named s = some e ∧ e.1 = s.topProcessUs

/-- No `HandleJob` of the task is in progress, nor is a job in the middle of `Pause` or `Stop`. -/
def Settled (s : State) : Prop := jobMutexFree s.pc = true ∧ s.pending = .none

theorem Runnable.of_candidate {e : Int × Job} (h : Candidate s e) : Runnable s := by
  rcases h with h | h
  · exact .inl (by rw [h]; exact nofun)
  · exact .inr (by rw [h]; exact nofun)

theorem Runnable.candidate (h : Runnable s) : ∃ e, Candidate s e := by
  rcases h with h | h
  · obtain ⟨e, he⟩ := Option.ne_none_iff_exists'.mp h
    exact ⟨e, .inl he⟩
  · obtain ⟨e, he⟩ := Option.ne_none_iff_exists'.mp h
    exact ⟨e, .inr he⟩

theorem Sane.of_candidate {e : Int × Job} (h : Sane s) (he : Candidate s e) : 0 ≤ e.1 := by
  rcases he with he | he
  · exact h.dues false e (DueQueue.head?_mem he)
  · exact h.dues true e (DueQueue.head?_mem (eligibleJob_head he))

theorem Current.faithful (h : Current s) (hsettled : Settled s) : Faithful s := by
  obtain ⟨hfree, hpending⟩ := hsettled
  have hat : atTop s.pc = true := by
    unfold jobMutexFree at hfree
    split at hfree
    next hpc => rw [hpc]; rfl
    next hpc => rw [hpc]; rfl
    next => cases hfree
  obtain ⟨htop, hnone⟩ | ⟨e, he, hetop, -⟩ | ⟨hpc, -⟩ := h.fits hat hpending
  · refine ⟨⟨fun _ hrunnable => ?_, fun _ => htop⟩, fun hne => absurd htop hne⟩
    obtain ⟨e, he⟩ := hrunnable.candidate
    exact hnone e he
  · have hcandidate := named_candidate he
    have hpos := h.sane.of_candidate hcandidate
    refine ⟨⟨fun htop => ?_, fun hidle => ?_⟩, fun _ => ⟨e, he, hetop⟩⟩
    · omega
    · exact absurd (Runnable.of_candidate hcandidate) hidle
  · rw [hpc] at hfree
    cases hfree

/-- The thread finds a job wherever it takes one, leaves a task that it cannot serve with no due
time, and does not wait for no time at all. -/
structure NoSpin (s : System) : Prop where
  takes : ∀ singleLoop, s.task.pc = .entered singleLoop → handle s.task ≠ none
  returns : ∀ task, handle s.task = some task → task.pc = .idle → task.topProcessUs = -1
  sleeps : ∀ before after s', look s before after = some s' → ∀ w,
    s'.place = .waiting (some w) → s.task.nowUs < w

theorem take_pc {b : Bool} (h : take s b = some s') : s'.pc ≠ .idle := by
  obtain ⟨e, -, rfl⟩ := Option.map_eq_some_iff.mp h
  cases b with
  | true | false => exact nofun

theorem Current.noSpin {s : System} (hplaced : Placed s) (h : Current s.task) : NoSpin s := by
  have hmulti := hplaced.timed.multi
  refine ⟨fun singleLoop hpc => ?_, fun task hhandle hidle => ?_,
    fun before after s' hlook w hwaiting => ?_⟩
  · have hpicked : picked s.task.pc = true := by rw [hpc]; rfl
    have hloop := hmulti.pc
    rw [hpc] at hloop
    obtain rfl : singleLoop = false := by simpa [multiPc] using hloop
    obtain ⟨e, he⟩ := h.stocked hpicked
    rw [handle_entered hpc]
    split
    · exact nofun
    · rw [take, he]
      exact nofun
  · obtain ⟨hpc, -⟩ | ⟨hpc, -⟩ := handle_cases hhandle
    · have hloop := hmulti.pc
      rw [hpc] at hloop
      cases hloop
    · rw [handle_entered hpc] at hhandle
      split at hhandle
      next hearly =>
        cases hhandle
        have hpicked : picked s.task.pc = true := by rw [hpc]; rfl
        have hfits := h.fits (by rw [hpc]; rfl) (hmulti.quiet hpicked)
        exact (hfits.of_early hearly.1 hearly.2).1
      next => exact absurd hidle (take_pc hhandle)
  · obtain ⟨-, -, hplace, hcases⟩ := look_cases hlook
    obtain ⟨rfl, -⟩ | ⟨w', rfl, hlt, -⟩ | ⟨task, -, rfl⟩ | rfl := hcases
    · cases hwaiting
    · obtain rfl : w' = w := Option.some.inj (Place.waiting.inj hwaiting)
      exact hlt
    · rw [show s.place = .waiting (some w) from hwaiting] at hplace
      cases hplace
    · cases hwaiting

def Lowers (s s' : State) : Prop :=
  s'.topProcessUs ≠ -1 ∧ (s.topProcessUs = -1 ∨ s'.topProcessUs < s.topProcessUs)

/-- Who makes the task due earlier while the thread sleeps notifies the thread. -/
def Notifies (s : System) : Prop :=
  ∀ l s', sysStep s l = some s' → Lowers s.task s'.task → isWaiting s.place = true →
    s.notifying < s'.notifying

theorem Lowers.irrefl (s : State) : ¬ Lowers s s := by
  rintro ⟨hne, hnone | hlt⟩
  · exact hne hnone
  · omega

theorem Placed.notifies {s : System} (h : Placed s) : Notifies s := by
  intro l s' hstep hlowers hwaiting
  have hasleep : ∃ u, s.place = .waiting u := by
    unfold isWaiting at hwaiting
    split at hwaiting
    next u hplace => exact ⟨u, hplace⟩
    next => cases hwaiting
  obtain ⟨u, hplace⟩ := hasleep
  cases l with
  | outside e =>
    obtain ⟨he, task, htask, rfl⟩ := outside_cases hstep
    cases hnotify : notifyChange s.task task e with
    | true =>
      show s.notifying < s.notifying + true.toNat
      exact Nat.lt_succ_self _
    | false =>
      have hsame := top_of_quiet he htask hnotify
      obtain ⟨hne, hnone | hlt⟩ := hlowers
      · exact absurd (hsame.trans hnone) hne
      · exact absurd hsame hlt.ne
  | inSelf e =>
    obtain ⟨-, hjob, -⟩ := inSelf_cases hstep
    exact absurd hplace (h.not_waiting hjob u)
  | notifyAll =>
    obtain ⟨-, rfl⟩ := notifyAll_cases hstep
    exact absurd hlowers (Lowers.irrefl _)
  | look before after =>
    obtain ⟨-, -, hawake, -⟩ := look_cases hstep
    rw [hplace] at hawake
    cases hawake
  | back =>
    obtain ⟨-, -, rfl⟩ := back_cases hstep
    exact absurd hlowers (Lowers.irrefl _)
  | wake =>
    obtain ⟨-, rfl⟩ := wake_cases hstep
    exact absurd hlowers (Lowers.irrefl _)
  | thread e =>
    obtain ⟨he, task, htask, rfl⟩ := thread_cases hstep
    have hawake := h.awake (thread_pending he htask).1
    rw [hplace] at hawake
    cases hawake

structure Kept (s : System) : Prop where
  placed : Placed s
  current : Current s.task

theorem sysStep_task {s s' : System} {l : Label} (h : sysStep s l = some s') :
    s'.task = s.task ∨ ∃ e, step s.task e = some s'.task ∧
      (ClearsRightly s.task e ∨ l = .outside e ∨ l = .inSelf e) := by
  cases l with
  | outside e =>
    obtain ⟨-, task, htask, rfl⟩ := outside_cases h
    exact .inr ⟨e, htask, .inr (.inl rfl)⟩
  | inSelf e =>
    obtain ⟨-, -, task, htask, rfl⟩ := inSelf_cases h
    exact .inr ⟨e, htask, .inr (.inr rfl)⟩
  | notifyAll =>
    obtain ⟨-, rfl⟩ := notifyAll_cases h
    exact .inl rfl
  | look before after =>
    obtain ⟨-, -, -, ⟨rfl, -⟩ | ⟨w, rfl, -⟩ | ⟨task, htask, rfl⟩ | rfl⟩ := look_cases h
    · exact .inl rfl
    · exact .inl rfl
    · exact .inr ⟨.select, htask, .inl trivial⟩
    · exact .inl rfl
  | back =>
    obtain ⟨-, -, rfl⟩ := back_cases h
    exact .inl rfl
  | wake =>
    obtain ⟨-, rfl⟩ := wake_cases h
    exact .inl rfl
  | thread e =>
    obtain ⟨he, task, htask, rfl⟩ := thread_cases h
    refine .inr ⟨e, htask, .inl ?_⟩
    cases e <;> trivial

/-- **Every undisturbed step.** -/
theorem Kept.step {s s' : System} {l : Label} (h : Kept s) (hl : Undisturbed s l)
    (hstep : sysStep s l = some s') : Kept s' := by
  refine ⟨h.placed.step hstep, ?_⟩
  obtain hsame | ⟨e, htask, hclear | rfl | rfl⟩ := sysStep_task hstep
  · rw [hsame]
    exact h.current
  · exact current_step h.placed.timed h.current hclear htask
  · exact current_step h.placed.timed h.current hl htask
  · exact current_step h.placed.timed h.current hl htask

theorem kept_init (nowUs : Nat) : Kept (init nowUs) := by
  refine ⟨placed_init nowUs, fun _ _ => .inl ⟨rfl, fun e he => ?_⟩, nofun, Int.natCast_nonneg _, ?_⟩
  · rcases he with he | he
    · cases he
    · cases he
  · intro b e he
    cases b with
    | true | false => cases he

end MediaFoundation.TaskThread
