import MediaFoundation.Osal.TaskJobs

/-!
# When the jobs of a task are due

The thread selects the task by the due time of its top, and takes the job later,
without a second look at the due time. In between every call may change the
queues and choose a new top. What keeps the thread from a job that is not due is
that some entry it may take is due from the selection on, and that `UpdateTop`
never prefers to a due entry one that is not.

A task that is paused or stopped after its selection loses its top, and what it
then gets for a new one is taken at once, whenever it is due. So the bound is
about tasks that have not left STARTED since they were selected, and whose
queues decide the top: not about single loops whose flag
`UpdateThreadPriority` clears for a while.
-/

namespace MediaFoundation.TaskInner

variable {s s' : State}

-- What the calls leave alone

/-- The calls leave the thread where it is. -/
structure Keeps (s s' : State) : Prop where
  nowUs : s.nowUs ≤ s'.nowUs
  pc : s'.pc = s.pc
  executed : s'.executed = s.executed
  singleLoop : s'.singleLoop = s.singleLoop
  toggles : s'.toggles = s.toggles

theorem Keeps.trans {s'' : State} (h : Keeps s s') (h' : Keeps s' s'') : Keeps s s'' :=
  ⟨h.nowUs.trans h'.nowUs, h'.pc.trans h.pc, h'.executed.trans h.executed,
    h'.singleLoop.trans h.singleLoop, h'.toggles.trans h.toggles⟩

/-- The entry that the flag `topIsJob_` names, if the thread may take it. -/
def named (s : State) : Option (Int × Job) :=
  if s.topIsJob then eligibleJob s else s.msgQueue.head?

/-- The entries that `UpdateTop` chooses from. -/
def Candidate (s : State) (e : Int × Job) : Prop :=
  s.msgQueue.head? = some e ∨ eligibleJob s = some e

/-- **The choice of the top.** No candidate is due before it, unless it is due itself. -/
theorem updateTop_spec (s : State) :
    ∃ top isJob, updateTop s = { s with topProcessUs := top, topIsJob := isJob } ∧
      ((top = -1 ∧ ∀ e, ¬ Candidate s e) ∨
        ∃ e, named (updateTop s) = some e ∧ e.1 = top ∧
          ∀ e', Candidate s e' → top ≤ e'.1 ∨ top ≤ s.nowUs) := by
  unfold updateTop
  split
  next hmsg hjob =>
    refine ⟨-1, s.topIsJob, rfl, .inl ⟨rfl, fun e he => ?_⟩⟩
    rw [Candidate, hmsg, hjob] at he
    exact he.elim (fun h => nomatch h) (fun h => nomatch h)
  next job hmsg hjob =>
    refine ⟨job.1, true, rfl, .inr ⟨job, hjob, rfl, fun e he => ?_⟩⟩
    rw [Candidate, hmsg, hjob] at he
    obtain he | he := he
    · cases he
    · exact .inl (Option.some.inj he ▸ Int.le_refl _)
  next msg hmsg hjob =>
    refine ⟨msg.1, false, rfl, .inr ⟨msg, hmsg, rfl, fun e he => ?_⟩⟩
    rw [Candidate, hmsg, hjob] at he
    obtain he | he := he
    · exact .inl (Option.some.inj he ▸ Int.le_refl _)
    · cases he
  next msg job hmsg hjob =>
    split
    next hfirst =>
      refine ⟨msg.1, false, rfl, .inr ⟨msg, hmsg, rfl, fun e he => ?_⟩⟩
      rw [Candidate, hmsg, hjob] at he
      obtain he | he := he
      · exact .inl (Option.some.inj he ▸ Int.le_refl _)
      · cases he
        exact hfirst.symm
    next hfirst =>
      refine ⟨job.1, true, rfl, .inr ⟨job, hjob, rfl, fun e he => ?_⟩⟩
      rw [Candidate, hmsg, hjob] at he
      obtain he | he := he
      · cases he
        exact .inl (by omega)
      · exact .inl (Option.some.inj he ▸ Int.le_refl _)

theorem updateTop_keeps (s : State) : Keeps s (updateTop s) := by
  obtain ⟨top, isJob, heq, -⟩ := updateTop_spec s
  rw [heq]
  exact ⟨Int.le_refl _, rfl, rfl, rfl, rfl⟩

def inserted (s : State) (delayUs : Int) (inJobQueue : Bool) (dt : Nat) : State :=
  let added := (queue s inJobQueue).add (s.nowUs + max delayUs 0) ⟨s.nextId, s.nowUs, delayUs⟩
  let s' := { s with nextId := s.nextId + 1, nowUs := s.nowUs + dt }
  if inJobQueue then { s' with jobQueue := added } else { s' with msgQueue := added }

theorem insertJob_cases {delayUs : Int} {b : Bool} {dt : Nat}
    (h : insertJob s delayUs b dt = some s') :
    s' = updateTop (inserted s delayUs b dt) ∨
      s' = inserted s delayUs b dt ∧ s.topProcessUs ≠ -1 ∧
        s.topProcessUs < (queue s b).freeTime (s.nowUs + max delayUs 0) := by
  unfold insertJob at h
  simp only at h
  split at h
  · cases h
  · cases h
    split
    · exact .inl rfl
    next hlater =>
      rw [not_or, Int.not_le] at hlater
      exact .inr ⟨rfl, hlater.2, hlater.1⟩

theorem inserted_keeps (s : State) (delayUs : Int) (b : Bool) (dt : Nat) :
    Keeps s (inserted s delayUs b dt) := by
  have hnow : s.nowUs ≤ s.nowUs + dt := by omega
  cases b with
  | true | false => exact ⟨hnow, rfl, rfl, rfl, rfl⟩

theorem insertJob_keeps {delayUs : Int} {b : Bool} {dt : Nat}
    (h : insertJob s delayUs b dt = some s') : Keeps s s' := by
  obtain rfl | ⟨rfl, -⟩ := insertJob_cases h
  · exact (inserted_keeps s delayUs b dt).trans (updateTop_keeps _)
  · exact inserted_keeps s delayUs b dt

theorem leave_keeps (s : State) (state : RunningState) : Keeps s (leave s state) :=
  ⟨Int.le_refl _, rfl, rfl, rfl, rfl⟩

theorem pauseAsync_keeps (s : State) : Keeps s (pauseAsync s) := by
  unfold pauseAsync
  split
  · exact leave_keeps s _
  · exact ⟨Int.le_refl _, rfl, rfl, rfl, rfl⟩

theorem stopAsync_keeps (s : State) : Keeps s (stopAsync s) := by
  unfold stopAsync
  split
  · exact ⟨Int.le_refl _, rfl, rfl, rfl, rfl⟩
  · exact leave_keeps s _

theorem start_keeps (s : State) : Keeps s (start s) := by
  unfold start
  split
  · exact ⟨Int.le_refl _, rfl, rfl, rfl, rfl⟩
  · have hstarted : Keeps s { s with runningState := .started } :=
      ⟨Int.le_refl _, rfl, rfl, rfl, rfl⟩
    exact hstarted.trans (updateTop_keeps _)

theorem proceed_keeps (h : proceed s = some s') : Keeps s s' := by
  unfold proceed at h
  split at h
  · cases h
  · cases h
    exact ⟨Int.le_refl _, rfl, rfl, rfl, rfl⟩
  · cases h
    exact ⟨Int.le_refl _, rfl, rfl, rfl, rfl⟩

theorem pauseInSelf_keeps (s : State) : Keeps s (pauseInSelf s) := by
  unfold pauseInSelf
  split
  · exact ⟨Int.le_refl _, rfl, rfl, rfl, rfl⟩
  · exact ⟨Int.le_refl _, rfl, rfl, rfl, rfl⟩

/-- The events other than those of the thread and of `UpdateThreadPriority`. -/
def isCall : Event → Bool
  | .clearSingleLoop | .submitPriority _ _ | .restoreSingleLoop _ => false
  | .select | .enter | .handle | .begin | .finish _ => false
  | _ => true

theorem step_keeps {e : Event} (hcall : isCall e = true) (h : step s e = some s') :
    Keeps s s' := by
  cases e with
  | tick dt =>
    cases h
    exact ⟨by show s.nowUs ≤ s.nowUs + dt; omega, rfl, rfl, rfl, rfl⟩
  | submitJob delayUs dt | submitJobOnce delayUs dt => exact insertJob_keeps h
  | start => exact Option.some.inj h ▸ start_keeps s
  | pause =>
    obtain ⟨-, h⟩ := Option.ite_none_right_eq_some.mp h
    exact Option.some.inj h ▸ pauseAsync_keeps s
  | pauseAsync => exact Option.some.inj h ▸ pauseAsync_keeps s
  | stop =>
    obtain ⟨-, h⟩ := Option.ite_none_right_eq_some.mp h
    exact Option.some.inj h ▸ stopAsync_keeps s
  | stopAsync => exact Option.some.inj h ▸ stopAsync_keeps s
  | pauseInSelf =>
    obtain ⟨-, h⟩ := Option.ite_none_right_eq_some.mp h
    exact Option.some.inj h ▸ pauseInSelf_keeps s
  | stopInSelf =>
    obtain ⟨-, h⟩ := Option.ite_none_right_eq_some.mp h
    cases h
    exact ⟨Int.le_refl _, rfl, rfl, rfl, rfl⟩
  | proceed => exact proceed_keeps h
  | clearSingleLoop | submitPriority i dt | restoreSingleLoop i | select | enter => cases hcall
  | handle | begin | finish nextDelayUs => cases hcall

-- What the thread and UpdateThreadPriority do

/-- The entry as the thread takes it. -/
def takenAs (s : State) (e : Int × Job) : Taken :=
  { job := e.2, inJobQueue := s.topIsJob, dueUs := e.1, timeUs := s.nowUs
    state := s.runningState, seen := s.nextId, withdrawn := s.withdrawn }

theorem handle_cases (h : handle s = some s') :
    (s.pc = .entered true ∧
      (s' = { s with topProcessUs := -1, pc := .idle } ∨
        s' = { s with pc := .looping s.topProcessUs })) ∨
    (s.pc = .entered false ∧
      (s' = { s with pc := .idle } ∨
        ∃ e jobQueue msgQueue, named s = some e ∧
          s' = { s with pc := .taken (takenAs s e), jobQueue, msgQueue })) := by
  unfold handle at h
  split at h
  next hpc =>
    split at h
    · exact .inl ⟨hpc, .inl (Option.some.inj h).symm⟩
    · exact .inl ⟨hpc, .inr (Option.some.inj h).symm⟩
  next hpc =>
    refine .inr ⟨hpc, ?_⟩
    split at h
    · exact .inl (Option.some.inj h).symm
    next hstate =>
      refine .inr ?_
      obtain ⟨e, hhead, rfl⟩ := Option.map_eq_some_iff.mp h
      cases htop : s.topIsJob with
      | true =>
        have hstarted : s.runningState = .started := by
          by_contra hne
          exact hstate ⟨htop, hne⟩
        rw [htop] at hhead
        refine ⟨e, s.jobQueue.tail, s.msgQueue, ?_, ?_⟩
        · rw [named, htop, if_pos rfl, eligibleJob, if_pos hstarted]
          exact hhead
        · rw [takenAs, htop]
          rfl
      | false =>
        rw [htop] at hhead
        refine ⟨e, s.jobQueue, s.msgQueue.tail, ?_, ?_⟩
        · rw [named, htop]
          exact hhead
        · rw [takenAs, htop]
          rfl
  next => cases h

theorem begin_cases (h : begin s = some s') : ∃ t, s.pc = .taken t ∧
    s' = { s with pc := .running t, executed := s.executed ++ [⟨t, s.nowUs, s.runningState⟩] } := by
  unfold begin at h
  split at h
  next t hpc => exact ⟨t, hpc, (Option.some.inj h).symm⟩
  next => cases h

theorem finish_cases {nextDelayUs : Int} (h : finish s nextDelayUs = some s') :
    ((∃ t, s.pc = .running t) ∧ s.pending = .none ∧ s' = updateTop { s with pc := .idle }) ∨
    ((∃ top, s.pc = .looping top) ∧ ∃ top', s' = { s with pc := .idle, topProcessUs := top' }) := by
  unfold finish at h
  split at h
  next t hpc hpending => exact .inl ⟨⟨t, hpc⟩, hpending, (Option.some.inj h).symm⟩
  next top hpc _ =>
    refine .inr ⟨⟨top, hpc⟩, ?_⟩
    split at h
    · exact ⟨_, (Option.some.inj h).symm⟩
    · exact ⟨_, (Option.some.inj h).symm⟩
  next => cases h

theorem submitPriority_cases {i dt : Nat} (h : submitPriority s i dt = some s') :
    ∃ tmpFlag, (⟨tmpFlag, false⟩ : Toggle) ∈ s.toggles ∧
      insertJob { s with toggles := s.toggles.set i ⟨tmpFlag, true⟩ } 0 false dt = some s' := by
  unfold submitPriority at h
  split at h
  next tmpFlag hget => exact ⟨tmpFlag, List.mem_of_getElem? hget, h⟩
  next => cases h

theorem restoreSingleLoop_cases {i : Nat} (h : restoreSingleLoop s i = some s') :
    ∃ tmpFlag, (⟨tmpFlag, true⟩ : Toggle) ∈ s.toggles ∧
      s' = { s with singleLoop := tmpFlag, toggles := s.toggles.eraseIdx i } := by
  unfold restoreSingleLoop at h
  split at h
  next tmpFlag hget => exact ⟨tmpFlag, List.mem_of_getElem? hget, (Option.some.inj h).symm⟩
  next => cases h

-- A job starts after it was taken

structure Clocked (s : State) : Prop where
  underway : ∀ t ∈ underway s, t.timeUs ≤ s.nowUs
  executed : ∀ x ∈ s.executed, x.taken.timeUs ≤ x.startUs

theorem underway_congr (h : s'.pc = s.pc) : underway s' = underway s := by
  rw [underway, underway, h]

theorem Clocked.keeps (h : Clocked s) (hk : Keeps s s') : Clocked s' := by
  refine ⟨fun t ht => ?_, ?_⟩
  · rw [underway_congr hk.pc] at ht
    exact (h.underway t ht).trans hk.nowUs
  · rw [hk.executed]
    exact h.executed

theorem clocked_step {e : Event} (h : Clocked s) (hstep : step s e = some s') : Clocked s' := by
  by_cases hcall : isCall e = true
  · exact h.keeps (step_keeps hcall hstep)
  have hidle : ∀ u : State, u.executed = s.executed → TaskInner.underway u = [] → Clocked u := by
    intro u hexecuted hunder
    refine ⟨fun t ht => ?_, hexecuted ▸ h.executed⟩
    rw [hunder] at ht
    cases ht
  cases e with
  | clearSingleLoop =>
    cases hstep
    exact ⟨h.underway, h.executed⟩
  | submitPriority i dt =>
    obtain ⟨tmpFlag, -, hinsert⟩ := submitPriority_cases hstep
    refine Clocked.keeps ?_ (insertJob_keeps hinsert)
    exact ⟨h.underway, h.executed⟩
  | restoreSingleLoop i =>
    obtain ⟨tmpFlag, -, rfl⟩ := restoreSingleLoop_cases hstep
    exact ⟨h.underway, h.executed⟩
  | select | enter =>
    obtain ⟨-, hstep⟩ := Option.ite_none_right_eq_some.mp hstep
    cases hstep
    exact hidle _ rfl rfl
  | handle =>
    obtain ⟨-, rfl | rfl⟩ | ⟨-, rfl | ⟨e, jobQueue, msgQueue, -, rfl⟩⟩ := handle_cases hstep
    · exact hidle _ rfl rfl
    · exact hidle _ rfl rfl
    · exact hidle _ rfl rfl
    · refine ⟨fun t ht => ?_, h.executed⟩
      obtain rfl := List.mem_singleton.mp ht
      exact Int.le_refl _
  | begin =>
    obtain ⟨t, hpc, rfl⟩ := begin_cases hstep
    refine ⟨fun u hu => (nomatch hu), fun x hx => ?_⟩
    rcases List.mem_append.mp hx with hx | hx
    · exact h.executed x hx
    · obtain rfl := List.mem_singleton.mp hx
      refine h.underway t ?_
      rw [TaskInner.underway, hpc]
      exact List.mem_singleton_self t
  | finish nextDelayUs =>
    obtain ⟨-, -, rfl⟩ | ⟨-, top, rfl⟩ := finish_cases hstep
    · exact (hidle { s with pc := .idle } rfl rfl).keeps (updateTop_keeps _)
    · exact hidle _ rfl rfl
  | _ => exact absurd rfl hcall

-- Single loops

def singlePc : Pc → Bool
  | .idle | .selected | .looping _ => true
  | .entered singleLoop => singleLoop
  | _ => false

/-- A single loop whose flag nobody clears never takes a job from a queue. -/
structure Single (s : State) : Prop where
  singleLoop : s.singleLoop = true
  toggles : s.toggles = []
  pc : singlePc s.pc = true
  executed : s.executed = []

theorem single_step {e : Event} (h : Single s) (he : e ≠ .clearSingleLoop)
    (hstep : step s e = some s') : Single s' := by
  by_cases hcall : isCall e = true
  · have hk := step_keeps hcall hstep
    exact ⟨hk.singleLoop.trans h.singleLoop, hk.toggles.trans h.toggles, hk.pc ▸ h.pc,
      hk.executed.trans h.executed⟩
  cases e with
  | clearSingleLoop => exact absurd rfl he
  | submitPriority i dt =>
    obtain ⟨tmpFlag, hmem, -⟩ := submitPriority_cases hstep
    rw [h.toggles] at hmem
    cases hmem
  | restoreSingleLoop i =>
    obtain ⟨tmpFlag, hmem, -⟩ := restoreSingleLoop_cases hstep
    rw [h.toggles] at hmem
    cases hmem
  | select =>
    obtain ⟨-, hstep⟩ := Option.ite_none_right_eq_some.mp hstep
    cases hstep
    exact ⟨h.singleLoop, h.toggles, rfl, h.executed⟩
  | enter =>
    obtain ⟨-, hstep⟩ := Option.ite_none_right_eq_some.mp hstep
    cases hstep
    exact ⟨h.singleLoop, h.toggles, h.singleLoop, h.executed⟩
  | handle =>
    obtain ⟨-, rfl | rfl⟩ | ⟨hpc, -⟩ := handle_cases hstep
    · exact ⟨h.singleLoop, h.toggles, rfl, h.executed⟩
    · exact ⟨h.singleLoop, h.toggles, rfl, h.executed⟩
    · have hfalse := h.pc
      rw [hpc] at hfalse
      cases hfalse
  | begin =>
    obtain ⟨t, hpc, -⟩ := begin_cases hstep
    have hfalse := h.pc
    rw [hpc] at hfalse
    cases hfalse
  | finish nextDelayUs =>
    obtain ⟨⟨t, hpc⟩, -⟩ | ⟨-, top, rfl⟩ := finish_cases hstep
    · have hfalse := h.pc
      rw [hpc] at hfalse
      cases hfalse
    · exact ⟨h.singleLoop, h.toggles, rfl, h.executed⟩
  | _ => exact absurd rfl hcall

-- What the top says about the queues

def multiPc : Pc → Bool
  | .entered singleLoop => !singleLoop
  | .looping _ => false
  | _ => true

/-- `HandleJob` has not taken a job. -/
def atTop : Pc → Bool
  | .idle | .selected | .entered _ => true
  | _ => false

/-- The thread has selected the task, and has not taken a job. -/
def picked : Pc → Bool
  | .selected | .entered _ => true
  | _ => false

/-- The task is no single loop, and no call of `UpdateThreadPriority` makes it one. -/
structure Multi (s : State) : Prop where
  singleLoop : s.singleLoop = false
  toggles : ∀ g ∈ s.toggles, g.tmpFlag = false
  pc : multiPc s.pc = true
  quiet : picked s.pc = true → s.pending = .none

/-- Due, as far as the thread looks at it. -/
def DueNow (s : State) (e : Int × Job) : Prop := e.1 ≤ s.nowUs + adjustUs

/-- The top is the due time of the entry that the flag names, and from the
selection on the thread takes no entry that is not due. -/
structure Timed (s : State) : Prop where
  multi : Multi s
  top : atTop s.pc = true → s.pending = .none → s.topProcessUs ≠ -1 →
    ∃ e, named s = some e ∧ e.1 = s.topProcessUs
  due : picked s.pc = true → s.withdrawn = false → ∃ e, Candidate s e ∧ DueNow s e
  takes : picked s.pc = true → s.withdrawn = false → ∀ e, named s = some e → DueNow s e

theorem timed_updateTop (hm : Multi s)
    (hdue : picked s.pc = true → s.withdrawn = false → ∃ e, Candidate s e ∧ DueNow s e) :
    Timed (updateTop s) := by
  obtain ⟨top, isJob, heq, hspec⟩ := updateTop_spec s
  rw [heq] at hspec ⊢
  refine ⟨⟨hm.singleLoop, hm.toggles, hm.pc, hm.quiet⟩, fun _ _ htop => ?_, hdue, ?_⟩
  · obtain ⟨hnone, -⟩ | ⟨e, he, hetop, -⟩ := hspec
    · exact absurd hnone htop
    · exact ⟨e, he, hetop⟩
  · intro hpicked hwithdrawn e he
    obtain ⟨e', hcandidate, hdue'⟩ := hdue hpicked hwithdrawn
    obtain ⟨-, hnone⟩ | ⟨e'', he'', htop, hfirst⟩ := hspec
    · exact absurd hcandidate (hnone e')
    · obtain rfl := Option.some.inj (he.symm.trans he'')
      -- no candidate is due before the top, and one of them is due
      have hadjust : (0 : Int) ≤ adjustUs := by decide
      have := hfirst e' hcandidate
      unfold DueNow at hdue' ⊢
      show e.1 ≤ s.nowUs + adjustUs
      omega

theorem candidate_inserted {delayUs : Int} {b : Bool} {dt : Nat} {e : Int × Job}
    (h : Candidate s e) : ∃ e', Candidate (inserted s delayUs b dt) e' ∧ e'.1 ≤ e.1 := by
  obtain h | h := h
  · cases b with
    | true => exact ⟨e, .inl h, Int.le_refl _⟩
    | false =>
      obtain ⟨e', he', hle⟩ := DueQueue.head?_add_le h
      exact ⟨e', .inl he', hle⟩
  · obtain ⟨hstarted, hhead⟩ := Option.ite_none_right_eq_some.mp h
    cases b with
    | true =>
      obtain ⟨e', he', hle⟩ := DueQueue.head?_add_le hhead
      exact ⟨e', .inr ((if_pos hstarted).trans he'), hle⟩
    | false => exact ⟨e, .inr h, Int.le_refl _⟩

/-- A job that is due after the entry that the flag names leaves that entry where it is. -/
theorem named_inserted {delayUs : Int} {b : Bool} {dt : Nat} {e : Int × Job}
    (h : named s = some e) (hlater : e.1 < (queue s b).freeTime (s.nowUs + max delayUs 0)) :
    named (inserted s delayUs b dt) = some e := by
  cases htop : s.topIsJob with
  | true =>
    rw [named, if_pos htop] at h
    obtain ⟨hstarted, hhead⟩ := Option.ite_none_right_eq_some.mp h
    cases b with
    | true =>
      refine (if_pos htop).trans ((if_pos hstarted).trans ?_)
      exact DueQueue.head?_add_of_lt hhead hlater
    | false => exact (if_pos htop).trans h
  | false =>
    have hmsg : ¬ s.topIsJob = true := by rw [htop]; exact Bool.false_ne_true
    rw [named, if_neg hmsg] at h
    cases b with
    | true => exact (if_neg hmsg).trans h
    | false => exact (if_neg hmsg).trans (DueQueue.head?_add_of_lt h hlater)

theorem multi_inserted (h : Multi s) (delayUs : Int) (b : Bool) (dt : Nat) :
    Multi (inserted s delayUs b dt) := by
  cases b with
  | true | false => exact ⟨h.singleLoop, h.toggles, h.pc, h.quiet⟩

theorem inserted_fields (s : State) (delayUs : Int) (b : Bool) (dt : Nat) :
    (inserted s delayUs b dt).pending = s.pending ∧
      (inserted s delayUs b dt).topProcessUs = s.topProcessUs ∧
      (inserted s delayUs b dt).withdrawn = s.withdrawn := by
  cases b with
  | true | false => exact ⟨rfl, rfl, rfl⟩

theorem timed_insertJob {delayUs : Int} {b : Bool} {dt : Nat} (h : Timed s)
    (hinsert : insertJob s delayUs b dt = some s') : Timed s' := by
  have hk := inserted_keeps s delayUs b dt
  have hm := multi_inserted h.multi delayUs b dt
  obtain ⟨hpending, htop, hwithdrawn⟩ := inserted_fields s delayUs b dt
  have hdue : picked (inserted s delayUs b dt).pc = true →
      (inserted s delayUs b dt).withdrawn = false →
      ∃ e, Candidate (inserted s delayUs b dt) e ∧ DueNow (inserted s delayUs b dt) e := by
    intro hp hw
    rw [hk.pc] at hp
    rw [hwithdrawn] at hw
    obtain ⟨e, he, hdue⟩ := h.due hp hw
    obtain ⟨e', he', hle⟩ := candidate_inserted he
    refine ⟨e', he', ?_⟩
    have := hk.nowUs
    unfold DueNow at hdue ⊢
    omega
  obtain rfl | ⟨rfl, hne, hlater⟩ := insertJob_cases hinsert
  · exact timed_updateTop hm hdue
  · refine ⟨hm, fun hat hp _ => ?_, hdue, fun hpicked hw e he => ?_⟩
    · rw [hk.pc] at hat
      rw [hpending] at hp
      obtain ⟨e, he, hetop⟩ := h.top hat hp hne
      rw [htop]
      exact ⟨e, named_inserted he (hetop ▸ hlater), hetop⟩
    · rw [hk.pc] at hpicked
      rw [hwithdrawn] at hw
      have hat : atTop s.pc = true := by
        cases hpc : s.pc <;> rw [hpc] at hpicked <;> first | rfl | cases hpicked
      obtain ⟨e', he', hetop⟩ := h.top hat (h.multi.quiet hpicked) hne
      -- the flag still names the entry that it named before
      obtain rfl := Option.some.inj (he.symm.trans (named_inserted he' (hetop ▸ hlater)))
      have hdue' := h.takes hpicked hw e he'
      have := hk.nowUs
      unfold DueNow at hdue' ⊢
      omega

theorem named_candidate {e : Int × Job} (h : named s = some e) : Candidate s e := by
  unfold named at h
  split at h
  · exact .inr h
  · exact .inl h

theorem timed_leave (h : Timed s) {state : RunningState} (hstate : state ≠ .started) :
    Timed (leave s state) := by
  have hwas : (leave s state).withdrawn = false → s.withdrawn = false ∧ s.runningState ≠ .started := by
    intro hw
    obtain ⟨hw, hne⟩ := Bool.or_eq_false_iff.mp hw
    exact ⟨hw, of_decide_eq_false hne⟩
  refine ⟨⟨h.multi.singleLoop, h.multi.toggles, h.multi.pc, h.multi.quiet⟩,
    fun _ _ htop => absurd rfl htop, fun hpicked hw => ?_, fun hpicked hw e he => ?_⟩
  · obtain ⟨hw, hne⟩ := hwas hw
    obtain ⟨e, hmsg | hjob, hdue⟩ := h.due hpicked hw
    · exact ⟨e, .inl hmsg, hdue⟩
    · exact absurd (Option.ite_none_right_eq_some.mp hjob).1 hne
  · obtain ⟨hw, -⟩ := hwas hw
    refine h.takes hpicked hw e ?_
    cases htop : s.topIsJob with
    | true =>
      rw [named, if_pos (show (leave s state).topIsJob = true from htop)] at he
      exact absurd (Option.ite_none_right_eq_some.mp he).1 hstate
    | false =>
      have hmsg : ¬ s.topIsJob = true := by rw [htop]; exact Bool.false_ne_true
      rw [named, if_neg (show ¬ (leave s state).topIsJob = true from hmsg)] at he
      exact (if_neg hmsg).trans he

theorem timed_pauseAsync (h : Timed s) : Timed (pauseAsync s) := by
  unfold pauseAsync
  split
  · exact timed_leave h (by decide)
  · exact h

theorem timed_stopAsync (h : Timed s) : Timed (stopAsync s) := by
  unfold stopAsync
  split
  · exact h
  · exact timed_leave h (by decide)

theorem timed_start (h : Timed s) : Timed (start s) := by
  rw [start, h.multi.singleLoop]
  refine timed_updateTop ?_ fun hpicked hw => ?_
  · exact ⟨rfl, h.multi.toggles, h.multi.pc, h.multi.quiet⟩
  · obtain ⟨e, hmsg | hjob, hdue⟩ := h.due hpicked hw
    · exact ⟨e, .inl hmsg, hdue⟩
    · exact ⟨e, .inr ((if_pos rfl).trans (Option.ite_none_right_eq_some.mp hjob).2), hdue⟩

/-- Nothing but the flags and the thread's place matters when the thread has not
selected the task and the top is not looked at. -/
theorem timed_quiet (hsingle : s.singleLoop = false) (htoggles : ∀ g ∈ s.toggles, g.tmpFlag = false)
    (hpc : multiPc s.pc = true) (hpicked : ¬ picked s.pc = true)
    (hpending : atTop s.pc = true → s.pending = .none → s.topProcessUs = -1) : Timed s :=
  ⟨⟨hsingle, htoggles, hpc, fun h => absurd h hpicked⟩,
    fun hat hp htop => absurd (hpending hat hp) htop, fun h => absurd h hpicked,
    fun h => absurd h hpicked⟩

theorem inSelf_not_picked (h : inSelf s = true) : ¬ picked s.pc = true := by
  intro hpicked
  unfold inSelf at h
  split at h
  next hpc _ => rw [hpc] at hpicked; cases hpicked
  next hpc _ => rw [hpc] at hpicked; cases hpicked
  next hpc _ => rw [hpc] at hpicked; cases hpicked
  next => cases h

theorem timed_pauseInSelf (h : Timed s) (hself : inSelf s = true) : Timed (pauseInSelf s) := by
  unfold pauseInSelf
  split
  · exact timed_quiet h.multi.singleLoop h.multi.toggles h.multi.pc (inSelf_not_picked (s := s) hself)
      fun _ hp => nomatch hp
  · exact h

theorem timed_stopInSelf (h : Timed s) (hself : inSelf s = true) : Timed (stopInSelf s) :=
  timed_quiet h.multi.singleLoop h.multi.toggles h.multi.pc (inSelf_not_picked (s := s) hself)
    fun _ hp => nomatch hp

theorem timed_proceed (h : Timed s) (hproceed : proceed s = some s') : Timed s' := by
  have hpicked : s.pending ≠ .none → ¬ picked s.pc = true := fun hp hpicked =>
    hp (h.multi.quiet hpicked)
  unfold proceed at hproceed
  split at hproceed
  next => cases hproceed
  next hp =>
    cases hproceed
    exact timed_quiet h.multi.singleLoop h.multi.toggles h.multi.pc
      (hpicked (by rw [hp]; exact nofun)) fun _ hp => nomatch hp
  next hp =>
    cases hproceed
    exact timed_quiet h.multi.singleLoop h.multi.toggles h.multi.pc
      (hpicked (by rw [hp]; exact nofun)) fun _ _ => rfl

theorem timed_flags (h : Timed s) {toggles : List Toggle}
    (htoggles : ∀ g ∈ toggles, g.tmpFlag = false) :
    Timed { s with singleLoop := false, toggles } :=
  ⟨⟨rfl, htoggles, h.multi.pc, h.multi.quiet⟩, h.top, h.due, h.takes⟩

theorem timed_clearSingleLoop (h : Timed s) : Timed (clearSingleLoop s) := by
  refine timed_flags h fun g hg => ?_
  rcases List.mem_append.mp hg with hg | hg
  · exact h.multi.toggles g hg
  · obtain rfl := List.mem_singleton.mp hg
    exact h.multi.singleLoop

theorem timed_submitPriority {i dt : Nat} (h : Timed s) (hsubmit : submitPriority s i dt = some s') :
    Timed s' := by
  obtain ⟨tmpFlag, hmem, hinsert⟩ := submitPriority_cases hsubmit
  refine timed_insertJob ?_ hinsert
  refine ⟨⟨h.multi.singleLoop, fun g hg => ?_, h.multi.pc, h.multi.quiet⟩, h.top, h.due, h.takes⟩
  rcases List.mem_or_eq_of_mem_set hg with hg | rfl
  · exact h.multi.toggles g hg
  · exact h.multi.toggles ⟨tmpFlag, false⟩ hmem

theorem timed_restoreSingleLoop {i : Nat} (h : Timed s)
    (hrestore : restoreSingleLoop s i = some s') : Timed s' := by
  obtain ⟨tmpFlag, hmem, rfl⟩ := restoreSingleLoop_cases hrestore
  obtain rfl : tmpFlag = false := h.multi.toggles _ hmem
  exact timed_flags h fun g hg => h.multi.toggles g (List.mem_of_mem_eraseIdx hg)

/-- The thread selects the task when the entry that the flag names is due. -/
theorem timed_select (h : Timed s) (hselect : select s = some s') : Timed s' := by
  obtain ⟨⟨hpc, hpending, htop, hdue⟩, hselect⟩ := Option.ite_none_right_eq_some.mp hselect
  cases hselect
  obtain ⟨e, he, hetop⟩ := h.top (by rw [hpc]; rfl) hpending htop
  have hnow : e.1 ≤ s.nowUs + adjustUs := hetop ▸ hdue
  refine ⟨⟨h.multi.singleLoop, h.multi.toggles, rfl, fun _ => hpending⟩,
    fun _ _ _ => ⟨e, he, hetop⟩, fun _ _ => ⟨e, named_candidate he, hnow⟩, fun _ _ e' he' => ?_⟩
  obtain rfl := Option.some.inj (he.symm.trans he')
  exact hnow

theorem timed_enter (h : Timed s) (henter : enter s = some s') : Timed s' := by
  obtain ⟨hpc, henter⟩ := Option.ite_none_right_eq_some.mp henter
  cases henter
  have hpicked : picked s.pc = true := by rw [hpc]; rfl
  have hat : atTop s.pc = true := by rw [hpc]; rfl
  refine ⟨⟨h.multi.singleLoop, h.multi.toggles, ?_, fun _ => h.multi.quiet hpicked⟩,
    fun _ => h.top hat, fun _ => h.due hpicked, fun _ => h.takes hpicked⟩
  show (!s.singleLoop) = true
  rw [h.multi.singleLoop]
  rfl

theorem timed_handle (h : Timed s) (hhandle : handle s = some s') : Timed s' := by
  obtain ⟨hpc, -⟩ | ⟨hpc, rfl | ⟨e, jobQueue, msgQueue, -, rfl⟩⟩ := handle_cases hhandle
  · have hmulti := h.multi.pc
    rw [hpc] at hmulti
    cases hmulti
  · have hat : atTop s.pc = true := by rw [hpc]; rfl
    exact ⟨⟨h.multi.singleLoop, h.multi.toggles, rfl, nofun⟩, fun _ => h.top hat, nofun, nofun⟩
  · exact timed_quiet h.multi.singleLoop h.multi.toggles rfl nofun nofun

theorem timed_begin (h : Timed s) (hbegin : begin s = some s') : Timed s' := by
  obtain ⟨t, -, rfl⟩ := begin_cases hbegin
  exact timed_quiet h.multi.singleLoop h.multi.toggles rfl nofun nofun

theorem timed_finish {nextDelayUs : Int} (h : Timed s) (hfinish : finish s nextDelayUs = some s') :
    Timed s' := by
  obtain ⟨-, -, rfl⟩ | ⟨⟨top, hpc⟩, -⟩ := finish_cases hfinish
  · exact timed_updateTop ⟨h.multi.singleLoop, h.multi.toggles, rfl, nofun⟩ nofun
  · have hmulti := h.multi.pc
    rw [hpc] at hmulti
    cases hmulti

/-- **One block** of any interleaving. -/
theorem timed_step {e : Event} (h : Timed s) (hstep : step s e = some s') : Timed s' := by
  cases e with
  | tick dt =>
    cases hstep
    have hlater : ∀ e : Int × Job, DueNow s e → DueNow { s with nowUs := s.nowUs + dt } e := by
      intro e hdue
      unfold DueNow at hdue
      show e.1 ≤ s.nowUs + dt + adjustUs
      omega
    refine ⟨⟨h.multi.singleLoop, h.multi.toggles, h.multi.pc, h.multi.quiet⟩, h.top,
      fun hpicked hw => ?_, fun hpicked hw e he => hlater e (h.takes hpicked hw e he)⟩
    obtain ⟨e, he, hdue⟩ := h.due hpicked hw
    exact ⟨e, he, hlater e hdue⟩
  | submitJob delayUs dt | submitJobOnce delayUs dt => exact timed_insertJob h hstep
  | clearSingleLoop => exact Option.some.inj hstep ▸ timed_clearSingleLoop h
  | submitPriority i dt => exact timed_submitPriority h hstep
  | restoreSingleLoop i => exact timed_restoreSingleLoop h hstep
  | start => exact Option.some.inj hstep ▸ timed_start h
  | pause =>
    obtain ⟨-, hstep⟩ := Option.ite_none_right_eq_some.mp hstep
    exact Option.some.inj hstep ▸ timed_pauseAsync h
  | pauseAsync => exact Option.some.inj hstep ▸ timed_pauseAsync h
  | stop =>
    obtain ⟨-, hstep⟩ := Option.ite_none_right_eq_some.mp hstep
    exact Option.some.inj hstep ▸ timed_stopAsync h
  | stopAsync => exact Option.some.inj hstep ▸ timed_stopAsync h
  | pauseInSelf =>
    obtain ⟨hself, hstep⟩ := Option.ite_none_right_eq_some.mp hstep
    exact Option.some.inj hstep ▸ timed_pauseInSelf h hself
  | stopInSelf =>
    obtain ⟨hself, hstep⟩ := Option.ite_none_right_eq_some.mp hstep
    exact Option.some.inj hstep ▸ timed_stopInSelf h hself
  | proceed => exact timed_proceed h hstep
  | select => exact timed_select h hstep
  | enter => exact timed_enter h hstep
  | handle => exact timed_handle h hstep
  | begin => exact timed_begin h hstep
  | finish nextDelayUs => exact timed_finish h hstep

-- The jobs along a run

/-- No job was taken before it was due, unless its task had been withdrawn. -/
def InTime (s : State) : Prop :=
  ∀ t ∈ takenJobs s, t.withdrawn = false → t.dueUs ≤ t.timeUs + adjustUs

theorem inTime_step {e : Event} (htimed : Timed s) (h : InTime s) (hstep : step s e = some s') :
    InTime s' := by
  cases step_moves hstep with
  | stay hsame =>
    have htaken : takenJobs s' = takenJobs s := congrArg Ledger.taken hsame
    rw [InTime, htaken]
    exact h
  | insert b delayUs hself hother htaken hnext =>
    rw [InTime, htaken]
    exact h
  | take t hhead hself hother htaken hnext hseen hstate hfrom =>
    obtain ⟨hpc, hqueue, -, htime, hwithdrawn⟩ := hfrom
    intro u hu hw
    rw [htaken] at hu
    rcases List.mem_append.mp hu with hu | hu
    · exact h u hu hw
    · obtain rfl := List.mem_singleton.mp hu
      have hnamed : named s = some (u.dueUs, u.job) := by
        cases htop : s.topIsJob with
        | true =>
          rw [hqueue, htop] at hhead hstate
          rw [named, if_pos htop, eligibleJob, if_pos (hstate rfl)]
          exact hhead
        | false =>
          rw [hqueue, htop] at hhead
          rw [named, htop]
          exact hhead
      rw [htime]
      exact htimed.takes (by rw [hpc]; rfl) (hwithdrawn ▸ hw) _ hnamed

theorem accounts_init (nowUs : Nat) (singleLoop : Bool) :
    Accounts (ledger (init nowUs singleLoop)) := by
  have hnone : ∀ t, t ∉ (ledger (init nowUs singleLoop)).taken := fun t => List.not_mem_nil
  refine ⟨.refl _, fun t ht => absurd ht (hnone t), .nil, fun t ht => absurd ht (hnone t),
    fun t ht => absurd ht (hnone t), fun t ht => absurd ht (hnone t), fun b e he => ?_⟩
  cases b with
  | true | false => cases he

theorem clocked_init {nowUs : Nat} {singleLoop : Bool} : Clocked (init nowUs singleLoop) :=
  ⟨fun _ ht => (List.not_mem_nil ht).elim, fun _ hx => (List.not_mem_nil hx).elim⟩

theorem timed_init (nowUs : Nat) : Timed (init nowUs false) :=
  timed_quiet rfl nofun rfl nofun fun _ _ => rfl

def EachOnce (s : State) : Prop :=
  (waitingIds s.jobQueue ++ waitingIds s.msgQueue ++ (takenJobs s).map fun t => t.job.id).Perm
    (List.range s.nextId)

def InOrder (s : State) : Prop :=
  (takenJobs s).Pairwise fun t t' =>
    t.inJobQueue = t'.inJobQueue → t'.job.id < t.seen → t.dueUs < t'.dueUs

/-- Two jobs and a message. One job waits, and the task is paused before it is due. -/
def pausedRun : List Event :=
  [.submitJob 0 0, .submitJob 2000 0, .start, .submitJobOnce 1000 0,
    .select, .enter, .handle, .begin, .finish 0,
    .tick 1000, .pause, .tick 4000]

/-- The due time that the caller asked for. -/
def Job.askedUs (job : Job) : Int := job.submittedUs + max job.delayUs 0

def NotEarly (s : State) : Prop := ∀ x ∈ s.executed, x.taken.job.askedUs ≤ x.startUs

def InAskedOrder (s : State) : Prop :=
  s.executed.Pairwise fun x y => x.taken.inJobQueue = y.taken.inJobQueue →
    y.taken.job.id < x.taken.seen → x.taken.job.askedUs ≤ y.taken.job.askedUs

def StartsStarted (s : State) : Prop :=
  ∀ x ∈ s.executed, x.taken.inJobQueue = true → x.startState = .started

instance (s : State) : Decidable (NotEarly s) := by unfold NotEarly; infer_instance

instance (s : State) : Decidable (InAskedOrder s) := by unfold InAskedOrder; infer_instance

instance (s : State) : Decidable (StartsStarted s) := by unfold StartsStarted; infer_instance

def handled : List Event := [.select, .enter, .handle, .begin, .finish 0]

/-- `ADJUST_US` before it is due. -/
def earlyRun : List Event := [.submitJob 500 0, .start] ++ handled

/-- Four messages at one time. The due times of the second and the last are occupied. -/
def shiftedRun : List Event :=
  [.submitJobOnce 10 0, .submitJobOnce 10 0, .submitJobOnce 11 0, .submitJobOnce 10 0] ++
    handled ++ handled ++ handled ++ handled

/-- `PauseAsync` after the job has been taken. -/
def pausedStartRun : List Event :=
  [.submitJob 0 0, .start, .select, .enter, .handle, .pauseAsync, .begin]

/-- `PauseAsync` after the selection, and a message that is due in ten seconds. -/
def withdrawnRun : List Event :=
  [.submitJob 0 0, .start, .select, .pauseAsync, .submitJobOnce 10000000 0, .enter, .handle, .begin]

/-- A single loop whose flag is cleared when its message is ten seconds away. -/
def clearedRun : List Event :=
  [.start, .submitJobOnce 10000000 0, .select, .clearSingleLoop, .enter, .handle, .begin]

end MediaFoundation.TaskInner
