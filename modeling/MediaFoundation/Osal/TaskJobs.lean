import MediaFoundation.Lib.Runs
import MediaFoundation.Osal.TaskInner

/-!
# The jobs of a task

What any interleaving of the calls and the pipeline thread keeps of the jobs:
each submitted job is in one place, and is taken once, as the earliest of its
queue, from `jobQueue_` only in the state STARTED. Its due time is the one that
its queue keeps it under.
-/

namespace MediaFoundation.TaskInner

-- Where the jobs are

/-- The job that has been taken and is not called yet. -/
def underway (s : State) : List Taken :=
  match s.pc with
  | .taken t => [t]
  | _ => []

def takenJobs (s : State) : List Taken := s.executed.map Execution.taken ++ underway s

def waitingIds (q : DueQueue Job) : List Nat := q.entries.map fun e => e.2.id

structure Ledger where
  jobQueue : DueQueue Job
  msgQueue : DueQueue Job
  taken : List Taken
  nextId : Nat

def ledger (s : State) : Ledger := ⟨s.jobQueue, s.msgQueue, takenJobs s, s.nextId⟩

def Ledger.queue (l : Ledger) (inJobQueue : Bool) : DueQueue Job :=
  if inJobQueue then l.jobQueue else l.msgQueue

inductive Moves (s : State) : State → Prop where
  | stay {s' : State} (h : ledger s' = ledger s) : Moves s s'
  | insert {s' : State} (inJobQueue : Bool) (delayUs : Int)
      (hself : (ledger s').queue inJobQueue =
        ((ledger s).queue inJobQueue).add (s.nowUs + max delayUs 0) ⟨s.nextId, s.nowUs, delayUs⟩)
      (hother : (ledger s').queue (!inJobQueue) = (ledger s).queue (!inJobQueue))
      (htaken : takenJobs s' = takenJobs s) (hnext : s'.nextId = s.nextId + 1) : Moves s s'
  | take {s' : State} (t : Taken)
      (hhead : ((ledger s).queue t.inJobQueue).head? = some (t.dueUs, t.job))
      (hself : (ledger s').queue t.inJobQueue = ((ledger s).queue t.inJobQueue).tail)
      (hother : (ledger s').queue (!t.inJobQueue) = (ledger s).queue (!t.inJobQueue))
      (htaken : takenJobs s' = takenJobs s ++ [t]) (hnext : s'.nextId = s.nextId)
      (hseen : t.seen = s.nextId) (hstate : t.inJobQueue = true → s.runningState = .started)
      (hfrom : s.pc = .entered false ∧ t.inJobQueue = s.topIsJob ∧ t.state = s.runningState ∧
        t.timeUs = s.nowUs ∧ t.withdrawn = s.withdrawn) : Moves s s'

theorem ledger_updateTop (s : State) : ledger (updateTop s) = ledger s := by
  unfold updateTop
  split
  · rfl
  · rfl
  · rfl
  · split
    · rfl
    · rfl

theorem insertJob_moves {s s' : State} {delayUs : Int} {inJobQueue : Bool} {dt : Nat}
    (h : insertJob s delayUs inJobQueue dt = some s') : Moves s s' := by
  unfold insertJob at h
  simp only at h
  split at h
  · cases h
  · cases h
    have hledger : ∀ (c : Prop) [Decidable c] (u : State),
        ledger (if c then updateTop u else u) = ledger u := by
      intro c _ u
      split
      · exact ledger_updateTop u
      · rfl
    refine .insert inJobQueue delayUs ?_ ?_ ?_ ?_
    · rw [hledger]
      cases inJobQueue <;> rfl
    · rw [hledger]
      cases inJobQueue <;> rfl
    · refine (congrArg Ledger.taken (hledger _ _)).trans ?_
      cases inJobQueue <;> rfl
    · refine (congrArg Ledger.nextId (hledger _ _)).trans ?_
      cases inJobQueue <;> rfl

theorem take_moves {s s' : State} (hpc : s.pc = .entered false)
    (hstate : s.topIsJob = true → s.runningState = .started)
    (h : take s s.topIsJob = some s') : Moves s s' := by
  obtain ⟨⟨due, job⟩, hhead, rfl⟩ := Option.map_eq_some_iff.mp h
  have htaken : takenJobs s = s.executed.map Execution.taken := by
    rw [takenJobs, underway, hpc, List.append_nil]
  refine .take ⟨job, s.topIsJob, due, s.nowUs, s.runningState, s.nextId, s.withdrawn⟩ hhead ?_ ?_ ?_
    ?_ rfl hstate ⟨hpc, rfl, rfl, rfl, rfl⟩
  · cases s.topIsJob <;> rfl
  · cases s.topIsJob <;> rfl
  · rw [htaken]
    cases s.topIsJob <;> rfl
  · cases s.topIsJob <;> rfl

variable {s s' : State}

theorem start_stays (s : State) : ledger (start s) = ledger s := by
  unfold start
  split
  · rfl
  · exact ledger_updateTop _

theorem pauseAsync_stays (s : State) : ledger (pauseAsync s) = ledger s := by
  unfold pauseAsync
  split <;> rfl

theorem stopAsync_stays (s : State) : ledger (stopAsync s) = ledger s := by
  unfold stopAsync
  split <;> rfl

theorem submitPriority_moves {i dt : Nat} (h : submitPriority s i dt = some s') : Moves s s' := by
  unfold submitPriority at h
  split at h
  next tmpFlag _ =>
    cases insertJob_moves h with
    | stay h => exact .stay h
    | insert inJobQueue delayUs hself hother htaken hnext =>
      exact .insert inJobQueue delayUs hself hother htaken hnext
    | take t hhead hself hother htaken hnext hseen hstate hfrom =>
      exact .take t hhead hself hother htaken hnext hseen hstate hfrom
  next => cases h

theorem restoreSingleLoop_stays {i : Nat} (h : restoreSingleLoop s i = some s') :
    ledger s' = ledger s := by
  unfold restoreSingleLoop at h
  split at h
  · cases h
    rfl
  · cases h

theorem proceed_stays (h : proceed s = some s') : ledger s' = ledger s := by
  unfold proceed at h
  split at h
  · cases h
  · cases h
    rfl
  · cases h
    rfl

theorem handle_moves (h : handle s = some s') : Moves s s' := by
  unfold handle at h
  split at h
  next hpc =>
    have hnone : takenJobs s = s.executed.map Execution.taken := by
      rw [takenJobs, underway, hpc, List.append_nil]
    split at h
    · cases h
      refine .stay ?_
      rw [ledger, ledger, hnone]
      simp [takenJobs, underway]
    · cases h
      refine .stay ?_
      rw [ledger, ledger, hnone]
      simp [takenJobs, underway]
  next hpc =>
    have hunder : underway s = [] := by rw [underway, hpc]
    split at h
    · cases h
      refine .stay ?_
      rw [ledger, ledger, takenJobs, takenJobs, hunder]
      rfl
    next hstate =>
      refine take_moves hpc (fun htop => ?_) h
      by_contra hne
      exact hstate ⟨htop, hne⟩
  next => cases h

theorem begin_stays (h : begin s = some s') : ledger s' = ledger s := by
  unfold begin at h
  split at h
  next t hpc =>
    cases h
    rw [ledger, ledger, takenJobs, takenJobs, underway, underway, hpc]
    simp
  next => cases h

theorem finish_stays {nextDelayUs : Int} (h : finish s nextDelayUs = some s') :
    ledger s' = ledger s := by
  unfold finish at h
  split at h
  next t hpc _ =>
    cases h
    rw [ledger_updateTop, ledger, ledger, takenJobs, takenJobs, underway, underway, hpc]
  next _ hpc _ =>
    split at h
    · cases h
      rw [ledger, ledger, takenJobs, takenJobs, underway, underway, hpc]
    · cases h
      rw [ledger, ledger, takenJobs, takenJobs, underway, underway, hpc]
  next => cases h

/-- **One block** of any interleaving. -/
theorem step_moves {e : Event} (h : step s e = some s') : Moves s s' := by
  cases e with
  | tick dt | clearSingleLoop =>
    cases h
    exact .stay rfl
  | submitJob delayUs dt | submitJobOnce delayUs dt => exact insertJob_moves h
  | submitPriority i dt => exact submitPriority_moves h
  | restoreSingleLoop i => exact .stay (restoreSingleLoop_stays h)
  | start =>
    cases h
    exact .stay (start_stays s)
  | pause =>
    obtain ⟨-, h⟩ := Option.ite_none_right_eq_some.mp h
    cases h
    exact .stay (pauseAsync_stays s)
  | pauseAsync =>
    cases h
    exact .stay (pauseAsync_stays s)
  | stop =>
    obtain ⟨-, h⟩ := Option.ite_none_right_eq_some.mp h
    cases h
    exact .stay (stopAsync_stays s)
  | stopAsync =>
    cases h
    exact .stay (stopAsync_stays s)
  | pauseInSelf =>
    obtain ⟨-, h⟩ := Option.ite_none_right_eq_some.mp h
    cases h
    unfold pauseInSelf
    split
    · exact .stay rfl
    · exact .stay rfl
  | stopInSelf =>
    obtain ⟨-, h⟩ := Option.ite_none_right_eq_some.mp h
    cases h
    exact .stay rfl
  | proceed => exact .stay (proceed_stays h)
  | select =>
    obtain ⟨⟨hpc, -⟩, h⟩ := Option.ite_none_right_eq_some.mp h
    cases h
    refine .stay ?_
    rw [ledger, ledger, takenJobs, takenJobs, underway, underway, hpc]
  | enter =>
    obtain ⟨hpc, h⟩ := Option.ite_none_right_eq_some.mp h
    cases h
    refine .stay ?_
    rw [ledger, ledger, takenJobs, takenJobs, underway, underway, hpc]
  | handle => exact handle_moves h
  | begin => exact .stay (begin_stays h)
  | finish nextDelayUs => exact .stay (finish_stays h)

-- The jobs along a run

def AtLeastAsked (job : Job) (dueUs : Int) : Prop := job.submittedUs + max job.delayUs 0 ≤ dueUs

/-- Each submitted job is in one place. The jobs of a queue have been taken in
the order of their due times, as far as they waited together. -/
structure Accounts (l : Ledger) : Prop where
  ids : (waitingIds l.jobQueue ++ waitingIds l.msgQueue ++ l.taken.map fun t => t.job.id).Perm
    (List.range l.nextId)
  seen : ∀ t ∈ l.taken, t.seen ≤ l.nextId
  order : l.taken.Pairwise fun t t' =>
    t.inJobQueue = t'.inJobQueue → t'.job.id < t.seen → t.dueUs < t'.dueUs
  waiting : ∀ t ∈ l.taken, ∀ e ∈ (l.queue t.inJobQueue).entries,
    e.2.id < t.seen → t.dueUs < e.1
  started : ∀ t ∈ l.taken, t.inJobQueue = true → t.state = .started
  asked : ∀ t ∈ l.taken, AtLeastAsked t.job t.dueUs
  askedWaiting : ∀ b, ∀ e ∈ (l.queue b).entries, AtLeastAsked e.2 e.1

theorem waitingIds_add (q : DueQueue Job) (t : Int) (job : Job) :
    (waitingIds (q.add t job)).Perm (job.id :: waitingIds q) :=
  (q.entries_add t job).map _

theorem waitingIds_head {q : DueQueue Job} {e : Int × Job} (h : q.head? = some e) :
    waitingIds q = e.2.id :: waitingIds q.tail := by
  rw [waitingIds, DueQueue.entries_of_head? h]
  rfl

/-- The two queues as one list, whichever of them comes first. -/
theorem waiting_perm (l : Ledger) (b : Bool) :
    (waitingIds l.jobQueue ++ waitingIds l.msgQueue).Perm
      (waitingIds (l.queue b) ++ waitingIds (l.queue !b)) := by
  cases b with
  | true => exact .refl _
  | false => exact List.perm_append_comm

theorem accounts_insert (h : Accounts (ledger s)) (b : Bool) (delayUs : Int)
    (hself : (ledger s').queue b =
      ((ledger s).queue b).add (s.nowUs + max delayUs 0) ⟨s.nextId, s.nowUs, delayUs⟩)
    (hother : (ledger s').queue (!b) = (ledger s).queue (!b))
    (htaken : takenJobs s' = takenJobs s) (hnext : s'.nextId = s.nextId + 1) :
    Accounts (ledger s') := by
  have hmem : ∀ c, ∀ e ∈ ((ledger s').queue c).entries, e ∈ ((ledger s).queue c).entries ∨
      e.2.id = s.nextId ∧ AtLeastAsked e.2 e.1 := by
    intro c e he
    by_cases hc : c = b
    · subst hc
      rw [hself] at he
      rcases List.mem_cons.mp ((DueQueue.entries_add _ _ _).mem_iff.mp he) with rfl | he
      · exact .inr ⟨rfl, DueQueue.le_freeTime _ _⟩
      · exact .inl he
    · obtain rfl : c = !b := Bool.eq_not_of_ne hc
      rw [hother] at he
      exact .inl he
  have hl : (ledger s').taken = (ledger s).taken := htaken
  have hn : (ledger s').nextId = (ledger s).nextId + 1 := hnext
  refine ⟨?_, ?_, ?_, ?_, ?_, ?_, ?_⟩
  · rw [hl, hn, List.range_succ]
    have hwaiting : (waitingIds (ledger s').jobQueue ++ waitingIds (ledger s').msgQueue).Perm
        (s.nextId :: (waitingIds (ledger s).jobQueue ++ waitingIds (ledger s).msgQueue)) := by
      refine (waiting_perm (ledger s') b).trans ?_
      rw [hself, hother]
      refine ((waitingIds_add _ _ _).append_right _).trans ?_
      exact ((waiting_perm (ledger s) b).symm.cons _)
    refine (hwaiting.append_right _).trans ?_
    exact (h.ids.cons _).trans (List.perm_append_singleton _ _).symm
  · intro t ht
    rw [hn]
    exact (h.seen t (hl ▸ ht)).trans (Nat.le_succ _)
  · exact hl ▸ h.order
  · intro t ht e he hid
    rcases hmem _ e he with he | ⟨hnew, -⟩
    · exact h.waiting t (hl ▸ ht) e he hid
    · have hseen : t.seen ≤ s.nextId := h.seen t (hl ▸ ht)
      omega
  · exact fun t ht => h.started t (hl ▸ ht)
  · exact fun t ht => h.asked t (hl ▸ ht)
  · intro c e he
    rcases hmem c e he with he | ⟨-, hasked⟩
    · exact h.askedWaiting c e he
    · exact hasked

theorem accounts_take (h : Accounts (ledger s)) (t : Taken)
    (hhead : ((ledger s).queue t.inJobQueue).head? = some (t.dueUs, t.job))
    (hself : (ledger s').queue t.inJobQueue = ((ledger s).queue t.inJobQueue).tail)
    (hother : (ledger s').queue (!t.inJobQueue) = (ledger s).queue (!t.inJobQueue))
    (htaken : takenJobs s' = takenJobs s ++ [t]) (hnext : s'.nextId = s.nextId)
    (hseen : t.seen = s.nextId) (hstate : t.inJobQueue = true → t.state = .started) :
    Accounts (ledger s') := by
  have hentries := DueQueue.entries_of_head? hhead
  have hmem : ∀ c, ∀ e ∈ ((ledger s').queue c).entries, e ∈ ((ledger s).queue c).entries := by
    intro c e he
    by_cases hc : c = t.inJobQueue
    · subst hc
      rw [hself] at he
      rw [hentries]
      exact List.mem_cons_of_mem _ he
    · obtain rfl : c = !t.inJobQueue := Bool.eq_not_of_ne hc
      rwa [hother] at he
  have hl : (ledger s').taken = (ledger s).taken ++ [t] := htaken
  have hn : (ledger s').nextId = (ledger s).nextId := hnext
  have hold : ∀ u ∈ (ledger s').taken, u ∈ (ledger s).taken ∨ u = t := by
    intro u hu
    rw [hl] at hu
    exact (List.mem_append.mp hu).imp_right List.mem_singleton.mp
  refine ⟨?_, ?_, ?_, ?_, ?_, ?_, ?_⟩
  · rw [hl, hn, List.map_append, ← List.append_assoc]
    have hwaiting : (waitingIds (ledger s).jobQueue ++ waitingIds (ledger s).msgQueue).Perm
        (t.job.id :: (waitingIds (ledger s').jobQueue ++ waitingIds (ledger s').msgQueue)) := by
      refine (waiting_perm (ledger s) t.inJobQueue).trans ?_
      refine .trans ?_ ((waiting_perm (ledger s') t.inJobQueue).symm.cons _)
      rw [hself, hother, waitingIds_head hhead]
      exact .refl _
    refine (List.perm_append_singleton _ _).trans ?_
    exact (hwaiting.symm.append_right _).trans h.ids
  · intro u hu
    rw [hn]
    rcases hold u hu with hu | rfl
    · exact h.seen u hu
    · exact hseen.le
  · rw [hl, List.pairwise_append]
    refine ⟨h.order, List.pairwise_singleton _ _, fun u hu u' hu' hsame hid => ?_⟩
    obtain rfl := List.mem_singleton.mp hu'
    have hhead : (u'.dueUs, u'.job) ∈ ((ledger s).queue u.inJobQueue).entries := by
      rw [hsame]
      exact DueQueue.head?_mem hhead
    exact h.waiting u hu _ hhead hid
  · intro u hu e he hid
    rcases hold u hu with hu | rfl
    · exact h.waiting u hu e (hmem _ e he) hid
    · rw [hself] at he
      have hordered := ((ledger s).queue u.inJobQueue).ordered
      rw [hentries] at hordered
      exact (List.pairwise_cons.mp hordered).1 e he
  · intro u hu
    rcases hold u hu with hu | rfl
    · exact h.started u hu
    · exact hstate
  · intro u hu
    rcases hold u hu with hu | rfl
    · exact h.asked u hu
    · exact h.askedWaiting _ _ (DueQueue.head?_mem hhead)
  · exact fun c e he => h.askedWaiting c e (hmem c e he)

theorem accounts_step {e : Event} (h : Accounts (ledger s)) (hstep : step s e = some s') :
    Accounts (ledger s') := by
  cases step_moves hstep with
  | stay hsame => exact hsame ▸ h
  | insert b delayUs hself hother htaken hnext =>
    exact accounts_insert h b delayUs hself hother htaken hnext
  | take t hhead hself hother htaken hnext hseen hstate hfrom =>
    exact accounts_take h t hhead hself hother htaken hnext hseen fun hjob =>
      hfrom.2.2.1.trans (hstate hjob)

end MediaFoundation.TaskInner
