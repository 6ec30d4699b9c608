import MediaFoundation.Lib.Runs

/-!
# The buffer jobs of a filter

`Filter::ProcessInputBuffer`, `ProcessOutputBuffer` and `Flush` of `src/filter/filter.cpp`, called
by any threads. A job has a number, and is dropped if a flush has raised the base to it.

Conventions:

* A step is what is done under the mutex, or a call of a hook. The task starts any job that was
  submitted, and runs one at a time; delays do not matter.
* `raised`, `overlapped`, `crossed`, `submitted`, `calls` and `hooks` only record what has happened.
-/

namespace MediaFoundation.BufferJobs

/-- The arguments of a call, or of its hook without the drop flag. -/
inductive BufferCall where
  | input (sendArg : Int)
  | output (sendArg : Int) (byIdx : Bool) (idx : Nat) (renderTime : Int)
deriving DecidableEq

def BufferCall.direct : BufferCall → BufferCall
  | .input sendArg => .input sendArg
  | .output sendArg _ idx renderTime => .output sendArg false idx renderTime

inductive Phase where
  | numbered
  | submitted
  /-- It has compared its number, and is about to call the hook. -/
  | started (isDrop : Bool)
deriving DecidableEq

structure Job where
  processIdx : Nat
  call : BufferCall
  phase : Phase := .numbered
  raised : Bool := false
  /-- There was a flush between the call and the start. -/
  overlapped : Bool
  /-- A flush that was entered after the job was submitted has called `DoFlush`. -/
  crossed : Bool := false
deriving DecidableEq

def Job.waits (j : Job) : Bool := j.phase = .numbered || j.phase = .submitted

structure FlushCall where
  id : Nat
  raised : Bool := false
  /-- The jobs that were submitted when it was entered. -/
  submitted : List Nat
deriving DecidableEq

structure Hook where
  call : BufferCall
  isDrop : Bool
  job : Option Job
deriving DecidableEq

structure Filter where
  isAsyncMode_ : Bool
  filterTask_ : Bool
  jobIdx_ : Nat := 0
  jobIdxBase_ : Nat := 0
  jobs : List Job := []
  flushes : List FlushCall := []
  calls : List BufferCall := []
  hooks : List Hook := []
deriving DecidableEq

inductive Label where
  | process (call : BufferCall)
  | submit (processIdx : Nat)
  | start (processIdx : Nat)
  | run (processIdx : Nat)
  | flush (id : Nat)
  | raise (id : Nat)
  | doFlush (id : Nat)

def process (s : Filter) (call : BufferCall) : Filter :=
  if s.isAsyncMode_ && !s.filterTask_ then s
  else if s.filterTask_ then
    { s with
      jobIdx_ := s.jobIdx_ + 1
      jobs := s.jobs ++
        [{ processIdx := s.jobIdx_ + 1, call, overlapped := !s.flushes.isEmpty }]
      calls := s.calls ++ [call] }
  else
    { s with
      calls := s.calls ++ [call]
      hooks := s.hooks ++ [⟨call.direct, false, none⟩] }

def step (s : Filter) : Label → Option Filter
  | .process call => some (process s call)
  | .submit i =>
    if ∃ j ∈ s.jobs, j.processIdx = i ∧ j.phase = .numbered then
      some { s with
        jobs := s.jobs.map fun j =>
          if j.processIdx = i ∧ j.phase = .numbered then { j with phase := .submitted } else j }
    else none
  | .start i =>
    if (∃ j ∈ s.jobs, j.processIdx = i ∧ j.phase = .submitted) ∧
        ∀ j ∈ s.jobs, j.waits = true then
      some { s with
        jobs := s.jobs.map fun j =>
          if j.processIdx = i ∧ j.phase = .submitted then
            { j with phase := .started (i ≤ s.jobIdxBase_) }
          else j }
    else none
  | .run i =>
    (s.jobs.find? fun j => j.processIdx = i).bind fun j =>
      match j.phase with
      | .started isDrop => some { s with
          jobs := s.jobs.erase j
          hooks := s.hooks ++ [⟨j.call, isDrop, some j⟩] }
      | _ => none
  | .flush id =>
    if ∃ f ∈ s.flushes, f.id = id then none
    else some { s with
      flushes := s.flushes ++
        [{ id, submitted := (s.jobs.filter fun j => j.phase ≠ .numbered).map Job.processIdx }]
      jobs := s.jobs.map fun j => if j.waits then { j with overlapped := true } else j }
  | .raise id =>
    if ∃ f ∈ s.flushes, f.id = id then
      some { s with
        jobIdxBase_ := s.jobIdx_
        flushes := s.flushes.map fun f => if f.id = id then { f with raised := true } else f
        jobs := s.jobs.map fun j => if j.waits then { j with raised := true } else j }
    else none
  -- with the end of the call: `DoFlush` itself is the hook
  | .doFlush id =>
    (s.flushes.find? fun f => f.id = id ∧ f.raised = true).map fun f =>
      { s with
        flushes := s.flushes.erase f
        jobs := s.jobs.map fun j =>
          if j.processIdx ∈ f.submitted then { j with crossed := true } else j }

def made (isAsyncMode_ filterTask_ : Bool) : Filter := { isAsyncMode_, filterTask_ }

-- What is expected

structure RightFlag (j : Job) (isDrop : Bool) : Prop where
  raised : j.raised = true → isDrop = true
  alone : j.overlapped = false → isDrop = false
  crossed : j.crossed = true → isDrop = true

structure Right (s : Filter) : Prop where
  /-- Every call that returned `OK` has had its hook, with its own arguments, or is a job. -/
  once : (s.hooks.map Hook.call ++ s.jobs.map Job.call).Perm s.calls
  flags : ∀ h ∈ s.hooks, ∀ j ∈ h.job, RightFlag j h.isDrop

/-- Without a task an output is not taken by its index; and when a flush calls `DoFlush`, no job
that was submitted before it has found that it is not to be dropped and not called its hook. -/
def Good (s : Filter) : Label → Prop
  | .process call => s.filterTask_ = true ∨ s.isAsyncMode_ = true ∨ call.direct = call
  | .doFlush id => ∀ f ∈ s.flushes, f.id = id → ∀ j ∈ s.jobs, j.phase = .started false →
      j.processIdx ∉ f.submitted
  | _ => True

instance : ∀ s l, Decidable (Good s l)
  | s, .process call =>
      inferInstanceAs (Decidable (s.filterTask_ = true ∨ s.isAsyncMode_ = true ∨
        call.direct = call))
  | s, .doFlush id => inferInstanceAs (Decidable (∀ f ∈ s.flushes, f.id = id → ∀ j ∈ s.jobs,
      j.phase = .started false → j.processIdx ∉ f.submitted))
  | _, .submit _ | _, .start _ | _, .run _ | _, .flush _ | _, .raise _ => .isTrue trivial

-- The invariant

def Job.isDrop (j : Job) (jobIdxBase_ : Nat) : Bool :=
  match j.phase with
  | .started isDrop => isDrop
  | _ => j.processIdx ≤ jobIdxBase_

theorem Job.isDrop_of_waits {j : Job} (h : j.waits = true) (base : Nat) :
    j.isDrop base = decide (j.processIdx ≤ base) := by
  rcases j with ⟨_, _, _ | _ | _, _, _, _⟩
  · rfl
  · rfl
  · simp [waits] at h

theorem Job.isDrop_of_not_waits {j : Job} (h : j.waits = false) (base base' : Nat) :
    j.isDrop base = j.isDrop base' := by
  rcases j with ⟨_, _, _ | _ | _, _, _, _⟩
  · simp [waits] at h
  · simp [waits] at h
  · rfl

structure JobInv (s : Filter) (j : Job) : Prop where
  idx : j.processIdx ≤ s.jobIdx_
  flag : RightFlag j (j.isDrop s.jobIdxBase_)
  alone : j.waits = true → j.overlapped = false → s.flushes = []

structure Inv (s : Filter) : Prop where
  right : Right s
  base : s.jobIdxBase_ ≤ s.jobIdx_
  jobs : ∀ j ∈ s.jobs, JobInv s j
  flushes : ∀ f ∈ s.flushes, ∀ i ∈ f.submitted,
    i ≤ s.jobIdx_ ∧ (f.raised = true → i ≤ s.jobIdxBase_)

section Steps

variable {s t : Filter}

theorem Inv.mapJobs (hs : Inv s) (g : Job → Job) (hjobs : t.jobs = s.jobs.map g)
    (hcall : ∀ j, (g j).call = j.call) (hhooks : t.hooks = s.hooks) (hcalls : t.calls = s.calls)
    (hbase : t.jobIdxBase_ ≤ t.jobIdx_) (hinv : ∀ j ∈ s.jobs, JobInv s j → JobInv t (g j))
    (hflushes : ∀ f ∈ t.flushes, ∀ i ∈ f.submitted,
      i ≤ t.jobIdx_ ∧ (f.raised = true → i ≤ t.jobIdxBase_)) : Inv t := by
  refine ⟨⟨?_, ?_⟩, hbase, ?_, hflushes⟩
  · have hmap : (s.jobs.map g).map Job.call = s.jobs.map Job.call := by
      rw [List.map_map]
      exact List.map_congr_left fun j _ => hcall j
    rw [hjobs, hhooks, hcalls, hmap]
    exact hs.right.once
  · rw [hhooks]
    exact hs.right.flags
  · rw [hjobs]
    intro j' hj'
    obtain ⟨j, hj, rfl⟩ := List.mem_map.mp hj'
    exact hinv j hj (hs.jobs j hj)

theorem Inv.process (hs : Inv s) {call : BufferCall} (hgood : Good s (.process call)) :
    Inv (process s call) := by
  rw [BufferJobs.process]
  split
  · exact hs
  next hok =>
  split
  · refine ⟨⟨?_, hs.right.flags⟩, Nat.le_succ_of_le hs.base, ?_, ?_⟩
    · rw [List.map_append, ← List.append_assoc]
      exact hs.right.once.append_right _
    · intro j hj
      rcases List.mem_append.mp hj with hj | hj
      · have h := hs.jobs j hj
        exact ⟨Nat.le_succ_of_le h.idx, h.flag, h.alone⟩
      · obtain rfl := List.mem_singleton.mp hj
        have hbase := hs.base
        refine ⟨le_rfl, ⟨by simp, fun _ => ?_, by simp⟩, fun _ h => by simpa using h⟩
        rw [Job.isDrop_of_waits rfl]
        simp only [decide_eq_false_iff_not, not_le]
        omega
    · intro f hf i hi
      have h := hs.flushes f hf i hi
      exact ⟨Nat.le_succ_of_le h.1, h.2⟩
  next htask =>
  have hsame : call.direct = call := by
    rcases hgood with h | h | h
    · exact absurd h htask
    · simp [h, htask] at hok
    · exact h
  refine ⟨⟨?_, ?_⟩, hs.base, fun j hj => ?_, hs.flushes⟩
  · rw [List.map_append, List.append_assoc, List.map_singleton, hsame]
    refine List.Perm.trans (List.Perm.append_left _ List.perm_append_comm) ?_
    rw [← List.append_assoc]
    exact hs.right.once.append_right _
  · intro h hh
    rcases List.mem_append.mp hh with hh | hh
    · exact hs.right.flags h hh
    · obtain rfl := List.mem_singleton.mp hh
      simp
  · exact ⟨(hs.jobs j hj).idx, (hs.jobs j hj).flag, (hs.jobs j hj).alone⟩

theorem Inv.submit (hs : Inv s) {i : Nat} (h : step s (.submit i) = some t) : Inv t := by
  rw [step] at h
  split at h
  · cases h
    refine hs.mapJobs _ rfl (fun j => ?_) rfl rfl hs.base (fun j hj hinv => ?_) hs.flushes
    · split <;> rfl
    split
    · next hi =>
      have hwaits : j.waits = true := by simp [Job.waits, hi.2]
      have hflag := hinv.flag
      rw [Job.isDrop_of_waits hwaits] at hflag
      exact ⟨hinv.idx, ⟨hflag.1, hflag.2, hflag.3⟩, fun _ => hinv.alone hwaits⟩
    · exact ⟨hinv.idx, hinv.flag, hinv.alone⟩
  · simp at h

theorem Inv.start (hs : Inv s) {i : Nat} (h : step s (.start i) = some t) : Inv t := by
  rw [step] at h
  split at h
  · cases h
    refine hs.mapJobs _ rfl (fun j => ?_) rfl rfl hs.base (fun j hj hinv => ?_) hs.flushes
    · split <;> rfl
    split
    · next hi =>
      have hwaits : j.waits = true := by simp [Job.waits, hi.2]
      have hflag := hinv.flag
      rw [Job.isDrop_of_waits hwaits, hi.1] at hflag
      exact ⟨hinv.idx, ⟨hflag.1, hflag.2, hflag.3⟩, fun h => by simp [Job.waits] at h⟩
    · exact ⟨hinv.idx, hinv.flag, hinv.alone⟩
  · simp at h

theorem Inv.run (hs : Inv s) {i : Nat} (h : step s (.run i) = some t) : Inv t := by
  rw [step] at h
  obtain ⟨j, hfind, h⟩ := Option.bind_eq_some_iff.mp h
  have hj := List.mem_of_find?_eq_some hfind
  split at h
  · next isDrop hphase =>
    cases h
    refine ⟨⟨?_, ?_⟩, hs.base, fun k hk => ?_, hs.flushes⟩
    · refine List.Perm.trans ?_ hs.right.once
      rw [List.map_append, List.append_assoc]
      exact ((List.perm_cons_erase hj).map Job.call).symm.append_left _
    · intro hook hhook
      rcases List.mem_append.mp hhook with hhook | hhook
      · exact hs.right.flags hook hhook
      · obtain rfl := List.mem_singleton.mp hhook
        have hflag := (hs.jobs j hj).flag
        rw [Job.isDrop, hphase] at hflag
        simpa using hflag
    · have hinv := hs.jobs k (List.mem_of_mem_erase hk)
      exact ⟨hinv.idx, hinv.flag, hinv.alone⟩
  · simp at h

theorem Inv.flush (hs : Inv s) {id : Nat} (h : step s (.flush id) = some t) : Inv t := by
  rw [step] at h
  split at h
  · simp at h
  cases h
  refine hs.mapJobs _ rfl (fun j => ?_) rfl rfl hs.base (fun j hj hinv => ?_) ?_
  · split <;> rfl
  · split
    · next hwaits =>
      have hflag := hinv.flag
      exact ⟨hinv.idx, ⟨hflag.1, fun h => by simp at h, hflag.3⟩, fun _ h => by simp at h⟩
    · next hwaits => exact ⟨hinv.idx, hinv.flag, fun h => absurd h hwaits⟩
  · intro f hf i hi
    rcases List.mem_append.mp hf with hf | hf
    · exact hs.flushes f hf i hi
    · obtain rfl := List.mem_singleton.mp hf
      obtain ⟨j, hj, rfl⟩ := List.mem_map.mp hi
      exact ⟨(hs.jobs j (List.mem_of_mem_filter hj)).idx, fun h => by simp at h⟩

theorem Inv.raise (hs : Inv s) {id : Nat} (h : step s (.raise id) = some t) : Inv t := by
  rw [step] at h
  split at h
  · next hid =>
    obtain ⟨f, hf, -⟩ := hid
    cases h
    refine hs.mapJobs _ rfl (fun j => ?_) rfl rfl le_rfl (fun j hj hinv => ?_) ?_
    · split <;> rfl
    · split
      · next hwaits =>
        have hdrop : j.isDrop s.jobIdx_ = true := by
          rw [Job.isDrop_of_waits hwaits]
          simpa using hinv.idx
        -- a flush is on its way, so the job knows of it
        have hover : j.overlapped ≠ false := by
          intro h
          simp [hinv.alone hwaits h] at hf
        refine ⟨hinv.idx, ⟨fun _ => hdrop, fun h => absurd h hover, fun _ => hdrop⟩, ?_⟩
        exact fun _ h => absurd h hover
      · next hwaits =>
        have hnot : j.waits = false := by simpa using hwaits
        have hflag := hinv.flag
        rw [Job.isDrop_of_not_waits hnot _ s.jobIdx_] at hflag
        exact ⟨hinv.idx, hflag, fun h => absurd h hwaits⟩
    · intro f hf i hi
      obtain ⟨g, hg, rfl⟩ := List.mem_map.mp hf
      have hin : i ∈ g.submitted := by
        split at hi <;> exact hi
      exact ⟨(hs.flushes g hg i hin).1, fun _ => (hs.flushes g hg i hin).1⟩
  · simp at h

theorem Inv.doFlush (hs : Inv s) {id : Nat} (hgood : Good s (.doFlush id))
    (h : step s (.doFlush id) = some t) : Inv t := by
  rw [step] at h
  obtain ⟨f, hfind, rfl⟩ := Option.map_eq_some_iff.mp h
  have hf := List.mem_of_find?_eq_some hfind
  have hid : f.id = id ∧ f.raised = true := by simpa using List.find?_some hfind
  refine hs.mapJobs _ rfl (fun j => ?_) rfl rfl hs.base (fun j hj hinv => ?_) ?_
  · split <;> rfl
  · have halone : j.waits = true → j.overlapped = false → s.flushes.erase f = [] := by
      intro hwaits hover
      simp [hinv.alone hwaits hover]
    split
    · next hin =>
      have hdrop : j.isDrop s.jobIdxBase_ = true := by
        rcases hphase : j.phase with _ | _ | isDrop
        · rw [Job.isDrop_of_waits (by simp [Job.waits, hphase])]
          simpa using (hs.flushes f hf _ hin).2 hid.2
        · rw [Job.isDrop_of_waits (by simp [Job.waits, hphase])]
          simpa using (hs.flushes f hf _ hin).2 hid.2
        · rw [Job.isDrop, hphase]
          rcases isDrop with _ | _
          · exact absurd hin (hgood f hf hid.1 j hj hphase)
          · rfl
      exact ⟨hinv.idx, ⟨hinv.flag.1, hinv.flag.2, fun _ => hdrop⟩, halone⟩
    · exact ⟨hinv.idx, hinv.flag, halone⟩
  · intro g hg
    exact hs.flushes g (List.mem_of_mem_erase hg)

theorem Inv.step {l : Label} (hs : Inv s) (hgood : Good s l) (h : step s l = some t) : Inv t := by
  rcases l with call | i | i | i | id | id | id
  · exact Option.some.inj h ▸ hs.process hgood
  · exact hs.submit h
  · exact hs.start h
  · exact hs.run h
  · exact hs.flush h
  · exact hs.raise h
  · exact hs.doFlush hgood h

end Steps

theorem inv_made (isAsyncMode_ filterTask_ : Bool) : Inv (made isAsyncMode_ filterTask_) := by
  refine ⟨⟨?_, ?_⟩, le_rfl, ?_, ?_⟩ <;> simp [made]

/-- Whatever the order of the steps, every call leads to its hook and every flush cuts off what
was submitted before it. -/
theorem jobs_right (isAsyncMode_ filterTask_ : Bool) (ls : List Label) {s : Filter}
    (hgood : Runs.Along step Good (made isAsyncMode_ filterTask_) ls)
    (hrun : Runs.run step (made isAsyncMode_ filterTask_) ls = some s) : Right s :=
  (Runs.run_invariant (I := Inv) (fun _ _ _ hs hl h => hs.step hl h)
    (inv_made isAsyncMode_ filterTask_) hgood hrun).right

theorem jobs_right_flushed : Right
    { made true true with
      jobIdx_ := 1
      jobIdxBase_ := 1
      calls := [.output 1 true 2 3]
      hooks := [⟨.output 1 true 2 3, true, some ⟨1, .output 1 true 2 3, .started true, true, true,
        true⟩⟩] } :=
  jobs_right true true [.process (.output 1 true 2 3), .submit 1, .flush 7, .raise 7, .start 1,
    .doFlush 7, .run 1] (by decide) (by decide)

/-- The job has found that it is not to be dropped, and the flush goes through before its hook. -/
theorem hook_behind_flush : ¬ ∀ isAsyncMode_ filterTask_ ls s,
    Runs.run step (made isAsyncMode_ filterTask_) ls = some s → Right s := by
  intro h
  have hright := h true true
    [.process (.input 1), .submit 1, .start 1, .flush 7, .raise 7, .doFlush 7, .run 1]
    { made true true with
      jobIdx_ := 1
      jobIdxBase_ := 1
      calls := [.input 1]
      hooks := [⟨.input 1, false, some ⟨1, .input 1, .started false, false, false, true⟩⟩] }
    (by decide)
  have hcrossed := (hright.flags _ (List.mem_singleton.mpr rfl) _ rfl).crossed rfl
  simp at hcrossed

end MediaFoundation.BufferJobs
