import MediaFoundation.Filter.Threads

/-!
# What an operation of a pipeline reports

Over every interleaving of the caller with the jobs, the operation reports the truth if a
failure that there is can be heard.
-/

namespace MediaFoundation.Filters

section Truth

variable {v : Invocation} {vars : FilterId → FilterVars} {c c' : Config} {a : Action}
  {T : List Action} {f : FilterId}

-- The operation begins

theorem Steady.seen (h : Steady v vars f) : Seen v vars f (vars f) := by
  refine ⟨fun htarget => ?_, fun herror => ⟨?_, h.error herror⟩⟩
  · obtain ⟨hhook, hcode⟩ := h.target htarget
    exact ⟨not_fails_of (fun herror => target_ne_error _ (htarget.symm.trans herror)) hhook, hcode⟩
  · unfold fails
    rw [herror]
    rfl

theorem headActions_fits (v : Invocation) : ∀ a ∈ headActions v, a.Fits v v.filters.members := by
  unfold headActions
  split
  next hop => exact prepareActions_fits hop fun g hg => hg
  next hop => exact startHeads_fits (by rw [hop]; decide) fun g hg => hg
  next hop => exact startHeads_fits (by rw [hop]; decide) fun g hg => hg
  next hop => exact pauseHeads_fits (by rw [hop]; decide) fun g hg => hg
  next hop => exact pauseHeads_fits (by rw [hop]; decide) fun g hg => hg

theorem headActions_opened {E : FilterId → Prop} : Opened E (headActions v) := by
  by_cases hop : v.op = .prepare
  · have heq : headActions v = prepareActions v.hasTask v.filters ++ [] := by
      rw [List.append_nil, headActions]
      simp only [hop]
    rw [heq]
    exact Opened.prepareActions (T := []) trivial
  · exact opened_of_fits hop (headActions_fits v)

/-- A hook that only the caller calls is still to be called. -/
theorem headActions_reach (hf : f ∈ v.filters.members) :
    f ∈ onTasks v v.filters ∨ .enter f ∈ headActions v ∨ .done f ∈ headActions v := by
  unfold headActions
  split
  next hop => exact (prepare_reaches hop hf).imp id .inl
  next hop =>
    obtain ⟨a, ha, rfl | ⟨htask, -⟩⟩ := startHeads_reaches v.hasTask hf
    · exact .inr (.inr ha)
    · exact .inl (onTasks_start (.inl hop) hf htask)
  next hop =>
    obtain ⟨a, ha, rfl | ⟨htask, -⟩⟩ := startHeads_reaches v.hasTask hf
    · exact .inr (.inr ha)
    · exact .inl (onTasks_start (.inr hop) hf htask)
  next => exact .inr (.inr (pauseHeads_reaches hf))
  next => exact .inr (.inr (pauseHeads_reaches hf))

theorem due_of_members (hop : v.op ≠ .prepare) (hf : f ∈ v.filters.members) : Due v vars f := by
  refine ⟨hf, ?_⟩
  have hfits := headActions_fits v
  have hserves : ∃ a ∈ headActions v, a.Serves v.hasTask f := by
    unfold headActions
    split
    next hprepare => exact absurd hprepare hop
    · exact startHeads_reaches _ hf
    · exact startHeads_reaches _ hf
    · exact ⟨_, pauseHeads_reaches hf, .inl rfl⟩
    · exact ⟨_, pauseHeads_reaches hf, .inl rfl⟩
  obtain ⟨a, ha, hserves⟩ := hserves
  exact settles_of_serves hop hfits ha hserves

theorem prepared_members {F : Forest} : ∀ f ∈ prepared v vars F, f ∈ F.members := by
  induction F with
  | nil => exact fun f hf => absurd hf List.not_mem_nil
  | cons g nexts rest ihn ihr =>
    intro f hf
    rw [prepared] at hf
    rw [Forest.members, List.mem_cons, List.mem_append]
    cases hg : fails v vars g with
    | true =>
      rw [hg] at hf
      cases htask : v.hasTask g with
      | true =>
        rw [htask] at hf
        rcases List.mem_cons.mp hf with rfl | hf
        · exact .inl rfl
        · exact .inr (.inr (ihr f hf))
      | false =>
        rw [htask] at hf
        exact .inl (List.mem_singleton.mp hf)
    | false =>
      have hmem : f ∈ prepared v vars nexts ∨ f = g ∨ f ∈ prepared v vars rest := by
        rw [hg] at hf
        cases htask : v.hasTask g with
        | true =>
          rw [htask, if_pos rfl, if_neg Bool.false_ne_true] at hf
          rcases List.mem_append.mp hf with hf | hf
          · refine (List.mem_append.mp hf).imp id fun hf => .inl ?_
            split at hf
            · cases hf
            · exact List.mem_singleton.mp hf
          · exact .inr (.inr hf)
        | false =>
          rw [htask, if_neg Bool.false_ne_true, if_neg Bool.false_ne_true] at hf
          refine (List.mem_append.mp hf).imp id fun hf => ?_
          split at hf
          · cases hf
          · exact List.mem_cons.mp hf
      rcases hmem with hf | rfl | hf
      · exact .inr (.inl (ihn f hf))
      · exact .inl rfl
      · exact .inr (.inr (ihr f hf))

theorem due_of_prepared (hop : v.op = .prepare) (hf : f ∈ prepared v vars v.filters) :
    Due v vars f := by
  refine ⟨prepared_members f hf, ?_⟩
  have heq : headActions v = prepareActions v.hasTask v.filters ++ [] := by
    rw [List.append_nil, headActions]
    simp only [hop]
  rw [heq, settles_prepareActions hop]
  exact List.mem_append_left _ hf

theorem quiet_of_anyFails (h : anyFails v vars v.filters = false) :
    ∀ f ∈ v.filters.members, fails v vars f = false := by
  intro f hf
  have hnone := List.any_eq_false.mp h f hf
  exact Bool.not_eq_true _ ▸ hnone

/-- The waits of the operation come to filters that are settled, and tell what there is. -/
theorem Told.sound (h : Told v vars) {W : FilterId → Prop} :
    (∃ f, .enter f ∈ headActions v ∧ fails v vars f = true) ∨
      Sound v vars (Due v vars) (anyFails v vars v.filters) W (waitHeads v.filters) [] false false := by
  by_cases hop : v.op = .prepare
  · cases hab : aborts v vars v.filters with
    | true =>
      left
      rw [headActions]
      simp only [hop]
      exact failing_of_aborts hab
    | false =>
      right
      have hdue : ∀ g ∈ prepared v vars v.filters, Due v vars g :=
        fun g hg => due_of_prepared hop hg
      cases hany : anyFails v vars v.filters with
      | false =>
        refine .heads (visitIn_of_prepared hop hab ?_ hdue) nofun
        exact free_of_quiet (quiet_of_anyFails hany)
      | true =>
        rcases h.told with hquiet | ⟨-, haborts⟩ | hheard
        · obtain ⟨f, hf, hfails⟩ := List.any_eq_true.mp hany
          exact Bool.noConfusion (hfails.symm.trans (hquiet f hf))
        · exact Bool.noConfusion (hab.symm.trans haborts)
        · refine .heads_heard (heardIn_of_prepared hop hab hheard hdue) fun hgoes => ?_
          rw [hop] at hgoes
          cases hgoes
  · right
    have hdue : ∀ g ∈ v.filters.members, Due v vars g := fun g hg => due_of_members hop hg
    cases hany : anyFails v vars v.filters with
    | false => exact .heads (visitIn_of_members hdue) nofun
    | true =>
      rcases h.told with hquiet | ⟨hprepare, -⟩ | hheard
      · obtain ⟨f, hf, hfails⟩ := List.any_eq_true.mp hany
        exact Bool.noConfusion (hfails.symm.trans (hquiet f hf))
      · exact absurd hprepare hop
      · exact .heads_heard (heardIn_of_members hheard hdue) fun _ => visitIn_of_members hdue

theorem Told.inv (h : Told v vars) : Inv v vars (anyFails v vars v.filters) (v.begin vars) where
  faithful f := by
    refine ⟨fun herror => ?_, id⟩
    have hstate : (vars f).curState = .error := herror
    rw [fails, hstate]
    rfl
  fits := headActions_fits v
  jobsFit := nofun
  opened _ := headActions_opened
  jobsOpened := nofun
  seen _ f hf := (headActions_reach hf).imp (fun htask => (h.steady f htask).seen) id
  due _ f hf := .inr (.inl hf)
  sound _ := h.sound
  covered _ f hf := .inl (covered_of_waits waitHeads (fun _ _ _ => ⟨_, rfl⟩) hf)
  answered := nofun
  told := nofun
  inTime := rfl

-- The operation ends

/-- What there is to do for a list of filters, at most. -/
def Forest.weight : Forest → Nat
  | .nil => 0
  | .cons _ nexts rest => 5 + nexts.weight + rest.weight

def Action.weight : Action → Nat
  | .submit _ nexts => 4 + nexts.weight
  | _ => 1

def Wait.weight : Wait → Nat
  | .wait _ nexts => 2 + nexts.weight
  | _ => 1

def actionsWeight (T : List Action) : Nat := (T.map Action.weight).sum

def waitsWeight (waits : List Wait) : Nat := (waits.map Wait.weight).sum

def jobsWeight (jobs : List (List Action)) : Nat := (jobs.map fun J => 1 + actionsWeight J).sum

def Config.weight (c : Config) : Nat :=
  (if c.result.isSome then 0 else 1) + actionsWeight c.calls + waitsWeight c.waits +
    jobsWeight c.jobs

@[simp] theorem actionsWeight_nil : actionsWeight [] = 0 := rfl

@[simp] theorem actionsWeight_cons (a : Action) (T : List Action) :
    actionsWeight (a :: T) = a.weight + actionsWeight T := rfl

@[simp] theorem actionsWeight_append (T U : List Action) :
    actionsWeight (T ++ U) = actionsWeight T + actionsWeight U := by
  rw [actionsWeight, List.map_append, List.sum_append]
  rfl

@[simp] theorem waitsWeight_cons (w : Wait) (waits : List Wait) :
    waitsWeight (w :: waits) = w.weight + waitsWeight waits := rfl

@[simp] theorem waitsWeight_append (ws us : List Wait) :
    waitsWeight (ws ++ us) = waitsWeight ws + waitsWeight us := by
  rw [waitsWeight, List.map_append, List.sum_append]
  rfl

@[simp] theorem jobsWeight_append (js ks : List (List Action)) :
    jobsWeight (js ++ ks) = jobsWeight js + jobsWeight ks := by
  rw [jobsWeight, List.map_append, List.sum_append]
  rfl

theorem waitLoop_weight (F : Forest) : waitsWeight (waitLoop F) ≤ F.weight := by
  induction F with
  | nil => exact Nat.le_refl _
  | cons f nexts rest _ ih =>
    simp only [waitLoop, waitsWeight_cons, Wait.weight, Forest.weight]
    omega

theorem prepareActions_weight (hasTask : FilterId → Bool) (F : Forest) :
    actionsWeight (prepareActions hasTask F) ≤ F.weight := by
  induction F with
  | nil => exact Nat.le_refl _
  | cons f nexts rest ihn ihr =>
    rw [prepareActions, actionsWeight_append]
    split
    · simp only [actionsWeight_cons, actionsWeight_nil, Action.weight, Forest.weight]
      omega
    · simp only [actionsWeight_cons, actionsWeight_append, actionsWeight_nil, Action.weight,
        Forest.weight]
      omega

theorem jobActions_weight (f : FilterId) (nexts : Forest) :
    1 + actionsWeight (jobActions v f nexts) < (Action.submit f nexts).weight := by
  have hle := prepareActions_weight v.hasTask nexts
  unfold jobActions
  split
  · simp only [actionsWeight_cons, actionsWeight_append, actionsWeight_nil, Action.weight]
    omega
  · simp only [actionsWeight_cons, actionsWeight_nil, Action.weight]
    omega

theorem newJobs_weight (a : Action) : jobsWeight (a.newJobs v) < a.weight := by
  cases a with
  | submit f nexts =>
    have hlt := jobActions_weight (v := v) f nexts
    simp only [Action.newJobs, jobsWeight, List.map_cons, List.map_nil, List.sum_cons,
      List.sum_nil]
    omega
  | enter f | ready f | done f | returned f => exact Nat.one_pos

theorem jobsWeight_set {jobs : List (List Action)} {i : Nat} {J K : List Action}
    (h : jobs[i]? = some K) :
    jobsWeight (jobs.set i J) + actionsWeight K = jobsWeight jobs + actionsWeight J := by
  induction jobs generalizing i with
  | nil => cases h
  | cons J' jobs ih =>
    cases i with
    | zero =>
      obtain rfl : J' = K := Option.some.inj h
      simp only [List.set_cons_zero, jobsWeight, List.map_cons, List.sum_cons]
      omega
    | succ i =>
      have hrest := ih h
      simp only [List.set_cons_succ, jobsWeight, List.map_cons, List.sum_cons] at hrest ⊢
      omega

theorem jobsWeight_eraseIdx {jobs : List (List Action)} {i : Nat} {K : List Action}
    (h : jobs[i]? = some K) :
    jobsWeight (jobs.eraseIdx i) + 1 + actionsWeight K = jobsWeight jobs := by
  induction jobs generalizing i with
  | nil => cases h
  | cons J' jobs ih =>
    cases i with
    | zero =>
      obtain rfl : J' = K := Option.some.inj h
      simp only [List.eraseIdx_cons_zero, jobsWeight, List.map_cons, List.sum_cons]
      omega
    | succ i =>
      have hrest := ih h
      simp only [List.eraseIdx_cons_succ, jobsWeight, List.map_cons, List.sum_cons] at hrest ⊢
      omega

theorem waitStep_lighter (hresult : c.result = none) (h : c.waitStep v = some c') :
    c'.weight < c.weight := by
  unfold Config.waitStep at h
  unfold Config.weight
  cases hwaits : c.waits with
  | nil =>
    rw [hwaits] at h
    cases h
    rw [hresult]
    show 0 + actionsWeight c.calls + 0 + jobsWeight c.jobs < 1 + actionsWeight c.calls + 0 + _
    omega
  | cons w waits =>
    rw [hwaits] at h
    rw [hresult, waitsWeight_cons]
    cases w with
    | wait f nexts =>
      have hloop := waitLoop_weight nexts
      simp only at h
      split at h
      · cases h
        simp only [hresult, waitsWeight_append, waitsWeight_cons, Wait.weight]
        omega
      · split at h
        · cases h
          simp only [hresult, Wait.weight]
          omega
        · split at h
          · cases h
            simp only [Config.setVars, hresult, Wait.weight]
            omega
          · cases h
    | merge f =>
      simp only at h
      split at h
      · cases h
        simp only [hresult, Wait.weight]
        omega
      · cases h
        simp only [hresult, Wait.weight]
        omega
    | leave =>
      cases h
      simp only [hresult, Wait.weight]
      omega
    | head =>
      simp only at h
      split at h
      · cases h
        simp only [hresult, Wait.weight]
        omega
      · split at h
        · cases h
          simp only [hresult, Wait.weight]
          omega
        · cases h
          simp only [Option.isSome_some, if_true, Option.isSome_none, Bool.false_eq_true, if_false,
            Wait.weight]
          omega

/-- **Every step** leaves less to do. -/
theorem step_lighter {thread : Thread} (h : step v c thread = some c') :
    c'.weight < c.weight := by
  cases thread with
  | caller =>
    rw [step] at h
    split at h
    · cases h
    next hsome =>
      have hresult : c.result = none := Option.not_isSome_iff_eq_none.mp hsome
      split at h
      · exact waitStep_lighter hresult h
      next a T hcalls =>
        obtain ⟨hc, hw, -, -, hres, -, hjobs⟩ := act_frame (v := v) { c with calls := T } a
        dsimp only at hc hw hres hjobs
        have hnew := newJobs_weight (v := v) a
        split at h
        next d hact =>
          cases h
          rw [hact] at hc hw hres hjobs
          unfold Config.weight
          rw [hres, hc, hw, hjobs, hcalls, jobsWeight_append, actionsWeight_cons]
          omega
        next d ret hact =>
          cases h
          rw [hact] at hc hw hjobs
          unfold Config.weight
          show 0 + actionsWeight d.calls + waitsWeight d.waits + jobsWeight d.jobs < _
          rw [hc, hw, hjobs, hcalls, jobsWeight_append, actionsWeight_cons]
          omega
  | job i =>
    rw [step] at h
    split at h
    · cases h
    next hjob =>
      have herase := jobsWeight_eraseIdx hjob
      cases h
      unfold Config.weight
      simp only
      omega
    next a J hjob =>
      obtain ⟨hc, hw, -, -, hres, -, hjobs⟩ :=
        act_frame (v := v) { c with jobs := c.jobs.set i J } a
      dsimp only at hc hw hres hjobs
      have hnew := newJobs_weight (v := v) a
      have hset := jobsWeight_set (J := J) hjob
      rw [actionsWeight_cons] at hset
      split at h
      next d hact =>
        cases h
        rw [hact] at hc hw hres hjobs
        unfold Config.weight
        rw [hres, hc, hw, hjobs, jobsWeight_append]
        omega
      next d ret hact =>
        cases h
        rw [hact] at hc hw hres hjobs
        have hi : i < (c.jobs.set i J).length := by
          rw [List.length_set]
          exact (List.getElem?_eq_some_iff.mp hjob).1
        have hJ : (c.jobs.set i J ++ a.newJobs v)[i]? = some J := by
          rw [List.getElem?_append_left hi, List.getElem?_set_self]
          rwa [List.length_set] at hi
        have herase := jobsWeight_eraseIdx hJ
        unfold Config.weight
        show _ + actionsWeight d.calls + waitsWeight d.waits + jobsWeight (d.jobs.eraseIdx i) < _
        rw [hres, hc, hw, hjobs]
        rw [jobsWeight_append] at herase
        omega

/-- As long as the operation has not returned, some thread can go on. -/
theorem step_exists (v : Invocation) (hresult : c.result = none) :
    ∃ thread c', step v c thread = some c' := by
  by_cases hjobs : c.jobs = []
  · refine ⟨.caller, ?_⟩
    rw [step, hresult]
    simp only [Option.isSome_none, Bool.false_eq_true, if_false]
    split
    · unfold Config.waitStep
      split
      · exact ⟨_, rfl⟩
      · split
        · exact ⟨_, rfl⟩
        · split
          · exact ⟨_, rfl⟩
          · exact ⟨_, rfl⟩
      · split
        · exact ⟨_, rfl⟩
        · exact ⟨_, rfl⟩
      · exact ⟨_, rfl⟩
      · split
        · exact ⟨_, rfl⟩
        · split
          · exact ⟨_, rfl⟩
          · exact ⟨_, rfl⟩
    · split
      · exact ⟨_, rfl⟩
      · exact ⟨_, rfl⟩
  · obtain ⟨J, jobs, hcons⟩ := List.exists_cons_of_ne_nil hjobs
    refine ⟨.job 0, ?_⟩
    have hJ : c.jobs[0]? = some J := by
      rw [hcons]
      rfl
    rw [step, hJ]
    cases J with
    | nil => exact ⟨_, rfl⟩
    | cons a J =>
      simp only
      split
      · exact ⟨_, rfl⟩
      · exact ⟨_, rfl⟩

theorem run_lighter {schedule : List Thread} (h : Runs.run (step v) c schedule = some c') :
    schedule.length + c'.weight ≤ c.weight := by
  induction schedule generalizing c with
  | nil =>
    rw [Runs.run_nil, Option.some.injEq] at h
    rw [h, List.length_nil, Nat.zero_add]
  | cons thread schedule ih =>
    obtain ⟨d, hd, h⟩ := Runs.run_cons_some.mp h
    have hstep := step_lighter hd
    have hrest := ih h
    rw [List.length_cons]
    omega

-- Runs

theorem Inv.truthful (h : Inv v vars (anyFails v vars v.filters) c) : Truthful v c := by
  intro ret hresult
  refine ⟨fun hok f hf => ?_, fun hfailed => ⟨fun hok => ?_, h.inTime⟩⟩
  · subst hok
    obtain ⟨hany, hwaits⟩ := h.answered hresult
    rcases h.covered hany f hf with ⟨g, nexts, hg, -⟩ | htarget
    · rw [hwaits] at hg
      cases hg
    · exact htarget
  · subst hok
    exact Bool.noConfusion ((h.answered hresult).1.symm.trans (h.told hfailed))

/-- **Pipeline operations.** If nothing fails, or a failure can be heard, then the operation
returns in every interleaving of the caller with the jobs, and reports the truth. -/
theorem reports_truth (h : Told v vars) {schedule : List Thread}
    (hrun : Runs.run (step v) (v.begin vars) schedule = some c) :
    Truthful v c ∧ (c.result = none → ∃ thread c', step v c thread = some c') ∧
      schedule.length ≤ (v.begin vars).weight := by
  refine ⟨?_, step_exists v, ?_⟩
  · have hinv : Inv v vars (anyFails v vars v.filters) c :=
      Runs.run_keeps (fun _ _ _ hinv hstep => hinv.step quiet_of_anyFails hstep) h.inv hrun
    exact hinv.truthful
  · have hle := run_lighter hrun
    omega

/-- `Start` of a demuxer with a task, a decoder without one that fails, and a sink with a task. -/
def decoderFails : Invocation where
  filters := .cons 0 (.cons 1 .nil (.cons 2 .nil .nil)) .nil
  hasTask f := f != 1
  op := .start
  hook f := if f = 1 then .errorUnknown else .ok

def readyVars (_ : FilterId) : FilterVars := { curState := .ready }

theorem decoderFails_told : Told decoderFails readyVars where
  steady _ _ := ⟨nofun, nofun⟩
  told := .inr (.inr ⟨⟨rfl, fun _ => ⟨rfl, nofun, rfl, fun _ => trivial, trivial⟩⟩, .inl rfl⟩)

/-- The sink starts first, and the failure of the decoder is the answer. -/
def sinkFirst : List Thread :=
  ([.caller, .caller, .caller, .job 1, .job 1, .job 0, .caller, .job 0] : List Thread) ++
    (List.replicate 7 .caller : List Thread)

def decoderFailed : Config :=
  (Runs.run (step decoderFails) (decoderFails.begin readyVars) sinkFirst).getD
    (decoderFails.begin readyVars)

theorem reports_truth_decoder :
    Runs.run (step decoderFails) (decoderFails.begin readyVars) sinkFirst = some decoderFailed ∧
      decoderFailed.result = some .errorUnknown ∧ Truthful decoderFails decoderFailed := by
  have hrun : Runs.run (step decoderFails) (decoderFails.begin readyVars) sinkFirst =
      some decoderFailed := rfl
  exact ⟨hrun, rfl, (reports_truth decoderFails_told hrun).1⟩

-- Failures that nobody hears

/-- `Start` of three filters in a row without tasks, of which the last one fails. -/
def lastFails : Invocation where
  filters := .cons 0 (.cons 1 (.cons 2 .nil .nil) .nil) .nil
  hasTask _ := false
  op := .start
  hook f := if f = 2 then .errorUnknown else .ok

/-- The next filter has heard of the failure, and is asked for its own code. -/
theorem lastFails_unheard : ∃ c,
    Runs.run (step lastFails) (lastFails.begin readyVars) (List.replicate 13 .caller) = some c ∧
      c.result = some .ok ∧ c.hookFailed = true ∧ (c.vars 2).curState = .error :=
  ⟨_, rfl, rfl, rfl, rfl⟩

/-- No condition: an operation of a pipeline can report success for a failure. -/
theorem pipeline_untruthful : ¬ ∀ (v : Invocation) (vars : FilterId → FilterVars) (c : Config)
    (schedule : List Thread),
    Runs.run (step v) (v.begin vars) schedule = some c → Truthful v c := by
  intro h
  obtain ⟨c, hrun, hresult, hfailed, -⟩ := lastFails_unheard
  exact ((h _ _ _ _ hrun _ hresult).2 hfailed).1 rfl

end Truth

end MediaFoundation.Filters
