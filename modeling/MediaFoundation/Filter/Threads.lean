import MediaFoundation.Filter.Descent

/-!
# The caller of an operation, and the jobs

What holds between two steps of the caller and the jobs, whichever of them takes the next one.
-/

namespace MediaFoundation.Filters

section Threads

variable {v : Invocation} {vars : FilterId → FilterVars} {c c' : Config} {r : Option Status}
  {a : Action} {T : List Action} {f : FilterId} {M : List FilterId} {must : Bool}

-- One action

def Action.newJobs (v : Invocation) : Action → List (List Action)
  | .submit f nexts => [jobActions v f nexts]
  | _ => []

theorem act_frame (c : Config) (a : Action) :
    (c.act v a).1.calls = c.calls ∧ (c.act v a).1.waits = c.waits ∧
      (c.act v a).1.last = c.last ∧ (c.act v a).1.results = c.results ∧
      (c.act v a).1.result = c.result ∧ (c.act v a).1.timedOut = c.timedOut ∧
      (c.act v a).1.jobs = c.jobs ++ a.newJobs v := by
  cases a with
  | enter f | returned f =>
    unfold Config.act
    simp only
    split
    · exact ⟨rfl, rfl, rfl, rfl, rfl, rfl, (List.append_nil _).symm⟩
    · split
      · exact ⟨rfl, rfl, rfl, rfl, rfl, rfl, (List.append_nil _).symm⟩
      · exact ⟨rfl, rfl, rfl, rfl, rfl, rfl, (List.append_nil _).symm⟩
  | ready f | done f => exact ⟨rfl, rfl, rfl, rfl, rfl, rfl, (List.append_nil _).symm⟩
  | submit f nexts => exact ⟨rfl, rfl, rfl, rfl, rfl, rfl, rfl⟩

theorem act_hookFailed (hfit : a.Fits v M) (h : (c.act v a).1.hookFailed = true) :
    c.hookFailed = true ∨ ∃ f ∈ M, fails v vars f = true := by
  have hnoted : ∀ f ∈ M, (c.hookFailed || v.hook f != .ok) = true →
      c.hookFailed = true ∨ ∃ f ∈ M, fails v vars f = true := by
    intro f hf hor
    rcases (Bool.or_eq_true _ _).mp hor with hbefore | hfail
    · exact .inl hbefore
    · exact .inr ⟨f, hf, fails_of_hook (bne_iff_ne.mp hfail)⟩
  cases a with
  | enter f =>
    unfold Config.act at h
    simp only at h
    split at h
    · exact .inl h
    · split at h
      next hok => exact hnoted f hfit.2 (by rw [hok]; exact h)
      · exact hnoted f hfit.2 h
  | ready f | submit f nexts => exact .inl h
  | done f => exact hnoted f hfit.2 h
  | returned f =>
    unfold Config.act at h
    simp only at h
    split at h
    · exact .inl h
    · split at h
      · exact .inl h
      · exact .inl h

theorem act_ret (c : Config) (a : Action) :
    (c.act v a).1.ret = c.ret ∨ (c.act v a).1.ret ≠ .ok := by
  cases a with
  | enter f =>
    left
    unfold Config.act
    simp only
    split
    · rfl
    · split
      · rfl
      · rfl
  | ready f | done f | submit f nexts => exact .inl rfl
  | returned f =>
    unfold Config.act
    simp only
    split
    · exact .inl rfl
    next hfail =>
      split
      · exact .inr hfail
      · exact .inl rfl

/-- `PrepareDone` goes on exactly if the filter succeeds, and has then come to its loop. -/
theorem act_enter (h : Faithful v vars f (c.vars f)) :
    (fails v vars f = true → Settled v ((c.act v (.enter f)).1.vars f) ∧
      ∃ ret, (c.act v (.enter f)).2 = some ret ∧ ret ≠ .ok) ∧
    (fails v vars f = false → Entered v vars f ((c.act v (.enter f)).1.vars f) ∧
      (c.act v (.enter f)).2 = none) := by
  by_cases hstate : (c.vars f).curState = .error
  · have hact : c.act v (.enter f) = (c, some errorInvalidOperation) := if_pos hstate
    rw [hact]
    refine ⟨fun _ => ⟨.inr hstate, _, rfl, by decide⟩, fun hok => ?_⟩
    exact Bool.noConfusion (hok.symm.trans (h.fails_of_error hstate))
  · by_cases hok : v.hook f = .ok
    · have hact : c.act v (.enter f) = (c.callHook f .ok, none) := (if_neg hstate).trans (if_pos hok)
      have hsucceeds : fails v vars f = false :=
        not_fails_of (fun hbefore => hstate (h.sticky hbefore)) hok
      rw [hact]
      refine ⟨fun hfails => Bool.noConfusion (hsucceeds.symm.trans hfails),
        fun _ => ⟨⟨hsucceeds, ?_⟩, rfl⟩⟩
      rw [callHook_self]
      rfl
    · have hact : c.act v (.enter f) = ((c.callHook f (v.hook f)).changeState f .error,
          some (v.hook f)) := (if_neg hstate).trans (if_neg hok)
      have hcur : (((c.callHook f (v.hook f)).changeState f .error).vars f).curState = .error := by
        rw [callHook_failed_self]
      rw [hact]
      refine ⟨fun _ => ⟨.inr hcur, _, rfl, hok⟩, fun hsucceeds => ?_⟩
      exact Bool.noConfusion (hsucceeds.symm.trans (fails_of_hook hok))

/-- Only `PrepareDone`, and the loop over the head filters, return early. -/
theorem act_returns {ret : Status} (h : (c.act v a).2 = some ret) :
    ret ≠ .ok ∧ ((∃ f, a = .enter f) ∨ ∃ f, a = .returned f) := by
  cases a with
  | enter f =>
    refine ⟨?_, .inl ⟨f, rfl⟩⟩
    unfold Config.act at h
    simp only at h
    split at h
    · rw [← Option.some.inj h]
      decide
    · split at h
      · cases h
      next hfail => exact Option.some.inj h ▸ hfail
  | ready f | done f | submit f nexts => cases h
  | returned f =>
    refine ⟨?_, .inr ⟨f, rfl⟩⟩
    unfold Config.act at h
    simp only at h
    split at h
    · cases h
    next hfail =>
      split at h
      · cases h
      · exact Option.some.inj h ▸ hfail

-- What an action keeps

/-- What is known of the filters when a thread takes this action next. -/
structure Ready (v : Invocation) (vars : FilterId → FilterVars) (M : List FilterId) (c : Config)
    (a : Action) : Prop where
  faithful : ∀ f, Faithful v vars f (c.vars f)
  fits : a.Fits v M
  allowed : ∀ f, Allowed v vars f (c.vars f) a

theorem Ready.faithful' (h : Ready v vars M c a) (f : FilterId) :
    Faithful v vars f ((c.act v a).1.vars f) := by
  rcases act_vars c a f with hsame | hmoves
  · rw [hsame]
    exact h.faithful f
  · exact (h.faithful f).moves (h.allowed f) hmoves

theorem Ready.seen (h : Ready v vars M c a) (hs : Seen v vars f (c.vars f)) :
    Seen v vars f ((c.act v a).1.vars f) := by
  rcases act_vars c a f with hsame | hmoves
  · rwa [hsame]
  · exact hs.moves (h.faithful f) h.fits (h.allowed f) hmoves

theorem Ready.settled (h : Ready v vars M c a) (hs : Settled v (c.vars f)) :
    Settled v ((c.act v a).1.vars f) := by
  rcases act_vars c a f with hsame | hmoves
  · rwa [hsame]
  · exact hs.moves (h.faithful f) h.fits (h.allowed f) hmoves

theorem Ready.entered (_ : Ready v vars M c a) (he : Entered v vars f (c.vars f)) :
    Entered v vars f ((c.act v a).1.vars f) := by
  rcases act_vars c a f with hsame | hmoves
  · rwa [hsame]
  · exact he.moves hmoves

/-- A filter that succeeds stays in the state that is waited for. -/
theorem Ready.reached (h : Ready v vars M c a) (hsucceeds : fails v vars f = false)
    (hs : (c.vars f).curState = v.op.target) :
    ((c.act v a).1.vars f).curState = v.op.target := by
  rcases h.settled (.inl hs) with htarget | herror
  · exact htarget
  · exact Bool.noConfusion (hsucceeds.symm.trans ((h.faithful' f).fails_of_error herror))

/-- The rest of the thread has only `PrepareDone`s to end that have begun. -/
theorem Ready.opened (h : Ready v vars M c a)
    (ho : Opened (fun f => Entered v vars f (c.vars f)) (a :: T)) (hgoes : (c.act v a).2 = none) :
    Opened (fun f => Entered v vars f ((c.act v a).1.vars f)) T := by
  cases a with
  | enter f =>
    refine Opened.mono ho fun g hg => ?_
    rcases hg with hg | rfl
    · exact h.entered hg
    · obtain ⟨hstops, hruns⟩ := act_enter (h.faithful g)
      cases hfails : fails v vars g with
      | true =>
        obtain ⟨-, ret, hret, -⟩ := hstops hfails
        rw [hgoes] at hret
        cases hret
      | false => exact (hruns hfails).1
  | ready f => exact ho.2.mono fun g hg => h.entered hg
  | done f | submit f nexts | returned f => exact Opened.mono ho fun g hg => h.entered hg

theorem Ready.due (h : Ready v vars M c a) (hf : f ∈ settles v vars (a :: T)) :
    Settled v ((c.act v a).1.vars f) ∨ (c.act v a).2 = none ∧ f ∈ settles v vars T ∨
      (∃ J ∈ a.newJobs v, f ∈ settles v vars J) ∨ ∃ g, a = .returned g := by
  cases a with
  | enter g =>
    obtain ⟨hstops, hruns⟩ := act_enter (h.faithful g)
    rw [settles] at hf
    cases hfails : fails v vars g with
    | true =>
      rw [if_pos hfails, List.mem_singleton] at hf
      exact .inl (hf ▸ (hstops hfails).1)
    | false =>
      rw [hfails, if_neg Bool.false_ne_true] at hf
      exact .inr (.inl ⟨(hruns hfails).2, hf⟩)
  | ready g =>
    rcases List.mem_cons.mp hf with rfl | hf
    · have he : Entered v vars f (c.vars f) := h.allowed f rfl
      have hcur : ((c.changeState f .ready).vars f).curState = .ready := by
        rw [changeState_self]
        exact he.changeState_ready (h.faithful f)
      refine .inl (.inl (hcur.trans ?_))
      rw [h.fits.1]
      rfl
    · exact .inr (.inl ⟨rfl, hf⟩)
  | done g =>
    rcases List.mem_cons.mp hf with rfl | hf
    · left
      show Settled v ((Config.changeState _ f _).vars f)
      rw [callHook_changeState_self]
      unfold Settled
      rw [done_curState]
      split
      · exact .inr rfl
      · exact .inl rfl
    · exact .inr (.inl ⟨rfl, hf⟩)
  | submit g nexts =>
    rcases List.mem_append.mp hf with hf | hf
    · refine .inr (.inr (.inl ⟨_, List.mem_singleton.mpr rfl, ?_⟩))
      rwa [settles_jobActions]
    · exact .inr (.inl ⟨rfl, hf⟩)
  | returned g => exact .inr (.inr (.inr ⟨g, rfl⟩))

/-- After its hook has been called, the state of a filter tells the truth. -/
theorem Ready.seen_called (h : Ready v vars M c a) (hgoes : (c.act v a).2 = none)
    (hf : a = .enter f ∨ a = .done f) : Seen v vars f ((c.act v a).1.vars f) := by
  rcases hf with rfl | rfl
  · obtain ⟨hstops, hruns⟩ := act_enter (h.faithful f)
    cases hfails : fails v vars f with
    | true =>
      obtain ⟨-, ret, hret, -⟩ := hstops hfails
      rw [hgoes] at hret
      cases hret
    | false => exact (hruns hfails).1.seen (h.faithful' f)
  · show Seen v vars f ((Config.changeState _ f _).vars f)
    rw [callHook_changeState_self]
    exact (h.faithful f).seen_done h.fits.1

-- The invariant

/-- A filter that is settled in the end, unless the caller returns early. -/
def Due (v : Invocation) (vars : FilterId → FilterVars) (f : FilterId) : Prop :=
  f ∈ v.filters.members ∧ f ∈ settles v vars (headActions v)

def Covered (f : FilterId) (waits : List Wait) : Prop :=
  ∃ g nexts, .wait g nexts ∈ waits ∧ (f = g ∨ f ∈ nexts.members)

/-- What holds between two steps; `must` tells that the operation has to end with an error. -/
structure Inv (v : Invocation) (vars : FilterId → FilterVars) (must : Bool) (c : Config) :
    Prop where
  faithful : ∀ f, Faithful v vars f (c.vars f)
  fits : ∀ a ∈ c.calls, a.Fits v v.filters.members
  jobsFit : ∀ J ∈ c.jobs, ∀ a ∈ J, a.Fits v v.filters.members ∧ ∀ f, a ≠ .returned f
  opened : c.result = none → Opened (fun f => Entered v vars f (c.vars f)) c.calls
  jobsOpened : ∀ J ∈ c.jobs, Opened (fun f => Entered v vars f (c.vars f)) J
  seen : c.result = none → ∀ f ∈ v.filters.members,
    Seen v vars f (c.vars f) ∨ .enter f ∈ c.calls ∨ .done f ∈ c.calls
  due : c.result = none → ∀ f ∈ settles v vars (headActions v),
    Settled v (c.vars f) ∨ f ∈ settles v vars c.calls ∨ ∃ J ∈ c.jobs, f ∈ settles v vars J
  sound : c.result = none → (∃ f, .enter f ∈ c.calls ∧ fails v vars f = true) ∨
    Sound v vars (Due v vars) must (fun f => Settled v (c.vars f)) c.waits
      (c.results.map (· != .ok)) (c.last != .ok) (c.ret != .ok)
  covered : must = false → ∀ f ∈ v.filters.members,
    Covered f c.waits ∨ (c.vars f).curState = v.op.target
  answered : c.result = some .ok → must = false ∧ c.waits = []
  told : c.hookFailed = true → must = true
  inTime : c.timedOut = false

theorem newJobs_fit (hfit : a.Fits v M) :
    ∀ J ∈ a.newJobs v, ∀ b ∈ J, b.Fits v M ∧ ∀ f, b ≠ .returned f := by
  intro J hJ
  cases a with
  | submit f nexts =>
    rw [List.mem_singleton.mp hJ]
    exact fun b hb => ⟨jobActions_fits hfit.1 hfit.2 b hb, jobActions_stays b hb⟩
  | enter f | ready f | done f | returned f => cases hJ

theorem newJobs_opened {E : FilterId → Prop} : ∀ J ∈ a.newJobs v, Opened E J := by
  intro J hJ
  cases a with
  | submit f nexts =>
    rw [List.mem_singleton.mp hJ]
    exact jobActions_opened
  | enter f | ready f | done f | returned f => cases hJ

variable (hquiet : must = false → ∀ f ∈ v.filters.members, fails v vars f = false)
include hquiet

/-- What holds after an action, whichever thread took it. -/
structure Acted (v : Invocation) (vars : FilterId → FilterVars) (must : Bool) (c d : Config) :
    Prop where
  faithful : ∀ f, Faithful v vars f (d.vars f)
  sound : Sound v vars (Due v vars) must (fun f => Settled v (c.vars f)) c.waits
      (c.results.map (· != .ok)) (c.last != .ok) (c.ret != .ok) →
    Sound v vars (Due v vars) must (fun f => Settled v (d.vars f)) d.waits
      (d.results.map (· != .ok)) (d.last != .ok) (d.ret != .ok)
  covered : must = false → ∀ f ∈ v.filters.members,
    Covered f d.waits ∨ (d.vars f).curState = v.op.target
  told : d.hookFailed = true → must = true
  inTime : d.timedOut = false

theorem Inv.acted (h : Inv v vars must c) {calls : List Action} {jobs : List (List Action)}
    (hr : Ready v vars v.filters.members { c with calls, jobs } a) :
    Acted v vars must c (Config.act v { c with calls, jobs } a).1 := by
  obtain ⟨-, hwaits, hlast, hresults, -, htimed, -⟩ :=
    act_frame (v := v) { c with calls, jobs } a
  refine ⟨hr.faithful', fun hs => ?_, fun hmust f hf => ?_, fun hfailed => ?_,
    htimed.trans h.inTime⟩
  · have hs' := hs.mono fun f hf => hr.settled hf
    rw [hwaits, hlast, hresults]
    rcases act_ret (v := v) { c with calls, jobs } a with hret | hret
    · rw [hret]
      exact hs'
    · rw [bne_iff_ne.mpr hret]
      exact hs'.noted
  · rw [hwaits]
    exact (h.covered hmust f hf).imp id fun htarget => hr.reached (hquiet hmust f hf) htarget
  · have hnoted : ({ c with calls, jobs } : Config).hookFailed = true ∨
        ∃ f ∈ v.filters.members, fails v vars f = true :=
      act_hookFailed hr.fits hfailed
    rcases hnoted with hbefore | ⟨f, hf, hfails⟩
    · exact h.told hbefore
    · by_contra hmust
      rw [Bool.not_eq_true] at hmust
      exact Bool.noConfusion (hfails.symm.trans (hquiet hmust f hf))

omit hquiet in
theorem Inv.ready_call (h : Inv v vars must c) (hresult : c.result = none)
    (hcalls : c.calls = a :: T) :
    Ready v vars v.filters.members { c with calls := T, jobs := c.jobs } a := by
  refine ⟨h.faithful, h.fits a (hcalls ▸ List.mem_cons_self), fun f hf => ?_⟩
  have hopened := h.opened hresult
  rw [hcalls, hf] at hopened
  exact hopened.1

omit hquiet in
theorem Inv.jobs_after (h : Inv v vars must c) {calls : List Action}
    (hr : Ready v vars v.filters.members { c with calls, jobs := c.jobs } a) :
    (∀ J ∈ (Config.act v { c with calls, jobs := c.jobs } a).1.jobs,
      ∀ b ∈ J, b.Fits v v.filters.members ∧ ∀ f, b ≠ .returned f) ∧
    ∀ J ∈ (Config.act v { c with calls, jobs := c.jobs } a).1.jobs, Opened (fun f =>
      Entered v vars f ((Config.act v { c with calls, jobs := c.jobs } a).1.vars f)) J := by
  obtain ⟨-, -, -, -, -, -, hjobs⟩ := act_frame (v := v) { c with calls, jobs := c.jobs } a
  rw [hjobs]
  refine ⟨fun J hJ => ?_, fun J hJ => ?_⟩
  · exact (List.mem_append.mp hJ).elim (h.jobsFit J) (newJobs_fit hr.fits J)
  · exact (List.mem_append.mp hJ).elim
      (fun hJ => (h.jobsOpened J hJ).mono fun f hf => hr.entered hf) (newJobs_opened J)

/-- **The caller takes an action**, and goes on. -/
theorem Inv.call_goes (h : Inv v vars must c) (hresult : c.result = none)
    (hcalls : c.calls = a :: T)
    (hgoes : (Config.act v { c with calls := T, jobs := c.jobs } a).2 = none) :
    Inv v vars must (Config.act v { c with calls := T, jobs := c.jobs } a).1 := by
  have hT : ∀ b ∈ T, b.Fits v v.filters.members := fun b hb =>
    h.fits b (hcalls ▸ List.mem_cons_of_mem _ hb)
  have hr := h.ready_call hresult hcalls
  have hacted := h.acted hquiet hr
  have hopened := h.opened hresult
  rw [hcalls] at hopened
  obtain ⟨hc, -, -, -, hres, -, hjobs⟩ :=
    act_frame (v := v) { c with calls := T, jobs := c.jobs } a
  obtain ⟨hjobsFit, hjobsOpened⟩ := h.jobs_after hr
  refine ⟨hacted.faithful, hc ▸ hT, hjobsFit, fun _ => ?_, hjobsOpened, fun _ f hf => ?_,
    fun _ f hf => ?_, fun _ => ?_, hacted.covered, fun hok => ?_, hacted.told, hacted.inTime⟩
  · rw [hc]
    exact hr.opened hopened hgoes
  · rw [hc]
    rcases h.seen hresult f hf with hseen | hcall | hcall
    · exact .inl (hr.seen hseen)
    · rw [hcalls] at hcall
      rcases List.mem_cons.mp hcall with heq | hcall
      · exact .inl (hr.seen_called hgoes (.inl heq.symm))
      · exact .inr (.inl hcall)
    · rw [hcalls] at hcall
      rcases List.mem_cons.mp hcall with heq | hcall
      · exact .inl (hr.seen_called hgoes (.inr heq.symm))
      · exact .inr (.inr hcall)
  · rw [hc, hjobs]
    rcases h.due hresult f hf with hsettled | hcall | ⟨J, hJ, hf⟩
    · exact .inl (hr.settled hsettled)
    · rw [hcalls] at hcall
      rcases hr.due hcall with hsettled | ⟨-, hrest⟩ | ⟨J, hJ, hf⟩ | ⟨g, rfl⟩
      · exact .inl hsettled
      · exact .inr (.inl hrest)
      · exact .inr (.inr ⟨J, List.mem_append_right _ hJ, hf⟩)
      · exact .inr (.inl hcall)
    · exact .inr (.inr ⟨J, List.mem_append_left _ hJ, hf⟩)
  · rcases h.sound hresult with ⟨f, hf, hfails⟩ | hsound
    · rw [hcalls] at hf
      rcases List.mem_cons.mp hf with rfl | hf
      · obtain ⟨-, ret, hret, -⟩ := (act_enter (hr.faithful f)).1 hfails
        rw [hgoes] at hret
        cases hret
      · rw [hc]
        exact .inl ⟨f, hf, hfails⟩
    · exact .inr (hacted.sound hsound)
  · rw [hres] at hok
    cases hresult.symm.trans hok

/-- **The caller takes an action**, and returns. -/
theorem Inv.call_returns (h : Inv v vars must c) (hresult : c.result = none)
    (hcalls : c.calls = a :: T) {ret : Status}
    (hreturns : (Config.act v { c with calls := T, jobs := c.jobs } a).2 = some ret) :
    Inv v vars must
      { (Config.act v { c with calls := T, jobs := c.jobs } a).1 with result := some ret } := by
  have hT : ∀ b ∈ T, b.Fits v v.filters.members := fun b hb =>
    h.fits b (hcalls ▸ List.mem_cons_of_mem _ hb)
  have hr := h.ready_call hresult hcalls
  have hacted := h.acted hquiet hr
  obtain ⟨hc, -⟩ := act_frame (v := v) { c with calls := T, jobs := c.jobs } a
  obtain ⟨hjobsFit, hjobsOpened⟩ := h.jobs_after hr
  refine ⟨hacted.faithful, hc ▸ hT, hjobsFit, nofun, hjobsOpened, nofun, nofun, nofun,
    hacted.covered, fun hok => ?_, hacted.told, hacted.inTime⟩
  exact absurd (Option.some.inj hok) (act_returns hreturns).1

-- The caller waits

omit hquiet in
/-- A loop that waits for each filter of the forest in turn. -/
theorem covered_of_waits (waits : Forest → List Wait)
    (hwaits : ∀ g nexts rest, ∃ w, waits (.cons g nexts rest) = .wait g nexts :: w :: waits rest)
    {F : Forest} (h : f ∈ F.members) : Covered f (waits F) := by
  induction F with
  | nil => cases h
  | cons g nexts rest _ ih =>
    obtain ⟨w, hw⟩ := hwaits g nexts rest
    rw [hw]
    rcases List.mem_cons.mp h with rfl | h
    · exact ⟨f, nexts, List.mem_cons_self, .inl rfl⟩
    · rcases List.mem_append.mp h with h | h
      · exact ⟨g, nexts, List.mem_cons_self, .inr h⟩
      · obtain ⟨k, below, hk, hf⟩ := ih h
        exact ⟨k, below, List.mem_cons_of_mem _ (List.mem_cons_of_mem _ hk), hf⟩

omit hquiet in
theorem Covered.tail {w : Wait} {waits : List Wait} (h : Covered f (w :: waits))
    (hw : ∀ g nexts, w ≠ .wait g nexts) : Covered f waits := by
  obtain ⟨g, nexts, hmem, hf⟩ := h
  rcases List.mem_cons.mp hmem with heq | hmem
  · exact absurd heq.symm (hw g nexts)
  · exact ⟨g, nexts, hmem, hf⟩

omit hquiet in
theorem Inv.seen_waiting (h : Inv v vars must c) (hresult : c.result = none)
    (hcalls : c.calls = []) (hf : f ∈ v.filters.members) : Seen v vars f (c.vars f) := by
  rcases h.seen hresult f hf with hseen | hcall | hcall
  · exact hseen
  · rw [hcalls] at hcall
    cases hcall
  · rw [hcalls] at hcall
    cases hcall

omit hquiet in
theorem Inv.sound_waiting (h : Inv v vars must c) (hresult : c.result = none)
    (hcalls : c.calls = []) :
    Sound v vars (Due v vars) must (fun f => Settled v (c.vars f)) c.waits
      (c.results.map (· != .ok)) (c.last != .ok) (c.ret != .ok) := by
  rcases h.sound hresult with ⟨f, hf, -⟩ | hsound
  · rw [hcalls] at hf
    cases hf
  · exact hsound

omit hquiet in
theorem Inv.settled_waiting (h : Inv v vars must c) (hresult : c.result = none)
    (hcalls : c.calls = []) (hjobs : c.jobs = []) (hf : Due v vars f) : Settled v (c.vars f) := by
  rcases h.due hresult f hf.2 with hsettled | hcall | ⟨J, hJ, -⟩
  · exact hsettled
  · rw [hcalls] at hcall
    cases hcall
  · rw [hjobs] at hJ
    cases hJ

omit hquiet in
theorem Inv.waits_go (h : Inv v vars must c) (hresult : c.result = none) {waits : List Wait}
    {last ret : Status} {results : List Status}
    (hsound : Sound v vars (Due v vars) must (fun f => Settled v (c.vars f)) waits
      (results.map (· != .ok)) (last != .ok) (ret != .ok))
    (hcovered : must = false → ∀ f ∈ v.filters.members,
      Covered f waits ∨ (c.vars f).curState = v.op.target) :
    Inv v vars must { c with waits, last, results, ret } where
  faithful := h.faithful
  fits := h.fits
  jobsFit := h.jobsFit
  opened := h.opened
  jobsOpened := h.jobsOpened
  seen := h.seen
  due := h.due
  sound _ := .inr hsound
  covered := hcovered
  answered hok := by cases hresult.symm.trans hok
  told := h.told
  inTime := h.inTime

theorem Inv.wait_settled (h : Inv v vars must c) (hresult : c.result = none)
    (hcalls : c.calls = []) {nexts : Forest} {waits : List Wait}
    (hwaits : c.waits = .wait f nexts :: waits) :
    ((c.vars f).curState = v.op.target → Inv v vars must { c with
      waits := waitLoop nexts ++ .leave :: waits
      results := .ok :: c.results }) ∧
    ((c.vars f).curState = .error → Inv v vars must { c with
      waits
      last := (c.vars f).errCode }) := by
  have hsound := h.sound_waiting hresult hcalls
  rw [hwaits] at hsound
  obtain ⟨⟨hS, hvisit⟩, hsound⟩ := hsound
  have hseen := h.seen_waiting hresult hcalls hS.1
  have hW : Settled v (c.vars f) → ∀ g, Settled v (c.vars g) ∨ g = f → Settled v (c.vars g) := by
    intro hf g hg
    rcases hg with hg | rfl
    · exact hg
    · exact hf
  refine ⟨fun htarget => ?_, fun herror => ?_⟩
  · obtain ⟨hsucceeds, -⟩ := hseen.target htarget
    refine h.waits_go hresult (.loop (hvisit hsucceeds) ?_) fun hmust g hg => ?_
    · have hloud : loud v vars f nexts = heard v vars false nexts := by
        rw [loud, hsucceeds, if_neg Bool.false_ne_true]
      have hsound' := hsound.mono (hW (.inl htarget))
      rw [hloud] at hsound'
      exact hsound'
    · rcases h.covered hmust g hg with ⟨k, below, hk, hgk⟩ | hreached
      · rw [hwaits] at hk
        rcases List.mem_cons.mp hk with heq | hk
        · obtain ⟨rfl, rfl⟩ := Wait.wait.inj heq
          rcases hgk with rfl | hgk
          · exact .inr htarget
          · obtain ⟨j, under, hj, hgj⟩ :=
              covered_of_waits waitLoop (fun _ _ _ => ⟨_, rfl⟩) hgk
            exact .inl ⟨j, under, List.mem_append_left _ hj, hgj⟩
        · exact .inl ⟨k, below,
            List.mem_append_right _ (List.mem_cons_of_mem _ hk), hgk⟩
      · exact .inr hreached
  · obtain ⟨hfails, hcode⟩ := hseen.error herror
    refine h.waits_go hresult ?_ fun hmust => ?_
    · have hloud : loud v vars f nexts = ((c.vars f).errCode != .ok) := by
        rw [loud, if_pos hfails, Bool.eq_iff_iff, bne_iff_ne, bne_iff_ne, Ne, Ne, hcode]
      rw [← hloud]
      exact hsound.mono (hW (.inr herror))
    · exact Bool.noConfusion (hfails.symm.trans (hquiet hmust f hS.1))

/-- **The caller waits**, or is between two waits. -/
theorem Inv.wait (h : Inv v vars must c) (hresult : c.result = none) (hcalls : c.calls = [])
    (hstep : c.waitStep v = some c') : Inv v vars must c' := by
  have hsound := h.sound_waiting hresult hcalls
  unfold Config.waitStep at hstep
  cases hwaits : c.waits with
  | nil =>
    rw [hwaits] at hstep hsound
    cases hstep
    have hcovered := h.covered
    rw [hwaits] at hcovered
    refine ⟨h.faithful, h.fits, h.jobsFit, nofun, h.jobsOpened, nofun, nofun, nofun, hcovered,
      fun hok => ⟨?_, rfl⟩, h.told, h.inTime⟩
    · by_contra hmust
      have herror := hsound (Bool.not_eq_false _ ▸ hmust)
      exact bne_iff_ne.mp herror (Option.some.inj hok)
  | cons w waits =>
    have hcovered : (∀ g nexts, w ≠ .wait g nexts) → must = false →
        ∀ f ∈ v.filters.members, Covered f waits ∨ (c.vars f).curState = v.op.target := by
      intro hw hmust f hf
      have hbefore := h.covered hmust f hf
      rw [hwaits] at hbefore
      exact hbefore.imp (fun hcov => hcov.tail hw) id
    rw [hwaits] at hstep hsound
    cases w with
    | wait f nexts =>
      obtain ⟨htarget, herror⟩ := h.wait_settled hquiet hresult hcalls hwaits
      simp only at hstep
      split at hstep
      next hcur => exact Option.some.inj hstep ▸ htarget hcur
      next hcur =>
        split at hstep
        next hcur => exact Option.some.inj hstep ▸ herror hcur.2
        next hcur' =>
          split at hstep
          next hjobs =>
            -- every filter that is waited for is due, so no wait runs into its timeout
            rcases h.settled_waiting hresult hcalls hjobs hsound.1.1 with hs | hs
            · exact absurd hs hcur
            · exact absurd ⟨target_ne_released _, hs⟩ hcur'
          · cases hstep
    | merge f =>
      cases hresults : c.results with
      | nil =>
        rw [hresults] at hsound
        exact absurd hsound id
      | cons res results =>
        rw [hresults] at hsound
        obtain ⟨hnamed, hsound⟩ := hsound
        simp only at hstep
        split at hstep
        next hok =>
          cases hstep
          refine h.waits_go hresult ?_ (hcovered nofun)
          rw [hok] at hsound ⊢
          rw [hresults]
          exact hsound
        next hfail =>
          cases hstep
          refine h.waits_go hresult ?_ (hcovered nofun)
          have hlast : (c.last != .ok) = true := bne_iff_ne.mpr hfail
          obtain ⟨⟨hS, hW⟩, hcode⟩ := hnamed hlast
          have hseen := h.seen_waiting hresult hcalls hS.1
          have herr : ((c.vars f).errCode != .ok) = fails v vars f := by
            rcases hW with htarget | herror
            · obtain ⟨hsucceeds, hok⟩ := hseen.target htarget
              rw [hsucceeds, hok]
              rfl
            · obtain ⟨hfails, hiff⟩ := hseen.error herror
              rw [hfails]
              exact bne_iff_ne.mpr fun hok => hcode hfails (hiff.mp hok)
          rw [hlast, if_pos rfl, ← herr] at hsound
          rw [hresults, hlast]
          exact hsound
    | leave =>
      cases hresults : c.results with
      | nil =>
        rw [hresults] at hsound
        exact absurd hsound id
      | cons res results =>
        rw [hresults] at hsound
        cases hstep
        refine h.waits_go hresult ?_ (hcovered nofun)
        rw [hresults]
        exact hsound
    | head =>
      simp only at hstep
      split at hstep
      next hok =>
        cases hstep
        refine h.waits_go hresult ?_ (hcovered nofun)
        rcases hsound with ⟨-, hlast⟩ | hsound
        · exact absurd hok (bne_iff_ne.mp hlast)
        · rw [hok] at hsound ⊢
          rwa [bne_self_eq_false, Bool.or_false] at hsound
      next hfail =>
        have hlast : (c.last != .ok) = true := bne_iff_ne.mpr hfail
        split at hstep
        next hop =>
          cases hstep
          refine h.waits_go hresult ?_ (hcovered nofun)
          rcases hsound with ⟨hno, -⟩ | hsound
          · exact Bool.noConfusion (hop.symm.trans hno)
          · rw [hlast, Bool.or_true] at hsound
            rw [hlast]
            exact hsound
        · cases hstep
          exact ⟨h.faithful, h.fits, h.jobsFit, nofun, h.jobsOpened, nofun, nofun, nofun,
            hcovered nofun, fun hok => absurd (Option.some.inj hok) hfail, h.told, h.inTime⟩

-- A job runs

omit hquiet in
theorem mem_set_or_eq {α : Type*} {L : List α} {i : Nat} {J K : α} (J' : α) (hi : L[i]? = some K)
    (hJ : J ∈ L) : J = K ∨ J ∈ L.set i J' := by
  obtain ⟨j, hj⟩ := List.mem_iff_getElem?.mp hJ
  by_cases hij : i = j
  · subst hij
    exact .inl (Option.some.inj (hj.symm.trans hi))
  · refine .inr (List.mem_iff_getElem?.mpr ⟨j, ?_⟩)
    rw [List.getElem?_set_ne hij, hj]

omit hquiet in
theorem mem_eraseIdx_or_eq {α : Type*} {L : List α} {i : Nat} {J K : α} (hi : L[i]? = some K)
    (hJ : J ∈ L) : J = K ∨ J ∈ L.eraseIdx i := by
  obtain ⟨j, hj⟩ := List.mem_iff_getElem?.mp hJ
  by_cases hij : j = i
  · subst hij
    exact .inl (Option.some.inj (hj.symm.trans hi))
  · exact .inr (List.mem_eraseIdx_iff_getElem?.mpr ⟨j, hij, hj⟩)

variable {i : Nat} {J : List Action}

omit hquiet in
theorem Inv.ready_job (h : Inv v vars must c) (hjob : c.jobs[i]? = some (a :: J)) :
    Ready v vars v.filters.members { c with calls := c.calls, jobs := c.jobs.set i J } a := by
  have hmem : a :: J ∈ c.jobs := List.mem_of_getElem? hjob
  refine ⟨h.faithful, (h.jobsFit _ hmem a List.mem_cons_self).1, fun f hf => ?_⟩
  have hopened := h.jobsOpened _ hmem
  rw [hf] at hopened
  exact hopened.1

omit hquiet in
theorem Inv.job_over (h : Inv v vars must c) (hjob : c.jobs[i]? = some []) :
    Inv v vars must { c with jobs := c.jobs.eraseIdx i } where
  faithful := h.faithful
  fits := h.fits
  jobsFit K hK := h.jobsFit K (List.mem_of_mem_eraseIdx hK)
  opened := h.opened
  jobsOpened K hK := h.jobsOpened K (List.mem_of_mem_eraseIdx hK)
  seen := h.seen
  due hresult f hf := by
    refine (h.due hresult f hf).imp id (Or.imp id ?_)
    rintro ⟨K, hK, hf⟩
    rcases mem_eraseIdx_or_eq hjob hK with rfl | hK
    · cases hf
    · exact ⟨K, hK, hf⟩
  sound := h.sound
  covered := h.covered
  answered := h.answered
  told := h.told
  inTime := h.inTime

theorem Inv.job_with (h : Inv v vars must c)
    (hr : Ready v vars v.filters.members { c with calls := c.calls, jobs := c.jobs.set i J } a)
    {d : Config} (hd : (Config.act v { c with calls := c.calls, jobs := c.jobs.set i J } a).1 = d)
    {jobs : List (List Action)}
    (hfit : ∀ K ∈ jobs, ∀ b ∈ K, b.Fits v v.filters.members ∧ ∀ f, b ≠ .returned f)
    (hopened : ∀ K ∈ jobs, Opened (fun f => Entered v vars f (d.vars f)) K)
    (hdue : ∀ K ∈ c.jobs, ∀ f ∈ settles v vars K,
      Settled v (d.vars f) ∨ ∃ K' ∈ jobs, f ∈ settles v vars K') :
    Inv v vars must { d with jobs } := by
  have hacted := h.acted hquiet hr
  obtain ⟨hc, hwaits, -, -, hres, -, -⟩ :=
    act_frame (v := v) { c with calls := c.calls, jobs := c.jobs.set i J } a
  have hseen : ∀ f, Seen v vars f (c.vars f) → Seen v vars f (d.vars f) :=
    fun f hf => hd ▸ hr.seen hf
  have hsettled : ∀ f, Settled v (c.vars f) → Settled v (d.vars f) :=
    fun f hf => hd ▸ hr.settled hf
  have hentered : ∀ f, Entered v vars f (c.vars f) → Entered v vars f (d.vars f) :=
    fun f hf => hd ▸ hr.entered hf
  rw [hd] at hacted hc hwaits hres
  refine ⟨hacted.faithful, fun b hb => h.fits b (hc ▸ hb), hfit, fun hresult => ?_, hopened,
    fun hresult f hf => ?_, fun hresult f hf => ?_, fun hresult => ?_, hacted.covered,
    fun hok => ?_, hacted.told, hacted.inTime⟩
  · show Opened _ d.calls
    rw [hc]
    exact (h.opened (hres.symm.trans hresult)).mono hentered
  · show _ ∨ _ ∈ d.calls ∨ _ ∈ d.calls
    rw [hc]
    exact (h.seen (hres.symm.trans hresult) f hf).imp (hseen f) id
  · show _ ∨ _ ∈ settles v vars d.calls ∨ _
    rw [hc]
    rcases h.due (hres.symm.trans hresult) f hf with hs | hcall | ⟨K, hK, hf⟩
    · exact .inl (hsettled f hs)
    · exact .inr (.inl hcall)
    · exact (hdue K hK f hf).imp id .inr
  · rcases h.sound (hres.symm.trans hresult) with ⟨f, hf, hfails⟩ | hsound
    · refine .inl ⟨f, ?_, hfails⟩
      show _ ∈ d.calls
      rwa [hc]
    · exact .inr (hacted.sound hsound)
  · show must = false ∧ d.waits = []
    rw [hwaits]
    exact h.answered (hres.symm.trans hok)

/-- **A job takes an action**, and goes on. -/
theorem Inv.job_goes (h : Inv v vars must c) (hjob : c.jobs[i]? = some (a :: J)) {d : Config}
    (hact : Config.act v { c with calls := c.calls, jobs := c.jobs.set i J } a = (d, none)) :
    Inv v vars must d := by
  have hr := h.ready_job hjob
  obtain ⟨-, -, -, -, -, -, hjobs⟩ :=
    act_frame (v := v) { c with calls := c.calls, jobs := c.jobs.set i J } a
  have hmem : a :: J ∈ c.jobs := List.mem_of_getElem? hjob
  have hJ : Opened _ J := hr.opened (h.jobsOpened _ hmem) (congrArg Prod.snd hact)
  have hnew := newJobs_fit hr.fits
  have hentered := fun f => hr.entered (f := f)
  have hdue := fun f => hr.due (f := f) (T := J)
  rw [hact] at hjobs hJ hentered hdue
  show Inv v vars must { d with jobs := d.jobs }
  refine h.job_with hquiet hr (congrArg Prod.fst hact) (fun K hK => ?_) (fun K hK => ?_)
    fun K hK f hf => ?_
  · rw [hjobs] at hK
    rcases List.mem_append.mp hK with hK | hK
    · rcases List.mem_or_eq_of_mem_set hK with hK | rfl
      · exact h.jobsFit K hK
      · exact fun b hb => h.jobsFit _ hmem b (List.mem_cons_of_mem _ hb)
    · exact hnew K hK
  · rw [hjobs] at hK
    rcases List.mem_append.mp hK with hK | hK
    · rcases List.mem_or_eq_of_mem_set hK with hK | rfl
      · exact (h.jobsOpened K hK).mono hentered
      · exact hJ
    · exact newJobs_opened K hK
  · rw [hjobs]
    rcases mem_set_or_eq J hjob hK with rfl | hK
    · rcases hdue f hf with hs | ⟨-, hrest⟩ | ⟨K, hK, hf⟩ | ⟨g, hg⟩
      · exact .inl hs
      · refine .inr ⟨J, List.mem_append_left _ ?_, hrest⟩
        exact List.mem_of_getElem? (List.getElem?_set_self (List.getElem?_eq_some_iff.mp hjob).1)
      · exact .inr ⟨K, List.mem_append_right _ hK, hf⟩
      · exact absurd hg ((h.jobsFit _ hmem a List.mem_cons_self).2 g)
    · exact .inr ⟨K, List.mem_append_left _ hK, hf⟩

/-- **A job takes an action**, and returns. -/
theorem Inv.job_returns (h : Inv v vars must c) (hjob : c.jobs[i]? = some (a :: J)) {d : Config}
    {ret : Status}
    (hact : Config.act v { c with calls := c.calls, jobs := c.jobs.set i J } a = (d, some ret)) :
    Inv v vars must { d with jobs := d.jobs.eraseIdx i } := by
  have hr := h.ready_job hjob
  obtain ⟨-, -, -, -, -, -, hjobs⟩ :=
    act_frame (v := v) { c with calls := c.calls, jobs := c.jobs.set i J } a
  have hmem : a :: J ∈ c.jobs := List.mem_of_getElem? hjob
  have hstays : ∀ f, a ≠ .returned f := (h.jobsFit _ hmem a List.mem_cons_self).2
  have hnew : a.newJobs v = [] := by
    obtain ⟨-, ⟨f, rfl⟩ | ⟨f, hf⟩⟩ := act_returns (congrArg Prod.snd hact)
    · rfl
    · exact absurd hf (hstays f)
  have hentered := fun f => hr.entered (f := f)
  have hdue := fun f => hr.due (f := f) (T := J)
  rw [hact] at hjobs hentered hdue
  have herase : d.jobs.eraseIdx i = c.jobs.eraseIdx i := by
    rw [hjobs, hnew, List.append_nil, List.eraseIdx_set_eq]
  rw [herase]
  refine h.job_with hquiet hr (congrArg Prod.fst hact) (fun K hK => ?_) (fun K hK => ?_)
    fun K hK f hf => ?_
  · exact h.jobsFit K (List.mem_of_mem_eraseIdx hK)
  · exact (h.jobsOpened K (List.mem_of_mem_eraseIdx hK)).mono hentered
  · rcases mem_eraseIdx_or_eq hjob hK with rfl | hK
    · rcases hdue f hf with hs | ⟨hnone, -⟩ | ⟨K, hK, -⟩ | ⟨g, hg⟩
      · exact .inl hs
      · cases hnone
      · rw [hnew] at hK
        cases hK
      · exact absurd hg (hstays g)
    · exact .inr ⟨K, hK, hf⟩

/-- **Every step** keeps the invariant. -/
theorem Inv.step (h : Inv v vars must c) {thread : Thread}
    (hstep : Filters.step v c thread = some c') : Inv v vars must c' := by
  cases thread with
  | caller =>
    rw [Filters.step] at hstep
    split at hstep
    · cases hstep
    next hsome =>
      have hresult : c.result = none := Option.not_isSome_iff_eq_none.mp hsome
      split at hstep
      next hcalls => exact h.wait hquiet hresult hcalls hstep
      next a T hcalls =>
        split at hstep
        next d hact =>
          cases hstep
          have hinv := h.call_goes hquiet hresult hcalls (congrArg Prod.snd hact)
          rwa [hact] at hinv
        next d ret hact =>
          cases hstep
          have hinv := h.call_returns hquiet hresult hcalls (congrArg Prod.snd hact)
          rwa [hact] at hinv
  | job i =>
    rw [Filters.step] at hstep
    split at hstep
    · cases hstep
    next hjob =>
      cases hstep
      exact h.job_over hjob
    next a J hjob =>
      split at hstep
      next d hact =>
        cases hstep
        exact h.job_goes hquiet hjob hact
      next d ret hact =>
        cases hstep
        exact h.job_returns hquiet hjob hact

end Threads

end MediaFoundation.Filters
