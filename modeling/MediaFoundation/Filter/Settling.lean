import MediaFoundation.Filter.Failures

/-!
# What the threads do to the filters

A thread is a list of actions. `settles` tells which filters it will bring to the state that is
waited for, or to `ERROR`: an early return cuts the rest of the list off. One action keeps what
is known of every filter, whichever thread takes it.
-/

namespace MediaFoundation.Filters

section Settling

variable {v : Invocation} {vars : FilterId → FilterVars} {c c' : Config} {r : Option Status}
  {a : Action} {T : List Action} {f g : FilterId} {F nexts rest : Forest}

-- The filters that a thread settles

def prepared (v : Invocation) (vars : FilterId → FilterVars) : Forest → List FilterId
  | .nil => []
  | .cons f nexts rest =>
    if v.hasTask f then
      (if fails v vars f then [f]
        else prepared v vars nexts ++ if aborts v vars nexts then [] else [f]) ++
        prepared v vars rest
    else if fails v vars f then [f]
    else prepared v vars nexts ++
      if aborts v vars nexts then [] else f :: prepared v vars rest

/-- The filters that the job of a filter settles, with the jobs that it submits. -/
def submitted (v : Invocation) (vars : FilterId → FilterVars) (f : FilterId) (nexts : Forest) :
    List FilterId :=
  match v.op with
  | .prepare =>
    if fails v vars f then [f]
    else prepared v vars nexts ++ if aborts v vars nexts then [] else [f]
  | _ => [f]

def settles (v : Invocation) (vars : FilterId → FilterVars) : List Action → List FilterId
  | [] => []
  | .enter f :: T => if fails v vars f then [f] else settles v vars T
  | .ready f :: T => f :: settles v vars T
  | .done f :: T => f :: settles v vars T
  | .submit f nexts :: T => submitted v vars f nexts ++ settles v vars T
  | .returned _ :: T => settles v vars T

theorem settles_prepareActions (hop : v.op = .prepare) (T : List Action) :
    settles v vars (prepareActions v.hasTask F ++ T) =
      prepared v vars F ++ if aborts v vars F then [] else settles v vars T := by
  induction F generalizing T with
  | nil => rfl
  | cons f nexts rest ihn ihr =>
    rw [prepareActions, prepared, aborts]
    by_cases htask : v.hasTask f = true
    · simp only [htask, if_true, Bool.not_true, Bool.false_and, Bool.false_or,
        List.cons_append, List.nil_append, settles, ihr]
      simp only [submitted, hop, List.append_assoc]
    · rw [Bool.not_eq_true] at htask
      simp only [htask, Bool.false_eq_true, if_false, Bool.not_false, Bool.true_and,
        List.cons_append, List.append_assoc, List.nil_append, settles, ihn, ihr]
      cases fails v vars f with
      | true => rfl
      | false =>
        cases aborts v vars nexts with
        | true | false => simp

theorem settles_jobActions : settles v vars (jobActions v f nexts) = submitted v vars f nexts := by
  unfold jobActions submitted
  cases hop : v.op with
  | prepare => simp only [settles, settles_prepareActions hop]
  | start | pause | resume | stop => rfl

-- What is known of a filter

/-- The filter is in `ERROR` only if it fails, and never leaves it. -/
structure Faithful (v : Invocation) (vars : FilterId → FilterVars) (f : FilterId)
    (w : FilterVars) : Prop where
  fails_of_error : w.curState = .error → fails v vars f = true
  sticky : (vars f).curState = .error → w.curState = .error

/-- What `WaitAllState` may conclude from the state of the filter. -/
structure Seen (v : Invocation) (vars : FilterId → FilterVars) (f : FilterId)
    (w : FilterVars) : Prop where
  target : w.curState = v.op.target → fails v vars f = false ∧ w.errCode = .ok
  error : w.curState = .error → fails v vars f = true ∧ (w.errCode = .ok ↔ code v vars f = .ok)

/-- `PrepareDone` of the filter has come to its loop. -/
structure Entered (v : Invocation) (vars : FilterId → FilterVars) (f : FilterId)
    (w : FilterVars) : Prop where
  succeeds : fails v vars f = false
  errCode : w.errCode = .ok

/-- No wait for the filter blocks. -/
def Settled (v : Invocation) (w : FilterVars) : Prop :=
  w.curState = v.op.target ∨ w.curState = .error

def Action.Fits (v : Invocation) (M : List FilterId) : Action → Prop
  | .enter f => v.op = .prepare ∧ f ∈ M
  | .ready f => v.op = .prepare ∧ f ∈ M
  | .done f => v.op ≠ .prepare ∧ f ∈ M
  | .submit f nexts => f ∈ M ∧ ∀ g ∈ nexts.members, g ∈ M
  | .returned _ => True

theorem hook_of_not_fails (h : fails v vars f = false) : v.hook f = .ok := by
  unfold fails at h
  rw [Bool.or_eq_false_iff] at h
  exact bne_eq_false_iff_eq.mp h.2

theorem fails_of_hook (h : v.hook f ≠ .ok) : fails v vars f = true := by
  unfold fails
  rw [bne_iff_ne.mpr h, Bool.or_true]

theorem not_fails_of (hstate : (vars f).curState ≠ .error) (hhook : v.hook f = .ok) :
    fails v vars f = false := by
  unfold fails
  rw [Bool.or_eq_false_iff]
  exact ⟨beq_eq_false_iff_ne.mpr hstate, bne_eq_false_iff_eq.mpr hhook⟩

theorem target_ne_error (op : Operation) : op.target ≠ .error := by
  cases op <;> decide

theorem target_ne_released (op : Operation) : op.target ≠ .released := by
  cases op <;> decide

theorem changeState_curState {w : FilterVars} {s : FilterState} (hs : s ≠ .released) :
    (w.changeState s).curState = if w.curState = .error then .error else s := if_neg hs

-- One action, and one filter

inductive Moves (v : Invocation) (f : FilterId) (w : FilterVars) : Action → FilterVars → Prop where
  | entered : w.curState ≠ .error → v.hook f = .ok → Moves v f w (.enter f) (w.setErrCode .ok)
  | failed : w.curState ≠ .error → v.hook f ≠ .ok →
    Moves v f w (.enter f) ⟨.error, v.hook f⟩
  | ready : Moves v f w (.ready f) (w.changeState .ready)
  | done : Moves v f w (.done f)
    ((w.setErrCode (v.hook f)).changeState (if v.hook f = .ok then v.op.target else .error))

theorem callHook_self (c : Config) (f : FilterId) (ret : Status) :
    (c.callHook f ret).vars f = (c.vars f).setErrCode ret :=
  Function.update_self _ _ _

theorem changeState_self (c : Config) (f : FilterId) (s : FilterState) :
    (c.changeState f s).vars f = (c.vars f).changeState s :=
  Function.update_self _ _ _

theorem callHook_changeState_self (c : Config) (f : FilterId) (ret : Status) (s : FilterState) :
    ((c.callHook f ret).changeState f s).vars f = ((c.vars f).setErrCode ret).changeState s := by
  rw [changeState_self, callHook_self]

theorem callHook_failed_self (c : Config) (f : FilterId) (ret : Status) :
    ((c.callHook f ret).changeState f .error).vars f = ⟨.error, ret⟩ := by
  rw [callHook_changeState_self, FilterVars.changeState, FilterVars.setErrCode]
  simp

/-- The other filters are left alone. -/
theorem act_vars (c : Config) (a : Action) (f : FilterId) :
    (c.act v a).1.vars f = c.vars f ∨ Moves v f (c.vars f) a ((c.act v a).1.vars f) := by
  cases a with
  | enter g =>
    unfold Config.act
    simp only
    split
    · exact .inl rfl
    next hstate =>
      by_cases hfg : f = g
      · subst hfg
        split
        next hok =>
          refine .inr ?_
          rw [callHook_self]
          exact .entered hstate hok
        next hfail =>
          refine .inr ?_
          rw [callHook_failed_self]
          exact .failed hstate hfail
      · left
        split
        · exact Function.update_of_ne hfg _ _
        · exact (Function.update_of_ne hfg _ _).trans (Function.update_of_ne hfg _ _)
  | ready g =>
    by_cases hfg : f = g
    · subst hfg
      refine .inr ?_
      show Moves v f (c.vars f) (.ready f) ((c.changeState f .ready).vars f)
      rw [changeState_self]
      exact .ready
    · exact .inl (Function.update_of_ne hfg _ _)
  | done g =>
    by_cases hfg : f = g
    · subst hfg
      refine .inr ?_
      show Moves v f (c.vars f) (.done f) (Config.vars (Config.changeState _ f _) f)
      rw [callHook_changeState_self]
      exact .done
    · exact .inl ((Function.update_of_ne hfg _ _).trans (Function.update_of_ne hfg _ _))
  | submit g nexts => exact .inl rfl
  | returned g =>
    left
    unfold Config.act
    simp only
    split
    · rfl
    · split
      · rfl
      · rfl

variable {w w' : FilterVars} {M : List FilterId}

/-- `PrepareDone` only ends where it has come to its loop. -/
def Allowed (v : Invocation) (vars : FilterId → FilterVars) (f : FilterId) (w : FilterVars)
    (a : Action) : Prop :=
  a = .ready f → Entered v vars f w

theorem Entered.curState_ne (he : Entered v vars f w) (h : Faithful v vars f w) :
    w.curState ≠ .error := by
  intro herror
  exact Bool.noConfusion (he.succeeds.symm.trans (h.fails_of_error herror))

theorem Entered.changeState_ready (he : Entered v vars f w) (h : Faithful v vars f w) :
    (w.changeState .ready).curState = .ready := by
  rw [changeState_curState (by decide), if_neg (he.curState_ne h)]

theorem done_curState : ((w.setErrCode (v.hook f)).changeState
    (if v.hook f = .ok then v.op.target else .error)).curState =
      if w.curState = .error ∨ v.hook f ≠ .ok then .error else v.op.target := by
  have hne : (if v.hook f = .ok then v.op.target else .error) ≠ .released := by
    split
    · exact target_ne_released _
    · decide
  rw [changeState_curState hne]
  show (if w.curState = .error then _ else _) = _
  by_cases hstate : w.curState = .error
  · rw [if_pos hstate, if_pos (.inl hstate)]
  · by_cases hok : v.hook f = .ok
    · rw [if_neg hstate, if_pos hok, if_neg (by rintro (h | h); exacts [hstate h, h hok])]
    · rw [if_neg hstate, if_neg hok, if_pos (.inr hok)]

theorem Faithful.moves (h : Faithful v vars f w) (hready : Allowed v vars f w a)
    (hm : Moves v f w a w') : Faithful v vars f w' := by
  cases hm with
  | entered hstate hok => exact ⟨h.fails_of_error, h.sticky⟩
  | failed hstate hfail => exact ⟨fun _ => fails_of_hook hfail, fun _ => rfl⟩
  | ready =>
    have hcur := (hready rfl).changeState_ready h
    refine ⟨fun herror => ?_, fun hbefore => ?_⟩
    · rw [hcur] at herror
      cases herror
    · exact absurd (h.sticky hbefore) ((hready rfl).curState_ne h)
  | done =>
    refine ⟨fun herror => ?_, fun hbefore => ?_⟩
    · rw [done_curState] at herror
      split at herror
      next hwhy => exact hwhy.elim h.fails_of_error fails_of_hook
      · exact absurd herror (target_ne_error _)
    · rw [done_curState, if_pos (.inl (h.sticky hbefore))]

theorem Faithful.seen_done (h : Faithful v vars f w) (hop : v.op ≠ .prepare) :
    Seen v vars f ((w.setErrCode (v.hook f)).changeState
      (if v.hook f = .ok then v.op.target else .error)) := by
  have hcode : code v vars f = v.hook f := if_neg fun hboth => hop hboth.1
  have hready : Allowed v vars f w (.done f) := fun hne => Action.noConfusion hne
  refine ⟨fun htarget => ?_, fun herror => ⟨?_, ?_⟩⟩
  · rw [done_curState] at htarget
    split at htarget
    · exact absurd htarget.symm (target_ne_error _)
    next hwhy =>
      rw [not_or, not_not] at hwhy
      exact ⟨not_fails_of (fun hbefore => hwhy.1 (h.sticky hbefore)) hwhy.2, hwhy.2⟩
  · exact (h.moves hready .done).fails_of_error herror
  · rw [hcode]
    exact Iff.rfl

theorem Entered.seen (he : Entered v vars f w) (h : Faithful v vars f w) : Seen v vars f w :=
  ⟨fun _ => ⟨he.succeeds, he.errCode⟩, fun herror => absurd herror (he.curState_ne h)⟩

/-- What `WaitAllState` may conclude stays true. -/
theorem Seen.moves (hs : Seen v vars f w) (h : Faithful v vars f w) (hfit : a.Fits v M)
    (hready : Allowed v vars f w a) (hm : Moves v f w a w') : Seen v vars f w' := by
  cases hm with
  | entered hstate hok =>
    exact ⟨fun htarget => ⟨(hs.target htarget).1, rfl⟩, fun herror => absurd herror hstate⟩
  | failed hstate hfail =>
    have hbefore : (vars f).curState ≠ .error := fun herror => hstate (h.sticky herror)
    have hcode : code v vars f = v.hook f := if_neg fun hboth => hbefore hboth.2
    refine ⟨fun htarget => absurd htarget.symm (target_ne_error _),
      fun _ => ⟨fails_of_hook hfail, ?_⟩⟩
    rw [hcode]
  | ready =>
    have hcur := (hready rfl).changeState_ready h
    refine ⟨fun _ => ⟨(hready rfl).succeeds, (hready rfl).errCode⟩, fun herror => ?_⟩
    rw [hcur] at herror
    cases herror
  | done => exact h.seen_done hfit.1

theorem Settled.moves (hs : Settled v w) (h : Faithful v vars f w) (hfit : a.Fits v M)
    (hready : Allowed v vars f w a) (hm : Moves v f w a w') : Settled v w' := by
  cases hm with
  | entered hstate hok => exact hs
  | failed hstate hfail => exact .inr rfl
  | ready =>
    refine .inl (((hready rfl).changeState_ready h).trans ?_)
    rw [hfit.1]
    rfl
  | done =>
    unfold Settled
    rw [done_curState]
    split
    · exact .inr rfl
    · exact .inl rfl

theorem Entered.moves (he : Entered v vars f w) (hm : Moves v f w a w') :
    Entered v vars f w' := by
  have hok := hook_of_not_fails he.succeeds
  cases hm with
  | entered hstate _ => exact ⟨he.succeeds, rfl⟩
  | failed hstate hfail => exact absurd hok hfail
  | ready => exact ⟨he.succeeds, he.errCode⟩
  | done => exact ⟨he.succeeds, hok⟩

end Settling

end MediaFoundation.Filters
