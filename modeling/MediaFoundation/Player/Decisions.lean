import MediaFoundation.Lib.Runs
import MediaFoundation.Player.StateMachine

/-!
# The states decide

The last transition that an `Execute` or `Enter` asks for names the state in
which the machine is when `ProcessIntent` returns, and the sender of the intent
gets the first error.

`TransitionTo` drops the action of an `Enter` that failed, and the two that ask
for a transition do so when they fail: `PREPARING` and `READY` want to go back to
`INIT`. `KeepsDecision` excludes the two, and nothing else (`decides_run`).
-/

namespace MediaFoundation.Player

variable {state : StateId}

-- What a ProcessIntent is to do

namespace Event

def asksFor : Event → Option StateId
  | .executed _ action => action.nextState
  | .entered _ _ action => action.nextState
  | _ => none

def code : Event → Option ErrorCode
  | .executed code _ => some code
  | .entered _ code _ => some code
  | _ => none

def notification : Event → Option (Intent × ErrorCode)
  | .notified intent code => some (intent, code)
  | _ => none

def change : Event → Option StateId
  | .stateChanged state => some state
  | _ => none

end Event

def decidedState (start : StateId) (events : List Event) : StateId :=
  ((events.filterMap Event.asksFor).getLast?).getD start

def firstError (events : List Event) : ErrorCode :=
  ((events.filterMap Event.code).find? fun code => code ≠ .success).getD .success

structure Report.Decided (r : Report) : Prop where
  state : r.after.curState = decidedState r.before.curState r.after.events
  /-- The sender is told the first error; an intent that is tried again later, or
  whose error says so, is not answered. -/
  error : r.after.events.filterMap Event.notification =
    if .executed .success .actionPending ∈ r.after.events ∨ firstError r.after.events = .errorNoNotify
    then [] else [(r.job.intent, firstError r.after.events)]
  callback : r.after.curState ≠ r.before.curState → r.after.callback →
    (r.after.events.filterMap Event.change).getLast? = some r.after.curState

/-- The intent does not lead to an `Enter` that fails and asks for another state. -/
def KeepsDecision (executor : PlayExecutor) (m : StateMachine) (job : Job) : Prop :=
  (m.curState = .init → job.intent = .prepare → executor.answer m.calls .prepareFilters = .success) ∧
    (m.curState = .preparing → job.intent = .notifyReady →
      executor.answer m.calls .doOnReady = .success)

-- The states

section States

variable {executor : PlayExecutor} {calls : List Call}

theorem enter_success {intent : Intent}
    (h : (enter executor calls state intent).code = .success) :
    (enter executor calls state intent).action = .actionButt := by
  cases state with
  | preparing => exact if_neg (not_not.mpr h)
  | ready => exact if_pos h
  | _ => rfl

theorem enter_nextState {intent : Intent} :
    (enter executor calls state intent).action.nextState =
      if state = .preparing ∧ executor.answer calls .prepareFilters ≠ .success ∨
        state = .ready ∧ executor.answer calls .doOnReady ≠ .success
      then some .init else none := by
  cases state with
  | preparing =>
    show Action.nextState (if executor.answer calls .prepareFilters ≠ .success then _ else _) = _
    split
    · rename_i h
      rw [if_pos (.inl ⟨rfl, h⟩)]
      rfl
    · rename_i h
      rw [if_neg (by simpa using h)]
      rfl
  | ready =>
    show Action.nextState (if executor.answer calls .doOnReady = .success then _ else _) = _
    split
    · rename_i h
      rw [if_neg (by simpa using h)]
      rfl
    · rename_i h
      rw [if_pos (.inr ⟨rfl, h⟩)]
      rfl
  | _ => rfl

/-- The actions that only one state and intent ask for. -/
def Action.ordinary : Action → Bool
  | .transToPreparing | .transToReady | .actionPending => false
  | _ => true

theorem ordinary_nextState {action : Action} (h : action.ordinary) :
    action.nextState ≠ some .preparing ∧ action.nextState ≠ some .ready := by
  revert h
  cases action <;> decide

theorem perform_ordinary (call : Call) {action : ErrorCode → Action}
    (h : ∀ code, (action code).ordinary) : (executor.perform calls call action).action.ordinary :=
  h _

theorem ordinary_onSuccess {action : Action} (h : action.ordinary) (code : ErrorCode) :
    (if code = .success then action else .actionButt).ordinary := by
  split
  · exact h
  · rfl

variable {state : StateId} {intent : Intent} {param : Param}

theorem setSource_ordinary : (setSource executor calls state param).action.ordinary := by
  unfold setSource
  split
  · exact perform_ordinary _ (ordinary_onSuccess rfl)
  · exact perform_ordinary _ (ordinary_onSuccess rfl)
  · rfl
  · rfl
  · rfl

theorem seek_ordinary : (seek executor calls state param).action.ordinary := by
  unfold seek
  split <;> rfl

theorem onComplete_ordinary : (onComplete executor calls state).action.ordinary := by
  cases state with
  | playing =>
    show (if _ then _ else _ : Returned).action.ordinary
    split
    · rfl
    · rfl
  | _ => rfl

/-- Three pairs of a state and an intent lead to a transition of their own. -/
theorem execute_cases (executor : PlayExecutor) (calls : List Call) (state : StateId)
    (intent : Intent) (param : Param) :
    (state = .init ∧ intent = .prepare ∧
        execute executor calls state intent param = ⟨calls, .success, .transToPreparing⟩) ∨
      (state = .preparing ∧ intent = .notifyReady ∧
        execute executor calls state intent param = ⟨calls, .success, .transToReady⟩) ∨
      (state = .preparing ∧ intent = .play ∧
        execute executor calls state intent param = ⟨calls, .success, .actionPending⟩) ∨
      (execute executor calls state intent param).action.ordinary ∧
        (intent = .notifyReady → (execute executor calls state intent param).action = .actionButt) := by
  cases intent with
  | setSource => exact .inr (.inr (.inr ⟨setSource_ordinary, nofun⟩))
  | seek => exact .inr (.inr (.inr ⟨seek_ordinary, nofun⟩))
  | notifyComplete => exact .inr (.inr (.inr ⟨onComplete_ordinary, nofun⟩))
  | prepare =>
    cases state with
    | init => exact .inl ⟨rfl, rfl, rfl⟩
    | _ => exact .inr (.inr (.inr ⟨rfl, nofun⟩))
  | notifyReady =>
    cases state with
    | preparing => exact .inr (.inl ⟨rfl, rfl, rfl⟩)
    | _ => exact .inr (.inr (.inr ⟨rfl, fun _ => rfl⟩))
  | play =>
    cases state with
    | preparing => exact .inr (.inr (.inl ⟨rfl, rfl, rfl⟩))
    | eos => exact .inr (.inr (.inr ⟨perform_ordinary _ (ordinary_onSuccess rfl), nofun⟩))
    | _ => exact .inr (.inr (.inr ⟨rfl, nofun⟩))
  | stop | pause | resume =>
    refine .inr (.inr (.inr ⟨?_, nofun⟩))
    cases state <;> rfl
  | _ => exact .inr (.inr (.inr ⟨rfl, nofun⟩))

end States

-- Transitions

namespace StateMachine

variable {executor : PlayExecutor}

/-- The machine after a transition, which is never followed by another. -/
def transitioned (executor : PlayExecutor) (m : StateMachine) (state : StateId) : StateMachine :=
  let r := enter executor m.calls state m.lastIntent
  ({ m with curState := state }.returned r (.entered state)).onStateChanged

theorem transitionTo_eq (fuel : Nat) (m : StateMachine) (state : StateId) :
    transitionTo executor (fuel + 1) m state =
      some (if state ≠ m.curState then
          (m.transitioned executor state, (enter executor m.calls state m.lastIntent).code)
        else (m, .success)) := by
  unfold transitionTo
  split
  · simp only
    split
    · rename_i hcode
      -- there is nothing left to do after an `Enter` that succeeds
      rw [enter_success hcode, hcode]
      rfl
    · rfl
  · rfl

def target (m : StateMachine) (action : Action) : Option StateId :=
  action.nextState.filter fun state => state ≠ m.curState

theorem procAction_eq (fuel : Nat) (m : StateMachine) (action : Action) :
    procAction (transitionTo executor (fuel + 1)) m action =
      some (match m.target action with
        | some state => (m.transitioned executor state, (enter executor m.calls state m.lastIntent).code)
        | none => (m, .success)) := by
  unfold procAction target
  cases action.nextState with
  | none => rfl
  | some state =>
    simp only [transitionTo_eq, Option.filter_some, decide_eq_true_eq]
    split
    · rfl
    · rfl

def answer (intent : Intent) (action : Action) (result : ErrorCode) : List Event :=
  if action = .actionPending ∨ result = .errorNoNotify then []
  else [.notified (if intent = .notifyReady ∧ action = .transToPlaying then .play else intent) result]

theorem onIntentExecuted_eq (m : StateMachine) (intent : Intent) (action : Action)
    (result : ErrorCode) :
    m.onIntentExecuted intent action result =
      { m with events := m.events ++ answer intent action result } := by
  unfold onIntentExecuted answer
  by_cases hpending : action = .actionPending
  · rw [if_pos hpending, if_pos (.inl hpending), List.append_nil]
  · rw [if_neg hpending]
    by_cases hresult : result = .errorNoNotify
    · rw [if_pos hresult, if_pos (.inr hresult), List.append_nil]
    · rw [if_neg hresult, if_neg (not_or_intro hpending hresult)]
      split
      · rfl
      · rfl

def executed (m : StateMachine) (intent : Intent) (r : Returned) : StateMachine :=
  { m with lastIntent := intent, events := [] }.returned r .executed

def proceed (executor : PlayExecutor) (m : StateMachine) (r : Returned) : StateMachine × ErrorCode :=
  match m.target r.action with
  | some state =>
    (m.transitioned executor state,
      if r.code = .success then (enter executor m.calls state m.lastIntent).code else r.code)
  | none => (m, r.code)

theorem processIntent_eq (fuel : Nat) (m : StateMachine) (intent : Intent) (param : Param) :
    processIntent executor (fuel + 1) m intent param =
      let r := execute executor m.calls m.curState intent param
      let ret := proceed executor (m.executed intent r) r
      some (ret.1.onIntentExecuted intent r.action ret.2,
        if ret.2 = .success then r.action else .actionButt) := by
  unfold processIntent
  simp only [procAction_eq]
  generalize execute executor m.calls m.curState intent param = r
  show Option.map _ (if r.action ≠ .actionButt then _ else _) = _
  have hproceed : (if r.action ≠ .actionButt then
      (some (match (m.executed intent r).target r.action with
        | some state => ((m.executed intent r).transitioned executor state,
            (enter executor (m.executed intent r).calls state (m.executed intent r).lastIntent).code)
        | none => (m.executed intent r, .success))).map fun ret =>
          (ret.1, if r.code = .success then ret.2 else r.code)
      else some (m.executed intent r, r.code)) = some (proceed executor (m.executed intent r) r) := by
    unfold proceed
    by_cases hbutt : r.action = .actionButt
    · rw [if_neg (not_not.mpr hbutt), hbutt]
      rfl
    · rw [if_pos hbutt]
      cases (m.executed intent r).target r.action with
      | none =>
        show some (m.executed intent r, if r.code = .success then ErrorCode.success else r.code) = _
        split
        · rename_i hcode
          rw [hcode]
        · rfl
      | some state => rfl
  exact congrArg (Option.map _) hproceed

-- What is written down

variable {intent : Intent} {action : Action} {result : ErrorCode}

@[simp] theorem answer_asksFor : (answer intent action result).filterMap Event.asksFor = [] := by
  unfold answer
  split <;> rfl

@[simp] theorem answer_code : (answer intent action result).filterMap Event.code = [] := by
  unfold answer
  split <;> rfl

@[simp] theorem answer_change : (answer intent action result).filterMap Event.change = [] := by
  unfold answer
  split <;> rfl

@[simp] theorem executed_notMem_answer (code : ErrorCode) (action' : Action) :
    Event.executed code action' ∉ answer intent action result := by
  unfold answer
  split <;> simp

theorem answer_notification (h : intent = .notifyReady → action ≠ .transToPlaying) :
    (answer intent action result).filterMap Event.notification =
      if action = .actionPending ∨ result = .errorNoNotify then [] else [(intent, result)] := by
  unfold answer
  split
  · rfl
  · rw [if_neg (by simpa using h)]
    rfl

def changes (m : StateMachine) (state : StateId) : List Event :=
  if m.callback then [.stateChanged state] else []

theorem transitioned_events (m : StateMachine) (state : StateId) :
    (m.transitioned executor state).events =
      m.events ++ .entered state (enter executor m.calls state m.lastIntent).code
        (enter executor m.calls state m.lastIntent).action :: m.changes state := by
  unfold transitioned onStateChanged changes returned
  simp only
  split
  · exact List.append_assoc _ _ _
  · rfl

@[simp] theorem transitioned_curState (m : StateMachine) (state : StateId) :
    (m.transitioned executor state).curState = state := by
  unfold transitioned onStateChanged returned
  simp only
  split <;> rfl

@[simp] theorem transitioned_callback (m : StateMachine) (state : StateId) :
    (m.transitioned executor state).callback = m.callback := by
  unfold transitioned onStateChanged returned
  simp only
  split <;> rfl

theorem target_eq_none {m : StateMachine} (h : m.target action = none) :
    action.nextState.getD m.curState = m.curState := by
  unfold target at h
  cases hnext : action.nextState with
  | none => rfl
  | some state =>
    rw [hnext, Option.filter_eq_none_iff] at h
    simpa using h

theorem target_eq_some {m : StateMachine} (h : m.target action = some state) :
    action.nextState = some state ∧ state ≠ m.curState := by
  unfold target at h
  rw [Option.filter_eq_some_iff] at h
  simpa using h

end StateMachine

-- One intent

section Decided

open StateMachine

variable {executor : PlayExecutor} {m : StateMachine} {job : Job}

theorem execute_pending {calls : List Call} {intent : Intent} {param : Param}
    (h : (execute executor calls state intent param).action = .actionPending) :
    (execute executor calls state intent param).code = .success := by
  obtain ⟨-, -, hr⟩ | ⟨-, -, hr⟩ | ⟨-, -, hr⟩ | ⟨hr, -⟩ :=
    execute_cases executor calls state intent param
  · rw [hr]
  · rw [hr]
  · rw [hr]
  · rw [h] at hr
    cases hr

theorem execute_notifyReady {calls : List Call} {intent : Intent} {param : Param}
    (h : intent = .notifyReady) : (execute executor calls state intent param).action ≠ .transToPlaying := by
  obtain ⟨-, rfl, -⟩ | ⟨-, -, hr⟩ | ⟨-, rfl, -⟩ | ⟨-, hr⟩ :=
    execute_cases executor calls state intent param
  · cases h
  · rw [hr]
    exact nofun
  · cases h
  · rw [hr h]
    exact nofun

section Events

variable {start state : StateId} {code code' : ErrorCode} {action action' : Action}
  {rest : List Event}

theorem decidedState_stays (h : rest.filterMap Event.asksFor = []) :
    decidedState start (.executed code action :: rest) = action.nextState.getD start := by
  unfold decidedState
  cases hnext : action.nextState with
  | none =>
    rw [List.filterMap_cons_none (show Event.asksFor (.executed code action) = none from hnext), h]
    rfl
  | some next =>
    rw [List.filterMap_cons_some (show Event.asksFor (.executed code action) = some next from hnext), h]
    rfl

theorem decidedState_moves (hnext : action.nextState = some state)
    (h : rest.filterMap Event.asksFor = []) :
    decidedState start (.executed code action :: .entered state code' action' :: rest) =
      action'.nextState.getD state := by
  unfold decidedState
  rw [List.filterMap_cons_some (show Event.asksFor (.executed code action) = some state from hnext)]
  cases hnext' : action'.nextState with
  | none =>
    rw [List.filterMap_cons_none (show Event.asksFor (.entered state code' action') = none from hnext'), h]
    rfl
  | some next =>
    rw [List.filterMap_cons_some
      (show Event.asksFor (.entered state code' action') = some next from hnext'), h]
    rfl

theorem firstError_stays (h : rest.filterMap Event.code = []) :
    firstError (.executed code action :: rest) = code := by
  show (List.find? _ (code :: rest.filterMap Event.code)).getD _ = code
  rw [h]
  by_cases hcode : code = .success
  · simp [hcode]
  · simp [hcode]

theorem firstError_moves (h : rest.filterMap Event.code = []) :
    firstError (.executed code action :: .entered state code' action' :: rest) =
      if code = .success then code' else code := by
  show (List.find? _ (code :: code' :: rest.filterMap Event.code)).getD _ = _
  rw [h]
  by_cases hcode : code = .success
  · by_cases hcode' : code' = .success
    · simp [hcode, hcode']
    · simp [hcode, hcode']
  · simp [hcode]

end Events

/-- No other state is asked for, or it is the current one. -/
theorem decided_stays {r : Returned} (hr : r = execute executor m.calls m.curState job.intent job.param)
    (htarget : m.target r.action = none) :
    Report.Decided ⟨job, m, (m.executed job.intent r).onIntentExecuted job.intent r.action r.code⟩ := by
  have hpending : r.action = .actionPending → r.code = .success := by
    rw [hr]
    exact execute_pending
  have hsender : job.intent = .notifyReady → r.action ≠ .transToPlaying := by
    rw [hr]
    exact execute_notifyReady
  have hevents : ((m.executed job.intent r).onIntentExecuted job.intent r.action r.code).events =
      .executed r.code r.action :: answer job.intent r.action r.code := by
    rw [onIntentExecuted_eq]
    rfl
  have hstate : ((m.executed job.intent r).onIntentExecuted job.intent r.action r.code).curState =
      m.curState := by
    rw [onIntentExecuted_eq]
    rfl
  refine ⟨?_, ?_, fun hchanged => absurd hstate hchanged⟩
  · simp only
    rw [hstate, hevents, decidedState_stays answer_asksFor, target_eq_none htarget]
  · simp only
    rw [hevents, firstError_stays answer_code]
    have hmem : Event.executed .success .actionPending ∈
        Event.executed r.code r.action :: answer job.intent r.action r.code ↔
        r.action = .actionPending := by
      simp only [List.mem_cons, executed_notMem_answer, or_false, Event.executed.injEq]
      constructor
      · exact fun h => h.2.symm
      · exact fun h => ⟨(hpending h).symm, h.symm⟩
    simp only [hmem]
    exact answer_notification hsender

theorem decided_moves {r : Returned}
    (hr : r = execute executor m.calls m.curState job.intent job.param)
    (htarget : m.target r.action = some state) :
    Report.Decided ⟨job, m, ((m.executed job.intent r).transitioned executor state).onIntentExecuted
        job.intent r.action
        (if r.code = .success then (enter executor r.calls state job.intent).code else r.code)⟩ ↔
      (enter executor r.calls state job.intent).action.nextState.getD state = state := by
  have hsender : job.intent = .notifyReady → r.action ≠ .transToPlaying := by
    rw [hr]
    exact execute_notifyReady
  obtain ⟨hnext, hne⟩ := target_eq_some htarget
  generalize henter : enter executor r.calls state job.intent = e
  generalize hresult : (if r.code = .success then e.code else r.code) = result
  have hevents : (((m.executed job.intent r).transitioned executor state).onIntentExecuted
      job.intent r.action result).events =
      .executed r.code r.action :: .entered state e.code e.action ::
        (m.changes state ++ answer job.intent r.action result) := by
    rw [onIntentExecuted_eq, ← henter]
    simp only [transitioned_events]
    rfl
  have hstate : (((m.executed job.intent r).transitioned executor state).onIntentExecuted
      job.intent r.action result).curState = state := by
    rw [onIntentExecuted_eq]
    exact transitioned_curState _ _
  have hcallback : (((m.executed job.intent r).transitioned executor state).onIntentExecuted
      job.intent r.action result).callback = m.callback := by
    rw [onIntentExecuted_eq]
    exact transitioned_callback _ _
  have hasks : (m.changes state ++ answer job.intent r.action result).filterMap Event.asksFor = [] := by
    rw [List.filterMap_append, answer_asksFor, List.append_nil]
    unfold changes
    split <;> rfl
  have hcodes : (m.changes state ++ answer job.intent r.action result).filterMap Event.code = [] := by
    rw [List.filterMap_append, answer_code, List.append_nil]
    unfold changes
    split <;> rfl
  constructor
  · intro hdecided
    have hfinal := hdecided.state
    simp only at hfinal
    rw [hstate, hevents, decidedState_moves hnext hasks] at hfinal
    exact hfinal.symm
  · intro hsettled
    refine ⟨?_, ?_, ?_⟩
    · simp only
      rw [hstate, hevents, decidedState_moves hnext hasks, hsettled]
    · simp only
      rw [hevents, firstError_moves hcodes, hresult]
      -- a transition is never pending
      have hpending : r.action ≠ .actionPending := by
        intro h
        rw [h] at hnext
        cases hnext
      have hmem : Event.executed .success .actionPending ∉
          Event.executed r.code r.action :: Event.entered state e.code e.action ::
            (m.changes state ++ answer job.intent r.action result) := by
        unfold changes
        split <;> simp [hpending.symm]
      simp only [hmem, false_or]
      have hnotified : (answer job.intent r.action result).filterMap Event.notification =
          if r.action = .actionPending ∨ result = .errorNoNotify then [] else [(job.intent, result)] :=
        answer_notification hsender
      have hsilent : (m.changes state).filterMap Event.notification = [] := by
        unfold changes
        split <;> rfl
      show (m.changes state ++ answer job.intent r.action result).filterMap Event.notification = _
      rw [List.filterMap_append, hsilent, hnotified]
      simp only [hpending, false_or, List.nil_append]
    · intro _ hcalled
      simp only at hcalled ⊢
      rw [hcallback] at hcalled
      rw [hevents, hstate]
      show ((m.changes state ++ answer job.intent r.action result).filterMap Event.change).getLast? = _
      rw [List.filterMap_append, answer_change, List.append_nil, changes, if_pos hcalled]
      rfl

/-- The `Enter` that asks for another state is the one that the condition is about. -/
theorem keepsDecision_iff {r : Returned}
    (hr : r = execute executor m.calls m.curState job.intent job.param) :
    KeepsDecision executor m job ↔ ∀ state ∈ m.target r.action,
      (enter executor r.calls state job.intent).action.nextState.getD state = state := by
  have hsettled : ∀ state, (enter executor r.calls state job.intent).action.nextState.getD state = state ↔
      (state = .preparing → executor.answer r.calls .prepareFilters = .success) ∧
        (state = .ready → executor.answer r.calls .doOnReady = .success) := by
    intro state
    rw [enter_nextState]
    split
    · rename_i hfails
      obtain ⟨rfl, hfails⟩ | ⟨rfl, hfails⟩ := hfails
      · simp [hfails]
      · simp [hfails]
    · rename_i hfine
      rw [not_or, not_and, not_and, not_not, not_not] at hfine
      exact iff_of_true rfl hfine
  simp only [hsettled]
  unfold KeepsDecision
  obtain ⟨hstate, hintent, h⟩ | ⟨hstate, hintent, h⟩ | ⟨hstate, hintent, h⟩ | ⟨h, hready⟩ :=
    execute_cases executor m.calls m.curState job.intent job.param
  · rw [← hr] at h
    have htarget : m.target r.action = some .preparing := by
      rw [h, target, hstate]
      rfl
    rw [htarget, h]
    simp [hstate, hintent]
  · rw [← hr] at h
    have htarget : m.target r.action = some .ready := by
      rw [h, target, hstate]
      rfl
    rw [htarget, h]
    simp [hstate, hintent]
  · rw [← hr] at h
    have htarget : m.target r.action = none := by
      rw [h]
      rfl
    rw [htarget]
    simp [hstate, hintent]
  · -- neither of the two transitions is asked for
    refine iff_of_true ⟨?_, ?_⟩ ?_
    · intro hstate hintent
      rw [hstate, hintent] at h
      cases h
    · intro hstate hintent
      rw [hstate, hintent] at h
      cases h
    · intro state htarget
      obtain ⟨hnext, -⟩ := target_eq_some htarget
      rw [← hr] at h
      obtain ⟨hpreparing, hready⟩ := ordinary_nextState h
      refine ⟨?_, ?_⟩
      · rintro rfl
        exact absurd hnext hpreparing
      · rintro rfl
        exact absurd hnext hready

/-- **One intent**: the chain of transitions ends, and the states have decided
exactly if the condition holds. -/
theorem decided_iff (executor : PlayExecutor) (m : StateMachine) (job : Job) (fuel : Nat) :
    ∃ after action, m.processIntent executor (fuel + 1) job.intent job.param = some (after, action) ∧
      (Report.Decided ⟨job, m, after⟩ ↔ KeepsDecision executor m job) := by
  refine ⟨_, _, processIntent_eq fuel m job.intent job.param, ?_⟩
  generalize hr : execute executor m.calls m.curState job.intent job.param = r
  rw [keepsDecision_iff hr.symm]
  have htarget : (m.executed job.intent r).target r.action = m.target r.action := rfl
  unfold proceed
  rw [htarget]
  cases h : m.target r.action with
  | none => exact iff_of_true (decided_stays hr.symm h) (by simp)
  | some state =>
    refine (decided_moves hr.symm h).trans ?_
    simp

end Decided

-- Every run of the task

/-- Each `ProcessIntent` so far was decided by the states if the condition held. -/
def Task.Accounts (executor : PlayExecutor) (t : Task) : Prop :=
  ∀ r ∈ t.reports, r.Decided ↔ KeepsDecision executor r.before r.job

namespace Task

variable {executor : PlayExecutor} {t : Task}

theorem run_accounts (h : t.Accounts executor) (fuel : Nat) (job : Job) :
    ∃ t' action, t.run executor (fuel + 1) job = some (t', action) ∧ t'.Accounts executor := by
  obtain ⟨after, action, hprocess, hiff⟩ := decided_iff executor t.machine job fuel
  refine ⟨⟨after, t.reports ++ [⟨job, t.machine, after⟩]⟩, action, ?_, ?_⟩
  · unfold run
    rw [hprocess]
    rfl
  · intro r hr
    rcases List.mem_append.mp hr with hr | hr
    · exact h r hr
    · obtain rfl := List.mem_singleton.mp hr
      exact hiff

theorem doTask_accounts (h : t.Accounts executor) (fuel : Nat) (job : Job) :
    ∃ t', t.doTask executor (fuel + 1) job = some t' ∧ t'.Accounts executor := by
  obtain ⟨t₁, action, hrun, h₁⟩ := run_accounts h fuel job
  unfold doTask
  rw [hrun]
  cases hpending : t₁.machine.pendingJobs with
  | nil =>
    cases action with
    | actionPending => exact ⟨t₁.pend job, rfl, h₁⟩
    | actionButt => exact ⟨t₁, rfl, h₁⟩
    | _ => exact ⟨t₁, by simp only [Option.bind_some, hpending], h₁⟩
  | cons job' rest =>
    have hrest : Accounts executor { t₁ with machine := { t₁.machine with pendingJobs := rest } } := h₁
    obtain ⟨t₂, action', hrun', h₂⟩ := run_accounts hrest fuel job'
    have hretry : Accounts executor (if action' = .actionPending then t₂.pend job' else t₂) := by
      split
      · exact h₂
      · exact h₂
    cases action with
    | actionPending => exact ⟨t₁.pend job, rfl, h₁⟩
    | actionButt => exact ⟨t₁, rfl, h₁⟩
    | _ =>
      refine ⟨_, ?_, hretry⟩
      simp only [Option.bind_some, hpending, hrun', Option.map_some]

theorem doTasks_accounts (fuel : Nat) (jobs : List Job) (h : t.Accounts executor) :
    ∃ t', Runs.run (doTask executor (fuel + 1)) t jobs = some t' ∧ t'.Accounts executor := by
  induction jobs generalizing t with
  | nil => exact ⟨t, rfl, h⟩
  | cons job jobs ih =>
    obtain ⟨t₁, hstep, h₁⟩ := doTask_accounts h fuel job
    obtain ⟨t', hrun, h'⟩ := ih h₁
    exact ⟨t', Runs.run_cons_some.mpr ⟨t₁, hstep, hrun⟩, h'⟩

end Task

/--
**The states decide**, in every run of the task from `IDLE`, for every executor
and every list of intents: each run comes to its end, and each `ProcessIntent`
of it ends in the state that was asked for last, tells the first error and makes
the last callback for the final state, exactly if the condition holds for it.
-/
theorem decides_run (executor : PlayExecutor) (callback : Bool) (fuel : Nat) (jobs : List Job) :
    ∃ t, Runs.run (Task.doTask executor (fuel + 1)) ⟨{ callback }, []⟩ jobs = some t ∧
      ∀ r ∈ t.reports, r.Decided ↔ KeepsDecision executor r.before r.job := by
  have hstart : Task.Accounts executor ⟨{ callback }, []⟩ :=
    fun r hr => absurd hr List.not_mem_nil
  exact Task.doTasks_accounts fuel jobs hstart

def unprepared : PlayExecutor where
  isSingleLoop _ := false
  answer _ call := if call = .prepareFilters then .errorUnknown else .success

theorem failed_prepare_stays : ∃ t,
    Runs.run (Task.doTask unprepared 8) ⟨{}, []⟩
      [⟨.setSource, .mediaSource (some 0)⟩, ⟨.prepare, .other⟩] = some t ∧
      t.machine.curState = .preparing ∧ ∃ r ∈ t.reports, ¬ r.Decided := by
  have hstates : (Runs.run (Task.doTask unprepared 8) ⟨{}, []⟩
      [⟨.setSource, .mediaSource (some 0)⟩, ⟨.prepare, .other⟩]).map (fun t =>
        (t.machine.curState,
          t.reports.map fun r => (r.after.curState, decidedState r.before.curState r.after.events))) =
      some (.preparing, [(.init, .init), (.preparing, .init)]) := by
    decide
  obtain ⟨t, hrun, hvalue⟩ := Option.map_eq_some_iff.mp hstates
  obtain ⟨hcurrent, hreports⟩ := Prod.mk.inj hvalue
  have hmem : (StateId.preparing, StateId.init) ∈
      t.reports.map fun r => (r.after.curState, decidedState r.before.curState r.after.events) := by
    rw [hreports]
    decide
  obtain ⟨r, hr, hends⟩ := List.mem_map.mp hmem
  obtain ⟨hafter, hdecided⟩ := Prod.mk.inj hends
  refine ⟨t, hrun, hcurrent, r, hr, fun h => ?_⟩
  have hstate := h.state
  rw [hafter, hdecided] at hstate
  cases hstate

end MediaFoundation.Player
