import MediaFoundation.Player.PostedIntents

/-!
# No posted intent is lost

Every intent is executed in its turn, tried again after each change of state for
as long as it is pending, and answered once.

A transition tries only one pending intent again, and one whose `Enter` fails
tries none. `Clear` is the condition that neither matters, because at most one
intent is pending when the machine leaves `PREPARING`.
-/

namespace MediaFoundation.Player

-- What the sender of an intent may expect

namespace Execution

def Changes (e : Execution) : Prop := e.after.curState ≠ e.before.curState

instance (e : Execution) : Decidable e.Changes := inferInstanceAs (Decidable (_ ≠ _))

def calls (e : Execution) : List Call := e.after.calls.drop e.before.calls.length

def notifications (e : Execution) : List (Intent × ErrorCode) :=
  e.calls.filterMap HiPlayer.notify ++ e.after.events.filterMap Event.notification

def told (e : Execution) : Intent :=
  if e.posted.job.intent = .notifyReady ∧ e.Changes ∧ e.after.curState = .playing then .play
  else e.posted.job.intent

/-- The first error. A seek of the application counts as done when it is begun. -/
def result (e : Execution) : ErrorCode :=
  if firstError e.after.events = .errorNoNotify then .success else firstError e.after.events

end Execution

def firsts (executions : List Execution) : List Posted :=
  ((executions.filter fun e => !e.retry).map Execution.posted).reverse

/-- The intent has been executed and not been answered. -/
def Waits (executions : List Execution) (p : Posted) : Prop :=
  (∃ e ∈ executions, e.posted = p) ∧ ∀ e ∈ executions, e.posted = p → e.action = .actionPending

instance (executions : List Execution) (p : Posted) : Decidable (Waits executions p) :=
  inferInstanceAs (Decidable (_ ∧ _))

def unanswered (posted : List Posted) (executions : List Execution) : List Posted :=
  posted.filter fun p => Waits executions p

/-- The intents that are to be tried again after the last change of state. -/
def due (posted : List Posted) : List Execution → List Posted
  | [] => []
  | e :: past =>
    if e.Changes then unanswered posted (e :: past) else (due posted past).erase e.posted

/-- While intents are to be tried again, the next execution is that of the first one. -/
def InTurn (posted : List Posted) : List Execution → Prop
  | [] => True
  | e :: past => (∀ p ∈ (due posted past).head?, e.posted = p) ∧ InTurn posted past

/-- What the sender of an intent has been told. -/
def replies (executions : List Execution) (p : Posted) : List (Intent × ErrorCode) :=
  (executions.filter fun e => e.posted = p).reverse.flatMap Execution.notifications

structure NoneLost (executor : PlayExecutor) (fuel : Nat) (s : Fsm) : Prop where
  inOrder : firsts s.executions ++ s.jobs = s.posted
  kept : s.pendingJobs = unanswered s.posted s.executions
  retried : InTurn s.posted s.executions
  /-- What is still to be tried again is tried by the `DoTask` that is not at its end. -/
  retrying : due s.posted s.executions ≠ [] → s.owed
  once : s.executions.Pairwise fun later earlier =>
    later.posted = earlier.posted → earlier.action = .actionPending
  answered : ∀ p ∈ s.posted, replies s.executions p =
    match s.executions.find? fun e => e.posted = p ∧ e.action ≠ .actionPending with
    | some e => [(e.told, e.result)]
    | none => []
  waiting : s.jobs = [] → s.owed = false → ∀ p ∈ s.pendingJobs, ∃ after,
    s.machine.processIntent executor fuel p.job.intent p.job.param = some (after, .actionPending)

-- The condition

/-- The states that `PREPARING` can be left for. -/
def leadsTo : Intent → Option StateId
  | .notifyReady => some .ready
  | .stop => some .stopped
  | .reset => some .idle
  | .notifyError => some .init
  | _ => none

def Enters (executor : PlayExecutor) (calls : List Call) : StateId → Prop
  | .ready => executor.answer calls .doOnReady = .success
  | .stopped => executor.answer calls .doStop = .success
  | .idle => executor.answer calls .doReset = .success
  | _ => True

/-- When `PREPARING` is left at most one intent is pending, and the state that is
entered does not fail if there is one. -/
def Clear (executor : PlayExecutor) (s : Fsm) : Label → Prop
  | .take => s.machine.curState = .preparing → ∀ p ∈ s.jobs.head?, ∀ state ∈ leadsTo p.job.intent,
      s.pendingJobs.length ≤ 1 ∧ (s.pendingJobs ≠ [] → Enters executor s.machine.calls state)
  | _ => True

instance (executor : PlayExecutor) (calls : List Call) :
    ∀ state, Decidable (Enters executor calls state)
  | .ready | .stopped | .idle => inferInstanceAs (Decidable (_ = _))
  | .init | .preparing | .pause | .playing | .eos => .isTrue trivial

instance (executor : PlayExecutor) (s : Fsm) : ∀ label, Decidable (Clear executor s label)
  | .take => inferInstanceAs (Decidable (s.machine.curState = .preparing → ∀ p ∈ s.jobs.head?,
      ∀ state ∈ leadsTo p.job.intent,
        s.pendingJobs.length ≤ 1 ∧ (s.pendingJobs ≠ [] → Enters executor s.machine.calls state)))
  | .post _ | .retry => .isTrue trivial

-- One execution

section Execution

open StateMachine

variable {executor : PlayExecutor} {fuel : Nat} {m after : StateMachine} {intent : Intent}
  {param : Param} {action : Action}

theorem processIntent_cases
    (h : m.processIntent executor (fuel + 1) intent param = some (after, action)) {r : Returned}
    (hr : execute executor m.calls m.curState intent param = r) :
    (m.target r.action = none ∧ after.curState = m.curState ∧ after.calls = r.calls ∧
        after.events = .executed r.code r.action :: answer intent r.action r.code ∧
        action = if r.code = .success then r.action else .actionButt) ∨
      ∃ state e code, m.target r.action = some state ∧ enter executor r.calls state intent = e ∧
        code = (if r.code = .success then e.code else r.code) ∧
        after.curState = state ∧ after.calls = e.calls ∧
        after.events = .executed r.code r.action :: .entered state e.code e.action ::
          (m.changes state ++ answer intent r.action code) ∧
        action = if code = .success then r.action else .actionButt := by
  rw [processIntent_eq, hr] at h
  simp only [Option.some.injEq, Prod.mk.injEq] at h
  obtain ⟨rfl, rfl⟩ := h
  have htarget : (m.executed intent r).target r.action = m.target r.action := rfl
  unfold proceed
  rw [htarget]
  cases m.target r.action with
  | none =>
    refine .inl ⟨rfl, ?_⟩
    rw [onIntentExecuted_eq]
    exact ⟨rfl, rfl, rfl, rfl⟩
  | some state =>
    refine .inr ⟨state, _, _, rfl, rfl, rfl, ?_⟩
    rw [onIntentExecuted_eq]
    dsimp only
    rw [transitioned_eq]
    exact ⟨rfl, rfl, List.append_assoc _ _ _, rfl⟩

section Preparing

variable {calls : List Call}

theorem pending_iff {state : StateId} :
    (execute executor calls state intent param).action = .actionPending ↔
      state = .preparing ∧ intent = .play := by
  constructor
  · intro h
    obtain ⟨-, -, hr⟩ | ⟨-, -, hr⟩ | ⟨hstate, hintent, -⟩ | ⟨hr, -⟩ :=
      execute_cases executor calls state intent param
    · rw [hr] at h
      cases h
    · rw [hr] at h
      cases h
    · exact ⟨hstate, hintent⟩
    · rw [h] at hr
      cases hr
  · rintro ⟨rfl, rfl⟩
    rfl

theorem execute_preparing :
    (execute executor calls .preparing intent param).action.nextState = leadsTo intent ∧
      ∀ state ∈ leadsTo intent, (execute executor calls .preparing intent param).code = .success ∧
        state ≠ .preparing ∧
        ((enter executor (execute executor calls .preparing intent param).calls state intent).code =
          .success ↔ Enters executor calls state) := by
  cases intent with
  | notifyReady | stop | reset =>
    refine ⟨rfl, ?_⟩
    rintro state ⟨⟩
    exact ⟨rfl, nofun, Iff.rfl⟩
  | notifyError =>
    refine ⟨rfl, ?_⟩
    rintro state ⟨⟩
    exact ⟨rfl, nofun, iff_of_true rfl trivial⟩
  | setSource | seek =>
    refine ⟨?_, nofun⟩
    cases param <;> rfl
  | _ => exact ⟨rfl, nofun⟩

theorem processIntent_pending
    (h : m.processIntent executor (fuel + 1) intent param = some (after, action)) :
    action = .actionPending ↔ m.curState = .preparing ∧ intent = .play := by
  have hiff : (execute executor m.calls m.curState intent param).action = .actionPending ↔
      m.curState = .preparing ∧ intent = .play := pending_iff
  rw [← hiff]
  generalize hr : execute executor m.calls m.curState intent param = r
  obtain ⟨-, -, -, -, rfl⟩ | ⟨state, e, code, htarget, -, -, -, -, -, rfl⟩ :=
    processIntent_cases h hr
  · constructor
    · intro hpending
      by_cases hcode : r.code = .success
      · rwa [if_pos hcode] at hpending
      · rw [if_neg hcode] at hpending
        cases hpending
    · intro hpending
      have hcode : r.code = .success := by
        rw [← hr]
        exact execute_pending (by rw [hr]; exact hpending)
      rw [if_pos hcode, hpending]
  · -- a transition is not pending
    have hnext := (target_eq_some htarget).1
    have hpending : r.action ≠ .actionPending := by
      intro hpending
      rw [hpending] at hnext
      cases hnext
    refine iff_of_false ?_ hpending
    split
    · exact hpending
    · exact nofun

theorem processIntent_preparing
    (h : m.processIntent executor (fuel + 1) intent param = some (after, action))
    (hstate : m.curState = .preparing) :
    (leadsTo intent = none → after.curState = .preparing ∧ action.nextState = none) ∧
      ∀ state ∈ leadsTo intent, after.curState = state ∧ state ≠ .preparing ∧
        (Enters executor m.calls state → action.nextState = some state) := by
  obtain ⟨hnext, hleads⟩ : (execute executor m.calls .preparing intent param).action.nextState =
      leadsTo intent ∧ _ := execute_preparing
  rw [← hstate] at hnext
  generalize hr : execute executor m.calls m.curState intent param = r at hnext
  constructor
  · intro hnone
    rw [hnone] at hnext
    obtain ⟨-, hcur, -, -, rfl⟩ | ⟨state, -, -, htarget, -⟩ := processIntent_cases h hr
    · refine ⟨hcur.trans hstate, ?_⟩
      split
      · exact hnext
      · rfl
    · have hsome := (target_eq_some htarget).1
      rw [hnext] at hsome
      cases hsome
  · intro state hsome
    obtain ⟨hcode, hne, henters⟩ := hleads state hsome
    rw [hsome] at hnext
    rw [← hstate, hr] at hcode henters
    obtain ⟨htarget, -⟩ | ⟨state', e, code, htarget, he, hresult, hcur, -, -, rfl⟩ :=
      processIntent_cases h hr
    · have hstays := target_eq_none htarget
      rw [hnext, hstate] at hstays
      exact absurd hstays hne
    · obtain rfl : state = state' := by
        have hsome' := (target_eq_some htarget).1
        rw [hnext] at hsome'
        exact Option.some.inj hsome'
      refine ⟨hcur, hne, fun hsucceeds => ?_⟩
      rw [hresult, if_pos hcode, ← he, if_pos (henters.mpr hsucceeds)]
      exact hnext

end Preparing

-- Who tells the sender of an intent.

section Told

variable {player : HiPlayer} {calls : List Call}

/-- The executor tells the sender exactly if its answer is that the machine need not. -/
theorem answer_eq_errorNoNotify (player : HiPlayer) (calls : List Call) (call : Call) :
    [call].filterMap HiPlayer.notify =
      if player.answer calls call = .errorNoNotify then [(.seek, .success)] else [] := by
  have hother : ∀ call, HiPlayer.notify call = none →
      player.answer calls call ≠ .errorNoNotify := by
    intro call hcall
    unfold HiPlayer.answer
    split
    · cases hcall
    · exact player.noNotify calls call
  cases hcall : HiPlayer.notify call with
  | none => rw [List.filterMap_cons_none hcall, if_neg (hother call hcall), List.filterMap_nil]
  | some told =>
    unfold HiPlayer.notify at hcall
    split at hcall
    · rfl
    · cases hcall

/-- What the sender is told while the intent is executed. -/
def Tells (calls : List Call) (intent : Intent) (r : Returned) : Prop :=
  ∃ made, r.calls = calls ++ made ∧
    made.filterMap HiPlayer.notify = if r.code = .errorNoNotify then [(intent, .success)] else []

theorem tells_withoutCall {code : ErrorCode} (h : code ≠ .errorNoNotify) :
    Tells calls intent (withoutCall calls code action) :=
  ⟨[], (List.append_nil _).symm, (if_neg h).symm⟩

theorem tells_invalidOperation : Tells calls intent (invalidOperation calls) :=
  tells_withoutCall nofun

theorem tells_perform {call : Call} {action : ErrorCode → Action}
    (h : HiPlayer.notify call = none) :
    Tells calls intent (player.executor.perform calls call action) := by
  refine ⟨[call], rfl, ?_⟩
  have hanswer := answer_eq_errorNoNotify player calls call
  rw [List.filterMap_cons_none h, List.filterMap_nil] at hanswer ⊢
  refine (if_neg fun hcode => ?_).symm
  rw [if_pos (show player.answer calls call = .errorNoNotify from hcode)] at hanswer
  cases hanswer

theorem tells_execute {state : StateId} :
    Tells calls intent (execute player.executor calls state intent param) := by
  cases intent with
  | setSource =>
    show Tells _ _ (setSource player.executor calls state param)
    unfold setSource
    split
    · exact tells_perform rfl
    · exact tells_perform rfl
    · exact tells_withoutCall nofun
    · exact tells_withoutCall nofun
    · exact tells_invalidOperation
  | seek =>
    show Tells _ _ (seek player.executor calls state param)
    unfold seek
    split
    · exact ⟨_, rfl, answer_eq_errorNoNotify player calls _⟩
    · exact ⟨_, rfl, answer_eq_errorNoNotify player calls _⟩
    · exact ⟨_, rfl, answer_eq_errorNoNotify player calls _⟩
    · exact tells_withoutCall nofun
    · exact tells_withoutCall nofun
    · exact tells_withoutCall nofun
    · exact tells_invalidOperation
  | play =>
    cases state with
    | eos => exact tells_perform rfl
    | _ => exact tells_withoutCall nofun
  | notifyComplete =>
    cases state with
    | playing =>
      show Tells _ _ (if _ then _ else _ : Returned)
      split
      · obtain ⟨made, hcalls, htold⟩ : Tells (calls ++ [.doOnComplete]) .notifyComplete
            (player.executor.perform (calls ++ [.doOnComplete]) (.doSeek 0 .seekPreviousSync false)
              fun _ => .actionButt) := tells_perform rfl
        refine ⟨.doOnComplete :: made, ?_, ?_⟩
        · exact hcalls.trans (List.append_assoc _ _ _)
        · exact htold
      · exact tells_perform rfl
    | _ => exact tells_invalidOperation
  | notifyError => exact ⟨[_], rfl, rfl⟩
  | reset | intentButt => exact tells_withoutCall nofun
  | setAttribute => exact tells_invalidOperation
  | prepare | stop | pause | resume | notifyReady =>
    cases state <;> exact tells_withoutCall nofun

theorem tells_enter {state : StateId} : ∃ made,
    (enter player.executor calls state intent).calls = calls ++ made ∧
      made.filterMap HiPlayer.notify = [] ∧
      (enter player.executor calls state intent).code ≠ .errorNoNotify := by
  cases state with
  | init => exact ⟨[], (List.append_nil _).symm, rfl, nofun⟩
  | playing =>
    refine ⟨_, rfl, ?_, ?_⟩
    · split <;> rfl
    · show player.answer calls (if intent = .resume then .doResume else .doPlay) ≠ _
      split <;> exact player.noNotify _ _
  | _ => exact ⟨_, rfl, rfl, player.noNotify _ _⟩

/-- A `NOTIFY_READY` does not lead to `PLAYING`, so the sender is told its own intent. -/
theorem told_eq {e : Execution}
    (h : e.before.processIntent executor (fuel + 1) e.posted.job.intent e.posted.job.param =
      some (e.after, e.action)) : e.told = e.posted.job.intent := by
  refine if_neg ?_
  rintro ⟨hready, hchanges, hplaying⟩
  obtain ⟨-, hcur, -⟩ | ⟨state, -, -, htarget, -, -, hcur, -⟩ := processIntent_cases h rfl
  · exact hchanges hcur
  · obtain rfl := hcur.symm.trans hplaying
    have hnext := (target_eq_some htarget).1
    have hother : (execute executor e.before.calls e.before.curState e.posted.job.intent
        e.posted.job.param).action ≠ .transToPlaying := execute_notifyReady hready
    revert hnext hother
    generalize (execute executor _ _ _ _).action = action
    cases action <;> simp [Action.nextState]

/-- Either the executor or the machine tells the sender. -/
theorem toldOnce (intent : Intent) {code : ErrorCode}
    (h : action = .actionPending → code = .success) :
    (if code = .errorNoNotify then [(intent, ErrorCode.success)] else []) ++
        (if action = .actionPending ∨ code = .errorNoNotify then [] else [(intent, code)]) =
      if (if code = .success then action else .actionButt) = .actionPending then []
      else [(intent, if code = .errorNoNotify then .success else code)] := by
  by_cases hpending : action = .actionPending
  · simp [hpending, h hpending]
  · have haction : (if code = .success then action else .actionButt) ≠ Action.actionPending := by
      split
      · exact hpending
      · exact nofun
    rw [if_neg haction]
    by_cases hno : code = .errorNoNotify
    · simp [hno]
    · simp [hno, hpending]

theorem notifications_eq {e : Execution}
    (h : e.before.processIntent player.executor (fuel + 1) e.posted.job.intent e.posted.job.param =
      some (e.after, e.action)) :
    e.notifications = if e.action = .actionPending then [] else [(e.told, e.result)] := by
  rw [told_eq h]
  obtain ⟨made, hmade, htold⟩ : Tells e.before.calls e.posted.job.intent
      (execute player.executor e.before.calls e.before.curState e.posted.job.intent
        e.posted.job.param) := tells_execute
  generalize hr : execute player.executor e.before.calls e.before.curState e.posted.job.intent
    e.posted.job.param = r at hmade htold
  have hsender : e.posted.job.intent = .notifyReady → r.action ≠ .transToPlaying := by
    rw [← hr]
    exact execute_notifyReady
  have hpending : r.action = .actionPending → r.code = .success := by
    rw [← hr]
    exact execute_pending
  unfold Execution.notifications Execution.calls Execution.result
  obtain ⟨-, -, hcalls, hevents, haction⟩ |
    ⟨state, e', code, htarget, henter, hcode, -, hcalls, hevents, haction⟩ :=
      processIntent_cases h hr
  · rw [hcalls, hmade, List.drop_left, htold, hevents, firstError_stays answer_code, haction]
    show _ ++ (answer _ _ _).filterMap Event.notification = _
    rw [answer_notification hsender]
    exact toldOnce _ hpending
  · obtain ⟨made', hmade', hsilent, hno⟩ : ∃ made',
        (enter player.executor r.calls state e.posted.job.intent).calls = r.calls ++ made' ∧ _ :=
      tells_enter
    rw [henter] at hmade' hno
    have hnext := (target_eq_some htarget).1
    have hwaits : r.action = .actionPending → code = .success := by
      intro hwaits
      rw [hwaits] at hnext
      cases hnext
    have hsame : r.code = .errorNoNotify ↔ code = .errorNoNotify := by
      rw [hcode]
      split
      · rename_i hsuccess
        rw [hsuccess]
        exact iff_of_false nofun hno
      · exact Iff.rfl
    have hcodes : (e.before.changes state ++ answer e.posted.job.intent r.action code).filterMap
        Event.code = [] := by
      rw [List.filterMap_append, answer_code, List.append_nil]
      unfold changes
      split <;> rfl
    have hfirst : firstError e.after.events = code := by
      rw [hevents, firstError_moves hcodes, hcode]
    have hchanges : (e.before.changes state).filterMap Event.notification = [] := by
      unfold changes
      split <;> rfl
    rw [hfirst, hcalls, hmade', hmade, List.append_assoc, List.drop_left, List.filterMap_append,
      hsilent, htold, List.append_nil, hevents, haction]
    show _ ++ (e.before.changes state ++ answer _ _ _).filterMap Event.notification = _
    rw [List.filterMap_append, hchanges, List.nil_append, answer_notification hsender]
    simp only [hsame]
    exact toldOnce _ hwaits

end Told

end Execution

-- The history

section History

variable {posted : List Posted} {past : List Execution} {e : Execution} {p : Posted}

theorem Waits.executed (h : Waits past p) : ∃ e ∈ past, e.posted = p := h.1

theorem mem_unanswered : p ∈ unanswered posted past ↔ p ∈ posted ∧ Waits past p := by
  simp [unanswered]

theorem waits_cons_other (h : e.posted ≠ p) : Waits (e :: past) p ↔ Waits past p := by
  simp [Waits, h]

theorem waits_cons_first (h : ∀ f ∈ past, f.posted ≠ e.posted) :
    Waits (e :: past) e.posted ↔ e.action = .actionPending := by
  constructor
  · intro hwaits
    exact hwaits.2 e List.mem_cons_self rfl
  · intro hpending
    refine ⟨⟨e, List.mem_cons_self, rfl⟩, fun f hf hsame => ?_⟩
    rcases List.mem_cons.mp hf with rfl | hf
    · exact hpending
    · exact absurd hsame (h f hf)

theorem unanswered_first {front rest : List Posted} (hposted : posted = front ++ e.posted :: rest)
    (hnodup : posted.Nodup) (hpast : ∀ f ∈ past, f.posted ∈ front) :
    unanswered posted (e :: past) =
      if e.action = .actionPending then unanswered posted past ++ [e.posted]
      else unanswered posted past := by
  rw [hposted] at hnodup ⊢
  obtain ⟨-, hrest, hdisjoint⟩ := List.nodup_append.mp hnodup
  have hnew : ∀ f ∈ past, f.posted ≠ e.posted :=
    fun f hf => hdisjoint _ (hpast f hf) _ List.mem_cons_self
  have hlater : ∀ q ∈ rest, ¬ Waits past q := by
    intro q hq hwaits
    obtain ⟨f, hf, rfl⟩ := hwaits.executed
    exact hdisjoint _ (hpast f hf) _ (List.mem_cons_of_mem _ hq) rfl
  have hfront : front.filter (fun q => Waits (e :: past) q) =
      front.filter fun q => Waits past q := by
    refine List.filter_congr fun q hq => ?_
    have hne : e.posted ≠ q := (hdisjoint q hq _ List.mem_cons_self).symm
    simp only [waits_cons_other hne]
  have hback : rest.filter (fun q => Waits (e :: past) q) = [] := by
    refine List.filter_eq_nil_iff.mpr fun q hq => ?_
    have hne : e.posted ≠ q := fun hsame => (List.nodup_cons.mp hrest).1 (hsame ▸ hq)
    simpa only [waits_cons_other hne, decide_eq_true_eq] using hlater q hq
  have hback' : rest.filter (fun q => Waits past q) = [] :=
    List.filter_eq_nil_iff.mpr fun q hq => by simpa using hlater q hq
  have hself : ¬ Waits past e.posted := by
    intro hwaits
    obtain ⟨f, hf, hsame⟩ := hwaits.executed
    exact hnew f hf hsame
  unfold unanswered
  simp only [List.filter_append, List.filter_cons, hfront, hback, hback', waits_cons_first hnew,
    hself, decide_eq_true_eq, if_false, List.append_nil]
  split
  · rfl
  · exact List.append_nil _

theorem unanswered_answered (h : e.action ≠ .actionPending) :
    unanswered posted (e :: past) = (unanswered posted past).filter fun q => e.posted ≠ q := by
  unfold unanswered
  rw [List.filter_filter]
  refine List.filter_congr fun q _ => ?_
  by_cases hsame : e.posted = q
  · have hgone : ¬ Waits (e :: past) q := fun hwaits => h (hwaits.2 e List.mem_cons_self hsame)
    simp [hsame, hgone]
  · simp [hsame, waits_cons_other hsame]

theorem unanswered_post (hpast : ∀ f ∈ past, f.posted ≠ p) :
    unanswered (posted ++ [p]) past = unanswered posted past := by
  have hnew : ¬ Waits past p := by
    intro hwaits
    obtain ⟨f, hf, hsame⟩ := hwaits.executed
    exact hpast f hf hsame
  simp [unanswered, List.filter_append, hnew]

theorem due_post (hpast : ∀ f ∈ past, f.posted ≠ p) :
    due (posted ++ [p]) past = due posted past := by
  induction past with
  | nil => rfl
  | cons e past ih =>
    simp only [due]
    rw [unanswered_post hpast, ih fun f hf => hpast f (List.mem_cons_of_mem _ hf)]

theorem inTurn_post (hpast : ∀ f ∈ past, f.posted ≠ p) :
    InTurn (posted ++ [p]) past ↔ InTurn posted past := by
  induction past with
  | nil => exact Iff.rfl
  | cons e past ih =>
    have hrest : ∀ f ∈ past, f.posted ≠ p := fun f hf => hpast f (List.mem_cons_of_mem _ hf)
    simp only [InTurn]
    rw [due_post hrest, ih hrest]

/-- The sender of an intent is answered once, by its last execution. -/
theorem replies_eq (p : Posted)
    (honce : past.Pairwise fun later earlier =>
      later.posted = earlier.posted → earlier.action = .actionPending)
    (htold : ∀ e ∈ past, e.notifications =
      if e.action = .actionPending then [] else [(e.told, e.result)]) :
    replies past p = match past.find? fun e => e.posted = p ∧ e.action ≠ .actionPending with
      | some e => [(e.told, e.result)]
      | none => [] := by
  induction past with
  | nil => rfl
  | cons e past ih =>
    obtain ⟨hearlier, honce⟩ := List.pairwise_cons.mp honce
    obtain ⟨hlast, htold⟩ := List.forall_mem_cons.mp htold
    have hrest := ih honce htold
    unfold replies at hrest ⊢
    by_cases hsame : e.posted = p
    · rw [List.filter_cons_of_pos (by simpa using hsame), List.reverse_cons, List.flatMap_append,
        hrest, List.flatMap_singleton, hlast]
      by_cases hpending : e.action = .actionPending
      · simp [hpending]
      · -- every execution before the answer was pending
        have hnone : past.find? (fun e => e.posted = p ∧ e.action ≠ .actionPending) = none := by
          refine List.find?_eq_none.mpr fun f hf => ?_
          intro hfound
          simp only [decide_eq_true_eq] at hfound
          exact hfound.2 (hearlier f hf (hsame.trans hfound.1.symm))
        rw [hnone, List.find?_cons_of_pos (by simpa using ⟨hsame, hpending⟩)]
        simp [hpending]
    · rw [List.filter_cons_of_neg (by simpa using hsame),
        List.find?_cons_of_neg (by simp [hsame]), hrest]

end History

-- Every run

/-- The intents, their executions and the state of the machine agree. -/
structure Sound (executor : PlayExecutor) (fuel : Nat) (s : Fsm) : Prop where
  ids : ∀ p ∈ s.posted, p.id < s.posted.length
  nodup : s.posted.Nodup
  inOrder : firsts s.executions ++ s.jobs = s.posted
  seen : ∀ e ∈ s.executions, e.posted ∈ firsts s.executions
  kept : s.pendingJobs = unanswered s.posted s.executions
  retried : InTurn s.posted s.executions
  once : s.executions.Pairwise fun later earlier =>
    later.posted = earlier.posted → earlier.action = .actionPending
  outcomes : ∀ e ∈ s.executions,
    e.before.processIntent executor fuel e.posted.job.intent e.posted.job.param =
      some (e.after, e.action)
  dues : due s.posted s.executions = if s.owed then s.pendingJobs else []
  plays : ∀ p ∈ s.pendingJobs, p.job.intent = .play
  settled : s.owed = false → s.pendingJobs ≠ [] → s.machine.curState = .preparing
  owes : s.owed = true → s.machine.curState ≠ .preparing ∧ ∃ p, s.pendingJobs = [p]

section Runs

variable {executor : PlayExecutor} {fuel : Nat} {s s' : Fsm}

theorem sound_start (callback : Bool) : Sound executor fuel { machine := { callback } } where
  ids _ hp := absurd hp List.not_mem_nil
  nodup := List.nodup_nil
  inOrder := rfl
  seen _ he := absurd he List.not_mem_nil
  kept := rfl
  retried := trivial
  once := List.Pairwise.nil
  outcomes _ he := absurd he List.not_mem_nil
  dues := rfl
  plays _ hp := absurd hp List.not_mem_nil
  settled _ h := absurd rfl h
  owes h := absurd h Bool.false_ne_true

theorem sound_post (h : Sound executor fuel s) (job : Job) : Sound executor fuel (s.post job) := by
  have hfresh : ∀ p ∈ s.posted, p ≠ ⟨s.posted.length, job⟩ := by
    rintro p hp rfl
    exact absurd (h.ids _ hp) (lt_irrefl _)
  have hpast : ∀ e ∈ s.executions, e.posted ≠ ⟨s.posted.length, job⟩ := by
    intro e he
    refine hfresh _ ?_
    rw [← h.inOrder]
    exact List.mem_append_left _ (h.seen e he)
  exact {
    ids := by
      intro p hp
      have hlength : (s.post job).posted.length = s.posted.length + 1 := by simp [Fsm.post]
      rw [hlength]
      rcases List.mem_append.mp hp with hp | hp
      · exact Nat.lt_succ_of_lt (h.ids p hp)
      · obtain rfl := List.mem_singleton.mp hp
        exact Nat.lt_succ_self _
    nodup := List.nodup_append.mpr ⟨h.nodup, List.nodup_singleton _, by simpa using hfresh⟩
    inOrder := by
      show firsts s.executions ++ (s.jobs ++ _) = s.posted ++ _
      rw [← List.append_assoc, h.inOrder]
    seen := h.seen
    kept := h.kept.trans (unanswered_post hpast).symm
    retried := (inTurn_post hpast).mpr h.retried
    once := h.once
    outcomes := h.outcomes
    dues := (due_post hpast).trans h.dues
    plays := h.plays
    settled := h.settled
    owes := h.owes }

section Step

variable {p : Posted} {after : StateMachine} {action : Action}

/-- Where the intents wait after the first block: the machine has left `PREPARING`
and the only one is tried next, or there is none, or they wait in `PREPARING`. -/
theorem pending_taken (h : Sound executor (fuel + 1) s) (howed : s.owed = false)
    {jobs : List Posted}
    (hjobs : s.jobs = p :: jobs) (hclear : Clear executor s .take)
    (hprocess : s.machine.processIntent executor (fuel + 1) p.job.intent p.job.param =
      some (after, action)) :
    ((s.taken p jobs after action).owed = true ∧ s.machine.curState = .preparing ∧
        after.curState ≠ .preparing ∧ ∃ q, (s.taken p jobs after action).pendingJobs = [q]) ∨
      (s.taken p jobs after action).owed = false ∧
        ((s.taken p jobs after action).pendingJobs = [] ∨
          s.machine.curState = .preparing ∧ after.curState = .preparing) := by
  unfold Fsm.taken
  by_cases hpending : action = .actionPending
  · -- the intent is one more that waits in `PREPARING`
    obtain ⟨hstate, hintent⟩ := (processIntent_pending hprocess).mp hpending
    have hstays := (processIntent_preparing hprocess hstate).1 (by rw [hintent]; rfl)
    refine .inr ⟨?_, .inr ⟨hstate, hstays.1⟩⟩
    simp [hstays.2]
  · rw [if_neg hpending]
    by_cases hnone : s.pendingJobs = []
    · exact .inr ⟨by simp [hnone], .inl hnone⟩
    · have hstate := h.settled howed hnone
      obtain ⟨hstays, hleaves⟩ := processIntent_preparing hprocess hstate
      cases hleads : leadsTo p.job.intent with
      | none => exact .inr ⟨by simp [(hstays hleads).2], .inr ⟨hstate, (hstays hleads).1⟩⟩
      | some state =>
        obtain ⟨hcur, hne, hnext⟩ := hleaves state hleads
        obtain ⟨hlength, henters⟩ := hclear hstate p (by rw [hjobs]; rfl) state hleads
        have hone : ∃ q, s.pendingJobs = [q] := by
          have hpos := List.length_pos_iff.mpr hnone
          exact List.length_eq_one_iff.mp (by omega)
        exact .inl ⟨by simp [hnext (henters hnone), hnone], hstate, hcur ▸ hne, hone⟩

theorem sound_taken (h : Sound executor (fuel + 1) s) (howed : s.owed = false) {jobs : List Posted}
    (hjobs : s.jobs = p :: jobs) (hclear : Clear executor s .take)
    (hprocess : s.machine.processIntent executor (fuel + 1) p.job.intent p.job.param =
      some (after, action)) : Sound executor (fuel + 1) (s.taken p jobs after action) := by
  have hposted : s.posted = firsts s.executions ++ p :: jobs := by rw [← h.inOrder, hjobs]
  have hdisjoint := (List.nodup_append.mp (hposted ▸ h.nodup)).2.2
  have hfresh : ∀ e ∈ s.executions, e.posted ≠ p :=
    fun e he => hdisjoint _ (h.seen e he) _ List.mem_cons_self
  have hfirsts : firsts (s.taken p jobs after action).executions = firsts s.executions ++ [p] := by
    simp [firsts, Fsm.taken]
  have hkept : (s.taken p jobs after action).pendingJobs =
      unanswered s.posted (s.taken p jobs after action).executions := by
    refine Eq.trans ?_ (unanswered_first hposted h.nodup h.seen).symm
    rw [← h.kept]
    rfl
  have hdue : due s.posted s.executions = [] := by
    rw [h.dues, howed]
    rfl
  have hpending := pending_taken h howed hjobs hclear hprocess
  exact {
    ids := h.ids
    nodup := h.nodup
    inOrder := by
      rw [hfirsts, List.append_assoc]
      exact hposted.symm
    seen := by
      rw [hfirsts]
      refine List.forall_mem_cons.mpr ⟨List.mem_append_right _ (List.mem_singleton_self p), ?_⟩
      exact fun e he => List.mem_append_left _ (h.seen e he)
    kept := hkept
    retried := by
      refine ⟨fun q hq => ?_, h.retried⟩
      rw [show due (s.taken p jobs after action).posted s.executions = [] from hdue] at hq
      cases hq
    once := List.pairwise_cons.mpr ⟨fun e he hsame => absurd hsame.symm (hfresh e he), h.once⟩
    outcomes := List.forall_mem_cons.mpr ⟨hprocess, h.outcomes⟩
    dues := by
      show (if after.curState ≠ s.machine.curState
        then unanswered s.posted (s.taken p jobs after action).executions
        else (due s.posted s.executions).erase p) = _
      rw [hdue, ← hkept]
      obtain ⟨howes, hbefore, hafter, -⟩ | ⟨hdone, hwaiting⟩ := hpending
      · rw [if_pos (hbefore ▸ hafter), howes]
        rfl
      · rw [hdone]
        rcases hwaiting with hnone | ⟨hbefore, hafter⟩
        · rw [hnone]
          split <;> rfl
        · exact if_neg (not_not.mpr (hafter.trans hbefore.symm))
    plays := by
      intro q hq
      change q ∈ (if action = .actionPending then s.pendingJobs ++ [p] else s.pendingJobs) at hq
      split at hq
      · rename_i hplay
        rcases List.mem_append.mp hq with hq | hq
        · exact h.plays q hq
        · obtain rfl := List.mem_singleton.mp hq
          exact ((processIntent_pending hprocess).mp hplay).2
      · exact h.plays q hq
    settled := by
      intro hdone hsome
      obtain ⟨howes, -⟩ | ⟨-, hwaiting⟩ := hpending
      · rw [hdone] at howes
        cases howes
      · exact (hwaiting.resolve_left hsome).2
    owes := by
      intro howes
      obtain ⟨-, -, hafter, hone⟩ | ⟨hdone, -⟩ := hpending
      · exact ⟨hafter, hone⟩
      · rw [hdone] at howes
        cases howes }

/-- The pending intent is answered, because the machine is not in `PREPARING` any more. -/
theorem sound_retried (h : Sound executor (fuel + 1) s) (howed : s.owed = true) {rest : List Posted}
    (hjobs : s.pendingJobs = p :: rest)
    (hprocess : s.machine.processIntent executor (fuel + 1) p.job.intent p.job.param =
      some (after, action)) : Sound executor (fuel + 1) (s.retried p rest after action) := by
  obtain ⟨hstate, q, hone⟩ := h.owes howed
  obtain ⟨rfl, rfl⟩ : p = q ∧ rest = [] := by simpa [hjobs] using hone
  have hanswered : action ≠ .actionPending :=
    fun hpending => hstate ((processIntent_pending hprocess).mp hpending).1
  have hwaits : p ∈ unanswered s.posted s.executions := by
    rw [← h.kept, hjobs]
    exact List.mem_singleton_self p
  obtain ⟨-, hwaits⟩ := mem_unanswered.mp hwaits
  have hpending : (s.retried p [] after action).pendingJobs = [] := if_neg hanswered
  have hkept : unanswered s.posted (s.retried p [] after action).executions = [] := by
    refine (unanswered_answered hanswered).trans ?_
    rw [← h.kept, hjobs]
    simp
  have hdue : due s.posted s.executions = [p] := by
    rw [h.dues, howed, hjobs]
    rfl
  have hfirsts : firsts (s.retried p [] after action).executions = firsts s.executions := by
    simp [firsts, Fsm.retried]
  exact {
    ids := h.ids
    nodup := h.nodup
    inOrder := by
      rw [hfirsts]
      exact h.inOrder
    seen := by
      rw [hfirsts]
      refine List.forall_mem_cons.mpr ⟨?_, h.seen⟩
      obtain ⟨e, he, rfl⟩ := hwaits.executed
      exact h.seen e he
    kept := hpending.trans hkept.symm
    retried := by
      refine ⟨fun q hq => ?_, h.retried⟩
      rw [show due (s.retried p [] after action).posted s.executions = [p] from hdue] at hq
      exact Option.some.inj hq
    once := by
      refine List.pairwise_cons.mpr ⟨fun e he hsame => ?_, h.once⟩
      exact hwaits.2 e he hsame.symm
    outcomes := List.forall_mem_cons.mpr ⟨hprocess, h.outcomes⟩
    dues := by
      show (if after.curState ≠ s.machine.curState
        then unanswered s.posted (s.retried p [] after action).executions
        else (due s.posted s.executions).erase p) = []
      rw [hdue, hkept]
      split
      · rfl
      · exact List.erase_cons_head p []
    plays := by
      intro q hq
      rw [hpending] at hq
      cases hq
    settled := fun _ hsome => absurd hpending hsome
    owes := fun howes => absurd howes Bool.false_ne_true }

theorem sound_step (h : Sound executor (fuel + 1) s) {label : Label}
    (hclear : Clear executor s label)
    (hstep : s.step executor (fuel + 1) label = some s') : Sound executor (fuel + 1) s' := by
  obtain ⟨job, rfl, rfl⟩ | ⟨p, jobs, after, action, rfl, howed, hjobs, hprocess, rfl⟩ |
    ⟨p, rest, after, action, rfl, howed, hpending, hprocess, rfl⟩ := Fsm.step_cases hstep
  · exact sound_post h job
  · exact sound_taken h howed hjobs hclear hprocess
  · exact sound_retried h howed hpending hprocess

end Step

theorem sound_noneLost {player : HiPlayer} (h : Sound player.executor (fuel + 1) s) :
    NoneLost player.executor (fuel + 1) s where
  inOrder := h.inOrder
  kept := h.kept
  retried := h.retried
  retrying := by
    intro hdue
    rw [h.dues] at hdue
    by_contra howed
    exact hdue (if_neg howed)
  once := h.once
  answered := by
    intro p _
    exact replies_eq p h.once fun e he => notifications_eq (h.outcomes e he)
  waiting := by
    intro _ howed p hp
    have hstate := h.settled howed (List.ne_nil_of_mem hp)
    obtain ⟨after, action, hprocess⟩ :=
      Fsm.exists_processIntent player.executor fuel s.machine p.job
    obtain rfl := (processIntent_pending hprocess).mpr ⟨hstate, h.plays p hp⟩
    exact ⟨after, hprocess⟩

theorem sound_goesOn (h : Sound executor (fuel + 1) s) :
    (s.owed = true → (s.step executor (fuel + 1) .retry).isSome) ∧
      (s.owed = false → s.jobs ≠ [] → (s.step executor (fuel + 1) .take).isSome) := by
  constructor
  · intro howed
    obtain ⟨-, p, hpending⟩ := h.owes howed
    obtain ⟨after, action, hprocess⟩ := Fsm.exists_processIntent executor fuel s.machine p.job
    show (s.retry executor (fuel + 1)).isSome
    rw [Fsm.retry_eq howed hpending hprocess]
    rfl
  · intro howed hjobs
    obtain ⟨p, jobs, hjobs⟩ := List.exists_cons_of_ne_nil hjobs
    obtain ⟨after, action, hprocess⟩ := Fsm.exists_processIntent executor fuel s.machine p.job
    show (s.take executor (fuel + 1)).isSome
    rw [Fsm.take_eq howed hjobs hprocess]
    rfl

end Runs

def HiPlayer.smooth : HiPlayer where
  isSingleLoop _ := false
  result _ _ := .success
  noNotify _ _ := nofun

/-- A player that is prepared while `plays` senders wait for it to play. -/
def prepared (plays : Nat) : List Label :=
  ([.post ⟨.setSource, .mediaSource (some 0)⟩, .post ⟨.prepare, .other⟩, .take, .take] :
      List Label) ++
    (List.replicate plays (.post ⟨.play, .other⟩) : List Label) ++
    (List.replicate plays .take : List Label) ++
    ([.post ⟨.notifyReady, .other⟩, .take, .retry] : List Label)

end MediaFoundation.Player
