import MediaFoundation.Codec.CodecCmdExecutor

/-!
# The answers of CodecCmdExecutor

What `WaitCmdResult` returns is true unless it finds the marker of an error. The marker is left
over from one command to the next and lost with the next completion, a wait that runs out of time
returns true, and a result of the output port is written over the one of the input port.
-/

namespace MediaFoundation.CodecCmd

variable {s t : State} {c d : Command} {cmd : PortCmd} {portIndex inPortIndex : UInt32}
  {events : List Event} {result : Option Bool} {timedOut : Bool}

-- The property

/-- True means that the command was completed after it had been sent, with no error since; false
means that there was an error or no time left. -/
structure Truthful (a : Answer) : Prop where
  true_iff : a.result = true ↔
    a.seen.sent = true ∧ a.seen.completed = true ∧ a.seen.failed = false
  of_false : a.result = false → a.seen.failed = true ∨ a.timedOut = true

def portRecord (s : State) (cmd : PortCmd) (portIndex : UInt32) : Result :=
  if portIndex = s.inPortIndex then (s.portResult cmd).1 else (s.portResult cmd).2

def Known (s : State) : Command → Prop
  | .stateSet _ => True
  | .port _ portIndex => portIndex = s.inPortIndex ∨ portIndex = s.outPortIndex

structure Undisturbed (s : State) (c : Command) : Prop where
  ports : ∀ cmd portIndex, Known s (.port cmd portIndex) → c ≠ .port cmd portIndex →
    portRecord (handleEventCmdComplete s c) cmd portIndex = portRecord s cmd portIndex
  state : ∀ cmd portIndex, c = .port cmd portIndex →
    (handleEventCmdComplete s c).stateResult = s.stateResult

-- The condition

def NothingLeft (s : State) : Command → Prop
  | .stateSet state => state ≠ .invalid
  | .port cmd portIndex => portRecord s cmd portIndex ≠ .success

/-- Somebody looks for a command that was sent, the marker is there exactly if an error has
followed, and a result of the output port is not taken before the input port has its own. -/
structure MayLook (s : State) (c : Command) : Prop where
  sent : (s.seen c).sent = true
  marked : s.lastCmd = .error ↔ (s.seen c).failed = true
  inputFirst : ∀ cmd, c = .port cmd s.outPortIndex → (s.portResult cmd).2 = .success →
    (s.seen (.port cmd s.inPortIndex)).completed = true

/-- The calls and the completions name the input or the output port; no result is left over when a
command is sent; the two results are the same when the output port completes; and no wait runs out
of time before its command has been completed, or an error marked. -/
def Keeps (s : State) : Event → Prop
  | .sendCmd c => Known s c ∧ NothingLeft s c
  | .waitCmdResult c => Known s c ∧ MayLook s c
  | .wake => ∀ c, s.waiting = some c → MayLook s c
  | .timeOut => ∀ c, s.waiting = some c →
    MayLook s c ∧ (s.lastCmd = .error ∨ (s.seen c).completed = true)
  | .cmdComplete c => Known s c ∧
    ∀ cmd, c = .port cmd s.outPortIndex → (s.portResult cmd).1 = (s.portResult cmd).2
  | _ => True

-- The records

def Recorded (s : State) : Command → Prop
  | .stateSet state => state ≠ .invalid ∧ s.stateResult = state
  | .port cmd portIndex => portRecord s cmd portIndex = .success

theorem outPortIndex_ne (s : State) : s.outPortIndex ≠ s.inPortIndex := by
  intro h
  have hone : (1 : UInt32) = 0 := add_eq_left.mp h
  exact absurd hone (by decide)

@[simp] theorem portRecord_input (s : State) (cmd : PortCmd) :
    portRecord s cmd s.inPortIndex = (s.portResult cmd).1 := if_pos rfl

@[simp] theorem portRecord_output (s : State) (cmd : PortCmd) :
    portRecord s cmd s.outPortIndex = (s.portResult cmd).2 := if_neg (outPortIndex_ne s)

theorem portRecord_setPair (s : State) (cmd cmd' : PortCmd) (pair : Result × Result)
    (portIndex : UInt32) :
    portRecord (s.setPair cmd pair) cmd' portIndex =
      if cmd' = cmd then (if portIndex = s.inPortIndex then pair.1 else pair.2)
      else portRecord s cmd' portIndex := by
  unfold portRecord State.setPair
  by_cases hcmd : cmd' = cmd
  · rw [if_pos hcmd, hcmd]
    simp only [Function.update_self]
  · rw [if_neg hcmd]
    simp only [Function.update_of_ne hcmd]

-- Completions

theorem portRecord_complete (hkeeps : Keeps s (.cmdComplete c))
    (hknown : Known s (.port cmd portIndex)) (hne : c ≠ .port cmd portIndex) :
    portRecord (handleEventCmdComplete s c) cmd portIndex = portRecord s cmd portIndex := by
  cases c with
  | stateSet state => rfl
  | port cmd' portIndex' =>
    have hrecord : portRecord (handleEventCmdComplete s (.port cmd' portIndex')) cmd portIndex =
        portRecord (if portIndex' = s.inPortIndex then
            s.setPair cmd' (.success, (s.portResult cmd').2)
          else s.setPair cmd' ((s.portResult cmd').2, .success)) cmd portIndex := rfl
    rw [hrecord]
    by_cases hcmd : cmd = cmd'
    · subst hcmd
      obtain ⟨hside, hsame⟩ := hkeeps
      have hindex : portIndex' ≠ portIndex := fun h => hne (by rw [h])
      cases hside with
      | inl hin =>
        rw [if_pos hin, portRecord_setPair, if_pos rfl]
        have hout : portIndex ≠ s.inPortIndex := fun h => hindex (hin.trans h.symm)
        rw [if_neg hout, portRecord, if_neg hout]
      | inr hout =>
        have hin : portIndex = s.inPortIndex := by
          cases hknown with
          | inl hin => exact hin
          | inr h => exact absurd (hout.trans h.symm) hindex
        rw [if_neg (hout ▸ outPortIndex_ne s), portRecord_setPair, if_pos rfl, if_pos hin, hin,
          portRecord_input]
        exact (hsame cmd (by rw [hout])).symm
    · split
      all_goals rw [portRecord_setPair, if_neg hcmd]

/-- **What a completion leaves.** -/
theorem undisturbed (hkeeps : Keeps s (.cmdComplete c)) : Undisturbed s c where
  ports _ _ hknown hne := portRecord_complete hkeeps hknown hne
  state cmd portIndex hc := by
    subst hc
    unfold handleEventCmdComplete
    dsimp only
    split <;> rfl

-- One look

structure Looked (s : State) (c : Command) (t : State) (result : Option Bool) : Prop where
  inPortIndex : t.inPortIndex = s.inPortIndex
  lastCmd : t.lastCmd = s.lastCmd
  seen : t.seen = s.seen
  answers : t.answers = s.answers
  marked : s.lastCmd = .error → result = some false
  found : ∀ b, s.lastCmd ≠ .error → result = some b →
    b = true ∧ (Recorded s c ∨ c = .stateSet .invalid)
  recorded : ∀ d, Known s d → Recorded t d → Recorded s d ∨
    ∃ cmd, c = .port cmd s.outPortIndex ∧ d = .port cmd s.inPortIndex ∧
      (s.portResult cmd).2 = .success

theorem looked_state (s : State) (state : OmxState) :
    Looked s (.stateSet state) (lookState s state).1 (lookState s state).2 := by
  unfold lookState
  by_cases herror : s.lastCmd = .error
  · rw [if_pos herror]
    refine ⟨rfl, rfl, rfl, rfl, fun _ => rfl, fun _ h => absurd herror h, fun d _ hd => .inl ?_⟩
    cases d with
    | stateSet state' => exact absurd hd.2.symm hd.1
    | port cmd portIndex => exact hd
  · rw [if_neg herror]
    refine ⟨rfl, rfl, rfl, rfl, fun h => absurd h herror, fun b _ hb => ?_, fun d _ hd => .inl hd⟩
    dsimp only at hb
    split at hb
    next hstate =>
      refine ⟨(Option.some.inj hb).symm, ?_⟩
      by_cases hinvalid : state = .invalid
      · exact .inr (by rw [hinvalid])
      · exact .inl ⟨hinvalid, hstate⟩
    next => cases hb

theorem recorded_setPair (first second : Result) (hd : Known s d)
    (hfirst : first = .success → (s.portResult cmd).1 = .success ∨
      portIndex = s.outPortIndex ∧ (s.portResult cmd).2 = .success)
    (hsecond : second = .success → (s.portResult cmd).2 = .success)
    (hrecorded : Recorded (s.setPair cmd (first, second)) d) : Recorded s d ∨
      ∃ cmd', Command.port cmd portIndex = .port cmd' s.outPortIndex ∧
        d = .port cmd' s.inPortIndex ∧ (s.portResult cmd').2 = .success := by
  cases d with
  | stateSet state => exact .inl hrecorded
  | port cmd' portIndex' =>
    change portRecord (s.setPair cmd (first, second)) cmd' portIndex' = .success at hrecorded
    rw [portRecord_setPair] at hrecorded
    by_cases hcmd : cmd' = cmd
    · subst hcmd
      rw [if_pos rfl] at hrecorded
      show portRecord s cmd' portIndex' = .success ∨ _
      cases hd with
      | inl hin =>
        subst hin
        rw [if_pos rfl] at hrecorded
        rw [portRecord_input]
        exact (hfirst hrecorded).imp_right fun h => ⟨cmd', by rw [h.1], rfl, h.2⟩
      | inr hout =>
        subst hout
        rw [if_neg (outPortIndex_ne s)] at hrecorded
        rw [portRecord_output]
        exact .inl (hsecond hrecorded)
    · rw [if_neg hcmd] at hrecorded
      exact .inl hrecorded

theorem looked_port (hknown : Known s (.port cmd portIndex)) :
    Looked s (.port cmd portIndex) (lookPort s cmd portIndex).1
      (lookPort s cmd portIndex).2 := by
  have hne := outPortIndex_ne s
  unfold lookPort
  dsimp only
  by_cases herror : s.lastCmd = .error
  · rw [if_pos herror]
    split
    next hin =>
      refine ⟨rfl, rfl, rfl, rfl, fun _ => rfl, fun _ h => absurd herror h,
        fun d hd hrecorded => recorded_setPair .fail _ hd (fun h => ?_) id hrecorded⟩
      cases h
    next hin =>
      have hout := hknown.resolve_left hin
      refine ⟨rfl, rfl, rfl, rfl, fun _ => rfl, fun _ h => absurd herror h,
        fun d hd hrecorded => recorded_setPair _ .fail hd (fun h => .inr ⟨hout, h⟩)
          (fun h => ?_) hrecorded⟩
      cases h
  · rw [if_neg herror]
    split
    next hin =>
      subst hin
      refine ⟨?_, ?_, ?_, ?_, fun h => absurd h herror, fun b _ hb => ?_, fun d hd hrecorded => ?_⟩
      all_goals try (dsimp only; split <;> rfl)
      · dsimp only at hb
        split at hb
        next hsuccess =>
          exact ⟨(Option.some.inj hb).symm, .inl ((portRecord_input s cmd).trans hsuccess)⟩
        next => cases hb
      · dsimp only at hrecorded
        split at hrecorded
        next => exact recorded_setPair .invalid _ hd (fun h => by cases h) id hrecorded
        next => exact .inl hrecorded
    next hin =>
      have hout := hknown.resolve_left hin
      refine ⟨?_, ?_, ?_, ?_, fun h => absurd h herror, fun b _ hb => ?_, fun d hd hrecorded => ?_⟩
      all_goals try (dsimp only; split <;> rfl)
      · dsimp only at hb
        split at hb
        next hsuccess =>
          subst hout
          exact ⟨(Option.some.inj hb).symm, .inl ((portRecord_output s cmd).trans hsuccess)⟩
        next => cases hb
      · dsimp only at hrecorded
        split at hrecorded
        next =>
          exact recorded_setPair _ .invalid hd (fun h => .inr ⟨hout, h⟩) (fun h => by cases h)
            hrecorded
        next => exact .inl hrecorded

theorem looked (hknown : Known s c) : Looked s c (look s c).1 (look s c).2 := by
  cases c with
  | stateSet state => exact looked_state s state
  | port cmd portIndex => exact looked_port hknown

-- The invariant

/-- A success that is recorded has been reported since the command was sent. -/
structure Inv (s : State) : Prop where
  results : ∀ c, Known s c → Recorded s c → (s.seen c).completed = true
  invalid : (s.seen (.stateSet .invalid)).sent = false
  waiting : ∀ c, s.waiting = some c → Known s c
  answers : ∀ a ∈ s.answers, Truthful a

theorem inv_create (inPortIndex : UInt32) : Inv (create inPortIndex) where
  results c hknown hrecorded := by
    cases c with
    | stateSet state => exact absurd hrecorded.2.symm hrecorded.1
    | port cmd portIndex =>
      change portRecord (create inPortIndex) cmd portIndex = .success at hrecorded
      unfold portRecord create at hrecorded
      split at hrecorded <;> cases hrecorded
  invalid := rfl
  waiting _ h := nomatch h
  answers := List.forall_mem_nil _

theorem Inv.sendCmd (h : Inv s) (hkeeps : Keeps s (.sendCmd c)) : Inv (sendCmd s c) := by
  obtain ⟨-, hleft⟩ := hkeeps
  cases c with
  | stateSet state =>
    refine ⟨fun d hd hrecorded => ?_, ?_, h.waiting, h.answers⟩
    · cases d with
      | stateSet state' => exact absurd hrecorded.2.symm hrecorded.1
      | port cmd portIndex => exact h.results _ hd hrecorded
    · exact decide_eq_false hleft
  | port cmd portIndex =>
    refine ⟨fun d hd hrecorded => ?_, h.invalid, h.waiting, h.answers⟩
    have hne : Command.port cmd portIndex ≠ d := by
      intro heq
      subst heq
      exact hleft hrecorded
    have hsame : sends (.port cmd portIndex) d (s.seen d) = s.seen d := if_neg hne
    show (sends (.port cmd portIndex) d (s.seen d)).completed = true
    rw [hsame]
    exact h.results d hd hrecorded

theorem recorded_complete (hkeeps : Keeps s (.cmdComplete c)) (hd : Known s d) (hne : c ≠ d)
    (hrecorded : Recorded (handleEventCmdComplete s c) d) : Recorded s d := by
  cases d with
  | port cmd portIndex => exact (portRecord_complete hkeeps hd hne).symm.trans hrecorded
  | stateSet state =>
    obtain ⟨hstate, hresult⟩ := hrecorded
    cases c with
    | stateSet state' =>
      have hsame : state' = state := hresult
      exact absurd (by rw [hsame]) hne
    | port cmd portIndex =>
      exact ⟨hstate, ((undisturbed hkeeps).state cmd portIndex rfl).symm.trans hresult⟩

theorem handleEventCmdComplete_same (s : State) (c : Command) :
    (handleEventCmdComplete s c).inPortIndex = s.inPortIndex ∧
      (handleEventCmdComplete s c).seen =
        Function.update s.seen c { s.seen c with completed := true } ∧
      (handleEventCmdComplete s c).waiting = s.waiting ∧
      (handleEventCmdComplete s c).answers = s.answers := by
  unfold handleEventCmdComplete
  cases c with
  | stateSet => exact ⟨rfl, rfl, rfl, rfl⟩
  | port =>
    dsimp only
    split <;> exact ⟨rfl, rfl, rfl, rfl⟩

theorem Known.congr (hindex : t.inPortIndex = s.inPortIndex) (h : Known t d) : Known s d := by
  cases d with
  | stateSet => trivial
  | port =>
    unfold Known State.outPortIndex at h
    rw [hindex] at h
    exact h

theorem Inv.handleEventCmdComplete (h : Inv s) (hkeeps : Keeps s (.cmdComplete c)) :
    Inv (handleEventCmdComplete s c) := by
  obtain ⟨hindex, hseen, hwaiting, hanswers⟩ := handleEventCmdComplete_same s c
  refine ⟨fun d hd hrecorded => ?_, ?_, fun d hd => ?_, fun a ha => ?_⟩
  · rw [hseen]
    by_cases hne : c = d
    · subst hne
      rw [Function.update_self]
    · rw [Function.update_of_ne (Ne.symm hne)]
      exact h.results d (hd.congr hindex) (recorded_complete hkeeps (hd.congr hindex) hne hrecorded)
  · rw [hseen]
    by_cases hc : Command.stateSet .invalid = c
    · subst hc
      rw [Function.update_self]
      exact h.invalid
    · rw [Function.update_of_ne hc]
      exact h.invalid
  · rw [hwaiting] at hd
    exact (h.waiting d hd).congr hindex.symm
  · rw [hanswers] at ha
    exact h.answers a ha

/-- The answer of one round that ends the wait. -/
theorem truthful (h : Inv s) (hknown : Known s c) (hlook : MayLook s c) {b : Bool}
    (hresult : (look s c).2 = some b) : Truthful ⟨c, b, timedOut, s.seen c⟩ := by
  have hlooked := looked hknown
  by_cases herror : s.lastCmd = .error
  · have hfailed := hlook.marked.mp herror
    rw [hlooked.marked herror] at hresult
    cases hresult
    exact ⟨⟨nofun, fun hall => Bool.noConfusion (hfailed.symm.trans hall.2.2)⟩,
      fun _ => .inl hfailed⟩
  · have hfailed : (s.seen c).failed = false :=
      Bool.eq_false_iff.mpr (mt hlook.marked.mpr herror)
    obtain ⟨rfl, hrecorded⟩ := hlooked.found b herror hresult
    have hcompleted : (s.seen c).completed = true := by
      cases hrecorded with
      | inl hrecorded => exact h.results c hknown hrecorded
      | inr hinvalid =>
        have hsent := hlook.sent
        rw [hinvalid, h.invalid] at hsent
        cases hsent
    exact ⟨⟨fun _ => ⟨hlook.sent, hcompleted, hfailed⟩, fun _ => rfl⟩, nofun⟩

/-- **One round of a wait.** -/
theorem Inv.waitRound (h : Inv s) (hknown : Known s c) (hlook : MayLook s c)
    (htime : timedOut = true → s.lastCmd = .error ∨ (s.seen c).completed = true) :
    Inv (waitRound s c timedOut) := by
  have hlooked := looked hknown
  have htruthful : ∀ b, (look s c).2 = some b → Truthful ⟨c, b, timedOut, s.seen c⟩ :=
    fun b hb => truthful h hknown hlook hb
  -- what the look leaves is still recorded rightly
  have hresults : ∀ d, Known s d → Recorded (look s c).1 d → (s.seen d).completed = true := by
    intro d hd hrecorded
    cases hlooked.recorded d hd hrecorded with
    | inl hold => exact h.results d hd hold
    | inr hinput =>
      obtain ⟨cmd, hc, rfl, hsuccess⟩ := hinput
      exact hlook.inputFirst cmd hc hsuccess
  unfold CodecCmd.waitRound
  generalize look s c = found at *
  obtain ⟨t, result⟩ := found
  dsimp only at hlooked htruthful hresults
  have hanswer : ∀ b, Truthful ⟨c, b, timedOut, s.seen c⟩ → Inv (answer t c b timedOut) := by
    intro b hb
    refine ⟨fun d hd hrecorded => ?_, ?_, nofun, fun a ha => ?_⟩
    · show (t.seen d).completed = true
      rw [hlooked.seen]
      exact hresults d (hd.congr hlooked.inPortIndex) hrecorded
    · show (t.seen _).sent = false
      rw [hlooked.seen]
      exact h.invalid
    · cases List.mem_append.mp ha with
      | inl hold =>
        rw [hlooked.answers] at hold
        exact h.answers a hold
      | inr hnew =>
        rw [List.mem_singleton.mp hnew, hlooked.seen]
        exact hb
  cases result with
  | some b => exact hanswer b (htruthful b rfl)
  | none =>
    dsimp only
    split
    next htimedOut =>
      -- the time is over, and the command was completed before
      have herror : s.lastCmd ≠ .error := fun herror => nomatch hlooked.marked herror
      have hcompleted := (htime htimedOut).resolve_left herror
      have hfailed : (s.seen c).failed = false :=
        Bool.eq_false_iff.mpr (mt hlook.marked.mpr herror)
      exact hanswer true ⟨⟨fun _ => ⟨hlook.sent, hcompleted, hfailed⟩, fun _ => rfl⟩, nofun⟩
    next =>
      refine ⟨fun d hd hrecorded => ?_, ?_, fun d hd => ?_, fun a ha => ?_⟩
      · show (t.seen d).completed = true
        rw [hlooked.seen]
        exact hresults d (hd.congr hlooked.inPortIndex) hrecorded
      · show (t.seen _).sent = false
        rw [hlooked.seen]
        exact h.invalid
      · rw [← Option.some.inj hd]
        exact hknown.congr hlooked.inPortIndex.symm
      · change a ∈ t.answers at ha
        rw [hlooked.answers] at ha
        exact h.answers a ha

theorem Inv.handleEventError (h : Inv s) : Inv (handleEventError s) :=
  ⟨fun c hknown hrecorded => h.results c (hknown.congr rfl)
      (by cases c <;> exact hrecorded), h.invalid, h.waiting, h.answers⟩

theorem Inv.handleEventOther (h : Inv s) : Inv (handleEventOther s) :=
  ⟨fun c hknown hrecorded => h.results c (hknown.congr rfl)
      (by cases c <;> exact hrecorded), h.invalid, h.waiting, h.answers⟩

/-- **One step.** -/
theorem Inv.step {e : Event} (h : Inv s) (hkeeps : Keeps s e) (ht : step s e = some t) :
    Inv t := by
  cases e with
  | sendCmd c =>
    unfold CodecCmd.step at ht
    dsimp only at ht
    split at ht
    next => cases ht
    next => exact Option.some.inj ht ▸ h.sendCmd hkeeps
  | waitCmdResult c =>
    unfold CodecCmd.step at ht
    dsimp only at ht
    split at ht
    next => cases ht
    next => exact Option.some.inj ht ▸ h.waitRound hkeeps.1 hkeeps.2 nofun
  | wake =>
    obtain ⟨c, hc, rfl⟩ := Option.map_eq_some_iff.mp ht
    exact h.waitRound (h.waiting c hc) (hkeeps c hc) nofun
  | timeOut =>
    obtain ⟨c, hc, rfl⟩ := Option.map_eq_some_iff.mp ht
    obtain ⟨hlook, htime⟩ := hkeeps c hc
    exact h.waitRound (h.waiting c hc) hlook fun _ => htime
  | cmdComplete c => exact Option.some.inj ht ▸ h.handleEventCmdComplete hkeeps
  | otherComplete => exact Option.some.inj ht ▸ h.handleEventOther
  | error => exact Option.some.inj ht ▸ h.handleEventError

-- Every run

/-- **The answers are true**, and completions leave other results alone, in every run of steps that
meet the condition. -/
theorem answers_truthful (hkeeps : Runs.Along step Keeps (create inPortIndex) events)
    (hrun : Runs.run step (create inPortIndex) events = some s) :
    (∀ a ∈ s.answers, Truthful a) ∧ ∀ c, Keeps s (.cmdComplete c) → Undisturbed s c := by
  have hinv : Inv s := Runs.run_invariant (fun _ _ _ h hgood hstep => h.step hgood hstep)
    (inv_create inPortIndex) hkeeps hrun
  exact ⟨hinv.answers, fun _ hc => undisturbed hc⟩

def afterEvents (events : List Event) : State :=
  (Runs.run step (create 0) events).getD (create 0)

def flushBoth : List Event :=
  [.sendCmd (.port .flush 0), .waitCmdResult (.port .flush 0), .cmdComplete (.port .flush 0),
    .wake, .sendCmd (.port .flush 1), .cmdComplete (.port .flush 1),
    .waitCmdResult (.port .flush 1)]

theorem answers_truthful_flush :
    Runs.run step (create 0) flushBoth = some (afterEvents flushBoth) ∧
      (∀ a ∈ (afterEvents flushBoth).answers, Truthful a) ∧
      (afterEvents flushBoth).answers.map Answer.result = [true, true] := by
  have hinput : ∀ cmd, Command.port .flush 0 ≠ .port cmd 1 := by
    intro cmd h
    exact absurd (Command.port.inj h).2 (by decide)
  have hkeeps : Runs.Along step Keeps (create 0) flushBoth := by
    refine ⟨⟨.inl rfl, nofun⟩, ⟨.inl rfl, rfl, by decide, fun cmd h => absurd h (hinput cmd)⟩,
      ⟨.inl rfl, fun cmd h => absurd h (hinput cmd)⟩, fun c hc => ?_, ⟨.inr rfl, nofun⟩,
      ⟨.inr rfl, fun cmd h => ?_⟩, ⟨.inr rfl, rfl, by decide, fun cmd h _ => ?_⟩, trivial⟩
    · cases hc
      exact ⟨rfl, by decide, fun cmd h => absurd h (hinput cmd)⟩
    · rw [← (Command.port.inj h).1]
      rfl
    · rw [← (Command.port.inj h).1]
      rfl
  exact ⟨rfl, (answers_truthful hkeeps rfl).1, rfl⟩

def flushUnanswered : List Event :=
  [.sendCmd (.port .flush 0), .waitCmdResult (.port .flush 0), .timeOut]

theorem timed_out_wait_true :
    Runs.run step (create 0) flushUnanswered = some (afterEvents flushUnanswered) ∧
      ¬ ∀ a ∈ (afterEvents flushUnanswered).answers, Truthful a := by
  refine ⟨rfl, fun h => ?_⟩
  have htruthful := h ⟨.port .flush 0, true, true, ⟨true, false, false⟩⟩ (List.mem_singleton.mpr rfl)
  exact absurd (htruthful.true_iff.mp rfl).2.1 Bool.false_ne_true

end MediaFoundation.CodecCmd
