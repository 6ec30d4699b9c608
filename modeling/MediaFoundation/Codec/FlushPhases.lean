import MediaFoundation.Codec.AsyncMode
import MediaFoundation.Lib.Conveyor

/-!
# How far a flush has come

`FlushStart` stops the mode, empties and closes the input queue, and pauses the three tasks one
after the other; `FlushEnd` goes back the same way. What a task can do depends on how far the flush
has come, and a paused task is not in its handler.
-/

namespace MediaFoundation.AsyncMode

-- The phases of a flush

namespace Flush

def starting : Flush → Bool
  | .deactivateQueue | .testNeed | .notify | .pauseHandle | .awaitHandle | .deactivatePool
  | .pauseDecode | .awaitDecode | .pausePush | .awaitPush | .clearOutput | .flushed => true
  | _ => false

def queueClosed : Flush → Bool
  | .testNeed | .notify | .pauseHandle | .awaitHandle | .deactivatePool | .pauseDecode
  | .awaitDecode | .pausePush | .awaitPush | .clearOutput | .flushed | .activateQueue => true
  | _ => false

def handleHeld : Flush → Bool
  | .deactivatePool | .pauseDecode | .awaitDecode | .pausePush | .awaitPush | .clearOutput
  | .flushed | .activateQueue | .testNeedAgain | .notifyAgain | .startHandle => true
  | _ => false

def pushHeld : Flush → Bool
  | .clearOutput | .flushed | .activateQueue | .testNeedAgain | .notifyAgain | .startHandle
  | .activatePool | .startDecode | .startPush => true
  | _ => false

end Flush

def Task.Resting {η : Type} (t : Task η) : Prop :=
  t.runningState_ = .paused → ∀ at_, t.loop ≠ .handler at_

namespace Task

variable {η : Type} {t : Task η}

theorem Resting.leave (t : Task η) : t.leave.Resting := fun _ _ => nofun

theorem Resting.goto {pc : η} (h : t.Resting) (hpc : t.loop = .handler pc) (at_ : η) :
    (t.goto at_).Resting := fun hpaused => absurd hpc (h hpaused pc)

theorem Resting.turn (h : t.Resting) (first : η) : (t.turn first).Resting := by
  unfold Task.turn
  split
  next hloop =>
    intro hpaused at_
    simp only at hpaused ⊢
    rw [hpaused]
    exact nofun
  next => exact h
  next =>
    split
    · exact fun _ _ => nofun
    · exact fun _ _ => nofun
  next => exact fun _ _ => nofun

theorem Resting.pause (h : t.Resting) : t.pause.1.Resting := by
  unfold Task.pause
  split
  · exact nofun
  · exact h
  · exact h

theorem Resting.start (t : Task η) : t.start.Resting := nofun

theorem turn_paused (first : η) (h : t.runningState_ = .paused) :
    (t.turn first).runningState_ = .paused := by
  unfold Task.turn
  split
  · exact h
  · exact h
  · rw [if_neg (by rw [h]; decide)]
  · exact h

theorem pause_returns (h : t.pause.2 = false) : t.pause.1.runningState_ = .paused := by
  unfold Task.pause at h ⊢
  split at h
  · cases h
  · cases h
  next hpaused => exact hpaused

end Task

-- What holds at each block of a flush

structure Phases (s : System) : Prop where
  counts : s.history.flushStarts = s.history.flushEnds + s.flush.starting.toNat
  stopped : s.stopped_ = s.flush.starting
  active : s.inBufQue_.isActive = !s.flush.queueClosed
  cleared : s.flush.queueClosed = true → s.inBufQue_.que_ = []
  handlePaused : s.flush.handleHeld = true → s.handleFrameTask_.runningState_ = .paused
  pushPaused : s.flush.pushHeld = true → s.pushTask_.runningState_ = .paused
  handleRests : s.handleFrameTask_.Resting
  pushRests : s.pushTask_.Resting

namespace BlockingQueue

variable {q : BlockingQueue} {value : AVBuffer}

theorem push_spec (q : BlockingQueue) (value : AVBuffer) :
    q.isActive = false ∧ q.push value = (q, true) ∨
      q.isActive = true ∧ q.capacity_ ≤ q.que_.length ∧
        q.push value = ({ q with cvFull_ := false }, false) ∨
      q.isActive = true ∧ q.que_.length < q.capacity_ ∧
        q.push value = (q.enqueue value, true) := by
  unfold push
  grind

theorem pushWoken_spec (q : BlockingQueue) (value : AVBuffer) :
    q.isActive = false ∧ q.pushWoken value = (q, true) ∨
      q.isActive = true ∧ q.capacity_ ≤ q.que_.length ∧ q.pushWoken value = (q, false) ∨
      q.isActive = true ∧ q.que_.length < q.capacity_ ∧
        q.pushWoken value = (q.enqueue value, true) := by
  unfold pushWoken
  grind

theorem pop_spec (q : BlockingQueue) :
    q.isActive = false ∧ q.pop = (q, .returns none) ∨
      q.isActive = true ∧ q.que_ = [] ∧ q.pop = ({ q with cvEmpty_ := false }, .waits) ∨
      ∃ el rest, q.isActive = true ∧ q.que_ = el :: rest ∧
        q.pop = ({ q with que_ := rest, cvFull_ := true }, .returns (some el)) := by
  unfold pop
  grind

theorem popWoken_spec (q : BlockingQueue) :
    q.isActive = false ∧ q.popWoken = (q, .returns none) ∨
      q.isActive = true ∧ q.que_ = [] ∧ q.popWoken = (q, .waits) ∨
      ∃ el rest, q.isActive = true ∧ q.que_ = el :: rest ∧
        q.popWoken = ({ q with que_ := rest, cvFull_ := true }, .returns (some el)) := by
  unfold popWoken
  grind

@[simp] theorem clearUnprotected_que : q.clearUnprotected.que_ = [] := by
  unfold clearUnprotected
  split
  next h => exact List.isEmpty_iff.mp h
  next => rfl

@[simp] theorem clearUnprotected_isActive : q.clearUnprotected.isActive = q.isActive := by
  unfold clearUnprotected
  split <;> rfl

theorem setActive_capacity {active : Bool} : (q.setActive active).capacity_ = q.capacity_ := by
  unfold setActive clearUnprotected
  grind

theorem setActive_false :
    (q.setActive false).que_ = [] ∧ (q.setActive false).isActive = false := by
  simp [setActive]

theorem setActive_true :
    (q.setActive true).que_ = q.que_ ∧ (q.setActive true).isActive = true := ⟨rfl, rfl⟩

end BlockingQueue

namespace System

variable {s t : System}

theorem enterPushData_some {flag : UInt32} (h : s.enterPushData flag = some t) :
    s.pushData = .idle ∧ ∃ buffer : AVBuffer,
      buffer = ⟨flag, s.history.entered.length, s.history.flushStarts⟩ ∧
      t = { s with
        pushData := .entered buffer
        history := { s.history with entered := s.history.entered ++ [buffer] } } := by
  unfold enterPushData at h
  split at h
  next hidle => exact ⟨hidle, _, rfl, (Option.some.inj h).symm⟩
  next => cases h

theorem enterOutputDone_some {flag : UInt32} (h : s.enterOutputDone flag = some t) :
    s.outputDone = .idle ∧ ∃ buffer : AVBuffer,
      buffer = ⟨flag, s.history.produced.length, s.history.flushStarts⟩ ∧
      t = { s with
        outputDone := if buffer.eos then .deactivatePool buffer else .enqueue buffer
        history := { s.history with produced := s.history.produced ++ [buffer] } } := by
  unfold enterOutputDone at h
  split at h
  next hidle => exact ⟨hidle, _, rfl, (Option.some.inj h).symm⟩
  next => cases h

theorem enterFlushStart_some (h : s.enterFlushStart = some t) :
    s.flush = .idle ∧ t = { s with
      stopped_ := true
      flush := .deactivateQueue
      history := { s.history with flushStarts := s.history.flushStarts + 1 } } := by
  unfold enterFlushStart at h
  split at h
  next hidle => exact ⟨hidle, (Option.some.inj h).symm⟩
  next => cases h

theorem enterFlushEnd_some (h : s.enterFlushEnd = some t) :
    s.flush = .flushed ∧ t = { s with
      stopped_ := false
      flush := .activateQueue
      history := { s.history with flushEnds := s.history.flushEnds + 1 } } := by
  unfold enterFlushEnd at h
  split at h
  next hflushed => exact ⟨hflushed, (Option.some.inj h).symm⟩
  next => cases h

theorem pushDataBlock_some (h : s.pushDataBlock = some t) :
    ∃ que pc, t = { s with inBufQue_ := que, pushData := pc } := by
  unfold pushDataBlock at h
  split at h
  · cases h
  all_goals
    cases h
    exact ⟨_, _, rfl⟩

theorem handleFrameBlock_eq (s : System) (status : Status) :
    ∃ que need notified task handed,
      s.handleFrameBlock status = { s with
        inBufQue_ := que
        isNeedQueueInputBuffer_ := need
        cv_ := notified
        handleFrameTask_ := task
        history := { s.history with handed } } ∧
      (handed = s.history.handed ∨ ∃ oneBuffer taken,
        s.handleFrameTask_.loop = .handler (.queueInput oneBuffer) ∧
        handed = s.history.handed ++ [⟨oneBuffer, s.history.flushEnds, taken⟩]) := by
  unfold handleFrameBlock
  split
  case h_3 oneBuffer hpc => exact ⟨_, _, _, _, _, rfl, .inr ⟨oneBuffer, _, hpc, rfl⟩⟩
  all_goals exact ⟨_, _, _, _, _, rfl, .inl rfl⟩

theorem decodeFrameBlock_eq (s : System) (valid : Bool) (status : Status) :
    ∃ pool notified task, s.decodeFrameBlock valid status =
      { s with cv_ := notified, outBufPool_ := pool, decodeFrameTask_ := task } ∧
      (s.cv_ = true → notified = true) := by
  unfold decodeFrameBlock
  split
  case h_3 => split <;> exact ⟨_, _, _, rfl, id⟩
  case h_5 => exact ⟨_, _, _, rfl, fun _ => rfl⟩
  all_goals exact ⟨_, _, _, rfl, id⟩

theorem finishFrameBlock_eq (s : System) :
    ∃ que task delivered,
      s.finishFrameBlock = { s with
        outBufQue_ := que
        pushTask_ := task
        history := { s.history with delivered } } ∧
      (delivered = s.history.delivered ∨ ∃ frameBuffer,
        s.pushTask_.loop = .handler (.pushData frameBuffer) ∧
        delivered = s.history.delivered ++ [⟨frameBuffer, s.history.flushEnds⟩]) := by
  unfold finishFrameBlock
  split
  case h_1 => split <;> exact ⟨_, _, _, rfl, .inl rfl⟩
  case h_2 frameBuffer hpc =>
    split
    · exact ⟨_, _, _, rfl, .inr ⟨frameBuffer, hpc, rfl⟩⟩
    · exact ⟨_, _, _, rfl, .inl rfl⟩
  all_goals exact ⟨_, _, _, rfl, .inl rfl⟩

theorem outputDoneBlock_some (h : s.outputDoneBlock = some t) :
    ∃ need notified pool que task pc, t = { s with
      isNeedQueueInputBuffer_ := need
      cv_ := notified
      outBufPool_ := pool
      outBufQue_ := que
      decodeFrameTask_ := task
      outputDone := pc } ∧
      (s.cv_ = true → notified = true) := by
  unfold outputDoneBlock at h
  split at h
  · cases h
  case h_6 =>
    cases h
    exact ⟨_, _, _, _, _, _, rfl, fun _ => rfl⟩
  all_goals
    cases h
    exact ⟨_, _, _, _, _, _, rfl, id⟩

/-- A flush leaves the other threads where they are in their calls. -/
theorem flushBlock_some (h : s.flushBlock = some t) :
    ∃ que need notified pool out handle decode push pc, t = { s with
      inBufQue_ := que
      isNeedQueueInputBuffer_ := need
      cv_ := notified
      outBufPool_ := pool
      outBufQue_ := out
      handleFrameTask_ := handle
      decodeFrameTask_ := decode
      pushTask_ := push
      flush := pc } := by
  unfold flushBlock at h
  split at h
  case h_6 | h_9 | h_11 =>
    split at h
    · cases h
      exact ⟨_, _, _, _, _, _, _, _, _, rfl⟩
    · cases h
  case h_1 | h_13 => cases h
  all_goals
    cases h
    exact ⟨_, _, _, _, _, _, _, _, _, rfl⟩

theorem release_some (h : s.release = some t) :
    t = { s with outBufPool_ := s.outBufPool_.recycleBuffer } := by
  unfold release at h
  split at h
  · cases h
  · exact (Option.some.inj h).symm

end System

namespace Phases

variable {s t : System}

theorem configured (capacity freeBuffers lent : Nat) (outPortPushes : Bool) :
    Phases (configured capacity freeBuffers lent outPortPushes) where
  counts := rfl
  stopped := rfl
  active := rfl
  cleared := nofun
  handlePaused := nofun
  pushPaused := nofun
  handleRests := nofun
  pushRests := nofun

theorem inactive (h : Phases s) (hclosed : s.flush.queueClosed = true) :
    s.inBufQue_.isActive = false := by
  rw [h.active, hclosed]
  rfl

theorem afterPush (h : Phases s) (buffer : AVBuffer) {r : BlockingQueue × Bool}
    (hactive : r.1.isActive = s.inBufQue_.isActive)
    (hclosed : s.inBufQue_.isActive = false → r.1.que_ = s.inBufQue_.que_) :
    Phases (s.afterPush buffer r) :=
  { h with
    active := hactive.trans h.active
    cleared := fun hq => (hclosed (h.inactive hq)).trans (h.cleared hq) }

theorem pushDataBlock (h : Phases s) (hstep : s.pushDataBlock = some t) : Phases t := by
  unfold System.pushDataBlock at hstep
  split at hstep
  next => cases hstep
  next => cases hstep; exact { h with }
  next buffer hpc =>
    cases hstep
    have hspec := BlockingQueue.push_spec s.inBufQue_ buffer
    exact h.afterPush buffer (by grind [BlockingQueue.enqueue]) (by grind)
  next buffer hpc =>
    cases hstep
    have hspec := BlockingQueue.pushWoken_spec s.inBufQue_ buffer
    exact h.afterPush buffer (by grind [BlockingQueue.enqueue]) (by grind)

theorem afterPop (h : Phases s) {pc : HandleFrame} (hpc : s.handleFrameTask_.loop = .handler pc)
    {r : BlockingQueue × BlockingQueue.Popped} (hactive : r.1.isActive = s.inBufQue_.isActive)
    (hclosed : s.inBufQue_.isActive = false → r.1.que_ = s.inBufQue_.que_) :
    Phases (s.afterPop r) := by
  have hrests : (s.afterPop r).handleFrameTask_.Resting := by
    unfold System.afterPop
    dsimp only
    split
    · exact h.handleRests.goto hpc _
    · exact Task.Resting.leave _
    · exact h.handleRests.goto hpc _
  have hstate : (s.afterPop r).handleFrameTask_.runningState_ =
      s.handleFrameTask_.runningState_ := by
    unfold System.afterPop
    dsimp only
    split <;> rfl
  exact { h with
    active := hactive.trans h.active
    cleared := fun hq => (hclosed (h.inactive hq)).trans (h.cleared hq)
    handlePaused := fun hheld => hstate.trans (h.handlePaused hheld)
    handleRests := hrests }

theorem handleFrameBlock (h : Phases s) (status : Status) :
    Phases (s.handleFrameBlock status) := by
  unfold System.handleFrameBlock
  split
  next hpc =>
    have hspec := BlockingQueue.pop_spec s.inBufQue_
    exact h.afterPop hpc (by grind) (by grind)
  next hpc =>
    have hspec := BlockingQueue.popWoken_spec s.inBufQue_
    exact h.afterPop hpc (by grind) (by grind)
  next hpc => exact { h with handleRests := h.handleRests.goto hpc _ }
  next hpc => exact { h with handleRests := h.handleRests.goto hpc _ }
  next hpc => exact { h with handleRests := h.handleRests.goto hpc _ }
  next hpc => exact { h with handleRests := h.handleRests.goto hpc _ }
  next oneBuffer hpc =>
    exact { h with
      handlePaused := fun hheld => absurd hpc (h.handleRests (h.handlePaused hheld) _)
      handleRests := Task.Resting.leave _ }
  next =>
    exact { h with
      handlePaused := fun hheld => Task.turn_paused _ (h.handlePaused hheld)
      handleRests := h.handleRests.turn _ }

theorem decodeFrameBlock (h : Phases s) (valid : Bool) (status : Status) :
    Phases (s.decodeFrameBlock valid status) := by
  obtain ⟨pool, notified, task, heq, -⟩ := s.decodeFrameBlock_eq valid status
  rw [heq]
  exact { h with }

theorem finishFrameBlock (h : Phases s) : Phases s.finishFrameBlock := by
  unfold System.finishFrameBlock
  split
  next hpc =>
    split
    · exact { h with pushRests := Task.Resting.leave _ }
    · exact { h with pushRests := h.pushRests.goto hpc _ }
  next hpc =>
    split
    · exact { h with pushRests := h.pushRests.goto hpc _ }
    · exact { h with pushRests := Task.Resting.leave _ }
  next hpc =>
    exact { h with
      pushPaused := fun hheld => absurd hpc (h.pushRests (h.pushPaused hheld) _)
      pushRests := Task.Resting.leave _ }
  next =>
    exact { h with
      pushPaused := fun hheld => Task.turn_paused _ (h.pushPaused hheld)
      pushRests := h.pushRests.turn _ }

theorem outputDoneBlock (h : Phases s) (hstep : s.outputDoneBlock = some t) : Phases t := by
  obtain ⟨need, notified, pool, que, task, pc, rfl, -⟩ := System.outputDoneBlock_some hstep
  exact { h with }

theorem enterFlushStart (h : Phases s) (hstep : s.enterFlushStart = some t) : Phases t := by
  obtain ⟨hidle, rfl⟩ := System.enterFlushStart_some hstep
  have hcounts := h.counts
  have hactive := h.active
  rw [hidle] at hcounts hactive
  exact { h with
    counts := congrArg (· + 1) hcounts
    stopped := rfl
    active := hactive
    cleared := nofun
    handlePaused := nofun
    pushPaused := nofun }

theorem enterFlushEnd (h : Phases s) (hstep : s.enterFlushEnd = some t) : Phases t := by
  obtain ⟨hflushed, rfl⟩ := System.enterFlushEnd_some hstep
  have hcounts := h.counts
  have hactive := h.active
  have hcleared := h.cleared
  have hhandle := h.handlePaused
  have hpush := h.pushPaused
  rw [hflushed] at hcounts hactive hcleared hhandle hpush
  exact { h with
    counts := hcounts
    stopped := rfl
    active := hactive
    cleared := hcleared
    handlePaused := hhandle
    pushPaused := hpush }

theorem flushBlock (h : Phases s) (hstep : s.flushBlock = some t) : Phases t := by
  obtain ⟨counts, stopped, active, cleared, handlePaused, pushPaused, handleRests, pushRests⟩ := h
  have hclosed := @BlockingQueue.setActive_false s.inBufQue_
  have hopened := @BlockingQueue.setActive_true s.inBufQue_
  have hhandle := handleRests.pause
  have hpush := pushRests.pause
  have hhandleReturns := @Task.pause_returns _ s.handleFrameTask_
  have hpushReturns := @Task.pause_returns _ s.pushTask_
  have hhandleStarts := Task.Resting.start s.handleFrameTask_
  have hpushStarts := Task.Resting.start s.pushTask_
  unfold System.flushBlock at hstep
  split at hstep
  all_goals
    rename_i hflush
    simp only [hflush] at counts stopped active cleared handlePaused pushPaused
  all_goals try (split at hstep)
  all_goals cases hstep
  all_goals constructor
  all_goals try assumption
  all_goals simp_all [Flush.starting, Flush.queueClosed, Flush.handleHeld, Flush.pushHeld]

theorem step (h : Phases s) {l : Label} (hstep : step s l = some t) : Phases t := by
  cases l with
  | enterPushData flag =>
    obtain ⟨-, buffer, -, rfl⟩ := System.enterPushData_some hstep
    exact { h with }
  | pushData => exact h.pushDataBlock hstep
  | handleFrame status => exact Option.some.inj hstep ▸ h.handleFrameBlock status
  | decodeFrame valid status => exact Option.some.inj hstep ▸ h.decodeFrameBlock valid status
  | finishFrame => exact Option.some.inj hstep ▸ h.finishFrameBlock
  | enterOutputDone flag =>
    obtain ⟨-, buffer, -, rfl⟩ := System.enterOutputDone_some hstep
    exact { h with }
  | outputDone => exact h.outputDoneBlock hstep
  | enterFlushStart => exact h.enterFlushStart hstep
  | enterFlushEnd => exact h.enterFlushEnd hstep
  | flush => exact h.flushBlock hstep
  | release =>
    obtain rfl := System.release_some hstep
    exact { h with }

end Phases

-- The two conveyors

def PushData.pending : PushData → List AVBuffer
  | .idle => []
  | .entered buffer | .pushing buffer | .waiting buffer => [buffer]

def HandleFrame.held : HandleFrame → List AVBuffer
  | .queueInput oneBuffer | .refused oneBuffer | .beforeWait oneBuffer | .waiting oneBuffer =>
    [oneBuffer]
  | _ => []

def FinishFrame.held : FinishFrame → List AVBuffer
  | .pushData frameBuffer => [frameBuffer]
  | _ => []

def OnOutputBufferDone.pending : OnOutputBufferDone → List AVBuffer
  | .deactivatePool buffer | .pauseDecode buffer | .enqueue buffer => [buffer]
  | _ => []

def Loop.held {η : Type} (held : η → List AVBuffer) : Loop η → List AVBuffer
  | .handler at_ => held at_
  | _ => []

namespace System

def accepted (s : System) : List AVBuffer :=
  (s.history.handed.filter Handed.taken).map Handed.buffer

def pushedDownstream (s : System) : List AVBuffer := s.history.delivered.map Delivered.buffer

def inputs (s : System) : Conveyor AVBuffer where
  entered := s.history.entered
  pending := s.pushData.pending
  queued := s.inBufQue_.que_
  hand := s.handleFrameTask_.loop.held HandleFrame.held
  delivered := s.accepted

def outputs (s : System) : Conveyor AVBuffer where
  entered := s.history.produced
  pending := s.outputDone.pending
  queued := s.outBufQue_
  hand := s.pushTask_.loop.held FinishFrame.held
  delivered := s.pushedDownstream

def dropsOutputs (s : System) : Prop := s.flush = .clearOutput ∨ s.outPortPushes = false

end System

theorem Task.pause_loop {η : Type} (t : Task η) : t.pause.1.loop = t.loop := by
  unfold Task.pause
  split <;> rfl

theorem Task.turn_held {η : Type} (held : η → List AVBuffer) {first : η} {t : Task η}
    (hfirst : held first = []) : (t.turn first).loop.held held = t.loop.held held := by
  unfold Task.turn
  split
  next hloop =>
    dsimp only
    rw [hloop]
    split
    · exact hfirst
    · rfl
  next => rfl
  next hloop =>
    rw [hloop]
    split <;> rfl
  next hloop =>
    rw [hloop]
    rfl

section Moves

open Conveyor

variable {s t : System}

theorem Phases.flushing_of_stopped (h : Phases s) (hstopped : s.stopped_ = true) :
    s.flush ≠ .idle := by
  intro hidle
  rw [h.stopped, hidle] at hstopped
  cases hstopped

theorem Phases.flushing_of_inactive (h : Phases s) (hactive : s.inBufQue_.isActive = false) :
    s.flush ≠ .idle := by
  intro hidle
  rw [h.active, hidle] at hactive
  cases hactive

theorem inputs_pending {pc : PushData} (h : s.pushData = pc) : s.inputs.pending = pc.pending :=
  congrArg PushData.pending h

theorem afterPush_move (h : Phases s) {buffer : AVBuffer} (hpc : s.inputs.pending = [buffer])
    {r : BlockingQueue × Bool}
    (hr : s.inBufQue_.isActive = false ∧ r = (s.inBufQue_, true) ∨
      (∃ q, q.que_ = s.inBufQue_.que_ ∧ r = (q, false)) ∨
      r = (s.inBufQue_.enqueue buffer, true)) :
    Move (s.flush ≠ .idle) s.inputs (s.afterPush buffer r).inputs := by
  rcases hr with ⟨hactive, rfl⟩ | ⟨q, hque, rfl⟩ | rfl
  · exact .of_eq (.giveUp _ (h.flushing_of_inactive hactive)) rfl
  · exact .of_eq (.same _) (Conveyor.ext rfl hpc.symm hque rfl rfl)
  · exact .of_eq (.enqueue _)
      (Conveyor.ext rfl rfl (congrArg (s.inBufQue_.que_ ++ ·) hpc.symm) rfl rfl)

theorem pushDataBlock_move (h : Phases s) (hstep : s.pushDataBlock = some t) :
    Move (s.flush ≠ .idle) s.inputs t.inputs := by
  unfold System.pushDataBlock at hstep
  split at hstep
  next => cases hstep
  next buffer hpc =>
    cases hstep
    by_cases hstopped : s.stopped_ = true
    · rw [if_pos hstopped]
      exact .of_eq (.giveUp _ (h.flushing_of_stopped hstopped)) rfl
    · rw [if_neg hstopped]
      exact .of_eq (.same _) (Conveyor.ext rfl (inputs_pending hpc).symm rfl rfl rfl)
  next buffer hpc =>
    cases hstep
    have hspec := BlockingQueue.push_spec s.inBufQue_ buffer
    exact afterPush_move h (inputs_pending hpc) (by grind)
  next buffer hpc =>
    cases hstep
    have hspec := BlockingQueue.pushWoken_spec s.inBufQue_ buffer
    exact afterPush_move h (inputs_pending hpc) (by grind)

theorem afterPop_move {emptying : Prop} (hhand : s.inputs.hand = [])
    {r : BlockingQueue × BlockingQueue.Popped}
    (hr : (∃ q, q.que_ = s.inBufQue_.que_ ∧ (r = (q, .waits) ∨ r = (q, .returns none))) ∨
      ∃ q el rest, s.inBufQue_.que_ = el :: rest ∧ q.que_ = rest ∧ r = (q, .returns (some el))) :
    Move emptying s.inputs (s.afterPop r).inputs := by
  rcases hr with ⟨q, hque, rfl | rfl⟩ | ⟨q, el, rest, hque, rfl, rfl⟩
  · exact .of_eq (.same _) (Conveyor.ext rfl rfl hque hhand.symm rfl)
  · exact .of_eq (.same _) (Conveyor.ext rfl rfl hque hhand.symm rfl)
  · exact .of_eq (.take _ el q.que_ hhand hque) rfl

theorem inputs_hand {l : Loop HandleFrame} (h : s.handleFrameTask_.loop = l) :
    s.inputs.hand = l.held HandleFrame.held := congrArg (Loop.held HandleFrame.held) h

theorem handleFrameBlock_move (h : Phases s) (status : Status) :
    Move (s.flush ≠ .idle) s.inputs (s.handleFrameBlock status).inputs := by
  unfold System.handleFrameBlock
  split
  next hpc =>
    have hspec := BlockingQueue.pop_spec s.inBufQue_
    exact afterPop_move (inputs_hand hpc) (by grind)
  next hpc =>
    have hspec := BlockingQueue.popWoken_spec s.inBufQue_
    exact afterPop_move (inputs_hand hpc) (by grind)
  next oneBuffer hpc =>
    by_cases hagain : status = .errorAgain
    · subst hagain
      refine .of_eq (.same _) (Conveyor.ext rfl rfl rfl (inputs_hand hpc).symm ?_)
      simp [System.inputs, System.accepted]
    · refine .of_eq (.deliver _) (Conveyor.ext rfl rfl rfl ?_ ?_)
      · rw [if_neg hagain]
        rfl
      · show _ = s.accepted ++ s.inputs.hand
        rw [inputs_hand hpc]
        simp [System.inputs, System.accepted, hagain, Loop.held, HandleFrame.held]
  next oneBuffer hpc =>
    by_cases hstopped : s.stopped_ = true
    · rw [if_pos hstopped]
      exact .of_eq (.discard _ (h.flushing_of_stopped hstopped)) rfl
    · rw [if_neg hstopped]
      exact .of_eq (.same _) (Conveyor.ext rfl rfl rfl (inputs_hand hpc).symm rfl)
  next hpc => exact .of_eq (.same _) (Conveyor.ext rfl rfl rfl (inputs_hand hpc).symm rfl)
  next hpc => exact .of_eq (.same _) (Conveyor.ext rfl rfl rfl (inputs_hand hpc).symm rfl)
  next hpc => exact .of_eq (.same _) (Conveyor.ext rfl rfl rfl (inputs_hand hpc).symm rfl)
  next => exact .of_eq (.same _) (Conveyor.ext rfl rfl rfl (Task.turn_held _ rfl) rfl)

theorem flushBlock_inputs (hstep : s.flushBlock = some t) :
    Move (s.flush ≠ .idle) s.inputs t.inputs := by
  unfold System.flushBlock at hstep
  split at hstep
  all_goals rename_i hflush
  all_goals try (split at hstep)
  all_goals cases hstep
  case _ =>
    refine .of_eq (.clear _ (by rw [hflush]; exact nofun)) ?_
    exact Conveyor.ext rfl rfl BlockingQueue.setActive_false.1 rfl rfl
  all_goals refine .of_eq (.same _) (Conveyor.ext rfl rfl rfl ?_ rfl)
  all_goals first
    | rfl
    | exact congrArg (Loop.held HandleFrame.held) (Task.pause_loop _)

theorem decodeFrameBlock_inputs (valid : Bool) (status : Status) :
    (s.decodeFrameBlock valid status).inputs = s.inputs := by
  obtain ⟨pool, notified, task, heq, -⟩ := s.decodeFrameBlock_eq valid status
  rw [heq]
  rfl

theorem finishFrameBlock_inputs : s.finishFrameBlock.inputs = s.inputs := by
  obtain ⟨que, task, delivered, heq, -⟩ := s.finishFrameBlock_eq
  rw [heq]
  rfl

theorem outputDoneBlock_inputs (hstep : s.outputDoneBlock = some t) : t.inputs = s.inputs := by
  obtain ⟨need, notified, pool, que, task, pc, rfl, -⟩ := System.outputDoneBlock_some hstep
  rfl

/-- **Every block moves the inputs**, and only a flush loses any of them. -/
theorem inputs_move (h : Phases s) {l : Label} (hstep : step s l = some t) :
    Move (s.flush ≠ .idle) s.inputs t.inputs := by
  cases l with
  | enterPushData flag =>
    obtain ⟨hidle, buffer, -, rfl⟩ := System.enterPushData_some hstep
    exact .of_eq (.enter _ buffer (inputs_pending hidle)) rfl
  | pushData => exact pushDataBlock_move h hstep
  | handleFrame status => exact Option.some.inj hstep ▸ handleFrameBlock_move h status
  | decodeFrame valid status =>
    exact Option.some.inj hstep ▸ .of_eq (.same _) (decodeFrameBlock_inputs valid status)
  | finishFrame => exact Option.some.inj hstep ▸ .of_eq (.same _) finishFrameBlock_inputs
  | enterOutputDone flag =>
    obtain ⟨-, buffer, -, rfl⟩ := System.enterOutputDone_some hstep
    exact .same _
  | outputDone => exact .of_eq (.same _) (outputDoneBlock_inputs hstep)
  | enterFlushStart =>
    obtain ⟨-, rfl⟩ := System.enterFlushStart_some hstep
    exact .same _
  | enterFlushEnd =>
    obtain ⟨-, rfl⟩ := System.enterFlushEnd_some hstep
    exact .same _
  | flush => exact flushBlock_inputs hstep
  | release =>
    obtain rfl := System.release_some hstep
    exact .same _

theorem outputs_pending {pc : OnOutputBufferDone} (h : s.outputDone = pc) :
    s.outputs.pending = pc.pending := congrArg OnOutputBufferDone.pending h

theorem outputs_hand {l : Loop FinishFrame} (h : s.pushTask_.loop = l) :
    s.outputs.hand = l.held FinishFrame.held := congrArg (Loop.held FinishFrame.held) h

theorem finishFrameBlock_move : Move s.dropsOutputs s.outputs s.finishFrameBlock.outputs := by
  unfold System.finishFrameBlock
  split
  next hpc =>
    split
    next hque => exact .of_eq (.same _) (Conveyor.ext rfl rfl rfl (outputs_hand hpc).symm rfl)
    next frameBuffer rest hque => exact .of_eq (.take _ frameBuffer rest (outputs_hand hpc) hque) rfl
  next frameBuffer hpc =>
    split
    next hpushes =>
      refine .of_eq (.deliver _) (Conveyor.ext rfl rfl rfl rfl ?_)
      show _ = s.pushedDownstream ++ s.outputs.hand
      rw [outputs_hand hpc]
      exact List.map_append
    next hpulls => exact .of_eq (.discard _ (.inr (Bool.not_eq_true _ ▸ hpulls))) rfl
  next frameBuffer hpc =>
    exact .of_eq (.same _) (Conveyor.ext rfl rfl rfl (outputs_hand hpc).symm rfl)
  next => exact .of_eq (.same _) (Conveyor.ext rfl rfl rfl (Task.turn_held _ rfl) rfl)

theorem outputDoneBlock_move (hstep : s.outputDoneBlock = some t) :
    Move s.dropsOutputs s.outputs t.outputs := by
  unfold System.outputDoneBlock at hstep
  split at hstep
  all_goals
    rename_i hpc
    cases hstep
  case _ buffer => exact .of_eq (.same _) (Conveyor.ext rfl (outputs_pending hpc).symm rfl rfl rfl)
  case _ buffer => exact .of_eq (.same _) (Conveyor.ext rfl (outputs_pending hpc).symm rfl rfl rfl)
  case _ buffer =>
    refine .of_eq (.enqueue _) (Conveyor.ext rfl rfl ?_ rfl rfl)
    exact congrArg (s.outBufQue_ ++ ·) (outputs_pending hpc).symm
  case _ =>
    refine .of_eq (.same _) (Conveyor.ext rfl ?_ rfl rfl rfl)
    rw [outputs_pending hpc]
    cases s.isNeedQueueInputBuffer_ <;> rfl
  case _ => exact .of_eq (.same _) (Conveyor.ext rfl (outputs_pending hpc).symm rfl rfl rfl)

theorem flushBlock_outputs (hstep : s.flushBlock = some t) :
    Move s.dropsOutputs s.outputs t.outputs := by
  unfold System.flushBlock at hstep
  split at hstep
  all_goals rename_i hflush
  all_goals try (split at hstep)
  all_goals cases hstep
  case h_12 => exact .of_eq (.clear _ (.inl hflush)) rfl
  all_goals refine .of_eq (.same _) (Conveyor.ext rfl rfl rfl ?_ rfl)
  all_goals first
    | rfl
    | exact congrArg (Loop.held FinishFrame.held) (Task.pause_loop _)

theorem pushDataBlock_outputs (hstep : s.pushDataBlock = some t) : t.outputs = s.outputs := by
  obtain ⟨que, pc, rfl⟩ := System.pushDataBlock_some hstep
  rfl

theorem handleFrameBlock_outputs (status : Status) :
    (s.handleFrameBlock status).outputs = s.outputs := by
  obtain ⟨que, need, notified, task, handed, heq, -⟩ := s.handleFrameBlock_eq status
  rw [heq]
  rfl

theorem decodeFrameBlock_outputs (valid : Bool) (status : Status) :
    (s.decodeFrameBlock valid status).outputs = s.outputs := by
  obtain ⟨pool, notified, task, heq, -⟩ := s.decodeFrameBlock_eq valid status
  rw [heq]
  rfl

/-- **Every block moves the outputs.** -/
theorem outputs_move {l : Label} (hstep : step s l = some t) :
    Move s.dropsOutputs s.outputs t.outputs := by
  cases l with
  | enterPushData flag =>
    obtain ⟨-, buffer, -, rfl⟩ := System.enterPushData_some hstep
    exact .same _
  | pushData => exact .of_eq (.same _) (pushDataBlock_outputs hstep)
  | handleFrame status =>
    exact Option.some.inj hstep ▸ .of_eq (.same _) (handleFrameBlock_outputs status)
  | decodeFrame valid status =>
    exact Option.some.inj hstep ▸ .of_eq (.same _) (decodeFrameBlock_outputs valid status)
  | finishFrame => exact Option.some.inj hstep ▸ finishFrameBlock_move
  | enterOutputDone flag =>
    obtain ⟨hidle, buffer, -, rfl⟩ := System.enterOutputDone_some hstep
    refine .of_eq (.enter _ buffer (outputs_pending hidle)) (Conveyor.ext rfl ?_ rfl rfl rfl)
    show OnOutputBufferDone.pending (if buffer.eos then _ else _) = [buffer]
    split <;> rfl
  | outputDone => exact outputDoneBlock_move hstep
  | enterFlushStart =>
    obtain ⟨-, rfl⟩ := System.enterFlushStart_some hstep
    exact .same _
  | enterFlushEnd =>
    obtain ⟨-, rfl⟩ := System.enterFlushEnd_some hstep
    exact .same _
  | flush => exact flushBlock_outputs hstep
  | release =>
    obtain rfl := System.release_some hstep
    exact .same _

end Moves

end MediaFoundation.AsyncMode
