import MediaFoundation.Codec.FlushPhases

/-!
# A flush separates the buffers

`FlushStart` waits until the three tasks have paused, but not for a `PushData` or an
`OnOutputBufferDone` that was entered before it. A `PushData` that has passed the test of `stopped_`,
or that waits for room in the input queue, queues its buffer when `FlushEnd` has opened the queue
again; an `OnOutputBufferDone` queues its output after the output queue has been cleared, or pauses
the decode task after `FlushEnd` has started it.
-/

namespace MediaFoundation.AsyncMode

open Conveyor

/-- When a flush opens the input queue again, no `PushData` from before it is on its way; when it
clears the output queue, no `OnOutputBufferDone` from before it has yet to queue its buffer. -/
def FlushesAlone (s : System) (l : Label) : Prop :=
  l = .flush →
    (s.flush = .activateQueue → ∀ b ∈ s.pushData.pending, s.history.flushStarts ≤ b.flushes) ∧
    (s.flush = .clearOutput → ∀ b ∈ s.outputDone.pending, s.history.flushStarts ≤ b.flushes)

instance (s : System) (l : Label) : Decidable (FlushesAlone s l) :=
  inferInstanceAs (Decidable (_ → _))

-- What the blocks record

/-- What a block of a thread that does not flush adds to the history. -/
inductive Recorded (s : System) : History → Prop where
  | nothing : Recorded s s.history
  | entered (flag : UInt32) : Recorded s
      { s.history with entered :=
          s.history.entered ++ [⟨flag, s.history.entered.length, s.history.flushStarts⟩] }
  | handed (oneBuffer : AVBuffer) (taken : Bool)
      (hpc : s.handleFrameTask_.loop = .handler (.queueInput oneBuffer)) : Recorded s
      { s.history with handed := s.history.handed ++ [⟨oneBuffer, s.history.flushEnds, taken⟩] }
  | produced (flag : UInt32) : Recorded s
      { s.history with produced :=
          s.history.produced ++ [⟨flag, s.history.produced.length, s.history.flushStarts⟩] }
  | delivered (frameBuffer : AVBuffer)
      (hpc : s.pushTask_.loop = .handler (.pushData frameBuffer)) : Recorded s
      { s.history with delivered := s.history.delivered ++ [⟨frameBuffer, s.history.flushEnds⟩] }

def Label.serves : Label → Bool
  | .enterFlushStart | .enterFlushEnd | .flush => false
  | _ => true

section Records

variable {s t : System} {l : Label} {g : History}

theorem step_serves (hstep : step s l = some t) (hserves : l.serves = true) :
    t.flush = s.flush ∧ t.outPortPushes = s.outPortPushes ∧ Recorded s t.history := by
  cases l with
  | enterPushData flag =>
    obtain ⟨-, buffer, rfl, rfl⟩ := System.enterPushData_some hstep
    exact ⟨rfl, rfl, .entered flag⟩
  | pushData =>
    obtain ⟨que, pc, rfl⟩ := System.pushDataBlock_some hstep
    exact ⟨rfl, rfl, .nothing⟩
  | handleFrame status =>
    obtain ⟨que, need, notified, task, handed, heq, hhanded⟩ := s.handleFrameBlock_eq status
    obtain rfl := heq.symm.trans (Option.some.inj hstep)
    rcases hhanded with rfl | ⟨oneBuffer, taken, hpc, rfl⟩
    · exact ⟨rfl, rfl, .nothing⟩
    · exact ⟨rfl, rfl, .handed oneBuffer taken hpc⟩
  | decodeFrame valid status =>
    obtain ⟨pool, notified, task, heq, -⟩ := s.decodeFrameBlock_eq valid status
    obtain rfl := heq.symm.trans (Option.some.inj hstep)
    exact ⟨rfl, rfl, .nothing⟩
  | finishFrame =>
    obtain ⟨que, task, delivered, heq, hdelivered⟩ := s.finishFrameBlock_eq
    obtain rfl := heq.symm.trans (Option.some.inj hstep)
    rcases hdelivered with rfl | ⟨frameBuffer, hpc, rfl⟩
    · exact ⟨rfl, rfl, .nothing⟩
    · exact ⟨rfl, rfl, .delivered frameBuffer hpc⟩
  | enterOutputDone flag =>
    obtain ⟨-, buffer, rfl, rfl⟩ := System.enterOutputDone_some hstep
    exact ⟨rfl, rfl, .produced flag⟩
  | outputDone =>
    obtain ⟨need, notified, pool, que, task, pc, rfl, -⟩ := System.outputDoneBlock_some hstep
    exact ⟨rfl, rfl, .nothing⟩
  | enterFlushStart | enterFlushEnd | flush => cases hserves
  | release =>
    obtain rfl := System.release_some hstep
    exact ⟨rfl, rfl, .nothing⟩

theorem Recorded.flushes_eq (h : Recorded s g) :
    g.flushStarts = s.history.flushStarts ∧ g.flushEnds = s.history.flushEnds := by
  cases h <;> exact ⟨rfl, rfl⟩

theorem Recorded.entered_flushes (h : Recorded s g) {b : AVBuffer}
    (hb : g.entered = s.history.entered ++ [b]) : b.flushes = s.history.flushStarts := by
  cases h with
  | entered flag =>
    obtain rfl := List.singleton_inj.mp (List.append_cancel_left hb)
    rfl
  | _ => simp at hb

theorem Recorded.produced_flushes (h : Recorded s g) {b : AVBuffer}
    (hb : g.produced = s.history.produced ++ [b]) : b.flushes = s.history.flushStarts := by
  cases h with
  | produced flag =>
    obtain rfl := List.singleton_inj.mp (List.append_cancel_left hb)
    rfl
  | _ => simp at hb

end Records

-- The buffers inside are younger than the last flush

/-- How often `FlushEnd` has opened the input queue. -/
def System.reopened (s : System) : Nat :=
  s.history.flushEnds - if s.flush = .activateQueue then 1 else 0

structure Fresh (s : System) : Prop where
  inputs : ∀ b ∈ s.inputs.inside, s.reopened ≤ b.flushes
  outputs : ∀ b ∈ s.outputs.inside, s.history.flushEnds ≤ b.flushes
  cleared : s.flush = .flushed → ∀ b ∈ s.outputs.inside, s.history.flushStarts ≤ b.flushes
  handed : ∀ h ∈ s.history.handed, h.flushEnds ≤ h.buffer.flushes
  delivered : ∀ d ∈ s.history.delivered, d.flushEnds ≤ d.buffer.flushes

namespace Fresh

variable {s t : System} {l : Label}

theorem configured (capacity freeBuffers lent : Nat) (outPortPushes : Bool) :
    Fresh (configured capacity freeBuffers lent outPortPushes) :=
  ⟨nofun, nofun, nofun, nofun, nofun⟩

/-- While the input queue is closed, `HandleFrame` hands no buffer to the plug-in. -/
theorem reopened_of_handler (hphases : Phases s) {pc : HandleFrame}
    (hpc : s.handleFrameTask_.loop = .handler pc) : s.reopened = s.history.flushEnds := by
  have hflush : s.flush ≠ .activateQueue := by
    intro hflush
    exact hphases.handleRests (hphases.handlePaused (by rw [hflush]; rfl)) pc hpc
  rw [System.reopened, if_neg hflush, Nat.sub_zero]

theorem serves (h : Fresh s) (hphases : Phases s) (hstep : step s l = some t)
    (hserves : l.serves = true) : Fresh t := by
  obtain ⟨hflush, -, hrecorded⟩ := step_serves hstep hserves
  obtain ⟨hstarts, hends⟩ := hrecorded.flushes_eq
  have hle : s.history.flushEnds ≤ s.history.flushStarts := by
    rw [hphases.counts]
    omega
  have hreopened : t.reopened = s.reopened := by rw [System.reopened, System.reopened, hflush, hends]
  have hhand : ∀ b, s.handleFrameTask_.loop = .handler (.queueInput b) →
      s.history.flushEnds ≤ b.flushes := by
    intro b hpc
    rw [← reopened_of_handler hphases hpc]
    refine h.inputs b (List.mem_append_left _ (List.mem_append_left _ ?_))
    rw [inputs_hand hpc]
    exact List.mem_singleton_self b
  have hpush : ∀ b, s.pushTask_.loop = .handler (.pushData b) →
      s.history.flushEnds ≤ b.flushes := by
    intro b hpc
    refine h.outputs b (List.mem_append_left _ (List.mem_append_left _ ?_))
    rw [outputs_hand hpc]
    exact List.mem_singleton_self b
  refine ⟨?_, ?_, ?_, ?_, ?_⟩
  · rw [hreopened]
    refine (inputs_move hphases hstep).forall_inside h.inputs fun b hb => ?_
    rw [hrecorded.entered_flushes hb]
    exact (Nat.sub_le _ _).trans hle
  · rw [hends]
    refine (outputs_move hstep).forall_inside h.outputs fun b hb => ?_
    rw [hrecorded.produced_flushes hb]
    exact hle
  · intro hflushed
    rw [hstarts]
    refine (outputs_move hstep).forall_inside (h.cleared (hflush ▸ hflushed)) fun b hb => ?_
    rw [hrecorded.produced_flushes hb]
  · generalize t.history = g at hrecorded
    cases hrecorded with
    | handed b taken hpc =>
      intro x hx
      rcases List.mem_append.mp hx with hx | hx
      · exact h.handed x hx
      · obtain rfl := List.mem_singleton.mp hx
        exact hhand b hpc
    | _ => exact h.handed
  · generalize t.history = g at hrecorded
    cases hrecorded with
    | delivered b hpc =>
      intro x hx
      rcases List.mem_append.mp hx with hx | hx
      · exact h.delivered x hx
      · obtain rfl := List.mem_singleton.mp hx
        exact hpush b hpc
    | _ => exact h.delivered

theorem enterFlushStart (h : Fresh s) (hstep : s.enterFlushStart = some t) : Fresh t := by
  obtain ⟨hidle, rfl⟩ := System.enterFlushStart_some hstep
  have hinputs := h.inputs
  rw [System.reopened, hidle, if_neg nofun] at hinputs
  exact { h with inputs := hinputs, cleared := nofun }

/-- `FlushEnd` begins a new time: the output queue has been cleared for it. -/
theorem enterFlushEnd (h : Fresh s) (hphases : Phases s) (hstep : s.enterFlushEnd = some t) :
    Fresh t := by
  obtain ⟨hflushed, rfl⟩ := System.enterFlushEnd_some hstep
  have hinputs := h.inputs
  rw [System.reopened, hflushed, if_neg nofun] at hinputs
  have hcounts := hphases.counts
  rw [hflushed] at hcounts
  have houtputs := h.cleared hflushed
  rw [hcounts] at houtputs
  exact { h with inputs := hinputs, outputs := houtputs, cleared := nofun }

theorem held_of_paused {η : Type} {task : Task η} (hrests : task.Resting)
    (hpaused : task.runningState_ = .paused) (held : η → List AVBuffer) :
    task.loop.held held = [] := by
  cases hloop : task.loop with
  | handler pc => exact absurd hloop (hrests hpaused pc)
  | _ => rfl

theorem activateQueue (hphases : Phases s) (halone : FlushesAlone s .flush)
    (hflush : s.flush = .activateQueue) (hstep : s.flushBlock = some t) :
    ∀ b ∈ t.inputs.inside, s.history.flushEnds ≤ b.flushes := by
  unfold System.flushBlock at hstep
  rw [hflush] at hstep
  cases hstep
  have hcounts := hphases.counts
  have hcleared : s.inBufQue_.que_ = [] := hphases.cleared (by rw [hflush]; rfl)
  have hpaused := hphases.handlePaused (by rw [hflush]; rfl)
  rw [hflush] at hcounts
  intro b hb
  have hinside : b ∈ s.handleFrameTask_.loop.held HandleFrame.held ++ s.inBufQue_.que_ ++
    s.pushData.pending := hb
  rw [held_of_paused hphases.handleRests hpaused, hcleared] at hinside
  rw [← Nat.add_zero s.history.flushEnds, ← show _ = s.history.flushEnds + 0 from hcounts]
  exact (halone rfl).1 hflush b hinside

theorem clearOutput (hphases : Phases s) (halone : FlushesAlone s .flush)
    (hflush : s.flush = .clearOutput) (hstep : s.flushBlock = some t) :
    ∀ b ∈ t.outputs.inside, s.history.flushStarts ≤ b.flushes := by
  unfold System.flushBlock at hstep
  rw [hflush] at hstep
  cases hstep
  have hpaused := hphases.pushPaused (by rw [hflush]; rfl)
  intro b hb
  have hinside : b ∈ s.pushTask_.loop.held FinishFrame.held ++ [] ++ s.outputDone.pending := hb
  rw [held_of_paused hphases.pushRests hpaused] at hinside
  exact (halone rfl).2 hflush b hinside

theorem flushBlock_next (hstep : s.flushBlock = some t) :
    t.flush ≠ .activateQueue ∧ (t.flush = .flushed → s.flush = .clearOutput) := by
  unfold System.flushBlock at hstep
  split at hstep
  all_goals try split at hstep
  all_goals cases hstep
  all_goals grind

theorem flushBlock (h : Fresh s) (hphases : Phases s) (halone : FlushesAlone s .flush)
    (hstep : s.flushBlock = some t) : Fresh t := by
  obtain ⟨hnext, hflushed⟩ := flushBlock_next hstep
  have hinputs := (flushBlock_inputs hstep).forall_inside h.inputs
  have houtputs := (flushBlock_outputs hstep).forall_inside h.outputs
  have hactivate := fun hflush => activateQueue hphases halone hflush hstep
  have hclear := fun hflush => clearOutput hphases halone hflush hstep
  obtain ⟨que, need, notified, pool, out, handle, decode, push, pc, rfl⟩ :=
    System.flushBlock_some hstep
  refine { h with inputs := ?_, outputs := ?_, cleared := fun hpc => ?_ }
  · rw [System.reopened, if_neg hnext]
    by_cases hflush : s.flush = .activateQueue
    · exact hactivate hflush
    · rw [System.reopened, if_neg hflush] at hinputs
      exact hinputs fun b hb => absurd (List.append_right_eq_self.mp hb.symm) (List.cons_ne_nil _ _)
  · exact houtputs fun b hb => absurd (List.append_right_eq_self.mp hb.symm) (List.cons_ne_nil _ _)
  · exact hclear (hflushed hpc)

end Fresh

-- A task that has been started pauses at an EOS buffer

namespace Flush

/-- The task that serves the input has been started, and no flush has begun to pause it. -/
def handleServes : Flush → Bool
  | .idle | .activatePool | .startDecode | .startPush => true
  | _ => false

def poolServes : Flush → Bool
  | .idle | .startDecode | .startPush => true
  | _ => false

def decodeServes : Flush → Bool
  | .idle | .startPush => true
  | _ => false

end Flush

namespace System

def EosTaken (s : System) : Prop :=
  ∃ h ∈ s.history.handed, h.taken = true ∧ h.buffer.eos = true ∧
    h.flushEnds = s.history.flushEnds

def EosProduced (s : System) : Prop :=
  ∃ b ∈ s.history.produced, b.eos = true ∧ s.history.flushEnds ≤ b.flushes

def EosDelivered (s : System) : Prop :=
  ∃ d ∈ s.history.delivered, d.buffer.eos = true ∧ d.flushEnds = s.history.flushEnds

def HandlePauses (s : System) : Prop :=
  s.handleFrameTask_.runningState_ ≠ .started ∨
    ∃ b, s.handleFrameTask_.loop = .handler (.finish b) ∧ b.eos = true

def PushPauses (s : System) : Prop :=
  s.pushTask_.runningState_ ≠ .started ∨
    ∃ b, s.pushTask_.loop = .handler (.finish b) ∧ b.eos = true

end System

structure Restarts (s : System) : Prop where
  handle : s.flush.handleServes = true → s.HandlePauses → s.EosTaken
  pool : s.flush.poolServes = true → s.outBufPool_.isActive_ = false → s.EosProduced
  decode : s.flush.decodeServes = true → s.decodeFrameTask_.runningState_ ≠ .started →
    s.EosProduced
  push : s.flush = .idle → s.PushPauses → s.EosDelivered
  marks : ∀ b, s.outputDone = .deactivatePool b ∨ s.outputDone = .pauseDecode b → b.eos = true

theorem Task.turn_started {η : Type} {t : Task η} (first : η) (h : t.runningState_ = .started) :
    (t.turn first).runningState_ = .started := by
  unfold Task.turn
  split
  · exact h
  · exact h
  · rw [if_pos h]
    exact h
  · exact h

namespace BufferPool

theorem allocateBufferUnprotected_isActive (p : BufferPool) :
    p.allocateBufferUnprotected.1.isActive_ = p.isActive_ := by
  unfold allocateBufferUnprotected
  split <;> rfl

theorem allocateBuffer_isActive (p : BufferPool) : p.allocateBuffer.1.isActive_ = p.isActive_ := by
  unfold allocateBuffer
  split
  · rfl
  · exact p.allocateBufferUnprotected_isActive

theorem allocateWoken_isActive (p : BufferPool) : p.allocateWoken.1.isActive_ = p.isActive_ := by
  unfold allocateWoken
  split
  · rfl
  · exact p.allocateBufferUnprotected_isActive

end BufferPool

section Pauses

variable {s t : System}

/-- The task that serves the input begins to pause when the plug-in has taken an EOS buffer. -/
theorem handleFrameBlock_pauses (hstopped : s.stopped_ = false) (status : Status)
    (h : (s.handleFrameBlock status).HandlePauses) :
    s.HandlePauses ∨ (s.handleFrameBlock status).EosTaken := by
  cases hloop : s.handleFrameTask_.loop with
  | handler pc =>
    cases pc with
    | pop | waitingPop =>
      left
      simp only [System.handleFrameBlock, hloop] at h
      grind [System.HandlePauses, System.afterPop, Task.goto, Task.leave]
    | queueInput b =>
      simp only [System.handleFrameBlock, hloop] at h ⊢
      by_cases hagain : status = .errorAgain
      · left
        grind [System.HandlePauses, Task.goto]
      · rcases h with hstate | ⟨c, hc, heos⟩
        · exact .inl (.inl hstate)
        · right
          simp only [Task.goto, if_neg hagain, Loop.handler.injEq, HandleFrame.finish.injEq] at hc
          subst hc
          exact ⟨_, List.mem_append_right _ (List.mem_singleton_self _), bne_iff_ne.mpr hagain,
            heos, rfl⟩
    | refused b =>
      left
      simp only [System.handleFrameBlock, hloop, hstopped] at h
      grind [System.HandlePauses, Task.goto]
    | beforeWait b | waiting b =>
      left
      simp only [System.handleFrameBlock, hloop] at h
      grind [System.HandlePauses, Task.goto]
    | finish b =>
      left
      simp only [System.handleFrameBlock, hloop] at h
      by_cases heos : b.eos = true
      · exact .inr ⟨b, hloop, heos⟩
      · grind [System.HandlePauses, Task.leave]
  | _ =>
    left
    simp only [System.handleFrameBlock, hloop] at h
    grind [System.HandlePauses, Task.turn]

theorem finishFrameBlock_pauses (h : s.finishFrameBlock.PushPauses) :
    s.PushPauses ∨ s.finishFrameBlock.EosDelivered := by
  cases hloop : s.pushTask_.loop with
  | handler pc =>
    cases pc with
    | takeFront =>
      left
      simp only [System.finishFrameBlock, hloop] at h
      grind [System.PushPauses, Task.goto, Task.leave]
    | pushData b =>
      simp only [System.finishFrameBlock, hloop] at h ⊢
      by_cases hpushes : s.outPortPushes = true
      · rw [if_pos hpushes] at h ⊢
        rcases h with hstate | ⟨c, hc, heos⟩
        · exact .inl (.inl hstate)
        · right
          simp only [Task.goto, Loop.handler.injEq, FinishFrame.finish.injEq] at hc
          subst hc
          exact ⟨_, List.mem_append_right _ (List.mem_singleton_self _), heos, rfl⟩
      · left
        rw [if_neg hpushes] at h
        grind [System.PushPauses, Task.leave]
    | finish b =>
      left
      simp only [System.finishFrameBlock, hloop] at h
      by_cases heos : b.eos = true
      · exact .inr ⟨b, hloop, heos⟩
      · grind [System.PushPauses, Task.leave]
  | _ =>
    left
    simp only [System.finishFrameBlock, hloop] at h
    grind [System.PushPauses, Task.turn]

theorem decodeFrameBlock_started (valid : Bool) (status : Status) :
    (s.decodeFrameBlock valid status).outBufPool_.isActive_ = s.outBufPool_.isActive_ ∧
      (s.decodeFrameTask_.runningState_ = .started →
        (s.decodeFrameBlock valid status).decodeFrameTask_.runningState_ = .started) := by
  unfold System.decodeFrameBlock
  split
  case h_1 =>
    refine ⟨s.outBufPool_.allocateBuffer_isActive, fun hstarted => ?_⟩
    unfold System.afterAllocate
    dsimp only
    split <;> exact hstarted
  case h_2 =>
    refine ⟨s.outBufPool_.allocateWoken_isActive, fun hstarted => ?_⟩
    unfold System.afterAllocate
    dsimp only
    split <;> exact hstarted
  case h_3 =>
    split
    · exact ⟨rfl, fun hstarted => hstarted⟩
    · refine ⟨rfl, fun hstarted => ?_⟩
      dsimp only
      split <;> exact hstarted
  case h_4 =>
    refine ⟨rfl, fun hstarted => ?_⟩
    dsimp only
    split <;> exact hstarted
  case h_5 => exact ⟨rfl, fun hstarted => hstarted⟩
  case h_6 => exact ⟨rfl, Task.turn_started _⟩

end Pauses

namespace Restarts

variable {s t : System}

theorem configured (capacity freeBuffers lent : Nat) (outPortPushes : Bool) :
    Restarts (configured capacity freeBuffers lent outPortPushes) where
  handle _ h := by
    rcases h with h | ⟨b, hb, -⟩
    · exact absurd rfl h
    · cases hb
  pool _ h := by cases h
  decode _ h := absurd rfl h
  push _ h := by
    rcases h with h | ⟨b, hb, -⟩
    · exact absurd rfl h
    · cases hb
  marks _ h := by
    rcases h with h | h
    · cases h
    · cases h

theorem handleFrameBlock (h : Restarts s) (hphases : Phases s) (status : Status) :
    Restarts (s.handleFrameBlock status) := by
  have hpauses := fun hstopped => handleFrameBlock_pauses (s := s) hstopped status
  obtain ⟨que, need, notified, task, handed, heq, hhanded⟩ := s.handleFrameBlock_eq status
  rw [heq] at hpauses ⊢
  refine { h with handle := fun hserves hp => ?_ }
  have hstopped : s.stopped_ = false := by
    rw [hphases.stopped]
    revert hserves
    cases s.flush <;> simp [Flush.handleServes, Flush.starting]
  rcases hpauses hstopped hp with hp | htaken
  · obtain ⟨x, hx, htaken⟩ := h.handle hserves hp
    refine ⟨x, ?_, htaken⟩
    rcases hhanded with rfl | ⟨b, taken, -, rfl⟩
    · exact hx
    · exact List.mem_append_left _ hx
  · exact htaken

theorem finishFrameBlock (h : Restarts s) : Restarts s.finishFrameBlock := by
  have hpauses := finishFrameBlock_pauses (s := s)
  obtain ⟨que, task, delivered, heq, hdelivered⟩ := s.finishFrameBlock_eq
  rw [heq] at hpauses ⊢
  refine { h with push := fun hidle hp => ?_ }
  rcases hpauses hp with hp | hpushed
  · obtain ⟨x, hx, hpushed⟩ := h.push hidle hp
    refine ⟨x, ?_, hpushed⟩
    rcases hdelivered with rfl | ⟨b, -, rfl⟩
    · exact hx
    · exact List.mem_append_left _ hx
  · exact hpushed

theorem decodeFrameBlock (h : Restarts s) (valid : Bool) (status : Status) :
    Restarts (s.decodeFrameBlock valid status) := by
  obtain ⟨hactive, hstarted⟩ := decodeFrameBlock_started (s := s) valid status
  obtain ⟨pool, notified, task, heq, -⟩ := s.decodeFrameBlock_eq valid status
  rw [heq] at hactive hstarted ⊢
  exact { h with
    pool := fun hserves hp => h.pool hserves (hactive ▸ hp)
    decode := fun hserves hp => h.decode hserves fun hs => hp (hstarted hs) }

theorem outputDoneBlock (h : Restarts s)
    (hpending : ∀ b ∈ s.outputDone.pending, b ∈ s.history.produced ∧
      s.history.flushEnds ≤ b.flushes)
    (hstep : s.outputDoneBlock = some t) : Restarts t := by
  have heos : ∀ b, s.outputDone = .deactivatePool b ∨ s.outputDone = .pauseDecode b →
      s.EosProduced := by
    intro b hb
    have hmem : b ∈ s.outputDone.pending := by
      rcases hb with hb | hb <;> (rw [hb]; exact List.mem_singleton_self b)
    exact ⟨b, (hpending b hmem).1, h.marks b hb, (hpending b hmem).2⟩
  unfold System.outputDoneBlock at hstep
  split at hstep
  all_goals
    rename_i hpc
    cases hstep
  case h_2.refl b =>
    exact { h with
      pool := fun _ _ => heos b (.inl hpc)
      marks := fun c hc => by
        rcases hc with hc | hc
        · cases hc
        · cases hc
          exact h.marks b (.inl hpc) }
  case h_3.refl b =>
    exact { h with
      decode := fun _ _ => heos b (.inr hpc)
      marks := fun c hc => by rcases hc with hc | hc <;> cases hc }
  case h_4.refl b => exact { h with marks := fun c hc => by rcases hc with hc | hc <;> cases hc }
  case h_5.refl =>
    refine { h with marks := fun c hc => ?_ }
    dsimp only at hc
    split at hc
    · rcases hc with hc | hc <;> cases hc
    · rcases hc with hc | hc <;> cases hc
  case h_6.refl => exact { h with marks := fun c hc => by rcases hc with hc | hc <;> cases hc }

theorem of_held (hmarks : ∀ b, t.outputDone = .deactivatePool b ∨ t.outputDone = .pauseDecode b →
    b.eos = true) (hheld : t.flush.handleServes = false) : Restarts t := by
  refine ⟨fun hserves => ?_, fun hserves => ?_, fun hserves => ?_, fun hidle => ?_, hmarks⟩
  · exact absurd hserves (by rw [hheld]; exact nofun)
  · exfalso
    revert hserves hheld
    cases t.flush <;> simp [Flush.handleServes, Flush.poolServes]
  · exfalso
    revert hserves hheld
    cases t.flush <;> simp [Flush.handleServes, Flush.decodeServes]
  · rw [hidle] at hheld
    cases hheld

theorem enterOutputDone (h : Restarts s) {flag : UInt32}
    (hstep : s.enterOutputDone flag = some t) : Restarts t := by
  obtain ⟨-, buffer, -, rfl⟩ := System.enterOutputDone_some hstep
  have hproduced : ∀ {P : Prop}, (P → s.EosProduced) → P →
      ∃ b ∈ s.history.produced ++ [buffer], b.eos = true ∧ s.history.flushEnds ≤ b.flushes := by
    intro P hp h
    obtain ⟨b, hb, heos⟩ := hp h
    exact ⟨b, List.mem_append_left _ hb, heos⟩
  refine { h with
    pool := fun hserves => hproduced (h.pool hserves)
    decode := fun hserves => hproduced (h.decode hserves)
    marks := fun b hb => ?_ }
  dsimp only at hb
  split at hb
  next heos =>
    rcases hb with hb | hb
    · cases hb
      exact heos
    · cases hb
  next => rcases hb with hb | hb <;> cases hb

theorem flushBlock (h : Restarts s) (hphases : Phases s) (hstep : s.flushBlock = some t) :
    Restarts t := by
  have hmarks := h.marks
  unfold System.flushBlock at hstep
  split at hstep
  case h_17 hflush =>
    cases hstep
    have hrests := hphases.handleRests (hphases.handlePaused (by rw [hflush]; rfl))
    refine ⟨fun _ hp => ?_, nofun, nofun, nofun, hmarks⟩
    rcases hp with hp | ⟨b, hb, -⟩
    · exact absurd rfl hp
    · exact absurd hb (hrests _)
  case h_18 hflush =>
    cases hstep
    have hhandle := h.handle (by rw [hflush]; rfl)
    exact ⟨fun _ => hhandle, nofun, nofun, nofun, hmarks⟩
  case h_19 hflush =>
    cases hstep
    have hhandle := h.handle (by rw [hflush]; rfl)
    have hpool := h.pool (by rw [hflush]; rfl)
    exact ⟨fun _ => hhandle, fun _ => hpool, fun _ hp => absurd rfl hp, nofun, hmarks⟩
  case h_20 hflush =>
    cases hstep
    have hhandle := h.handle (by rw [hflush]; rfl)
    have hpool := h.pool (by rw [hflush]; rfl)
    have hdecode := h.decode (by rw [hflush]; rfl)
    have hrests := hphases.pushRests (hphases.pushPaused (by rw [hflush]; rfl))
    refine ⟨fun _ => hhandle, fun _ => hpool, fun _ => hdecode, fun _ hp => ?_, hmarks⟩
    rcases hp with hp | ⟨b, hb, -⟩
    · exact absurd rfl hp
    · exact absurd hb (hrests _)
  case h_6 | h_9 | h_11 =>
    split at hstep
    · cases hstep
      exact of_held hmarks rfl
    · cases hstep
  case h_1 | h_13 => cases hstep
  all_goals
    cases hstep
    refine of_held hmarks ?_
    dsimp only
    first
      | rfl
      | split <;> rfl

end Restarts

-- The calls are numbered

def Numbered (buffers : List AVBuffer) : Prop :=
  buffers.map AVBuffer.call = List.range buffers.length

namespace Numbered

variable {buffers : List AVBuffer}

theorem append (h : Numbered buffers) (flag : UInt32) (flushes : Nat) :
    Numbered (buffers ++ [⟨flag, buffers.length, flushes⟩]) := by
  unfold Numbered at h ⊢
  rw [List.map_append, h, List.length_append, List.length_singleton, List.range_succ]
  rfl

theorem nodup (h : Numbered buffers) : buffers.Nodup := by
  refine List.Nodup.of_map AVBuffer.call ?_
  rw [show buffers.map AVBuffer.call = _ from h]
  exact List.nodup_range

end Numbered

theorem step_numbered {s t : System} {l : Label} (hstep : step s l = some t)
    (h : Numbered s.history.entered ∧ Numbered s.history.produced) :
    Numbered t.history.entered ∧ Numbered t.history.produced := by
  by_cases hserves : l.serves = true
  · have hrecorded := (step_serves hstep hserves).2.2
    generalize t.history = g at hrecorded
    cases hrecorded with
    | entered flag => exact ⟨h.1.append flag _, h.2⟩
    | produced flag => exact ⟨h.1, h.2.append flag _⟩
    | _ => exact h
  · cases l with
    | enterFlushStart =>
      obtain ⟨-, rfl⟩ := System.enterFlushStart_some hstep
      exact h
    | enterFlushEnd =>
      obtain ⟨-, rfl⟩ := System.enterFlushEnd_some hstep
      exact h
    | flush =>
      obtain ⟨que, need, notified, pool, out, handle, decode, push, pc, rfl⟩ :=
        System.flushBlock_some hstep
      exact h
    | _ => exact absurd rfl hserves

-- Runs

/-- What holds in every state of a run whose flushes are alone. -/
structure Separated (s : System) : Prop where
  phases : Phases s
  inputs : s.inputs.InOrder
  outputs : s.outputs.InOrder
  numbered : Numbered s.history.entered ∧ Numbered s.history.produced
  fresh : Fresh s
  restarts : Restarts s

namespace Separated

variable {s t : System} {l : Label}

theorem configured (capacity freeBuffers lent : Nat) (outPortPushes : Bool) :
    Separated (configured capacity freeBuffers lent outPortPushes) where
  phases := .configured ..
  inputs := List.Sublist.refl []
  outputs := List.Sublist.refl []
  numbered := ⟨rfl, rfl⟩
  fresh := .configured ..
  restarts := .configured ..

theorem pending_produced (h : Separated s) :
    ∀ b ∈ s.outputDone.pending, b ∈ s.history.produced ∧ s.history.flushEnds ≤ b.flushes := by
  intro b hb
  have hinside : b ∈ s.outputs.inside := List.mem_append_right _ hb
  exact ⟨h.outputs.subset (List.mem_append_right _ hinside), h.fresh.outputs b hinside⟩

theorem step_fresh (h : Separated s) (halone : FlushesAlone s l) (hstep : step s l = some t) :
    Fresh t := by
  by_cases hserves : l.serves = true
  · exact h.fresh.serves h.phases hstep hserves
  · cases l with
    | enterFlushStart => exact h.fresh.enterFlushStart hstep
    | enterFlushEnd => exact h.fresh.enterFlushEnd h.phases hstep
    | flush => exact h.fresh.flushBlock h.phases halone hstep
    | _ => exact absurd rfl hserves

theorem step_restarts (h : Separated s) (hstep : step s l = some t) : Restarts t := by
  have hrestarts := h.restarts
  cases l with
  | enterPushData flag =>
    obtain ⟨-, buffer, -, rfl⟩ := System.enterPushData_some hstep
    exact { hrestarts with }
  | pushData =>
    obtain ⟨que, pc, rfl⟩ := System.pushDataBlock_some hstep
    exact { hrestarts with }
  | handleFrame status =>
    exact Option.some.inj hstep ▸ hrestarts.handleFrameBlock h.phases status
  | decodeFrame valid status =>
    exact Option.some.inj hstep ▸ hrestarts.decodeFrameBlock valid status
  | finishFrame => exact Option.some.inj hstep ▸ hrestarts.finishFrameBlock
  | enterOutputDone flag => exact hrestarts.enterOutputDone hstep
  | outputDone => exact hrestarts.outputDoneBlock h.pending_produced hstep
  | enterFlushStart =>
    obtain ⟨-, rfl⟩ := System.enterFlushStart_some hstep
    exact .of_held hrestarts.marks rfl
  | enterFlushEnd =>
    obtain ⟨-, rfl⟩ := System.enterFlushEnd_some hstep
    exact .of_held hrestarts.marks rfl
  | flush => exact hrestarts.flushBlock h.phases hstep
  | release =>
    obtain rfl := System.release_some hstep
    exact { hrestarts with pool := hrestarts.pool }

theorem step (h : Separated s) (halone : FlushesAlone s l) (hstep : step s l = some t) :
    Separated t where
  phases := h.phases.step hstep
  inputs := (inputs_move h.phases hstep).inOrder h.inputs
  outputs := (outputs_move hstep).inOrder h.outputs
  numbered := step_numbered hstep h.numbered
  fresh := h.step_fresh halone hstep
  restarts := h.step_restarts hstep

theorem run {labels : List Label} (h : Separated s)
    (halone : Runs.Along AsyncMode.step FlushesAlone s labels)
    (hrun : AsyncMode.run s labels = some t) : Separated t :=
  Runs.run_invariant (fun _ _ _ h halone hstep => h.step halone hstep) h halone hrun

end Separated

end MediaFoundation.AsyncMode
