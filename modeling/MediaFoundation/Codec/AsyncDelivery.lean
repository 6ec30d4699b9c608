import MediaFoundation.Codec.AsyncService

/-!
# The outputs of an asynchronous codec, and its flushes

`FinishFrame` never waits: it takes the front of the output queue, or finds it empty and is called
again. So an output that has been queued is pushed downstream after those ahead of it, and one that
`OnOutputBufferDone` has yet to queue waits for the thread of the plug-in only.
-/

namespace MediaFoundation.AsyncMode

open Conveyor Response

/-- An output has a place in the line, and no EOS buffer was pushed downstream since the last flush
or is ahead of it. -/
structure OutputWaits (n : Nat) (buffer : AVBuffer) (s : System) : Prop where
  separated : Separated s
  idle : s.flush = .idle
  pushes : s.outPortPushes = true
  waits : s.outputs.WaitsAt (fun b => b.eos = true) n buffer
  noEos : ¬ s.EosDelivered

/-- How many blocks `FinishFrame` needs to push its next buffer downstream. -/
def System.finishDistance (s : System) : Nat :=
  match s.pushTask_.loop with
  | .handler (.pushData _) => 1
  | .handler .takeFront => 2
  | .top => 3
  | .locking => 4
  | .parked => 4
  | .handler (.finish _) => 5

def OnOutputBufferDone.distance : OnOutputBufferDone → Nat
  | .deactivatePool _ => 3
  | .pauseDecode _ => 2
  | .enqueue _ => 1
  | _ => 0

/-- How many outputs have left `OnOutputBufferDone`. -/
def System.queuedOutputs (s : System) : Nat :=
  s.pushedDownstream.length + s.outputs.hand.length + s.outBufQue_.length

def System.NothingQueued (s : System) : Prop := s.outputs.hand = [] ∧ s.outBufQue_ = []

instance (s : System) : Decidable s.NothingQueued := inferInstanceAs (Decidable (_ ∧ _))

def System.outputDistance (n : Nat) (s : System) : Nat :=
  6 * (n - s.pushedDownstream.length) + (if s.NothingQueued then 6 else s.finishDistance) +
    if n < s.queuedOutputs then 0 else s.outputDone.distance

def System.outputHelper (s : System) : Thread :=
  if s.NothingQueued then .outputDone else .finishFrame

def OutputApproaches (n : Nat) (s : System) (l : Label) (t : System) : Prop :=
  t.outputDistance n < s.outputDistance n ∨
    t.outputDistance n = s.outputDistance n ∧ t.outputHelper = s.outputHelper ∧
      ¬ s.outputHelper.Acts l

namespace OutputWaits

variable {n : Nat} {waiting : AVBuffer} {s t : System} {l : Label}

theorem eosDelivered_next (hserves : l.serves = true) (hstep : AsyncMode.step s l = some t)
    (ht : t.EosDelivered) (hs : ¬ s.EosDelivered) :
    ∃ b, b.eos = true ∧ t.pushedDownstream = s.pushedDownstream ++ [b] := by
  obtain ⟨-, -, hrecorded⟩ := step_serves hstep hserves
  obtain ⟨x, hx, heos, hends⟩ := ht
  have hpushed : ∀ g : History, g = t.history →
      t.pushedDownstream = g.delivered.map Delivered.buffer := by
    rintro g rfl
    rfl
  generalize t.history = g at hrecorded hx hends hpushed
  cases hrecorded with
  | delivered b hpc =>
    rcases List.mem_append.mp hx with hx | hx
    · exact absurd ⟨x, hx, heos, hends⟩ hs
    · obtain rfl := List.mem_singleton.mp hx
      exact ⟨b, heos, (hpushed _ rfl).trans List.map_append⟩
  | _ => exact absurd ⟨x, hx, heos, hends⟩ hs

theorem keeps (h : OutputWaits n waiting s) : ¬ s.dropsOutputs := by
  rintro (hclear | hpulls)
  · exact absurd (h.idle.symm.trans hclear) nofun
  · exact absurd (h.pushes.symm.trans hpulls) nofun

theorem step (h : OutputWaits n waiting s) (hstart : l ≠ .enterFlushStart)
    (hstep : AsyncMode.step s l = some t) (hn : t.pushedDownstream.length ≤ n) :
    OutputWaits n waiting t := by
  obtain ⟨hseparated, hidle, hpushes⟩ := step_idle h.separated h.idle hstart hstep
  have hmove := outputs_move hstep
  refine ⟨hseparated, hidle, hpushes.trans h.pushes, h.waits.move hmove h.keeps, fun ht => ?_⟩
  obtain ⟨b, heos, hnext⟩ :=
    eosDelivered_next (serves_of_idle h.idle hstart hstep) hstep ht h.noEos
  exact h.waits.next_not_bad hmove h.keeps hnext hn heos

theorem started (h : OutputWaits n waiting s) : s.pushTask_.runningState_ = .started :=
  not_not.mp (not_or.mp fun hp => h.noEos (h.separated.restarts.push h.idle hp)).1

theorem length_line (s : System) :
    s.outputs.line.length = s.queuedOutputs + s.outputDone.pending.length := by
  show (s.pushedDownstream ++ (s.outputs.hand ++ s.outBufQue_ ++ s.outputDone.pending)).length = _
  rw [List.length_append, List.length_append, List.length_append, System.queuedOutputs]
  omega

theorem queued_of_nothing (hopen : s.pushedDownstream.length ≤ n) (hnothing : s.NothingQueued) :
    s.queuedOutputs ≤ n := by
  rw [System.queuedOutputs, hnothing.1, hnothing.2]
  exact hopen

theorem calls (h : OutputWaits n waiting s) (hqueued : s.queuedOutputs ≤ n) :
    s.outputDone.pending ≠ [] := by
  intro hnone
  have hlength := h.waits.lt_length
  rw [length_line, hnone] at hlength
  exact absurd hqueued (Nat.not_le.mpr hlength)

theorem approaches_of_loop (hsomething : ¬ s.NothingQueued)
    (hdistance : t.finishDistance < s.finishDistance) (hafter : ¬ t.NothingQueued)
    (hpushed : t.pushedDownstream = s.pushedDownstream)
    (hqueued : t.queuedOutputs = s.queuedOutputs) (hpc : t.outputDone = s.outputDone) :
    OutputApproaches n s l t := by
  left
  unfold System.outputDistance
  rw [if_neg hsomething, if_neg hafter, hpushed, hqueued, hpc]
  omega

theorem approaches_of_nothing (hnothing : s.NothingQueued) (hafter : t.NothingQueued)
    (hpushed : t.pushedDownstream = s.pushedDownstream)
    (hqueued : t.queuedOutputs = s.queuedOutputs) (hpc : t.outputDone = s.outputDone) :
    OutputApproaches n s .finishFrame t := by
  right
  unfold System.outputDistance System.outputHelper
  rw [if_pos hnothing, if_pos hafter, if_pos hnothing, if_pos hafter, hpushed, hqueued, hpc]
  exact ⟨rfl, rfl, id⟩

theorem finishFrame_nothing (hnothing : s.NothingQueued) :
    OutputApproaches n s .finishFrame s.finishFrameBlock := by
  have hque := hnothing.2
  have hhand := hnothing.1
  cases hloop : s.pushTask_.loop with
  | handler pc =>
    cases pc with
    | takeFront | finish b =>
      refine approaches_of_nothing hnothing ?_ ?_ ?_ ?_
      all_goals simp [System.finishFrameBlock, hloop, hque, Task.leave, System.NothingQueued,
        System.pushedDownstream, System.queuedOutputs, System.outputs, Loop.held,
        FinishFrame.held]
    | pushData b =>
      rw [outputs_hand hloop] at hhand
      cases hhand
  | _ =>
    have hturn := @Task.turn_held _ FinishFrame.held .takeFront s.pushTask_ rfl
    have hblock : s.finishFrameBlock = { s with pushTask_ := s.pushTask_.turn .takeFront } := by
      simp [System.finishFrameBlock, hloop]
    rw [hblock]
    have hafter : (System.outputs { s with pushTask_ := s.pushTask_.turn .takeFront }).hand =
      s.outputs.hand := hturn
    refine approaches_of_nothing hnothing ⟨hafter.trans hhand, hque⟩ rfl ?_ rfl
    unfold System.queuedOutputs
    rw [hafter]
    rfl

theorem finishFrame (h : OutputWaits n waiting s)
    (hn : s.finishFrameBlock.pushedDownstream.length ≤ n) :
    OutputApproaches n s .finishFrame s.finishFrameBlock := by
  by_cases hnothing : s.NothingQueued
  · exact finishFrame_nothing hnothing
  have hstarted := h.started
  have hque : s.outputs.hand = [] → s.outBufQue_ ≠ [] := fun hhand hque => hnothing ⟨hhand, hque⟩
  cases hloop : s.pushTask_.loop with
  | top | locking | parked =>
    replace hque := hque (outputs_hand hloop)
    refine approaches_of_loop hnothing ?_ ?_ ?_ ?_ ?_
    all_goals simp [System.finishFrameBlock, hloop, Task.turn, hstarted, System.finishDistance,
      System.NothingQueued, hque, System.pushedDownstream, System.queuedOutputs, System.outputs,
      Loop.held, FinishFrame.held]
  | handler pc =>
    cases pc with
    | takeFront =>
      obtain ⟨b, rest, hrest⟩ := List.exists_cons_of_ne_nil (hque (outputs_hand hloop))
      refine approaches_of_loop hnothing ?_ ?_ ?_ ?_ ?_
      all_goals simp [System.finishFrameBlock, hloop, Task.goto, System.finishDistance, hrest,
        System.NothingQueued, System.pushedDownstream, System.queuedOutputs, System.outputs,
        Loop.held, FinishFrame.held]
      omega
    | pushData b =>
      have hpushed : s.finishFrameBlock.pushedDownstream = s.pushedDownstream ++ [b] := by
        simp [System.finishFrameBlock, hloop, h.pushes, System.pushedDownstream]
      have hqueued : s.finishFrameBlock.queuedOutputs = s.queuedOutputs := by
        rw [System.queuedOutputs, hpushed, System.queuedOutputs]
        simp [System.outputs, hloop, Loop.held, FinishFrame.held, System.finishFrameBlock,
          h.pushes, Task.goto]
      have hpc : s.finishFrameBlock.outputDone = s.outputDone := by
        simp [System.finishFrameBlock, hloop, h.pushes]
      have hbefore : s.finishDistance = 1 := by simp [System.finishDistance, hloop]
      have hafter : s.finishFrameBlock.finishDistance = 5 := by
        simp [System.finishFrameBlock, hloop, h.pushes, System.finishDistance, Task.goto]
      left
      unfold System.outputDistance
      rw [hpushed, List.length_append, List.length_singleton] at hn ⊢
      rw [hqueued, hpc, if_neg hnothing, hbefore, hafter]
      split <;> omega
    | finish b =>
      replace hque := hque (outputs_hand hloop)
      refine approaches_of_loop hnothing ?_ ?_ ?_ ?_ ?_
      all_goals simp [System.finishFrameBlock, hloop, Task.leave, System.finishDistance,
        System.NothingQueued, hque, System.pushedDownstream, System.queuedOutputs, System.outputs,
        Loop.held, FinishFrame.held]

/-- While `FinishFrame` has something to push, the thread of the plug-in is not waited for. -/
theorem helper_of_queued (hopen : s.pushedDownstream.length ≤ n) (hn : n < s.queuedOutputs) :
    ¬ s.NothingQueued :=
  fun hnothing => absurd (queued_of_nothing hopen hnothing) (Nat.not_le.mpr hn)

/-- A step that leaves the outputs where they are changes at most what `OnOutputBufferDone` has
yet to do. -/
theorem distance_of_same (hhand : t.outputs.hand = s.outputs.hand)
    (hque : t.outBufQue_ = s.outBufQue_) (htask : t.pushTask_ = s.pushTask_)
    (hpushed : t.pushedDownstream = s.pushedDownstream) :
    t.outputDistance n = 6 * (n - s.pushedDownstream.length) +
        (if s.NothingQueued then 6 else s.finishDistance) +
        (if n < s.queuedOutputs then 0 else t.outputDone.distance) ∧
      t.outputHelper = s.outputHelper := by
  have hnothing : t.NothingQueued ↔ s.NothingQueued := by
    rw [System.NothingQueued, System.NothingQueued, hhand, hque]
  have hqueued : t.queuedOutputs = s.queuedOutputs := by
    rw [System.queuedOutputs, System.queuedOutputs, hpushed, hhand, hque]
  have hdistance : t.finishDistance = s.finishDistance := by
    rw [System.finishDistance, System.finishDistance, htask]
  unfold System.outputDistance System.outputHelper
  simp only [hnothing, hqueued, hdistance, hpushed]
  exact ⟨trivial, trivial⟩

theorem approaches_of_outputDone (h : OutputWaits n waiting s)
    (hopen : s.pushedDownstream.length ≤ n) (hhand : t.outputs.hand = s.outputs.hand)
    (hque : t.outBufQue_ = s.outBufQue_) (htask : t.pushTask_ = s.pushTask_)
    (hpushed : t.pushedDownstream = s.pushedDownstream)
    (hpc : t.outputDone.distance < s.outputDone.distance ∨ s.outputDone.pending = []) :
    OutputApproaches n s .outputDone t := by
  obtain ⟨hdistance, hhelper⟩ := distance_of_same (n := n) hhand hque htask hpushed
  by_cases hn : n < s.queuedOutputs
  · refine .inr ⟨?_, hhelper, ?_⟩
    · rw [hdistance, System.outputDistance, if_pos hn, if_pos hn]
    · rw [System.outputHelper, if_neg (helper_of_queued hopen hn)]
      exact id
  · left
    rw [hdistance, System.outputDistance, if_neg hn, if_neg hn]
    rcases hpc with hlt | hnone
    · omega
    · exact absurd hnone (h.calls (Nat.not_lt.mp hn))

theorem finishDistance_le (s : System) : s.finishDistance ≤ 6 := by
  unfold System.finishDistance
  split <;> omega

theorem approaches_enqueue (h : OutputWaits n waiting s)
    (hopen : s.pushedDownstream.length ≤ n) {buffer : AVBuffer}
    (hpc : s.outputDone = .enqueue buffer) :
    OutputApproaches n s .outputDone
      { s with outBufQue_ := s.outBufQue_ ++ [buffer], outputDone := .testNeed } := by
  have hqueued : System.queuedOutputs
      { s with outBufQue_ := s.outBufQue_ ++ [buffer], outputDone := .testNeed } =
      s.queuedOutputs + 1 := by
    show s.pushedDownstream.length + s.outputs.hand.length + (s.outBufQue_ ++ [buffer]).length = _
    rw [List.length_append, List.length_singleton, System.queuedOutputs]
    rfl
  have hlength := h.waits.lt_length
  rw [length_line, hpc] at hlength
  replace hlength : n < s.queuedOutputs + 1 := hlength
  have hafter : ¬ System.NothingQueued
      { s with outBufQue_ := s.outBufQue_ ++ [buffer], outputDone := .testNeed } :=
    fun hnothing => List.append_ne_nil_of_right_ne_nil _ (List.cons_ne_nil _ _) hnothing.2
  unfold OutputApproaches System.outputDistance System.outputHelper
  rw [hqueued, if_neg hafter, if_neg hafter, if_pos hlength]
  by_cases hn : n < s.queuedOutputs
  · have hbefore := helper_of_queued hopen hn
    rw [if_pos hn, if_neg hbefore, if_neg hbefore]
    exact .inr ⟨rfl, rfl, id⟩
  · left
    have hle := finishDistance_le s
    rw [if_neg hn, hpc]
    show 6 * (n - s.pushedDownstream.length) + s.finishDistance + 0 <
      6 * (n - s.pushedDownstream.length) + (if s.NothingQueued then 6 else s.finishDistance) + 1
    split <;> omega

theorem outputDone (h : OutputWaits n waiting s) (hopen : s.pushedDownstream.length ≤ n)
    (hstep : s.outputDoneBlock = some t) : OutputApproaches n s .outputDone t := by
  unfold System.outputDoneBlock at hstep
  split at hstep
  all_goals
    rename_i hpc
    cases hstep
  case h_4.refl buffer => exact h.approaches_enqueue hopen hpc
  case h_2.refl buffer =>
    refine h.approaches_of_outputDone hopen rfl rfl rfl rfl (.inl ?_)
    rw [hpc]
    exact Nat.lt_succ_self 2
  case h_3.refl buffer =>
    refine h.approaches_of_outputDone hopen rfl rfl rfl rfl (.inl ?_)
    rw [hpc]
    exact Nat.lt_succ_self 1
  all_goals
    refine h.approaches_of_outputDone hopen rfl rfl rfl rfl (.inr ?_)
    rw [hpc]
    rfl

theorem approaches_of_eq (hhand : t.outputs.hand = s.outputs.hand)
    (hque : t.outBufQue_ = s.outBufQue_) (htask : t.pushTask_ = s.pushTask_)
    (hpushed : t.pushedDownstream = s.pushedDownstream)
    (hpc : n < s.queuedOutputs ∨ t.outputDone = s.outputDone) (hfinish : l ≠ .finishFrame)
    (hdone : l ≠ .outputDone) : OutputApproaches n s l t := by
  obtain ⟨hdistance, hhelper⟩ := distance_of_same (n := n) hhand hque htask hpushed
  refine .inr ⟨?_, hhelper, fun hacts => ?_⟩
  · rw [hdistance, System.outputDistance]
    rcases hpc with hn | hpc
    · rw [if_pos hn, if_pos hn]
    · rw [hpc]
  · unfold System.outputHelper Thread.Acts at hacts
    grind

/-- **Every step brings the outputs on**, or leaves it to the helper. -/
theorem approaches (h : OutputWaits n waiting s) (hopen : s.pushedDownstream.length ≤ n)
    (hstart : l ≠ .enterFlushStart) (hstep : AsyncMode.step s l = some t)
    (hn : t.pushedDownstream.length ≤ n) : OutputApproaches n s l t := by
  have hserves := serves_of_idle h.idle hstart hstep
  cases l with
  | enterPushData flag =>
    obtain ⟨-, buffer, -, rfl⟩ := System.enterPushData_some hstep
    exact approaches_of_eq rfl rfl rfl rfl (.inr rfl) nofun nofun
  | pushData =>
    obtain ⟨que, pc, rfl⟩ := System.pushDataBlock_some hstep
    exact approaches_of_eq rfl rfl rfl rfl (.inr rfl) nofun nofun
  | handleFrame status =>
    obtain ⟨que, need, notified, task, handed, heq, -⟩ := s.handleFrameBlock_eq status
    obtain rfl := heq.symm.trans (Option.some.inj hstep)
    exact approaches_of_eq rfl rfl rfl rfl (.inr rfl) nofun nofun
  | decodeFrame valid status =>
    obtain ⟨pool, notified, task, heq, -⟩ := s.decodeFrameBlock_eq valid status
    obtain rfl := heq.symm.trans (Option.some.inj hstep)
    exact approaches_of_eq rfl rfl rfl rfl (.inr rfl) nofun nofun
  | finishFrame =>
    cases hstep
    exact h.finishFrame hn
  | enterOutputDone flag =>
    obtain ⟨hidle, buffer, -, rfl⟩ := System.enterOutputDone_some hstep
    have hqueued : n < s.queuedOutputs := by
      refine Nat.not_le.mp fun hle => h.calls hle ?_
      rw [hidle]
      rfl
    exact approaches_of_eq rfl rfl rfl rfl (.inl hqueued) nofun nofun
  | outputDone => exact h.outputDone hopen hstep
  | release =>
    obtain rfl := System.release_some hstep
    exact approaches_of_eq rfl rfl rfl rfl (.inr rfl) nofun nofun
  | enterFlushStart | enterFlushEnd | flush => cases hserves

end OutputWaits

theorem output_descent (n : Nat) (buffer : AVBuffer) :
    Descent step (fun _ l => l ≠ .enterFlushStart) (fun thread s => Thread.Ready s thread)
      (fun thread _ l => thread.Acts l)
      (fun s => OutputWaits n buffer s ∧ s.pushedDownstream.length ≤ n)
      (fun s => s.pushedDownstream[n]? = some buffer) (System.outputDistance n)
      System.outputHelper where
  ready := by
    rintro s ⟨h, hopen⟩
    unfold System.outputHelper
    split
    next hnothing =>
      intro hidle
      refine h.calls (OutputWaits.queued_of_nothing hopen hnothing) ?_
      rw [hidle]
      rfl
    next => trivial
  step := by
    rintro s l t ⟨h, hopen⟩ hstart hstep
    by_cases hn : t.pushedDownstream.length ≤ n
    · exact .inr ⟨⟨h.step hstart hstep hn, hn⟩, h.approaches hopen hstart hstep hn⟩
    · exact .inl ((h.waits.move (outputs_move hstep) h.keeps).delivered (Nat.not_le.mp hn))

/-- **Every output is pushed downstream.** -/
theorem output_delivered {r : Endless step} (hscheduled : Scheduled r) (hnoFlush : NoFlush r)
    {i n : Nat} {buffer : AVBuffer} (h : OutputWaits n buffer (r.state i)) :
    ∃ j, (r.state j).pushedDownstream[n]? = some buffer := by
  by_cases hopen : (r.state i).pushedDownstream.length ≤ n
  · obtain ⟨j, -, hj⟩ := (output_descent n buffer).responds hscheduled hnoFlush i ⟨h, hopen⟩
    exact ⟨j, hj⟩
  · exact ⟨i, h.waits.delivered (Nat.not_le.mp hopen)⟩

-- What the asynchronous codec is for

/-- The buffers come out in order and once each, none is older than the last flush, and after a
flush the tasks run again. -/
structure KeepsOrder (s : System) : Prop where
  accepted : s.accepted.Sublist s.history.entered
  entered : s.history.entered.Nodup
  pushed : s.pushedDownstream.Sublist s.history.produced
  produced : s.history.produced.Nodup
  inputs : ∀ h ∈ s.history.handed, h.flushEnds ≤ h.buffer.flushes
  outputs : ∀ d ∈ s.history.delivered, d.flushEnds ≤ d.buffer.flushes
  handleRuns : s.flush = .idle → ¬ s.EosTaken → s.handleFrameTask_.runningState_ = .started
  decodeRuns : s.flush = .idle → ¬ s.EosProduced →
    s.decodeFrameTask_.runningState_ = .started ∧ s.outBufPool_.isActive_ = true
  pushRuns : s.flush = .idle → ¬ s.EosDelivered → s.pushTask_.runningState_ = .started

/-- Once the plug-in keeps taking input, it accepts every buffer on its way, up to an EOS buffer. -/
def ServesInputs (r : Endless step) : Prop :=
  KeepsTaking r → ∀ i n buffer, (r.state i).inputs.WaitsAt (fun b => b.eos = true) n buffer →
    ¬ (r.state i).EosTaken → ∃ j, (r.state j).accepted[n]? = some buffer

def ServesOutputs (r : Endless step) : Prop :=
  (r.state 0).outPortPushes = true → ∀ i n buffer,
    (r.state i).outputs.WaitsAt (fun b => b.eos = true) n buffer →
    ¬ (r.state i).EosDelivered → ∃ j, (r.state j).pushedDownstream[n]? = some buffer

theorem Separated.keepsOrder {s : System} (h : Separated s) : KeepsOrder s where
  accepted := (List.sublist_append_left _ _).trans h.inputs
  entered := h.numbered.1.nodup
  pushed := (List.sublist_append_left _ _).trans h.outputs
  produced := h.numbered.2.nodup
  inputs := h.fresh.handed
  outputs := h.fresh.delivered
  handleRuns hidle heos := by
    by_contra hpaused
    exact heos (h.restarts.handle (by rw [hidle]; rfl) (.inl hpaused))
  decodeRuns hidle heos := by
    constructor
    · by_contra hpaused
      exact heos (h.restarts.decode (by rw [hidle]; rfl) hpaused)
    · by_contra hclosed
      exact heos (h.restarts.pool (by rw [hidle]; rfl) (Bool.not_eq_true _ ▸ hclosed))
  pushRuns hidle heos := by
    by_contra hpaused
    exact heos (h.restarts.push hidle (.inl hpaused))

/-- Along a run without a flush. -/
theorem endless_idle {r : Endless step} (hnoFlush : NoFlush r) (h : Separated (r.state 0))
    (hsignals : Signals (r.state 0)) (hidle : (r.state 0).flush = .idle) (i : Nat) :
    Separated (r.state i) ∧ Signals (r.state i) ∧ (r.state i).flush = .idle ∧
      (r.state i).outPortPushes = (r.state 0).outPortPushes := by
  induction i with
  | zero => exact ⟨h, hsignals, hidle, rfl⟩
  | succ i ih =>
    obtain ⟨hseparated, hsignals, hidle, hpushes⟩ := ih
    obtain ⟨hseparated', hidle', hpushes'⟩ :=
      step_idle hseparated hidle (hnoFlush i) (r.steps i)
    exact ⟨hseparated', hsignals.step hseparated.phases (r.steps i), hidle',
      hpushes'.trans hpushes⟩

section Service

variable {r : Endless step}

theorem servesInputs (h : Separated (r.state 0)) (hsignals : Signals (r.state 0))
    (hidle : (r.state 0).flush = .idle) (hscheduled : Scheduled r) (hnoFlush : NoFlush r)
    (hnotified : Notified r) : ServesInputs r := by
  intro htakes i n buffer hwaits heos
  obtain ⟨hseparated, hsignals, hidle, -⟩ := endless_idle hnoFlush h hsignals hidle i
  exact input_accepted hscheduled hnoFlush htakes hnotified
    ⟨hseparated, hsignals, hidle, hwaits, heos⟩

theorem servesOutputs (h : Separated (r.state 0)) (hsignals : Signals (r.state 0))
    (hidle : (r.state 0).flush = .idle) (hscheduled : Scheduled r) (hnoFlush : NoFlush r) :
    ServesOutputs r := by
  intro hpushes i n buffer hwaits heos
  obtain ⟨hseparated, -, hidle, hsame⟩ := endless_idle hnoFlush h hsignals hidle i
  exact output_delivered hscheduled hnoFlush
    ⟨hseparated, hidle, hsame.trans hpushes, hwaits, heos⟩

end Service

-- Two tasks for ever

/-- From `s` on, `HandleFrame` and `FinishFrame` take steps as `turns` says, and the plug-in
takes every buffer. -/
def forever (turns : Nat → Bool) (s : System) : Nat → System
  | 0 => s
  | i + 1 =>
    if turns i then (forever turns s i).handleFrameBlock .ok
    else (forever turns s i).finishFrameBlock

def foreverRun (turns : Nat → Bool) (s : System) : Endless step where
  state := forever turns s
  label i := if turns i then .handleFrame .ok else .finishFrame
  steps i := by
    simp only [forever]
    split <;> rfl

section Forever

variable {turns : Nat → Bool} {s : System}

theorem foreverRun_noFlush : NoFlush (foreverRun turns s) := by
  intro i
  show (if turns i then Label.handleFrame .ok else .finishFrame) ≠ .enterFlushStart
  split <;> exact nofun

theorem foreverRun_takes : KeepsTaking (foreverRun turns s) := by
  rintro i ⟨-, hl⟩
  have hl : (if turns i then Label.handleFrame .ok else .finishFrame) = .handleFrame .errorAgain := hl
  split at hl <;> cases hl

/-- The other threads stay where they are. -/
theorem forever_idle (hpush : s.pushData = .idle) (hdone : s.outputDone = .idle) (i : Nat) :
    (forever turns s i).pushData = .idle ∧ (forever turns s i).outputDone = .idle := by
  induction i with
  | zero => exact ⟨hpush, hdone⟩
  | succ i ih =>
    simp only [forever]
    split
    · obtain ⟨que, need, notified, task, handed, heq, -⟩ :=
        (forever turns s i).handleFrameBlock_eq .ok
      rw [heq]
      exact ih
    · obtain ⟨que, task, delivered, heq, -⟩ := (forever turns s i).finishFrameBlock_eq
      rw [heq]
      exact ih

theorem foreverRun_scheduled (hpush : s.pushData = .idle) (hdone : s.outputDone = .idle)
    (hfinish : ∀ i, ∃ j ≥ i, turns j = false)
    (hhandle : ∀ i, ∃ j ≥ i, turns j = true ∨ ¬ Thread.Ready (forever turns s j) .handleFrame) :
    Scheduled (foreverRun turns s) := by
  intro thread i hready
  obtain ⟨hpush, hdone⟩ := @forever_idle turns s hpush hdone i
  have hacts : ∀ j, turns j = false → (foreverRun turns s).label j = .finishFrame := fun j hj =>
    if_neg (Bool.not_eq_true _ ▸ hj)
  cases thread with
  | pushData =>
    have h : Thread.Ready (forever turns s i) .pushData := hready i (Nat.le_refl i)
    rw [Thread.Ready, hpush] at h
    exact h.elim
  | outputDone => exact absurd hdone (hready i (Nat.le_refl i))
  | finishFrame =>
    obtain ⟨j, hj, hturn⟩ := hfinish i
    refine ⟨j, hj, ?_⟩
    rw [hacts j hturn]
    trivial
  | handleFrame =>
    obtain ⟨j, hj, hturn | hnot⟩ := hhandle i
    · refine ⟨j, hj, ?_⟩
      show Thread.Acts .handleFrame (if turns j then .handleFrame .ok else .finishFrame)
      rw [if_pos hturn]
      trivial
    · exact absurd (hready j hj) hnot

/-- A `HandleFrame` whose buffers the plug-in always takes does not wait on `cv_`. -/
theorem forever_notified (h : ∀ b, s.handleFrameTask_.loop ≠ .handler (.refused b) ∧
    s.handleFrameTask_.loop ≠ .handler (.beforeWait b) ∧
    s.handleFrameTask_.loop ≠ .handler (.waiting b)) : Notified (foreverRun turns s) := by
  suffices hall : ∀ i b, (forever turns s i).handleFrameTask_.loop ≠ .handler (.refused b) ∧
      (forever turns s i).handleFrameTask_.loop ≠ .handler (.beforeWait b) ∧
      (forever turns s i).handleFrameTask_.loop ≠ .handler (.waiting b) by
    rintro i
    refine ⟨i, Nat.le_refl i, ?_⟩
    rintro ⟨⟨b, hb⟩, -⟩
    exact (hall i b).2.2 hb
  intro i
  induction i with
  | zero => exact h
  | succ i ih =>
    simp only [forever]
    split
    · generalize forever turns s i = x at ih
      unfold System.handleFrameBlock System.afterPop
      grind [Task.goto, Task.leave, Task.turn, Task.pauseAsync]
    · obtain ⟨que, task, delivered, heq, -⟩ := (forever turns s i).finishFrameBlock_eq
      rw [heq]
      exact ih

end Forever

-- Runs

/-- **The codec keeps order, and a flush separates old data from new**, in every run whose flushes
overtake no call. From there on it serves its outputs, and its inputs where no `HandleFrame` is
left waiting. -/
theorem flush_separates {capacity freeBuffers lent : Nat} {outPortPushes : Bool}
    (hcapacity : 0 < capacity) {labels : List Label} {s : System}
    (halone : Runs.Along step FlushesAlone
      (configured capacity freeBuffers lent outPortPushes) labels)
    (hrun : run (configured capacity freeBuffers lent outPortPushes) labels = some s) :
    KeepsOrder s ∧ ∀ r : Endless step, r.state 0 = s → s.flush = .idle → Scheduled r → NoFlush r →
      ServesOutputs r ∧ (Notified r → ServesInputs r) := by
  have hseparated := (Separated.configured capacity freeBuffers lent outPortPushes).run halone hrun
  have hsignals : Phases s ∧ Signals s :=
    Runs.run_keeps (I := fun s => Phases s ∧ Signals s)
      (fun _ _ _ h hstep => ⟨h.1.step hstep, h.2.step h.1 hstep⟩)
      ⟨Phases.configured .., Signals.configured hcapacity ..⟩ hrun
  refine ⟨hseparated.keepsOrder, ?_⟩
  rintro r rfl hidle hscheduled hnoFlush
  exact ⟨servesOutputs hseparated hsignals.2 hidle hscheduled hnoFlush,
    servesInputs hseparated hsignals.2 hidle hscheduled hnoFlush⟩

/-- A whole `FlushStart` of a mode whose tasks have nothing to do. -/
def flushStart : List Label :=
  [.enterFlushStart, .flush, .flush, .flush, .handleFrame .ok, .handleFrame .ok, .flush, .flush,
    .flush, .decodeFrame true .ok, .decodeFrame true .ok, .flush, .flush, .finishFrame,
    .finishFrame, .flush, .flush]

def flushEnd : List Label := [.enterFlushEnd, .flush, .flush, .flush, .flush, .flush, .flush]

def pushAfterFlush : List Label :=
  ([.enterPushData 0, .pushData, .pushData] : List Label) ++ flushStart ++ flushEnd ++
    ([.enterPushData 0, .pushData, .pushData] : List Label)

def pushedAfterFlush : System :=
  (run (configured 5 4 0 true) pushAfterFlush).getD (configured 5 4 0 true)

theorem flush_separates_pushAfterFlush :
    KeepsOrder pushedAfterFlush ∧
      ∃ i, (forever (fun i => i % 2 == 0) pushedAfterFlush i).accepted[0]? = some ⟨0, 1, 1⟩ := by
  have hrun : run (configured 5 4 0 true) pushAfterFlush = some pushedAfterFlush := by decide
  obtain ⟨hkeeps, hserves⟩ := flush_separates (by decide) (by decide) hrun
  have hscheduled : Scheduled (foreverRun (fun i => i % 2 == 0) pushedAfterFlush) :=
    foreverRun_scheduled (by decide) (by decide)
      (fun i => ⟨2 * i + 1, by omega, beq_false_of_ne (by omega)⟩)
      (fun i => ⟨2 * i, by omega, .inl (beq_iff_eq.mpr (by omega))⟩)
  have hloop : pushedAfterFlush.handleFrameTask_.loop = .parked := by decide
  have hinputs := (hserves _ rfl (by decide) hscheduled foreverRun_noFlush).2
    (forever_notified (by rw [hloop]; exact fun b => ⟨nofun, nofun, nofun⟩))
  refine ⟨hkeeps, hinputs foreverRun_takes 0 0 ⟨0, 1, 1⟩ ⟨by decide, fun i b hi hlt => ?_⟩ ?_⟩
  · omega
  · rintro ⟨x, hx, -⟩
    exact absurd hx (by decide +revert)

/-- A `PushData` that has passed the test of `stopped_` queues its buffer after the flush. -/
def pushOvertaken : List Label :=
  ([.enterPushData 0, .pushData] : List Label) ++ flushStart ++ flushEnd ++
    ([.pushData, .handleFrame .ok, .handleFrame .ok, .handleFrame .ok, .handleFrame .ok] :
      List Label)

/-- An `OnOutputBufferDone` queues its buffer after the output queue has been cleared. -/
def outputOvertaken : List Label :=
  ([.enterOutputDone 0] : List Label) ++ flushStart ++ ([.outputDone] : List Label) ++ flushEnd ++
    ([.finishFrame, .finishFrame, .finishFrame, .finishFrame] : List Label)

/-- The plug-in delivers an output between the refusal of a buffer and the wait for `cv_`. -/
def notificationLost : List Label :=
  [.enterPushData 0, .pushData, .pushData, .handleFrame .ok, .handleFrame .ok,
    .handleFrame .errorAgain, .handleFrame .ok, .enterOutputDone 0, .outputDone, .outputDone,
    .handleFrame .ok]

def leftWaiting : System :=
  (run (configured 5 0 1 true) notificationLost).getD (configured 5 0 1 true)

/-- Without a turn of `HandleFrame`, nothing is handed to the plug-in. -/
theorem forever_accepted (s : System) (i : Nat) :
    (forever (fun _ => false) s i).accepted = s.accepted ∧
      (forever (fun _ => false) s i).handleFrameTask_ = s.handleFrameTask_ ∧
      (forever (fun _ => false) s i).cv_ = s.cv_ := by
  induction i with
  | zero => exact ⟨rfl, rfl, rfl⟩
  | succ i ih =>
    obtain ⟨que, task, delivered, heq, -⟩ := (forever (fun _ => false) s i).finishFrameBlock_eq
    simp only [forever, Bool.false_eq_true, if_false]
    rw [heq]
    exact ih

theorem leftWaiting_scheduled : Scheduled (foreverRun (fun _ => false) leftWaiting) := by
  refine foreverRun_scheduled (by decide) (by decide) (fun i => ⟨i, Nat.le_refl i, rfl⟩)
    fun i => ⟨i, Nat.le_refl i, .inr ?_⟩
  obtain ⟨-, hloop, hcv⟩ := forever_accepted leftWaiting i
  have hwaits : leftWaiting.handleFrameTask_.loop = .handler (.waiting ⟨0, 0, 0⟩) := by decide
  have hasleep : leftWaiting.cv_ = false := by decide
  rw [Thread.Ready, hloop, hwaits, hcv, hasleep]
  exact Bool.false_ne_true

theorem leftWaiting_not_served : ¬ ServesInputs (foreverRun (fun _ => false) leftWaiting) := by
  intro hserves
  obtain ⟨i, hi⟩ := hserves foreverRun_takes 0 0 ⟨0, 0, 0⟩
    ⟨by decide, fun i b _ hlt => by omega⟩ (by rintro ⟨x, hx, htaken, -⟩; revert x; decide)
  have hnone : leftWaiting.accepted = [] := by decide
  have hi : (forever (fun _ => false) leftWaiting i).accepted[0]? = some ⟨0, 0, 0⟩ := hi
  rw [(forever_accepted leftWaiting i).1, hnone] at hi
  cases hi

/-- A flush hands an old input to the plug-in, and pushes an old output downstream; a buffer whose
refusal was overtaken by an output stays in `HandleFrame`. -/
theorem calls_overtaken :
    (∃ s, run (configured 5 4 0 true) pushOvertaken = some s ∧ ¬ KeepsOrder s) ∧
      (∃ s, run (configured 5 0 1 true) outputOvertaken = some s ∧ ¬ KeepsOrder s) ∧
      run (configured 5 0 1 true) notificationLost = some leftWaiting ∧
      Scheduled (foreverRun (fun _ => false) leftWaiting) ∧
      ¬ ServesInputs (foreverRun (fun _ => false) leftWaiting) := by
  refine ⟨⟨_, rfl, fun h => ?_⟩, ⟨_, rfl, fun h => ?_⟩, by decide, leftWaiting_scheduled,
    leftWaiting_not_served⟩
  · exact absurd (h.inputs ⟨⟨0, 0, 0⟩, 1, true⟩ (by decide)) (by decide)
  · exact absurd (h.outputs ⟨⟨0, 0, 0⟩, 1⟩ (by decide)) (by decide)

end MediaFoundation.AsyncMode
