import MediaFoundation.Codec.FlushOrder
import MediaFoundation.Lib.Response

/-!
# What the tasks of an asynchronous codec bring about

Between two flushes nothing is lost: the buffers whose `PushData` was entered form a line, and so
do the outputs of the plug-in. As long as the plug-in takes input and the threads are scheduled
fairly, each buffer of the line reaches its end, up to the first EOS buffer. The one exception is a
`HandleFrame` that waits on `cv_`: the notification it waits for is lost when it comes between the
refusal of the plug-in and the wait, and nobody has to send another one.
-/

namespace MediaFoundation.AsyncMode

open Conveyor Response

-- Waits in the input queue

structure Signals (s : System) : Prop where
  room : 0 < s.inBufQue_.capacity_
  bound : s.inBufQue_.que_.length ≤ s.inBufQue_.capacity_
  full : ∀ b, s.pushData = .waiting b → s.inBufQue_.cvFull_ = false →
    s.inBufQue_.isActive = true ∧ s.inBufQue_.capacity_ ≤ s.inBufQue_.que_.length
  empty : s.handleFrameTask_.loop = .handler .waitingPop →
    (s.inBufQue_.cvEmpty_ = false ↔ s.inBufQue_.isActive = true ∧ s.inBufQue_.que_ = [])

namespace Signals

variable {s t : System} {l : Label}

theorem configured {capacity : Nat} (hcapacity : 0 < capacity) (freeBuffers lent : Nat)
    (outPortPushes : Bool) : Signals (configured capacity freeBuffers lent outPortPushes) where
  room := hcapacity
  bound := Nat.zero_le _
  full _ h := by cases h
  empty h := by cases h

theorem afterPush (h : Signals s) {buffer : AVBuffer} {r : BlockingQueue × Bool}
    (hr : r = (s.inBufQue_, true) ∨
      s.inBufQue_.isActive = true ∧ s.inBufQue_.capacity_ ≤ s.inBufQue_.que_.length ∧
        (∃ notified, r = ({ s.inBufQue_ with cvFull_ := notified }, false)) ∨
      s.inBufQue_.que_.length < s.inBufQue_.capacity_ ∧
        r = (s.inBufQue_.enqueue buffer, true)) : Signals (s.afterPush buffer r) := by
  rcases hr with rfl | ⟨hactive, hfull, notified, rfl⟩ | ⟨hroom, rfl⟩
  · exact { h with full := fun _ hb => by cases hb }
  · exact { h with full := fun _ _ _ => ⟨hactive, hfull⟩ }
  · exact {
      room := h.room
      bound := by
        show (s.inBufQue_.que_ ++ [buffer]).length ≤ s.inBufQue_.capacity_
        rw [List.length_append, List.length_singleton]
        exact hroom
      full := fun _ hb => by cases hb
      empty := fun _ => by simp [System.afterPush, BlockingQueue.enqueue] }

theorem pushDataBlock (h : Signals s) (hstep : s.pushDataBlock = some t) : Signals t := by
  unfold System.pushDataBlock at hstep
  split at hstep
  next => cases hstep
  next buffer hpc =>
    cases hstep
    refine { h with full := fun b hb => ?_ }
    dsimp only at hb
    split at hb <;> cases hb
  next buffer hpc =>
    cases hstep
    refine h.afterPush ?_
    rcases s.inBufQue_.push_spec buffer with ⟨-, heq⟩ | ⟨hactive, hfull, heq⟩ | ⟨-, hroom, heq⟩
    · exact .inl heq
    · exact .inr (.inl ⟨hactive, hfull, false, heq⟩)
    · exact .inr (.inr ⟨hroom, heq⟩)
  next buffer hpc =>
    cases hstep
    refine h.afterPush ?_
    rcases s.inBufQue_.pushWoken_spec buffer with
      ⟨-, heq⟩ | ⟨hactive, hfull, heq⟩ | ⟨-, hroom, heq⟩
    · exact .inl heq
    · exact .inr (.inl ⟨hactive, hfull, s.inBufQue_.cvFull_, heq⟩)
    · exact .inr (.inr ⟨hroom, heq⟩)

theorem afterPop (h : Signals s) {r : BlockingQueue × BlockingQueue.Popped}
    (hr : r = (s.inBufQue_, .returns none) ∨
      s.inBufQue_.isActive = true ∧ s.inBufQue_.que_ = [] ∧
        r = ({ s.inBufQue_ with cvEmpty_ := false }, .waits) ∨
      ∃ el rest, s.inBufQue_.que_ = el :: rest ∧
        r = ({ s.inBufQue_ with que_ := rest, cvFull_ := true }, .returns (some el))) :
    Signals (s.afterPop r) := by
  rcases hr with rfl | ⟨hactive, hempty, rfl⟩ | ⟨el, rest, hque, rfl⟩
  · exact { h with empty := fun hb => by cases hb }
  · exact { h with empty := fun _ => ⟨fun _ => ⟨hactive, hempty⟩, fun _ => rfl⟩ }
  · have hbound := h.bound
    rw [hque, List.length_cons] at hbound
    exact {
      room := h.room
      bound := Nat.le_of_succ_le hbound
      full := fun _ _ hfalse => by cases hfalse
      empty := fun hb => by cases hb }

theorem of_loop (h : Signals s) {need notified : Bool} {task : Task HandleFrame} {g : History}
    (hloop : task.loop ≠ .handler .waitingPop) :
    Signals { s with
      isNeedQueueInputBuffer_ := need
      cv_ := notified
      handleFrameTask_ := task
      history := g } :=
  { h with empty := fun hpc => absurd hpc hloop }

theorem handleFrameBlock (h : Signals s) (status : Status) :
    Signals (s.handleFrameBlock status) := by
  unfold System.handleFrameBlock
  split
  next hpc =>
    refine h.afterPop ?_
    rcases s.inBufQue_.pop_spec with ⟨-, heq⟩ | ⟨hactive, hempty, heq⟩ | ⟨el, rest, -, hque, heq⟩
    · exact .inl heq
    · exact .inr (.inl ⟨hactive, hempty, heq⟩)
    · exact .inr (.inr ⟨el, rest, hque, heq⟩)
  next hpc =>
    refine h.afterPop ?_
    rcases s.inBufQue_.popWoken_spec with
      ⟨-, heq⟩ | ⟨hactive, hempty, heq⟩ | ⟨el, rest, -, hque, heq⟩
    · exact .inl heq
    · refine .inr (.inl ⟨hactive, hempty, ?_⟩)
      rw [heq, ← (h.empty hpc).mpr ⟨hactive, hempty⟩]
    · exact .inr (.inr ⟨el, rest, hque, heq⟩)
  next => exact h.of_loop (by simp [Task.goto]; split <;> simp)
  next => exact h.of_loop (by simp [Task.goto]; split <;> simp)
  next => exact h.of_loop fun hloop => by cases hloop
  next => exact h.of_loop fun hloop => by cases hloop
  next => exact h.of_loop fun hloop => by cases hloop
  next hwaiting _ _ _ _ _ =>
    refine h.of_loop fun hloop => ?_
    unfold Task.turn at hloop
    grind

theorem of_eq (h : Signals s) (hque : t.inBufQue_ = s.inBufQue_) (hpc : t.pushData = s.pushData)
    (hloop : t.handleFrameTask_.loop = s.handleFrameTask_.loop) : Signals t where
  room := hque ▸ h.room
  bound := hque ▸ h.bound
  full := hque ▸ hpc ▸ h.full
  empty := hque ▸ hloop ▸ h.empty

theorem deactivateQueue (h : Signals s) :
    Signals { s with inBufQue_ := s.inBufQue_.setActive false, flush := .testNeed } where
  room := h.room.trans_eq BlockingQueue.setActive_capacity.symm
  bound := by
    show (s.inBufQue_.setActive false).que_.length ≤ _
    rw [BlockingQueue.setActive_false.1]
    exact Nat.zero_le _
  full := by
    intro b hb hfalse
    have hroom := h.room
    have hbound := h.bound
    have hfull := h.full b hb
    simp [BlockingQueue.setActive, BlockingQueue.clearUnprotected] at hfalse
    grind
  empty _ := by simp [BlockingQueue.setActive]

theorem flushBlock (h : Signals s) (hphases : Phases s) (hstep : s.flushBlock = some t) :
    Signals t := by
  unfold System.flushBlock at hstep
  split at hstep
  case h_2 =>
    cases hstep
    exact h.deactivateQueue
  case h_5 =>
    cases hstep
    exact h.of_eq rfl rfl (Task.pause_loop _)
  case h_14 hflush =>
    cases hstep
    have hrests := hphases.handleRests (hphases.handlePaused (by rw [hflush]; rfl))
    exact { h with
      full := fun b hb hfalse => ⟨rfl, (h.full b hb hfalse).2⟩
      empty := fun hpc => absurd hpc (hrests _) }
  case h_6 | h_9 | h_11 =>
    split at hstep
    · cases hstep
      exact { h with }
    · cases hstep
  case h_1 | h_13 => cases hstep
  all_goals
    cases hstep
    exact { h with }

theorem step (h : Signals s) (hphases : Phases s) (hstep : step s l = some t) : Signals t := by
  cases l with
  | enterPushData flag =>
    obtain ⟨-, buffer, -, rfl⟩ := System.enterPushData_some hstep
    exact { h with full := nofun }
  | pushData => exact h.pushDataBlock hstep
  | handleFrame status => exact Option.some.inj hstep ▸ h.handleFrameBlock status
  | decodeFrame valid status =>
    obtain ⟨pool, notified, task, heq, -⟩ := s.decodeFrameBlock_eq valid status
    exact Option.some.inj hstep ▸ heq ▸ { h with }
  | finishFrame =>
    obtain ⟨que, task, delivered, heq, -⟩ := s.finishFrameBlock_eq
    exact Option.some.inj hstep ▸ heq ▸ { h with }
  | enterOutputDone flag =>
    obtain ⟨-, buffer, -, rfl⟩ := System.enterOutputDone_some hstep
    exact { h with }
  | outputDone =>
    obtain ⟨need, notified, pool, que, task, pc, rfl, -⟩ := System.outputDoneBlock_some hstep
    exact { h with }
  | enterFlushStart =>
    obtain ⟨-, rfl⟩ := System.enterFlushStart_some hstep
    exact { h with }
  | enterFlushEnd =>
    obtain ⟨-, rfl⟩ := System.enterFlushEnd_some hstep
    exact { h with }
  | flush => exact h.flushBlock hphases hstep
  | release =>
    obtain rfl := System.release_some hstep
    exact { h with }

end Signals

-- Schedules

inductive Thread where
  | pushData
  | handleFrame
  | outputDone
  | finishFrame
deriving DecidableEq

/-- The thread can take a step that it has been called or notified for. -/
def Thread.Ready (s : System) : Thread → Prop
  | .pushData =>
    match s.pushData with
    | .idle => False
    | .waiting _ => s.inBufQue_.cvFull_ = true
    | _ => True
  | .handleFrame =>
    match s.handleFrameTask_.loop with
    | .handler .waitingPop => s.inBufQue_.cvEmpty_ = true
    | .handler (.waiting _) => s.cv_ = true
    | _ => True
  | .outputDone => s.outputDone ≠ .idle
  | .finishFrame => True

def Thread.Acts : Thread → Label → Prop
  | .pushData, .pushData => True
  | .handleFrame, .handleFrame _ => True
  | .outputDone, .outputDone => True
  | .finishFrame, .finishFrame => True
  | _, _ => False

def Scheduled (r : Endless step) : Prop :=
  Fair (fun thread s => Thread.Ready s thread) (fun thread _ l => thread.Acts l) r

def NoFlush (r : Endless step) : Prop := ∀ i, r.label i ≠ .enterFlushStart

def Refuses (s : System) (l : Label) : Prop :=
  (∃ b, s.handleFrameTask_.loop = .handler (.queueInput b)) ∧ l = .handleFrame .errorAgain

def KeepsTaking (r : Endless step) : Prop := ∀ i, ¬ Refuses (r.state i) (r.label i)

def System.WaitsForNotify (s : System) : Prop :=
  (∃ b, s.handleFrameTask_.loop = .handler (.waiting b)) ∧ s.cv_ = false

/-- `HandleFrame` does not wait on `cv_` for ever. -/
def Notified (r : Endless step) : Prop := ∀ i, ∃ j ≥ i, ¬ (r.state j).WaitsForNotify

-- Between two flushes

section Idle

variable {s t : System} {l : Label}

theorem serves_of_idle (hidle : s.flush = .idle) (hstart : l ≠ .enterFlushStart)
    (hstep : step s l = some t) : l.serves = true := by
  cases l with
  | enterFlushStart => exact absurd rfl hstart
  | enterFlushEnd =>
    obtain ⟨hflushed, -⟩ := System.enterFlushEnd_some hstep
    rw [hidle] at hflushed
    cases hflushed
  | flush =>
    unfold step System.flushBlock at hstep
    rw [hidle] at hstep
    cases hstep
  | _ => rfl

/-- Without a flush, a run stays where nothing is lost. -/
theorem step_idle (h : Separated s) (hidle : s.flush = .idle) (hstart : l ≠ .enterFlushStart)
    (hstep : step s l = some t) :
    Separated t ∧ t.flush = .idle ∧ t.outPortPushes = s.outPortPushes := by
  have hserves := serves_of_idle hidle hstart hstep
  obtain ⟨hflush, hpushes, -⟩ := step_serves hstep hserves
  refine ⟨h.step ?_ hstep, hflush.trans hidle, hpushes⟩
  rintro rfl
  cases hserves

end Idle

-- The inputs

/-- A buffer has a place in the line of inputs, and no EOS buffer was taken since the last flush or
is ahead of it. -/
structure InputWaits (n : Nat) (buffer : AVBuffer) (s : System) : Prop where
  separated : Separated s
  signals : Signals s
  idle : s.flush = .idle
  waits : s.inputs.WaitsAt (fun b => b.eos = true) n buffer
  noEos : ¬ s.EosTaken

namespace InputWaits

variable {n : Nat} {waiting : AVBuffer} {s t : System} {l : Label}

theorem eosTaken_next (hserves : l.serves = true) (hstep : step s l = some t) (ht : t.EosTaken)
    (hs : ¬ s.EosTaken) : ∃ b, b.eos = true ∧ t.accepted = s.accepted ++ [b] := by
  obtain ⟨-, -, hrecorded⟩ := step_serves hstep hserves
  obtain ⟨x, hx, htaken, heos, hends⟩ := ht
  have hold : ∀ {g : History}, g.handed = s.history.handed → g.flushEnds = s.history.flushEnds →
      x ∈ g.handed → x.flushEnds = g.flushEnds → False := by
    intro g hhanded hflush hmem hends
    exact hs ⟨x, hhanded ▸ hmem, htaken, heos, hends.trans hflush⟩
  have haccepted : ∀ g : History, g = t.history →
      t.accepted = (g.handed.filter Handed.taken).map Handed.buffer := by
    rintro g rfl
    rfl
  generalize t.history = g at hrecorded hx hends haccepted
  cases hrecorded with
  | handed b taken hpc =>
    rcases List.mem_append.mp hx with hx | hx
    · exact absurd ⟨x, hx, htaken, heos, hends⟩ hs
    · obtain rfl := List.mem_singleton.mp hx
      refine ⟨b, heos, (haccepted _ rfl).trans ?_⟩
      simp only [] at htaken
      simp [System.accepted, htaken]
  | _ => exact (hold rfl rfl hx hends).elim

theorem step (h : InputWaits n waiting s) (hstart : l ≠ .enterFlushStart)
    (hstep : step s l = some t) (hn : t.accepted.length ≤ n) : InputWaits n waiting t := by
  obtain ⟨hseparated, hidle, -⟩ := step_idle h.separated h.idle hstart hstep
  have hmove := inputs_move h.separated.phases hstep
  have hkeeps : ¬ s.flush ≠ .idle := not_not.mpr h.idle
  refine ⟨hseparated, h.signals.step h.separated.phases hstep, hidle,
    h.waits.move hmove hkeeps, fun ht => ?_⟩
  obtain ⟨b, heos, hnext⟩ := eosTaken_next (serves_of_idle h.idle hstart hstep) hstep ht h.noEos
  exact h.waits.next_not_bad hmove hkeeps hnext hn heos

end InputWaits

/-- How many blocks `HandleFrame` needs to hand its next buffer to the plug-in. -/
def System.handleDistance (s : System) : Nat :=
  match s.handleFrameTask_.loop with
  | .handler (.queueInput _) => 1
  | .handler .waitingPop => 2
  | .handler (.waiting _) => if s.cv_ then 2 else 3
  | .handler .pop => 3
  | .handler (.beforeWait _) => 4
  | .top => 4
  | .handler (.refused _) => 5
  | .locking => 5
  | .parked => 5
  | .handler (.finish _) => 6

/-- How many buffers have left `PushData`. -/
def System.passed (s : System) : Nat :=
  s.accepted.length + s.inputs.hand.length + s.inBufQue_.que_.length

/-- How many blocks `PushData` needs to queue its buffer. -/
def PushData.distance : PushData → Nat
  | .idle => 0
  | .entered _ => 3
  | .pushing _ => 2
  | .waiting _ => 1

/-- How many blocks `PushData` needs to queue the buffer at place `n`. -/
def System.pushDistance (n : Nat) (s : System) : Nat :=
  if n < s.passed then 0 else s.pushData.distance

/-- How far the buffer at place `n` is from the plug-in. -/
def System.inputDistance (n : Nat) (s : System) : Nat :=
  6 * (n - s.accepted.length) + s.handleDistance + s.pushDistance n

/-- Who brings the buffers on: `PushData` where `HandleFrame` waits for one, and nobody where it
waits on `cv_`. -/
def System.inputHelper (s : System) : Option Thread :=
  match s.handleFrameTask_.loop with
  | .handler .waitingPop => if s.inBufQue_.cvEmpty_ then some .handleFrame else some .pushData
  | .handler (.waiting _) => if s.cv_ then some .handleFrame else none
  | _ => some .handleFrame

def Helps (s : System) (l : Label) : Prop := ∃ thread, s.inputHelper = some thread ∧ thread.Acts l

/-- The step brings the buffer at place `n` closer, or is none of the helper. -/
def Approaches (n : Nat) (s : System) (l : Label) (t : System) : Prop :=
  t.inputDistance n < s.inputDistance n ∨
    t.inputDistance n = s.inputDistance n ∧ t.inputHelper = s.inputHelper ∧ ¬ Helps s l

namespace InputWaits

variable {n : Nat} {waiting : AVBuffer} {s t : System} {l : Label}

theorem active (h : InputWaits n waiting s) : s.inBufQue_.isActive = true := by
  rw [h.separated.phases.active, h.idle]
  rfl

theorem stopped (h : InputWaits n waiting s) : s.stopped_ = false := by
  rw [h.separated.phases.stopped, h.idle]
  rfl

theorem not_pauses (h : InputWaits n waiting s) : ¬ s.HandlePauses :=
  fun hp => h.noEos (h.separated.restarts.handle (by rw [h.idle]; rfl) hp)

theorem started (h : InputWaits n waiting s) : s.handleFrameTask_.runningState_ = .started :=
  not_not.mp (not_or.mp h.not_pauses).1

/-- A task that goes on without touching the buffers. -/
theorem approaches_of_loop (hdistance : t.handleDistance < s.handleDistance)
    (haccepted : t.accepted = s.accepted) (hpassed : t.passed = s.passed)
    (hpc : t.pushData = s.pushData) : Approaches n s l t := by
  left
  unfold System.inputDistance System.pushDistance
  rw [haccepted, hpassed, hpc]
  omega

theorem handleFrame (h : InputWaits n waiting s) {status : Status}
    (htakes : ¬ Refuses s (.handleFrame status))
    (hn : (s.handleFrameBlock status).accepted.length ≤ n) :
    Approaches n s (.handleFrame status) (s.handleFrameBlock status) := by
  have hstarted := h.started
  have hactive := h.active
  cases hloop : s.handleFrameTask_.loop with
  | top | locking | parked =>
    refine approaches_of_loop ?_ ?_ ?_ ?_
    all_goals simp [System.handleFrameBlock, hloop, Task.turn, hstarted, System.handleDistance,
      System.accepted, System.passed, System.inputs, Loop.held, HandleFrame.held]
  | handler pc =>
    cases pc with
    | pop =>
      rcases s.inBufQue_.pop_spec with ⟨hclosed, -⟩ | ⟨-, hempty, heq⟩ | ⟨el, rest, -, hque, heq⟩
      · rw [hactive] at hclosed
        cases hclosed
      · refine approaches_of_loop ?_ ?_ ?_ ?_
        all_goals simp [System.handleFrameBlock, hloop, heq, System.afterPop, Task.goto,
          System.handleDistance, System.accepted, System.passed, System.inputs, Loop.held,
          HandleFrame.held]
      · refine approaches_of_loop ?_ ?_ ?_ ?_
        all_goals simp [System.handleFrameBlock, hloop, heq, System.afterPop, Task.goto,
          System.handleDistance, System.accepted, System.passed, System.inputs, Loop.held,
          HandleFrame.held, hque]
        omega
    | waitingPop =>
      rcases s.inBufQue_.popWoken_spec with
        ⟨hclosed, -⟩ | ⟨-, hempty, heq⟩ | ⟨el, rest, -, hque, heq⟩
      · rw [hactive] at hclosed
        cases hclosed
      · -- a wake-up for no reason
        have hasleep := (h.signals.empty hloop).mpr ⟨hactive, hempty⟩
        right
        refine ⟨?_, ?_, ?_⟩
        · simp [System.handleFrameBlock, hloop, heq, System.afterPop, Task.goto,
            System.inputDistance, System.pushDistance, System.handleDistance, System.accepted,
            System.passed, System.inputs, Loop.held, HandleFrame.held]
        · simp [System.handleFrameBlock, hloop, heq, System.afterPop, Task.goto,
            System.inputHelper]
        · rintro ⟨thread, hthread, hacts⟩
          simp only [System.inputHelper, hloop, hasleep] at hthread
          cases hthread
          exact hacts
      · refine approaches_of_loop ?_ ?_ ?_ ?_
        all_goals simp [System.handleFrameBlock, hloop, heq, System.afterPop, Task.goto,
          System.handleDistance, System.accepted, System.passed, System.inputs, Loop.held,
          HandleFrame.held, hque]
        omega
    | queueInput b =>
      have htaken : status ≠ .errorAgain := fun hagain => htakes ⟨⟨b, hloop⟩, by rw [hagain]⟩
      have haccepted : (s.handleFrameBlock status).accepted = s.accepted ++ [b] := by
        simp [System.handleFrameBlock, hloop, System.accepted, htaken]
      have hpassed : (s.handleFrameBlock status).passed = s.passed := by
        rw [System.passed, haccepted, System.passed]
        simp [System.inputs, hloop, Loop.held, HandleFrame.held, System.handleFrameBlock,
          Task.goto, htaken]
      have hpc : (s.handleFrameBlock status).pushData = s.pushData := by
        simp [System.handleFrameBlock, hloop]
      have hbefore : s.handleDistance = 1 := by simp [System.handleDistance, hloop]
      have hafter : (s.handleFrameBlock status).handleDistance = 6 := by
        simp [System.handleFrameBlock, hloop, System.handleDistance, Task.goto, htaken]
      left
      unfold System.inputDistance System.pushDistance
      rw [haccepted, List.length_append, List.length_singleton] at hn ⊢
      rw [hpassed, hpc, hbefore, hafter]
      omega
    | waiting b =>
      refine approaches_of_loop ?_ ?_ ?_ ?_
      · simp only [System.handleFrameBlock, hloop, System.handleDistance, Task.goto]
        split <;> omega
      all_goals simp [System.handleFrameBlock, hloop, Task.goto,
        System.accepted, System.passed, System.inputs, Loop.held, HandleFrame.held]
    | refused b | beforeWait b | finish b =>
      refine approaches_of_loop ?_ ?_ ?_ ?_
      all_goals simp [System.handleFrameBlock, hloop, h.stopped, System.handleDistance, Task.goto,
        Task.leave, System.accepted, System.passed, System.inputs, Loop.held, HandleFrame.held]

theorem asleep (h : InputWaits n waiting s) (hopen : s.accepted.length ≤ n)
    (hloop : s.handleFrameTask_.loop = .handler .waitingPop)
    (hasleep : s.inBufQue_.cvEmpty_ = false) : s.inBufQue_.que_ = [] ∧ s.passed ≤ n := by
  obtain ⟨-, hempty⟩ := (h.signals.empty hloop).mp hasleep
  refine ⟨hempty, ?_⟩
  simp [System.passed, System.inputs, hloop, Loop.held, HandleFrame.held, hempty]
  exact hopen

theorem not_helps_pushData (h : InputWaits n waiting s) (hopen : s.accepted.length ≤ n)
    (hbusy : s.inBufQue_.que_ ≠ [] ∨ n < s.passed) : ¬ Helps s .pushData := by
  rintro ⟨thread, hthread, hacts⟩
  unfold System.inputHelper at hthread
  split at hthread
  next hloop =>
    by_cases hcv : s.inBufQue_.cvEmpty_ = true
    · rw [if_pos hcv] at hthread
      cases hthread
      exact hacts
    · obtain ⟨hempty, hpassed⟩ := h.asleep hopen hloop (Bool.not_eq_true _ ▸ hcv)
      rcases hbusy with hbusy | hbusy
      · exact hbusy hempty
      · omega
  next hloop =>
    split at hthread
    · cases hthread
      exact hacts
    · cases hthread
  next =>
    cases hthread
    exact hacts

theorem length_line (s : System) :
    s.inputs.line.length = s.passed + s.pushData.pending.length := by
  show (s.accepted ++ (s.inputs.hand ++ s.inBufQue_.que_ ++ s.pushData.pending)).length = _
  rw [List.length_append, List.length_append, List.length_append, System.passed]
  omega

theorem calls (h : InputWaits n waiting s) (hpassed : s.passed ≤ n) : s.pushData ≠ .idle := by
  intro hidle
  have hentered := h.waits.lt_length
  rw [length_line, hidle] at hentered
  exact absurd hpassed (Nat.not_le.mpr hentered)

theorem approaches_of_pushData (h : InputWaits n waiting s) (hopen : s.accepted.length ≤ n)
    {que : BlockingQueue} {pc : PushData} (hque : que.que_ = s.inBufQue_.que_)
    (hcv : que.cvEmpty_ = s.inBufQue_.cvEmpty_) (hpc : pc.distance < s.pushData.distance) :
    Approaches n s .pushData { s with inBufQue_ := que, pushData := pc } := by
  have hpassed : System.passed { s with inBufQue_ := que, pushData := pc } = s.passed := by
    show s.accepted.length + s.inputs.hand.length + que.que_.length = s.passed
    rw [hque]
    rfl
  by_cases hn : n < s.passed
  · refine .inr ⟨?_, ?_, h.not_helps_pushData hopen (.inr hn)⟩
    · unfold System.inputDistance System.pushDistance
      rw [hpassed, if_pos hn, if_pos hn]
      rfl
    · unfold System.inputHelper
      dsimp only
      rw [hcv]
  · left
    unfold System.inputDistance System.pushDistance
    rw [hpassed, if_neg hn, if_neg hn]
    show 6 * (n - s.accepted.length) + s.handleDistance + pc.distance < _
    omega

theorem approaches_enqueue (h : InputWaits n waiting s) (hopen : s.accepted.length ≤ n)
    {buffer : AVBuffer} (hpending : s.pushData.pending = [buffer])
    (hdistance : 0 < s.pushData.distance) :
    Approaches n s .pushData (s.afterPush buffer (s.inBufQue_.enqueue buffer, true)) := by
  have hpassed : (s.afterPush buffer (s.inBufQue_.enqueue buffer, true)).passed = s.passed + 1 := by
    show s.accepted.length + s.inputs.hand.length + (s.inBufQue_.que_ ++ [buffer]).length = _
    rw [List.length_append, List.length_singleton, System.passed]
    rfl
  have hentered := h.waits.lt_length
  rw [length_line, hpending, List.length_singleton] at hentered
  by_cases hn : n < s.passed
  · refine .inr ⟨?_, ?_, h.not_helps_pushData hopen (.inr hn)⟩
    · unfold System.inputDistance System.pushDistance
      rw [hpassed, if_pos hn, if_pos hentered]
      rfl
    · unfold System.inputHelper
      dsimp only [System.afterPush, BlockingQueue.enqueue]
      split
      next hloop =>
        have hawake : s.inBufQue_.cvEmpty_ = true := by
          by_contra hasleep
          have hpassed := (h.asleep hopen hloop (Bool.not_eq_true _ ▸ hasleep)).2
          omega
        simp [hawake]
      next => rfl
      next => rfl
  · left
    unfold System.inputDistance System.pushDistance
    rw [hpassed, if_neg hn, if_pos hentered]
    show 6 * (n - s.accepted.length) + s.handleDistance + 0 < _
    omega

theorem pushData (h : InputWaits n waiting s) (hopen : s.accepted.length ≤ n)
    (hstep : s.pushDataBlock = some t) : Approaches n s .pushData t := by
  have hactive := h.active
  have hroom := h.signals.room
  unfold System.pushDataBlock at hstep
  split at hstep
  next => cases hstep
  next buffer hpc =>
    rw [h.stopped] at hstep
    cases hstep
    exact h.approaches_of_pushData hopen rfl rfl (by rw [hpc]; exact Nat.lt_succ_self 2)
  next buffer hpc =>
    cases hstep
    rcases s.inBufQue_.push_spec buffer with ⟨hclosed, -⟩ | ⟨-, hfull, heq⟩ | ⟨-, -, heq⟩
    · exact absurd (hactive.symm.trans hclosed) nofun
    · rw [heq]
      exact h.approaches_of_pushData hopen rfl rfl (by rw [hpc]; exact Nat.lt_succ_self 1)
    · rw [heq]
      exact h.approaches_enqueue hopen (congrArg PushData.pending hpc)
        (by rw [hpc]; exact Nat.zero_lt_two)
  next buffer hpc =>
    cases hstep
    rcases s.inBufQue_.pushWoken_spec buffer with ⟨hclosed, -⟩ | ⟨-, hfull, heq⟩ | ⟨-, -, heq⟩
    · exact absurd (hactive.symm.trans hclosed) nofun
    · -- a wake-up for no reason
      have hsame : s.afterPush buffer (s.inBufQue_, false) = s := by
        show { s with inBufQue_ := s.inBufQue_, pushData := .waiting buffer } = s
        rw [← hpc]
      rw [heq, hsame]
      refine .inr ⟨rfl, rfl, h.not_helps_pushData hopen (.inl fun hempty => ?_)⟩
      rw [hempty, List.length_nil] at hfull
      omega
    · rw [heq]
      exact h.approaches_enqueue hopen (congrArg PushData.pending hpc)
        (by rw [hpc]; exact Nat.one_pos)

theorem approaches_of_notify (hloop : t.handleFrameTask_ = s.handleFrameTask_)
    (hque : t.inBufQue_ = s.inBufQue_) (haccepted : t.accepted = s.accepted)
    (hpush : t.pushDistance n = s.pushDistance n) (hcv : s.cv_ = true → t.cv_ = true)
    (hacts : ¬ Helps s l) : Approaches n s l t := by
  have hsame : t.handleDistance < s.handleDistance ∨
      t.handleDistance = s.handleDistance ∧ t.inputHelper = s.inputHelper := by
    unfold System.handleDistance System.inputHelper
    rw [hloop, hque]
    cases hpc : s.handleFrameTask_.loop with
    | handler pc =>
      cases pc with
      | waiting b =>
        dsimp only
        cases hs : s.cv_ with
        | true => exact .inr (by rw [hcv hs]; exact ⟨rfl, rfl⟩)
        | false =>
          cases t.cv_ with
          | true => exact .inl (Nat.lt_succ_self 2)
          | false => exact .inr ⟨rfl, rfl⟩
      | _ => exact .inr ⟨rfl, rfl⟩
    | _ => exact .inr ⟨rfl, rfl⟩
  unfold Approaches System.inputDistance
  rw [haccepted, hpush]
  rcases hsame with hlt | ⟨heq, hhelper⟩
  · left
    omega
  · exact .inr ⟨by rw [heq], hhelper, hacts⟩

theorem enterPushData (h : InputWaits n waiting s) {flag : UInt32}
    (hstep : s.enterPushData flag = some t) : Approaches n s (.enterPushData flag) t := by
  obtain ⟨hidle, buffer, -, rfl⟩ := System.enterPushData_some hstep
  have hn : n < s.passed := Nat.not_le.mp fun hpassed => h.calls hpassed hidle
  refine approaches_of_notify rfl rfl rfl ?_ id ?_
  · unfold System.pushDistance
    rw [if_pos hn]
    exact if_pos hn
  · rintro ⟨thread, -, hacts⟩
    cases thread <;> exact hacts

theorem not_helps (hhandle : ∀ status, l ≠ .handleFrame status) (hpush : l ≠ .pushData) :
    ¬ Helps s l := by
  rintro ⟨thread, hthread, hacts⟩
  have hthread : thread = .handleFrame ∨ thread = .pushData := by
    unfold System.inputHelper at hthread
    grind
  rcases hthread with rfl | rfl
  · unfold Thread.Acts at hacts
    grind
  · unfold Thread.Acts at hacts
    grind

/-- **Every step approaches the plug-in**, or leaves it to the helper. -/
theorem approaches (h : InputWaits n waiting s) (hopen : s.accepted.length ≤ n)
    (hstart : l ≠ .enterFlushStart) (htakes : ¬ Refuses s l) (hstep : AsyncMode.step s l = some t)
    (hn : t.accepted.length ≤ n) : Approaches n s l t := by
  have hserves := serves_of_idle h.idle hstart hstep
  cases l with
  | enterPushData flag => exact h.enterPushData hstep
  | pushData => exact h.pushData hopen hstep
  | handleFrame status =>
    cases hstep
    exact h.handleFrame htakes hn
  | decodeFrame valid status =>
    obtain ⟨pool, notified, task, heq, hcv⟩ := s.decodeFrameBlock_eq valid status
    obtain rfl := heq.symm.trans (Option.some.inj hstep)
    exact approaches_of_notify rfl rfl rfl rfl hcv (not_helps nofun nofun)
  | finishFrame =>
    obtain ⟨que, task, delivered, heq, -⟩ := s.finishFrameBlock_eq
    obtain rfl := heq.symm.trans (Option.some.inj hstep)
    exact approaches_of_notify rfl rfl rfl rfl id (not_helps nofun nofun)
  | enterOutputDone flag =>
    obtain ⟨-, buffer, -, rfl⟩ := System.enterOutputDone_some hstep
    exact approaches_of_notify rfl rfl rfl rfl id (not_helps nofun nofun)
  | outputDone =>
    obtain ⟨need, notified, pool, que, task, pc, rfl, hcv⟩ := System.outputDoneBlock_some hstep
    exact approaches_of_notify rfl rfl rfl rfl hcv (not_helps nofun nofun)
  | release =>
    obtain rfl := System.release_some hstep
    exact approaches_of_notify rfl rfl rfl rfl id (not_helps nofun nofun)
  | enterFlushStart | enterFlushEnd | flush => cases hserves

end InputWaits

/-- A helper has something to do; where there is none, `HandleFrame` waits to be notified. -/
def helperReady (helper : Option Thread) (s : System) : Prop :=
  match helper with
  | some thread => thread.Ready s
  | none => s.WaitsForNotify

def helperActs (helper : Option Thread) (_ : System) (l : Label) : Prop :=
  match helper with
  | some thread => thread.Acts l
  | none => False

theorem helpers_fair {r : Endless step} (hscheduled : Scheduled r) (hnotified : Notified r) :
    Fair helperReady helperActs r := by
  intro helper i hready
  cases helper with
  | some thread => exact hscheduled thread i hready
  | none =>
    obtain ⟨j, hj, hnot⟩ := hnotified i
    exact absurd (hready j hj) hnot

theorem input_descent (n : Nat) (buffer : AVBuffer) :
    Descent step (fun s l => l ≠ .enterFlushStart ∧ ¬ Refuses s l) helperReady helperActs
      (fun s => InputWaits n buffer s ∧ s.accepted.length ≤ n)
      (fun s => s.accepted[n]? = some buffer) (System.inputDistance n) System.inputHelper where
  ready := by
    rintro s ⟨h, hopen⟩
    unfold helperReady System.inputHelper
    cases hloop : s.handleFrameTask_.loop with
    | handler pc =>
      cases pc with
      | waitingPop =>
        cases hcv : s.inBufQue_.cvEmpty_ with
        | true => simpa [Thread.Ready, hloop] using hcv
        | false =>
          obtain ⟨hempty, hpassed⟩ := h.asleep hopen hloop hcv
          have hroom := h.signals.room
          show Thread.Ready s .pushData
          unfold Thread.Ready
          cases hpc : s.pushData with
          | idle => exact h.calls hpassed hpc
          | waiting b =>
            by_contra hasleep
            have hfull := (h.signals.full b hpc (Bool.not_eq_true _ ▸ hasleep)).2
            rw [hempty, List.length_nil] at hfull
            omega
          | _ => trivial
      | waiting b =>
        cases hcv : s.cv_ with
        | true => simpa [Thread.Ready, hloop] using hcv
        | false => exact ⟨⟨b, hloop⟩, hcv⟩
      | _ => simp [Thread.Ready, hloop]
    | _ => simp [Thread.Ready, hloop]
  step := by
    rintro s l t ⟨h, hopen⟩ ⟨hstart, htakes⟩ hstep
    by_cases hn : t.accepted.length ≤ n
    · right
      refine ⟨⟨h.step hstart hstep hn, hn⟩, ?_⟩
      rcases h.approaches hopen hstart htakes hstep hn with hlt | ⟨heq, hhelper, hacts⟩
      · exact .inl hlt
      · refine .inr ⟨heq, hhelper, fun hhelps => hacts ?_⟩
        unfold helperActs at hhelps
        split at hhelps
        next thread hthread => exact ⟨thread, hthread, hhelps⟩
        next => exact hhelps.elim
    · left
      have hmove := inputs_move h.separated.phases hstep
      exact (h.waits.move hmove (not_not.mpr h.idle)).delivered (Nat.not_le.mp hn)

/-- **Every input is accepted**, once the plug-in keeps taking input. -/
theorem input_accepted {r : Endless step} (hscheduled : Scheduled r) (hnoFlush : NoFlush r)
    (htakes : KeepsTaking r) (hnotified : Notified r) {i n : Nat} {buffer : AVBuffer}
    (h : InputWaits n buffer (r.state i)) : ∃ j, (r.state j).accepted[n]? = some buffer := by
  by_cases hopen : (r.state i).accepted.length ≤ n
  · obtain ⟨j, -, hj⟩ := (input_descent n buffer).responds (helpers_fair hscheduled hnotified)
      (fun j => ⟨hnoFlush j, htakes j⟩) i ⟨h, hopen⟩
    exact ⟨j, hj⟩
  · exact ⟨i, h.waits.delivered (Nat.not_le.mp hopen)⟩

end MediaFoundation.AsyncMode
