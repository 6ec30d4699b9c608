import MediaFoundation.Lib.Runs

/-!
# MediaSynchronousSink

A sink that is told to wait until all sinks are prerolled (`media_synchronous_sink.cpp`): its
writes, and the threads that set the flag and notify it.

Conventions:

* The writes of a sink come one after another. `now` is the clock in nanoseconds, and `timeoutMs` is
  `waitPrerolledTimeout_` in milliseconds.
* A step is what is done between two accesses to the flag. A thread that sleeps may wake up at any
  time.
* `ReportPrerolled` is called by the first write, and calls `NotifyAllPrerolled` of the sink or does
  not: `allPrerolled`.
* `released` and `pending` only record what has happened.
-/

namespace MediaFoundation.SynchronousSink

inductive Phase where
  | idle
  | begun
  /-- It has found the flag set at the time, and is about to take the mutex. -/
  | found (since : Nat)
  /-- It sleeps, no longer than to the deadline. -/
  | asleep (since : Nat) (deadline : Int)
  /-- The wait is over. It has the mutex, and is about to clear the flag. -/
  | waited (since : Nat)
  /-- It is about to call `DoSyncWrite`. -/
  | writing (since : Option Nat)
deriving DecidableEq

def Phase.looked : Phase → Bool
  | .idle => false
  | .begun => false
  | _ => true

structure State where
  timeoutMs : Int
  waitForPrerolled : Bool := false
  hasReportedPreroll : Bool := false
  phase : Phase := .idle
  now : Nat := 0
  released : Bool := false
  /-- The sink has been told to wait since the last write looked, and not been released. -/
  pending : Bool := false

inductive Event where
  | write (allPrerolled : Bool)
  | look
  | lock
  /-- It has the mutex again, and tests the predicate. -/
  | wake
  | timeout
  | clear
  | doSyncWrite
  | waitAllPrerolled (shouldWait : Bool)
  | notifyAllPrerolled
  | resetPrerollReported
  | tick (ns : Nat)

def waitAllPrerolled (s : State) (shouldWait : Bool) : State :=
  { s with
    waitForPrerolled := shouldWait
    released := s.released || !shouldWait
    pending := shouldWait && (s.pending || s.phase.looked) }

/-- The predicate of the wait is that the flag is set, so nobody gets out of it here. -/
def notifyAllPrerolled (s : State) : State :=
  { s with
    waitForPrerolled := false
    released := true
    pending := false }

def mayGo (s : State) : Bool := s.waitForPrerolled

/-- The nanoseconds of the time that `WaitFor` waits until, which it does not carry over to the
seconds. -/
def tvNsec (s : State) : Int := s.now % 1000000000 + s.timeoutMs % 1000 * 1000000

def timeoutNs (s : State) : Int := s.timeoutMs * 1000000

def step (s : State) : Event → Option State
  | .write allPrerolled =>
    if s.phase = .idle then
      let reported :=
        if s.hasReportedPreroll = false ∧ allPrerolled = true then notifyAllPrerolled s else s
      some { reported with
        hasReportedPreroll := true
        phase := .begun }
    else none
  | .look =>
    if s.phase = .begun then some { s with
      phase := if s.waitForPrerolled then .found s.now else .writing none
      released := false
      pending := false }
    else none
  | .lock =>
    match s.phase with
    | .found since =>
      if s.timeoutMs < 0 ∨ mayGo s then some { s with phase := .waited since }
      -- `pthread_cond_timedwait` refuses such a time
      else if 1000000000 ≤ tvNsec s then some { s with phase := .waited since }
      else some { s with phase := .asleep since (s.now + timeoutNs s) }
    | _ => none
  | .wake =>
    match s.phase with
    | .asleep since _ => if mayGo s then some { s with phase := .waited since } else some s
    | _ => none
  | .timeout =>
    match s.phase with
    | .asleep since deadline =>
      if deadline ≤ s.now then some { s with phase := .waited since } else none
    | _ => none
  | .clear =>
    match s.phase with
    | .waited since => some { s with
      waitForPrerolled := false
      phase := .writing (some since) }
    | _ => none
  | .doSyncWrite =>
    match s.phase with
    | .writing _ => some { s with phase := .idle }
    | _ => none
  | .waitAllPrerolled shouldWait => some (waitAllPrerolled s shouldWait)
  | .notifyAllPrerolled =>
    match s.phase with
    -- the write has the mutex
    | .waited _ => none
    | _ => some (notifyAllPrerolled s)
  | .resetPrerollReported => some { s with hasReportedPreroll := false }
  | .tick ns => some { s with now := s.now + ns }

-- The property and the condition

/-- A write that found the flag set at the time may go on. -/
def Served (s : State) (since : Nat) : Prop :=
  s.released = true ∨ since + timeoutNs s ≤ s.now

def StepRight (s : State) : Event → Prop
  | .doSyncWrite => ∀ since, s.phase = .writing (some since) → Served s since
  -- who sleeps gets out of the wait
  | .notifyAllPrerolled => ∀ since deadline, s.phase = .asleep since deadline →
    ∃ s', step (notifyAllPrerolled s) .wake = some s' ∧ s'.phase = .waited since
  -- the next write finds the flag set
  | .look => s.pending = true → s.waitForPrerolled = true
  | _ => True

/-- The flag is not found set under the mutex unless the sink has been released since or the time is
up, nobody is notified who sleeps, and the flag is not cleared that has been set for the next
write. -/
def KeepsWaiting (s : State) : Event → Prop
  | .lock => ∀ since, s.phase = .found since → s.waitForPrerolled = true → Served s since
  | .notifyAllPrerolled => ∀ since deadline, s.phase ≠ .asleep since deadline
  | .clear => s.pending = false
  | _ => True

-- What the steps keep

def PhaseRight (s : State) : Phase → Prop
  | .found since => s.waitForPrerolled = true ∨ Served s since
  | .asleep since _ => Served s since
  | .waited since => Served s since
  | .writing (some since) => Served s since
  | _ => True

structure Inv (s : State) : Prop where
  phase : PhaseRight s s.phase
  pending : s.pending = true → s.waitForPrerolled = true

variable {s s' : State} {e : Event} {p : Phase} {since : Nat}

/-- Where time only goes on and the flag stays, so does what the phases say. -/
theorem PhaseRight.mono (h : PhaseRight s p) (hflag : s.waitForPrerolled = true →
      s'.waitForPrerolled = true ∨ s'.released = true)
    (hserved : ∀ since, Served s since → Served s' since) : PhaseRight s' p := by
  cases p with
  | idle | begun => trivial
  | found since =>
    rcases h with hset | hserves
    · rcases hflag hset with hset' | hreleased
      · exact Or.inl hset'
      · exact Or.inr (Or.inl hreleased)
    · exact Or.inr (hserved since hserves)
  | asleep since deadline | waited since => exact hserved since h
  | writing since =>
    cases since with
    | none => trivial
    | some since => exact hserved since h

theorem Inv.waitAllPrerolled (h : Inv s) (shouldWait : Bool) :
    Inv (waitAllPrerolled s shouldWait) := by
  refine ⟨h.phase.mono ?_ ?_, ?_⟩
  · intro _
    cases shouldWait <;> simp [SynchronousSink.waitAllPrerolled]
  · intro since hserved
    rcases hserved with hreleased | htime
    · exact Or.inl (by simp [SynchronousSink.waitAllPrerolled, hreleased])
    · exact Or.inr htime
  · intro hpending
    simp only [SynchronousSink.waitAllPrerolled, Bool.and_eq_true] at hpending
    exact hpending.1

theorem Inv.notifyAllPrerolled (h : Inv s) : Inv (notifyAllPrerolled s) := by
  refine ⟨h.phase.mono ?_ ?_, ?_⟩
  · intro _
    exact Or.inr rfl
  · intro since _
    exact Or.inl rfl
  · intro hpending
    cases hpending

theorem Inv.tick (h : Inv s) (ns : Nat) : Inv { s with now := s.now + ns } := by
  refine ⟨h.phase.mono Or.inl ?_, h.pending⟩
  intro since hserved
  rcases hserved with hreleased | htime
  · exact Or.inl hreleased
  · refine Or.inr ?_
    show (since : Int) + timeoutNs s ≤ (s.now + ns : Nat)
    omega

theorem Inv.lock (h : Inv s) (hkeeps : KeepsWaiting s .lock) (hphase : s.phase = .found since) :
    Served s since := by
  have hright := h.phase
  rw [hphase] at hright
  rcases hright with hset | hserved
  · exact hkeeps since hphase hset
  · exact hserved

theorem Inv.step (h : Inv s) (hkeeps : KeepsWaiting s e) (hstep : step s e = some s') : Inv s' := by
  cases e with
  | write allPrerolled =>
    simp only [SynchronousSink.step] at hstep
    split at hstep
    · injection hstep with hs
      subst hs
      refine ⟨trivial, ?_⟩
      split
      · exact h.notifyAllPrerolled.pending
      · exact h.pending
    · cases hstep
  | look =>
    simp only [SynchronousSink.step] at hstep
    split at hstep
    · injection hstep with hs
      subst hs
      refine ⟨?_, by simp⟩
      by_cases hset : s.waitForPrerolled = true
      · simp [hset, PhaseRight]
      · simp [hset, PhaseRight]
    · cases hstep
  | lock =>
    simp only [SynchronousSink.step] at hstep
    split at hstep
    · rename_i since hphase
      have hserved := h.lock hkeeps hphase
      split_ifs at hstep
      · injection hstep with hs
        subst hs
        exact ⟨hserved, h.pending⟩
      · injection hstep with hs
        subst hs
        exact ⟨hserved, h.pending⟩
      · injection hstep with hs
        subst hs
        exact ⟨hserved, h.pending⟩
    · cases hstep
  | wake =>
    simp only [SynchronousSink.step] at hstep
    split at hstep
    · rename_i since deadline hphase
      have hserved : Served s since := by simpa [hphase, PhaseRight] using h.phase
      split at hstep
      · injection hstep with hs
        subst hs
        exact ⟨hserved, h.pending⟩
      · injection hstep with hs
        subst hs
        exact h
    · cases hstep
  | timeout =>
    simp only [SynchronousSink.step] at hstep
    split at hstep
    · rename_i since deadline hphase
      have hserved : Served s since := by simpa [hphase, PhaseRight] using h.phase
      split at hstep
      · injection hstep with hs
        subst hs
        exact ⟨hserved, h.pending⟩
      · cases hstep
    · cases hstep
  | clear =>
    simp only [SynchronousSink.step] at hstep
    split at hstep
    · rename_i since hphase
      have hserved : Served s since := by simpa [hphase, PhaseRight] using h.phase
      injection hstep with hs
      subst hs
      refine ⟨hserved, ?_⟩
      intro hpending
      exact absurd hpending (by simp [show s.pending = false from hkeeps])
    · cases hstep
  | doSyncWrite =>
    simp only [SynchronousSink.step] at hstep
    split at hstep
    · injection hstep with hs
      subst hs
      exact ⟨trivial, h.pending⟩
    · cases hstep
  | waitAllPrerolled shouldWait =>
    injection hstep with hs
    exact hs ▸ h.waitAllPrerolled shouldWait
  | notifyAllPrerolled =>
    simp only [SynchronousSink.step] at hstep
    split at hstep
    · cases hstep
    · injection hstep with hs
      exact hs ▸ h.notifyAllPrerolled
  | resetPrerollReported =>
    injection hstep with hs
    subst hs
    exact ⟨h.phase, h.pending⟩
  | tick ns =>
    injection hstep with hs
    exact hs ▸ h.tick ns

/-- **A sink told to wait waits** in every run of steps that meet the condition. -/
theorem sink_runs (timeoutMs : Int) (now : Nat) (events : List Event)
    (h : Runs.Along step KeepsWaiting { timeoutMs, now } events) :
    Runs.Along step StepRight { timeoutMs, now } events := by
  refine Runs.along_imp (I := Inv) ?_ ?_ ⟨trivial, by simp⟩ h
  · intro s e hinv hkeeps
    cases e with
    | look => exact hinv.pending
    | doSyncWrite =>
      intro since hphase
      have hright := hinv.phase
      rw [hphase] at hright
      exact hright
    | notifyAllPrerolled =>
      intro since deadline hphase
      exact absurd hphase (hkeeps since deadline)
    | _ => trivial
  · intro s e s' hinv hkeeps hstep
    exact hinv.step hkeeps hstep

-- A write that is notified in time, and one that does not wait

/-- The sink is notified between the look at the flag and the wait, and told to wait again while
the frame is written. -/
def notifiedInTime : List Event :=
  [.waitAllPrerolled true, .write false, .look, .notifyAllPrerolled, .lock, .tick 80000000,
    .timeout, .clear, .waitAllPrerolled true, .doSyncWrite, .write false, .look]

theorem sink_runs_notified :
    Runs.Along step StepRight { timeoutMs := 80, now := 0 } notifiedInTime := by
  refine sink_runs 80 0 notifiedInTime ?_
  refine .cons trivial rfl (.cons trivial rfl (.cons trivial rfl (.cons ?_ rfl (.cons ?_ rfl
    (.cons trivial rfl (.cons trivial rfl (.cons rfl rfl (.cons trivial rfl (.cons trivial rfl
    (.cons trivial rfl (.cons trivial rfl trivial)))))))))))
  · intro since deadline hphase
    cases hphase
  · intro since hphase hset
    cases hset

/-- The flag is set when the wait begins, and so the wait is over at once. -/
def notNotified : List Event := [.waitAllPrerolled true, .write false, .look, .lock, .clear]

theorem sink_does_not_wait :
    ¬ Runs.Along step StepRight { timeoutMs := 80, now := 0 } (notNotified ++ [.doSyncWrite]) := by
  intro h
  have hserved : Served _ 0 := h.2.2.2.2.2.1 0 rfl
  revert hserved
  simp [Served, timeoutNs, waitAllPrerolled]

end MediaFoundation.SynchronousSink
