import MediaFoundation.Pipeline.PipelineCore

/-!
# The thread that feeds a sink

`PushData` of `audio_sink_filter.cpp` and `video_sink_filter.cpp`, with the calls that wake it up.
They change the state without the mutex, and notify only if `pushThreadIsBlocking` is set.

Conventions:

* A step is one read or write of `state_`, `isFlushing` or `pushThreadIsBlocking`. There is one
  `PushData` at a time; the other calls come from any threads. A thread may wake up at any time.
* `released`, `stopReturned` and `wrong` only record what has happened.
-/

namespace MediaFoundation.PushWaits

open PipelineCore (FilterState)

inductive Kind where
  | audio
  | video
deriving DecidableEq

inductive Op where
  | start
  | stop
  | pause
  | resume
  | flushStart
  | flushEnd
deriving DecidableEq

/-- The state in which a call goes on, for those that look at it. -/
def Op.checks : Op → Option (FilterState → Bool)
  | .start => some fun s => s = .ready || s = .paused
  | .pause => some fun s => s = .ready || s = .running
  | .resume => some fun s => s = .paused
  | _ => none

/-- It looks at the flag when it has written. -/
def Op.wakes : Op → Bool
  | .pause => false
  | .flushEnd => false
  | _ => true

/-- It returns before it looks at the flag if the plug-in fails. -/
def Op.mayFail : Kind → Op → Bool
  | .audio, .start => true
  | .video, .stop => true
  | _, _ => false

inductive PushAt where
  | idle
  | testFlushing
  | testInitialized
  | testRunning
  | setFlag
  | waitRunning
  | waitInitialized
  | waitFlushing
  /-- The predicate was false. -/
  | sleep
  | asleep (notified : Bool)
  | clearFlag
  | againFlushing
  | againInitialized
  | write
deriving DecidableEq

def PushAt.blocks : PushAt → Bool
  | .setFlag | .waitRunning | .waitInitialized | .waitFlushing | .sleep | .asleep _ => true
  | _ => false

structure Sink where
  kind : Kind
  state_ : FilterState := .ready
  isFlushing : Bool := false
  pushThreadIsBlocking : Bool := false
  push : PushAt := .idle
  entered : List Op := []
  /-- The calls that have written, and not looked at the flag. -/
  owed : List Op := []
  /-- The state became running or initialized, or a flush began, while `PushData` blocks. -/
  released : Bool := false
  /-- A `Stop` has returned, and the state is still what it wrote. -/
  stopReturned : Bool := false
  /-- `PushData` has written in a flush, or after `Stop`. -/
  wrong : Bool := false
deriving DecidableEq

inductive Label where
  | enter (op : Op)
  | write (op : Op)
  | look (op : Op) (pluginOk : Bool)
  | pushData
  | next
  | wake

def Sink.set (s : Sink) : Op → Sink
  | .start | .resume => { s with state_ := .running, stopReturned := false }
  | .stop => { s with state_ := .initialized }
  | .pause => { s with state_ := .paused, stopReturned := false }
  | .flushStart => { s with isFlushing := true }
  | .flushEnd => { s with isFlushing := false }

def Sink.next (s : Sink) : Option Sink :=
  -- what it goes on with if something holds, and if not
  let test (c : Bool) (p q : PushAt) : Option Sink := some { s with push := if c then p else q }
  let wait (c : Bool) (q : PushAt) : Option Sink :=
    some { s with push := if c then .clearFlag else q, released := s.released && !c }
  match s.push with
  | .idle | .asleep _ => none
  | .testFlushing => test s.isFlushing .idle .testInitialized
  | .testInitialized => test (s.state_ = .initialized) .idle .testRunning
  | .testRunning => test (s.state_ = .running) .againFlushing .setFlag
  | .setFlag => some { s with push := .waitRunning, pushThreadIsBlocking := true }
  | .waitRunning => wait (s.state_ = .running) .waitInitialized
  | .waitInitialized => wait (s.state_ = .initialized) .waitFlushing
  | .waitFlushing => wait s.isFlushing .sleep
  | .sleep => some { s with push := .asleep false }
  | .clearFlag => some { s with push := .againFlushing, pushThreadIsBlocking := false }
  | .againFlushing => test s.isFlushing .idle .againInitialized
  | .againInitialized => test (s.state_ = .initialized) .idle .write
  | .write => some { s with
      push := .idle
      wrong := s.wrong || s.isFlushing || s.stopReturned }

def PushAt.notify : PushAt → PushAt
  | .asleep _ => .asleep true
  | p => p

def step (s : Sink) : Label → Option Sink
  | .enter op =>
    match op.checks with
    | some passes => if passes s.state_ then some { s with entered := op :: s.entered } else none
    | none => none
  | .write op =>
    if op.checks.isSome && op ∉ s.entered then none
    else some { s.set op with
      entered := s.entered.erase op
      owed := if op.wakes then op :: s.owed else s.owed
      released := s.released || (op.wakes && s.push.blocks) }
  | .look op pluginOk =>
    if op ∈ s.owed then
      some { s with
        owed := s.owed.erase op
        push :=
          if (pluginOk || !op.mayFail s.kind) && s.pushThreadIsBlocking then s.push.notify
          else s.push
        stopReturned := s.stopReturned || (op = .stop && s.state_ = .initialized) }
    else none
  | .pushData => if s.push = .idle then some { s with push := .testFlushing } else none
  | .next => s.next
  | .wake =>
    match s.push with
    | .asleep _ => some { s with push := .waitRunning }
    | _ => none

-- What is expected

structure NotStranded (s : Sink) : Prop where
  /-- When every call has looked at the flag, it does not sleep without a notification. -/
  wakes : s.push = .asleep false → s.owed = [] → s.released = false
  writes : s.wrong = false

/-- A call looks at the flag for a `PushData` that was released when this sleeps, and then
notifies it, or has not begun to test the predicate; nothing holds a released `PushData` up; and a
flush does not begin, nor `Stop` return, between the second test and the write. -/
def Good (s : Sink) : Label → Prop
  | .write op =>
      (op.wakes = false → s.released = false) ∧
        (op = .flushStart → s.push ≠ .againInitialized ∧ s.push ≠ .write)
  | .look op pluginOk =>
      (s.released = true → s.push = .setFlag ∨ s.push = .waitRunning ∨
        (s.push = .asleep true ∨ s.push = .asleep false) ∧
          (pluginOk = true ∨ op.mayFail s.kind = false)) ∧
        (op = .stop → s.state_ = .initialized → s.push ≠ .write)
  | _ => True

instance : ∀ s l, Decidable (Good s l)
  | s, .write op => inferInstanceAs (Decidable ((op.wakes = false → s.released = false) ∧
      (op = .flushStart → s.push ≠ .againInitialized ∧ s.push ≠ .write)))
  | s, .look op pluginOk => inferInstanceAs (Decidable
      ((s.released = true → s.push = .setFlag ∨ s.push = .waitRunning ∨
        (s.push = .asleep true ∨ s.push = .asleep false) ∧
          (pluginOk = true ∨ op.mayFail s.kind = false)) ∧
        (op = .stop → s.state_ = .initialized → s.push ≠ .write)))
  | _, .enter _ | _, .pushData | _, .next | _, .wake => .isTrue trivial

-- The invariant

def Lets (s : Sink) : Prop :=
  s.state_ = .running ∨ s.state_ = .initialized ∨ s.isFlushing = true

/-- What is left of the predicate is true, or there is a notification. -/
def Sees (s : Sink) : Prop :=
  match s.push with
  | .waitInitialized => s.state_ = .initialized ∨ s.isFlushing = true
  | .waitFlushing => s.isFlushing = true
  | .sleep => False
  | .asleep notified => notified = true
  | _ => True

structure Inv (s : Sink) : Prop where
  right : s.wrong = false
  lets : s.released = true → Lets s
  sees : s.released = true → s.owed ≠ [] ∨ Sees s
  flag : s.push.blocks = true → s.push ≠ .setFlag → s.pushThreadIsBlocking = true
  again : s.push = .againInitialized → s.isFlushing = false
  write : s.push = .write → s.isFlushing = false ∧ s.stopReturned = false
  stop : s.stopReturned = true → s.state_ = .initialized

section Steps

variable {s t : Sink}

/-- `PushData` goes on to where nothing is known. -/
theorem Inv.goto (hs : Inv s) {p : PushAt} (hp : p.blocks = false ∨ p = .setFlag)
    (hagain : p ≠ .againInitialized) (hwrite : p ≠ .write) : Inv { s with push := p } := by
  refine ⟨hs.right, hs.lets, fun _ => .inr ?_, ?_, fun h => absurd h hagain,
    fun h => absurd h hwrite, hs.stop⟩
  · rcases p with _ | _ | _ | _ | _ | _ | _ | _ | _ | n | _ | _ | _ | _ <;>
      simp [PushAt.blocks, Sees] at hp ⊢
  · intro hblocks hne
    rcases hp with hp | hp
    · exact absurd hblocks (by simp [hp])
    · exact absurd hp hne

/-- A look at a part of the predicate; what a released `PushData` has not tested is true. -/
theorem Inv.wait (hs : Inv s) {c : Bool} {q : PushAt} (hset : s.pushThreadIsBlocking = true)
    (hsees : c = false → s.released = true → s.owed ≠ [] ∨ Sees { s with push := q })
    (hagain : q ≠ .againInitialized) (hwrite : q ≠ .write) :
    Inv { s with push := if c then .clearFlag else q, released := s.released && !c } := by
  rcases c with _ | _
  · simp only [Bool.false_eq_true, if_false, Bool.not_false, Bool.and_true]
    exact ⟨hs.right, hs.lets, hsees rfl, fun _ _ => hset, fun h => absurd h hagain,
      fun h => absurd h hwrite, hs.stop⟩
  · refine ⟨hs.right, ?_, ?_, ?_, ?_, ?_, hs.stop⟩ <;> simp [PushAt.blocks]

theorem Inv.next (hs : Inv s) (h : s.next = some t) : Inv t := by
  have hlets := hs.lets
  have hsees := hs.sees
  have hflag := hs.flag
  rw [Sink.next] at h
  simp only [Lets, Sees] at hlets hsees
  split at h <;> rename_i hpush <;> simp only [hpush] at hsees hflag
  · simp at h
  · simp at h
  iterate 3
    · cases h
      refine hs.goto ?_ ?_ ?_ <;> split <;> simp [PushAt.blocks]
  · cases h
    exact ⟨hs.right, hlets, by simp [Sees], by simp, by simp, by simp, hs.stop⟩
  · cases h
    refine hs.wait (hflag rfl (by simp)) (fun hc hreleased => .inr ?_) (by simp) (by simp)
    simpa [Sees, (by simpa using hc : s.state_ ≠ .running)] using hlets hreleased
  · cases h
    refine hs.wait (hflag rfl (by simp)) (fun hc hreleased => ?_) (by simp) (by simp)
    simpa [Sees, (by simpa using hc : s.state_ ≠ .initialized)] using hsees hreleased
  · cases h
    refine hs.wait (hflag rfl (by simp)) (fun hc hreleased => ?_) (by simp) (by simp)
    simpa [Sees, (by simpa using hc : s.isFlushing = false)] using hsees hreleased
  · cases h
    have hset := hflag rfl (by simp)
    refine ⟨hs.right, hlets, fun hreleased => ?_, fun _ _ => hset, by simp, by simp, hs.stop⟩
    exact .inl ((hsees hreleased).resolve_right id)
  · cases h
    exact ⟨hs.right, hlets, by simp [Sees], by simp [PushAt.blocks], by simp, by simp, hs.stop⟩
  · cases h
    refine ⟨hs.right, hlets, ?_, ?_, ?_, ?_, hs.stop⟩ <;>
      by_cases hc : s.isFlushing = true <;> simp [hc, Sees, PushAt.blocks]
  · cases h
    have hagain := hs.again hpush
    have hstop : s.stopReturned = true → s.state_ = .initialized := hs.stop
    refine ⟨hs.right, hlets, ?_, ?_, ?_, ?_, hs.stop⟩ <;>
      by_cases hc : s.state_ = .initialized <;> simp [hc, Sees, PushAt.blocks, hagain]
    simpa [hc] using hstop
  · cases h
    obtain ⟨hflushing, hreturned⟩ := hs.write hpush
    exact ⟨by simp [hs.right, hflushing, hreturned], hlets, by simp [Sees],
      by simp [PushAt.blocks], by simp, by simp, hs.stop⟩

theorem Inv.write_op (hs : Inv s) {op : Op} (hgood : Good s (.write op))
    (h : step s (.write op) = some t) : Inv t := by
  obtain ⟨hheld, hflush⟩ := hgood
  have hlets := hs.lets
  have hstop := hs.stop
  rw [step] at h
  split at h
  · simp at h
  cases h
  rcases op with _ | _ | _ | _ | _ | _
  · exact ⟨hs.right, fun _ => .inl rfl, fun _ => .inl (by simp [Op.wakes]), hs.flag, hs.again,
      fun hw => ⟨(hs.write hw).1, rfl⟩, by simp [Sink.set]⟩
  · exact ⟨hs.right, fun _ => .inr (.inl rfl), fun _ => .inl (by simp [Op.wakes]), hs.flag,
      hs.again, hs.write, fun _ => rfl⟩
  · have hreleased := hheld rfl
    exact ⟨hs.right, by simp [Op.wakes, Sink.set, hreleased],
      by simp [Op.wakes, Sink.set, hreleased], hs.flag, hs.again,
      fun hw => ⟨(hs.write hw).1, rfl⟩, by simp [Sink.set]⟩
  · exact ⟨hs.right, fun _ => .inl rfl, fun _ => .inl (by simp [Op.wakes]), hs.flag, hs.again,
      fun hw => ⟨(hs.write hw).1, rfl⟩, by simp [Sink.set]⟩
  · obtain ⟨hagain, hwrite⟩ := hflush rfl
    exact ⟨hs.right, fun _ => .inr (.inr rfl), fun _ => .inl (by simp [Op.wakes]), hs.flag,
      fun hw => absurd hw hagain, fun hw => absurd hw hwrite, hs.stop⟩
  · have hreleased := hheld rfl
    exact ⟨hs.right, by simp [Op.wakes, Sink.set, hreleased],
      by simp [Op.wakes, Sink.set, hreleased], hs.flag, fun _ => rfl,
      fun hw => ⟨rfl, (hs.write hw).2⟩, hs.stop⟩

theorem Inv.look (hs : Inv s) {op : Op} {pluginOk : Bool} (hgood : Good s (.look op pluginOk))
    (h : step s (.look op pluginOk) = some t) : Inv t := by
  obtain ⟨hreaches, hreturn⟩ := hgood
  rw [step] at h
  split at h
  · cases h
    have hnotify : ∀ c : Bool, ∀ p : PushAt, (∀ n, p ≠ .asleep n) →
        ((if c then s.push.notify else s.push) = p ↔ s.push = p) := by
      intro c p hp
      rcases c with _ | _
      · exact Iff.rfl
      · rcases s.push with _ | _ | _ | _ | _ | _ | _ | _ | _ | n | _ | _ | _ | _
        case asleep => exact iff_of_false (fun h => hp _ h.symm) fun h => hp _ h.symm
        all_goals exact Iff.rfl
    have hblocks : ∀ c : Bool, (if c then s.push.notify else s.push).blocks = s.push.blocks := by
      intro c
      rcases c with _ | _
      · rfl
      · rcases hpush : s.push <;> rfl
    refine ⟨hs.right, hs.lets, fun hreleased => ?_, ?_, ?_, ?_, ?_⟩
    · refine .inr ?_
      rcases hreaches hreleased with hpush | hpush | ⟨hpush, hok⟩
      · simp [hpush, PushAt.notify, Sees]
      · simp [hpush, PushAt.notify, Sees]
      · have hset : s.pushThreadIsBlocking = true := by
          rcases hpush with hpush | hpush <;>
            exact hs.flag (by simp [hpush, PushAt.blocks]) (by simp [hpush])
        have hcond : ((pluginOk || !op.mayFail s.kind) && s.pushThreadIsBlocking) = true := by
          rcases hok with hok | hok <;> simp [hok, hset]
        rcases hpush with hpush | hpush <;> simp [hpush, hcond, PushAt.notify, Sees]
    · intro hb hne
      rw [hblocks] at hb
      exact hs.flag hb fun hpush => hne ((hnotify _ _ (by simp)).mpr hpush)
    · intro hpush
      exact hs.again ((hnotify _ _ (by simp)).mp hpush)
    · intro hpush
      have hwrite := (hnotify _ _ (by simp)).mp hpush
      obtain ⟨hflushing, hreturned⟩ := hs.write hwrite
      refine ⟨hflushing, ?_⟩
      simpa [hreturned] using fun hop hstate => hreturn hop hstate hwrite
    · intro hreturned
      rcases (by simpa using hreturned : _ ∨ op = .stop ∧ s.state_ = .initialized) with h | h
      · exact hs.stop h
      · exact h.2
  · simp at h

theorem Inv.step {l : Label} (hs : Inv s) (hgood : Good s l) (h : step s l = some t) : Inv t := by
  rcases l with op | op | ⟨op, pluginOk⟩ | _ | _ | _
  · rw [PushWaits.step] at h
    split at h
    · split at h
      · exact Option.some.inj h ▸ ⟨hs.right, hs.lets, hs.sees, hs.flag, hs.again, hs.write, hs.stop⟩
      · simp at h
    · simp at h
  · exact hs.write_op hgood h
  · exact hs.look hgood h
  · rw [PushWaits.step] at h
    split at h
    · exact Option.some.inj h ▸ ⟨hs.right, hs.lets, by simp [Sees], by simp [PushAt.blocks],
        by simp, by simp, hs.stop⟩
    · simp at h
  · exact hs.next h
  · rw [PushWaits.step] at h
    split at h
    · next hpush =>
      have hset := hs.flag (by simp [hpush, PushAt.blocks]) (by simp [hpush])
      exact Option.some.inj h ▸ ⟨hs.right, hs.lets, by simp [Sees], fun _ _ => hset, by simp,
        by simp, hs.stop⟩
    · simp at h

end Steps

theorem inv_ready (kind : Kind) : Inv { kind } := by
  refine ⟨rfl, ?_, ?_, ?_, ?_, ?_, ?_⟩ <;> simp [PushAt.blocks]

/-- Whatever the order of the steps, `PushData` is not left asleep, and it writes at no wrong
time. -/
theorem push_goes_on (kind : Kind) (ls : List Label) {s : Sink}
    (hgood : Runs.Along step Good { kind } ls) (hrun : Runs.run step { kind } ls = some s) :
    NotStranded s := by
  have hs := Runs.run_invariant (I := Inv) (fun _ _ _ hs hl h => hs.step hl h) (inv_ready kind)
    hgood hrun
  refine ⟨fun hasleep howed => ?_, hs.right⟩
  by_contra hreleased
  rcases hs.sees (by simpa using hreleased) with h | h
  · exact h howed
  · simp [Sees, hasleep] at h

theorem push_goes_on_started : NotStranded { kind := .audio, state_ := .running } :=
  push_goes_on .audio [.pushData, .next, .next, .next, .next, .next, .next, .next, .next,
      .enter .start, .write .start, .look .start true, .wake, .next, .next, .next, .next, .next]
    (by decide) (by decide)

/-- `Start` notifies when `PushData` has tested the predicate and does not sleep yet. -/
theorem push_stranded : ¬ ∀ kind ls s, Runs.run step { kind } ls = some s → NotStranded s := by
  intro h
  have hnot := h .audio [.pushData, .next, .next, .next, .next, .next, .next, .next,
      .enter .start, .write .start, .look .start true, .next]
    { kind := .audio, state_ := .running, pushThreadIsBlocking := true, push := .asleep false,
      released := true } (by decide)
  simpa using hnot.wakes rfl rfl

end MediaFoundation.PushWaits
