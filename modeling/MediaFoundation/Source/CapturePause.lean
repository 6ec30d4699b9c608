import MediaFoundation.Pipeline.PipelineCore

/-!
# The pauses of an audio capture

`Start`, `Stop`, `Pause`, `Resume` and `ReadLoop` of `audio_capture_filter.cpp`, as far as they
concern time stamps: what a pause took is subtracted from the ones behind it.

Conventions:

* `Task::Pause` and `Task::Stop` wait for the iteration that runs, so an iteration is one step.
* An iteration that reads nothing changes nothing here. The time stamps of a session are less than
  `2 ^ 63` apart.
-/

namespace MediaFoundation.CapturePause

open PipelineCore (FilterState)

variable {f : AudioCaptureFilter}

def hstTimeNone : Int := -1

structure Captured where
  /-- The time stamp of the plug-in. -/
  read : Int
  sent : Int
  /-- There was a pause since the buffer before it. -/
  behindPause : Bool
deriving DecidableEq

structure AudioCaptureFilter where
  state_ : FilterState := .ready
  latestBufferTime_ : Int := hstTimeNone
  latestPausedTime_ : Int := hstTimeNone
  totalPausedTime_ : Int := 0
  refreshTotalPauseTime_ : Bool := false
  /-- The task runs. -/
  started : Bool := false
  /-- The buffers since the last `Stop`. -/
  session : List Captured := []
  paused : Bool := false
deriving DecidableEq

inductive Call where
  | start (ok : Bool)
  | stop
  | pause
  | resume
  | read (pts : Int)

namespace AudioCaptureFilter

def start (f : AudioCaptureFilter) (ok : Bool) : AudioCaptureFilter :=
  if ok then { f with started := true } else f

def stop (f : AudioCaptureFilter) : AudioCaptureFilter :=
  { f with
    state_ := .initialized
    started := false
    latestBufferTime_ := hstTimeNone
    latestPausedTime_ := hstTimeNone
    totalPausedTime_ := 0
    refreshTotalPauseTime_ := false
    session := []
    paused := false }

def pause (f : AudioCaptureFilter) : AudioCaptureFilter :=
  { f with
    state_ := .paused
    started := false
    latestPausedTime_ := f.latestBufferTime_
    paused := true }

def resume (f : AudioCaptureFilter) : AudioCaptureFilter :=
  { f with
    refreshTotalPauseTime_ := if f.state_ = .paused then true else f.refreshTotalPauseTime_
    state_ := .running
    started := true }

def pausedTime (f : AudioCaptureFilter) (pts : Int) : Int :=
  if f.refreshTotalPauseTime_ ∧ f.latestPausedTime_ ≠ hstTimeNone ∧ f.latestPausedTime_ < pts then
    f.totalPausedTime_ + (pts - f.latestPausedTime_)
  else f.totalPausedTime_

def readLoop (f : AudioCaptureFilter) (pts : Int) : AudioCaptureFilter :=
  { f with
    latestBufferTime_ := pts
    totalPausedTime_ := f.pausedTime pts
    refreshTotalPauseTime_ := false
    session := f.session ++ [⟨pts, pts - f.pausedTime pts, f.paused⟩]
    paused := false }

/-- The plug-in's time stamps do not decrease in a session. -/
def step (f : AudioCaptureFilter) : Call → Option AudioCaptureFilter
  | .start ok => some (f.start ok)
  | .stop => some f.stop
  | .pause => some f.pause
  | .resume => some f.resume
  | .read pts =>
      if f.started = true ∧ ∀ b ∈ f.session.getLast?, b.read ≤ pts then some (f.readLoop pts)
      else none

end AudioCaptureFilter

open AudioCaptureFilter

def Follows (a b : Captured) : Prop :=
  a.sent ≤ b.sent ∧
    (b.behindPause = false → b.sent - a.sent = b.read - a.read) ∧
    (b.behindPause = true → b.sent = a.sent)

structure CutOut (f : AudioCaptureFilter) : Prop where
  own : ∀ b ∈ f.session.head?, b.sent = b.read
  follows : f.session.IsChain Follows

/-- A paused filter is not started; and a time stamp behind which there is a pause is not the one
that stands for no buffer. -/
def Proper (f : AudioCaptureFilter) : Call → Prop
  | .start _ => f.state_ ≠ .paused
  | .pause => f.latestBufferTime_ = hstTimeNone → f.session = []
  | _ => True

instance : ∀ f c, Decidable (Proper f c)
  | f, .start _ => inferInstanceAs (Decidable (f.state_ ≠ .paused))
  | f, .pause => inferInstanceAs (Decidable (f.latestBufferTime_ = hstTimeNone → f.session = []))
  | _, .stop | _, .resume | _, .read _ => .isTrue trivial

-- The invariant

structure Inv (f : AudioCaptureFilter) : Prop where
  cutOut : CutOut f
  stands : f.state_ = .paused → f.started = false
  none : f.session = [] → f.latestBufferTime_ = hstTimeNone ∧ f.latestPausedTime_ = hstTimeNone ∧
    f.totalPausedTime_ = 0
  last : ∀ b ∈ f.session.getLast?,
    f.latestBufferTime_ = b.read ∧ b.sent = b.read - f.totalPausedTime_
  paused : f.paused = true → f.latestPausedTime_ = f.latestBufferTime_ ∧
    (f.session ≠ [] → f.latestPausedTime_ ≠ hstTimeNone) ∧
    (f.state_ = .paused ∨ f.refreshTotalPauseTime_ = true)
  notPaused : f.paused = false → f.state_ ≠ .paused ∧ f.refreshTotalPauseTime_ = false

theorem Inv.start {ok : Bool} (hf : Inv f) (h : f.state_ ≠ .paused) :
    Inv (f.start ok) := by
  cases ok
  · exact hf
  · exact { hf with
      cutOut := ⟨hf.cutOut.own, hf.cutOut.follows⟩
      stands := fun hpaused => absurd hpaused h }

theorem Inv.stop (f : AudioCaptureFilter) : Inv f.stop := by
  refine ⟨⟨?_, ?_⟩, ?_, ?_, ?_, ?_, ?_⟩ <;> simp [AudioCaptureFilter.stop]

theorem Inv.pause (hf : Inv f)
    (h : f.latestBufferTime_ = hstTimeNone → f.session = []) : Inv f.pause :=
  { hf with
    cutOut := ⟨hf.cutOut.own, hf.cutOut.follows⟩
    stands := fun _ => rfl
    none := fun hempty => ⟨(hf.none hempty).1, (hf.none hempty).1, (hf.none hempty).2.2⟩
    paused := fun _ => ⟨rfl, fun hsession hnone => hsession (h hnone), .inl rfl⟩
    notPaused := by simp [AudioCaptureFilter.pause] }

theorem Inv.resume (hf : Inv f) : Inv f.resume := by
  refine { hf with
    cutOut := ⟨hf.cutOut.own, hf.cutOut.follows⟩
    stands := by simp [AudioCaptureFilter.resume]
    paused := ?_
    notPaused := ?_ }
  · intro hpaused
    obtain ⟨htime, hsession, hrefresh⟩ := hf.paused hpaused
    refine ⟨htime, hsession, .inr ?_⟩
    rcases hrefresh with hstate | hrefresh
    · simp [AudioCaptureFilter.resume, hstate]
    · simp [AudioCaptureFilter.resume, hrefresh]
  · intro hpaused
    obtain ⟨hstate, hrefresh⟩ := hf.notPaused hpaused
    simp [AudioCaptureFilter.resume, hstate, hrefresh]

/-- The time that is subtracted from a buffer behind another one. -/
theorem Inv.pausedTime {b : Captured} {pts : Int} (hf : Inv f)
    (hstarted : f.started = true) (hlast : b ∈ f.session.getLast?) (hle : b.read ≤ pts) :
    f.pausedTime pts =
      if f.paused then f.totalPausedTime_ + (pts - b.read) else f.totalPausedTime_ := by
  obtain ⟨htime, -⟩ := hf.last b hlast
  have hsession : f.session ≠ [] := by
    rintro hempty
    simp [hempty] at hlast
  rw [AudioCaptureFilter.pausedTime]
  by_cases hpaused : f.paused = true
  · obtain ⟨hlatest, hnone, hrefresh⟩ := hf.paused hpaused
    have hrefresh : f.refreshTotalPauseTime_ = true :=
      hrefresh.resolve_left fun hstate => by simp [hf.stands hstate] at hstarted
    rw [if_pos hpaused]
    split
    · rw [hlatest, htime]
    · next hnot =>
      have hge : ¬ b.read < pts := fun hlt =>
        hnot ⟨hrefresh, hnone hsession, by rw [hlatest, htime]; exact hlt⟩
      omega
  · have hrefresh := (hf.notPaused (by simpa using hpaused)).2
    rw [if_neg hpaused, hrefresh]
    simp

theorem Inv.read {pts : Int} (hf : Inv f) (hstarted : f.started = true)
    (hle : ∀ b ∈ f.session.getLast?, b.read ≤ pts) : Inv (f.readLoop pts) := by
  have hfirst : f.session = [] → f.pausedTime pts = 0 := by
    intro hempty
    obtain ⟨-, hnone, htotal⟩ := hf.none hempty
    simp [AudioCaptureFilter.pausedTime, hnone, htotal]
  refine ⟨⟨?_, ?_⟩, ?_, ?_, ?_, ?_, ?_⟩
  · intro b hb
    rcases hsession : f.session with _ | ⟨a, rest⟩
    · simp only [readLoop, hsession, List.nil_append, List.head?_cons, Option.mem_some_iff] at hb
      rw [← hb]
      simp [hfirst hsession]
    · exact hf.cutOut.own b (by simpa [readLoop, hsession] using hb)
  · show (f.session ++ [_]).IsChain Follows
    rw [List.isChain_append]
    refine ⟨hf.cutOut.follows, .singleton _, ?_⟩
    intro a ha b hb
    have hread := hle a ha
    obtain ⟨-, hsent⟩ := hf.last a ha
    have htotal := hf.pausedTime hstarted ha hread
    simp only [List.head?_cons, Option.mem_some_iff] at hb
    rw [← hb]
    by_cases hpaused : f.paused = true
    · rw [if_pos hpaused] at htotal
      exact ⟨by simp only; omega, by simp [hpaused], by simp only; omega⟩
    · rw [if_neg hpaused] at htotal
      exact ⟨by simp only; omega, by simp only; omega, by simp [hpaused]⟩
  · intro hstate
    simp [hf.stands hstate] at hstarted
  · simp [readLoop]
  · simp [readLoop]
  · simp [readLoop]
  · refine fun _ => ⟨fun hstate => ?_, rfl⟩
    simp [hf.stands hstate] at hstarted

theorem Inv.step {f t : AudioCaptureFilter} {c : Call} (hf : Inv f) (hc : Proper f c)
    (h : f.step c = some t) : Inv t := by
  cases c <;> simp only [AudioCaptureFilter.step, Option.some.injEq] at h
  · exact h ▸ hf.start hc
  · exact h ▸ .stop f
  · exact h ▸ hf.pause hc
  · exact h ▸ hf.resume
  · split at h
    · next hin => exact Option.some.inj h ▸ hf.read hin.1 hin.2
    · simp at h

theorem inv_init : Inv {} := by
  refine ⟨⟨?_, ?_⟩, ?_, ?_, ?_, ?_, ?_⟩ <;> simp

/-- Whatever the order of the calls and the iterations, the pauses are cut out. -/
theorem pauses_cut (cs : List Call) {f : AudioCaptureFilter}
    (hproper : Runs.Along AudioCaptureFilter.step Proper {} cs)
    (hrun : Runs.run AudioCaptureFilter.step {} cs = some f) : CutOut f :=
  (Runs.run_invariant (I := Inv) (fun _ _ _ hf hc h => hf.step hc h) inv_init hproper hrun).cutOut

theorem pauses_cut_two_sessions : CutOut
    { state_ := .running, started := true, latestBufferTime_ := 9
      session := [⟨7, 7, true⟩, ⟨9, 9, false⟩] } :=
  pauses_cut [.start true, .read 100, .pause, .resume, .read 200, .pause, .stop, .start true,
      .pause, .resume, .read 7, .read 9]
    (by decide) (by decide)

/-- The filter is paused at 100 and started, not resumed; and it is paused behind the time stamp
that stands for no buffer. The next buffer keeps its time stamp. -/
theorem started_not_cut :
    (∃ f, Runs.run AudioCaptureFilter.step {}
      [.start true, .read 100, .pause, .start true, .read 200] = some f ∧ ¬ CutOut f) ∧
    ∃ f, Runs.run AudioCaptureFilter.step {}
      [.start true, .read hstTimeNone, .pause, .resume, .read 100] = some f ∧ ¬ CutOut f := by
  refine ⟨⟨_, rfl, fun hcut => ?_⟩, _, rfl, fun hcut => ?_⟩
  · exact absurd ((List.isChain_cons_cons.mp hcut.follows).1.2.2 rfl) (by decide)
  · exact absurd ((List.isChain_cons_cons.mp hcut.follows).1.2.2 rfl) (by decide)

end MediaFoundation.CapturePause
