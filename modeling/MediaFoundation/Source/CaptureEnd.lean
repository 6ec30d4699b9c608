import MediaFoundation.Lib.Runs

/-!
# The end of a captured stream

`SendEos`, `SendBuffer`, `ReadLoop` and the calls of the recorder in `audio_capture_filter.cpp` and
`video_capture_filter.cpp`. `SendBuffer` looks at the end flag under a mutex; `SendEos` sets it
afterwards, without.

Conventions:

* The recorder makes one call after another. `Task::Stop`, and `Task::Pause` of the audio filter,
  wait for the iteration that runs.
* A session begins with `Start`. `log`, `asked`, `lost` and `stalled` only record what has happened.
-/

namespace MediaFoundation.CaptureEnd

inductive Kind where
  | audio
  | video
deriving DecidableEq

inductive Push where
  | data
  | eos
deriving DecidableEq

inductive TaskAt where
  | idle
  | reading
  /-- It has called `SendBuffer`, maybe before the EOS buffer was pushed. -/
  | handed (early : Bool)
  /-- It has called `SendEos`. -/
  | ending
  /-- It is about to set the flag. -/
  | ended
deriving DecidableEq

inductive RecorderAt where
  | idle
  | sending
  | sent
deriving DecidableEq

structure CaptureFilter where
  kind : Kind
  eos : Bool := false
  started : Bool := false
  task : TaskAt := .idle
  recorder : RecorderAt := .idle
  log : List Push := []
  /-- A `SendEos` of this session has returned. -/
  asked : Bool := false
  /-- A buffer that was handed over before the EOS buffer was not pushed. -/
  lost : Bool := false
  /-- An iteration has read nothing, with no EOS buffer in the session. -/
  stalled : Bool := false
deriving DecidableEq

inductive ReadResult where
  | ok
  | again
  | failed

inductive Label where
  | start (pluginOk : Bool)
  | stop
  | pause
  | resume
  | sendEos
  | recorderPush
  | recorderFlag
  | look
  | read (result : ReadResult)
  | taskPush
  | taskFlag

def sendBuffer (s : CaptureFilter) (buffer : Push) : CaptureFilter :=
  if s.eos then s else { s with log := s.log ++ [buffer] }

/-- What `SendEos` does behind `SendBuffer`. -/
def setFlag (s : CaptureFilter) : CaptureFilter := { s with eos := true, asked := true }

def start (s : CaptureFilter) (pluginOk : Bool) : CaptureFilter :=
  match s.kind with
  | .audio => { s with
      eos := false
      started := s.started || pluginOk
      log := []
      asked := false }
  | .video => { s with
      started := true
      log := []
      asked := false }

def step (s : CaptureFilter) : Label → Option CaptureFilter
  | .start pluginOk => if s.recorder = .idle then some (start s pluginOk) else none
  | .stop =>
    if s.recorder = .idle ∧ s.task = .idle then some { s with started := false } else none
  | .pause =>
    if s.recorder = .idle ∧ (s.kind = .audio → s.task = .idle) then
      some { s with started := false }
    else none
  | .resume => if s.recorder = .idle then some { s with started := true } else none
  | .sendEos =>
    if s.recorder = .idle then
      match s.kind with
      | .audio => some { s with recorder := .sending }
      -- `Stop` first
      | .video =>
        if s.task = .idle then some { s with recorder := .sending, started := false } else none
    else none
  | .recorderPush =>
    if s.recorder = .sending then some { sendBuffer s .eos with recorder := .sent } else none
  | .recorderFlag =>
    if s.recorder = .sent then some { setFlag s with recorder := .idle } else none
  | .look =>
    if s.started = true ∧ s.task = .idle then
      if s.eos then some { s with stalled := s.stalled || .eos ∉ s.log }
      else some { s with task := .reading }
    else none
  | .read result =>
    if s.task = .reading then
      match result with
      | .ok => some { s with task := .handed (.eos ∉ s.log) }
      | .again => some { s with task := .idle }
      | .failed => some { s with task := if s.kind = .audio then .ending else .idle }
    else none
  | .taskPush =>
    match s.task with
    | .handed early =>
      some { sendBuffer s .data with
        task := .idle
        lost := s.lost || (s.eos && early) }
    | .ending => some { sendBuffer s .eos with task := .ended }
    | _ => none
  | .taskFlag => if s.task = .ended then some { setFlag s with task := .idle } else none

-- What is expected

structure EndsOnce (s : CaptureFilter) : Prop where
  /-- Nothing is behind an EOS buffer. -/
  last : .eos ∉ s.log.dropLast
  pushed : s.asked = true → .eos ∈ s.log
  kept : s.lost = false
  flows : s.stalled = false

/-- Nothing is pushed while the EOS buffer has been pushed and the flag is not set, no data buffer
is handed over and not pushed when the recorder pushes an EOS buffer, and the flag is not set when
a session begins, nor about to be. -/
def Good (s : CaptureFilter) : Label → Prop
  | .start _ => s.task ≠ .ended ∧ (s.kind = .video → s.eos = false)
  | .taskPush => s.recorder = .sent → s.eos = true
  | .recorderPush => s.eos = false → s.task ≠ .ended ∧ s.task ≠ .handed true
  | _ => True

instance : ∀ s l, Decidable (Good s l)
  | s, .start _ =>
      inferInstanceAs (Decidable (s.task ≠ .ended ∧ (s.kind = .video → s.eos = false)))
  | s, .taskPush => inferInstanceAs (Decidable (s.recorder = .sent → s.eos = true))
  | s, .recorderPush => inferInstanceAs (Decidable
      (s.eos = false → s.task ≠ .ended ∧ s.task ≠ .handed true))
  | _, .stop | _, .pause | _, .resume | _, .sendEos | _, .recorderFlag | _, .look | _, .read _
  | _, .taskFlag => .isTrue trivial

-- The invariant

structure Inv (s : CaptureFilter) : Prop where
  right : EndsOnce s
  flag : s.eos = true → .eos ∈ s.log
  recorder : s.recorder = .sent → .eos ∈ s.log
  task : s.task = .ended → .eos ∈ s.log
  /-- The thread that has pushed the EOS buffer sets the flag. -/
  open_ : .eos ∈ s.log → s.eos = true ∨ s.recorder = .sent ∨ s.task = .ended
  early : s.task = .handed true → .eos ∉ s.log

section Steps

variable {s t : CaptureFilter}

theorem EndsOnce.sendBuffer (hs : EndsOnce s) (buffer : Push)
    (h : s.eos = false → .eos ∉ s.log) : EndsOnce (sendBuffer s buffer) := by
  rw [CaptureEnd.sendBuffer]
  split
  · exact hs
  · next hopen =>
    refine ⟨?_, fun hasked => ?_, hs.kept, hs.flows⟩
    · rw [List.dropLast_concat]
      exact h (by simpa using hopen)
    · exact List.mem_append_left _ (hs.pushed hasked)

theorem eos_mem_sendBuffer (hs : Inv s) : .eos ∈ (sendBuffer s .eos).log := by
  rw [sendBuffer]
  split
  · next heos => exact hs.flag heos
  · simp

theorem eos_sendBuffer (buffer : Push) : (sendBuffer s buffer).eos = s.eos := by
  rw [sendBuffer]
  split <;> rfl

/-- A step that leaves the flag and the log as they are. -/
theorem Inv.frame (hs : Inv s) (heos : t.eos = s.eos) (hlog : t.log = s.log)
    (hasked : t.asked = s.asked) (hlost : t.lost = false) (hstalled : t.stalled = false)
    (hrecorder : t.recorder = .sent ↔ s.recorder = .sent)
    (htask : t.task = .ended ↔ s.task = .ended)
    (hearly : t.task = .handed true → .eos ∉ s.log) : Inv t := by
  refine ⟨⟨?_, ?_, hlost, hstalled⟩, ?_, ?_, ?_, ?_, ?_⟩
  · rw [hlog]
    exact hs.right.last
  · rw [hlog, hasked]
    exact hs.right.pushed
  · rw [hlog, heos]
    exact hs.flag
  · rw [hlog, hrecorder]
    exact hs.recorder
  · rw [hlog, htask]
    exact hs.task
  · rw [hlog, heos, hrecorder, htask]
    exact hs.open_
  · rw [hlog]
    exact hearly

theorem Inv.start (hs : Inv s) {pluginOk : Bool} (hgood : Good s (.start pluginOk))
    (hidle : s.recorder = .idle) : Inv (start s pluginOk) := by
  obtain ⟨hended, hvideo⟩ := hgood
  rcases s with ⟨kind, eos, started, task, recorder, log, asked, lost, stalled⟩
  obtain rfl : recorder = .idle := hidle
  rcases kind with _ | _
  · exact ⟨⟨by simp [CaptureEnd.start], by simp [CaptureEnd.start], hs.right.kept,
      hs.right.flows⟩, by simp [CaptureEnd.start], by simp [CaptureEnd.start],
      fun h => absurd h hended, by simp [CaptureEnd.start], by simp [CaptureEnd.start]⟩
  · have heos : eos = false := hvideo rfl
    exact ⟨⟨by simp [CaptureEnd.start], by simp [CaptureEnd.start], hs.right.kept,
      hs.right.flows⟩, by simp [CaptureEnd.start, heos], by simp [CaptureEnd.start],
      fun h => absurd h hended, by simp [CaptureEnd.start], by simp [CaptureEnd.start]⟩

theorem Inv.recorderPush (hs : Inv s) (hgood : Good s .recorderPush)
    (hsending : s.recorder = .sending) : Inv { sendBuffer s .eos with recorder := .sent } := by
  have hopen : s.eos = false → .eos ∉ s.log := by
    intro heos hin
    rcases hs.open_ hin with h | h | h
    · simp [heos] at h
    · simp [hsending] at h
    · exact (hgood heos).1 h
  have hright := hs.right.sendBuffer .eos hopen
  have hin := eos_mem_sendBuffer hs
  refine ⟨⟨hright.last, hright.pushed, hright.kept, hright.flows⟩, fun _ => hin, fun _ => hin,
    fun _ => hin, fun _ => .inr (.inl rfl), ?_⟩
  rw [sendBuffer]
  split
  · next heos => exact fun h => absurd (hs.flag heos) (hs.early h)
  · next heos => exact fun h => absurd h (hgood (by simpa using heos)).2

theorem Inv.taskPush (hs : Inv s) (hgood : Good s .taskPush) (h : step s .taskPush = some t) :
    Inv t := by
  have hopen : s.task ≠ .ended → s.eos = false → .eos ∉ s.log := by
    intro hended heos hin
    rcases hs.open_ hin with h | h | h
    · simp [heos] at h
    · have hset := hgood h
      simp [heos] at hset
    · exact hended h
  rw [step] at h
  split at h
  · next early htask =>
    cases h
    have hopen := hopen (by simp [htask])
    have hright := hs.right.sendBuffer .data hopen
    have hiff : Push.eos ∈ (sendBuffer s .data).log ↔ .eos ∈ s.log := by
      rw [sendBuffer]
      split <;> simp
    have hrecorder : (sendBuffer s .data).recorder = s.recorder := by
      rw [sendBuffer]
      split <;> rfl
    have hkept : (s.lost || (s.eos && early)) = false := by
      rw [hs.right.kept, Bool.false_or, Bool.and_eq_false_iff]
      rcases early with _ | _
      · exact .inr rfl
      · exact .inl (by simpa using fun heos => hs.early htask (hs.flag heos))
    refine ⟨⟨hright.last, hright.pushed, hkept, hright.flows⟩, fun heos => ?_, fun hsent => ?_,
      by simp, fun hin => ?_, by simp⟩
    · exact hiff.mpr (hs.flag (eos_sendBuffer .data ▸ heos))
    · exact hiff.mpr (hs.recorder (hrecorder ▸ hsent))
    · rcases hs.open_ (hiff.mp hin) with h | h | h
      · exact .inl ((eos_sendBuffer .data).trans h)
      · exact .inr (.inl (hrecorder.trans h))
      · simp [htask] at h
  · next htask =>
    cases h
    have hright := hs.right.sendBuffer .eos (hopen (by simp [htask]))
    have hin := eos_mem_sendBuffer hs
    exact ⟨⟨hright.last, hright.pushed, hright.kept, hright.flows⟩, fun _ => hin, fun _ => hin,
      fun _ => hin, fun _ => .inr (.inr rfl), by simp⟩
  · simp at h

theorem EndsOnce.setFlag (hs : EndsOnce s) (hin : .eos ∈ s.log) : EndsOnce (setFlag s) :=
  ⟨hs.last, fun _ => hin, hs.kept, hs.flows⟩

theorem Inv.step {l : Label} (hs : Inv s) (hgood : Good s l) (h : step s l = some t) : Inv t := by
  have hkept := hs.right.kept
  have hflows := hs.right.flows
  rcases l with pluginOk | _ | _ | _ | _ | _ | _ | _ | result | _ | _ <;>
    simp only [CaptureEnd.step] at h
  · split at h
    · next hidle => exact Option.some.inj h ▸ hs.start hgood hidle
    · simp at h
  · split at h
    · exact Option.some.inj h ▸ hs.frame rfl rfl rfl hkept hflows Iff.rfl Iff.rfl hs.early
    · simp at h
  · split at h
    · exact Option.some.inj h ▸ hs.frame rfl rfl rfl hkept hflows Iff.rfl Iff.rfl hs.early
    · simp at h
  · split at h
    · exact Option.some.inj h ▸ hs.frame rfl rfl rfl hkept hflows Iff.rfl Iff.rfl hs.early
    · simp at h
  · split at h
    · next hidle =>
      split at h
      · exact Option.some.inj h ▸
          hs.frame rfl rfl rfl hkept hflows (by simp [hidle]) Iff.rfl hs.early
      · split at h
        · exact Option.some.inj h ▸
            hs.frame rfl rfl rfl hkept hflows (by simp [hidle]) Iff.rfl hs.early
        · simp at h
    · simp at h
  · split at h
    · next hsending => exact Option.some.inj h ▸ hs.recorderPush hgood hsending
    · simp at h
  · split at h
    · next hsent =>
      have hright := hs.right.setFlag (hs.recorder hsent)
      exact Option.some.inj h ▸ ⟨⟨hright.last, hright.pushed, hright.kept, hright.flows⟩,
        fun _ => hs.recorder hsent, by simp, hs.task, fun _ => .inl rfl, hs.early⟩
    · simp at h
  · split at h
    · next hidle =>
      split at h
      · next heos =>
        have hin := hs.flag heos
        exact Option.some.inj h ▸
          hs.frame rfl rfl rfl hkept (by simp [hflows, hin]) Iff.rfl Iff.rfl hs.early
      · exact Option.some.inj h ▸
          hs.frame rfl rfl rfl hkept hflows Iff.rfl (by simp [hidle.2]) (by simp)
    · simp at h
  · split at h
    · next hreading =>
      split at h <;> refine Option.some.inj h ▸
        hs.frame rfl rfl rfl hkept hflows Iff.rfl ?_ ?_
      · simp [hreading]
      · simp
      · simp [hreading]
      · simp
      · by_cases haudio : s.kind = .audio <;> simp [hreading, haudio]
      · by_cases haudio : s.kind = .audio <;> simp [haudio]
    · simp at h
  · exact hs.taskPush hgood (by simpa only [CaptureEnd.step] using h)
  · split at h
    · next hended =>
      have hright := hs.right.setFlag (hs.task hended)
      exact Option.some.inj h ▸ ⟨⟨hright.last, hright.pushed, hright.kept, hright.flows⟩,
        fun _ => hs.task hended, hs.recorder, by simp, fun _ => .inl rfl, by simp⟩
    · simp at h

end Steps

theorem inv_new (kind : Kind) : Inv { kind } := by
  refine ⟨⟨?_, ?_, ?_, ?_⟩, ?_, ?_, ?_, ?_, ?_⟩ <;> simp

end MediaFoundation.CaptureEnd
