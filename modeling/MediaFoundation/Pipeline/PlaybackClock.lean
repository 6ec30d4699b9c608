import MediaFoundation.Lib.Runs
import MediaFoundation.Pipeline.MediaSyncManager

/-!
# The playback clock

The calls on a `MediaSyncManager` at readings of the steady clock that never go
back, and the media time it reports between them.

While the clock is *counting* (no seek is in progress, and a paused clock has a
media time to hold) the reported time is a truncated affine function of the
reading, clipped into the media range. It goes on from the reported time at a
change of the rate, at `Pause` and at `Resume`, under the conditions of
`Smooth`:

* a rate is not below the threshold under which `SimpleGetMediaTime` gives no
  time;
* `Pause` finds no media time equal to the marker `HST_TIME_NONE`;
* `Resume` sets the anchor again only if the synchronizers were told to wait
  since the last `Seek`;
* a range does not move while the time is clipped to the end that moves.
-/

namespace MediaFoundation.Sync

variable {l : TimedCall} {m : MediaSyncManager}

namespace MediaSyncManager

-- Truncation

theorem truncate_intCast (n : Int) : truncate n = n := by
  unfold truncate
  split
  · exact Int.floor_intCast n
  · exact Int.ceil_intCast n

theorem truncate_mono {x y : ℚ} (h : x ≤ y) : truncate x ≤ truncate y := by
  unfold truncate
  by_cases hx : 0 ≤ x
  · rw [if_pos hx, if_pos (hx.trans h)]
    exact Int.floor_mono h
  · rw [if_neg hx]
    by_cases hy : 0 ≤ y
    · -- the two are cut off towards zero from its two sides
      rw [if_pos hy]
      have hleft : ⌈x⌉ ≤ 0 := Int.ceil_le.mpr (by push_cast; linarith)
      exact hleft.trans (Int.floor_nonneg.mpr hy)
    · rw [if_neg hy]
      exact Int.ceil_mono h

theorem abs_truncate_sub_lt (x : ℚ) : |(truncate x : ℚ) - x| < 1 := by
  unfold truncate
  rw [abs_lt]
  split
  · have hle := Int.floor_le x
    have hlt := Int.lt_floor_add_one x
    constructor <;> linarith
  · have hle := Int.le_ceil x
    have hlt := Int.ceil_lt_add_one x
    constructor <;> linarith

-- The range

def InRange (m : MediaSyncManager) (time : Int) : Prop :=
  (m.minRangeStartOfMediaTime ≠ hstTimeNone → m.minRangeStartOfMediaTime ≤ time) ∧
    (m.maxRangeEndOfMediaTime ≠ hstTimeNone → time ≤ m.maxRangeEndOfMediaTime)

def RangeOrdered (m : MediaSyncManager) : Prop :=
  m.minRangeStartOfMediaTime ≠ hstTimeNone → m.maxRangeEndOfMediaTime ≠ hstTimeNone →
    m.minRangeStartOfMediaTime ≤ m.maxRangeEndOfMediaTime

section Range

variable {m : MediaSyncManager}

theorem clipMediaTime_mono {s t : Int} (h : s ≤ t) : m.clipMediaTime s ≤ m.clipMediaTime t := by
  unfold clipMediaTime
  simp only
  split_ifs <;> omega

/-- Clipping brings no two times further apart. -/
theorem abs_clipMediaTime_sub_le (s t : Int) :
    |m.clipMediaTime s - m.clipMediaTime t| ≤ |s - t| := by
  rcases le_total s t with h | h
  · have hclip := clipMediaTime_mono (m := m) h
    rw [abs_of_nonpos (by omega), abs_of_nonpos (by omega)]
    unfold clipMediaTime at *
    simp only at *
    split_ifs at * <;> omega
  · have hclip := clipMediaTime_mono (m := m) h
    rw [abs_of_nonneg (by omega), abs_of_nonneg (by omega)]
    unfold clipMediaTime at *
    simp only at *
    split_ifs at * <;> omega

theorem clipMediaTime_of_inRange {t : Int} (h : m.InRange t) : m.clipMediaTime t = t := by
  unfold clipMediaTime
  have hlower := h.1
  have hupper := h.2
  simp only
  split_ifs <;> omega

theorem inRange_clipMediaTime (h : m.RangeOrdered) (t : Int) : m.InRange (m.clipMediaTime t) := by
  unfold RangeOrdered at h
  constructor
  · intro hset
    unfold clipMediaTime
    simp only
    split_ifs <;> omega
  · intro hset
    unfold clipMediaTime
    simp only
    split_ifs <;> omega

end Range

-- The media time of the anchor

def anchoredTime (m : MediaSyncManager) (now : Int) : Int :=
  simpleGetMediaTime m.currentAnchorClockTime now m.currentAnchorMediaTime m.playRate

def Counting (m : MediaSyncManager) : Prop :=
  m.isSeeking = false ∧ (m.clockState = .paused → m.pausedMediaTime ≠ hstTimeNone)

/-- A time that is reported until further notice. -/
def Held (m : MediaSyncManager) (time : Int) : Prop :=
  m.isSeeking = true ∧ time = m.seekingMediaTime ∨
    m.clockState = .paused ∧ m.pausedMediaTime ≠ hstTimeNone ∧ time = m.pausedMediaTime

theorem simpleGetMediaTime_eq {anchorClockTime now anchorMediaTime : Int} {rate : ℚ}
    (hrate : 1 / 10 ^ 9 ≤ rate) (hclock : anchorClockTime ≠ hstTimeNone) (hnow : now ≠ hstTimeNone)
    (hmedia : anchorMediaTime ≠ hstTimeNone) :
    simpleGetMediaTime anchorClockTime now anchorMediaTime rate =
      truncate (anchorMediaTime + (now - anchorClockTime : Int) * rate) := by
  have hpos : 0 ≤ rate := le_trans (by norm_num) hrate
  unfold simpleGetMediaTime
  rw [if_neg (by rw [abs_of_nonneg hpos]; exact not_lt.mpr hrate)]
  rw [if_neg (by rintro (h | h | h) <;> contradiction)]

theorem simpleGetMediaTime_none {anchorClockTime now anchorMediaTime : Int} {rate : ℚ}
    (h : anchorClockTime = hstTimeNone ∨ now = hstTimeNone ∨ anchorMediaTime = hstTimeNone) :
    simpleGetMediaTime anchorClockTime now anchorMediaTime rate = hstTimeNone := by
  unfold simpleGetMediaTime
  rw [if_pos h, ite_self]

/-- At the reading of its anchor the clock shows the time of its anchor. -/
theorem simpleGetMediaTime_self {now media : Int} {rate : ℚ} (hrate : 1 / 10 ^ 9 ≤ rate)
    (hnow : now ≠ hstTimeNone) : simpleGetMediaTime now now media rate = media := by
  by_cases hmedia : media = hstTimeNone
  · rw [simpleGetMediaTime_none (.inr (.inr hmedia)), hmedia]
  · rw [simpleGetMediaTime_eq hrate hnow hnow hmedia, sub_self, Int.cast_zero, zero_mul, add_zero]
    exact truncate_intCast media

section Time

variable {m : MediaSyncManager} {s t now : Int}

theorem getMediaTimeNow_running (hseek : m.isSeeking = false) (hstate : m.clockState = .resumed) :
    m.getMediaTimeNow t = m.clipMediaTime (m.anchoredTime t) := by
  unfold getMediaTimeNow
  rw [if_neg (by rw [hseek]; decide), if_neg (by rw [hstate]; decide)]
  rfl

theorem getMediaTimeNow_held (h : m.Counting) (hstate : m.clockState = .paused) :
    m.getMediaTimeNow t = m.pausedMediaTime := by
  unfold getMediaTimeNow
  rw [if_neg (by rw [h.1]; decide), if_pos hstate, if_neg (h.2 hstate)]

theorem getMediaTimeNow_seeking (hseek : m.isSeeking = true) :
    m.getMediaTimeNow t = m.seekingMediaTime := by
  unfold getMediaTimeNow
  rw [if_pos hseek]

theorem anchoredTime_mono (hrate : 1 / 10 ^ 9 ≤ m.playRate) (hs : s ≠ hstTimeNone) (ht : t ≠ hstTimeNone)
    (h : s ≤ t) : m.anchoredTime s ≤ m.anchoredTime t := by
  unfold anchoredTime
  by_cases hanchor : m.currentAnchorClockTime ≠ hstTimeNone ∧ m.currentAnchorMediaTime ≠ hstTimeNone
  · rw [simpleGetMediaTime_eq hrate hanchor.1 hs hanchor.2,
      simpleGetMediaTime_eq hrate hanchor.1 ht hanchor.2]
    refine truncate_mono ?_
    have hpos : 0 ≤ m.playRate := le_trans (by norm_num) hrate
    have hsub : ((s - m.currentAnchorClockTime : Int) : ℚ) ≤ (t - m.currentAnchorClockTime : Int) := by
      exact_mod_cast sub_le_sub_right h _
    linarith [mul_le_mul_of_nonneg_right hsub hpos]
  · -- without an anchor there is no media time at any reading
    have hnone : ∀ r, simpleGetMediaTime m.currentAnchorClockTime r m.currentAnchorMediaTime m.playRate =
        hstTimeNone := by
      intro r
      exact simpleGetMediaTime_none (by tauto)
    rw [hnone, hnone]

theorem getMediaTimeNow_mono (hcount : m.Counting) (hrate : 1 / 10 ^ 9 ≤ m.playRate)
    (hs : s ≠ hstTimeNone) (ht : t ≠ hstTimeNone) (h : s ≤ t) :
    m.getMediaTimeNow s ≤ m.getMediaTimeNow t := by
  cases hstate : m.clockState with
  | resumed =>
    rw [getMediaTimeNow_running hcount.1 hstate, getMediaTimeNow_running hcount.1 hstate]
    exact clipMediaTime_mono (anchoredTime_mono hrate hs ht h)
  | paused => rw [getMediaTimeNow_held hcount hstate, getMediaTimeNow_held hcount hstate]

theorem inRange_getMediaTimeNow (hordered : m.RangeOrdered) (hheld : ∀ time, m.Held time → m.InRange time)
    (h : m.isSeeking = true ∨ m.Counting) : m.InRange (m.getMediaTimeNow t) := by
  cases hseek : m.isSeeking with
  | true =>
    rw [getMediaTimeNow_seeking hseek]
    exact hheld _ (.inl ⟨hseek, rfl⟩)
  | false =>
    have hcount : m.Counting := h.resolve_left (by rw [hseek]; decide)
    cases hstate : m.clockState with
    | resumed =>
      rw [getMediaTimeNow_running hseek hstate]
      exact inRange_clipMediaTime hordered _
    | paused =>
      rw [getMediaTimeNow_held hcount hstate]
      exact hheld _ (.inr ⟨hstate, hcount.2 hstate, rfl⟩)

end Time

-- The reported time at the instant of a call

/-- What holds in every run: the rate is over the threshold, and the times the
clock holds are in an ordered range. -/
structure Bounded (m : MediaSyncManager) : Prop where
  rate : 1 / 10 ^ 9 ≤ m.playRate
  ordered : m.RangeOrdered
  held : ∀ time, m.Held time → m.InRange time

/-- The clock goes on counting, from the time it reported. -/
def Keeps (now : Int) (m m' : MediaSyncManager) : Prop :=
  m'.Counting ∧ m'.getMediaTimeNow now = m.getMediaTimeNow now

/-- The clock goes on counting, from no earlier time. -/
def Advances (now : Int) (m m' : MediaSyncManager) : Prop :=
  m'.Counting ∧ m.getMediaTimeNow now ≤ m'.getMediaTimeNow now

section Calls

variable {m : MediaSyncManager} {now : Int}

theorem Keeps.advances {m' : MediaSyncManager} (h : Keeps now m m') : Advances now m m' :=
  ⟨h.1, le_of_eq h.2.symm⟩

theorem keeps_anchored (hcount : m.Counting) {clockTime mediaTime : Int} {rate : ℚ}
    (h : simpleGetMediaTime clockTime now mediaTime rate = m.anchoredTime now) :
    Keeps now m ((m.simpleUpdateTimeAnchor clockTime mediaTime).simpleUpdatePlayRate rate) := by
  refine ⟨hcount, ?_⟩
  show (if m.isSeeking then m.seekingMediaTime
    else if m.clockState = .paused then if m.pausedMediaTime = hstTimeNone then 0 else m.pausedMediaTime
    else m.clipMediaTime (simpleGetMediaTime clockTime now mediaTime rate)) = m.getMediaTimeNow now
  rw [h]
  rfl

theorem keeps_rate (hcount : m.Counting) (hnow : now ≠ hstTimeNone) {rate : ℚ}
    (hrate : rate < 0 ∨ 1 / 10 ^ 9 ≤ rate) : Keeps now m (m.setPlaybackRate now rate).1 := by
  unfold setPlaybackRate
  by_cases hneg : rate < 0
  · rw [if_pos hneg]
    exact ⟨hcount, rfl⟩
  · rw [if_neg hneg]
    by_cases hanchor : m.currentAnchorClockTime = hstTimeNone ∨ m.currentAnchorMediaTime = hstTimeNone
    · -- without an anchor the rate is of no account
      rw [if_pos hanchor]
      have hnone : ∀ r, simpleGetMediaTime m.currentAnchorClockTime now m.currentAnchorMediaTime r =
          hstTimeNone := fun r => simpleGetMediaTime_none (by tauto)
      exact keeps_anchored hcount ((hnone rate).trans (hnone m.playRate).symm)
    · rw [if_neg hanchor]
      exact keeps_anchored hcount (simpleGetMediaTime_self (hrate.resolve_left hneg) hnow)

theorem pause_pausedMediaTime (now : Int) (hstate : m.clockState = .resumed) :
    (m.pause now).pausedMediaTime = m.clipMediaTime (m.anchoredTime now) := by
  unfold pause
  rw [if_neg (by rw [hstate]; decide)]
  show m.clipMediaTime (if _ then _ else _) = _
  split
  · rfl
  · unfold anchoredTime
    rw [simpleGetMediaTime_none (by tauto)]

theorem pause_clockState : (m.pause now).clockState = .paused := by
  unfold pause
  split
  · assumption
  · rfl

theorem pause_isSeeking : (m.pause now).isSeeking = m.isSeeking := by
  unfold pause
  split <;> rfl

theorem keeps_pause (hcount : m.Counting)
    (hmarker : m.clockState = .resumed → m.clipMediaTime (m.anchoredTime now) ≠ hstTimeNone) :
    Keeps now m (m.pause now) := by
  cases hstate : m.clockState with
  | paused =>
    have hsame : m.pause now = m := if_pos hstate
    rw [hsame]
    exact ⟨hcount, rfl⟩
  | resumed =>
    have hpaused := pause_pausedMediaTime now hstate
    have hcount' : (m.pause now).Counting := by
      refine ⟨pause_isSeeking.trans hcount.1, fun _ => ?_⟩
      rw [hpaused]
      exact hmarker hstate
    refine ⟨hcount', ?_⟩
    rw [getMediaTimeNow_held hcount' pause_clockState, getMediaTimeNow_running hcount.1 hstate, hpaused]

/-- Arming the barrier leaves the clock alone. -/
theorem setAllSyncShouldWaitNoLock_manager :
    ∃ prerolledSyncers alreadySetSyncersShouldWait,
      m.setAllSyncShouldWaitNoLock.1 = { m with prerolledSyncers, alreadySetSyncersShouldWait } := by
  unfold setAllSyncShouldWaitNoLock
  split
  · exact ⟨_, _, rfl⟩
  · exact ⟨_, _, rfl⟩

theorem resume_of_resumed (hstate : m.clockState = .resumed) : (m.resume now).1 = m := by
  have hanchor : m.anchorAfterPause now = m := by
    unfold anchorAfterPause
    rw [if_neg (by rw [hstate]; exact fun h => nomatch h.1)]
  unfold resume
  rw [hanchor]
  simp only
  rw [if_pos hstate]

theorem resume_of_paused (now : Int) (hstate : m.clockState = .paused) :
    ∃ prerolledSyncers alreadySetSyncersShouldWait, (m.resume now).1 =
      { m.anchorAfterPause now with
        clockState := .resumed, prerolledSyncers, alreadySetSyncersShouldWait } := by
  have hanchor : (m.anchorAfterPause now).clockState = .paused := by
    unfold anchorAfterPause
    split
    · exact hstate
    · exact hstate
  unfold resume
  simp only
  rw [if_neg (by rw [hanchor]; decide)]
  obtain ⟨prerolled, already, hwaits⟩ := setAllSyncShouldWaitNoLock_manager (m := m.anchorAfterPause now)
  rw [hwaits]
  exact ⟨prerolled, already, rfl⟩

theorem keeps_resume (hcount : m.Counting) (hbounded : m.Bounded) (hnow : now ≠ hstTimeNone)
    (hwait : m.clockState = .paused → m.alreadySetSyncersShouldWait = true) :
    Keeps now m (m.resume now).1 := by
  cases hstate : m.clockState with
  | resumed =>
    rw [resume_of_resumed hstate]
    exact ⟨hcount, rfl⟩
  | paused =>
    have hanchor : m.anchorAfterPause now = { m.simpleUpdateTimeAnchor now m.pausedMediaTime with
        pausedMediaTime := hstTimeNone, pausedClockTime := hstTimeNone } :=
      if_pos ⟨hstate, hcount.2 hstate, hwait hstate⟩
    obtain ⟨prerolled, already, hresume⟩ := resume_of_paused now hstate
    rw [hresume, hanchor]
    refine ⟨⟨hcount.1, nofun⟩, ?_⟩
    rw [getMediaTimeNow_held hcount hstate]
    show (if m.isSeeking then m.seekingMediaTime
      else m.clipMediaTime (simpleGetMediaTime now now m.pausedMediaTime m.playRate)) = m.pausedMediaTime
    rw [if_neg (by rw [hcount.1]; decide), simpleGetMediaTime_self hbounded.rate hnow]
    exact clipMediaTime_of_inRange (hbounded.held _ (.inr ⟨hstate, hcount.2 hstate, rfl⟩))

theorem advances_of_clip {m' : MediaSyncManager} (hcount : m.Counting)
    (hseek : m'.isSeeking = m.isSeeking) (hstate : m'.clockState = m.clockState)
    (hpaused : m'.pausedMediaTime = m.pausedMediaTime)
    (hclip : m.clockState = .resumed →
      m.clipMediaTime (m.anchoredTime now) ≤ m'.clipMediaTime (m'.anchoredTime now)) :
    Advances now m m' := by
  have hcount' : m'.Counting := by
    unfold Counting
    rw [hseek, hstate, hpaused]
    exact hcount
  refine ⟨hcount', ?_⟩
  cases hm : m.clockState with
  | paused => rw [getMediaTimeNow_held hcount hm, getMediaTimeNow_held hcount' (hstate.trans hm), hpaused]
  | resumed =>
    rw [getMediaTimeNow_running hcount.1 hm, getMediaTimeNow_running hcount'.1 (hstate.trans hm)]
    exact hclip hm

theorem advances_rangeStart (hcount : m.Counting) {startMediaTime : Int}
    (hfree : m.clockState = .resumed → m.minRangeStartOfMediaTime ≠ hstTimeNone →
      m.minRangeStartOfMediaTime ≤ m.anchoredTime now) :
    Advances now m (m.setMediaTimeRangeStart startMediaTime) := by
  unfold setMediaTimeRangeStart
  by_cases hset : m.minRangeStartOfMediaTime = hstTimeNone ∨ startMediaTime < m.minRangeStartOfMediaTime
  · rw [if_pos hset]
    refine advances_of_clip hcount rfl rfl rfl ?_
    intro hstate
    have hfree := hfree hstate
    show m.clipMediaTime (m.anchoredTime now) ≤
      clipMediaTime { m with minRangeStartOfMediaTime := startMediaTime } (m.anchoredTime now)
    unfold clipMediaTime
    simp only at *
    split_ifs <;> omega
  · rw [if_neg hset]
    exact ⟨hcount, le_rfl⟩

theorem advances_rangeEnd (hcount : m.Counting) {endMediaTime : Int}
    (hfree : m.clockState = .resumed → m.maxRangeEndOfMediaTime = hstTimeNone →
      m.anchoredTime now ≤ endMediaTime)
    (hordered : (m.setMediaTimeRangeEnd endMediaTime).RangeOrdered) :
    Advances now m (m.setMediaTimeRangeEnd endMediaTime) := by
  unfold setMediaTimeRangeEnd at *
  by_cases hset : m.maxRangeEndOfMediaTime = hstTimeNone ∨ m.maxRangeEndOfMediaTime < endMediaTime
  · rw [if_pos hset] at hordered ⊢
    refine advances_of_clip hcount rfl rfl rfl ?_
    intro hstate
    have hfree := hfree hstate
    show m.clipMediaTime (m.anchoredTime now) ≤
      clipMediaTime { m with maxRangeEndOfMediaTime := endMediaTime } (m.anchoredTime now)
    unfold RangeOrdered at hordered
    unfold clipMediaTime
    simp only at *
    split_ifs <;> omega
  · rw [if_neg hset]
    exact ⟨hcount, le_rfl⟩

end Calls

end MediaSyncManager

open MediaSyncManager

-- The calls

inductive Call where
  | updateTimeAnchor (clockTime mediaTime : Int) (supplier : Option Synchronizer)
  | setPlaybackRate (rate : ℚ)
  | pause
  | resume
  | seek (mediaTime : Int)
  | waitAllPrerolled (prerolled : Bool)
  | setMediaTimeRangeStart (startMediaTime : Int)
  | setMediaTimeRangeEnd (endMediaTime : Int)
  | getMediaTimeNow
  | addSynchronizer (syncer : Option Synchronizer)
  | removeSynchronizer (syncer : Option Synchronizer)

def Call.apply (m : MediaSyncManager) (now : Int) : Call → MediaSyncManager
  | .updateTimeAnchor clockTime mediaTime supplier => (m.updateTimeAnchor clockTime mediaTime supplier).1
  | .setPlaybackRate rate => (m.setPlaybackRate now rate).1
  | .pause => m.pause now
  | .resume => (m.resume now).1
  | .seek mediaTime => (m.seek mediaTime).1
  | .waitAllPrerolled prerolled => m.waitAllPrerolled prerolled
  | .setMediaTimeRangeStart startMediaTime => m.setMediaTimeRangeStart startMediaTime
  | .setMediaTimeRangeEnd endMediaTime => m.setMediaTimeRangeEnd endMediaTime
  | .getMediaTimeNow => m
  | .addSynchronizer syncer => m.addSynchronizer syncer
  | .removeSynchronizer syncer => m.removeSynchronizer syncer

structure TimedCall where
  now : Int
  call : Call

structure Clock where
  manager : MediaSyncManager := {}
  last : Int := 0

namespace Clock

/-- The steady clock never goes back. -/
def step (x : Clock) (l : TimedCall) : Option Clock :=
  if x.last ≤ l.now then some ⟨l.call.apply x.manager l.now, l.now⟩ else none

def reported (x : Clock) : Int := x.manager.getMediaTimeNow x.last

def Anchors (m : MediaSyncManager) (clockTime mediaTime : Int) (supplier : Option Synchronizer) : Prop :=
  clockTime ≠ hstTimeNone ∧ mediaTime ≠ hstTimeNone ∧
    ∃ syncer, supplier = some syncer ∧ syncer ∈ m.syncers ∧ m.currentSyncerPriority ≤ syncer.priority

def Accepts (m : MediaSyncManager) (mediaTime : Int) : Prop :=
  m.minRangeStartOfMediaTime ≠ hstTimeNone ∧ m.maxRangeEndOfMediaTime ≠ hstTimeNone ∧
    m.minRangeStartOfMediaTime ≤ mediaTime ∧ mediaTime ≤ m.maxRangeEndOfMediaTime

/-- What is asked of the calls of every run: no rate is under the threshold, and
the first start or end of the range is not beyond its other end or beyond a time
the clock holds. -/
def Usable (x : Clock) (l : TimedCall) : Prop :=
  match l.call with
  | .setPlaybackRate rate => rate < 0 ∨ 1 / 10 ^ 9 ≤ rate
  | .setMediaTimeRangeStart start =>
    x.manager.minRangeStartOfMediaTime = hstTimeNone → start ≠ hstTimeNone →
      (x.manager.maxRangeEndOfMediaTime ≠ hstTimeNone → start ≤ x.manager.maxRangeEndOfMediaTime) ∧
        ∀ time, x.manager.Held time → start ≤ time
  | .setMediaTimeRangeEnd stop =>
    x.manager.maxRangeEndOfMediaTime = hstTimeNone → stop ≠ hstTimeNone →
      (x.manager.minRangeStartOfMediaTime ≠ hstTimeNone → x.manager.minRangeStartOfMediaTime ≤ stop) ∧
        ∀ time, x.manager.Held time → time ≤ stop
  | _ => True

/-- What is asked of the calls between two anchors, beside that they set none. -/
def Smooth (x : Clock) (l : TimedCall) : Prop :=
  match l.call with
  | .updateTimeAnchor clockTime mediaTime supplier => ¬ Anchors x.manager clockTime mediaTime supplier
  | .seek mediaTime => ¬ Accepts x.manager mediaTime
  | .pause =>
    x.manager.clockState = .resumed →
      x.manager.clipMediaTime (x.manager.anchoredTime l.now) ≠ hstTimeNone
  | .resume => x.manager.clockState = .paused → x.manager.alreadySetSyncersShouldWait = true
  | .setMediaTimeRangeStart _ =>
    x.manager.clockState = .resumed → x.manager.minRangeStartOfMediaTime ≠ hstTimeNone →
      x.manager.minRangeStartOfMediaTime ≤ x.manager.anchoredTime l.now
  | .setMediaTimeRangeEnd stop =>
    x.manager.clockState = .resumed → x.manager.maxRangeEndOfMediaTime = hstTimeNone →
      x.manager.anchoredTime l.now ≤ stop
  | _ => True

def UsableSmooth (x : Clock) (l : TimedCall) : Prop := Usable x l ∧ Smooth x l

-- Every run

section Bounds

variable {m : MediaSyncManager}

theorem setPlaybackRate_bounded (h : m.Bounded) (now : Int) {rate : ℚ}
    (hrate : rate < 0 ∨ 1 / 10 ^ 9 ≤ rate) : (m.setPlaybackRate now rate).1.Bounded := by
  unfold setPlaybackRate
  by_cases hneg : rate < 0
  · rw [if_pos hneg]
    exact h
  · rw [if_neg hneg]
    split
    · exact ⟨hrate.resolve_left hneg, h.ordered, h.held⟩
    · exact ⟨hrate.resolve_left hneg, h.ordered, h.held⟩

theorem pause_bounded (h : m.Bounded) (now : Int) : (m.pause now).Bounded := by
  cases hstate : m.clockState with
  | paused =>
    rw [show m.pause now = m from if_pos hstate]
    exact h
  | resumed =>
    have hclip := pause_pausedMediaTime now hstate
    unfold pause at *
    rw [if_neg (by rw [hstate]; decide)] at *
    refine ⟨h.rate, h.ordered, ?_⟩
    rintro time (⟨hseek, rfl⟩ | ⟨-, -, rfl⟩)
    · exact h.held _ (.inl ⟨hseek, rfl⟩)
    · rw [hclip]
      exact inRange_clipMediaTime h.ordered _

theorem resume_bounded (h : m.Bounded) (now : Int) : (m.resume now).1.Bounded := by
  cases hstate : m.clockState with
  | resumed =>
    rw [resume_of_resumed hstate]
    exact h
  | paused =>
    obtain ⟨prerolled, already, hresume⟩ := resume_of_paused now hstate
    rw [hresume]
    unfold anchorAfterPause
    split
    · exact ⟨h.rate, h.ordered, fun _ hheld => h.held _ (.inl (hheld.resolve_right nofun))⟩
    · exact ⟨h.rate, h.ordered, fun _ hheld => h.held _ (.inl (hheld.resolve_right nofun))⟩

theorem seek_bounded (h : m.Bounded) (mediaTime : Int) : (m.seek mediaTime).1.Bounded := by
  unfold seek
  by_cases hset : m.minRangeStartOfMediaTime = hstTimeNone ∨ m.maxRangeEndOfMediaTime = hstTimeNone
  · rw [if_pos hset]
    exact h
  · rw [if_neg hset]
    by_cases hout : m.maxRangeEndOfMediaTime < mediaTime ∨ mediaTime < m.minRangeStartOfMediaTime
    · rw [if_pos hout]
      exact h
    · rw [if_neg hout]
      simp only
      obtain ⟨prerolled, already, hwaits⟩ := setAllSyncShouldWaitNoLock_manager
        (m := { m with isSeeking := true, seekingMediaTime := mediaTime, alreadySetSyncersShouldWait := false })
      rw [hwaits]
      refine ⟨h.rate, h.ordered, ?_⟩
      push Not at hout
      rintro time (⟨-, rfl⟩ | ⟨-, hpaused, -⟩)
      · exact ⟨fun _ => hout.2, fun _ => hout.1⟩
      · exact absurd rfl hpaused

theorem updateTimeAnchor_bounded (h : m.Bounded) (clockTime mediaTime : Int)
    (supplier : Option Synchronizer) : (m.updateTimeAnchor clockTime mediaTime supplier).1.Bounded := by
  cases supplier with
  | none => exact h
  | some supplier =>
    have hanchor : ∀ p : Prop, [Decidable p] → (if p then
        { m with currentSyncerPriority := supplier.priority }.simpleUpdateTimeAnchor clockTime mediaTime
        else m).Bounded := by
      intro p _
      split
      · exact ⟨h.rate, h.ordered, h.held⟩
      · exact h
    have hseek : ∀ (m : MediaSyncManager) (p : Prop), [Decidable p] → m.Bounded →
        (if p then { m with isSeeking := false } else m).Bounded := by
      intro m p _ h
      split
      · exact ⟨h.rate, h.ordered, fun time hheld => h.held time (.inr (hheld.resolve_left nofun))⟩
      · exact h
    unfold updateTimeAnchor
    simp only
    split
    · exact h
    · exact hseek _ _ (hanchor _)

theorem setMediaTimeRangeStart_bounded (h : m.Bounded) {start : Int}
    (hfirst : m.minRangeStartOfMediaTime = hstTimeNone → start ≠ hstTimeNone →
      (m.maxRangeEndOfMediaTime ≠ hstTimeNone → start ≤ m.maxRangeEndOfMediaTime) ∧
        ∀ time, m.Held time → start ≤ time) : (m.setMediaTimeRangeStart start).Bounded := by
  unfold setMediaTimeRangeStart
  by_cases hset : m.minRangeStartOfMediaTime = hstTimeNone ∨ start < m.minRangeStartOfMediaTime
  · rw [if_pos hset]
    refine ⟨h.rate, ?_, ?_⟩
    · intro hstart hstop
      by_cases hnone : m.minRangeStartOfMediaTime = hstTimeNone
      · exact (hfirst hnone hstart).1 hstop
      · exact le_trans (le_of_lt (hset.resolve_left hnone)) (h.ordered hnone hstop)
    · intro time hheld
      refine ⟨?_, (h.held time hheld).2⟩
      intro hstart
      by_cases hnone : m.minRangeStartOfMediaTime = hstTimeNone
      · exact (hfirst hnone hstart).2 time hheld
      · exact le_trans (le_of_lt (hset.resolve_left hnone)) ((h.held time hheld).1 hnone)
  · rw [if_neg hset]
    exact h

theorem setMediaTimeRangeEnd_bounded (h : m.Bounded) {stop : Int}
    (hfirst : m.maxRangeEndOfMediaTime = hstTimeNone → stop ≠ hstTimeNone →
      (m.minRangeStartOfMediaTime ≠ hstTimeNone → m.minRangeStartOfMediaTime ≤ stop) ∧
        ∀ time, m.Held time → time ≤ stop) : (m.setMediaTimeRangeEnd stop).Bounded := by
  unfold setMediaTimeRangeEnd
  by_cases hset : m.maxRangeEndOfMediaTime = hstTimeNone ∨ m.maxRangeEndOfMediaTime < stop
  · rw [if_pos hset]
    refine ⟨h.rate, ?_, ?_⟩
    · intro hstart hstop
      by_cases hnone : m.maxRangeEndOfMediaTime = hstTimeNone
      · exact (hfirst hnone hstop).1 hstart
      · exact le_trans (h.ordered hstart hnone) (le_of_lt (hset.resolve_left hnone))
    · intro time hheld
      refine ⟨(h.held time hheld).1, ?_⟩
      intro hstop
      by_cases hnone : m.maxRangeEndOfMediaTime = hstTimeNone
      · exact (hfirst hnone hstop).2 time hheld
      · exact le_trans ((h.held time hheld).2 hnone) (le_of_lt (hset.resolve_left hnone))
  · rw [if_neg hset]
    exact h

theorem addSynchronizer_bounded (h : m.Bounded) (syncer : Option Synchronizer) :
    (m.addSynchronizer syncer).Bounded := by
  cases syncer with
  | none => exact h
  | some syncer =>
    unfold addSynchronizer
    simp only
    split
    · exact h
    · exact ⟨h.rate, h.ordered, h.held⟩

theorem removeSynchronizer_bounded (h : m.Bounded) (syncer : Option Synchronizer) :
    (m.removeSynchronizer syncer).Bounded := by
  cases syncer with
  | none => exact h
  | some syncer => exact ⟨h.rate, h.ordered, h.held⟩

end Bounds

structure Sound (x : Clock) : Prop where
  last : 0 ≤ x.last
  bounded : x.manager.Bounded

theorem sound_start : Sound {} := by
  refine ⟨le_rfl, ?_, nofun, ?_⟩
  · show (1 : ℚ) / 10 ^ 9 ≤ 1
    norm_num
  · rintro time (⟨hseek, -⟩ | ⟨-, hpaused, -⟩)
    · cases hseek
    · exact absurd rfl hpaused

theorem step_some {x y : Clock} (h : step x l = some y) :
    x.last ≤ l.now ∧ y = ⟨l.call.apply x.manager l.now, l.now⟩ := by
  unfold step at h
  by_cases hle : x.last ≤ l.now
  · rw [if_pos hle] at h
    exact ⟨hle, (Option.some.inj h).symm⟩
  · rw [if_neg hle] at h
    cases h

theorem sound_step {x y : Clock} (h : Sound x) (husable : Usable x l)
    (hstep : step x l = some y) : Sound y := by
  obtain ⟨hle, rfl⟩ := step_some hstep
  obtain ⟨now, call⟩ := l
  refine ⟨h.last.trans hle, ?_⟩
  cases call with
  | updateTimeAnchor clockTime mediaTime supplier => exact updateTimeAnchor_bounded h.bounded _ _ _
  | setPlaybackRate rate => exact setPlaybackRate_bounded h.bounded now husable
  | pause => exact pause_bounded h.bounded now
  | resume => exact resume_bounded h.bounded now
  | seek mediaTime => exact seek_bounded h.bounded mediaTime
  | waitAllPrerolled prerolled => exact ⟨h.bounded.rate, h.bounded.ordered, h.bounded.held⟩
  | setMediaTimeRangeStart start => exact setMediaTimeRangeStart_bounded h.bounded husable
  | setMediaTimeRangeEnd stop => exact setMediaTimeRangeEnd_bounded h.bounded husable
  | getMediaTimeNow => exact h.bounded
  | addSynchronizer syncer => exact addSynchronizer_bounded h.bounded syncer
  | removeSynchronizer syncer => exact removeSynchronizer_bounded h.bounded syncer

-- Between two anchors

theorem updateTimeAnchor_of_not_anchors (hseek : m.isSeeking = false)
    {clockTime mediaTime : Int} {supplier : Option Synchronizer}
    (h : ¬ Anchors m clockTime mediaTime supplier) :
    (m.updateTimeAnchor clockTime mediaTime supplier).1 = m := by
  cases supplier with
  | none => rfl
  | some supplier =>
    unfold updateTimeAnchor
    by_cases hnone : clockTime = hstTimeNone ∨ mediaTime = hstTimeNone
    · simp only
      rw [if_pos hnone]
    · have hrejected : ¬ (m.isSupplierValid supplier ∧ m.currentSyncerPriority ≤ supplier.priority) := by
        intro hvalid
        push Not at hnone
        exact h ⟨hnone.1, hnone.2, supplier, rfl, of_decide_eq_true hvalid.1, hvalid.2⟩
      simp only
      rw [if_neg hnone, if_neg hrejected, if_neg (by rw [hseek]; exact fun h => nomatch h.1)]

theorem seek_of_not_accepts {mediaTime : Int} (h : ¬ Accepts m mediaTime) :
    (m.seek mediaTime).1 = m := by
  unfold seek
  by_cases hset : m.minRangeStartOfMediaTime = hstTimeNone ∨ m.maxRangeEndOfMediaTime = hstTimeNone
  · rw [if_pos hset]
  · rw [if_neg hset, if_pos]
    push Not at hset
    by_contra hin
    push Not at hin
    exact h ⟨hset.1, hset.2, hin.2, hin.1⟩

theorem advances_apply {x : Clock} (h : Sound x) (hcount : x.manager.Counting)
    (hnow : l.now ≠ hstTimeNone) (husable : Usable x l) (hsmooth : Smooth x l) :
    Advances l.now x.manager (l.call.apply x.manager l.now) := by
  obtain ⟨now, call⟩ := l
  cases call with
  | updateTimeAnchor clockTime mediaTime supplier =>
    have hsame := updateTimeAnchor_of_not_anchors hcount.1 hsmooth
    show Advances now x.manager (x.manager.updateTimeAnchor clockTime mediaTime supplier).1
    rw [hsame]
    exact ⟨hcount, le_rfl⟩
  | setPlaybackRate rate => exact (keeps_rate hcount hnow husable).advances
  | pause => exact (keeps_pause hcount hsmooth).advances
  | resume => exact (keeps_resume hcount h.bounded hnow hsmooth).advances
  | seek mediaTime =>
    have hsame := seek_of_not_accepts hsmooth
    show Advances now x.manager (x.manager.seek mediaTime).1
    rw [hsame]
    exact ⟨hcount, le_rfl⟩
  | waitAllPrerolled prerolled | getMediaTimeNow => exact ⟨hcount, le_rfl⟩
  | setMediaTimeRangeStart start => exact advances_rangeStart hcount hsmooth
  | setMediaTimeRangeEnd stop =>
    exact advances_rangeEnd hcount hsmooth (setMediaTimeRangeEnd_bounded h.bounded husable).ordered
  | addSynchronizer syncer =>
    cases syncer with
    | none => exact ⟨hcount, le_rfl⟩
    | some syncer =>
      show Advances now x.manager (x.manager.addSynchronizer (some syncer))
      unfold addSynchronizer
      simp only
      split
      · exact ⟨hcount, le_rfl⟩
      · exact ⟨hcount, le_rfl⟩
  | removeSynchronizer syncer =>
    cases syncer with
    | none | some syncer => exact ⟨hcount, le_rfl⟩

theorem Sound.ne_none {x : Clock} (h : Sound x) {now : Int} (hle : x.last ≤ now) : now ≠ hstTimeNone := by
  have hlast := h.last
  unfold hstTimeNone
  omega

theorem reported_step {x y : Clock} (h : Sound x) (hcount : x.manager.Counting)
    (hgood : UsableSmooth x l) (hstep : step x l = some y) :
    y.manager.Counting ∧ x.reported ≤ y.reported := by
  obtain ⟨hle, rfl⟩ := step_some hstep
  have hnow := h.ne_none hle
  obtain ⟨hcount', hadvance⟩ := advances_apply h hcount hnow hgood.1 hgood.2
  refine ⟨hcount', le_trans ?_ hadvance⟩
  exact getMediaTimeNow_mono hcount h.bounded.rate (h.ne_none le_rfl) hnow hle

/-- Between two anchors the reported time never goes back. -/
theorem reported_run {x y : Clock} {ls : List TimedCall} (h : Sound x) (hcount : x.manager.Counting)
    (hgood : Runs.Along step UsableSmooth x ls) (hrun : Runs.run step x ls = some y) :
    x.reported ≤ y.reported := by
  have hinv : ∀ u l v, Sound u ∧ u.manager.Counting ∧ x.reported ≤ u.reported → UsableSmooth u l →
      step u l = some v → Sound v ∧ v.manager.Counting ∧ x.reported ≤ v.reported := by
    rintro u l v ⟨hu, hcu, hle⟩ hl hs
    obtain ⟨hcv, hadvance⟩ := reported_step hu hcu hl hs
    exact ⟨sound_step hu hl.1 hs, hcv, hle.trans hadvance⟩
  exact (Runs.run_invariant hinv ⟨h, hcount, le_rfl⟩ hgood hrun).2.2

-- The end of a seek

def NoSeek (x : Clock) (l : TimedCall) : Prop :=
  Usable x l ∧ ∀ mediaTime, l.call = .seek mediaTime → ¬ Accepts x.manager mediaTime

theorem resume_seekingMediaTime (m : MediaSyncManager) (now : Int) :
    (m.resume now).1.seekingMediaTime = m.seekingMediaTime := by
  cases hstate : m.clockState with
  | resumed => rw [resume_of_resumed hstate]
  | paused =>
    obtain ⟨prerolled, already, hresume⟩ := resume_of_paused now hstate
    rw [hresume]
    unfold anchorAfterPause
    simp only
    split <;> rfl

theorem seekingMediaTime_apply {x : Clock}
    (h : ∀ mediaTime, l.call = .seek mediaTime → ¬ Accepts x.manager mediaTime) :
    (l.call.apply x.manager l.now).seekingMediaTime = x.manager.seekingMediaTime := by
  obtain ⟨now, call⟩ := l
  cases call with
  | updateTimeAnchor clockTime mediaTime supplier =>
    show (x.manager.updateTimeAnchor clockTime mediaTime supplier).1.seekingMediaTime = _
    cases supplier with
    | none => rfl
    | some supplier =>
      unfold updateTimeAnchor
      simp only
      split_ifs <;> rfl
  | setPlaybackRate rate =>
    show (x.manager.setPlaybackRate now rate).1.seekingMediaTime = _
    unfold setPlaybackRate
    split_ifs <;> rfl
  | pause =>
    show (x.manager.pause now).seekingMediaTime = _
    unfold pause
    split <;> rfl
  | resume => exact resume_seekingMediaTime x.manager now
  | seek mediaTime =>
    show (x.manager.seek mediaTime).1.seekingMediaTime = _
    rw [seek_of_not_accepts (h mediaTime rfl)]
  | setMediaTimeRangeStart start =>
    show (x.manager.setMediaTimeRangeStart start).seekingMediaTime = _
    unfold setMediaTimeRangeStart
    split <;> rfl
  | setMediaTimeRangeEnd stop =>
    show (x.manager.setMediaTimeRangeEnd stop).seekingMediaTime = _
    unfold setMediaTimeRangeEnd
    split <;> rfl
  | addSynchronizer syncer =>
    show (x.manager.addSynchronizer syncer).seekingMediaTime = _
    cases syncer with
    | none => rfl
    | some syncer =>
      unfold addSynchronizer
      simp only
      split <;> rfl
  | removeSynchronizer syncer => cases syncer <;> rfl
  | waitAllPrerolled prerolled | getMediaTimeNow => rfl

theorem abs_lt_of_hstTime2Ms_le {time ms : Int} (h : hstTime2Ms |time| ≤ ms) :
    |time| < (ms + 1) * hstMsecond := by
  unfold hstTime2Ms hstMsecond at *
  rw [Int.tdiv_eq_ediv_of_nonneg (abs_nonneg time)] at h
  omega

theorem updateTimeAnchor_ends (hseek : m.isSeeking = true)
    {clockTime mediaTime : Int} {supplier : Option Synchronizer}
    (hanchors : Anchors m clockTime mediaTime supplier)
    (hend : (m.updateTimeAnchor clockTime mediaTime supplier).1.isSeeking = false) :
    hstTime2Ms |mediaTime - m.seekingMediaTime| ≤ 50 ∧
      ∃ priority, (m.updateTimeAnchor clockTime mediaTime supplier).1 =
        { { m with currentSyncerPriority := priority }.simpleUpdateTimeAnchor clockTime mediaTime with
          isSeeking := false } := by
  obtain ⟨hclock, hmedia, supplier, rfl, hmem, hpriority⟩ := hanchors
  have hvalid : m.isSupplierValid supplier ∧ m.currentSyncerPriority ≤ supplier.priority :=
    ⟨decide_eq_true hmem, hpriority⟩
  have hshape : (m.updateTimeAnchor clockTime mediaTime (some supplier)).1 =
      if m.isSeeking ∧ hstTime2Ms |mediaTime - m.seekingMediaTime| ≤ 50 then
        { { m with currentSyncerPriority := supplier.priority }.simpleUpdateTimeAnchor clockTime mediaTime with
          isSeeking := false }
      else { m with currentSyncerPriority := supplier.priority }.simpleUpdateTimeAnchor clockTime mediaTime := by
    unfold updateTimeAnchor
    simp only
    rw [if_neg (by rintro (h | h) <;> contradiction), if_pos hvalid]
    rfl
  by_cases hnear : hstTime2Ms |mediaTime - m.seekingMediaTime| ≤ 50
  · exact ⟨hnear, supplier.priority, hshape.trans (if_pos ⟨hseek, hnear⟩)⟩
  · -- the seek goes on
    rw [hshape, if_neg (fun h => hnear h.2)] at hend
    exact absurd (hseek.symm.trans hend) (by decide)

/-- Where a running clock starts after a seek. -/
theorem near_target (h : m.Bounded) (hseek : m.isSeeking = true)
    (hstate : m.clockState = .resumed) {clockTime mediaTime : Int} {supplier : Option Synchronizer}
    (hanchors : Anchors m clockTime mediaTime supplier)
    (hend : (m.updateTimeAnchor clockTime mediaTime supplier).1.isSeeking = false) {now : Int}
    (hnow : now ≠ hstTimeNone) :
    |(((m.updateTimeAnchor clockTime mediaTime supplier).1.getMediaTimeNow now - m.seekingMediaTime : Int) : ℚ)| <
      51 * hstMsecond + |((now - clockTime : Int) : ℚ)| * m.playRate := by
  obtain ⟨hnear, priority, hsame⟩ := updateTimeAnchor_ends hseek hanchors hend
  have htarget := clipMediaTime_of_inRange (h.held _ (.inl ⟨hseek, rfl⟩))
  have hshown : (m.updateTimeAnchor clockTime mediaTime supplier).1.getMediaTimeNow now =
      m.clipMediaTime (truncate (mediaTime + (now - clockTime : Int) * m.playRate)) := by
    rw [hsame]
    show (if m.clockState = .paused then if m.pausedMediaTime = hstTimeNone then 0 else m.pausedMediaTime
      else m.clipMediaTime (simpleGetMediaTime clockTime now mediaTime m.playRate)) = _
    rw [if_neg (by rw [hstate]; decide), simpleGetMediaTime_eq h.rate hanchors.1 hnow hanchors.2.1]
  have hclip := abs_clipMediaTime_sub_le (m := m)
    (truncate (mediaTime + (now - clockTime : Int) * m.playRate)) m.seekingMediaTime
  rw [htarget, ← hshown] at hclip
  have hcut := abs_truncate_sub_lt (mediaTime + (now - clockTime : Int) * m.playRate)
  have hmedia : |mediaTime - m.seekingMediaTime| ≤ 51 * hstMsecond - 1 :=
    Int.le_sub_one_of_lt (abs_lt_of_hstTime2Ms_le hnear)
  have hmedia' : |(mediaTime : ℚ) - m.seekingMediaTime| ≤ 51 * hstMsecond - 1 := by
    exact_mod_cast hmedia
  have hrate : |((now - clockTime : Int) : ℚ) * m.playRate| =
      |((now - clockTime : Int) : ℚ)| * m.playRate := by
    rw [abs_mul, abs_of_nonneg (le_trans (by norm_num) h.rate)]
  -- the anchor's time, what has been played since, and the fraction cut off
  have hsplit : (truncate (mediaTime + (now - clockTime : Int) * m.playRate) - m.seekingMediaTime : ℚ) =
      (truncate (mediaTime + (now - clockTime : Int) * m.playRate) -
          (mediaTime + (now - clockTime : Int) * m.playRate)) +
        (((now - clockTime : Int) : ℚ) * m.playRate + (mediaTime - m.seekingMediaTime)) := by
    ring
  calc |(((m.updateTimeAnchor clockTime mediaTime supplier).1.getMediaTimeNow now - m.seekingMediaTime : Int) : ℚ)|
      ≤ |(truncate (mediaTime + (now - clockTime : Int) * m.playRate) - m.seekingMediaTime : ℚ)| := by
        exact_mod_cast hclip
    _ ≤ |(truncate (mediaTime + (now - clockTime : Int) * m.playRate) : ℚ) -
            (mediaTime + (now - clockTime : Int) * m.playRate)| +
          (|((now - clockTime : Int) : ℚ) * m.playRate| + |(mediaTime : ℚ) - m.seekingMediaTime|) := by
        rw [hsplit]
        exact (abs_add_le _ _).trans (add_le_add_right (abs_add_le _ _) _)
    _ < 51 * hstMsecond + |((now - clockTime : Int) : ℚ)| * m.playRate := by
        rw [hrate]
        linarith

-- Every run

/-- The clock does not jump from here on. -/
structure Steady (x : Clock) : Prop where
  /-- `SetPlaybackRate`, `Pause` and `Resume` leave the reported time as it is. -/
  keeps : ∀ l y, x.manager.Counting → UsableSmooth x l → step x l = some y →
    l.call = .pause ∨ l.call = .resume ∨ (∃ rate, l.call = .setPlaybackRate rate) →
      y.reported = x.manager.getMediaTimeNow l.now
  /-- Between two anchors it never goes back. -/
  forward : ∀ ls y, x.manager.Counting → Runs.Along step UsableSmooth x ls →
    Runs.run step x ls = some y → x.reported ≤ y.reported
  inside : x.manager.isSeeking = true ∨ x.manager.Counting → x.manager.InRange x.reported
  /-- A running clock starts near the target when the anchor ends the seek. -/
  seek : ∀ target now y ls z at_ clockTime mediaTime supplier w, Accepts x.manager target →
    step x ⟨now, .seek target⟩ = some y → Runs.Along step NoSeek y ls → Runs.run step y ls = some z →
    z.manager.isSeeking = true → z.manager.clockState = .resumed →
    Anchors z.manager clockTime mediaTime supplier →
    step z ⟨at_, .updateTimeAnchor clockTime mediaTime supplier⟩ = some w →
    w.manager.isSeeking = false → ∀ read, w.last ≤ read →
      |((w.manager.getMediaTimeNow read - target : Int) : ℚ)| <
        51 * hstMsecond + |((read - clockTime : Int) : ℚ)| * z.manager.playRate

theorem keeps_apply {x : Clock} (h : Sound x) (hcount : x.manager.Counting)
    (hnow : l.now ≠ hstTimeNone) (hgood : UsableSmooth x l)
    (hl : l.call = .pause ∨ l.call = .resume ∨ ∃ rate, l.call = .setPlaybackRate rate) :
    Keeps l.now x.manager (l.call.apply x.manager l.now) := by
  obtain ⟨now, call⟩ := l
  obtain ⟨husable, hsmooth⟩ := hgood
  rcases hl with rfl | rfl | ⟨rate, rfl⟩
  · exact keeps_pause hcount hsmooth
  · exact keeps_resume hcount h.bounded hnow hsmooth
  · exact keeps_rate hcount hnow husable

theorem seek_seekingMediaTime {target : Int} (h : Accepts m target) :
    (m.seek target).1.seekingMediaTime = target := by
  obtain ⟨hstart, hstop, hle, hge⟩ := h
  unfold MediaSyncManager.seek
  rw [if_neg (by tauto), if_neg (by omega)]
  simp only
  obtain ⟨prerolled, already, hwaits⟩ := setAllSyncShouldWaitNoLock_manager
    (m := { m with isSeeking := true, seekingMediaTime := target, alreadySetSyncersShouldWait := false })
  rw [hwaits]
  rfl

theorem target_run {y z : Clock} {ls : List TimedCall} (h : Sound y)
    (hgood : Runs.Along step NoSeek y ls) (hrun : Runs.run step y ls = some z) :
    Sound z ∧ z.manager.seekingMediaTime = y.manager.seekingMediaTime := by
  have hinv : ∀ u l v, Sound u ∧ u.manager.seekingMediaTime = y.manager.seekingMediaTime → NoSeek u l →
      step u l = some v → Sound v ∧ v.manager.seekingMediaTime = y.manager.seekingMediaTime := by
    rintro u l v ⟨hu, htarget⟩ hl hs
    refine ⟨sound_step hu hl.1 hs, ?_⟩
    obtain ⟨-, rfl⟩ := step_some hs
    exact (seekingMediaTime_apply hl.2).trans htarget
  exact Runs.run_invariant hinv ⟨h, rfl⟩ hgood hrun

theorem Sound.steady {x : Clock} (h : Sound x) : Steady x := by
  constructor
  · intro l y hcount hgood hstep hl
    obtain ⟨hle, rfl⟩ := step_some hstep
    exact (keeps_apply h hcount (h.ne_none hle) hgood hl).2
  · intro ls y hcount hgood hrun
    exact reported_run h hcount hgood hrun
  · intro hshown
    exact inRange_getMediaTimeNow h.bounded.ordered h.bounded.held hshown
  · intro target now y ls z at_ clockTime mediaTime supplier w haccepts hseek hgood hrun hseeking
      hstate hanchors hstep hend read hread
    have hy : Sound y := sound_step (l := ⟨now, .seek target⟩) h trivial hseek
    obtain ⟨-, rfl⟩ := step_some hseek
    obtain ⟨hz, htarget⟩ := target_run hy hgood hrun
    have htarget : z.manager.seekingMediaTime = target := htarget.trans (seek_seekingMediaTime haccepts)
    have hw : Sound w :=
      sound_step (l := ⟨at_, .updateTimeAnchor clockTime mediaTime supplier⟩) hz trivial hstep
    obtain ⟨-, rfl⟩ := step_some hstep
    rw [← htarget]
    exact near_target hz.bounded hseeking hstate hanchors hend (hw.ne_none hread)

/--
**The playback clock**, in every run of usable calls: from every state the
reported time goes on without a jump, never goes back between two anchors, stays
in the range, and is near the target after a seek.
-/
theorem playback_clock {ls : List TimedCall} {x : Clock} (husable : Runs.Along step Usable {} ls)
    (hrun : Runs.run step {} ls = some x) : Steady x :=
  (Runs.run_invariant (fun _ _ _ h hgood hstep => sound_step h hgood hstep) sound_start husable
    hrun).steady

def sink : Synchronizer := ⟨1, 2⟩

def second : Int := 1000 * hstMsecond

def playing : List TimedCall :=
  [⟨0, .addSynchronizer (some sink)⟩, ⟨0, .setMediaTimeRangeStart 0⟩,
    ⟨0, .setMediaTimeRangeEnd (100 * second)⟩, ⟨0, .resume⟩,
    ⟨0, .updateTimeAnchor 0 (5 * second) (some sink)⟩]

theorem playback_clock_playing : ∃ x y, Runs.run step {} playing = some x ∧
    step x ⟨second, .pause⟩ = some y ∧ y.reported = x.manager.getMediaTimeNow second := by
  have hrun : Runs.run step {} playing = some _ := rfl
  have hfree : ∀ time, ¬ Held (MediaSyncManager.addSynchronizer {} (some sink)) time := by
    rintro time (⟨hseek, -⟩ | ⟨-, hpaused, -⟩)
    · cases hseek
    · exact absurd rfl hpaused
  have husable : Runs.Along step Usable {} playing :=
    .cons trivial rfl (.cons (fun _ _ => ⟨fun h => absurd rfl h, fun _ h => absurd h (hfree _)⟩) rfl
      (.cons (fun _ _ => ⟨fun _ => by decide, fun _ h => absurd h (hfree _)⟩) rfl
        (.cons trivial rfl (.cons trivial rfl trivial))))
  refine ⟨_, _, hrun, rfl, ?_⟩
  refine (playback_clock husable hrun).keeps ⟨second, .pause⟩ _ ⟨rfl, nofun⟩ ⟨trivial, ?_⟩ rfl (.inl rfl)
  intro _
  decide +kernel

def reportedAfter (ls : List TimedCall) : Option Int := (Runs.run step {} ls).map reported

/-- The sink plays without preroll, and is paused after a second. -/
def pausedUnprerolled : List TimedCall :=
  ⟨0, .waitAllPrerolled false⟩ :: playing ++ [⟨second, .pause⟩]

def playingEarly : List TimedCall :=
  [⟨0, .addSynchronizer (some sink)⟩, ⟨0, .setMediaTimeRangeStart (10 * second)⟩,
    ⟨0, .setMediaTimeRangeEnd (100 * second)⟩]

/--
The jumps: a rate of zero; `Resume` without preroll; an anchor set while the
clock is paused; an earlier start of the range; a seek that ends over 50 ms from
its target; a seek that ends while the clock is paused.
-/
theorem clock_jumps :
    (reportedAfter (playing ++ [⟨second, .getMediaTimeNow⟩]) = some (6 * second) ∧
      reportedAfter (playing ++ [⟨second, .setPlaybackRate 0⟩]) = some 0) ∧
    (reportedAfter (pausedUnprerolled ++ [⟨11 * second, .getMediaTimeNow⟩]) = some (6 * second) ∧
      reportedAfter (pausedUnprerolled ++ [⟨11 * second, .resume⟩]) = some (16 * second)) ∧
    reportedAfter (playingEarly ++ [⟨0, .updateTimeAnchor 0 (5 * second) (some sink)⟩]) = some 0 ∧
    (reportedAfter (playingEarly ++ [⟨0, .resume⟩, ⟨0, .updateTimeAnchor 0 (5 * second) (some sink)⟩]) =
        some (10 * second) ∧
      reportedAfter (playingEarly ++ [⟨0, .resume⟩, ⟨0, .updateTimeAnchor 0 (5 * second) (some sink)⟩,
        ⟨0, .setMediaTimeRangeStart 0⟩]) = some (5 * second)) ∧
    reportedAfter (playing ++ [⟨second, .seek (20 * second)⟩,
        ⟨second, .updateTimeAnchor second (20 * second + 50 * hstMsecond + 999999) (some sink)⟩]) =
      some (20 * second + 50 * hstMsecond + 999999) ∧
    reportedAfter (playing ++ [⟨second, .pause⟩, ⟨second, .seek (20 * second)⟩,
      ⟨second, .updateTimeAnchor second (20 * second) (some sink)⟩]) = some 0 := by
  decide +kernel

end Clock

end MediaFoundation.Sync
