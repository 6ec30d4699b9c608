import Mathlib

/-!
# MediaSyncManager

The clock of a pipeline and the barrier of its sinks (`media_sync_manager.cpp`).

Conventions:

* Times are integers and `HST_TIME_NONE` is one of them. The playback rate is an
  exact rational, so the product with it is, too; the sum is cut off as the cast
  of a `double` to `int64_t` does it.
* Each method that looks at the steady clock is given its reading `now`.
* `trackMediaTimeRange_` is left out: it is written and never read. Log messages
  and tracing are left out.
-/

namespace MediaFoundation.Sync

-- State

def hstTimeNone : Int := -1

def hstMsecond : Int := 1000 * 1000

def hstTime2Ms (time : Int) : Int := time.tdiv hstMsecond

def priorityNone : Int8 := -1

/-- A pointer to an `IMediaSynchronizer`, with what its `GetPriority` returns. -/
structure Synchronizer where
  address : Nat
  priority : Int8
deriving DecidableEq

inductive State where
  | resumed
  | paused
deriving DecidableEq

inductive ErrorCode where
  | success
  | errorInvalidParameterValue
  | errorInvalidOperation

structure MediaSyncManager where
  clockState : State := .paused
  currentSyncerPriority : Int8 := priorityNone
  currentAnchorClockTime : Int := hstTimeNone
  currentAnchorMediaTime : Int := hstTimeNone
  pausedMediaTime : Int := hstTimeNone
  pausedClockTime : Int := hstTimeNone
  playRate : ℚ := 1
  alreadySetSyncersShouldWait : Bool := false
  allSyncerShouldPrerolled : Bool := true
  isSeeking : Bool := false
  seekingMediaTime : Int := hstTimeNone
  minRangeStartOfMediaTime : Int := hstTimeNone
  maxRangeEndOfMediaTime : Int := hstTimeNone
  syncers : List Synchronizer := []
  prerolledSyncers : List Synchronizer := []

namespace MediaSyncManager

-- Anchor and range

def truncate (value : ℚ) : Int := if 0 ≤ value then ⌊value⌋ else ⌈value⌉

def simpleGetMediaTime (anchorClockTime nowClockTime anchorMediaTime : Int) (playRate : ℚ) : Int :=
  if |playRate| < 1 / 10 ^ 9 then hstTimeNone
  else if anchorClockTime = hstTimeNone ∨ nowClockTime = hstTimeNone ∨ anchorMediaTime = hstTimeNone then
    hstTimeNone
  else truncate (anchorMediaTime + (nowClockTime - anchorClockTime : Int) * playRate)

def clipMediaTime (m : MediaSyncManager) (inTime : Int) : Int :=
  let ret := inTime
  let ret :=
    if m.minRangeStartOfMediaTime ≠ hstTimeNone ∧ ret < m.minRangeStartOfMediaTime then
      m.minRangeStartOfMediaTime
    else ret
  if m.maxRangeEndOfMediaTime ≠ hstTimeNone ∧ m.maxRangeEndOfMediaTime < ret then
    m.maxRangeEndOfMediaTime
  else ret

def simpleUpdateTimeAnchor (m : MediaSyncManager) (clockTime mediaTime : Int) : MediaSyncManager :=
  { m with currentAnchorMediaTime := mediaTime, currentAnchorClockTime := clockTime }

def simpleUpdatePlayRate (m : MediaSyncManager) (playRate : ℚ) : MediaSyncManager := { m with playRate }

def resetTimeAnchorNoLock (m : MediaSyncManager) : MediaSyncManager :=
  { m with pausedMediaTime := hstTimeNone, currentSyncerPriority := priorityNone }.simpleUpdateTimeAnchor
    hstTimeNone hstTimeNone

def setMediaTimeRangeStart (m : MediaSyncManager) (startMediaTime : Int) : MediaSyncManager :=
  if m.minRangeStartOfMediaTime = hstTimeNone ∨ startMediaTime < m.minRangeStartOfMediaTime then
    { m with minRangeStartOfMediaTime := startMediaTime }
  else m

def setMediaTimeRangeEnd (m : MediaSyncManager) (endMediaTime : Int) : MediaSyncManager :=
  if m.maxRangeEndOfMediaTime = hstTimeNone ∨ m.maxRangeEndOfMediaTime < endMediaTime then
    { m with maxRangeEndOfMediaTime := endMediaTime }
  else m

-- Synchronizers

def addSynchronizer (m : MediaSyncManager) : Option Synchronizer → MediaSyncManager
  | some syncer =>
    if syncer ∈ m.syncers then m else { m with syncers := m.syncers ++ [syncer] }
  | none => m

def removeSynchronizer (m : MediaSyncManager) : Option Synchronizer → MediaSyncManager
  | some syncer => { m with syncers := m.syncers.erase syncer }
  | none => m

def isSupplierValid (m : MediaSyncManager) (supplier : Synchronizer) : Bool := supplier ∈ m.syncers

/-- `ReportPrerolled` up to its `emplace_back`, or no result where it returns before. -/
def addPrerolled (m : MediaSyncManager) : Option Synchronizer → Option MediaSyncManager
  | none => none
  | some supplier =>
    if ¬ m.allSyncerShouldPrerolled then none
    else if supplier ∈ m.prerolledSyncers then none
    else some { m with prerolledSyncers := m.prerolledSyncers ++ [supplier] }

/-- `ReportPrerolled` from the test of the sizes on, and who is notified. -/
def releasePrerolled (m : MediaSyncManager) : MediaSyncManager × List Synchronizer :=
  if m.prerolledSyncers.length = m.syncers.length then
    ({ m with prerolledSyncers := [] }, m.prerolledSyncers)
  else (m, [])

/-- `SetAllSyncShouldWaitNoLock` without its calls of `WaitAllPrerolled`, and
whether it makes them. -/
def setAllSyncShouldWaitNoLock (m : MediaSyncManager) : MediaSyncManager × Bool :=
  if m.allSyncerShouldPrerolled ∧ ¬ m.alreadySetSyncersShouldWait then
    ({ m with prerolledSyncers := [], alreadySetSyncersShouldWait := true }, true)
  else (m, false)

def shouldWait (m : MediaSyncManager) : List Synchronizer :=
  if 1 < m.syncers.length then m.syncers else []

def waitAllPrerolled (m : MediaSyncManager) (prerolled : Bool) : MediaSyncManager :=
  { m with allSyncerShouldPrerolled := prerolled }

-- Clock

def setPlaybackRate (m : MediaSyncManager) (now : Int) (rate : ℚ) : MediaSyncManager × ErrorCode :=
  if rate < 0 then (m, .errorInvalidParameterValue)
  else if m.currentAnchorClockTime = hstTimeNone ∨ m.currentAnchorMediaTime = hstTimeNone then
    (m.simpleUpdatePlayRate rate, .success)
  else
    let currentMedia :=
      simpleGetMediaTime m.currentAnchorClockTime now m.currentAnchorMediaTime m.playRate
    ((m.simpleUpdateTimeAnchor now currentMedia).simpleUpdatePlayRate rate, .success)

def anchorAfterPause (m : MediaSyncManager) (now : Int) : MediaSyncManager :=
  if m.clockState = .paused ∧ m.pausedMediaTime ≠ hstTimeNone ∧ m.alreadySetSyncersShouldWait then
    { m.simpleUpdateTimeAnchor now m.pausedMediaTime with
      pausedMediaTime := hstTimeNone, pausedClockTime := hstTimeNone }
  else m

def resume (m : MediaSyncManager) (now : Int) : MediaSyncManager × Bool :=
  let m := m.anchorAfterPause now
  if m.clockState = .resumed then (m, false)
  else
    let r := m.setAllSyncShouldWaitNoLock
    ({ r.1 with clockState := .resumed }, r.2)

def pause (m : MediaSyncManager) (now : Int) : MediaSyncManager :=
  if m.clockState = .paused then m
  else
    let m := { m with pausedClockTime := now }
    let pausedMediaTime :=
      if m.currentAnchorMediaTime ≠ hstTimeNone ∧ m.currentAnchorClockTime ≠ hstTimeNone then
        simpleGetMediaTime m.currentAnchorClockTime m.pausedClockTime m.currentAnchorMediaTime m.playRate
      else hstTimeNone
    { m with pausedMediaTime := m.clipMediaTime pausedMediaTime, clockState := .paused }

def seek (m : MediaSyncManager) (mediaTime : Int) : MediaSyncManager × ErrorCode × Bool :=
  if m.minRangeStartOfMediaTime = hstTimeNone ∨ m.maxRangeEndOfMediaTime = hstTimeNone then
    (m, .errorInvalidOperation, false)
  else if m.maxRangeEndOfMediaTime < mediaTime ∨ mediaTime < m.minRangeStartOfMediaTime then
    (m, .errorInvalidParameterValue, false)
  else
    let m := { m with
      isSeeking := true, seekingMediaTime := mediaTime, alreadySetSyncersShouldWait := false }
    let r := m.setAllSyncShouldWaitNoLock
    (r.1.resetTimeAnchorNoLock, .success, r.2)

def reset (m : MediaSyncManager) : MediaSyncManager :=
  { { m with clockState := .paused }.resetTimeAnchorNoLock with
    pausedClockTime := hstTimeNone
    playRate := 1
    alreadySetSyncersShouldWait := false
    allSyncerShouldPrerolled := true
    isSeeking := false
    seekingMediaTime := hstTimeNone
    minRangeStartOfMediaTime := hstTimeNone
    maxRangeEndOfMediaTime := hstTimeNone
    syncers := []
    prerolledSyncers := [] }

/-- `UpdateTimeAnchor`, and whether the frame is to be rendered. -/
def updateTimeAnchor (m : MediaSyncManager) (clockTime mediaTime : Int) (supplier : Option Synchronizer) :
    MediaSyncManager × Bool :=
  match supplier with
  | none => (m, true)
  | some supplier =>
    if clockTime = hstTimeNone ∨ mediaTime = hstTimeNone then (m, true)
    else
      let m :=
        if m.isSupplierValid supplier ∧ m.currentSyncerPriority ≤ supplier.priority then
          { m with currentSyncerPriority := supplier.priority }.simpleUpdateTimeAnchor clockTime mediaTime
        else m
      let m :=
        if m.isSeeking ∧ hstTime2Ms |mediaTime - m.seekingMediaTime| ≤ 50 then { m with isSeeking := false }
        else m
      (m, ! m.isSeeking)

def getMediaTimeNow (m : MediaSyncManager) (now : Int) : Int :=
  if m.isSeeking then m.seekingMediaTime
  else if m.clockState = .paused then
    if m.pausedMediaTime = hstTimeNone then 0 else m.pausedMediaTime
  else
    m.clipMediaTime
      (simpleGetMediaTime m.currentAnchorClockTime now m.currentAnchorMediaTime m.playRate)

end MediaSyncManager

end MediaFoundation.Sync
