import MediaFoundation.Monitor.EventAggregate
import MediaFoundation.Lib.Episodes

/-!
# Usages of a stream

What the events say about a stream: the device it is used on, the level it is
played at, whether its capture is muted. An episode is a longest time in which
one of these stays the same. The open beans of `EventAggregate` follow an event
(`Followed`) if each handler finds the bean of the event's stream, no bean is
timed twice, and a change of level leaves no old `START_TIME` behind.
-/

namespace MediaFoundation.MediaMonitor

open Episodes

-- What the events say

structure Stream where
  playback : Bool
  id : Int32
  deriving DecidableEq

structure Condition where
  deviceType : Int32
  level : Int32 := UNINITIALIZED
  deriving DecidableEq

def Condition.onDevice (c : Condition) (deviceType : Int32) : Condition := ⟨deviceType, c.level⟩

def Condition.atLevel (c : Condition) (level : Int32) : Condition := ⟨c.deviceType, level⟩

inductive Usage
  | device
  | muted
  | volume
  deriving DecidableEq

def Event.stream (event : Event) : Stream where
  playback := event.bean.getIntValue .ISOUTPUT != 0
  id := event.bean.getIntValue .STREAMID

def Usage.concerns : Usage → Stream → Bool
  | .device, _ => true
  | .muted, x => !x.playback
  | .volume, x => x.playback

def Usage.started (u : Usage) (systemVol : Int32) (event : Event) (old : Option Condition) :
    Option Condition :=
  let deviceType := event.bean.getIntValue .DEVICETYPE
  match u with
  | .device => some { deviceType := deviceType }
  | .muted => if event.bean.getIntValue .MUTED = 0 then none else some { deviceType := deviceType }
  | .volume => some { deviceType := deviceType, level := (old.map Condition.level).getD systemVol }

def Usage.next (u : Usage) (systemVol : Int32) (event : Event) (old : Option Condition) :
    Option Condition :=
  match event.bean.eventId with
  | .STREAM_CHANGE =>
    let state := event.bean.getIntValue .STATE
    if state = RUNNING then u.started systemVol event old
    else if state = STOPPED ∨ state = PAUSED ∨ state = RELEASED then none
    else old
  | .DEVICE_CHANGE =>
    old.map fun c => c.onDevice (event.bean.getIntValue .DEVICETYPE)
  | .CAPTURE_MUTE_STATUS_CHANGE =>
    if u = .muted then u.started systemVol event old else old
  | .VOLUME_CHANGE =>
    if u = .volume then old.map fun c => c.atLevel (event.bean.getIntValue .SYSVOLUME)
    else old
  | _ => old

def Usage.after (u : Usage) (x : Stream) (systemVol : Int32) (event : Event)
    (old : Option Condition) : Option Condition :=
  if u.concerns x && event.stream = x then u.next systemVol event old else old

/-- The playback volume last reported for any stream. -/
def volumeAfter (systemVol : Int32) (event : Event) : Int32 :=
  if event.bean.eventId = .VOLUME_CHANGE ∧ event.stream.playback = true then
    event.bean.getIntValue .SYSVOLUME
  else systemVol

def observations (u : Usage) (x : Stream) :
    Int32 → Option Condition → List Event → List (Obs Condition)
  | _, _, [] => []
  | systemVol, old, event :: events =>
    ⟨event.time.toNat, u.after x systemVol event old⟩ ::
      observations u x (volumeAfter systemVol event) (u.after x systemVol event old) events

/-- An episode is handed over if it lasted more than thirty seconds, at a level that is known. -/
def Usage.worth (u : Usage) (c : Condition) (seconds : Nat) : Bool :=
  30 < seconds && (u != .volume || c.level != UNINITIALIZED)

-- What the beans say

def Usage.streamOf : Usage → EventBean → Stream
  | .device, e => ⟨e.getIntValue .IS_PLAYBACK != 0, e.getIntValue .STREAMID⟩
  | .muted, e => ⟨false, e.getIntValue .STREAMID⟩
  | .volume, e => ⟨true, e.getIntValue .STREAMID⟩

def Usage.conditionOf : Usage → EventBean → Condition
  | .volume, e => ⟨e.getIntValue .DEVICE_TYPE, e.getIntValue .LEVEL⟩
  | _, e => ⟨e.getIntValue .DEVICE_TYPE, UNINITIALIZED⟩

def Usage.vector : Usage → EventAggregate → List EventBean
  | .device, s => s.deviceUsageVector
  | .muted, s => s.captureMutedVector
  | .volume, s => s.volumeVector

/-- What a bean given to the policy is given as. -/
def Handed.usage : Handed → Option (Usage × EventBean)
  | .deviceUsage e => some (.device, e)
  | .captureMuted e => some (.muted, e)
  | .volume e => some (.volume, e)
  | .btUsage _ => none

def Handed.told (u : Usage) (x : Stream) (h : Handed) : Option (Condition × Nat) :=
  h.usage.bind fun r =>
    if r.1 = u ∧ u.streamOf r.2 = x then
      some (u.conditionOf r.2, (r.2.getUint64Value .DURATION).toNat)
    else none

-- When the beans follow the events

def NotTimed (now : UInt64) (e : EventBean) : Prop :=
  isLong (elapsed now e) = true → e.uint64Map .DURATION = none

def KnownLevel (now : UInt64) (e : EventBean) : Prop :=
  isLong (elapsed now e) = true → e.getIntValue .LEVEL ≠ UNINITIALIZED

def OpenBeans (u : Usage) (s : EventAggregate) (event : Event) (P : EventBean → Prop) : Prop :=
  u.concerns event.stream = true → ∀ e ∈ u.vector s, u.streamOf e = event.stream → P e

/-- The start of a stream that is known already brings nothing new. -/
def StartFollowed (s : EventAggregate) (event : Event) : Prop :=
  OpenBeans .device s event (fun e => sameDeviceUsage event.bean e = true) ∧
  OpenBeans .muted s event (fun e =>
    event.bean.getIntValue .MUTED ≠ 0 ∧ sameCaptureMuted event.bean e = true) ∧
  OpenBeans .volume s event fun e =>
    e.getIntValue .DEVICE_TYPE = event.bean.getIntValue .DEVICETYPE

def EndFollowed (s : EventAggregate) (event : Event) : Prop :=
  OpenBeans .device s event (fun e =>
    endsDeviceUsage event.bean e = true ∧ NotTimed event.time e) ∧
  OpenBeans .muted s event (fun e =>
    sameCaptureMuted event.bean e = true ∧ NotTimed event.time e) ∧
  OpenBeans .volume s event fun e =>
    endsVolume event.bean e = true ∧ NotTimed event.time e ∧ KnownLevel event.time e

/-- A change of device finds the stream's beans. -/
def MoveFollowed (s : EventAggregate) (event : Event) : Prop :=
  OpenBeans .device s event (fun e => movesDeviceUsage event.bean e = true ∧
    (event.bean.getIntValue .DEVICETYPE ≠ e.getIntValue .DEVICE_TYPE → NotTimed event.time e)) ∧
  OpenBeans .muted s event (fun e =>
    event.bean.getIntValue .DEVICETYPE ≠ e.getIntValue .DEVICE_TYPE → NotTimed event.time e) ∧
  OpenBeans .volume s event fun e =>
    event.bean.getIntValue .DEVICETYPE ≠ e.getIntValue .DEVICE_TYPE →
      NotTimed event.time e ∧ KnownLevel event.time e

def MuteFollowed (s : EventAggregate) (event : Event) : Prop :=
  OpenBeans .muted s event fun e => sameCaptureMuted event.bean e = true ∧
    (event.bean.getIntValue .MUTED = 0 → NotTimed event.time e)

/-- A new level comes at the time at which the old one began, or the old one is handed over
for the first time. -/
def LevelFollowed (s : EventAggregate) (event : Event) : Prop :=
  OpenBeans .volume s event fun e =>
    event.bean.getIntValue .SYSVOLUME ≠ e.getIntValue .LEVEL →
      e.getUint64Value .START_TIME = event.time ∨
        isLong (elapsed event.time e) = true ∧ e.getIntValue .LEVEL ≠ UNINITIALIZED ∧
          e.uint64Map .DURATION = none

def Followed (s : EventAggregate) (event : Event) : Prop :=
  event.time.toNat < 2 ^ 63 ∧
    match event.bean.eventId with
    | .STREAM_CHANGE =>
      let state := event.bean.getIntValue .STATE
      (state = RUNNING → StartFollowed s event) ∧
        (state = STOPPED ∨ state = PAUSED ∨ state = RELEASED → EndFollowed s event)
    | .DEVICE_CHANGE => MoveFollowed s event
    | .CAPTURE_MUTE_STATUS_CHANGE => MuteFollowed s event
    | .VOLUME_CHANGE => LevelFollowed s event
    | _ => True

end MediaFoundation.MediaMonitor
