import MediaFoundation.Monitor.EventBean

/-!
# The open usages of the streams

Translation of the part of
`services/media_monitor/server/src/event_aggregate.cpp` that times device
usage, muted capture and playback volume: the handlers of `STREAM_CHANGE`,
`DEVICE_CHANGE`, `VOLUME_CHANGE` and `CAPTURE_MUTE_STATUS_CHANGE` as far as
they touch `deviceUsageVector_`, `captureMutedVector_`, `volumeVector_` and
`systemVol_`.

A bean in one of the three vectors is an open interval. Closing it gives the
bean to the policy, with the seconds since `START_TIME` under `DURATION`. The
vectors hold shared pointers, so a handler that finds a bean changes it in
place, and the policy reads the bean as it is at that moment.

The same handlers keep the vectors of stream usages and stream properties;
those never touch the three vectors and are left out.
-/

namespace MediaFoundation.MediaMonitor

/-- A bean given to the policy, by the function that it is given to. -/
inductive Handed
  | deviceUsage (bean : EventBean)
  | btUsage (bean : EventBean)
  | captureMuted (bean : EventBean)
  | volume (bean : EventBean)

structure EventAggregate where
  deviceUsageVector : List EventBean := []
  captureMutedVector : List EventBean := []
  volumeVector : List EventBean := []
  systemVol : Int32 := -1

def UNINITIALIZED : Int32 := -1

def NEED_INCREASE_FREQUENCY : Int64 := 30

/-- The values of `AudioStandard::State`, as `RendererState` repeats them. -/
def RUNNING : Int32 := 2
def STOPPED : Int32 := 3
def RELEASED : Int32 := 4
def PAUSED : Int32 := 5

structure Event where
  time : UInt64
  bean : EventBean

-- Closing an interval

def elapsed (now : UInt64) (bean : EventBean) : UInt64 :=
  now - bean.getUint64Value .START_TIME

def isLong (duration : UInt64) : Bool :=
  duration > 0 && duration.toInt64 > NEED_INCREASE_FREQUENCY

/-- `(*it)->Add("DURATION", duration)`, which keeps a duration that is there. -/
def timed (now : UInt64) (bean : EventBean) : EventBean :=
  bean.addUint64 .DURATION (elapsed now bean)

def updateFirst (isExist : EventBean → Bool) (update : EventBean → EventBean) :
    List EventBean → List EventBean
  | [] => []
  | e :: v => if isExist e then update e :: v else e :: updateFirst isExist update v

/-- The handlers that end a usage: the first bean accepted is given to the policy if it was
open long enough, and erased. -/
def endUsage (isExist reports : EventBean → Bool) (hand : EventBean → List Handed) (now : UInt64)
    (v : List EventBean) : List EventBean × List Handed :=
  match v.find? isExist with
  | none => (v, [])
  | some it =>
    (v.eraseP isExist, if reports it && isLong (elapsed now it) then hand (timed now it) else [])

/-- The handlers that start a usage: nothing if there is a bean accepted. -/
def startUsage (isExist : EventBean → Bool) (newBean : EventBean) (v : List EventBean) :
    List EventBean :=
  match v.find? isExist with
  | none => v ++ [newBean]
  | some _ => v

-- Device usage

def sameDeviceUsage (bean eventBean : EventBean) : Bool :=
  bean.getIntValue .ISOUTPUT == eventBean.getIntValue .IS_PLAYBACK &&
    bean.getIntValue .STREAMID == eventBean.getIntValue .STREAMID &&
    bean.getIntValue .UID == eventBean.getIntValue .UID &&
    bean.getIntValue .PID == eventBean.getIntValue .PID &&
    bean.getIntValue .STREAM_TYPE == eventBean.getIntValue .STREAM_TYPE &&
    bean.getIntValue .STATE == eventBean.getIntValue .STATE &&
    bean.getIntValue .DEVICETYPE == eventBean.getIntValue .DEVICE_TYPE

def endsDeviceUsage (bean deviceUsageBean : EventBean) : Bool :=
  bean.getIntValue .STREAMID == deviceUsageBean.getIntValue .STREAMID &&
    bean.getIntValue .UID == deviceUsageBean.getIntValue .UID &&
    bean.getIntValue .PID == deviceUsageBean.getIntValue .PID &&
    bean.getIntValue .STREAM_TYPE == deviceUsageBean.getIntValue .STREAM_TYPE &&
    bean.getIntValue .DEVICETYPE == deviceUsageBean.getIntValue .DEVICE_TYPE &&
    bean.getIntValue .ISOUTPUT == deviceUsageBean.getIntValue .IS_PLAYBACK

def movesDeviceUsage (bean deviceUsageBean : EventBean) : Bool :=
  bean.getIntValue .ISOUTPUT == deviceUsageBean.getIntValue .IS_PLAYBACK &&
    bean.getIntValue .STREAMID == deviceUsageBean.getIntValue .STREAMID

section Bluetooth

-- whether a device type is DEVICE_TYPE_BLUETOOTH_SCO or DEVICE_TYPE_BLUETOOTH_A2DP
variable (isBluetooth : Int32 → Bool)

def deviceUsageBean (bean : EventBean) (currentTime : UInt64) : EventBean :=
  let deviceType := bean.getIntValue .DEVICETYPE
  let added := ({} : EventBean)
    |>.addInt .IS_PLAYBACK (bean.getIntValue .ISOUTPUT)
    |>.addInt .STREAMID (bean.getIntValue .STREAMID)
    |>.addInt .UID (bean.getIntValue .UID)
    |>.addInt .PID (bean.getIntValue .PID)
    |>.addInt .STREAM_TYPE (bean.getIntValue .STREAM_TYPE)
    |>.addInt .STATE (bean.getIntValue .STATE)
    |>.addInt .DEVICE_TYPE deviceType
    |>.addString .MANUFACTURER (bean.getStringValue .MANUFACTURER)
    |>.addString .MODEL_NUMBER (bean.getStringValue .MODEL_NUMBER)
    |>.addUint64 .START_TIME currentTime
  if isBluetooth deviceType then added.addInt .BT_TYPE (bean.getIntValue .BT_TYPE) else added

def addToDeviceUsage (bean : EventBean) (currentTime : UInt64) (s : EventAggregate) :
    EventAggregate :=
  { s with
    deviceUsageVector := startUsage (sameDeviceUsage bean)
      (deviceUsageBean isBluetooth bean currentTime) s.deviceUsageVector }

/-- A bluetooth device is reported once more, as bluetooth usage. -/
def handDeviceUsage (it : EventBean) : List Handed :=
  if isBluetooth (it.getIntValue .DEVICE_TYPE) then [.deviceUsage it, .btUsage it]
  else [.deviceUsage it]

def handleDeviceUsage (bean : EventBean) (now : UInt64) (s : EventAggregate) :
    EventAggregate × List Handed :=
  let ended := endUsage (endsDeviceUsage bean) (fun _ => true) (handDeviceUsage isBluetooth) now
    s.deviceUsageVector
  ({ s with deviceUsageVector := ended.1 }, ended.2)

end Bluetooth

-- Muted capture

def sameCaptureMuted (bean captureMutedBean : EventBean) : Bool :=
  bean.getIntValue .STREAMID == captureMutedBean.getIntValue .STREAMID &&
    bean.getIntValue .STREAM_TYPE == captureMutedBean.getIntValue .STREAM_TYPE &&
    bean.getIntValue .DEVICETYPE == captureMutedBean.getIntValue .DEVICE_TYPE

/-- `isExist` of `HandleDeviceChangeForCaptureMuted` and of the volume handlers that look at
the stream only. -/
def sameStream (bean eventBean : EventBean) : Bool :=
  bean.getIntValue .STREAMID == eventBean.getIntValue .STREAMID

def captureMutedBean (bean : EventBean) (currentTime : UInt64) : EventBean :=
  ({} : EventBean)
    |>.addInt .STREAMID (bean.getIntValue .STREAMID)
    |>.addInt .STREAM_TYPE (bean.getIntValue .STREAM_TYPE)
    |>.addInt .DEVICE_TYPE (bean.getIntValue .DEVICETYPE)
    |>.addUint64 .START_TIME currentTime

def addToCaptureMuteUsage (bean : EventBean) (currentTime : UInt64) (s : EventAggregate) :
    EventAggregate :=
  if bean.getIntValue .ISOUTPUT ≠ 0 then s
  else if bean.getIntValue .MUTED = 0 then s
  else
    { s with
      captureMutedVector := startUsage (sameCaptureMuted bean) (captureMutedBean bean currentTime)
        s.captureMutedVector }

def handleCaptureMuted (bean : EventBean) (now : UInt64) (s : EventAggregate) :
    EventAggregate × List Handed :=
  if bean.getIntValue .ISOUTPUT ≠ 0 then (s, [])
  else
    let ended := endUsage (sameCaptureMuted bean) (fun it => it.getIntValue .MUTED != 0)
      (fun it => [.captureMuted it]) now s.captureMutedVector
    ({ s with captureMutedVector := ended.1 }, ended.2)

def handleCaptureMutedStatusChange (bean : EventBean) (now : UInt64) (s : EventAggregate) :
    EventAggregate × List Handed :=
  if bean.getIntValue .MUTED = 0 then handleCaptureMuted bean now s
  else (addToCaptureMuteUsage bean now s, [])

-- Playback volume

/-- `isExist` of `HandleStreamChangeForVolume`. -/
def endsVolume (bean volumeBean : EventBean) : Bool :=
  bean.getIntValue .ISOUTPUT != 0 &&
    bean.getIntValue .STREAMID == volumeBean.getIntValue .STREAMID &&
    bean.getIntValue .STREAM_TYPE == volumeBean.getIntValue .STREAM_TYPE &&
    bean.getIntValue .DEVICETYPE == volumeBean.getIntValue .DEVICE_TYPE

def changesVolume (bean volumeBean : EventBean) : Bool :=
  sameStream bean volumeBean && bean.getIntValue .SYSVOLUME != volumeBean.getIntValue .LEVEL

def volumeBean (bean : EventBean) (systemVol : Int32) (now : UInt64) : EventBean :=
  ({} : EventBean)
    |>.addInt .STREAMID (bean.getIntValue .STREAMID)
    |>.addInt .STREAM_TYPE (bean.getIntValue .STREAM_TYPE)
    |>.addInt .DEVICE_TYPE (bean.getIntValue .DEVICETYPE)
    |>.addInt .LEVEL systemVol
    |>.addUint64 .START_TIME now

def addToVolumeVector (bean : EventBean) (now : UInt64) (s : EventAggregate) : EventAggregate :=
  if bean.getIntValue .ISOUTPUT = 0 then s
  else
    { s with
      volumeVector := startUsage (sameStream bean) (volumeBean bean s.systemVol now)
        s.volumeVector }

def handleStreamChangeForVolume (bean : EventBean) (now : UInt64) (s : EventAggregate) :
    EventAggregate × List Handed :=
  let ended := endUsage (endsVolume bean) (fun _ => true) (fun it => [.volume it]) now
    s.volumeVector
  ({ s with volumeVector := ended.1 }, ended.2)

/-- The level changes, `START_TIME` does not. -/
def handleVolumeChange (bean : EventBean) (now : UInt64) (s : EventAggregate) :
    EventAggregate × List Handed :=
  if bean.getIntValue .ISOUTPUT = 0 then (s, [])
  else
    let reports := fun it : EventBean =>
      isLong (elapsed now it) && it.getIntValue .LEVEL != UNINITIALIZED
    let handed := match s.volumeVector.find? (changesVolume bean) with
      | none => []
      | some it => if reports it then [.volume (timed now it)] else []
    let change := fun it : EventBean =>
      (if reports it then timed now it else it).updateIntMap .LEVEL (bean.getIntValue .SYSVOLUME)
    ({ s with
      volumeVector := updateFirst (changesVolume bean) change s.volumeVector
      systemVol := bean.getIntValue .SYSVOLUME }, handed)

-- Device changes

/-- `HandleDeviceChangeForDuration`: the bean in the vector afterwards, and what is given to
the policy. The bean given over already has the maker and model of the new device. -/
def handleDeviceChangeForDuration (hand : EventBean → Handed) (now : UInt64)
    (bean beanInVector : EventBean) : EventBean × List Handed :=
  if bean.getIntValue .DEVICETYPE ≠ beanInVector.getIntValue .DEVICE_TYPE then
    let reports := isLong (elapsed now beanInVector)
    let reported := ((timed now beanInVector).updateStringMap
      .MANUFACTURER (bean.getStringValue .MANUFACTURER)).updateStringMap
      .MODEL_NUMBER (bean.getStringValue .MODEL_NUMBER)
    (((if reports then reported else beanInVector).updateIntMap
        .DEVICE_TYPE (bean.getIntValue .DEVICETYPE)).updateUint64Map .START_TIME now,
      if reports then [hand reported] else [])
  else (beanInVector, [])

/-- The three `HandleDeviceChangeFor…` functions, on their vector. -/
def moveUsage (isExist reports : EventBean → Bool) (hand : EventBean → Handed) (now : UInt64)
    (bean : EventBean) (v : List EventBean) : List EventBean × List Handed :=
  match v.find? isExist with
  | none => (v, [])
  | some it =>
    if reports it then
      (updateFirst isExist (fun e => (handleDeviceChangeForDuration hand now bean e).1) v,
        (handleDeviceChangeForDuration hand now bean it).2)
    else (v, [])

/-- The source also stores the stream's type in the event's bean, where nothing that follows
reads it. -/
def handleDeviceChangeForDeviceUsage (bean : EventBean) (now : UInt64) (s : EventAggregate) :
    EventAggregate × List Handed :=
  let moved := moveUsage (movesDeviceUsage bean) (fun _ => true) .deviceUsage now bean
    s.deviceUsageVector
  ({ s with deviceUsageVector := moved.1 }, moved.2)

def handleDeviceChangeForCaptureMuted (bean : EventBean) (now : UInt64) (s : EventAggregate) :
    EventAggregate × List Handed :=
  if bean.getIntValue .ISOUTPUT ≠ 0 then (s, [])
  else
    let moved := moveUsage (sameStream bean) (fun it => it.getIntValue .MUTED != 0) .captureMuted
      now bean s.captureMutedVector
    ({ s with captureMutedVector := moved.1 }, moved.2)

def handleDeviceChangeForVolume (bean : EventBean) (now : UInt64) (s : EventAggregate) :
    EventAggregate × List Handed :=
  if bean.getIntValue .ISOUTPUT = 0 then (s, [])
  else
    let moved := moveUsage (sameStream bean) (fun _ => true) .volume now bean s.volumeVector
    ({ s with volumeVector := moved.1 }, moved.2)

-- Events

def handleDeviceChangeEvent (bean : EventBean) (now : UInt64) (s : EventAggregate) :
    EventAggregate × List Handed :=
  let device := handleDeviceChangeForDeviceUsage bean now s
  let muted := handleDeviceChangeForCaptureMuted bean now device.1
  let volume := handleDeviceChangeForVolume bean now muted.1
  (volume.1, device.2 ++ muted.2 ++ volume.2)

section Bluetooth

variable (isBluetooth : Int32 → Bool)

def handleStreamChangeEvent (bean : EventBean) (now : UInt64) (s : EventAggregate) :
    EventAggregate × List Handed :=
  let state := bean.getIntValue .STATE
  if state = RUNNING then
    (addToVolumeVector bean now
      (addToCaptureMuteUsage bean now (addToDeviceUsage isBluetooth bean now s)), [])
  else if state = STOPPED ∨ state = PAUSED ∨ state = RELEASED then
    let device := handleDeviceUsage isBluetooth bean now s
    let muted := handleCaptureMuted bean now device.1
    let volume := handleStreamChangeForVolume bean now muted.1
    (volume.1, device.2 ++ muted.2 ++ volume.2)
  else (s, [])

def updateAggregateEventList (event : Event) (s : EventAggregate) :
    EventAggregate × List Handed :=
  match event.bean.eventId with
  | .DEVICE_CHANGE => handleDeviceChangeEvent event.bean event.time s
  | .STREAM_CHANGE => handleStreamChangeEvent isBluetooth event.bean event.time s
  | .CAPTURE_MUTE_STATUS_CHANGE => handleCaptureMutedStatusChange event.bean event.time s
  | .VOLUME_CHANGE => handleVolumeChange event.bean event.time s
  | _ => (s, [])

/-- What is given to the policy at each event of a sequence. -/
def handedOver : EventAggregate → List Event → List (List Handed)
  | _, [] => []
  | s, event :: events =>
    (updateAggregateEventList isBluetooth event s).2 ::
      handedOver (updateAggregateEventList isBluetooth event s).1 events

end Bluetooth

end MediaFoundation.MediaMonitor
