import Mathlib

/-!
# Event beans

Translation of `services/media_monitor/common/src/event_bean.cpp` and of what
`media_monitor_info.h` says about its fields. A bean carries typed maps from
names to values. `Add` is `emplace`: it does nothing under a name that is
taken. The `Update…Map` functions do nothing under a name that is missing. A
getter answers a fixed value for a missing name.

The names are the ones that the usage statistics read or write; the module id
and the float map, which they never read, are left out.
-/

namespace MediaFoundation.MediaMonitor

-- Names

/-- The names under which the usage statistics keep values. -/
inductive Key
  | APP_NAME | APP_VERSION_CODE | BT_TYPE | CHANNEL_LAYOUT | CLIENT_UID | DEVICETYPE | DEVICE_TYPE
  | DURATION | EFFECT_CHAIN | ENCODING_TYPE | ERROR_CODE | ISOUTPUT | IS_PLAYBACK | LEVEL
  | MANUFACTURER | MODEL_NUMBER | MUTED | PID | PIPE_TYPE | SAMPLE_RATE | START_TIME | STATE
  | STREAMID | STREAM_TYPE | SYSVOLUME | TIMES | UID
  deriving DecidableEq

instance : Fintype Key :=
  Fintype.ofList
    [.APP_NAME, .APP_VERSION_CODE, .BT_TYPE, .CHANNEL_LAYOUT, .CLIENT_UID, .DEVICETYPE,
      .DEVICE_TYPE, .DURATION, .EFFECT_CHAIN, .ENCODING_TYPE, .ERROR_CODE, .ISOUTPUT,
      .IS_PLAYBACK, .LEVEL, .MANUFACTURER, .MODEL_NUMBER, .MUTED, .PID, .PIPE_TYPE,
      .SAMPLE_RATE, .START_TIME, .STATE, .STREAMID, .STREAM_TYPE, .SYSVOLUME, .TIMES, .UID]
    fun k => by cases k <;> decide

/-- `EventId`: the statistics and the changes they are made from. -/
inductive EventId
  | UNKNOW_EVENTID
  | AUDIO_STREAM_CREATE_ERROR_STATS | BACKGROUND_SILENT_PLAYBACK | STREAM_UTILIZATION_STATS
  | AUDIO_DEVICE_UTILIZATION_STATS | BT_UTILIZATION_STATS | PERFORMANCE_UNDER_OVERRUN_STATS
  | PLAYBACK_VOLUME_STATS | MUTED_CAPTURE_STATS | STREAM_PROPERTY_STATS
  | DEVICE_CHANGE | VOLUME_CHANGE | STREAM_CHANGE | CAPTURE_MUTE_STATUS_CHANGE
  deriving DecidableEq

inductive EventType
  | UNKNOW_EVENTTYPE | FAULT_EVENT | BEHAVIOR_EVENT
  | FREQUENCY_AGGREGATION_EVENT | DURATION_AGGREGATION_EVENT
  deriving DecidableEq

-- Maps

/-- `std::map<std::string, α>`. -/
abbrev KeyMap (α : Type) := Key → Option α

variable {α : Type}

/-- `std::map::emplace`: a value that is there stays. -/
def KeyMap.emplace (m : KeyMap α) (key : Key) (value : α) : KeyMap α :=
  Function.update m key (some ((m key).getD value))

/-- The `Update…Map` functions: a name that is missing stays missing. -/
def KeyMap.assign (m : KeyMap α) (key : Key) (value : α) : KeyMap α :=
  Function.update m key ((m key).map fun _ => value)

theorem KeyMap.emplace_of_ne (m : KeyMap α) {key key' : Key} (value : α) (h : key' ≠ key) :
    m.emplace key value key' = m key' :=
  Function.update_of_ne h _ _

theorem KeyMap.emplace_self (m : KeyMap α) (key : Key) (value : α) :
    m.emplace key value key = some ((m key).getD value) :=
  Function.update_self ..

theorem KeyMap.assign_of_ne (m : KeyMap α) {key key' : Key} (value : α) (h : key' ≠ key) :
    m.assign key value key' = m key' :=
  Function.update_of_ne h _ _

theorem KeyMap.assign_self (m : KeyMap α) (key : Key) (value : α) :
    m.assign key value key = (m key).map fun _ => value :=
  Function.update_self ..

-- Beans

@[ext] structure EventBean where
  eventId : EventId := .UNKNOW_EVENTID
  eventType : EventType := .UNKNOW_EVENTTYPE
  intMap : KeyMap Int32 := fun _ => none
  stringMap : KeyMap String := fun _ => none
  uint64Map : KeyMap UInt64 := fun _ => none
  deriving DecidableEq

namespace EventBean

def addInt (bean : EventBean) (key : Key) (value : Int32) : EventBean :=
  { bean with intMap := bean.intMap.emplace key value }

def addString (bean : EventBean) (key : Key) (value : String) : EventBean :=
  { bean with stringMap := bean.stringMap.emplace key value }

def addUint64 (bean : EventBean) (key : Key) (value : UInt64) : EventBean :=
  { bean with uint64Map := bean.uint64Map.emplace key value }

def getIntValue (bean : EventBean) (key : Key) : Int32 :=
  (bean.intMap key).getD (-1)

def getStringValue (bean : EventBean) (key : Key) : String :=
  (bean.stringMap key).getD "UNKNOWN"

def getUint64Value (bean : EventBean) (key : Key) : UInt64 :=
  (bean.uint64Map key).getD 0

def updateIntMap (bean : EventBean) (key : Key) (value : Int32) : EventBean :=
  { bean with intMap := bean.intMap.assign key value }

def updateStringMap (bean : EventBean) (key : Key) (value : String) : EventBean :=
  { bean with stringMap := bean.stringMap.assign key value }

def updateUint64Map (bean : EventBean) (key : Key) (value : UInt64) : EventBean :=
  { bean with uint64Map := bean.uint64Map.assign key value }

section Lookups

variable {bean : EventBean} {key key' : Key}

theorem getIntValue_of_some {n : Int32} (h : bean.intMap key = some n) :
    bean.getIntValue key = n := by
  unfold getIntValue
  rw [h]
  rfl

theorem getIntValue_updateIntMap (h : (bean.intMap key).isSome) (n : Int32) :
    (bean.updateIntMap key n).getIntValue key = n := by
  obtain ⟨m, hm⟩ := Option.isSome_iff_exists.mp h
  show (bean.intMap.assign key n key).getD (-1) = n
  rw [KeyMap.assign_self, hm]
  rfl

theorem getUint64Value_updateUint64Map (h : (bean.uint64Map key).isSome) (n : UInt64) :
    (bean.updateUint64Map key n).getUint64Value key = n := by
  obtain ⟨m, hm⟩ := Option.isSome_iff_exists.mp h
  show (bean.uint64Map.assign key n key).getD 0 = n
  rw [KeyMap.assign_self, hm]
  rfl

theorem getUint64Value_updateUint64Map_of_ne (h : key' ≠ key) (n : UInt64) :
    (bean.updateUint64Map key n).getUint64Value key' = bean.getUint64Value key' :=
  congrArg (Option.getD · 0) (KeyMap.assign_of_ne _ _ h)

theorem isSome_updateUint64Map (key' : Key) (n : UInt64) :
    ((bean.updateUint64Map key n).uint64Map key').isSome = (bean.uint64Map key').isSome := by
  show (bean.uint64Map.assign key n key').isSome = _
  by_cases h : key' = key
  · rw [h, KeyMap.assign_self, Option.isSome_map]
  · rw [KeyMap.assign_of_ne _ _ h]

end Lookups

end EventBean

end MediaFoundation.MediaMonitor
