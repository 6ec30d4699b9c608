import MediaFoundation.Monitor.EventBean
import MediaFoundation.Lib.Tally
import MediaFoundation.Lib.Runs

/-!
# The statistics collected by the monitor

Translation of `services/media_monitor/server/src/media_monitor_policy.cpp`
(the nine functions that fill `eventVector_`, `HandleToHiSysEvent` and
`WriteAggregationEvent`) and of the writers of
`media_event_base_writer.cpp` that they end in.

Each of the nine functions looks for an entry of `eventVector_` under
`eventVectorMutex_`, adds to the first one found, and appends a new entry when
there is none. `HandleToHiSysEvent` takes the whole vector under the same mutex
and writes its entries afterwards, without it. So a run is a list of three
kinds of atomic steps, by any number of threads: a call of one of the nine
functions, a taking of the vector, and the writing of one entry that was taken.
-/

namespace MediaFoundation.MediaMonitor

-- Finding and creating entries

/-- What one of the functions does under the mutex: which entries its `isExist`
accepts, what it does to the first of them, and the entry it adds when there is
none. -/
structure FindOrCreate where
  isExist : EventBean → Bool
  update : EventBean → EventBean
  newBean : EventBean

def FindOrCreate.perform (f : FindOrCreate) (eventVector : List EventBean) : List EventBean :=
  Tally.upsert f.isExist f.update f.newBean eventVector

/-- The comparisons of an `isExist`: the event id, then int and string values by name. -/
def isExist (eventId : EventId) (ints strings : List Key) (bean eventBean : EventBean) : Bool :=
  eventBean.eventId == eventId &&
    ints.all (fun key => bean.getIntValue key == eventBean.getIntValue key) &&
    strings.all fun key => bean.getStringValue key == eventBean.getStringValue key

/-- `make_shared<EventBean>(…)` and an `Add` for each int and string value taken over. -/
def newEventBean (eventId : EventId) (eventType : EventType) (ints strings : List Key)
    (bean : EventBean) : EventBean :=
  strings.foldl (fun eventBean key => eventBean.addString key (bean.getStringValue key))
    (ints.foldl (fun eventBean key => eventBean.addInt key (bean.getIntValue key))
      { eventId := eventId, eventType := eventType })

/-- `(*it)->UpdateUint64Map("DURATION", …)`. -/
def addDuration (bean eventBean : EventBean) : EventBean :=
  eventBean.updateUint64Map .DURATION
    (eventBean.getUint64Value .DURATION + bean.getUint64Value .DURATION)

def addTime (eventBean : EventBean) : EventBean :=
  eventBean.updateIntMap .TIMES (eventBean.getIntValue .TIMES + 1)

def INITIAL_VALUE : Int32 := 1

/-- The functions that add up durations of the entries with the same values. -/
def durationStats (eventId : EventId) (ints strings : List Key) (bean : EventBean) :
    FindOrCreate where
  isExist := isExist eventId ints strings bean
  update := addDuration bean
  newBean := (newEventBean eventId .FREQUENCY_AGGREGATION_EVENT ints strings bean).addUint64
    .DURATION (bean.getUint64Value .DURATION)

/-- The functions that count the entries with the same values. -/
def timesStats (eventId : EventId) (ints : List Key) (bean : EventBean) : FindOrCreate where
  isExist := isExist eventId ints [] bean
  update := addTime
  newBean := (newEventBean eventId .FREQUENCY_AGGREGATION_EVENT ints [] bean).addInt
    .TIMES INITIAL_VALUE

-- The nine functions

def deviceUsageStats (deviceUsage : EventBean) : FindOrCreate :=
  durationStats .AUDIO_DEVICE_UTILIZATION_STATS [.IS_PLAYBACK, .STREAM_TYPE, .DEVICE_TYPE]
    [.MANUFACTURER, .MODEL_NUMBER] deviceUsage

def btUsageStats (btUsage : EventBean) : FindOrCreate :=
  durationStats .BT_UTILIZATION_STATS [.BT_TYPE, .STREAM_TYPE, .IS_PLAYBACK] [] btUsage

/-- The entry also keeps the user and the effect chain, which `isExist` does not look at. -/
def streamUsageStats (streamUsage : EventBean) : FindOrCreate where
  isExist := isExist .STREAM_UTILIZATION_STATS [.PIPE_TYPE, .STREAM_TYPE, .IS_PLAYBACK, .SAMPLE_RATE]
    [.APP_NAME] streamUsage
  update eventBean :=
    let counted := addDuration streamUsage eventBean
    counted.updateUint64Map .TIMES (counted.getUint64Value .TIMES + 1)
  newBean := ((newEventBean .STREAM_UTILIZATION_STATS .FREQUENCY_AGGREGATION_EVENT
      [.PIPE_TYPE, .UID, .IS_PLAYBACK, .STREAM_TYPE, .SAMPLE_RATE, .EFFECT_CHAIN]
      [.APP_NAME] streamUsage).addUint64 .DURATION (streamUsage.getUint64Value .DURATION)).addUint64
    .TIMES INITIAL_VALUE.toInt64.toUInt64

/-- `isExist` looks among the entries of another kind than the one it adds. -/
def streamPropertyStats (streamProperty : EventBean) : FindOrCreate where
  isExist eventBean :=
    isExist .STREAM_UTILIZATION_STATS [.UID, .STREAM_TYPE, .IS_PLAYBACK, .ENCODING_TYPE]
        [.APP_NAME] streamProperty eventBean &&
      (streamProperty.getIntValue .CHANNEL_LAYOUT).toInt64 ==
        (eventBean.getUint64Value .CHANNEL_LAYOUT).toInt64
  update := addDuration streamProperty
  newBean := ((newEventBean .STREAM_PROPERTY_STATS .DURATION_AGGREGATION_EVENT
      [.IS_PLAYBACK, .STREAM_TYPE, .ENCODING_TYPE] [.APP_NAME] streamProperty).addUint64
      .CHANNEL_LAYOUT (streamProperty.getUint64Value .CHANNEL_LAYOUT)).addUint64
    .DURATION (streamProperty.getUint64Value .DURATION)

def volumeStats (bean : EventBean) : FindOrCreate :=
  durationStats .PLAYBACK_VOLUME_STATS [.STREAM_TYPE, .LEVEL, .DEVICE_TYPE] [] bean

def captureMutedStats (bean : EventBean) : FindOrCreate :=
  durationStats .MUTED_CAPTURE_STATS [.STREAM_TYPE, .DEVICE_TYPE] [] bean

def createErrorStats (bean : EventBean) : FindOrCreate :=
  timesStats .AUDIO_STREAM_CREATE_ERROR_STATS
    [.CLIENT_UID, .IS_PLAYBACK, .STREAM_TYPE, .ERROR_CODE] bean

/-- `BundleInfo`, without the fields of the volume subscription. -/
structure BundleInfo where
  appName : String
  versionCode : Int32

/-- The values compared and kept are those of the app, not of the bean. -/
def silentPlaybackStats (bundleInfo : BundleInfo) : FindOrCreate where
  isExist eventBean :=
    eventBean.eventId == .BACKGROUND_SILENT_PLAYBACK &&
      bundleInfo.appName == eventBean.getStringValue .APP_NAME &&
      bundleInfo.versionCode == eventBean.getIntValue .APP_VERSION_CODE
  update := addTime
  newBean :=
    let eventBean : EventBean :=
      { eventId := .BACKGROUND_SILENT_PLAYBACK, eventType := .FREQUENCY_AGGREGATION_EVENT }
    ((eventBean.addString .APP_NAME bundleInfo.appName).addInt
      .APP_VERSION_CODE bundleInfo.versionCode).addInt .TIMES INITIAL_VALUE

def underrunStats (bean : EventBean) : FindOrCreate :=
  timesStats .PERFORMANCE_UNDER_OVERRUN_STATS
    [.CLIENT_UID, .IS_PLAYBACK, .PIPE_TYPE, .STREAM_TYPE] bean

/-- The first six functions return at once when they are given no bean. -/
def guarded (f : EventBean → FindOrCreate) (bean : Option EventBean)
    (eventVector : List EventBean) : List EventBean :=
  match bean with
  | none => eventVector
  | some bean => (f bean).perform eventVector

def handDeviceUsageToEventVector := guarded deviceUsageStats

def handBtUsageToEventVector := guarded btUsageStats

def handStreamUsageToEventVector := guarded streamUsageStats

def handStreamPropertyToEventVector := guarded streamPropertyStats

def handleVolumeToEventVector := guarded volumeStats

def handleCaptureMutedToEventVector := guarded captureMutedStats

def handleCreateErrorToEventVector (bean : EventBean) (eventVector : List EventBean) :
    List EventBean :=
  (createErrorStats bean).perform eventVector

/-- `getBundleInfo` is what `GetBundleInfo` answers at the time of the call. -/
def handleSilentPlaybackToEventVector (getBundleInfo : Int32 → BundleInfo) (bean : EventBean)
    (eventVector : List EventBean) : List EventBean :=
  (silentPlaybackStats (getBundleInfo (bean.getIntValue .CLIENT_UID))).perform eventVector

def handleUnderrunToEventVector (bean : EventBean) (eventVector : List EventBean) :
    List EventBean :=
  (underrunStats bean).perform eventVector

-- Writing

inductive Param
  | bool (value : Bool)
  | int32 (value : Int32)
  | uint32 (value : UInt32)
  | uint64 (value : UInt64)
  | string (value : String)

structure HiSysEvent where
  name : EventId
  params : List (Key × Param)

section Writers

variable (bean : EventBean)

def boolParam (key : Key) : Key × Param := (key, .bool (bean.getIntValue key != 0))

def uintParam (key : Key) : Key × Param := (key, .uint32 (bean.getIntValue key).toUInt32)

/-- `key, bean->GetStringValue(key)`. -/
def stringParam (key : Key) : Key × Param := (key, .string (bean.getStringValue key))

def countParam (key : Key) : Key × Param := (key, .uint32 (bean.getUint64Value key).toUInt32)

def writeStreamCreateError : HiSysEvent where
  name := .AUDIO_STREAM_CREATE_ERROR_STATS
  params := [stringParam bean .APP_NAME, boolParam bean .IS_PLAYBACK, uintParam bean .STREAM_TYPE,
    (.ERROR_CODE, .int32 (bean.getIntValue .ERROR_CODE)), uintParam bean .TIMES]

def writeBackgoundSilentPlayback : HiSysEvent where
  name := .BACKGROUND_SILENT_PLAYBACK
  params := [stringParam bean .APP_NAME, uintParam bean .APP_VERSION_CODE, uintParam bean .TIMES]

/-- The only writer that does not cut the duration to 32 bits. -/
def writeDeviceStatistic : HiSysEvent where
  name := .AUDIO_DEVICE_UTILIZATION_STATS
  params := [boolParam bean .IS_PLAYBACK, uintParam bean .DEVICE_TYPE, uintParam bean .STREAM_TYPE,
    (.DURATION, .uint64 (bean.getUint64Value .DURATION)), stringParam bean .MANUFACTURER,
    stringParam bean .MODEL_NUMBER]

def writeBtUsageStatistic : HiSysEvent where
  name := .BT_UTILIZATION_STATS
  params := [boolParam bean .IS_PLAYBACK, uintParam bean .BT_TYPE, uintParam bean .STREAM_TYPE,
    countParam bean .DURATION]

def writeStreamStatistic : HiSysEvent where
  name := .STREAM_UTILIZATION_STATS
  params := [boolParam bean .IS_PLAYBACK, uintParam bean .PIPE_TYPE, uintParam bean .STREAM_TYPE,
    uintParam bean .SAMPLE_RATE, stringParam bean .APP_NAME, uintParam bean .EFFECT_CHAIN,
    countParam bean .DURATION, countParam bean .TIMES]

def writeStreamPropertyStatistic : HiSysEvent where
  name := .STREAM_PROPERTY_STATS
  params := [boolParam bean .IS_PLAYBACK, uintParam bean .STREAM_TYPE, stringParam bean .APP_NAME,
    uintParam bean .ENCODING_TYPE, (.CHANNEL_LAYOUT, .uint64 (bean.getUint64Value .CHANNEL_LAYOUT)),
    countParam bean .DURATION]

def writeUnderrunStatistic : HiSysEvent where
  name := .PERFORMANCE_UNDER_OVERRUN_STATS
  params := [boolParam bean .IS_PLAYBACK, uintParam bean .STREAM_TYPE, uintParam bean .PIPE_TYPE,
    stringParam bean .APP_NAME, uintParam bean .TIMES]

def writeMutedCapture : HiSysEvent where
  name := .MUTED_CAPTURE_STATS
  params := [uintParam bean .STREAM_TYPE, uintParam bean .DEVICE_TYPE, countParam bean .DURATION]

def writePlaybackVolume : HiSysEvent where
  name := .PLAYBACK_VOLUME_STATS
  params := [uintParam bean .LEVEL, uintParam bean .STREAM_TYPE, uintParam bean .DEVICE_TYPE,
    countParam bean .DURATION]

/-- `WriteAggregationEvent`; nothing is written for the events of the other kinds of vectors. -/
def writeAggregationEvent (getBundleInfo : Int32 → BundleInfo) (eventId : EventId) :
    Option HiSysEvent :=
  match eventId with
  | .AUDIO_STREAM_CREATE_ERROR_STATS =>
    let bundleInfo := getBundleInfo (bean.getIntValue .CLIENT_UID)
    some (writeStreamCreateError ((bean.addString .APP_NAME bundleInfo.appName).addInt
      .APP_VERSION_CODE bundleInfo.versionCode))
  | .BACKGROUND_SILENT_PLAYBACK =>
    let bundleInfo := getBundleInfo (bean.getIntValue .CLIENT_UID)
    some (writeBackgoundSilentPlayback ((bean.addString .APP_NAME bundleInfo.appName).addInt
      .APP_VERSION_CODE bundleInfo.versionCode))
  | .STREAM_UTILIZATION_STATS =>
    let bundleInfo := getBundleInfo (bean.getIntValue .UID)
    some (writeStreamStatistic (bean.updateStringMap .APP_NAME bundleInfo.appName))
  | .STREAM_PROPERTY_STATS => some (writeStreamPropertyStatistic bean)
  | .AUDIO_DEVICE_UTILIZATION_STATS => some (writeDeviceStatistic bean)
  | .BT_UTILIZATION_STATS => some (writeBtUsageStatistic bean)
  | .PERFORMANCE_UNDER_OVERRUN_STATS =>
    let bundleInfo := getBundleInfo (bean.getIntValue .CLIENT_UID)
    some (writeUnderrunStatistic (bean.addString .APP_NAME bundleInfo.appName))
  | .PLAYBACK_VOLUME_STATS => some (writePlaybackVolume bean)
  | .MUTED_CAPTURE_STATS => some (writeMutedCapture bean)
  | _ => none

/-- `WriteEvent`; behaviour and fault events go to writers that no entry of `eventVector_`
reaches. -/
def writeEvent (getBundleInfo : Int32 → BundleInfo) (eventId : EventId) : Option HiSysEvent :=
  match bean.eventType with
  | .BEHAVIOR_EVENT => none
  | .FAULT_EVENT => none
  | _ => writeAggregationEvent bean getBundleInfo eventId

end Writers

-- Runs

/-- The nine functions that fill `eventVector_`. -/
inductive Kind
  | deviceUsage | btUsage | streamUsage | streamProperty | volume | captureMuted
  | createError | silentPlayback | underrun
  deriving DecidableEq

/-- What happens under `eventVectorMutex_`, or to one entry that was taken from it. -/
inductive Label
  /-- A call of one of the nine functions. -/
  | hand (kind : Kind) (bean : Option EventBean) (getBundleInfo : Int32 → BundleInfo)
  | take
  /-- The `HandleToHiSysEvent` in place `i` writes its next entry. -/
  | write (i : Nat) (getBundleInfo : Int32 → BundleInfo)

structure State where
  eventVector : List EventBean := []
  taken : List (List EventBean) := []
  written : List (EventBean × Option HiSysEvent) := []

/-- A call of one of the nine functions; the last three use their bean without looking
whether there is one. -/
def hand (getBundleInfo : Int32 → BundleInfo) (eventVector : List EventBean) :
    Kind → Option EventBean → Option (List EventBean)
  | .deviceUsage, bean => some (handDeviceUsageToEventVector bean eventVector)
  | .btUsage, bean => some (handBtUsageToEventVector bean eventVector)
  | .streamUsage, bean => some (handStreamUsageToEventVector bean eventVector)
  | .streamProperty, bean => some (handStreamPropertyToEventVector bean eventVector)
  | .volume, bean => some (handleVolumeToEventVector bean eventVector)
  | .captureMuted, bean => some (handleCaptureMutedToEventVector bean eventVector)
  | .createError, some bean => some (handleCreateErrorToEventVector bean eventVector)
  | .silentPlayback, some bean =>
    some (handleSilentPlaybackToEventVector getBundleInfo bean eventVector)
  | .underrun, some bean => some (handleUnderrunToEventVector bean eventVector)
  | _, none => none

def step (s : State) : Label → Option State
  | .hand kind bean getBundleInfo =>
    (hand getBundleInfo s.eventVector kind bean).map fun eventVector =>
      { s with eventVector := eventVector }
  | .take => some { s with eventVector := [], taken := s.taken ++ [s.eventVector] }
  | .write i getBundleInfo =>
    match s.taken[i]? with
    | some (desc :: rest) =>
      some { s with
        taken := s.taken.set i rest
        written := s.written ++ [(desc, writeEvent desc getBundleInfo desc.eventId)] }
    | _ => none

end MediaFoundation.MediaMonitor
