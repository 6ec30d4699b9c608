import Mathlib

/-!
# Capability values

The check of two capability values of one key (`compatible_check.cpp`): their
kinds, the two nested switches over them and the nine ways to intersect them.

Conventions:

* The check is written for any type `T` of values and its `cmpFunc`, which
  returns an `int`. The keys follow at the end, each with its type and function.
* An enumeration is the word of its underlying type, which is all that the
  comparisons read. The difference of two `int64_t` wraps.
* A check returns the value it puts in `outValue`, or nothing when it fails.
-/

namespace MediaFoundation.Capability

-- Values

inductive ValueType (T : Type) where
  | fixed (value : T)
  | interval (first second : T)
  | discrete (values : List T)
  /-- An `Any` of another type, or without a value. -/
  | other

def allowFixed : UInt8 := (1 : UInt8) <<< 0

def allowInterval : UInt8 := (1 : UInt8) <<< 1

def allowDiscrete : UInt8 := (1 : UInt8) <<< 2

def isFixedAllowed (flags : UInt8) : Bool := allowFixed &&& flags ≠ 0

def isIntervalAllowed (flags : UInt8) : Bool := allowInterval &&& flags ≠ 0

def isDiscreteAllowed (flags : UInt8) : Bool := allowDiscrete &&& flags ≠ 0

-- The intersections

section Checks

variable {T : Type} (cmpFunc : T → T → Int32)

def maxOf (val1 val2 : T) : T := if 0 ≤ cmpFunc val1 val2 then val1 else val2

def minOf (val1 val2 : T) : T := if cmpFunc val1 val2 ≤ 0 then val1 else val2

def ffCapabilityCheck (v1 v2 : T) : Option (ValueType T) :=
  if cmpFunc v1 v2 = 0 then some (.fixed v1) else none

def fiCapabilityCheck (v1 : T) (v2 : T × T) : Option (ValueType T) :=
  let max := maxOf cmpFunc v2.1 v2.2
  let min := minOf cmpFunc v2.1 v2.2
  if 0 ≤ cmpFunc v1 min ∧ cmpFunc v1 max ≤ 0 then some (.fixed v1) else none

def fdCapabilityCheck (v1 : T) (v2 : List T) : Option (ValueType T) :=
  if v2.any fun tmp => cmpFunc tmp v1 = 0 then some (.fixed v1) else none

def iiCapabilityCheck (v1 v2 : T × T) : Option (ValueType T) :=
  let max1 := maxOf cmpFunc v1.1 v1.2
  let min1 := minOf cmpFunc v1.1 v1.2
  let max2 := maxOf cmpFunc v2.1 v2.2
  let min2 := minOf cmpFunc v2.1 v2.2
  let tmpMin := maxOf cmpFunc min1 min2
  let tmpMax := minOf cmpFunc max1 max2
  if 0 < cmpFunc tmpMin tmpMax then none
  else if cmpFunc tmpMin tmpMax = 0 then some (.fixed tmpMin)
  else some (.interval tmpMin tmpMax)

def fromCollected : List T → Option (ValueType T)
  | [] => none
  | [value] => some (.fixed value)
  | tmpOut => some (.discrete tmpOut)

/-- The bounds are taken as they are. -/
def idCapabilityCheck (v1 : T × T) (v2 : List T) : Option (ValueType T) :=
  fromCollected (v2.filter fun oneValue => 0 ≤ cmpFunc oneValue v1.1 ∧ cmpFunc oneValue v1.2 ≤ 0)

def ddCapabilityCheck (v1 v2 : List T) : Option (ValueType T) :=
  fromCollected (v1.filter fun cap1 => v2.any fun tmp => cmpFunc cap1 tmp = 0)

-- The switches

variable (flags : UInt8)

def fixedNumericalCapabilityCheck (value2 : T) : ValueType T → Option (ValueType T)
  | .fixed value1 => ffCapabilityCheck cmpFunc value2 value1
  | .interval first second =>
    if isIntervalAllowed flags then fiCapabilityCheck cmpFunc value2 (first, second) else none
  | .discrete values =>
    if isDiscreteAllowed flags then fdCapabilityCheck cmpFunc value2 values else none
  | .other => none

def intervalNumericalCapabilityCheck (value2 : T × T) : ValueType T → Option (ValueType T)
  | .fixed value1 => if isFixedAllowed flags then fiCapabilityCheck cmpFunc value1 value2 else none
  | .interval first second => iiCapabilityCheck cmpFunc (first, second) value2
  | .discrete values =>
    if isDiscreteAllowed flags then idCapabilityCheck cmpFunc value2 values else none
  | .other => none

def discreteNumericalCapabilityCheck (value2 : List T) : ValueType T → Option (ValueType T)
  | .fixed value1 => if isFixedAllowed flags then fdCapabilityCheck cmpFunc value1 value2 else none
  | .interval first second =>
    if isIntervalAllowed flags then idCapabilityCheck cmpFunc (first, second) value2 else none
  | .discrete values => ddCapabilityCheck cmpFunc values value2
  | .other => none

def capabilityValueCheck : ValueType T → ValueType T → Option (ValueType T)
  | .fixed value, second =>
    if isFixedAllowed flags then fixedNumericalCapabilityCheck cmpFunc flags value second else none
  | .interval first' second', second =>
    if isIntervalAllowed flags then
      intervalNumericalCapabilityCheck cmpFunc flags (first', second') second
    else none
  | .discrete values, second =>
    if isDiscreteAllowed flags then discreteNumericalCapabilityCheck cmpFunc flags values second
    else none
  | .other, _ => none

end Checks

-- The keys

inductive CapabilityID where
  | audioSampleRate
  | audioChannels
  | audioChannelLayout
  | audioSampleFormat
  | audioMpegVersion
  | audioMpegLayer
  | audioAacProfile
  | audioAacLevel
  | audioAacStreamFormat
  | videoPixelFormat
  | videoBitStreamFormat
  | mediaBitrate
deriving DecidableEq

namespace CapabilityID

def Value : CapabilityID → Type
  | .audioSampleRate | .audioChannels | .audioMpegVersion | .audioMpegLayer | .audioAacLevel => UInt32
  | .audioChannelLayout => UInt64
  | .audioSampleFormat | .audioAacProfile | .audioAacStreamFormat => UInt8
  | .videoPixelFormat | .videoBitStreamFormat => UInt32
  | .mediaBitrate => Int64

/-- The function that the check of a key compares with, its result cast to `int`. -/
def cmpFunc : (key : CapabilityID) → key.Value → key.Value → Int32
  | .audioSampleRate | .audioChannels | .audioMpegVersion | .audioMpegLayer | .audioAacLevel =>
    fun (a b : UInt32) => (a - b).toInt32
  | .audioChannelLayout => fun (a b : UInt64) => (a - b).toUInt32.toInt32
  | .audioSampleFormat | .audioAacProfile | .audioAacStreamFormat =>
    -- the operands are promoted to `int`
    fun (a b : UInt8) => a.toUInt32.toInt32 - b.toUInt32.toInt32
  | .videoPixelFormat | .videoBitStreamFormat => fun (a b : UInt32) => (a - b).toInt32
  | .mediaBitrate => fun (a b : Int64) => (a - b).toInt32

/-- The kinds that a key allows: `FixInvalDiscCapValCheck` or `FixDiscCapValCheck`. -/
def flags : CapabilityID → UInt8
  | .audioSampleRate | .audioChannels | .audioMpegVersion | .audioMpegLayer | .audioAacLevel
  | .mediaBitrate => allowFixed ||| allowInterval ||| allowDiscrete
  | .audioChannelLayout | .audioSampleFormat | .audioAacProfile | .audioAacStreamFormat
  | .videoPixelFormat | .videoBitStreamFormat => allowFixed ||| allowDiscrete

def check (key : CapabilityID) (val1 val2 : ValueType key.Value) : Option (ValueType key.Value) :=
  capabilityValueCheck key.cmpFunc key.flags val1 val2

def number : (key : CapabilityID) → key.Value → Int
  | .audioSampleRate | .audioChannels | .audioMpegVersion | .audioMpegLayer | .audioAacLevel =>
    fun (a : UInt32) => a.toNat
  | .audioChannelLayout => fun (a : UInt64) => a.toNat
  | .audioSampleFormat | .audioAacProfile | .audioAacStreamFormat => fun (a : UInt8) => a.toNat
  | .videoPixelFormat | .videoBitStreamFormat => fun (a : UInt32) => a.toNat
  | .mediaBitrate => fun (a : Int64) => a.toInt

end CapabilityID

end MediaFoundation.Capability
