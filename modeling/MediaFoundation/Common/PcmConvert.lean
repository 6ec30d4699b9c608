import MediaFoundation.Lib.SignedBytes

/-!
# PCM conversion

`ConvertPcmSampleFormat` (`pcm_convert.cpp`): interleaved samples of one format
are read one after the other and written in another format.

Conventions:

* A pointer into a buffer is the list of the bytes from there on. A function
  that writes through a pointer returns the bytes that are there afterwards.
* The samples that are converted by way of `float` are left out: what they
  become is a parameter, `ViaFloat`.
* `memmove_s` fails for more than `SECUREC_MEM_MAX` bytes.
-/

namespace MediaFoundation.Pcm

abbrev Bytes := List UInt8

inductive AudioSampleFormat where
  | sampleU8
  | sampleS16le
  | sampleS24le
  | sampleS32le
  | sampleF32le
  /-- The planar formats, and those of compressed audio. -/
  | other
deriving DecidableEq

inductive ConvertStatus where
  | ok
  | errorNullPointer
  | errorUnsupportedFormat
  | errorInvalidParameter

-- Reading and writing samples

def byteAt (ptr : Bytes) (i : Nat) : UInt8 := ptr.getD i 0

def readS24 (ptr : Bytes) : Int32 :=
  let val := (byteAt ptr 0).toUInt32 ||| ((byteAt ptr 1).toUInt32 <<< 8) |||
    ((byteAt ptr 2).toUInt32 <<< 16)
  let val := if val &&& 0x00800000 ≠ 0 then val ||| 0xFF000000 else val
  val.toInt32

def writeS24 (val : Int32) : Bytes :=
  let uval := val.toUInt32
  [(uval &&& 0xFF).toUInt8, ((uval >>> 8) &&& 0xFF).toUInt8, ((uval >>> 16) &&& 0xFF).toUInt8]

def readS16 (ptr : Bytes) : Int16 :=
  ((byteAt ptr 0).toUInt16 ||| ((byteAt ptr 1).toUInt16 <<< 8)).toInt16

def writeS16 (val : Int16) : Bytes :=
  let uval := val.toUInt16
  [(uval &&& 0xFF).toUInt8, ((uval >>> 8) &&& 0xFF).toUInt8]

def readS32 (ptr : Bytes) : Int32 :=
  ((byteAt ptr 0).toUInt32 ||| ((byteAt ptr 1).toUInt32 <<< 8) |||
    ((byteAt ptr 2).toUInt32 <<< 16) ||| ((byteAt ptr 3).toUInt32 <<< 24)).toInt32

def writeS32 (val : Int32) : Bytes :=
  let uval := val.toUInt32
  [(uval &&& 0xFF).toUInt8, ((uval >>> 8) &&& 0xFF).toUInt8, ((uval >>> 16) &&& 0xFF).toUInt8,
    ((uval >>> 24) &&& 0xFF).toUInt8]

def floorDiv (divisor v : Int32) : Int32 :=
  let adjustment := divisor - 1
  if v < 0 then ((v.toInt64 - adjustment.toInt64) / divisor.toInt64).toInt32 else v / divisor

-- Converting a row of samples

/-- The bytes at a pointer after some have been written there. -/
def store (ptr bytes : Bytes) : Bytes := bytes ++ ptr.drop bytes.length

def convertSamples {α β : Type} (read : Bytes → α) (write : β → Bytes) (convert : α → β)
    (inputBytes outputBytes : Nat) : Nat → Bytes → Bytes → Bytes
  | 0, _, outPtr => outPtr
  | sampleCount + 1, inPtr, outPtr =>
    let val := read inPtr
    let converted := convert val
    let outPtr := store outPtr (write converted)
    outPtr.take outputBytes ++ convertSamples read write convert inputBytes outputBytes sampleCount
      (inPtr.drop inputBytes) (outPtr.drop outputBytes)

def getPcmBytesPerSample : AudioSampleFormat → Nat
  | .sampleU8 => 1
  | .sampleS16le => 2
  | .sampleS24le => 3
  | .sampleS32le | .sampleF32le => 4
  | .other => 0

/-- What a sample at a pointer becomes when it goes through `float`. -/
structure ViaFloat where
  bytes : AudioSampleFormat → AudioSampleFormat → Bytes → Bytes
  length_eq : ∀ f g ptr, (bytes f g ptr).length = getPcmBytesPerSample g

section Formats

variable (viaFloat : ViaFloat)

/-- `ConvertFromU8` and `ConvertFromF32LE`: every sample goes through `float`. -/
def convertThroughFloat (inputFormat : AudioSampleFormat) (input : Bytes)
    (sampleCount inputBytes outputBytes : Nat) (output : Bytes) (outputFormat : AudioSampleFormat) :
    ConvertStatus × Bytes :=
  if outputFormat = .other ∨ outputFormat = inputFormat then (.errorUnsupportedFormat, output)
  else (.ok, convertSamples id id (viaFloat.bytes inputFormat outputFormat) inputBytes outputBytes
    sampleCount input output)

def convertFromU8 := convertThroughFloat viaFloat .sampleU8

def convertFromS16LE (input : Bytes) (sampleCount inputBytes outputBytes : Nat) (output : Bytes) :
    AudioSampleFormat → ConvertStatus × Bytes
  | .sampleU8 => (.ok, convertSamples id id (viaFloat.bytes .sampleS16le .sampleU8) inputBytes
      outputBytes sampleCount input output)
  | .sampleS24le => (.ok, convertSamples readS16 writeS24 (fun v => v.toInt32 * 256) inputBytes
      outputBytes sampleCount input output)
  | .sampleS32le => (.ok, convertSamples readS16 writeS32 (fun v => v.toInt32 * 65536) inputBytes
      outputBytes sampleCount input output)
  | .sampleF32le => (.ok, convertSamples id id (viaFloat.bytes .sampleS16le .sampleF32le) inputBytes
      outputBytes sampleCount input output)
  | _ => (.errorUnsupportedFormat, output)

def convertFromS24LE (input : Bytes) (sampleCount inputBytes outputBytes : Nat) (output : Bytes) :
    AudioSampleFormat → ConvertStatus × Bytes
  | .sampleU8 => (.ok, convertSamples id id (viaFloat.bytes .sampleS24le .sampleU8) inputBytes
      outputBytes sampleCount input output)
  | .sampleS16le => (.ok, convertSamples readS24 writeS16 (fun v => (floorDiv 256 v).toInt16)
      inputBytes outputBytes sampleCount input output)
  | .sampleS32le => (.ok, convertSamples readS24 writeS32 (fun v => v * 256) inputBytes outputBytes
      sampleCount input output)
  | .sampleF32le => (.ok, convertSamples id id (viaFloat.bytes .sampleS24le .sampleF32le) inputBytes
      outputBytes sampleCount input output)
  | _ => (.errorUnsupportedFormat, output)

def convertFromS32LE (input : Bytes) (sampleCount inputBytes outputBytes : Nat) (output : Bytes) :
    AudioSampleFormat → ConvertStatus × Bytes
  | .sampleU8 => (.ok, convertSamples id id (viaFloat.bytes .sampleS32le .sampleU8) inputBytes
      outputBytes sampleCount input output)
  | .sampleS16le => (.ok, convertSamples readS32 writeS16 (fun v => (floorDiv 65536 v).toInt16)
      inputBytes outputBytes sampleCount input output)
  | .sampleS24le => (.ok, convertSamples readS32 writeS24 (floorDiv 256) inputBytes outputBytes
      sampleCount input output)
  | .sampleF32le => (.ok, convertSamples id id (viaFloat.bytes .sampleS32le .sampleF32le) inputBytes
      outputBytes sampleCount input output)
  | _ => (.errorUnsupportedFormat, output)

def convertFromF32LE := convertThroughFloat viaFloat .sampleF32le

end Formats

def isSupportedInterleavedFormat (format : AudioSampleFormat) : Bool := format ≠ .other

/-- The product of two `size_t`. -/
def getPcmConvertOutputSize (sampleCount : Nat) (outputFormat : AudioSampleFormat) : Nat :=
  sampleCount * getPcmBytesPerSample outputFormat % 2 ^ 64

def securecMemMax : Nat := 0x7fffffff

/-- The status, and the output buffer afterwards. No buffer is a null pointer. -/
def convertPcmSampleFormat (viaFloat : ViaFloat) (input : Option Bytes) (sampleCount : Nat)
    (inputFormat outputFormat : AudioSampleFormat) (output : Option Bytes) :
    ConvertStatus × Option Bytes :=
  match input, output with
  | some input, some output =>
    if sampleCount = 0 then (.ok, some output)
    else if ¬ isSupportedInterleavedFormat inputFormat ∨
        ¬ isSupportedInterleavedFormat outputFormat then (.errorUnsupportedFormat, some output)
    else
      let inputBytes := getPcmBytesPerSample inputFormat
      let outputBytes := getPcmBytesPerSample outputFormat
      if inputFormat = outputFormat then
        if securecMemMax < sampleCount * inputBytes then (.errorInvalidParameter, some output)
        else (.ok, some (store output (input.take (sampleCount * inputBytes))))
      else
        let convertFrom := match inputFormat with
          | .sampleU8 => convertFromU8 viaFloat
          | .sampleS16le => convertFromS16LE viaFloat
          | .sampleS24le => convertFromS24LE viaFloat
          | .sampleS32le => convertFromS32LE viaFloat
          | .sampleF32le => convertFromF32LE viaFloat
          | .other => fun _ _ _ _ output _ => (.errorUnsupportedFormat, output)
        let r := convertFrom input sampleCount inputBytes outputBytes output outputFormat
        (r.1, some r.2)
  | _, output => (.errorNullPointer, output)

end MediaFoundation.Pcm
