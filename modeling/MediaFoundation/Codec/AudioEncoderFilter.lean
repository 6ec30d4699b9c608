import MediaFoundation.Lib.Ring

/-!
# AudioEncoderFilter

The filter cuts what is pushed into frames: `PushData` writes a buffer into a
ring of ten frames, reads full frames out of it and offers them to the plug-in,
and at the end of the stream also the rest and an empty buffer
(`audio_encoder_filter.cpp`, `foundation/utils/ring_buffer.h`,
`audio_ffmpeg_encoder_plugin.cpp`).

Conventions:

* The encoding library is a parameter: `Encoder` has its two functions on a
  state of its own, and how many packets that state has to give.
* `size_t` is `UInt64`. The index of a copy in the ring and its count stay far
  below `2^64`, so the copies are those of `Lib.Ring`.
* One thread pushes, so a `WriteBuffer` that waits for room waits for ever: no
  result stands for it. The filter has been configured and is not stopped, so
  the ring and the pool of output buffers are active.
* The filter notes what it offers, and the plug-in what it accepts.
-/

namespace MediaFoundation.AudioEncoder

-- RingBuffer

structure RingBuffer where
  bufferSize : UInt64
  buffer : Nat → UInt8 := fun _ => 0
  head : UInt64 := 0
  tail : UInt64 := 0
  mediaOffset : UInt64 := 0
  isActive : Bool := true

namespace RingBuffer

def getSize (r : RingBuffer) : UInt64 := r.tail - r.head

/-- `ReadBuffer` without a wait, at a pointer that is not null. -/
def readBuffer (r : RingBuffer) (readSize : UInt64) : RingBuffer × List UInt8 :=
  if ¬ r.isActive then (r, [])
  else
    let available := r.tail - r.head
    let available := if readSize < available then readSize else available
    let index := r.head % r.bufferSize
    ({ r with head := r.head + available, mediaOffset := r.mediaOffset + available },
      Ring.ringLoad r.bufferSize.toNat r.buffer index.toNat available.toNat)

/-- `WriteBuffer`; no result when it waits. -/
def writeBuffer (r : RingBuffer) (bytes : List UInt8) : Option (RingBuffer × Bool) :=
  let writeSize := bytes.length.toUInt64
  if ¬ r.isActive then some (r, false)
  else if r.head + r.bufferSize < writeSize + r.tail then none
  else
    let index := r.tail % r.bufferSize
    some ({ r with
      buffer := Ring.ringStore r.bufferSize.toNat r.buffer index.toNat writeSize.toNat
        fun i => bytes.getD i 0
      tail := r.tail + writeSize }, true)

end RingBuffer

-- The encoding library

/-- What `avcodec_send_frame` returns. -/
inductive SendResult where
  | ok
  | eof
  | again
  | error

/-- What `avcodec_receive_packet` returns: a packet of a size, or none. -/
inductive ReceiveResult where
  | packet (size : UInt64)
  | eof
  | again
  | error

structure Encoder (ε : Type) where
  /-- No frame asks for what is left at the end. -/
  send : ε → Option (List UInt8) → ε × SendResult
  receive : ε → ε × ReceiveResult
  /-- How many packets there are to receive. -/
  output : ε → Nat

/-- `AVSampleFormat`, as far as it matters: the format of the context, or none. -/
inductive SampleFormat where
  | none
  | ofContext
deriving DecidableEq

-- AudioFfmpegEncoderPlugin

inductive Status where
  | ok
  | endOfStream
  | errorNotEnoughData
  | errorAgain
  | errorNoMemory
  | errorUnknown

inductive ErrorCode where
  | success
  | endOfStream
  | errorAgain
  | errorTimedOut
  | errorNoMemory
  | errorUnknown
deriving DecidableEq

def translatePluginStatus : Status → ErrorCode
  | .ok => .success
  | .endOfStream => .endOfStream
  | .errorNotEnoughData => .errorUnknown
  | .errorAgain => .errorAgain
  | .errorNoMemory => .errorNoMemory
  | .errorUnknown => .errorUnknown

/-- A buffer, as the filter and the plug-in look at it. -/
structure Buffer where
  memory : Option (List UInt8)
  eos : Bool

def Buffer.payload (b : Buffer) : List UInt8 := b.memory.getD []

structure Plugin (ε : Type) where
  context : ε
  fullInputFrameSize : UInt32
  accepted : List Buffer := []

/-- `Start`: the size of a frame, which `av_samples_get_buffer_size` gives for `srcFmt_`. That is
only set when the samples have to be converted. -/
def fullInputFrameSize (avSamplesGetBufferSize : SampleFormat → Int32) (needReformat : Bool) :
    UInt32 :=
  let srcFmt := if needReformat then .ofContext else .none
  (avSamplesGetBufferSize srcFmt).toUInt32

section Filter

variable {ε : Type} (E : Encoder ε)

namespace Plugin

def sendBuffer (p : Plugin ε) (b : Buffer) : Plugin ε × Status :=
  if b.eos = false ∧ b.payload.length ≠ p.fullInputFrameSize.toNat then (p, .errorNotEnoughData)
  else
    match E.send p.context (if b.eos then none else some b.payload) with
    | (context, .ok) => ({ p with context, accepted := p.accepted ++ [b] }, .ok)
    | (context, .eof) => ({ p with context }, .endOfStream)
    | (context, .again) => ({ p with context }, .errorAgain)
    | (context, .error) => ({ p with context }, .errorUnknown)

def queueOutputBuffer (p : Plugin ε) (capacity : UInt64) : Plugin ε × Status :=
  match E.receive p.context with
  | (context, .packet size) =>
    ({ p with context }, if size ≤ capacity then .ok else .errorNoMemory)
  | (context, .eof) => ({ p with context }, .endOfStream)
  | (context, .again) => ({ p with context }, .errorNotEnoughData)
  | (context, .error) => ({ p with context }, .errorUnknown)

end Plugin

-- AudioEncoderFilter

structure AudioEncoderFilter (ε : Type) where
  frameSize : UInt64
  rb : RingBuffer
  plugin : Plugin ε
  /-- The buffers that `HandleFrame` was called with, a retry aside. -/
  offered : List Buffer := []

def maxOutDecodedDataSizePerFrame : UInt64 := 20 * 1024

/-- `ConfigureToStartPluginLocked`, with what `CalculateBufferSize` gives. -/
def configure (calculated : UInt32) (plugin : Plugin ε) : AudioEncoderFilter ε :=
  let frameSize := if calculated = 0 then maxOutDecodedDataSizePerFrame else calculated.toUInt64
  { frameSize, rb := { bufferSize := frameSize * 10 }, plugin }

namespace AudioEncoderFilter

def handleFrame (f : AudioEncoderFilter ε) (b : Buffer) : AudioEncoderFilter ε × ErrorCode :=
  let (plugin, status) := f.plugin.sendBuffer E b
  ({ f with plugin }, translatePluginStatus status)

/-- The buffers of the pool have the size of a frame, and the pool grows when it is empty. -/
def finishFrame (f : AudioEncoderFilter ε) : AudioEncoderFilter ε × ErrorCode :=
  let (plugin, status) := f.plugin.queueOutputBuffer E f.frameSize
  ({ f with plugin }, translatePluginStatus status)

/-- The loop around `FinishFrame`, which ends with the packets at the latest. -/
def finishFrames (f : AudioEncoderFilter ε) : Nat → AudioEncoderFilter ε
  | 0 => f
  | fuel + 1 =>
    match f.finishFrame E with
    | (f, .success) => finishFrames f fuel
    | (f, _) => f

/-- The attempts at one frame, of which `tries` are left. -/
def attempt (f : AudioEncoderFilter ε) (b : Buffer) : Nat → AudioEncoderFilter ε
  | 0 => f
  | tries + 1 =>
    let (f, handleFrameRes) := f.handleFrame E b
    let f := f.finishFrames E (E.output f.plugin.context + 1)
    if handleFrameRes = .errorTimedOut ∨ handleFrameRes = .errorAgain then attempt f b tries
    else f

def maxRetryTimes : Nat := 3

/-- One frame that was read, or the end of the stream. -/
def offer (f : AudioEncoderFilter ε) (b : Buffer) : AudioEncoderFilter ε :=
  { f with offered := f.offered ++ [b] }.attempt E b maxRetryTimes

/-- The loop of `PushData`. There is no result when the steps do not suffice. -/
def drain (shouldDrainRb : Bool) :
    Nat → AudioEncoderFilter ε → Option (AudioEncoderFilter ε × ErrorCode)
  | 0, _ => none
  | steps + 1, f =>
    let available := f.rb.getSize
    if ¬ (f.frameSize ≤ available ∨ shouldDrainRb) then some (f, .success)
    else
      let encodeSize := min available f.frameSize
      if 0 < encodeSize then
        let (rb, bytes) := f.rb.readBuffer encodeSize
        if bytes.length ≠ encodeSize.toNat then some ({ f with rb }, .errorUnknown)
        else drain shouldDrainRb steps
          ({ f with rb }.offer E { memory := some bytes, eos := false })
      else
        -- the ring is drained, and no full frame is left in it
        some (f.offer E { memory := some [], eos := true }, .success)

def pushData (f : AudioEncoderFilter ε) (b : Buffer) :
    Option (AudioEncoderFilter ε × ErrorCode) :=
  let write := if 0 < b.payload.length then f.rb.writeBuffer b.payload else some (f.rb, true)
  write.bind fun (rb, _) =>
    { f with rb }.drain E b.eos (rb.getSize.toNat + 2)

def pushAll (f : AudioEncoderFilter ε) : List Buffer → Option (AudioEncoderFilter ε)
  | [] => some f
  | b :: bs => (f.pushData E b).bind fun r => pushAll r.1 bs

end AudioEncoderFilter

end Filter

end MediaFoundation.AudioEncoder
