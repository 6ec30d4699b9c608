import MediaFoundation.Demux.AacFrames
import MediaFoundation.Lib.Slices

/-!
# MiniMP4DemuxerPlugin

`minimp4_demuxer_plugin.cpp`: the window of 16384 bytes through which the parser reads a file where
it likes, and through which the samples are read one after the other.

Conventions:

* An access outside the buffer is undefined, and so is a loop that has not ended: no result.
* The data source answers with the requested bytes that exist. Positions and sizes are numbers; a
  file ends below the places where they would wrap.
* The parser is a parameter: its track, and the place and the size that it gives to each sample.
* `ReadCallback` has no object of its own; what it sets is set in the plugin that it is called for.
-/

namespace MediaFoundation.Minimp4Demuxer

open AacDemuxer (load store getFrameLength)
open Slices

def mediaIoSize : Nat := 16 * 1024

def adtsHeaderSize : Nat := 7

inductive Status where
  | ok
  | endOfStream
  | errorNotEnoughData
  | errorUnknown
deriving DecidableEq

-- The file

/-- What the header of a frame takes from the track. -/
structure Track where
  channelcount : UInt32
  objectTypeIndication : UInt8
  dsi0 : UInt8
  dsi1 : UInt8
  sampleCount : Nat

structure Media where
  file : List UInt8
  track : Track
  /-- `MP4D_frame_offset`: where a sample is, and its size. -/
  frameOffset : Nat → Nat × Nat

def Media.fileSize (m : Media) : Nat := m.file.length

def Media.sample (m : Media) (i : Nat) : List UInt8 :=
  slice m.file (m.frameOffset i).1 (m.frameOffset i).2

-- The memory of a buffer

structure Memory where
  bytes : List UInt8
  size : Nat := 0

namespace Memory

def alloc (capacity : Nat) : Memory := { bytes := List.replicate capacity 0 }

/-- `Write`, at a position; a checked copy of nothing fails. -/
def write (m : Memory) (bytes : List UInt8) (position : Nat) : Memory :=
  let start := min position m.bytes.length
  let length := min bytes.length (m.bytes.length - start)
  if length = 0 then m
  else { bytes := Slices.write m.bytes start (bytes.take length), size := start + length }

def content (m : Memory) : List UInt8 := m.bytes.take m.size

end Memory

-- The plugin

structure MiniMP4DemuxerPlugin where
  offset : Nat := 0
  inIoBuffer_ : List UInt8 := List.replicate mediaIoSize 0
  ioDataRemainSize_ : Nat := 0
  sampleIndex_ : Nat := 0
  readDataSize_ : Nat := 0

namespace MiniMP4DemuxerPlugin

variable (m : Media) (p : MiniMP4DemuxerPlugin)

/-- `DoReadFromSource`. Where nothing is there, two hundred retries do not change it. -/
def doReadFromSource (readSize : Nat) : Option (Status × MiniMP4DemuxerPlugin) :=
  if readSize = 0 then some (.ok, p)
  else
    let bytes := slice m.file p.offset readSize
    if bytes.length = 0 then
      if p.ioDataRemainSize_ = 0 then some (.errorNotEnoughData, p) else some (.ok, p)
    else
      (store p.inIoBuffer_ p.ioDataRemainSize_ bytes).map fun inIoBuffer_ =>
        (.ok, { p with
          inIoBuffer_
          offset := p.offset + bytes.length
          ioDataRemainSize_ := p.ioDataRemainSize_ + bytes.length })

/-- The remaining data are moved to the front, and zeros are put behind them; the checked
`memset_s` refuses to set nothing. -/
def moveRemain : Option (Status × MiniMP4DemuxerPlugin) :=
  if p.ioDataRemainSize_ = 0 then some (.ok, p)
  else
    (load p.inIoBuffer_ p.readDataSize_ p.ioDataRemainSize_).bind fun data =>
      (store p.inIoBuffer_ 0 data).bind fun inIoBuffer_ =>
        let ioNeedReadSize := mediaIoSize - p.ioDataRemainSize_
        if ioNeedReadSize = 0 then some (.errorUnknown, { p with inIoBuffer_ })
        else
          (store inIoBuffer_ p.ioDataRemainSize_ (List.replicate ioNeedReadSize 0)).map
            fun inIoBuffer_ => (.ok, { p with inIoBuffer_ })

def getDataFromSource : Option (Status × MiniMP4DemuxerPlugin) :=
  let ioNeedReadSize := mediaIoSize - p.ioDataRemainSize_
  p.moveRemain.bind fun (status, p) =>
    if status ≠ .ok then some (status, p)
    else if m.fileSize ≤ p.offset ∧ p.ioDataRemainSize_ = 0 then some (.endOfStream, p)
    else if m.fileSize < p.offset + ioNeedReadSize then
      p.doReadFromSource m (m.fileSize - p.offset)
    else p.doReadFromSource m ioNeedReadSize

-- ReadCallback

/-- What `ReadCallback` returns: `-1`, the number of a status, or zero with the bytes it has put in
the buffer. -/
inductive Reply where
  | refused
  | failed (status : Status)
  | bytes (bytes : List UInt8)

/-- The loop that loads the window until it reaches far enough, in so many rounds; no status if it
does. -/
def loadWindow (offset size : Nat) :
    Nat → MiniMP4DemuxerPlugin → Option (Option Status × MiniMP4DemuxerPlugin)
  | 0, _ => none
  | fuel + 1, p =>
    if p.offset < offset + size then
      (getDataFromSource m
        { p with ioDataRemainSize_ := 0, offset, readDataSize_ := mediaIoSize }).bind
        fun (status, p) =>
          if status = .ok then loadWindow offset size fuel p else some (some status, p)
    else some (none, p)

def readCallback (fuel offset size : Nat) : Option (Reply × MiniMP4DemuxerPlugin) :=
  -- the file's size as an `unsigned int`
  let tempFileSize := m.fileSize % 2 ^ 32
  if tempFileSize ≤ offset then some (.refused, p)
  else if offset + size ≤ p.offset ∧ p.offset ≤ offset + p.ioDataRemainSize_ then
    (load p.inIoBuffer_ (p.ioDataRemainSize_ - (p.offset - offset)) size).map fun bytes =>
      (.bytes bytes, p)
  else
    (loadWindow m offset size fuel p).bind fun
      | (some status, p) => some (.failed status, p)
      | (none, p) => (load p.inIoBuffer_ 0 size).map fun bytes => (.bytes bytes, p)

-- ReadFrame

def adtsHeader (track : Track) (frameSize : Nat) : List UInt8 :=
  let channelConfig := track.channelcount.toNat
  let packetLen := (frameSize + 7) % 2 ^ 32
  let samplerateIndex := ((track.dsi0.toNat &&& 0x7) <<< 1) + (track.dsi1.toNat >>> 7)
  [0xFF, 0xF1,
    .ofNat (track.objectTypeIndication.toNat + (samplerateIndex <<< 2) + (channelConfig >>> 2)),
    .ofNat (((channelConfig &&& 0x3) <<< 6) + (packetLen >>> 11)),
    .ofNat ((packetLen &&& 0x7FF) >>> 3),
    .ofNat (((packetLen &&& 0x7) <<< 5) + 0x1F),
    0xFC]

def readFrame (out : Option Memory) :
    Option (Status × Option Memory × MiniMP4DemuxerPlugin) :=
  if m.track.sampleCount ≤ p.sampleIndex_ then
    some (.endOfStream, out,
      { p with inIoBuffer_ := List.replicate mediaIoSize 0, ioDataRemainSize_ := 0 })
  else
    let (offset, frameSize) := m.frameOffset p.sampleIndex_
    if m.fileSize < offset ∨ m.fileSize < offset + frameSize then some (.errorUnknown, out, p)
    else
      let mp4FrameData := out.getD (.alloc ((frameSize + adtsHeaderSize) % 2 ^ 32))
      let p :=
        if p.offset < offset then
          { p with inIoBuffer_ := List.replicate mediaIoSize 0, ioDataRemainSize_ := 0, offset }
        else p
      (getDataFromSource m p).bind fun (status, p) =>
        if status ≠ .ok then some (status, some mp4FrameData, p)
        else if p.ioDataRemainSize_ < frameSize then some (.errorUnknown, some mp4FrameData, p)
        else
          (load p.inIoBuffer_ 0 frameSize).map fun frame =>
            let mp4FrameData := mp4FrameData.write (adtsHeader m.track frameSize) 0
            (.ok, some (mp4FrameData.write frame adtsHeaderSize),
              { p with
                sampleIndex_ := p.sampleIndex_ + 1
                ioDataRemainSize_ := p.ioDataRemainSize_ - frameSize
                readDataSize_ := frameSize })

/-- What `GetMediaInfo` does after the parser: it goes to the first sample. -/
def goToFirst : MiniMP4DemuxerPlugin :=
  { p with ioDataRemainSize_ := 0, offset := (m.frameOffset 0).1 }

end MiniMP4DemuxerPlugin

-- Runs

inductive Event where
  | readCallback (offset size : Nat)
  | goToFirst
  | readFrame (out : Option Memory)

structure System where
  plugin : MiniMP4DemuxerPlugin := {}
  /-- The requests that were answered with zero, with the bytes. -/
  answers : List (Nat × Nat × List UInt8) := []
  /-- What the calls of `ReadFrame` that succeeded have left in their buffers. -/
  frames : List (List UInt8) := []

def step (m : Media) (fuel : Nat) (s : System) : Event → Option System
  | .readCallback offset size =>
    (s.plugin.readCallback m fuel offset size).map fun
      | (.bytes bytes, plugin) => { s with plugin, answers := s.answers ++ [(offset, size, bytes)] }
      | (_, plugin) => { s with plugin }
  | .goToFirst => some { s with plugin := s.plugin.goToFirst m }
  | .readFrame out =>
    (s.plugin.readFrame m out).map fun
      | (.ok, some memory, plugin) => { s with plugin, frames := s.frames ++ [memory.content] }
      | (_, _, plugin) => { s with plugin }

end MediaFoundation.Minimp4Demuxer
