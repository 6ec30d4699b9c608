import Mathlib

/-!
# AACDemuxerPlugin

`aac_demuxer_plugin.cpp`: the window of 2048 bytes through which ADTS frames are
cut out of a file.

Conventions:

* An access outside the buffer is undefined: the whole computation is `none`.
  Allocation and the checked copies succeed.
* `ReadAt` answers with `END_OF_STREAM` from the end of the file on, and before it
  with some of the bytes asked for; `pieces n` bounds its `n`-th answer in a call.
* Output buffers are fresh, so that a buffer is the frame written into it.
* What `GetMediaInfo` puts into the track besides its status is left out.
-/

namespace MediaFoundation.AacDemuxer

def mediaIoSize : Nat := 2048

inductive Status where
  | ok
  | endOfStream
  | errorNotEnoughData
  | errorUnsupportedFormat
  | errorUnknown
deriving DecidableEq

-- Memory

def load (buffer : List UInt8) (i len : Nat) : Option (List UInt8) :=
  if i + len ≤ buffer.length then some ((buffer.drop i).take len) else none

def store (buffer : List UInt8) (i : Nat) (bytes : List UInt8) : Option (List UInt8) :=
  if i + bytes.length ≤ buffer.length then
    some (buffer.take i ++ bytes ++ buffer.drop (i + bytes.length))
  else none

-- Frames

def isAACPattern (buffer : List UInt8) (i : Nat) : Option Bool :=
  buffer[i]?.bind fun b0 =>
    if b0 = 0xff then
      buffer[i + 1]?.map fun b1 => b1 &&& 0xf0 = 0xf0 ∧ b1 &&& 0x06 = 0x00
    else some false

def getFrameLength (buffer : List UInt8) : Option Nat :=
  buffer[3]?.bind fun b3 => buffer[4]?.bind fun b4 => buffer[5]?.map fun b5 =>
    (b3.toNat &&& 0x03) <<< 11 ||| b4.toNat <<< 3 ||| (b5.toNat &&& 0xE0) >>> 5

structure AACDemuxerRst where
  usedInputLength : Nat
  frameBuffer : List UInt8

/-- `some none` is the return value -1. -/
def audioDemuxerAACProcess (buffer : List UInt8) (bufferLen : Nat) :
    Option (Option AACDemuxerRst) :=
  (isAACPattern buffer 0).bind fun found =>
    if !found then some (some ⟨1, []⟩)
    else
      (getFrameLength buffer).bind fun length =>
        if bufferLen < length + 2 then some (some ⟨bufferLen, []⟩)
        else if length = 0 then some none
        else
          (isAACPattern buffer length).bind fun next =>
            if next then (load buffer 0 length).map fun frame => some ⟨length, frame⟩
            else some (some ⟨1, []⟩)

def samplingRates : Nat := 13

def audioDemuxerAACPrepare (buf : List UInt8) : Option Bool :=
  (isAACPattern buf 0).bind fun found =>
    if found then
      buf[2]?.map fun b2 => ((b2.toNat &&& 0x3C) >>> 2 : Nat) < samplingRates
    else some false

-- The plugin

structure AACDemuxerPlugin where
  file : List UInt8
  ioOffset : Nat := 0
  eos : Bool := false
  inIoBuffer : List UInt8 := List.replicate mediaIoSize 0
  ioDataRemainSize : Nat := 0

def readAt (file : List UInt8) (offset readSize piece : Nat) : Status × List UInt8 :=
  if file.length ≤ offset then (.endOfStream, [])
  else (.ok, (file.drop offset).take (min readSize piece))

namespace AACDemuxerPlugin

def fileSize (p : AACDemuxerPlugin) : Nat := p.file.length

def isSeekable (p : AACDemuxerPlugin) : Bool := 0 < p.fileSize

/-- The bytes of one answer behind those that remain. -/
def receive (p : AACDemuxerPlugin) (bytes : List UInt8) : Option AACDemuxerPlugin :=
  if bytes.length = 0 then some p
  else
    (store p.inIoBuffer p.ioDataRemainSize bytes).map fun inIoBuffer =>
      { p with
        inIoBuffer
        ioOffset := if p.isSeekable then p.ioOffset + bytes.length else p.ioOffset
        ioDataRemainSize := p.ioDataRemainSize + bytes.length }

def readLoop (pieces : Nat → Nat) (readSize : Nat) :
    Nat → AACDemuxerPlugin → Option (Status × AACDemuxerPlugin)
  | left, p =>
    let answer := readAt p.file (if p.isSeekable then p.ioOffset else 0) readSize (pieces (200 - left))
    if answer.1 ≠ .ok then some (answer.1, p)
    else
      (p.receive answer.2).bind fun p =>
        match left with
        | 0 => some (.errorNotEnoughData, p)
        | left + 1 =>
          if answer.2.length = 0 ∧ p.ioDataRemainSize = 0 then readLoop pieces readSize left p
          else some (.ok, p)

def doReadFromSource (pieces : Nat → Nat) (readSize : Nat) (p : AACDemuxerPlugin) :
    Option (Status × AACDemuxerPlugin) :=
  if readSize = 0 then some (.ok, p) else readLoop pieces readSize 200 p

def moveRemain (usedDataSize : Nat) (p : AACDemuxerPlugin) : Option AACDemuxerPlugin :=
  if p.ioDataRemainSize = 0 then some p
  else
    (load p.inIoBuffer usedDataSize p.ioDataRemainSize).bind fun bytes =>
      (store p.inIoBuffer 0 bytes).bind fun inIoBuffer =>
        (store inIoBuffer p.ioDataRemainSize
            (List.replicate (mediaIoSize - p.ioDataRemainSize) 0)).map fun inIoBuffer =>
          { p with inIoBuffer }

def getDataFromSource (usedDataSize : Nat) (pieces : Nat → Nat) (p : AACDemuxerPlugin) :
    Option (Status × AACDemuxerPlugin) :=
  let ioNeedReadSize := mediaIoSize - p.ioDataRemainSize
  (moveRemain usedDataSize p).bind fun p =>
    if p.isSeekable then
      if p.fileSize ≤ p.ioOffset ∧ p.ioDataRemainSize = 0 then
        some (.endOfStream, { p with eos := true, ioOffset := 0 })
      else
        doReadFromSource pieces
          (if p.fileSize < p.ioOffset + ioNeedReadSize then p.fileSize - p.ioOffset
            else ioNeedReadSize) p
    else doReadFromSource pieces ioNeedReadSize p

def getMediaInfo (usedDataSize : Nat) (pieces : Nat → Nat) (p : AACDemuxerPlugin) :
    Option (Status × AACDemuxerPlugin) :=
  (getDataFromSource usedDataSize pieces p).bind fun x =>
    if x.1 ≠ .ok then some x
    else
      (audioDemuxerAACPrepare x.2.inIoBuffer).map fun found =>
        (if found then .ok else .errorUnsupportedFormat, x.2)

end AACDemuxerPlugin

structure Reading where
  status : Status
  outBuffer : List UInt8
  usedDataSize : Nat
  plugin : AACDemuxerPlugin

def AACDemuxerPlugin.readFrame (usedDataSize : Nat) (pieces : Nat → Nat) (p : AACDemuxerPlugin) :
    Option Reading :=
  (p.getDataFromSource usedDataSize pieces).bind fun x =>
    if x.1 ≠ .ok then some ⟨x.1, [], usedDataSize, x.2⟩
    else
      (audioDemuxerAACProcess x.2.inIoBuffer x.2.ioDataRemainSize).map fun
        | some rst =>
          ⟨.ok, rst.frameBuffer, rst.usedInputLength,
            { x.2 with ioDataRemainSize := x.2.ioDataRemainSize - rst.usedInputLength }⟩
        | none => ⟨.errorUnknown, [], usedDataSize, x.2⟩

-- Several plugins

/-- What `ReadFrame` has delivered since the plugin was opened, until `END_OF_STREAM`. -/
structure Log where
  delivered : List (List UInt8) := []
  ended : Bool := false
deriving DecidableEq

def Log.record (log : Log) (status : Status) (outBuffer : List UInt8) : Log :=
  if log.ended then log
  else
    { delivered := if outBuffer = [] then log.delivered else log.delivered ++ [outBuffer]
      ended := status = .endOfStream }

/-- The plugins share `usedDataSize_`. -/
structure System (ι : Type) where
  usedDataSize : Nat := 0
  plugins : ι → AACDemuxerPlugin := fun _ => { file := [] }
  logs : ι → Log := fun _ => {}

/-- A plugin is opened for a file by `Init` or `Reset` and then `SetDataSource`. -/
inductive Event (ι : Type) where
  | open (id : ι) (file : List UInt8)
  | getMediaInfo (id : ι) (pieces : Nat → Nat)
  | readFrame (id : ι) (pieces : Nat → Nat)

variable {ι : Type} [DecidableEq ι]

def step (s : System ι) : Event ι → Option (System ι)
  | .open id file =>
    some { s with
      plugins := Function.update s.plugins id { file }
      logs := Function.update s.logs id {} }
  | .getMediaInfo id pieces =>
    ((s.plugins id).getMediaInfo s.usedDataSize pieces).map fun x =>
      { s with
        plugins := Function.update s.plugins id x.2
        logs := Function.update s.logs id ((s.logs id).record x.1 []) }
  | .readFrame id pieces =>
    ((s.plugins id).readFrame s.usedDataSize pieces).map fun r =>
      { usedDataSize := r.usedDataSize
        plugins := Function.update s.plugins id r.plugin
        logs := Function.update s.logs id ((s.logs id).record r.status r.outBuffer) }

end MediaFoundation.AacDemuxer
