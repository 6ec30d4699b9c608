import Mathlib

/-!
# Minimp3DemuxerPlugin

`plugins/minimp3_adapter/minimp3_demuxer_plugin.cpp`: an MP3 file read through a window of 4 KiB,
in which an iterator looks for frames.

Conventions:

* A call is split where the window has been filled: `GetMediaInfo` and `ReadFrame` first get data,
  and then look at it. `GetMediaInfo` goes round as long as it needs more data.
* What `ReadAt` does and what the iterator finds are parts of the events.
* A move from beyond the end of the window has no result.
* The file is shorter than 2 ^ 63 bytes; positions in it are natural numbers.
* The media info is left out. A pts that is divided by a bit rate of zero, as before `GetMediaInfo`
  has succeeded, has no result.
* `calls` only records what the iterator was given since the last seek.
-/

namespace MediaFoundation.Minimp3

def mediaIoSize : Nat := 4 * 1024

def maxFrameSize : Nat := mediaIoSize
def audioDemuxerSourceOnceLengthMax : Nat := 1024
def id3DetectSize : Nat := 10
def mp3SeekDiscardItems : Nat := 2
def hstMsecond : Int := 1000 * 1000

inductive Status where
  | ok
  | endOfStream
  | errorUnknown
  | errorNotEnoughData
  | errorUnsupportedFormat
  | errorInvalidParameter
  /-- What a `ReadAt` that fails returns. -/
  | ofSource (code : Int32)
deriving DecidableEq

inductive Phase where
  | idle
  /-- `GetMediaInfo` goes round again. -/
  | looping
  /-- `GetMediaInfo` has got data. -/
  | preparing
  /-- `ReadFrame` has got data. -/
  | processing
deriving DecidableEq

/-- A frame that was delivered: where it is in the file, and its bytes. -/
structure Frame where
  start : Nat
  size : Nat
  data : List UInt8

def mp3Frame : List UInt8 := [0xff, 0xfb, 0x10, 0xc0] ++ List.replicate 100 0

structure Call where
  /-- `currentDemuxerPos_`, `ioDataRemainSize_` and `ioContext_.offset` before it. -/
  pos : Nat
  remain : Nat
  offset : Nat
  /-- How much of the window is skipped as an ID3v2 tag. -/
  tag : Nat
  bytes : List UInt8
  frame : Option Frame
  /-- `currentDemuxerPos_` when the caller has counted what was used. -/
  next : Nat

structure State where
  file : List UInt8
  inIoBuffer : List UInt8 := List.replicate mediaIoSize 0
  /-- A `uint32_t`. -/
  ioDataRemainSize : Nat := 0
  currentDemuxerPos : Nat := 0
  offset : Nat := 0
  usedInputLength : Nat := 0
  id3v2SkipFlag : Bool := false
  id3v2Offset : Nat := 0
  id3v2Size : Nat := 0
  bitRate : Nat := 0
  mp3SeekFlag : Bool := false
  discardItemCount : Nat := 0
  /-- Of the last output. -/
  pts : Nat := 0
  phase : Phase := .idle
  calls : List Call := []

-- The window

inductive ReadResult where
  | failed (code : Int32)
  | bytes (n : Nat)

def doReadFromSource (s : State) (readSize : Nat) :
    (retryTimes : Nat) → List ReadResult → Option (State × Status)
  | _, [] => none
  | _, .failed code :: _ => some (s, .ofSource code)
  | retryTimes, .bytes n :: rest =>
    if n = 0 ∧ retryTimes < 200 ∧ s.ioDataRemainSize = 0 then
      doReadFromSource s readSize (retryTimes + 1) rest
    else if 200 ≤ retryTimes then some (s, .errorNotEnoughData)
    else if n = 0 then some (s, .ok)
    else if readSize < n then some (s, .errorUnknown)
    else some ({ s with
      inIoBuffer := s.inIoBuffer.take s.ioDataRemainSize ++ (s.file.drop s.offset).take n ++
        s.inIoBuffer.drop (s.ioDataRemainSize + n)
      offset := s.offset + n
      ioDataRemainSize := s.ioDataRemainSize + n }, .ok)

/-- What is left of the window goes to its start, and the rest of it is cleared. -/
def moveWindow (s : State) : Option State :=
  if s.ioDataRemainSize = 0 then some s
  else if s.usedInputLength + s.ioDataRemainSize ≤ mediaIoSize then some { s with
    inIoBuffer := (s.inIoBuffer.drop s.usedInputLength).take s.ioDataRemainSize ++
      List.replicate (mediaIoSize - s.ioDataRemainSize) 0 }
  else none

/-- What happens outside while data is got. -/
structure Fetch where
  /-- `memset_s` of no bytes succeeds. -/
  memsetOk : Bool
  reads : List ReadResult

def getDataFromSource (s : State) (f : Fetch) : Option (State × Status) :=
  (moveWindow s).bind fun s =>
    let ioNeedReadSize := mediaIoSize - s.ioDataRemainSize
    if s.ioDataRemainSize ≠ 0 ∧ ioNeedReadSize = 0 ∧ f.memsetOk = false then
      some (s, .errorUnknown)
    else if s.file.length ≤ s.offset ∧ s.ioDataRemainSize = 0 then some (s, .endOfStream)
    else
      let ioNeedReadSize := if s.file.length < s.offset + ioNeedReadSize
        then s.file.length - s.offset else ioNeedReadSize
      if ioNeedReadSize = 0 then some (s, .ok)
      else doReadFromSource s ioNeedReadSize 0 f.reads

/-- `a -= b` for a `uint32_t` and a `uint64_t`. -/
def subtract (a b : Nat) : Nat := (2 ^ 32 + a - b % 2 ^ 32) % 2 ^ 32

def consume (s : State) (n : Nat) : State :=
  { s with
    ioDataRemainSize := subtract s.ioDataRemainSize n
    currentDemuxerPos := s.currentDemuxerPos + n }

def window (s : State) : List UInt8 := s.inIoBuffer.take s.ioDataRemainSize

/-- The iterator was given these bytes in the state `s`, and it is `t` now. -/
def record (s t : State) (tag : Nat) (bytes : List UInt8) (frame : Option Frame) : State :=
  { t with
    calls := t.calls ++ [⟨s.currentDemuxerPos, s.ioDataRemainSize, s.offset, tag, bytes, frame,
      t.currentDemuxerPos⟩] }

-- GetMediaInfo

def audioDemuxerMp3GetId3v2Size (buf : List UInt8) : Nat :=
  match buf with
  | b0 :: b1 :: b2 :: _ :: _ :: b5 :: b6 :: b7 :: b8 :: b9 :: _ =>
    if [b0, b1, b2] = [0x49, 0x44, 0x33] ∧ b5 &&& 15 = 0 ∧ b6 &&& 0x80 = 0 ∧ b7 &&& 0x80 = 0 ∧
        b8 &&& 0x80 = 0 ∧ b9 &&& 0x80 = 0 then
      let id3v2Size := (b6 &&& 0x7f).toNat * 2 ^ 21 + (b7 &&& 0x7f).toNat * 2 ^ 14 +
        (b8 &&& 0x7f).toNat * 2 ^ 7 + (b9 &&& 0x7f).toNat + 10
      if b5 &&& 16 ≠ 0 then id3v2Size + 10 else id3v2Size
    else 0
  | _ => 0

/-- What `AudioDemuxerMp3Probe` does about an ID3v2 tag. -/
inductive Tag where
  /-- Too little data to see whether there is one. -/
  | unknown
  /-- The whole window is part of it. -/
  | goesOn (left : Nat)
  | ends (length : Nat)
  | none

def Tag.endsHere : Tag → Bool
  | .ends _ => true
  | _ => false

def findTag (s : State) : Tag :=
  if s.id3v2SkipFlag then .none
  else if s.id3v2Offset = 0 ∧ s.ioDataRemainSize < id3DetectSize then .unknown
  else
    let id3v2Offset := if s.id3v2Offset = 0 then audioDemuxerMp3GetId3v2Size (window s)
      else s.id3v2Offset
    if id3v2Offset = 0 then .none
    else if id3v2Offset ≤ s.ioDataRemainSize then .ends id3v2Offset
    else .goesOn id3v2Offset

def foundSize (s : State) : Nat :=
  if s.id3v2SkipFlag = false ∧ s.id3v2Offset = 0 then audioDemuxerMp3GetId3v2Size (window s)
  else s.id3v2Size

/-- The end of a round in which the iterator was given what follows the tag. `found` is the bit
rate of a frame that the callback accepts. -/
def afterProbe (s t : State) (tag : Nat) (found : Option Nat) : State × Option Status :=
  match found with
  | some bitRate =>
    (record s { consume t t.usedInputLength with bitRate } tag ((window s).drop tag) none, some .ok)
  | none =>
    if t.id3v2SkipFlag then
      (record s (consume t t.usedInputLength) tag ((window s).drop tag) none, none)
    else (record s t tag ((window s).drop tag) none, some .errorUnsupportedFormat)

/-- A round of `GetMediaInfo` with the window filled. There is another one if there is no status. -/
def prepare (s : State) (found : Option Nat) : State × Option Status :=
  if s.ioDataRemainSize = 0 then (consume s s.usedInputLength, none)
  else match findTag s with
    | .unknown => (consume { s with usedInputLength := 0 } 0, none)
    | .goesOn left =>
      (consume { s with
        usedInputLength := s.ioDataRemainSize
        id3v2Size := foundSize s
        id3v2Offset := left - s.ioDataRemainSize } s.ioDataRemainSize, none)
    | .ends length =>
      afterProbe s { s with
        usedInputLength := length
        id3v2SkipFlag := true
        id3v2Size := foundSize s
        id3v2Offset := 0 } length found
    | .none => afterProbe s { s with id3v2Size := foundSize s } 0 found

-- ReadFrame

/-- The bytes without the zeros at their end. -/
def audioDemuxerMp3IgnoreTailZero (data : List UInt8) : List UInt8 :=
  data.rdropWhile (· = 0)

/-- What a call of the iterator leaves in `mp3DemuxerRst_`, none where the callback fails. -/
structure Result where
  usedInputLength : Nat := 0
  frameLength : Nat := 0
  frameBuffer : List UInt8 := []

/-- `AudioDemuxerMp3IterateCallback` for a frame in the bytes that the iterator was given. -/
def iterateCallback (bytes : List UInt8) (offset frameSize : Nat) : Option Result :=
  if frameSize = 0 then some {}
  else if maxFrameSize ≤ frameSize then none
  else some {
    usedInputLength := if offset + frameSize ≤ bytes.length then offset + frameSize
      else if offset ≤ bytes.length then offset else 0
    frameLength := frameSize
    frameBuffer := (bytes.drop offset).take frameSize }

/-- The frames right after a seek are cleared. -/
def discard (s : State) (r : Result) : State × Result :=
  if s.mp3SeekFlag ∧ s.discardItemCount < mp3SeekDiscardItems then
    ({ s with discardItemCount := s.discardItemCount + 1 },
      { r with frameBuffer := List.replicate r.frameLength 0 })
  else ({ s with
    discardItemCount := 0
    mp3SeekFlag := false }, r)

def getCurrentPositionTimeS (s : State) : Nat :=
  (2 ^ 64 + s.currentDemuxerPos - s.id3v2Size) % 2 ^ 64 * 8 * hstMsecond.toNat % 2 ^ 64 / s.bitRate

/-- What `WriteMp3Data` takes off the window. -/
def useInput (s : State) (r : Result) : State :=
  if r.frameLength ≠ 0 then consume s r.usedInputLength
  else if r.usedInputLength = 0 then
    if audioDemuxerSourceOnceLengthMax < s.ioDataRemainSize then
      consume s audioDemuxerSourceOnceLengthMax
    else consume s s.ioDataRemainSize
  else consume s r.usedInputLength

def writeMp3Data (s : State) (r : Result) : Option State :=
  let s := useInput s r
  if s.bitRate = 0 then none else some { s with pts := getCurrentPositionTimeS s }

/-- `ReadFrame` with the window filled. `found` is where the iterator finds a frame in what it is
given, and its size. -/
def process (s : State) (found : Option (Nat × Nat)) : Option (State × Status) :=
  if s.ioDataRemainSize = 0 then some (consume s s.usedInputLength, .ok)
  else
    let bytes := audioDemuxerMp3IgnoreTailZero (window s)
    match found with
    | none =>
      let (t, r) := discard { s with usedInputLength := 0 } {}
      (writeMp3Data t r).map fun t => (record s t 0 bytes none, .ok)
    | some (offset, frameSize) =>
      if offset + frameSize ≤ bytes.length then
        match iterateCallback bytes offset frameSize with
        | none =>
          let (t, _) := discard { s with usedInputLength := 0 } {}
          some (record s t 0 bytes none, .errorUnknown)
        | some result =>
          let (t, r) := discard { s with usedInputLength := result.usedInputLength } result
          let frame := if r.frameLength = 0 then none
            else some ⟨s.currentDemuxerPos + offset, r.frameLength, r.frameBuffer⟩
          (writeMp3Data t r).map fun t => (record s t 0 bytes frame, .ok)
      else none

-- SeekTo

/-- `AudioDemuxerMp3GetSeekPosition`, none if the position is beyond the end. -/
def audioDemuxerMp3GetSeekPosition (s : State) (targetTimeMs : Nat) : Option Nat :=
  let targetPos := (targetTimeMs * s.bitRate % 2 ^ 32 / 8 + s.id3v2Size) % 2 ^ 32
  if s.file.length % 2 ^ 32 < targetPos then none else some targetPos

def seekTo (s : State) (seekTime : Int) : State × Status :=
  let targetTimeMs := (seekTime.tdiv hstMsecond % 2 ^ 32).toNat
  match audioDemuxerMp3GetSeekPosition s targetTimeMs with
  | none => (s, .errorInvalidParameter)
  | some pos => ({ s with
      offset := pos
      ioDataRemainSize := 0
      currentDemuxerPos := pos
      inIoBuffer := List.replicate mediaIoSize 0
      mp3SeekFlag := true
      calls := [] }, .ok)

def targetTimeMs (seekTime : Int) : Nat := (seekTime.tdiv hstMsecond % 2 ^ 32).toNat

theorem seekTo_none {s : State} {seekTime : Int}
    (h : audioDemuxerMp3GetSeekPosition s (targetTimeMs seekTime) = none) :
    seekTo s seekTime = (s, .errorInvalidParameter) := by
  delta seekTo targetTimeMs at *
  simp only [h]

theorem seekTo_some {s : State} {seekTime : Int} {pos : Nat}
    (h : audioDemuxerMp3GetSeekPosition s (targetTimeMs seekTime) = some pos) :
    seekTo s seekTime = ({ s with
      offset := pos
      ioDataRemainSize := 0
      currentDemuxerPos := pos
      inIoBuffer := List.replicate mediaIoSize 0
      mp3SeekFlag := true
      calls := [] }, .ok) := by
  delta seekTo targetTimeMs at *
  simp only [h]

-- Calls in any order

inductive Event where
  /-- `GetMediaInfo`, or another round of it. -/
  | getMediaInfo (f : Fetch)
  | prepare (found : Option Nat)
  | readFrame (f : Fetch)
  | process (found : Option (Nat × Nat))
  | seekTo (seekTime : Int)

/-- The caller goes on if it has got data. -/
def fetch (s : State) (f : Fetch) (phase : Phase) : Option State :=
  (getDataFromSource s f).map fun (t, status) =>
    { t with phase := if status = .ok then phase else .idle }

def step (s : State) : Event → Option State
  | .getMediaInfo f =>
    if s.phase = .idle ∨ s.phase = .looping then fetch s f .preparing else none
  | .prepare found =>
    if s.phase = .preparing then
      let (t, status) := prepare s found
      some { t with phase := if status.isNone then .looping else .idle }
    else none
  | .readFrame f => if s.phase = .idle then fetch s f .processing else none
  | .process found =>
    if s.phase = .processing then
      (process s found).map fun (t, _) => { t with phase := .idle }
    else none
  | .seekTo seekTime => if s.phase = .idle then some (seekTo s seekTime).1 else none

end MediaFoundation.Minimp3
