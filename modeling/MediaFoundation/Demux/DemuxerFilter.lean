import MediaFoundation.Demux.DataPacker

/-!
# DemuxerFilter in pull mode

The view that `DemuxerFilter` gives a demuxer plugin of the source (`demuxer_filter.cpp`), and
`TypeFinder` a sniffer (`type_finder.cpp`). Ranges are read through the packer, and what it does
not hold is pulled from upstream.

Conventions:

* `pullData` is `PullData` of the in port: the code, and the buffer as it leaves it.
* A null `buffer` is `none`; for `DemuxerFilter::DataSourceImpl` so is one without memory.
* A call that waits on a condition variable of the packer keeps what it has done. In pull mode
  nobody else pushes or takes data, so it waits for ever.
* `AllocMemory` succeeds. `Stop`, and the other filters' use of the packer, are left out.
-/

namespace MediaFoundation.Demux

-- Codes and states

/-- `ErrorCode`, as `PullData` returns it. -/
inductive PullCode where
  | success
  | endOfStream
  | error (code : Int32)
deriving DecidableEq

inductive PluginStatus where
  | ok
  | endOfStream
  | errorUnknown
  | errorWrongState
  | errorInvalidParameter
  | errorNotEnoughData
deriving DecidableEq

inductive DemuxerState where
  | null
  | parseHeader
  | parseFrame
deriving DecidableEq

inductive Seekable where
  | invalid
  | unseekable
  | seekable
deriving DecidableEq

structure DemuxerFilter where
  dataPacker : DataPacker := {}
  pluginState : DemuxerState := .null
  seekable : Seekable := .invalid
  mediaDataSize : UInt64 := 0

abbrev PullData := UInt64 → UInt64 → Buffer → PullCode × Buffer

inductive ReadReply where
  | waits
  | returns (rtv : PluginStatus) (buffer : Option Buffer)

/-- `IsEmpty`, as it is written. -/
def DataPacker.isEmpty (p : DataPacker) : Bool := decide (0 < p.size)

-- ActivatePullMode

/-- `std::make_shared<AVBuffer>()`, then `AllocMemory`. -/
def allocMemory (size : UInt64) : Buffer where
  pts := 0
  dts := 0
  memory := ⟨size, 0, fun _ => 0, UInt64.zero_le⟩

/-- The result of `IsDataAvailable`, and what it leaves in `curOffset`. -/
def Reply.availability (curOffset : UInt64) : Reply → Bool × UInt64
  | .available result end? => (result, end?.getD curOffset)
  | _ => (false, curOffset)

section PullMode

variable (pullData : PullData)

/-- `checkRange_`; no result is a `PushData` that waits. -/
def DemuxerFilter.checkRange (p : DataPacker) (offset : UInt64) (size : UInt32) :
    DataPacker × Option Bool :=
  let r := p.isDataAvailable offset size
  let p := r.1
  let availability := r.2.availability offset
  if availability.1 then (p, some true)
  else
    let curOffset := availability.2
    match pullData curOffset size.toUInt64 (allocMemory size.toUInt64) with
    | (.success, bufferPtr) =>
      match p.pushData bufferPtr curOffset with
      | (p, .waits) => (p, none)
      | (p, _) => (p, some true)
    | (.endOfStream, _) =>
      let hasDataToRead := decide (offset < curOffset) && !p.isEmpty
      (if hasDataToRead then p.setEos else p.flush, some hasDataToRead)
    | (.error _, _) => (p, some false)

/-- `peekRange_` or `getRange_`, around the packer's own function. -/
def DemuxerFilter.throughCheck (read : DataPacker → UInt64 → UInt32 → Buffer → DataPacker × Reply)
    (p : DataPacker) (offset size : UInt64) (bufferPtr : Buffer) : DataPacker × Reply :=
  match checkRange pullData p offset size.toUInt32 with
  | (p, none) => (p, .waits)
  | (p, some false) => (p, .range false bufferPtr)
  | (p, some true) => read p offset size.toUInt32 bufferPtr

def DemuxerFilter.peekRange :
    DataPacker → UInt64 → UInt64 → Buffer → DataPacker × Reply :=
  throughCheck pullData DataPacker.peekRange

def DemuxerFilter.getRange :
    DataPacker → UInt64 → UInt64 → Buffer → DataPacker × Reply :=
  throughCheck pullData DataPacker.getRange

def Reply.toRead (failure : PluginStatus) : Reply → ReadReply
  | .range true out => .returns .ok (some out)
  | .range false out => .returns failure (some out)
  | _ => .waits

-- DataSourceImpl::ReadAt

def DemuxerFilter.isOffsetValid (f : DemuxerFilter) (offset : Int64) : Bool :=
  if f.seekable = .seekable then
    decide (f.mediaDataSize = 0) || decide (offset ≤ f.mediaDataSize.toInt64)
  else true

def DemuxerFilter.readAt (f : DemuxerFilter) (offset : Int64) (buffer : Option Buffer)
    (expectedLen : UInt64) : DemuxerFilter × ReadReply :=
  match buffer with
  | none => (f, .returns .errorUnknown none)
  | some bufferPtr =>
    if expectedLen = 0 ∨ !f.isOffsetValid offset then (f, .returns .errorUnknown buffer)
    else
      match f.pluginState with
      | .null => (f, .returns .errorWrongState buffer)
      | .parseHeader =>
        let r := getRange pullData f.dataPacker offset.toUInt64 expectedLen bufferPtr
        ({ f with dataPacker := r.1 }, r.2.toRead .errorNotEnoughData)
      | .parseFrame =>
        let r := getRange pullData f.dataPacker offset.toUInt64 expectedLen bufferPtr
        ({ f with dataPacker := r.1 }, r.2.toRead .endOfStream)

-- TypeFinder::ReadAt

def DemuxerFilter.typeFinderIsOffsetValid (mediaDataSize : UInt64) (offset : Int64) : Bool :=
  decide (mediaDataSize = 0) || decide (offset < mediaDataSize.toInt64)

def maxTryTimes : Nat := 3

/-- The loop around `checkRange_`, with `left` tries left, and `i` after it. -/
def DemuxerFilter.tryCheckRange (offset : UInt64) (size : UInt32) :
    Nat → DataPacker → DataPacker × Option Nat
  | left, p =>
    match checkRange pullData p offset size with
    | (p, none) => (p, none)
    | (p, some true) => (p, some (maxTryTimes - left))
    | (p, some false) =>
      match left with
      | 0 => (p, some (maxTryTimes + 1))
      | left + 1 => tryCheckRange offset size left p

def DemuxerFilter.typeFinderReadAt (f : DemuxerFilter) (offset : Int64) (buffer : Option Buffer)
    (expectedLen : UInt64) : DemuxerFilter × ReadReply :=
  match buffer with
  | none => (f, .returns .errorInvalidParameter none)
  | some bufferPtr =>
    if expectedLen = 0 ∨ !typeFinderIsOffsetValid f.mediaDataSize offset then
      (f, .returns .errorInvalidParameter buffer)
    else
      match tryCheckRange pullData offset.toUInt64 expectedLen.toUInt32 maxTryTimes
          f.dataPacker with
      | (p, none) => ({ f with dataPacker := p }, .waits)
      | (p, some i) =>
        if i = maxTryTimes then ({ f with dataPacker := p }, .returns .errorNotEnoughData buffer)
        else
          -- the result is only logged
          let r := peekRange pullData p offset.toUInt64 expectedLen bufferPtr
          ({ f with dataPacker := r.1 }, r.2.toRead .ok)

-- The calls

inductive SourceCall where
  | readAt (offset : Int64) (buffer : Option Buffer) (expectedLen : UInt64)
  | typeFinderReadAt (offset : Int64) (buffer : Option Buffer) (expectedLen : UInt64)
  | setPluginState (s : DemuxerState)

def DemuxerFilter.perform (f : DemuxerFilter) : SourceCall → DemuxerFilter × ReadReply
  | .readAt offset buffer expectedLen => f.readAt pullData offset buffer expectedLen
  | .typeFinderReadAt offset buffer expectedLen =>
    f.typeFinderReadAt pullData offset buffer expectedLen
  | .setPluginState s => ({ f with pluginState := s }, .returns .ok none)

def DemuxerFilter.transcript (f : DemuxerFilter) : List SourceCall → List (SourceCall × ReadReply)
  | [] => []
  | c :: cs =>
    match f.perform pullData c with
    | (_, .waits) => [(c, .waits)]
    | (f, r) => (c, r) :: f.transcript cs

def DemuxerFilter.step (f : DemuxerFilter) (c : SourceCall) : Option DemuxerFilter :=
  match f.perform pullData c with
  | (_, .waits) => none
  | (f, _) => some f

end PullMode

end MediaFoundation.Demux
