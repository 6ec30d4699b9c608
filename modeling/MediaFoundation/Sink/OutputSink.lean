import MediaFoundation.Lib.Runs

/-!
# How a recording reaches its file

The muxing library writes through two callbacks, `IoWrite` and `IoSeek`
(`ffmpeg_muxer_plugin.cpp`). A block goes from there through
`MuxerFilter::MuxerDataSink` and the port to `OutputSinkFilter::PushData`, and
from that through `FileFdSinkPlugin` into a file descriptor.

Conventions:

* `int64_t` positions are `Int`, wrapped where the source adds to them. The
  sums of two signed positions that overflow are undefined, and no callback
  that is considered makes one.
* What the system answers is part of a callback: whether memory could be had,
  whether `lseek` succeeds, and what `write` returns. A `write` never takes
  more than it is given, or past the last file position.
* The descriptor counts the calls that failed or were short, and the largest
  position that was written, for the statements about it.
* The descriptor is valid, and seekable as the plugin always reports.
-/

namespace MediaFoundation.Sink

/-- A value of type `int64_t`. -/
def wrap64 (n : Int) : Int := n.bmod (2 ^ 64)

-- The file

/-- The file with `bytes` at `pos`. A gap before them is filled with zeros. -/
def writeAt (file : List UInt8) (pos : Nat) (bytes : List UInt8) : List UInt8 :=
  file.take pos ++ List.replicate (pos - file.length) 0 ++ bytes ++
    file.drop (pos + bytes.length)

structure Descriptor where
  file : List UInt8
  pos : Nat
  /-- The largest position written so far. -/
  top : Nat := 0
  /-- How many calls failed or were short. -/
  faults : Nat := 0

def maxFileSize : Nat := 2 ^ 63 - 1

namespace Descriptor

/-- `lseek` to a position that is a position of a file. -/
def lseek (fd : Descriptor) (succeeds : Bool) (offset : Nat) : Descriptor × Bool :=
  if succeeds then ({ fd with pos := offset }, true)
  else ({ fd with faults := fd.faults + 1 }, false)

/-- The bytes of a `write` that reach the file; no result is a failure. -/
def taken (fd : Descriptor) (result : Option Nat) (bytes : List UInt8) : List UInt8 :=
  bytes.take (min (result.getD 0) (maxFileSize - fd.pos))

def write (fd : Descriptor) (result : Option Nat) (bytes : List UInt8) : Descriptor :=
  let done := fd.taken result bytes
  { file := if done.isEmpty then fd.file else writeAt fd.file fd.pos done
    pos := fd.pos + done.length
    top := if done.isEmpty then fd.top else max fd.top (fd.pos + done.length)
    faults := if done.length = bytes.length then fd.faults else fd.faults + 1 }

end Descriptor

-- FileFdSinkPlugin

inductive Status where
  | ok
  | errorUnknown

inductive ErrorCode where
  | success
  | errorInvalidOperation
  | errorUnknown
deriving DecidableEq

def translatePluginStatus : Status → ErrorCode
  | .ok => .success
  | .errorUnknown => .errorUnknown

structure Buffer where
  memory : Option (List UInt8)
  eos : Bool

/-- What the system answers while a block is written. -/
structure Results where
  memory : Bool
  lseek : Bool
  write : Option Nat

def seekTo (fd : Descriptor) (succeeds : Bool) (offset : Int) : Descriptor × Status :=
  match fd.lseek succeeds offset.toNat with
  | (fd, true) => (fd, .ok)
  | (fd, false) => (fd, .errorUnknown)

/-- `FileFdSinkPlugin::Write`. What `write` returns is dropped. -/
def write (fd : Descriptor) (result : Option Nat) (buffer : Buffer) : Descriptor × Status :=
  match buffer.memory with
  | none => (fd, .ok)
  | some bytes => (fd.write result bytes, .ok)

-- OutputSinkFilter

structure OutputSinkFilter where
  fd : Descriptor
  currentPos : Int := 0
  bufferEos : Bool := false

namespace OutputSinkFilter

/-- The part of `PushData` after the seek. -/
def pushMemory (f : OutputSinkFilter) (r : Results) (buffer : Buffer) :
    OutputSinkFilter × ErrorCode :=
  match buffer.memory with
  | none => ({ f with bufferEos := f.bufferEos || buffer.eos }, .success)
  | some bytes =>
    let (fd, status) := write f.fd r.write buffer
    let ret := translatePluginStatus status
    if ret ≠ .success then ({ f with fd }, ret)
    else
      ({ fd
         currentPos := wrap64 (f.currentPos + bytes.length)
         bufferEos := f.bufferEos || buffer.eos }, ret)

def pushData (f : OutputSinkFilter) (r : Results) (buffer : Buffer) (offset : Int) :
    OutputSinkFilter × ErrorCode :=
  if 0 ≤ offset ∧ offset ≠ f.currentPos then
    let (fd, status) := seekTo f.fd r.lseek offset
    if translatePluginStatus status ≠ .success then ({ f with fd }, .errorInvalidOperation)
    else { f with fd, currentPos := offset }.pushMemory r buffer
  else f.pushMemory r buffer

end OutputSinkFilter

-- The callbacks

/-- The muxing side and the sink it writes to: `IOContext`, whose data sink is set. -/
structure Recorder where
  pos : Int := 0
  end_ : Int := 0
  sink : OutputSinkFilter

inductive Whence where
  | seekSet
  | seekCur
  | seekEnd
  | avseekSize
  | unexpected
deriving DecidableEq

inductive Callback where
  | ioWrite (buf : List UInt8) (r : Results)
  | ioSeek (offset : Int) (whence : Whence)

namespace Recorder

/-- `MuxerDataSink::WriteAt`. The port drops the error of `PushData`. -/
def writeAt (s : Recorder) (r : Results) (offset : Int) (buffer : Buffer) : Recorder × Status :=
  ({ s with sink := (s.sink.pushData r buffer offset).1 }, .ok)

def ioWrite (s : Recorder) (buf : List UInt8) (r : Results) : Recorder × Int :=
  if ¬ r.memory then (s, -1)
  else
    match s.writeAt r s.pos { memory := some buf, eos := false } with
    | (s, .ok) =>
      let pos := wrap64 (s.pos + buf.length)
      ({ s with pos, end_ := if s.end_ < pos then pos else s.end_ }, buf.length)
    | (s, .errorUnknown) => (s, 0)

def ioSeek (s : Recorder) (offset : Int) : Whence → Recorder × Int
  | .seekSet => ({ s with pos := offset }, offset)
  | .seekCur => ({ s with pos := wrap64 (s.pos + offset) }, wrap64 (s.pos + offset))
  | .seekEnd => ({ s with pos := wrap64 (s.end_ + offset) }, wrap64 (s.end_ + offset))
  | .avseekSize => (s, wrap64 (s.end_ + offset))
  | .unexpected => ({ s with pos := 0 }, 0)

def perform (s : Recorder) : Callback → Recorder × Int
  | .ioWrite buf r => s.ioWrite buf r
  | .ioSeek offset whence => s.ioSeek offset whence

def step (s : Recorder) (c : Callback) : Option Recorder := some (s.perform c).1

/-- Before the first callback: the file, and where its descriptor stands. -/
def start (file : List UInt8) (pos : Nat) : Recorder := { sink := { fd := { file, pos } } }

end Recorder

end MediaFoundation.Sink
