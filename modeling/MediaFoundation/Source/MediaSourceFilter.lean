import MediaFoundation.Source.FileFdSourcePlugin

/-!
# MediaSourceFilter in pull mode

`PullData` of the source filter (`media_source_filter.cpp`), with the plugins for files and for
file descriptors behind it (`file_source_plugin.cpp`).

Conventions:

* `fread` delivers what it is asked for, or fails after some bytes. `fseek` may fail, and leaves
  the position then. A failed `fseek` back to that position changes nothing either.
* The plugin is there, and its file is open. A buffer without memory is left out, and so is the
  memory that the program has: `new` fails only for more than `PTRDIFF_MAX`. The allocator of
  the file plugin answers that with a null pointer, and `fread` writes there: the program ends.
-/

namespace MediaFoundation.Source

open Demux (Memory Buffer PluginStatus PullCode Seekable allocMemory)

-- FileSourcePlugin

/-- What `fread` does: it succeeds, or fails after at most so many bytes. -/
inductive FreadOutcome where
  | succeeds
  | failsAfter (most : Nat)

structure Stream where
  file : OpenFile
  eof : Bool := false

def Stream.fread (fp : Stream) (count : Nat) : FreadOutcome → Stream × List UInt8
  | .succeeds =>
    let bytes := (fp.file.content.drop fp.file.offset).take count
    (⟨{ fp.file with offset := fp.file.offset + bytes.length },
      fp.eof || decide (bytes.length < count)⟩, bytes)
  | .failsAfter most =>
    let bytes := (fp.file.content.drop fp.file.offset).take (min count most)
    (⟨{ fp.file with offset := fp.file.offset + bytes.length }, fp.eof⟩, bytes)

structure FileSourcePlugin where
  fp : Stream
  fileSize : UInt64
  position : UInt64 := 0

namespace FileSourcePlugin

def openFile (file : OpenFile) : FileSourcePlugin where
  fp := ⟨{ file with offset := 0 }, false⟩
  fileSize := file.size

def read (p : FileSourcePlugin) (buffer : Option Buffer) (expectedLen : UInt64)
    (outcome : FreadOutcome) : Option (FileSourcePlugin × PluginStatus × Option Buffer) :=
  if p.fp.eof ∨ p.fileSize = p.position then some (p, .endOfStream, buffer)
  else
    match buffer.or (newMemory expectedLen) with
    | none => none
    | some buffer =>
      let expectedLen := min (p.fileSize - p.position) expectedLen
      let expectedLen := min buffer.memory.capacity expectedLen
      match buffer.memory.getWritableAddr expectedLen with
      | none => none
      | some memory =>
        let (fp, bytes) := p.fp.fread expectedLen.toNat outcome
        let memory := received memory (some bytes)
        some ({ p with fp, position := p.position + memory.size }, .ok,
          some { buffer with memory })

def seekTo (p : FileSourcePlugin) (offset : UInt64) (fails : Bool) :
    FileSourcePlugin × PluginStatus :=
  if p.fileSize < offset ∨ p.position = offset then (p, .errorWrongState)
  else
    let p := { p with fp := { p.fp with eof := false } }
    if fails then (p, .errorUnknown)
    else
      ({ p with
        fp := { p.fp with file := { p.fp.file with offset := offset.toInt64.toNatClampNeg } }
        position := offset }, .ok)

end FileSourcePlugin

-- The plugin of the filter

structure Library where
  seekFails : Bool
  read : ReadOutcome
  fread : FreadOutcome

inductive SourcePlugin where
  | file (p : FileSourcePlugin)
  | fd (p : FileFdSourcePlugin)

namespace SourcePlugin

def getSize : SourcePlugin → UInt64
  | file p => p.fileSize
  | fd p => p.size

def getSeekable : SourcePlugin → Seekable
  | file _ => .seekable
  | fd p => p.seekable

def position : SourcePlugin → UInt64
  | file p => p.position
  | fd p => p.position

def seekTo (lib : Library) (offset : UInt64) : SourcePlugin → SourcePlugin × PluginStatus
  | file p => let (p, ret) := p.seekTo offset lib.seekFails; (file p, ret)
  | fd p => let (p, ret) := p.seekTo offset lib.seekFails; (fd p, ret)

def read (lib : Library) (buffer : Option Buffer) (expectedLen : UInt64) :
    SourcePlugin → Option (SourcePlugin × PluginStatus × Option Buffer)
  | file p => (p.read buffer expectedLen lib.fread).map fun (p, ret, buffer) => (file p, ret, buffer)
  | fd p =>
    (p.read buffer expectedLen lib.read).map fun (p, ret, buffer) => (fd p, ret, some buffer)

end SourcePlugin

-- PullData

/-- `TranslatePluginStatus`, for what the plugins return; the other codes are those of
`ErrorCode`. -/
def translatePluginStatus : PluginStatus → PullCode
  | .ok => .success
  | .endOfStream => .endOfStream
  | .errorUnknown => .error Int32.minValue
  | .errorWrongState => .error (Int32.minValue + 5)
  | .errorInvalidParameter => .error (Int32.minValue + 3)
  | .errorNotEnoughData => .error Int32.minValue

structure MediaSourceFilter where
  plugin : SourcePlugin
  seekable : Seekable
  position : UInt64 := 0

inductive PullReply where
  | crashed
  | returns (err : PullCode) (data : Option Buffer)

namespace MediaSourceFilter

/-- `SetSource`: the plugin has opened its file, and `ActivateMode` asks it. -/
def setSource (plugin : SourcePlugin) : MediaSourceFilter where
  plugin
  seekable := plugin.getSeekable

/-- How much is left of a request; nothing is left at the end of the file. -/
def readSize (offset size totalSize : UInt64) (data : Option Buffer) : UInt64 :=
  let readSize := if totalSize < offset + size then totalSize - offset else size
  match data with
  | none => readSize
  | some data => if data.memory.capacity < readSize then data.memory.capacity else readSize

def readData (f : MediaSourceFilter) (lib : Library) (readSize : UInt64) (data : Option Buffer) :
    MediaSourceFilter × PullReply :=
  match f.plugin.read lib data readSize with
  | none => (f, .crashed)
  | some (plugin, .ok, some data) =>
    ({ f with plugin, position := f.position + data.memory.size }, .returns .success (some data))
  | some (plugin, ret, data) =>
    ({ f with plugin }, .returns (translatePluginStatus ret) data)

def pullData (f : MediaSourceFilter) (lib : Library) (offset size : UInt64)
    (data : Option Buffer) : MediaSourceFilter × PullReply :=
  if f.seekable = .seekable then
    let totalSize := f.plugin.getSize
    if totalSize ≠ 0 ∧ totalSize ≤ offset then (f, .returns .endOfStream data)
    else
      let size := if totalSize ≠ 0 then readSize offset size totalSize data else size
      if f.position ≠ offset then
        match f.plugin.seekTo lib offset with
        | (plugin, .ok) =>
          { f with plugin, position := offset }.readData lib size data
        | (plugin, ret) => ({ f with plugin }, .returns (translatePluginStatus ret) data)
      else f.readData lib size data
  else f.readData lib size data

end MediaSourceFilter

end MediaFoundation.Source
