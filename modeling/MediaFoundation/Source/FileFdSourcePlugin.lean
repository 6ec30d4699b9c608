import MediaFoundation.Demux.DemuxerFilter
import MediaFoundation.Hls.HlsTags

/-!
# FileFdSourcePlugin

The source plugin for an open file descriptor (`file_fd_source_plugin.cpp`). A uri names the
descriptor, and optionally a window of the file, in which the plugin seeks and reads.

Conventions:

* The descriptors of the process that name a regular file that can be sought in are a function;
  the plugin is the only one to use its descriptor. `lseek` refuses negative offsets, and may
  fail besides; `read` may fail, or deliver less than it is asked for.
* A null buffer, or one without memory, is `none`. No array is larger than `PTRDIFF_MAX`, and
  `new` throws when it is asked for one: nobody catches that, and the program ends.
* A uri is a list of characters, of which none is beyond a byte.
-/

namespace MediaFoundation.Source

open Demux (Memory Buffer PluginStatus Seekable allocMemory)
open Hls (isDigit digitsValue)

-- Open files

structure OpenFile where
  content : List UInt8
  offset : Nat
  length_lt : content.length < 2 ^ 63

/-- What `read` does: it fails, or delivers at most one byte more than this. -/
inductive ReadOutcome where
  | fails
  | upTo (more : Nat)
deriving DecidableEq

namespace OpenFile

def size (f : OpenFile) : UInt64 := f.content.length.toUInt64

def lseek (f : OpenFile) (offset : Int64) (fails : Bool) : OpenFile × Int64 :=
  if fails ∨ offset < 0 then (f, -1) else ({ f with offset := offset.toNatClampNeg }, offset)

def read (f : OpenFile) (count : Nat) : ReadOutcome → OpenFile × Option (List UInt8)
  | .fails => (f, none)
  | .upTo more =>
    let bytes := (f.content.drop f.offset).take (min count (more + 1))
    ({ f with offset := f.offset + bytes.length }, some bytes)

end OpenFile

def newMemory (capacity : UInt64) : Option Buffer :=
  if capacity.toNat < 2 ^ 63 then some (allocMemory capacity) else none

/-- The bytes are written, and `UpdateDataSize` gets what `read` or `fread` returned. -/
def received (m : Memory) : Option (List UInt8) → Memory
  | none => m.updateDataSize (-1)
  | some bytes => (m.copyIn 0 bytes.length fun i => bytes.getD i 0).updateDataSize
      bytes.length.toUInt64

-- Numbers

/-- `strtoll` in base 10, of a string that begins with a digit or a minus sign: the number, if
the string is one and within the range of `long long`. -/
def strtoll (str : List Char) : Option Int :=
  let negative := str.head? = some '-'
  let field := (if negative then str.tail else str).takeWhile (· ≠ '\x00')
  let n := digitsValue (field.takeWhile isDigit)
  let result : Int := if negative then -n else n
  if field.takeWhile isDigit = [] ∨ field.dropWhile isDigit ≠ [] then none
  else if result < -2 ^ 63 ∨ 2 ^ 63 ≤ result then none
  else some result

/-- The check that `StrToLong` and `StrToInt` begin with. -/
def startsNumber (str : List Char) : Bool :=
  match str with
  | [] => false
  | c :: _ => isDigit c || c == '-'

def strToLong (str : List Char) : Option Int64 :=
  if startsNumber str then (strtoll str).map Int64.ofInt else none

def strToInt (str : List Char) : Option Int32 :=
  if startsNumber str then
    (strtoll str).bind fun result =>
      if -2 ^ 31 ≤ result ∧ result < 2 ^ 31 then some (Int32.ofInt result) else none
  else none

-- The regular expressions

/-- `(.*)` before a literal text takes as much as it can. -/
def splitLast (sep : List Char) : List Char → Option (List Char × List Char)
  | [] => if sep.isPrefixOf [] then some ([], []) else none
  | c :: cs =>
    match splitLast sep cs with
    | some (front, back) => some (c :: front, back)
    | none =>
      if sep.isPrefixOf (c :: cs) then some ([], (c :: cs).drop sep.length) else none

/-- `(.*)?offset=(.*)&size=(.*)`: the question mark is an operator, and so the group before it
takes as much as it can. -/
def matchWindow : List Char → Option (List Char × List Char × List Char)
  | [] => none
  | c :: cs =>
    match matchWindow cs with
    | some (fd, window) => some (c :: fd, window)
    | none =>
      if "offset=".toList.isPrefixOf (c :: cs) then
        (splitLast "&size=".toList ((c :: cs).drop "offset=".length)).map ([], ·)
      else none

/-- `regex_match` with the one expression and then the other: the groups for the descriptor,
and for the offset and the size. A dot is no line terminator. -/
def matchUri (uri : List Char) : Option (List Char × Option (List Char × List Char)) :=
  if "fd://".toList.isPrefixOf uri ∧ '\n' ∉ uri ∧ '\r' ∉ uri then
    match matchWindow (uri.drop "fd://".length) with
    | some (fd, window) => some (fd, some window)
    | none => some (uri.drop "fd://".length, none)
  else none

-- The plugin

structure FileFdSourcePlugin where
  fd : Int32 := -1
  offset : Int64 := 0
  size : UInt64 := 0
  fileSize : UInt64 := 0
  seekable : Seekable := .seekable
  position : UInt64 := 0
  /-- What the descriptor names. -/
  file : Option OpenFile := none

namespace FileFdSourcePlugin

def seekTo (p : FileFdSourcePlugin) (offset : UInt64) (fails : Bool) :
    FileFdSourcePlugin × PluginStatus :=
  if p.fd = -1 ∨ p.seekable ≠ .seekable then (p, .errorWrongState)
  else
    match p.file with
    | none => (p, .errorUnknown)
    | some file =>
      let (file, result) := file.lseek (offset + p.offset.toUInt64).toInt64 fails
      -- the new offset is looked at as an `int32_t`
      if result.toInt32 = -1 then ({ p with file := some file }, .errorUnknown)
      else ({ p with file := some file, position := offset + p.offset.toUInt64 }, .ok)

/-- `offset_` and `size_`, from the two groups of the uri. -/
def parseWindow (p : FileFdSourcePlugin) : Option (List Char × List Char) →
    FileFdSourcePlugin × PluginStatus
  | none => ({ p with size := p.fileSize, offset := 0 }, .ok)
  | some (offsetStr, sizeStr) =>
    match strToLong offsetStr with
    | none => (p, .errorInvalidParameter)
    | some offset =>
      let p := { p with
        offset := if p.fileSize < offset.toUInt64 then p.fileSize.toInt64 else offset }
      match strToLong sizeStr with
      | none => (p, .errorInvalidParameter)
      | some tempSize =>
        ({ p with size := min tempSize.toUInt64 (p.fileSize - p.offset.toUInt64) }, .ok)

/-- `SetSource` is `ParseUriInfo`. The seek at its end may fail, which is only logged. -/
def setSource (files : Int32 → Option OpenFile) (p : FileFdSourcePlugin) (uri : List Char)
    (seekFails : Bool) : FileFdSourcePlugin × PluginStatus :=
  match matchUri uri with
  | none => (p, .errorInvalidParameter)
  | some (fdStr, window) =>
    match strToInt fdStr with
    | none => (p, .errorInvalidParameter)
    | some fd =>
      let p := { p with fd }
      if fd = -1 then (p, .errorInvalidParameter)
      else
        match files fd with
        | none => (p, .errorInvalidParameter)
        | some file =>
          match { p with file := some file, fileSize := file.size }.parseWindow window with
          | (p, .ok) =>
            let p := { p with position := p.offset.toUInt64, seekable := .seekable }
            ((p.seekTo 0 seekFails).1, .ok)
          | (p, err) => (p, err)

/-- No result is the end of the program. -/
def read (p : FileFdSourcePlugin) (buffer : Option Buffer) (expectedLen : UInt64)
    (outcome : ReadOutcome) : Option (FileFdSourcePlugin × PluginStatus × Buffer) :=
  match buffer.or (newMemory expectedLen) with
  | none => none
  | some buffer =>
    let expectedLen := min (p.size + p.offset.toUInt64 - p.position) expectedLen
    let expectedLen := min buffer.memory.capacity expectedLen
    match p.file, buffer.memory.getWritableAddr expectedLen with
    | some file, some memory =>
      let (file, result) := file.read expectedLen.toNat outcome
      let memory := received memory result
      some ({ p with file := some file, position := p.position + memory.size }, .ok,
        { buffer with memory })
    | _, _ =>
      -- `read` refuses the descriptor or the null pointer
      let memory := received buffer.memory none
      some ({ p with position := p.position + memory.size }, .ok, { buffer with memory })

end FileFdSourcePlugin

end MediaFoundation.Source
