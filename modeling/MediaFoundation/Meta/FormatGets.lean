import MediaFoundation.Meta.FormatViews

/-!
# The Gets of a Format

The other half of `format.cpp`: the calls that read a value, the vectors of
formats that a `Format` holds beside its `Meta`, and the list of its keys.

Conventions:

* A format in a vector is a copy: its content and its own vectors, without the
  map that `GetFormatMap` keeps, which no copy takes over and no `Get` reads.
* What `GetBuffer` and `GetIntBuffer` point at is given as the elements.
-/

namespace MediaFoundation

open Std (ExtTreeMap)

-- Meta

namespace Meta

def getData (m : Meta) (tag : String) (type : CastType) : Option type.Value :=
  (m.find tag).bind fun v => if v.isSameTypeWith type then v.anyCast type else none

def getMetaDataInt32 (m : Meta) (tag : String) : Option Int32 :=
  match metadataGetterSetterMap.lookup tag with
  | none =>
    if tag ∈ metadataBoolVector then
      (m.getData tag .bool).map fun valueBool : Bool => if valueBool then 1 else 0
    else m.getData tag .int32
  | some t =>
    (m.find tag).bind fun v => (v.anyCastEnum t).map fun b => .ofBitVec (Any.castTo 32 t b)

/-- `GetMetaData` into a `uint32_t`, which no enumeration is read into. -/
def getMetaDataUint32 (m : Meta) (tag : String) : Option UInt32 :=
  match metadataGetterSetterMap.lookup tag with
  | none =>
    if tag ∈ metadataBoolVector then
      (m.getData tag .bool).map fun valueBool : Bool => if valueBool then 1 else 0
    else m.getData tag .uint32
  | some _ => none

end Meta

-- Format

inductive FormatCopy where
  | mk (content : Meta) (formatVecMap : List (String × List FormatCopy))

abbrev FormatVectorMap := ExtTreeMap String (List FormatCopy)

structure FullFormat where
  format : Format := {}
  formatVecMap : FormatVectorMap := ∅

namespace FullFormat

def onFormat (f : FullFormat) (call : Format → Bool × Format) : Bool × FullFormat :=
  ((call f.format).1, { f with format := (call f.format).2 })

def removeKey (f : FullFormat) (key : String) : FullFormat :=
  ⟨f.format.removeKey key, f.formatVecMap.erase key⟩

/-- `insert` keeps an entry that is there, but there is none after `RemoveKey`. -/
def putFormatVector (f : FullFormat) (key : String) (value : List FormatCopy) : Bool × FullFormat :=
  let f := f.removeKey key
  (!f.formatVecMap.contains key, { f with formatVecMap := f.formatVecMap.insertIfNew key value })

def getIntValue (f : FullFormat) (key : String) : Option Int32 :=
  f.format.content.getMetaDataInt32 key

def getUintValue (f : FullFormat) (key : String) : Option UInt32 :=
  f.format.content.getMetaDataUint32 key

def getLongValue (f : FullFormat) (key : String) : Option Int64 :=
  f.format.content.getMetaDataInt64 key

def getFloatValue (f : FullFormat) (key : String) : Option UInt32 :=
  f.format.content.getData key .float

def getDoubleValue (f : FullFormat) (key : String) : Option UInt64 :=
  f.format.content.getData key .double

def getStringValue (f : FullFormat) (key : String) : Option String :=
  f.format.content.getData key .string

def getBuffer (f : FullFormat) (key : String) : Option (List UInt8) :=
  f.format.content.getData key .vectorUint8

def getIntBuffer (f : FullFormat) (key : String) : Option (List Int32) :=
  f.format.content.getData key .vectorInt32

def getFormatVector (f : FullFormat) (key : String) : Option (List FormatCopy) :=
  f.formatVecMap[key]?

def containKey (f : FullFormat) (key : String) : Bool :=
  (f.format.content.find key).isSome || f.formatVecMap.contains key

def getKeys (f : FullFormat) : List String := f.format.content.map.keys

-- The kinds of values

/-- A kind of value has a `Put` and a `Get`. -/
inductive Kind where
  | int | uint | long | float | double | string | buffer | intBuffer | formatVector
deriving DecidableEq

def Kind.Value : Kind → Type
  | int => Int32
  | uint => UInt32
  | long => Int64
  | float => UInt32
  | double => UInt64
  | string => String
  | buffer => List UInt8
  | intBuffer => List Int32
  | formatVector => List FormatCopy

/-- The argument of a `Put`: a null address is no value. -/
def Kind.Argument : Kind → Type
  | buffer => Option (List UInt8)
  | intBuffer => Option (List Int32)
  | kind => kind.Value

def put (f : FullFormat) (key : String) : (kind : Kind) → kind.Argument → Bool × FullFormat
  | .int, value => f.onFormat fun f => f.putIntValue key value
  | .uint, value => f.onFormat fun f => f.putUintValue key value
  | .long, value => f.onFormat fun f => f.putLongValue key value
  | .float, value => f.onFormat fun f => f.putFloatValue key value
  | .double, value => f.onFormat fun f => f.putDoubleValue key value
  | .string, value => f.onFormat fun f => f.putStringValue key value
  | .buffer, addr => f.onFormat fun f => f.putBuffer key addr
  | .intBuffer, addr => f.onFormat fun f => f.putIntBuffer key addr
  | .formatVector, value => f.putFormatVector key value

def get (f : FullFormat) (key : String) : (kind : Kind) → Option kind.Value
  | .int => f.getIntValue key
  | .uint => f.getUintValue key
  | .long => f.getLongValue key
  | .float => f.getFloatValue key
  | .double => f.getDoubleValue key
  | .string => f.getStringValue key
  | .buffer => f.getBuffer key
  | .intBuffer => f.getIntBuffer key
  | .formatVector => f.getFormatVector key

end FullFormat

end MediaFoundation
