import MediaFoundation.Meta.MetaData

/-!
# Format

`Format`, the typed view of a `Meta` for applications (`format.cpp`): the
calls that store a value, the type that a key is reported with, and the two
views of the whole, `Stringify` and `GetFormatMap`.

Conventions:

* A dereferenced null pointer is `none`: nothing after it is defined.
* `float` and `double` are their bits; `floatText` and `doubleText` are what
  `std::to_string` prints for them.
* The address in a `FormatData` is that of the vector which its key holds.
  Whether `data()` of an empty vector is a null pointer depends on the vector's
  history: `emptyData` says for which keys it is none.
* The caller's array is not the storage of the vector that it replaces, so
  `memcpy_s` fails for an array of no elements and for no other.
* The vectors of formats are left out, which no call here stores.
-/

namespace MediaFoundation

open Std (ExtTreeMap)

inductive FormatDataType where
  | none | int32 | int64 | float | double | string | addr | uint32 | int32Vector

inductive FormatData where
  | int32 (val : Int32)
  | int64 (val : Int64)
  | float (val : UInt32)
  | double (val : UInt64)
  | uint32 (val : UInt32)
  | string (stringVal : String)
  | addr (size : Nat)

abbrev FormatDataMap := ExtTreeMap String FormatData

structure Format where
  formatMap : FormatDataMap := ∅
  content : Meta := ⟨∅⟩

namespace Format

def bufferSizeMax : Nat := 1 * 1024 * 1024

/-- `key.data()`, read as a string that ends at its first NUL. -/
def cString (key : String) : String := .ofList (key.toList.takeWhile (· ≠ '\x00'))

-- The calls that store a value

/-- The type check before a value is stored: a tag that is registered is
registered with a type that `admits` holds of. -/
def isSameType (key : String) (admits : Any → Bool) : Bool :=
  match getDefaultAnyValueOpt (cString key) with
  | some defaultValue => admits defaultValue
  | none => true

def putIntAdmits (key : String) : Bool :=
  isSameType key fun d =>
    d.isSameTypeWith .int32 || d.isSameTypeWith .bool || isIntEnum (cString key)

def putUintAdmits (key : String) : Bool :=
  isSameType key fun d =>
    d.isSameTypeWith .uint32 || d.isSameTypeWith .bool || isIntEnum (cString key)

def putLongAdmits (key : String) : Bool :=
  isSameType key fun d => d.isSameTypeWith .int64 || isLongEnum (cString key)

def putIntValue (f : Format) (key : String) (value : Int32) : Bool × Format :=
  if putIntAdmits key then
    let r := f.content.setMetaDataInt32 key value
    (r.1, { f with content := r.2 })
  else (false, f)

def putUintValue (f : Format) (key : String) (value : UInt32) : Bool × Format :=
  if putUintAdmits key then
    let r := f.content.setMetaDataUint32 key value
    (r.1, { f with content := r.2 })
  else (false, f)

def putLongValue (f : Format) (key : String) (value : Int64) : Bool × Format :=
  if putLongAdmits key then
    let r := f.content.setMetaDataInt64 key value
    (r.1, { f with content := r.2 })
  else (false, f)

/-- `PutFloatValue`, `PutDoubleValue` and `PutStringValue`. -/
def putBaseValue (type : CastType) (f : Format) (key : String) (value : Any) : Bool × Format :=
  if isSameType key (Any.isSameTypeWith type) then
    (true, { f with content := f.content.setData key value })
  else (false, f)

def putFloatValue (f : Format) (key : String) (value : UInt32) : Bool × Format :=
  putBaseValue .float f key (.float value)

def putDoubleValue (f : Format) (key : String) (value : UInt64) : Bool × Format :=
  putBaseValue .double f key (.double value)

def putStringValue (f : Format) (key : String) (value : String) : Bool × Format :=
  putBaseValue .string f key (.string value)

/-- `PutBuffer` and `PutIntBuffer` of an array of `size` elements, each of
`width` bytes, which are stored as `value`; `cleared` is the vector of no
elements. A vector that is there is overwritten in place. -/
def putVector (type : CastType) (width : Nat) (f : Format) (key : String) (size : Nat)
    (value cleared : Any) : Bool × Format :=
  if ¬ isSameType key (Any.isSameTypeWith type) then (false, f)
  else if bufferSizeMax < size then (false, f)
  else
    match f.content.find key with
    | none => (true, { f with content := f.content.setData key value })
    | some v =>
      if ¬ v.isSameTypeWith type then (false, f)
      -- the vector is resized before `memcpy_s` fails
      else if size = 0 then (false, { f with content := f.content.setData key cleared })
      else
        let formatMap :=
          if key ∈ f.formatMap then f.formatMap.insert key (.addr (size * width)) else f.formatMap
        (true, ⟨formatMap, f.content.setData key value⟩)

def putBuffer (f : Format) (key : String) : Option (List UInt8) → Bool × Format
  | none => (false, f)
  | some data => putVector .vectorUint8 1 f key data.length (.vectorUint8 data) (.vectorUint8 [])

/-- `PutIntBuffer`; a null `addr` is `none`. -/
def putIntBuffer (f : Format) (key : String) : Option (List Int32) → Bool × Format
  | none => (false, f)
  | some data => putVector .vectorInt32 4 f key data.length (.vectorInt32 data) (.vectorInt32 [])

/-- `SetMeta`; the format copies the content of a shared `Meta` and takes over
one that is not shared. -/
def setMeta (f : Format) : Option Meta → Bool × Format
  | none => (false, f)
  | some m => (true, { f with content := m })

def removeKey (f : Format) (key : String) : Format := { f with content := f.content.remove key }

-- The views

def getValueType (f : Format) (key : String) : FormatDataType :=
  match f.content.find key with
  | some v =>
    if v.isSameTypeWith .int32 then .int32
    else if v.isSameTypeWith .uint32 then .uint32
    else if v.isSameTypeWith .int64 then .int64
    else if v.isSameTypeWith .float then .float
    else if v.isSameTypeWith .double then .double
    else if v.isSameTypeWith .string then .string
    else if v.isSameTypeWith .vectorUint8 then .addr
    else if v.isSameTypeWith .vectorInt32 then .int32Vector
    else if (f.content.getMetaDataInt64 key).isSome then .int64
    else .int32
  | none => .none

section Views

variable (floatText : UInt32 → String) (doubleText : UInt64 → String) (emptyData : String → Bool)

def valueText (key value : String) : String := key ++ " = " ++ value ++ " | "

def bufferText (key : String) (size : Nat) : String :=
  key ++ ", bufferSize = " ++ toString size ++ " | "

def stringifyEntry (key : String) (v : Any) : FormatDataType → Option String
  | .int32 => (v.anyCast .int32).map fun n : Int32 => valueText key (toString n.toInt)
  | .uint32 => (v.anyCast .uint32).map fun n : UInt32 => valueText key (toString n.toNat)
  | .int64 => (v.anyCast .int64).map fun n : Int64 => valueText key (toString n.toInt)
  | .float => (v.anyCast .float).map fun x => valueText key (floatText x)
  | .double => (v.anyCast .double).map fun x => valueText key (doubleText x)
  | .string => (v.anyCast .string).map fun s => valueText key s
  -- of the vectors the pointer is compared with null first
  | .addr => some (((v.anyCast .vectorUint8).map fun b => bufferText key (List.length b)).getD "")
  | .int32Vector =>
    some (((v.anyCast .vectorInt32).map fun b => bufferText key (List.length b)).getD "")
  | .none => some ""

def stringifyLoop (f : Format) : List (String × Any) → Option String
  | [] => some ""
  | (key, v) :: rest => do
    let text ← stringifyEntry floatText doubleText key v (f.getValueType key)
    let texts ← stringifyLoop f rest
    return text ++ texts

def stringify (f : Format) : Option String :=
  stringifyLoop floatText doubleText f f.content.map.toList

/-- `PutXxxToFormatMap` for a vector of that many elements: a null address is
not stored. -/
def putBufferToFormatMap (key : String) (size width : Nat) (m : FormatDataMap) : FormatDataMap :=
  if size = 0 ∧ emptyData key = false then m else m.insertIfNew key (.addr (size * width))

def formatMapEntry (key : String) (v : Any) (m : FormatDataMap) :
    FormatDataType → Option FormatDataMap
  | .int32 => (v.anyCast .int32).map fun n => m.insertIfNew key (.int32 n)
  | .uint32 => (v.anyCast .uint32).map fun n => m.insertIfNew key (.uint32 n)
  | .int64 => (v.anyCast .int64).map fun n => m.insertIfNew key (.int64 n)
  | .float => (v.anyCast .float).map fun x => m.insertIfNew key (.float x)
  | .double => (v.anyCast .double).map fun x => m.insertIfNew key (.double x)
  | .string => (v.anyCast .string).map fun s => m.insertIfNew key (.string s)
  | .addr =>
    (v.anyCast .vectorUint8).map fun b => putBufferToFormatMap emptyData key (List.length b) 1 m
  | .int32Vector =>
    (v.anyCast .vectorInt32).map fun b => putBufferToFormatMap emptyData key (List.length b) 4 m
  | .none => some m

def formatMapLoop (f : Format) : List (String × Any) → FormatDataMap → Option FormatDataMap
  | [], m => some m
  | (key, v) :: rest, m =>
    (formatMapEntry emptyData key v m (f.getValueType key)).bind (formatMapLoop f rest)

def getFormatMap (f : Format) : Option FormatDataMap :=
  formatMapLoop emptyData f f.content.map.toList ∅

end Views

-- Any sequence of calls

inductive Call where
  | putIntValue (key : String) (value : Int32)
  | putUintValue (key : String) (value : UInt32)
  | putLongValue (key : String) (value : Int64)
  | putFloatValue (key : String) (value : UInt32)
  | putDoubleValue (key : String) (value : UInt64)
  | putStringValue (key : String) (value : String)
  | putBuffer (key : String) (addr : Option (List UInt8))
  | putIntBuffer (key : String) (addr : Option (List Int32))
  | setMeta (m : Option Meta)
  | removeKey (key : String)
  | getFormatMap (emptyData : String → Bool)

def call (f : Format) : Call → Option Format
  | .putIntValue key value => some (f.putIntValue key value).2
  | .putUintValue key value => some (f.putUintValue key value).2
  | .putLongValue key value => some (f.putLongValue key value).2
  | .putFloatValue key value => some (f.putFloatValue key value).2
  | .putDoubleValue key value => some (f.putDoubleValue key value).2
  | .putStringValue key value => some (f.putStringValue key value).2
  | .putBuffer key addr => some (f.putBuffer key addr).2
  | .putIntBuffer key addr => some (f.putIntBuffer key addr).2
  | .setMeta m => some (f.setMeta m).2
  | .removeKey key => some (f.removeKey key)
  | .getFormatMap emptyData =>
    (f.getFormatMap emptyData).map fun m => { f with formatMap := m }

end Format

end MediaFoundation
