import MediaFoundation.Lib.Wire

/-!
# MessageParcel

The parcel of the remote calls, as what its users rely on: a queue of typed
fields that loses nothing. A read that finds no field of its type at the front
fails, or yields zero when it has no way to fail.

Conventions:

* `float` and `double` are their bits.
* A file descriptor is the memory it denotes (`Backing`); one that is not
  valid is `none`. A descriptor that is read denotes the memory that was sent.
-/

namespace MediaFoundation

/-- The memory object behind a file descriptor, and its size. -/
structure Backing where
  id : Nat
  size : Int64

inductive ParcelField where
  | bool (value : Bool)
  | uint8 (value : UInt8)
  | int32 (value : Int32)
  | uint32 (value : UInt32)
  | int64 (value : Int64)
  | uint64 (value : UInt64)
  | float (bits : UInt32)
  | double (bits : UInt64)
  | string (value : String)
  | uint8Vector (value : List UInt8)
  | int32Vector (value : List Int32)
  | int64Vector (value : List Int64)
  | fileDescriptor (backing : Backing)

namespace ParcelField

def bool? : ParcelField → Option Bool | .bool v => some v | _ => none
def uint8? : ParcelField → Option UInt8 | .uint8 v => some v | _ => none

-- the sign of an integer is not kept in the parcel
def int32? : ParcelField → Option Int32
  | .int32 v => some v
  | .uint32 v => some v.toInt32
  | _ => none

def uint32? : ParcelField → Option UInt32
  | .uint32 v => some v
  | .int32 v => some v.toUInt32
  | _ => none

def int64? : ParcelField → Option Int64
  | .int64 v => some v
  | .uint64 v => some v.toInt64
  | _ => none

def uint64? : ParcelField → Option UInt64
  | .uint64 v => some v
  | .int64 v => some v.toUInt64
  | _ => none

def float? : ParcelField → Option UInt32 | .float v => some v | _ => none
def double? : ParcelField → Option UInt64 | .double v => some v | _ => none
def string? : ParcelField → Option String | .string v => some v | _ => none
def uint8Vector? : ParcelField → Option (List UInt8) | .uint8Vector v => some v | _ => none
def int32Vector? : ParcelField → Option (List Int32) | .int32Vector v => some v | _ => none
def int64Vector? : ParcelField → Option (List Int64) | .int64Vector v => some v | _ => none
def fileDescriptor? : ParcelField → Option Backing | .fileDescriptor v => some v | _ => none

end ParcelField

abbrev MessageParcel := List ParcelField

abbrev ParcelM := Wire.Call ParcelField

namespace ParcelM

open Wire (Call Puts Takes)

-- Writing

def writeBool (v : Bool) : ParcelM Unit := Call.put (.bool v)
def writeUint8 (v : UInt8) : ParcelM Unit := Call.put (.uint8 v)
def writeInt32 (v : Int32) : ParcelM Unit := Call.put (.int32 v)
def writeUint32 (v : UInt32) : ParcelM Unit := Call.put (.uint32 v)
def writeInt64 (v : Int64) : ParcelM Unit := Call.put (.int64 v)
def writeUint64 (v : UInt64) : ParcelM Unit := Call.put (.uint64 v)
def writeFloat (bits : UInt32) : ParcelM Unit := Call.put (.float bits)
def writeDouble (bits : UInt64) : ParcelM Unit := Call.put (.double bits)
def writeString (v : String) : ParcelM Unit := Call.put (.string v)
def writeUint8Vector (v : List UInt8) : ParcelM Unit := Call.put (.uint8Vector v)
def writeInt32Vector (v : List Int32) : ParcelM Unit := Call.put (.int32Vector v)
def writeInt64Vector (v : List Int64) : ParcelM Unit := Call.put (.int64Vector v)

def writeFileDescriptor : Option Backing → ParcelM Unit
  | some backing => Call.put (.fileDescriptor backing)
  | none => Call.fail

-- Reading

-- the reads that return whether they succeed
def readInt32Into : ParcelM Int32 := Call.take ParcelField.int32?
def readUint32Into : ParcelM UInt32 := Call.take ParcelField.uint32?
def readInt64Into : ParcelM Int64 := Call.take ParcelField.int64?
def readUint64Into : ParcelM UInt64 := Call.take ParcelField.uint64?

-- the reads that return a value, or zero
def readBool : ParcelM Bool := Call.takeD ParcelField.bool? false
def readUint8 : ParcelM UInt8 := Call.takeD ParcelField.uint8? 0
def readInt32 : ParcelM Int32 := Call.takeD ParcelField.int32? 0
def readUint32 : ParcelM UInt32 := Call.takeD ParcelField.uint32? 0
def readInt64 : ParcelM Int64 := Call.takeD ParcelField.int64? 0
def readUint64 : ParcelM UInt64 := Call.takeD ParcelField.uint64? 0
def readFloat : ParcelM UInt32 := Call.takeD ParcelField.float? 0
def readDouble : ParcelM UInt64 := Call.takeD ParcelField.double? 0
def readString : ParcelM String := Call.takeD ParcelField.string? ""
def readUint8Vector : ParcelM (List UInt8) := Call.takeD ParcelField.uint8Vector? []
def readInt32Vector : ParcelM (List Int32) := Call.takeD ParcelField.int32Vector? []
def readInt64Vector : ParcelM (List Int64) := Call.takeD ParcelField.int64Vector? []

def readFileDescriptor : ParcelM (Option Backing) :=
  Call.takeD (fun f => (ParcelField.fileDescriptor? f).map some) none

def skipInt32 : Nat → ParcelM Unit
  | 0 => pure ()
  | n + 1 => do
    let _ ← readInt32
    skipInt32 n

theorem skipInt32_takes (vs : List Int32) : Takes (skipInt32 vs.length) (vs.map .int32) () := by
  induction vs with
  | nil => exact .pure ()
  | cons v vs ih => exact Takes.cons (Takes.takeD rfl) ih

end ParcelM

end MediaFoundation
