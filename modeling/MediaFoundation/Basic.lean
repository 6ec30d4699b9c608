import Mathlib

/-!
# Values shared by the buffer components

The result codes and the buffer configuration that `AVBuffer`, the buffer
queue and its remote interface exchange. Fixed-width fields keep the width
they have in the headers (`Int32`, `UInt64`, …), so arithmetic on them wraps
as it does there.

* `Status`            — `common/status.h`, the codes the modelled code returns.
* `AVBufferConfig`    — `buffer/avbuffer_common.h`, with its `operator<=`.
-/

namespace MediaFoundation

/-! ## Status -/

inductive Status where
  | ok
  | errorUnknown
  | errorInvalidBufferSize
  | errorUnexpectedMemoryType
  | errorCreateBuffer
  | errorNullPointBuffer
  | errorInvalidBufferId
  | errorInvalidBufferState
  | errorNoFreeBuffer
  | errorNoDirtyBuffer
  | errorNoConsumerListener
  | errorNullBufferQueue
  | errorWaitTimeout
  | errorOutOfRange
  | errorIpcWriteInterfaceToken
  | errorIpcSendRequest
  /-- A value of the underlying `int32_t` for which the enumeration has no name here. -/
  | unlisted (code : Int32)
deriving DecidableEq

/-! ## Buffer configuration -/

inductive MemoryType where
  | virtualMemory
  | sharedMemory
  | surfaceMemory
  | hardwareMemory
  | unknownMemory
  | customMemory
  /-- A byte that no enumerator names, as a cast from `uint8_t` can give. -/
  | unlisted (code : UInt8) (h : 5 < code)
deriving DecidableEq

namespace MemoryType

def toUInt8 : MemoryType → UInt8
  | virtualMemory => 0
  | sharedMemory => 1
  | surfaceMemory => 2
  | hardwareMemory => 3
  | unknownMemory => 4
  | customMemory => 5
  | unlisted code _ => code

def ofUInt8 (code : UInt8) : MemoryType :=
  if h : 5 < code then .unlisted code h
  else match code with
    | 0 => virtualMemory
    | 1 => sharedMemory
    | 2 => surfaceMemory
    | 3 => hardwareMemory
    | 4 => unknownMemory
    | _ => customMemory

@[simp] theorem ofUInt8_toUInt8 (t : MemoryType) : ofUInt8 t.toUInt8 = t := by
  cases t with
  | unlisted code h => exact dif_pos h
  | _ => rfl

end MemoryType

inductive MemoryFlag where
  | memoryReadOnly
  | memoryWriteOnly
  | memoryReadWrite
  /-- A byte that no enumerator names, as a cast from `uint8_t` can give. -/
  | unlisted (code : UInt8) (h : code = 0 ∨ 3 < code)
deriving DecidableEq

namespace MemoryFlag

def toUInt8 : MemoryFlag → UInt8
  | memoryReadOnly => 1
  | memoryWriteOnly => 2
  | memoryReadWrite => 3
  | unlisted code _ => code

def ofUInt8 (code : UInt8) : MemoryFlag :=
  if h : code = 0 ∨ 3 < code then .unlisted code h
  else match code with
    | 1 => memoryReadOnly
    | 2 => memoryWriteOnly
    | _ => memoryReadWrite

@[simp] theorem ofUInt8_toUInt8 (f : MemoryFlag) : ofUInt8 f.toUInt8 = f := by
  cases f with
  | unlisted code h => exact dif_pos h
  | _ => rfl

end MemoryFlag

/-- The fields of `BufferRequestConfig` that the buffer code reads or sends. -/
structure BufferRequestConfig where
  width : Int32 := 0
  height : Int32 := 0
  strideAlignment : Int32 := 0
  format : Int32 := 0
  usage : UInt64 := 0
  timeout : Int32 := 0
  colorGamut : Int32 := 0
  transform : Int32 := 0
deriving DecidableEq

structure AVBufferConfig where
  size : Int32 := 0
  align : Int32 := 0
  memoryType : MemoryType := .unknownMemory
  memoryFlag : MemoryFlag := .memoryReadWrite
  surfaceBufferConfig : BufferRequestConfig := {}
  dmaFd : Int32 := -1
  capacity : Int32 := 0
deriving DecidableEq

namespace AVBufferConfig

def configAllocSize (rhs : AVBufferConfig) : Int32 :=
  if rhs.align ≠ 0 then rhs.capacity + rhs.align - 1 else rhs.capacity

/-- `operator<=`: a request for `lhs` can be served by a buffer made for `rhs`. -/
def le (lhs rhs : AVBufferConfig) : Bool :=
  if lhs.memoryType ≠ rhs.memoryType then false
  else match lhs.memoryType with
    | .virtualMemory => decide (lhs.size ≤ rhs.configAllocSize)
    | .sharedMemory | .hardwareMemory =>
      decide (lhs.size ≤ rhs.configAllocSize) &&
        (decide (lhs.memoryFlag = rhs.memoryFlag) ||
          decide (rhs.memoryFlag = .memoryReadWrite))
    | .surfaceMemory =>
      -- every field but the timeout
      decide ({ lhs.surfaceBufferConfig with timeout := 0 } =
        { rhs.surfaceBufferConfig with timeout := 0 })
    | _ => false

end AVBufferConfig

/-! ## Buffers by reference -/

/-- A non-null `std::shared_ptr<AVBuffer>`: which object it points to, and the
`uniqueId_` of that object, which no code changes once queues see the buffer. -/
structure AVBufferRef where
  object : Nat
  uniqueId : UInt64
deriving DecidableEq

end MediaFoundation
