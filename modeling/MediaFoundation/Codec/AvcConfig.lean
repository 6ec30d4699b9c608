import Mathlib

/-!
# AVCConfigDataParser

`avc_config_data_parser.cpp` and the part of `bit_reader.h` that it uses.

Conventions:

* A pointer into a buffer is the number of bytes before it. An access outside
  the buffer is undefined: the whole computation is `none`.
* A function that returns a bool gives it with the parser as it leaves it. A
  bit that is not there leaves the reader and the value as they are.
* Allocation does not fail. `cfgSet.items` is the list of its items, and each
  item is its bytes with the start code.
-/

namespace MediaFoundation.AvcConfig

-- BitReader

structure BitReader where
  buffer : List UInt8
  cur : Nat := 0
  availBits : Nat := 8

namespace BitReader

def getAvailableBits (r : BitReader) : Nat :=
  if r.cur ≠ r.buffer.length then (r.buffer.length - r.cur - 1) * 8 + r.availBits else 0

/-- The loop of `ReadBits` into a value of `width` bits. Each round reads a bit at least. -/
def readLoop (width : Nat) : Nat → BitReader → Nat → Nat → Option (Nat × BitReader)
  | 0, r, _, val => some (val, r)
  | fuel + 1, r, remainBits, val =>
    if remainBits = 0 then some (val, r)
    else
      let r := if r.availBits = 0 then { r with cur := r.cur + 1, availBits := 8 } else r
      let toRead := min remainBits r.availBits
      let shift := r.availBits - toRead
      let mask := 0xFF >>> (8 - toRead)
      r.buffer[r.cur]?.bind fun byte =>
        readLoop width fuel { r with availBits := r.availBits - toRead } (remainBits - toRead)
          ((val <<< toRead ||| (byte.toNat >>> shift &&& mask)) % 2 ^ width)

def readBits (r : BitReader) (width bits : Nat) : Option (Option Nat × BitReader) :=
  if r.getAvailableBits < bits then some (none, r)
  else (readLoop width bits r bits 0).map fun x => (some x.1, x.2)

def skipBits (r : BitReader) (bits : Nat) : BitReader :=
  if bits ≤ r.availBits then { r with availBits := r.availBits - bits }
  else
    let skipBits := bits - r.availBits
    let cur := r.cur + (1 + skipBits / 8)
    if r.buffer.length ≤ cur then { r with cur := r.buffer.length, availBits := 0 }
    else { r with cur, availBits := 8 - skipBits % 8 }

def copyBytes (r : BitReader) (len : Nat) : Option (List UInt8) :=
  if r.cur + len ≤ r.buffer.length then some ((r.buffer.drop r.cur).take len) else none

end BitReader

-- The parser

def avcMinConfigDataSize : Nat := 7

def avcNalHeader : List UInt8 := [0, 0, 0, 1]

def avcMaxConfigItem : Nat := 256

structure AVCConfigDataParser where
  bitReader : BitReader
  cfgData : List UInt8
  nalUnitLen : Nat := 4
  version : Nat := 1
  profile : Nat := 0
  profileCompat : Nat := 0
  level : Nat := 0
  needAddFrameHeader : Bool := false
  items : List (List UInt8) := []
  newCfgData : Option (List UInt8) := none

namespace AVCConfigDataParser

def new (cfgData : List UInt8) : AVCConfigDataParser := { bitReader := { buffer := cfgData }, cfgData }

/-- A member function that returns whether it succeeded. -/
abbrev Member := AVCConfigDataParser → Option (Bool × AVCConfigDataParser)

/-- `if (!f()) return false;` before `g`. -/
def andThen (f g : Member) : Member := fun p =>
  (f p).bind fun x => if x.1 then g x.2 else some (false, x.2)

/-- `ReadBits(1, val)` into a variable of `width` bits, and what is done with it. -/
def reading (width : Nat) (use : Nat → Member) : Member := fun p =>
  (p.bitReader.readBits width 1).bind fun x =>
    match x.1 with
    | some val => use val { p with bitReader := x.2 }
    | none => some (false, { p with bitReader := x.2 })

def parseNalUnitSizeLen : Member :=
  reading 8 fun sizeLen p =>
    let nalUnitLen := (sizeLen &&& 0x3) + 1
    some (nalUnitLen = 1 ∨ nalUnitLen = 2 ∨ nalUnitLen = 4, { p with nalUnitLen })

def parseNalHeader : Member := fun p =>
  if p.bitReader.getAvailableBits < avcMinConfigDataSize then some (false, p)
  else
    andThen (reading 8 fun version p => some (version = 1, { p with version }))
      (andThen (reading 8 fun profile p => some (true, { p with profile }))
        (andThen (reading 8 fun profileCompat p => some (true, { p with profileCompat }))
          (andThen (reading 8 fun level p => some (true, { p with level }))
            parseNalUnitSizeLen))) p

def getSpsOrPpsLen (use : Nat → Member) : Member :=
  reading 8 fun tmp1 => reading 8 fun tmp2 p =>
    let len := (tmp1 <<< 8 ||| tmp2) &&& 0xFFFF
    if p.bitReader.getAvailableBits < len then some (false, p) else use len p

def parseItem : Member := fun p =>
  if p.bitReader.getAvailableBits < 2 then some (false, p)
  else
    getSpsOrPpsLen (fun len p =>
      if avcMaxConfigItem ≤ p.items.length then some (false, p)
      else
        (p.bitReader.copyBytes len).map fun bytes =>
          (true, { p with
            items := p.items ++ [avcNalHeader ++ bytes]
            bitReader := p.bitReader.skipBits len })) p

def parseItems : Nat → Member
  | 0 => fun p => some (true, p)
  | setCount + 1 => andThen parseItem (parseItems setCount)

def parseSpsOrPps (mask : Nat) : Member := reading 32 fun setCount => parseItems (setCount &&& mask)

def parseNal : Member :=
  andThen parseNalHeader <| andThen (parseSpsOrPps 0x1F) fun p =>
    if p.bitReader.getAvailableBits < 1 then some (false, p) else parseSpsOrPps 0xFF p

/-- The copies of the items one behind the other into a buffer of `size` bytes,
which is never larger than they are. -/
def copyItems (size : Nat) (items : List (List UInt8)) : Option (List UInt8) :=
  if items.flatten.length ≤ size then some items.flatten else none

def parseConfigData : Member := fun p =>
  (parseNal p).bind fun x =>
    let p := x.2
    if !x.1 then
      let p :=
        if p.cfgData.length < 3 ∨ ¬ (p.version = 0 ∧ p.profile = 0 ∧ p.profileCompat ≤ 1) then
          { p with needAddFrameHeader := true }
        else p
      if p.cfgData.length = 0 then some (false, p)
      else some (true, { p with newCfgData := some p.cfgData })
    else
      let p := { p with needAddFrameHeader := true }
      if p.items.length = 0 then some (false, p)
      else
        let newCfgDataSize := (p.items.map fun item => item.length &&& 0xFFF).sum
        (copyItems newCfgDataSize p.items).map fun bytes =>
          (true, { p with newCfgData := some bytes })

end AVCConfigDataParser

def convert (cfgData : List UInt8) : Option (Bool × Option (List UInt8)) :=
  (AVCConfigDataParser.parseConfigData (.new cfgData)).map fun x => (x.1, x.2.newCfgData)

end MediaFoundation.AvcConfig
