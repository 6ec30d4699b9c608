import MediaFoundation.Lib.Runs
import MediaFoundation.Lib.Slices

/-!
# The memory of a plugin buffer

`Memory` and the three ways to get one of a `Buffer` (`plugin_buffer.cpp`; the copy in the engine
does the same). Sums of sizes and positions are those of `size_t`.

Conventions:

* An allocation succeeds, and has a byte behind it that has an address.
* A memory whose start is not asked for is where its allocation is: a place is a number of bytes
  from the start of the allocation.
* `memcpy_s` fails for no bytes, for more than `SECUREC_MEM_MAX_LEN`, and for a pointer that is
  null or leads into the other range; `accepts` says that the caller's pointer is not one.
-/

namespace MediaFoundation.PluginMemory

open Slices (slice)

def memInvalidPosition : UInt64 := -1

def securecMemMaxLen : Nat := 0x7fffffff

structure Memory where
  capacity : UInt64
  offset : UInt64 := 0
  size : UInt64
  /-- What is allocated. -/
  bytes : List UInt8

-- Creation

def alignUp (num alignment : UInt64) : UInt64 :=
  if 0 < alignment then (num + alignment - 1) &&& ~~~(alignment - 1) else num

def allocSize (capacity align : UInt64) : UInt64 :=
  if align ≠ 0 then capacity + align - 1 else capacity

inductive Origin where
  /-- `AllocMemory`, and the address and the bytes that the allocator gives. -/
  | alloc (capacity align addr : UInt64) (bytes : List UInt8)
  | wrap (capacity size : UInt64) (bytes : List UInt8)

def create : Origin → Memory
  | .alloc capacity align addr bytes =>
    { capacity, offset := alignUp addr align - addr, size := 0, bytes }
  | .wrap capacity size bytes => { capacity, size, bytes }

-- Calls

def memcpyS (length : UInt64) (accepts : Bool) : Bool :=
  accepts && decide (length ≠ 0) && decide (length.toNat ≤ securecMemMaxLen)

namespace Memory

def place (m : Memory) (position : UInt64) : Nat := m.offset.toNat + position.toNat

def writeStart (m : Memory) (position : UInt64) : UInt64 :=
  if position = memInvalidPosition then m.size else min position m.capacity

def writeLength (m : Memory) (writeSize position : UInt64) : UInt64 :=
  min writeSize (m.capacity - m.writeStart position)

def write (m : Memory) (input : List UInt8) (accepts : Bool) (writeSize position : UInt64) :
    Memory × UInt64 :=
  let start := m.writeStart position
  let length := m.writeLength writeSize position
  if memcpyS length accepts then
    ({ m with
      size := start + length
      bytes := Slices.write m.bytes (m.place start) (input.take length.toNat) }, length)
  else (m, 0)

def readStart (m : Memory) (position : UInt64) : UInt64 :=
  if position ≠ memInvalidPosition then min position m.size else 0

def readLength (m : Memory) (readSize position : UInt64) : UInt64 :=
  let maxLength :=
    if position ≠ memInvalidPosition then m.size - m.readStart position else m.size
  min readSize maxLength

def read (m : Memory) (accepts : Bool) (readSize position : UInt64) : List UInt8 :=
  let length := m.readLength readSize position
  if memcpyS length accepts then slice m.bytes (m.place (m.readStart position)) length.toNat
  else []

/-- The position of the pointer, if it is not null. -/
def getReadOnlyData (m : Memory) (position : UInt64) : Option UInt64 :=
  if m.capacity < position then none else some position

def getWritableAddr (m : Memory) (estimatedWriteSize position : UInt64) :
    Memory × Option UInt64 :=
  if m.capacity < position + estimatedWriteSize then (m, none)
  else ({ m with size := estimatedWriteSize + position }, some position)

def updateDataSize (m : Memory) (realWriteSize position : UInt64) : Memory :=
  if m.capacity < position + realWriteSize then m
  else { m with size := realWriteSize + position }

def reset (m : Memory) : Memory := { m with size := 0 }

end Memory

inductive Op where
  /-- `input` is what the pointer leads to. -/
  | write (input : List UInt8) (accepts : Bool) (writeSize position : UInt64)
  | read (accepts : Bool) (readSize position : UInt64)
  | getReadOnlyData (position : UInt64)
  | getWritableAddr (estimatedWriteSize position : UInt64)
  | updateDataSize (realWriteSize position : UInt64)
  | reset

def next (m : Memory) : Op → Memory
  | .write input accepts writeSize position => (m.write input accepts writeSize position).1
  | .read _ _ _ => m
  | .getReadOnlyData _ => m
  | .getWritableAddr estimatedWriteSize position =>
    (m.getWritableAddr estimatedWriteSize position).1
  | .updateDataSize realWriteSize position => m.updateDataSize realWriteSize position
  | .reset => m.reset

def step (m : Memory) (op : Op) : Option Memory := some (next m op)

/-- The ranges of the allocation that a call copies, or returns a pointer to. -/
def ranges (m : Memory) : Op → List (Nat × Nat)
  | .write _ _ writeSize position =>
    [(m.place (m.writeStart position), (m.writeLength writeSize position).toNat)]
  | .read _ readSize position =>
    [(m.place (m.readStart position), (m.readLength readSize position).toNat)]
  | .getReadOnlyData position =>
    (m.getReadOnlyData position).toList.map fun start => (m.place start, 0)
  | .getWritableAddr estimatedWriteSize position =>
    (m.getWritableAddr estimatedWriteSize position).2.toList.map fun start =>
      (m.place start, estimatedWriteSize.toNat)
  | .updateDataSize _ _ => []
  | .reset => []

-- The property and the condition

def SizeExact (m : Memory) : Op → Prop
  | .getWritableAddr n position => position + n ≤ m.capacity →
    (m.getWritableAddr n position).1.size.toNat = n.toNat + position.toNat
  | .updateDataSize n position => position + n ≤ m.capacity →
    (m.updateDataSize n position).size.toNat = n.toNat + position.toNat
  | _ => True

def ReadsBack (m : Memory) : Op → Prop
  | .write input accepts n position =>
    (m.write input accepts n position).1.read true n position =
      input.take (m.write input accepts n position).2.toNat
  | _ => True

structure InBounds (m : Memory) (op : Op) : Prop where
  size : (next m op).size ≤ (next m op).capacity
  sizeExact : SizeExact m op
  ranges : ∀ range ∈ ranges m op, range.1 + range.2 ≤ m.bytes.length

/-- What the allocator and the caller see to. -/
def Origin.Valid : Origin → Prop
  | .alloc capacity align addr bytes =>
    (align = 0 ∨ ∃ k, align.toNat = 2 ^ k) ∧ bytes.length = (allocSize capacity align).toNat ∧
      addr.toNat + bytes.length < 2 ^ 64
  | .wrap capacity size bytes => size ≤ capacity ∧ bytes.length = capacity.toNat

/-- The size of the allocation does not wrap. -/
def Origin.Fits : Origin → Prop
  | .alloc capacity align _ _ => align = 0 ∨ capacity.toNat + align.toNat ≤ 2 ^ 64
  | .wrap _ _ _ => True

/-- The sum wraps, and is taken for one within the capacity. -/
def Wraps (m : Memory) (n position : UInt64) : Prop :=
  2 ^ 64 ≤ position.toNat + n.toNat ∧ position + n ≤ m.capacity

def Op.Fits (m : Memory) : Op → Prop
  | .getWritableAddr n position => ¬ Wraps m n position
  | .updateDataSize n position => ¬ Wraps m n position
  | _ => True

def Op.Copies (m : Memory) : Op → Prop
  | .write input accepts n position =>
    (position = memInvalidPosition → m.size = 0) ∧
      (memcpyS (m.writeLength n position) accepts = true ∨ m.writeLength n position = 0 ∨
        m.size ≤ position) ∧
      (m.writeLength n position).toNat ≤ input.length
  | _ => True

-- Sizes

theorem toNat_min (a b : UInt64) : (min a b).toNat = min a.toNat b.toNat := by
  show (if a ≤ b then a else b).toNat = _
  rw [Nat.min_def]
  simp only [UInt64.le_iff_toNat_le]
  split <;> rfl

/-- Clearing the bits of a mask takes away no more than the mask. -/
theorem and_not_bounds (a mask : UInt64) :
    (a &&& ~~~mask).toNat ≤ a.toNat ∧ a.toNat ≤ (a &&& ~~~mask).toNat + mask.toNat := by
  have hdisjoint : (a.toBitVec &&& mask.toBitVec) &&& (a.toBitVec &&& ~~~mask.toBitVec) = 0 := by
    ext i hi
    simp
    tauto
  have hsum : (a.toBitVec &&& mask.toBitVec) + (a.toBitVec &&& ~~~mask.toBitVec) = a.toBitVec := by
    rw [BitVec.add_eq_or_of_and_eq_zero _ _ hdisjoint]
    ext i hi
    simp
    cases a.toBitVec[i] <;> simp
  have hnat := BitVec.toNat_add_of_and_eq_zero hdisjoint
  rw [hsum] at hnat
  have hmask : (a.toBitVec &&& mask.toBitVec).toNat ≤ mask.toBitVec.toNat := by
    rw [BitVec.toNat_and]
    exact Nat.and_le_right
  have hmasked : (a &&& ~~~mask).toNat = (a.toBitVec &&& ~~~mask.toBitVec).toNat := by
    rw [← UInt64.toNat_toBitVec]
    rfl
  rw [hmasked, ← UInt64.toNat_toBitVec a, ← UInt64.toNat_toBitVec mask]
  omega

structure Inv (m : Memory) : Prop where
  size : m.size ≤ m.capacity
  fits : m.offset.toNat + m.capacity.toNat ≤ m.bytes.length

variable {m : Memory} {o : Origin} {op : Op} {n position : UInt64}

theorem toNat_pos {a : UInt64} (h : a ≠ 0) : 0 < a.toNat := by
  rw [Nat.pos_iff_ne_zero]
  intro hzero
  exact h (UInt64.toNat_inj.mp hzero)

theorem toNat_sub_one {a : UInt64} (h : a ≠ 0) : (a - 1).toNat = a.toNat - 1 :=
  UInt64.toNat_sub_of_le _ _ (UInt64.le_iff_toNat_le.mpr (toNat_pos h))

theorem toNat_add_sub_one {a b : UInt64} (hb : b ≠ 0) (hsum : a.toNat + b.toNat ≤ 2 ^ 64) :
    (a + b - 1).toNat = a.toNat + (b.toNat - 1) := by
  have hpos := toNat_pos hb
  have hassoc : a + b - 1 = a + (b - 1) := by
    rw [sub_eq_add_neg, sub_eq_add_neg, add_assoc]
  rw [hassoc, UInt64.toNat_add, toNat_sub_one hb]
  exact Nat.mod_eq_of_lt (by omega)

/-- The aligned start leaves room for the capacity. -/
theorem offset_le (addr : UInt64) {align : UInt64} (halign : align ≠ 0)
    (hend : addr.toNat + align.toNat ≤ 2 ^ 64) :
    (alignUp addr align - addr).toNat < align.toNat := by
  have hpos := toNat_pos halign
  have hsum := toNat_add_sub_one halign hend
  have hmask := toNat_sub_one halign
  obtain ⟨hle, hge⟩ := and_not_bounds (addr + align - 1) (align - 1)
  unfold alignUp
  rw [if_pos (UInt64.lt_iff_toNat_lt.mpr (show (0 : UInt64).toNat < _ from hpos)),
    UInt64.toNat_sub_of_le _ _ (UInt64.le_iff_toNat_le.mpr (by omega))]
  omega

theorem create_inv (hvalid : o.Valid) (hfits : o.Fits) : Inv (create o) := by
  cases o with
  | wrap capacity size bytes =>
    refine ⟨hvalid.1, ?_⟩
    show 0 + capacity.toNat ≤ bytes.length
    rw [hvalid.2]
    omega
  | alloc capacity align addr bytes =>
    obtain ⟨-, hlength, hend⟩ := hvalid
    refine ⟨UInt64.le_iff_toNat_le.mpr (Nat.zero_le _), ?_⟩
    show (alignUp addr align - addr).toNat + capacity.toNat ≤ bytes.length
    by_cases hnone : align = 0
    · rw [hlength, hnone]
      simp [allocSize, alignUp]
    · have hsum := toNat_add_sub_one hnone (hfits.resolve_left hnone)
      rw [allocSize, if_pos hnone] at hlength
      have hpos := toNat_pos hnone
      have hoffset := offset_le addr hnone (by omega)
      omega

-- Calls

theorem Inv.size_toNat (h : Inv m) : m.size.toNat ≤ m.capacity.toNat :=
  UInt64.le_iff_toNat_le.mp h.size

theorem writeStart_le (h : Inv m) (position : UInt64) :
    (m.writeStart position).toNat ≤ m.capacity.toNat := by
  have hsize := h.size_toNat
  unfold Memory.writeStart
  split
  · exact hsize
  · rw [toNat_min]
    omega

theorem writeLength_toNat (h : Inv m) (n position : UInt64) :
    (m.writeLength n position).toNat =
      min n.toNat (m.capacity.toNat - (m.writeStart position).toNat) := by
  unfold Memory.writeLength
  rw [toNat_min, UInt64.toNat_sub_of_le _ _ (UInt64.le_iff_toNat_le.mpr (writeStart_le h position))]

theorem readStart_le (m : Memory) (position : UInt64) :
    (m.readStart position).toNat ≤ m.size.toNat := by
  unfold Memory.readStart
  split
  · rw [toNat_min]
    omega
  · exact Nat.zero_le _

theorem readLength_toNat (m : Memory) (n position : UInt64) :
    (m.readLength n position).toNat = min n.toNat (m.size.toNat - (m.readStart position).toNat) := by
  have hstart := readStart_le m position
  unfold Memory.readLength
  rw [toNat_min]
  split
  · rw [UInt64.toNat_sub_of_le _ _ (UInt64.le_iff_toNat_le.mpr hstart)]
  · rename_i hnone
    simp [Memory.readStart, hnone]

theorem writeEnd_toNat (h : Inv m) (n position : UInt64) :
    (m.writeStart position + m.writeLength n position).toNat =
      (m.writeStart position).toNat + (m.writeLength n position).toNat := by
  have hstart := writeStart_le h position
  have hlength := writeLength_toNat h n position
  have hcapacity := m.capacity.toNat_lt
  rw [UInt64.toNat_add]
  exact Nat.mod_eq_of_lt (by omega)

theorem Inv.write (h : Inv m) (input : List UInt8) (accepts : Bool) (n position : UInt64) :
    Inv (m.write input accepts n position).1 := by
  have hstart := writeStart_le h position
  have hlength := writeLength_toNat h n position
  have hend := writeEnd_toNat h n position
  have hfits := h.fits
  unfold Memory.write
  dsimp only
  split
  · refine ⟨UInt64.le_iff_toNat_le.mpr ?_, ?_⟩
    · show (m.writeStart position + m.writeLength n position).toNat ≤ m.capacity.toNat
      omega
    · show m.offset.toNat + m.capacity.toNat ≤ (Slices.write _ _ _).length
      rw [Slices.length_write]
      · exact hfits
      · rw [List.length_take]
        unfold Memory.place
        omega
  · exact h

theorem Inv.next (h : Inv m) (op : Op) : Inv (next m op) := by
  cases op with
  | write input accepts n position => exact h.write input accepts n position
  | read accepts n position | getReadOnlyData position => exact h
  | getWritableAddr n position =>
    show Inv (m.getWritableAddr n position).1
    unfold Memory.getWritableAddr
    split
    · exact h
    · rename_i hle
      exact ⟨by rw [add_comm]; exact UInt64.not_lt.mp hle, h.fits⟩
  | updateDataSize n position =>
    show Inv (m.updateDataSize n position)
    unfold Memory.updateDataSize
    split
    · exact h
    · rename_i hle
      exact ⟨by rw [add_comm]; exact UInt64.not_lt.mp hle, h.fits⟩
  | reset => exact ⟨UInt64.le_iff_toNat_le.mpr (Nat.zero_le _), h.fits⟩

-- What is written is read

theorem memcpyS_zero (accepts : Bool) : memcpyS 0 accepts = false := by
  simp [memcpyS]

theorem readStart_toNat (m : Memory) (position : UInt64) :
    (m.readStart position).toNat =
      if position = memInvalidPosition then 0 else min position.toNat m.size.toNat := by
  unfold Memory.readStart
  by_cases hnone : position = memInvalidPosition
  · simp [hnone]
  · simp [hnone, toNat_min]

theorem writeStart_toNat (m : Memory) (position : UInt64) :
    (m.writeStart position).toNat =
      if position = memInvalidPosition then m.size.toNat
      else min position.toNat m.capacity.toNat := by
  unfold Memory.writeStart
  by_cases hnone : position = memInvalidPosition
  · simp [hnone]
  · simp [hnone, toNat_min]

theorem read_nothing (h : Inv m) (hempty : position = memInvalidPosition → m.size = 0)
    (hnothing : m.writeLength n position = 0 ∨ m.size ≤ position) :
    m.read true n position = [] := by
  have hzero : (m.readLength n position).toNat = 0 := by
    have hsize := h.size_toNat
    have hstart := readStart_toNat m position
    have hwrite := writeStart_toNat m position
    have hlength := writeLength_toNat h n position
    rw [readLength_toNat]
    by_cases hnone : position = memInvalidPosition
    · rw [hempty hnone]
      simp
    · rw [if_neg hnone] at hstart hwrite
      rcases hnothing with hzero | hle
      · rw [hzero] at hlength
        have hzero' : (0 : UInt64).toNat = 0 := rfl
        omega
      · have hle' := UInt64.le_iff_toNat_le.mp hle
        omega
  have hread : m.readLength n position = 0 := UInt64.toNat_inj.mp hzero
  simp [Memory.read, hread, memcpyS_zero]

theorem read_copied (h : Inv m) {input : List UInt8} {accepts : Bool}
    (hempty : position = memInvalidPosition → m.size = 0)
    (hcopied : memcpyS (m.writeLength n position) accepts = true)
    (hinput : (m.writeLength n position).toNat ≤ input.length) :
    (m.write input accepts n position).1.read true n position =
      input.take (m.writeLength n position).toNat := by
  have hstart := writeStart_le h position
  have hlength := writeLength_toNat h n position
  have hend := writeEnd_toNat h n position
  have hwrite := writeStart_toNat m position
  have hfits := h.fits
  simp only [memcpyS, Bool.and_eq_true, decide_eq_true_eq] at hcopied
  have hsome := toNat_pos hcopied.1.2
  generalize ht : (m.write input accepts n position).1 = t
  have hwritten : t = { m with
      size := m.writeStart position + m.writeLength n position
      bytes := Slices.write m.bytes (m.place (m.writeStart position))
        (input.take (m.writeLength n position).toNat) } := by
    rw [← ht]
    simp [Memory.write, memcpyS, hcopied]
  have hsize : t.size.toNat =
      (m.writeStart position).toNat + (m.writeLength n position).toNat := by
    rw [hwritten]
    exact hend
  have hreadStart : t.readStart position = m.writeStart position := by
    rw [← UInt64.toNat_inj, readStart_toNat]
    by_cases hnone : position = memInvalidPosition
    · rw [if_pos hnone] at hwrite ⊢
      rw [hwrite, hempty hnone]
      rfl
    · rw [if_neg hnone] at hwrite ⊢
      omega
  have hreadLength : t.readLength n position = m.writeLength n position := by
    rw [← UInt64.toNat_inj, readLength_toNat, hreadStart]
    omega
  have htaken : (input.take (m.writeLength n position).toNat).length =
      (m.writeLength n position).toNat := by
    rw [List.length_take]
    omega
  have hslice : slice t.bytes (m.place (m.writeStart position))
      (m.writeLength n position).toNat = input.take (m.writeLength n position).toNat := by
    have hplace : m.place (m.writeStart position) ≤ m.bytes.length := by
      unfold Memory.place
      omega
    have hback : slice t.bytes (m.place (m.writeStart position))
        (input.take (m.writeLength n position).toNat).length =
          input.take (m.writeLength n position).toNat := by
      rw [hwritten]
      exact Slices.slice_write hplace
    rw [htaken] at hback
    exact hback
  have hplace : t.place (t.readStart position) = m.place (m.writeStart position) := by
    rw [hreadStart, hwritten]
    rfl
  have hcopies : memcpyS (t.readLength n position) true = true := by
    simp [memcpyS, hreadLength, hcopied]
  unfold Memory.read
  dsimp only
  rw [if_pos hcopies, hplace, hreadLength]
  exact hslice

theorem readsBack (h : Inv m) {input : List UInt8} {accepts : Bool}
    (hcopies : (Op.write input accepts n position).Copies m) :
    ReadsBack m (.write input accepts n position) := by
  obtain ⟨hempty, hcopy, hinput⟩ := hcopies
  show (m.write input accepts n position).1.read true n position =
    input.take (m.write input accepts n position).2.toNat
  by_cases hcopied : memcpyS (m.writeLength n position) accepts = true
  · have hcount : (m.write input accepts n position).2 = m.writeLength n position := by
      simp [Memory.write, hcopied]
    rw [read_copied h hempty hcopied hinput, hcount]
  · have hsame : m.write input accepts n position = (m, 0) := by
      simp [Memory.write, hcopied]
    rw [hsame]
    exact read_nothing h hempty (hcopy.resolve_left hcopied)

-- All calls

theorem exact_of_not_wraps (hwraps : ¬ Wraps m n position) (hle : position + n ≤ m.capacity) :
    position.toNat + n.toNat < 2 ^ 64 ∧ position.toNat + n.toNat ≤ m.capacity.toNat := by
  have hlt : position.toNat + n.toNat < 2 ^ 64 := by
    by_contra hlarge
    exact hwraps ⟨by omega, hle⟩
  have hle' := UInt64.le_iff_toNat_le.mp hle
  rw [UInt64.toNat_add, Nat.mod_eq_of_lt hlt] at hle'
  exact ⟨hlt, hle'⟩

theorem sizeExact (hfits : op.Fits m) : SizeExact m op := by
  cases op with
  | getWritableAddr n position =>
    intro hle
    obtain ⟨hlt, -⟩ := exact_of_not_wraps hfits hle
    show (m.getWritableAddr n position).1.size.toNat = _
    rw [Memory.getWritableAddr, if_neg (UInt64.not_lt.mpr hle)]
    show (n + position).toNat = _
    rw [UInt64.toNat_add]
    exact Nat.mod_eq_of_lt (by omega)
  | updateDataSize n position =>
    intro hle
    obtain ⟨hlt, -⟩ := exact_of_not_wraps hfits hle
    show (m.updateDataSize n position).size.toNat = _
    rw [Memory.updateDataSize, if_neg (UInt64.not_lt.mpr hle)]
    show (n + position).toNat = _
    rw [UInt64.toNat_add]
    exact Nat.mod_eq_of_lt (by omega)
  | _ => trivial

theorem ranges_right (h : Inv m) (hfits : op.Fits m) :
    ∀ range ∈ ranges m op, range.1 + range.2 ≤ m.bytes.length := by
  have hroom := h.fits
  have hsize := h.size_toNat
  intro range hrange
  cases op with
  | write input accepts n position =>
    have hstart := writeStart_le h position
    have hlength := writeLength_toNat h n position
    rw [List.mem_singleton.mp hrange]
    unfold Memory.place
    omega
  | read accepts n position =>
    have hstart := readStart_le m position
    have hlength := readLength_toNat m n position
    rw [List.mem_singleton.mp hrange]
    unfold Memory.place
    omega
  | getReadOnlyData position =>
    obtain ⟨start, hstart, rfl⟩ := List.mem_map.mp hrange
    rw [Option.mem_toList, Memory.getReadOnlyData] at hstart
    split at hstart
    · cases hstart
    · rename_i hle
      cases hstart
      have hle' := UInt64.le_iff_toNat_le.mp (UInt64.not_lt.mp hle)
      unfold Memory.place
      dsimp only
      omega
  | getWritableAddr n position =>
    obtain ⟨start, hstart, rfl⟩ := List.mem_map.mp hrange
    rw [Option.mem_toList, Memory.getWritableAddr] at hstart
    split at hstart
    · cases hstart
    · rename_i hle
      cases hstart
      obtain ⟨-, hle'⟩ := exact_of_not_wraps hfits (UInt64.not_lt.mp hle)
      unfold Memory.place
      dsimp only
      omega
  | updateDataSize n position | reset => cases hrange

/-- **The memory stays in bounds** in every run of calls whose sums do not wrap, and what a call
copies can be read. -/
theorem memory_runs (origin : Origin) (ops : List Op) (hvalid : origin.Valid)
    (hfits : origin.Fits) (hops : Runs.Along step (fun m op => op.Fits m) (create origin) ops) :
    Runs.Along step (fun m op => InBounds m op ∧ (op.Copies m → ReadsBack m op)) (create origin)
      ops := by
  refine Runs.along_imp (I := Inv) ?_ ?_ (create_inv hvalid hfits) hops
  · intro m op h hop
    refine ⟨⟨(h.next op).size, sizeExact hop, ranges_right h hop⟩, fun hcopies => ?_⟩
    cases op with
    | write input accepts n position => exact readsBack h hcopies
    | _ => trivial
  · intro m op t h _ hstep
    cases hstep
    exact h.next op

def fourAligned : Origin := .alloc 4 8 4100 (List.replicate 11 0)

/-- The second `Write` appends to what the first one has written. -/
def writeAndAppend : List Op :=
  [.write [1, 2, 3, 4, 5] true 2 1, .write [6] true 1 memInvalidPosition, .updateDataSize 2 0,
    .reset]

theorem memory_runs_four :
    Runs.Along step (fun m op => InBounds m op ∧ (op.Copies m → ReadsBack m op))
      (create fourAligned) writeAndAppend := by
  refine memory_runs fourAligned writeAndAppend ⟨Or.inr ⟨3, by decide⟩, by decide, by decide⟩
    (Or.inr (by decide)) ⟨trivial, trivial, fun hwraps => ?_, trivial, trivial⟩
  exact absurd hwraps.1 (by decide)

/-- The length is -1 as a number of bytes, and the memory's size is set to 0. -/
theorem writableAddr_wraps :
    ¬ Runs.Along step InBounds (create fourAligned) [.getWritableAddr (-1) 1] := by
  intro h
  have hrange := h.1.ranges (5, (-1 : UInt64).toNat) (by decide)
  revert hrange
  decide

end MediaFoundation.PluginMemory
