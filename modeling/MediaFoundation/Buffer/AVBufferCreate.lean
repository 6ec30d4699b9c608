import MediaFoundation.Buffer.AVMemory

/-!
# Creating a buffer

The overloads of `AVBuffer::CreateAVBuffer` for virtual and shared memory, the
`Init` of these memories (`av_virtual_memory.cpp`, `av_shared_memory_ext.cpp`),
and the configuration that `GetConfig` reports for them (`avbuffer.cpp`).

A buffer has two capacities. The memory rounds what it is asked for up to its
alignment; `CreateAVBuffer(config)` records what was asked for, and every other
buffer what its memory has.

Conventions:

* What the allocators give is a parameter; none gives memory of negative size.
* Surface and hardware memory come from libraries, and are left out.
-/

namespace MediaFoundation

variable {given : Allocators}

namespace AVMemory

/-- What `Init` makes of `capacity_`. The sum is computed with 64 bits, where it
cannot overflow, and cast back. -/
def initCapacity (capacity align : Int32) : Int32 :=
  if 0 < align then
    Int32.ofInt ((capacity.toInt + align.toInt - 1).tdiv align.toInt * align.toInt)
  else capacity

/-- What `new` and `AshmemCreate` give. -/
structure Allocators where
  heap : Int32 → Bool
  ashmemCreate : Int32 → Option Backing

inductive Allocator where
  | virtual
  | shared (memFlag : MemoryFlag)

def Allocator.getMemoryType : Allocator → MemoryType
  | .virtual => .virtualMemory
  | .shared _ => .sharedMemory

def create (given : Allocators) (allocator : Allocator) (capacity align : Int32) :
    Option AVMemory :=
  if h : 0 ≤ initCapacity capacity align then
    let common : AVMemoryCommon :=
      { capacity := initCapacity capacity align, align, offset := 0, size := 0,
        offset_mem := ⟨Int32.le_refl 0, h⟩, size_mem := ⟨Int32.le_refl 0, h⟩ }
    match allocator with
    | .virtual =>
      if given.heap common.capacity then
        some { common with subclass := .virtual, fd := none, memFlag := .memoryReadWrite }
      else none
    | .shared memFlag =>
      match given.ashmemCreate common.capacity with
      | some backing =>
        if backing.size.toInt32 = common.capacity then
          some { common with subclass := .sharedExt, fd := some backing, memFlag }
        else none
      | none => none
  else none

/-- `CreateAVMemory` for memory that the caller keeps. -/
def ofPointer (capacity size : Int32) : Option AVMemory :=
  if h : 0 ≤ capacity ∧ 0 ≤ size ∧ size ≤ capacity then
    some { capacity, align := 0, offset := 0, size, subclass := .virtual, fd := none,
           memFlag := .memoryReadWrite, offset_mem := ⟨Int32.le_refl 0, h.1⟩, size_mem := h.2 }
  else none

end AVMemory

namespace AVBuffer

def createWithAllocator (given : AVMemory.Allocators) (allocator : AVMemory.Allocator)
    (capacity align : Int32) : Option AVMemory :=
  if 0 ≤ capacity ∧ 0 ≤ align then AVMemory.create given allocator capacity align else none

/-- `CreateAVBuffer` with a configuration, for virtual and shared memory: the
`config_` of the buffer and its memory. -/
def createAVBuffer (given : AVMemory.Allocators) (config : AVBufferConfig) :
    Option (AVBufferConfig × AVMemory) :=
  let capacity := max config.size config.capacity
  match config.memoryType with
  | .virtualMemory =>
    (createWithAllocator given .virtual capacity config.align).map fun m =>
      ({ config with capacity, memoryFlag := .memoryReadWrite }, m)
  | .sharedMemory =>
    (createWithAllocator given (.shared config.memoryFlag) capacity config.align).map fun m =>
      ({ config with capacity }, m)
  | _ => none

/-- `GetConfig`. A buffer that was not made from a configuration asks its memory. -/
def getConfig (config : AVBufferConfig) (m : AVMemory) : AVBufferConfig :=
  if config.memoryType = .unknownMemory then
    { config with
      size := m.size
      memoryType := m.getMemoryType
      capacity := m.capacity
      align := m.align
      memoryFlag := m.memFlag }
  else { config with size := m.size }

/-- The buffers that the code makes: the configuration that `GetConfig` reports
first, and the memory. -/
inductive Made : AVBufferConfig → AVMemory → Prop where
  | ofConfig {given : AVMemory.Allocators} {request config : AVBufferConfig} {m : AVMemory}
      (h : createAVBuffer given request = some (config, m)) : Made (getConfig config m) m
  | ofAllocator {given : AVMemory.Allocators} {allocator : AVMemory.Allocator}
      {capacity align : Int32} {m : AVMemory}
      (h : createWithAllocator given allocator capacity align = some m) : Made (getConfig {} m) m
  | ofPointer {capacity size : Int32} {m : AVMemory}
      (h : AVMemory.ofPointer capacity size = some m) : Made (getConfig {} m) m
  /-- A buffer read from a parcel has the memory of the one that was written. -/
  | received {config : AVBufferConfig} {m mc : AVMemory} (h : Made config m) (hsame : m.Same mc) :
      Made (getConfig {} mc) mc

end AVBuffer

-- Rounding

namespace AVMemory

variable {capacity align : Int32}

theorem toInt_nonneg_iff {x : Int32} : 0 ≤ x ↔ 0 ≤ x.toInt := by
  rw [Int32.le_iff_toInt_le, Int32.toInt_zero]

/-- The sum rounded down is a multiple of the alignment between the capacity and
the estimate of `operator<=`. -/
theorem roundUp_spec {c a : Int} (ha : 0 < a) :
    c ≤ (c + a - 1) / a * a ∧ (c + a - 1) / a * a ≤ c + a - 1 := by
  have hdiv := Int.mul_ediv_add_emod (c + a - 1) a
  have hmod := Int.emod_nonneg (c + a - 1) (Int.ne_of_gt ha)
  have hlt := Int.emod_lt_of_pos (c + a - 1) ha
  rw [Int.mul_comm]
  omega

/-- Where the result is a size at all, the cast has lost nothing. -/
theorem initCapacity_toInt (hcapacity : 0 ≤ capacity) (halign : 0 < align)
    (hsize : 0 ≤ initCapacity capacity align) :
    (initCapacity capacity align).toInt =
      (capacity.toInt + align.toInt - 1) / align.toInt * align.toInt := by
  rw [toInt_nonneg_iff] at hcapacity hsize
  rw [Int32.lt_iff_toInt_lt, Int32.toInt_zero] at halign
  have hc := capacity.toInt_lt
  have ha := align.toInt_lt
  have hround := roundUp_spec (c := capacity.toInt) halign
  have hpos : (0 : Int32) < align := by
    rw [Int32.lt_iff_toInt_lt, Int32.toInt_zero]
    exact halign
  rw [initCapacity, if_pos hpos, Int.tdiv_eq_ediv_of_nonneg (by omega), Int32.toInt_ofInt] at hsize ⊢
  -- from 2^31 on the cast would be negative
  have hwidth : ((Int32.size : Nat) : Int) = 4294967296 := rfl
  rw [Int.bmod_def, hwidth] at hsize ⊢
  omega

theorem le_initCapacity (hcapacity : 0 ≤ capacity) (hsize : 0 ≤ initCapacity capacity align) :
    capacity ≤ initCapacity capacity align := by
  by_cases halign : 0 < align
  · rw [Int32.le_iff_toInt_le, initCapacity_toInt hcapacity halign hsize]
    rw [Int32.lt_iff_toInt_lt, Int32.toInt_zero] at halign
    exact (roundUp_spec halign).1
  · rw [initCapacity, if_neg halign]
    exact Int32.le_refl _

theorem initCapacity_initCapacity (hcapacity : 0 ≤ capacity)
    (hsize : 0 ≤ initCapacity capacity align) :
    initCapacity (initCapacity capacity align) align = initCapacity capacity align := by
  by_cases halign : 0 < align
  · have hfirst := initCapacity_toInt hcapacity halign hsize
    generalize initCapacity capacity align = c at hfirst hsize
    have ha : 0 < align.toInt := by
      rw [Int32.lt_iff_toInt_lt, Int32.toInt_zero] at halign
      exact halign
    have hround : (c.toInt + align.toInt - 1) / align.toInt * align.toInt = c.toInt := by
      rw [hfirst]
      generalize (capacity.toInt + align.toInt - 1) / align.toInt = k
      have hk : k * align.toInt + align.toInt - 1 = (align.toInt - 1) + align.toInt * k := by ring
      rw [hk, Int.add_mul_ediv_left _ _ (Int.ne_of_gt ha),
        Int.ediv_eq_zero_of_lt (by omega) (by omega), Int.zero_add]
    rw [toInt_nonneg_iff] at hsize
    rw [initCapacity, if_pos halign, Int.tdiv_eq_ediv_of_nonneg (by omega), hround,
      Int32.ofInt_toInt]
  · rw [initCapacity, if_neg halign, initCapacity, if_neg halign]

def Rounded (m : AVMemory) : Prop := initCapacity m.capacity m.align = m.capacity

theorem create_capacity {allocator : Allocator} {m : AVMemory}
    (h : create given allocator capacity align = some m) :
    0 ≤ initCapacity capacity align ∧ m.capacity = initCapacity capacity align ∧
      m.align = align ∧ m.getMemoryType = allocator.getMemoryType := by
  unfold create at h
  split at h
  next hsize =>
    refine ⟨hsize, ?_⟩
    simp only at h
    split at h
    · split at h
      · cases h
        exact ⟨rfl, rfl, rfl⟩
      · cases h
    · split at h
      · split at h
        · cases h
          exact ⟨rfl, rfl, rfl⟩
        · cases h
      · cases h
  · cases h

end AVMemory

namespace AVBuffer

open AVMemory

variable {config : AVBufferConfig} {m : AVMemory}

theorem createWithAllocator_capacity {allocator : Allocator}
    {capacity align : Int32} (h : createWithAllocator given allocator capacity align = some m) :
    0 ≤ capacity ∧ 0 ≤ initCapacity capacity align ∧ m.capacity = initCapacity capacity align ∧
      m.align = align ∧ m.getMemoryType = allocator.getMemoryType := by
  unfold createWithAllocator at h
  split at h
  next hargs => exact ⟨hargs.1, create_capacity h⟩
  · cases h

theorem createWithAllocator_rounded {allocator : Allocator}
    {capacity align : Int32} (h : createWithAllocator given allocator capacity align = some m) :
    m.Rounded := by
  obtain ⟨hcapacity, hsize, hcap, halign, -⟩ := createWithAllocator_capacity h
  rw [Rounded, hcap, halign]
  exact initCapacity_initCapacity hcapacity hsize

theorem createAVBuffer_capacity {request : AVBufferConfig}
    (h : createAVBuffer given request = some (config, m)) :
    config.capacity = max request.size request.capacity ∧ config.align = request.align ∧
      config.memoryType = request.memoryType ∧ config.memoryType = m.getMemoryType ∧
      0 ≤ config.capacity ∧ 0 ≤ initCapacity config.capacity config.align ∧
      m.capacity = initCapacity config.capacity config.align ∧ m.align = config.align := by
  unfold createAVBuffer at h
  simp only at h
  split at h
  case h_3 => cases h
  all_goals
    rename_i htype
    obtain ⟨u, hu, heq⟩ := Option.map_eq_some_iff.mp h
    obtain ⟨rfl, rfl⟩ := Prod.mk.inj heq
    obtain ⟨hcapacity, hsize, hcap, halign, hmem⟩ := createWithAllocator_capacity hu
    exact ⟨rfl, rfl, rfl, htype.trans hmem.symm, hcapacity, hsize, hcap, halign⟩

/-- A buffer that records its memory's own numbers. -/
theorem getConfig_unknown (m : AVMemory) :
    (getConfig {} m).capacity = m.capacity ∧ (getConfig {} m).align = m.align := by
  unfold getConfig
  exact ⟨rfl, rfl⟩

theorem createAVBuffer_getConfig {request : AVBufferConfig}
    (h : createAVBuffer given request = some (config, m)) :
    getConfig config m = { config with size := m.size } := by
  obtain ⟨-, -, -, htype, -⟩ := createAVBuffer_capacity h
  have hknown : config.memoryType ≠ .unknownMemory := by
    rw [htype, getMemoryType]
    split <;> nofun
  rw [getConfig, if_neg hknown]

theorem Made.rounded (h : Made config m) : m.Rounded := by
  induction h with
  | ofConfig h =>
    obtain ⟨-, -, -, -, hcapacity, hsize, hcap, halign⟩ := createAVBuffer_capacity h
    rw [Rounded, hcap, halign]
    exact initCapacity_initCapacity hcapacity hsize
  | ofAllocator h => exact createWithAllocator_rounded h
  | ofPointer h =>
    unfold AVMemory.ofPointer at h
    split at h
    · cases h
      rfl
    · cases h
  | received _ hsame ih =>
    rw [Rounded, hsame.capacity, hsame.align]
    exact ih

/-- **The memory has the recorded capacity, rounded up** to the recorded alignment. -/
theorem Made.capacity (h : Made config m) :
    m.capacity = initCapacity config.capacity config.align := by
  have hrounded := h.rounded
  cases h with
  | ofConfig h =>
    rw [createAVBuffer_getConfig h]
    exact (createAVBuffer_capacity h).2.2.2.2.2.2.1
  | ofAllocator h | ofPointer h | received _ hsame =>
    rw [(getConfig_unknown m).1, (getConfig_unknown m).2]
    exact hrounded.symm

theorem createAVBuffer_fits {request : AVBufferConfig}
    (h : createAVBuffer given request = some (config, m)) : request.size ≤ m.capacity := by
  obtain ⟨hmax, -, -, -, hcapacity, hsize, hcap, -⟩ := createAVBuffer_capacity h
  rw [hcap]
  refine Int32.le_trans ?_ (le_initCapacity hcapacity hsize)
  rw [hmax]
  show request.size ≤ if request.size ≤ request.capacity then request.capacity else request.size
  split
  next hle => exact hle
  next => exact Int32.le_refl _

end AVBuffer

end MediaFoundation
