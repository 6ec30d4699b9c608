import MediaFoundation.Buffer.MappedMemory

/-!
# The bounds of a memory

The size and the offset of a memory stay within its capacity, which is the size
of what is mapped, and `Write` and `Read` stay within it. That takes a creation
and updates whose surfaces and allocators are as large as the numbers say: the
header of a parcel is checked against the capacity in the header, and a surface
that is read then brings another.
-/

namespace MediaFoundation.MappedMemory

open Wire ParcelM

-- Operations

inductive Op where
  | setSize (size : Int32)
  | setOffset (offset : Int32)
  | getAddr
  | write (hasIn : Bool) (writeSize position : Int32) (overlaps : Bool)
  | read (hasOut : Bool) (readSize position : Int32) (overlaps : Bool)
  | reset
  | update (parcel : MessageParcel)

/-- The memory afterwards, and what has been computed and copied. -/
def step (services : Services) (m : MappedMemory) : Op → MappedMemory × Access
  | .setSize size => (m.setSize size, {})
  | .setOffset offset => (m.setOffset offset, {})
  | .getAddr => (m.getAddr services, {})
  | .write hasIn writeSize position overlaps =>
    let r := m.write services hasIn writeSize position overlaps
    (r.1, r.2.2)
  | .read hasOut readSize position overlaps =>
    let r := m.read services hasOut readSize position overlaps
    (r.1, r.2.2)
  | .reset => (m.reset, {})
  | .update p =>
    match (m.updateFromMessageParcel services p).1 with
    | some (_, m) => (m, {})
    | none => (m, {})

-- Bounds

/-- How much of the memory at a pointer is still mapped. What a surface mapped goes
with the surface. -/
def mappedLength (m : MappedMemory) (region : Region) : Nat :=
  if region.surfaceBuffer = m.surfaceBuffer then region.length else 0

/-- **Within bounds**: the size and the offset, and the capacity is what is mapped. -/
structure Bounded (m : MappedMemory) : Prop where
  size_mem : 0 ≤ m.size ∧ m.size ≤ m.capacity
  offset_mem : 0 ≤ m.offset ∧ m.offset ≤ m.capacity
  mapped : ∀ region, m.base = some region → (mappedLength m region : Int) = m.capacity.toInt

def Access.Safe (m : MappedMemory) (access : Access) : Prop :=
  (∀ n ∈ access.exact, -(2 ^ 31) ≤ n ∧ n < 2 ^ 31) ∧
    ∀ c ∈ access.copied, 0 ≤ c.1 ∧ 0 ≤ c.2 ∧
      ∃ region, m.base = some region ∧ c.1 + c.2 ≤ mappedLength m region

/-- Memory that is not mapped yet will be as large as the capacity, too. -/
structure Inv (m : MappedMemory) : Prop where
  size_mem : 0 ≤ m.size ∧ m.size ≤ m.capacity
  offset_mem : 0 ≤ m.offset ∧ m.offset ≤ m.capacity
  surface : m.subclass = .surface →
    ∃ surfaceBuffer, m.surfaceBuffer = some surfaceBuffer ∧ surfaceBuffer.size.toInt32 = m.capacity
  no_surface : m.subclass ≠ .surface → m.surfaceBuffer = none
  base : ∀ region, m.base = some region → region = ⟨m.surfaceBuffer, m.capacity.toInt.toNat⟩

variable {services : Services} {m : MappedMemory}

theorem Inv.capacity_nonneg (h : Inv m) : 0 ≤ m.capacity := Int32.le_trans h.size_mem.1 h.size_mem.2

theorem Inv.bounded (h : Inv m) : Bounded m := by
  refine ⟨h.size_mem, h.offset_mem, ?_⟩
  intro region hregion
  have hcapacity := AVMemory.toInt_nonneg_iff.mp h.capacity_nonneg
  rw [h.base region hregion, mappedLength, if_pos rfl]
  exact Int.toNat_of_nonneg hcapacity

theorem access_empty (m : MappedMemory) : Access.Safe m {} := ⟨nofun, nofun⟩

-- The arithmetic of a call

theorem toInt_min (a b : Int32) : (min a b).toInt = min a.toInt b.toInt := by
  have hmin : min a b = if a ≤ b then a else b := rfl
  rw [hmin]
  split
  next h => rw [min_eq_left (Int32.le_iff_toInt_le.mp h)]
  next h =>
    rw [Int32.le_iff_toInt_le] at h
    rw [min_eq_right (by omega)]

theorem toInt_sub_of_le {a b : Int32} (hb : 0 ≤ b.toInt) (h : b.toInt ≤ a.toInt) :
    (a - b).toInt = a.toInt - b.toInt := by
  have ha := a.toInt_lt
  rw [Int32.toInt_sub]
  exact Int.bmod_eq_of_le (by omega) (by omega)

theorem toInt_add_of_le {a b c : Int32} (ha : 0 ≤ a.toInt) (hb : 0 ≤ b.toInt)
    (h : a.toInt + b.toInt ≤ c.toInt) : (a + b).toInt = a.toInt + b.toInt := by
  have hc := c.toInt_lt
  rw [Int32.toInt_add]
  exact Int.bmod_eq_of_le (by omega) (by omega)

-- What is mapped

theorem toUInt64_toNat (x : Int64) : (x.toUInt64.toNat : Int) = x.toInt % 2 ^ 64 := by
  have hlt := x.toUInt64.toNat_lt
  have htwo : x.toInt = if 2 * x.toUInt64.toNat < 2 ^ 64 then (x.toUInt64.toNat : Int)
      else x.toUInt64.toNat - 2 ^ 64 := BitVec.toInt_eq_toNat_cond x.toBitVec
  split_ifs at htwo <;> omega

theorem mapping_of_size {backing : Backing} {capacity : Int32} (hcapacity : 0 ≤ capacity)
    (h : backing.size.toInt32 = capacity) : mapping backing capacity = ⟨none, capacity.toInt.toNat⟩ := by
  have hnonneg := AVMemory.toInt_nonneg_iff.mp hcapacity
  have hsize := toUInt64_toNat backing.size
  have hlow := Int64.toInt_toInt32 backing.size
  rw [h, Int.bmod_def] at hlow
  have hle : min capacity.toInt.toNat backing.size.toUInt64.toNat = capacity.toInt.toNat := by
    split_ifs at hlow <;> omega
  rw [mapping, hle]

theorem mapping_of_mapped {mmap : Mmap} {backing : Backing} {capacity : Int32} {memFlag : MemoryFlag}
    (h : AVMemory.mapMemoryAddr mmap backing capacity memFlag) :
    0 ≤ capacity ∧ mapping backing capacity = ⟨none, capacity.toInt.toNat⟩ := by
  simp only [AVMemory.mapMemoryAddr, Bool.and_eq_true, decide_eq_true_eq] at h
  obtain ⟨⟨hpos, hle⟩, -⟩ := h
  rw [Int32.lt_iff_toInt_lt, Int32.toInt_zero] at hpos
  rw [Int64.le_iff_toInt_le, Int32.toInt_toInt64] at hle
  have hsize := toUInt64_toNat backing.size
  have hlt := backing.size.toInt_lt
  have hmin : min capacity.toInt.toNat backing.size.toUInt64.toNat = capacity.toInt.toNat := by omega
  refine ⟨AVMemory.toInt_nonneg_iff.mpr (by omega), ?_⟩
  rw [mapping, hmin]

/-- A surface of less than two gigabytes has the size that the code sees. -/
theorem toNat_toInt32_of_nonneg {size : UInt32} (h : 0 ≤ size.toInt32) :
    size.toNat = size.toInt32.toInt.toNat := by
  have hnonneg := AVMemory.toInt_nonneg_iff.mp h
  have htwo : size.toInt32.toInt = if 2 * size.toNat < 2 ^ 32 then (size.toNat : Int)
      else size.toNat - 2 ^ 32 := BitVec.toInt_eq_toNat_cond size.toBitVec
  have hlt := size.toNat_lt
  split_ifs at htwo <;> omega

theorem toInt32_nonneg {size : UInt32} (h : size < 2 ^ 31) : 0 ≤ size.toInt32 := by
  rw [AVMemory.toInt_nonneg_iff]
  have htwo : size.toInt32.toInt = if 2 * size.toNat < 2 ^ 32 then (size.toNat : Int)
      else size.toNat - 2 ^ 32 := BitVec.toInt_eq_toNat_cond size.toBitVec
  have hlt : size.toNat < 2 ^ 31 := UInt32.lt_iff_toNat_lt.mp h
  rw [if_pos (by omega)] at htwo
  omega

-- The operations

theorem setSize_inv (h : Inv m) (size : Int32) : Inv (m.setSize size) := by
  unfold setSize
  split
  next hsize => exact { h with size_mem := ⟨hsize.2, hsize.1⟩ }
  · exact h

theorem setOffset_inv (h : Inv m) (offset : Int32) : Inv (m.setOffset offset) := by
  unfold setOffset
  split
  next hoffset => exact { h with offset_mem := ⟨hoffset.2, hoffset.1⟩ }
  · exact h

theorem reset_inv (h : Inv m) : Inv m.reset :=
  { h with size_mem := ⟨Int32.le_refl 0, h.capacity_nonneg⟩ }

/-- What becomes mapped is as large as the capacity. -/
theorem getAddr_inv (services : Services) (h : Inv m) : Inv (m.getAddr services) := by
  unfold getAddr
  split
  · exact h
  split
  next hsub _ =>
    split
    next hmap =>
      have hnone := h.no_surface (by rw [hsub]; exact nofun)
      refine { h with base := ?_ }
      rintro region ⟨⟩
      show mapping _ m.capacity = ⟨m.surfaceBuffer, m.capacity.toInt.toNat⟩
      rw [hnone, mapping_of_size h.capacity_nonneg hmap.2.1]
    · exact h
  next surfaceBuffer hsub hsurface =>
    obtain ⟨_, hsome, hsize⟩ := h.surface hsub
    rw [hsurface] at hsome
    cases hsome
    split
    · refine { h with base := ?_ }
      rintro region ⟨⟩
      show Region.mk (some surfaceBuffer) _ = ⟨m.surfaceBuffer, m.capacity.toInt.toNat⟩
      have hnonneg : 0 ≤ surfaceBuffer.size.toInt32 := hsize ▸ h.capacity_nonneg
      rw [hsurface, toNat_toInt32_of_nonneg hnonneg, hsize]
    · exact { h with }
  · exact h

theorem Inv.toInt_mem (h : Inv m) :
    0 ≤ m.size.toInt ∧ m.size.toInt ≤ m.capacity.toInt ∧ m.capacity.toInt < 2 ^ 31 :=
  ⟨AVMemory.toInt_nonneg_iff.mp h.size_mem.1, Int32.le_iff_toInt_le.mp h.size_mem.2, m.capacity.toInt_lt⟩

theorem start_mem (position : Int32) {default limit : Int32}
    (hdefault : 0 ≤ default.toInt ∧ default.toInt ≤ limit.toInt) :
    0 ≤ (if position ≤ invalidPosition then default else min position limit).toInt ∧
      (if position ≤ invalidPosition then default else min position limit).toInt ≤ limit.toInt := by
  split
  · exact hdefault
  next hposition =>
    rw [Int32.le_iff_toInt_le] at hposition
    have hminus : invalidPosition.toInt = -1 := rfl
    rw [toInt_min]
    omega

theorem length_mem {want start limit : Int32} (hwant : 0 < want) (hstart : 0 ≤ start.toInt)
    (hle : start.toInt ≤ limit.toInt) :
    0 ≤ (min want (limit - start)).toInt ∧
      (min want (limit - start)).toInt + start.toInt ≤ limit.toInt := by
  rw [Int32.lt_iff_toInt_lt, Int32.toInt_zero] at hwant
  rw [toInt_min, toInt_sub_of_le hstart hle]
  omega

theorem Inv.safe (h : Inv m) (hbase : ¬ m.base.isNone) {start length limit : Int}
    (hstart : 0 ≤ start ∧ start ≤ limit) (hlimit : limit ≤ m.capacity.toInt)
    (hlength : 0 ≤ length ∧ length + start ≤ m.capacity.toInt) (copied : List (Int × Int))
    (hcopied : ∀ c ∈ copied, c = (start, length)) :
    Access.Safe m ⟨[limit - start, length + start], copied⟩ := by
  have hcapacity := m.capacity.toInt_lt
  refine ⟨?_, ?_⟩
  · intro n hn
    rcases List.mem_pair.mp hn with rfl | rfl <;> omega
  · intro c hc
    obtain rfl := hcopied c hc
    rw [Option.isNone_iff_eq_none, ← ne_eq, Option.ne_none_iff_exists'] at hbase
    obtain ⟨region, hregion⟩ := hbase
    refine ⟨hstart.1, hlength.1, region, hregion, ?_⟩
    rw [h.bounded.mapped region hregion]
    show start + length ≤ _
    omega

/-- **`Write`** stays within the capacity, from wherever it starts. -/
theorem write_spec (h : Inv m) (hasIn : Bool) (writeSize position : Int32) (overlaps : Bool) :
    Inv (m.write services hasIn writeSize position overlaps).1 ∧
      Access.Safe (m.write services hasIn writeSize position overlaps).1
        (m.write services hasIn writeSize position overlaps).2.2 := by
  unfold write
  split
  · exact ⟨h, access_empty m⟩
  next hcall =>
    simp only [not_or, not_not] at hcall
    have hmapped := getAddr_inv services h
    generalize m.getAddr services = m' at hmapped
    dsimp only
    by_cases hbase : m'.base.isNone
    · rw [if_pos hbase]
      exact ⟨hmapped, access_empty m'⟩
    · rw [if_neg hbase]
      obtain ⟨hsize, hle, -⟩ := hmapped.toInt_mem
      have hstart := start_mem position ⟨hsize, hle⟩
      generalize (if position ≤ invalidPosition then m'.size else min position m'.capacity) = start
        at hstart
      have hlength := length_mem hcall.2.1 hstart.1 hstart.2
      have hsafe := hmapped.safe hbase hstart (Int.le_refl _) hlength
      generalize min writeSize (m'.capacity - start) = length at hlength hsafe
      split
      · split
        · refine ⟨{ hmapped with size_mem := ?_ }, hsafe _ fun c hc => List.mem_singleton.mp hc⟩
          have hsum := toInt_add_of_le hstart.1 hlength.1 (c := m'.capacity) (by omega)
          rw [AVMemory.toInt_nonneg_iff, Int32.le_iff_toInt_le]
          simp only [hsum]
          omega
        · exact ⟨hmapped, hsafe _ fun c hc => List.mem_singleton.mp hc⟩
      · exact ⟨hmapped, hsafe _ nofun⟩

/-- **`Read`** stays within the size. -/
theorem read_spec (h : Inv m) (hasOut : Bool) (readSize position : Int32) (overlaps : Bool) :
    Inv (m.read services hasOut readSize position overlaps).1 ∧
      Access.Safe (m.read services hasOut readSize position overlaps).1
        (m.read services hasOut readSize position overlaps).2.2 := by
  unfold read
  split
  · exact ⟨h, access_empty m⟩
  next hcall =>
    simp only [not_or, not_not] at hcall
    have hmapped := getAddr_inv services h
    generalize m.getAddr services = m' at hmapped
    dsimp only
    by_cases hbase : m'.base.isNone
    · rw [if_pos hbase]
      exact ⟨hmapped, access_empty m'⟩
    · rw [if_neg hbase]
      obtain ⟨hsize, hle, -⟩ := hmapped.toInt_mem
      have hzero : 0 ≤ (0 : Int32).toInt ∧ (0 : Int32).toInt ≤ m'.size.toInt := ⟨Int.le_refl 0, hsize⟩
      have hstart := start_mem position hzero
      -- without a position the whole size may be read
      have hmax : (if position ≤ invalidPosition then m'.size
          else m'.size - if position ≤ invalidPosition then 0 else min position m'.size) =
            m'.size - if position ≤ invalidPosition then 0 else min position m'.size := by
        split
        · exact (Int32.sub_zero m'.size).symm
        · rfl
      rw [hmax]
      generalize (if position ≤ invalidPosition then 0 else min position m'.size) = start at hstart
      have hlength := length_mem hcall.2.1 hstart.1 hstart.2
      have hsafe := hmapped.safe hbase hstart hle ⟨hlength.1, by omega⟩
      generalize min readSize (m'.size - start) = length at hlength hsafe
      split
      · split
        · exact ⟨hmapped, hsafe _ fun c hc => List.mem_singleton.mp hc⟩
        · exact ⟨hmapped, hsafe _ fun c hc => List.mem_singleton.mp hc⟩
      · exact ⟨hmapped, hsafe _ nofun⟩

-- Updates

def surfaceUpdate (services : Services) (capacity : Int32) : ParcelM SurfaceBuffer := do
  let _ ← readUint8
  let _ ← readOffsetAndSize capacity
  let update ← readBool
  if update then services.readSurface else Call.fail

/-- A surface that an update brings is the old one, or it is as large as the old one
and nobody has asked for the address of that. -/
def Op.Fits (services : Services) (m : MappedMemory) : Op → Prop
  | .update p => m.subclass = .surface →
      ∀ surfaceBuffer, (surfaceUpdate services m.capacity p).1 = some surfaceBuffer →
        m.surfaceBuffer = some surfaceBuffer ∨
          (m.base = none ∧ surfaceBuffer.size.toInt32 = m.capacity)
  | _ => True

theorem readOffsetAndSize_mem {capacity offset size : Int32} {p q : MessageParcel}
    (h : readOffsetAndSize capacity p = (some (offset, size), q)) :
    (0 ≤ offset ∧ offset ≤ capacity) ∧ 0 ≤ size ∧ size ≤ capacity := by
  obtain ⟨_, p₁, -, h⟩ := Call.bind_eq_some.mp h
  obtain ⟨offset', p₂, -, h⟩ := Call.bind_eq_some.mp h
  split at h
  next hoffset =>
    obtain ⟨size', p₃, -, h⟩ := Call.bind_eq_some.mp h
    split at h
    next hsize =>
      cases h
      exact ⟨⟨hoffset.2, hoffset.1⟩, hsize.2, hsize.1⟩
    · cases h
  · cases h

theorem update_inv (h : Inv m) {p : MessageParcel} (hfits : Op.Fits services m (.update p)) :
    Inv (step services m (.update p)).1 := by
  have heq := updateFromMessageParcel_eq services m p
  simp only [step]
  cases hnumbers : readOffsetAndSize m.capacity (readUint8 p).2 with
  | mk r q =>
    cases r with
    | none =>
      rw [hnumbers] at heq
      simp only [heq]
      exact h
    | some numbers =>
      obtain ⟨offset, size⟩ := numbers
      rw [hnumbers] at heq
      simp only at heq
      obtain ⟨hoffset, hsize⟩ := readOffsetAndSize_mem hnumbers
      have hinv : Inv { m with size, offset } := { h with size_mem := hsize, offset_mem := hoffset }
      obtain ⟨q', ⟨-, hread⟩ | ⟨-, hread | ⟨hsub, q₁, surfaceBuffer, hbool, hsurface, hread⟩⟩⟩ :=
        readFromMessageParcel_cases services { m with size, offset } q
      · rw [hread] at heq
        simp only [heq]
        exact hinv
      · rw [hread] at heq
        simp only [heq]
        exact hinv
      · rw [hread] at heq
        simp only [heq]
        -- the surface of the update, read from the same parcel
        obtain ⟨type, htype⟩ := readUint8_some p
        have hcarried : (surfaceUpdate services m.capacity p).1 = some surfaceBuffer := by
          unfold surfaceUpdate
          rw [Call.bind_some htype, Call.bind_some hnumbers, Call.bind_some hbool]
          simp only [if_true]
          rw [hsurface]
        rcases hfits hsub surfaceBuffer hcarried with hsame | ⟨hbase, hlength⟩
        · have hid : { m with size, offset, surfaceBuffer := some surfaceBuffer } =
              { m with size, offset } := by rw [← hsame]
          rw [hid]
          exact hinv
        · refine { hinv with surface := fun _ => ⟨surfaceBuffer, rfl, hlength⟩,
                             no_surface := fun hne => absurd hsub hne,
                             base := fun region hregion => ?_ }
          have hregion : m.base = some region := hregion
          rw [hbase] at hregion
          cases hregion

-- Origins

def surfaceIn (services : Services) (isSurfaceBuffer : Bool) : ParcelM (Common × SurfaceBuffer) :=
  if isSurfaceBuffer then do
    let update ← readBool
    if update then do
      let surfaceBuffer ← services.readSurface
      pure (⟨0, 0, 0, 0⟩, surfaceBuffer)
    else Call.fail
  else do
    let type ← readUint8
    match MemoryType.ofUInt8 type with
    | .surfaceMemory => do
      let common ← readCommonFromMessageParcel
      let update ← readBool
      if update then do
        let surfaceBuffer ← services.readSurface
        pure (common, surfaceBuffer)
      else Call.fail
    | _ => Call.fail

/-- A surface has less than two gigabytes, and the numbers that arrive with it fit its
size; an allocator maps as much as is asked for. -/
def Origin.Fits (services : Services) : Origin → Prop
  | .allocator (.surface (some surfaceBuffer)) _ _ => surfaceBuffer.size < 2 ^ 31
  | .allocator (.hardware _ allocatorCapacity _ false) capacity _ => allocatorCapacity = capacity
  | .surface surfaceBuffer => surfaceBuffer.size < 2 ^ 31
  | .parcel isSurfaceBuffer p => ∀ common surfaceBuffer,
      (surfaceIn services isSurfaceBuffer p).1 = some (common, surfaceBuffer) →
        surfaceBuffer.size < 2 ^ 31 ∧ common.offset ≤ surfaceBuffer.size.toInt32 ∧
          common.size ≤ surfaceBuffer.size.toInt32
  | _ => True

theorem createWithAllocator_inv {allocator : Allocator} {capacity align : Int32}
    (hcapacity : 0 ≤ capacity) (hfits : (Origin.allocator allocator capacity align).Fits services)
    (h : createWithAllocator services allocator capacity align = some m) : Inv m := by
  have hzero := Int32.le_refl 0
  cases allocator with
  | virtual =>
    simp only [createWithAllocator, Option.ite_none_right_eq_some, Option.some.injEq] at h
    obtain ⟨⟨hinit, -⟩, rfl⟩ := h
    exact ⟨⟨hzero, hinit⟩, ⟨hzero, hinit⟩, nofun, fun _ => rfl, by rintro region ⟨⟩; rfl⟩
  | surface alloc =>
    cases alloc with
    | none => cases h
    | some surfaceBuffer =>
      cases h
      have hsize := toInt32_nonneg hfits
      exact ⟨⟨hzero, hsize⟩, ⟨hzero, hsize⟩, fun _ => ⟨surfaceBuffer, rfl, rfl⟩,
        fun hne => absurd rfl hne, nofun⟩
  | shared memFlag =>
    simp only [createWithAllocator] at h
    split at h
    next hinit =>
      split at h
      · split at h
        · cases h
          exact ⟨⟨hzero, hinit⟩, ⟨hzero, hinit⟩, nofun, fun _ => rfl, nofun⟩
        · cases h
      · cases h
    · cases h
  | hardware fd allocatorCapacity memFlag isSecure =>
    cases isSecure with
    | true =>
      cases h
      exact ⟨⟨hzero, hcapacity⟩, ⟨hzero, hcapacity⟩, nofun, fun _ => rfl, nofun⟩
    | false =>
      obtain rfl : allocatorCapacity = capacity := hfits
      simp only [createWithAllocator, Bool.false_eq_true, if_false, Option.ite_none_right_eq_some,
        Option.some.injEq] at h
      obtain ⟨hmap, rfl⟩ := h
      refine ⟨⟨hzero, hcapacity⟩, ⟨hzero, hcapacity⟩, nofun, fun _ => rfl, ?_⟩
      rintro region ⟨⟩
      exact (mapping_of_mapped hmap).2

theorem readCommon_mem {common : Common} {p q : MessageParcel}
    (h : readCommonFromMessageParcel p = (some common, q)) :
    (0 ≤ common.size ∧ common.size ≤ common.capacity) ∧
      0 ≤ common.offset ∧ common.offset ≤ common.capacity := by
  obtain ⟨capacity, _, -, h⟩ := Call.bind_eq_some.mp h
  split at h
  next hcapacity =>
    obtain ⟨align, _, -, h⟩ := Call.bind_eq_some.mp h
    split at h
    next halign =>
      obtain ⟨offset, _, -, h⟩ := Call.bind_eq_some.mp h
      split at h
      next hoffset =>
        obtain ⟨size, _, -, h⟩ := Call.bind_eq_some.mp h
        split at h
        next hsize =>
          cases h
          exact ⟨⟨hsize.2, hsize.1⟩, hoffset.2, hoffset.1⟩
        · cases h
      · cases h
    · cases h
  · cases h

theorem initShared_inv {common : Common} {p₀ p q : MessageParcel}
    (hcommon : readCommonFromMessageParcel p₀ = (some common, p))
    (h : initShared common p = (some m, q)) : Inv m := by
  obtain ⟨hsize, hoffset⟩ := readCommon_mem hcommon
  obtain ⟨update, p₁, -, h⟩ := Call.bind_eq_some.mp h
  split at h
  · obtain ⟨fd, p₂, -, h⟩ := Call.bind_eq_some.mp h
    split at h
    · split at h
      · obtain ⟨memFlag, p₃, -, h⟩ := Call.bind_eq_some.mp h
        cases h
        exact ⟨hsize, hoffset, nofun, fun _ => rfl, nofun⟩
      · cases h
    · cases h
  · cases h

theorem initHardware_inv {common : Common} {p₀ p q : MessageParcel}
    (hcommon : readCommonFromMessageParcel p₀ = (some common, p))
    (h : initHardware services common p = (some m, q)) : Inv m := by
  obtain ⟨hsize, hoffset⟩ := readCommon_mem hcommon
  obtain ⟨update, p₁, -, h⟩ := Call.bind_eq_some.mp h
  split at h
  · obtain ⟨fd, p₂, -, h⟩ := Call.bind_eq_some.mp h
    split at h
    · obtain ⟨memFlag, p₃, -, h⟩ := Call.bind_eq_some.mp h
      split at h
      next hmap =>
        cases h
        refine ⟨hsize, hoffset, nofun, fun _ => rfl, ?_⟩
        rintro region ⟨⟩
        exact (mapping_of_mapped hmap).2
      · cases h
    · cases h
  · cases h

theorem initSurfaceBuffer_inv {common : Common} {p q : MessageParcel}
    (hcommon : 0 ≤ common.size ∧ 0 ≤ common.offset)
    (hfits : ∀ update p₁ surfaceBuffer p₂, readBool p = (some update, p₁) → update = true →
      services.readSurface p₁ = (some surfaceBuffer, p₂) →
        common.offset ≤ surfaceBuffer.size.toInt32 ∧ common.size ≤ surfaceBuffer.size.toInt32)
    (h : initSurfaceBuffer services common p = (some m, q)) : Inv m := by
  obtain ⟨update, p₁, hupdate, h⟩ := Call.bind_eq_some.mp h
  split at h
  next htrue =>
    obtain ⟨surfaceBuffer, p₂, hsurface, h⟩ := Call.bind_eq_some.mp h
    cases h
    obtain ⟨hoffset, hsize⟩ := hfits update p₁ surfaceBuffer _ hupdate htrue hsurface
    exact ⟨⟨hcommon.1, hsize⟩, ⟨hcommon.2, hoffset⟩, fun _ => ⟨surfaceBuffer, rfl, rfl⟩,
      fun hne => absurd rfl hne, nofun⟩
  · cases h

theorem createAVMemory_inv {isSurfaceBuffer : Bool} {p q : MessageParcel}
    (hfits : (Origin.parcel isSurfaceBuffer p).Fits services)
    (h : createAVMemory services isSurfaceBuffer p = (some m, q)) : Inv m := by
  unfold createAVMemory at h
  split at h
  next htrue =>
    subst htrue
    refine initSurfaceBuffer_inv ⟨Int32.le_refl 0, Int32.le_refl 0⟩ ?_ h
    rintro _ p₁ surfaceBuffer p₂ hupdate rfl hsurface
    have hin : (surfaceIn services true p).1 = some (⟨0, 0, 0, 0⟩, surfaceBuffer) := by
      simp only [surfaceIn, if_true]
      rw [Call.bind_some hupdate]
      simp only [if_true]
      rw [Call.bind_some hsurface]
      rfl
    exact (hfits _ _ hin).2
  next hfalse =>
    rw [Bool.not_eq_true] at hfalse
    subst hfalse
    obtain ⟨type, p₁, htype, h⟩ := Call.bind_eq_some.mp h
    cases hmemory : MemoryType.ofUInt8 type with
    | surfaceMemory =>
      simp only [hmemory] at h
      obtain ⟨common, p₂, hcommon, h⟩ := Call.bind_eq_some.mp h
      obtain ⟨hsize, hoffset⟩ := readCommon_mem hcommon
      refine initSurfaceBuffer_inv ⟨hsize.1, hoffset.1⟩ ?_ h
      rintro _ p₃ surfaceBuffer p₄ hupdate rfl hread
      have hin : (surfaceIn services false p).1 = some (common, surfaceBuffer) := by
        simp only [surfaceIn, Bool.false_eq_true, if_false]
        rw [Call.bind_some htype]
        simp only [hmemory]
        rw [Call.bind_some hcommon, Call.bind_some hupdate]
        simp only [if_true]
        rw [Call.bind_some hread]
        rfl
      exact (hfits _ _ hin).2
    | sharedMemory =>
      simp only [hmemory] at h
      obtain ⟨common, p₂, hcommon, h⟩ := Call.bind_eq_some.mp h
      exact initShared_inv hcommon h
    | hardwareMemory =>
      simp only [hmemory] at h
      obtain ⟨common, p₂, hcommon, h⟩ := Call.bind_eq_some.mp h
      exact initHardware_inv hcommon h
    | virtualMemory | unknownMemory | customMemory => simp only [hmemory] at h; cases h
    | unlisted code hcode => simp only [hmemory] at h; cases h

theorem create_inv {origin : Origin} (hfits : origin.Fits services)
    (h : create services origin = some m) : Inv m := by
  cases origin with
  | allocator allocator capacity align =>
    simp only [create, Option.ite_none_right_eq_some] at h
    exact createWithAllocator_inv h.1.1 hfits h.2
  | pointer capacity size =>
    simp only [create, Option.ite_none_right_eq_some, Option.some.injEq] at h
    obtain ⟨⟨hcapacity, hsize⟩, rfl⟩ := h
    exact ⟨hsize, ⟨Int32.le_refl 0, hcapacity⟩, nofun, fun _ => rfl, by rintro region ⟨⟩; rfl⟩
  | surface surfaceBuffer =>
    cases h
    have hsize := toInt32_nonneg hfits
    exact ⟨⟨hsize, Int32.le_refl _⟩, ⟨Int32.le_refl 0, hsize⟩, fun _ => ⟨surfaceBuffer, rfl, rfl⟩,
      fun hne => absurd rfl hne, nofun⟩
  | parcel isSurfaceBuffer p => exact createAVMemory_inv hfits (Prod.ext h rfl)

-- Runs

theorem step_inv (h : Inv m) {op : Op} (hfits : op.Fits services m) :
    Inv (step services m op).1 := by
  cases op with
  | setSize size => exact setSize_inv h size
  | setOffset offset => exact setOffset_inv h offset
  | getAddr => exact getAddr_inv services h
  | write hasIn writeSize position overlaps => exact (write_spec h hasIn writeSize position overlaps).1
  | read hasOut readSize position overlaps => exact (read_spec h hasOut readSize position overlaps).1
  | reset => exact reset_inv h
  | update p => exact update_inv h hfits

theorem step_safe (h : Inv m) (op : Op) :
    Access.Safe (step services m op).1 (step services m op).2 := by
  cases op with
  | write hasIn writeSize position overlaps => exact (write_spec h hasIn writeSize position overlaps).2
  | read hasOut readSize position overlaps => exact (read_spec h hasOut readSize position overlaps).2
  | update p =>
    simp only [step]
    split
    · exact access_empty _
    · exact access_empty _
  | _ => exact access_empty _

inductive Reached (services : Services) : MappedMemory → Prop where
  | created {origin : Origin} {m : MappedMemory} (hfits : origin.Fits services)
      (h : create services origin = some m) : Reached services m
  | stepped {m : MappedMemory} {op : Op} (h : Reached services m) (hfits : op.Fits services m) :
      Reached services (step services m op).1

theorem reached_inv (h : Reached services m) : Inv m := by
  induction h with
  | created hfits h => exact create_inv hfits h
  | stepped _ hfits ih => exact step_inv ih hfits

/-- **The bounds hold** in every memory that is reached, whatever is called next, and
with whatever numbers. -/
theorem bounds_hold (h : Reached services m) :
    Bounded m ∧ ∀ op, Access.Safe (step services m op).1 (step services m op).2 :=
  ⟨(reached_inv h).bounded, step_safe (reached_inv h)⟩

-- a surface of 16 bytes, in a parcel whose header says how much of how much is used

def plainServices : Services where
  heap := fun _ => true
  ashmemCreate := fun capacity => some ⟨1, capacity.toInt64⟩
  mmap := fun _ _ _ => true
  getVirAddr := fun _ => true
  readSurface := do
    let size ← readUint32Into
    pure ⟨1, size⟩

def surfaceParcel (capacity size : Int32) : MessageParcel :=
  [.uint8 2, .int32 capacity, .int32 0, .int32 0, .int32 size, .bool true, .uint32 16]

theorem bounds_hold_surface :
    Bounded (step plainServices ⟨.surface, 16, 0, 0, 8, none, .memoryReadWrite, some ⟨1, 16⟩, none,
        true⟩ (.write true 100 invalidPosition false)).1 := by
  have hcreated : Reached plainServices ⟨.surface, 16, 0, 0, 8, none, .memoryReadWrite,
      some ⟨1, 16⟩, none, true⟩ := by
    refine @Reached.created _ (.parcel false (surfaceParcel 16 8)) _ ?_ rfl
    intro common surfaceBuffer h
    have hin : (surfaceIn plainServices false (surfaceParcel 16 8)).1 =
        some (⟨16, 0, 0, 8⟩, ⟨1, 16⟩) := rfl
    cases hin.symm.trans h
    exact ⟨by decide, by decide, by decide⟩
  exact (bounds_hold (@Reached.stepped _ _ (.write true 100 invalidPosition false) hcreated trivial)).1

/-- The header claims 100 bytes of 100, and the surface has 16. A `Write` behind the
size then passes a negative length to `memcpy_s`. -/
theorem header_exceeds_surface :
    ∃ services origin m, create services origin = some m ∧ ¬ Bounded m ∧
      ∃ op, ¬ Access.Safe (step services m op).1 (step services m op).2 := by
  refine ⟨plainServices, .parcel false (surfaceParcel 100 100), _, rfl, ?_,
    .write true 8 invalidPosition false, ?_⟩
  · rintro ⟨⟨-, hsize⟩, -, -⟩
    exact absurd hsize (by decide)
  · rintro ⟨-, hcopied⟩
    have hnegative := (hcopied (100, -84) (List.mem_singleton.mpr rfl)).2.1
    exact absurd hnegative (by decide)

end MediaFoundation.MappedMemory
