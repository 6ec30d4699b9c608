import MediaFoundation.Queue.WakeUp

/-!
# The account of memory

`memoryUsage_` is a 32-bit counter: `fetch_add` lets it wrap, but a capacity
that is larger than the counter is not subtracted. It is the sum of the
positive capacities of the cached buffers, modulo `2 ^ 32`, as long as every
buffer that leaves the map finds at least its capacity there.

Nothing is assumed about the lists: the lemmas hold in every state.
-/

namespace MediaFoundation.Queue

open Std (ExtTreeMap)

variable {env : Env} {config : AVBufferConfig} {ele : AVBufferElement}

def AVBufferElement.charge (ele : AVBufferElement) : Nat := ele.config.capacity.toNatClampNeg

namespace AVBufferQueueImpl

variable {q q' u : AVBufferQueueImpl} {id : UInt64} {ids : List UInt64}

/-! ## The account -/

def charged (m : ExtTreeMap UInt64 AVBufferElement) : Nat :=
  TreeMap.sumValues m AVBufferElement.charge

def Exact (q : AVBufferQueueImpl) : Prop :=
  q.memoryUsage.toNat = charged q.cachedBufferMap % 2 ^ 32

instance (q : AVBufferQueueImpl) : Decidable (Exact q) :=
  inferInstanceAs (Decidable (_ = _))

def chargeAt (q : AVBufferQueueImpl) (id : UInt64) : Nat :=
  (q.cachedBufferMap[id]?.map AVBufferElement.charge).getD 0

/-- The positive capacities of these buffers, as far as they are cached, sum to
at most the counter. -/
def Covers (q : AVBufferQueueImpl) (ids : List UInt64) : Prop :=
  charged q.cachedBufferMap ≤ q.memoryUsage.toNat + charged (ids.foldl .erase q.cachedBufferMap)

instance (q : AVBufferQueueImpl) (ids : List UInt64) : Decidable (Covers q ids) :=
  inferInstanceAs (Decidable (_ ≤ _))

/-! ## Adding and subtracting -/

theorem totalMemoryCalculation_map (isAdd : Bool) (capacity : Int32) :
    (q.totalMemoryCalculation isAdd capacity).cachedBufferMap = q.cachedBufferMap := by
  obtain ⟨m, hm⟩ := totalMemoryCalculation_eq (q := q) isAdd capacity
  rw [hm]

theorem toNatClampNeg_of_not_pos {capacity : Int32} (h : ¬ 0 < capacity) :
    capacity.toNatClampNeg = 0 := by
  rw [Int32.lt_iff_toInt_lt, Int32.toInt_zero] at h
  rw [← Int32.toNat_toInt]
  omega

theorem totalMemoryCalculation_add (capacity : Int32) :
    (q.totalMemoryCalculation true capacity).memoryUsage.toNat =
      (q.memoryUsage.toNat + capacity.toNatClampNeg) % 2 ^ 32 := by
  unfold totalMemoryCalculation
  split
  next hnone =>
    rw [toNatClampNeg_of_not_pos hnone, Nat.add_zero, Nat.mod_eq_of_lt q.memoryUsage.toNat_lt]
  next hpos =>
    have hle : 0 ≤ capacity := Int32.le_of_lt (Decidable.not_not.mp hpos)
    rw [if_pos rfl]
    show (q.memoryUsage + capacity.toUInt32).toNat = _
    rw [UInt32.toNat_add, Int32.toNat_toUInt32_of_le hle]

theorem totalMemoryCalculation_sub {capacity : Int32}
    (h : capacity.toNatClampNeg ≤ q.memoryUsage.toNat) :
    (q.totalMemoryCalculation false capacity).memoryUsage.toNat =
      q.memoryUsage.toNat - capacity.toNatClampNeg := by
  unfold totalMemoryCalculation
  split
  next hnone => rw [toNatClampNeg_of_not_pos hnone, Nat.sub_zero]
  next hpos =>
    have hle : 0 ≤ capacity := Int32.le_of_lt (Decidable.not_not.mp hpos)
    have hroom : capacity.toUInt32 ≤ q.memoryUsage := by
      rw [UInt32.le_iff_toNat_le, Int32.toNat_toUInt32_of_le hle]
      exact h
    rw [if_neg Bool.false_ne_true, if_pos hroom]
    show (q.memoryUsage - capacity.toUInt32).toNat = _
    rw [UInt32.toNat_sub_of_le _ _ hroom, Int32.toNat_toUInt32_of_le hle]

/-! ## Changes that the account does not see -/

/-- The counter and what each id counts for stay the same. -/
structure SameAccount (q q' : AVBufferQueueImpl) : Prop where
  usage : q'.memoryUsage = q.memoryUsage
  charged : charged q'.cachedBufferMap = charged q.cachedBufferMap
  chargeAt : ∀ id, q'.chargeAt id = q.chargeAt id

theorem SameAccount.refl (q : AVBufferQueueImpl) : SameAccount q q := ⟨rfl, rfl, fun _ => rfl⟩

theorem SameAccount.trans (h : SameAccount q u) (h' : SameAccount u q') : SameAccount q q' :=
  ⟨h'.usage.trans h.usage, h'.charged.trans h.charged,
    fun id => (h'.chargeAt id).trans (h.chargeAt id)⟩

theorem SameAccount.exact (h : SameAccount q q') (hq : Exact q) : Exact q' := by
  rw [Exact, h.usage, h.charged]
  exact hq

theorem SameAccount.of_charges (husage : q'.memoryUsage = q.memoryUsage)
    (hmap : ∀ k : UInt64, q'.cachedBufferMap[k]?.map AVBufferElement.charge =
      q.cachedBufferMap[k]?.map AVBufferElement.charge) : SameAccount q q' :=
  ⟨husage, TreeMap.sumValues_congr hmap, fun k => congrArg (Option.getD · 0) (hmap k)⟩

theorem chargeAt_of_lookup (h : q.cachedBufferMap[id]? = some ele) :
    q.chargeAt id = ele.charge := by
  rw [chargeAt, h]
  rfl

theorem chargeAt_of_not_mem (h : id ∉ q.cachedBufferMap) : q.chargeAt id = 0 := by
  rw [chargeAt, ExtTreeMap.getElem?_eq_none h]
  rfl

theorem charge_element (q : AVBufferQueueImpl) (id : UInt64) :
    (q.element id).charge = q.chargeAt id := by
  unfold element chargeAt
  cases q.cachedBufferMap[id]? <;> rfl

theorem setElement_sameAccount (h : ele.charge = q.chargeAt id) :
    SameAccount q (q.setElement id ele) := by
  refine ⟨rfl, ?_, fun k => ?_⟩
  · by_cases hmem : id ∈ q.cachedBufferMap
    · obtain ⟨old, hold⟩ := exists_lookup hmem
      rw [chargeAt_of_lookup hold] at h
      exact TreeMap.sumValues_insert_same hold h
    · rw [chargeAt_of_not_mem hmem] at h
      show TreeMap.sumValues (q.cachedBufferMap.insert id ele) _ = _
      rw [TreeMap.sumValues_insert hmem, h, Nat.zero_add]
      rfl
  · rw [AVBufferQueueImpl.chargeAt, setElement_lookup]
    split
    next heq => rw [← heq, ← h]; rfl
    next => rfl

theorem touch_sameAccount (q : AVBufferQueueImpl) (id : UInt64) : SameAccount q (q.touch id) := by
  unfold touch
  split
  · exact .refl q
  next hid =>
    have hset : SameAccount q (q.setElement id {}) :=
      setElement_sameAccount (chargeAt_of_not_mem hid).symm
    exact hset.trans ⟨rfl, rfl, fun _ => rfl⟩

theorem insertInOrder_sameAccount (id : UInt64) (l : List UInt64) :
    ∀ q : AVBufferQueueImpl, SameAccount q (q.insertInOrder id l).1 := by
  induction l with
  | nil => exact SameAccount.refl
  | cons it rest ih =>
    intro q
    have htouch : SameAccount q (if it ≠ id then (q.touch it).touch id else q) := by
      split
      · exact (touch_sameAccount q it).trans (touch_sameAccount _ id)
      · exact .refl q
    unfold insertInOrder
    generalize (if it ≠ id then (q.touch it).touch id else q) = u at htouch
    simp only
    split
    · exact htouch
    · exact htouch.trans (ih u)

theorem insertFreeBufferInOrder_sameAccount (q : AVBufferQueueImpl) (id : UInt64) :
    SameAccount q (q.insertFreeBufferInOrder id) :=
  (insertInOrder_sameAccount id q.freeBufferList q).trans ⟨rfl, rfl, fun _ => rfl⟩

theorem findFree_sameAccount (config : AVBufferConfig) (l : List UInt64) :
    ∀ q : AVBufferQueueImpl, SameAccount q (q.findFree config l).1 := by
  induction l with
  | nil => exact SameAccount.refl
  | cons it rest ih =>
    intro q
    simp only [findFree]
    split
    · exact touch_sameAccount q it
    · exact (touch_sameAccount q it).trans (ih _)

theorem popFromFreeBufferList_sameAccount (q : AVBufferQueueImpl) (config : AVBufferConfig) :
    SameAccount q (q.popFromFreeBufferList config).1 := by
  have hfind := findFree_sameAccount config q.freeBufferList q
  unfold popFromFreeBufferList
  split
  next u it hu =>
    rw [hu] at hfind
    exact hfind.trans ⟨rfl, rfl, fun _ => rfl⟩
  next u hu =>
    rw [hu] at hfind
    split
    · exact hfind
    · exact (hfind.trans (touch_sameAccount _ _)).trans ⟨rfl, rfl, fun _ => rfl⟩

/-! ## Buffers that come and go -/

theorem Exact.addElement (h : Exact q) (hid : q.chargeAt id = 0) :
    Exact (q.addElement id ele) := by
  have hcharged : charged (q.setElement id ele).cachedBufferMap =
      ele.charge + charged q.cachedBufferMap := by
    by_cases hmem : id ∈ q.cachedBufferMap
    · obtain ⟨old, hold⟩ := exists_lookup hmem
      rw [chargeAt_of_lookup hold] at hid
      have herase := TreeMap.sumValues_erase (f := AVBufferElement.charge) hold
      have hnew := TreeMap.sumValues_erase (f := AVBufferElement.charge)
        (m := (q.setElement id ele).cachedBufferMap) (k := id) (v := ele) (by simp)
      rw [setElement_erase] at hnew
      rw [charged, charged, hnew, herase, hid, Nat.zero_add]
    · exact TreeMap.sumValues_insert hmem
  rw [Exact, AVBufferQueueImpl.addElement, totalMemoryCalculation_map, hcharged,
    totalMemoryCalculation_add]
  show (q.memoryUsage.toNat + ele.charge) % 2 ^ 32 = _
  rw [Exact] at h
  omega

/-- A buffer that leaves is paid back, if the counter can pay it. -/
theorem Exact.erase (h : Exact q)
    (hele : q.cachedBufferMap[id]? = some ele) (hpay : ele.charge ≤ q.memoryUsage.toNat) :
    Exact ((q.totalMemoryCalculation false ele.config.capacity).eraseElement id) := by
  have herase := TreeMap.sumValues_erase (f := AVBufferElement.charge) hele
  rw [Exact] at h ⊢
  show (q.totalMemoryCalculation false ele.config.capacity).memoryUsage.toNat =
    charged ((q.totalMemoryCalculation false ele.config.capacity).cachedBufferMap.erase id) % 2 ^ 32
  rw [totalMemoryCalculation_map, totalMemoryCalculation_sub hpay]
  show q.memoryUsage.toNat - ele.charge = _
  have hlt := q.memoryUsage.toNat_lt
  simp only [charged] at h ⊢
  omega

theorem Exact.deleteCachedBufferById (h : Exact q) (hpay : q.chargeAt id ≤ q.memoryUsage.toNat) :
    Exact (q.deleteCachedBufferById id) := by
  unfold AVBufferQueueImpl.deleteCachedBufferById
  split
  · exact h
  next ele hele =>
    rw [chargeAt_of_lookup hele] at hpay
    exact h.erase hele hpay

/-! ## Deleting a list of buffers -/

theorem charged_foldl_erase_le (ids : List UInt64) (m : ExtTreeMap UInt64 AVBufferElement) :
    charged (ids.foldl .erase m) ≤ charged m := by
  induction ids generalizing m with
  | nil => exact Nat.le_refl _
  | cons k ks ih =>
    refine (ih (m.erase k)).trans ?_
    cases hk : m[k]? with
    | none =>
      have hmem : k ∉ m := by
        rw [ExtTreeMap.mem_iff_isSome_getElem?, hk]
        exact nofun
      rw [TreeMap.erase_of_not_mem hmem]
    | some ele =>
      rw [charged, charged, TreeMap.sumValues_erase (f := AVBufferElement.charge) hk]
      exact Nat.le_add_left ..

theorem Covers.cons (h : Covers q (id :: ids)) :
    q.chargeAt id ≤ q.memoryUsage.toNat ∧ Covers (q.deleteCachedBufferById id) ids := by
  rw [Covers, List.foldl_cons] at h
  unfold deleteCachedBufferById Covers
  split
  next hnone =>
    have hmem : id ∉ q.cachedBufferMap := by
      rw [ExtTreeMap.mem_iff_isSome_getElem?, hnone]
      exact nofun
    rw [TreeMap.erase_of_not_mem hmem] at h
    exact ⟨chargeAt_of_not_mem hmem ▸ Nat.zero_le _, h⟩
  next ele hele =>
    have herase := TreeMap.sumValues_erase (f := AVBufferElement.charge) hele
    have hle := charged_foldl_erase_le ids (q.cachedBufferMap.erase id)
    rw [chargeAt_of_lookup hele]
    have hpay : ele.charge ≤ q.memoryUsage.toNat := by
      simp only [charged] at h hle
      omega
    refine ⟨hpay, ?_⟩
    show charged ((q.totalMemoryCalculation false ele.config.capacity).cachedBufferMap.erase id) ≤
      (q.totalMemoryCalculation false ele.config.capacity).memoryUsage.toNat +
        charged (ids.foldl .erase
          ((q.totalMemoryCalculation false ele.config.capacity).cachedBufferMap.erase id))
    rw [totalMemoryCalculation_map, totalMemoryCalculation_sub hpay]
    show _ ≤ q.memoryUsage.toNat - ele.charge + _
    simp only [charged] at h hle ⊢
    omega

theorem Covers.single (h : Covers q [id]) : q.chargeAt id ≤ q.memoryUsage.toNat := h.cons.1

theorem Exact.deleteIds (h : Exact q) (hcov : Covers q ids) : Exact (q.deleteIds ids) := by
  induction ids generalizing q with
  | nil => exact h
  | cons k ks ih => exact ih (h.deleteCachedBufferById hcov.cons.1) hcov.cons.2

theorem Covers.append {ids' : List UInt64} (h : Covers q (ids ++ ids')) :
    Covers q ids ∧ Covers (q.deleteIds ids) ids' := by
  constructor
  · rw [Covers, List.foldl_append] at h
    rw [Covers]
    have hle := charged_foldl_erase_le ids' (ids.foldl .erase q.cachedBufferMap)
    omega
  · induction ids generalizing q with
    | nil => exact h
    | cons k ks ih => exact ih h.cons.2

theorem Covers.of_charges (h : Covers q ids) (husage : q'.memoryUsage = q.memoryUsage)
    (hmap : ∀ k : UInt64, q'.cachedBufferMap[k]?.map AVBufferElement.charge =
      q.cachedBufferMap[k]?.map AVBufferElement.charge) : Covers q' ids := by
  have hsame : charged q'.cachedBufferMap = charged q.cachedBufferMap :=
    TreeMap.sumValues_congr hmap
  have hafter : charged (ids.foldl .erase q'.cachedBufferMap) =
      charged (ids.foldl .erase q.cachedBufferMap) :=
    TreeMap.sumValues_congr fun k => by
      rw [TreeMap.getElem?_foldl_erase, TreeMap.getElem?_foldl_erase]
      split
      · rfl
      · exact hmap k
  rw [Covers, hsame, husage, hafter]
  exact h

theorem deleteIds_map (q : AVBufferQueueImpl) (ids : List UInt64) :
    (q.deleteIds ids).cachedBufferMap = ids.foldl .erase q.cachedBufferMap := by
  obtain ⟨m, hm⟩ := deleteIds_eq q ids
  rw [hm]

theorem deleteIds_chargeAt_of_not_mem (h : id ∉ q.cachedBufferMap) :
    (q.deleteIds ids).chargeAt id = 0 := by
  rw [chargeAt, deleteIds_map, TreeMap.getElem?_foldl_erase]
  split
  · rfl
  · exact chargeAt_of_not_mem h

theorem totalMemoryCalculation_usage_congr (husage : q'.memoryUsage = q.memoryUsage)
    (isAdd : Bool) (capacity : Int32) :
    (q'.totalMemoryCalculation isAdd capacity).memoryUsage =
      (q.totalMemoryCalculation isAdd capacity).memoryUsage := by
  unfold totalMemoryCalculation
  split
  · exact husage
  · split
    · exact congrArg (· + capacity.toUInt32) husage
    · rw [husage]
      split
      · rfl
      · exact husage

theorem deleteIds_usage_congr (hmap : q'.cachedBufferMap = q.cachedBufferMap)
    (husage : q'.memoryUsage = q.memoryUsage) :
    (q'.deleteIds ids).memoryUsage = (q.deleteIds ids).memoryUsage := by
  induction ids generalizing q q' with
  | nil => exact husage
  | cons k ks ih =>
    refine ih ?_ ?_
    · obtain ⟨m, hm⟩ := deleteCachedBufferById_eq q k
      obtain ⟨m', hm'⟩ := deleteCachedBufferById_eq q' k
      rw [hm, hm', hmap]
    · unfold deleteCachedBufferById
      rw [hmap]
      split
      · exact husage
      · exact totalMemoryCalculation_usage_congr husage false _

theorem deleteBuffers_charges (q : AVBufferQueueImpl) (count : Nat) :
    (q.deleteBuffers count).memoryUsage = (q.deleteIds (q.deletedIds count)).memoryUsage ∧
      ∀ k : UInt64, (q.deleteBuffers count).cachedBufferMap[k]?.map AVBufferElement.charge =
        (q.deleteIds (q.deletedIds count)).cachedBufferMap[k]?.map AVBufferElement.charge := by
  constructor
  · by_cases hzero : count = 0
    · subst hzero
      simp [deleteBuffers, deletedIds, deleteIds]
    have happend : ∀ ids ids' : List UInt64,
        q.deleteIds (ids ++ ids') = (q.deleteIds ids).deleteIds ids' := fun ids ids' =>
      List.foldl_append
    rw [deleteBuffers, if_neg hzero, deletedIds, happend]
    simp only [deleteListed_eq q.freeBufferList (Nat.pos_of_ne_zero hzero)]
    obtain ⟨m, hm⟩ := deleteIds_eq q (q.freeBufferList.take count)
    split
    next hnone =>
      rw [hnone, List.take_zero]
      rfl
    next hsome =>
      have hdirty : (q.deleteIds (q.freeBufferList.take count)).dirtyBufferList =
          q.dirtyBufferList := by rw [hm]
      simp only [hdirty, deleteListed_eq q.dirtyBufferList (Nat.pos_of_ne_zero hsome)]
      split
      · exact deleteIds_usage_congr rfl rfl
      · exact deleteIds_usage_congr rfl rfl
  · intro k
    obtain ⟨m, hm⟩ := deleteBuffers_eq q count
    rw [hm, deleteIds_map]
    simp only
    rw [markElements_lookup, mapAfterDelete]
    split
    · rw [Option.map_map]
      rfl
    · rfl

/-! ## Requests -/

theorem deleteCachedBufferById_chargeAt_le (q : AVBufferQueueImpl) (id k : UInt64) :
    (q.deleteCachedBufferById id).chargeAt k ≤ q.chargeAt k := by
  rw [chargeAt, deleteCachedBufferById_lookup]
  split
  · exact Nat.zero_le _
  · exact Nat.le_refl _

def NewUncharged (q : AVBufferQueueImpl) (env : Env) : Prop :=
  ∀ buffer ∈ env.created, q.chargeAt buffer.uniqueId = 0

theorem Fresh.newUncharged (h : Fresh q env) : NewUncharged q env :=
  fun buffer hbuffer => chargeAt_of_not_mem (h buffer hbuffer)

theorem SameAccount.newUncharged (h : SameAccount q q') (hnew : NewUncharged q env) :
    NewUncharged q' env :=
  fun buffer hbuffer => (h.chargeAt _).trans (hnew buffer hbuffer)

theorem Exact.allocBuffer (h : Exact q) (hnew : NewUncharged q env) :
    Exact (q.allocBuffer env).1 := by
  unfold AVBufferQueueImpl.allocBuffer
  split
  · exact h
  next buffer hbuffer => exact h.addElement (hnew buffer hbuffer)

/-- The free buffer that a request takes and deletes because it is too small. -/
def reallocated (q : AVBufferQueueImpl) (config : AVBufferConfig) : List UInt64 :=
  match q.popFromFreeBufferList config with
  | (u, some (some buffer)) =>
    if config.le (u.element buffer.uniqueId).config then [] else [buffer.uniqueId]
  | _ => []

theorem Exact.requestReuseBuffer
    {buffer : Option AVBufferRef} (h : Exact q) (hnew : NewUncharged q env)
    (hpay : ∀ b, buffer = some b → ¬ config.le (q.element b.uniqueId).config →
      q.chargeAt b.uniqueId ≤ q.memoryUsage.toNat) :
    Exact (q.requestReuseBuffer env buffer config).1 := by
  unfold AVBufferQueueImpl.requestReuseBuffer
  split
  · exact h
  next b =>
    split
    · exact h
    next ele hele =>
      split
      next hfits =>
        have hcharge : AVBufferElement.charge { ele with
            config := { ele.config with size := config.size }, state := .requested } =
            q.chargeAt b.uniqueId := (chargeAt_of_lookup hele).symm
        exact (setElement_sameAccount hcharge).exact h
      next hsmall =>
        rw [← element_of_lookup hele] at hsmall
        refine (h.deleteCachedBufferById (hpay b rfl hsmall)).allocBuffer fun c hc => ?_
        exact Nat.le_zero.mp (hnew c hc ▸ deleteCachedBufferById_chargeAt_le q b.uniqueId _)

theorem Exact.reuse {u : AVBufferQueueImpl}
    {buffer : Option AVBufferRef} (h : Exact q) (hnew : NewUncharged q env)
    (hcov : Covers q (q.reallocated config))
    (hpop : q.popFromFreeBufferList config = (u, some buffer)) :
    Exact (u.requestReuseBuffer env buffer config).1 := by
  have hsame := popFromFreeBufferList_sameAccount q config
  rw [hpop] at hsame
  refine (hsame.exact h).requestReuseBuffer (hsame.newUncharged hnew) ?_
  rintro b rfl hsmall
  rw [reallocated, hpop] at hcov
  simp only [if_neg hsmall] at hcov
  rw [hsame.chargeAt, hsame.usage]
  exact hcov.single

theorem Exact.requestAfterWait (h : Exact q)
    (hnew : NewUncharged q env) (hcov : Covers q (q.reallocated config)) :
    Exact (q.requestAfterWait env config).1 := by
  have hsame := popFromFreeBufferList_sameAccount q config
  unfold AVBufferQueueImpl.requestAfterWait
  split
  next u buffer hpop => exact h.reuse hnew hcov hpop
  next u hpop =>
    rw [hpop] at hsame
    split
    · exact hsame.exact h
    · exact (hsame.exact h).allocBuffer (hsame.newUncharged hnew)

theorem checkConfig_sameAccount (h : q.checkConfig config = some u) :
    SameAccount q u := by
  unfold checkConfig at h
  split at h
  · cases h
  · split at h
    · cases h
    · cases h
      exact ⟨rfl, rfl, fun _ => rfl⟩

theorem checkConfig_map (h : q.checkConfig config = some u) :
    u.cachedBufferMap = q.cachedBufferMap := by
  unfold checkConfig at h
  split at h
  · cases h
  · split at h
    · cases h
    · cases h
      rfl

/-- The free buffer that the first block of a request deletes. -/
def reallocatedFirst (q : AVBufferQueueImpl) (config : AVBufferConfig) : List UInt64 :=
  match q.checkConfig config with
  | none => []
  | some u => u.reallocated config

theorem Exact.requestBufferWaitUs (h : Exact q)
    (hnew : NewUncharged q env) (hcov : Covers q (q.reallocatedFirst config))
    (timeoutUs : Int64) : Exact (q.requestBufferWaitUs env config timeoutUs).1 := by
  unfold AVBufferQueueImpl.requestBufferWaitUs
  unfold reallocatedFirst at hcov
  split
  · exact h
  next v hv =>
    have hcheck := checkConfig_sameAccount hv
    simp only [hv] at hcov
    replace h := hcheck.exact h
    replace hnew := hcheck.newUncharged hnew
    replace hcov := hcov.of_charges hcheck.usage fun k => by rw [checkConfig_map hv]
    have hsame := popFromFreeBufferList_sameAccount v config
    split
    next u buffer hpop => exact h.reuse hnew hcov hpop
    next u hpop =>
      rw [hpop] at hsame
      have hnone : Covers u (u.reallocated config) := by
        have hnil : v.freeBufferList = [] := by
          by_contra hne
          exact popFromFreeBufferList_ne_none hne config hpop
        rw [popFromFreeBufferList_nil hnil] at hpop
        obtain rfl := (Prod.mk.inj hpop).1
        exact hcov
      split
      · split
        · exact (hsame.exact h).requestAfterWait (hsame.newUncharged hnew) hnone
        · exact hsame.exact h
      · exact (hsame.exact h).allocBuffer (hsame.newUncharged hnew)

theorem Exact.requestBufferResume (h : Exact q)
    (hnew : NewUncharged q env) (hcov : Covers q (q.reallocated config)) (timeoutUs : Int64)
    (timedOut : Bool) : Exact (q.requestBufferResume env config timeoutUs timedOut).1 := by
  unfold AVBufferQueueImpl.requestBufferResume
  split
  · split
    · exact h
    · exact h
  · exact h.requestAfterWait hnew hcov

/-! ## Buffers on their way through the queue -/

def leaving (q : AVBufferQueueImpl) (id : UInt64) (leaves : AVBufferElement → Bool) :
    List UInt64 :=
  if q.cachedBufferMap[id]?.any leaves then [id] else []

theorem Covers.leaving {leaves : AVBufferElement → Bool}
    (h : Covers q (q.leaving id leaves)) (hele : q.cachedBufferMap[id]? = some ele)
    (hleaves : leaves ele = true) : ele.charge ≤ q.memoryUsage.toNat := by
  rw [AVBufferQueueImpl.leaving, hele, Option.any_some, if_pos hleaves] at h
  rw [← chargeAt_of_lookup hele]
  exact h.single

theorem Exact.setElement {ele ele' : AVBufferElement} (h : Exact q)
    (hele : q.cachedBufferMap[id]? = some ele) (hcharge : ele'.charge = ele.charge) :
    Exact (q.setElement id ele') :=
  (setElement_sameAccount (hcharge.trans (chargeAt_of_lookup hele).symm)).exact h

theorem Exact.deleteMarked {leaves : AVBufferElement → Bool}
    (h : Exact q) (hcov : Covers q (q.leaving id leaves))
    (hele : q.cachedBufferMap[id]? = some ele) (hleaves : leaves ele = true) :
    Exact (q.deleteCachedBufferById id) := by
  refine h.deleteCachedBufferById ?_
  rw [chargeAt_of_lookup hele]
  exact hcov.leaving hele hleaves

theorem Exact.pushBuffer {available : Bool} {r : AVBufferQueueImpl × PushOutcome}
    (h : Exact q) (hcov : Covers q (q.leaving id (·.isDeleting)))
    (hr : q.pushBuffer env id available = some r) : Exact r.1 := by
  unfold AVBufferQueueImpl.pushBuffer at hr
  split at hr
  · cases hr
    exact h
  next ele hele =>
    have hpush : Exact (q.pushElement id ele).1 := by
      unfold pushElement
      split
      · exact h.setElement hele rfl
      · exact h
    split at hr
    next hdel =>
      cases hr
      exact h.deleteMarked hcov hele hdel
    next =>
      split at hr
      · split at hr
        · cases hr
        · split at hr
          · cases hr
            exact h
          · cases hr
            exact hpush
      · cases hr
        exact hpush

theorem Exact.insertFree (h : Exact q) (id : UInt64) : Exact (q.insertFreeBufferInOrder id) :=
  (insertFreeBufferInOrder_sameAccount q id).exact h

theorem Exact.setState (h : Exact q) (id : UInt64) (st : AVBufferState) :
    Exact (q.setElement id { q.element id with state := st }) := by
  have hcharge : AVBufferElement.charge { q.element id with state := st } = q.chargeAt id :=
    charge_element q id
  exact (setElement_sameAccount hcharge).exact h

theorem Exact.cancelBuffer (h : Exact q) (id : UInt64) : Exact (q.cancelBuffer id).1 := by
  unfold AVBufferQueueImpl.cancelBuffer
  split
  · exact h
  · split
    · exact (h.insertFree id).setState id .released
    · exact h

def FilesRecorded (q : AVBufferQueueImpl) (env : Env) (id : UInt64) : Prop :=
  ∀ buffer ∈ (q.element id).buffer,
    (env.contents buffer).config.capacity = (q.element id).config.capacity

theorem Exact.returnBuffer {available : Bool} {r : AVBufferQueueImpl × ReturnOutcome}
    (h : Exact q) (hcov : Covers q (q.leaving id (·.isDeleting)))
    (hrecorded : FilesRecorded q env id) (hr : q.returnBuffer env id available = some r) :
    Exact r.1 := by
  unfold AVBufferQueueImpl.returnBuffer at hr
  split at hr
  · cases hr
    exact h
  next ele hele =>
    split at hr
    next hdel =>
      cases hr
      exact h.deleteMarked hcov hele hdel
    next =>
      split at hr
      · cases hr
        exact h
      · split at hr
        · have hcancel := h.cancelBuffer id
          split at hr
          next u hu =>
            cases hr
            rw [hu] at hcancel
            exact hcancel
          next u status _ hu =>
            cases hr
            rw [hu] at hcancel
            exact hcancel
        · split at hr
          · cases hr
          next buffer hbuffer =>
            rw [FilesRecorded, element_of_lookup hele] at hrecorded
            simp only at hr
            split at hr
            · cases hr
              exact h
            · cases hr
              refine h.setElement hele ?_
              exact congrArg Int32.toNatClampNeg (hrecorded buffer hbuffer)

theorem Exact.releaseBuffer (h : Exact q) (hcov : Covers q (q.leaving id fun ele =>
      ele.isDeleting && (ele.state = .acquired ∨ ele.state = .attached))) :
    Exact (q.releaseBuffer id).1 := by
  unfold AVBufferQueueImpl.releaseBuffer
  split
  · exact h
  next ele hele =>
    split
    next hst =>
      have hset : Exact (q.setElement id { ele with state := .released }) :=
        h.setElement hele rfl
      simp only
      split
      next hdel =>
        have hpay := hcov.leaving hele (by rw [hdel, decide_eq_true hst]; rfl)
        refine hset.deleteCachedBufferById ?_
        rw [chargeAt_of_lookup (by rw [setElement_lookup, if_pos rfl])]
        exact hpay
      · exact hset.insertFree id
    · exact h

theorem Exact.detachBuffer {force : Bool} (h : Exact q) (hcov : Covers q (q.leaving id fun ele =>
      force || (ele.state = .requested ∨ ele.state = .acquired))) :
    Exact (q.detachBuffer id force).1 := by
  unfold AVBufferQueueImpl.detachBuffer
  split
  · exact h
  next ele hele =>
    split
    · exact h
    next hst =>
      have htakes : (force || decide (ele.state = .requested ∨ ele.state = .acquired)) = true := by
        rw [Bool.or_eq_true, decide_eq_true_eq]
        exact or_iff_not_imp_left.mpr fun hforce => not_not.mp fun hne => hst ⟨hforce, hne⟩
      exact h.erase hele (hcov.leaving hele htakes)

theorem Exact.acquireBuffer {r : AVBufferQueueImpl × Except Status AVBufferRef} (h : Exact q)
    (hr : q.acquireBuffer = some r) : Exact r.1 := by
  unfold AVBufferQueueImpl.acquireBuffer popFromDirtyBufferList at hr
  split at hr
  next u hu =>
    cases hr
    split at hu
    · obtain rfl := (Prod.mk.inj hu).1
      exact h
    · cases (Prod.mk.inj hu).2
  · cases hr
  next u buffer hu =>
    cases hr
    split at hu
    · cases (Prod.mk.inj hu).2
    next front rest _ =>
      have hu : Exact u := by
        obtain rfl := (Prod.mk.inj hu).1
        exact (touch_sameAccount q front).exact h
      exact ((touch_sameAccount u buffer.uniqueId).exact hu).setState buffer.uniqueId .acquired

/-! ## Clearing and resizing -/

theorem Exact.clear (h : Exact q) : Exact q.clear := by
  have hclear : ∀ (ids : List UInt64) (u : AVBufferQueueImpl), Exact u →
      Exact (ids.foldl clearElement u) := by
    intro ids
    induction ids with
    | nil => exact fun u hu => hu
    | cons id rest ih =>
      intro u hu
      refine ih _ ?_
      unfold clearElement
      split
      · exact hu
      next ele hele =>
        split
        · have hset : Exact (u.setElement id { ele with state := .released }) :=
            hu.setElement hele rfl
          exact hset.insertFree id
        · exact hu
  exact hclear q.cachedBufferMap.keys { q with dirtyBufferList := [] } h

theorem Exact.clearDirtyIf {pred : Option AVBufferRef → Bool} (l : List UInt64) :
    ∀ {q : AVBufferQueueImpl} {r : AVBufferQueueImpl × List UInt64}, Exact q →
      q.clearDirtyIf pred l = some r → Exact r.1 := by
  induction l with
  | nil =>
    intro q r h hr
    cases hr
    exact h
  | cons id rest ih =>
    intro q r h hr
    have hkeep : ∀ {r : AVBufferQueueImpl × List UInt64},
        ((q.clearDirtyIf pred rest).map fun r => (r.1, id :: r.2)) = some r → Exact r.1 := by
      intro r hr
      obtain ⟨v, hv, rfl⟩ := Option.map_eq_some_iff.mp hr
      have hrest : Exact v.1 := ih h hv
      exact hrest
    simp only [AVBufferQueueImpl.clearDirtyIf] at hr
    split at hr
    · exact hkeep hr
    next ele hele =>
      split at hr
      · exact hkeep hr
      · split at hr
        · split at hr
          · cases hr
          · have hset : Exact (q.setElement id { ele with state := .released }) :=
              h.setElement hele rfl
            exact ih (hset.insertFree id) hr
        · exact hkeep hr

theorem Exact.clearBufferIf {pred : Option AVBufferRef → Bool} (h : Exact q)
    (hq' : q.clearBufferIf pred = some q') : Exact q' := by
  obtain ⟨r, hr, rfl⟩ := Option.map_eq_some_iff.mp hq'
  exact Exact.clearDirtyIf _ h hr

theorem SameAccount.of_deleteBuffers (q : AVBufferQueueImpl) (count : Nat) :
    SameAccount (q.deleteIds (q.deletedIds count)) (q.deleteBuffers count) :=
  .of_charges (deleteBuffers_charges q count).1 (deleteBuffers_charges q count).2

def resizeDeletes (q : AVBufferQueueImpl) (size : Nat) : List UInt64 :=
  if q.size < size then [] else q.deletedIds (q.size - size)

theorem resizeLocked_charges (q : AVBufferQueueImpl) (size : Nat) :
    (q.resizeLocked size).memoryUsage = (q.deleteIds (q.resizeDeletes size)).memoryUsage ∧
      ∀ k : UInt64, (q.resizeLocked size).cachedBufferMap[k]?.map AVBufferElement.charge =
        (q.deleteIds (q.resizeDeletes size)).cachedBufferMap[k]?.map AVBufferElement.charge := by
  unfold resizeLocked resizeDeletes
  split
  · constructor
    · simp only
      split <;> rfl
    · intro k
      simp only
      split <;> rfl
  · exact deleteBuffers_charges q (q.size - size)

theorem Exact.resizeLocked {size : Nat} (h : Exact q) (hcov : Covers q (q.resizeDeletes size)) :
    Exact (q.resizeLocked size) := by
  obtain ⟨husage, hmap⟩ := resizeLocked_charges q size
  exact (SameAccount.of_charges husage hmap).exact (h.deleteIds hcov)

def setSizeDeletes (q : AVBufferQueueImpl) (size : Nat) : List UInt64 :=
  if size ≤ avbufferQueueMaxQueueSizeForLarger ∧ size ≠ q.size then q.resizeDeletes size else []

theorem Exact.setLargerQueueSize {size : Nat} (h : Exact q)
    (hcov : Covers q (q.setSizeDeletes size)) : Exact (q.setLargerQueueSize size).1 := by
  unfold setSizeDeletes at hcov
  unfold AVBufferQueueImpl.setLargerQueueSize setLargerQueueSizeLocked
  split at hcov
  next hsize =>
    rw [if_pos hsize]
    exact h.resizeLocked hcov
  next hsize =>
    rw [if_neg hsize]
    exact h

theorem Exact.setQueueSize {size : Nat} (h : Exact q) (hcov : Covers q (q.setSizeDeletes size)) :
    Exact (q.setQueueSize size).1 := by
  unfold AVBufferQueueImpl.setQueueSize
  split
  · exact h.setLargerQueueSize hcov
  · exact h

/-! ## Attaching -/

def roomDeletes (q : AVBufferQueueImpl) : List UInt64 :=
  if q.size ≤ q.getCachedBufferCount ∧
      q.getCachedBufferCount - q.size < q.dirtyBufferList.length + q.freeBufferList.length then
    q.deletedIds (q.getCachedBufferCount - q.size + 1)
  else []

def attachDeletes (q : AVBufferQueueImpl) (buffer : AVBufferRef) (config : AVBufferConfig) :
    List UInt64 :=
  if buffer.uniqueId ∈ q.cachedBufferMap ∨ q.checkConfig config = none then [] else q.roomDeletes

theorem Exact.attachAvailable {buffer : AVBufferRef} (h : Exact q)
    (hnew : buffer.uniqueId ∉ q.cachedBufferMap) (hcov : Covers q q.roomDeletes) :
    Exact (q.attachAvailableBufferLocked env buffer).1 := by
  unfold attachAvailableBufferLocked
  unfold roomDeletes at hcov
  simp only
  split
  next hfull =>
    split
    next hroom =>
      rw [if_pos ⟨hfull, hroom⟩] at hcov
      have hsame := SameAccount.of_deleteBuffers q (q.getCachedBufferCount - q.size + 1)
      refine (hsame.exact (h.deleteIds hcov)).addElement ?_
      rw [hsame.chargeAt]
      exact deleteIds_chargeAt_of_not_mem hnew
    · exact h
  · exact h.addElement (chargeAt_of_not_mem hnew)

theorem checkConfig_counts (h : q.checkConfig config = some u) :
    u.roomDeletes = q.roomDeletes := by
  unfold checkConfig at h
  split at h
  · cases h
  · split at h
    · cases h
    · cases h
      rfl

theorem Exact.attachBuffer {buffer : AVBufferRef}
    (h : Exact q) (hcov : Covers q (q.attachDeletes buffer config)) :
    Exact (q.attachBuffer env buffer config).1 := by
  unfold AVBufferQueueImpl.attachBuffer
  unfold attachDeletes at hcov
  split
  · exact h
  next hnew =>
    split
    · exact h
    next u hu =>
      rw [if_neg (by rw [hu]; simp [hnew]), ← checkConfig_counts hu] at hcov
      have hcheck := checkConfig_sameAccount hu
      have hmap := checkConfig_map hu
      refine (hcheck.exact h).attachAvailable (by rw [hmap]; exact hnew) ?_
      exact hcov.of_charges hcheck.usage fun k => by rw [hmap]

def resizeAttachDeletes (q : AVBufferQueueImpl) (size : Nat) (buffer : AVBufferRef)
    (config : AVBufferConfig) : List UInt64 :=
  if size ≤ avbufferQueueMaxQueueSize ∧ size ≠ q.size then
    q.resizeDeletes size ++ (q.resizeLocked size).attachDeletes buffer config
  else q.attachDeletes buffer config

theorem Exact.setQueueSizeAndAttachBuffer {size : Nat} {buffer : AVBufferRef} (h : Exact q)
    (hcov : Covers q (q.resizeAttachDeletes size buffer config)) :
    Exact (q.setQueueSizeAndAttachBuffer env size buffer config).1 := by
  unfold AVBufferQueueImpl.setQueueSizeAndAttachBuffer
  unfold resizeAttachDeletes at hcov
  split at hcov
  next hsize =>
    rw [if_pos hsize]
    obtain ⟨husage, hmap⟩ := resizeLocked_charges q size
    exact (h.resizeLocked hcov.append.1).attachBuffer (hcov.append.2.of_charges husage hmap)
  next hsize =>
    rw [if_neg hsize]
    exact h.attachBuffer hcov

end AVBufferQueueImpl

open AVBufferQueueImpl

/-! ## Over runs -/

/-- The buffers that the label's block deletes from the map, in the order in
which it pays them back. -/
def deletedBy (s : System) (l : Label) : List UInt64 :=
  match s.threads l.thread, l.action with
  | .idle, .call (.requestBufferWaitUs config _ seen) =>
    s.queue.reallocatedFirst (configCopy config seen)
  | .requesting _ config _ _, .resume _ => s.queue.reallocated config
  | .idle, .call (.pushBuffer uniqueId _) | .idle, .call (.returnBuffer uniqueId _)
  | .pushFilled uniqueId, .resume _ | .returnBlock _ uniqueId _, .resume _ =>
    s.queue.leaving uniqueId (·.isDeleting)
  | .idle, .call (.releaseBuffer uniqueId) | .releaseAttached uniqueId, .resume _ =>
    s.queue.leaving uniqueId fun ele =>
      ele.isDeleting && (ele.state = .acquired ∨ ele.state = .attached)
  | .idle, .call (.detachBuffer uniqueId) =>
    s.queue.leaving uniqueId fun ele => false || (ele.state = .requested ∨ ele.state = .acquired)
  | .detachBlock uniqueId _, .resume _ =>
    s.queue.leaving uniqueId fun ele => true || (ele.state = .requested ∨ ele.state = .acquired)
  | .idle, .call (.setQueueSize size) | .idle, .call (.setLargerQueueSize size) =>
    s.queue.setSizeDeletes size
  | .idle, .call (.attachBuffer buffer config _) => s.queue.attachDeletes buffer config
  | .idle, .call (.setQueueSizeAndAttachBuffer size buffer config _) =>
    s.queue.resizeAttachDeletes size buffer config
  | _, _ => []

/-- The buffer whose recorded configuration the label's block overwrites. -/
def filedBy (s : System) (l : Label) : Option UInt64 :=
  match s.threads l.thread, l.action with
  | .idle, .call (.returnBuffer uniqueId _) | .returnBlock _ uniqueId _, .resume _ => some uniqueId
  | _, _ => none

/-- **The step counts exactly**: `CreateAVBuffer` gives no cached id, a filed
buffer has the capacity that is recorded for it, and the counter covers the
buffers that leave. -/
structure CountsExactly (s : System) (l : Label) : Prop where
  fresh : Fresh s.queue l.env
  recorded : ∀ uniqueId ∈ filedBy s l, FilesRecorded s.queue l.env uniqueId
  covered : Covers s.queue (deletedBy s l)

theorem block_exact {s : System} {l : Label} {o : Outcome} (h : Exact s.queue)
    (hgood : CountsExactly s l) (hb : block s l = some (some o)) : Exact o.queue := by
  obtain ⟨hfresh, hrecorded, hcov⟩ := hgood
  have hmakes := block_makes hb
  unfold filedBy at hrecorded
  unfold deletedBy at hcov
  generalize s.threads l.thread = thread, l.action = action, o.queue = q
    at hmakes hrecorded hcov ⊢
  cases hmakes with
  | request config timeoutUs seen =>
    exact h.requestBufferWaitUs hfresh.newUncharged hcov timeoutUs
  | push hr | pushFilled hr timedOut => exact h.pushBuffer hcov hr
  | giveBack hr | file hr caller timedOut => exact h.returnBuffer hcov (hrecorded _ rfl) hr
  | attach buffer config isFilled => exact h.attachBuffer hcov
  | resizeAttach size buffer config isFilled => exact h.setQueueSizeAndAttachBuffer hcov
  | detach id | detachMarked id status timedOut => exact h.detachBuffer hcov
  | acquire hr => exact h.acquireBuffer hr
  | release id | releaseAttached id timedOut => exact h.releaseBuffer hcov
  | resize size => exact h.setQueueSize hcov
  | enlarge size => exact h.setLargerQueueSize hcov
  | clear => exact h.clear
  | clearIf hu => exact h.clearBufferIf hu
  | requestAgain party config timeoutUs awake timedOut =>
    exact h.requestBufferResume hfresh.newUncharged hcov timeoutUs timedOut
  | broker caller id buffer timedOut | producer timedOut | consumer caller id timedOut => exact h

theorem step_exact {s t : System} {l : Label} (h : Exact s.queue) (hgood : CountsExactly s l)
    (hs : step s l = some t) : Exact t.queue := by
  obtain ⟨-, ⟨o, hb, rfl, -⟩ | ⟨-, rfl, -⟩ | ⟨ls, -, -, rfl, -⟩⟩ := step_cases hs
  · exact block_exact h hgood hb
  · exact h
  · exact h

theorem exact_init (size : Nat) (type : MemoryType) (disableAlloc : Bool) :
    Exact (create size type disableAlloc) := by
  rw [Exact, charged]
  exact (congrArg (· % 2 ^ 32) (TreeMap.sumValues_empty (f := AVBufferElement.charge))).symm

/-- **The account is exact** in every state of a run whose steps count exactly,
and an empty map has an empty account. -/
theorem memory_accounted {size : Nat} {type : MemoryType} {disableAlloc : Bool} {ls : List Label}
    {s : System} (hgood : Runs.Along step CountsExactly (.init size type disableAlloc) ls)
    (hrun : Runs.run step (.init size type disableAlloc) ls = some s) :
    Exact s.queue ∧ (s.queue.cachedBufferMap = ∅ → s.queue.memoryUsage = 0) := by
  have hexact : Exact s.queue :=
    Runs.run_invariant (I := fun s : System => Exact s.queue)
      (fun _ _ _ h hk hs => step_exact h hk hs) (exact_init size type disableAlloc) hgood hrun
  refine ⟨hexact, fun hempty => ?_⟩
  rw [Exact, hempty, charged, TreeMap.sumValues_empty] at hexact
  exact UInt32.toNat_inj.mp hexact

theorem memory_accounted_requestDetach :
    ∃ s, Runs.run step (.init 1 .unknownMemory false)
        [requestNew 1, sampleLabel (.call (.detachBuffer 1))] = some s ∧
      s.queue.cachedBufferMap = ∅ ∧ s.queue.memoryUsage = 0 := by
  have hgood : Runs.Along step CountsExactly (.init 1 .unknownMemory false)
      [requestNew 1, sampleLabel (.call (.detachBuffer 1))] := by
    refine .cons ⟨by decide, nofun, by decide⟩ rfl ?_
    exact .cons ⟨by decide, nofun, by decide⟩ rfl trivial
  have hexact := memory_accounted hgood rfl
  exact ⟨_, rfl, rfl, hexact.2 rfl⟩

/-! ## The run that breaks it -/

def attachSized (id : UInt64) (capacity : Int32) : Label where
  thread := 1
  party := 1
  env := { contents := fun _ => { config := { sampleConfig with capacity }, flag := 0 },
           created := none }
  action := .call (.attachBuffer ⟨0, id⟩ { sampleConfig with capacity } false)

def goOn (l : Label) : Label := { l with action := .resume false }

/-- Three buffers of two gigabytes are attached and released to the free list. -/
def attachThree : List Label :=
  let attach := fun id => attachSized id 0x7fffffff
  [attach 1, goOn (attach 1), goOn (attach 1), attach 2, goOn (attach 2), goOn (attach 2),
    attach 3, goOn (attach 3), goOn (attach 3)]

/-- The counter has wrapped, and none of the capacities is subtracted from it:
an empty queue keeps two gigabytes in its account. -/
theorem usage_after_wrap :
    ∃ s t, Runs.run step (.init 3 .unknownMemory false) attachThree = some s ∧
      Exact s.queue ∧
      step s (sampleLabel (.call (.setQueueSize 0))) = some t ∧
      t.queue.cachedBufferMap.isEmpty = true ∧ t.queue.memoryUsage = 0x7ffffffd ∧
      ¬ Exact t.queue := by
  refine ⟨_, _, rfl, by decide, rfl, by decide, by decide, by decide⟩

end MediaFoundation.Queue
