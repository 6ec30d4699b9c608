import MediaFoundation.Queue.Capacity

/-!
# Waking blocked producers

When does a step that gives a blocked `RequestBuffer` something to take also
notify `requestCondition`? Nothing is assumed about the queue: the lemmas hold
in every state, reachable or not.

The blocks that take a buffer out are the delayed deletions of `PushBuffer`,
`ReturnBuffer` and `ReleaseBuffer`, `DetachBuffer` and the forced detach. None
of them notifies; each frees a slot when the map is exactly full.
-/

namespace MediaFoundation.Queue

open Std (ExtTreeMap)

namespace AVBufferQueueImpl

variable {q q' u : AVBufferQueueImpl} {id : UInt64}

/-! ## What the waiters look at -/

/-- The waiters see no more room than before, and nobody tells them. -/
structure Keeps (q q' : AVBufferQueueImpl) : Prop where
  alloc : q'.disableAlloc = q.disableAlloc
  notified : q'.notified = q.notified
  size : q'.size = q.size
  count_le : q.cachedBufferMap.size ≤ q'.cachedBufferMap.size

/-- One element leaves the map, and nobody is told. -/
structure TakenOut (q q' : AVBufferQueueImpl) : Prop where
  alloc : q'.disableAlloc = q.disableAlloc
  notified : q'.notified = q.notified
  size : q'.size = q.size
  free : q'.freeBufferList = q.freeBufferList
  count : q'.cachedBufferMap.size + 1 = q.cachedBufferMap.size

structure Wakes (q q' : AVBufferQueueImpl) : Prop where
  alloc : q'.disableAlloc = q.disableAlloc
  wakes : q.disableAlloc = false → q.waitPredicate = false → q'.waitPredicate = true →
    q.notified < q'.notified

theorem Keeps.refl (q : AVBufferQueueImpl) : Keeps q q := ⟨rfl, rfl, rfl, Nat.le_refl _⟩

theorem Keeps.trans (h : Keeps q u) (h' : Keeps u q') : Keeps q q' :=
  ⟨h'.alloc.trans h.alloc, h'.notified.trans h.notified, h'.size.trans h.size,
    h.count_le.trans h'.count_le⟩

theorem waitPredicate_eq_false :
    q.waitPredicate = false ↔ q.freeBufferList = [] ∧ q.size ≤ q.cachedBufferMap.size := by
  rw [waitPredicate, Bool.or_eq_false_iff, decide_eq_false_iff_not, Nat.not_lt,
    getCachedBufferCount, Bool.not_eq_false', List.isEmpty_iff]

theorem Keeps.wakes (h : Keeps q q') (hfree : q.freeBufferList = [] → q'.freeBufferList = []) :
    Wakes q q' := by
  refine ⟨h.alloc, fun _ hq hq' => ?_⟩
  obtain ⟨hnil, hfull⟩ := waitPredicate_eq_false.mp hq
  have := waitPredicate_eq_false.mpr ⟨hfree hnil, by rw [h.size]; exact hfull.trans h.count_le⟩
  rw [hq'] at this
  cases this

theorem Wakes.refl (q : AVBufferQueueImpl) : Wakes q q := (Keeps.refl q).wakes id

theorem Wakes.of_pred (halloc : q'.disableAlloc = q.disableAlloc) (hq : q.waitPredicate = true) :
    Wakes q q' :=
  ⟨halloc, fun _ hfalse => by rw [hq] at hfalse; cases hfalse⟩

/-- The map is exactly full and no buffer is free: a buffer that leaves frees the only slot. -/
def LastSlot (q : AVBufferQueueImpl) : Bool :=
  q.freeBufferList.isEmpty && decide (q.cachedBufferMap.size = q.size)

theorem TakenOut.wakes (h : TakenOut q q') (hslot : q.LastSlot = false) : Wakes q q' := by
  refine ⟨h.alloc, fun _ hq hq' => ?_⟩
  obtain ⟨hnil, hfull⟩ := waitPredicate_eq_false.mp hq
  have hne : q.cachedBufferMap.size ≠ q.size := by simpa [LastSlot, hnil] using hslot
  have := h.count
  have := waitPredicate_eq_false.mpr ⟨h.free.trans hnil, by rw [h.size]; omega⟩
  rw [hq'] at this
  cases this

theorem TakenOut.lost (h : TakenOut q q') (hslot : q.LastSlot = true) :
    q.waitPredicate = false ∧ q'.waitPredicate = true ∧ q'.notified = q.notified := by
  simp only [LastSlot, Bool.and_eq_true, List.isEmpty_iff, decide_eq_true_eq] at hslot
  refine ⟨waitPredicate_eq_false.mpr ⟨hslot.1, hslot.2.ge⟩, ?_, h.notified⟩
  have := h.count
  have := h.size
  rw [waitPredicate, getCachedBufferCount, Bool.or_eq_true, decide_eq_true_eq]
  omega

/-! ## The helpers -/

theorem setElement_keeps (q : AVBufferQueueImpl) (id : UInt64) (ele : AVBufferElement) :
    Keeps q (q.setElement id ele) :=
  ⟨rfl, rfl, rfl, ExtTreeMap.size_le_size_insert⟩

theorem touch_keeps (q : AVBufferQueueImpl) (id : UInt64) : Keeps q (q.touch id) := by
  unfold touch
  split
  · exact .refl q
  · exact ⟨rfl, rfl, rfl, ExtTreeMap.size_le_size_insert⟩

@[simp] theorem touch_freeBufferList (q : AVBufferQueueImpl) (id : UInt64) :
    (q.touch id).freeBufferList = q.freeBufferList := by
  unfold touch
  split <;> rfl

theorem addElement_keeps (q : AVBufferQueueImpl) (id : UInt64) (ele : AVBufferElement) :
    Keeps q (q.addElement id ele) := by
  obtain ⟨m, hm⟩ := addElement_eq q id ele
  rw [hm]
  exact (setElement_keeps q id ele).trans ⟨rfl, rfl, rfl, Nat.le_refl _⟩

theorem insertInOrder_keeps (id : UInt64) (l : List UInt64) :
    ∀ q : AVBufferQueueImpl, Keeps q (q.insertInOrder id l).1 := by
  induction l with
  | nil => exact Keeps.refl
  | cons it rest ih =>
    intro q
    have htouch : Keeps q (if it ≠ id then (q.touch it).touch id else q) := by
      split
      · exact (touch_keeps q it).trans (touch_keeps _ id)
      · exact .refl q
    unfold insertInOrder
    generalize (if it ≠ id then (q.touch it).touch id else q) = u at htouch
    simp only
    split
    · exact htouch
    · exact htouch.trans (ih u)

theorem insertFreeBufferInOrder_keeps (q : AVBufferQueueImpl) (id : UInt64) :
    Keeps q (q.insertFreeBufferInOrder id) :=
  (insertInOrder_keeps id _ q).trans ⟨rfl, rfl, rfl, Nat.le_refl _⟩

theorem Wakes.of_notifyAll (h : Keeps q u) : Wakes q u.notifyAll :=
  ⟨h.alloc, fun _ _ _ => by rw [notifyAll, h.notified]; exact Nat.lt_succ_self _⟩

theorem findFree_keeps (config : AVBufferConfig) (l : List UInt64) :
    ∀ q : AVBufferQueueImpl, Keeps q (q.findFree config l).1 := by
  induction l with
  | nil => exact Keeps.refl
  | cons it rest ih =>
    intro q
    simp only [findFree]
    split
    · exact touch_keeps q it
    · exact (touch_keeps q it).trans (ih _)

theorem popFromFreeBufferList_keeps (q : AVBufferQueueImpl) (config : AVBufferConfig) :
    Keeps q (q.popFromFreeBufferList config).1 := by
  have hfind := findFree_keeps config q.freeBufferList q
  unfold popFromFreeBufferList
  split
  next u it hu =>
    rw [hu] at hfind
    exact hfind.trans ⟨rfl, rfl, rfl, Nat.le_refl _⟩
  next u hu =>
    rw [hu] at hfind
    split
    · exact hfind
    · exact (hfind.trans (touch_keeps _ _)).trans ⟨rfl, rfl, rfl, Nat.le_refl _⟩

theorem popFromFreeBufferList_nil (h : q.freeBufferList = []) (config : AVBufferConfig) :
    q.popFromFreeBufferList config = (q, none) := by
  simp [popFromFreeBufferList, h, findFree]

theorem findFree_freeBufferList (config : AVBufferConfig) (l : List UInt64) :
    ∀ q : AVBufferQueueImpl, (q.findFree config l).1.freeBufferList = q.freeBufferList := by
  induction l with
  | nil => intro q; rfl
  | cons it rest ih =>
    intro q
    simp only [findFree]
    split
    · exact touch_freeBufferList q it
    · rw [ih, touch_freeBufferList]

theorem popFromFreeBufferList_ne_none (h : q.freeBufferList ≠ []) (config : AVBufferConfig) :
    q.popFromFreeBufferList config ≠ (u, none) := by
  have hfind := findFree_freeBufferList config q.freeBufferList q
  unfold popFromFreeBufferList
  split
  · exact fun heq => by cases heq
  next v hv =>
    rw [hv] at hfind
    split
    next hnil => exact absurd (hfind.symm.trans hnil) h
    · exact fun heq => by cases heq

theorem eraseElement_takenOut (hid : id ∈ q.cachedBufferMap) :
    TakenOut q { q with cachedBufferMap := q.cachedBufferMap.erase id } :=
  ⟨rfl, rfl, rfl, rfl, TreeMap.size_erase_of_mem hid⟩

theorem deleteCachedBufferById_takenOut (hid : id ∈ q.cachedBufferMap) :
    TakenOut q (q.deleteCachedBufferById id) := by
  obtain ⟨m, hm⟩ := deleteCachedBufferById_eq q id
  rw [hm]
  exact ⟨rfl, rfl, rfl, rfl, TreeMap.size_erase_of_mem hid⟩

/-! ## RequestBuffer -/

theorem checkConfig_keeps {config : AVBufferConfig} (h : q.checkConfig config = some u) :
    Keeps q u ∧ u.freeBufferList = q.freeBufferList := by
  obtain rfl := checkConfig_eq h
  exact ⟨⟨rfl, rfl, rfl, Nat.le_refl _⟩, rfl⟩

theorem allocBuffer_alloc (q : AVBufferQueueImpl) (env : Env) :
    (q.allocBuffer env).1.disableAlloc = q.disableAlloc := by
  unfold allocBuffer
  split
  · rfl
  · exact (addElement_keeps ..).alloc

theorem deleteCachedBufferById_alloc (q : AVBufferQueueImpl) (id : UInt64) :
    (q.deleteCachedBufferById id).disableAlloc = q.disableAlloc := by
  obtain ⟨m, hm⟩ := deleteCachedBufferById_eq q id
  rw [hm]

theorem requestReuseBuffer_alloc (q : AVBufferQueueImpl) (env : Env) (buffer : Option AVBufferRef)
    (config : AVBufferConfig) :
    (q.requestReuseBuffer env buffer config).1.disableAlloc = q.disableAlloc := by
  unfold requestReuseBuffer
  split
  · rfl
  · split
    · rfl
    · split
      · rfl
      · rw [allocBuffer_alloc, deleteCachedBufferById_alloc]

theorem requestAfterWait_alloc (q : AVBufferQueueImpl) (env : Env) (config : AVBufferConfig) :
    (q.requestAfterWait env config).1.disableAlloc = q.disableAlloc := by
  have hpop := (popFromFreeBufferList_keeps q config).alloc
  unfold requestAfterWait
  split
  next u buffer hu =>
    rw [hu] at hpop
    rw [requestReuseBuffer_alloc, hpop]
  next u hu =>
    rw [hu] at hpop
    split
    · exact hpop
    · rw [allocBuffer_alloc, hpop]

theorem requestAfterWait_wakes (q : AVBufferQueueImpl) (env : Env) (config : AVBufferConfig) :
    Wakes q (q.requestAfterWait env config).1 := by
  by_cases hpred : q.waitPredicate = true
  · exact .of_pred (requestAfterWait_alloc q env config) hpred
  · obtain ⟨hnil, hfull⟩ := waitPredicate_eq_false.mp (Bool.eq_false_iff.mpr hpred)
    simp only [requestAfterWait, popFromFreeBufferList_nil hnil, getCachedBufferCount, hfull,
      if_true]
    exact .refl q

theorem requestBufferWaitUs_alloc (q : AVBufferQueueImpl) (env : Env) (config : AVBufferConfig)
    (timeoutUs : Int64) :
    (q.requestBufferWaitUs env config timeoutUs).1.disableAlloc = q.disableAlloc := by
  unfold requestBufferWaitUs
  split
  · rfl
  next u hu =>
    have hcheck := (checkConfig_keeps hu).1.alloc
    have hpop := (popFromFreeBufferList_keeps u config).alloc
    split
    next v buffer hv =>
      rw [hv] at hpop
      rw [requestReuseBuffer_alloc, hpop, hcheck]
    next v hv =>
      rw [hv] at hpop
      split
      · split
        · rw [requestAfterWait_alloc, hpop, hcheck]
        · exact hpop.trans hcheck
      · rw [allocBuffer_alloc, hpop, hcheck]

theorem requestBufferWaitUs_wakes (q : AVBufferQueueImpl) (env : Env) (config : AVBufferConfig)
    (timeoutUs : Int64) : Wakes q (q.requestBufferWaitUs env config timeoutUs).1 := by
  by_cases hpred : q.waitPredicate = true
  · exact .of_pred (requestBufferWaitUs_alloc q env config timeoutUs) hpred
  · obtain ⟨hnil, hfull⟩ := waitPredicate_eq_false.mp (Bool.eq_false_iff.mpr hpred)
    unfold requestBufferWaitUs
    split
    · exact .refl q
    next u hu =>
      obtain ⟨hcheck, hfree⟩ := checkConfig_keeps hu
      have hwakes := hcheck.wakes fun _ => hfree.trans hnil
      have hfull : u.size ≤ u.getCachedBufferCount := by
        rw [hcheck.size]
        exact hfull.trans hcheck.count_le
      simp only [popFromFreeBufferList_nil (hfree.trans hnil), hfull, if_true]
      split
      · simp only [requestAfterWait, popFromFreeBufferList_nil (hfree.trans hnil), hfull, if_true]
        exact hwakes
      · exact hwakes

theorem requestBufferResume_wakes (q : AVBufferQueueImpl) (env : Env) (config : AVBufferConfig)
    (timeoutUs : Int64) (timedOut : Bool) :
    Wakes q (q.requestBufferResume env config timeoutUs timedOut).1 := by
  unfold requestBufferResume
  split
  · split <;> exact .refl q
  · exact requestAfterWait_wakes q env config

theorem requestBufferWaitUs_sleeps {env : Env} {config : AVBufferConfig} {timeoutUs : Int64}
    (h : q.requestBufferWaitUs env config timeoutUs = (q', none)) : q'.waitPredicate = false := by
  unfold requestBufferWaitUs at h
  split at h
  · cases h
  next u hu =>
    split at h
    · cases h
    next v hv =>
      split at h
      next hfull =>
        split at h
        · cases h
        · obtain rfl := (Prod.mk.inj h).1
          by_cases hnil : u.freeBufferList = []
          · rw [popFromFreeBufferList_nil hnil] at hv
            obtain rfl := (Prod.mk.inj hv).1
            exact waitPredicate_eq_false.mpr ⟨hnil, hfull⟩
          · exact absurd hv (popFromFreeBufferList_ne_none hnil config)
      · cases h

theorem requestBufferResume_sleeps {env : Env} {config : AVBufferConfig} {timeoutUs : Int64}
    {timedOut : Bool} (h : q.requestBufferResume env config timeoutUs timedOut = (q', none)) :
    q'.waitPredicate = false := by
  unfold requestBufferResume at h
  split at h
  next hpred =>
    split at h
    · cases h
    · obtain rfl := (Prod.mk.inj h).1
      simpa using hpred.2
  · cases h

/-! ## The blocks that take a buffer out -/

/-- A cached element that meets the condition is taken out, else the waiters are woken. -/
def LeavesOrWakes (q q' : AVBufferQueueImpl) (takes : Bool) : Prop :=
  if takes then TakenOut q q' else Wakes q q'

theorem LeavesOrWakes.takes {takes : Bool} (h : takes = true) (hout : TakenOut q q') :
    LeavesOrWakes q q' takes := by
  rw [h]
  exact hout

theorem LeavesOrWakes.wakes {takes : Bool} (h : takes = false) (hw : Wakes q q') :
    LeavesOrWakes q q' takes := by
  rw [h]
  exact hw

theorem Wakes.setElement (q : AVBufferQueueImpl) (id : UInt64) (ele : AVBufferElement) :
    Wakes q (q.setElement id ele) := (setElement_keeps q id ele).wakes fun h => h

theorem pushBuffer_wakes {env : Env} {available : Bool} {r : AVBufferQueueImpl × PushOutcome}
    (h : q.pushBuffer env id available = some r) :
    LeavesOrWakes q r.1 (q.cachedBufferMap[id]?.any (·.isDeleting)) := by
  unfold pushBuffer at h
  split at h
  next hnone =>
    cases h
    rw [hnone]
    exact .refl q
  next ele hele =>
    rw [hele, Option.any_some]
    split at h
    next hdel =>
      cases h
      exact .takes hdel (deleteCachedBufferById_takenOut (mem_of_lookup hele))
    next hdel =>
      have hpush : Wakes q (q.pushElement id ele).1 := by
        unfold pushElement
        split
        · exact .setElement q id _
        · exact .refl q
      refine .wakes (Bool.eq_false_iff.mpr hdel) ?_
      split at h
      · split at h
        · cases h
        · split at h <;> cases h
          · exact .refl q
          · exact hpush
      · cases h
        exact hpush

theorem cancelBuffer_wakes (q : AVBufferQueueImpl) (id : UInt64) :
    Wakes q (q.cancelBuffer id).1 := by
  unfold cancelBuffer
  split
  · exact .refl q
  · split
    · exact .of_notifyAll ((insertFreeBufferInOrder_keeps q id).trans (setElement_keeps _ _ _))
    · exact .refl q

theorem returnBuffer_wakes {env : Env} {available : Bool} {r : AVBufferQueueImpl × ReturnOutcome}
    (h : q.returnBuffer env id available = some r) :
    LeavesOrWakes q r.1 (q.cachedBufferMap[id]?.any (·.isDeleting)) := by
  unfold returnBuffer at h
  split at h
  next hnone =>
    cases h
    rw [hnone]
    exact .refl q
  next ele hele =>
    rw [hele, Option.any_some]
    split at h
    next hdel =>
      cases h
      exact .takes hdel (deleteCachedBufferById_takenOut (mem_of_lookup hele))
    next hdel =>
      refine .wakes (Bool.eq_false_iff.mpr hdel) ?_
      split at h
      · cases h
        exact .refl q
      · split at h
        · have hcancel := cancelBuffer_wakes q id
          split at h <;> cases h
          next u hu => rw [hu] at hcancel; exact hcancel
          next u status _ hu => rw [hu] at hcancel; exact hcancel
        · split at h
          · cases h
          · simp only at h
            split at h <;> cases h
            · exact .refl q
            · exact Keeps.wakes ⟨rfl, rfl, rfl, (setElement_keeps q id _).count_le⟩
                fun hnil => hnil

theorem releaseBuffer_wakes (q : AVBufferQueueImpl) (id : UInt64) :
    LeavesOrWakes q (q.releaseBuffer id).1 (q.cachedBufferMap[id]?.any fun ele =>
      ele.isDeleting && (ele.state = .acquired ∨ ele.state = .attached)) := by
  unfold releaseBuffer
  split
  next hnone =>
    rw [hnone]
    exact .refl q
  next ele hele =>
    rw [hele, Option.any_some]
    split
    next hst =>
      rw [decide_eq_true hst, Bool.and_true]
      split
      next hdel =>
        have hout : TakenOut q { q with cachedBufferMap := q.cachedBufferMap.erase id } :=
          eraseElement_takenOut (mem_of_lookup hele)
        obtain ⟨m, hm⟩ :=
          deleteCachedBufferById_eq (q.setElement id { ele with state := .released }) id
        rw [setElement_erase] at hm
        refine .takes hdel ?_
        simp only [hm]
        exact ⟨rfl, rfl, rfl, rfl, hout.count⟩
      next hdel =>
        refine .wakes (Bool.eq_false_iff.mpr hdel) ?_
        exact .of_notifyAll ((setElement_keeps q id _).trans (insertFreeBufferInOrder_keeps _ id))
    next hst =>
      rw [decide_eq_false hst, Bool.and_false]
      exact .refl q

theorem detachBuffer_wakes (q : AVBufferQueueImpl) (id : UInt64) (force : Bool) :
    LeavesOrWakes q (q.detachBuffer id force).1 (q.cachedBufferMap[id]?.any fun ele =>
      force || (ele.state = .requested ∨ ele.state = .acquired)) := by
  unfold detachBuffer
  split
  next hnone =>
    rw [hnone]
    exact .refl q
  next ele hele =>
    rw [hele, Option.any_some]
    split
    next hst =>
      rw [Bool.eq_false_iff.mpr hst.1, decide_eq_false hst.2]
      exact .refl q
    next hst =>
      have htakes : (force || decide (ele.state = .requested ∨ ele.state = .acquired)) = true := by
        rw [Bool.or_eq_true, decide_eq_true_eq]
        exact or_iff_not_imp_left.mpr fun hforce => not_not.mp fun hne => hst ⟨hforce, hne⟩
      obtain ⟨m, hm⟩ := totalMemoryCalculation_eq (q := q) false ele.config.capacity
      refine .takes htakes ?_
      rw [hm]
      exact ⟨rfl, rfl, rfl, rfl, TreeMap.size_erase_of_mem (mem_of_lookup hele)⟩

/-! ## The other blocks -/

theorem deleteBuffers_count (q : AVBufferQueueImpl) (count : Nat) :
    q.cachedBufferMap.size + q.markCount count ≤
      (q.deleteBuffers count).cachedBufferMap.size + count := by
  obtain ⟨m, hm⟩ := deleteBuffers_eq q count
  have := TreeMap.size_le_size_foldl_erase q.cachedBufferMap (q.deletedIds count)
  have := length_deletedIds q count
  simp only [hm, markElements_size, mapAfterDelete]
  omega

/-- Shrinking takes away no more buffers than slots. -/
theorem resizeLocked_wakes (q : AVBufferQueueImpl) (size : Nat) :
    Wakes q (q.resizeLocked size) := by
  unfold resizeLocked
  split
  next hgrow =>
    refine ⟨by simp only; split <;> rfl, fun halloc _ _ => ?_⟩
    simp only [halloc, Bool.false_eq_true, not_false_eq_true, if_true, notifyAll]
    exact Nat.lt_succ_self _
  next hshrink =>
    have hcount := deleteBuffers_count q (q.size - size)
    obtain ⟨m, hm⟩ := deleteBuffers_eq q (q.size - size)
    refine ⟨by rw [hm], fun _ hq hq' => ?_⟩
    obtain ⟨hnil, hfull⟩ := waitPredicate_eq_false.mp hq
    have hfree : (q.deleteBuffers (q.size - size)).freeBufferList = [] := by
      rw [hm, hnil, List.drop_nil]
    have hle : size ≤ (q.deleteBuffers (q.size - size)).cachedBufferMap.size := by omega
    have : ({ q.deleteBuffers (q.size - size) with size := size }).waitPredicate = false :=
      waitPredicate_eq_false.mpr ⟨hfree, hle⟩
    rw [hq'] at this
    cases this

theorem setLargerQueueSizeLocked_wakes (q : AVBufferQueueImpl) (size : Nat) :
    Wakes q (q.setLargerQueueSizeLocked size).1 := by
  unfold setLargerQueueSizeLocked
  split
  · exact resizeLocked_wakes q size
  · exact .refl q

theorem setQueueSize_wakes (q : AVBufferQueueImpl) (size : Nat) :
    Wakes q (q.setQueueSize size).1 := by
  unfold setQueueSize
  split
  · exact setLargerQueueSizeLocked_wakes q size
  · exact .refl q

/-- Attaching notifies nobody, and leaves a full queue full. -/
theorem attachAvailableBufferLocked_wakes {env : Env} {buffer : AVBufferRef}
    (hnew : buffer.uniqueId ∉ q.cachedBufferMap) :
    Wakes q (q.attachAvailableBufferLocked env buffer).1 ∧
      (q.attachAvailableBufferLocked env buffer).1.notified = q.notified := by
  have hadd := fun u ele => addElement_keeps u buffer.uniqueId ele
  simp only [attachAvailableBufferLocked, getCachedBufferCount]
  by_cases hfull : q.size ≤ q.cachedBufferMap.size
  · by_cases hvalid : q.cachedBufferMap.size - q.size <
      q.dirtyBufferList.length + q.freeBufferList.length
    · simp only [hfull, hvalid, if_true]
      generalize hele : (AVBufferElement.mk _ _ _ _) = ele
      have hcount := deleteBuffers_count q (q.cachedBufferMap.size - q.size + 1)
      obtain ⟨m, hm⟩ := deleteBuffers_eq q (q.cachedBufferMap.size - q.size + 1)
      obtain ⟨m', hm'⟩ := addElement_eq
        (q.deleteBuffers (q.cachedBufferMap.size - q.size + 1)) buffer.uniqueId ele
      have hsize : ((q.deleteBuffers (q.cachedBufferMap.size - q.size + 1)).addElement
          buffer.uniqueId ele).cachedBufferMap.size =
          (q.deleteBuffers (q.cachedBufferMap.size - q.size + 1)).cachedBufferMap.size + 1 := by
        rw [hm', setElement, ExtTreeMap.size_insert, if_neg]
        rw [← ExtTreeMap.mem_iff_contains, ExtTreeMap.mem_iff_isSome_getElem?, hm,
          deleteBuffers_lookup]
        rw [ExtTreeMap.mem_iff_isSome_getElem?] at hnew
        grind
      refine ⟨⟨?_, fun _ hq hq' => ?_⟩, ?_⟩
      · rw [(hadd _ _).alloc, hm]
      · obtain ⟨hnil, -⟩ := waitPredicate_eq_false.mp hq
        have : ((q.deleteBuffers (q.cachedBufferMap.size - q.size + 1)).addElement
            buffer.uniqueId ele).waitPredicate = false := by
          refine waitPredicate_eq_false.mpr ⟨?_, ?_⟩
          · rw [hm', setElement_freeBufferList, hm, hnil, List.drop_nil]
          · rw [(hadd _ _).size, hsize]
            have hqsize : (q.deleteBuffers (q.cachedBufferMap.size - q.size + 1)).size =
              q.size := by rw [hm]
            omega
        rw [hq'] at this
        cases this
      · rw [(hadd _ _).notified, hm]
    · simp only [hfull, hvalid, if_true, if_false]
      exact ⟨.refl q, trivial⟩
  · simp only [hfull, if_false]
    refine ⟨(hadd _ _).wakes fun hnil => ?_, (hadd _ _).notified⟩
    obtain ⟨m, hm⟩ := addElement_eq q buffer.uniqueId _
    rw [hm]
    exact hnil

theorem attachBuffer_wakes (q : AVBufferQueueImpl) (env : Env) (buffer : AVBufferRef)
    (config : AVBufferConfig) : Wakes q (q.attachBuffer env buffer config).1 ∧
      (q.attachBuffer env buffer config).1.notified = q.notified := by
  unfold attachBuffer
  split
  · exact ⟨.refl q, rfl⟩
  next hnew =>
    split
    · exact ⟨.refl q, rfl⟩
    next u hu =>
      obtain rfl := checkConfig_eq hu
      obtain ⟨hw, hn⟩ := @attachAvailableBufferLocked_wakes
        { q with memoryType := config.memoryType } env buffer hnew
      exact ⟨⟨hw.alloc, hw.wakes⟩, hn⟩

theorem setQueueSizeAndAttachBuffer_wakes (q : AVBufferQueueImpl) (env : Env) (size : Nat)
    (buffer : AVBufferRef) (config : AVBufferConfig) :
    Wakes q (q.setQueueSizeAndAttachBuffer env size buffer config).1 := by
  have hresize : Wakes q (if size ≤ avbufferQueueMaxQueueSize ∧ size ≠ q.size then
      q.setQueueSizeBeforeAttachBufferLocked size else q) := by
    split
    · exact resizeLocked_wakes q size
    · exact .refl q
  unfold setQueueSizeAndAttachBuffer
  generalize (if size ≤ avbufferQueueMaxQueueSize ∧ size ≠ q.size then
    q.setQueueSizeBeforeAttachBufferLocked size else q) = u at hresize
  obtain ⟨hw, hn⟩ := attachBuffer_wakes u env buffer config
  refine ⟨hw.alloc.trans hresize.alloc, fun halloc hq hq' => ?_⟩
  show q.notified < (u.attachBuffer env buffer config).1.notified
  rw [hn]
  -- attaching tells nobody, so the resize did if it made room
  refine hresize.wakes halloc hq (Bool.eq_true_of_not_eq_false fun hu => ?_)
  have hlt := hw.wakes (hresize.alloc.trans halloc) hu hq'
  omega

theorem acquireBuffer_wakes {r : AVBufferQueueImpl × Except Status AVBufferRef}
    (h : q.acquireBuffer = some r) : Wakes q r.1 := by
  unfold acquireBuffer popFromDirtyBufferList at h
  cases hl : q.dirtyBufferList with
  | nil =>
    rw [hl] at h
    cases h
    exact .refl q
  | cons front rest =>
    simp only [hl] at h
    split at h
    next heq => cases heq
    · cases h
    next u buffer hu =>
      cases h
      obtain ⟨rfl, -⟩ := Prod.mk.inj hu
      have hpop : Keeps q { q.touch front with dirtyBufferList := rest } :=
        (touch_keeps q front).trans ⟨rfl, rfl, rfl, Nat.le_refl _⟩
      refine (hpop.trans ((touch_keeps _ _).trans (setElement_keeps _ _ _))).wakes fun hnil => ?_
      rw [setElement_freeBufferList, touch_freeBufferList]
      exact (touch_freeBufferList q front).trans hnil

theorem clearElements_keeps (ids : List UInt64) :
    ∀ q : AVBufferQueueImpl, Keeps q (ids.foldl clearElement q) := by
  induction ids with
  | nil => exact Keeps.refl
  | cons k ids ih =>
    intro q
    have hone : Keeps q (q.clearElement k) := by
      unfold clearElement
      split
      · exact .refl q
      · split
        · exact (setElement_keeps q k _).trans (insertFreeBufferInOrder_keeps _ k)
        · exact .refl q
    exact hone.trans (ih _)

theorem clear_wakes (q : AVBufferQueueImpl) : Wakes q q.clear := by
  have hempty : Keeps q { q with dirtyBufferList := [] } := ⟨rfl, rfl, rfl, Nat.le_refl _⟩
  exact .of_notifyAll (hempty.trans (clearElements_keeps _ _))

theorem clearDirtyIf_keeps {pred : Option AVBufferRef → Bool} (l : List UInt64) :
    ∀ {q : AVBufferQueueImpl} {r}, clearDirtyIf pred q l = some r → Keeps q r.1 := by
  induction l with
  | nil =>
    intro q r h
    cases h
    exact .refl q
  | cons k rest ih =>
    intro q r h
    have hkeep : ∀ {r}, ((clearDirtyIf pred q rest).map fun r => (r.1, k :: r.2)) = some r →
        Keeps q r.1 := by
      intro r h
      obtain ⟨v, hv, rfl⟩ := Option.map_eq_some_iff.mp h
      have hrest : Keeps q v.1 := ih hv
      exact hrest
    simp only [clearDirtyIf] at h
    split at h
    · exact hkeep h
    · split at h
      · exact hkeep h
      · split at h
        · split at h
          · cases h
          · exact ((setElement_keeps q k _).trans (insertFreeBufferInOrder_keeps _ k)).trans (ih h)
        · exact hkeep h

theorem clearBufferIf_wakes {pred : Option AVBufferRef → Bool}
    (h : q.clearBufferIf pred = some q') : Wakes q q' := by
  obtain ⟨r, hr, rfl⟩ := Option.map_eq_some_iff.mp h
  exact .of_notifyAll ((clearDirtyIf_keeps _ hr).trans ⟨rfl, rfl, rfl, Nat.le_refl _⟩)

end AVBufferQueueImpl

open AVBufferQueueImpl

/-! ## The steps of the system -/

/-- The label's block takes a buffer out of the map outside a resize: it finds
the buffer marked where it would give it back, or detaches it. -/
def takesOut (s : System) (l : Label) : Bool :=
  match s.threads l.thread, l.action with
  | .idle, .call (.pushBuffer uniqueId _) | .idle, .call (.returnBuffer uniqueId _)
  | .pushFilled uniqueId, .resume _ | .returnBlock _ uniqueId _, .resume _ =>
    s.queue.cachedBufferMap[uniqueId]?.any (·.isDeleting)
  | .idle, .call (.releaseBuffer uniqueId) | .releaseAttached uniqueId, .resume _ =>
    s.queue.cachedBufferMap[uniqueId]?.any fun ele =>
      ele.isDeleting && (ele.state = .acquired ∨ ele.state = .attached)
  | .idle, .call (.detachBuffer uniqueId) =>
    s.queue.cachedBufferMap[uniqueId]?.any fun ele =>
      ele.state = .requested ∨ ele.state = .acquired
  | .detachBlock uniqueId _, .resume _ => s.queue.cachedBufferMap[uniqueId]?.isSome
  | _, _ => false

def freesLastSlot (s : System) (l : Label) : Bool :=
  !s.crashed && s.queue.LastSlot && takesOut s l

theorem afterRequest_queue (party : Nat) (config : AVBufferConfig) (timeoutUs : Int64)
    (r : AVBufferQueueImpl × Option (Except Status AVBufferRef)) :
    (afterRequest party config timeoutUs r).queue = r.1 := by
  unfold afterRequest
  split <;> rfl

theorem afterPush_queue (caller : Caller) (id : UInt64) (available : Bool)
    (r : AVBufferQueueImpl × PushOutcome) : (afterPush caller id available r).queue = r.1 := by
  unfold afterPush
  split
  · exact (finish_queue ..).1
  · exact (finish_queue ..).1
  · rfl

theorem afterReturn_queue (caller : Caller) (id : UInt64)
    (r : AVBufferQueueImpl × ReturnOutcome) : (afterReturn caller id r).queue = r.1 := by
  unfold afterReturn
  split
  · exact (finish_queue ..).1
  · exact (finish_queue ..).1
  · rfl
  · rfl

theorem afterRelease_queue (id : UInt64) (r : AVBufferQueueImpl × ReleaseOutcome) :
    (afterRelease id r).queue = r.1 := by
  unfold afterRelease
  split <;> rfl

theorem afterAcquire_queue (party : Nat) (r : AVBufferQueueImpl × Except Status AVBufferRef) :
    (afterAcquire party r).queue = r.1 := by
  unfold afterAcquire
  split <;> rfl

inductive Makes (q : AVBufferQueueImpl) (env : Env) : Thread → Action → AVBufferQueueImpl → Prop
  | request (config : AVBufferConfig) (timeoutUs : Int64) (seen : MemoryType) :
    Makes q env .idle (.call (.requestBufferWaitUs config timeoutUs seen))
      (q.requestBufferWaitUs env (configCopy config seen) timeoutUs).1
  | push {id : UInt64} {available : Bool} {r} (hr : q.pushBuffer env id available = some r) :
    Makes q env .idle (.call (.pushBuffer id available)) r.1
  | giveBack {id : UInt64} {available : Bool} {r}
      (hr : q.returnBuffer env id available = some r) :
    Makes q env .idle (.call (.returnBuffer id available)) r.1
  | attach (buffer : AVBufferRef) (config : AVBufferConfig) (isFilled : Bool) :
    Makes q env .idle (.call (.attachBuffer buffer config isFilled))
      (q.attachBuffer env buffer config).1
  | resizeAttach (size : Nat) (buffer : AVBufferRef) (config : AVBufferConfig) (isFilled : Bool) :
    Makes q env .idle (.call (.setQueueSizeAndAttachBuffer size buffer config isFilled))
      (q.setQueueSizeAndAttachBuffer env size buffer config).1
  | detach (id : UInt64) :
    Makes q env .idle (.call (.detachBuffer id)) (q.detachBuffer id false).1
  | acquire {r} (hr : q.acquireBuffer = some r) : Makes q env .idle (.call .acquireBuffer) r.1
  | release (id : UInt64) :
    Makes q env .idle (.call (.releaseBuffer id)) (q.releaseBuffer id).1
  | resize (size : Nat) : Makes q env .idle (.call (.setQueueSize size)) (q.setQueueSize size).1
  | enlarge (size : Nat) :
    Makes q env .idle (.call (.setLargerQueueSize size)) (q.setLargerQueueSize size).1
  | clear : Makes q env .idle (.call .clear) q.clear
  | clearIf {pred : Option AVBufferRef → Bool} {u} (hu : q.clearBufferIf pred = some u) :
    Makes q env .idle (.call (.clearBufferIf pred)) u
  | requestAgain (party : Nat) (config : AVBufferConfig) (timeoutUs : Int64) (awake timedOut) :
    Makes q env (.requesting party config timeoutUs awake) (.resume timedOut)
      (q.requestBufferResume env config timeoutUs timedOut).1
  | pushFilled {id : UInt64} {r} (hr : q.pushBuffer env id true = some r) (timedOut : Bool) :
    Makes q env (.pushFilled id) (.resume timedOut) r.1
  | releaseAttached (id : UInt64) (timedOut : Bool) :
    Makes q env (.releaseAttached id) (.resume timedOut) (q.releaseBuffer id).1
  | file {id : UInt64} {available : Bool} {r} (hr : q.returnBuffer env id available = some r)
      (caller : Caller) (timedOut : Bool) :
    Makes q env (.returnBlock caller id available) (.resume timedOut) r.1
  | detachMarked (id : UInt64) (status : Status) (timedOut : Bool) :
    Makes q env (.detachBlock id status) (.resume timedOut) (q.detachBuffer id true).1
  | broker (caller : Caller) (id : UInt64) (buffer : Option AVBufferRef) (timedOut : Bool) :
    Makes q env (.brokerBlock caller id buffer) (.resume timedOut) q
  | producer (timedOut : Bool) : Makes q env .producerBlock (.resume timedOut) q
  | consumer (caller : Caller) (id : UInt64) (timedOut : Bool) :
    Makes q env (.consumerBlock caller id) (.resume timedOut) q

theorem startCall_makes {q : AVBufferQueueImpl} {env : Env} {party : Nat} {c : Call} {o : Outcome}
    (ho : startCall q env party c = some o) : Makes q env .idle (.call c) o.queue := by
  cases c with
  | requestBufferWaitUs config timeoutUs seen =>
    cases ho
    rw [afterRequest_queue]
    exact .request config timeoutUs seen
  | pushBuffer id available =>
    obtain ⟨r, hr, rfl⟩ := Option.map_eq_some_iff.mp ho
    rw [afterPush_queue]
    exact .push hr
  | returnBuffer id available =>
    obtain ⟨r, hr, rfl⟩ := Option.map_eq_some_iff.mp ho
    rw [afterReturn_queue]
    exact .giveBack hr
  | attachBuffer buffer config isFilled =>
    cases ho
    exact .attach buffer config isFilled
  | setQueueSizeAndAttachBuffer size buffer config isFilled =>
    cases ho
    exact .resizeAttach size buffer config isFilled
  | detachBuffer id =>
    have hdetach : Makes q env .idle (.call (.detachBuffer id)) (q.detachBuffer id false).1 :=
      .detach id
    simp only [startCall] at ho
    split at ho <;> cases ho
    all_goals
      next heq =>
        rw [heq] at hdetach
        exact hdetach
  | acquireBuffer =>
    obtain ⟨r, hr, rfl⟩ := Option.map_eq_some_iff.mp ho
    rw [afterAcquire_queue]
    exact .acquire hr
  | releaseBuffer id =>
    cases ho
    rw [afterRelease_queue]
    exact .release id
  | setQueueSize size =>
    cases ho
    exact .resize size
  | setLargerQueueSize size =>
    cases ho
    exact .enlarge size
  | clear =>
    cases ho
    exact .clear
  | clearBufferIf pred =>
    obtain ⟨u, hu, rfl⟩ := Option.map_eq_some_iff.mp ho
    exact .clearIf hu

theorem resumeCall_makes {q : AVBufferQueueImpl} {ls : Listeners} {env : Env} {timedOut : Bool}
    {thread : Thread} {o : Outcome} (hbusy : thread ≠ .idle)
    (ho : resumeCall q ls env timedOut thread = some o) :
    Makes q env thread (.resume timedOut) o.queue := by
  cases thread with
  | idle => exact absurd rfl hbusy
  | requesting party config timeoutUs awake =>
    cases ho
    rw [afterRequest_queue]
    exact .requestAgain party config timeoutUs awake timedOut
  | pushFilled id =>
    obtain ⟨r, hr, rfl⟩ := Option.map_eq_some_iff.mp ho
    rw [afterPush_queue]
    exact .pushFilled hr timedOut
  | releaseAttached id =>
    cases ho
    rw [afterRelease_queue]
    exact .releaseAttached id timedOut
  | brokerBlock caller id buffer =>
    have hqueue : o.queue = q := by
      simp only [resumeCall] at ho
      split at ho <;> cases ho
      · exact (finish_queue ..).1
      · exact (finish_queue ..).1
      · rfl
    rw [hqueue]
    exact .broker caller id buffer timedOut
  | returnBlock caller id available =>
    obtain ⟨r, hr, rfl⟩ := Option.map_eq_some_iff.mp ho
    rw [afterReturn_queue]
    exact .file hr caller timedOut
  | producerBlock =>
    cases ho
    exact .producer timedOut
  | consumerBlock caller id =>
    have hqueue : o.queue = q := by
      simp only [resumeCall] at ho
      split at ho <;> obtain rfl := Option.some.inj ho <;> exact (finish_queue ..).1
    rw [hqueue]
    exact .consumer caller id timedOut
  | detachBlock id status =>
    cases ho
    exact .detachMarked id status timedOut

theorem block_makes {s : System} {l : Label} {o : Outcome} (h : block s l = some (some o)) :
    Makes s.queue l.env (s.threads l.thread) l.action o.queue := by
  rcases block_cases h with ⟨c, hidle, hc, ho⟩ | ⟨timedOut, hbusy, hresume, ho⟩
  · rw [hidle, hc]
    exact startCall_makes ho.symm
  · rw [hresume]
    exact resumeCall_makes hbusy ho.symm

/-- **Every block wakes the waiters when it has to, or takes a buffer out.** -/
theorem block_wakes {s : System} {l : Label} {o : Outcome} (h : block s l = some (some o)) :
    LeavesOrWakes s.queue o.queue (takesOut s l) := by
  have hmakes := block_makes h
  unfold takesOut
  generalize s.threads l.thread = thread, l.action = action, o.queue = q at hmakes ⊢
  cases hmakes with
  | request config timeoutUs seen => exact requestBufferWaitUs_wakes _ _ _ timeoutUs
  | push hr | pushFilled hr timedOut => exact pushBuffer_wakes hr
  | giveBack hr | file hr caller timedOut => exact returnBuffer_wakes hr
  | attach buffer config isFilled => exact (attachBuffer_wakes _ _ buffer config).1
  | resizeAttach size buffer config isFilled =>
    exact setQueueSizeAndAttachBuffer_wakes _ _ size buffer config
  | detach id => simpa only [Bool.false_or] using detachBuffer_wakes s.queue id false
  | acquire hr => exact acquireBuffer_wakes hr
  | release id | releaseAttached id timedOut => exact releaseBuffer_wakes _ id
  | resize size => exact setQueueSize_wakes _ size
  | enlarge size => exact setLargerQueueSizeLocked_wakes _ size
  | clear => exact clear_wakes _
  | clearIf hu => exact clearBufferIf_wakes hu
  | requestAgain party config timeoutUs awake timedOut =>
    exact requestBufferResume_wakes _ _ config timeoutUs timedOut
  | detachMarked id status timedOut =>
    simpa only [Bool.true_or, Option.any_true] using detachBuffer_wakes s.queue id true
  | broker caller id buffer timedOut | producer timedOut | consumer caller id timedOut =>
    exact Wakes.refl _

/-! ### Going to sleep -/

theorem finish_awake (q : AVBufferQueueImpl) (caller : Caller) (id : UInt64) (st : Status)
    (es : List Event) : (finish q caller id st es).next.asleep = false := by
  rcases finish_next q caller id st es with h | ⟨-, status, h⟩ <;> rw [h] <;> rfl

theorem afterPush_awake (caller : Caller) (id : UInt64) (available : Bool)
    (r : AVBufferQueueImpl × PushOutcome) :
    (afterPush caller id available r).next.asleep = false := by
  unfold afterPush
  split
  · exact finish_awake ..
  · exact finish_awake ..
  · simp only
    split <;> rfl

theorem afterReturn_awake (caller : Caller) (id : UInt64) (r : AVBufferQueueImpl × ReturnOutcome) :
    (afterReturn caller id r).next.asleep = false := by
  unfold afterReturn
  split
  · exact finish_awake ..
  · exact finish_awake ..
  · rfl
  · rfl

theorem afterRelease_awake (id : UInt64) (r : AVBufferQueueImpl × ReleaseOutcome) :
    (afterRelease id r).next.asleep = false := by
  unfold afterRelease
  split <;> rfl

theorem afterAttach_awake (q : AVBufferQueueImpl) (id : UInt64) (isFilled : Bool)
    (r : AVBufferQueueImpl × Status) : (afterAttach q id isFilled r).next.asleep = false := by
  unfold afterAttach
  simp only
  split
  · split <;> rfl
  · rfl

theorem block_sleeps {s : System} {l : Label} {o : Outcome} (h : block s l = some (some o))
    (hsleeps : o.next.asleep = true) : o.queue.waitPredicate = false := by
  have hcontra : o.next.asleep = false → o.queue.waitPredicate = false := fun hawake => by
    rw [hsleeps] at hawake
    cases hawake
  rcases block_cases h with ⟨c, -, -, ho⟩ | ⟨timedOut, -, -, ho⟩
  · cases c with
    | requestBufferWaitUs config timeoutUs seen =>
      cases ho
      revert hcontra
      unfold afterRequest
      split
      next q hq => exact fun _ => requestBufferWaitUs_sleeps hq
      · exact fun hcontra => hcontra rfl
      · exact fun hcontra => hcontra rfl
    | pushBuffer id available =>
      obtain ⟨r, -, rfl⟩ := Option.map_eq_some_iff.mp ho.symm
      exact hcontra (afterPush_awake ..)
    | returnBuffer id available =>
      obtain ⟨r, -, rfl⟩ := Option.map_eq_some_iff.mp ho.symm
      exact hcontra (afterReturn_awake ..)
    | attachBuffer buffer config isFilled =>
      cases ho
      exact hcontra (afterAttach_awake ..)
    | setQueueSizeAndAttachBuffer size buffer config isFilled =>
      cases ho
      exact hcontra (afterAttach_awake ..)
    | detachBuffer id =>
      simp only [startCall] at ho
      split at ho <;> obtain rfl := Option.some.inj ho <;> exact hcontra rfl
    | acquireBuffer =>
      obtain ⟨⟨q, r⟩, -, rfl⟩ := Option.map_eq_some_iff.mp ho.symm
      cases r <;> exact hcontra rfl
    | releaseBuffer id =>
      cases ho
      exact hcontra (afterRelease_awake ..)
    | setQueueSize size | setLargerQueueSize size | clear =>
      cases ho
      exact hcontra rfl
    | clearBufferIf pred =>
      obtain ⟨u, -, rfl⟩ := Option.map_eq_some_iff.mp ho.symm
      exact hcontra rfl
  · cases hthread : s.threads l.thread with
    | idle | producerBlock | detachBlock id status =>
      rw [hthread] at ho
      cases ho
      exact hcontra rfl
    | requesting party config timeoutUs awake =>
      rw [hthread] at ho
      cases ho
      revert hcontra
      unfold afterRequest
      split
      next q hq => exact fun _ => requestBufferResume_sleeps hq
      · exact fun hcontra => hcontra rfl
      · exact fun hcontra => hcontra rfl
    | pushFilled id =>
      rw [hthread] at ho
      obtain ⟨r, -, rfl⟩ := Option.map_eq_some_iff.mp ho.symm
      exact hcontra (afterPush_awake ..)
    | releaseAttached id =>
      rw [hthread] at ho
      cases ho
      exact hcontra (afterRelease_awake ..)
    | returnBlock caller id available =>
      rw [hthread] at ho
      obtain ⟨r, -, rfl⟩ := Option.map_eq_some_iff.mp ho.symm
      exact hcontra (afterReturn_awake ..)
    | brokerBlock caller id buffer =>
      simp only [hthread, resumeCall] at ho
      split at ho <;> cases ho
      · exact hcontra (finish_awake ..)
      · exact hcontra (finish_awake ..)
      · exact hcontra rfl
    | consumerBlock caller id =>
      simp only [hthread, resumeCall] at ho
      split at ho <;> obtain rfl := Option.some.inj ho <;> exact hcontra (finish_awake ..)

/-! ### Crashing -/

theorem pushBuffer_crash {q : AVBufferQueueImpl} {env : Env} {id : UInt64} {available : Bool}
    (h : q.pushBuffer env id available = none) :
    (q.cachedBufferMap[id]?.any (·.isDeleting)) = false := by
  unfold pushBuffer at h
  split at h
  · cases h
  next ele hele =>
    split at h
    · cases h
    next hdel => rw [hele, Option.any_some, Bool.eq_false_iff.mpr hdel]

theorem returnBuffer_crash {q : AVBufferQueueImpl} {env : Env} {id : UInt64} {available : Bool}
    (h : q.returnBuffer env id available = none) :
    (q.cachedBufferMap[id]?.any (·.isDeleting)) = false := by
  unfold returnBuffer at h
  split at h
  · cases h
  next ele hele =>
    split at h
    · cases h
    next hdel => rw [hele, Option.any_some, Bool.eq_false_iff.mpr hdel]

/-- `PushBuffer` and `ReturnBuffer` look at a buffer only after the mark. -/
theorem crash_takes_nothing {s : System} {l : Label} (h : block s l = some none) :
    takesOut s l = false := by
  unfold takesOut
  rcases block_cases h with ⟨c, hidle, hc, ho⟩ | ⟨timedOut, -, hresume, ho⟩
  · rw [hidle, hc]
    cases c with
    | pushBuffer id available => exact pushBuffer_crash (Option.map_eq_none_iff.mp ho.symm)
    | returnBuffer id available => exact returnBuffer_crash (Option.map_eq_none_iff.mp ho.symm)
    | releaseBuffer id => cases ho
    | detachBuffer id =>
      simp only [startCall] at ho
      split at ho <;> cases ho
    | _ => rfl
  · rw [hresume]
    cases hthread : s.threads l.thread with
    | pushFilled id =>
      rw [hthread] at ho
      exact pushBuffer_crash (Option.map_eq_none_iff.mp ho.symm)
    | returnBlock caller id available =>
      rw [hthread] at ho
      exact returnBuffer_crash (Option.map_eq_none_iff.mp ho.symm)
    | releaseAttached id | detachBlock id status =>
      rw [hthread] at ho
      cases ho
    | _ => rfl

/-! ## Wake-ups over runs -/

/-- **Which steps lose a wake-up**: a step that makes the predicate true where
requests may allocate notifies, unless it frees the last slot. -/
theorem step_wakes_iff {s t : System} {l : Label} (halloc : s.queue.disableAlloc = false)
    (hs : step s l = some t) :
    (s.queue.waitPredicate = false → t.queue.waitPredicate = true →
        s.queue.notified < t.queue.notified) ↔ freesLastSlot s l = false := by
  obtain ⟨hcrash, hs⟩ := step_cases hs
  have hslot : freesLastSlot s l = (s.queue.LastSlot && takesOut s l) := by
    simp only [freesLastSlot, hcrash, Bool.not_false, Bool.true_and]
  have hsame : t.queue = s.queue → takesOut s l = false →
      ((s.queue.waitPredicate = false → t.queue.waitPredicate = true →
        s.queue.notified < t.queue.notified) ↔ freesLastSlot s l = false) := by
    intro hq hnone
    rw [hslot, hnone, Bool.and_false, hq]
    refine iff_of_true (fun hfalse htrue => ?_) rfl
    rw [hfalse] at htrue
    cases htrue
  rcases hs with ⟨o, hb, rfl, -⟩ | ⟨hb, rfl, -⟩ | ⟨ls, hidle, hset, rfl, -⟩
  · have hw := block_wakes hb
    rw [hslot]
    show (s.queue.waitPredicate = false → o.queue.waitPredicate = true →
      s.queue.notified < o.queue.notified) ↔ _
    cases htakes : takesOut s l with
    | false =>
      rw [htakes] at hw
      exact iff_of_true (Wakes.wakes hw halloc) (Bool.and_false _)
    | true =>
      rw [htakes] at hw
      have hout : TakenOut s.queue o.queue := hw
      rw [Bool.and_true]
      constructor
      · intro hwakes
        by_contra hlast
        obtain ⟨hq, hq', hn⟩ := hout.lost (Bool.eq_true_of_not_eq_false hlast)
        exact absurd (hwakes hq hq') (by omega)
      · exact fun hlast => (hout.wakes hlast).wakes halloc
  · exact hsame rfl (crash_takes_nothing hb)
  · refine hsame rfl ?_
    unfold takesOut
    rw [hidle]
    cases l with
    | mk thread party env action =>
      cases action <;> first | rfl | cases hset

/-- Requests may allocate, and who could have a buffer is awake. -/
structure NobodyForgotten (s : System) : Prop where
  alloc : s.queue.disableAlloc = false
  awake : s.queue.waitPredicate = true → ∀ i, (s.threads i).asleep = false

theorem wake_awake (thread : Thread) : thread.wake.asleep = false := by
  cases thread <;> rfl

theorem step_alloc {s t : System} {l : Label} (hs : step s l = some t) :
    t.queue.disableAlloc = s.queue.disableAlloc := by
  obtain ⟨-, ⟨o, hb, rfl, -⟩ | ⟨-, rfl, -⟩ | ⟨ls, -, -, rfl, -⟩⟩ := step_cases hs
  · have hw := block_wakes hb
    cases htakes : takesOut s l with
    | false => rw [htakes] at hw; exact Wakes.alloc hw
    | true => rw [htakes] at hw; exact TakenOut.alloc hw
  · rfl
  · rfl

theorem nobodyForgotten_step {s t : System} {l : Label} (h : NobodyForgotten s)
    (hslot : freesLastSlot s l = false) (hs : step s l = some t) : NobodyForgotten t := by
  refine ⟨(step_alloc hs).trans h.alloc, fun hpred i => ?_⟩
  have hwakes := (step_wakes_iff h.alloc hs).mpr hslot
  obtain ⟨-, ⟨o, hb, rfl, -⟩ | ⟨-, rfl, -⟩ | ⟨ls, -, -, rfl, -⟩⟩ := step_cases hs
  · simp only [System.install]
    split
    · exact wake_awake _
    next hquiet =>
      -- nobody was told, so the predicate was true before the step
      have hbefore : s.queue.waitPredicate = true :=
        Bool.eq_true_of_not_eq_false fun hfalse => hquiet (hwakes hfalse hpred)
      rw [Function.update_apply]
      split
      · refine Bool.eq_false_iff.mpr fun hsleeps => ?_
        have hfalse := block_sleeps hb hsleeps
        rw [show o.queue.waitPredicate = true from hpred] at hfalse
        cases hfalse
      · exact h.awake hbefore i
  · exact h.awake hpred i
  · exact h.awake hpred i

/-- **No lost wake-up.** In a run whose steps free no last slot, every step
that makes the predicate true notifies, exactly the steps that free a last
slot would not, and no thread sleeps while the predicate is true. -/
theorem no_lost_wakeup {size : Nat} {type : MemoryType} {ls : List Label} {s : System}
    (hgood : Runs.Along step (fun s l => freesLastSlot s l = false) (.init size type false) ls)
    (hrun : Runs.run step (.init size type false) ls = some s) :
    (∀ l t, step s l = some t →
      ((s.queue.waitPredicate = false → t.queue.waitPredicate = true →
        s.queue.notified < t.queue.notified) ↔ freesLastSlot s l = false)) ∧
    (s.queue.waitPredicate = true → ∀ i, (s.threads i).asleep = false) := by
  have h : NobodyForgotten s := Runs.run_invariant (I := NobodyForgotten)
    (fun s l t h hslot hs => nobodyForgotten_step h hslot hs)
    ⟨rfl, fun _ _ => rfl⟩ hgood hrun
  exact ⟨fun l t hs => step_wakes_iff h.alloc hs, h.awake⟩

/-! ## The run that loses one -/

/-- Thread 1 waits for a buffer, the only one is in use. -/
def requestTwice : List Label :=
  [requestNew 7,
    { requestNew 8 with
      thread := 1, action := .call (.requestBufferWaitUs sampleConfig (-1) .sharedMemory) }]

theorem no_lost_wakeup_requestTwice :
    ∃ s, Runs.run step (.init 1 .unknownMemory false) requestTwice = some s ∧
      (∀ l t, step s l = some t →
        ((s.queue.waitPredicate = false → t.queue.waitPredicate = true →
          s.queue.notified < t.queue.notified) ↔ freesLastSlot s l = false)) ∧
      (s.queue.waitPredicate = true → ∀ i, (s.threads i).asleep = false) :=
  ⟨_, rfl, @no_lost_wakeup 1 .unknownMemory requestTwice _
    (.cons (by decide) rfl (.cons (by decide) rfl trivial)) rfl⟩

theorem detach_wakes_nobody :
    ∃ s t, Runs.run step (.init 1 .unknownMemory false) requestTwice = some s ∧
      step s (sampleLabel (.call (.detachBuffer 7))) = some t ∧
      s.queue.waitPredicate = false ∧ t.queue.waitPredicate = true ∧
      t.queue.notified = s.queue.notified ∧ (t.threads 1).asleep = true :=
  ⟨_, _, rfl, rfl, by decide, by decide, by decide, by decide⟩

end MediaFoundation.Queue
