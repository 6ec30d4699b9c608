import MediaFoundation.Lib.TreeMap
import MediaFoundation.Queue.Impl

/-!
# What each block of the queue does

The representation invariant `RepInv`, the effect of the shared helpers
(`touch`, the free-list scans, `DeleteBuffers`) in closed form, and for each
block one lemma that lists its outcomes. Later modules reason from these
lemmas and unfold no block again.

The effect on the map is always given as a lookup, `q'.cachedBufferMap[id]?`.
-/

namespace MediaFoundation.Queue

open Std (ExtTreeMap)

variable {ele : AVBufferElement}

def AVBufferState.listed (st : AVBufferState) : Prop := st = .released ∨ st = .returned

instance : DecidablePred AVBufferState.listed :=
  fun st => inferInstanceAs (Decidable (st = .released ∨ st = .returned))

def AVBufferElement.marked (ele : AVBufferElement) : AVBufferElement :=
  { ele with isDeleting := true }

def AVBufferElement.cleared (ele : AVBufferElement) : AVBufferElement :=
  if ele.state = .pushed ∨ ele.state = .returned then { ele with state := .released } else ele

namespace AVBufferQueueImpl

variable {q q' : AVBufferQueueImpl} {id : UInt64}

def stateOf (q : AVBufferQueueImpl) (id : UInt64) : Option AVBufferState :=
  q.cachedBufferMap[id]?.map (·.state)

/-- **The representation invariant.** The lists hold each id once and exactly
the ids in the matching state, every element holds the buffer it is filed
under, and no lookup ever inserted an element. -/
structure RepInv (q : AVBufferQueueImpl) : Prop where
  free_nodup : q.freeBufferList.Nodup
  free_iff : ∀ id, id ∈ q.freeBufferList ↔ q.stateOf id = some .released
  dirty_nodup : q.dirtyBufferList.Nodup
  dirty_iff : ∀ id, id ∈ q.dirtyBufferList ↔ q.stateOf id = some .returned
  keyed : ∀ (id : UInt64) (ele : AVBufferElement), q.cachedBufferMap[id]? = some ele →
    ∃ buffer : AVBufferRef, ele.buffer = some buffer ∧ buffer.uniqueId = id
  lookups : q.absentLookups = 0

/-! ## Lookups after the elementary changes -/

@[simp] theorem setElement_lookup (k : UInt64) :
    (q.setElement id ele).cachedBufferMap[k]? =
      if id = k then some ele else q.cachedBufferMap[k]? := by
  simp [setElement, ExtTreeMap.getElem?_insert]

@[simp] theorem setElement_freeBufferList :
    (q.setElement id ele).freeBufferList = q.freeBufferList := rfl

theorem setElement_erase :
    (q.setElement id ele).cachedBufferMap.erase id = q.cachedBufferMap.erase id := by
  refine ExtTreeMap.ext_getElem? fun k => ?_
  simp only [ExtTreeMap.getElem?_erase, setElement_lookup, Std.compare_eq_iff_eq]
  split <;> rfl

theorem stateOf_eq_some {st : AVBufferState} :
    q.stateOf id = some st ↔ ∃ ele, q.cachedBufferMap[id]? = some ele ∧ ele.state = st := by
  simp [stateOf]

theorem element_of_lookup (h : q.cachedBufferMap[id]? = some ele) :
    q.element id = ele := by
  simp [element, h]

theorem mem_of_lookup (h : q.cachedBufferMap[id]? = some ele) :
    id ∈ q.cachedBufferMap := by
  simp [ExtTreeMap.mem_iff_isSome_getElem?, h]

theorem exists_lookup (h : id ∈ q.cachedBufferMap) :
    ∃ ele, q.cachedBufferMap[id]? = some ele := by
  rw [ExtTreeMap.mem_iff_isSome_getElem?] at h
  exact Option.isSome_iff_exists.mp h

theorem touch_of_mem (h : id ∈ q.cachedBufferMap) : q.touch id = q := by
  rw [touch, if_pos h]

theorem totalMemoryCalculation_eq (isAdd : Bool) (capacity : Int32) :
    ∃ m, q.totalMemoryCalculation isAdd capacity = { q with memoryUsage := m } := by
  unfold totalMemoryCalculation
  split
  · exact ⟨_, rfl⟩
  · split
    · exact ⟨_, rfl⟩
    · split <;> exact ⟨_, rfl⟩

@[simp] theorem addElement_lookup (k : UInt64) :
    (q.addElement id ele).cachedBufferMap[k]? =
      if id = k then some ele else q.cachedBufferMap[k]? := by
  obtain ⟨m, hm⟩ := totalMemoryCalculation_eq (q := q.setElement id ele) true ele.config.capacity
  rw [addElement, hm]
  exact setElement_lookup k

theorem addElement_eq (q : AVBufferQueueImpl) (id : UInt64) (ele : AVBufferElement) :
    ∃ m, q.addElement id ele = { q.setElement id ele with memoryUsage := m } :=
  totalMemoryCalculation_eq _ _

theorem deleteCachedBufferById_eq (q : AVBufferQueueImpl) (id : UInt64) :
    ∃ m, q.deleteCachedBufferById id =
      { q with cachedBufferMap := q.cachedBufferMap.erase id, memoryUsage := m } := by
  unfold deleteCachedBufferById
  split
  next hnone =>
    have hid : id ∉ q.cachedBufferMap := by
      simp [ExtTreeMap.mem_iff_isSome_getElem?, hnone]
    exact ⟨q.memoryUsage, by rw [TreeMap.erase_of_not_mem hid]⟩
  next ele hele =>
    obtain ⟨m, hm⟩ := totalMemoryCalculation_eq (q := q) false ele.config.capacity
    exact ⟨m, by rw [hm]; rfl⟩

@[simp] theorem deleteCachedBufferById_lookup (k : UInt64) :
    (q.deleteCachedBufferById id).cachedBufferMap[k]? =
      if id = k then none else q.cachedBufferMap[k]? := by
  obtain ⟨m, hm⟩ := deleteCachedBufferById_eq q id
  rw [hm]
  simp [ExtTreeMap.getElem?_erase]

/-! ## The free list -/

theorem insertInOrder_eq (hid : id ∈ q.cachedBufferMap) :
    ∀ {l : List UInt64}, (∀ k ∈ l, k ∈ q.cachedBufferMap) →
      ∃ l₁ l₂, l = l₁ ++ l₂ ∧ q.insertInOrder id l = (q, l₁ ++ id :: l₂) := by
  intro l
  induction l with
  | nil => intro _; exact ⟨[], [], rfl, rfl⟩
  | cons it rest ih =>
    intro hl
    have hit : (if it ≠ id then (q.touch it).touch id else q) = q := by
      rw [touch_of_mem (hl it (by simp)), touch_of_mem hid, ite_self]
    simp only [insertInOrder, hit]
    split
    · exact ⟨[], it :: rest, rfl, rfl⟩
    · obtain ⟨l₁, l₂, hl₁, h⟩ := ih fun k hk => hl k (by simp [hk])
      exact ⟨it :: l₁, l₂, by rw [hl₁, List.cons_append], by rw [h]; rfl⟩

theorem insertFreeBufferInOrder_eq (hid : id ∈ q.cachedBufferMap)
    (hfree : ∀ k ∈ q.freeBufferList, k ∈ q.cachedBufferMap) :
    ∃ l₁ l₂, q.freeBufferList = l₁ ++ l₂ ∧
      q.insertFreeBufferInOrder id = { q with freeBufferList := l₁ ++ id :: l₂ } := by
  obtain ⟨l₁, l₂, hl, h⟩ := insertInOrder_eq hid hfree
  exact ⟨l₁, l₂, hl, by simp only [insertFreeBufferInOrder, h]⟩

theorem findFree_eq {config : AVBufferConfig} :
    ∀ {l : List UInt64}, (∀ k ∈ l, k ∈ q.cachedBufferMap) →
      q.findFree config l = (q, l.find? fun k => config.le (q.element k).config) := by
  intro l
  induction l with
  | nil => intro _; rfl
  | cons it rest ih =>
    intro hl
    have hit : q.touch it = q := touch_of_mem (hl it (by simp))
    simp only [findFree, hit, List.find?_cons]
    by_cases hle : config.le (q.element it).config = true
    · rw [if_pos hle, hle]
    · rw [if_neg hle, Bool.eq_false_iff.mpr hle]
      exact ih fun k hk => hl k (by simp [hk])

/-! ## Deleting buffers -/

def deleteIds (q : AVBufferQueueImpl) (ids : List UInt64) : AVBufferQueueImpl :=
  ids.foldl deleteCachedBufferById q

theorem deleteIds_eq (q : AVBufferQueueImpl) (ids : List UInt64) :
    ∃ m, q.deleteIds ids =
      { q with cachedBufferMap := ids.foldl .erase q.cachedBufferMap, memoryUsage := m } := by
  induction ids generalizing q with
  | nil => exact ⟨q.memoryUsage, rfl⟩
  | cons k ids ih =>
    obtain ⟨m, hm⟩ := deleteCachedBufferById_eq q k
    obtain ⟨m', hm'⟩ := ih (q.deleteCachedBufferById k)
    refine ⟨m', ?_⟩
    rw [deleteIds, List.foldl_cons, ← deleteIds, hm', hm, List.foldl_cons]

theorem deleteListed_eq (l : List UInt64) {count : Nat} (hcount : 0 < count) :
    q.deleteListed l count = (q.deleteIds (l.take count), l.drop count, count - l.length) := by
  induction l generalizing q count with
  | nil => simp [deleteListed, deleteIds]
  | cons front rest ih =>
    obtain ⟨n, rfl⟩ : ∃ n, count = n + 1 := ⟨count - 1, by omega⟩
    simp only [deleteListed, Nat.add_sub_cancel, List.take_succ_cons, List.drop_succ_cons,
      List.length_cons]
    split
    next hn =>
      subst hn
      simp [deleteIds]
    next hn =>
      rw [ih (by omega)]
      simp [deleteIds]

theorem markElements_lookup (m : ExtTreeMap UInt64 AVBufferElement) (ids : List UInt64)
    (k : UInt64) :
    (ids.foldl markElement m)[k]? =
      if k ∈ ids then m[k]?.map AVBufferElement.marked else m[k]? :=
  TreeMap.getElem?_foldl_modify m (f := AVBufferElement.marked) (fun _ => rfl) ids k

theorem markElements_size (m : ExtTreeMap UInt64 AVBufferElement) (ids : List UInt64) :
    (ids.foldl markElement m).size = m.size :=
  TreeMap.size_foldl_modify m AVBufferElement.marked ids

/-- The ids that `DeleteBuffers` deletes: first of the free list, then of the dirty list. -/
def deletedIds (q : AVBufferQueueImpl) (count : Nat) : List UInt64 :=
  q.freeBufferList.take count ++ q.dirtyBufferList.take (count - q.freeBufferList.length)

def mapAfterDelete (q : AVBufferQueueImpl) (count : Nat) : ExtTreeMap UInt64 AVBufferElement :=
  (q.deletedIds count).foldl .erase q.cachedBufferMap

/-- How many elements are left for `DeleteBuffers` to mark. -/
def markCount (q : AVBufferQueueImpl) (count : Nat) : Nat :=
  count - q.freeBufferList.length - q.dirtyBufferList.length

def markedIds (q : AVBufferQueueImpl) (count : Nat) : List UInt64 :=
  (q.mapAfterDelete count).keys.take (q.markCount count)

/-- **`DeleteBuffers` in closed form.** -/
theorem deleteBuffers_eq (q : AVBufferQueueImpl) (count : Nat) :
    ∃ m, q.deleteBuffers count =
      { q with
        cachedBufferMap := (q.markedIds count).foldl markElement (q.mapAfterDelete count)
        freeBufferList := q.freeBufferList.drop count
        dirtyBufferList := q.dirtyBufferList.drop (count - q.freeBufferList.length)
        memoryUsage := m } := by
  by_cases hc : count = 0
  · subst hc
    exact ⟨q.memoryUsage,
      by simp [deleteBuffers, markedIds, mapAfterDelete, deletedIds, markCount]⟩
  obtain ⟨m₁, h₁⟩ := deleteIds_eq q (q.freeBufferList.take count)
  rw [deleteBuffers, if_neg hc]
  simp only [deleteListed_eq q.freeBufferList (Nat.pos_of_ne_zero hc), h₁]
  split
  next hn =>
    refine ⟨m₁, ?_⟩
    have hmark : q.markCount count = 0 := by rw [markCount, hn, Nat.zero_sub]
    simp [markedIds, mapAfterDelete, deletedIds, hmark, hn]
  next hn =>
    rw [deleteListed_eq q.dirtyBufferList (Nat.pos_of_ne_zero hn)]
    obtain ⟨m₂, h₂⟩ := deleteIds_eq
      { q with
        cachedBufferMap := (q.freeBufferList.take count).foldl .erase q.cachedBufferMap
        freeBufferList := q.freeBufferList.drop count
        memoryUsage := m₁ } (q.dirtyBufferList.take (count - q.freeBufferList.length))
    simp only [h₂]
    refine ⟨m₂, ?_⟩
    split
    next hd =>
      simp [markedIds, mapAfterDelete, deletedIds, markCount, hd]
    next hd =>
      simp [markDeleting, markedIds, mapAfterDelete, deletedIds, markCount]

end AVBufferQueueImpl

end MediaFoundation.Queue
