import MediaFoundation.Buffer.AVBufferCreate
import MediaFoundation.Queue.WakeUp

/-!
# The buffer that a request is given

`PopFromFreeBufferList` takes the first buffer of the free list that passes
`operator<=`. The list is sorted by recorded capacity, so that buffer is the
smallest that passes. The test allows for `capacity + align - 1` bytes, where
the memory has the capacity rounded up to a multiple of `align`.
-/

namespace MediaFoundation.Queue

open Std (ExtTreeMap)

structure AVBufferElement.SameRecord (ele ele' : AVBufferElement) : Prop where
  buffer : ele'.buffer = ele.buffer
  memoryType : ele'.config.memoryType = ele.config.memoryType
  capacity : ele'.config.capacity = ele.config.capacity
  align : ele'.config.align = ele.config.align

theorem AVBufferElement.SameRecord.refl (ele : AVBufferElement) : ele.SameRecord ele :=
  ⟨rfl, rfl, rfl, rfl⟩

theorem AVBufferElement.SameRecord.trans {a b c : AVBufferElement} (h : a.SameRecord b)
    (h' : b.SameRecord c) : a.SameRecord c :=
  ⟨h'.buffer.trans h.buffer, h'.memoryType.trans h.memoryType, h'.capacity.trans h.capacity,
    h'.align.trans h.align⟩

def Env.presented (env : Env) (buffer : AVBufferRef) : AVBufferElement where
  config := (env.contents buffer).config
  buffer := some buffer

namespace AVBufferQueueImpl

variable {q q' u : AVBufferQueueImpl} {id : UInt64} {env : Env}

/-! ## What a block keeps -/

def recordedCapacity (q : AVBufferQueueImpl) (id : UInt64) : Int32 := (q.element id).config.capacity

def FreeSorted (q : AVBufferQueueImpl) : Prop :=
  q.freeBufferList.Pairwise fun a b => q.recordedCapacity a ≤ q.recordedCapacity b

structure FreeReleased (q : AVBufferQueueImpl) : Prop where
  nodup : q.freeBufferList.Nodup
  released : ∀ id ∈ q.freeBufferList, q.stateOf id = some .released

theorem RepInv.freeReleased (h : RepInv q) : FreeReleased q :=
  ⟨h.free_nodup, fun id => (h.free_iff id).mp⟩

theorem FreeReleased.mem (h : FreeReleased q) : ∀ id ∈ q.freeBufferList, id ∈ q.cachedBufferMap :=
  fun id hid => by
    obtain ⟨ele, hele, -⟩ := stateOf_eq_some.mp (h.released id hid)
    exact mem_of_lookup hele

theorem FreeReleased.not_mem (h : FreeReleased q) {ele : AVBufferElement}
    (hele : q.cachedBufferMap[id]? = some ele) (hst : ele.state ≠ .released) :
    id ∉ q.freeBufferList := by
  intro hid
  obtain ⟨e, he, hrel⟩ := stateOf_eq_some.mp (h.released id hid)
  obtain rfl := Option.some.inj (hele.symm.trans he)
  exact hst hrel

/-- Each element comes from the queue before, or was filed under the record that
its buffer presents. -/
def Files (env : Env) (q q' : AVBufferQueueImpl) : Prop :=
  ∀ (id : UInt64) (ele' : AVBufferElement), q'.cachedBufferMap[id]? = some ele' →
    (∃ ele, q.cachedBufferMap[id]? = some ele ∧ ele.SameRecord ele') ∨
    ∃ buffer, (env.presented buffer).SameRecord ele'

/-- **A block keeps the order of the free list, and files what it sees.** -/
structure Tidy (env : Env) (q q' : AVBufferQueueImpl) : Prop where
  files : Files env q q'
  sorted : FreeSorted q → FreeSorted q'

theorem Tidy.trans (h : Tidy env q u) (h' : Tidy env u q') : Tidy env q q' := by
  refine ⟨fun id ele' hele' => ?_, fun hs => h'.sorted (h.sorted hs)⟩
  rcases h'.files id ele' hele' with ⟨ele, hele, hsame⟩ | hnew
  · rcases h.files id ele hele with ⟨e, he, hsame'⟩ | ⟨buffer, hnew⟩
    · exact .inl ⟨e, he, hsame'.trans hsame⟩
    · exact .inr ⟨buffer, hnew.trans hsame⟩
  · exact .inr hnew

theorem FreeSorted.of_sublist (h : FreeSorted q)
    (hsub : q'.freeBufferList.Sublist q.freeBufferList)
    (hcap : ∀ k ∈ q'.freeBufferList, q'.recordedCapacity k = q.recordedCapacity k) :
    FreeSorted q' := by
  refine (List.Pairwise.sublist hsub h).imp_of_mem fun ha hb hle => ?_
  rw [hcap _ ha, hcap _ hb]
  exact hle

theorem recordedCapacity_congr {k : UInt64}
    (h : q'.cachedBufferMap[k]? = q.cachedBufferMap[k]?) :
    q'.recordedCapacity k = q.recordedCapacity k := by
  rw [recordedCapacity, element, h]
  rfl

theorem Tidy.of_same (hmap : q'.cachedBufferMap = q.cachedBufferMap)
    (hsub : q'.freeBufferList.Sublist q.freeBufferList) : Tidy env q q' := by
  refine ⟨fun id ele' hele' => .inl ⟨ele', hmap ▸ hele', .refl ele'⟩, fun h => ?_⟩
  exact h.of_sublist hsub fun k _ => recordedCapacity_congr (by rw [hmap])

theorem Tidy.refl (env : Env) (q : AVBufferQueueImpl) : Tidy env q q :=
  .of_same rfl (List.Sublist.refl _)

theorem setElement_tidy {ele ele' : AVBufferElement} (hele : q.cachedBufferMap[id]? = some ele)
    (hsame : ele.SameRecord ele') : Tidy env q (q.setElement id ele') := by
  constructor
  · intro k e he
    rw [setElement_lookup] at he
    split at he
    next heq =>
      cases he
      exact .inl ⟨ele, heq ▸ hele, hsame⟩
    next => exact .inl ⟨e, he, .refl e⟩
  · intro h
    refine h.of_sublist (List.Sublist.refl _) fun k _ => ?_
    by_cases heq : id = k
    · subst heq
      rw [recordedCapacity, recordedCapacity, element_of_lookup hele,
        element_of_lookup (by rw [setElement_lookup, if_pos rfl])]
      exact hsame.capacity
    · exact recordedCapacity_congr (by rw [setElement_lookup, if_neg heq])

theorem fileElement_tidy {ele' : AVBufferElement} {dirty : List UInt64}
    (hid : id ∉ q.freeBufferList) (hnew : ∃ buffer, (env.presented buffer).SameRecord ele') :
    Tidy env q { q.setElement id ele' with dirtyBufferList := dirty } := by
  constructor
  · intro k e he
    have he : (q.setElement id ele').cachedBufferMap[k]? = some e := he
    rw [setElement_lookup] at he
    split at he
    next heq =>
      cases he
      exact .inr hnew
    next => exact .inl ⟨e, he, .refl e⟩
  · intro h
    refine h.of_sublist (List.Sublist.refl _) fun k hk => recordedCapacity_congr ?_
    have hne : id ≠ k := fun heq => hid (heq ▸ hk)
    show (q.setElement id ele').cachedBufferMap[k]? = _
    rw [setElement_lookup, if_neg hne]

theorem addElement_tidy {ele' : AVBufferElement} (hid : id ∉ q.freeBufferList)
    (hnew : ∃ buffer, (env.presented buffer).SameRecord ele') :
    Tidy env q (q.addElement id ele') := by
  obtain ⟨m, hm⟩ := addElement_eq q id ele'
  rw [hm]
  have hset : Tidy env q { q.setElement id ele' with dirtyBufferList := q.dirtyBufferList } :=
    fileElement_tidy hid hnew
  exact hset.trans (.of_same rfl (List.Sublist.refl _))

theorem erase_tidy {map : ExtTreeMap UInt64 AVBufferElement} (ids : List UInt64)
    (hmap : q'.cachedBufferMap = map)
    (hlookup : ∀ k : UInt64, map[k]? = if k ∈ ids then none else q.cachedBufferMap[k]?)
    (hsub : q'.freeBufferList.Sublist q.freeBufferList)
    (hids : ∀ k ∈ q'.freeBufferList, k ∉ ids) : Tidy env q q' := by
  constructor
  · intro k e he
    rw [hmap, hlookup] at he
    split at he
    · cases he
    · exact .inl ⟨e, he, .refl e⟩
  · intro h
    refine h.of_sublist hsub fun k hk => recordedCapacity_congr ?_
    rw [hmap, hlookup, if_neg (hids k hk)]

theorem deleteCachedBufferById_tidy (hid : id ∉ q.freeBufferList) :
    Tidy env q (q.deleteCachedBufferById id) := by
  obtain ⟨m, hm⟩ := deleteCachedBufferById_eq q id
  refine erase_tidy [id] rfl (fun k => ?_) ?_ ?_
  · rw [deleteCachedBufferById_lookup]
    by_cases heq : id = k
    · rw [if_pos heq, if_pos (List.mem_singleton.mpr heq.symm)]
    · rw [if_neg heq, if_neg fun hk => heq (List.mem_singleton.mp hk).symm]
  · rw [hm]
  · rw [hm]
    exact fun k hk hk' => hid (List.mem_singleton.mp hk' ▸ hk)

/-! ## Requests -/

def chosen (q : AVBufferQueueImpl) (config : AVBufferConfig) : Option UInt64 :=
  (q.freeBufferList.find? fun k => config.le (q.element k).config).or q.freeBufferList.head?

theorem popFromFreeBufferList_eq (h : RepInv q) (config : AVBufferConfig) :
    q.popFromFreeBufferList config = match q.chosen config with
      | none => (q, none)
      | some k => ({ q with freeBufferList := q.freeBufferList.erase k },
          some (q.element k).buffer) := by
  simp only [popFromFreeBufferList, findFree_eq h.free_mem, chosen]
  cases hfind : q.freeBufferList.find? fun k => config.le (q.element k).config with
  | some it => rfl
  | none =>
    simp only
    split
    next hl =>
      rw [hl]
      rfl
    next front rest hl =>
      have hmem : front ∈ q.cachedBufferMap := h.free_mem front (hl ▸ List.mem_cons_self ..)
      rw [touch_of_mem hmem, hl]
      simp only [Option.none_or, List.head?_cons, List.erase_cons_head]

theorem chosen_mem {config : AVBufferConfig} {k : UInt64} (h : q.chosen config = some k) :
    k ∈ q.freeBufferList := by
  rcases Option.or_eq_some_iff.mp h with hfind | ⟨-, hhead⟩
  · exact List.mem_of_find?_eq_some hfind
  · exact List.mem_of_mem_head? hhead

theorem allocBuffer_tidy (hfree : ∀ k ∈ q.freeBufferList, k ∈ q.cachedBufferMap)
    (hfresh : Fresh q env) : Tidy env q (q.allocBuffer env).1 := by
  unfold allocBuffer
  split
  · exact .refl env q
  next buffer hbuffer =>
    refine addElement_tidy (fun hid => hfresh buffer hbuffer (hfree _ hid)) ?_
    exact ⟨buffer, rfl, rfl, rfl, rfl⟩

theorem requestReuseBuffer_eq (h : RepInv q) (env : Env) (config : AVBufferConfig) {k : UInt64}
    (hk : k ∈ q.freeBufferList) :
    ∃ ele buffer, q.cachedBufferMap[k]? = some ele ∧ ele.buffer = some buffer ∧
      buffer.uniqueId = k ∧
      { q with freeBufferList := q.freeBufferList.erase k }.requestReuseBuffer env
          (q.element k).buffer config =
        if config.le (q.element k).config then
          ({ q with freeBufferList := q.freeBufferList.erase k }.setElement k
            { ele with config := { ele.config with size := config.size }, state := .requested },
            .ok buffer)
        else
          ({ q with freeBufferList := q.freeBufferList.erase k }.deleteCachedBufferById
            k).allocBuffer env := by
  obtain ⟨ele, buffer, hele, -, hbuf, rfl⟩ := h.lookup_of_free hk
  refine ⟨ele, buffer, hele, hbuf, rfl, ?_⟩
  rw [element_of_lookup hele, hbuf]
  simp only [requestReuseBuffer, hele, hbuf]

theorem not_mem_erase (h : q.freeBufferList.Nodup) (k : UInt64) :
    k ∉ q.freeBufferList.erase k := fun hk => (h.mem_erase_iff.mp hk).1 rfl

/-- The queue without the chosen buffer. -/
theorem reallocate_tidy (h : RepInv q) (hfresh : Fresh q env) (k : UInt64) :
    Tidy env q (({ q with freeBufferList := q.freeBufferList.erase k }.deleteCachedBufferById
      k).allocBuffer env).1 := by
  have htaken : Tidy env q { q with freeBufferList := q.freeBufferList.erase k } :=
    .of_same rfl List.erase_sublist
  have hdelete : Tidy env { q with freeBufferList := q.freeBufferList.erase k }
      ({ q with freeBufferList := q.freeBufferList.erase k }.deleteCachedBufferById k) :=
    deleteCachedBufferById_tidy (not_mem_erase h.free_nodup k)
  refine (htaken.trans hdelete).trans (allocBuffer_tidy (fun j hj => ?_) fun b hb hmem => ?_)
  · obtain ⟨m, hm⟩ := deleteCachedBufferById_eq
      { q with freeBufferList := q.freeBufferList.erase k } k
    rw [hm] at hj
    have hne : k ≠ j := by
      rintro rfl
      exact not_mem_erase h.free_nodup k hj
    obtain ⟨ele, hele⟩ := exists_lookup (h.free_mem j (List.mem_of_mem_erase hj))
    rw [ExtTreeMap.mem_iff_isSome_getElem?, deleteCachedBufferById_lookup, if_neg hne]
    exact Option.isSome_iff_exists.mpr ⟨ele, hele⟩
  · obtain ⟨ele, hele⟩ := exists_lookup hmem
    rw [deleteCachedBufferById_lookup] at hele
    split at hele
    · cases hele
    · exact hfresh b hb (mem_of_lookup hele)

theorem requestReuse_tidy (h : RepInv q) (hfresh : Fresh q env) {config : AVBufferConfig}
    {k : UInt64} (hk : k ∈ q.freeBufferList) :
    Tidy env q ({ q with freeBufferList := q.freeBufferList.erase k }.requestReuseBuffer env
      (q.element k).buffer config).1 := by
  obtain ⟨ele, buffer, hele, -, -, hreuse⟩ := requestReuseBuffer_eq h env config hk
  rw [hreuse]
  split
  · have htaken : Tidy env q { q with freeBufferList := q.freeBufferList.erase k } :=
      .of_same rfl List.erase_sublist
    exact htaken.trans (setElement_tidy hele ⟨rfl, rfl, rfl, rfl⟩)
  · exact reallocate_tidy h hfresh k

theorem requestAfterWait_tidy (h : RepInv q) (hfresh : Fresh q env) (config : AVBufferConfig) :
    Tidy env q (q.requestAfterWait env config).1 := by
  simp only [requestAfterWait, popFromFreeBufferList_eq h]
  cases hchosen : q.chosen config with
  | some k => exact requestReuse_tidy h hfresh (chosen_mem hchosen)
  | none =>
    simp only
    split
    · exact .refl env q
    · exact allocBuffer_tidy h.free_mem hfresh

theorem requestBufferWaitUs_tidy (h : RepInv q) (hfresh : Fresh q env) (config : AVBufferConfig)
    (timeoutUs : Int64) : Tidy env q (q.requestBufferWaitUs env config timeoutUs).1 := by
  unfold requestBufferWaitUs
  cases hcheck : q.checkConfig config with
  | none => exact .refl env q
  | some v =>
    obtain rfl := checkConfig_eq hcheck
    have hv : RepInv { q with memoryType := config.memoryType } := h.of_memoryType
    have hfreshv : Fresh { q with memoryType := config.memoryType } env := hfresh
    have hcheck : Tidy env q { q with memoryType := config.memoryType } :=
      .of_same rfl (List.Sublist.refl _)
    refine hcheck.trans ?_
    generalize { q with memoryType := config.memoryType } = v at hv hfreshv
    simp only [popFromFreeBufferList_eq hv]
    cases hchosen : v.chosen config with
    | some k => exact requestReuse_tidy hv hfreshv (chosen_mem hchosen)
    | none =>
      simp only
      split
      · split
        · exact requestAfterWait_tidy hv hfreshv config
        · exact .refl env v
      · exact allocBuffer_tidy hv.free_mem hfreshv

theorem requestBufferResume_tidy (h : RepInv q) (hfresh : Fresh q env) (config : AVBufferConfig)
    (timeoutUs : Int64) (timedOut : Bool) :
    Tidy env q (q.requestBufferResume env config timeoutUs timedOut).1 := by
  unfold requestBufferResume
  split
  · split
    · exact .refl env q
    · exact .refl env q
  · exact requestAfterWait_tidy h hfresh config

/-! ## Insertion -/

def byCapacity (q : AVBufferQueueImpl) (a b : UInt64) : Prop :=
  q.recordedCapacity a ≤ q.recordedCapacity b

instance (q : AVBufferQueueImpl) : DecidableRel q.byCapacity :=
  fun a b => inferInstanceAs (Decidable (q.recordedCapacity a ≤ q.recordedCapacity b))

theorem insertInOrder_orderedInsert (hid : id ∈ q.cachedBufferMap) {l : List UInt64}
    (hl : ∀ k ∈ l, k ∈ q.cachedBufferMap) (hnot : id ∉ l) :
    q.insertInOrder id l = (q, l.orderedInsert q.byCapacity id) := by
  induction l with
  | nil => rfl
  | cons it rest ih =>
    have hne : it ≠ id := fun heq => hnot (heq ▸ List.mem_cons_self ..)
    have htouch : (q.touch it).touch id = q := by
      rw [touch_of_mem (hl it (List.mem_cons_self ..)), touch_of_mem hid]
    simp only [insertInOrder, htouch, hne, ne_eq, not_false_eq_true, true_and, if_true]
    rw [List.orderedInsert_cons]
    by_cases hle : (q.element id).config.capacity ≤ (q.element it).config.capacity
    · rw [if_pos hle, if_pos (show q.byCapacity id it from hle)]
    · rw [if_neg hle, if_neg (show ¬ q.byCapacity id it from hle),
        ih (fun k hk => hl k (List.mem_cons_of_mem _ hk)) fun hk =>
          hnot (List.mem_cons_of_mem _ hk)]

theorem insertFreeBufferInOrder_orderedInsert (h : FreeReleased q) (hid : id ∈ q.cachedBufferMap)
    (hnot : id ∉ q.freeBufferList) : q.insertFreeBufferInOrder id =
      { q with freeBufferList := q.freeBufferList.orderedInsert q.byCapacity id } := by
  rw [insertFreeBufferInOrder, insertInOrder_orderedInsert hid h.mem hnot]

theorem insertFree_tidy (h : FreeReleased q) (hid : id ∈ q.cachedBufferMap)
    (hnot : id ∉ q.freeBufferList) : Tidy env q (q.insertFreeBufferInOrder id) := by
  rw [insertFreeBufferInOrder_orderedInsert h hid hnot]
  exact ⟨fun k e he => .inl ⟨e, he, .refl e⟩, fun hsorted =>
    List.Pairwise.orderedInsert id _ hsorted⟩

theorem releaseInto_tidy (h : FreeReleased q) {ele : AVBufferElement}
    (hele : q.cachedBufferMap[id]? = some ele) (hst : ele.state ≠ .released) :
    Tidy env q ((q.setElement id { ele with state := .released }).insertFreeBufferInOrder id) ∧
      FreeReleased ((q.setElement id { ele with state := .released }).insertFreeBufferInOrder
        id) := by
  have hnot : id ∉ q.freeBufferList := h.not_mem hele hst
  have hset : FreeReleased (q.setElement id { ele with state := .released }) := by
    refine ⟨h.nodup, fun k hk => ?_⟩
    have hne : id ≠ k := fun heq => hnot (heq ▸ hk)
    rw [stateOf, setElement_lookup, if_neg hne]
    exact h.released k hk
  have hlookup : (q.setElement id { ele with state := .released }).cachedBufferMap[id]? =
      some { ele with state := .released } := by rw [setElement_lookup, if_pos rfl]
  constructor
  · have hfirst : Tidy env q (q.setElement id { ele with state := .released }) :=
      setElement_tidy hele ⟨rfl, rfl, rfl, rfl⟩
    exact hfirst.trans (insertFree_tidy hset (mem_of_lookup hlookup) hnot)
  · rw [insertFreeBufferInOrder_orderedInsert hset (mem_of_lookup hlookup) hnot]
    constructor
    · exact (List.perm_orderedInsert ..).nodup_iff.mpr (List.nodup_cons.mpr ⟨hnot, h.nodup⟩)
    · intro k hk
      rcases (List.mem_orderedInsert ..).mp hk with rfl | hk
      · exact stateOf_eq_some.mpr ⟨_, hlookup, rfl⟩
      · exact hset.released k hk

/-! ## Buffers on their way through the queue -/

theorem pushBuffer_tidy (h : RepInv q) (hmarked : MarkedUnlisted q id) {available : Bool}
    {r : AVBufferQueueImpl × PushOutcome} (hr : q.pushBuffer env id available = some r) :
    Tidy env q r.1 := by
  unfold pushBuffer at hr
  split at hr
  · cases hr
    exact .refl env q
  next ele hele =>
    have hpush : Tidy env q (q.pushElement id ele).1 := by
      unfold pushElement
      split
      · exact setElement_tidy hele ⟨rfl, rfl, rfl, rfl⟩
      · exact .refl env q
    split at hr
    next hdel =>
      cases hr
      have hst : ¬ ele.state.listed := hmarked ele hele hdel
      exact deleteCachedBufferById_tidy (h.freeReleased.not_mem hele fun heq => hst (.inl heq))
    next =>
      split at hr
      · split at hr
        · cases hr
        · split at hr
          · cases hr
            exact .refl env q
          · cases hr
            exact hpush
      · cases hr
        exact hpush

theorem cancelBuffer_tidy (h : RepInv q) : Tidy env q (q.cancelBuffer id).1 := by
  unfold cancelBuffer
  split
  · exact .refl env q
  next ele hele =>
    split
    next hst =>
      have hnot : id ∉ q.freeBufferList := h.freeReleased.not_mem hele fun heq => by
        rw [heq] at hst
        exact hst.elim nofun nofun
      have hinsert : Tidy env q (q.insertFreeBufferInOrder id) :=
        insertFree_tidy h.freeReleased (mem_of_lookup hele) hnot
      have hlookup : (q.insertFreeBufferInOrder id).cachedBufferMap[id]? = some ele := by
        rw [insertFreeBufferInOrder_orderedInsert h.freeReleased (mem_of_lookup hele) hnot]
        exact hele
      refine hinsert.trans ?_
      simp only
      rw [element_of_lookup hlookup]
      have hset : Tidy env (q.insertFreeBufferInOrder id)
          ((q.insertFreeBufferInOrder id).setElement id { ele with state := .released }) :=
        setElement_tidy hlookup ⟨rfl, rfl, rfl, rfl⟩
      exact hset.trans (.of_same rfl (List.Sublist.refl _))
    · exact .refl env q

theorem returnBuffer_tidy (h : RepInv q) (hmarked : MarkedUnlisted q id) {available : Bool}
    {r : AVBufferQueueImpl × ReturnOutcome} (hr : q.returnBuffer env id available = some r) :
    Tidy env q r.1 := by
  unfold returnBuffer at hr
  split at hr
  · cases hr
    exact .refl env q
  next ele hele =>
    split at hr
    next hdel =>
      cases hr
      have hst : ¬ ele.state.listed := hmarked ele hele hdel
      exact deleteCachedBufferById_tidy (h.freeReleased.not_mem hele fun heq => hst (.inl heq))
    next =>
      split at hr
      · cases hr
        exact .refl env q
      next hpushed =>
        have hnot : id ∉ q.freeBufferList := h.freeReleased.not_mem hele fun heq => hpushed (by
          rw [heq]
          nofun)
        split at hr
        · have hcancel : Tidy env q (q.cancelBuffer id).1 := cancelBuffer_tidy h
          split at hr
          next u hu =>
            cases hr
            rw [hu] at hcancel
            exact hcancel
          next u status _ hu =>
            cases hr
            rw [hu] at hcancel
            exact hcancel
        · split at hr
          · cases hr
          next buffer hbuffer =>
            simp only at hr
            split at hr
            · cases hr
              exact .refl env q
            · cases hr
              exact fileElement_tidy hnot ⟨buffer, hbuffer, rfl, rfl, rfl⟩

theorem releaseBuffer_tidy (h : RepInv q) : Tidy env q (q.releaseBuffer id).1 := by
  unfold releaseBuffer
  split
  · exact .refl env q
  next ele hele =>
    split
    next hst =>
      have hne : ele.state ≠ .released := fun heq => by
        rw [heq] at hst
        exact hst.elim nofun nofun
      have hset : Tidy env q (q.setElement id { ele with state := .released }) :=
        setElement_tidy hele ⟨rfl, rfl, rfl, rfl⟩
      simp only
      split
      · exact hset.trans (deleteCachedBufferById_tidy (h.freeReleased.not_mem hele hne))
      · exact (releaseInto_tidy h.freeReleased hele hne).1.trans
          (.of_same rfl (List.Sublist.refl _))
    · exact .refl env q

theorem detachBuffer_tidy (h : RepInv q) {force : Bool}
    (hforce : force = true → Unlisted q id) : Tidy env q (q.detachBuffer id force).1 := by
  unfold detachBuffer
  split
  · exact .refl env q
  next ele hele =>
    split
    · exact .refl env q
    next hst =>
      have hne : ele.state ≠ .released := by
        intro heq
        by_cases hf : force = true
        · exact hforce hf ele hele (.inl heq)
        · rw [heq] at hst
          exact hst ⟨hf, fun hor => hor.elim nofun nofun⟩
      have hdelete : Tidy env q (q.deleteCachedBufferById id) :=
        deleteCachedBufferById_tidy (h.freeReleased.not_mem hele hne)
      rw [deleteCachedBufferById, hele] at hdelete
      exact hdelete

theorem acquireBuffer_tidy (h : RepInv q) {r : AVBufferQueueImpl × Except Status AVBufferRef}
    (hr : q.acquireBuffer = some r) : Tidy env q r.1 := by
  unfold acquireBuffer popFromDirtyBufferList at hr
  cases hlist : q.dirtyBufferList with
  | nil =>
    simp only [hlist] at hr
    cases hr
    exact .refl env q
  | cons front rest =>
    obtain ⟨ele, buffer, hele, -, hbuf, rfl⟩ :=
      h.lookup_of_dirty (hlist ▸ List.mem_cons_self ..)
    have hmem := mem_of_lookup hele
    simp only [hlist, touch_of_mem hmem, element_of_lookup hele, hbuf] at hr
    cases hr
    have hpop : Tidy env q { q with dirtyBufferList := rest } :=
      .of_same rfl (List.Sublist.refl _)
    have htouch : { q with dirtyBufferList := rest }.touch buffer.uniqueId =
        { q with dirtyBufferList := rest } := touch_of_mem hmem
    have helement : { q with dirtyBufferList := rest }.element buffer.uniqueId = ele :=
      element_of_lookup hele
    simp only [htouch, helement]
    exact hpop.trans (setElement_tidy hele ⟨rfl, rfl, rfl, rfl⟩)

/-! ## Clearing and resizing -/

theorem clear_tidy (h : RepInv q) : Tidy env q q.clear := by
  have hclear : ∀ (ids : List UInt64) (u : AVBufferQueueImpl), FreeReleased u →
      Tidy env u (ids.foldl clearElement u) := by
    intro ids
    induction ids with
    | nil => exact fun u _ => .refl env u
    | cons id rest ih =>
      intro u hu
      have hone : Tidy env u (u.clearElement id) ∧ FreeReleased (u.clearElement id) := by
        unfold clearElement
        split
        · exact ⟨.refl env u, hu⟩
        next ele hele =>
          split
          next hst =>
            refine releaseInto_tidy hu hele fun heq => ?_
            rw [heq] at hst
            exact hst.elim nofun nofun
          next => exact ⟨.refl env u, hu⟩
      exact hone.1.trans (ih _ hone.2)
  have hempty : Tidy env q { q with dirtyBufferList := [] } := .of_same rfl (List.Sublist.refl _)
  have hfree : FreeReleased { q with dirtyBufferList := [] } :=
    ⟨h.free_nodup, h.freeReleased.released⟩
  exact (hempty.trans (hclear _ _ hfree)).trans (.of_same rfl (List.Sublist.refl _))

theorem clearDirtyIf_tidy {pred : Option AVBufferRef → Bool} (l : List UInt64) :
    ∀ {q : AVBufferQueueImpl} {r : AVBufferQueueImpl × List UInt64}, FreeReleased q →
      q.clearDirtyIf pred l = some r → Tidy env q r.1 := by
  induction l with
  | nil =>
    intro q r _ hr
    cases hr
    exact .refl env q
  | cons id rest ih =>
    intro q r h hr
    have hkeep : ∀ {r : AVBufferQueueImpl × List UInt64},
        ((q.clearDirtyIf pred rest).map fun r => (r.1, id :: r.2)) = some r →
          Tidy env q r.1 := by
      intro r hr
      obtain ⟨v, hv, rfl⟩ := Option.map_eq_some_iff.mp hr
      have hrest : Tidy env q v.1 := ih h hv
      exact hrest
    simp only [clearDirtyIf] at hr
    split at hr
    · exact hkeep hr
    next ele hele =>
      split at hr
      · exact hkeep hr
      next hst =>
        split at hr
        · split at hr
          · cases hr
          · have hne : ele.state ≠ .released := fun heq => hst (by
              rw [heq]
              exact ⟨fun heq => (by cases heq), fun heq => (by cases heq)⟩)
            obtain ⟨htidy, hreleased⟩ := @releaseInto_tidy q id env h ele hele hne
            exact htidy.trans (ih hreleased hr)
        · exact hkeep hr

theorem clearBufferIf_tidy (h : RepInv q) {pred : Option AVBufferRef → Bool}
    (hq' : q.clearBufferIf pred = some q') : Tidy env q q' := by
  obtain ⟨r, hr, rfl⟩ := Option.map_eq_some_iff.mp hq'
  exact (clearDirtyIf_tidy _ h.freeReleased hr).trans (.of_same rfl (List.Sublist.refl _))

theorem deleteBuffers_tidy (h : RepInv q) (count : Nat) : Tidy env q (q.deleteBuffers count) := by
  obtain ⟨m, hm⟩ := deleteBuffers_eq q count
  have hkeeps : ∀ k ∈ q.freeBufferList.drop count, k ∉ q.deletedIds count := by
    intro k hk hdel
    rcases (mem_deletedIds q count k).mp hdel with htake | htake
    · exact ((mem_drop_iff h.free_nodup).mp hk).2 htake
    · have hfree := h.freeReleased.released k (List.mem_of_mem_drop hk)
      rw [(h.dirty_iff k).mp (List.mem_of_mem_take htake)] at hfree
      cases hfree
  rw [hm]
  constructor
  · intro k e he
    simp only at he
    rw [deleteBuffers_lookup] at he
    split at he
    · cases he
    · split at he
      · obtain ⟨ele, hele, rfl⟩ := Option.map_eq_some_iff.mp he
        exact .inl ⟨ele, hele, rfl, rfl, rfl, rfl⟩
      · exact .inl ⟨e, he, .refl e⟩
  · intro hsorted
    refine hsorted.of_sublist (List.drop_sublist ..) fun k hk => ?_
    unfold recordedCapacity element
    simp only
    rw [deleteBuffers_lookup, if_neg (hkeeps k hk)]
    split
    · cases q.cachedBufferMap[k]? <;> rfl
    · rfl

theorem resizeLocked_tidy (h : RepInv q) (size : Nat) : Tidy env q (q.resizeLocked size) := by
  unfold resizeLocked
  split
  · simp only
    split
    · exact .of_same rfl (List.Sublist.refl _)
    · exact .of_same rfl (List.Sublist.refl _)
  · exact (deleteBuffers_tidy h _).trans (.of_same rfl (List.Sublist.refl _))

theorem setLargerQueueSize_tidy (h : RepInv q) (size : Nat) :
    Tidy env q (q.setLargerQueueSize size).1 := by
  unfold setLargerQueueSize setLargerQueueSizeLocked
  split
  · exact resizeLocked_tidy h size
  · exact .refl env q

theorem setQueueSize_tidy (h : RepInv q) (size : Nat) : Tidy env q (q.setQueueSize size).1 := by
  unfold setQueueSize
  split
  · exact setLargerQueueSize_tidy h size
  · exact .refl env q

theorem attachBuffer_tidy (h : RepInv q) (buffer : AVBufferRef) (config : AVBufferConfig) :
    Tidy env q (q.attachBuffer env buffer config).1 := by
  unfold attachBuffer
  split
  · exact .refl env q
  next hnew =>
    split
    · exact .refl env q
    next v hv =>
      obtain rfl := checkConfig_eq hv
      have hcheck : Tidy env q { q with memoryType := config.memoryType } :=
        .of_same rfl (List.Sublist.refl _)
      have hrep : RepInv { q with memoryType := config.memoryType } := h.of_memoryType
      refine hcheck.trans ?_
      have hnewv : buffer.uniqueId ∉
          ({ q with memoryType := config.memoryType } : AVBufferQueueImpl).cachedBufferMap := hnew
      generalize { q with memoryType := config.memoryType } = v at hrep hnewv
      unfold attachAvailableBufferLocked
      simp only
      split
      · split
        · obtain ⟨m, hm⟩ := deleteBuffers_eq v (v.getCachedBufferCount - v.size + 1)
          refine (deleteBuffers_tidy hrep _).trans (addElement_tidy (fun hk => ?_)
            ⟨buffer, rfl, rfl, rfl, rfl⟩)
          rw [hm] at hk
          exact hnewv (hrep.free_mem _ (List.mem_of_mem_drop hk))
        · exact .refl env v
      · exact addElement_tidy (fun hk => hnewv (hrep.free_mem _ hk)) ⟨buffer, rfl, rfl, rfl, rfl⟩

theorem setQueueSizeAndAttachBuffer_tidy (h : RepInv q) (size : Nat) (buffer : AVBufferRef)
    (config : AVBufferConfig) :
    Tidy env q (q.setQueueSizeAndAttachBuffer env size buffer config).1 := by
  unfold setQueueSizeAndAttachBuffer
  split
  · have hrep : RepInv (q.resizeLocked size) := (resizeLocked_moves q size).repInv h
    exact (resizeLocked_tidy h size).trans (attachBuffer_tidy hrep buffer config)
  · exact attachBuffer_tidy h buffer config

end AVBufferQueueImpl

open AVBufferQueueImpl

/-! ## The blocks of the system -/

theorem block_tidy {s : System} {l : Label} {o : Outcome} (h : RepInv s.queue)
    (hk : KeepsLists s l) (hb : block s l = some (some o)) : Tidy l.env s.queue o.queue := by
  obtain ⟨hfresh, hmarked, hdetached⟩ := hk
  have hmakes := block_makes hb
  unfold givenBack at hmarked
  unfold forceDetached at hdetached
  generalize s.threads l.thread = thread, l.action = action, o.queue = q
    at hmakes hmarked hdetached ⊢
  cases hmakes with
  | request config timeoutUs seen => exact requestBufferWaitUs_tidy h hfresh _ timeoutUs
  | push hr | pushFilled hr timedOut => exact pushBuffer_tidy h (hmarked _ rfl) hr
  | giveBack hr | file hr caller timedOut => exact returnBuffer_tidy h (hmarked _ rfl) hr
  | attach buffer config isFilled => exact attachBuffer_tidy h buffer config
  | resizeAttach size buffer config isFilled =>
    exact setQueueSizeAndAttachBuffer_tidy h size buffer config
  | detach id => exact detachBuffer_tidy h fun hforce => by cases hforce
  | acquire hr => exact acquireBuffer_tidy h hr
  | release id | releaseAttached id timedOut => exact releaseBuffer_tidy h
  | resize size => exact setQueueSize_tidy h size
  | enlarge size => exact setLargerQueueSize_tidy h size
  | clear => exact clear_tidy h
  | clearIf hu => exact clearBufferIf_tidy h hu
  | requestAgain party config timeoutUs awake timedOut =>
    exact requestBufferResume_tidy h hfresh config timeoutUs timedOut
  | detachMarked id status timedOut => exact detachBuffer_tidy h fun _ => hdetached id rfl
  | broker caller id buffer timedOut | producer timedOut | consumer caller id timedOut =>
    exact .refl _ _

theorem step_tidy {s t : System} {l : Label} (h : RepInv s.queue) (hk : KeepsLists s l)
    (hs : step s l = some t) : Tidy l.env s.queue t.queue := by
  obtain ⟨-, ⟨o, hb, rfl, -⟩ | ⟨-, rfl, -⟩ | ⟨ls, -, -, rfl, -⟩⟩ := step_cases hs
  · exact block_tidy h hk hb
  · exact .refl _ _
  · exact .refl _ _

/-! ## The memory behind the buffers -/

def allocated (type : MemoryType) : Prop := type = .virtualMemory ∨ type = .sharedMemory

def requestedConfig (s : System) (l : Label) : Option AVBufferConfig :=
  match s.threads l.thread, l.action with
  | .idle, .call (.requestBufferWaitUs config _ seen) => some (configCopy config seen)
  | .requesting _ config _ _, .resume _ => some config
  | _, _ => none

/-- **What `AVBuffer` gives a block to see.** `mem` is the memory of each buffer.
The buffers are ones that its code makes, and a new one is made for the request. -/
structure Supplied (mem : AVBufferRef → AVMemory) (s : System) (l : Label) : Prop where
  made : ∀ buffer, allocated (l.env.contents buffer).config.memoryType →
    ∃ config size, AVBuffer.Made config (mem buffer) ∧
      (l.env.contents buffer).config = { config with size := size }
  created : ∀ buffer ∈ l.env.created, ∀ request ∈ requestedConfig s l,
    allocated request.memoryType → ∃ given config,
      AVBuffer.createAVBuffer given request = some (config, mem buffer)

def Recorded (mem : AVBufferRef → AVMemory) (q : AVBufferQueueImpl) : Prop :=
  ∀ (id : UInt64) (ele : AVBufferElement) (buffer : AVBufferRef),
    q.cachedBufferMap[id]? = some ele → ele.buffer = some buffer →
    allocated ele.config.memoryType →
    (mem buffer).capacity = AVMemory.initCapacity ele.config.capacity ele.config.align

theorem Recorded.of_files {mem : AVBufferRef → AVMemory} {q q' : AVBufferQueueImpl} {env : Env}
    (h : Recorded mem q) (hfiles : Files env q q')
    (hmade : ∀ buffer, allocated (env.contents buffer).config.memoryType →
      ∃ config size, AVBuffer.Made config (mem buffer) ∧
        (env.contents buffer).config = { config with size := size }) : Recorded mem q' := by
  intro id ele' buffer hele' hbuf htype
  rcases hfiles id ele' hele' with ⟨ele, hele, hsame⟩ | ⟨b, hsame⟩
  · rw [hsame.capacity, hsame.align]
    exact h id ele buffer hele (hsame.buffer.symm.trans hbuf) (hsame.memoryType ▸ htype)
  · obtain rfl : b = buffer := Option.some.inj (hsame.buffer.symm.trans hbuf)
    have htype' : allocated (env.contents b).config.memoryType := by
      rw [hsame.memoryType] at htype
      exact htype
    obtain ⟨config, size, hmade, hconfig⟩ := hmade b htype'
    rw [hsame.capacity, hsame.align]
    show _ = AVMemory.initCapacity (env.contents b).config.capacity (env.contents b).config.align
    rw [hconfig]
    exact hmade.capacity

/-! ## What a request is given -/

/-- **The request is granted well**: the memory is large enough; where free
buffers pass the test, the buffer is one of them, with the smallest recorded
capacity; where none passes, the buffer is new, and the free buffer with the
smallest recorded capacity has left for it. -/
structure WellGranted (mem : AVBufferRef → AVMemory) (q q' : AVBufferQueueImpl)
    (config : AVBufferConfig) (buffer : AVBufferRef) : Prop where
  largeEnough : config.size ≤ (mem buffer).capacity
  bestFit : ∀ k ∈ q.freeBufferList, config.le (q.element k).config = true →
    buffer.uniqueId ∈ q.freeBufferList ∧
      (q.element buffer.uniqueId).buffer = some buffer ∧
      config.le (q.element buffer.uniqueId).config = true ∧
      q.recordedCapacity buffer.uniqueId ≤ q.recordedCapacity k
  replaced : (∀ k ∈ q.freeBufferList, config.le (q.element k).config = false) →
    buffer.uniqueId ∉ q.cachedBufferMap ∧ (q.freeBufferList ≠ [] →
      ∃ k ∈ q.freeBufferList, (∀ j ∈ q.freeBufferList,
        q.recordedCapacity k ≤ q.recordedCapacity j) ∧ k ∉ q'.cachedBufferMap)

/-- **Not between the two estimates**: where a free buffer passes the test, the
size fits the recorded capacity rounded up to the alignment. -/
def OutsideGap (q : AVBufferQueueImpl) (config : AVBufferConfig) : Prop :=
  ∀ k ∈ q.freeBufferList.find? fun k => config.le (q.element k).config,
    config.size ≤ AVMemory.initCapacity (q.element k).config.capacity (q.element k).config.align

section Granted

variable {mem : AVBufferRef → AVMemory} {q q' : AVBufferQueueImpl} {env : Env}
  {config : AVBufferConfig} {buffer : AVBufferRef}

/-- How a request comes to its buffer. -/
inductive Grants (q : AVBufferQueueImpl) (env : Env) (config : AVBufferConfig)
    (q' : AVBufferQueueImpl) (buffer : AVBufferRef) : Prop where
  | reuse {k : UInt64} (hchosen : q.chosen config = some k)
      (hreuse : { q with freeBufferList := q.freeBufferList.erase k }.requestReuseBuffer env
        (q.element k).buffer config = (q', .ok buffer))
  | alloc (hnone : q.chosen config = none) (halloc : q.allocBuffer env = (q', .ok buffer))

theorem allocBuffer_ok (h : q.allocBuffer env = (q', .ok buffer)) :
    env.created = some buffer ∧ ∃ ele, q' = q.addElement buffer.uniqueId ele := by
  unfold allocBuffer at h
  split at h
  · cases (Prod.mk.inj h).2
  next b hb =>
    obtain ⟨rfl, hok⟩ := Prod.mk.inj h
    obtain rfl := Except.ok.inj hok
    exact ⟨hb, _, rfl⟩

theorem find_smallest (h : FreeSorted q) {k : UInt64}
    (hfind : (q.freeBufferList.find? fun k => config.le (q.element k).config) = some k) {j : UInt64}
    (hj : j ∈ q.freeBufferList) (hle : config.le (q.element j).config = true) :
    q.recordedCapacity k ≤ q.recordedCapacity j := by
  obtain ⟨-, l₁, l₂, hlist, hbefore⟩ := List.find?_eq_some_iff_append.mp hfind
  rw [FreeSorted, hlist, List.pairwise_append] at h
  rw [hlist, List.mem_append, List.mem_cons] at hj
  rcases hj with hj | rfl | hj
  · have hnot := hbefore j hj
    rw [hle] at hnot
    cases hnot
  · exact Int32.le_refl _
  · exact (List.pairwise_cons.mp h.2.1).1 j hj

theorem head_smallest (h : FreeSorted q) {front : UInt64} {rest : List UInt64}
    (hlist : q.freeBufferList = front :: rest) {j : UInt64} (hj : j ∈ q.freeBufferList) :
    q.recordedCapacity front ≤ q.recordedCapacity j := by
  rw [FreeSorted, hlist] at h
  rw [hlist, List.mem_cons] at hj
  rcases hj with rfl | hj
  · exact Int32.le_refl _
  · exact (List.pairwise_cons.mp h).1 j hj

theorem new_wellGranted (hnone : ∀ k ∈ q.freeBufferList, config.le (q.element k).config = false)
    (hfresh : Fresh q env) (hcreated : env.created = some buffer)
    (hmade : ∃ given recorded, AVBuffer.createAVBuffer given config =
      some (recorded, mem buffer))
    (hleft : q.freeBufferList ≠ [] → ∃ k ∈ q.freeBufferList,
      (∀ j ∈ q.freeBufferList, q.recordedCapacity k ≤ q.recordedCapacity j) ∧
        k ∉ q'.cachedBufferMap) :
    WellGranted mem q q' config buffer ∧ OutsideGap q config := by
  obtain ⟨given, recorded, hmade⟩ := hmade
  refine ⟨⟨AVBuffer.createAVBuffer_fits hmade, fun k hk hle => ?_, fun _ => ⟨hfresh buffer hcreated,
    hleft⟩⟩, fun k hk => ?_⟩
  · rw [hnone k hk] at hle
    cases hle
  · have hpass := List.find?_some hk
    rw [hnone k (List.mem_of_find?_eq_some hk)] at hpass
    cases hpass

theorem grants_iff (h : RepInv q) (hsorted : FreeSorted q) (hrecorded : Recorded mem q)
    (hfresh : Fresh q env) (htype : allocated config.memoryType)
    (hcreated : ∀ buffer ∈ env.created, ∃ given recorded,
      AVBuffer.createAVBuffer given config = some (recorded, mem buffer))
    (hgrants : Grants q env config q' buffer) :
    WellGranted mem q q' config buffer ↔ OutsideGap q config := by
  cases hgrants with
  | alloc hnone halloc =>
    obtain ⟨hb, -⟩ := allocBuffer_ok halloc
    have hnil : q.freeBufferList = [] := List.head?_eq_none_iff.mp (Option.or_eq_none_iff.mp hnone).2
    have hnew : WellGranted mem q q' config buffer ∧ OutsideGap q config :=
      new_wellGranted (by rw [hnil]; nofun) hfresh hb (hcreated buffer hb) fun hne =>
        absurd hnil hne
    exact iff_of_true hnew.1 hnew.2
  | reuse hchosen hreuse =>
    rename_i k
    obtain ⟨ele, b, hele, hbuf, hkey, heq⟩ := requestReuseBuffer_eq h env config (chosen_mem hchosen)
    rw [heq, element_of_lookup hele] at hreuse
    cases hfind : q.freeBufferList.find? fun k => config.le (q.element k).config with
    | some j =>
      have hjk : j = k := by
        rw [chosen, hfind] at hchosen
        exact Option.some.inj hchosen
      obtain rfl := hjk
      have hpass : config.le ele.config = true := by
        have hpass := List.find?_some hfind
        rwa [element_of_lookup hele] at hpass
      rw [if_pos hpass] at hreuse
      obtain rfl := Except.ok.inj (Prod.mk.inj hreuse).2
      obtain rfl := hkey
      have hsame : config.memoryType = ele.config.memoryType := by
        unfold AVBufferConfig.le at hpass
        split at hpass
        · cases hpass
        next hsame => exact not_not.mp hsame
      have hcap := hrecorded _ ele b hele hbuf (hsame ▸ htype)
      have hgap : OutsideGap q config ↔ config.size ≤ (mem b).capacity := by
        rw [OutsideGap, hfind, hcap]
        constructor
        · intro hgap
          have := hgap _ rfl
          rwa [element_of_lookup hele] at this
        · intro hsize k hk
          cases hk
          rwa [element_of_lookup hele]
      rw [hgap]
      refine ⟨fun hwell => hwell.largeEnough, fun hsize => ⟨hsize, fun k hk hle => ?_, fun hnone => ?_⟩⟩
      · rw [element_of_lookup hele]
        exact ⟨chosen_mem hchosen, hbuf, hpass, find_smallest hsorted hfind hk hle⟩
      · have hfalse := hnone _ (chosen_mem hchosen)
        rw [element_of_lookup hele, hpass] at hfalse
        cases hfalse
    | none =>
      have hnone : ∀ k ∈ q.freeBufferList, config.le (q.element k).config = false := fun k hk =>
        Bool.eq_false_iff.mpr (List.find?_eq_none.mp hfind k hk)
      have hfail : config.le ele.config = false := by
        have hfail := hnone k (chosen_mem hchosen)
        rwa [element_of_lookup hele] at hfail
      rw [hfail, if_neg Bool.false_ne_true] at hreuse
      obtain ⟨hb, added, rfl⟩ := allocBuffer_ok hreuse
      have hfront : ∃ rest, q.freeBufferList = k :: rest := by
        rw [chosen, hfind, Option.none_or] at hchosen
        exact List.head?_eq_some_iff.mp hchosen
      obtain ⟨rest, hlist⟩ := hfront
      have hleft : k ∉ (({ q with freeBufferList := q.freeBufferList.erase k
          }.deleteCachedBufferById k).addElement buffer.uniqueId added).cachedBufferMap := by
        intro hmem
        have hne : buffer.uniqueId ≠ k := fun heq =>
          hfresh buffer hb (heq ▸ h.free_mem k (chosen_mem hchosen))
        obtain ⟨e, he⟩ := exists_lookup hmem
        rw [addElement_lookup, if_neg hne, deleteCachedBufferById_lookup, if_pos rfl] at he
        cases he
      have hnew := new_wellGranted hnone hfresh hb (hcreated buffer hb) fun _ =>
        ⟨k, chosen_mem hchosen, fun j hj => head_smallest hsorted hlist hj, hleft⟩
      exact iff_of_true hnew.1 hnew.2

theorem requestAfterWait_grants (h : RepInv q)
    (hr : q.requestAfterWait env config = (q', .ok buffer)) : Grants q env config q' buffer := by
  simp only [requestAfterWait, popFromFreeBufferList_eq h] at hr
  cases hchosen : q.chosen config with
  | some k =>
    rw [hchosen] at hr
    exact .reuse hchosen hr
  | none =>
    simp only [hchosen] at hr
    split at hr
    · cases (Prod.mk.inj hr).2
    · exact .alloc hchosen hr

theorem requestBufferWaitUs_grants (h : RepInv q) {timeoutUs : Int64}
    (hr : q.requestBufferWaitUs env config timeoutUs = (q', some (.ok buffer))) :
    Grants { q with memoryType := config.memoryType } env config q' buffer := by
  unfold requestBufferWaitUs at hr
  cases hcheck : q.checkConfig config with
  | none =>
    rw [hcheck] at hr
    cases (Prod.mk.inj hr).2
  | some v =>
    obtain rfl := checkConfig_eq hcheck
    have hv : RepInv { q with memoryType := config.memoryType } := h.of_memoryType
    rw [hcheck] at hr
    simp only at hr
    generalize { q with memoryType := config.memoryType } = v at hv hr
    rw [popFromFreeBufferList_eq hv] at hr
    cases hchosen : v.chosen config with
    | some k =>
      rw [hchosen] at hr
      obtain ⟨rfl, hok⟩ := Prod.mk.inj hr
      exact .reuse hchosen (Prod.ext rfl (Option.some.inj hok))
    | none =>
      simp only [hchosen] at hr
      split at hr
      · split at hr
        · obtain ⟨rfl, hok⟩ := Prod.mk.inj hr
          exact requestAfterWait_grants hv (Prod.ext rfl (Option.some.inj hok))
        · cases (Prod.mk.inj hr).2
      · obtain ⟨rfl, hok⟩ := Prod.mk.inj hr
        exact .alloc hchosen (Prod.ext rfl (Option.some.inj hok))

theorem afterRequest_buffer {party : Nat} {timeoutUs : Int64}
    {r : AVBufferQueueImpl × Option (Except Status AVBufferRef)}
    (h : (afterRequest party config timeoutUs r).buffer = some buffer) :
    r = ((afterRequest party config timeoutUs r).queue, some (.ok buffer)) := by
  obtain ⟨u, _ | st | b⟩ := r
  · cases h
  · cases h
  · cases h
    rfl

theorem block_grants {s : System} {l : Label} {o : Outcome} (h : RepInv s.queue)
    (hrequested : requestedConfig s l = some config) (hb : block s l = some (some o))
    (hbuf : o.buffer = some buffer) :
    ∃ t, Grants { s.queue with memoryType := t } l.env config o.queue buffer := by
  unfold requestedConfig at hrequested
  split at hrequested
  next c timeoutUs seen hthread haction =>
    obtain rfl := Option.some.inj hrequested
    rw [block, hthread, haction] at hb
    obtain rfl := Option.some.inj (Option.some.inj hb)
    exact ⟨_, requestBufferWaitUs_grants h (afterRequest_buffer hbuf)⟩
  next party c timeoutUs awake timedOut hthread haction =>
    obtain rfl := Option.some.inj hrequested
    rw [block, hthread, haction] at hb
    obtain rfl := Option.some.inj (Option.some.inj hb)
    have hr := afterRequest_buffer hbuf
    refine ⟨s.queue.memoryType, ?_⟩
    generalize (afterRequest party c timeoutUs
      (s.queue.requestBufferResume l.env c timeoutUs timedOut)).queue = q' at hr
    unfold requestBufferResume at hr
    split at hr
    · split at hr
      · cases (Prod.mk.inj hr).2
      · cases (Prod.mk.inj hr).2
    · obtain ⟨rfl, hok⟩ := Prod.mk.inj hr
      exact requestAfterWait_grants h (Prod.ext rfl (Option.some.inj hok))
  · cases hrequested

end Granted

/-! ## Over runs -/

/-- The step keeps the lists, and the buffers it sees are made by `AVBuffer`. -/
structure Provides (mem : AVBufferRef → AVMemory) (s : System) (l : Label) : Prop where
  lists : KeepsLists s l
  supplied : Supplied mem s l

theorem run_sorted {mem : AVBufferRef → AVMemory} {size : Nat} {type : MemoryType}
    {disableAlloc : Bool} {ls : List Label} {s : System}
    (hgood : Runs.Along step (Provides mem) (.init size type disableAlloc) ls)
    (hrun : Runs.run step (.init size type disableAlloc) ls = some s) :
    RepInv s.queue ∧ FreeSorted s.queue ∧ Recorded mem s.queue := by
  refine Runs.run_invariant
    (I := fun s : System => RepInv s.queue ∧ FreeSorted s.queue ∧ Recorded mem s.queue)
    ?_ ⟨repInv_init size type disableAlloc, .nil, fun id ele buffer hele => ?_⟩ hgood hrun
  · rintro s l t ⟨h, hsorted, hrecorded⟩ ⟨hlists, hsupplied⟩ hs
    have htidy := step_tidy h hlists hs
    exact ⟨(step_effect h hlists hs).2.repInv h, htidy.sorted hsorted,
      hrecorded.of_files htidy.files hsupplied.made⟩
  · simp [System.init, create] at hele

/-- **The best fit.** In every state of a run whose steps keep the lists, the
free list is sorted by recorded capacity, and a request for virtual or shared
memory that returns a buffer is granted well exactly where its size does not
fall between the estimate of `operator<=` and the rounded capacity. -/
theorem best_fit {mem : AVBufferRef → AVMemory} {size : Nat} {type : MemoryType}
    {disableAlloc : Bool} {ls : List Label} {s : System}
    (hgood : Runs.Along step (Provides mem) (.init size type disableAlloc) ls)
    (hrun : Runs.run step (.init size type disableAlloc) ls = some s) :
    FreeSorted s.queue ∧ ∀ (l : Label) (o : Outcome) (config : AVBufferConfig)
      (buffer : AVBufferRef), Provides mem s l → requestedConfig s l = some config →
      allocated config.memoryType → block s l = some (some o) → o.buffer = some buffer →
      (WellGranted mem s.queue o.queue config buffer ↔ OutsideGap s.queue config) := by
  obtain ⟨h, hsorted, hrecorded⟩ := run_sorted hgood hrun
  refine ⟨hsorted, fun l o config buffer hk hrequested htype hb hbuf => ?_⟩
  obtain ⟨t, hgrants⟩ := block_grants h hrequested hb hbuf
  have hcreated : ∀ buffer ∈ l.env.created, ∃ given recorded,
      AVBuffer.createAVBuffer given config = some (recorded, mem buffer) :=
    fun b hb => hk.supplied.created b hb config hrequested htype
  have hiff := grants_iff (h.of_memoryType (t := t)) hsorted hrecorded hk.lists.fresh htype
    hcreated hgrants
  exact ⟨fun hwell => hiff.mp ⟨hwell.largeEnough, hwell.bestFit, hwell.replaced⟩,
    fun hgap => ⟨(hiff.mpr hgap).largeEnough, (hiff.mpr hgap).bestFit, (hiff.mpr hgap).replaced⟩⟩

/-! ## The run that breaks it -/

def eightBytes : AVBufferConfig :=
  { size := 8, align := 8, memoryType := .virtualMemory, capacity := 8 }

def eightBytesMemory : AVMemory where
  capacity := 8
  align := 8
  offset := 0
  size := 0
  offset_mem := by decide
  size_mem := by decide
  subclass := .virtual
  fd := none
  memFlag := .memoryReadWrite

def heapOnly : AVMemory.Allocators where
  heap := fun _ => true
  ashmemCreate := fun _ => none

theorem createAVBuffer_eightBytes :
    AVBuffer.createAVBuffer heapOnly eightBytes = some (eightBytes, eightBytesMemory) := by
  rfl

/-- A step of producer 1, for whom `CreateAVBuffer` makes buffers of eight bytes. -/
def alignedLabel (created : Option AVBufferRef) (action : Action) : Label where
  thread := 0
  party := 1
  env := { contents := fun _ => { config := { eightBytes with size := 0 }, flag := 0 }, created }
  action := action

def requestBytes (id : UInt64) (size : Int32) : Label :=
  alignedLabel (some ⟨0, id⟩)
    (.call (.requestBufferWaitUs { eightBytes with size } 0 .virtualMemory))

def requestAndReturn : List Label :=
  [requestBytes 1 8, alignedLabel none (.call (.pushBuffer 1 false)),
    alignedLabel none (.resume false), alignedLabel none (.resume false)]

theorem best_fit_requestAgain :
    ∃ s o, Runs.run step (.init 1 .virtualMemory false) requestAndReturn = some s ∧
      block s (requestBytes 2 8) = some (some o) ∧
      (WellGranted (fun _ => eightBytesMemory) s.queue o.queue eightBytes ⟨0, 1⟩ ↔
        OutsideGap s.queue eightBytes) := by
  have hprovides : ∀ {s : System} (created : Option AVBufferRef) (action : Action),
      KeepsLists s (alignedLabel created action) →
      (∀ request ∈ requestedConfig s (alignedLabel created action), request = eightBytes) →
      Provides (fun _ => eightBytesMemory) s (alignedLabel created action) :=
    fun created action hlists hreq =>
      ⟨hlists, fun _ _ => ⟨_, 0, .ofConfig createAVBuffer_eightBytes, rfl⟩,
        fun _ _ request hrequest _ => ⟨heapOnly, eightBytes, by
          rw [hreq request hrequest]
          exact createAVBuffer_eightBytes⟩⟩
  have hsame : ∀ request ∈ some eightBytes, request = eightBytes := fun _ h =>
    (Option.some.inj h).symm
  have hgood : Runs.Along step (Provides fun _ => eightBytesMemory)
      (.init 1 .virtualMemory false) requestAndReturn := by
    refine .cons (hprovides _ _ (by decide) hsame) rfl ?_
    refine .cons (hprovides _ _ (by decide) (by decide)) rfl ?_
    refine .cons (hprovides _ _ (by decide) (by decide)) rfl ?_
    exact .cons (hprovides _ _ (by decide) (by decide)) rfl trivial
  refine ⟨_, _, rfl, rfl, (best_fit hgood rfl).2 (requestBytes 2 8) _ eightBytes ⟨0, 1⟩ ?_ rfl
    (.inl rfl) rfl rfl⟩
  exact hprovides _ _ (by decide) hsame

/-- Eight bytes, rounded up to eight, pass for fifteen: a request for twelve is
given the buffer of eight. -/
theorem grant_too_small :
    ∃ s o, Runs.run step (.init 1 .virtualMemory false) requestAndReturn = some s ∧
      block s (requestBytes 2 12) = some (some o) ∧ o.buffer = some ⟨0, 1⟩ ∧
      AVBuffer.createAVBuffer heapOnly eightBytes = some (eightBytes, eightBytesMemory) ∧
      eightBytesMemory.capacity = 8 ∧
      ¬ WellGranted (fun _ => eightBytesMemory) s.queue o.queue { eightBytes with size := 12 }
        ⟨0, 1⟩ := by
  refine ⟨_, _, rfl, rfl, rfl, rfl, rfl, fun h => ?_⟩
  exact absurd h.largeEnough (by decide)

end MediaFoundation.Queue
