import MediaFoundation.Queue.Lemmas

/-!
# The moves that the blocks are made of

Every block of the queue is a short sequence of *moves*: one buffer, or the
buffers that one helper sweeps, changes its place. `Moved q m q'` says what
the move `m` does to the map, the two lists and the size, and leaves the rest
of the queue open. The invariants are proved for each move once, and a block
inherits them from its moves (`Moves.repInv`).
-/

namespace MediaFoundation.Queue

open Std (ExtTreeMap)

namespace AVBufferQueueImpl

variable {q q' : AVBufferQueueImpl} {id : UInt64}

/-! ## Moves -/

inductive Move where
  | quiet
  | request (buffer : AVBufferRef)
  /-- From the free list to a requester, in a new buffer. -/
  | realloc (id : UInt64) (buffer : AVBufferRef)
  | dropFree (id : UInt64)
  /-- A new buffer, outside the lists. -/
  | add (buffer : AVBufferRef) (st : AVBufferState)
  | push (id : UInt64)
  | free (id : UInt64)
  | append (buffer : AVBufferRef)
  /-- From the front of the dirty list to a consumer. -/
  | acquire (buffer : AVBufferRef)
  /-- From outside the lists to nowhere. -/
  | erase (id : UInt64)
  | deleteBuffers (count : Nat)
  | resize (size : Nat)
  | clear
  | clearIf (pred : Option AVBufferRef → Bool)

/-- The moves that change neither the dirty list nor the size, nor sweep a list. -/
def Move.plain : Move → Bool
  | .quiet | .request .. | .realloc .. | .dropFree _ | .add .. | .push _ | .free _ | .erase _ =>
    true
  | _ => false

/-- The parts of the queue that the invariants speak about. -/
structure Becomes (q q' : AVBufferQueueImpl) (map : ExtTreeMap UInt64 AVBufferElement)
    (free dirty : List UInt64) : Prop where
  map_eq : q'.cachedBufferMap = map
  free_eq : q'.freeBufferList = free
  dirty_eq : q'.dirtyBufferList = dirty
  lookups_eq : q'.absentLookups = q.absentLookups

theorem Becomes.trans_lookups {u : AVBufferQueueImpl} {map : ExtTreeMap UInt64 AVBufferElement}
    {free dirty : List UInt64} (h : Becomes u q' map free dirty)
    (hu : u.absentLookups = q.absentLookups) : Becomes q q' map free dirty :=
  ⟨h.map_eq, h.free_eq, h.dirty_eq, h.lookups_eq.trans hu⟩

theorem addElement_becomes (q : AVBufferQueueImpl) (id : UInt64) (ele : AVBufferElement) :
    Becomes q (q.addElement id ele) (q.cachedBufferMap.insert id ele) q.freeBufferList
      q.dirtyBufferList := by
  obtain ⟨m, hm⟩ := addElement_eq q id ele
  rw [hm]
  exact ⟨rfl, rfl, rfl, rfl⟩

theorem addElement_size (q : AVBufferQueueImpl) (id : UInt64) (ele : AVBufferElement) :
    (q.addElement id ele).size = q.size := by
  obtain ⟨m, hm⟩ := addElement_eq q id ele
  rw [hm]
  rfl

theorem deleteCachedBufferById_becomes (q : AVBufferQueueImpl) (id : UInt64) :
    Becomes q (q.deleteCachedBufferById id) (q.cachedBufferMap.erase id) q.freeBufferList
      q.dirtyBufferList := by
  obtain ⟨m, hm⟩ := deleteCachedBufferById_eq q id
  rw [hm]
  exact ⟨rfl, rfl, rfl, rfl⟩

theorem deleteCachedBufferById_size (q : AVBufferQueueImpl) (id : UInt64) :
    (q.deleteCachedBufferById id).size = q.size := by
  obtain ⟨m, hm⟩ := deleteCachedBufferById_eq q id
  rw [hm]

/-- **What a move does.** -/
inductive Moved (q q' : AVBufferQueueImpl) : Move → Prop where
  | quiet (hsize : q'.size = q.size)
      (hq : Becomes q q' q.cachedBufferMap q.freeBufferList q.dirtyBufferList) : Moved q q' .quiet
  | request {buffer : AVBufferRef} {ele : AVBufferElement} {config : AVBufferConfig}
      (hmem : buffer.uniqueId ∈ q.freeBufferList)
      (hele : q.cachedBufferMap[buffer.uniqueId]? = some ele) (hbuf : ele.buffer = some buffer)
      (hsize : q'.size = q.size)
      (hq : Becomes q q'
        (q.cachedBufferMap.insert buffer.uniqueId { ele with config, state := .requested })
        (q.freeBufferList.erase buffer.uniqueId) q.dirtyBufferList) :
      Moved q q' (.request buffer)
  | realloc {id : UInt64} {buffer : AVBufferRef} {config : AVBufferConfig}
      (hmem : id ∈ q.freeBufferList) (hnew : buffer.uniqueId ∉ q.cachedBufferMap)
      (hsize : q'.size = q.size)
      (hq : Becomes q q'
        ((q.cachedBufferMap.erase id).insert buffer.uniqueId
          { config, state := .requested, buffer := some buffer })
        (q.freeBufferList.erase id) q.dirtyBufferList) :
      Moved q q' (.realloc id buffer)
  | dropFree {id : UInt64} (hmem : id ∈ q.freeBufferList) (hsize : q'.size = q.size)
      (hq : Becomes q q' (q.cachedBufferMap.erase id) (q.freeBufferList.erase id)
        q.dirtyBufferList) : Moved q q' (.dropFree id)
  | add {buffer : AVBufferRef} {st : AVBufferState} {config : AVBufferConfig}
      (hnew : buffer.uniqueId ∉ q.cachedBufferMap) (hst : st = .requested ∨ st = .attached)
      (hroom : q.cachedBufferMap.size < q.size) (hsize : q'.size = q.size)
      (hq : Becomes q q'
        (q.cachedBufferMap.insert buffer.uniqueId { config, state := st, buffer := some buffer })
        q.freeBufferList q.dirtyBufferList) : Moved q q' (.add buffer st)
  | push {id : UInt64} {ele : AVBufferElement} (hele : q.cachedBufferMap[id]? = some ele)
      (hst : ele.state = .requested ∨ ele.state = .attached) (hmark : ele.isDeleting = false)
      (hsize : q'.size = q.size)
      (hq : Becomes q q' (q.cachedBufferMap.insert id { ele with state := .pushed })
        q.freeBufferList q.dirtyBufferList) : Moved q q' (.push id)
  | free {id : UInt64} {ele : AVBufferElement} {l₁ l₂ : List UInt64}
      (hele : q.cachedBufferMap[id]? = some ele) (hst : ¬ ele.state.listed)
      (hmark : ele.isDeleting = false) (hfree : q.freeBufferList = l₁ ++ l₂)
      (hsize : q'.size = q.size)
      (hq : Becomes q q' (q.cachedBufferMap.insert id { ele with state := .released })
        (l₁ ++ id :: l₂) q.dirtyBufferList) : Moved q q' (.free id)
  | append {buffer : AVBufferRef} {ele : AVBufferElement} {config : AVBufferConfig}
      (hele : q.cachedBufferMap[buffer.uniqueId]? = some ele) (hst : ele.state = .pushed)
      (hmark : ele.isDeleting = false) (hbuf : ele.buffer = some buffer)
      (hsize : q'.size = q.size)
      (hq : Becomes q q'
        (q.cachedBufferMap.insert buffer.uniqueId { ele with config, state := .returned })
        q.freeBufferList (q.dirtyBufferList ++ [buffer.uniqueId])) : Moved q q' (.append buffer)
  | acquire {buffer : AVBufferRef} {ele : AVBufferElement} {rest : List UInt64}
      (hdirty : q.dirtyBufferList = buffer.uniqueId :: rest)
      (hele : q.cachedBufferMap[buffer.uniqueId]? = some ele) (hbuf : ele.buffer = some buffer)
      (hsize : q'.size = q.size)
      (hq : Becomes q q' (q.cachedBufferMap.insert buffer.uniqueId { ele with state := .acquired })
        q.freeBufferList rest) : Moved q q' (.acquire buffer)
  | erase {id : UInt64} {ele : AVBufferElement} (hele : q.cachedBufferMap[id]? = some ele)
      (hst : ¬ ele.state.listed) (hsize : q'.size = q.size)
      (hq : Becomes q q' (q.cachedBufferMap.erase id) q.freeBufferList q.dirtyBufferList) :
      Moved q q' (.erase id)
  | deleteBuffers {count : Nat} (hsize : q'.size = q.size)
      (hq : Becomes q q' ((q.markedIds count).foldl markElement (q.mapAfterDelete count))
        (q.freeBufferList.drop count)
        (q.dirtyBufferList.drop (count - q.freeBufferList.length))) :
      Moved q q' (.deleteBuffers count)
  | resize {size : Nat} (hsize : q'.size = size)
      (hq : Becomes q q' q.cachedBufferMap q.freeBufferList q.dirtyBufferList) :
      Moved q q' (.resize size)
  | clear {free : List UInt64} {map : ExtTreeMap UInt64 AVBufferElement}
      (hmap : ∀ k : UInt64, map[k]? = q.cachedBufferMap[k]?.map AVBufferElement.cleared)
      (hnodup : free.Nodup)
      (hfree : ∀ k : UInt64, k ∈ free ↔
        ∃ ele : AVBufferElement, map[k]? = some ele ∧ ele.state = .released)
      (hsize : q'.size = q.size) (hq : Becomes q q' map free []) : Moved q q' .clear
  | clearIf {pred : Option AVBufferRef → Bool} {free : List UInt64}
      {map : ExtTreeMap UInt64 AVBufferElement}
      (hmap : ∀ k : UInt64, map[k]? = q.cachedBufferMap[k]?.map fun ele =>
        if k ∈ q.dirtyBufferList ∧ pred ele.buffer then { ele with state := .released } else ele)
      (hnodup : free.Nodup)
      (hfree : ∀ k : UInt64, k ∈ free ↔
        ∃ ele : AVBufferElement, map[k]? = some ele ∧ ele.state = .released)
      (hsize : q'.size = q.size)
      (hq : Becomes q q' map free
        (q.dirtyBufferList.filter fun k => !pred (q.element k).buffer)) :
      Moved q q' (.clearIf pred)

def Moves (q : AVBufferQueueImpl) : List Move → AVBufferQueueImpl → Prop
  | [], q' => q' = q
  | m :: ms, q' => ∃ u, Moved q u m ∧ Moves u ms q'

theorem Moves.single {m : Move} (h : Moved q q' m) : Moves q [m] q' := ⟨q', h, rfl⟩

theorem Moves.of_single {m : Move} (h : Moves q [m] q') : Moved q q' m := by
  obtain ⟨u, hm, rfl⟩ := h
  exact hm

/-! ## The moves keep the representation invariant -/

theorem RepInv.lookup_of_free (h : RepInv q) (hid : id ∈ q.freeBufferList) :
    ∃ ele buffer, q.cachedBufferMap[id]? = some ele ∧ ele.state = .released ∧
      ele.buffer = some buffer ∧ buffer.uniqueId = id := by
  obtain ⟨ele, hele, hst⟩ := stateOf_eq_some.mp ((h.free_iff id).mp hid)
  obtain ⟨buffer, hbuf, hkey⟩ := h.keyed id ele hele
  exact ⟨ele, buffer, hele, hst, hbuf, hkey⟩

theorem RepInv.lookup_of_dirty (h : RepInv q) (hid : id ∈ q.dirtyBufferList) :
    ∃ ele buffer, q.cachedBufferMap[id]? = some ele ∧ ele.state = .returned ∧
      ele.buffer = some buffer ∧ buffer.uniqueId = id := by
  obtain ⟨ele, hele, hst⟩ := stateOf_eq_some.mp ((h.dirty_iff id).mp hid)
  obtain ⟨buffer, hbuf, hkey⟩ := h.keyed id ele hele
  exact ⟨ele, buffer, hele, hst, hbuf, hkey⟩

theorem RepInv.free_mem (h : RepInv q) : ∀ k ∈ q.freeBufferList, k ∈ q.cachedBufferMap :=
  fun _ hk => by
    obtain ⟨ele, _, hele, _⟩ := h.lookup_of_free hk
    exact mem_of_lookup hele

theorem mapAfterDelete_lookup (q : AVBufferQueueImpl) (count : Nat) (k : UInt64) :
    (q.mapAfterDelete count)[k]? =
      if k ∈ q.deletedIds count then none else q.cachedBufferMap[k]? :=
  TreeMap.getElem?_foldl_erase _ _ _

theorem mem_deletedIds (q : AVBufferQueueImpl) (count : Nat) (k : UInt64) :
    k ∈ q.deletedIds count ↔ k ∈ q.freeBufferList.take count ∨
      k ∈ q.dirtyBufferList.take (count - q.freeBufferList.length) :=
  List.mem_append

theorem deleteBuffers_lookup (q : AVBufferQueueImpl) (count : Nat) (k : UInt64) :
    ((q.markedIds count).foldl markElement (q.mapAfterDelete count))[k]? =
      if k ∈ q.deletedIds count then none
      else if k ∈ q.markedIds count then q.cachedBufferMap[k]?.map AVBufferElement.marked
      else q.cachedBufferMap[k]? := by
  rw [markElements_lookup, mapAfterDelete_lookup]
  grind

theorem mem_drop_iff {l : List UInt64} (hl : l.Nodup) {n : Nat} {k : UInt64} :
    k ∈ l.drop n ↔ k ∈ l ∧ k ∉ l.take n := by
  rw [← List.take_append_drop n l, List.nodup_append] at hl
  constructor
  · intro hk
    exact ⟨List.mem_of_mem_drop hk, fun hk' => hl.2.2 k hk' k hk rfl⟩
  · rintro ⟨hk, hk'⟩
    rw [← List.take_append_drop n l, List.mem_append] at hk
    exact hk.resolve_left hk'

private theorem RepInv.of_becomes {map : ExtTreeMap UInt64 AVBufferElement}
    {free dirty : List UInt64} (hq : Becomes q q' map free dirty) (h : RepInv q)
    (hfree : free.Nodup) (hdirty : dirty.Nodup)
    (hfiled : ∀ k : UInt64, (k ∈ free ↔ map[k]?.map AVBufferElement.state = some .released) ∧
      (k ∈ dirty ↔ map[k]?.map AVBufferElement.state = some .returned) ∧
      ∀ ele : AVBufferElement, map[k]? = some ele →
        ∃ buffer : AVBufferRef, ele.buffer = some buffer ∧ buffer.uniqueId = k) : RepInv q' where
  free_nodup := hq.free_eq ▸ hfree
  free_iff k := by rw [hq.free_eq, stateOf, hq.map_eq]; exact (hfiled k).1
  dirty_nodup := hq.dirty_eq ▸ hdirty
  dirty_iff k := by rw [hq.dirty_eq, stateOf, hq.map_eq]; exact (hfiled k).2.1
  keyed k ele hele := (hfiled k).2.2 ele (hq.map_eq ▸ hele)
  lookups := by rw [hq.lookups_eq, h.lookups]

/-- **Every move keeps the representation invariant.** -/
theorem Moved.repInv {m : Move} (hm : Moved q q' m) (h : RepInv q) : RepInv q' := by
  have hfree := h.free_iff
  have hdirty := h.dirty_iff
  have hkeyed := h.keyed
  have hfn := h.free_nodup
  have hdn := h.dirty_nodup
  simp only [stateOf] at hfree hdirty
  cases hm with
  | quiet hsize hq => exact .of_becomes hq h hfn hdn fun k => ⟨hfree k, hdirty k, hkeyed k⟩
  | resize hsize hq => exact .of_becomes hq h hfn hdn fun k => ⟨hfree k, hdirty k, hkeyed k⟩
  | request hmem hele hbuf hsize hq =>
    refine .of_becomes hq h (hfn.erase _) hdn fun k => ?_
    rw [hfn.mem_erase_iff, hfree, hdirty, ExtTreeMap.getElem?_insert]
    grind
  | realloc hmem hnew hsize hq =>
    refine .of_becomes hq h (hfn.erase _) hdn fun k => ?_
    rw [hfn.mem_erase_iff, hfree, hdirty, ExtTreeMap.getElem?_insert, ExtTreeMap.getElem?_erase]
    grind
  | dropFree hmem hsize hq =>
    refine .of_becomes hq h (hfn.erase _) hdn fun k => ?_
    rw [hfn.mem_erase_iff, hfree, hdirty, ExtTreeMap.getElem?_erase]
    grind
  | add hnew hst hroom hsize hq | push hele hst hmark hsize hq =>
    refine .of_becomes hq h hfn hdn fun k => ?_
    rw [hfree, hdirty, ExtTreeMap.getElem?_insert]
    grind
  | free hele hst hmark hl hsize hq =>
    have hnew : _ ∉ q.freeBufferList := fun hmem => by
      rw [hfree, hele] at hmem
      exact hst (.inl (by simpa using hmem))
    rw [hl] at hfn hnew
    refine .of_becomes hq h (by grind) hdn fun k => ?_
    have := hfree k
    rw [hdirty, ExtTreeMap.getElem?_insert]
    rw [hl] at this
    grind [AVBufferState.listed]
  | append hele hst hmark hbuf hsize hq =>
    have hnew : _ ∉ q.dirtyBufferList := fun hmem => by
      rw [hdirty, hele] at hmem
      simp [hst] at hmem
    refine .of_becomes hq h hfn (by grind) fun k => ?_
    rw [hfree, List.mem_append, hdirty, ExtTreeMap.getElem?_insert]
    grind
  | acquire hl hele hbuf hsize hq =>
    rw [hl] at hdn
    refine .of_becomes hq h hfn hdn.of_cons fun k => ?_
    have := hdirty k
    rw [hfree, ExtTreeMap.getElem?_insert]
    grind
  | erase hele hst hsize hq =>
    refine .of_becomes hq h hfn hdn fun k => ?_
    rw [hfree, hdirty, ExtTreeMap.getElem?_erase]
    grind [AVBufferState.listed]
  | @deleteBuffers count hsize hq =>
    refine .of_becomes hq h (hfn.sublist (List.drop_sublist ..))
      (hdn.sublist (List.drop_sublist ..)) fun k => ⟨?_, ?_, ?_⟩
    · have := mem_deletedIds q count k
      have := hdirty k
      rw [mem_drop_iff hfn, deleteBuffers_lookup]
      grind [AVBufferElement.marked, List.mem_of_mem_take]
    · have := mem_deletedIds q count k
      have := hfree k
      rw [mem_drop_iff hdn, deleteBuffers_lookup]
      grind [AVBufferElement.marked, List.mem_of_mem_take]
    · intro ele
      have := hkeyed k
      rw [deleteBuffers_lookup]
      grind [AVBufferElement.marked]
  | clear hmap hnodup hmem hsize hq =>
    refine .of_becomes hq h hnodup .nil fun k => ⟨?_, ?_, ?_⟩
    · rw [hmem]
      simp
    · rw [hmap]
      grind [AVBufferElement.cleared]
    · intro ele
      rw [hmap]
      grind [AVBufferElement.cleared]
  | clearIf hmap hnodup hmem hsize hq =>
    refine .of_becomes hq h hnodup (hdn.filter _) fun k => ⟨?_, ?_, ?_⟩
    · rw [hmem]
      simp
    · rw [hmap, List.mem_filter]
      have := hdirty k
      grind [element]
    · intro ele
      rw [hmap]
      grind

theorem Moves.repInv {ms : List Move} : Moves q ms q' → RepInv q → RepInv q' := by
  induction ms generalizing q with
  | nil => rintro rfl h; exact h
  | cons m ms ih =>
    rintro ⟨u, hm, hms⟩ h
    exact ih hms (hm.repInv h)

/-! ## The moves of each block -/

/-- `CreateAVBuffer` gives its buffer an id that is not cached. -/
def Fresh (q : AVBufferQueueImpl) (env : Env) : Prop :=
  ∀ buffer ∈ env.created, buffer.uniqueId ∉ q.cachedBufferMap

instance (env : Env) : Decidable (Fresh q env) :=
  Option.decidableForallMem env.created

theorem popFromFreeBufferList_cases (h : RepInv q) (config : AVBufferConfig) :
    (q.freeBufferList = [] ∧ q.popFromFreeBufferList config = (q, none)) ∨
    ∃ ele buffer, buffer.uniqueId ∈ q.freeBufferList ∧
      q.cachedBufferMap[buffer.uniqueId]? = some ele ∧ ele.buffer = some buffer ∧
      q.popFromFreeBufferList config =
        ({ q with freeBufferList := q.freeBufferList.erase buffer.uniqueId },
          some (some buffer)) := by
  simp only [popFromFreeBufferList, findFree_eq h.free_mem]
  cases hfind : q.freeBufferList.find? fun k => config.le (q.element k).config with
  | some it =>
    have hit : it ∈ q.freeBufferList := List.mem_of_find?_eq_some hfind
    obtain ⟨ele, buffer, hele, -, hbuf, rfl⟩ := h.lookup_of_free hit
    exact .inr ⟨ele, buffer, hit, hele, hbuf, by simp [element_of_lookup hele, hbuf]⟩
  | none =>
    simp only
    split
    next hl => exact .inl ⟨hl, rfl⟩
    next front rest hl =>
      obtain ⟨ele, buffer, hele, -, hbuf, rfl⟩ :=
        h.lookup_of_free (by rw [hl]; exact List.mem_cons_self ..)
      refine .inr ⟨ele, buffer, by rw [hl]; exact List.mem_cons_self .., hele, hbuf, ?_⟩
      rw [touch_of_mem (mem_of_lookup hele), element_of_lookup hele, hbuf, hl,
        List.erase_cons_head]

inductive RequestMove : Move → Option (Except Status AVBufferRef) → Prop where
  | request (buffer : AVBufferRef) :
      RequestMove (.request buffer) (some (.ok buffer))
  | realloc (id : UInt64) (buffer : AVBufferRef) :
      RequestMove (.realloc id buffer) (some (.ok buffer))
  | add (buffer : AVBufferRef) : RequestMove (.add buffer .requested) (some (.ok buffer))
  | dropFree (id : UInt64) (status : Status) : RequestMove (.dropFree id) (some (.error status))
  | failed (status : Status) : RequestMove .quiet (some (.error status))
  | waits : RequestMove .quiet none

theorem allocBuffer_move {env : Env} (hfresh : Fresh q env)
    (hroom : q.cachedBufferMap.size < q.size) :
    ∃ m, Moved q (q.allocBuffer env).1 m ∧ RequestMove m (some (q.allocBuffer env).2) := by
  unfold allocBuffer
  cases hc : env.created with
  | none => exact ⟨_, .quiet rfl ⟨rfl, rfl, rfl, rfl⟩, .failed _⟩
  | some buffer =>
    exact ⟨_, .add (hfresh buffer hc) (.inl rfl) hroom (addElement_size ..)
      (addElement_becomes ..), .add buffer⟩

theorem requestReuseBuffer_move {env : Env} (hfresh : Fresh q env) {buffer : AVBufferRef}
    {ele : AVBufferElement} (hmem : buffer.uniqueId ∈ q.freeBufferList)
    (hele : q.cachedBufferMap[buffer.uniqueId]? = some ele) (hbuf : ele.buffer = some buffer)
    (config : AVBufferConfig) {r : AVBufferQueueImpl × Except Status AVBufferRef}
    (hr : { q with freeBufferList := q.freeBufferList.erase buffer.uniqueId }.requestReuseBuffer
      env (some buffer) config = r) :
    ∃ m, Moved q r.1 m ∧ RequestMove m (some r.2) := by
  subst hr
  simp only [requestReuseBuffer, hele]
  split
  · exact ⟨_, .request hmem hele hbuf rfl ⟨rfl, rfl, rfl, rfl⟩, .request buffer⟩
  · obtain ⟨m, hm⟩ := deleteCachedBufferById_eq
      { q with freeBufferList := q.freeBufferList.erase buffer.uniqueId } buffer.uniqueId
    rw [hm]
    unfold allocBuffer
    cases hc : env.created with
    | none => exact ⟨_, .dropFree hmem rfl ⟨rfl, rfl, rfl, rfl⟩, .dropFree _ _⟩
    | some new =>
      exact ⟨_, .realloc hmem (hfresh new hc) (addElement_size ..)
        ((addElement_becomes ..).trans_lookups rfl), .realloc buffer.uniqueId new⟩

theorem requestAfterWait_move (h : RepInv q) {env : Env} (hfresh : Fresh q env)
    (config : AVBufferConfig) :
    ∃ m, Moved q (q.requestAfterWait env config).1 m ∧
      RequestMove m (some (q.requestAfterWait env config).2) := by
  unfold requestAfterWait
  rcases popFromFreeBufferList_cases h config with ⟨-, hpop⟩ | ⟨ele, buffer, hmem, hele, hbuf, hpop⟩
  · simp only [hpop]
    split
    · exact ⟨_, .quiet rfl ⟨rfl, rfl, rfl, rfl⟩, .failed _⟩
    next hroom => exact allocBuffer_move hfresh (Nat.lt_of_not_le hroom)
  · simp only [hpop]
    exact requestReuseBuffer_move hfresh hmem hele hbuf config rfl

theorem Moved.of_memoryType {t : MemoryType} {m : Move}
    (hm : Moved { q with memoryType := t } q' m) : Moved q q' m := by
  have hq : ∀ {map free dirty}, Becomes { q with memoryType := t } q' map free dirty →
      Becomes q q' map free dirty := fun hq => hq.trans_lookups rfl
  cases hm with
  | quiet hsize h => exact .quiet hsize (hq h)
  | request hmem hele hbuf hsize h => exact .request hmem hele hbuf hsize (hq h)
  | realloc hmem hnew hsize h => exact .realloc hmem hnew hsize (hq h)
  | dropFree hmem hsize h => exact .dropFree hmem hsize (hq h)
  | add hnew hst hroom hsize h => exact .add hnew hst hroom hsize (hq h)
  | push hele hst hmark hsize h => exact .push hele hst hmark hsize (hq h)
  | free hele hst hmark hl hsize h => exact .free hele hst hmark hl hsize (hq h)
  | append hele hst hmark hbuf hsize h => exact .append hele hst hmark hbuf hsize (hq h)
  | acquire hl hele hbuf hsize h => exact .acquire hl hele hbuf hsize (hq h)
  | erase hele hst hsize h => exact .erase hele hst hsize (hq h)
  | deleteBuffers hsize h => exact .deleteBuffers hsize (hq h)
  | resize hsize h => exact .resize hsize (hq h)
  | clear hmap hnodup hmem hsize h => exact .clear hmap hnodup hmem hsize (hq h)
  | clearIf hmap hnodup hmem hsize h => exact .clearIf hmap hnodup hmem hsize (hq h)

theorem checkConfig_eq {config : AVBufferConfig} (h : q.checkConfig config = some q') :
    q' = { q with memoryType := config.memoryType } := by
  unfold checkConfig at h
  split at h
  · cases h
  · split at h
    · cases h
    · exact (Option.some.inj h).symm

theorem RepInv.of_memoryType {t : MemoryType} (h : RepInv q) :
    RepInv { q with memoryType := t } :=
  ⟨h.free_nodup, h.free_iff, h.dirty_nodup, h.dirty_iff, h.keyed, h.lookups⟩

theorem requestBufferWaitUs_move (h : RepInv q) {env : Env} (hfresh : Fresh q env)
    (config : AVBufferConfig) (timeoutUs : Int64) :
    ∃ m, Moved q (q.requestBufferWaitUs env config timeoutUs).1 m ∧
      RequestMove m (q.requestBufferWaitUs env config timeoutUs).2 := by
  unfold requestBufferWaitUs
  cases hcheck : q.checkConfig config with
  | none => exact ⟨_, .quiet rfl ⟨rfl, rfl, rfl, rfl⟩, .failed _⟩
  | some u =>
    obtain rfl := checkConfig_eq hcheck
    have hu : RepInv { q with memoryType := config.memoryType } := h.of_memoryType
    have hfreshu : Fresh { q with memoryType := config.memoryType } env := hfresh
    rcases popFromFreeBufferList_cases hu config with
      ⟨-, hpop⟩ | ⟨ele, buffer, hmem, hele, hbuf, hpop⟩
    · simp only [hpop]
      split
      · split
        · obtain ⟨m, hm, hr⟩ := requestAfterWait_move hu hfreshu config
          exact ⟨m, hm.of_memoryType, hr⟩
        · exact ⟨_, .quiet rfl ⟨rfl, rfl, rfl, rfl⟩, .waits⟩
      next hroom =>
        obtain ⟨m, hm, hr⟩ := allocBuffer_move hfreshu (Nat.lt_of_not_le hroom)
        exact ⟨m, hm.of_memoryType, hr⟩
    · simp only [hpop]
      obtain ⟨m, hm, hr⟩ := requestReuseBuffer_move hfreshu hmem hele hbuf config rfl
      exact ⟨m, hm.of_memoryType, hr⟩

theorem requestBufferResume_move (h : RepInv q) {env : Env} (hfresh : Fresh q env)
    (config : AVBufferConfig) (timeoutUs : Int64) (timedOut : Bool) :
    ∃ m, Moved q (q.requestBufferResume env config timeoutUs timedOut).1 m ∧
      RequestMove m (q.requestBufferResume env config timeoutUs timedOut).2 := by
  unfold requestBufferResume
  split
  · split
    · exact ⟨_, .quiet rfl ⟨rfl, rfl, rfl, rfl⟩, .failed _⟩
    · exact ⟨_, .quiet rfl ⟨rfl, rfl, rfl, rfl⟩, .waits⟩
  · exact requestAfterWait_move h hfresh config

def MarkedUnlisted (q : AVBufferQueueImpl) (id : UInt64) : Prop :=
  ∀ ele ∈ q.cachedBufferMap[id]?, ele.isDeleting = true → ¬ ele.state.listed

def Unlisted (q : AVBufferQueueImpl) (id : UInt64) : Prop :=
  ∀ ele ∈ q.cachedBufferMap[id]?, ¬ ele.state.listed

instance : Decidable (Unlisted q id) := Option.decidableForallMem q.cachedBufferMap[id]?

instance : Decidable (MarkedUnlisted q id) :=
  Option.decidableForallMem q.cachedBufferMap[id]?

inductive PushMove (id : UInt64) : Move → PushOutcome → Prop where
  | failed (status : Status) : PushMove id .quiet (.failed status)
  | deleted : PushMove id (.erase id) .deleted
  | pushed {buffer : AVBufferRef} (hkey : buffer.uniqueId = id) :
      PushMove id (.push id) (.pushed (some buffer))

theorem pushBuffer_move (h : RepInv q) (hmarked : MarkedUnlisted q id) (env : Env)
    (available : Bool) :
    ∃ r m, q.pushBuffer env id available = some r ∧ Moved q r.1 m ∧ PushMove id m r.2 := by
  unfold pushBuffer
  split
  · exact ⟨_, _, rfl, .quiet rfl ⟨rfl, rfl, rfl, rfl⟩, .failed _⟩
  next ele hele =>
    obtain ⟨buffer, hbuf, hkey⟩ := h.keyed id ele hele
    by_cases hdel : ele.isDeleting = true
    · rw [if_pos hdel]
      exact ⟨_, _, rfl, .erase hele (hmarked ele hele hdel) (deleteCachedBufferById_size ..)
        (deleteCachedBufferById_becomes ..), .deleted⟩
    have hpush : ∃ r m, some (q.pushElement id ele) = some r ∧ Moved q r.1 m ∧
        PushMove id m r.2 := by
      unfold pushElement
      split
      next hst =>
        exact ⟨_, _, rfl, .push hele hst (by simpa using hdel) rfl ⟨rfl, rfl, rfl, rfl⟩,
          by rw [hbuf]; exact .pushed hkey⟩
      · exact ⟨_, _, rfl, .quiet rfl ⟨rfl, rfl, rfl, rfl⟩, .failed _⟩
    rw [if_neg hdel]
    split
    · simp only [hbuf]
      split
      · exact ⟨_, _, rfl, .quiet rfl ⟨rfl, rfl, rfl, rfl⟩, .failed _⟩
      · exact hpush
    · exact hpush

theorem free_moved (h : RepInv q) {ele : AVBufferElement}
    (hele : q.cachedBufferMap[id]? = some ele) (hst : ¬ ele.state.listed)
    (hmark : ele.isDeleting = false) (n : Nat) :
    Moved q { (q.setElement id { ele with state := .released }).insertFreeBufferInOrder id with
      notified := n } (.free id) ∧
    Moved q { (q.insertFreeBufferInOrder id).setElement id
      { (q.insertFreeBufferInOrder id).element id with state := .released } with
      notified := n } (.free id) := by
  have hid := mem_of_lookup hele
  constructor
  · obtain ⟨l₁, l₂, hl, heq⟩ := @insertFreeBufferInOrder_eq
      (q.setElement id { ele with state := .released }) id
      (by simp [setElement]) fun k hk => by
        simp only [setElement, ExtTreeMap.mem_insert]
        exact .inr (h.free_mem k hk)
    rw [heq]
    exact .free hele hst hmark hl rfl ⟨rfl, rfl, rfl, rfl⟩
  · obtain ⟨l₁, l₂, hl, heq⟩ := insertFreeBufferInOrder_eq hid h.free_mem
    have hele' : { q with freeBufferList := l₁ ++ id :: l₂ }.element id = ele :=
      element_of_lookup hele
    rw [heq, hele']
    exact .free hele hst hmark hl rfl ⟨rfl, rfl, rfl, rfl⟩

theorem cancelBuffer_move (h : RepInv q) {ele : AVBufferElement}
    (hele : q.cachedBufferMap[id]? = some ele) (hst : ele.state = .pushed)
    (hmark : ele.isDeleting = false) :
    ∃ u, q.cancelBuffer id = (u, .ok) ∧ Moved q u (.free id) := by
  simp only [cancelBuffer, hele, hst, or_true, if_true]
  exact ⟨_, rfl, (free_moved h hele (by simp [hst, AVBufferState.listed]) hmark _).2⟩

inductive ReturnMove (id : UInt64) : Move → ReturnOutcome → Prop where
  | failed (status : Status) : ReturnMove id .quiet (.failed status)
  | deleted : ReturnMove id (.erase id) .deleted
  | cancelled : ReturnMove id (.free id) .cancelled
  | appended {buffer : AVBufferRef} (hkey : buffer.uniqueId = id) :
      ReturnMove id (.append buffer) (.appended buffer)

theorem returnBuffer_move (h : RepInv q) (hmarked : MarkedUnlisted q id) (env : Env)
    (available : Bool) :
    ∃ r m, q.returnBuffer env id available = some r ∧ Moved q r.1 m ∧ ReturnMove id m r.2 := by
  unfold returnBuffer
  split
  · exact ⟨_, _, rfl, .quiet rfl ⟨rfl, rfl, rfl, rfl⟩, .failed _⟩
  next ele hele =>
    obtain ⟨buffer, hbuf, rfl⟩ := h.keyed id ele hele
    split
    next hdel =>
      exact ⟨_, _, rfl, .erase hele (hmarked ele hele hdel) (deleteCachedBufferById_size ..)
        (deleteCachedBufferById_becomes ..), .deleted⟩
    next hdel =>
      have hmark : ele.isDeleting = false := by simpa using hdel
      split
      · exact ⟨_, _, rfl, .quiet rfl ⟨rfl, rfl, rfl, rfl⟩, .failed _⟩
      next hst =>
        have hst : ele.state = .pushed := by simpa using hst
        split
        · obtain ⟨u, hu, hm⟩ := cancelBuffer_move h hele hst hmark
          simp only [hu]
          exact ⟨_, _, rfl, hm, .cancelled⟩
        · split
          next hnone => simp [hbuf] at hnone
          next b hb =>
            obtain rfl : buffer = b := Option.some.inj (hbuf.symm.trans hb)
            simp only
            split
            · exact ⟨_, _, rfl, .quiet rfl ⟨rfl, rfl, rfl, rfl⟩, .failed _⟩
            · exact ⟨_, _, rfl, .append hele hst hmark hbuf rfl ⟨rfl, rfl, rfl, rfl⟩,
                .appended rfl⟩

inductive ReleaseMove (id : UInt64) : Move → ReleaseOutcome → Prop where
  | failed (status : Status) : ReleaseMove id .quiet (.failed status)
  | deleted : ReleaseMove id (.erase id) .deleted
  | released : ReleaseMove id (.free id) .released

theorem releaseBuffer_move (h : RepInv q) (id : UInt64) :
    ∃ m, Moved q (q.releaseBuffer id).1 m ∧ ReleaseMove id m (q.releaseBuffer id).2 := by
  unfold releaseBuffer
  split
  · exact ⟨_, .quiet rfl ⟨rfl, rfl, rfl, rfl⟩, .failed _⟩
  next ele hele =>
    split
    next hst =>
      have hst : ¬ ele.state.listed := by rcases hst with hst | hst <;>
        simp [hst, AVBufferState.listed]
      split
      next hdel =>
        have hq := deleteCachedBufferById_becomes
          (q.setElement id { ele with state := .released }) id
        rw [setElement_erase] at hq
        exact ⟨_, .erase hele hst (deleteCachedBufferById_size ..) (hq.trans_lookups rfl), .deleted⟩
      next hdel =>
        exact ⟨_, (free_moved h hele hst (by simpa using hdel) _).1, .released⟩
    · exact ⟨_, .quiet rfl ⟨rfl, rfl, rfl, rfl⟩, .failed _⟩

theorem detachBuffer_move (q : AVBufferQueueImpl) (id : UInt64) :
    ∃ m, Moved q (q.detachBuffer id false).1 m ∧
      ((m = .quiet ∧ (q.detachBuffer id false).2 ≠ .ok) ∨
        (m = .erase id ∧ (q.detachBuffer id false).2 = .ok)) := by
  unfold detachBuffer
  split
  · exact ⟨_, .quiet rfl ⟨rfl, rfl, rfl, rfl⟩, .inl ⟨rfl, by simp⟩⟩
  next ele hele =>
    split
    · exact ⟨_, .quiet rfl ⟨rfl, rfl, rfl, rfl⟩, .inl ⟨rfl, by simp⟩⟩
    next hst =>
      have hst : ele.state = .requested ∨ ele.state = .acquired := by simpa [or_iff_not_imp_left] using hst
      obtain ⟨m, hm⟩ := totalMemoryCalculation_eq (q := q) false ele.config.capacity
      refine ⟨_, .erase hele ?_ ?_ ?_, .inr ⟨rfl, rfl⟩⟩
      · rcases hst with hst | hst <;> simp [hst, AVBufferState.listed]
      · simp only [hm, eraseElement]
      · simp only [hm, eraseElement]
        exact ⟨rfl, rfl, rfl, rfl⟩

theorem forcedDetach_move (hunlisted : Unlisted q id) :
    ∃ m, Moved q (q.detachBuffer id true).1 m ∧ (m = .quiet ∨ m = .erase id) := by
  unfold detachBuffer
  split
  · exact ⟨_, .quiet rfl ⟨rfl, rfl, rfl, rfl⟩, .inl rfl⟩
  next ele hele =>
    obtain ⟨m, hm⟩ := totalMemoryCalculation_eq (q := q) false ele.config.capacity
    simp only [not_true_eq_false, false_and, if_false, hm, eraseElement]
    exact ⟨_, .erase hele (hunlisted ele hele) rfl ⟨rfl, rfl, rfl, rfl⟩, .inr rfl⟩

theorem acquireBuffer_move (h : RepInv q) :
    (q.dirtyBufferList = [] ∧ q.acquireBuffer = some (q, .error .errorNoDirtyBuffer)) ∨
    ∃ u buffer, q.acquireBuffer = some (u, .ok buffer) ∧ Moved q u (.acquire buffer) := by
  unfold acquireBuffer popFromDirtyBufferList
  cases hl : q.dirtyBufferList with
  | nil => exact .inl ⟨rfl, rfl⟩
  | cons front rest =>
    obtain ⟨ele, buffer, hele, -, hbuf, rfl⟩ :=
      h.lookup_of_dirty (by rw [hl]; exact List.mem_cons_self ..)
    refine .inr ⟨{ q.setElement buffer.uniqueId { ele with state := .acquired } with
      dirtyBufferList := rest }, buffer, ?_, .acquire hl hele hbuf rfl ⟨rfl, rfl, rfl, rfl⟩⟩
    have hid : buffer.uniqueId ∈ q.cachedBufferMap := mem_of_lookup hele
    simp only [touch_of_mem hid, element_of_lookup hele, hbuf]
    rw [touch_of_mem (by exact hid), element_of_lookup (by exact hele)]
    simp only [setElement, hbuf]

/-! ### Resizing and attaching -/

theorem Moves.append {ms ms' : List Move} {u : AVBufferQueueImpl} :
    Moves q ms u → Moves u ms' q' → Moves q (ms ++ ms') q' := by
  induction ms generalizing q with
  | nil => rintro rfl h; exact h
  | cons m ms ih =>
    rintro ⟨v, hm, hms⟩ h
    exact ⟨v, hm, ih hms h⟩

theorem deleteBuffers_moved (q : AVBufferQueueImpl) (count : Nat) :
    Moved q (q.deleteBuffers count) (.deleteBuffers count) := by
  obtain ⟨m, hm⟩ := deleteBuffers_eq q count
  rw [hm]
  exact .deleteBuffers rfl ⟨rfl, rfl, rfl, rfl⟩

def resizeMoves (q : AVBufferQueueImpl) (size : Nat) : List Move :=
  if q.size < size then [.resize size] else [.deleteBuffers (q.size - size), .resize size]

theorem resizeLocked_moves (q : AVBufferQueueImpl) (size : Nat) :
    Moves q (q.resizeMoves size) (q.resizeLocked size) := by
  unfold resizeMoves resizeLocked
  split
  · refine .single ?_
    simp only
    split <;> exact .resize rfl ⟨rfl, rfl, rfl, rfl⟩
  · exact ⟨_, deleteBuffers_moved q _, .single (.resize rfl ⟨rfl, rfl, rfl, rfl⟩)⟩

theorem setLargerQueueSizeLocked_moves (q : AVBufferQueueImpl) (size : Nat) :
    ∃ ms, Moves q ms (q.setLargerQueueSizeLocked size).1 ∧ (ms = [] ∨ ms = q.resizeMoves size) := by
  unfold setLargerQueueSizeLocked
  split
  · exact ⟨_, resizeLocked_moves q size, .inr rfl⟩
  · exact ⟨[], rfl, .inl rfl⟩

theorem setQueueSize_moves (q : AVBufferQueueImpl) (size : Nat) :
    ∃ ms, Moves q ms (q.setQueueSize size).1 ∧ (ms = [] ∨ ms = q.resizeMoves size) := by
  unfold setQueueSize
  split
  · exact setLargerQueueSizeLocked_moves q size
  · exact ⟨[], rfl, .inl rfl⟩

theorem RepInv.deletedIds_nodup (h : RepInv q) (count : Nat) : (q.deletedIds count).Nodup := by
  refine List.nodup_append.mpr ⟨h.free_nodup.sublist (List.take_sublist ..),
    h.dirty_nodup.sublist (List.take_sublist ..), ?_⟩
  rintro k hk _ hk' rfl
  have hfree := (h.free_iff k).mp (List.mem_of_mem_take hk)
  have hdirty := (h.dirty_iff k).mp (List.mem_of_mem_take hk')
  rw [hfree] at hdirty
  cases hdirty

theorem RepInv.deletedIds_mem (h : RepInv q) {count : Nat} :
    ∀ k ∈ q.deletedIds count, k ∈ q.cachedBufferMap := by
  intro k hk
  rcases (mem_deletedIds q _ k).mp hk with hk | hk
  · exact h.free_mem k (List.mem_of_mem_take hk)
  · obtain ⟨ele, _, hele, _⟩ := h.lookup_of_dirty (List.mem_of_mem_take hk)
    exact mem_of_lookup hele

theorem length_deletedIds (q : AVBufferQueueImpl) (count : Nat) :
    (q.deletedIds count).length + q.markCount count = count := by
  simp only [deletedIds, markCount, List.length_append, List.length_take]
  omega

theorem deleteBuffers_map_size (h : RepInv q) (count : Nat) :
    (q.deleteBuffers count).cachedBufferMap.size + count =
      q.cachedBufferMap.size + q.markCount count := by
  obtain ⟨m, hm⟩ := deleteBuffers_eq q count
  rw [hm]
  have := TreeMap.size_foldl_erase (h.deletedIds_nodup count) h.deletedIds_mem
  have := length_deletedIds q count
  simp only [markElements_size, mapAfterDelete]
  omega

/-- The moves of `AttachBuffer`: a full queue first deletes listed buffers,
and marks none, to make room. -/
inductive AttachMoves (q : AVBufferQueueImpl) (buffer : AVBufferRef) :
    List Move → Status → Prop where
  | failed {status : Status} (hst : status ≠ .ok) : AttachMoves q buffer [.quiet] status
  | added : AttachMoves q buffer [.add buffer .attached] .ok
  | replaced {count : Nat} (hcount : q.markCount count = 0) :
      AttachMoves q buffer [.deleteBuffers count, .add buffer .attached] .ok

def Move.trims : Move → Bool
  | .quiet | .resize _ | .add .. | .deleteBuffers _ => true
  | _ => false

theorem trims_of_mem_resizeMoves {size : Nat} {m : Move} (hm : m ∈ q.resizeMoves size) :
    m.trims = true := by
  unfold resizeMoves at hm
  split at hm
  · rw [List.mem_singleton.mp hm]
    rfl
  · rcases List.mem_pair.mp hm with rfl | rfl <;> rfl

theorem AttachMoves.trims {buffer : AVBufferRef} {ms : List Move} {status : Status}
    (h : AttachMoves q buffer ms status) : ∀ m ∈ ms, m.trims = true := by
  intro m hm
  cases h with
  | failed | added => rw [List.mem_singleton.mp hm]; rfl
  | replaced => rcases List.mem_pair.mp hm with rfl | rfl <;> rfl

theorem attachAvailableBufferLocked_moves (h : RepInv q) (env : Env) {buffer : AVBufferRef}
    (hnew : buffer.uniqueId ∉ q.cachedBufferMap) {r : AVBufferQueueImpl × Status}
    (hr : q.attachAvailableBufferLocked env buffer = r) :
    ∃ ms, Moves q ms r.1 ∧ AttachMoves q buffer ms r.2 := by
  subst hr
  simp only [attachAvailableBufferLocked, getCachedBufferCount]
  by_cases hfull : q.size ≤ q.cachedBufferMap.size
  · by_cases hvalid : q.cachedBufferMap.size - q.size <
      q.dirtyBufferList.length + q.freeBufferList.length
    · simp only [hfull, hvalid, if_true]
      have hcount : q.markCount (q.cachedBufferMap.size - q.size + 1) = 0 := by
        simp only [markCount]
        omega
      have hsize := deleteBuffers_map_size h (q.cachedBufferMap.size - q.size + 1)
      obtain ⟨m, hm⟩ := deleteBuffers_eq q (q.cachedBufferMap.size - q.size + 1)
      have hqsize : (q.deleteBuffers (q.cachedBufferMap.size - q.size + 1)).size = q.size := by
        rw [hm]
      refine ⟨[_, .add buffer .attached], ⟨_, deleteBuffers_moved q _, .single (.add ?_ (.inr rfl)
        ?_ (addElement_size ..) (addElement_becomes ..))⟩, .replaced hcount⟩
      · rw [ExtTreeMap.mem_iff_isSome_getElem?, hm, deleteBuffers_lookup]
        simp only [ExtTreeMap.mem_iff_isSome_getElem?] at hnew
        grind
      · omega
    · simp only [hfull, hvalid, if_true, if_false]
      exact ⟨_, .single (.quiet rfl ⟨rfl, rfl, rfl, rfl⟩), .failed (by simp)⟩
  · simp only [hfull, if_false]
    exact ⟨_, .single (.add hnew (.inr rfl) (Nat.lt_of_not_le hfull) (addElement_size ..)
      (addElement_becomes ..)), .added⟩

theorem attachBuffer_moves (h : RepInv q) (env : Env) (buffer : AVBufferRef)
    (config : AVBufferConfig) :
    ∃ ms, Moves q ms (q.attachBuffer env buffer config).1 ∧
      AttachMoves q buffer ms (q.attachBuffer env buffer config).2 := by
  unfold attachBuffer
  split
  · exact ⟨_, .single (.quiet rfl ⟨rfl, rfl, rfl, rfl⟩), .failed (by simp)⟩
  next hnew =>
    split
    · exact ⟨_, .single (.quiet rfl ⟨rfl, rfl, rfl, rfl⟩), .failed (by simp)⟩
    next u hcheck =>
      obtain rfl := checkConfig_eq hcheck
      generalize hr : attachAvailableBufferLocked _ env buffer = r
      obtain ⟨v, status⟩ := r
      obtain ⟨ms, hms, hat⟩ := attachAvailableBufferLocked_moves
        (h.of_memoryType (t := config.memoryType)) env hnew hr
      cases hat with
      | failed hst => exact ⟨_, .single (hms.of_single.of_memoryType), .failed hst⟩
      | added => exact ⟨_, .single (hms.of_single.of_memoryType), .added⟩
      | replaced hcount =>
        obtain ⟨u, hm, hms⟩ := hms
        exact ⟨[_, _], ⟨u, hm.of_memoryType, hms⟩, .replaced hcount⟩

theorem setQueueSizeAndAttachBuffer_moves (h : RepInv q) (env : Env) (size : Nat)
    (buffer : AVBufferRef) (config : AVBufferConfig) :
    ∃ u ms ms', Moves q ms u ∧ (ms = [] ∨ ms = q.resizeMoves size) ∧
      Moves u ms' (q.setQueueSizeAndAttachBuffer env size buffer config).1 ∧
      AttachMoves u buffer ms' (q.setQueueSizeAndAttachBuffer env size buffer config).2 := by
  unfold setQueueSizeAndAttachBuffer setQueueSizeBeforeAttachBufferLocked
  split
  · have hms := resizeLocked_moves q size
    obtain ⟨ms', hms', hat⟩ := attachBuffer_moves (hms.repInv h) env buffer config
    exact ⟨_, _, ms', hms, .inr rfl, hms', hat⟩
  · obtain ⟨ms', hms', hat⟩ := attachBuffer_moves h env buffer config
    exact ⟨q, [], ms', rfl, .inl rfl, hms', hat⟩

/-! ### Sweeping the lists -/

/-- The part of the invariant that the loops of `Clear` and `ClearBufferIf`
keep at every turn: the free list is right, whatever the dirty list holds. -/
structure FreeListInv (q : AVBufferQueueImpl) : Prop where
  free_nodup : q.freeBufferList.Nodup
  free_iff : ∀ id, id ∈ q.freeBufferList ↔ q.stateOf id = some .released

theorem FreeListInv.free_mem (h : FreeListInv q) :
    ∀ k ∈ q.freeBufferList, k ∈ q.cachedBufferMap := by
  intro k hk
  obtain ⟨ele, hele, -⟩ := stateOf_eq_some.mp ((h.free_iff k).mp hk)
  exact mem_of_lookup hele

theorem FreeListInv.release (h : FreeListInv q) {ele : AVBufferElement}
    (hele : q.cachedBufferMap[id]? = some ele) (hst : ele.state ≠ .released) :
    ∃ free, (q.setElement id { ele with state := .released }).insertFreeBufferInOrder id =
        { q.setElement id { ele with state := .released } with freeBufferList := free } ∧
      FreeListInv { q.setElement id { ele with state := .released } with
        freeBufferList := free } := by
  obtain ⟨l₁, l₂, hl, heq⟩ := @insertFreeBufferInOrder_eq
    (q.setElement id { ele with state := .released }) id
    (by simp [setElement]) fun k hk => by
      simp only [setElement, ExtTreeMap.mem_insert]
      exact .inr (h.free_mem k hk)
  have hl : q.freeBufferList = l₁ ++ l₂ := hl
  have hnodup := h.free_nodup
  have hiff := h.free_iff
  have hnew : id ∉ q.freeBufferList := fun hmem => by
    rw [hiff, stateOf, hele] at hmem
    exact hst (by simpa using hmem)
  simp only [hl] at hnodup hiff hnew
  refine ⟨_, heq, ?_, ?_⟩
  · show (l₁ ++ id :: l₂).Nodup
    grind
  · intro k
    show k ∈ l₁ ++ id :: l₂ ↔ (q.setElement id { ele with state := .released }).stateOf k = _
    have := hiff k
    simp only [stateOf] at this ⊢
    rw [setElement_lookup]
    grind

theorem clearElements_spec {ids : List UInt64} (h : FreeListInv q) :
    ∃ map free, ids.foldl clearElement q =
        { q with cachedBufferMap := map, freeBufferList := free } ∧
      FreeListInv { q with cachedBufferMap := map, freeBufferList := free } ∧
      ∀ k : UInt64, map[k]? = if k ∈ ids then q.cachedBufferMap[k]?.map AVBufferElement.cleared
        else q.cachedBufferMap[k]? := by
  induction ids generalizing q with
  | nil => exact ⟨_, _, rfl, h, by simp⟩
  | cons a ids ih =>
    have hone : ∃ map free, q.clearElement a =
          { q with cachedBufferMap := map, freeBufferList := free } ∧
        FreeListInv { q with cachedBufferMap := map, freeBufferList := free } ∧
        ∀ k : UInt64, map[k]? = if k = a then q.cachedBufferMap[k]?.map AVBufferElement.cleared
          else q.cachedBufferMap[k]? := by
      unfold clearElement
      split
      next hnone => exact ⟨_, _, rfl, h, fun k => by split <;> simp_all⟩
      next ele hele =>
        split
        next hst =>
          obtain ⟨free, heq, hinv⟩ := h.release hele (by rcases hst with hst | hst <;> simp [hst])
          refine ⟨_, free, heq, hinv, fun k => ?_⟩
          have := @setElement_lookup { ele with state := .released } q a k
          grind [AVBufferElement.cleared]
        next hst =>
          exact ⟨_, _, rfl, h, fun k => by grind [AVBufferElement.cleared]⟩
    obtain ⟨map, free, heq, hinv, hmap⟩ := hone
    obtain ⟨map', free', heq', hinv', hmap'⟩ := ih hinv
    refine ⟨map', free', by rw [List.foldl_cons, heq, heq'], hinv', fun k => ?_⟩
    rw [hmap', hmap]
    grind [AVBufferElement.cleared]

theorem clear_moved (h : RepInv q) : Moved q q.clear .clear := by
  obtain ⟨map, free, heq, hinv, hmap⟩ := @clearElements_spec { q with dirtyBufferList := [] }
    q.cachedBufferMap.keys ⟨h.free_nodup, h.free_iff⟩
  have hmap : ∀ k : UInt64, map[k]? = q.cachedBufferMap[k]?.map AVBufferElement.cleared := by
    intro k
    rw [hmap]
    split
    · rfl
    next hk =>
      rw [ExtTreeMap.mem_keys] at hk
      simp [ExtTreeMap.getElem?_eq_none hk]
  rw [clear, heq]
  exact .clear hmap hinv.free_nodup (fun k => (hinv.free_iff k).trans stateOf_eq_some) rfl
    ⟨rfl, rfl, rfl, rfl⟩

theorem clearDirtyIf_spec {pred : Option AVBufferRef → Bool} {l : List UInt64}
    (h : FreeListInv q) (hnodup : l.Nodup)
    (hl : ∀ k ∈ l, ∃ ele : AVBufferElement, q.cachedBufferMap[k]? = some ele ∧
      ele.state = .returned ∧ ele.buffer ≠ none) :
    ∃ map free, clearDirtyIf pred q l =
        some ({ q with cachedBufferMap := map, freeBufferList := free },
          l.filter fun k => !pred (q.element k).buffer) ∧
      FreeListInv { q with cachedBufferMap := map, freeBufferList := free } ∧
      ∀ k : UInt64, map[k]? = q.cachedBufferMap[k]?.map fun ele =>
        if k ∈ l ∧ pred ele.buffer then { ele with state := .released } else ele := by
  induction l generalizing q with
  | nil => exact ⟨_, _, rfl, h, fun k => by cases q.cachedBufferMap[k]? <;> simp⟩
  | cons a rest ih =>
    obtain ⟨hna, hnodup⟩ := List.nodup_cons.mp hnodup
    obtain ⟨ele, hele, hst, hbuf⟩ := hl a (List.mem_cons_self ..)
    have hrest := fun k hk => hl k (List.mem_cons_of_mem a hk)
    simp only [clearDirtyIf, hele, hst, ne_eq, reduceCtorEq, not_false_eq_true, not_true_eq_false,
      and_false, if_false]
    by_cases hp : pred ele.buffer = true
    · -- the buffer leaves the dirty list; the rest of the list looks the same in the new map
      obtain ⟨free, heq, hinv⟩ := h.release hele (by simp [hst])
      rw [if_pos hp, if_neg hbuf, heq]
      have hlook : ∀ k, k ≠ a → (q.setElement a { ele with state := .released }).cachedBufferMap[k]?
          = q.cachedBufferMap[k]? := by
        intro k hk
        rw [setElement_lookup, if_neg (Ne.symm hk)]
      obtain ⟨map, free', heq', hinv', hmap'⟩ := ih hinv hnodup fun k hk => by
        obtain ⟨e, he, hrest⟩ := hrest k hk
        exact ⟨e, (hlook k fun hka => hna (hka ▸ hk)).trans he, hrest⟩
      refine ⟨map, free', ?_, hinv', fun k => ?_⟩
      · rw [heq', List.filter_cons_of_neg (by simp [element_of_lookup hele, hp])]
        have hfilter : ∀ k ∈ rest, element { q.setElement a { ele with state := .released } with
            freeBufferList := free } k = q.element k := fun k hk => by
          simp only [element, hlook k fun hka => hna (hka ▸ hk)]
        rw [List.filter_congr fun k hk => by rw [hfilter k hk]]
        rfl
      · rw [hmap']
        simp only [setElement_lookup]
        grind
    · obtain ⟨map, free, heq, hinv, hmap⟩ := ih h hnodup hrest
      rw [if_neg hp, heq]
      refine ⟨map, free, ?_, hinv, fun k => ?_⟩
      · rw [List.filter_cons_of_pos (by simp [element_of_lookup hele, hp])]
        rfl
      · rw [hmap]
        grind

theorem clearBufferIf_moved (h : RepInv q) (pred : Option AVBufferRef → Bool) :
    ∃ u, q.clearBufferIf pred = some u ∧ Moved q u (.clearIf pred) := by
  obtain ⟨map, free, heq, hinv, hmap⟩ := @clearDirtyIf_spec q pred q.dirtyBufferList
      ⟨h.free_nodup, h.free_iff⟩ h.dirty_nodup fun k hk => by
      obtain ⟨ele, buffer, hele, hst, hbuf, -⟩ := h.lookup_of_dirty hk
      exact ⟨ele, hele, hst, by simp [hbuf]⟩
  rw [clearBufferIf, heq]
  exact ⟨_, rfl, .clearIf hmap hinv.free_nodup
    (fun k => (hinv.free_iff k).trans stateOf_eq_some) rfl ⟨rfl, rfl, rfl, rfl⟩⟩

end AVBufferQueueImpl

end MediaFoundation.Queue
