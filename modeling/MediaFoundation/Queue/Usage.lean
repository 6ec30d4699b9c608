import MediaFoundation.Queue.Invariant

/-!
# Buffers in use and buffers marked for deletion

What the moves do to the buffers that are on no list: those that a party has,
and among them those that a shrinking resize could only mark.
-/

namespace MediaFoundation.Queue

open Std (ExtTreeMap)

namespace AVBufferQueueImpl

variable {q q' : AVBufferQueueImpl} {m : Move} {id : UInt64}

def InUse (q : AVBufferQueueImpl) (id : UInt64) : Prop :=
  ∃ ele, q.cachedBufferMap[id]? = some ele ∧ ¬ ele.state.listed

def Move.ends : Move → Option UInt64
  | .free id | .erase id => some id
  | .append buffer => some buffer.uniqueId
  | _ => none

def NonePushed (q : AVBufferQueueImpl) : Prop :=
  ∀ (id : UInt64) (ele : AVBufferElement),
    q.cachedBufferMap[id]? = some ele → ele.state ≠ .pushed

/-- **Only its own move ends the use of a buffer**, and `Clear`, which takes
every pushed buffer. -/
theorem Moved.inUse (hm : Moved q q' m) (h : RepInv q) (hclear : m = .clear → NonePushed q)
    (hid : InUse q id) (hends : m.ends ≠ some id) : InUse q' id := by
  obtain ⟨ele, hele, hst⟩ := hid
  have hfree := h.free_iff
  have hdirty := h.dirty_iff
  simp only [stateOf] at hfree hdirty
  unfold InUse
  cases hm with
  | quiet _ hq | resize _ hq => exact ⟨ele, hq.map_eq ▸ hele, hst⟩
  | request hmem hele' _ _ hq | add hnew hst' _ _ hq | push hele' hst' _ _ hq =>
    simp only [hq.map_eq, ExtTreeMap.getElem?_insert]
    grind [AVBufferState.listed]
  | realloc hmem hnew _ hq =>
    have := mem_of_lookup hele
    simp only [hq.map_eq, ExtTreeMap.getElem?_insert, ExtTreeMap.getElem?_erase]
    grind [AVBufferState.listed]
  | dropFree hmem _ hq =>
    simp only [hq.map_eq, ExtTreeMap.getElem?_erase]
    grind [AVBufferState.listed]
  | free hele' _ _ _ _ hq | append hele' _ _ _ _ hq =>
    simp only [hq.map_eq, ExtTreeMap.getElem?_insert]
    grind [Move.ends]
  | acquire hl hele' _ _ hq =>
    simp only [hq.map_eq, ExtTreeMap.getElem?_insert]
    grind [AVBufferState.listed]
  | erase hele' _ _ hq =>
    simp only [hq.map_eq, ExtTreeMap.getElem?_erase]
    grind [Move.ends]
  | @deleteBuffers count _ hq =>
    have := mem_deletedIds q count id
    simp only [hq.map_eq, deleteBuffers_lookup]
    grind [AVBufferState.listed, AVBufferElement.marked, List.mem_of_mem_take]
  | clear hmap _ _ _ hq =>
    have := hclear rfl id ele hele
    simp only [hq.map_eq, hmap]
    grind [AVBufferState.listed, AVBufferElement.cleared]
  | clearIf hmap _ _ _ hq =>
    simp only [hq.map_eq, hmap]
    grind [AVBufferState.listed]

def ListedUnmarked (q : AVBufferQueueImpl) : Prop :=
  ∀ (id : UInt64) (ele : AVBufferElement),
    q.cachedBufferMap[id]? = some ele → ele.state.listed → ele.isDeleting = false

/-- No marked buffer is on its way through `PushBuffer` or with the broker. -/
def PushedUnmarked (q : AVBufferQueueImpl) : Prop :=
  ∀ (id : UInt64) (ele : AVBufferElement),
    q.cachedBufferMap[id]? = some ele → ele.state = .pushed → ele.isDeleting = false

theorem markedUnlisted_of_listedUnmarked (h : ListedUnmarked q) (id : UInt64) :
    MarkedUnlisted q id := by
  intro ele hele hmark hlisted
  rw [h id ele hele hlisted] at hmark
  cases hmark

theorem unlisted_of_mem_markedIds (h : RepInv q) {count : Nat} (hid : id ∈ q.markedIds count)
    {ele : AVBufferElement} (hele : q.cachedBufferMap[id]? = some ele) : ¬ ele.state.listed := by
  have hpos : 0 < q.markCount count := by
    by_contra hzero
    rw [markedIds, Nat.eq_zero_of_not_pos hzero, List.take_zero] at hid
    cases hid
  have hkeys := List.mem_of_mem_take hid
  rw [ExtTreeMap.mem_keys, ExtTreeMap.mem_iff_isSome_getElem?, mapAfterDelete_lookup] at hkeys
  have hdel := mem_deletedIds q count id
  unfold markCount at hpos
  rw [List.take_of_length_le (by omega), List.take_of_length_le (by omega), h.free_iff,
    h.dirty_iff] at hdel
  grind [stateOf, AVBufferState.listed]

theorem Moved.listedUnmarked (hm : Moved q q' m) (h : RepInv q) (hmark : ListedUnmarked q)
    (hclear : m = .clear → PushedUnmarked q) : ListedUnmarked q' := by
  intro id ele hele hst
  have hold := hmark id
  cases hm with
  | quiet _ hq | resize _ hq => exact hmark id ele (hq.map_eq ▸ hele) hst
  | request hmem hele' _ _ hq | add hnew hst' _ _ hq | push hele' hst' _ _ hq =>
    simp only [hq.map_eq, ExtTreeMap.getElem?_insert] at hele
    grind [AVBufferState.listed]
  | realloc hmem hnew _ hq =>
    simp only [hq.map_eq, ExtTreeMap.getElem?_insert, ExtTreeMap.getElem?_erase] at hele
    grind [AVBufferState.listed]
  | dropFree hmem _ hq | erase hele' _ _ hq =>
    simp only [hq.map_eq, ExtTreeMap.getElem?_erase] at hele
    grind
  | free hele' _ _ _ _ hq | append hele' _ _ _ _ hq =>
    simp only [hq.map_eq, ExtTreeMap.getElem?_insert] at hele
    grind
  | acquire hl hele' _ _ hq =>
    simp only [hq.map_eq, ExtTreeMap.getElem?_insert] at hele
    grind [AVBufferState.listed]
  | @deleteBuffers count _ hq =>
    have hunlisted : id ∈ q.markedIds count → ∀ e : AVBufferElement,
        q.cachedBufferMap[id]? = some e → ¬ e.state.listed :=
      fun hid _ he => unlisted_of_mem_markedIds h hid he
    simp only [hq.map_eq, deleteBuffers_lookup] at hele
    grind [AVBufferElement.marked]
  | clear hmap _ _ _ hq =>
    have hpushed := hclear rfl id
    simp only [hq.map_eq, hmap] at hele
    grind [AVBufferState.listed, AVBufferElement.cleared]
  | clearIf hmap _ _ _ hq =>
    have hdirty := h.dirty_iff id
    simp only [hq.map_eq, hmap] at hele
    grind [AVBufferState.listed, stateOf]

structure Preserves (q q' : AVBufferQueueImpl) (ended : Option UInt64) : Prop where
  repInv : RepInv q'
  unmarked : ListedUnmarked q'
  inUse : ∀ id, ended ≠ some id → InUse q id → InUse q' id

theorem Preserves.weaken (h : Preserves q q' none) (ended : Option UInt64) :
    Preserves q q' ended :=
  ⟨h.repInv, h.unmarked, fun id _ hid => h.inUse id (Option.some_ne_none id).symm hid⟩

theorem Preserves.refl (h : RepInv q) (hmark : ListedUnmarked q) : Preserves q q none :=
  ⟨h, hmark, fun _ _ hid => hid⟩

theorem Preserves.trans {u : AVBufferQueueImpl} (h : Preserves q u none)
    (h' : Preserves u q' none) : Preserves q q' none :=
  ⟨h'.repInv, h'.unmarked, fun id hne hid => h'.inUse id hne (h.inUse id hne hid)⟩

theorem Moved.preserves (hm : Moved q q' m) (h : RepInv q) (hmark : ListedUnmarked q)
    (hclear : m = .clear → NonePushed q) : Preserves q q' m.ends :=
  ⟨hm.repInv h, hm.listedUnmarked h hmark fun hm id ele hele hst => absurd hst (hclear hm id ele hele),
    fun _ hne hid => hm.inUse h hclear hid hne⟩

theorem Moves.preserves {ms : List Move} (hms : Moves q ms q') (h : RepInv q)
    (hmark : ListedUnmarked q) (hends : ∀ m ∈ ms, m.ends = none ∧ m ≠ .clear) :
    Preserves q q' none := by
  induction ms generalizing q with
  | nil => rw [hms]; exact .refl h hmark
  | cons m ms ih =>
    obtain ⟨u, hm, hms⟩ := hms
    obtain ⟨hnone, hne⟩ := hends m (List.mem_cons_self ..)
    have hfirst := hm.preserves h hmark fun heq => absurd heq hne
    rw [hnone] at hfirst
    exact hfirst.trans (ih hms hfirst.repInv hfirst.unmarked fun m hm =>
      hends m (List.mem_cons_of_mem _ hm))

/-! ## Moves that start the use of a buffer -/

theorem inUse_of_insert {map : ExtTreeMap UInt64 AVBufferElement} {ele : AVBufferElement}
    (hq : q.cachedBufferMap = map.insert id ele) (hst : ¬ ele.state.listed) : InUse q id :=
  ⟨ele, by rw [hq, ExtTreeMap.getElem?_insert_self], hst⟩

theorem not_inUse_of_not_mem (hid : id ∉ q.cachedBufferMap) : ¬ InUse q id := by
  rintro ⟨ele, hele, -⟩
  exact hid (mem_of_lookup hele)

theorem RepInv.not_inUse_of_free (h : RepInv q) (hid : id ∈ q.freeBufferList) : ¬ InUse q id := by
  rintro ⟨ele, hele, hst⟩
  obtain ⟨ele', hele', hst'⟩ := stateOf_eq_some.mp ((h.free_iff id).mp hid)
  obtain rfl := Option.some.inj (hele.symm.trans hele')
  exact hst (.inl hst')

theorem RepInv.not_inUse_of_dirty (h : RepInv q) (hid : id ∈ q.dirtyBufferList) :
    ¬ InUse q id := by
  rintro ⟨ele, hele, hst⟩
  obtain ⟨ele', hele', hst'⟩ := stateOf_eq_some.mp ((h.dirty_iff id).mp hid)
  obtain rfl := Option.some.inj (hele.symm.trans hele')
  exact hst (.inr hst')

theorem RequestMove.starts {buffer : AVBufferRef} (hr : RequestMove m (some (.ok buffer)))
    (hm : Moved q q' m) (h : RepInv q) :
    ¬ InUse q buffer.uniqueId ∧ InUse q' buffer.uniqueId := by
  cases hr with
  | request =>
    cases hm with
    | request hmem hele hbuf _ hq =>
      exact ⟨h.not_inUse_of_free hmem, inUse_of_insert hq.map_eq
        (by simp [AVBufferState.listed])⟩
  | realloc =>
    cases hm with
    | realloc hmem hnew _ hq =>
      exact ⟨not_inUse_of_not_mem hnew, inUse_of_insert hq.map_eq
        (by simp [AVBufferState.listed])⟩
  | add =>
    cases hm with
    | add hnew _ _ _ hq =>
      exact ⟨not_inUse_of_not_mem hnew, inUse_of_insert hq.map_eq
        (by simp [AVBufferState.listed])⟩

theorem RequestMove.ends {r : Option (Except Status AVBufferRef)} (hr : RequestMove m r) :
    m.ends = none ∧ m ≠ .clear := by
  cases hr <;> exact ⟨rfl, by simp⟩

theorem Moved.acquire_starts {buffer : AVBufferRef} (hm : Moved q q' (.acquire buffer))
    (h : RepInv q) : ¬ InUse q buffer.uniqueId ∧ InUse q' buffer.uniqueId := by
  cases hm with
  | acquire hl hele _ _ hq =>
    exact ⟨h.not_inUse_of_dirty (by rw [hl]; exact List.mem_cons_self ..),
      inUse_of_insert hq.map_eq (by simp [AVBufferState.listed])⟩

theorem Moved.push_inUse (hm : Moved q q' (.push id)) : InUse q' id := by
  cases hm with
  | push hele _ _ _ hq =>
    exact inUse_of_insert hq.map_eq (by simp [AVBufferState.listed])

theorem Moved.add_starts {buffer : AVBufferRef} {st : AVBufferState}
    (hm : Moved q q' (.add buffer st)) :
    buffer.uniqueId ∉ q.cachedBufferMap ∧ InUse q' buffer.uniqueId := by
  cases hm with
  | add hnew hst _ _ hq =>
    refine ⟨hnew, inUse_of_insert hq.map_eq ?_⟩
    rcases hst with rfl | rfl <;> simp [AVBufferState.listed]

theorem Move.ends_of_trims (h : m.trims = true) : m.ends = none ∧ m ≠ .clear := by
  cases m <;> simp_all [Move.trims, Move.ends]

theorem AttachMoves.starts {buffer : AVBufferRef} {u : AVBufferQueueImpl} {ms' : List Move}
    (hat : AttachMoves u buffer ms' .ok) (hms' : Moves u ms' q') (hms : Preserves q u none) :
    ¬ InUse q buffer.uniqueId ∧ InUse q' buffer.uniqueId := by
  have hkeep : ∀ {v}, Preserves q v none → buffer.uniqueId ∉ v.cachedBufferMap →
      ¬ InUse q buffer.uniqueId := fun hv hnew hin =>
    not_inUse_of_not_mem hnew (hv.inUse _ (Option.some_ne_none _).symm hin)
  cases hat with
  | failed hst => exact absurd rfl hst
  | added =>
    obtain ⟨hnew, hin⟩ := hms'.of_single.add_starts
    exact ⟨hkeep hms hnew, hin⟩
  | replaced =>
    obtain ⟨v, hdel, hadd⟩ := hms'
    obtain ⟨hnew, hin⟩ := hadd.of_single.add_starts
    have hv := hdel.preserves hms.repInv hms.unmarked fun heq => by cases heq
    exact ⟨hkeep (hms.trans hv) hnew, hin⟩

end AVBufferQueueImpl

end MediaFoundation.Queue
