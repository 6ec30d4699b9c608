import MediaFoundation.Queue.Usage

/-!
# The capacity of the queue

The cached buffers that are not marked for deletion number at most `size`, in
every state of a run (`capacity_bound`). A shrinking resize has to take as
many of them as it lowers the size by: it deletes the listed buffers, and
marks buffers in use when the lists are too short.

The marking loop of `DeleteBuffers` starts at the front of the map and counts
the elements it visits, whether or not they are marked already. So a second
shrink while the marks of the first are still there marks too few
(`second_shrink_marks_again`), and `capacity_bound` asks of a shrink that the
elements it visits are unmarked (`MarksUnmarked`).
-/

namespace MediaFoundation.Queue

open Std (ExtTreeMap)

namespace AVBufferQueueImpl

variable {q q' : AVBufferQueueImpl} {m : Move} {id : UInt64}

/-! ## Counting the unmarked buffers -/

def unmarkedCount (q : AVBufferQueueImpl) : Nat :=
  (q.cachedBufferMap.toList.filter fun e => !e.2.isDeleting).length

def unmarked (q : AVBufferQueueImpl) : Finset UInt64 :=
  TreeMap.keysWhere q.cachedBufferMap fun ele => !ele.isDeleting

theorem mem_unmarked :
    id ∈ q.unmarked ↔ ∃ ele, q.cachedBufferMap[id]? = some ele ∧ ele.isDeleting = false := by
  simp only [unmarked, TreeMap.mem_keysWhere, Bool.not_eq_true']

theorem card_unmarked (q : AVBufferQueueImpl) : q.unmarked.card = q.unmarkedCount :=
  TreeMap.card_keysWhere q.cachedBufferMap fun ele => !ele.isDeleting

theorem unmarkedCount_le (q : AVBufferQueueImpl) :
    q.unmarkedCount ≤ q.cachedBufferMap.size := by
  rw [← ExtTreeMap.length_toList]
  exact List.length_filter_le _ _

theorem map_size_eq_unmarkedCount
    (h : ∀ (id : UInt64) (ele : AVBufferElement), q.cachedBufferMap[id]? = some ele →
      ele.isDeleting = false) : q.cachedBufferMap.size = q.unmarkedCount := by
  rw [← ExtTreeMap.length_toList, unmarkedCount, List.filter_eq_self.mpr]
  rintro ⟨id, ele⟩ hmem
  rw [h id ele (ExtTreeMap.mem_toList_iff_getElem?_eq_some.mp hmem)]
  rfl

/-! ## The moves -/

def Move.brings : Move → Option UInt64
  | .add buffer _ | .realloc _ buffer => some buffer.uniqueId
  | _ => none

/-- No move takes a mark away: only a new buffer adds to the unmarked ones. -/
theorem Moved.unmarked_subset (hm : Moved q q' m) (hnone : m.brings = none) :
    q'.unmarked ⊆ q.unmarked := by
  intro k
  rw [mem_unmarked, mem_unmarked]
  rintro ⟨ele, hele, hmark⟩
  cases hm with
  | quiet _ hq | resize _ hq => exact ⟨ele, hq.map_eq ▸ hele, hmark⟩
  | realloc | add => cases hnone
  | request hmem hele' _ _ hq =>
    simp only [hq.map_eq, ExtTreeMap.getElem?_insert] at hele
    grind
  | dropFree _ _ hq | erase _ _ _ hq =>
    simp only [hq.map_eq, ExtTreeMap.getElem?_erase] at hele
    grind
  | push hele' _ _ _ hq | free hele' _ _ _ _ hq | append hele' _ _ _ _ hq
  | acquire _ hele' _ _ hq =>
    simp only [hq.map_eq, ExtTreeMap.getElem?_insert] at hele
    grind
  | deleteBuffers _ hq =>
    simp only [hq.map_eq, deleteBuffers_lookup] at hele
    grind [AVBufferElement.marked]
  | clear hmap _ _ _ hq | clearIf hmap _ _ _ hq =>
    simp only [hq.map_eq, hmap] at hele
    grind [AVBufferElement.cleared]

/-- What the queue keeps so that it never holds too many buffers. -/
structure WithinCapacity (q : AVBufferQueueImpl) : Prop where
  repInv : RepInv q
  listed : ListedUnmarked q
  count_le : q.unmarkedCount ≤ q.size

theorem Moved.size_eq (hm : Moved q q' m) (hres : ∀ n, m ≠ .resize n) : q'.size = q.size := by
  cases hm with
  | resize => exact absurd rfl (hres _)
  | _ => assumption

/-- **Every move but a resize keeps within the capacity.** A new buffer comes
into a free slot, or in the place of a listed one, which carries no mark. -/
theorem Moved.withinCapacity (hm : Moved q q' m) (h : WithinCapacity q)
    (hres : ∀ n, m ≠ .resize n) (hclear : m = .clear → PushedUnmarked q) : WithinCapacity q' := by
  refine ⟨hm.repInv h.repInv, hm.listedUnmarked h.repInv h.listed hclear, ?_⟩
  rw [hm.size_eq hres]
  by_cases hnone : m.brings = none
  · rw [← card_unmarked]
    exact (Finset.card_le_card (hm.unmarked_subset hnone)).trans (card_unmarked q ▸ h.count_le)
  cases hm with
  | @add buffer st config hnew hst hroom hsize hq =>
    have hle := unmarkedCount_le q'
    rw [hq.map_eq, ExtTreeMap.size_insert, if_neg (ExtTreeMap.mem_iff_contains.not.mp hnew)] at hle
    omega
  | @realloc id buffer config hmem hnew hsize hq =>
    obtain ⟨ele, -, hele, hst, -⟩ := h.repInv.lookup_of_free hmem
    have hid : id ∈ q.unmarked := mem_unmarked.mpr ⟨ele, hele, h.listed id ele hele (.inl hst)⟩
    have hsub : q'.unmarked ⊆ insert buffer.uniqueId (q.unmarked.erase id) := by
      intro k hk
      simp only [Finset.mem_insert, Finset.mem_erase, mem_unmarked] at hk ⊢
      simp only [hq.map_eq, ExtTreeMap.getElem?_insert, ExtTreeMap.getElem?_erase] at hk
      grind
    have hcard := (Finset.card_le_card hsub).trans (Finset.card_insert_le ..)
    rw [Finset.card_erase_add_one hid, card_unmarked, card_unmarked] at hcard
    exact hcard.trans h.count_le
  | _ => exact absurd rfl hnone

/-! ## Shrinking -/

def inUseIds (q : AVBufferQueueImpl) : List UInt64 :=
  q.cachedBufferMap.keys.filter fun id => id ∉ q.freeBufferList ++ q.dirtyBufferList

/-- A resize to `size` marks no buffer that is marked already: of the buffers
in use, the first ones, as many as the lists are too short for the shrink. -/
def MarksUnmarked (q : AVBufferQueueImpl) (size : Nat) : Prop :=
  ∀ id ∈ q.inUseIds.take (q.markCount (q.size - size)), (q.element id).isDeleting = false

instance (size : Nat) : Decidable (MarksUnmarked q size) := List.decidableBAll _ _

theorem markedIds_eq (q : AVBufferQueueImpl) (count : Nat) :
    q.markedIds count = q.inUseIds.take (q.markCount count) := by
  by_cases hzero : q.markCount count = 0
  · rw [markedIds, hzero, List.take_zero, List.take_zero]
  · have hdel : q.deletedIds count = q.freeBufferList ++ q.dirtyBufferList := by
      unfold markCount at hzero
      rw [deletedIds, List.take_of_length_le (by omega), List.take_of_length_le (by omega)]
    rw [markedIds, mapAfterDelete, TreeMap.keys_foldl_erase, hdel, inUseIds]

def goneIds (q : AVBufferQueueImpl) (count : Nat) : List UInt64 :=
  q.deletedIds count ++ q.markedIds count

theorem goneIds_nodup (h : RepInv q) (count : Nat) : (q.goneIds count).Nodup := by
  refine List.nodup_append.mpr ⟨h.deletedIds_nodup count,
    ExtTreeMap.nodup_keys.sublist (List.take_sublist ..), ?_⟩
  rintro k hk _ hk' rfl
  have hkeys := List.mem_of_mem_take hk'
  rw [mapAfterDelete, TreeMap.keys_foldl_erase, List.mem_filter] at hkeys
  exact of_decide_eq_true hkeys.2 hk

theorem goneIds_unmarked (h : WithinCapacity q) {size : Nat} (hmarks : MarksUnmarked q size) :
    ∀ k ∈ q.goneIds (q.size - size), k ∈ q.unmarked := by
  intro k hk
  rcases List.mem_append.mp hk with hk | hk
  · rcases (mem_deletedIds q _ k).mp hk with hk | hk
    · obtain ⟨ele, -, hele, hst, -⟩ := h.repInv.lookup_of_free (List.mem_of_mem_take hk)
      exact mem_unmarked.mpr ⟨ele, hele, h.listed k ele hele (.inl hst)⟩
    · obtain ⟨ele, -, hele, hst, -⟩ := h.repInv.lookup_of_dirty (List.mem_of_mem_take hk)
      exact mem_unmarked.mpr ⟨ele, hele, h.listed k ele hele (.inr hst)⟩
  · rw [markedIds_eq] at hk
    have hmark := hmarks k hk
    have hkeys := List.mem_of_mem_take hk
    rw [inUseIds, List.mem_filter, ExtTreeMap.mem_keys, ExtTreeMap.mem_iff_isSome_getElem?,
      Option.isSome_iff_exists] at hkeys
    obtain ⟨⟨ele, hele⟩, -⟩ := hkeys
    exact mem_unmarked.mpr ⟨ele, hele, element_of_lookup hele ▸ hmark⟩

theorem Moved.unmarked_deleteBuffers {count : Nat} (hm : Moved q q' (.deleteBuffers count)) :
    q'.unmarked ⊆ q.unmarked \ (q.goneIds count).toFinset := by
  intro k hk
  refine Finset.mem_sdiff.mpr ⟨hm.unmarked_subset rfl hk, fun hgone => ?_⟩
  rw [List.mem_toFinset, goneIds, List.mem_append] at hgone
  obtain ⟨ele, hele, hmark⟩ := mem_unmarked.mp hk
  cases hm with
  | deleteBuffers _ hq =>
    rw [hq.map_eq, deleteBuffers_lookup] at hele
    grind [AVBufferElement.marked]

/-- **A shrink leaves at most the new size.** Either it takes as many unmarked
buffers as it has to, or it marks all that it does not delete. -/
theorem Moved.unmarked_shrink {size : Nat} (hm : Moved q q' (.deleteBuffers (q.size - size)))
    (h : WithinCapacity q) (hmarks : MarksUnmarked q size) (hle : size ≤ q.size) :
    q'.unmarkedCount ≤ size := by
  have hsub := hm.unmarked_deleteBuffers
  rw [← card_unmarked]
  by_cases henough : q.markCount (q.size - size) ≤ (q.mapAfterDelete (q.size - size)).size
  · have hgone : (q.goneIds (q.size - size)).toFinset ⊆ q.unmarked := fun k hk =>
      goneIds_unmarked h hmarks k (List.mem_toFinset.mp hk)
    have hcard := Finset.card_sdiff_add_card_eq_card hgone
    have hlength : (q.goneIds (q.size - size)).length = q.size - size := by
      rw [goneIds, List.length_append, markedIds, List.length_take, ExtTreeMap.length_keys,
        min_eq_left henough, length_deletedIds]
    rw [List.toFinset_card_of_nodup (goneIds_nodup h.repInv _), hlength, card_unmarked q] at hcard
    have := Finset.card_le_card hsub
    have := h.count_le
    omega
  · -- the loop runs over the whole map
    have hnone : q'.unmarked = ∅ := by
      refine Finset.eq_empty_of_forall_notMem fun k hk => ?_
      have hk := Finset.mem_sdiff.mp (hsub hk)
      obtain ⟨ele, hele, -⟩ := mem_unmarked.mp hk.1
      refine hk.2 (List.mem_toFinset.mpr (List.mem_append.mpr ?_))
      by_cases hdel : k ∈ q.deletedIds (q.size - size)
      · exact .inl hdel
      · refine .inr ?_
        rw [markedIds, List.take_of_length_le (by rw [ExtTreeMap.length_keys]; omega),
          ExtTreeMap.mem_keys, ExtTreeMap.mem_iff_isSome_getElem?, mapAfterDelete_lookup,
          if_neg hdel, hele]
        rfl
    rw [hnone, Finset.card_empty]
    exact Nat.zero_le _

theorem Moves.withinCapacity_resize {size : Nat} (hms : Moves q (q.resizeMoves size) q')
    (h : WithinCapacity q) (hmarks : MarksUnmarked q size) : WithinCapacity q' := by
  have hresize : ∀ {u : AVBufferQueueImpl}, WithinCapacity u → u.unmarkedCount ≤ size →
      Moved u q' (.resize size) → WithinCapacity q' := by
    intro u hu hcount hm
    refine ⟨hm.repInv hu.repInv, hm.listedUnmarked hu.repInv hu.listed nofun, ?_⟩
    cases hm with
    | resize hsize hq =>
      rw [hsize, unmarkedCount, hq.map_eq]
      exact hcount
  unfold resizeMoves at hms
  split at hms
  next hlt => exact hresize h (h.count_le.trans hlt.le) hms.of_single
  next hge =>
    obtain ⟨u, hdel, hms⟩ := hms
    refine hresize (hdel.withinCapacity h nofun nofun) ?_
      hms.of_single
    exact hdel.unmarked_shrink h hmarks (Nat.le_of_not_lt hge)

theorem AttachMoves.withinCapacity {buffer : AVBufferRef} {ms : List Move} {status : Status}
    (hat : AttachMoves q buffer ms status) (hms : Moves q ms q') (h : WithinCapacity q) :
    WithinCapacity q' := by
  cases hat with
  | failed | added =>
    exact hms.of_single.withinCapacity h nofun nofun
  | replaced =>
    obtain ⟨u, hdel, hadd⟩ := hms
    refine hadd.of_single.withinCapacity ?_ nofun nofun
    exact hdel.withinCapacity h nofun nofun

end AVBufferQueueImpl

open AVBufferQueueImpl

/-! ## Capacity over runs -/

def Action.resizesTo : Action → Option Nat
  | .call (.setQueueSize size) => some size
  | .call (.setLargerQueueSize size) => some size
  | .call (.setQueueSizeAndAttachBuffer size ..) => some size
  | _ => none

/-- `CreateAVBuffer` gives no id twice, the forced detach finds its buffer off
the lists, `Clear` meets no marked buffer on its way through `PushBuffer`, and
a shrink marks no buffer a second time. -/
structure KeepsCapacity (s : System) (l : Label) : Prop where
  fresh : Fresh s.queue l.env
  detached : ∀ uniqueId ∈ forceDetached s l, Unlisted s.queue uniqueId
  clear : l.action = .call .clear → PushedUnmarked s.queue
  shrink : ∀ size, l.action.resizesTo = some size → MarksUnmarked s.queue size

theorem Effect.withinCapacity {q q' : AVBufferQueueImpl} {l : Label} {es : List Event}
    (he : Effect q l q' es) (h : WithinCapacity q)
    (hclear : l.action = .call .clear → PushedUnmarked q)
    (hshrink : ∀ size, l.action.resizesTo = some size → MarksUnmarked q size) :
    WithinCapacity q' := by
  cases he with
  | plain hm hplain =>
    refine hm.withinCapacity h (fun n heq => ?_) fun heq => ?_ <;> subst heq <;> cases hplain
  | append hm | acquire hm | clearIf hm =>
    exact hm.withinCapacity h nofun nofun
  | clear hl hm => exact hm.withinCapacity h nofun fun _ => hclear hl
  | @resize size ms hl hms hres =>
    rcases hres with rfl | rfl
    · obtain rfl := hms
      exact h
    · refine hms.withinCapacity_resize h (hshrink size ?_)
      rcases hl with hl | hl <;> rw [hl] <;> rfl
  | attach hms hres hms' hat =>
    refine hat.withinCapacity hms' ?_
    rcases hres with rfl | ⟨size, config, isFilled, rfl, hl⟩
    · obtain rfl := hms
      exact h
    · exact hms.withinCapacity_resize h (hshrink size (by rw [hl]; rfl))

/-- **Capacity.** In every state of a run whose steps meet the condition, the
cached buffers that are not marked for deletion number at most `size`; when
every cached buffer is on a list, so do the cached buffers. -/
theorem capacity_bound {size : Nat} {type : MemoryType} {disableAlloc : Bool} {ls : List Label}
    {s : System} (hgood : Runs.Along step KeepsCapacity (.init size type disableAlloc) ls)
    (hrun : Runs.run step (.init size type disableAlloc) ls = some s) :
    s.queue.unmarkedCount ≤ s.queue.size ∧
      ((∀ (id : UInt64) (ele : AVBufferElement), s.queue.cachedBufferMap[id]? = some ele →
          ele.state.listed) →
        s.queue.getCachedBufferCount ≤ s.queue.size) := by
  have h : WithinCapacity s.queue := by
    refine Runs.run_invariant (I := fun s : System => WithinCapacity s.queue) ?_ ?_ hgood hrun
    · intro s l t h hk hs
      have hlists : KeepsLists s l :=
        ⟨hk.fresh, fun id _ => markedUnlisted_of_listedUnmarked h.listed id, hk.detached⟩
      exact (step_effect h.repInv hlists hs).2.withinCapacity h hk.clear hk.shrink
    · exact ⟨repInv_init size type disableAlloc, fun id ele hele => by
        simp [System.init, create] at hele, Nat.zero_le _⟩
  refine ⟨h.count_le, fun hlisted => ?_⟩
  have hnone := map_size_eq_unmarkedCount fun id ele hele =>
    h.listed id ele hele (hlisted id ele hele)
  rw [getCachedBufferCount, hnone]
  exact h.count_le

/-! ## The run that breaks it -/

def requestNew (id : UInt64) : Label where
  thread := 0
  party := 1
  env := { contents := fun _ => { config := sampleConfig, flag := 0 }, created := some ⟨0, id⟩ }
  action := .call (.requestBufferWaitUs sampleConfig 0 .sharedMemory)

def requestThreeAndShrink : List Label :=
  [requestNew 1, requestNew 2, requestNew 3, sampleLabel (.call (.setQueueSize 2))]

theorem capacity_bound_requestThreeAndShrink :
    ∃ s, Runs.run step (.init 3 .unknownMemory false) requestThreeAndShrink = some s ∧
      s.queue.unmarkedCount ≤ s.queue.size ∧
      ((∀ (id : UInt64) (ele : AVBufferElement), s.queue.cachedBufferMap[id]? = some ele →
          ele.state.listed) →
        s.queue.getCachedBufferCount ≤ s.queue.size) := by
  refine ⟨_, rfl, @capacity_bound 3 .unknownMemory false requestThreeAndShrink _ ?_ rfl⟩
  have hrequest : ∀ {s : System} {id : UInt64}, Fresh s.queue (requestNew id).env →
      forceDetached s (requestNew id) = none → KeepsCapacity s (requestNew id) :=
    fun hfresh hnone => ⟨hfresh, by rw [hnone]; nofun, nofun, nofun⟩
  refine .cons (hrequest (by decide) rfl) rfl ?_
  refine .cons (hrequest (by decide) rfl) rfl ?_
  refine .cons (hrequest (by decide) rfl) rfl ?_
  refine .cons ⟨nofun, nofun, nofun, fun size hsize => ?_⟩ rfl trivial
  cases hsize
  decide

theorem second_shrink_marks_again :
    ∃ s, Runs.run step (.init 3 .unknownMemory false)
        (requestThreeAndShrink ++ [sampleLabel (.call (.setQueueSize 1))]) = some s ∧
      s.queue.size = 1 ∧ s.queue.unmarkedCount = 2 :=
  ⟨_, rfl, by decide, by decide⟩

end MediaFoundation.Queue
