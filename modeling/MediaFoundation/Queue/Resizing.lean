import MediaFoundation.Queue.Capacity

/-!
# What a resize drops

`SetQueueSize` deletes free buffers, then filled ones, and marks buffers in
use for deletion. How many it takes depends on the difference of the two sizes
only, so a queue that holds fewer buffers than its size loses buffers that the
new size has room for.
-/

namespace MediaFoundation.Queue

open Std (ExtTreeMap)

namespace AVBufferQueueImpl

variable {q q' : AVBufferQueueImpl} {id : UInt64} {n : Nat}

/-! ## What is dropped -/

def unmarkedAt (q : AVBufferQueueImpl) (id : UInt64) : Bool := !(q.element id).isDeleting

def dropped (q q' : AVBufferQueueImpl) (id : UInt64) : Bool :=
  decide (id ∉ q'.cachedBufferMap) || q.unmarkedAt id && !q'.unmarkedAt id

def droppedIds (q q' : AVBufferQueueImpl) : List UInt64 :=
  q.cachedBufferMap.keys.filter (dropped q q')

/-- **What a resize may drop**: as many buffers as there are live ones too many,
the free ones first, then the filled ones, and last the ones in use. -/
structure DropsSurplus (q q' : AVBufferQueueImpl) (n : Nat) : Prop where
  count : (droppedIds q q').length = q.unmarkedCount - n
  filled : (∃ id ∈ q.dirtyBufferList, dropped q q' id) → q'.freeBufferList = []
  inUse : (∃ id ∈ q.inUseIds, dropped q q' id) →
    q'.freeBufferList = [] ∧ q'.dirtyBufferList = []
  kept : q.unmarkedCount ≤ n →
    (∀ id ∈ q.dirtyBufferList, ¬ dropped q q' id) ∧ ∀ id ∈ q.inUseIds, ¬ dropped q q' id

/-- The buffers in use that are not marked yet. -/
def unmarkedIn (q : AVBufferQueueImpl) (ids : List UInt64) : Nat :=
  (ids.filter q.unmarkedAt).length

def listedCount (q : AVBufferQueueImpl) : Nat :=
  q.freeBufferList.length + q.dirtyBufferList.length

/-- **The sizes agree with the occupancy.** A growing queue is no fuller than
its new size. A shrink that the lists can pay finds a live buffer in every
slot. One that reaches the buffers in use leaves `n` of them unmarked; or, with
no more than `n` live buffers, it finds empty lists and meets only marked ones. -/
def TrimsLive (q : AVBufferQueueImpl) (n : Nat) : Prop :=
  if q.size < n then q.unmarkedCount ≤ n
  else if q.size - n ≤ q.listedCount then q.unmarkedCount = q.size
  else if n < q.unmarkedCount then
    q.unmarkedIn (q.inUseIds.drop (q.size - n - q.listedCount)) = n
  else q.listedCount = 0 ∧ q.unmarkedIn (q.inUseIds.take (q.size - n)) = 0

instance : Decidable (TrimsLive q n) := by
  unfold TrimsLive
  infer_instance

theorem unmarkedIn_take_drop (q : AVBufferQueueImpl) (ids : List UInt64) (k : Nat) :
    q.unmarkedIn (ids.take k) + q.unmarkedIn (ids.drop k) = q.unmarkedIn ids := by
  rw [unmarkedIn, unmarkedIn, unmarkedIn, ← List.length_append, ← List.filter_append,
    List.take_append_drop]

/-! ## Counting the live buffers -/

theorem mem_inUseIds : id ∈ q.inUseIds ↔
    id ∈ q.cachedBufferMap ∧ id ∉ q.freeBufferList ∧ id ∉ q.dirtyBufferList := by
  rw [inUseIds, List.mem_filter, ExtTreeMap.mem_keys, decide_eq_true_eq, List.mem_append, not_or]

theorem inUseIds_nodup (q : AVBufferQueueImpl) : q.inUseIds.Nodup :=
  ExtTreeMap.nodup_keys.filter _

theorem unmarkedCount_eq (h : RepInv q) (hlisted : ListedUnmarked q) :
    q.unmarkedCount = q.listedCount + q.unmarkedIn q.inUseIds := by
  have hnodup : (q.freeBufferList ++ q.dirtyBufferList ++
      q.inUseIds.filter q.unmarkedAt).Nodup := by
    refine List.nodup_append.mpr ⟨List.nodup_append.mpr ⟨h.free_nodup, h.dirty_nodup, ?_⟩,
      (inUseIds_nodup q).filter _, ?_⟩
    · rintro k hk _ hk' rfl
      have hfree := (h.free_iff k).mp hk
      rw [(h.dirty_iff k).mp hk'] at hfree
      cases hfree
    · rintro k hk _ hk' rfl
      have hin := mem_inUseIds.mp (List.mem_filter.mp hk').1
      rcases List.mem_append.mp hk with hk | hk
      · exact hin.2.1 hk
      · exact hin.2.2 hk
  have hmem : ∀ k : UInt64, k ∈ q.unmarked ↔
      k ∈ q.freeBufferList ++ q.dirtyBufferList ++ q.inUseIds.filter q.unmarkedAt := by
    intro k
    rw [mem_unmarked, List.mem_append, List.mem_append, List.mem_filter, mem_inUseIds]
    constructor
    · rintro ⟨ele, hele, hmark⟩
      by_cases hfree : k ∈ q.freeBufferList
      · exact .inl (.inl hfree)
      by_cases hdirty : k ∈ q.dirtyBufferList
      · exact .inl (.inr hdirty)
      refine .inr ⟨⟨mem_of_lookup hele, hfree, hdirty⟩, ?_⟩
      rw [unmarkedAt, element_of_lookup hele, hmark]
      rfl
    · rintro ((hk | hk) | ⟨⟨hk, -, -⟩, hmark⟩)
      · obtain ⟨ele, -, hele, hst, -⟩ := h.lookup_of_free hk
        exact ⟨ele, hele, hlisted k ele hele (.inl hst)⟩
      · obtain ⟨ele, -, hele, hst, -⟩ := h.lookup_of_dirty hk
        exact ⟨ele, hele, hlisted k ele hele (.inr hst)⟩
      · obtain ⟨ele, hele⟩ := exists_lookup hk
        rw [unmarkedAt, element_of_lookup hele] at hmark
        exact ⟨ele, hele, by simpa using hmark⟩
  have hset : q.unmarked = (q.freeBufferList ++ q.dirtyBufferList ++
      q.inUseIds.filter q.unmarkedAt).toFinset := by
    ext k
    rw [hmem, List.mem_toFinset]
  rw [← card_unmarked, hset, List.toFinset_card_of_nodup hnodup, List.length_append,
    List.length_append, listedCount, unmarkedIn]

/-! ## What `DeleteBuffers` drops -/

theorem deleteBuffers_dropped (count : Nat) (hid : id ∈ q.cachedBufferMap) :
    dropped q (q.deleteBuffers count) id ↔
      id ∈ q.deletedIds count ∨ id ∈ q.markedIds count ∧ q.unmarkedAt id = true := by
  obtain ⟨m, hm⟩ := deleteBuffers_eq q count
  obtain ⟨ele, hele⟩ := exists_lookup hid
  have hlookup := deleteBuffers_lookup q count id
  rw [hm, dropped]
  simp only [unmarkedAt, element, ExtTreeMap.mem_iff_isSome_getElem?, hlookup, hele]
  by_cases hdel : id ∈ q.deletedIds count
  · simp [hdel]
  by_cases hmark : id ∈ q.markedIds count
  · simp [hdel, hmark, AVBufferElement.marked]
  · simp [hdel, hmark]

theorem length_droppedIds (h : RepInv q) (count : Nat) :
    (droppedIds q (q.deleteBuffers count)).length =
      min count q.listedCount + q.unmarkedIn (q.inUseIds.take (count - q.listedCount)) := by
  have hmark : q.markCount count = count - q.listedCount := by
    rw [markCount, listedCount]
    omega
  have hmarked := markedIds_eq q count
  rw [hmark] at hmarked
  have hperm : (droppedIds q (q.deleteBuffers count)).Perm
      (q.deletedIds count ++ (q.markedIds count).filter q.unmarkedAt) := by
    have hgone : (q.deletedIds count ++ (q.markedIds count).filter q.unmarkedAt).Nodup :=
      (goneIds_nodup h count).sublist
        ((List.Sublist.refl _).append (List.filter_sublist ..))
    refine (List.perm_ext_iff_of_nodup (ExtTreeMap.nodup_keys.filter _) hgone).mpr fun k => ?_
    rw [List.mem_filter, ExtTreeMap.mem_keys, List.mem_append, List.mem_filter]
    constructor
    · rintro ⟨hk, hdrop⟩
      exact (deleteBuffers_dropped count hk).mp hdrop
    · intro hk
      have hmem : k ∈ q.cachedBufferMap := by
        rcases hk with hk | ⟨hk, -⟩
        · exact h.deletedIds_mem k hk
        · rw [hmarked] at hk
          exact (mem_inUseIds.mp (List.mem_of_mem_take hk)).1
      exact ⟨hmem, (deleteBuffers_dropped count hmem).mpr hk⟩
  have hlength := length_deletedIds q count
  rw [hperm.length_eq, List.length_append, hmarked]
  show _ + q.unmarkedIn _ = _
  omega

theorem deleteBuffers_filled (h : RepInv q) {count : Nat}
    (hdrop : ∃ id ∈ q.dirtyBufferList, dropped q (q.deleteBuffers count) id) :
    (q.deleteBuffers count).freeBufferList = [] := by
  obtain ⟨m, hm⟩ := deleteBuffers_eq q count
  obtain ⟨k, hk, hdrop⟩ := hdrop
  obtain ⟨ele, -, hele, -⟩ := h.lookup_of_dirty hk
  have hpast : q.freeBufferList.length < count := by
    by_contra hle
    have hle := Nat.le_of_not_lt hle
    have hdirty : q.dirtyBufferList.take (count - q.freeBufferList.length) = [] := by
      rw [Nat.sub_eq_zero_of_le hle, List.take_zero]
    rcases (deleteBuffers_dropped count (mem_of_lookup hele)).mp hdrop with hdel | ⟨hmark, -⟩
    · rcases (mem_deletedIds q count k).mp hdel with hfree | hnone
      · have hst := (h.free_iff k).mp (List.mem_of_mem_take hfree)
        rw [(h.dirty_iff k).mp hk] at hst
        cases hst
      · rw [hdirty] at hnone
        cases hnone
    · rw [markedIds_eq] at hmark
      exact (mem_inUseIds.mp (List.mem_of_mem_take hmark)).2.2 hk
  rw [hm]
  exact List.drop_eq_nil_of_le hpast.le

theorem deleteBuffers_inUse {count : Nat}
    (hdrop : ∃ id ∈ q.inUseIds, dropped q (q.deleteBuffers count) id) :
    (q.deleteBuffers count).freeBufferList = [] ∧
      (q.deleteBuffers count).dirtyBufferList = [] := by
  obtain ⟨m, hm⟩ := deleteBuffers_eq q count
  obtain ⟨k, hk, hdrop⟩ := hdrop
  obtain ⟨hmem, hfree, hdirty⟩ := mem_inUseIds.mp hk
  have hpast : 0 < q.markCount count := by
    rcases (deleteBuffers_dropped count hmem).mp hdrop with hdel | ⟨hmark, -⟩
    · rcases (mem_deletedIds q count k).mp hdel with hdel | hdel
      · exact absurd (List.mem_of_mem_take hdel) hfree
      · exact absurd (List.mem_of_mem_take hdel) hdirty
    · by_contra hzero
      rw [markedIds_eq, Nat.eq_zero_of_not_pos hzero, List.take_zero] at hmark
      cases hmark
  rw [markCount] at hpast
  rw [hm]
  exact ⟨List.drop_eq_nil_of_le (by omega), List.drop_eq_nil_of_le (by omega)⟩

/-- Once the count is right, no buffer is lost that there is room for. -/
theorem not_dropped_of_fits (hcount : (droppedIds q q').length = q.unmarkedCount - n)
    (hfits : q.unmarkedCount ≤ n) (hid : id ∈ q.cachedBufferMap) : ¬ dropped q q' id := by
  intro hdrop
  have hmem : id ∈ droppedIds q q' := List.mem_filter.mpr ⟨ExtTreeMap.mem_keys.mpr hid, hdrop⟩
  have hpos := List.length_pos_of_mem hmem
  omega

/-! ## A resize -/

theorem resizeLocked_grows (hgrow : q.size < n) :
    (q.resizeLocked n).cachedBufferMap = q.cachedBufferMap := by
  rw [resizeLocked, if_pos hgrow]
  simp only
  split <;> rfl

theorem resizeLocked_shrinks (hshrink : ¬ q.size < n) :
    q.resizeLocked n = { q.deleteBuffers (q.size - n) with size := n } := by
  rw [resizeLocked, if_neg hshrink]

theorem not_dropped_of_same (hmap : q'.cachedBufferMap = q.cachedBufferMap)
    (hid : id ∈ q.cachedBufferMap) : ¬ dropped q q' id := by
  simp [dropped, unmarkedAt, element, hmap, hid]

/-- Only the number of the dropped buffers can be wrong, never their order. -/
theorem dropsSurplus_iff_count (h : RepInv q) (n : Nat) :
    DropsSurplus q (q.resizeLocked n) n ↔
      (droppedIds q (q.resizeLocked n)).length = q.unmarkedCount - n := by
  have hdirty : ∀ id ∈ q.dirtyBufferList, id ∈ q.cachedBufferMap := fun id hid => by
    obtain ⟨ele, -, hele, -⟩ := h.lookup_of_dirty hid
    exact mem_of_lookup hele
  have huse : ∀ id ∈ q.inUseIds, id ∈ q.cachedBufferMap := fun id hid => (mem_inUseIds.mp hid).1
  refine ⟨fun hdrops => hdrops.count, fun hcount => ⟨hcount, ?_, ?_, fun hfits => ⟨?_, ?_⟩⟩⟩
  · rintro ⟨id, hid, hdrop⟩
    by_cases hgrow : q.size < n
    · exact absurd hdrop (not_dropped_of_same (resizeLocked_grows hgrow) (hdirty id hid))
    · rw [resizeLocked_shrinks hgrow] at hdrop ⊢
      exact deleteBuffers_filled h ⟨id, hid, hdrop⟩
  · rintro ⟨id, hid, hdrop⟩
    by_cases hgrow : q.size < n
    · exact absurd hdrop (not_dropped_of_same (resizeLocked_grows hgrow) (huse id hid))
    · rw [resizeLocked_shrinks hgrow] at hdrop ⊢
      exact deleteBuffers_inUse ⟨id, hid, hdrop⟩
  · exact fun id hid => not_dropped_of_fits hcount hfits (hdirty id hid)
  · exact fun id hid => not_dropped_of_fits hcount hfits (huse id hid)

/-- **A resize drops the surplus exactly where the sizes agree with the occupancy.** -/
theorem resizeLocked_dropsSurplus (h : RepInv q) (hlisted : ListedUnmarked q) (hne : n ≠ q.size) :
    DropsSurplus q (q.resizeLocked n) n ↔ TrimsLive q n := by
  rw [dropsSurplus_iff_count h, TrimsLive]
  by_cases hgrow : q.size < n
  · have hnone : droppedIds q (q.resizeLocked n) = [] :=
      List.filter_eq_nil_iff.mpr fun id hid =>
        not_dropped_of_same (resizeLocked_grows hgrow) (ExtTreeMap.mem_keys.mp hid)
    rw [hnone, if_pos hgrow, List.length_nil]
    omega
  · have hlength : (droppedIds q (q.resizeLocked n)).length = min (q.size - n) q.listedCount +
        q.unmarkedIn (q.inUseIds.take (q.size - n - q.listedCount)) := by
      rw [resizeLocked_shrinks hgrow]
      exact length_droppedIds h (q.size - n)
    have hlive := unmarkedCount_eq h hlisted
    have hsplit := unmarkedIn_take_drop q q.inUseIds (q.size - n - q.listedCount)
    rw [hlength, if_neg hgrow]
    split
    next hlists =>
      have hzero : q.size - n - q.listedCount = 0 := by omega
      have hnone : q.unmarkedIn (q.inUseIds.take 0) = 0 := by rw [List.take_zero]; rfl
      rw [hzero, hnone]
      omega
    next hlists =>
      split
      · omega
      next hfits =>
        constructor
        · intro hcount
          have hempty : q.listedCount = 0 := by omega
          rw [hempty, Nat.sub_zero] at hcount
          exact ⟨hempty, by omega⟩
        · rintro ⟨hempty, hvisited⟩
          rw [hempty, Nat.sub_zero]
          omega

theorem Moves.listedUnmarked {q q' : AVBufferQueueImpl} {ms : List Move} (hms : Moves q ms q')
    (h : RepInv q) (hlisted : ListedUnmarked q) (hclear : ∀ m ∈ ms, m ≠ .clear) :
    ListedUnmarked q' := by
  induction ms generalizing q with
  | nil => rw [hms]; exact hlisted
  | cons m ms ih =>
    obtain ⟨u, hm, hms⟩ := hms
    refine ih hms (hm.repInv h) (hm.listedUnmarked h hlisted fun heq => ?_) fun m hm =>
      hclear m (List.mem_cons_of_mem _ hm)
    exact absurd heq (hclear m (List.mem_cons_self ..))

theorem setQueueSize_resizes {size : Nat} (hok : (q.setQueueSize size).2 = .ok) :
    size ≠ q.size ∧ (q.setQueueSize size).1 = q.resizeLocked size := by
  unfold setQueueSize setLargerQueueSizeLocked at hok ⊢
  split at hok
  next hsize =>
    refine ⟨hsize.2, ?_⟩
    rw [if_pos hsize]
    exact congrArg Prod.fst (if_pos hsize)
  · cases hok

end AVBufferQueueImpl

open AVBufferQueueImpl

/-! ## Over runs -/

/-- `CreateAVBuffer` gives no id twice, the forced detach finds its buffer off
the lists, and `Clear` meets no marked buffer on its way through `PushBuffer`. -/
structure KeepsListed (s : System) (l : Label) : Prop where
  fresh : Fresh s.queue l.env
  detached : ∀ uniqueId ∈ forceDetached s l, Unlisted s.queue uniqueId
  clear : l.action = .call .clear → PushedUnmarked s.queue

theorem Effect.listedUnmarked {q q' : AVBufferQueueImpl} {l : Label} {es : List Event}
    (he : Effect q l q' es) (h : RepInv q) (hlisted : ListedUnmarked q)
    (hclear : l.action = .call .clear → PushedUnmarked q) : ListedUnmarked q' := by
  cases he with
  | plain hm hplain =>
    refine hm.listedUnmarked h hlisted fun heq => ?_
    rw [heq] at hplain
    cases hplain
  | append hm | acquire hm | clearIf hm => exact hm.listedUnmarked h hlisted nofun
  | clear hl hm => exact hm.listedUnmarked h hlisted fun _ => hclear hl
  | resize hl hms hres =>
    refine hms.listedUnmarked h hlisted fun m hm => ?_
    rcases hres with rfl | rfl
    · cases hm
    · exact (Move.ends_of_trims (trims_of_mem_resizeMoves hm)).2
  | attach hms hres hms' hat =>
    refine hms'.listedUnmarked (hms.repInv h) (hms.listedUnmarked h hlisted fun m hm => ?_)
      fun m hm => (Move.ends_of_trims (hat.trims m hm)).2
    rcases hres with rfl | ⟨size, config, isFilled, rfl, -⟩
    · cases hm
    · exact (Move.ends_of_trims (trims_of_mem_resizeMoves hm)).2

theorem run_listedUnmarked {size : Nat} {type : MemoryType} {disableAlloc : Bool} {ls : List Label}
    {s : System} (hgood : Runs.Along step KeepsListed (.init size type disableAlloc) ls)
    (hrun : Runs.run step (.init size type disableAlloc) ls = some s) :
    RepInv s.queue ∧ ListedUnmarked s.queue := by
  refine Runs.run_invariant (I := fun s : System => RepInv s.queue ∧ ListedUnmarked s.queue)
    ?_ ⟨repInv_init size type disableAlloc, fun id ele hele => ?_⟩ hgood hrun
  · rintro s l t ⟨h, hlisted⟩ hk hs
    have hlists : KeepsLists s l :=
      ⟨hk.fresh, fun id _ => markedUnlisted_of_listedUnmarked hlisted id, hk.detached⟩
    have he := (step_effect h hlists hs).2
    exact ⟨he.repInv h, he.listedUnmarked h hlisted hk.clear⟩
  · simp [System.init, create] at hele

/-- **What a resize drops.** In every state of a run whose steps meet the
condition, a successful `SetQueueSize` drops the surplus of live buffers and no
more, in the right order, exactly where the sizes agree with the occupancy. -/
theorem resize_drops_surplus {size : Nat} {type : MemoryType} {disableAlloc : Bool}
    {ls : List Label} {s : System}
    (hgood : Runs.Along step KeepsListed (.init size type disableAlloc) ls)
    (hrun : Runs.run step (.init size type disableAlloc) ls = some s) {n : Nat}
    (hok : (s.queue.setQueueSize n).2 = .ok) :
    DropsSurplus s.queue (s.queue.setQueueSize n).1 n ↔ TrimsLive s.queue n := by
  obtain ⟨h, hlisted⟩ := run_listedUnmarked hgood hrun
  obtain ⟨hne, hresize⟩ := setQueueSize_resizes hok
  rw [hresize]
  exact resizeLocked_dropsSurplus h hlisted hne

/-! ## A full queue, and one that is not -/

theorem resize_drops_surplus_requestThree :
    ∃ s, Runs.run step (.init 3 .unknownMemory false)
        [requestNew 1, requestNew 2, requestNew 3] = some s ∧
      (DropsSurplus s.queue (s.queue.setQueueSize 1).1 1 ↔ TrimsLive s.queue 1) ∧
      TrimsLive s.queue 1 := by
  refine ⟨_, rfl, @resize_drops_surplus 3 .unknownMemory false
    [requestNew 1, requestNew 2, requestNew 3] _ ?_ rfl 1 rfl, by decide⟩
  have hrequest : ∀ {s : System} {id : UInt64}, Fresh s.queue (requestNew id).env →
      forceDetached s (requestNew id) = none → KeepsListed s (requestNew id) :=
    fun hfresh hnone => ⟨hfresh, by rw [hnone]; nofun, nofun⟩
  refine .cons (hrequest (by decide) rfl) rfl ?_
  refine .cons (hrequest (by decide) rfl) rfl ?_
  exact .cons (hrequest (by decide) rfl) rfl trivial

def pushOne : List Label :=
  [{ sampleLabel (.setConsumerListener (some 2)) with thread := 1 }, requestNew 1,
    { requestNew 1 with action := .call (.pushBuffer 1 true) },
    { requestNew 1 with action := .resume false }, { requestNew 1 with action := .resume false },
    { requestNew 1 with action := .resume false }]

/-- The queue holds one filled buffer, and a cut from ten to nine deletes it. -/
theorem shrink_drops_filled :
    ∃ s, Runs.run step (.init 10 .unknownMemory false) pushOne = some s ∧
      s.queue.dirtyBufferList = [1] ∧ s.queue.unmarkedCount = 1 ∧
      (s.queue.setQueueSize 9).2 = .ok ∧
      (s.queue.setQueueSize 9).1.dirtyBufferList = [] ∧
      ¬ DropsSurplus s.queue (s.queue.setQueueSize 9).1 9 := by
  refine ⟨_, rfl, by decide, by decide, by decide, by decide, fun h => ?_⟩
  exact absurd h.count (by decide)

end MediaFoundation.Queue
