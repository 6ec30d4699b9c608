import MediaFoundation.Lib.Fifo
import MediaFoundation.Queue.Invariant

/-!
# The dirty list delivers first in, first out

The dirty list refines the journal of `Lib.Fifo`: every buffer that a
`ReturnBuffer` block files is journalled, and every step that touches the
dirty list is the journal operation of its event. `History` is the journal of
a run, kept beside the system and never read by it.
-/

namespace MediaFoundation.Queue

open AVBufferQueueImpl
open Std (ExtTreeMap)

/-! ## The filled buffers -/

namespace AVBufferQueueImpl

variable {q q' : AVBufferQueueImpl}

def dirtyBuffers (q : AVBufferQueueImpl) : List (Option AVBufferRef) :=
  q.dirtyBufferList.map fun id => (q.element id).buffer

theorem Moved.buffer_eq {m : Move} (hm : Moved q q' m) (h : RepInv q) :
    ∀ id ∈ q'.dirtyBufferList, id ∈ q.dirtyBufferList →
      (q'.element id).buffer = (q.element id).buffer := by
  intro id hid' hid
  obtain ⟨ele, buffer, hele, hst, -, -⟩ := h.lookup_of_dirty hid
  simp only [element]
  cases hm with
  | quiet _ hq | resize _ hq => rw [hq.map_eq]
  | request _ hele _ _ hq | push hele _ _ _ hq | free hele _ _ _ _ hq | append hele _ _ _ _ hq
  | acquire _ hele _ _ hq =>
    rw [hq.map_eq, ExtTreeMap.getElem?_insert]
    grind
  | @realloc _ new _ _ hnew _ hq =>
    have hne : new.uniqueId ≠ id := fun heq => hnew (heq ▸ mem_of_lookup hele)
    have hfree := (h.free_iff id)
    rw [hq.map_eq, ExtTreeMap.getElem?_insert, ExtTreeMap.getElem?_erase]
    grind [stateOf]
  | dropFree hmem _ hq =>
    have hfree := (h.free_iff id)
    rw [hq.map_eq, ExtTreeMap.getElem?_erase]
    grind [stateOf]
  | @add new _ _ hnew _ _ _ hq =>
    have hne : new.uniqueId ≠ id := fun heq => hnew (heq ▸ mem_of_lookup hele)
    rw [hq.map_eq, ExtTreeMap.getElem?_insert]
    grind
  | erase hele _ _ hq =>
    rw [hq.map_eq, ExtTreeMap.getElem?_erase]
    grind [AVBufferState.listed]
  | @deleteBuffers count _ hq =>
    rw [hq.dirty_eq, mem_drop_iff h.dirty_nodup] at hid'
    rw [hq.map_eq, deleteBuffers_lookup]
    have := mem_deletedIds q count id
    have := (h.free_iff id)
    grind [stateOf, AVBufferElement.marked, List.mem_of_mem_take]
  | clear hmap _ _ _ hq =>
    rw [hq.map_eq, hmap]
    grind [AVBufferElement.cleared]
  | clearIf hmap _ _ _ hq =>
    rw [hq.map_eq, hmap]
    grind

theorem Moved.dirtyBuffers_eq {m : Move} (hm : Moved q q' m) (h : RepInv q) {l : List UInt64}
    (hl : q'.dirtyBufferList = l) (hsub : ∀ id ∈ l, id ∈ q.dirtyBufferList) :
    q'.dirtyBuffers = l.map fun id => (q.element id).buffer := by
  rw [dirtyBuffers, hl]
  exact List.map_congr_left fun id hid => hm.buffer_eq h id (hl ▸ hid) (hsub id hid)

theorem Moved.dirty_of_plain {m : Move} (hm : Moved q q' m) (hplain : m.plain = true) :
    q'.dirtyBufferList = q.dirtyBufferList := by
  cases hm with
  | quiet _ hq | request _ _ _ _ hq | realloc _ _ _ hq | dropFree _ _ hq | add _ _ _ _ hq
  | push _ _ _ _ hq | free _ _ _ _ _ hq | erase _ _ _ hq => exact hq.dirty_eq
  | _ => cases hplain

theorem Moved.dirtyBuffers_plain {m : Move} (hm : Moved q q' m) (hplain : m.plain = true)
    (h : RepInv q) : q'.dirtyBuffers = q.dirtyBuffers :=
  hm.dirtyBuffers_eq h (hm.dirty_of_plain hplain) fun _ hid => hid

theorem Moved.dirtyBuffers_append {buffer : AVBufferRef} (hm : Moved q q' (.append buffer))
    (h : RepInv q) : q'.dirtyBuffers = q.dirtyBuffers ++ [some buffer] := by
  have hbuffers := hm.buffer_eq h
  cases hm with
  | append hele _ _ hbuf _ hq =>
    have hdirty := hq.dirty_eq
    rw [dirtyBuffers, hdirty, List.map_append]
    congr 1
    · exact List.map_congr_left fun id hid =>
        hbuffers id (by rw [hdirty]; exact List.mem_append_left _ hid) hid
    · simp [element, hq.map_eq, hbuf]

theorem Moved.dirtyBuffers_acquire {buffer : AVBufferRef} (hm : Moved q q' (.acquire buffer))
    (h : RepInv q) : q.dirtyBuffers = some buffer :: q'.dirtyBuffers := by
  have hm' := hm
  cases hm with
  | acquire hl hele hbuf _ hq =>
    rw [hm'.dirtyBuffers_eq h hq.dirty_eq fun id hid => by rw [hl]; exact List.mem_cons_of_mem _ hid,
      dirtyBuffers, hl, List.map_cons, element_of_lookup hele, hbuf]

theorem Moved.dirtyBuffers_clear (hm : Moved q q' .clear) : q'.dirtyBuffers = [] := by
  cases hm with
  | clear _ _ _ _ hq => rw [dirtyBuffers, hq.dirty_eq, List.map_nil]

theorem Moved.dirtyBuffers_clearIf {pred : Option AVBufferRef → Bool}
    (hm : Moved q q' (.clearIf pred)) (h : RepInv q) :
    q'.dirtyBuffers = q.dirtyBuffers.filter fun buffer => !pred buffer := by
  have hm' := hm
  cases hm with
  | clearIf _ _ _ _ hq =>
    rw [hm'.dirtyBuffers_eq h hq.dirty_eq fun id hid => List.mem_of_mem_filter hid, dirtyBuffers,
      List.filter_map]
    rfl

theorem Moved.dirtyBuffers_delete {count : Nat} (hm : Moved q q' (.deleteBuffers count))
    (h : RepInv q) : ∃ n, q'.dirtyBufferList = q.dirtyBufferList.drop n ∧
      q'.dirtyBuffers = q.dirtyBuffers.drop n := by
  have hm' := hm
  cases hm with
  | deleteBuffers _ hq =>
    refine ⟨_, hq.dirty_eq, ?_⟩
    rw [hm'.dirtyBuffers_eq h hq.dirty_eq fun id hid => List.mem_of_mem_drop hid, dirtyBuffers,
      List.map_drop]

theorem Moves.dirtyBuffers_drop {ms : List Move} (hms : Moves q ms q') (h : RepInv q)
    (htrims : ∀ m ∈ ms, m.trims = true) :
    ∃ n, q'.dirtyBufferList = q.dirtyBufferList.drop n ∧
      q'.dirtyBuffers = q.dirtyBuffers.drop n := by
  induction ms generalizing q with
  | nil => exact ⟨0, by rw [hms, List.drop_zero], by rw [hms, List.drop_zero]⟩
  | cons m ms ih =>
    obtain ⟨u, hm, hms⟩ := hms
    obtain ⟨n, hn, hn'⟩ := ih hms (hm.repInv h) fun m hm => htrims m (List.mem_cons_of_mem _ hm)
    have hfirst : ∃ k, u.dirtyBufferList = q.dirtyBufferList.drop k ∧
        u.dirtyBuffers = q.dirtyBuffers.drop k := by
      have htrim := htrims m (List.mem_cons_self ..)
      cases m with
      | quiet | add => exact ⟨0, hm.dirty_of_plain rfl, hm.dirtyBuffers_plain rfl h⟩
      | resize size =>
        have hm' := hm
        cases hm with
        | resize _ hq => exact ⟨0, hq.dirty_eq, hm'.dirtyBuffers_eq h hq.dirty_eq fun _ hid => hid⟩
      | deleteBuffers count => exact hm.dirtyBuffers_delete h
      | _ => cases htrim
    obtain ⟨k, hk, hk'⟩ := hfirst
    exact ⟨k + n, by rw [hn, hk, List.drop_drop], by rw [hn', hk', List.drop_drop]⟩

end AVBufferQueueImpl

/-! ## The journal of a run -/

/-- Why a filled buffer left the dirty list other than through `AcquireBuffer`. -/
inductive Removal where
  | clear
  | clearBufferIf
  | resizeOrAttach

/-- What a run has filed in the dirty list, what became of it, and what
`AcquireBuffer` has handed out. -/
structure History where
  journal : Fifo.Journal AVBufferRef Removal := []
  appended : List AVBufferRef := []
  acquired : List AVBufferRef := []

def History.record (h : History) : Event → History
  | .appended buffer =>
    { h with journal := Fifo.append h.journal buffer, appended := h.appended ++ [buffer] }
  | .acquired buffer =>
    { h with journal := Fifo.take h.journal, acquired := h.acquired ++ [buffer] }
  | .cleared => { h with journal := Fifo.removeIf .clear (fun _ => true) h.journal }
  | .clearedIf pred =>
    { h with journal := Fifo.removeIf .clearBufferIf (fun buffer => pred (some buffer)) h.journal }
  | .dropped count => { h with journal := Fifo.removeFirst .resizeOrAttach count h.journal }
  | _ => h

def History.recordStep (h : History) (s : System) (l : Label) (_ : System) : History :=
  (eventsOf s l).foldl History.record h

structure History.Matches (h : History) (q : AVBufferQueueImpl) : Prop where
  appended : Fifo.items h.journal = h.appended
  acquired : Fifo.taken h.journal = h.acquired
  waiting : q.dirtyBuffers = (Fifo.waiting h.journal).map some
  inOrder : Fifo.InOrder h.journal

theorem History.record_of_not_fifo (h : History) {e : Event} (he : e.isFifo = false) :
    h.record e = h := by
  cases e <;> first | rfl | cases he

theorem History.foldl_fifo (h : History) (es : List Event) :
    (es.filter Event.isFifo).foldl History.record h = es.foldl History.record h := by
  induction es generalizing h with
  | nil => rfl
  | cons e es ih =>
    rw [List.filter_cons]
    split
    · exact ih _
    next he => rw [List.foldl_cons, h.record_of_not_fifo (Bool.eq_false_iff.mpr he), ih]

theorem droppedEvent_matches {q q' : AVBufferQueueImpl} {h : History} (hh : h.Matches q) {n : Nat}
    (hn : q'.dirtyBufferList = q.dirtyBufferList.drop n)
    (hn' : q'.dirtyBuffers = q.dirtyBuffers.drop n) :
    (h.record (droppedEvent q q')).Matches q' := by
  have hlength : q.dirtyBufferList.length = (Fifo.waiting h.journal).length := by
    simpa [dirtyBuffers] using congrArg List.length hh.waiting
  refine ⟨?_, ?_, ?_, hh.inOrder.removeFirst .resizeOrAttach _⟩
  · simp [History.record, droppedEvent, hh.appended]
  · simp [History.record, droppedEvent, hh.acquired]
  · simp only [History.record, droppedEvent, Fifo.waiting_removeFirst, hn', hh.waiting, hn,
      List.length_drop, ← List.map_drop]
    congr 1
    rcases Nat.le_total n q.dirtyBufferList.length with hle | hle
    · rw [Nat.sub_sub_self hle]
    · rw [List.drop_eq_nil_of_le (by omega), List.drop_eq_nil_of_le (by omega)]

/-- **A block changes the filled buffers as its journal operation says.** -/
theorem Effect.record {q q' : AVBufferQueueImpl} {l : Label} {es : List Event}
    (he : Effect q l q' es) (hq : RepInv q) {h : History} (hh : h.Matches q) :
    (es.foldl History.record h).Matches q' := by
  cases he with
  | plain hm hplain =>
    exact ⟨hh.appended, hh.acquired, by rw [hm.dirtyBuffers_plain hplain hq]; exact hh.waiting,
      hh.inOrder⟩
  | append hm =>
    refine ⟨?_, ?_, ?_, hh.inOrder.append _⟩
    · simp [History.record, hh.appended]
    · simp [History.record, hh.acquired]
    · simp [History.record, hm.dirtyBuffers_append hq, hh.waiting]
  | @acquire buffer hm =>
    have hw := hm.dirtyBuffers_acquire hq
    rw [hh.waiting] at hw
    cases hj : Fifo.waiting h.journal with
    | nil => simp [hj] at hw
    | cons a w =>
      rw [hj, List.map_cons, List.cons.injEq, Option.some.injEq] at hw
      obtain ⟨rfl, hw⟩ := hw
      refine ⟨?_, ?_, ?_, hh.inOrder.take⟩
      · simp [History.record, hh.appended]
      · simp [History.record, Fifo.taken_take hh.inOrder hj, hh.acquired]
      · simp [History.record, Fifo.waiting_take, hj, hw]
  | clear _ hm =>
    refine ⟨?_, ?_, ?_, hh.inOrder.removeIf .clear fun _ => true⟩
    · simp [History.record, hh.appended]
    · simp [History.record, hh.acquired]
    · simp [History.record, hm.dirtyBuffers_clear]
  | @clearIf pred hm =>
    refine ⟨?_, ?_, ?_, hh.inOrder.removeIf .clearBufferIf fun buffer => pred (some buffer)⟩
    · simp [History.record, hh.appended]
    · simp [History.record, hh.acquired]
    · simp only [List.foldl_cons, List.foldl_nil, History.record, Fifo.waiting_removeIf,
        hm.dirtyBuffers_clearIf hq, hh.waiting, List.filter_map]
      rfl
  | resize _ hms hres =>
    obtain ⟨n, hn, hn'⟩ := hms.dirtyBuffers_drop hq fun m hm => by
      rcases hres with rfl | rfl
      · cases hm
      · exact trims_of_mem_resizeMoves hm
    exact droppedEvent_matches hh hn hn'
  | attach hms hres hms' hat =>
    obtain ⟨n, hn, hn'⟩ := (hms.append hms').dirtyBuffers_drop hq fun m hm => by
      rcases List.mem_append.mp hm with hm | hm
      · rcases hres with rfl | ⟨_, _, _, rfl, -⟩
        · cases hm
        · exact trims_of_mem_resizeMoves hm
      · exact hat.trims m hm
    exact droppedEvent_matches hh hn hn'

/-! ## Delivery over runs -/

def stepWithHistory : System × History → Label → Option (System × History) :=
  Runs.withGhost step History.recordStep

theorem run_history {size : Nat} {type : MemoryType} {disableAlloc : Bool} {ls : List Label}
    {s : System} {h : History}
    (hgood : Runs.Along stepWithHistory (fun x l => KeepsLists x.1 l)
      (.init size type disableAlloc, {}) ls)
    (hrun : Runs.run stepWithHistory (.init size type disableAlloc, {}) ls = some (s, h)) :
    RepInv s.queue ∧ h.Matches s.queue := by
  have hinit : ({} : History).Matches (System.init size type disableAlloc).queue :=
    ⟨rfl, rfl, rfl, .nil⟩
  refine Runs.run_invariant
    (I := fun x : System × History => RepInv x.1.queue ∧ x.2.Matches x.1.queue)
    ?_ ⟨repInv_init size type disableAlloc, hinit⟩ hgood hrun
  rintro x l y ⟨hq, hh⟩ hk hs
  obtain ⟨hs, hg⟩ := Runs.withGhost_some.mp hs
  obtain ⟨-, he⟩ := step_effect hq hk hs
  refine ⟨he.repInv hq, ?_⟩
  rw [hg, History.recordStep, ← History.foldl_fifo]
  exact he.record hq hh

theorem step_clearBufferIf {s t : System} {l : Label} (hq : RepInv s.queue)
    {pred : Option AVBufferRef → Bool} (hl : l.action = .call (.clearBufferIf pred))
    (hs : step s l = some t) : Moved s.queue t.queue (.clearIf pred) := by
  obtain ⟨u, hu, hm⟩ := clearBufferIf_moved hq pred
  obtain ⟨-, ⟨o, hb, rfl, -⟩ | ⟨hb, -, -⟩ | ⟨ls, -, hls, -, -⟩⟩ := step_cases hs
  · rcases block_cases hb with ⟨c, -, hc, ho⟩ | ⟨timedOut, -, hc, -⟩
    · obtain rfl := Action.call.inj (hc.symm.trans hl)
      rw [startCall, hu, Option.map_some, Option.some.injEq] at ho
      rw [ho]
      exact hm
    · rw [hl] at hc
      cases hc
  · rcases block_cases hb with ⟨c, -, hc, ho⟩ | ⟨timedOut, -, hc, -⟩
    · obtain rfl := Action.call.inj (hc.symm.trans hl)
      rw [startCall, hu] at ho
      cases ho
    · rw [hl] at hc
      cases hc
  · rw [hl] at hls
    cases hls

/-- **First in, first out.** After a run whose steps keep the lists,
`AcquireBuffer` has handed out the journalled buffers that are neither waiting
nor removed, in the order in which `ReturnBuffer` filed them and once each, and
the dirty list holds those that wait. A further `ClearBufferIf` keeps the order
of the buffers it leaves. -/
theorem fifo_delivery {size : Nat} {type : MemoryType} {disableAlloc : Bool} {ls : List Label}
    {s : System} {h : History}
    (hgood : Runs.Along stepWithHistory (fun x l => KeepsLists x.1 l)
      (.init size type disableAlloc, {}) ls)
    (hrun : Runs.run stepWithHistory (.init size type disableAlloc, {}) ls = some (s, h)) :
    h.Matches s.queue ∧
    ∀ l pred t, l.action = .call (.clearBufferIf pred) → step s l = some t →
      t.queue.dirtyBuffers = s.queue.dirtyBuffers.filter fun buffer => !pred buffer := by
  obtain ⟨hq, hh⟩ := run_history hgood hrun
  exact ⟨hh, fun l pred t hl hs => (step_clearBufferIf hq hl hs).dirtyBuffers_clearIf hq⟩

theorem fifo_delivery_fillClearResize :
    ∃ s h, Runs.run stepWithHistory (.init 2 .unknownMemory false, {}) fillClearResize =
        some (s, h) ∧
      h.appended = [sampleBuffer, ⟨0, 8⟩] ∧ h.acquired = [sampleBuffer] ∧ h.Matches s.queue :=
  ⟨_, _, rfl, by decide +kernel, by decide +kernel,
    (@fifo_delivery 2 .unknownMemory false fillClearResize _ _ (by decide +kernel) rfl).1⟩

/-- The forced detach takes a buffer away that `ReturnBuffer` had filed: it
still waits in the journal, nothing has removed it, and the dirty list no
longer stands for it. -/
theorem detach_loses_filled_buffer :
    ∃ s h, Runs.run stepWithHistory (.init 1 .unknownMemory false, {}) attachFilled =
        some (s, h) ∧
      Fifo.waiting h.journal = [sampleBuffer] ∧ s.queue.dirtyBuffers = [none] ∧
      ¬ h.Matches s.queue := by
  refine ⟨_, _, rfl, by decide, by decide, fun hh => ?_⟩
  have hw := hh.waiting
  revert hw
  decide

end MediaFoundation.Queue
