import MediaFoundation.Queue.Moves
import MediaFoundation.Queue.System

/-!
# The representation invariant over runs

Which moves a step of the system makes (`block_effect`), and from it the
representation invariant in every state that a run reaches.

Two blocks can take an element out of the map while its id stays on a list:

* the forced detach of `AttachBuffer`, after a `ReturnBuffer` that filed the
  buffer in the dirty list and then found no consumer listener;
* `PushBuffer` and `ReturnBuffer` of a buffer that is marked for deletion,
  which they delete before they look at its state, although `Clear` may have
  put it on the free list.

`KeepsLists` is the condition that a step is neither; `representation_invariant`
is the invariant under it, and `detach_leaves_dirty_id` the run that breaks it.
-/

namespace MediaFoundation.Queue

open AVBufferQueueImpl

variable {s t : System} {l : Label}

/-! ## The condition -/

/-- The buffer whose `PushBuffer` or `ReturnBuffer` block the label runs. -/
def givenBack (s : System) (l : Label) : Option UInt64 :=
  match s.threads l.thread, l.action with
  | .idle, .call (.pushBuffer uniqueId _) => some uniqueId
  | .idle, .call (.returnBuffer uniqueId _) => some uniqueId
  | .pushFilled uniqueId, .resume _ => some uniqueId
  | .returnBlock _ uniqueId _, .resume _ => some uniqueId
  | _, _ => none

def forceDetached (s : System) (l : Label) : Option UInt64 :=
  match s.threads l.thread, l.action with
  | .detachBlock uniqueId _, .resume _ => some uniqueId
  | _, _ => none

structure KeepsLists (s : System) (l : Label) : Prop where
  fresh : Fresh s.queue l.env
  marked : ∀ uniqueId ∈ givenBack s l, MarkedUnlisted s.queue uniqueId
  detached : ∀ uniqueId ∈ forceDetached s l, Unlisted s.queue uniqueId

instance : Decidable (KeepsLists s l) :=
  have := @Option.decidableForallMem _ (MarkedUnlisted s.queue) _ (givenBack s l)
  have := @Option.decidableForallMem _ (Unlisted s.queue) _ (forceDetached s l)
  decidable_of_iff (Fresh s.queue l.env ∧
      (∀ uniqueId ∈ givenBack s l, MarkedUnlisted s.queue uniqueId) ∧
      ∀ uniqueId ∈ forceDetached s l, Unlisted s.queue uniqueId)
    ⟨fun h => ⟨h.1, h.2.1, h.2.2⟩, fun h => ⟨h.fresh, h.marked, h.detached⟩⟩

/-! ## The moves of a step -/

/-- The event tells about the dirty list. -/
def Event.isFifo : Event → Bool
  | .appended _ | .acquired _ | .cleared | .clearedIf _ | .dropped _ => true
  | _ => false

/-- **What a block can do to the queue**: its moves, with the events that tell
about the dirty list. -/
inductive Effect (q : AVBufferQueueImpl) (l : Label) (q' : AVBufferQueueImpl) :
    List Event → Prop where
  | plain {m : Move} (hm : Moved q q' m) (hplain : m.plain = true) : Effect q l q' []
  | append {buffer : AVBufferRef} (hm : Moved q q' (.append buffer)) :
      Effect q l q' [.appended buffer]
  | acquire {buffer : AVBufferRef} (hm : Moved q q' (.acquire buffer)) :
      Effect q l q' [.acquired buffer]
  | clear (hl : l.action = .call .clear) (hm : Moved q q' .clear) : Effect q l q' [.cleared]
  | clearIf {pred : Option AVBufferRef → Bool} (hm : Moved q q' (.clearIf pred)) :
      Effect q l q' [.clearedIf pred]
  | resize {size : Nat} {ms : List Move}
      (hl : l.action = .call (.setQueueSize size) ∨ l.action = .call (.setLargerQueueSize size))
      (hms : Moves q ms q') (hres : ms = [] ∨ ms = q.resizeMoves size) :
      Effect q l q' [droppedEvent q q']
  | attach {u : AVBufferQueueImpl} {buffer : AVBufferRef} {ms ms' : List Move} {status : Status}
      (hms : Moves q ms u)
      (hres : ms = [] ∨ ∃ size config isFilled, ms = q.resizeMoves size ∧
        l.action = .call (.setQueueSizeAndAttachBuffer size buffer config isFilled))
      (hms' : Moves u ms' q') (hat : AttachMoves u buffer ms' status) :
      Effect q l q' [droppedEvent q q']

theorem Effect.repInv {q q' : AVBufferQueueImpl} {es : List Event} (he : Effect q l q' es)
    (h : RepInv q) : RepInv q' := by
  cases he with
  | plain hm | append hm | acquire hm | clear _ hm | clearIf hm => exact hm.repInv h
  | resize _ hms => exact hms.repInv h
  | attach hms _ hms' => exact hms'.repInv (hms.repInv h)

def Outcome.fifoEvents (o : Outcome) : List Event := o.events.filter Event.isFifo

theorem refusal_fifo (caller : Caller) (id : UInt64) :
    (refusal caller id).filter Event.isFifo = [] := by
  cases caller <;> rfl

section Blocks

variable {q : AVBufferQueueImpl} {o : Outcome}

theorem afterRequest_effect {r : AVBufferQueueImpl × Option (Except Status AVBufferRef)}
    {party : Nat} {config : AVBufferConfig} {timeoutUs : Int64}
    (h : ∃ m, Moved q r.1 m ∧ RequestMove m r.2) :
    Effect q l (afterRequest party config timeoutUs r).queue
      (afterRequest party config timeoutUs r).fifoEvents := by
  obtain ⟨u, r⟩ := r
  obtain ⟨m, hm, hr⟩ := h
  cases hr <;> exact .plain hm rfl

theorem afterPush_effect {r : AVBufferQueueImpl × PushOutcome} {caller : Caller} {id : UInt64}
    {available : Bool} (h : ∃ m, Moved q r.1 m ∧ PushMove id m r.2) :
    Effect q l (afterPush caller id available r).queue
      (afterPush caller id available r).fifoEvents := by
  obtain ⟨u, r⟩ := r
  obtain ⟨m, hm, hr⟩ := h
  cases hr with
  | failed status | deleted =>
    rw [afterPush, Outcome.fifoEvents, (finish_queue ..).1, (finish_queue ..).2]
    exact .plain hm rfl
  | pushed hkey => cases caller <;> exact .plain hm rfl

theorem afterReturn_effect {r : AVBufferQueueImpl × ReturnOutcome} {caller : Caller} {id : UInt64}
    (h : ∃ m, Moved q r.1 m ∧ ReturnMove id m r.2) :
    Effect q l (afterReturn caller id r).queue (afterReturn caller id r).fifoEvents := by
  obtain ⟨u, r⟩ := r
  obtain ⟨m, hm, hr⟩ := h
  cases hr with
  | failed status =>
    rw [afterReturn, Outcome.fifoEvents, (finish_queue ..).1, (finish_queue ..).2, refusal_fifo]
    exact .plain hm rfl
  | deleted =>
    rw [afterReturn, Outcome.fifoEvents, (finish_queue ..).1, (finish_queue ..).2]
    exact .plain hm rfl
  | cancelled => exact .plain hm rfl
  | appended hkey => exact .append hm

theorem afterRelease_effect {r : AVBufferQueueImpl × ReleaseOutcome} {id : UInt64}
    (h : ∃ m, Moved q r.1 m ∧ ReleaseMove id m r.2) :
    Effect q l (afterRelease id r).queue (afterRelease id r).fifoEvents := by
  obtain ⟨u, r⟩ := r
  obtain ⟨m, hm, hr⟩ := h
  cases hr <;> exact .plain hm rfl

theorem startCall_effect (h : RepInv q) {env : Env} {party : Nat} {c : Call}
    (hl : l.action = .call c) (hfresh : Fresh q env)
    (hmarked : ∀ id, (∃ available, c = .pushBuffer id available ∨ c = .returnBuffer id available) →
      MarkedUnlisted q id) :
    ∃ o, startCall q env party c = some o ∧ Effect q l o.queue o.fifoEvents := by
  cases c with
  | requestBufferWaitUs config timeoutUs seen =>
    exact ⟨_, rfl, afterRequest_effect (requestBufferWaitUs_move h hfresh _ timeoutUs)⟩
  | pushBuffer id available =>
    obtain ⟨r, m, hr, hm⟩ := pushBuffer_move h (hmarked id ⟨available, .inl rfl⟩) env available
    exact ⟨_, by rw [startCall, hr]; rfl, afterPush_effect ⟨m, hm⟩⟩
  | returnBuffer id available =>
    obtain ⟨r, m, hr, hm⟩ := returnBuffer_move h (hmarked id ⟨available, .inr rfl⟩) env available
    exact ⟨_, by rw [startCall, hr]; rfl, afterReturn_effect ⟨m, hm⟩⟩
  | attachBuffer buffer config isFilled =>
    obtain ⟨ms, hms, hat⟩ := attachBuffer_moves h env buffer config
    exact ⟨_, rfl, .attach (show Moves q [] q from rfl) (.inl rfl) hms hat⟩
  | setQueueSizeAndAttachBuffer size buffer config isFilled =>
    obtain ⟨u, ms, ms', hms, hres, hms', hat⟩ :=
      setQueueSizeAndAttachBuffer_moves h env size buffer config
    refine ⟨_, rfl, .attach hms ?_ hms' hat⟩
    exact hres.imp id fun hres => ⟨size, config, isFilled, hres, hl⟩
  | detachBuffer id =>
    obtain ⟨m, hm, hr⟩ := detachBuffer_move q id
    simp only [startCall]
    split
    next u hu =>
      rw [hu] at hm hr
      obtain ⟨-, hr⟩ | ⟨rfl, -⟩ := hr
      · exact absurd rfl hr
      · exact ⟨_, rfl, .plain hm rfl⟩
    next u status hok hu =>
      rw [hu] at hm hr
      obtain ⟨rfl, -⟩ | ⟨-, rfl⟩ := hr
      · exact ⟨_, rfl, .plain hm rfl⟩
      · exact (hok rfl).elim
  | acquireBuffer =>
    rcases acquireBuffer_move h with ⟨-, hacq⟩ | ⟨u, buffer, hacq, hm⟩
    · exact ⟨_, by rw [startCall, hacq]; rfl, .plain (.quiet rfl ⟨rfl, rfl, rfl, rfl⟩) rfl⟩
    · exact ⟨_, by rw [startCall, hacq]; rfl, .acquire hm⟩
  | releaseBuffer id => exact ⟨_, rfl, afterRelease_effect (releaseBuffer_move h id)⟩
  | setQueueSize size =>
    obtain ⟨ms, hms, hres⟩ := setQueueSize_moves q size
    exact ⟨_, rfl, .resize (.inl hl) hms hres⟩
  | setLargerQueueSize size =>
    obtain ⟨ms, hms, hres⟩ := setLargerQueueSizeLocked_moves q size
    exact ⟨_, rfl, .resize (.inr hl) hms hres⟩
  | clear => exact ⟨_, rfl, .clear hl (clear_moved h)⟩
  | clearBufferIf pred =>
    obtain ⟨u, hu, hm⟩ := clearBufferIf_moved h pred
    exact ⟨_, by rw [startCall, hu]; rfl, .clearIf hm⟩

theorem resumeCall_effect (h : RepInv q) {ls : Listeners} {env : Env} {timedOut : Bool}
    {thread : Thread} (hfresh : Fresh q env)
    (hmarked : ∀ id, (thread = .pushFilled id ∨ ∃ caller available,
      thread = .returnBlock caller id available) → MarkedUnlisted q id)
    (hdetached : ∀ id status, thread = .detachBlock id status → Unlisted q id) :
    ∃ o, resumeCall q ls env timedOut thread = some o ∧ Effect q l o.queue o.fifoEvents := by
  have hquiet : Effect q l q [] := .plain (.quiet rfl ⟨rfl, rfl, rfl, rfl⟩) rfl
  cases thread with
  | idle | producerBlock => exact ⟨_, rfl, hquiet⟩
  | requesting party config timeoutUs awake =>
    exact ⟨_, rfl, afterRequest_effect (requestBufferResume_move h hfresh config timeoutUs timedOut)⟩
  | pushFilled id =>
    obtain ⟨r, m, hr, hm⟩ := pushBuffer_move h (hmarked id (.inl rfl)) env true
    exact ⟨_, by rw [resumeCall, hr]; rfl, afterPush_effect ⟨m, hm⟩⟩
  | releaseAttached id => exact ⟨_, rfl, afterRelease_effect (releaseBuffer_move h id)⟩
  | brokerBlock caller id buffer =>
    simp only [resumeCall]
    split
    · refine ⟨_, rfl, ?_⟩
      rw [Outcome.fifoEvents, (finish_queue ..).1, (finish_queue ..).2]
      exact hquiet
    · refine ⟨_, rfl, ?_⟩
      rw [Outcome.fifoEvents, (finish_queue ..).1, (finish_queue ..).2]
      exact hquiet
    · exact ⟨_, rfl, hquiet⟩
  | returnBlock caller id available =>
    obtain ⟨r, m, hr, hm⟩ :=
      returnBuffer_move h (hmarked id (.inr ⟨caller, available, rfl⟩)) env available
    exact ⟨_, by rw [resumeCall, hr]; rfl, afterReturn_effect ⟨m, hm⟩⟩
  | consumerBlock caller id =>
    simp only [resumeCall]
    split
    · refine ⟨_, rfl, ?_⟩
      rw [Outcome.fifoEvents, (finish_queue ..).1, (finish_queue ..).2]
      exact hquiet
    · refine ⟨_, rfl, ?_⟩
      rw [Outcome.fifoEvents, (finish_queue ..).1, (finish_queue ..).2, refusal_fifo]
      exact hquiet
  | detachBlock id status =>
    obtain ⟨m, hm, hm'⟩ := forcedDetach_move (hdetached id status rfl)
    refine ⟨_, rfl, .plain hm ?_⟩
    rcases hm' with rfl | rfl <;> rfl

end Blocks

/-- **No block of a step that keeps the lists crashes, and each has an effect.** -/
theorem block_effect (h : RepInv s.queue) (hk : KeepsLists s l) {r : Option Outcome}
    (hr : block s l = some r) :
    ∃ o, r = some o ∧ Effect s.queue l o.queue o.fifoEvents := by
  rcases block_cases hr with ⟨c, hidle, hc, rfl⟩ | ⟨timedOut, -, hresume, rfl⟩
  · refine startCall_effect h hc hk.fresh fun id => ?_
    rintro ⟨available, rfl | rfl⟩
    · exact hk.marked id (by rw [givenBack, hidle, hc]; rfl)
    · exact hk.marked id (by rw [givenBack, hidle, hc]; rfl)
  · refine resumeCall_effect h hk.fresh (fun id hid => hk.marked id ?_) fun id status hid =>
      hk.detached id (by rw [forceDetached, hid, hresume]; rfl)
    rcases hid with hid | ⟨caller, available, hid⟩
    · rw [givenBack, hid, hresume]; rfl
    · rw [givenBack, hid, hresume]; rfl

theorem step_effect (h : RepInv s.queue) (hk : KeepsLists s l) (hs : step s l = some t) :
    t.crashed = false ∧ Effect s.queue l t.queue ((eventsOf s l).filter Event.isFifo) := by
  obtain ⟨hcrash, hs⟩ := step_cases hs
  rcases hs with ⟨o, hb, rfl, hes⟩ | ⟨hb, -, -⟩ | ⟨ls, -, -, rfl, hes⟩
  · obtain ⟨o', ho, he⟩ := block_effect h hk hb
    cases ho
    rw [hes]
    exact ⟨hcrash, he⟩
  · obtain ⟨o, ho, -⟩ := block_effect h hk hb
    cases ho
  · rw [hes]
    exact ⟨hcrash, .plain (.quiet rfl ⟨rfl, rfl, rfl, rfl⟩) rfl⟩

/-! ## The invariant over runs -/

/-- The lists and the map agree: each listed id is listed once, on the list of
its state, and is filed in the map with a buffer. -/
structure ListsMatchMap (q : AVBufferQueueImpl) : Prop where
  free_nodup : q.freeBufferList.Nodup
  dirty_nodup : q.dirtyBufferList.Nodup
  disjoint : q.freeBufferList.Disjoint q.dirtyBufferList
  cached : ∀ id, id ∈ q.freeBufferList ∨ id ∈ q.dirtyBufferList →
    ∃ ele buffer, q.cachedBufferMap[id]? = some ele ∧ ele.buffer = some buffer
  free_iff : ∀ id, id ∈ q.freeBufferList ↔ q.stateOf id = some .released
  dirty_iff : ∀ id, id ∈ q.dirtyBufferList ↔ q.stateOf id = some .returned

theorem listsMatchMap_of_repInv {q : AVBufferQueueImpl} (h : RepInv q) : ListsMatchMap q where
  free_nodup := h.free_nodup
  dirty_nodup := h.dirty_nodup
  disjoint id hfree hdirty := by
    have := (h.free_iff id).mp hfree
    rw [(h.dirty_iff id).mp hdirty] at this
    cases this
  cached id hid := by
    rcases hid with hid | hid
    · obtain ⟨ele, buffer, hele, -, hbuf, -⟩ := h.lookup_of_free hid
      exact ⟨ele, buffer, hele, hbuf⟩
    · obtain ⟨ele, buffer, hele, -, hbuf, -⟩ := h.lookup_of_dirty hid
      exact ⟨ele, buffer, hele, hbuf⟩
  free_iff := h.free_iff
  dirty_iff := h.dirty_iff

theorem repInv_init (size : Nat) (type : MemoryType) (disableAlloc : Bool) :
    RepInv (System.init size type disableAlloc).queue where
  free_nodup := .nil
  free_iff id := by simp [System.init, create, stateOf]
  dirty_nodup := .nil
  dirty_iff id := by simp [System.init, create, stateOf]
  keyed id ele h := by simp [System.init, create] at h
  lookups := rfl

theorem run_repInv {size : Nat} {type : MemoryType} {disableAlloc : Bool} {ls : List Label}
    (hgood : Runs.Along step KeepsLists (.init size type disableAlloc) ls)
    (hrun : Runs.run step (.init size type disableAlloc) ls = some s) :
    RepInv s.queue ∧ s.crashed = false := by
  refine Runs.run_invariant (I := fun s : System => RepInv s.queue ∧ s.crashed = false)
    ?_ ⟨repInv_init size type disableAlloc, rfl⟩ hgood hrun
  rintro u l v ⟨h, -⟩ hk hs
  obtain ⟨hcrash, he⟩ := step_effect h hk hs
  exact ⟨he.repInv h, hcrash⟩

/-- **The representation invariant.** In every state that a run reaches whose
steps keep the lists, the lists and the map agree, no lookup has met an absent
id, and no block has dereferenced a null buffer. -/
theorem representation_invariant {size : Nat} {type : MemoryType} {disableAlloc : Bool}
    {ls : List Label} (hgood : Runs.Along step KeepsLists (.init size type disableAlloc) ls)
    (hrun : Runs.run step (.init size type disableAlloc) ls = some s) :
    ListsMatchMap s.queue ∧ s.queue.absentLookups = 0 ∧ s.crashed = false := by
  obtain ⟨h, hcrash⟩ := run_repInv hgood hrun
  exact ⟨listsMatchMap_of_repInv h, h.lookups, hcrash⟩

/-! ## The run that breaks it -/

/-- A buffer that an application brings along, and what it holds. -/
def sampleBuffer : AVBufferRef := ⟨0, 7⟩

def sampleConfig : AVBufferConfig := { size := 8, capacity := 8, memoryType := .sharedMemory }

def sampleLabel (action : Action) : Label where
  thread := 0
  party := 1
  env := { contents := fun _ => { config := sampleConfig, flag := 0 }, created := none }
  action := action

/-- `AttachBuffer` of the filled sample buffer, run to its end by one thread. -/
def attachFilled : List Label :=
  sampleLabel (.call (.attachBuffer sampleBuffer sampleConfig true)) ::
    List.replicate 5 (sampleLabel (.resume false))

/-- Two filled buffers reach the dirty list; the consumer gets the first one, `Clear` frees the
second one, and the smaller queue deletes it. -/
def fillClearResize : List Label :=
  sampleLabel (.setConsumerListener (some 2)) :: attachFilled.take 5 ++
    sampleLabel (.call (.attachBuffer ⟨0, 8⟩ sampleConfig true)) ::
      List.replicate 4 (sampleLabel (.resume false)) ++
    [sampleLabel (.call .acquireBuffer), sampleLabel (.call .clear),
      sampleLabel (.call (.setQueueSize 1))]

theorem representation_invariant_fillClearResize :
    ∃ s, Runs.run step (.init 2 .unknownMemory false) fillClearResize = some s ∧
      s.queue.size = 1 ∧ sampleBuffer.uniqueId ∈ s.queue.cachedBufferMap ∧
      ListsMatchMap s.queue ∧ s.queue.absentLookups = 0 ∧ s.crashed = false :=
  ⟨_, rfl, by decide +kernel, by decide +kernel,
    @representation_invariant _ 2 .unknownMemory false fillClearResize (by decide +kernel) rfl⟩

/-- With no consumer listener `ReturnBuffer` reports an error although it has
filed the buffer in the dirty list. The forced detach then takes the buffer
out of the map, its id stays on the list, and `AcquireBuffer` looks it up. -/
theorem detach_leaves_dirty_id :
    ∃ s, Runs.run step (.init 1 .unknownMemory false) attachFilled = some s ∧
      sampleBuffer.uniqueId ∈ s.queue.dirtyBufferList ∧
      sampleBuffer.uniqueId ∉ s.queue.cachedBufferMap ∧
      (step s (sampleLabel (.call .acquireBuffer))).map System.crashed = some true :=
  ⟨_, rfl, by decide, by decide, by decide⟩

end MediaFoundation.Queue
