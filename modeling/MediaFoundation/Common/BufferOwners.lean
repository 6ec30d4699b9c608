import MediaFoundation.Common.BufferPool

/-!
# Who has the buffers of a BufferPool

A buffer is either free or held by somebody. The capacity is only a bound as long as nothing comes
back that was not counted: `Init` fills the list whatever is held, and `Append` counts the free
buffers only. A notification reaches one thread, which is enough for one buffer but not for all
the threads that have to leave. `Init` notifies nobody, so nobody may come while it fills the list.
-/

namespace MediaFoundation.BufferPool

variable {s t u : State} {events : List Event} {poolSize : Nat}

-- The property and the condition

/-- A buffer of the pool itself is what the last `Init` was called with. -/
def AsAsked (h : Handed) : Prop :=
  h.buffer.appended = false → ∀ a, h.asked = some a →
    h.buffer.size = a.msgSize ∧ h.buffer.metaType = a.type

/-- `noneBlocked` speaks of a pool whose notified threads have all run, or that is gone. -/
structure Conserved (s : State) : Prop where
  oneOwner : ((s.freeBuffers ++ s.outstanding).map Buffer.id).Nodup
  bounded : s.freeBuffers.length + s.outstanding.length ≤ s.capacity
  asAsked : ∀ h ∈ s.handed, AsAsked h
  noneBlocked : s.cv.awake = 0 ∨ s.gone = true → s.cv ≠ [] →
    s.isActive = true ∧ s.freeBuffers = []

/-- `Init` either changes nothing and is asked for nothing else, or it finds no buffer outside and
no thread that it would have to notify. -/
def KeepsInit (s : State) (msgSize : Nat) (type : BufferMetaType) (align : Nat) : Prop :=
  if s.msgSize = msgSize ∧ align = s.align then type = s.metaType
  else s.outstanding = [] ∧ (s.cv.asleep ≠ 0 → s.poolSize ≤ s.cv.awake)

/-- `Append` leaves room for the buffers outside. At most one thread sleeps when the pool becomes
inactive, and the destructor knows about it. -/
def KeepsOne (s : State) : Event → Prop
  | .init msgSize type align => KeepsInit s msgSize type align
  | .append _ _ _ => s.appends = true → s.freeBuffers.length + s.outstanding.length < s.poolSize
  | .setActive active _ => active = false → s.cv.asleep ≤ 1
  | .destruct _ => s.cv = [] ∨ s.cv.length = 1 ∧ s.allocInProgress = true
  | _ => True

/-- While an `Init` is under way nothing else happens to the pool. -/
def Keeps (s : State) : Event → Prop
  | .fill _ => True
  | e => s.filling = [] ∧ KeepsOne s e

-- What handing out does

theorem allocateBufferUnprotected_some (h : allocateBufferUnprotected s = some t) :
    ∃ buffer rest, s.freeBuffers = buffer :: rest ∧ t = { s with
      freeBuffers := rest
      outstanding := s.outstanding ++ [buffer]
      handed := s.handed ++ [⟨buffer, s.asked⟩] } := by
  unfold allocateBufferUnprotected at h
  cases hfree : s.freeBuffers with
  | nil => rw [hfree] at h; cases h
  | cons buffer rest =>
    rw [hfree] at h
    exact ⟨buffer, rest, rfl, (Option.some.inj h).symm⟩

/-- The thread leaves with nothing, or with a buffer. -/
theorem finishAllocate_some (h : finishAllocate s = some t) :
    (s.isActive = false ∧ t = { s with allocInProgress := false }) ∨
      s.isActive = true ∧ ∃ u, allocateBufferUnprotected s = some u ∧
        t = { u with allocInProgress := false } := by
  unfold finishAllocate at h
  obtain ⟨u, hu, rfl⟩ := Option.map_eq_some_iff.mp h
  split at hu
  next hactive => exact .inr ⟨hactive, u, hu, rfl⟩
  next hactive =>
    cases hu
    exact .inl ⟨Bool.eq_false_iff.mpr hactive, rfl⟩

-- The buffers

def State.buffers (s : State) : List Buffer := s.freeBuffers ++ s.outstanding

/-- The buffers are different ones, no more than the capacity, and those of the pool itself are
as the members of the pool say. -/
structure WellHeld (s : State) : Prop where
  nodup : (s.buffers.map Buffer.id).Nodup
  fresh : ∀ b ∈ s.buffers, b.id < s.nextId
  own : ∀ b ∈ s.buffers, b.appended = false → b.size = s.msgSize ∧ b.metaType = s.metaType
  bounded : s.buffers.length ≤ s.poolSize
  asked : ∀ a, s.asked = some a → a = ⟨s.msgSize, s.metaType⟩
  handed : ∀ h ∈ s.handed, AsAsked h

theorem WellHeld.regroup (h : WellHeld s) {free held : List Buffer} {handed : List Handed}
    (hsub : (free ++ held).Subperm s.buffers) (hhanded : ∀ h ∈ handed, AsAsked h)
    (active progress destroyed gone : Bool) (cv : Waiters Unit) :
    WellHeld { s with
      freeBuffers := free
      outstanding := held
      handed := handed
      isActive := active
      allocInProgress := progress
      destroyed := destroyed
      gone := gone
      cv := cv } where
  nodup := by
    obtain ⟨kept, hperm, hsublist⟩ := hsub
    exact (hperm.map Buffer.id).nodup_iff.mp ((hsublist.map Buffer.id).nodup h.nodup)
  fresh b hb := h.fresh b (hsub.subset hb)
  own b hb := h.own b (hsub.subset hb)
  bounded := le_trans hsub.length_le h.bounded
  asked := h.asked
  handed := hhanded

/-- One more buffer, which was not there before. -/
theorem WellHeld.add (h : WellHeld s) (buffer : Buffer) (hid : buffer.id = s.nextId)
    (hown : buffer.appended = false → buffer.size = s.msgSize ∧ buffer.metaType = s.metaType)
    {capacity : Nat} (hroom : s.buffers.length < capacity) (cv : Waiters Unit) :
    WellHeld { s with
      poolSize := capacity
      freeBuffers := s.freeBuffers ++ [buffer]
      nextId := s.nextId + 1
      cv := cv } := by
  have hperm : (s.freeBuffers ++ [buffer] ++ s.outstanding).Perm (buffer :: s.buffers) := by
    rw [List.append_assoc]
    exact List.perm_middle
  have hnew : ∀ b ∈ s.buffers, b.id ≠ buffer.id := fun b hb =>
    hid ▸ (h.fresh b hb).ne
  refine ⟨?_, fun b hb => ?_, fun b hb => ?_, ?_, h.asked, h.handed⟩
  · refine (hperm.map Buffer.id).nodup_iff.mpr (List.nodup_cons.mpr ⟨fun hmem => ?_, h.nodup⟩)
    obtain ⟨b, hb, heq⟩ := List.mem_map.mp hmem
    exact hnew b hb heq
  · show b.id < s.nextId + 1
    cases List.mem_cons.mp (hperm.subset hb) with
    | inl heq => rw [heq, hid]; exact Nat.lt_succ_self _
    | inr hb => exact Nat.lt_succ_of_lt (h.fresh b hb)
  · cases List.mem_cons.mp (hperm.subset hb) with
    | inl heq => exact heq ▸ hown
    | inr hb => exact h.own b hb
  · have hlength := hperm.length_eq
    show (s.freeBuffers ++ [buffer] ++ s.outstanding).length ≤ capacity
    rw [hlength, List.length_cons]
    omega

theorem WellHeld.allocateBufferUnprotected (h : WellHeld s)
    (ht : allocateBufferUnprotected s = some t) : WellHeld t := by
  obtain ⟨buffer, rest, hfree, rfl⟩ := allocateBufferUnprotected_some ht
  have hmem : buffer ∈ s.buffers := by
    rw [State.buffers, hfree]
    exact List.mem_cons_self
  have hperm : (rest ++ (s.outstanding ++ [buffer])).Perm s.buffers := by
    rw [State.buffers, hfree, ← List.append_assoc]
    exact List.perm_append_singleton _ _
  refine h.regroup hperm.subperm (fun handed hhanded => ?_) _ _ _ _ _
  cases List.mem_append.mp hhanded with
  | inl hold => exact h.handed handed hold
  | inr hnew =>
    rw [List.mem_singleton.mp hnew]
    intro hown a ha
    rw [h.asked a ha]
    exact h.own buffer hmem hown

theorem WellHeld.rest (h : WellHeld s) (active progress destroyed gone : Bool)
    (cv : Waiters Unit) :
    WellHeld { s with
      isActive := active
      allocInProgress := progress
      destroyed := destroyed
      gone := gone
      cv := cv } :=
  h.regroup (List.Subperm.refl _) h.handed _ _ _ _ _

theorem WellHeld.finishAllocate (h : WellHeld s) (ht : finishAllocate s = some t) :
    WellHeld t := by
  cases finishAllocate_some ht with
  | inl hidle =>
    rw [hidle.2]
    exact h.rest _ _ _ _ _
  | inr htake =>
    obtain ⟨-, u, hu, rfl⟩ := htake
    exact (h.allocateBufferUnprotected hu).rest _ _ _ _ _

-- The invariant

/-- Whoever sleeps has no reason to run: the pool is active, and each free buffer is for a thread
that has been notified. -/
def Roused (s : State) : Prop :=
  s.cv.asleep ≠ 0 → s.isActive = true ∧ s.freeBuffers.length ≤ s.cv.awake

structure Ending (s : State) : Prop where
  inactive : s.destroyed = true → s.isActive = false
  last : s.destroyed = true → s.cv = [] ∨ s.cv.length = 1 ∧ s.allocInProgress = true
  gone : s.gone = true → s.destroyed = true ∧ s.cv = []

/-- At most one `Init` is under way. It has made the free buffers, it finds nothing outside, and
the threads that it does not notify are awake. -/
def Alone (s : State) : Prop :=
  s.filling = [] ∨ ∃ f, s.filling = [f] ∧ f.i = s.freeBuffers.length ∧ f.msgSize = s.msgSize ∧
    f.type = s.metaType ∧ s.outstanding = [] ∧ (s.cv.asleep ≠ 0 → s.poolSize ≤ s.cv.awake)

structure Inv (s : State) : Prop where
  held : WellHeld s
  roused : Roused s
  ending : Ending s

theorem Ending.of_alive (hdestroyed : s.destroyed = false) (hgone : s.gone = false) : Ending s :=
  ⟨fun h => Bool.noConfusion (hdestroyed ▸ h), fun h => Bool.noConfusion (hdestroyed ▸ h),
    fun h => Bool.noConfusion (hgone ▸ h)⟩

theorem Ending.not_gone (h : Ending s) (hdestroyed : s.destroyed = false) : s.gone = false := by
  cases hgone : s.gone with
  | false => rfl
  | true => exact absurd (h.gone hgone).1 (Bool.eq_false_iff.mp hdestroyed)

theorem inv_create (poolSize : Nat) : Inv (create poolSize) where
  held := ⟨List.nodup_nil, List.forall_mem_nil _, List.forall_mem_nil _, Nat.zero_le _,
    (fun _ h => nomatch h), List.forall_mem_nil _⟩
  roused h := absurd rfl h
  ending := .of_alive rfl rfl

/-- A thread that was not needed among the sleeping ones leaves with at most one buffer. -/
theorem Roused.finishAllocate
    (h : s.cv.asleep ≠ 0 → s.isActive = true ∧ s.freeBuffers.length ≤ s.cv.awake + 1)
    (ht : finishAllocate s = some t) : Roused t := by
  intro hasleep
  cases finishAllocate_some ht with
  | inl hidle =>
    obtain ⟨hinactive, rfl⟩ := hidle
    exact absurd (h hasleep).1 (Bool.eq_false_iff.mp hinactive)
  | inr htake =>
    obtain ⟨hactive, u, hu, rfl⟩ := htake
    obtain ⟨buffer, rest, hfree, rfl⟩ := allocateBufferUnprotected_some hu
    have hle := (h hasleep).2
    rw [hfree, List.length_cons] at hle
    exact ⟨hactive, Nat.le_of_succ_le_succ hle⟩

theorem Roused.putFree (h : Roused s) (buffer : Buffer) (k : Nat) :
    Roused (putFree s buffer k) := by
  intro hasleep
  rw [BufferPool.putFree, Waiters.asleep_notifyOne] at hasleep
  obtain ⟨hactive, hle⟩ := h (by omega)
  refine ⟨hactive, ?_⟩
  show (s.freeBuffers ++ [buffer]).length ≤ (s.cv.notifyOne k).awake
  rw [Waiters.awake_notifyOne, List.length_append, List.length_singleton]
  omega

theorem finishAllocate_same (h : finishAllocate s = some t) :
    t.cv = s.cv ∧ t.destroyed = s.destroyed ∧ t.gone = s.gone ∧ t.isActive = s.isActive := by
  cases finishAllocate_some h with
  | inl hidle =>
    rw [hidle.2]
    exact ⟨rfl, rfl, rfl, rfl⟩
  | inr htake =>
    obtain ⟨-, u, hu, rfl⟩ := htake
    obtain ⟨buffer, rest, -, rfl⟩ := allocateBufferUnprotected_some hu
    exact ⟨rfl, rfl, rfl, rfl⟩

-- One lemma for each event

section Events

variable {msgSize size align i k : Nat} {type metaType : BufferMetaType} {active : Bool}

theorem Inv.initPool (h : Inv s) (hnone : s.filling = []) (hdestroyed : s.destroyed = false)
    (hkeeps : KeepsInit s msgSize type align) :
    Inv (initPool s msgSize type align) ∧ Alone (initPool s msgSize type align) := by
  have hgone := h.ending.not_gone hdestroyed
  unfold KeepsInit at hkeeps
  unfold BufferPool.initPool
  split
  next hsame =>
    rw [if_pos hsame] at hkeeps
    refine ⟨⟨⟨h.held.nodup, h.held.fresh, h.held.own, h.held.bounded, fun a ha => ?_,
      h.held.handed⟩, h.roused, .of_alive hdestroyed hgone⟩, .inl hnone⟩
    rw [← Option.some.inj ha, hsame.1, hkeeps]
  next hnew =>
    rw [if_neg hnew] at hkeeps
    obtain ⟨hout, hawake⟩ := hkeeps
    have hnil : ([] ++ s.outstanding : List Buffer) = [] := hout
    refine ⟨⟨⟨?_, ?_, ?_, ?_, (fun _ ha => nomatch ha), h.held.handed⟩,
      fun hasleep => ⟨(h.roused hasleep).1, Nat.zero_le _⟩, .of_alive hdestroyed hgone⟩,
      .inr ⟨⟨0, msgSize, type⟩, ?_, rfl, rfl, rfl, hout, hawake⟩⟩
    all_goals
      simp only [State.buffers, hnil, hnone]
    · exact List.nodup_nil
    · exact List.forall_mem_nil _
    · exact List.forall_mem_nil _
    · exact Nat.zero_le _
    · rfl

theorem Inv.fill {j : Nat} (h : Inv s) (halone : Alone s) (hdestroyed : s.destroyed = false)
    (ht : fill s j = some t) : Inv t ∧ Alone t := by
  have hgone := h.ending.not_gone hdestroyed
  unfold BufferPool.fill at ht
  obtain ⟨f, hf, rfl⟩ := Option.map_eq_some_iff.mp ht
  cases halone with
  | inl hnone =>
    rw [hnone] at hf
    cases hf
  | inr hone =>
    obtain ⟨g, hfilling, hi, hsize, htype, hout, hawake⟩ := hone
    obtain ⟨rfl, rfl⟩ : j = 0 ∧ g = f := by
      rw [hfilling] at hf
      cases j with
      | zero => exact ⟨rfl, Option.some.inj hf⟩
      | succ j => cases hf
    split
    next hmore =>
      have hroom : s.buffers.length < s.poolSize := by
        rw [State.buffers, hout, List.append_nil, ← hi]
        exact hmore
      have hadded := h.held.add (s.newBuffer g.msgSize g.type) rfl (fun _ => ⟨hsize, htype⟩)
        hroom s.cv
      have hlength : (s.freeBuffers ++ [s.newBuffer g.msgSize g.type]).length = g.i + 1 := by
        rw [List.length_append, hi, List.length_singleton]
      refine ⟨⟨⟨hadded.nodup, hadded.fresh, hadded.own, hadded.bounded, hadded.asked,
        hadded.handed⟩, fun hasleep => ⟨(h.roused hasleep).1, ?_⟩, .of_alive hdestroyed hgone⟩,
        .inr ⟨{ g with i := g.i + 1 }, ?_, hlength.symm, hsize, htype, hout, hawake⟩⟩
      · rw [hlength]
        exact le_trans hmore (hawake hasleep)
      · simp only [hfilling, List.set_cons_zero]
    next =>
      refine ⟨⟨⟨h.held.nodup, h.held.fresh, h.held.own, h.held.bounded, fun a ha => ?_,
        h.held.handed⟩, h.roused, .of_alive hdestroyed hgone⟩, .inl ?_⟩
      · rw [← Option.some.inj ha, hsize, htype]
      · simp only [hfilling, List.eraseIdx_cons_zero]

theorem Inv.append (h : Inv s) (hdestroyed : s.destroyed = false)
    (hkeeps : KeepsOne s (.append size metaType k)) : Inv (append s size metaType k) := by
  unfold BufferPool.append
  split
  next happends =>
    have hroom : s.buffers.length < s.poolSize := by
      rw [State.buffers, List.length_append]
      exact hkeeps happends
    exact ⟨h.held.add _ rfl (fun h => Bool.noConfusion h) hroom _, Roused.putFree h.roused _ _,
      .of_alive hdestroyed (h.ending.not_gone hdestroyed)⟩
  next => exact h

theorem Inv.setActive (h : Inv s) (hdestroyed : s.destroyed = false)
    (hkeeps : KeepsOne s (.setActive active k)) : Inv (setActive s active k) := by
  refine ⟨?_, ?_, ?_⟩
  · cases active <;> exact h.held.rest _ _ _ _ _
  · intro hasleep
    cases active with
    | true => exact ⟨rfl, (h.roused hasleep).2⟩
    | false =>
      -- the one thread that is asleep is notified
      have hone : s.cv.asleep ≤ 1 := hkeeps rfl
      change (s.cv.notifyOne k).asleep ≠ 0 at hasleep
      rw [Waiters.asleep_notifyOne] at hasleep
      omega
  · have hgone := h.ending.not_gone hdestroyed
    cases active <;> exact .of_alive hdestroyed hgone

theorem Inv.finishAllocate (hheld : WellHeld s)
    (hroused : s.cv.asleep ≠ 0 → s.isActive = true ∧ s.freeBuffers.length ≤ s.cv.awake + 1)
    (hinactive : s.destroyed = true → s.isActive = false)
    (hnone : s.destroyed = true → s.cv = []) (hgone : s.gone = true → s.destroyed = true)
    (ht : finishAllocate s = some t) : Inv t := by
  refine ⟨hheld.finishAllocate ht, .finishAllocate hroused ht, ?_⟩
  obtain ⟨hcv, hdestroyed, hg, hactive⟩ := finishAllocate_same ht
  refine ⟨fun h => ?_, fun h => .inl ?_, fun h => ?_⟩
  · rw [hactive]
    exact hinactive (hdestroyed ▸ h)
  · rw [hcv]
    exact hnone (hdestroyed ▸ h)
  · have hd := hgone (hg ▸ h)
    exact ⟨hdestroyed ▸ hd, hcv ▸ hnone hd⟩

theorem Inv.allocateBuffer (h : Inv s) (hdestroyed : s.destroyed = false)
    (ht : allocateBuffer s = some t) : Inv t := by
  have hgone := h.ending.not_gone hdestroyed
  unfold BufferPool.allocateBuffer at ht
  dsimp only at ht
  split at ht
  next hwait =>
    cases ht
    obtain ⟨hfree, hactive⟩ := Bool.and_eq_true_iff.mp hwait
    have hnil : s.freeBuffers = [] := List.isEmpty_iff.mp hfree
    refine ⟨h.held.rest _ _ _ _ _, fun _ => ⟨hactive, ?_⟩, .of_alive hdestroyed hgone⟩
    show s.freeBuffers.length ≤ _
    rw [hnil]
    exact Nat.zero_le _
  next =>
    refine Inv.finishAllocate (h.held.rest _ _ _ _ _) (fun hasleep => ?_) ?_ ?_ ?_ ht
    · exact ⟨(h.roused hasleep).1, Nat.le_succ_of_le (h.roused hasleep).2⟩
    · exact h.ending.inactive
    · exact fun hd => absurd hd (Bool.eq_false_iff.mp hdestroyed)
    · exact fun hg => (h.ending.gone hg).1

theorem Inv.allocateBufferUnprotected (h : Inv s) (hdestroyed : s.destroyed = false)
    (ht : allocateBufferUnprotected s = some t) : Inv t := by
  have hgone := h.ending.not_gone hdestroyed
  refine ⟨h.held.allocateBufferUnprotected ht, fun hasleep => ?_, ?_⟩
  · obtain ⟨buffer, rest, hfree, rfl⟩ := allocateBufferUnprotected_some ht
    obtain ⟨hactive, hle⟩ := h.roused hasleep
    rw [hfree, List.length_cons] at hle
    exact ⟨hactive, Nat.le_of_succ_le hle⟩
  · obtain ⟨buffer, rest, hfree, rfl⟩ := allocateBufferUnprotected_some ht
    exact .of_alive hdestroyed hgone

theorem Inv.allocateBufferNonBlocking (h : Inv s) (hdestroyed : s.destroyed = false)
    (ht : allocateBufferNonBlocking s = some t) : Inv t := by
  unfold BufferPool.allocateBufferNonBlocking at ht
  split at ht
  next => exact Option.some.inj ht ▸ h
  next => exact h.allocateBufferUnprotected hdestroyed ht

theorem Inv.allocateAppendBufferNonBlocking (h : Inv s) (hdestroyed : s.destroyed = false)
    (ht : allocateAppendBufferNonBlocking s = some t) : Inv t := by
  unfold BufferPool.allocateAppendBufferNonBlocking at ht
  split at ht
  next => exact Option.some.inj ht ▸ h
  next =>
    split at ht
    next hempty =>
      have hnil : s.freeBuffers = [] := List.isEmpty_iff.mp hempty
      have hroom : s.buffers.length < s.poolSize + 1 := Nat.lt_succ_of_le h.held.bounded
      have hadded := h.held.add (s.newBuffer s.msgSize s.metaType) rfl (fun _ => ⟨rfl, rfl⟩)
        hroom s.cv
      rw [hnil] at hadded
      -- the new buffer is taken at once
      obtain ⟨buffer, rest, hfree, rfl⟩ := allocateBufferUnprotected_some ht
      obtain ⟨-, rfl⟩ := List.cons.inj hfree
      refine ⟨hadded.allocateBufferUnprotected ht, fun hasleep => ?_,
        .of_alive hdestroyed (h.ending.not_gone hdestroyed)⟩
      exact ⟨(h.roused hasleep).1, Nat.zero_le _⟩
    next => exact h.allocateBufferUnprotected hdestroyed ht

theorem Inv.resumeAllocate (h : Inv s) (hgone : s.gone = false)
    (ht : resumeAllocate s i = some t) : Inv t := by
  unfold BufferPool.resumeAllocate at ht
  obtain ⟨w, hw, ht⟩ := Option.bind_eq_some_iff.mp ht
  have hi : i < s.cv.length := (List.getElem?_eq_some_iff.mp hw).1
  split at ht
  next =>
    refine Inv.finishAllocate (h.held.rest _ _ _ _ (s.cv.eraseIdx i)) (fun hasleep => ?_)
      h.ending.inactive (fun hd => ?_) (fun hg => absurd hg (Bool.eq_false_iff.mp hgone)) ht
    · change Waiters.asleep (s.cv.eraseIdx i) ≠ 0 at hasleep
      have hle := Waiters.asleep_eraseIdx s.cv i
      obtain ⟨hactive, hfree⟩ := h.roused (by omega)
      exact ⟨hactive, le_trans hfree (Waiters.awake_eraseIdx s.cv i)⟩
    · cases h.ending.last hd with
      | inl hnil =>
        rw [hnil] at hi
        exact absurd hi (Nat.not_lt_zero _)
      | inr hone =>
        refine List.length_eq_zero_iff.mp ?_
        show (s.cv.eraseIdx i).length = 0
        rw [List.length_eraseIdx, if_pos hi, hone.1]
  next hstays =>
    cases ht
    rw [State.mayAllocate, Bool.not_eq_true, Bool.or_eq_false_iff, Bool.not_eq_false',
      Bool.not_eq_false'] at hstays
    obtain ⟨hactive, hempty⟩ := hstays
    have hnil : s.freeBuffers = [] := List.isEmpty_iff.mp hempty
    refine ⟨h.held.rest _ _ _ _ _, fun _ => ⟨hactive, ?_⟩, ?_⟩
    · show s.freeBuffers.length ≤ _
      rw [hnil]
      exact Nat.zero_le _
    · have hdestroyed : s.destroyed = false := by
        by_contra hd
        have hinactive := h.ending.inactive (Bool.not_eq_false _ ▸ hd)
        rw [hactive] at hinactive
        cases hinactive
      exact .of_alive hdestroyed hgone

theorem Inv.release (h : Inv s) (ht : release s i k = some t) : Inv t := by
  unfold BufferPool.release at ht
  obtain ⟨buffer, hbuffer, rfl⟩ := Option.map_eq_some_iff.mp ht
  obtain ⟨hi, rfl⟩ := List.getElem?_eq_some_iff.mp hbuffer
  have hback : (s.outstanding[i] :: s.outstanding.eraseIdx i).Perm s.outstanding :=
    List.getElem_cons_eraseIdx_perm hi
  dsimp only
  split
  next hdestroyed =>
    -- the pool is being destroyed, and so is the buffer
    have hsub : (s.freeBuffers ++ s.outstanding.eraseIdx i).Subperm s.buffers :=
      ((List.eraseIdx_sublist _ _).append_left _).subperm
    exact ⟨h.held.regroup hsub h.held.handed _ _ _ _ _, h.roused,
      h.ending.inactive, h.ending.last, h.ending.gone⟩
  next hdestroyed =>
    have hperm : (s.freeBuffers ++ [s.outstanding[i]] ++ s.outstanding.eraseIdx i).Perm
        s.buffers := by
      rw [List.append_assoc]
      exact hback.append_left _
    exact ⟨h.held.regroup hperm.subperm h.held.handed _ _ _ _ _, Roused.putFree h.roused _ _,
      .of_alive (Bool.eq_false_iff.mpr hdestroyed)
        (h.ending.not_gone (Bool.eq_false_iff.mpr hdestroyed))⟩

theorem Inv.destruct (h : Inv s) (hdestroyed : s.destroyed = false)
    (hkeeps : KeepsOne s (.destruct k)) : Inv (destruct s k) := by
  have hgone := h.ending.not_gone hdestroyed
  have hlength : (s.cv.notifyOne k).length = s.cv.length := Waiters.length_notifyOne k s.cv
  refine ⟨h.held.rest _ _ _ _ _, fun hasleep => ?_, fun _ => rfl, fun _ => ?_,
    fun hg => absurd hg (Bool.eq_false_iff.mp hgone)⟩
  · change (s.cv.notifyOne k).asleep ≠ 0 at hasleep
    rw [Waiters.asleep_notifyOne] at hasleep
    have hle : s.cv.asleep ≤ s.cv.length := List.countP_le_length
    have hone : s.cv.length ≤ 1 := by
      cases hkeeps with
      | inl hnil => rw [hnil]; exact Nat.zero_le _
      | inr hone => exact hone.1.le
    omega
  · show s.cv.notifyOne k = [] ∨ (s.cv.notifyOne k).length = 1 ∧ _
    rw [← List.length_eq_zero_iff, hlength, List.length_eq_zero_iff]
    exact hkeeps

theorem Inv.finishDestruct (h : Inv s) (ht : finishDestruct s = some t) : Inv t := by
  unfold BufferPool.finishDestruct at ht
  split at ht
  next hmay =>
    cases ht
    simp only [Bool.and_eq_true, Bool.not_eq_true'] at hmay
    obtain ⟨⟨hdestroyed, -⟩, hprogress⟩ := hmay
    -- whoever was asleep is counted in `allocInProgress`, for which the destructor waits
    have hnil : s.cv = [] := by
      cases h.ending.last hdestroyed with
      | inl hnil => exact hnil
      | inr hone => exact absurd hone.2 (Bool.eq_false_iff.mp hprogress)
    have hsub : ([] ++ s.outstanding).Subperm s.buffers :=
      (List.sublist_append_right _ _).subperm
    refine ⟨h.held.regroup hsub h.held.handed _ _ _ _ _, fun hasleep => ?_,
      h.ending.inactive, h.ending.last, fun _ => ⟨hdestroyed, hnil⟩⟩
    exact ⟨(h.roused hasleep).1, Nat.zero_le _⟩
  next => cases ht

theorem call_some {result : Option State} (h : call s result = some t) :
    s.destroyed = false ∧ result = some t := by
  unfold call at h
  split at h
  next => cases h
  next hdestroyed => exact ⟨Bool.eq_false_iff.mpr hdestroyed, h⟩

theorem allocateBufferUnprotected_filling (ht : allocateBufferUnprotected s = some t) :
    t.filling = s.filling := by
  obtain ⟨_, _, -, rfl⟩ := allocateBufferUnprotected_some ht
  rfl

theorem finishAllocate_filling (ht : finishAllocate s = some t) : t.filling = s.filling := by
  cases finishAllocate_some ht with
  | inl hidle => rw [hidle.2]
  | inr htake =>
    obtain ⟨-, u, hu, rfl⟩ := htake
    exact (allocateBufferUnprotected_filling hu).trans rfl

/-- **One step.** -/
theorem Inv.step {e : Event} (h : Inv s ∧ Alone s) (hkeeps : Keeps s e) (ht : step s e = some t) :
    Inv t ∧ Alone t := by
  obtain ⟨h, halone⟩ := h
  cases e with
  | init =>
    obtain ⟨hdestroyed, ht⟩ := call_some ht
    cases ht
    exact h.initPool hkeeps.1 hdestroyed hkeeps.2
  | fill =>
    obtain ⟨hdestroyed, ht⟩ := call_some ht
    exact h.fill halone hdestroyed ht
  | append size metaType k =>
    obtain ⟨hdestroyed, ht⟩ := call_some ht
    cases ht
    have hfilling : (BufferPool.append s size metaType k).filling = s.filling := by
      unfold BufferPool.append
      split <;> rfl
    exact ⟨h.append hdestroyed hkeeps.2, .inl (hfilling.trans hkeeps.1)⟩
  | setActive active k =>
    obtain ⟨hdestroyed, ht⟩ := call_some ht
    cases ht
    have hfilling : (BufferPool.setActive s active k).filling = s.filling := by
      cases active <;> rfl
    exact ⟨h.setActive hdestroyed hkeeps.2, .inl (hfilling.trans hkeeps.1)⟩
  | allocateBuffer =>
    obtain ⟨hdestroyed, ht⟩ := call_some ht
    refine ⟨h.allocateBuffer hdestroyed ht, .inl (Eq.trans ?_ hkeeps.1)⟩
    unfold BufferPool.allocateBuffer at ht
    dsimp only at ht
    split at ht
    next => exact Option.some.inj ht ▸ rfl
    next => exact (finishAllocate_filling ht).trans rfl
  | allocateBufferNonBlocking =>
    obtain ⟨hdestroyed, ht⟩ := call_some ht
    refine ⟨h.allocateBufferNonBlocking hdestroyed ht, .inl (Eq.trans ?_ hkeeps.1)⟩
    unfold BufferPool.allocateBufferNonBlocking at ht
    split at ht
    next => exact Option.some.inj ht ▸ rfl
    next => exact allocateBufferUnprotected_filling ht
  | allocateAppendBufferNonBlocking =>
    obtain ⟨hdestroyed, ht⟩ := call_some ht
    refine ⟨h.allocateAppendBufferNonBlocking hdestroyed ht, .inl (Eq.trans ?_ hkeeps.1)⟩
    unfold BufferPool.allocateAppendBufferNonBlocking at ht
    split at ht
    next => exact Option.some.inj ht ▸ rfl
    next => split at ht <;> exact (allocateBufferUnprotected_filling ht).trans rfl
  | resumeAllocate i =>
    change (if s.gone = true then none else BufferPool.resumeAllocate s i) = some t at ht
    split at ht
    next => cases ht
    next hgone =>
      refine ⟨h.resumeAllocate (Bool.eq_false_iff.mpr hgone) ht, .inl (Eq.trans ?_ hkeeps.1)⟩
      obtain ⟨_, -, ht⟩ := Option.bind_eq_some_iff.mp ht
      split at ht
      next => exact (finishAllocate_filling ht).trans rfl
      next => exact Option.some.inj ht ▸ rfl
  | release i k =>
    refine ⟨h.release ht, .inl (Eq.trans ?_ hkeeps.1)⟩
    obtain ⟨buffer, -, rfl⟩ := Option.map_eq_some_iff.mp ht
    dsimp only
    split <;> rfl
  | destruct =>
    obtain ⟨hdestroyed, ht⟩ := call_some ht
    cases ht
    exact ⟨h.destruct hdestroyed hkeeps.2, .inl hkeeps.1⟩
  | finishDestruct =>
    refine ⟨h.finishDestruct ht, .inl (Eq.trans ?_ hkeeps.1)⟩
    change BufferPool.finishDestruct s = some t at ht
    unfold BufferPool.finishDestruct at ht
    split at ht
    next => exact Option.some.inj ht ▸ rfl
    next => cases ht

end Events

-- Every run

theorem Inv.conserved (h : Inv s) : Conserved s where
  oneOwner := h.held.nodup
  bounded := List.length_append ▸ h.held.bounded
  asAsked := h.held.handed
  noneBlocked hquiet hcv := by
    cases hquiet with
    | inr hgone => exact absurd (h.ending.gone hgone).2 hcv
    | inl hawake =>
      have hlength : s.cv.asleep + s.cv.awake = s.cv.length := Waiters.asleep_add_awake s.cv
      have hpositive := List.length_pos_of_ne_nil hcv
      obtain ⟨hactive, hle⟩ := h.roused (by omega)
      rw [hawake] at hle
      exact ⟨hactive, List.length_eq_zero_iff.mp (Nat.le_zero.mp hle)⟩

/-- **The buffers of the pool**, in every run of calls that keep them. -/
theorem buffers_conserved (hkeeps : Runs.Along step Keeps (create poolSize) events)
    (hrun : Runs.run step (create poolSize) events = some s) : Conserved s :=
  Inv.conserved (Runs.run_invariant (fun _ _ _ h hgood hstep => Inv.step h hgood hstep)
    ⟨inv_create poolSize, .inl rfl⟩ hkeeps hrun).1

def afterEvents (poolSize : Nat) (events : List Event) : State :=
  (Runs.run step (create poolSize) events).getD (create poolSize)

/-- A thread waits for the only buffer, and the pool goes while the thread holds it. -/
def oneBuffer : List Event :=
  [.init 100 .video 0, .fill 0, .fill 0, .allocateBufferNonBlocking, .allocateBuffer, .release 0 0,
    .resumeAllocate 0, .destruct 0, .finishDestruct, .release 0 0]

theorem buffers_conserved_one :
    Runs.run step (create 1) oneBuffer = some (afterEvents 1 oneBuffer) ∧
      Conserved (afterEvents 1 oneBuffer) ∧ (afterEvents 1 oneBuffer).handed.length = 2 := by
  have hkeeps : Runs.Along step Keeps (create 1) oneBuffer :=
    ⟨⟨rfl, rfl, fun h => absurd rfl h⟩, trivial, trivial, ⟨rfl, trivial⟩, ⟨rfl, trivial⟩,
      ⟨rfl, trivial⟩, ⟨rfl, trivial⟩, ⟨rfl, .inl rfl⟩, ⟨rfl, trivial⟩, ⟨rfl, trivial⟩, trivial⟩
  exact ⟨rfl, buffers_conserved hkeeps rfl, rfl⟩

/-- The pool is initialised again while its only buffer is outside. -/
def initAgain : List Event :=
  [.init 100 .video 0, .fill 0, .fill 0, .allocateBuffer, .init 200 .video 0, .fill 0, .fill 0,
    .release 0 0, .allocateBuffer, .allocateBuffer]

/-- Two buffers of a pool of one are outside, one of them of the old size. -/
theorem old_buffer_handed_out :
    Runs.run step (create 1) initAgain = some (afterEvents 1 initAgain) ∧
      ¬ Conserved (afterEvents 1 initAgain) := by
  refine ⟨rfl, fun h => ?_⟩
  have hbounded : (2 : Nat) ≤ 1 := h.bounded
  omega

end MediaFoundation.BufferPool
