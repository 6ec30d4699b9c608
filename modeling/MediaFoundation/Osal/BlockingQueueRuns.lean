import MediaFoundation.Osal.BlockingQueue

/-!
# The runs of BlockingQueue

What holds of a queue in any interleaving, and which steps break it.
-/

namespace MediaFoundation.BlockingQueue

variable {α : Type*} {s s' : State α}

-- The elements

inductive Moves (s s' : State α) : Prop where
  | stay (hque : s'.que = s.que) (hpushed : s'.pushed = s.pushed) (hpopped : s'.popped = s.popped)
      (hdropped : s'.dropped = s.dropped)
  | put (value : α) (hque : s'.que = s.que ++ [value])
      (hpushed : s'.pushed = s.pushed ++ [⟨value, s.que.length, s.capacity⟩])
      (hpopped : s'.popped = s.popped) (hdropped : s'.dropped = s.dropped)
  | take (element : α) (hque : s.que = element :: s'.que) (hpushed : s'.pushed = s.pushed)
      (hpopped : s'.popped = s.popped ++ [element]) (hdropped : s'.dropped = s.dropped)
  | drop (hque : s'.que = []) (hpushed : s'.pushed = s.pushed) (hpopped : s'.popped = s.popped)
      (hdropped : s'.dropped = s.dropped ++ s.que)

theorem finishPush_moves (s : State α) (p : Producer α) : Moves s (finishPush s p) := by
  unfold finishPush
  split
  · exact .stay rfl rfl rfl rfl
  · exact .put p.value rfl rfl rfl rfl

theorem push_moves (s : State α) (value : α) (timeoutMs : Option Int) :
    Moves s (push s value timeoutMs) := by
  simp only [push]
  split
  · exact .stay rfl rfl rfl rfl
  split
  · split
    · split
      · exact finishPush_moves s _
      · exact .stay rfl rfl rfl rfl
    · exact .stay rfl rfl rfl rfl
  · exact finishPush_moves s _

theorem resumePush_moves {i : Nat} {timedOut : Bool} (h : resumePush s i timedOut = some s') :
    Moves s s' := by
  obtain ⟨w, -, h⟩ := Option.bind_eq_some_iff.mp h
  split at h
  · cases h
  split at h
  · cases h
    cases finishPush_moves { s with cvFull := s.cvFull.eraseIdx i } w.thread with
    | stay hque hpushed hpopped hdropped => exact .stay hque hpushed hpopped hdropped
    | put value hque hpushed hpopped hdropped => exact .put value hque hpushed hpopped hdropped
    | take element hque hpushed hpopped hdropped => exact .take element hque hpushed hpopped hdropped
    | drop hque hpushed hpopped hdropped => exact .drop hque hpushed hpopped hdropped
  · cases h
    exact .stay rfl rfl rfl rfl

theorem finishPop_moves {c : Consumer} {k : Nat} (h : finishPop s c k = some s') : Moves s s' := by
  unfold finishPop at h
  split at h
  · cases h
    exact .stay rfl rfl rfl rfl
  split at h
  · obtain ⟨-, h⟩ := Option.ite_none_right_eq_some.mp h
    cases h
    exact .stay rfl rfl rfl rfl
  next element rest hque =>
    cases h
    refine .take element ?_ rfl rfl rfl
    show s.que = element :: s.que.tail
    rw [hque]
    rfl

theorem pop_moves {timeoutMs : Option Int} {k : Nat} (h : pop s timeoutMs k = some s') :
    Moves s s' := by
  simp only [pop] at h
  split at h
  · cases h
    exact .stay rfl rfl rfl rfl
  split at h
  · split at h
    · split at h
      · exact finishPop_moves h
      · cases h
        exact .stay rfl rfl rfl rfl
    · cases h
      exact .stay rfl rfl rfl rfl
  · exact finishPop_moves h

theorem resumePop_moves {i k : Nat} {timedOut : Bool} (h : resumePop s i timedOut k = some s') :
    Moves s s' := by
  obtain ⟨w, -, h⟩ := Option.bind_eq_some_iff.mp h
  split at h
  · cases h
  split at h
  · cases finishPop_moves h with
    | stay hque hpushed hpopped hdropped => exact .stay hque hpushed hpopped hdropped
    | put value hque hpushed hpopped hdropped => exact .put value hque hpushed hpopped hdropped
    | take element hque hpushed hpopped hdropped => exact .take element hque hpushed hpopped hdropped
    | drop hque hpushed hpopped hdropped => exact .drop hque hpushed hpopped hdropped
  · cases h
    exact .stay rfl rfl rfl rfl

theorem clearUnprotected_moves (s : State α) (k : Nat) : Moves s (clearUnprotected s k) := by
  simp only [clearUnprotected]
  split
  · exact .stay rfl rfl rfl rfl
  split
  · exact .drop rfl rfl rfl rfl
  · exact .drop rfl rfl rfl rfl

theorem setActive_moves (s : State α) (active cleanData : Bool) (kFull kEmpty : Nat) :
    Moves s (setActive s active cleanData kFull kEmpty) := by
  cases active with
  | true => exact .stay rfl rfl rfl rfl
  | false =>
    cases cleanData with
    | false => exact .stay rfl rfl rfl rfl
    | true =>
      cases clearUnprotected_moves { s with isActive := false } kFull with
      | stay hque hpushed hpopped hdropped => exact .stay hque hpushed hpopped hdropped
      | put value hque hpushed hpopped hdropped => exact .put value hque hpushed hpopped hdropped
      | take element hque hpushed hpopped hdropped =>
        exact .take element hque hpushed hpopped hdropped
      | drop hque hpushed hpopped hdropped => exact .drop hque hpushed hpopped hdropped

/-- **One block** of any interleaving. -/
theorem step_moves {e : Event α} (h : step s e = some s') : Moves s s' := by
  cases e with
  | push value timeoutMs => exact Option.some.inj h ▸ push_moves s value timeoutMs
  | resumePush i timedOut => exact resumePush_moves h
  | pop timeoutMs k => exact pop_moves h
  | resumePop i timedOut k => exact resumePop_moves h
  | clear k => exact Option.some.inj h ▸ clearUnprotected_moves s k
  | setActive active cleanData kFull kEmpty =>
    exact Option.some.inj h ▸ setActive_moves s active cleanData kFull kEmpty
  | resetCapacity capacity =>
    cases h
    exact .stay rfl rfl rfl rfl
  | resetNotify =>
    obtain ⟨-, h⟩ := Option.ite_none_left_eq_some.mp h
    cases h
    exact .stay rfl rfl rfl rfl

-- First in, first out

/-- The elements whose `Push` returned true, in that order, with what has become
of them: popped in that order, dropped, or still in the queue. -/
def Journalled (s : State α) : Prop :=
  ∃ j : Fifo.Journal α Unit, Fifo.InOrder j ∧ Fifo.items j = s.pushed.map Pushed.element ∧
    Fifo.taken j = s.popped ∧ Fifo.waiting j = s.que ∧ (Fifo.removed j).Perm s.dropped

theorem journalled_init (capacity : Nat) : Journalled (init capacity : State α) :=
  ⟨[], .nil, rfl, rfl, rfl, .refl _⟩

theorem journalled_step {e : Event α} (h : Journalled s) (hstep : step s e = some s') :
    Journalled s' := by
  obtain ⟨j, horder, hitems, htaken, hwaiting, hremoved⟩ := h
  cases step_moves hstep with
  | stay hque hpushed hpopped hdropped =>
    exact ⟨j, horder, by rw [hpushed, hitems], by rw [hpopped, htaken], by rw [hque, hwaiting],
      hdropped ▸ hremoved⟩
  | put value hque hpushed hpopped hdropped =>
    refine ⟨Fifo.append j value, horder.append value, ?_, ?_, ?_, ?_⟩
    · rw [Fifo.items_append, hpushed, hitems, List.map_append]
      rfl
    · rw [Fifo.taken_append, hpopped, htaken]
    · rw [Fifo.waiting_append, hque, hwaiting]
    · rw [Fifo.removed_append, hdropped]
      exact hremoved
  | take element hque hpushed hpopped hdropped =>
    refine ⟨Fifo.take j, horder.take, ?_, ?_, ?_, ?_⟩
    · rw [Fifo.items_take, hpushed, hitems]
    · rw [Fifo.taken_take horder (hwaiting.trans hque), hpopped, htaken]
    · rw [Fifo.waiting_take, hwaiting, hque]
      rfl
    · rw [Fifo.removed_take, hdropped]
      exact hremoved
  | drop hque hpushed hpopped hdropped =>
    refine ⟨Fifo.removeIf () (fun _ => true) j, horder.removeIf _ _, ?_, ?_, ?_, ?_⟩
    · rw [Fifo.items_removeIf, hpushed, hitems]
    · rw [Fifo.taken_removeIf, hpopped, htaken]
    · rw [Fifo.waiting_removeIf, hque]
      exact List.filter_eq_nil_iff.mpr fun _ _ => Bool.false_ne_true
    · rw [hdropped, ← hwaiting]
      exact (Fifo.removed_removeIf_all () j).trans (hremoved.append_right _)

-- Nobody is left asleep

/-- Whoever could go on has been notified: all of them, or for each free place
one producer; the consumers unless the queue is empty. -/
structure Told (s : State α) : Prop where
  producers : s.cvFull.asleep = 0 ∨
    s.isActive = true ∧ s.capacity - s.que.length ≤ s.cvFull.awake
  consumers : s.cvEmpty.asleep = 0 ∨ s.isActive = true ∧ s.que = []

/-- No element was pushed into a queue that held `capacity_` elements or more. -/
def Bounded (s : State α) : Prop := ∀ p ∈ s.pushed, p.held < p.capacity

/-- The producers that clearing a queue of this size notifies. -/
def clearTold (s : State α) : Nat :=
  if s.que ≠ [] ∧ s.que.length = s.capacity then 1 else 0

/-- What a step has to meet so that nobody is left asleep and the queue is bounded. -/
def Tells (s : State α) : Event α → Prop
  | .push _ (some t) => t < 0 → s.isActive = true → s.que.length ≤ s.capacity
  | .resumePush _ true => s.isActive = true → s.que.length ≤ s.capacity
  | .clear _ => s.que = [] ∨ s.cvFull.asleep ≤ clearTold s ∨
      s.capacity ≤ s.cvFull.awake + clearTold s
  | .setActive false cleanData _ _ => s.cvEmpty.asleep ≤ 1 ∧
      s.cvFull.asleep ≤ if cleanData then clearTold s else 0
  | .resetCapacity capacity => s.cvFull.asleep = 0 ∨ capacity - s.que.length ≤ s.cvFull.awake
  | _ => True

/-- What of a state the notifications are about, and how much may change. -/
theorem Told.of_waiters (h : Told s) (hactive : s'.isActive = s.isActive)
    (hcapacity : s'.capacity = s.capacity) (hque : s'.que = s.que)
    (hfull : s'.cvFull.asleep ≤ s.cvFull.asleep)
    (hawake : s'.cvFull.asleep = 0 ∨ s.cvFull.awake ≤ s'.cvFull.awake ∨
      s.capacity ≤ s.que.length ∧ s.isActive = true)
    (hempty : s'.cvEmpty.asleep ≤ s.cvEmpty.asleep) : Told s' := by
  refine ⟨?_, ?_⟩
  · rw [hactive, hcapacity, hque]
    rcases hawake with hnone | hawake | ⟨hfull', hactive'⟩
    · exact .inl hnone
    · refine h.producers.imp (fun hnone => ?_) fun hfree => ⟨hfree.1, hfree.2.trans hawake⟩
      exact Nat.eq_zero_of_le_zero (hnone ▸ hfull)
    · refine .inr ⟨hactive', ?_⟩
      rw [Nat.sub_eq_zero_of_le hfull']
      exact Nat.zero_le _
  · rw [hactive, hque]
    refine h.consumers.imp_left fun hnone => ?_
    rw [hnone] at hempty
    exact Nat.eq_zero_of_le_zero hempty

-- Push

theorem told_enqueue (h : Told s) (value : α) : Told (enqueue s value) := by
  refine ⟨h.producers.imp_right fun hfree => ⟨hfree.1, ?_⟩, .inl (Waiters.asleep_notifyAll _)⟩
  show s.capacity - (s.que ++ [value]).length ≤ s.cvFull.awake
  rw [List.length_append]
  have := hfree.2
  omega

theorem bounded_enqueue (h : Bounded s) (value : α) :
    Bounded (enqueue s value) ↔ s.que.length < s.capacity := by
  constructor
  · intro hbounded
    exact hbounded ⟨value, s.que.length, s.capacity⟩ (List.mem_append_right _ List.mem_cons_self)
  · intro hroom p hp
    rcases List.mem_append.mp hp with hp | hp
    · exact h p hp
    · obtain rfl := List.mem_singleton.mp hp
      exact hroom

theorem told_finishPush (h : Told s) (p : Producer α) : Told (finishPush s p) := by
  unfold finishPush
  split
  · exact h
  · exact told_enqueue h p.value

/-- The second look of the `Push` with a timeout misses a queue that holds too much. -/
theorem bounded_finishPush_timed (h : Bounded s) (value : α) :
    Bounded (finishPush s ⟨value, true⟩) ↔
      (s.isActive = true → s.que.length ≤ s.capacity) := by
  unfold finishPush
  split
  next hrefused =>
    refine ⟨fun _ hactive => ?_, fun _ => h⟩
    rw [hactive] at hrefused
    exact (of_decide_eq_true hrefused).le
  next hpush =>
    rw [Bool.or_eq_true, not_or, Bool.not_eq_true, Bool.not_eq_false', Bool.true_and,
      decide_eq_true_eq] at hpush
    rw [bounded_enqueue h]
    constructor
    · exact fun hroom _ => hroom.le
    · intro hle
      have := hle hpush.1
      have := hpush.2
      omega

theorem bounded_finishPush_of_mayPush (h : Bounded s) (hmay : s.mayPush = true) (p : Producer α) :
    Bounded (finishPush s p) := by
  unfold finishPush
  split
  · exact h
  next hpush =>
    rw [Bool.or_eq_true, not_or, Bool.not_eq_true, Bool.not_eq_false'] at hpush
    rw [State.mayPush, hpush.1] at hmay
    exact (bounded_enqueue h p.value).mpr (of_decide_eq_true hmay)

theorem told_sleep_full (h : Told s) (hactive : s.isActive = true)
    (hfull : s.capacity ≤ s.que.length) (p : Producer α) :
    Told { s with cvFull := s.cvFull.sleep p } := by
  refine ⟨.inr ⟨hactive, ?_⟩, h.consumers⟩
  show s.capacity - s.que.length ≤ _
  rw [Nat.sub_eq_zero_of_le hfull]
  exact Nat.zero_le _

theorem push_iff (ht : Told s) (hb : Bounded s) (value : α) (timeoutMs : Option Int) :
    Told (push s value timeoutMs) ∧ Bounded (push s value timeoutMs) ↔
      Tells s (.push value timeoutMs) := by
  simp only [push]
  split
  next hinactive =>
    refine iff_of_true ⟨ht, hb⟩ ?_
    cases timeoutMs with
    | none => trivial
    | some t =>
      intro _ hactive
      rw [hactive] at hinactive
      cases hinactive
  next hactive =>
    rw [Bool.not_eq_true, Bool.not_eq_false'] at hactive
    split
    next hfull =>
      have hsleep : Told { s with cvFull := s.cvFull.sleep ⟨value, timeoutMs.isSome⟩ } :=
        told_sleep_full ht hactive hfull _
      cases timeoutMs with
      | none => exact iff_of_true ⟨hsleep, hb⟩ trivial
      | some t =>
        by_cases hneg : t < 0
        · simp only [if_pos hneg, Option.isSome_some]
          rw [bounded_finishPush_timed hb]
          exact ⟨fun h _ => h.2, fun h => ⟨told_finishPush ht _, h hneg⟩⟩
        · simp only [if_neg hneg]
          exact iff_of_true ⟨hsleep, hb⟩ fun h => absurd h hneg
    next hroom =>
      have hmay : s.mayPush = true := by
        rw [State.mayPush, decide_eq_true (Nat.not_le.mp hroom), Bool.or_true]
      refine iff_of_true ⟨told_finishPush ht _, bounded_finishPush_of_mayPush hb hmay _⟩ ?_
      cases timeoutMs with
      | none => trivial
      | some t => exact fun _ _ => (Nat.not_le.mp hroom).le

/-- A producer that stops waiting takes a free place with it, or there was none. -/
theorem told_leave_full (h : Told s) (p : Producer α) (i : Nat) :
    Told (finishPush { s with cvFull := s.cvFull.eraseIdx i } p) := by
  have hasleep := Waiters.asleep_eraseIdx s.cvFull i
  have hawake := Waiters.awake_eraseIdx s.cvFull i
  by_cases hroom : s.isActive = true ∧ s.que.length < s.capacity
  · obtain ⟨hactive, hlt⟩ := hroom
    have hpush : finishPush { s with cvFull := s.cvFull.eraseIdx i } p =
        enqueue { s with cvFull := s.cvFull.eraseIdx i } p.value := by
      refine if_neg ?_
      show ¬ (!s.isActive || (p.timed && decide (s.que.length = s.capacity))) = true
      rw [hactive, decide_eq_false hlt.ne, Bool.and_false]
      exact Bool.false_ne_true
    rw [hpush]
    refine ⟨?_, .inl (Waiters.asleep_notifyAll _)⟩
    refine h.producers.imp (fun hnone => ?_) fun hfree => ⟨hactive, ?_⟩
    · exact Nat.eq_zero_of_le_zero (hnone ▸ hasleep)
    · show s.capacity - (s.que ++ [p.value]).length ≤ Waiters.awake (s.cvFull.eraseIdx i)
      rw [List.length_append, List.length_singleton]
      have := hfree.2
      omega
  · refine told_finishPush ?_ p
    refine h.of_waiters rfl rfl rfl hasleep ?_ (Nat.le_refl _)
    rcases h.producers with hnone | hfree
    · exact .inl (Nat.eq_zero_of_le_zero (hnone ▸ hasleep))
    · exact .inr (.inr ⟨Nat.not_lt.mp fun hlt => hroom ⟨hfree.1, hlt⟩, hfree.1⟩)

theorem resumePush_iff (ht : Told s) (hb : Bounded s) {i : Nat} {timedOut : Bool}
    (h : resumePush s i timedOut = some s') :
    Told s' ∧ Bounded s' ↔ Tells s (.resumePush i timedOut) := by
  obtain ⟨w, hw, h⟩ := Option.bind_eq_some_iff.mp h
  split at h
  · cases h
  next htimed =>
    split at h
    next hgoes =>
      cases h
      have htold := told_leave_full ht w.thread i
      cases timedOut with
      | true =>
        obtain ⟨⟨value, timed⟩, notified⟩ := w
        obtain rfl : timed = true := by
          rw [Bool.true_and, Bool.not_eq_true, Bool.not_eq_false'] at htimed
          exact htimed
        have hbounded : Bounded { s with cvFull := s.cvFull.eraseIdx i } := hb
        exact ⟨fun h => (bounded_finishPush_timed hbounded value).mp h.2,
          fun h => ⟨htold, (bounded_finishPush_timed hbounded value).mpr h⟩⟩
      | false =>
        have hmay : State.mayPush { s with cvFull := s.cvFull.eraseIdx i } = true := hgoes
        have hbounded : Bounded { s with cvFull := s.cvFull.eraseIdx i } := hb
        exact iff_of_true ⟨htold, bounded_finishPush_of_mayPush hbounded hmay w.thread⟩ trivial
    next hwaits =>
      cases h
      rw [Bool.or_eq_true, not_or, Bool.not_eq_true, Bool.not_eq_true, State.mayPush,
        Bool.or_eq_false_iff, decide_eq_false_iff_not, Nat.not_lt, Bool.not_eq_false'] at hwaits
      obtain ⟨rfl, hactive, hfull⟩ := hwaits
      refine iff_of_true ⟨⟨.inr ⟨hactive, ?_⟩, ht.consumers⟩, hb⟩ trivial
      show s.capacity - s.que.length ≤ _
      rw [Nat.sub_eq_zero_of_le hfull]
      exact Nat.zero_le _

-- Pop

theorem told_dequeue (h : Told s) {element : α} {rest : List α} (hque : s.que = element :: rest)
    (k : Nat) : Told (dequeue s element k) := by
  have hnone : s.cvEmpty.asleep = 0 := by
    refine h.consumers.resolve_right fun hempty => ?_
    rw [hque] at hempty
    cases hempty.2
  refine ⟨?_, .inl hnone⟩
  show Waiters.asleep (s.cvFull.notifyOne k) = 0 ∨
    s.isActive = true ∧ s.capacity - s.que.tail.length ≤ Waiters.awake (s.cvFull.notifyOne k)
  rw [Waiters.asleep_notifyOne, Waiters.awake_notifyOne, List.length_tail]
  have hlength : s.que.length = rest.length + 1 := by rw [hque]; rfl
  rcases h.producers with hnone | ⟨hactive, hfree⟩
  · exact .inl (by omega)
  · by_cases hasleep : s.cvFull.asleep = 0
    · exact .inl (by omega)
    · exact .inr ⟨hactive, by omega⟩

theorem finishPop_keeps (ht : Told s) (hb : Bounded s) {c : Consumer} {k : Nat}
    (hpop : finishPop s c k = some s') : Told s' ∧ Bounded s' := by
  unfold finishPop at hpop
  split at hpop
  · exact Option.some.inj hpop ▸ ⟨ht, hb⟩
  split at hpop
  · obtain ⟨-, hpop⟩ := Option.ite_none_right_eq_some.mp hpop
    exact Option.some.inj hpop ▸ ⟨ht, hb⟩
  next element rest hque => exact Option.some.inj hpop ▸ ⟨told_dequeue ht hque k, hb⟩

theorem pop_keeps (ht : Told s) (hb : Bounded s) {timeoutMs : Option Int} {k : Nat}
    (hpop : pop s timeoutMs k = some s') : Told s' ∧ Bounded s' := by
  simp only [pop] at hpop
  split at hpop
  · exact Option.some.inj hpop ▸ ⟨ht, hb⟩
  next hactive =>
    rw [Bool.not_eq_true, Bool.not_eq_false'] at hactive
    split at hpop
    next hempty =>
      have hsleep : Told { s with cvEmpty := s.cvEmpty.sleep ⟨timeoutMs.isSome⟩ } :=
        ⟨ht.producers, .inr ⟨hactive, List.isEmpty_iff.mp hempty⟩⟩
      split at hpop
      · split at hpop
        · exact finishPop_keeps ht hb hpop
        · exact Option.some.inj hpop ▸ ⟨hsleep, hb⟩
      · exact Option.some.inj hpop ▸ ⟨hsleep, hb⟩
    next => exact finishPop_keeps ht hb hpop

theorem resumePop_keeps (ht : Told s) (hb : Bounded s) {i k : Nat} {timedOut : Bool}
    (hpop : resumePop s i timedOut k = some s') : Told s' ∧ Bounded s' := by
  obtain ⟨w, -, hpop⟩ := Option.bind_eq_some_iff.mp hpop
  split at hpop
  · cases hpop
  split at hpop
  · refine finishPop_keeps (s := { s with cvEmpty := s.cvEmpty.eraseIdx i }) ?_ hb hpop
    exact ht.of_waiters rfl rfl rfl (Nat.le_refl _) (.inr (.inl (Nat.le_refl _)))
      (Waiters.asleep_eraseIdx s.cvEmpty i)
  next hwaits =>
    cases hpop
    rw [Bool.or_eq_true, not_or, Bool.not_eq_true, Bool.not_eq_true, State.mayPop,
      Bool.or_eq_false_iff, Bool.not_eq_false', Bool.not_eq_false', List.isEmpty_iff] at hwaits
    exact ⟨⟨ht.producers, .inr ⟨hwaits.2.1, hwaits.2.2⟩⟩, hb⟩

-- Clear, SetActive and ResetCapacity

theorem clear_fields (s : State α) (k : Nat) :
    (clearUnprotected s k).que = [] ∧ (clearUnprotected s k).cvEmpty = s.cvEmpty ∧
      (clearUnprotected s k).isActive = s.isActive ∧
      (clearUnprotected s k).capacity = s.capacity ∧
      (clearUnprotected s k).cvFull.asleep = s.cvFull.asleep - clearTold s ∧
      (clearUnprotected s k).cvFull.awake = s.cvFull.awake + min (clearTold s) s.cvFull.asleep := by
  simp only [clearUnprotected, clearTold]
  split
  next hempty =>
    have hnil := List.isEmpty_iff.mp hempty
    rw [if_neg fun h => h.1 hnil]
    exact ⟨hnil, rfl, rfl, rfl, rfl, by omega⟩
  next hne =>
    have hcons : s.que ≠ [] := fun hnil => hne (List.isEmpty_iff.mpr hnil)
    split
    next hfull =>
      rw [if_pos ⟨hcons, hfull⟩]
      exact ⟨rfl, rfl, rfl, rfl, Waiters.asleep_notifyOne _ _, Waiters.awake_notifyOne _ _⟩
    next hnot =>
      rw [if_neg fun h => hnot h.2]
      exact ⟨rfl, rfl, rfl, rfl, rfl, by rw [Nat.zero_min]; rfl⟩

theorem bounded_clear (h : Bounded s) (k : Nat) : Bounded (clearUnprotected s k) := by
  simp only [clearUnprotected]
  split
  · exact h
  split
  · exact h
  · exact h

theorem clear_iff (ht : Told s) (hb : Bounded s) (k : Nat) :
    Told (clearUnprotected s k) ∧ Bounded (clearUnprotected s k) ↔ Tells s (.clear k) := by
  obtain ⟨hque, hempty, hactive, hcapacity, hasleep, hawake⟩ := clear_fields s k
  have hconsumers : (clearUnprotected s k).cvEmpty.asleep = 0 ∨
      (clearUnprotected s k).isActive = true ∧ (clearUnprotected s k).que = [] := by
    rw [hempty, hactive]
    exact ht.consumers.imp_right fun h => ⟨h.1, hque⟩
  constructor
  · rintro ⟨⟨hproducers, -⟩, -⟩
    rw [hasleep, hactive, hcapacity, hque, hawake] at hproducers
    show s.que = [] ∨ s.cvFull.asleep ≤ clearTold s ∨ s.capacity ≤ s.cvFull.awake + clearTold s
    rcases hproducers with hnone | ⟨-, hfree⟩
    · exact .inr (.inl (by omega))
    · rw [List.length_nil] at hfree
      exact .inr (.inr (by omega))
  · intro htells
    refine ⟨⟨?_, hconsumers⟩, bounded_clear hb k⟩
    rw [hasleep, hactive, hcapacity, hque, hawake]
    rcases htells with hnil | hfew | hmany
    · have hnone : clearTold s = 0 := if_neg fun h => h.1 hnil
      rw [hnone, Nat.sub_zero, ← hnil]
      exact ht.producers.imp_right fun h => ⟨h.1, by omega⟩
    · exact .inl (by omega)
    · rcases ht.producers with hnone | ⟨hactive', -⟩
      · exact .inl (by omega)
      · by_cases hfew : s.cvFull.asleep ≤ clearTold s
        · exact .inl (by omega)
        · exact .inr ⟨hactive', by rw [List.length_nil]; omega⟩

theorem setActive_iff (ht : Told s) (hb : Bounded s) (active cleanData : Bool) (kFull kEmpty : Nat) :
    Told (setActive s active cleanData kFull kEmpty) ∧
      Bounded (setActive s active cleanData kFull kEmpty) ↔
      Tells s (.setActive active cleanData kFull kEmpty) := by
  cases active with
  | true =>
    refine iff_of_true ⟨⟨?_, ?_⟩, hb⟩ trivial
    · exact ht.producers.imp_right fun h => ⟨rfl, h.2⟩
    · exact ht.consumers.imp_right fun h => ⟨rfl, h.2⟩
  | false =>
    have hcons : ∀ ws : Waiters Consumer, Waiters.asleep (ws.notifyOne kEmpty) = 0 ↔ ws.asleep ≤ 1 := by
      intro ws
      rw [Waiters.asleep_notifyOne]
      omega
    cases cleanData with
    | false =>
      constructor
      · rintro ⟨⟨hproducers, hconsumers⟩, -⟩
        refine ⟨(hcons _).mp (hconsumers.resolve_right fun h => nomatch h.1), ?_⟩
        exact (hproducers.resolve_right fun h => nomatch h.1).le
      · rintro ⟨hempty, hfull⟩
        exact ⟨⟨.inl (Nat.eq_zero_of_le_zero hfull), .inl ((hcons _).mpr hempty)⟩, hb⟩
    | true =>
      obtain ⟨-, hempty, hactive, -, hasleep, -⟩ := clear_fields { s with isActive := false } kFull
      have htold : clearTold { s with isActive := false } = clearTold s := rfl
      rw [htold] at hasleep
      constructor
      · rintro ⟨⟨hproducers, hconsumers⟩, -⟩
        have hfull : s.cvFull.asleep - clearTold s = 0 := by
          rw [← hasleep]
          exact hproducers.resolve_right fun h => nomatch hactive.symm.trans h.1
        have hnone := hconsumers.resolve_right fun h => nomatch hactive.symm.trans h.1
        refine ⟨?_, Nat.sub_eq_zero_iff_le.mp hfull⟩
        rw [← hcons, ← hempty]
        exact hnone
      · rintro ⟨hfew, hfull⟩
        refine ⟨⟨.inl ?_, .inl ?_⟩, bounded_clear (s := { s with isActive := false }) hb kFull⟩
        · refine hasleep.trans (Nat.sub_eq_zero_of_le hfull)
        · show Waiters.asleep
            ((clearUnprotected { s with isActive := false } kFull).cvEmpty.notifyOne kEmpty) = 0
          rw [hempty, hcons]
          exact hfew

theorem resetCapacity_iff (ht : Told s) (hb : Bounded s) (capacity : Nat) :
    Told (resetCapacity s capacity) ∧ Bounded (resetCapacity s capacity) ↔
      Tells s (.resetCapacity capacity) := by
  constructor
  · rintro ⟨⟨hproducers, -⟩, -⟩
    exact hproducers.imp_right And.right
  · intro htells
    refine ⟨⟨?_, ht.consumers⟩, hb⟩
    rcases ht.producers with hnone | ⟨hactive, -⟩
    · exact .inl hnone
    · exact htells.imp_right fun hfree => ⟨hactive, hfree⟩

/-- **One block**: it keeps what is wanted if and only if it meets the condition. -/
theorem step_iff {e : Event α} (ht : Told s) (hb : Bounded s) (hstep : step s e = some s') :
    Told s' ∧ Bounded s' ↔ Tells s e := by
  cases e with
  | push value timeoutMs => exact Option.some.inj hstep ▸ push_iff ht hb value timeoutMs
  | resumePush i timedOut => exact resumePush_iff ht hb hstep
  | pop timeoutMs k => exact iff_of_true (pop_keeps ht hb hstep) trivial
  | resumePop i timedOut k => exact iff_of_true (resumePop_keeps ht hb hstep) trivial
  | clear k => exact Option.some.inj hstep ▸ clear_iff ht hb k
  | setActive active cleanData kFull kEmpty =>
    exact Option.some.inj hstep ▸ setActive_iff ht hb active cleanData kFull kEmpty
  | resetCapacity capacity => exact Option.some.inj hstep ▸ resetCapacity_iff ht hb capacity
  | resetNotify =>
    obtain ⟨-, hstep⟩ := Option.ite_none_left_eq_some.mp hstep
    cases hstep
    exact iff_of_true ⟨⟨ht.producers, .inl (Waiters.asleep_notifyAll _)⟩, hb⟩ trivial

-- Any interleaving

/-- **BlockingQueue in any interleaving.** The elements are always popped first
in, first out. As long as every step meets its condition, the queue is bounded
and nobody is left asleep, and the next step keeps that if and only if it meets
its condition too. -/
theorem bounded_fifo (capacity : Nat) {events : List (Event α)} {s : State α}
    (hrun : Runs.run step (init capacity) events = some s) :
    Journalled s ∧ (Runs.Along step Tells (init capacity) events →
      Told s ∧ Bounded s ∧
        ∀ e s', step s e = some s' → (Told s' ∧ Bounded s' ↔ Tells s e)) := by
  refine ⟨Runs.run_keeps (fun _ _ _ h hstep => journalled_step h hstep)
    (journalled_init capacity) hrun, fun halong => ?_⟩
  have hinit : Told (init capacity : State α) ∧ Bounded (init capacity : State α) :=
    ⟨⟨.inl rfl, .inl rfl⟩, nofun⟩
  have hkeeps : Told s ∧ Bounded s :=
    Runs.run_invariant (I := fun s => Told s ∧ Bounded s)
      (fun _ _ _ h htells hstep => (step_iff h.1 h.2 hstep).mpr htells) hinit halong hrun
  exact ⟨hkeeps.1, hkeeps.2, fun _ _ hstep => step_iff hkeeps.1 hkeeps.2 hstep⟩

/-- One producer of three is blocked, and the queue is cleared and deactivated. -/
def clearedRun : List (Event Nat) :=
  [.push 1 none, .push 2 (some 5), .push 3 (some 5), .pop none 0, .resumePush 0 false,
    .clear 0, .setActive false true 0 0]

theorem bounded_fifo_clearedRun :
    ∃ s, Runs.run step (init 2) clearedRun = some s ∧ s.popped = [1] ∧ s.dropped = [2, 3] ∧
      Journalled s ∧ Told s ∧ Bounded s := by
  have hrun : ∃ s, Runs.run step (init 2) clearedRun = some s ∧ s.popped = [1] ∧
      s.dropped = [2, 3] := ⟨_, rfl, rfl, rfl⟩
  obtain ⟨s, hrun, hpopped, hdropped⟩ := hrun
  have halong : Runs.Along step Tells (init 2) clearedRun :=
    .cons trivial rfl <| .cons (fun h => absurd h (by decide)) rfl <|
      .cons (fun h => absurd h (by decide)) rfl <| .cons trivial rfl <| .cons trivial rfl <|
      .cons (.inr (.inl (by decide))) rfl <| .cons ⟨by decide, by decide⟩ rfl trivial
  obtain ⟨hjournal, hkeeps⟩ := bounded_fifo 2 hrun
  exact ⟨s, hrun, hpopped, hdropped, hjournal, (hkeeps halong).1, (hkeeps halong).2.1⟩

/-- The capacity is reset to less than the queue holds, and a `Push` times out. -/
def shrunkRun : List (Event Nat) :=
  [.push 1 none, .push 2 none, .resetCapacity 1, .resetNotify, .push 3 (some 5),
    .resumePush 0 true]

/-- Two producers are blocked when the queue is cleared. -/
def clearRun : List (Event Nat) :=
  [.push 1 none, .push 2 none, .push 3 none, .push 4 none, .clear 0]

/-- Two consumers are blocked when the queue is deactivated. -/
def deactivateRun : List (Event Nat) := [.pop none 0, .pop none 0, .setActive false true 0 0]

/-- A producer is blocked when the queue is deactivated with its data kept. -/
def keepDataRun : List (Event Nat) := [.push 1 none, .push 2 none, .setActive false false 0 0]

/-- A producer is blocked when the capacity is reset to more. -/
def growRun : List (Event Nat) := [.push 1 none, .push 2 none, .resetCapacity 2, .resetNotify]

theorem overfull_or_asleep :
    (∃ s, Runs.run step (init 2) shrunkRun = some s ∧
      ∃ p ∈ s.pushed, p.held = 2 ∧ p.capacity = 1) ∧
    (∃ s, Runs.run step (init 2) clearRun = some s ∧ s.que = [] ∧ s.cvFull.asleep = 1 ∧
      s.cvFull.awake = 1) ∧
    (∃ s, Runs.run step (init 2) deactivateRun = some s ∧ s.isActive = false ∧
      s.cvEmpty.asleep = 1) ∧
    (∃ s, Runs.run step (init 1) keepDataRun = some s ∧ s.isActive = false ∧
      s.cvFull.asleep = 1) ∧
    ∃ s, Runs.run step (init 1) growRun = some s ∧ s.que.length < s.capacity ∧
      s.cvFull.asleep = 1 ∧ s.cvFull.awake = 0 :=
  ⟨⟨_, rfl, ⟨3, 2, 1⟩, by decide, rfl, rfl⟩, ⟨_, rfl, rfl, rfl, rfl⟩, ⟨_, rfl, rfl, rfl⟩,
    ⟨_, rfl, rfl, rfl⟩, ⟨_, rfl, by decide, rfl, rfl⟩⟩

end MediaFoundation.BlockingQueue
