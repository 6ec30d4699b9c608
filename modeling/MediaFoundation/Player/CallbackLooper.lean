import MediaFoundation.Lib.Runs

/-!
# The callback looper

`scene/player/standard/hiplayer_callback_looper.cpp`: the events for the application wait in a
queue ordered by their due time, and one thread reports them.

Conventions:

* A block is what one thread does while it holds `queueMutex_`, or one access outside of it. The
  looper, the threads that enqueue and the clock take their blocks in any order.
* An event without a detail has an empty `Any`; the description of an error goes with its detail.
* `call`, `entered` and `taken` only record what happens.
-/

namespace MediaFoundation.CallbackLooper

inductive What where
  | none
  | mediaProgress
  | info
  | error
deriving DecidableEq

structure Event (δ : Type*) where
  what : What
  whenMs : Int
  detail : Option δ
  call : Nat

variable {δ : Type*}

-- EventQueue

structure EventQueue (δ : Type*) where
  queue_ : List (Event δ) := []
  quit_ : Bool := false
  entered : List (Event δ) := []
  taken : List (Event δ) := []

/-- What `Next` comes to: it sleeps, until a time or without one, or returns an event. -/
inductive Next (δ : Type*) where
  | sleeps (deadline : Option Int)
  | returns (event : Event δ)

namespace EventQueue

def enqueue (q : EventQueue δ) (what : What) (whenMs : Int) (detail : Option δ) :
    EventQueue δ × Bool :=
  if q.quit_ then (q, false)
  else
    let event : Event δ := ⟨what, whenMs, detail, q.entered.length⟩
    ({ q with
        queue_ := q.queue_.orderedInsert (fun a b => a.whenMs < b.whenMs) event
        entered := q.entered ++ [event] },
      q.queue_.head?.all fun head => whenMs < head.whenMs)

/-- The second loop of `Next`, which reads the head without a check. -/
def nextDue (q : EventQueue δ) (now : Int) : Option (EventQueue δ × Next δ) :=
  if q.quit_ then some (q, .returns ⟨.none, 0, none, 0⟩)
  else
    match q.queue_ with
    | [] => none
    | first :: rest =>
      if first.whenMs - now ≤ 0 then
        some ({ q with queue_ := rest, taken := q.taken ++ [first] }, .returns first)
      else some (q, .sleeps (some first.whenMs))

def next (q : EventQueue δ) (now : Int) : Option (EventQueue δ × Next δ) :=
  if q.queue_.isEmpty && !q.quit_ then some (q, .sleeps none) else q.nextDue now

end EventQueue

-- The looper

/-- Where the looper is: about to call `Next`, asleep in it, in `LoopOnce` with an event, or behind
a progress report that another one follows. -/
inductive Looper (δ : Type*) where
  | calling
  | sleeping (deadline : Option Int) (notified : Bool)
  | handling (event : Event δ)
  | rescheduling
  | enqueueing (whenMs : Int)

def Looper.notify : Looper δ → Looper δ
  | .sleeping deadline _ => .sleeping deadline true
  | looper => looper

def Next.looper : Next δ → Looper δ
  | .sleeps deadline => .sleeping deadline false
  | .returns event => .handling event

structure State (δ : Type*) where
  eventQueue_ : EventQueue δ := {}
  reportMediaProgress_ : Bool := false
  reportProgressIntervalMs_ : Int := 100
  now : Int
  looper : Looper δ := .calling
  reported : List (Event δ × δ) := []

inductive Block (δ : Type*) where
  | enqueue (what : What) (whenMs : Int) (detail : Option δ)
  | startReport (updateIntervalMs : Int)
  | stopReport
  | quit
  | tick (ms : Nat)
  | looper (obs : Bool) (position : Option δ)

def told (event : Event δ) (position : Option δ) : Option δ :=
  match event.what with
  | .mediaProgress => position
  | .info | .error => event.detail
  | .none => none

def looperStep (s : State δ) (obs : Bool) (position : Option δ) : Option (State δ) :=
  match s.looper with
  | .calling | .sleeping none _ =>
    (s.eventQueue_.next s.now).map fun r => { s with eventQueue_ := r.1, looper := r.2.looper }
  | .sleeping (some _) _ =>
    (s.eventQueue_.nextDue s.now).map fun r => { s with eventQueue_ := r.1, looper := r.2.looper }
  | .handling event =>
    some { s with
      reported :=
        if obs then s.reported ++ (told event position).toList.map (event, ·) else s.reported
      looper := if event.what = .mediaProgress then .rescheduling else .calling }
  | .rescheduling =>
    some { s with looper :=
      if s.reportMediaProgress_ then .enqueueing (s.now + s.reportProgressIntervalMs_)
      else .calling }
  | .enqueueing whenMs =>
    some { s with
      eventQueue_ := (s.eventQueue_.enqueue .mediaProgress whenMs none).1, looper := .calling }

/-- `StartReportMediaProgress` sets the flag; the event it then enqueues is a block of its own. -/
def step (s : State δ) : Block δ → Option (State δ)
  | .enqueue what whenMs detail =>
    let r := s.eventQueue_.enqueue what whenMs detail
    some { s with eventQueue_ := r.1, looper := if r.2 then s.looper.notify else s.looper }
  | .startReport updateIntervalMs =>
    some { s with reportMediaProgress_ := true, reportProgressIntervalMs_ := updateIntervalMs }
  | .stopReport => some { s with reportMediaProgress_ := false }
  | .quit =>
    some { s with eventQueue_ := { s.eventQueue_ with quit_ := true }, looper := s.looper.notify }
  | .tick ms => some { s with now := s.now + ms }
  | .looper obs position => looperStep s obs position

variable {s t : State δ} {q r : EventQueue δ} {now : Int} {block : Block δ}

-- What a block does to the queue

/-- A block leaves the queue as it is, quits it, adds an event, or takes the head when it is due. -/
inductive Moves (now : Int) (q : EventQueue δ) : EventQueue δ → Prop
  | stays : Moves now q q
  | quits : Moves now q { q with quit_ := true }
  | enters (event : Event δ) (hcall : event.call = q.entered.length) :
    Moves now q { q with
      queue_ := q.queue_.orderedInsert (fun a b => a.whenMs < b.whenMs) event
      entered := q.entered ++ [event] }
  | takes (first : Event δ) (rest : List (Event δ)) (hqueue : q.queue_ = first :: rest)
    (hdue : first.whenMs ≤ now) : Moves now q { q with queue_ := rest, taken := q.taken ++ [first] }

theorem enqueue_moves (q : EventQueue δ) (now : Int) (what : What) (whenMs : Int)
    (detail : Option δ) : Moves now q (q.enqueue what whenMs detail).1 := by
  unfold EventQueue.enqueue
  split
  next => exact .stays
  next => exact .enters _ rfl

/-- What the looper gets: no event any more, the head when it is due, or to sleep until it is. -/
inductive Gets (now : Int) (q : EventQueue δ) : EventQueue δ × Next δ → Prop
  | quits : Gets now q (q, .returns ⟨.none, 0, none, 0⟩)
  | takes (first : Event δ) (rest : List (Event δ)) (hquit : q.quit_ = false)
    (hqueue : q.queue_ = first :: rest) (hdue : first.whenMs ≤ now) :
    Gets now q ({ q with queue_ := rest, taken := q.taken ++ [first] }, .returns first)
  | sleeps (hquit : q.quit_ = false) : Gets now q (q, .sleeps (q.queue_.head?.map Event.whenMs))

theorem nextDue_gets {r : EventQueue δ × Next δ} (h : q.nextDue now = some r) : Gets now q r := by
  unfold EventQueue.nextDue at h
  split at h
  next =>
    cases h
    exact .quits
  next hquit =>
    have hquit := Bool.eq_false_iff.mpr hquit
    split at h
    next => cases h
    next first rest hqueue =>
      split at h
      next hdue =>
        cases h
        exact .takes first rest hquit hqueue (by omega)
      next =>
        have hsleeps : Gets now q _ := .sleeps hquit
        rw [hqueue] at hsleeps
        exact Option.some.inj h ▸ hsleeps

theorem next_gets {r : EventQueue δ × Next δ} (h : q.next now = some r) : Gets now q r := by
  unfold EventQueue.next at h
  split at h
  next hempty =>
    rw [Bool.and_eq_true, List.isEmpty_iff, Bool.not_eq_true'] at hempty
    have hsleeps : Gets now q _ := .sleeps hempty.2
    rw [hempty.1] at hsleeps
    exact Option.some.inj h ▸ hsleeps
  next => exact nextDue_gets h

theorem Gets.moves {r : EventQueue δ × Next δ} (h : Gets now q r) : Moves now q r.1 := by
  cases h with
  | quits | sleeps => exact .stays
  | takes first rest _ hqueue hdue => exact .takes first rest hqueue hdue

def Looper.looks : Looper δ → Bool
  | .calling | .sleeping .. => true
  | .handling _ | .rescheduling | .enqueueing _ => false

theorem looperStep_gets {obs : Bool} {position : Option δ} (hlooks : s.looper.looks = true)
    (h : looperStep s obs position = some t) : ∃ r, Gets s.now s.eventQueue_ r ∧
      t = { s with eventQueue_ := r.1, looper := r.2.looper } := by
  unfold looperStep at h
  split at h
  · obtain ⟨r, hr, rfl⟩ := Option.map_eq_some_iff.mp h
    exact ⟨r, next_gets hr, rfl⟩
  · obtain ⟨r, hr, rfl⟩ := Option.map_eq_some_iff.mp h
    exact ⟨r, next_gets hr, rfl⟩
  · obtain ⟨r, hr, rfl⟩ := Option.map_eq_some_iff.mp h
    exact ⟨r, nextDue_gets hr, rfl⟩
  all_goals
    rename_i hlooper
    rw [hlooper] at hlooks
    cases hlooks

theorem step_moves (h : step s block = some t) :
    Moves s.now s.eventQueue_ t.eventQueue_ ∧ s.now ≤ t.now := by
  cases block with
  | enqueue what whenMs detail =>
    cases h
    exact ⟨enqueue_moves _ _ _ _ _, Int.le_refl _⟩
  | startReport | stopReport =>
    cases h
    exact ⟨.stays, Int.le_refl _⟩
  | quit =>
    cases h
    exact ⟨.quits, Int.le_refl _⟩
  | tick ms =>
    cases h
    exact ⟨.stays, Int.le_add_of_nonneg_right (Int.natCast_nonneg ms)⟩
  | looper obs position =>
    rw [step] at h
    cases hlooper : s.looper with
    | calling | sleeping =>
      obtain ⟨r, hr, rfl⟩ := looperStep_gets (by rw [hlooper]; rfl) h
      exact ⟨hr.moves, Int.le_refl _⟩
    | handling | rescheduling =>
      rw [looperStep, hlooper] at h
      cases h
      exact ⟨.stays, Int.le_refl _⟩
    | enqueueing =>
      rw [looperStep, hlooper] at h
      cases h
      exact ⟨enqueue_moves _ _ _ _ _, Int.le_refl _⟩

-- The order of the reports

/-- `b` may be taken behind `a`: it was not enqueued before `a`, or it is due later. -/
def InTurn (a b : Event δ) : Prop := b.call < a.call → a.whenMs < b.whenMs

structure Ordered (now : Int) (q : EventQueue δ) : Prop where
  all : (q.taken ++ q.queue_).Perm q.entered
  calls : q.entered.map Event.call = List.range q.entered.length
  sorted : q.queue_.Pairwise fun a b => a.whenMs ≤ b.whenMs
  inTurn : (q.taken ++ q.queue_).Pairwise InTurn
  due : ∀ event ∈ q.taken, event.whenMs ≤ now

/-- The events behind a new one are due later, and those before it are not. -/
theorem pairwise_insert {event : Event δ} {queue : List (Event δ)}
    (hsorted : queue.Pairwise fun a b => a.whenMs ≤ b.whenMs) (h : queue.Pairwise InTurn)
    (hlast : ∀ a ∈ queue, InTurn a event) :
    (queue.orderedInsert (fun a b => a.whenMs < b.whenMs) event).Pairwise
        (fun a b => a.whenMs ≤ b.whenMs) ∧
      (queue.orderedInsert (fun a b => a.whenMs < b.whenMs) event).Pairwise InTurn := by
  induction queue with
  | nil => exact ⟨List.pairwise_singleton _ _, List.pairwise_singleton _ _⟩
  | cons first queue ih =>
    obtain ⟨hle, hsorted'⟩ := List.pairwise_cons.mp hsorted
    obtain ⟨hfirst, hqueue⟩ := List.pairwise_cons.mp h
    rw [List.orderedInsert_cons]
    split
    next hlt =>
      have hbehind : ∀ b ∈ first :: queue, event.whenMs < b.whenMs := by
        intro b hb
        rcases List.mem_cons.mp hb with rfl | hb
        · exact hlt
        · exact hlt.trans_le (hle b hb)
      exact ⟨List.pairwise_cons.mpr ⟨fun b hb => (hbehind b hb).le, hsorted⟩,
        List.pairwise_cons.mpr ⟨fun b hb _ => hbehind b hb, h⟩⟩
    next hge =>
      obtain ⟨hrest, hrest'⟩ := ih hsorted' hqueue fun a ha => hlast a (List.mem_cons_of_mem _ ha)
      refine ⟨List.pairwise_cons.mpr ⟨fun b hb => ?_, hrest⟩,
        List.pairwise_cons.mpr ⟨fun b hb => ?_, hrest'⟩⟩
      · rcases (List.mem_orderedInsert _).mp hb with rfl | hb
        · exact Int.not_lt.mp hge
        · exact hle b hb
      · rcases (List.mem_orderedInsert _).mp hb with rfl | hb
        · exact hlast first List.mem_cons_self
        · exact hfirst b hb

theorem Ordered.moves (h : Ordered now q) (hmoves : Moves now q r) : Ordered now r := by
  cases hmoves with
  | stays => exact h
  | quits => exact ⟨h.all, h.calls, h.sorted, h.inTurn, h.due⟩
  | enters event hcall =>
    obtain ⟨htaken, hqueue, hcross⟩ := List.pairwise_append.mp h.inTurn
    have hlast : ∀ a ∈ q.taken ++ q.queue_, InTurn a event := by
      intro a ha hlt
      have hmem : a.call ∈ q.entered.map Event.call := List.mem_map_of_mem (h.all.mem_iff.mp ha)
      rw [h.calls, List.mem_range] at hmem
      omega
    obtain ⟨hsorted, hturn⟩ := pairwise_insert h.sorted hqueue fun a ha =>
      hlast a (List.mem_append_right _ ha)
    have hperm := (List.perm_orderedInsert (fun a b : Event δ => a.whenMs < b.whenMs) event
      q.queue_).append_left q.taken
    refine ⟨?_, ?_, hsorted, List.pairwise_append.mpr ⟨htaken, hturn, ?_⟩, h.due⟩
    · exact (hperm.trans List.perm_middle).trans
        ((h.all.cons event).trans (List.perm_append_singleton event q.entered).symm)
    · rw [List.map_append, h.calls, List.length_append, List.length_singleton, List.range_succ,
        ← hcall]
      rfl
    · intro a ha b hb
      rcases (List.mem_orderedInsert _).mp hb with rfl | hb
      · exact hlast a (List.mem_append_left _ ha)
      · exact hcross a ha b hb
  | takes first rest hqueue hdue =>
    have hsame : (q.taken ++ [first]) ++ rest = q.taken ++ q.queue_ := by
      rw [hqueue, List.append_assoc, List.singleton_append]
    refine ⟨hsame ▸ h.all, h.calls, (hqueue ▸ h.sorted).of_cons, hsame ▸ h.inTurn, ?_⟩
    intro event hmem
    rcases List.mem_append.mp hmem with hmem | hmem
    · exact h.due event hmem
    · exact (List.mem_singleton.mp hmem) ▸ hdue

theorem Ordered.step (h : Ordered s.now s.eventQueue_) (hstep : step s block = some t) :
    Ordered t.now t.eventQueue_ := by
  obtain ⟨hmoves, hnow⟩ := step_moves hstep
  have ht := h.moves hmoves
  exact ⟨ht.all, ht.calls, ht.sorted, ht.inTurn, fun event hmem => (ht.due event hmem).trans hnow⟩

theorem ordered_new (now : Int) : Ordered now ({} : EventQueue δ) :=
  ⟨.refl _, rfl, .nil, .nil, fun _ hmem => nomatch hmem⟩

-- What is reported

def Looper.inHand : Looper δ → List (Event δ)
  | .handling event => if event.what = .none then [] else [event]
  | _ => []

def Told (s : State δ) : Prop :=
  (s.reported.map Prod.fst ++ s.looper.inHand).Sublist s.eventQueue_.taken

theorem inHand_notify (looper : Looper δ) : looper.notify.inHand = looper.inHand := by
  cases looper <;> rfl

theorem enqueue_taken (q : EventQueue δ) (what : What) (whenMs : Int) (detail : Option δ) :
    (q.enqueue what whenMs detail).1.taken = q.taken := by
  unfold EventQueue.enqueue
  split <;> rfl

theorem Gets.told {r : EventQueue δ × Next δ} {reported : List (Event δ)} (h : Gets now q r)
    (hreported : reported.Sublist q.taken) :
    (reported ++ r.2.looper.inHand).Sublist r.1.taken := by
  cases h with
  | quits | sleeps => exact (List.append_nil reported).symm ▸ hreported
  | takes first =>
    refine hreported.append ?_
    show (if first.what = .none then [] else [first]).Sublist [first]
    split
    · exact List.nil_sublist _
    · exact .refl _

theorem told_inHand (event : Event δ) (position : Option δ) :
    (((told event position).toList.map (event, ·)).map Prod.fst).Sublist
      (Looper.handling event).inHand := by
  obtain ⟨what, whenMs, detail, call⟩ := event
  cases what with
  | none => exact .refl _
  | mediaProgress => cases position <;> simp [told, Looper.inHand]
  | info | error => cases detail <;> simp [told, Looper.inHand]

theorem Told.step (h : Told s) (hstep : step s block = some t) : Told t := by
  have hbefore : (s.reported.map Prod.fst).Sublist s.eventQueue_.taken :=
    (List.sublist_append_left _ _).trans h
  cases block with
  | enqueue what whenMs detail =>
    cases hstep
    unfold Told
    simp only [enqueue_taken]
    split
    · rw [inHand_notify]
      exact h
    · exact h
  | startReport | stopReport | tick =>
    cases hstep
    exact h
  | quit =>
    cases hstep
    unfold Told
    rw [inHand_notify]
    exact h
  | looper obs position =>
    rw [CallbackLooper.step] at hstep
    cases hlooper : s.looper with
    | calling | sleeping =>
      obtain ⟨r, hr, rfl⟩ := looperStep_gets (by rw [hlooper]; rfl) hstep
      exact hr.told hbefore
    | handling event =>
      rw [looperStep, hlooper] at hstep
      cases hstep
      have hmade : (if event.what = .mediaProgress then .rescheduling else .calling :
          Looper δ).inHand = [] := by split <;> rfl
      unfold Told
      simp only [hmade, List.append_nil]
      split
      · rw [List.map_append]
        refine ((told_inHand event position).append_left _).trans ?_
        rw [← hlooper]
        exact h
      · exact hbefore
    | rescheduling =>
      rw [looperStep, hlooper] at hstep
      cases hstep
      unfold Told
      split <;> exact (List.append_nil _).symm ▸ hbefore
    | enqueueing =>
      rw [looperStep, hlooper] at hstep
      cases hstep
      unfold Told
      rw [enqueue_taken]
      exact (List.append_nil _).symm ▸ hbefore

theorem told_new (now : Int) : Told ({ now := now } : State δ) := .slnil

/-- **Events are reported in turn.** What is reported has been taken, each event once, not before
it is due, and behind the events that were enqueued before it and are not due later. -/
theorem reported_in_turn {now : Int} {blocks : List (Block δ)}
    (hrun : Runs.run step { now := now } blocks = some s) :
    (s.reported.map Prod.fst).Sublist s.eventQueue_.taken ∧
      (s.eventQueue_.taken ++ s.eventQueue_.queue_).Perm s.eventQueue_.entered ∧
      s.eventQueue_.entered.map Event.call = List.range s.eventQueue_.entered.length ∧
      (∀ event ∈ s.eventQueue_.taken, event.whenMs ≤ s.now) ∧
      (s.eventQueue_.taken ++ s.eventQueue_.queue_).Pairwise InTurn := by
  obtain ⟨h, htold⟩ : Ordered s.now s.eventQueue_ ∧ Told s :=
    Runs.run_keeps (I := fun s : State δ => Ordered s.now s.eventQueue_ ∧ Told s)
      (fun _ _ _ h hstep => ⟨h.1.step hstep, h.2.step hstep⟩)
      ⟨ordered_new now, told_new now⟩ hrun
  exact ⟨(List.sublist_append_left _ _).trans htold, h.all, h.calls, h.due, h.inTurn⟩

/-- The second event is due first. -/
def twoEvents : List (Block Nat) :=
  [.enqueue .info 5 (some 1), .enqueue .error 3 (some 2), .tick 5, .looper true none,
    .looper true none, .looper true none, .looper true none]

theorem reported_in_turn_twoEvents : ∃ s, Runs.run step { now := 0 } twoEvents = some s ∧
    s.reported.map Prod.snd = [2, 1] ∧ (s.reported.map Prod.fst).Sublist s.eventQueue_.taken :=
  ⟨_, rfl, rfl, (@reported_in_turn Nat _ 0 twoEvents rfl).1⟩

-- The wait

/-- A looper that sleeps and is not notified waits for the head of the queue, and one with a time to
wake up at finds a head. -/
def Waits (q : EventQueue δ) : Looper δ → Prop
  | .sleeping deadline notified =>
    (deadline ≠ none → q.queue_ ≠ []) ∧
      (notified = false → q.quit_ = false ∧ q.queue_.head?.map Event.whenMs = deadline)
  | _ => True

theorem Waits.notify {looper : Looper δ} (h : Waits q looper)
    (hqueue : q.queue_ ≠ [] → r.queue_ ≠ []) : Waits r looper.notify := by
  cases looper with
  | sleeping deadline notified => exact ⟨fun hdeadline => hqueue (h.1 hdeadline), nofun⟩
  | calling | handling | rescheduling | enqueueing => trivial

theorem Waits.enqueue {looper : Looper δ} (h : Waits q looper) (what : What) (whenMs : Int)
    (detail : Option δ) : Waits (q.enqueue what whenMs detail).1
      (if (q.enqueue what whenMs detail).2 then looper.notify else looper) := by
  unfold EventQueue.enqueue
  split
  next => exact h
  next hquit =>
    set event : Event δ := ⟨what, whenMs, detail, q.entered.length⟩
    have hne : q.queue_.orderedInsert (fun a b => a.whenMs < b.whenMs) event ≠ [] := by
      refine List.ne_nil_of_length_pos ?_
      rw [List.orderedInsert_length]
      exact Nat.succ_pos _
    split
    next => exact h.notify fun _ => hne
    next hfirst =>
      cases looper with
      | sleeping deadline notified =>
        refine ⟨fun _ => hne, fun hnotified => ⟨Bool.eq_false_iff.mpr hquit, ?_⟩⟩
        obtain ⟨-, hhead⟩ := h.2 hnotified
        cases hqueue : q.queue_ with
        | nil => exact absurd (by rw [hqueue]; rfl) hfirst
        | cons head rest =>
          -- the new event is not due before the head, which stays where it is
          simp only [hqueue, List.head?_cons, Option.all_some, decide_eq_true_eq] at hfirst hhead
          show ((head :: rest).orderedInsert (fun a b => a.whenMs < b.whenMs) event).head?.map _ = _
          rw [List.orderedInsert_cons, if_neg hfirst]
          exact hhead
      | calling | handling | rescheduling | enqueueing => trivial

theorem Gets.waits {r : EventQueue δ × Next δ} (h : Gets now q r) : Waits r.1 r.2.looper := by
  cases h with
  | quits | takes => trivial
  | sleeps hquit =>
    refine ⟨fun hdeadline hnil => hdeadline ?_, fun _ => ⟨hquit, rfl⟩⟩
    rw [hnil]
    rfl

theorem exists_nextDue (now : Int) (hqueue : q.quit_ = false → q.queue_ ≠ []) :
    ∃ r, q.nextDue now = some r := by
  unfold EventQueue.nextDue
  split
  next => exact ⟨_, rfl⟩
  next hquit =>
    split
    next hnil => exact absurd hnil (hqueue (Bool.eq_false_iff.mpr hquit))
    next => split <;> exact ⟨_, rfl⟩

theorem exists_next (q : EventQueue δ) (now : Int) : ∃ r, q.next now = some r := by
  unfold EventQueue.next
  split
  next => exact ⟨_, rfl⟩
  next hempty =>
    refine exists_nextDue now fun hquit hnil => hempty ?_
    rw [hnil, hquit]
    rfl

theorem waits_step (h : Waits s.eventQueue_ s.looper) (block : Block δ) :
    ∃ t, step s block = some t ∧ Waits t.eventQueue_ t.looper := by
  cases block with
  | enqueue what whenMs detail => exact ⟨_, rfl, h.enqueue what whenMs detail⟩
  | startReport | stopReport | tick => exact ⟨_, rfl, h⟩
  | quit => exact ⟨_, rfl, h.notify id⟩
  | looper obs position =>
    show ∃ t, looperStep s obs position = some t ∧ _
    unfold looperStep
    split
    next =>
      obtain ⟨r, hr⟩ := exists_next s.eventQueue_ s.now
      exact ⟨_, by rw [hr]; rfl, (next_gets hr).waits⟩
    next =>
      obtain ⟨r, hr⟩ := exists_next s.eventQueue_ s.now
      exact ⟨_, by rw [hr]; rfl, (next_gets hr).waits⟩
    next hlooper =>
      rw [hlooper] at h
      obtain ⟨r, hr⟩ := exists_nextDue s.now fun _ => h.1 (Option.some_ne_none _)
      exact ⟨_, by rw [hr]; rfl, (nextDue_gets hr).waits⟩
    next event _ =>
      refine ⟨_, rfl, ?_⟩
      show Waits _ (if event.what = .mediaProgress then .rescheduling else .calling)
      split <;> trivial
    next =>
      refine ⟨_, rfl, ?_⟩
      cases s.reportMediaProgress_ <;> trivial
    next => exact ⟨_, rfl, trivial⟩

/-- **The looper is never stranded**, and never reads the head of an empty queue: blocks can be
taken in any order, and a looper that sleeps without having been notified sleeps no longer than
until the first event is due. -/
theorem looper_not_stranded (now : Int) (blocks : List (Block δ)) :
    ∃ s, Runs.run step { now := now } blocks = some s ∧
      ∀ deadline, s.looper = .sleeping deadline false → s.eventQueue_.quit_ = false ∧
        ∀ event ∈ s.eventQueue_.queue_, ∃ whenMs, deadline = some whenMs ∧
          whenMs ≤ event.whenMs := by
  let I : State δ → Prop := fun s => Waits s.eventQueue_ s.looper ∧ Ordered s.now s.eventQueue_
  have hstep : ∀ s block, I s → True → ∃ t, step s block = some t ∧ I t := by
    intro s block hs _
    obtain ⟨t, ht, hwaits⟩ := waits_step hs.1 block
    exact ⟨t, ht, hwaits, hs.2.step ht⟩
  have hall : Runs.Along step (fun _ _ => True) ({ now := now } : State δ) blocks :=
    Runs.along_of_forall_mem (fun _ _ _ => trivial) _
  obtain ⟨s, hrun, hwaits, hordered⟩ := Runs.run_total hstep (s := { now := now })
    ⟨trivial, ordered_new now⟩ hall
  refine ⟨s, hrun, fun deadline hasleep => ?_⟩
  rw [hasleep] at hwaits
  obtain ⟨hquit, hhead⟩ := hwaits.2 rfl
  refine ⟨hquit, fun event hevent => ?_⟩
  have hsorted := hordered.sorted
  cases hqueue : s.eventQueue_.queue_ with
  | nil => rw [hqueue] at hevent; cases hevent
  | cons first rest =>
    rw [hqueue] at hhead hsorted hevent
    refine ⟨first.whenMs, hhead.symm, ?_⟩
    rcases List.mem_cons.mp hevent with rfl | hevent
    · exact Int.le_refl _
    · exact (List.pairwise_cons.mp hsorted).1 event hevent

-- Progress reports

def Looper.progress : Looper δ → Nat
  | .handling event => if event.what = .mediaProgress then 1 else 0
  | .rescheduling | .enqueueing _ => 1
  | .calling | .sleeping .. => 0

def progress (q : EventQueue δ) (looper : Looper δ) : Nat :=
  q.queue_.countP (fun event => event.what = .mediaProgress) + looper.progress

/-- The blocks under which progress reports go on. -/
def GoesOn : Block δ → Prop
  | .stopReport | .quit => False
  | _ => True

def entersProgress : Block δ → Bool
  | .enqueue what _ _ => what = .mediaProgress
  | _ => false

theorem progress_notify (looper : Looper δ) : looper.notify.progress = looper.progress := by
  cases looper <;> rfl

theorem progress_enqueue (hquit : q.quit_ = false) (what : What) (whenMs : Int)
    (detail : Option δ) (looper : Looper δ) :
    progress (q.enqueue what whenMs detail).1 looper =
      progress q looper + if what = .mediaProgress then 1 else 0 := by
  have hcount := (List.perm_orderedInsert (fun a b : Event δ => a.whenMs < b.whenMs)
    ⟨what, whenMs, detail, q.entered.length⟩ q.queue_).countP_eq fun event =>
      decide (event.what = .mediaProgress)
  simp only [List.countP_cons, decide_eq_true_eq] at hcount
  rw [EventQueue.enqueue, hquit, if_neg Bool.false_ne_true, progress, hcount, progress]
  exact Nat.add_right_comm _ _ _

theorem Gets.progress {r : EventQueue δ × Next δ} (h : Gets now q r) (hquit : q.quit_ = false) :
    r.1.quit_ = false ∧ CallbackLooper.progress r.1 r.2.looper =
      CallbackLooper.progress q .calling := by
  cases h with
  | quits | sleeps => exact ⟨hquit, rfl⟩
  | takes first rest _ hqueue =>
    refine ⟨hquit, ?_⟩
    simp only [CallbackLooper.progress, hqueue, List.countP_cons, decide_eq_true_eq]
    rfl

theorem enqueue_quit (hquit : q.quit_ = false) (what : What) (whenMs : Int) (detail : Option δ) :
    (q.enqueue what whenMs detail).1.quit_ = false := by
  rw [EventQueue.enqueue, hquit, if_neg Bool.false_ne_true]

def On (s : State δ) : Prop := s.eventQueue_.quit_ = false ∧ s.reportMediaProgress_ = true

theorem step_progress (hgoes : GoesOn block) (hs : On s) (h : step s block = some t) :
    On t ∧ progress t.eventQueue_ t.looper =
      progress s.eventQueue_ s.looper + if entersProgress block then 1 else 0 := by
  obtain ⟨hquit, hon⟩ := hs
  cases block with
  | stopReport | quit => exact absurd hgoes id
  | startReport =>
    cases h
    exact ⟨⟨hquit, rfl⟩, rfl⟩
  | tick =>
    cases h
    exact ⟨⟨hquit, hon⟩, rfl⟩
  | enqueue what whenMs detail =>
    cases h
    refine ⟨⟨enqueue_quit hquit _ _ _, hon⟩, ?_⟩
    simp only [entersProgress, decide_eq_true_eq]
    refine Eq.trans ?_ (progress_enqueue hquit what whenMs detail s.looper)
    split
    · exact congrArg (_ + ·) (progress_notify _)
    · rfl
  | looper obs position =>
    rw [step] at h
    cases hlooper : s.looper with
    | calling | sleeping =>
      obtain ⟨r, hr, rfl⟩ := looperStep_gets (by rw [hlooper]; rfl) h
      obtain ⟨hquit, heq⟩ := hr.progress hquit
      exact ⟨⟨hquit, hon⟩, heq⟩
    | handling event =>
      rw [looperStep, hlooper] at h
      cases h
      refine ⟨⟨hquit, hon⟩, ?_⟩
      show _ + Looper.progress (if _ then _ else _) =
        _ + if event.what = .mediaProgress then 1 else 0
      by_cases hwhat : event.what = .mediaProgress
      · rw [if_pos hwhat, if_pos hwhat]
        rfl
      · rw [if_neg hwhat, if_neg hwhat]
        rfl
    | rescheduling =>
      rw [looperStep, hlooper] at h
      cases h
      refine ⟨⟨hquit, hon⟩, ?_⟩
      rw [if_pos hon]
      rfl
    | enqueueing whenMs =>
      rw [looperStep, hlooper] at h
      cases h
      refine ⟨⟨enqueue_quit hquit _ _ _, hon⟩, ?_⟩
      rw [progress_enqueue hquit]
      rfl

theorem run_progress {blocks : List (Block δ)} (hgoes : ∀ block ∈ blocks, GoesOn block) (hs : On s)
    (hrun : Runs.run step s blocks = some t) : progress t.eventQueue_ t.looper =
      progress s.eventQueue_ s.looper + blocks.countP entersProgress := by
  induction blocks generalizing s with
  | nil =>
    rw [Option.some.inj hrun]
    rfl
  | cons block blocks ih =>
    obtain ⟨u, hu, hrun⟩ := Runs.run_cons_some.mp hrun
    obtain ⟨hon, hstep⟩ := step_progress (hgoes block List.mem_cons_self) hs hu
    rw [ih (fun b hb => hgoes b (List.mem_cons_of_mem _ hb)) hon hrun, hstep, List.countP_cons]
    omega

/-- **Progress reports neither end nor become fewer.** From `StartReportMediaProgress` until
`StopReportMediaProgress` or `Quit`, each report that is to come is followed by another one: those
that were left over go on beside the new one, and each `ManualReportMediaProgressOnce` adds one. -/
theorem progress_goes_on {updateIntervalMs : Int} {blocks : List (Block δ)}
    (hquit : s.eventQueue_.quit_ = false) (hgoes : ∀ block ∈ blocks, GoesOn block)
    (hrun : Runs.run step s (.startReport updateIntervalMs :: blocks) = some t) :
    progress t.eventQueue_ t.looper =
      progress s.eventQueue_ s.looper + blocks.countP entersProgress := by
  obtain ⟨u, hu, hrun⟩ := Runs.run_cons_some.mp hrun
  have hon : On u ∧ progress u.eventQueue_ u.looper = progress s.eventQueue_ s.looper := by
    rw [← Option.some.inj hu]
    exact ⟨⟨hquit, rfl⟩, rfl⟩
  rw [← hon.2]
  exact run_progress hgoes hon.1 hrun

/-- A report by hand beside the periodic one. -/
def byHand : List (Block Nat) :=
  [.enqueue .mediaProgress 0 none, .enqueue .mediaProgress 0 none, .looper true (some 7),
    .looper true (some 7), .looper true none, .looper true none, .looper true none]

theorem progress_goes_on_byHand :
    ∃ t, Runs.run step { now := 0 } (.startReport 100 :: byHand) = some t ∧
      progress t.eventQueue_ t.looper = 2 :=
  ⟨_, rfl, @progress_goes_on Nat { now := 0 } _ 100 byHand rfl (by simp [byHand, GoesOn]) rfl⟩

end MediaFoundation.CallbackLooper
