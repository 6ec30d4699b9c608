import MediaFoundation.Queue.Usage

/-!
# One holder at a time

Who has a buffer: a `Ledger` is kept beside a run from the events of its
steps. A buffer is held from the moment `RequestBuffer`, `OnBufferFilled` or
`AcquireBuffer` hands it out until the queue has it back, and `shared` is set
once a buffer is handed out that somebody still holds.

Two steps of the code hand out a buffer that is held:

* `Clear` puts every `PUSHED` buffer on the free list, also one that the broker
  holds or that is on its way through `PushBuffer`;
* `ReturnBuffer` without a consumer listener files the buffer and fails, so the
  caller keeps a buffer that `AcquireBuffer` hands to a consumer.

`exclusive_ownership` excludes both, and nothing else of the code: a holder
gives back only what it holds, and `CreateAVBuffer` gives no id twice.
-/

namespace MediaFoundation.Queue

open AVBufferQueueImpl

variable {id : UInt64} {caller : Caller}

/-! ## The ledger -/

inductive Hold where
  | free
  | held (party : Nat)
  /-- The party has called `PushBuffer`, and the call has not come to the point
  where the queue or the broker takes the buffer. -/
  | passing (party : Nat)
deriving DecidableEq

structure Ledger where
  hold : UInt64 → Hold := fun _ => .free
  shared : Bool := false

def Ledger.set (g : Ledger) (id : UInt64) (hold : Hold) : Ledger :=
  { g with hold := Function.update g.hold id hold }

def Ledger.record (g : Ledger) : Event → Ledger
  | .handedOut buffer party =>
    { g.set buffer.uniqueId (.held party) with
      shared := g.shared || decide (g.hold buffer.uniqueId ≠ .free) }
  | .passing id =>
    match g.hold id with
    | .held party => g.set id (.passing party)
    | _ => g
  | .takenBack id => g.set id .free
  | .refused id party =>
    match g.hold id with
    | .held holder => if holder = party then g else { g with shared := true }
    | _ => g.set id (.held party)
  | _ => g

def Ledger.recordStep (g : Ledger) (s : System) (l : Label) (_ : System) : Ledger :=
  (eventsOf s l).foldl Ledger.record g

def stepWithLedger : System × Ledger → Label → Option (System × Ledger) :=
  Runs.withGhost step Ledger.recordStep

/-! ## The condition -/

/-- The buffer that a party starts to give back. -/
def clientGives (s : System) (l : Label) : Option UInt64 :=
  match s.threads l.thread, l.action with
  | .idle, .call (.pushBuffer uniqueId _) => some uniqueId
  | .idle, .call (.returnBuffer uniqueId _) => some uniqueId
  | .idle, .call (.releaseBuffer uniqueId) => some uniqueId
  | .idle, .call (.detachBuffer uniqueId) => some uniqueId
  | _, _ => none

def GivesOwn (x : System × Ledger) (l : Label) : Prop :=
  ∀ uniqueId ∈ clientGives x.1 l, x.2.hold uniqueId = .held l.party

instance (x : System × Ledger) (l : Label) : Decidable (GivesOwn x l) :=
  @Option.decidableForallMem _ (fun uniqueId => x.2.hold uniqueId = .held l.party) _
    (clientGives x.1 l)

/-- Besides, `CreateAVBuffer` gives no id twice, `Clear` meets no pushed buffer,
and `ReturnBuffer` finds a consumer listener. -/
structure KeepsOwners (x : System × Ledger) (l : Label) : Prop where
  own : GivesOwn x l
  fresh : Fresh x.1.queue l.env
  clear : l.action = .call .clear → NonePushed x.1.queue
  listener : ∀ caller uniqueId, x.1.threads l.thread = .consumerBlock caller uniqueId →
    x.1.listeners.consumerListener ≠ none

/-! ## The invariant -/

/-- The buffer that a call has in its hands between two blocks, and for whom. -/
def Thread.carries : Thread → Option (Caller × UInt64)
  | .pushFilled uniqueId | .releaseAttached uniqueId | .detachBlock uniqueId _ =>
    some (.attach, uniqueId)
  | .brokerBlock caller uniqueId _ | .returnBlock caller uniqueId _ => some (caller, uniqueId)
  | _ => none

/-- What the ledger says about a buffer that a call carries. -/
def Caller.hold : Caller → Hold
  | .client party => .passing party
  | .attach => .free

/-- **The ledger is right**: what somebody holds or carries is in use, each call
carries its own buffer, and nothing was ever handed out twice. -/
structure Owned (s : System) (g : Ledger) : Prop where
  repInv : RepInv s.queue
  unmarked : ListedUnmarked s.queue
  unshared : g.shared = false
  inUse : ∀ id, g.hold id ≠ .free → InUse s.queue id
  carried : ∀ t caller id, (s.threads t).carries = some (caller, id) →
    g.hold id = caller.hold ∧ InUse s.queue id
  unique : ∀ t u caller caller' id, (s.threads t).carries = some (caller, id) →
    (s.threads u).carries = some (caller', id) → t = u
  broker : ∀ t caller id buffer, s.threads t = .brokerBlock caller id buffer →
    ∃ b : AVBufferRef, buffer = some b ∧ b.uniqueId = id

section Install

variable {s : System} {g : Ledger} {o : Outcome} {t : Nat}

theorem carries_wake (thread : Thread) : thread.wake.carries = thread.carries := by
  cases thread <;> rfl

theorem brokerBlock_wake {thread : Thread}
    {buffer : Option AVBufferRef} (h : thread.wake = .brokerBlock caller id buffer) :
    thread = .brokerBlock caller id buffer := by
  cases thread <;> first | exact h | cases h

theorem install_carries (s : System) (t : Nat) (o : Outcome) (u : Nat) :
    ((s.install t o).threads u).carries =
      if u = t then o.next.carries else (s.threads u).carries := by
  simp only [System.install]
  split
  · rw [carries_wake, Function.update_apply]
    split <;> rfl
  · rw [Function.update_apply]
    split <;> rfl

theorem install_broker {u : Nat} {buffer : Option AVBufferRef}
    (h : (s.install t o).threads u = .brokerBlock caller id buffer) :
    (u = t ∧ o.next = .brokerBlock caller id buffer) ∨
      s.threads u = .brokerBlock caller id buffer := by
  have h : Function.update s.threads t o.next u = .brokerBlock caller id buffer := by
    simp only [System.install] at h
    split at h
    · exact brokerBlock_wake h
    · exact h
  rw [Function.update_apply] at h
  split at h
  next hu => exact .inl ⟨hu, h⟩
  next => exact .inr h

/-- A block that changes the ledger for one buffer. Nobody else carries that
buffer, and all others stay in use. -/
theorem Owned.update (h : Owned s g) {k : UInt64} {hold : Hold}
    (hq : Preserves s.queue o.queue (some k)) (hk : hold ≠ .free → InUse o.queue k)
    (halone : ∀ u caller, u ≠ t → (s.threads u).carries ≠ some (caller, k))
    (hnext : ∀ caller id, o.next.carries = some (caller, id) →
      id = k ∧ hold = caller.hold ∧ InUse o.queue k)
    (hbroker : ∀ caller id buffer, o.next = .brokerBlock caller id buffer →
      ∃ b : AVBufferRef, buffer = some b ∧ b.uniqueId = id) :
    Owned (s.install t o) (g.set k hold) := by
  have hsame : ∀ id, id ≠ k → (g.set k hold).hold id = g.hold id := fun id hid =>
    Function.update_of_ne hid _ _
  have hset : (g.set k hold).hold k = hold := Function.update_self ..
  refine ⟨hq.repInv, hq.unmarked, h.unshared, ?_, ?_, ?_, ?_⟩
  · intro id hid
    by_cases hidk : id = k
    · subst hidk
      exact hk (hset ▸ hid)
    · rw [hsame id hidk] at hid
      exact hq.inUse id (fun heq => hidk (Option.some.inj heq).symm) (h.inUse id hid)
  · intro u caller id hu
    rw [install_carries] at hu
    split at hu
    · obtain ⟨rfl, hhold, hin⟩ := hnext caller id hu
      exact ⟨hset.trans hhold, hin⟩
    next hut =>
      have hidk : id ≠ k := fun heq => halone u caller hut (heq ▸ hu)
      obtain ⟨hhold, hin⟩ := h.carried u caller id hu
      exact ⟨(hsame id hidk).trans hhold,
        hq.inUse id (fun heq => hidk (Option.some.inj heq).symm) hin⟩
  · intro u v caller caller' id hu hv
    rw [install_carries] at hu hv
    split at hu <;> split at hv
    next hu' hv' => rw [hu', hv']
    next hv' =>
      obtain ⟨rfl, -, -⟩ := hnext caller id hu
      exact absurd hv (halone v caller' hv')
    next hu' _ =>
      obtain ⟨rfl, -, -⟩ := hnext caller' id hv
      exact absurd hu (halone u caller hu')
    · exact h.unique u v caller caller' id hu hv
  · intro u caller id buffer hu
    rcases install_broker hu with ⟨-, hu⟩ | hu
    · exact hbroker caller id buffer hu
    · exact h.broker u caller id buffer hu

theorem Owned.steady (h : Owned s g) (hq : Preserves s.queue o.queue none)
    (hnext : ∀ caller id, o.next.carries = some (caller, id) →
      (s.threads t).carries = some (caller, id))
    (hbroker : ∀ caller id buffer, o.next = .brokerBlock caller id buffer →
      ∃ b : AVBufferRef, buffer = some b ∧ b.uniqueId = id) :
    Owned (s.install t o) g := by
  have hkeep : ∀ id, InUse s.queue id → InUse o.queue id := fun id =>
    hq.inUse id (Option.some_ne_none id).symm
  -- in the new state a thread carries only what it carried before
  have hold : ∀ u caller id, ((s.install t o).threads u).carries = some (caller, id) →
      (s.threads u).carries = some (caller, id) := by
    intro u caller id hu
    rw [install_carries] at hu
    split at hu
    next hut => exact hut ▸ hnext caller id hu
    next => exact hu
  refine ⟨hq.repInv, hq.unmarked, h.unshared, fun id hid => hkeep id (h.inUse id hid), ?_, ?_, ?_⟩
  · intro u caller id hu
    obtain ⟨hhold, hin⟩ := h.carried u caller id (hold u caller id hu)
    exact ⟨hhold, hkeep id hin⟩
  · intro u v caller caller' id hu hv
    exact h.unique u v caller caller' id (hold u caller id hu) (hold v caller' id hv)
  · intro u caller id buffer hu
    rcases install_broker hu with ⟨-, hu⟩ | hu
    · exact hbroker caller id buffer hu
    · exact h.broker u caller id buffer hu

/-! ### Who carries a buffer -/

theorem Owned.not_carried_of_held (h : Owned s g) {party : Nat}
    (hid : g.hold id = .held party) (u : Nat) (caller : Caller) :
    (s.threads u).carries ≠ some (caller, id) := by
  intro hu
  have := (h.carried u caller id hu).1
  rw [hid] at this
  cases caller <;> cases this

theorem Owned.not_carried (h : Owned s g) (hid : ¬ InUse s.queue id) (u : Nat)
    (caller : Caller) : (s.threads u).carries ≠ some (caller, id) :=
  fun hu => hid (h.carried u caller id hu).2

theorem Owned.free_of_not_inUse (h : Owned s g) (hid : ¬ InUse s.queue id) :
    g.hold id = .free :=
  by_contra fun hne => hid (h.inUse id hne)

/-! ### The blocks -/

theorem Ledger.record_handedOut {buffer : AVBufferRef} (hg : g.shared = false)
    (hfree : g.hold buffer.uniqueId = .free) (party : Nat) :
    g.record (.handedOut buffer party) = g.set buffer.uniqueId (.held party) := by
  simp [Ledger.record, Ledger.set, hg, hfree]

theorem Ledger.set_self {hold : Hold} (h : g.hold id = hold) :
    g.set id hold = g := by
  rw [Ledger.set, ← h, Function.update_eq_self]

theorem Owned.hand (h : Owned s g) {buffer : AVBufferRef}
    (hq : Preserves s.queue o.queue none) (hbefore : ¬ InUse s.queue buffer.uniqueId)
    (hafter : InUse o.queue buffer.uniqueId) (hnext : o.next = .idle) (party : Nat) :
    Owned (s.install t o) (g.record (.handedOut buffer party)) := by
  rw [Ledger.record_handedOut h.unshared (h.free_of_not_inUse hbefore)]
  refine h.update (hq.weaken _) (fun _ => hafter) (fun u caller _ => h.not_carried hbefore u caller)
    ?_ ?_
  · intro caller id hid
    rw [hnext] at hid
    cases hid
  · intro caller id b hb
    rw [hnext] at hb
    cases hb

theorem Owned.take (h : Owned s g) {k : UInt64} (hq : Preserves s.queue o.queue (some k))
    (halone : ∀ u caller, u ≠ t → (s.threads u).carries ≠ some (caller, k))
    (hnext : o.next.carries = none) : Owned (s.install t o) (g.set k .free) := by
  refine h.update hq (fun hne => absurd rfl hne) halone ?_ ?_
  · intro caller id hid
    rw [hnext] at hid
    cases hid
  · intro caller id b hb
    rw [hb] at hnext
    cases hnext

theorem Owned.rest (h : Owned s g) (hq : Preserves s.queue o.queue none)
    (hnext : o.next.carries = none) : Owned (s.install t o) g := by
  refine h.steady hq ?_ ?_
  · intro caller id hid
    rw [hnext] at hid
    cases hid
  · intro caller id b hb
    rw [hb] at hnext
    cases hnext

theorem Owned.afterRequest (h : Owned s g) {party : Nat} {config : AVBufferConfig}
    {timeoutUs : Int64} {r : AVBufferQueueImpl × Option (Except Status AVBufferRef)}
    (hr : ∃ m, Moved s.queue r.1 m ∧ RequestMove m r.2) :
    Owned (s.install t (afterRequest party config timeoutUs r))
      ((afterRequest party config timeoutUs r).events.foldl Ledger.record g) := by
  obtain ⟨q, r⟩ := r
  obtain ⟨m, hm, hr⟩ := hr
  have hq := hm.preserves h.repInv h.unmarked fun heq => absurd heq hr.ends.2
  rw [hr.ends.1] at hq
  rcases r with _ | status | buffer
  · exact h.rest hq rfl
  · exact h.rest hq rfl
  · obtain ⟨hbefore, hafter⟩ := hr.starts hm h.repInv
    exact h.hand hq hbefore hafter rfl party

/-- Nobody else carries the buffer: this thread does, or its party holds it. -/
def Alone (s : System) (t : Nat) (id : UInt64) : Prop :=
  ∀ u caller, u ≠ t → (s.threads u).carries ≠ some (caller, id)

theorem Owned.alone_of_carries (h : Owned s g)
    (ht : (s.threads t).carries = some (caller, id)) : Alone s t id :=
  fun u caller' hut hu => hut (h.unique u t caller' caller id hu ht)

theorem Owned.alone_of_held (h : Owned s g) {party : Nat}
    (hid : g.hold id = .held party) : Alone s t id :=
  fun u caller _ => h.not_carried_of_held hid u caller

theorem Owned.afterRelease (h : Owned s g) (halone : Alone s t id)
    {r : AVBufferQueueImpl × ReleaseOutcome} (hr : ∃ m, Moved s.queue r.1 m ∧ ReleaseMove id m r.2) :
    Owned (s.install t (afterRelease id r))
      ((afterRelease id r).events.foldl Ledger.record g) := by
  obtain ⟨q, r⟩ := r
  obtain ⟨m, hm, hr⟩ := hr
  cases hr with
  | failed status =>
    exact h.rest (hm.preserves h.repInv h.unmarked (fun heq => by cases heq)) rfl
  | deleted | released =>
    exact h.take (hm.preserves h.repInv h.unmarked (fun heq => by cases heq)) halone rfl

theorem Owned.finish_attach (h : Owned s g) {q : AVBufferQueueImpl}
    (ht : (s.threads t).carries = some (.attach, id)) (hq : Preserves s.queue q none)
    (status : Status) : Owned (s.install t (finish q .attach id status [])) g := by
  refine h.steady (by rw [(finish_queue ..).1]; exact hq) ?_ ?_
  · intro caller id' hid
    rcases finish_next q .attach id status [] with hnext | ⟨-, st, hnext⟩
    · rw [hnext] at hid
      cases hid
    · rw [hnext] at hid
      exact ht.trans hid
  · intro caller id' b hb
    rcases finish_next q .attach id status [] with hnext | ⟨-, st, hnext⟩
    · rw [hnext] at hb
      cases hb
    · rw [hnext] at hb
      cases hb

/-- `PushBuffer` runs for a party that holds the buffer, or inside the
`AttachBuffer` that carries it. -/
def Entitled (s : System) (g : Ledger) (t : Nat) (id : UInt64) : Caller → Prop
  | .client party => g.hold id = .held party
  | .attach => (s.threads t).carries = some (.attach, id)

theorem Owned.afterPush (h : Owned s g)
    (hcaller : Entitled s g t id caller) {available : Bool} {r : AVBufferQueueImpl × PushOutcome}
    (hr : ∃ m, Moved s.queue r.1 m ∧ PushMove id m r.2) :
    Owned (s.install t (afterPush caller id available r))
      ((afterPush caller id available r).events.foldl Ledger.record g) := by
  obtain ⟨q, r⟩ := r
  obtain ⟨m, hm, hr⟩ := hr
  have hq := hm.preserves h.repInv h.unmarked (by cases hr <;> simp)
  have halone : Alone s t id := by
    cases caller with
    | client party => exact h.alone_of_held hcaller
    | attach => exact h.alone_of_carries hcaller
  cases hr with
  | failed status =>
    cases caller with
    | client party => exact h.rest hq rfl
    | attach =>
      rw [Queue.afterPush, (finish_queue ..).2]
      exact h.finish_attach hcaller hq status
  | deleted =>
    rw [Queue.afterPush, (finish_queue ..).2]
    exact h.take (by rw [(finish_queue ..).1]; exact hq) halone (by rw [finish_ok_next]; rfl)
  | @pushed buffer hkey =>
    cases caller with
    | client party =>
      have hheld : g.hold id = .held party := hcaller
      have hrecord : g.record (.passing id) = g.set id (.passing party) := by
        simp only [Ledger.record, hheld]
      simp only [Queue.afterPush, List.foldl_cons, List.foldl_nil, hrecord]
      refine h.update (hq.weaken _) (fun _ => hm.push_inUse) halone ?_ ?_
      · intro caller id' hid
        simp only at hid
        split at hid <;> obtain ⟨rfl, rfl⟩ := Prod.mk.inj (Option.some.inj hid) <;>
          exact ⟨rfl, rfl, hm.push_inUse⟩
      · intro caller id' b hb
        simp only at hb
        split at hb
        · obtain ⟨-, rfl, rfl⟩ := Thread.brokerBlock.inj hb
          exact ⟨buffer, rfl, hkey⟩
        · cases hb
    | attach =>
      refine h.steady hq ?_ ?_
      · intro caller id' hid
        simp only [Queue.afterPush] at hid
        split at hid <;> exact hcaller.trans hid
      · intro caller id' b hb
        simp only [Queue.afterPush] at hb
        split at hb
        · obtain ⟨-, rfl, rfl⟩ := Thread.brokerBlock.inj hb
          exact ⟨buffer, rfl, hkey⟩
        · cases hb

/-- `ReturnBuffer` runs for a party that holds the buffer, for one whose
`PushBuffer` carries it, or inside `AttachBuffer`. -/
def Returning (s : System) (g : Ledger) (t : Nat) (id : UInt64) (caller : Caller) : Prop :=
  (∃ party, caller = .client party ∧ g.hold id = .held party) ∨
    (s.threads t).carries = some (caller, id)

theorem Owned.afterReturn (h : Owned s g)
    (hcaller : Returning s g t id caller) {r : AVBufferQueueImpl × ReturnOutcome}
    (hr : ∃ m, Moved s.queue r.1 m ∧ ReturnMove id m r.2) :
    Owned (s.install t (afterReturn caller id r))
      ((afterReturn caller id r).events.foldl Ledger.record g) := by
  obtain ⟨q, r⟩ := r
  obtain ⟨m, hm, hr⟩ := hr
  have hq := hm.preserves h.repInv h.unmarked (by cases hr <;> simp)
  have halone : Alone s t id := by
    rcases hcaller with ⟨party, -, hheld⟩ | ht
    · exact h.alone_of_held hheld
    · exact h.alone_of_carries ht
  cases hr with
  | failed status =>
    rw [Queue.afterReturn, (finish_queue ..).2]
    rcases hcaller with ⟨party, rfl, hheld⟩ | ht
    · -- the party held the buffer all the while
      have hrecord : g.record (.refused id party) = g := by
        simp only [Ledger.record, hheld, if_true]
      rw [refusal, List.foldl_cons, List.foldl_nil, hrecord]
      exact h.rest hq rfl
    · cases caller with
      | client party =>
        -- the buffer on its way is back in the hands of the party
        obtain ⟨hhold, hin⟩ := h.carried t _ id ht
        have hrecord : g.record (.refused id party) = g.set id (.held party) := by
          simp only [Ledger.record, hhold, Caller.hold]
        rw [refusal, List.foldl_cons, List.foldl_nil, hrecord]
        refine h.update (hq.weaken _) (fun _ => ?_) halone ?_ ?_
        · exact hq.inUse id (Option.some_ne_none id).symm hin
        · intro caller id' hid
          cases hid
        · intro caller id' b hb
          cases hb
      | attach => exact h.finish_attach ht hq status
  | deleted =>
    rw [Queue.afterReturn, (finish_queue ..).2]
    exact h.take (by rw [(finish_queue ..).1]; exact hq) halone (by rw [finish_ok_next]; rfl)
  | cancelled => exact h.take hq halone rfl
  | appended hkey => subst hkey; exact h.take hq halone rfl

theorem Owned.afterAttach (h : Owned s g) {u : AVBufferQueueImpl} {buffer : AVBufferRef}
    {isFilled : Bool} {ms : List Move} {r : AVBufferQueueImpl × Status}
    (hu : Preserves s.queue u none) (hms : Moves u ms r.1) (hat : AttachMoves u buffer ms r.2) :
    Owned (s.install t (afterAttach s.queue buffer.uniqueId isFilled r))
      ((afterAttach s.queue buffer.uniqueId isFilled r).events.foldl Ledger.record g) := by
  obtain ⟨q, status⟩ := r
  have hq : Preserves s.queue q none := hu.trans
    (hms.preserves hu.repInv hu.unmarked fun m hm => Move.ends_of_trims (hat.trims m hm))
  by_cases hst : status = .ok
  · subst hst
    obtain ⟨hbefore, hafter⟩ := hat.starts hms hu
    show Owned _ g
    rw [← Ledger.set_self (h.free_of_not_inUse hbefore)]
    refine h.update (hq.weaken _) (fun hne => absurd rfl hne)
      (fun v caller _ => h.not_carried hbefore v caller) ?_ ?_
    · intro caller id hid
      simp only [Queue.afterAttach, if_true] at hid
      split at hid <;> obtain ⟨rfl, rfl⟩ := Prod.mk.inj (Option.some.inj hid) <;>
        exact ⟨rfl, rfl, hafter⟩
    · intro caller id b hb
      simp only [Queue.afterAttach, if_true] at hb
      split at hb <;> cases hb
  · refine h.rest hq ?_
    simp only [Queue.afterAttach, hst, if_false]
    rfl

theorem Owned.startCall (h : Owned s g) {env : Env} {party : Nat} {c : Call} {o : Outcome}
    (hfresh : Fresh s.queue env) (hclear : c = .clear → NonePushed s.queue)
    (hown : ∀ id, (∃ available, c = .pushBuffer id available ∨ c = .returnBuffer id available) ∨
      c = .releaseBuffer id ∨ c = .detachBuffer id → g.hold id = .held party)
    (ho : startCall s.queue env party c = some o) :
    Owned (s.install t o) (o.events.foldl Ledger.record g) := by
  have hrefl : Preserves s.queue s.queue none := .refl h.repInv h.unmarked
  have hmarked := markedUnlisted_of_listedUnmarked h.unmarked
  have hresize : ∀ {ms size q}, Moves s.queue ms q → (ms = [] ∨ ms = s.queue.resizeMoves size) →
      Preserves s.queue q none := by
    intro ms size q hms hres
    refine hms.preserves h.repInv h.unmarked fun m hm => Move.ends_of_trims ?_
    rcases hres with rfl | rfl
    · cases hm
    · exact trims_of_mem_resizeMoves hm
  cases c with
  | requestBufferWaitUs config timeoutUs seen =>
    cases ho
    exact h.afterRequest (requestBufferWaitUs_move h.repInv hfresh _ timeoutUs)
  | pushBuffer id available =>
    obtain ⟨r, m, hr, hm⟩ := pushBuffer_move h.repInv (hmarked id) env available
    rw [Queue.startCall, hr] at ho
    cases ho
    have hheld : Entitled s g t id (.client party) := hown id (.inl ⟨available, .inl rfl⟩)
    exact h.afterPush hheld ⟨m, hm⟩
  | returnBuffer id available =>
    obtain ⟨r, m, hr, hm⟩ := returnBuffer_move h.repInv (hmarked id) env available
    rw [Queue.startCall, hr] at ho
    cases ho
    exact h.afterReturn (.inl ⟨party, rfl, hown id (.inl ⟨available, .inr rfl⟩)⟩) ⟨m, hm⟩
  | attachBuffer buffer config isFilled =>
    cases ho
    obtain ⟨ms, hms, hat⟩ := attachBuffer_moves h.repInv env buffer config
    exact h.afterAttach hrefl hms hat
  | setQueueSizeAndAttachBuffer size buffer config isFilled =>
    cases ho
    obtain ⟨u, ms, ms', hms, hres, hms', hat⟩ :=
      setQueueSizeAndAttachBuffer_moves h.repInv env size buffer config
    exact h.afterAttach (hresize hms hres) hms' hat
  | detachBuffer id =>
    obtain ⟨m, hm, hr⟩ := detachBuffer_move s.queue id
    have hq := hm.preserves h.repInv h.unmarked (by rcases hr with ⟨rfl, -⟩ | ⟨rfl, -⟩ <;> simp)
    have halone : Alone s t id := h.alone_of_held (hown id (.inr (.inr rfl)))
    simp only [Queue.startCall] at ho
    split at ho
    next u hu =>
      cases ho
      rw [hu] at hq hr
      obtain ⟨-, hr⟩ | ⟨rfl, -⟩ := hr
      · exact absurd rfl hr
      · exact h.take hq halone rfl
    next u status hok hu =>
      cases ho
      rw [hu] at hq hr
      obtain ⟨rfl, -⟩ | ⟨-, rfl⟩ := hr
      · exact h.rest hq rfl
      · exact (hok rfl).elim
  | acquireBuffer =>
    rcases acquireBuffer_move h.repInv with ⟨-, hacq⟩ | ⟨u, buffer, hacq, hm⟩
    · rw [Queue.startCall, hacq] at ho
      cases ho
      exact h.rest hrefl rfl
    · rw [Queue.startCall, hacq] at ho
      cases ho
      obtain ⟨hbefore, hafter⟩ := hm.acquire_starts h.repInv
      exact h.hand (hm.preserves h.repInv h.unmarked (by simp)) hbefore hafter rfl party
  | releaseBuffer id =>
    cases ho
    exact h.afterRelease (h.alone_of_held (hown id (.inr (.inl rfl)))) (releaseBuffer_move h.repInv id)
  | setQueueSize size =>
    cases ho
    obtain ⟨ms, hms, hres⟩ := setQueueSize_moves s.queue size
    exact h.rest (hresize hms hres) rfl
  | setLargerQueueSize size =>
    cases ho
    obtain ⟨ms, hms, hres⟩ := setLargerQueueSizeLocked_moves s.queue size
    exact h.rest (hresize hms hres) rfl
  | clear =>
    cases ho
    exact h.rest ((clear_moved h.repInv).preserves h.repInv h.unmarked fun _ => hclear rfl) rfl
  | clearBufferIf pred =>
    obtain ⟨u, hu, hm⟩ := clearBufferIf_moved h.repInv pred
    rw [Queue.startCall, hu] at ho
    cases ho
    exact h.rest (hm.preserves h.repInv h.unmarked (by simp)) rfl

theorem Owned.resumeCall (h : Owned s g) {env : Env} {timedOut : Bool} {o : Outcome}
    (hfresh : Fresh s.queue env)
    (hlistener : ∀ caller id, s.threads t = .consumerBlock caller id →
      s.listeners.consumerListener ≠ none)
    (ho : resumeCall s.queue s.listeners env timedOut (s.threads t) = some o) :
    Owned (s.install t o) (o.events.foldl Ledger.record g) := by
  have hrefl : Preserves s.queue s.queue none := .refl h.repInv h.unmarked
  have hmarked := markedUnlisted_of_listedUnmarked h.unmarked
  cases hthread : s.threads t with
  | idle | producerBlock =>
    rw [hthread] at ho
    cases ho
    exact h.rest hrefl rfl
  | requesting party config timeoutUs awake =>
    rw [hthread] at ho
    cases ho
    exact h.afterRequest (requestBufferResume_move h.repInv hfresh config timeoutUs timedOut)
  | pushFilled id =>
    obtain ⟨r, m, hr, hm⟩ := pushBuffer_move h.repInv (hmarked id) env true
    rw [hthread, Queue.resumeCall, hr] at ho
    cases ho
    have hcarries : Entitled s g t id .attach := by rw [Entitled, hthread]; rfl
    exact h.afterPush hcarries ⟨m, hm⟩
  | releaseAttached id =>
    rw [hthread] at ho
    cases ho
    have hcarries : (s.threads t).carries = some (.attach, id) := by rw [hthread]; rfl
    exact h.afterRelease (h.alone_of_carries hcarries) (releaseBuffer_move h.repInv id)
  | brokerBlock caller id buffer =>
    have hcarries : (s.threads t).carries = some (caller, id) := by rw [hthread]; rfl
    obtain ⟨b, rfl, rfl⟩ := h.broker t caller id buffer hthread
    obtain ⟨-, hin⟩ := h.carried t caller _ hcarries
    simp only [hthread, Queue.resumeCall] at ho
    split at ho
    next party b' hbroker hb =>
      cases hb
      cases ho
      have hfree : (g.set b.uniqueId .free).hold b.uniqueId = .free := Function.update_self ..
      have hshared : (g.set b.uniqueId .free).shared = false := h.unshared
      have hrecord : (g.set b.uniqueId .free).record (.handedOut b party) =
          g.set b.uniqueId (.held party) := by
        rw [Ledger.record_handedOut hshared hfree]
        simp only [Ledger.set, Function.update_idem]
      have hset : g.record (.takenBack b.uniqueId) = g.set b.uniqueId .free := rfl
      rw [(finish_queue ..).2, List.foldl_cons, List.foldl_cons, List.foldl_nil, hset, hrecord]
      refine h.update (by rw [(finish_queue ..).1]; exact hrefl.weaken _)
        (fun _ => by rw [(finish_queue ..).1]; exact hin) (h.alone_of_carries hcarries) ?_ ?_
      · intro caller id hid
        rw [finish_ok_next] at hid
        cases hid
      · intro caller id b' hb
        rw [finish_ok_next] at hb
        cases hb
    next hb => cases hb
    next hbroker =>
      cases ho
      refine h.steady hrefl ?_ ?_
      · intro caller' id hid
        exact hcarries.trans hid
      · intro caller' id b' hb
        cases hb
  | returnBlock caller id available =>
    obtain ⟨r, m, hr, hm⟩ := returnBuffer_move h.repInv (hmarked id) env available
    rw [hthread, Queue.resumeCall, hr] at ho
    cases ho
    exact h.afterReturn (.inr (by rw [hthread]; rfl)) ⟨m, hm⟩
  | consumerBlock caller id =>
    simp only [hthread, Queue.resumeCall] at ho
    split at ho
    · cases ho
      rw [(finish_queue ..).2]
      exact h.rest (by rw [(finish_queue ..).1]; exact hrefl) (by rw [finish_ok_next]; rfl)
    next hnone => exact absurd hnone (hlistener caller id hthread)
  | detachBlock id status =>
    have hcarries : (s.threads t).carries = some (.attach, id) := by rw [hthread]; rfl
    obtain ⟨hhold, ele, hele, hst⟩ := h.carried t _ id hcarries
    have hunlisted : Unlisted s.queue id := by
      intro e he
      rw [Option.mem_def, hele] at he
      exact Option.some.inj he ▸ hst
    obtain ⟨m, hm, hm'⟩ := forcedDetach_move hunlisted
    rw [hthread] at ho
    cases ho
    have hq := hm.preserves h.repInv h.unmarked (by rcases hm' with rfl | rfl <;> simp)
    show Owned _ g
    rcases hm' with rfl | rfl
    · exact h.rest hq rfl
    · rw [← Ledger.set_self hhold]
      exact h.take hq (h.alone_of_carries hcarries) rfl

end Install

/-! ## Ownership over runs -/

theorem owned_step {s t : System} {g : Ledger} {l : Label} (h : Owned s g)
    (hk : KeepsOwners (s, g) l) (hs : step s l = some t) :
    Owned t ((eventsOf s l).foldl Ledger.record g) := by
  have hmarked := markedUnlisted_of_listedUnmarked h.unmarked
  have hlists : KeepsLists s l := by
    refine ⟨hk.fresh, fun id _ => hmarked id, fun id hid => ?_⟩
    unfold forceDetached at hid
    split at hid
    next uniqueId status timedOut hthread haction =>
      obtain rfl := Option.some.inj hid
      obtain ⟨-, ele, hele, hst⟩ := h.carried l.thread .attach uniqueId (by rw [hthread]; rfl)
      intro e he
      rw [Option.mem_def, hele] at he
      exact Option.some.inj he ▸ hst
    · cases hid
  obtain ⟨-, ⟨o, hb, rfl, hes⟩ | ⟨hb, -, -⟩ | ⟨ls, -, -, rfl, hes⟩⟩ := step_cases hs
  · rw [hes]
    rcases block_cases hb with ⟨c, hidle, hc, ho⟩ | ⟨timedOut, -, -, ho⟩
    · refine h.startCall hk.fresh (fun heq => hk.clear (by rw [hc, heq])) (fun id hid => ?_) ho.symm
      refine hk.own id ?_
      rcases hid with ⟨available, rfl | rfl⟩ | rfl | rfl <;> simp only [clientGives, hidle, hc] <;>
        rfl
    · exact h.resumeCall hk.fresh hk.listener ho.symm
  · obtain ⟨o, ho, -⟩ := block_effect h.repInv hlists hb
    cases ho
  · rw [hes]
    exact ⟨h.repInv, h.unmarked, h.unshared, h.inUse, h.carried, h.unique, h.broker⟩

theorem owned_init (size : Nat) (type : MemoryType) (disableAlloc : Bool) :
    Owned (.init size type disableAlloc) {} where
  repInv := repInv_init size type disableAlloc
  unmarked id ele h := by simp [System.init, create] at h
  unshared := rfl
  inUse id h := absurd rfl h
  carried t caller id h := by cases h
  unique t u caller caller' id h := by cases h
  broker t caller id buffer h := by cases h

/-- **Exclusive ownership.** In a run whose holders give back only what they
hold, in which `Clear` meets no pushed buffer and `ReturnBuffer` finds a
consumer listener, no buffer is handed out while somebody holds it. -/
theorem exclusive_ownership {size : Nat} {type : MemoryType} {disableAlloc : Bool}
    {ls : List Label} {s : System} {g : Ledger}
    (hgood : Runs.Along stepWithLedger KeepsOwners (.init size type disableAlloc, {}) ls)
    (hrun : Runs.run stepWithLedger (.init size type disableAlloc, {}) ls = some (s, g)) :
    g.shared = false ∧ ∀ id, g.hold id ≠ .free → InUse s.queue id := by
  have h := Runs.run_invariant (I := fun x : System × Ledger => Owned x.1 x.2)
    (fun x l y h hk hs => by
      obtain ⟨hs, hg⟩ := Runs.withGhost_some.mp hs
      rw [hg]
      exact owned_step h hk hs)
    (owned_init size type disableAlloc) hgood hrun
  exact ⟨h.unshared, h.inUse⟩

def acquireAndRelease : List Label :=
  sampleLabel (.setConsumerListener (some 2)) :: attachFilled.take 5 ++
    [sampleLabel (.call .acquireBuffer),
      sampleLabel (.call (.releaseBuffer sampleBuffer.uniqueId))]

theorem exclusive_ownership_acquireAndRelease :
    ∃ s g, Runs.run stepWithLedger (.init 1 .unknownMemory false, {}) acquireAndRelease =
        some (s, g) ∧ g.shared = false ∧ ∀ id, g.hold id ≠ .free → InUse s.queue id := by
  have hkeep : ∀ {x : System × Ledger} {a : Action}, GivesOwn x (sampleLabel a) →
      a ≠ .call .clear → (∀ caller id, x.1.threads 0 = .consumerBlock caller id →
        x.1.listeners.consumerListener ≠ none) → KeepsOwners x (sampleLabel a) :=
    fun hown hclear hlistener => ⟨hown, nofun, fun h => absurd h hclear, hlistener⟩
  refine ⟨_, _, rfl, @exclusive_ownership 1 .unknownMemory false acquireAndRelease _ _ ?_ rfl⟩
  refine .cons (hkeep (by decide) nofun nofun) rfl ?_
  refine .cons (hkeep (by decide) nofun nofun) rfl ?_
  refine .cons (hkeep (by decide) nofun nofun) rfl ?_
  refine .cons (hkeep (by decide) nofun nofun) rfl ?_
  refine .cons (hkeep (by decide) nofun nofun) rfl ?_
  refine .cons (hkeep (by decide) nofun fun _ _ _ => nofun) rfl ?_
  refine .cons (hkeep (by decide) nofun nofun) rfl ?_
  exact .cons (hkeep (by decide) nofun nofun) rfl trivial

/-- The broker, party 9, has the sample buffer; `Clear` puts it on the free list. -/
def clearAfterBroker : List Label :=
  sampleLabel (.setBrokerListener (some 9)) :: attachFilled.take 3 ++
    [sampleLabel (.call .clear)]

/-- The broker has not given the buffer back when party 1 requests it. -/
theorem clear_shares_buffer :
    ∃ s g, Runs.Along stepWithLedger GivesOwn (.init 1 .unknownMemory false, {})
        clearAfterBroker ∧
      Runs.run stepWithLedger (.init 1 .unknownMemory false, {}) clearAfterBroker = some (s, g) ∧
      g.hold sampleBuffer.uniqueId = .held 9 ∧
      (stepWithLedger (s, g) (sampleLabel (.call
        (.requestBufferWaitUs sampleConfig 0 .sharedMemory)))).map
          (fun x => (x.2.hold sampleBuffer.uniqueId, x.2.shared)) = some (.held 1, true) :=
  ⟨_, _, .cons (by decide) rfl (.cons (by decide) rfl (.cons (by decide) rfl
    (.cons (by decide) rfl (.cons (by decide) rfl trivial)))), rfl, by decide, by decide⟩

end MediaFoundation.Queue
