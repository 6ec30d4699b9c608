import MediaFoundation.Queue.WakeUp

/-!
# Requests without a time limit

`wait_for` hands the predicate to `requestCondition.wait_for` when the request
has a time limit, and calls `requestCondition.wait` without it when it has
none. A producer that waits without a limit therefore goes on after any
wake-up: when another producer has taken the buffer in the meantime, it leaves
the call with `ERROR_NO_FREE_BUFFER`.
-/

namespace MediaFoundation.Queue

open Std (ExtTreeMap)

namespace AVBufferQueueImpl

variable {q : AVBufferQueueImpl} {env : Env} {config : AVBufferConfig} {timeoutUs : Int64}

def outOfBuffers (status : Status) : Prop :=
  status = .errorNoFreeBuffer ∨ status = .errorWaitTimeout

/-! ## What a request can answer -/

theorem allocBuffer_status {status : Status} (h : (q.allocBuffer env).2 = .error status) :
    ¬ outOfBuffers status := by
  unfold allocBuffer at h
  split at h
  · cases h
    simp [outOfBuffers]
  · cases h

theorem requestReuseBuffer_status {buffer : Option AVBufferRef} {status : Status}
    (h : (q.requestReuseBuffer env buffer config).2 = .error status) : ¬ outOfBuffers status := by
  unfold requestReuseBuffer at h
  split at h
  · cases h
    simp [outOfBuffers]
  · split at h
    · cases h
      simp [outOfBuffers]
    · split at h
      · cases h
      · exact allocBuffer_status h

theorem requestAfterWait_room (hpred : q.waitPredicate = true) {status : Status}
    (h : (q.requestAfterWait env config).2 = .error status) : ¬ outOfBuffers status := by
  unfold requestAfterWait at h
  split at h
  · exact requestReuseBuffer_status h
  next u hu =>
    have hnil : q.freeBufferList = [] := by
      by_contra hne
      exact popFromFreeBufferList_ne_none hne config hu
    rw [popFromFreeBufferList_nil hnil] at hu
    obtain rfl := (Prod.mk.inj hu).1
    split at h
    next hfull =>
      rw [waitPredicate_eq_false.mpr ⟨hnil, hfull⟩] at hpred
      cases hpred
    · exact allocBuffer_status h

/-- With neither, it always gives up. -/
theorem requestAfterWait_full (hpred : q.waitPredicate = false) :
    q.requestAfterWait env config = (q, .error .errorNoFreeBuffer) := by
  obtain ⟨hnil, hfull⟩ := waitPredicate_eq_false.mp hpred
  have hfull : q.size ≤ q.getCachedBufferCount := hfull
  simp only [requestAfterWait, popFromFreeBufferList_nil hnil, if_pos hfull]

/-- The first block of a request without a limit never gives up: it goes to sleep. -/
theorem requestBufferWaitUs_endless (hlimit : timeoutUs < 0) {status : Status}
    (h : (q.requestBufferWaitUs env config timeoutUs).2 = some (.error status)) :
    ¬ outOfBuffers status := by
  have hzero : timeoutUs ≠ 0 := by
    rintro rfl
    exact absurd hlimit (by decide)
  unfold requestBufferWaitUs at h
  split at h
  · cases h
    simp [outOfBuffers]
  next u hu =>
    split at h
    · exact requestReuseBuffer_status (Option.some.inj h)
    · split at h
      · cases h
      · exact allocBuffer_status (Option.some.inj h)

theorem requestBufferResume_endless (hlimit : timeoutUs < 0) (timedOut : Bool) :
    q.requestBufferResume env config timeoutUs timedOut =
      ((q.requestAfterWait env config).1, some (q.requestAfterWait env config).2) := by
  have hneg : ¬ (0 < timeoutUs ∧ ¬ q.waitPredicate) := by
    rintro ⟨hpos, -⟩
    rw [Int64.lt_iff_toInt_lt] at hlimit hpos
    exact absurd hpos (by simp only [Int64.toInt_zero] at *; omega)
  rw [requestBufferResume, if_neg hneg]

end AVBufferQueueImpl

open AVBufferQueueImpl

/-! ## The blocks of a request without a limit -/

def endsEndlessWait (s : System) (l : Label) : Bool :=
  match s.threads l.thread, l.action with
  | .requesting _ _ timeoutUs _, .resume _ => decide (timeoutUs < 0)
  | _, _ => false

def requestsEndlessly (s : System) (l : Label) : Bool :=
  match s.threads l.thread, l.action with
  | .idle, .call (.requestBufferWaitUs _ timeoutUs _) => decide (timeoutUs < 0)
  | _, _ => endsEndlessWait s l

/-- A request without a limit does not return for want of a buffer: where there
is neither a free buffer nor a free slot, the producer waits again. -/
structure KeepsWaiting (s : System) (l : Label) : Prop where
  succeeds : requestsEndlessly s l = true → ∀ o, block s l = some (some o) →
    ¬ outOfBuffers o.status
  waits : endsEndlessWait s l = true → s.queue.waitPredicate = false →
    ∃ o party config timeoutUs, block s l = some (some o) ∧
      o.next = .requesting party config timeoutUs false

/-- A producer that goes on after a wait without a limit finds a free buffer or a free slot. -/
def FindsRoom (s : System) (l : Label) : Prop :=
  endsEndlessWait s l = true → s.queue.waitPredicate = true

instance (s : System) (l : Label) : Decidable (FindsRoom s l) :=
  inferInstanceAs (Decidable (_ → _))

section Blocks

variable {s : System} {l : Label} {o : Outcome}

theorem afterRequest_status {party : Nat} {config : AVBufferConfig} {timeoutUs : Int64}
    {r : AVBufferQueueImpl × Option (Except Status AVBufferRef)}
    (h : ∀ status, r.2 = some (.error status) → ¬ outOfBuffers status) :
    ¬ outOfBuffers (afterRequest party config timeoutUs r).status := by
  obtain ⟨q, answer⟩ := r
  match answer with
  | none => simp [afterRequest, outOfBuffers]
  | some (.error status) => exact h status rfl
  | some (.ok buffer) => simp [afterRequest, outOfBuffers]

theorem endsEndlessWait_block (h : endsEndlessWait s l = true) :
    ∃ party config timeoutUs, timeoutUs < 0 ∧
      block s l = some (some (afterRequest party config timeoutUs
        ((s.queue.requestAfterWait l.env config).1,
          some (s.queue.requestAfterWait l.env config).2))) := by
  unfold endsEndlessWait at h
  split at h
  next party config timeoutUs awake timedOut hthread haction =>
    have hlimit := of_decide_eq_true h
    refine ⟨party, config, timeoutUs, hlimit, ?_⟩
    rw [block, hthread, haction]
    simp only [resumeCall, requestBufferResume_endless hlimit]
  · cases h

/-- **A block of a request keeps waiting exactly where it finds room.** -/
theorem keepsWaiting_iff (s : System) (l : Label) : KeepsWaiting s l ↔ FindsRoom s l := by
  constructor
  · intro h hends
    by_contra hpred
    have hpred := Bool.eq_false_iff.mpr hpred
    obtain ⟨party, config, timeoutUs, -, hblock⟩ := endsEndlessWait_block hends
    obtain ⟨o, party', config', timeoutUs', ho, hnext⟩ := h.waits hends hpred
    rw [requestAfterWait_full hpred] at hblock
    obtain rfl := Option.some.inj (Option.some.inj (hblock.symm.trans ho))
    cases hnext
  · intro h
    refine ⟨fun hrequest o ho => ?_, fun hends hpred => ?_⟩
    · by_cases hends : endsEndlessWait s l = true
      · obtain ⟨party, config, timeoutUs, -, hblock⟩ := endsEndlessWait_block hends
        obtain rfl := Option.some.inj (Option.some.inj (hblock.symm.trans ho))
        refine afterRequest_status fun status hstatus => ?_
        exact requestAfterWait_room (h hends) (Option.some.inj hstatus)
      · unfold requestsEndlessly at hrequest
        split at hrequest
        next config timeoutUs seen hthread haction =>
          rw [block, hthread, haction] at ho
          obtain rfl := Option.some.inj (Option.some.inj ho)
          exact afterRequest_status fun status hstatus =>
            requestBufferWaitUs_endless (of_decide_eq_true hrequest) hstatus
        · exact absurd hrequest hends
    · rw [h hends] at hpred
      cases hpred

theorem keepsWaiting_eq : KeepsWaiting = FindsRoom :=
  funext fun s => funext fun l => propext (keepsWaiting_iff s l)

end Blocks

/-! ## Over runs -/

/-- **A request without a limit succeeds or keeps waiting**, in every run and
for every interleaving, exactly where each producer that such a wait releases
still finds a free buffer or a free slot when it has the lock again. -/
theorem endless_wait (size : Nat) (type : MemoryType) (disableAlloc : Bool) (ls : List Label) :
    Runs.Along step KeepsWaiting (.init size type disableAlloc) ls ↔
      Runs.Along step FindsRoom (.init size type disableAlloc) ls := by
  rw [keepsWaiting_eq]

/-! ## The run that breaks it -/

def requestForever (thread : Nat) : Label where
  thread := thread
  party := thread
  env := { contents := fun _ => { config := sampleConfig, flag := 0 }, created := some ⟨0, 1⟩ }
  action := .call (.requestBufferWaitUs sampleConfig (-1) .sharedMemory)

def goesOn (thread : Nat) : Label := { requestForever thread with action := .resume false }

/-- Producer 0 has the only buffer, producers 1 and 2 wait. Producer 0 pushes
the buffer back unused, and producer 1 takes it. -/
def twoWaitForOne : List Label :=
  [requestForever 0, requestForever 1, requestForever 2,
    { requestForever 0 with action := .call (.pushBuffer 1 false) }, goesOn 0, goesOn 0, goesOn 1]

theorem second_waiter_gives_up :
    ∃ s o, Runs.run step (.init 1 .unknownMemory false) twoWaitForOne = some s ∧
      s.threads 2 = .requesting 2 sampleConfig (-1) true ∧
      block s (goesOn 2) = some (some o) ∧ o.next = .idle ∧ o.status = .errorNoFreeBuffer ∧
      ¬ Runs.Along step KeepsWaiting (.init 1 .unknownMemory false)
        (twoWaitForOne ++ [goesOn 2]) := by
  refine ⟨_, _, rfl, rfl, rfl, rfl, rfl, ?_⟩
  rw [keepsWaiting_eq]
  decide

end MediaFoundation.Queue
