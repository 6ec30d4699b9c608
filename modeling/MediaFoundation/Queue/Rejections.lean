import MediaFoundation.Queue.Accounting
import MediaFoundation.Queue.EndlessWait

/-!
# Calls that fail

A call that returns an error should leave the queue as it was. The calls run
here on their own, from their first block to their last, with one environment:
what differs at the end is their own doing. Nothing is assumed about the queue.
-/

namespace MediaFoundation.Queue

open Std (ExtTreeMap)

variable {config : AVBufferConfig} {buffer : AVBufferRef} {available : Bool}

/-! ## A call on its own -/

/-- The call goes on to its end from the outcome of a block, and no other
thread steps in. -/
inductive Ends (ls : Listeners) (env : Env) : Outcome → AVBufferQueueImpl → Status → Prop where
  | done {o : Outcome} (hidle : o.next = .idle) : Ends ls env o o.queue o.status
  | resume {o o' : Outcome} {q : AVBufferQueueImpl} {status : Status} (timedOut : Bool)
      (hbusy : o.next ≠ .idle) (hblock : resumeCall o.queue ls env timedOut o.next = some o')
      (hrest : Ends ls env o' q status) : Ends ls env o q status

def Returns (q : AVBufferQueueImpl) (ls : Listeners) (env : Env) (party : Nat) (c : Call)
    (q' : AVBufferQueueImpl) (status : Status) : Prop :=
  ∃ o, startCall q env party c = some o ∧ Ends ls env o q' status

section Ends

variable {ls : Listeners} {env : Env} {o : Outcome} {q : AVBufferQueueImpl} {status : Status}

theorem Ends.of_idle (h : Ends ls env o q status) (hidle : o.next = .idle) :
    q = o.queue ∧ status = o.status := by
  cases h with
  | done => exact ⟨rfl, rfl⟩
  | resume _ hbusy => exact absurd hidle hbusy

/-- The next block of a call that is not over, when the wait does not matter. -/
theorem Ends.of_busy (h : Ends ls env o q status) (hbusy : o.next ≠ .idle) :
    ∃ timedOut o', resumeCall o.queue ls env timedOut o.next = some o' ∧ Ends ls env o' q status := by
  cases h with
  | done hidle => exact absurd hidle hbusy
  | resume timedOut _ hblock hrest => exact ⟨timedOut, _, hblock, hrest⟩

end Ends

namespace AVBufferQueueImpl

variable {q q' u : AVBufferQueueImpl} {id : UInt64} {ls : Listeners} {env : Env} {o : Outcome}
  {status : Status}

/-- What a failed call must not change. -/
structure SameData (q q' : AVBufferQueueImpl) : Prop where
  size : q'.size = q.size
  memoryType : q'.memoryType = q.memoryType
  cachedBufferMap : q'.cachedBufferMap = q.cachedBufferMap
  freeBufferList : q'.freeBufferList = q.freeBufferList
  dirtyBufferList : q'.dirtyBufferList = q.dirtyBufferList
  memoryUsage : q'.memoryUsage = q.memoryUsage

theorem SameData.refl (q : AVBufferQueueImpl) : SameData q q := ⟨rfl, rfl, rfl, rfl, rfl, rfl⟩

/-! ## RequestBuffer -/

theorem findFree_mem (config : AVBufferConfig) (l : List UInt64) :
    ∀ {q u : AVBufferQueueImpl} {it : UInt64}, q.findFree config l = (u, some it) → it ∈ l := by
  induction l with
  | nil => exact fun h => by cases (Prod.mk.inj h).2
  | cons front rest ih =>
    intro q u it h
    simp only [findFree] at h
    split at h
    · obtain rfl := Option.some.inj (Prod.mk.inj h).2
      exact List.mem_cons_self ..
    · exact List.mem_cons_of_mem _ (ih h)

theorem popFromFreeBufferList_shortens {buffer : Option AVBufferRef}
    (h : q.popFromFreeBufferList config = (u, some buffer)) :
    u.freeBufferList.length + 1 = q.freeBufferList.length := by
  have hlist := findFree_freeBufferList config q.freeBufferList q
  unfold popFromFreeBufferList at h
  split at h
  next v it hv =>
    rw [hv] at hlist
    obtain rfl := (Prod.mk.inj h).1
    have hmem := findFree_mem config q.freeBufferList hv
    show (v.freeBufferList.erase it).length + 1 = _
    rw [hlist, List.length_erase_of_mem hmem]
    have := List.length_pos_of_mem hmem
    omega
  next v hv =>
    rw [hv] at hlist
    split at h
    · cases (Prod.mk.inj h).2
    next front rest hfront =>
      obtain rfl := (Prod.mk.inj h).1
      rw [← hlist, hfront]
      rfl

theorem allocBuffer_freeBufferList (q : AVBufferQueueImpl) (env : Env) :
    (q.allocBuffer env).1.freeBufferList = q.freeBufferList := by
  unfold allocBuffer
  split
  · rfl
  · exact (addElement_becomes ..).free_eq

theorem requestReuseBuffer_freeBufferList (q : AVBufferQueueImpl) (env : Env)
    (buffer : Option AVBufferRef) (config : AVBufferConfig) :
    (q.requestReuseBuffer env buffer config).1.freeBufferList = q.freeBufferList := by
  unfold requestReuseBuffer
  split
  · rfl
  · split
    · rfl
    · split
      · rfl
      · rw [allocBuffer_freeBufferList, (deleteCachedBufferById_becomes ..).free_eq]

theorem allocBuffer_failed (h : (q.allocBuffer env).2 = .error status) :
    (q.allocBuffer env).1 = q := by
  unfold allocBuffer at h ⊢
  split at h
  · rfl
  · cases h

def RequestKeeps (q : AVBufferQueueImpl) (config : AVBufferConfig) : Prop :=
  q.checkConfig config = none ∨ q.memoryType ≠ .unknownMemory ∧ q.freeBufferList = []

theorem checkConfig_some (h : q.checkConfig config = some u) :
    u = { q with memoryType := config.memoryType } ∧ config.memoryType ≠ .unknownMemory ∧
      (q.memoryType = .unknownMemory ∨ config.memoryType = q.memoryType) := by
  unfold checkConfig at h
  split at h
  · cases h
  next hknown =>
    split at h
    · cases h
    next hsame =>
      refine ⟨(Option.some.inj h).symm, hknown, ?_⟩
      by_contra hne
      exact hsame (not_or.mp hne)

theorem sameData_checkConfig (h : q.checkConfig config = some u) :
    SameData q u ↔ q.memoryType ≠ .unknownMemory := by
  obtain ⟨rfl, hknown, htype⟩ := checkConfig_some h
  constructor
  · intro hsame hopen
    exact hknown (hsame.memoryType.trans hopen)
  · intro hfixed
    exact ⟨rfl, htype.resolve_left hfixed, rfl, rfl, rfl, rfl⟩

/-- A producer that waits alone on a full queue changes nothing any more. -/
theorem eq_of_waiting {party : Nat} {timeoutUs : Int64}
    {awake : Bool} (hpred : q.waitPredicate = false) (hqueue : o.queue = q)
    (hnext : o.next = .requesting party config timeoutUs awake)
    (h : Ends ls env o q' status) : q' = q := by
  induction h generalizing awake with
  | done hidle =>
    rw [hnext] at hidle
    cases hidle
  | resume timedOut _ hblock hrest ih =>
    rw [hnext, hqueue] at hblock
    cases hblock
    have hfull : q.requestBufferResume env config timeoutUs timedOut = (q, none) ∨
        ∃ st, q.requestBufferResume env config timeoutUs timedOut = (q, some (.error st)) := by
      unfold requestBufferResume
      split
      · split
        · exact .inr ⟨_, rfl⟩
        · exact .inl rfl
      · rw [requestAfterWait_full hpred]
        exact .inr ⟨_, rfl⟩
    rcases hfull with hwait | ⟨st, hfail⟩
    · rw [hwait] at ih
      exact ih rfl rfl
    · rw [hfail] at hrest
      exact (hrest.of_idle rfl).1

theorem requestReuseBuffer_shortens {buffer : Option AVBufferRef}
    (h : q.popFromFreeBufferList config = (u, some buffer)) :
    (u.requestReuseBuffer env buffer config).1.freeBufferList ≠ q.freeBufferList := by
  intro hlist
  have hshort := popFromFreeBufferList_shortens h
  rw [requestReuseBuffer_freeBufferList] at hlist
  rw [hlist] at hshort
  omega

theorem request_keeps {timeoutUs : Int64} {party : Nat}
    (h : Ends ls env (afterRequest party config timeoutUs
      (q.requestBufferWaitUs env config timeoutUs)) q' status) (hfail : status ≠ .ok) :
    SameData q q' ↔ RequestKeeps q config := by
  unfold RequestKeeps
  cases hcheck : q.checkConfig config with
  | none =>
    simp only [requestBufferWaitUs, hcheck] at h
    rw [(h.of_idle rfl).1]
    exact ⟨fun _ => .inl rfl, fun _ => SameData.refl q⟩
  | some v =>
    have hv := sameData_checkConfig hcheck
    obtain ⟨hvq, -, -⟩ := checkConfig_some hcheck
    have hvfree : v.freeBufferList = q.freeBufferList := by rw [hvq]
    have hvkeeps : v.freeBufferList = [] →
        (SameData q v ↔ some v = none ∨ q.memoryType ≠ .unknownMemory ∧ q.freeBufferList = []) := by
      intro hnil
      rw [hv, ← hvfree]
      exact ⟨fun hfixed => .inr ⟨hfixed, hnil⟩, fun hor => (hor.resolve_left nofun).1⟩
    simp only [requestBufferWaitUs, hcheck] at h
    split at h
    next u buffer hpop =>
      have hne : q.freeBufferList ≠ [] := by
        intro hnil
        rw [popFromFreeBufferList_nil (hvfree.trans hnil)] at hpop
        cases (Prod.mk.inj hpop).2
      have hkeeps : ¬ (some v = none ∨ q.memoryType ≠ .unknownMemory ∧ q.freeBufferList = []) :=
        fun hor => hne (hor.resolve_left nofun).2
      refine iff_of_false (fun hsame => ?_) hkeeps
      have hend : q' = (u.requestReuseBuffer env buffer config).1 := by
        generalize u.requestReuseBuffer env buffer config = r at h
        obtain ⟨w, st | b⟩ := r
        · exact (h.of_idle rfl).1
        · exact (h.of_idle rfl).1
      exact requestReuseBuffer_shortens hpop (hend ▸ hsame.freeBufferList.trans hvfree.symm)
    next u hpop =>
      have hnil : v.freeBufferList = [] := by
        by_contra hne
        exact popFromFreeBufferList_ne_none hne config hpop
      rw [popFromFreeBufferList_nil hnil] at hpop
      obtain rfl := (Prod.mk.inj hpop).1
      refine Iff.trans (Eq.to_iff ?_) (hvkeeps hnil)
      congr 1
      split at h
      next hfull =>
        have hpred : v.waitPredicate = false := waitPredicate_eq_false.mpr ⟨hnil, hfull⟩
        split at h
        · rw [requestAfterWait_full hpred] at h
          exact (h.of_idle rfl).1
        · exact eq_of_waiting hpred rfl rfl h
      next hroom =>
        have halloc := @allocBuffer_failed v env
        generalize v.allocBuffer env = r at h halloc
        obtain ⟨w, st | b⟩ := r
        · rw [(h.of_idle rfl).1]
          exact halloc rfl
        · exact absurd (h.of_idle rfl).2 hfail

/-! ## PushBuffer and ReturnBuffer -/

def Pushable (q : AVBufferQueueImpl) (env : Env) (id : UInt64) (available : Bool) : Prop :=
  ∃ ele, q.cachedBufferMap[id]? = some ele ∧ ele.isDeleting = false ∧
    (ele.state = .requested ∨ ele.state = .attached) ∧
    (available = true → ∀ buffer ∈ ele.buffer, 0 ≤ (env.contents buffer).config.size)

def Fileable (q : AVBufferQueueImpl) (env : Env) (id : UInt64) : Prop :=
  ∃ ele buffer, q.cachedBufferMap[id]? = some ele ∧ ele.isDeleting = false ∧
    ele.state = .pushed ∧ ele.buffer = some buffer ∧
    ((env.contents buffer).flag &&& avbufferFlagEos ≠ 0 ∨ 0 < (env.contents buffer).config.size)

theorem pushBuffer_cases {r : AVBufferQueueImpl × PushOutcome}
    (h : q.pushBuffer env id available = some r) :
    (∃ st, r = (q, .failed st) ∧ ¬ Pushable q env id available) ∨
    (r.2 = .deleted) ∨
    ∃ ele, q.cachedBufferMap[id]? = some ele ∧ ele.isDeleting = false ∧
      (ele.state = .requested ∨ ele.state = .attached) ∧ Pushable q env id available ∧
      r = (q.setElement id { ele with state := .pushed }, .pushed ele.buffer) := by
  unfold pushBuffer at h
  split at h
  next hnone =>
    cases h
    refine .inl ⟨_, rfl, ?_⟩
    rintro ⟨ele, hele, -⟩
    rw [hnone] at hele
    cases hele
  next ele hele =>
    split at h
    next hdel =>
      cases h
      exact .inr (.inl rfl)
    next hmark =>
      have hmark : ele.isDeleting = false := Bool.eq_false_iff.mpr hmark
      have hpush : (available = true → ∀ b ∈ ele.buffer, 0 ≤ (env.contents b).config.size) →
          r = q.pushElement id ele →
          (∃ st, r = (q, .failed st) ∧ ¬ Pushable q env id available) ∨ r.2 = .deleted ∨
          ∃ ele, q.cachedBufferMap[id]? = some ele ∧ ele.isDeleting = false ∧
            (ele.state = .requested ∨ ele.state = .attached) ∧ Pushable q env id available ∧
            r = (q.setElement id { ele with state := .pushed }, .pushed ele.buffer) := by
        rintro hsize rfl
        unfold pushElement
        split
        next hst => exact .inr (.inr ⟨ele, hele, hmark, hst, ⟨ele, hele, hmark, hst, hsize⟩, rfl⟩)
        next hst =>
          refine .inl ⟨_, rfl, ?_⟩
          rintro ⟨e, he, -, hst', -⟩
          obtain rfl := Option.some.inj (hele.symm.trans he)
          exact hst hst'
      split at h
      next hav =>
        split at h
        · cases h
        next b hb =>
          split at h
          next hneg =>
            cases h
            refine .inl ⟨_, rfl, ?_⟩
            rintro ⟨e, he, -, -, hsize⟩
            obtain rfl := Option.some.inj (hele.symm.trans he)
            exact hneg (hsize hav b hb)
          next hsize =>
            refine hpush (fun _ c hc => ?_) (Option.some.inj h).symm
            obtain rfl := Option.some.inj (hb.symm.trans hc)
            exact not_not.mp hsize
      next hav => exact hpush (fun h => absurd h hav) (Option.some.inj h).symm

theorem returnBuffer_cases {r : AVBufferQueueImpl × ReturnOutcome}
    (h : q.returnBuffer env id available = some r) :
    (∃ st, r = (q, .failed st) ∧ ¬ (available = true ∧ Fileable q env id)) ∨
    (r.2 = .deleted) ∨ (r.2 = .cancelled) ∨
    ∃ ele buffer, q.cachedBufferMap[id]? = some ele ∧ ele.buffer = some buffer ∧
      available = true ∧ Fileable q env id ∧
      r = ({ q.setElement id { ele with
          config := (env.contents buffer).config, state := .returned } with
        dirtyBufferList := q.dirtyBufferList ++ [id] }, .appended buffer) := by
  unfold returnBuffer at h
  split at h
  next hnone =>
    cases h
    refine .inl ⟨_, rfl, ?_⟩
    rintro ⟨-, ele, b, hele, -⟩
    rw [hnone] at hele
    cases hele
  next ele hele =>
    split at h
    next hdel =>
      cases h
      exact .inr (.inl rfl)
    next hmark =>
      split at h
      next hst =>
        cases h
        refine .inl ⟨_, rfl, ?_⟩
        rintro ⟨-, e, b, he, -, hst', -⟩
        obtain rfl := Option.some.inj (hele.symm.trans he)
        exact hst hst'
      next hst =>
        have hst : ele.state = .pushed := not_not.mp hst
        split at h
        next hav =>
          have hcancel : q.cancelBuffer id = ((q.insertFreeBufferInOrder id).setElement id
              { (q.insertFreeBufferInOrder id).element id with
                state := .released } |>.notifyAll, .ok) := by
            rw [cancelBuffer, hele]
            simp only
            rw [if_pos (.inr hst)]
          rw [hcancel] at h
          cases h
          exact .inr (.inr (.inl rfl))
        next hav =>
          have hav : available = true := not_not.mp hav
          split at h
          · cases h
          next b hb =>
            simp only at h
            split at h
            next hempty =>
              cases h
              refine .inl ⟨_, rfl, ?_⟩
              rintro ⟨-, e, c, he, -, -, hc, hfull⟩
              obtain rfl := Option.some.inj (hele.symm.trans he)
              obtain rfl := Option.some.inj (hb.symm.trans hc)
              exact hfull.elim hempty.1 hempty.2
            next hfull =>
              cases h
              refine .inr (.inr (.inr ⟨ele, b, hele, hb, hav, ?_, rfl⟩))
              refine ⟨ele, b, hele, Bool.eq_false_iff.mpr hmark, hst, hb, ?_⟩
              by_contra hne
              exact hfull ⟨(not_or.mp hne).1, (not_or.mp hne).2⟩

/-- The queue once a call has failed: `AttachBuffer` detaches its buffer again. -/
def afterFailure (caller : Caller) (id : UInt64) (q : AVBufferQueueImpl) : AVBufferQueueImpl :=
  match caller with
  | .client _ => q
  | .attach => (q.detachBuffer id true).1

theorem ends_finish {caller : Caller} {st : Status} {es : List Event}
    (h : Ends ls env (finish q caller id st es) q' status) (hfail : status ≠ .ok) :
    q' = afterFailure caller id q := by
  cases caller with
  | client party => exact (h.of_idle rfl).1
  | attach =>
    unfold finish at h
    simp only at h
    split at h
    · exact absurd (h.of_idle rfl).2 hfail
    · obtain ⟨timedOut, o', ho', hrest⟩ := h.of_busy nofun
      cases ho'
      exact (hrest.of_idle rfl).1

/-- A call that is all right so far, and over. -/
theorem not_ends_finish_ok {caller : Caller} {es : List Event}
    (h : Ends ls env (finish q caller id .ok es) q' status) : status = .ok := by
  cases caller with
  | client party | attach => exact (h.of_idle rfl).2

def filed (q : AVBufferQueueImpl) (id : UInt64) (ele : AVBufferElement) (config : AVBufferConfig) :
    AVBufferQueueImpl :=
  { q.setElement id { ele with config := config, state := .returned } with
    dirtyBufferList := q.dirtyBufferList ++ [id] }

theorem ends_afterReturn {caller : Caller}
    {r : AVBufferQueueImpl × ReturnOutcome} (hr : q.returnBuffer env id available = some r)
    (h : Ends ls env (afterReturn caller id r) q' status) (hfail : status ≠ .ok) :
    (q' = afterFailure caller id q ∧ ¬ (available = true ∧ Fileable q env id)) ∨
    ∃ ele buffer, q.cachedBufferMap[id]? = some ele ∧ ele.buffer = some buffer ∧
      ls.consumerListener = none ∧ available = true ∧ Fileable q env id ∧
      q' = afterFailure caller id (q.filed id ele (env.contents buffer).config) := by
  rcases returnBuffer_cases hr with ⟨st, rfl, hnot⟩ | hdel | hcancel |
    ⟨ele, buffer, hele, hbuf, hav, hfile, rfl⟩
  · exact .inl ⟨ends_finish h hfail, hnot⟩
  · obtain ⟨w, out⟩ := r
    obtain rfl : out = .deleted := hdel
    exact absurd (not_ends_finish_ok h) hfail
  · obtain ⟨w, out⟩ := r
    obtain rfl : out = .cancelled := hcancel
    obtain ⟨timedOut, o', ho', hrest⟩ := h.of_busy nofun
    cases ho'
    exact absurd (hrest.of_idle rfl).2 hfail
  · obtain ⟨timedOut, o', ho', hrest⟩ := h.of_busy nofun
    cases hls : ls.consumerListener with
    | some party =>
      simp only [afterReturn, resumeCall, hls] at ho'
      cases ho'
      exact absurd (not_ends_finish_ok hrest) hfail
    | none =>
      simp only [afterReturn, resumeCall, hls] at ho'
      cases ho'
      exact .inr ⟨ele, buffer, hele, hbuf, rfl, hav, hfile, ends_finish hrest hfail⟩

/-- A call that fails in `PushBuffer` fails before the buffer is `PUSHED`, or
with the buffer in this state in `ReturnBuffer`. -/
theorem ends_afterPush {caller : Caller}
    {r : AVBufferQueueImpl × PushOutcome} (hr : q.pushBuffer env id available = some r)
    (h : Ends ls env (afterPush caller id available r) q' status) (hfail : status ≠ .ok) :
    (q' = afterFailure caller id q ∧ ¬ Pushable q env id available) ∨
    ∃ ele, q.cachedBufferMap[id]? = some ele ∧ Pushable q env id available ∧
      (ele.state = .requested ∨ ele.state = .attached) ∧
      ((q' = afterFailure caller id (q.setElement id { ele with state := .pushed }) ∧
        ¬ (available = true ∧ Fileable (q.setElement id { ele with state := .pushed }) env id)) ∨
      ∃ buffer, ele.buffer = some buffer ∧ ls.consumerListener = none ∧
        Fileable (q.setElement id { ele with state := .pushed }) env id ∧
        q' = afterFailure caller id ((q.setElement id { ele with state := .pushed }).filed id
          { ele with state := .pushed } (env.contents buffer).config)) := by
  rcases pushBuffer_cases hr with ⟨st, rfl, hnot⟩ | hdel | ⟨ele, hele, hmark, hst, hpush, rfl⟩
  · exact .inl ⟨ends_finish h hfail, hnot⟩
  · obtain ⟨w, out⟩ := r
    obtain rfl : out = .deleted := hdel
    exact absurd (not_ends_finish_ok h) hfail
  refine .inr ⟨ele, hele, hpush, hst, ?_⟩
  generalize hw : q.setElement id { ele with state := .pushed } = w at h ⊢
  have hlookup : w.cachedBufferMap[id]? = some { ele with state := .pushed } := by
    rw [← hw, setElement_lookup, if_pos rfl]
  -- from the block of `ReturnBuffer` on
  have hreturn : ∀ {o : Outcome}, o.queue = w → o.next = .returnBlock caller id available →
      Ends ls env o q' status →
      (q' = afterFailure caller id w ∧ ¬ (available = true ∧ Fileable w env id)) ∨
      ∃ buffer, ele.buffer = some buffer ∧ ls.consumerListener = none ∧ Fileable w env id ∧
        q' = afterFailure caller id (w.filed id { ele with state := .pushed }
          (env.contents buffer).config) := by
    intro o hqueue hnext ho
    obtain ⟨timedOut, o', ho', hrest⟩ := ho.of_busy (by rw [hnext]; nofun)
    rw [hnext, hqueue] at ho'
    obtain ⟨v, hv, rfl⟩ := Option.map_eq_some_iff.mp ho'
    rcases ends_afterReturn hv hrest hfail with hearly |
      ⟨e, buffer, he, hbuf, hls, hav, hfile, hq'⟩
    · exact .inl hearly
    · obtain rfl := Option.some.inj (hlookup.symm.trans he)
      exact .inr ⟨buffer, hbuf, hls, hfile, hq'⟩
  cases available with
  | false => exact hreturn rfl rfl h
  | true =>
    obtain ⟨timedOut, o', ho', hrest⟩ := h.of_busy nofun
    simp only [afterPush, if_true, resumeCall] at ho'
    split at ho'
    · cases ho'
      exact absurd (not_ends_finish_ok hrest) hfail
    · cases ho'
      exact absurd (not_ends_finish_ok hrest) hfail
    · cases ho'
      exact hreturn rfl rfl hrest

theorem push_keeps {party : Nat} {r : AVBufferQueueImpl × PushOutcome}
    (hr : q.pushBuffer env id available = some r)
    (h : Ends ls env (afterPush (.client party) id available r) q' status)
    (hfail : status ≠ .ok) : SameData q q' ↔ ¬ Pushable q env id available := by
  rcases ends_afterPush hr h hfail with ⟨hq', hnot⟩ | ⟨ele, hele, hpush, hst, hlate⟩
  · rw [hq']
    exact iff_of_true (SameData.refl q) hnot
  refine iff_of_false (fun hsame => ?_) fun hnot => hnot hpush
  have hstate : ∃ e, q'.cachedBufferMap[id]? = some e ∧
      (e.state = .pushed ∨ e.state = .returned) := by
    rcases hlate with ⟨rfl, -⟩ | ⟨buffer, -, -, -, rfl⟩
    · exact ⟨_, by rw [afterFailure, setElement_lookup, if_pos rfl], .inl rfl⟩
    · refine ⟨{ ele with config := (env.contents buffer).config, state := .returned }, ?_, .inr rfl⟩
      show ((q.setElement id _).setElement id _).cachedBufferMap[id]? = _
      rw [setElement_lookup, if_pos rfl]
  obtain ⟨e, he, hne⟩ := hstate
  rw [hsame.cachedBufferMap] at he
  obtain rfl := Option.some.inj (hele.symm.trans he)
  rcases hst with hst | hst
  · rw [hst] at hne
    exact hne.elim nofun nofun
  · rw [hst] at hne
    exact hne.elim nofun nofun

theorem return_keeps {party : Nat} {r : AVBufferQueueImpl × ReturnOutcome}
    (hr : q.returnBuffer env id available = some r)
    (h : Ends ls env (afterReturn (.client party) id r) q' status) (hfail : status ≠ .ok) :
    SameData q q' ↔ ¬ (available = true ∧ Fileable q env id) := by
  rcases ends_afterReturn hr h hfail with ⟨hq', hnot⟩ |
    ⟨ele, buffer, -, -, -, hav, hfile, hq'⟩
  · rw [hq']
    exact iff_of_true (SameData.refl q) hnot
  · refine iff_of_false (fun hsame => ?_) fun hnot => hnot ⟨hav, hfile⟩
    have hdirty := congrArg List.length hsame.dirtyBufferList
    rw [hq'] at hdirty
    simp [afterFailure, filed] at hdirty

/-! ## AttachBuffer -/

/-- The buffer has something to file: it gets through `PushBuffer` and `ReturnBuffer`. -/
def HasData (contents : AVBufferContents) : Prop :=
  0 ≤ contents.config.size ∧
    (contents.flag &&& avbufferFlagEos ≠ 0 ∨ 0 < contents.config.size)

instance (contents : AVBufferContents) : Decidable (HasData contents) :=
  inferInstanceAs (Decidable (_ ∧ _))

def attachedElement (env : Env) (buffer : AVBufferRef) : AVBufferElement where
  config := (env.contents buffer).config
  state := .attached
  isDeleting := false
  buffer := some buffer

/-- What a failed attach leaves of the queue `d` that it found, or made room in:
the buffer is detached again, but the ids in `tail` stay on the dirty list. -/
structure Undone (d q' : AVBufferQueueImpl) (capacity : Int32) (tail : List UInt64) : Prop where
  size : q'.size = d.size
  memoryType : q'.memoryType = d.memoryType
  map : q'.cachedBufferMap = d.cachedBufferMap
  free : q'.freeBufferList = d.freeBufferList
  dirty : q'.dirtyBufferList = d.dirtyBufferList ++ tail
  usage : q'.memoryUsage = d.memoryUsage ↔ d.memoryUsage.toNat + capacity.toNatClampNeg < 2 ^ 32

/-- A capacity that was added is subtracted again, unless the counter wrapped. -/
theorem usage_comes_back {d u : AVBufferQueueImpl} {capacity : Int32}
    (husage : u.memoryUsage = (d.totalMemoryCalculation true capacity).memoryUsage) :
    (u.totalMemoryCalculation false capacity).memoryUsage = d.memoryUsage ↔
      d.memoryUsage.toNat + capacity.toNatClampNeg < 2 ^ 32 := by
  have hadd := totalMemoryCalculation_add (q := d) capacity
  rw [← husage] at hadd
  have hd := d.memoryUsage.toNat_lt
  have hcap := capacity.toNatClampNeg_lt
  by_cases hpay : capacity.toNatClampNeg ≤ u.memoryUsage.toNat
  · have hsub := totalMemoryCalculation_sub hpay
    rw [← UInt32.toNat_inj, hsub]
    omega
  · have hkeep : (u.totalMemoryCalculation false capacity).memoryUsage = u.memoryUsage := by
      unfold totalMemoryCalculation
      split
      · rfl
      next hpos =>
        have hle : 0 ≤ capacity := Int32.le_of_lt (Decidable.not_not.mp hpos)
        rw [if_neg Bool.false_ne_true, if_neg fun hroom => hpay ?_]
        rw [UInt32.le_iff_toNat_le, Int32.toNat_toUInt32_of_le hle] at hroom
        exact hroom
    rw [hkeep, ← UInt32.toNat_inj]
    omega

theorem undone_detach {d u : AVBufferQueueImpl} {ele : AVBufferElement} {tail : List UInt64}
    (hele : u.cachedBufferMap[id]? = some ele)
    (husage : u.memoryUsage = (d.totalMemoryCalculation true ele.config.capacity).memoryUsage)
    (hmap : u.cachedBufferMap.erase id = d.cachedBufferMap) (hsize : u.size = d.size)
    (htype : u.memoryType = d.memoryType) (hfree : u.freeBufferList = d.freeBufferList)
    (hdirty : u.dirtyBufferList = d.dirtyBufferList ++ tail) :
    Undone d (u.detachBuffer id true).1 ele.config.capacity tail := by
  have hdetach : (u.detachBuffer id true).1 =
      (u.totalMemoryCalculation false ele.config.capacity).eraseElement id := by
    rw [detachBuffer, hele]
    rfl
  have hback := usage_comes_back husage
  obtain ⟨m, hm⟩ := totalMemoryCalculation_eq (q := u) false ele.config.capacity
  rw [hdetach]
  rw [hm] at hback ⊢
  exact ⟨hsize, htype, hmap, hfree, hdirty, hback⟩

theorem ends_pushFilled {d : AVBufferQueueImpl}
    (hnew : buffer.uniqueId ∉ d.cachedBufferMap)
    (hqueue : o.queue = d.addElement buffer.uniqueId (attachedElement env buffer))
    (hnext : o.next = .pushFilled buffer.uniqueId) (h : Ends ls env o q' status)
    (hfail : status ≠ .ok) :
    Undone d q' (env.contents buffer).config.capacity
      (if HasData (env.contents buffer) then [buffer.uniqueId] else []) := by
  obtain ⟨timedOut, o', ho', hrest⟩ := h.of_busy (by rw [hnext]; nofun)
  rw [hnext, hqueue] at ho'
  obtain ⟨r, hr, rfl⟩ := Option.map_eq_some_iff.mp ho'
  generalize hu : d.addElement buffer.uniqueId (attachedElement env buffer) = u at hr
  have hlookup : u.cachedBufferMap[buffer.uniqueId]? = some (attachedElement env buffer) := by
    rw [← hu, addElement_lookup, if_pos rfl]
  have husage : u.memoryUsage =
      (d.totalMemoryCalculation true (env.contents buffer).config.capacity).memoryUsage := by
    have hset : (d.setElement buffer.uniqueId (attachedElement env buffer)).memoryUsage =
        d.memoryUsage := rfl
    rw [← hu]
    exact totalMemoryCalculation_usage_congr hset true _
  have hmap : u.cachedBufferMap.erase buffer.uniqueId = d.cachedBufferMap := by
    obtain ⟨m, hm⟩ := addElement_eq d buffer.uniqueId (attachedElement env buffer)
    rw [← hu, hm]
    exact setElement_erase.trans (TreeMap.erase_of_not_mem hnew)
  have hrest_eq : u.size = d.size ∧ u.memoryType = d.memoryType ∧
      u.freeBufferList = d.freeBufferList ∧ u.dirtyBufferList = d.dirtyBufferList := by
    obtain ⟨m, hm⟩ := addElement_eq d buffer.uniqueId (attachedElement env buffer)
    rw [← hu, hm]
    exact ⟨rfl, rfl, rfl, rfl⟩
  obtain ⟨hsize, htype, hfree, hdirty⟩ := hrest_eq
  have hpushable : Pushable u env buffer.uniqueId true ↔ 0 ≤ (env.contents buffer).config.size := by
    constructor
    · rintro ⟨ele, hele, -, -, hle⟩
      obtain rfl := Option.some.inj (hlookup.symm.trans hele)
      exact hle rfl buffer rfl
    · intro hle
      refine ⟨_, hlookup, rfl, .inr rfl, fun _ b hb => ?_⟩
      cases hb
      exact hle
  rcases ends_afterPush hr hrest hfail with ⟨rfl, hnot⟩ | ⟨ele, hele, hpush, -, hlate⟩
  · rw [if_neg fun hdata => hnot (hpushable.mpr hdata.1)]
    exact undone_detach hlookup husage hmap hsize htype hfree (hdirty.trans (List.append_nil _).symm)
  obtain rfl := Option.some.inj (hlookup.symm.trans hele)
  generalize hw : u.setElement buffer.uniqueId
    { attachedElement env buffer with state := .pushed } = w at hlate
  have hwlookup : w.cachedBufferMap[buffer.uniqueId]? =
      some { attachedElement env buffer with state := .pushed } := by
    rw [← hw, setElement_lookup, if_pos rfl]
  have hfileable : Fileable w env buffer.uniqueId ↔ HasData (env.contents buffer) := by
    constructor
    · rintro ⟨ele, b, he, -, -, hb, hdata⟩
      obtain rfl := Option.some.inj (hwlookup.symm.trans he)
      cases hb
      exact ⟨hpushable.mp hpush, hdata⟩
    · exact fun hdata => ⟨_, buffer, hwlookup, rfl, rfl, rfl, hdata.2⟩
  rcases hlate with ⟨rfl, hnot⟩ | ⟨b, hb, -, hfile, rfl⟩
  · rw [if_neg fun hdata => hnot ⟨rfl, hfileable.mpr hdata⟩]
    refine undone_detach hwlookup ?_ ?_ ?_ ?_ ?_ ?_
    all_goals rw [← hw]
    · exact husage
    · exact setElement_erase.trans hmap
    · exact hsize
    · exact htype
    · exact hfree
    · exact hdirty.trans (List.append_nil _).symm
  · rw [if_pos (hfileable.mp hfile)]
    cases hb
    have hfiled : (w.filed buffer.uniqueId { attachedElement env buffer with state := .pushed }
        (env.contents buffer).config).cachedBufferMap[buffer.uniqueId]? =
        some { attachedElement env buffer with state := .returned } := by
      show (w.setElement _ _).cachedBufferMap[buffer.uniqueId]? = _
      rw [setElement_lookup, if_pos rfl]
      rfl
    rw [← hw] at hfiled ⊢
    refine undone_detach hfiled husage ?_ hsize htype hfree
      (congrArg (· ++ [buffer.uniqueId]) hdirty)
    show ((u.setElement _ _).setElement _ _).cachedBufferMap.erase buffer.uniqueId = _
    exact (setElement_erase.trans setElement_erase).trans hmap

theorem ends_releaseAttached {d : AVBufferQueueImpl}
    (hqueue : o.queue = d.addElement buffer.uniqueId (attachedElement env buffer))
    (hnext : o.next = .releaseAttached buffer.uniqueId) (h : Ends ls env o q' status) :
    status = .ok := by
  have hbusy : o.next ≠ .idle := fun hidle => by
    rw [hnext] at hidle
    cases hidle
  obtain ⟨timedOut, o', ho', hrest⟩ := h.of_busy hbusy
  have hlookup : o.queue.cachedBufferMap[buffer.uniqueId]? = some (attachedElement env buffer) := by
    rw [hqueue, addElement_lookup, if_pos rfl]
  rw [hnext, resumeCall, releaseBuffer, hlookup] at ho'
  cases ho'
  obtain ⟨timedOut, o'', ho'', hdone⟩ := hrest.of_busy fun hidle => by cases hidle
  cases ho''
  exact (hdone.of_idle rfl).2

def NoRoom (q : AVBufferQueueImpl) : Prop :=
  q.size ≤ q.getCachedBufferCount ∧
    q.dirtyBufferList.length + q.freeBufferList.length ≤ q.getCachedBufferCount - q.size

/-- The dirty list holds nothing but this id, left there by earlier failures,
and a full queue makes room by dropping it once. -/
def RefilesItself (q : AVBufferQueueImpl) (id : UInt64) : Prop :=
  q.getCachedBufferCount = q.size ∧ q.freeBufferList = [] ∧ q.dirtyBufferList ≠ [] ∧
    ∀ k ∈ q.dirtyBufferList, k = id

def AttachComesBack (q : AVBufferQueueImpl) (env : Env) (buffer : AVBufferRef) : Prop :=
  q.memoryUsage.toNat + (env.contents buffer).config.capacity.toNatClampNeg < 2 ^ 32 ∧
    if HasData (env.contents buffer) then RefilesItself q buffer.uniqueId
    else q.getCachedBufferCount < q.size

theorem eq_of_rotate {a d : UInt64} {l : List UInt64} (h : l ++ [a] = d :: l) :
    ∀ k ∈ d :: l, k = a := by
  induction l generalizing d with
  | nil =>
    intro k hk
    rw [List.mem_singleton.mp hk]
    exact (List.cons.inj h).1.symm
  | cons b rest ih =>
    obtain ⟨rfl, hrest⟩ := List.cons.inj h
    intro k hk
    have hall := ih hrest
    rcases List.mem_cons.mp hk with rfl | hk
    · exact hall _ (List.mem_cons_self ..)
    · exact hall k hk

theorem rotate_of_eq {a : UInt64} {l : List UInt64} (h : ∀ k ∈ l, k = a) : l ++ [a] = a :: l := by
  induction l with
  | nil => rfl
  | cons b rest ih =>
    obtain rfl := h b (List.mem_cons_self ..)
    rw [List.cons_append, ih fun k hk => h k (List.mem_cons_of_mem _ hk)]

/-- Making room drops the stray id from the front, and nothing else. -/
theorem deleteBuffers_refiled (h : RefilesItself q id) (hnew : id ∉ q.cachedBufferMap) :
    ∃ rest, q.dirtyBufferList = rest ++ [id] ∧
      q.deleteBuffers (q.getCachedBufferCount - q.size + 1) =
        { q with dirtyBufferList := rest } := by
  obtain ⟨hcount, hfree, hne, hall⟩ := h
  have hdelete : ∀ u : AVBufferQueueImpl, id ∉ u.cachedBufferMap →
      u.deleteCachedBufferById id = u := fun u hu => by
    rw [deleteCachedBufferById, ExtTreeMap.getElem?_eq_none hu]
  rw [hcount, Nat.sub_self]
  cases hlist : q.dirtyBufferList with
  | nil => exact absurd hlist hne
  | cons front rest =>
    rw [hlist] at hall
    obtain rfl := hall front (List.mem_cons_self ..)
    refine ⟨rest, (rotate_of_eq fun k hk => hall k (List.mem_cons_of_mem _ hk)).symm, ?_⟩
    simp [deleteBuffers, deleteListed, hfree, hlist, hdelete, hnew]

/-- One buffer has left the lists: they are as before only where the filed one
stands in its place. -/
theorem refilesItself_of_lists {n : Nat} {tail : List UInt64} (hn : 0 < n)
    (hroom : n ≤ q.dirtyBufferList.length + q.freeBufferList.length)
    (hfree : q.freeBufferList = q.freeBufferList.drop n)
    (hdirty : q.dirtyBufferList = q.dirtyBufferList.drop (n - q.freeBufferList.length) ++ tail)
    (htail : tail = [id] ∨ tail = []) :
    n = 1 ∧ tail = [id] ∧ q.freeBufferList = [] ∧ q.dirtyBufferList ≠ [] ∧
      ∀ k ∈ q.dirtyBufferList, k = id := by
  have hfreelen := congrArg List.length hfree
  have hdirtylen := congrArg List.length hdirty
  rw [List.length_drop] at hfreelen
  rw [List.length_append, List.length_drop] at hdirtylen
  have hnil : q.freeBufferList = [] := List.eq_nil_of_length_eq_zero (by omega)
  rw [hnil, List.length_nil, Nat.sub_zero] at hdirty hdirtylen
  rw [hnil, List.length_nil] at hroom
  rcases htail with rfl | rfl
  · rw [List.length_singleton] at hdirtylen
    obtain rfl : n = 1 := by omega
    refine ⟨rfl, rfl, hnil, ?_, ?_⟩
    · intro hempty
      rw [hempty, List.length_nil] at hroom
      omega
    · cases hlist : q.dirtyBufferList with
      | nil => exact nofun
      | cons front rest =>
        rw [hlist] at hdirty
        exact eq_of_rotate hdirty.symm
  · rw [List.length_nil] at hdirtylen
    omega

theorem undone_full (hnew : buffer.uniqueId ∉ q.cachedBufferMap)
    (hfull : q.size ≤ q.getCachedBufferCount)
    (hroom : q.getCachedBufferCount - q.size <
      q.dirtyBufferList.length + q.freeBufferList.length)
    (h : Undone (q.deleteBuffers (q.getCachedBufferCount - q.size + 1)) q'
      (env.contents buffer).config.capacity
      (if HasData (env.contents buffer) then [buffer.uniqueId] else [])) :
    SameData q q' ↔ AttachComesBack q env buffer := by
  have hback : RefilesItself q buffer.uniqueId → HasData (env.contents buffer) →
      (SameData q q' ↔ q.memoryUsage.toNat +
        (env.contents buffer).config.capacity.toNatClampNeg < 2 ^ 32) := by
    intro hrefiles hdata
    obtain ⟨rest, hlist, hdelete⟩ := deleteBuffers_refiled hrefiles hnew
    rw [hdelete, if_pos hdata] at h
    exact ⟨fun hsame => h.usage.mp hsame.memoryUsage, fun hfits =>
      ⟨h.size, h.memoryType, h.map, h.free, h.dirty.trans hlist.symm, h.usage.mpr hfits⟩⟩
  unfold AttachComesBack
  constructor
  · intro hsame
    obtain ⟨m, hm⟩ := deleteBuffers_eq q (q.getCachedBufferCount - q.size + 1)
    have hfree := h.free
    have hdirty := h.dirty
    have htail : (if HasData (env.contents buffer) then [buffer.uniqueId] else []) =
        [buffer.uniqueId] ∨
        (if HasData (env.contents buffer) then [buffer.uniqueId] else []) = [] := by
      split
      · exact .inl rfl
      · exact .inr rfl
    rw [hm] at hfree hdirty
    obtain ⟨hone, htail, hnil, hne, hall⟩ := refilesItself_of_lists (Nat.succ_pos _) hroom
      (hsame.freeBufferList.symm.trans hfree) (hsame.dirtyBufferList.symm.trans hdirty) htail
    have hdata : HasData (env.contents buffer) := by
      by_contra hnone
      rw [if_neg hnone] at htail
      cases htail
    have hrefiles : RefilesItself q buffer.uniqueId := ⟨by omega, hnil, hne, hall⟩
    rw [if_pos hdata]
    exact ⟨(hback hrefiles hdata).mp hsame, hrefiles⟩
  · rintro ⟨hfits, hlists⟩
    split at hlists
    next hdata => exact (hback hlists hdata).mpr hfits
    next => exact absurd hfull (Nat.not_le.mpr hlists)

theorem undone_free (hslot : q.getCachedBufferCount < q.size)
    (h : Undone q q' (env.contents buffer).config.capacity
      (if HasData (env.contents buffer) then [buffer.uniqueId] else [])) :
    SameData q q' ↔ AttachComesBack q env buffer := by
  unfold AttachComesBack
  constructor
  · intro hsame
    refine ⟨h.usage.mp hsame.memoryUsage, ?_⟩
    split
    next hdata =>
      have hdirty := congrArg List.length (hsame.dirtyBufferList.symm.trans h.dirty)
      rw [if_pos hdata, List.length_append, List.length_singleton] at hdirty
      omega
    next => exact hslot
  · rintro ⟨hfits, hlists⟩
    have hdata : ¬ HasData (env.contents buffer) := by
      intro hdata
      rw [if_pos hdata] at hlists
      exact absurd hlists.1 (Nat.ne_of_lt hslot)
    have hdirty := h.dirty
    rw [if_neg hdata, List.append_nil] at hdirty
    exact ⟨h.size, h.memoryType, h.map, h.free, hdirty, h.usage.mpr hfits⟩

theorem attachAvailable_keeps {q₀ : AVBufferQueueImpl} {isFilled : Bool}
    (hnew : buffer.uniqueId ∉ q.cachedBufferMap)
    (h : Ends ls env (afterAttach q₀ buffer.uniqueId isFilled
      (q.attachAvailableBufferLocked env buffer)) q' status) (hfail : status ≠ .ok) :
    q'.size = q.size ∧ q'.memoryType = q.memoryType ∧
      (SameData q q' ↔ NoRoom q ∨ AttachComesBack q env buffer) := by
  unfold NoRoom
  unfold attachAvailableBufferLocked at h
  simp only at h
  -- from the block that follows the insertion on
  have hgoesOn : ∀ {d : AVBufferQueueImpl}, buffer.uniqueId ∉ d.cachedBufferMap →
      Ends ls env (afterAttach q₀ buffer.uniqueId isFilled
        (d.addElement buffer.uniqueId (attachedElement env buffer), .ok)) q' status →
      Undone d q' (env.contents buffer).config.capacity
        (if HasData (env.contents buffer) then [buffer.uniqueId] else []) := by
    intro d hd hends
    cases isFilled with
    | false => exact absurd (ends_releaseAttached rfl rfl hends) hfail
    | true => exact ends_pushFilled hd rfl rfl hends hfail
  split at h
  next hfull =>
    split at h
    next hroom =>
      obtain ⟨m, hm⟩ := deleteBuffers_eq q (q.getCachedBufferCount - q.size + 1)
      have hgone : buffer.uniqueId ∉
          (q.deleteBuffers (q.getCachedBufferCount - q.size + 1)).cachedBufferMap := by
        rw [ExtTreeMap.mem_iff_isSome_getElem?, hm]
        simp only
        rw [deleteBuffers_lookup, ExtTreeMap.getElem?_eq_none hnew]
        split
        · exact nofun
        · split <;> exact nofun
      have hundone := hgoesOn hgone h
      refine ⟨hundone.size.trans (by rw [hm]), hundone.memoryType.trans (by rw [hm]), ?_⟩
      rw [undone_full hnew hfull hroom hundone]
      refine ⟨.inr, fun hor => hor.resolve_left fun hnone => ?_⟩
      omega
    next hnone =>
      rw [(h.of_idle rfl).1]
      exact ⟨rfl, rfl, iff_of_true (SameData.refl q) (.inl ⟨hfull, by omega⟩)⟩
  next hslot =>
    have hundone := hgoesOn hnew h
    refine ⟨hundone.size, hundone.memoryType, ?_⟩
    rw [undone_free (Nat.lt_of_not_le hslot) hundone]
    exact ⟨.inr, fun hor => hor.resolve_left fun hnone => hslot hnone.1⟩

def AttachKeeps (q : AVBufferQueueImpl) (env : Env) (buffer : AVBufferRef)
    (config : AVBufferConfig) : Prop :=
  buffer.uniqueId ∈ q.cachedBufferMap ∨ q.checkConfig config = none ∨
    q.memoryType ≠ .unknownMemory ∧ (NoRoom q ∨ AttachComesBack q env buffer)

theorem attach_keeps {q₀ : AVBufferQueueImpl}
    {isFilled : Bool}
    (h : Ends ls env (afterAttach q₀ buffer.uniqueId isFilled (q.attachBuffer env buffer config))
      q' status) (hfail : status ≠ .ok) :
    q'.size = q.size ∧ (SameData q q' ↔ AttachKeeps q env buffer config) := by
  unfold AttachKeeps
  unfold attachBuffer at h
  split at h
  next hmem =>
    rw [(h.of_idle rfl).1]
    exact ⟨rfl, iff_of_true (SameData.refl q) (.inl hmem)⟩
  next hnew =>
    split at h
    next hnone =>
      rw [(h.of_idle rfl).1]
      exact ⟨rfl, iff_of_true (SameData.refl q) (.inr (.inl hnone))⟩
    next v hv =>
      obtain ⟨hvq, hknown, htype⟩ := checkConfig_some hv
      have hvnew : buffer.uniqueId ∉ v.cachedBufferMap := by rw [hvq]; exact hnew
      obtain ⟨hvsize, hvtype, hvkeeps⟩ := attachAvailable_keeps hvnew h hfail
      have hconds : (NoRoom v ∨ AttachComesBack v env buffer) =
          (NoRoom q ∨ AttachComesBack q env buffer) := by rw [hvq]; rfl
      rw [hconds] at hvkeeps
      have hsplit : SameData q q' ↔ q.memoryType ≠ .unknownMemory ∧ SameData v q' := by
        rw [hvq] at hvtype ⊢
        constructor
        · intro hsame
          refine ⟨fun hopen => hknown (hvtype.symm.trans (hsame.memoryType.trans hopen)), ?_⟩
          exact ⟨hsame.size, hvtype, hsame.cachedBufferMap, hsame.freeBufferList,
            hsame.dirtyBufferList, hsame.memoryUsage⟩
        · rintro ⟨hfixed, hsame⟩
          exact ⟨hsame.size, hvtype.trans (htype.resolve_left hfixed), hsame.cachedBufferMap,
            hsame.freeBufferList, hsame.dirtyBufferList, hsame.memoryUsage⟩
      refine ⟨hvsize.trans (by rw [hvq]), ?_⟩
      rw [hsplit, hvkeeps]
      refine ⟨fun hor => .inr (.inr hor), fun hor => ?_⟩
      rcases hor with hmem | hnone | hor
      · exact absurd hmem hnew
      · rw [hv] at hnone
        cases hnone
      · exact hor

theorem resizeLocked_size (q : AVBufferQueueImpl) (size : Nat) :
    (q.resizeLocked size).size = size := by
  unfold resizeLocked
  split
  · simp only
    split <;> rfl
  · rfl

theorem resizeAttach_keeps {q₀ : AVBufferQueueImpl} {size : Nat} {isFilled : Bool}
    (h : Ends ls env (afterAttach q₀ buffer.uniqueId isFilled
      (q.setQueueSizeAndAttachBuffer env size buffer config)) q' status) (hfail : status ≠ .ok) :
    SameData q q' ↔ ¬ (size ≤ avbufferQueueMaxQueueSize ∧ size ≠ q.size) ∧
      AttachKeeps q env buffer config := by
  unfold setQueueSizeAndAttachBuffer at h
  split at h
  next hresize =>
    have hsize := (attach_keeps h hfail).1
    refine iff_of_false (fun hsame => hresize.2 ?_) fun hkeeps => hkeeps.1 hresize
    rw [← hsame.size, hsize]
    exact (resizeLocked_size q size).symm
  next hkept =>
    rw [(attach_keeps h hfail).2]
    exact ⟨fun hkeeps => ⟨hkept, hkeeps⟩, fun hkeeps => hkeeps.2⟩

/-! ## The other calls -/

theorem detachBuffer_failed (h : (q.detachBuffer id false).2 ≠ .ok) :
    (q.detachBuffer id false).1 = q := by
  unfold detachBuffer at h ⊢
  split at h
  · rfl
  · split at h
    next hst => rw [if_pos hst]
    · exact absurd rfl h

theorem acquireBuffer_failed {r : AVBufferQueueImpl × Except Status AVBufferRef}
    (hr : q.acquireBuffer = some r) (h : r.2 = .error status) : r.1 = q := by
  unfold acquireBuffer popFromDirtyBufferList at hr
  split at hr
  next w hw =>
    cases hr
    split at hw
    · exact (Prod.mk.inj hw).1.symm
    · cases (Prod.mk.inj hw).2
  · cases hr
  · cases hr
    cases h

theorem releaseBuffer_failed (h : (q.releaseBuffer id).2 = .failed status) :
    (q.releaseBuffer id).1 = q := by
  unfold releaseBuffer at h ⊢
  split at h
  · rfl
  · split at h
    · simp only at h
      split at h <;> cases h
    next hst => rw [if_neg hst]

theorem setLargerQueueSizeLocked_failed {size : Nat}
    (h : (q.setLargerQueueSizeLocked size).2 ≠ .ok) : (q.setLargerQueueSizeLocked size).1 = q := by
  unfold setLargerQueueSizeLocked at h ⊢
  split at h
  · exact absurd rfl h
  next hsize => rw [if_neg hsize]

theorem setQueueSize_failed {size : Nat} (h : (q.setQueueSize size).2 ≠ .ok) :
    (q.setQueueSize size).1 = q := by
  unfold setQueueSize at h ⊢
  split at h
  next hsize =>
    rw [if_pos hsize]
    exact setLargerQueueSizeLocked_failed h
  next hsize => rw [if_neg hsize]

end AVBufferQueueImpl

open AVBufferQueueImpl

/-! ## Every call -/

/-- **The call is turned down before it changes anything, or all comes back.**
A request has not fixed the memory type or taken a free buffer; a push does not
reach the state `PUSHED`, a return not the dirty list; a combined resize finds
the size as it is. An attach is refused for its id or its configuration; or the
memory type was fixed before, and there is no room at all, or the account and
the lists come back to what they were. The other calls fail before any change. -/
def RejectedEarly (q : AVBufferQueueImpl) (env : Env) : Call → Prop
  | .requestBufferWaitUs config _ seen => RequestKeeps q (configCopy config seen)
  | .pushBuffer uniqueId available => ¬ Pushable q env uniqueId available
  | .returnBuffer uniqueId available => ¬ (available = true ∧ Fileable q env uniqueId)
  | .attachBuffer buffer config _ => AttachKeeps q env buffer config
  | .setQueueSizeAndAttachBuffer size buffer config _ =>
    ¬ (size ≤ avbufferQueueMaxQueueSize ∧ size ≠ q.size) ∧ AttachKeeps q env buffer config
  | _ => True

/-- **A failed call keeps the data exactly when it is turned down early**, in
every state of the queue. -/
theorem failed_call_keeps {q q' : AVBufferQueueImpl} {ls : Listeners} {env : Env} {party : Nat}
    {c : Call} {status : Status} (h : Returns q ls env party c q' status) (hfail : status ≠ .ok) :
    SameData q q' ↔ RejectedEarly q env c := by
  obtain ⟨o, ho, hends⟩ := h
  cases c with
  | requestBufferWaitUs config timeoutUs seen =>
    cases ho
    exact request_keeps hends hfail
  | pushBuffer id available =>
    obtain ⟨r, hr, rfl⟩ := Option.map_eq_some_iff.mp ho
    exact push_keeps hr hends hfail
  | returnBuffer id available =>
    obtain ⟨r, hr, rfl⟩ := Option.map_eq_some_iff.mp ho
    exact return_keeps hr hends hfail
  | attachBuffer buffer config isFilled =>
    cases ho
    exact (attach_keeps hends hfail).2
  | setQueueSizeAndAttachBuffer size buffer config isFilled =>
    cases ho
    exact resizeAttach_keeps hends hfail
  | detachBuffer id =>
    have hfailed := @detachBuffer_failed q id
    refine iff_of_true ?_ trivial
    simp only [startCall] at ho
    split at ho
    · cases ho
      exact absurd (hends.of_idle rfl).2 hfail
    next u st hok heq =>
      cases ho
      rw [heq] at hfailed
      have hu : u = q := hfailed fun hst => hok hst
      rw [(hends.of_idle rfl).1, hu]
      exact SameData.refl q
  | acquireBuffer =>
    obtain ⟨r, hr, rfl⟩ := Option.map_eq_some_iff.mp ho
    refine iff_of_true ?_ trivial
    obtain ⟨u, st | buffer⟩ := r
    · rw [(hends.of_idle rfl).1]
      have hu : u = q := acquireBuffer_failed hr rfl
      rw [afterAcquire, hu]
      exact SameData.refl q
    · exact absurd (hends.of_idle rfl).2 hfail
  | releaseBuffer id =>
    cases ho
    refine iff_of_true ?_ trivial
    have hfailed : ∀ st, (q.releaseBuffer id).2 = .failed st → (q.releaseBuffer id).1 = q :=
      fun st => releaseBuffer_failed
    generalize q.releaseBuffer id = r at hends hfailed
    obtain ⟨u, st | _ | _⟩ := r
    · have hu : u = q := hfailed st rfl
      rw [(hends.of_idle rfl).1, hu]
      exact SameData.refl q
    · exact absurd (hends.of_idle rfl).2 hfail
    · obtain ⟨timedOut, o', ho', hrest⟩ := hends.of_busy fun hidle => by cases hidle
      cases ho'
      exact absurd (hrest.of_idle rfl).2 hfail
  | setQueueSize size =>
    cases ho
    refine iff_of_true ?_ trivial
    obtain ⟨rfl, rfl⟩ := hends.of_idle rfl
    rw [setQueueSize_failed hfail]
    exact SameData.refl q
  | setLargerQueueSize size =>
    cases ho
    refine iff_of_true ?_ trivial
    obtain ⟨rfl, rfl⟩ := hends.of_idle rfl
    rw [setLargerQueueSize, setLargerQueueSizeLocked_failed hfail]
    exact SameData.refl q
  | clear =>
    cases ho
    exact absurd (hends.of_idle rfl).2 hfail
  | clearBufferIf pred =>
    obtain ⟨u, hu, rfl⟩ := Option.map_eq_some_iff.mp ho
    exact absurd (hends.of_idle rfl).2 hfail

def emptyEnv : Env where
  contents := fun _ => { config := { sampleConfig with size := 0 }, flag := 0 }
  created := none

/-- The buffer is with the party that requested it. -/
theorem failed_call_keeps_requested :
    ∃ s, Runs.run step (.init 1 .unknownMemory false) [requestNew 1] = some s ∧
      s.queue.stateOf 1 = some .requested ∧
      Returns s.queue s.listeners emptyEnv 1 (.returnBuffer 1 true) s.queue
        .errorInvalidBufferState ∧
      (SameData s.queue s.queue ↔ RejectedEarly s.queue emptyEnv (.returnBuffer 1 true)) :=
  ⟨_, rfl, by decide, ⟨_, rfl, .done rfl⟩, @failed_call_keeps _ _ {} emptyEnv 1
    (.returnBuffer 1 true) .errorInvalidBufferState ⟨_, rfl, .done rfl⟩ nofun⟩

theorem failed_push_keeps_pushed :
    ∃ s, Runs.run step (.init 1 .unknownMemory false) [requestNew 1] = some s ∧
      let q' := s.queue.setElement 1 { s.queue.element 1 with state := .pushed }
      s.queue.stateOf 1 = some .requested ∧
        Returns s.queue s.listeners emptyEnv 1 (.pushBuffer 1 true) q' .errorInvalidBufferSize ∧
        ¬ SameData s.queue q' ∧
        Returns q' s.listeners emptyEnv 1 (.pushBuffer 1 true) q' .errorInvalidBufferState := by
  refine ⟨_, rfl, by decide, ⟨_, rfl, ?_⟩, fun hsame => ?_, ⟨_, rfl, .done rfl⟩⟩
  · exact .resume false nofun rfl (.resume false nofun rfl (.done rfl))
  · have hstate := congrArg (fun m : ExtTreeMap UInt64 AVBufferElement => m[(1 : UInt64)]?)
      hsame.cachedBufferMap
    exact absurd hstate (by decide)

end MediaFoundation.Queue
