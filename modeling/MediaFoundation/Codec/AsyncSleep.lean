import MediaFoundation.Codec.AsyncWake

/-!
# How the input thread of a codec goes to sleep

`Stop`, `Release` and `FlushStart` read `isNeedQueueInputBuffer_` once. If
`HandleFrame` has found `stopped_` false but has not gone to sleep yet, the flag
may still be set, and they wake up nobody; or they notify it too early. They then
wait for a `HandleFrame` that sleeps on.
-/

namespace MediaFoundation.AsyncWake

open AsyncMode (HandleFrame)

-- Who sleeps

/-- `HandleFrame` waits on `cv_` and has not been notified. -/
def System.asleep (s : System) : Bool :=
  match s.handleFrameTask_.loop with
  | .handler (.waiting _) => !s.cv_
  | _ => false

/-- The plug-in has not taken the buffer, and `HandleFrame` is about to read `stopped_`. -/
def System.refused (s : System) : Bool :=
  match s.handleFrameTask_.loop with
  | .handler (.refused _) => true
  | _ => false

def System.aboutToWait (s : System) : Bool :=
  match s.handleFrameTask_.loop with
  | .handler (.beforeWait _) => true
  | _ => false

variable {s s' : System} {l : Label}

theorem asleep_iff :
    s.asleep = true ↔
      ∃ oneBuffer, s.handleFrameTask_.loop = .handler (.waiting oneBuffer) ∧ s.cv_ = false := by
  unfold System.asleep
  split
  next oneBuffer h => simp [h]
  next h =>
    simp only [Bool.false_eq_true, false_iff, not_exists, not_and]
    exact fun oneBuffer heq => absurd heq (h oneBuffer)

theorem aboutToWait_iff :
    s.aboutToWait = true ↔
      ∃ oneBuffer, s.handleFrameTask_.loop = .handler (.beforeWait oneBuffer) := by
  unfold System.aboutToWait
  split
  next oneBuffer h => simp [h]
  next h =>
    simp only [Bool.false_eq_true, false_iff, not_exists]
    exact h

theorem does_handler {η : Type} {t : TaskName} {task : Task η} {b : Block} {at_ : η}
    (h : (b.does t task).loop = .handler at_) : task.loop = .handler at_ := by
  cases b with
  | setStopped | queueActive | poolActive | testNeed | notify | awaitState => exact h
  | start u =>
    rw [Block.does] at h
    split at h
    · exact Task.start_handler.mp h
    · exact h
  | stop u =>
    rw [Block.does] at h
    split at h
    · exact Task.stop_loop ▸ h
    · exact h
  | pause u | pauseAsync u =>
    rw [Block.does] at h
    split at h
    · exact Task.pause_loop ▸ h
    · exact h
  | awaitStopped u =>
    rw [Block.does] at h
    split at h
    · cases h
    · exact h

theorem handler_of_step {at_ : HandleFrame} (hstep : step s l = some s')
    (hl : ∀ status, l ≠ .handleFrame status) (h : s'.handleFrameTask_.loop = .handler at_) :
    s.handleFrameTask_.loop = .handler at_ := by
  obtain heq | ⟨i, b, -, -, -, heq⟩ := (touched_step hstep).1 hl
  · exact heq ▸ h
  · exact does_handler (heq ▸ h)

theorem flags_step (hstep : step s l = some s') (hl : ∀ status, l ≠ .handleFrame status) :
    (s'.cv_ = s.cv_ ∧ s'.isNeedQueueInputBuffer_ = s.isNeedQueueInputBuffer_ ∧
      ∀ i, l = .call i → s.next i ≠ some .notify) ∨ s'.cv_ = true := by
  cases step_takes hstep with
  | handleFrame status => exact absurd rfl (hl status)
  | decodeFrame valid status =>
    obtain ⟨-, -, hneed, -, hcv | hcv⟩ := s.decodeFrameBlock_frame valid status
    · exact .inl ⟨hcv, hneed, nofun⟩
    · exact .inr hcv
  | finishFrame | pushData | recycle | enter => exact .inl ⟨rfl, rfl, nofun⟩
  | call i c b rest rest' hc hrest hblock =>
    obtain ⟨hcv, hneed, hne⟩ | hcv := s.effect_flags b
    · refine .inl ⟨hcv, hneed, fun j heq => ?_⟩
      obtain rfl := Label.call.inj heq
      rw [next_eq hc, hrest]
      exact fun heq => hne (Option.some.inj heq)
    · exact .inr hcv

theorem handleFrameBlock_arrives (s : System) (status : AsyncMode.Status) :
    ((s.handleFrameBlock status).asleep = true → s.aboutToWait = true ∧
      (s.handleFrameBlock status).isNeedQueueInputBuffer_ = false) ∧
    ((s.handleFrameBlock status).aboutToWait = true →
      s.refused = true ∧ s.stopped_ = false) := by
  have hpopped : ∀ r, (s.afterPop r).asleep = false ∧ (s.afterPop r).aboutToWait = false := by
    rintro ⟨q, _ | _ | oneBuffer⟩
    all_goals exact ⟨rfl, rfl⟩
  unfold System.handleFrameBlock
  split
  next h =>
    obtain ⟨hasleep, habout⟩ := hpopped s.inBufQue_.pop
    rw [hasleep, habout]
    exact ⟨nofun, nofun⟩
  next h =>
    obtain ⟨hasleep, habout⟩ := hpopped s.inBufQue_.popWoken
    rw [hasleep, habout]
    exact ⟨nofun, nofun⟩
  next oneBuffer h =>
    split
    · exact ⟨nofun, nofun⟩
    · exact ⟨nofun, nofun⟩
  next oneBuffer h =>
    split
    · exact ⟨nofun, nofun⟩
    · next hstopped =>
      refine ⟨nofun, fun _ => ⟨?_, Bool.eq_false_of_not_eq_true hstopped⟩⟩
      rw [System.refused, h]
  next oneBuffer h => exact ⟨fun _ => ⟨aboutToWait_iff.mpr ⟨oneBuffer, h⟩, rfl⟩, nofun⟩
  next => exact ⟨nofun, nofun⟩
  next => exact ⟨nofun, nofun⟩
  next hbefore hwaiting _ =>
    refine ⟨fun hasleep => ?_, fun habout => ?_⟩
    · obtain ⟨oneBuffer, hloop, -⟩ := asleep_iff.mp hasleep
      obtain heq | hloop := Task.turn_handler hloop
      · cases heq
      · exact (hwaiting oneBuffer hloop).elim
    · obtain ⟨oneBuffer, hloop⟩ := aboutToWait_iff.mp habout
      obtain heq | hloop := Task.turn_handler hloop
      · cases heq
      · exact (hbefore oneBuffer hloop).elim

/-- **How it comes that `HandleFrame` sleeps**: it has gone to sleep, or it has slept before and
nobody has notified it. -/
theorem asleep_step (hstep : step s l = some s') (h : s'.asleep = true) :
    (∃ status, l = .handleFrame status) ∧ s.aboutToWait = true ∧
      s'.isNeedQueueInputBuffer_ = false ∨
    (∀ status, l ≠ .handleFrame status) ∧ s.asleep = true ∧
      s'.isNeedQueueInputBuffer_ = s.isNeedQueueInputBuffer_ ∧
      ∀ i, l = .call i → s.next i ≠ some .notify := by
  by_cases hl : ∃ status, l = .handleFrame status
  · obtain ⟨status, rfl⟩ := hl
    cases hstep
    obtain ⟨habout, hneed⟩ := (handleFrameBlock_arrives s status).1 h
    exact .inl ⟨⟨status, rfl⟩, habout, hneed⟩
  · have hother : ∀ status, l ≠ .handleFrame status := fun status heq => hl ⟨status, heq⟩
    obtain ⟨oneBuffer, hloop, hcv⟩ := asleep_iff.mp h
    obtain ⟨hsame, hneed, hnext⟩ | hnotified := flags_step hstep hother
    · have hbefore := handler_of_step hstep hother hloop
      exact .inr ⟨hother, asleep_iff.mpr ⟨oneBuffer, hbefore, hsame ▸ hcv⟩, hneed, hnext⟩
    · rw [hnotified] at hcv
      cases hcv

theorem aboutToWait_step (hstep : step s l = some s') (h : s'.aboutToWait = true) :
    (∃ status, l = .handleFrame status) ∧ s.refused = true ∧ s.stopped_ = false ∨
    s.aboutToWait = true := by
  by_cases hl : ∃ status, l = .handleFrame status
  · obtain ⟨status, rfl⟩ := hl
    cases hstep
    exact .inl ⟨⟨status, rfl⟩, (handleFrameBlock_arrives s status).2 h⟩
  · obtain ⟨oneBuffer, hloop⟩ := aboutToWait_iff.mp h
    have hbefore := handler_of_step hstep (fun status heq => hl ⟨status, heq⟩) hloop
    exact .inr (aboutToWait_iff.mpr ⟨oneBuffer, hbefore⟩)

/-- Whoever tests the flag while `HandleFrame` sleeps goes on to notify it. -/
def Listens (s : System) : Prop := s.asleep = true → s.isNeedQueueInputBuffer_ = false

theorem listens_configured (capacity freeBuffers lent : Nat) :
    Listens (configured capacity freeBuffers lent) := nofun

theorem listens_step (h : Listens s) (hstep : step s l = some s') : Listens s' := by
  intro hasleep
  obtain ⟨-, -, hneed⟩ | ⟨-, hbefore, hneed, -⟩ := asleep_step hstep hasleep
  · exact hneed
  · exact hneed.trans (h hbefore)

-- The condition

def Block.wakes : Block → Bool
  | .testNeed | .notify => true
  | _ => false

namespace Call

/-- The call has its test of the flag, or its notification, still to come. -/
def toWake (c : Call) : Bool := c.rest.any Block.wakes

def past (c : Call) : Bool := c.name.halts && !c.rest.isEmpty && !c.toWake

end Call

def System.beingStopped (s : System) (t : TaskName) : Prop :=
  s.ofTask (fun task => task.loop = .ended) t ∨
    ∃ c ∈ s.calls, c.rest.head? = some (.awaitStopped t)

def Call.stopsDecode (c : Call) : Prop :=
  c.rest.head? = some (.stop .decode) ∨ c.rest.head? = some (.awaitStopped .decode)

def Allows (s : System) (name : CallName) : Block → Prop
  -- `HandleFrame` would go to sleep after the test, or after the notification
  | .testNeed =>
    name.halts = true → s.isNeedQueueInputBuffer_ = true → s.aboutToWait = false
  | .notify => name.halts = true → s.aboutToWait = false
  -- what a call waits for would not come
  | .poolActive true => ∀ c ∈ s.calls, ¬ c.stopsDecode
  | .start t => ¬ s.beingStopped t
  | _ => True

def Undisturbed (s : System) : Label → Prop
  -- only an overlapping `FlushEnd` has reset `stopped_`
  | .handleFrame _ => s.refused = true → s.stopped_ = false → ∀ c ∈ s.calls, c.past = false
  | .call i => ∀ c ∈ s.calls[i]?, ∀ b ∈ c.rest.head?, Allows s c.name b
  | _ => True

/-- `HandleFrame` does not sleep while a call that halts waits, or is going to wait, for it. -/
def NotStranded (s : System) : Prop := ∀ c ∈ s.calls, c.past = true → s.asleep = false

-- Behind the test

theorem Call.past_iff {c : Call} :
    c.past = true ↔ c.name.halts = true ∧ c.rest ≠ [] ∧ c.toWake = false := by
  simp [past, and_assoc]

theorem CallName.blocks_toWake (name : CallName) : name.blocks.any Block.wakes = true := by
  cases name with
  | outputDone eos => cases eos <;> rfl
  | _ => rfl

theorem past_of_block {c : Call} {b : Block} {rest rest' : List Block} {u : System}
    (hrest : c.rest = b :: rest) (hblock : s.block (b :: rest) = some (u, rest'))
    (hpast : ({ c with rest := rest' } : Call).past = true) :
    c.past = true ∨ c.name.halts = true ∧
      (b = .testNeed ∧ s.isNeedQueueInputBuffer_ = true ∨ b = .notify) := by
  obtain ⟨hhalts, -, hwake⟩ := Call.past_iff.mp hpast
  cases hb : b.wakes with
  | true =>
    refine .inr ⟨hhalts, ?_⟩
    cases b with
    | testNeed =>
      refine .inl ⟨rfl, ?_⟩
      obtain ⟨-, hneed⟩ | ⟨rfl, -⟩ | ⟨t, -, heq⟩ | ⟨t, states, -, heq⟩ := System.block_rest hblock
      · exact hneed rfl
      · cases hwake
      · cases heq
      · cases heq
    | notify => exact .inr rfl
    | _ => cases hb
  | false =>
    refine .inl (Call.past_iff.mpr ⟨hhalts, hrest ▸ List.cons_ne_nil b rest, ?_⟩)
    have hsame : rest.any Block.wakes = false := by
      obtain ⟨rfl, -⟩ | ⟨rfl, -⟩ | ⟨t, rfl, -⟩ | ⟨t, states, rfl, -⟩ := System.block_rest hblock
      · exact hwake
      · cases hwake
      · exact hwake
      · exact hwake
    rw [Call.toWake, hrest, List.any_cons, hb, hsame]
    rfl

theorem past_step {c : Call} (hstep : step s l = some s') (hc : c ∈ s'.calls)
    (hpast : c.past = true) :
    (∃ d ∈ s.calls, d.past = true) ∨
    ∃ i d, l = .call i ∧ s.calls[i]? = some d ∧ d.name.halts = true ∧
      (d.rest.head? = some .testNeed ∧ s.isNeedQueueInputBuffer_ = true ∨
        d.rest.head? = some .notify) := by
  obtain hc | ⟨name, rfl⟩ | ⟨i, d, b, rest, calls, rfl, hd, hname, hrest, hblock, rfl⟩ :=
    mem_calls_step hstep hc
  · exact .inl ⟨c, hc, hpast⟩
  · have hwake := (Call.past_iff.mp hpast).2.2
    rw [Call.toWake, CallName.blocks_toWake] at hwake
    cases hwake
  · have heq : c = { d with rest := c.rest } := by rw [hname]
    obtain hbefore | ⟨hhalts, hb⟩ := past_of_block hrest hblock (heq ▸ hpast)
    · exact .inl ⟨d, List.mem_of_getElem? hd, hbefore⟩
    · refine .inr ⟨i, d, rfl, hd, hhalts, ?_⟩
      rw [hrest]
      obtain ⟨rfl, hneed⟩ | rfl := hb
      · exact .inl ⟨rfl, hneed⟩
      · exact .inr rfl

/-- While a call that halts is behind its test, `HandleFrame` neither sleeps nor is about to. -/
def Clear (s : System) : Prop :=
  ∀ c ∈ s.calls, c.past = true → s.aboutToWait = false ∧ s.asleep = false

theorem clear_step (h : Clear s) (hlistens : Listens s) (hl : Undisturbed s l)
    (hstep : step s l = some s') : Clear s' := by
  intro c hc hpast
  obtain ⟨d, hd, hbefore⟩ | ⟨i, d, rfl, hd, hhalts, hhead⟩ := past_step hstep hc hpast
  · obtain ⟨habout, hasleep⟩ := h d hd hbefore
    constructor
    · refine Bool.eq_false_of_not_eq_true fun hafter => ?_
      obtain ⟨⟨status, rfl⟩, hrefused, hstopped⟩ | hafter := aboutToWait_step hstep hafter
      · rw [hl hrefused hstopped d hd] at hbefore
        cases hbefore
      · rw [habout] at hafter
        cases hafter
    · refine Bool.eq_false_of_not_eq_true fun hafter => ?_
      obtain ⟨-, hafter, -⟩ | ⟨-, hafter, -⟩ := asleep_step hstep hafter
      · rw [habout] at hafter
        cases hafter
      · rw [hasleep] at hafter
        cases hafter
  · have habout : s.aboutToWait = false := by
      obtain ⟨hhead, hneed⟩ | hhead := hhead
      · exact hl d hd _ hhead hhalts hneed
      · exact hl d hd _ hhead hhalts
    constructor
    · refine Bool.eq_false_of_not_eq_true fun hafter => ?_
      obtain ⟨⟨status, heq⟩, -⟩ | hafter := aboutToWait_step hstep hafter
      · cases heq
      · rw [habout] at hafter
        cases hafter
    · refine Bool.eq_false_of_not_eq_true fun hafter => ?_
      obtain ⟨⟨status, heq⟩, -⟩ | ⟨-, hasleep, -, hnext⟩ := asleep_step hstep hafter
      · cases heq
      · obtain ⟨-, hneed⟩ | hhead := hhead
        · rw [hlistens hasleep] at hneed
          cases hneed
        · refine hnext i rfl ?_
          rw [System.next, hd]
          exact hhead

end MediaFoundation.AsyncWake
