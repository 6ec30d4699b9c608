import MediaFoundation.Codec.AsyncSteady
import MediaFoundation.Lib.Response

/-!
# The input thread of a codec is woken

A call that waits for `HandleFrame` returns, and a `HandleFrame` that sleeps is
notified and goes on.
-/

namespace MediaFoundation.AsyncWake

open AsyncMode (BufferPool DecodeFrame)
open Response

variable {s s' : System} {l : Label}

-- Who goes on

inductive Helper where
  | handleFrame
  | decodeFrame
  | finishFrame
  | call (i : Nat)

def Ready : Helper → System → Prop
  | .handleFrame, s => ¬ s.handleFrameTask_.Dead ∧ s.asleep = false
  | .decodeFrame, s => ¬ s.decodeFrameTask_.Dead
  | .finishFrame, s => ¬ s.pushTask_.Dead
  | .call i, s => (s.call i).isSome = true

def Acts : Helper → System → Label → Prop
  | .handleFrame, _, l => ∃ status, l = .handleFrame status
  | .decodeFrame, _, l => ∃ valid status, l = .decodeFrame valid status
  | .finishFrame, _, l => l = .finishFrame
  | .call i, _, l => l = .call i

/-- The blocks that are left of a call, with those that they may add. -/
def Block.weight : Block → Nat
  | .testNeed | .stop _ | .pause _ => 2
  | _ => 1

def left (rest : List Block) : Nat := (rest.map Block.weight).sum

/-- The blocks up to the end of `DecodeFrame`, once the pool has been given up. -/
def toReturn : DecodeFrame → Nat
  | .queueOutput => 3
  | .testNeed => 2
  | .allocate | .waitingAllocate | .notify => 1

namespace System

def turns (s : System) : TaskName → Nat
  | .handle => 0
  | .decode => s.decodeFrameTask_.turns toReturn
  | .push => s.pushTask_.turns fun _ => 1

def ahead (s : System) : Option Block → Nat
  | some (.awaitStopped t) => s.turns t
  | _ => 0

def rank (i : Nat) (s : System) : Nat :=
  match s.calls[i]? with
  | some c => 8 * left c.rest + s.ahead c.rest.head?
  | none => 0

end System

def thread : TaskName → Helper
  | .handle => .handleFrame
  | .decode => .decodeFrame
  | .push => .finishFrame

def helper (i : Nat) (s : System) : Helper :=
  match s.next i with
  | some (.awaitStopped t) => if s.turns t = 0 then .call i else thread t
  | _ => .call i

/-- The `i`-th call is to notify the `HandleFrame` that sleeps. -/
def WillWake (i : Nat) (s : System) : Prop :=
  Steady s ∧ s.asleep = true ∧ ∃ c, s.calls[i]? = some c ∧ c.toWake = true

theorem toReturn_pos (at_ : DecodeFrame) : 0 < toReturn at_ := by cases at_ <;> decide

theorem Task.turns_handler {η : Type} {inHandler : η → Nat} {t : Task η} {at_ : η}
    (h : t.loop = .handler at_) : t.turns inHandler = 1 + inHandler at_ := by
  rw [turns, h]

theorem Task.turns_eq_zero {η : Type} {inHandler : η → Nat} {t : Task η} :
    t.turns inHandler = 0 ↔ t.Dead := by
  refine ⟨fun h => ?_, Task.turns_dead⟩
  unfold Task.turns at h
  split at h
  next hloop => exact .inl hloop
  next hloop => exact .inr hloop
  next => cases h
  next => cases h
  next => cases h
  next => omega

theorem decodeFrameBlock_dead {valid : Bool} {status : AsyncMode.Status}
    (h : s.decodeFrameTask_.Dead) :
    (s.decodeFrameBlock valid status).decodeFrameTask_ = s.decodeFrameTask_ := by
  unfold System.decodeFrameBlock
  obtain hloop | hloop := h
  all_goals simp [hloop, Task.turn]

theorem finishFrameBlock_dead (h : s.pushTask_.Dead) :
    s.finishFrameBlock.pushTask_ = s.pushTask_ := by
  unfold System.finishFrameBlock
  obtain hloop | hloop := h
  all_goals simp [hloop, Task.turn]

theorem allocate_inactive {p : BufferPool} (h : p.isActive_ = false) :
    p.allocateBuffer = (p, .returns false) ∧ p.allocateWoken = (p, .returns false) := by
  simp [BufferPool.allocateBuffer, BufferPool.allocateWoken,
    BufferPool.allocateBufferUnprotected, h]

theorem decodeFrameBlock_turns {valid : Bool} {status : AsyncMode.Status}
    (h : s.decodeFrameTask_.Ending) (hpool : s.outBufPool_.isActive_ = false)
    (halive : ¬ s.decodeFrameTask_.Dead) :
    (s.decodeFrameBlock valid status).decodeFrameTask_.turns toReturn <
      s.decodeFrameTask_.turns toReturn := by
  obtain ⟨hallocate, hwoken⟩ := allocate_inactive hpool
  have hleaves : ∀ at_, s.decodeFrameTask_.loop = .handler at_ →
      s.decodeFrameTask_.leave.turns toReturn < s.decodeFrameTask_.turns toReturn := by
    intro at_ hloop
    rw [Task.turns_handler hloop]
    show 1 < 1 + toReturn at_
    have hpos := toReturn_pos at_
    omega
  unfold System.decodeFrameBlock
  split
  next hloop =>
    rw [hallocate]
    exact hleaves _ hloop
  next hloop =>
    rw [hwoken]
    exact hleaves _ hloop
  next hloop =>
    split
    · exact hleaves _ hloop
    · dsimp only
      split
      · rw [Task.turns_handler hloop]
        exact Nat.lt_succ_self 3
      · exact hleaves _ hloop
  next hloop =>
    dsimp only
    split
    · exact hleaves _ hloop
    · rw [Task.turns_handler hloop]
      exact Nat.lt_succ_self 2
  next hloop => exact hleaves _ hloop
  next hallocate hwoken hqueue htest hnotify =>
    refine h.turn_turns halive fun at_ hloop => ?_
    cases at_ with
    | allocate => exact hallocate hloop
    | waitingAllocate => exact hwoken hloop
    | queueOutput => exact hqueue hloop
    | testNeed => exact htest hloop
    | notify => exact hnotify hloop

theorem finishFrameBlock_turns (h : s.pushTask_.Ending) (halive : ¬ s.pushTask_.Dead) :
    s.finishFrameBlock.pushTask_.turns (fun _ => 1) < s.pushTask_.turns fun _ => 1 := by
  unfold System.finishFrameBlock
  split
  next hloop =>
    rw [Task.turns_handler hloop]
    exact Nat.lt_succ_self 1
  next hnot => exact h.turn_turns halive hnot

/-- **The thread that a call waits for** goes on, and nobody holds it up. -/
theorem turns_step {c : Call} {t : TaskName} (h : Steady s) (hl : Undisturbed s l)
    (hstep : step s l = some s') (hc : c ∈ s.calls)
    (hhead : c.rest.head? = some (.awaitStopped t)) :
    s'.turns t < s.turns t ∨
      s'.turns t = s.turns t ∧ (s.turns t ≠ 0 → ¬ Acts (thread t) s l) := by
  have hsettled := h.settled t
  have hending := h.ending c hc t hhead
  have hsame : ∀ {η : Type} {task task' : Task η} {inHandler : η → Nat}, task.Settled →
      Touched s l t task task' → task'.turns inHandler = task.turns inHandler := by
    rintro η task task' inHandler hbefore (rfl | ⟨i, b, rfl, hnext, hawaits, rfl⟩)
    · rfl
    · refine hbefore.does_turns (fun hb => ?_) hawaits
      exact (hl.head hnext).2 t hb (.inr ⟨c, hc, hhead⟩)
  obtain ⟨-, hdecode, hpush⟩ := touched_step hstep
  cases t with
  | handle => exact .inr ⟨rfl, fun hzero => absurd rfl hzero⟩
  | decode =>
    by_cases hacts : Acts .decodeFrame s l
    · obtain ⟨valid, status, rfl⟩ := hacts
      cases hstep
      by_cases hdead : s.decodeFrameTask_.Dead
      · refine .inr ⟨congrArg (Task.turns toReturn) (decodeFrameBlock_dead hdead), fun hzero => ?_⟩
        exact absurd (Task.turns_dead hdead) hzero
      · have hpool := h.pool c hc (.inr hhead)
        exact .inl (decodeFrameBlock_turns hending hpool hdead)
    · have htouched := hdecode fun valid status heq => hacts ⟨valid, status, heq⟩
      exact .inr ⟨hsame hsettled htouched, fun _ => hacts⟩
  | push =>
    by_cases hacts : l = .finishFrame
    · subst hacts
      cases hstep
      by_cases hdead : s.pushTask_.Dead
      · refine .inr ⟨congrArg (Task.turns _) (finishFrameBlock_dead hdead), fun hzero => ?_⟩
        exact absurd (Task.turns_dead hdead) hzero
      · exact .inl (finishFrameBlock_turns hending hdead)
    · exact .inr ⟨hsame hsettled (hpush hacts), fun _ => hacts⟩

theorem Task.turns_le {η : Type} {inHandler : η → Nat} {t : Task η} (h : ∀ at_, inHandler at_ ≤ 3) :
    t.turns inHandler ≤ 4 := by
  unfold Task.turns
  split
  next => omega
  next => omega
  next => omega
  next => omega
  next => omega
  next at_ _ =>
    have hle := h at_
    omega

theorem turns_lt (s : System) (t : TaskName) : s.turns t < 8 := by
  have hreturn : ∀ at_, toReturn at_ ≤ 3 := by
    intro at_
    cases at_ <;> decide
  cases t with
  | handle => exact Nat.zero_lt_succ 7
  | decode => exact (Task.turns_le hreturn).trans_lt (by decide)
  | push => exact (Task.turns_le fun _ => by decide).trans_lt (by decide)

theorem ahead_lt (s : System) (b : Option Block) : s.ahead b < 8 := by
  unfold System.ahead
  split
  · exact turns_lt s _
  · exact Nat.zero_lt_succ 7

theorem rank_eq {i : Nat} {c : Call} (hc : s.calls[i]? = some c) :
    s.rank i = 8 * left c.rest + s.ahead c.rest.head? := by
  rw [System.rank, hc]

theorem block_left {b : Block} {rest rest' : List Block} {u : System}
    (h : s.block (b :: rest) = some (u, rest')) : left rest' < left (b :: rest) := by
  have hcons : ∀ b, left (b :: rest) = b.weight + left rest := fun _ => rfl
  obtain ⟨rfl, -⟩ | ⟨rfl, rfl, -⟩ | ⟨t, rfl, rfl⟩ | ⟨t, states, rfl, rfl⟩ := System.block_rest h
  · have hpos : 0 < b.weight := by cases b <;> exact Nat.zero_lt_succ _
    rw [hcons]
    omega
  all_goals
    rw [hcons, hcons]
    exact Nat.add_lt_add_right Nat.one_lt_two _

/-- A call that is to wake up `HandleFrame`, and finds it asleep, does not skip the
notification. -/
theorem block_toWake {b : Block} {rest rest' : List Block} {u : System} (hlistens : Listens s)
    (hasleep : s.asleep = true) (hb : b ≠ .notify)
    (h : s.block (b :: rest) = some (u, rest')) (hwake : (b :: rest).any Block.wakes = true) :
    rest'.any Block.wakes = true := by
  obtain ⟨rfl, hneed⟩ | ⟨rfl, -⟩ | ⟨t, rfl, rfl⟩ | ⟨t, states, rfl, rfl⟩ := System.block_rest h
  · cases b with
    | testNeed =>
      rw [hlistens hasleep] at hneed
      cases hneed rfl
    | notify => exact absurd rfl hb
    | _ => exact hwake
  · rfl
  · exact hwake
  · exact hwake

theorem isSome_call {i : Nat} {c : Call} {b : Block} {rest : List Block}
    (hc : s.calls[i]? = some c) (hrest : c.rest = b :: rest)
    (hblock : (s.block (b :: rest)).isSome = true) : (s.call i).isSome = true := by
  obtain ⟨r, hr⟩ := Option.isSome_iff_exists.mp hblock
  rw [System.call, hc]
  dsimp only
  rw [hrest, hr]
  rfl

/-- The call, or the thread that it waits for, has a block to take. -/
theorem WillWake.ready {i : Nat} (h : WillWake i s) : Ready (helper i s) s := by
  obtain ⟨hsteady, -, c, hc, hwake⟩ := h
  have hmem := List.mem_of_getElem? hc
  rw [helper, next_eq hc]
  cases hrest : c.rest with
  | nil =>
    rw [Call.toWake, hrest] at hwake
    cases hwake
  | cons b rest =>
    have hordered := hrest ▸ hsteady.ordered c hmem
    rw [Call.toWake, hrest, List.any_cons, Bool.or_eq_true] at hwake
    cases b with
    | awaitStopped t =>
      have hsettled := hsteady.settled t
      have hearly := hordered.1 (hwake.resolve_left Bool.false_ne_true)
      dsimp only [List.head?_cons]
      split
      next hzero =>
        refine isSome_call hc hrest ?_
        have hstopped : s.state t = .stopped := by
          cases t with
          | handle => cases hearly
          | decode | push => exact hsettled.mpr (Task.turns_eq_zero.mp hzero)
        rw [System.block, if_pos hstopped]
        rfl
      next hzero =>
        cases t with
        | handle => exact absurd rfl hzero
        | decode | push => exact fun hdead => hzero (Task.turns_dead hdead)
    | awaitState t states => cases hordered.1 (hwake.resolve_left Bool.false_ne_true)
    | _ => exact isSome_call hc hrest rfl

/-- **The call takes its next block, or the thread that it waits for does.** -/
theorem WillWake.step {i : Nat} (h : WillWake i s) (hl : Undisturbed s l)
    (hstep : step s l = some s') :
    s'.asleep = false ∨ WillWake i s' ∧ (s'.rank i < s.rank i ∨
      s'.rank i = s.rank i ∧ helper i s' = helper i s ∧ ¬ Acts (helper i s) s l) := by
  obtain ⟨hsteady, hasleep, c, hc, hwake⟩ := h
  have hsteady' := steady_step hsteady hl hstep
  by_cases hasleep' : s'.asleep = true
  · refine .inr ?_
    obtain ⟨hc', hne⟩ | ⟨b, rest, rest', rfl, hrest, hblock, hc'⟩ :=
      getElem?_calls_step hstep hc
    · refine ⟨⟨hsteady', hasleep', c, hc', hwake⟩, ?_⟩
      rw [rank_eq hc, rank_eq hc', helper, helper, next_eq hc, next_eq hc']
      unfold System.ahead
      split
      next t hhead =>
        obtain hlt | ⟨heq, hidle⟩ := turns_step hsteady hl hstep (List.mem_of_getElem? hc) hhead
        · exact .inl (Nat.add_lt_add_left hlt _)
        · rw [heq]
          refine .inr ⟨rfl, rfl, ?_⟩
          split
          next => exact hne
          next hzero => exact hidle hzero
      next => exact .inr ⟨rfl, rfl, hne⟩
    · have hb : b ≠ .notify := by
        rintro rfl
        obtain ⟨⟨status, heq⟩, -⟩ | ⟨-, -, -, hnot⟩ := asleep_step hstep hasleep'
        · cases heq
        · exact hnot i rfl ((next_eq hc).trans (hrest ▸ rfl))
      rw [Call.toWake, hrest] at hwake
      have hwake' := block_toWake hsteady.listens hasleep hb hblock hwake
      refine ⟨⟨hsteady', hasleep', _, hc', hwake'⟩, .inl ?_⟩
      have hleft := block_left hblock
      have hahead := ahead_lt s' rest'.head?
      rw [rank_eq hc, rank_eq hc', hrest]
      dsimp only
      omega
  · exact .inl (Bool.eq_false_of_not_eq_true hasleep')

theorem willWake_descent (i : Nat) :
    Descent step Undisturbed Ready Acts (WillWake i) (fun s => s.asleep = false)
      (System.rank i) (helper i) :=
  ⟨fun _ h => h.ready, fun _ _ _ h hl hstep => h.step hl hstep⟩

def Lacks (s : System) : Prop :=
  Steady s ∧ s.asleep = true ∧
    ∃ at_, (at_ = .testNeed ∨ at_ = .notify) ∧ s.decodeFrameTask_.loop = .handler at_

theorem Lacks.step (h : Lacks s) (hl : Undisturbed s l) (hstep : step s l = some s') :
    s'.asleep = false ∨ Lacks s' ∧ (s'.turns .decode < s.turns .decode ∨
      s'.turns .decode = s.turns .decode ∧ ¬ Acts .decodeFrame s l) := by
  obtain ⟨hsteady, hasleep, at_, hat, hloop⟩ := h
  have hsteady' := steady_step hsteady hl hstep
  by_cases hasleep' : s'.asleep = true
  · refine .inr ?_
    by_cases hacts : Acts .decodeFrame s l
    · obtain ⟨valid, status, rfl⟩ := hacts
      cases hstep
      obtain rfl | rfl := hat
      · have hneed : s.isNeedQueueInputBuffer_ = false := hsteady.listens hasleep
        have hgoes : (s.decodeFrameBlock valid status).decodeFrameTask_ =
            s.decodeFrameTask_.goto .notify := by
          simp [System.decodeFrameBlock, hloop, hneed]
        refine ⟨⟨hsteady', hasleep', .notify, .inr rfl, congrArg Task.loop hgoes⟩, .inl ?_⟩
        unfold System.turns
        rw [hgoes, Task.turns_handler hloop]
        exact Nat.lt_succ_self 2
      · have hcv : (s.decodeFrameBlock valid status).cv_ = true := by
          simp [System.decodeFrameBlock, hloop]
        obtain ⟨-, -, hnot⟩ := asleep_iff.mp hasleep'
        rw [hcv] at hnot
        cases hnot
    · have hsame : s'.decodeFrameTask_.loop = s.decodeFrameTask_.loop := by
        obtain heq | ⟨i, b, -, -, hawaits, heq⟩ :=
          (touched_step hstep).2.1 fun valid status heq => hacts ⟨valid, status, heq⟩
        · rw [heq]
        · rw [heq, hloop]
          exact (hsteady.settled .decode).does_handler hawaits hloop
      exact ⟨⟨hsteady', hasleep', at_, hat, hsame.trans hloop⟩,
        .inr ⟨Task.turns_congr hsame, hacts⟩⟩
  · exact .inl (Bool.eq_false_of_not_eq_true hasleep')

theorem lacks_descent :
    Descent step Undisturbed Ready Acts Lacks (fun s => s.asleep = false)
      (fun s => s.turns .decode) (fun _ => .decodeFrame) := by
  refine ⟨fun s h => ?_, fun s l t h hl hstep => ?_⟩
  · obtain ⟨-, -, at_, -, hloop⟩ := h
    exact Task.not_dead hloop
  · obtain hgoal | ⟨hlacks, hlt | ⟨heq, hacts⟩⟩ := h.step hl hstep
    · exact .inl hgoal
    · exact .inr ⟨hlacks, .inl hlt⟩
    · exact .inr ⟨hlacks, .inr ⟨heq, rfl, hacts⟩⟩

-- The codec input thread is never stranded

/-- Somebody is to wake up `HandleFrame`: a call that is entered, or that has its test still to
come, or a `DecodeFrame` that gets no data. -/
inductive Wakes (s : System) : Label → Prop
  | enter (name : CallName) : Wakes s (.enter name)
  | underway {l : Label} {c : Call} (hc : c ∈ s.calls) (h : c.toWake = true) : Wakes s l
  | noData (h : s.decodeFrameTask_.loop = .handler .queueOutput) :
    Wakes s (.decodeFrame true .errorNotEnoughData)
  | tests {l : Label} {at_ : DecodeFrame} (hat : at_ = .testNeed ∨ at_ = .notify)
    (h : s.decodeFrameTask_.loop = .handler at_) : Wakes s l

/-- A `HandleFrame` that sleeps is woken up. -/
def Notified (r : Endless step) : Prop :=
  ∀ k, (r.state k).asleep = true → Wakes (r.state k) (r.label k) →
    ∃ m ≥ k, (r.state m).asleep = false

theorem endless_steady {r : Endless step} (h : Steady (r.state 0))
    (hundisturbed : ∀ i, Undisturbed (r.state i) (r.label i)) (i : Nat) : Steady (r.state i) := by
  induction i with
  | zero => exact h
  | succ i ih => exact steady_step ih (hundisturbed i) (r.steps i)

def Comes (s : System) : Prop :=
  (∃ (i : Nat) (c : Call), s.calls[i]? = some c ∧ c.toWake = true) ∨
  ∃ at_, (at_ = .testNeed ∨ at_ = .notify) ∧ s.decodeFrameTask_.loop = .handler at_

theorem Wakes.comes (h : Wakes s l) (hstep : step s l = some s') : Comes s ∨ Comes s' := by
  cases h with
  | enter name =>
    cases hstep
    exact .inr (.inl ⟨s.calls.length, _, List.getElem?_concat_length, name.blocks_toWake⟩)
  | underway hc h =>
    obtain ⟨i, hi⟩ := List.getElem?_of_mem hc
    exact .inl (.inl ⟨i, _, hi, h⟩)
  | noData h =>
    cases hstep
    refine .inr (.inr ⟨.testNeed, .inl rfl, ?_⟩)
    simp [System.decodeFrameBlock, h, Task.goto]
  | tests hat h => exact .inl (.inr ⟨_, hat, h⟩)

theorem Comes.woken {r : Endless step} {k : Nat} (h : Comes (r.state k))
    (hsteady : Steady (r.state k)) (hasleep : (r.state k).asleep = true)
    (hundisturbed : ∀ i, Undisturbed (r.state i) (r.label i)) (hfair : Fair Ready Acts r) :
    ∃ m ≥ k, (r.state m).asleep = false := by
  obtain ⟨i, c, hc, hwake⟩ | hlacks := h
  · exact (willWake_descent i).responds hfair hundisturbed k ⟨hsteady, hasleep, c, hc, hwake⟩
  · exact lacks_descent.responds hfair hundisturbed k ⟨hsteady, hasleep, hlacks⟩

/-- **The codec input thread is not stranded** in the runs that are not disturbed: behind its
test, no call that halts waits for a `HandleFrame` that sleeps, and a `HandleFrame` that sleeps
is woken up by whoever is to. -/
theorem never_stranded (capacity freeBuffers lent : Nat) :
    (∀ labels s, Runs.Along step Undisturbed (configured capacity freeBuffers lent) labels →
      run (configured capacity freeBuffers lent) labels = some s → NotStranded s) ∧
    ∀ r : Endless step, r.state 0 = configured capacity freeBuffers lent →
      (∀ i, Undisturbed (r.state i) (r.label i)) → Fair Ready Acts r → Notified r := by
  refine ⟨fun labels s halong hrun c hc hpast => ?_, fun r hinit hundisturbed hfair => ?_⟩
  · have hkept : Listens s ∧ Clear s := by
      refine Runs.run_invariant (I := fun s => Listens s ∧ Clear s) (fun _ _ _ h hl hstep => ?_) ?_
        halong hrun
      · exact ⟨listens_step h.1 hstep, clear_step h.2 h.1 hl hstep⟩
      · exact ⟨listens_configured capacity freeBuffers lent, nofun⟩
    exact (hkept.2 c hc hpast).2
  · have hsteady := endless_steady (hinit ▸ steady_configured capacity freeBuffers lent)
      hundisturbed
    intro k hasleep hwakes
    obtain hnow | hthen := hwakes.comes (r.steps k)
    · exact hnow.woken (hsteady k) hasleep hundisturbed hfair
    · by_cases hasleep' : (r.state (k + 1)).asleep = true
      · obtain ⟨m, hm, hgoal⟩ := hthen.woken (hsteady (k + 1)) hasleep' hundisturbed hfair
        exact ⟨m, by omega, hgoal⟩
      · exact ⟨k + 1, by omega, Bool.eq_false_of_not_eq_true hasleep'⟩

-- Runs

instance {η : Type} [DecidableEq η] (t : Task η) : Decidable t.Dead :=
  inferInstanceAs (Decidable (_ ∨ _))

instance (c : Call) : Decidable c.stopsDecode := inferInstanceAs (Decidable (_ ∨ _))

instance : ∀ (s : System) (t : TaskName), Decidable (s.beingStopped t)
  | s, .handle => inferInstanceAs (Decidable (s.handleFrameTask_.loop = .ended ∨ _))
  | s, .decode => inferInstanceAs (Decidable (s.decodeFrameTask_.loop = .ended ∨ _))
  | s, .push => inferInstanceAs (Decidable (s.pushTask_.loop = .ended ∨ _))

instance : ∀ (s : System) (name : CallName) (b : Block), Decidable (Allows s name b)
  | s, name, .testNeed => inferInstanceAs (Decidable (name.halts = true →
      s.isNeedQueueInputBuffer_ = true → s.aboutToWait = false))
  | s, name, .notify => inferInstanceAs (Decidable (name.halts = true → s.aboutToWait = false))
  | s, _, .poolActive true => inferInstanceAs (Decidable (∀ c ∈ s.calls, ¬ c.stopsDecode))
  | s, _, .start t => inferInstanceAs (Decidable (¬ s.beingStopped t))
  | _, _, .setStopped _ | _, _, .queueActive _ | _, _, .poolActive false | _, _, .stop _
  | _, _, .awaitStopped _ | _, _, .pause _ | _, _, .awaitState _ _ | _, _, .pauseAsync _ =>
    isTrue trivial

instance : ∀ (s : System) (l : Label), Decidable (Undisturbed s l)
  | s, .handleFrame _ => inferInstanceAs (Decidable (s.refused = true → s.stopped_ = false →
      ∀ c ∈ s.calls, c.past = false))
  | s, .call i =>
    inferInstanceAs (Decidable (∀ c ∈ s.calls[i]?, ∀ b ∈ c.rest.head?, Allows s c.name b))
  | _, .decodeFrame _ _ | _, .finishFrame | _, .pushData _ | _, .recycle | _, .enter _ =>
    isTrue trivial

instance (s : System) : Decidable (NotStranded s) :=
  inferInstanceAs (Decidable (∀ c ∈ s.calls, c.past = true → s.asleep = false))

/-- No thread has a block to take. -/
structure Quiet (s : System) : Prop where
  handle : s.handleFrameTask_.Dead ∨ s.asleep = true
  decode : s.decodeFrameTask_.Dead
  push : s.pushTask_.Dead
  calls : ∀ i < s.calls.length, (s.call i).isSome = false

theorem Quiet.not_ready (h : Quiet s) (t : Helper) : ¬ Ready t s := by
  cases t with
  | handleFrame =>
    rintro ⟨halive, hawake⟩
    obtain hdead | hasleep := h.handle
    · exact halive hdead
    · rw [hawake] at hasleep
      cases hasleep
  | decodeFrame => exact fun halive => halive h.decode
  | finishFrame => exact fun halive => halive h.push
  | call i =>
    intro hready
    by_cases hi : i < s.calls.length
    · rw [Ready, h.calls i hi] at hready
      cases hready
    · have hnone : s.calls[i]? = none := List.getElem?_eq_none (by omega)
      rw [Ready, System.call, hnone] at hready
      cases hready

theorem Quiet.finishFrameBlock (h : Quiet s) : s.finishFrameBlock = s := by
  have hpush := finishFrameBlock_dead h.push
  obtain ⟨pushTask_, heq, -⟩ := s.finishFrameBlock_goes
  rw [heq] at hpush ⊢
  dsimp only at hpush
  rw [hpush]

def idle (s : System) : Endless step :=
  .iterate System.finishFrameBlock .finishFrame (fun _ => rfl) s

theorem idle_state (h : Quiet s) (i : Nat) : (idle s).state i = s :=
  Endless.iterate_keeps (P := (· = s)) (fun _ heq => heq ▸ h.finishFrameBlock) rfl i

theorem idle_fair (h : Quiet s) : Fair Ready Acts (idle s) :=
  .of_never fun t i => by
    rw [idle_state h]
    exact h.not_ready t

def buffer : AsyncMode.AVBuffer := ⟨0, 0, 0⟩

/-- `HandleFrame` is to sleep on a buffer that the plug-in has not taken. -/
def toSleep : List Label :=
  [.pushData buffer, .handleFrame .ok, .handleFrame .ok, .handleFrame .errorAgain,
    .handleFrame .ok]

def stopUpToTest : List Label :=
  [.enter .stop, .call 0, .call 0, .call 0, .decodeFrame true .ok, .decodeFrame true .ok, .call 0,
    .call 0, .finishFrame, .finishFrame, .call 0, .call 0]

def stopWakes : List Label :=
  toSleep ++ ([.handleFrame .ok] : List Label) ++ stopUpToTest ++
    ([.call 0, .call 0, .handleFrame .ok, .handleFrame .errorAgain, .handleFrame .ok,
      .handleFrame .ok, .call 0, .handleFrame .ok, .call 0] : List Label)

theorem never_stranded_stopWakes :
    (∃ s, run (configured 1 1 0) stopWakes = some s ∧ NotStranded s) ∧
      ∃ r : Endless step, r.state 0 = configured 1 1 0 ∧ Notified r := by
  obtain ⟨hsafe, hnotified⟩ := never_stranded 1 1 0
  obtain ⟨s, hrun, hquiet⟩ : ∃ s, run (configured 1 1 0) stopWakes = some s ∧ Quiet s :=
    ⟨_, rfl, by decide, by decide, by decide, by decide⟩
  have halong : Runs.Along step Undisturbed (configured 1 1 0) stopWakes := by decide
  refine ⟨⟨s, hrun, hsafe _ s halong hrun⟩, ?_⟩
  obtain ⟨r, hinit, hundisturbed, htail⟩ :=
    exists_prepend (r := idle s) (fun _ => trivial) hrun halong
  exact ⟨r, hinit, hnotified r hinit hundisturbed ((idle_fair hquiet).of_tail _ htail)⟩

/-- `HandleFrame` goes to sleep right after the test of `Stop`. -/
def stopTooEarly : List Label :=
  toSleep ++ stopUpToTest ++ [.call 0, .call 0, .handleFrame .ok]

theorem stop_waits_forever :
    (∃ s, run (configured 1 1 0) stopTooEarly = some s ∧ ¬ NotStranded s) ∧
    ∃ r : Endless step, r.state 0 = configured 1 1 0 ∧ Fair Ready Acts r ∧
      ∃ n, ∀ i ≥ n, (r.state i).asleep = true ∧
        (r.state i).calls = [⟨.stop, [.awaitStopped .handle]⟩] := by
  refine ⟨⟨_, rfl, by decide⟩, ?_⟩
  obtain ⟨s, hrun, hquiet, hasleep, hcalls⟩ :
      ∃ s, run (configured 1 1 0) stopTooEarly = some s ∧ Quiet s ∧ s.asleep = true ∧
        s.calls = [⟨.stop, [.awaitStopped .handle]⟩] :=
    ⟨_, rfl, ⟨by decide, by decide, by decide, by decide⟩, rfl, rfl⟩
  have halong : Runs.Along step (fun _ _ => True) (configured 1 1 0) stopTooEarly :=
    Runs.along_of_forall_mem (fun _ _ _ => trivial) _
  obtain ⟨r, hinit, -, htail⟩ :=
    exists_prepend (r := idle s) (fun _ => trivial) hrun halong
  refine ⟨r, hinit, (idle_fair hquiet).of_tail _ htail, stopTooEarly.length, fun i hi => ?_⟩
  obtain ⟨k, rfl⟩ := Nat.exists_eq_add_of_le' hi
  rw [(htail k).1, idle_state hquiet]
  exact ⟨hasleep, hcalls⟩

end MediaFoundation.AsyncWake
