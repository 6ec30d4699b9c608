import MediaFoundation.Codec.AsyncSleep

/-!
# The tasks that `Stop` waits for

Before it tests the flag, `Stop` waits for the tasks of `DecodeFrame` and
`FinishFrame`.
-/

namespace MediaFoundation.AsyncWake

variable {s s' : System} {l : Label}

-- The tasks

namespace Task

variable {η : Type} {first : η} {t t' : Task η}

def Settled (t : Task η) : Prop := t.runningState_ = .stopped ↔ t.Dead

def Ending (t : Task η) : Prop := t.runningState_ = .stopping ∨ t.runningState_ = .stopped

theorem not_dead {at_ : η} (h : t.loop = .handler at_) : ¬ t.Dead := by
  rintro (hnone | hended)
  · rw [h] at hnone
    cases hnone
  · rw [h] at hended
    cases hended

theorem Settled.lookStopped (h : t.runningState_ ≠ .stopped) : t.lookStopped.Settled := by
  unfold Task.lookStopped
  split
  · exact ⟨fun _ => .inr rfl, fun _ => rfl⟩
  · exact ⟨fun heq => absurd heq h, nofun⟩

/-- The state of a task whose thread goes on may be any but `STOPPED`. -/
theorem settled_alive (hstate : t.runningState_ ≠ .stopped) (hloop : ¬ t.Dead) : t.Settled :=
  ⟨fun heq => absurd heq hstate, fun heq => absurd heq hloop⟩

theorem pause_state : t.pause.runningState_ = .stopped ↔ t.runningState_ = .stopped := by
  unfold pause
  split
  next h => simp [h]
  next => exact Iff.rfl

theorem Settled.goes (h : t.Settled) (hgoes : t.Goes first t') : t'.Settled := by
  have hstate : ∀ at_, t.loop = .handler at_ → t.runningState_ ≠ .stopped :=
    fun at_ hloop heq => not_dead hloop (h.mp heq)
  cases hgoes with
  | turn =>
    unfold turn
    split
    next => exact h
    next => exact h
    next => exact h
    next hloop =>
      refine settled_alive (fun heq => ?_) ?_
      · obtain hdead | hdead := h.mp heq <;> rw [hloop] at hdead <;> cases hdead
      · dsimp only [Dead]
        split <;> nofun
    next hloop =>
      split
      · exact settled_alive nofun nofun
      · refine .lookStopped fun heq => ?_
        obtain hdead | hdead := h.mp heq <;> rw [hloop] at hdead <;> cases hdead
    next hloop =>
      refine .lookStopped fun heq => ?_
      obtain hdead | hdead := h.mp heq <;> rw [hloop] at hdead <;> cases hdead
  | goto at_ next hloop | leave at_ hloop => exact settled_alive (hstate at_ hloop) nofun
  | pauseLeave at_ hloop =>
    exact settled_alive (fun heq => hstate at_ hloop (pause_state.mp heq)) nofun

theorem Ending.not_started (h : t.Ending) : t.runningState_ ≠ .started := by
  obtain h | h := h
  all_goals
    rw [h]
    nofun

theorem Ending.lookStopped (h : t.Ending) : t.lookStopped = ⟨.stopped, .ended⟩ := if_pos h

theorem Ending.not_pausing (h : t.Ending) :
    ¬ (t.runningState_ = .pausing ∨ t.runningState_ = .paused) := by
  obtain h | h := h
  all_goals
    rw [h]
    nofun

theorem Ending.pause (h : t.Ending) : t.pause = t := if_neg h.not_started

theorem Ending.goes (h : t.Ending) (hgoes : t.Goes first t') : t'.Ending := by
  cases hgoes with
  | turn =>
    unfold turn
    split
    next => exact h
    next => exact h
    next => exact h
    next => exact h
    next =>
      rw [if_neg h.not_pausing, h.lookStopped]
      exact .inr rfl
    next =>
      rw [h.lookStopped]
      exact .inr rfl
  | goto at_ next hloop | leave at_ hloop => exact h
  | pauseLeave at_ hloop =>
    rw [h.pause]
    exact h

/-- How many blocks the thread of a task that has been stopped still takes. -/
def turns (inHandler : η → Nat) (t : Task η) : Nat :=
  match t.loop with
  | .none | .ended => 0
  | .locking | .parked => 1
  | .top => 2
  | .handler at_ => 1 + inHandler at_

theorem turns_congr {inHandler : η → Nat} (h : t'.loop = t.loop) :
    t'.turns inHandler = t.turns inHandler := by
  rw [turns, turns, h]

theorem turns_dead {inHandler : η → Nat} (h : t.Dead) : t.turns inHandler = 0 := by
  obtain h | h := h
  all_goals rw [turns, h]

/-- A task that has been stopped ends, once its handler has returned. -/
theorem Ending.turn_turns {inHandler : η → Nat} (h : t.Ending) (halive : ¬ t.Dead)
    (hloop : ∀ at_, t.loop ≠ .handler at_) :
    (t.turn first).turns inHandler < t.turns inHandler := by
  unfold turn
  split
  next heq => exact absurd (.inl heq) halive
  next heq => exact absurd (.inr heq) halive
  next at_ heq => exact absurd heq (hloop at_)
  next heq =>
    rw [if_neg h.not_started, turns, turns, heq]
    exact Nat.one_lt_two
  next heq =>
    rw [if_neg h.not_pausing, h.lookStopped, turns, turns, heq]
    exact Nat.zero_lt_one
  next heq =>
    rw [h.lookStopped, turns, turns, heq]
    exact Nat.zero_lt_one

theorem start_alive (h : t.loop ≠ .ended) : ¬ t.start.Dead := by
  unfold start Dead
  cases hloop : t.loop with
  | ended => exact absurd hloop h
  | _ => simp

theorem Settled.stop (h : t.Settled) : t.stop.Settled := by
  unfold Task.stop
  split
  next => exact h
  next hstate => exact settled_alive nofun fun hdead => hstate (h.mpr hdead)

theorem stop_ending : t.stop.Ending := by
  unfold stop
  split
  next hstate => exact .inr hstate
  next => exact .inl rfl

end Task

section Touched

variable {η : Type} {task task' : Task η} {t : TaskName} {b : Block}

theorem Task.Settled.does (h : task.Settled) (hstart : b = .start t → task.loop ≠ .ended)
    (hawaits : b = .awaitStopped t → task.runningState_ = .stopped) : (b.does t task).Settled := by
  cases b with
  | setStopped | queueActive | poolActive | testNeed | notify | awaitState => exact h
  | start u =>
    rw [Block.does]
    split
    next heq =>
      refine Task.settled_alive (fun hstopped => ?_) (Task.start_alive (hstart (heq ▸ rfl)))
      cases hstopped
    next => exact h
  | stop u =>
    rw [Block.does]
    split
    · exact h.stop
    · exact h
  | pause u | pauseAsync u =>
    rw [Block.does]
    split
    · exact Task.pause_state.trans (h.trans (by rw [Task.Dead, Task.Dead, Task.pause_loop]))
    · exact h
  | awaitStopped u =>
    rw [Block.does]
    split
    next heq => exact ⟨fun _ => .inl rfl, fun _ => hawaits (heq ▸ rfl)⟩
    next => exact h

theorem Task.Ending.does (h : task.Ending) (hstart : b ≠ .start t) : (b.does t task).Ending := by
  cases b with
  | setStopped | queueActive | poolActive | testNeed | notify | awaitState => exact h
  | start u =>
    rw [Block.does, if_neg fun heq => hstart (congrArg Block.start heq)]
    exact h
  | stop u =>
    rw [Block.does]
    split
    · exact Task.stop_ending
    · exact h
  | pause u | pauseAsync u =>
    rw [Block.does]
    split
    · exact h.pause.symm ▸ h
    · exact h
  | awaitStopped u =>
    rw [Block.does]
    split
    · exact h
    · exact h

theorem Task.Settled.does_turns {inHandler : η → Nat} (h : task.Settled) (hstart : b ≠ .start t)
    (hawaits : b = .awaitStopped t → task.runningState_ = .stopped) :
    (b.does t task).turns inHandler = task.turns inHandler := by
  cases b with
  | setStopped | queueActive | poolActive | testNeed | notify | awaitState => rfl
  | start u => rw [Block.does, if_neg fun heq => hstart (congrArg Block.start heq)]
  | stop u =>
    rw [Block.does]
    split
    · exact Task.turns_congr Task.stop_loop
    · rfl
  | pause u | pauseAsync u =>
    rw [Block.does]
    split
    · exact Task.turns_congr Task.pause_loop
    · rfl
  | awaitStopped u =>
    rw [Block.does]
    split
    next heq =>
      rw [Task.turns_dead (h.mp (hawaits (heq ▸ rfl))), Task.turns_dead (.inl rfl)]
    next => rfl

theorem Task.Settled.does_handler {at_ : η} (h : task.Settled)
    (hawaits : b = .awaitStopped t → task.runningState_ = .stopped)
    (hloop : task.loop = .handler at_) : (b.does t task).loop = .handler at_ := by
  cases b with
  | setStopped | queueActive | poolActive | testNeed | notify | awaitState => exact hloop
  | start u =>
    rw [Block.does]
    split
    · exact Task.start_handler.mpr hloop
    · exact hloop
  | stop u =>
    rw [Block.does]
    split
    · exact Task.stop_loop.trans hloop
    · exact hloop
  | pause u | pauseAsync u =>
    rw [Block.does]
    split
    · exact Task.pause_loop.trans hloop
    · exact hloop
  | awaitStopped u =>
    rw [Block.does]
    split
    next heq => exact absurd (h.mp (hawaits (heq ▸ rfl))) (Task.not_dead hloop)
    next => exact hloop

end Touched

-- The blocks of a call

theorem CallName.blocks_head (name : CallName) :
    name.blocks.head? ≠ some (.stop .decode) ∧ ∀ t, name.blocks.head? ≠ some (.awaitStopped t) := by
  cases name with
  | outputDone eos => cases eos <;> exact ⟨nofun, nofun⟩
  | _ => exact ⟨nofun, nofun⟩

/-- What a call may do before it tests the flag. -/
def Block.early : Block → Bool
  | .pause _ | .awaitState _ _ | .stop .handle | .awaitStopped .handle => false
  | _ => true

def Ordered : List Block → Prop
  | [] => True
  | b :: rest =>
    (rest.any Block.wakes = true → b.early = true) ∧
    (match rest.head? with
      | some (.stop .decode) => b = .poolActive false
      | some (.awaitStopped _) => False
      | _ => True) ∧
    Ordered rest

theorem CallName.blocks_ordered (name : CallName) : Ordered name.blocks := by
  cases name with
  | outputDone eos => cases eos <;> simp [CallName.blocks, Ordered, Block.wakes, Block.early]
  | _ => simp [CallName.blocks, Ordered, Block.wakes, Block.early]

theorem Ordered.not_awaitStopped {b : Block} {rest : List Block} {t : TaskName}
    (h : Ordered (b :: rest)) : rest.head? ≠ some (.awaitStopped t) := by
  intro hhead
  have hnot := h.2.1
  rw [hhead] at hnot
  exact hnot

theorem Ordered.stop_decode {b : Block} {rest : List Block} (h : Ordered (b :: rest))
    (hhead : rest.head? = some (.stop .decode)) : b = .poolActive false := by
  have heq := h.2.1
  rw [hhead] at heq
  exact heq

theorem Ordered.waits {b b' : Block} {rest : List Block} (h : Ordered (b :: rest))
    (hearly : b.early = true → b'.early = true) (hb : b ≠ .poolActive false) :
    Ordered (b' :: rest) := by
  obtain ⟨hbefore, hhead, hrest⟩ := h
  refine ⟨fun hwake => hearly (hbefore hwake), ?_, hrest⟩
  split at hhead
  next => exact absurd hhead hb
  next => exact hhead.elim
  next => trivial

theorem Ordered.block {b : Block} {rest rest' : List Block} {u : System}
    (h : Ordered (b :: rest)) (hblock : s.block (b :: rest) = some (u, rest')) :
    Ordered rest' := by
  obtain ⟨rfl, -⟩ | ⟨rfl, rfl, -⟩ | ⟨t, rfl, rfl⟩ | ⟨t, states, rfl, rfl⟩ :=
    System.block_rest hblock
  · exact h.2.2
  · exact h.waits (fun _ => rfl) nofun
  · refine h.waits (fun hearly => ?_) nofun
    cases t with
    | handle => cases hearly
    | decode | push => rfl
  · exact h.waits (fun hearly => hearly) nofun

-- What a run keeps

structure Steady (s : System) : Prop where
  listens : Listens s
  ordered : ∀ c ∈ s.calls, Ordered c.rest
  settled : ∀ t, s.ofTask Task.Settled t
  ending : ∀ c ∈ s.calls, ∀ t, c.rest.head? = some (.awaitStopped t) → s.ofTask Task.Ending t
  /-- `DecodeFrame` does not wait for a buffer then. -/
  pool : ∀ c ∈ s.calls, c.stopsDecode → s.outBufPool_.isActive_ = false

theorem steady_configured (capacity freeBuffers lent : Nat) :
    Steady (configured capacity freeBuffers lent) where
  listens := listens_configured capacity freeBuffers lent
  ordered := nofun
  settled t := by cases t <;> exact Task.settled_alive nofun nofun
  ending := nofun
  pool := nofun

theorem Undisturbed.head {i : Nat} (h : Undisturbed s (.call i)) {b : Block}
    (hnext : s.next i = some b) :
    (b = .poolActive true → ∀ d ∈ s.calls, ¬ d.stopsDecode) ∧
      ∀ t, b = .start t → ¬ s.beingStopped t := by
  obtain ⟨c, hc, hhead⟩ := Option.bind_eq_some_iff.mp hnext
  have hallows := h c hc b hhead
  constructor
  · rintro rfl
    exact hallows
  · rintro t rfl
    exact hallows

theorem settled_step {t : TaskName} (h : s.ofTask Task.Settled t) (hl : Undisturbed s l)
    (hstep : step s l = some s') : s'.ofTask Task.Settled t := by
  have hended : s.ofTask (fun task => task.loop = .ended → s.beingStopped t) t := by
    cases t <;> exact fun hloop => .inl hloop
  have hboth : s.ofTask
      (fun task => task.Settled ∧ (task.loop = .ended → s.beingStopped t)) t := by
    cases t <;> exact ⟨h, hended⟩
  refine ofTask_step hstep (fun hgoes hbefore => hbefore.1.goes hgoes) ?_ hboth
  rintro η task task' (rfl | ⟨i, b, rfl, hnext, hawaits, rfl⟩) ⟨hsettled, hbeing⟩
  · exact hsettled
  · exact hsettled.does (fun hb hloop => (hl.head hnext).2 t hb (hbeing hloop)) hawaits

theorem ending_step {t : TaskName} (h : s.ofTask Task.Ending t) (hl : Undisturbed s l)
    (hawaited : s.beingStopped t) (hstep : step s l = some s') : s'.ofTask Task.Ending t := by
  refine ofTask_step hstep (fun hgoes hbefore => hbefore.goes hgoes) ?_ h
  rintro η task task' (rfl | ⟨i, b, rfl, hnext, -, rfl⟩) hending
  · exact hending
  · exact hending.does fun hb => (hl.head hnext).2 t hb hawaited

theorem steady_step (h : Steady s) (hl : Undisturbed s l) (hstep : step s l = some s') :
    Steady s' where
  listens := listens_step h.listens hstep
  settled t := settled_step (h.settled t) hl hstep
  ordered := by
    intro c hc
    obtain hc | ⟨name, rfl⟩ | ⟨i, d, b, rest, calls, rfl, hd, -, hrest, hblock, rfl⟩ :=
      mem_calls_step hstep hc
    · exact h.ordered c hc
    · exact name.blocks_ordered
    · exact (hrest ▸ h.ordered d (List.mem_of_getElem? hd)).block hblock
  ending := by
    intro c hc t hhead
    obtain hc | ⟨name, rfl⟩ | ⟨i, d, b, rest, calls, rfl, hd, -, hrest, hblock, rfl⟩ :=
      mem_calls_step hstep hc
    · exact ending_step (h.ending c hc t hhead) hl (.inr ⟨c, hc, hhead⟩) hstep
    · exact absurd hhead (name.blocks_head.2 t)
    · obtain ⟨heq, -⟩ | ⟨heq, -⟩ | ⟨t', heq, rfl⟩ | ⟨t', states, heq, -⟩ := System.block_rest hblock
      · have hordered := hrest ▸ h.ordered d (List.mem_of_getElem? hd)
        exact (hordered.not_awaitStopped (heq ▸ hhead)).elim
      · rw [heq] at hhead
        cases hhead
      · rw [heq] at hhead
        obtain rfl := Block.awaitStopped.inj (Option.some.inj hhead)
        cases t' <;> exact Task.stop_ending
      · rw [heq] at hhead
        cases hhead
  pool := by
    intro c hc hstops
    obtain hc | ⟨name, rfl⟩ | ⟨i, d, b, rest, calls, rfl, hd, -, hrest, hblock, rfl⟩ :=
      mem_calls_step hstep hc
    · have hbefore := h.pool c hc hstops
      obtain heq | ⟨i, rfl, hnext⟩ := pool_step hstep
      · exact heq.trans hbefore
      · refine Bool.eq_false_of_not_eq_true fun hactive => ?_
        exact (hl.head hnext).1 (congrArg Block.poolActive hactive) c hc hstops
    · obtain hhead | hhead := hstops
      · exact absurd hhead name.blocks_head.1
      · exact absurd hhead (name.blocks_head.2 _)
    · obtain ⟨heq, -⟩ | ⟨heq, -⟩ | ⟨t, heq, rfl⟩ | ⟨t, states, heq, -⟩ := System.block_rest hblock
      · have hordered := hrest ▸ h.ordered d (List.mem_of_getElem? hd)
        rw [Call.stopsDecode, heq] at hstops
        obtain hhead | hhead := hstops
        · obtain rfl := hordered.stop_decode hhead
          rfl
        · exact absurd hhead hordered.not_awaitStopped
      · rw [Call.stopsDecode, heq] at hstops
        obtain hhead | hhead := hstops <;> cases hhead
      · rw [Call.stopsDecode, heq] at hstops
        obtain hhead | hhead := hstops
        · cases hhead
        · obtain rfl := Block.awaitStopped.inj (Option.some.inj hhead)
          obtain hsame | hactive := s.effect_pool (.stop .decode)
          · exact hsame.trans (h.pool d (List.mem_of_getElem? hd) (.inl (hrest ▸ rfl)))
          · cases hactive
      · rw [Call.stopsDecode, heq] at hstops
        obtain hhead | hhead := hstops <;> cases hhead

end MediaFoundation.AsyncWake
