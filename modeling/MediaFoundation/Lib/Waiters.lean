import Mathlib

/-!
# Threads that wait for a condition variable

The threads that wait for one condition variable, in any order, each with what
it waits for and whether it has been notified since. A notified thread still
counts as waiting until it has taken the mutex again.

`notifyOne` notifies a thread that sleeps, which one is up to its argument. Only
the numbers matter to its users: `asleep_notifyOne`, `awake_notifyOne`.
-/

variable {ω : Type*}

structure Waiter (ω : Type*) where
  thread : ω
  notified : Bool
deriving DecidableEq

abbrev Waiters (ω : Type*) := List (Waiter ω)

namespace Waiters

def asleep (ws : Waiters ω) : Nat := ws.countP fun w => !w.notified

def awake (ws : Waiters ω) : Nat := ws.countP Waiter.notified

def sleep (ws : Waiters ω) (thread : ω) : Waiters ω := ws ++ [⟨thread, false⟩]

def notifyAll (ws : Waiters ω) : Waiters ω := ws.map fun w => { w with notified := true }

/-- Notifies the `k`-th thread that sleeps, or the last one. -/
def notifyOne : Nat → Waiters ω → Waiters ω
  | _, [] => []
  | k, w :: ws =>
    if w.notified then w :: notifyOne k ws
    else if k = 0 ∨ asleep ws = 0 then { w with notified := true } :: ws
    else w :: notifyOne (k - 1) ws

def resume (ws : Waiters ω) (i : Nat) (thread : ω) : Waiters ω := ws.set i ⟨thread, false⟩

section Counts

variable {ws : Waiters ω}

theorem asleep_cons (w : Waiter ω) (ws : Waiters ω) :
    asleep (w :: ws) = asleep ws + if w.notified then 0 else 1 := by
  unfold asleep
  rw [List.countP_cons]
  cases w.notified <;> rfl

theorem awake_cons (w : Waiter ω) (ws : Waiters ω) :
    awake (w :: ws) = awake ws + if w.notified then 1 else 0 := by
  unfold awake
  rw [List.countP_cons]

theorem asleep_add_awake (ws : Waiters ω) : asleep ws + awake ws = ws.length := by
  induction ws with
  | nil => rfl
  | cons w ws ih =>
    rw [asleep_cons, awake_cons, List.length_cons]
    split <;> omega

@[simp] theorem length_notifyOne (k : Nat) (ws : Waiters ω) :
    (notifyOne k ws).length = ws.length := by
  induction ws generalizing k with
  | nil => rfl
  | cons w ws ih =>
    rw [notifyOne]
    split
    next => rw [List.length_cons, ih, List.length_cons]
    next =>
      split
      next => rfl
      next => rw [List.length_cons, ih, List.length_cons]

@[simp] theorem asleep_notifyAll (ws : Waiters ω) : asleep (notifyAll ws) = 0 := by
  rw [asleep, List.countP_eq_zero]
  intro w hw
  obtain ⟨v, -, rfl⟩ := List.mem_map.mp hw
  exact Bool.false_ne_true

@[simp] theorem asleep_notifyOne (k : Nat) (ws : Waiters ω) :
    asleep (notifyOne k ws) = asleep ws - 1 := by
  induction ws generalizing k with
  | nil => rfl
  | cons w ws ih =>
    rw [notifyOne, asleep_cons w ws]
    split
    next hw => rw [asleep_cons, ih, if_pos hw]; rfl
    next hw =>
      split
      next => rw [asleep_cons]; rfl
      next hk =>
        rw [asleep_cons, ih, if_neg hw]
        omega

@[simp] theorem awake_notifyOne (k : Nat) (ws : Waiters ω) :
    awake (notifyOne k ws) = awake ws + min 1 (asleep ws) := by
  induction ws generalizing k with
  | nil => rfl
  | cons w ws ih =>
    rw [notifyOne, asleep_cons w ws, awake_cons w ws]
    split
    next hw =>
      rw [awake_cons, ih, if_pos hw]
      omega
    next hw =>
      split
      next =>
        rw [awake_cons, if_pos rfl]
        omega
      next hk =>
        rw [awake_cons, ih, if_neg hw]
        omega

/-- A thread that leaves was not needed among the sleeping ones. -/
theorem asleep_eraseIdx (ws : Waiters ω) (i : Nat) : asleep (ws.eraseIdx i) ≤ asleep ws :=
  (List.eraseIdx_sublist ws i).countP_le

theorem awake_eraseIdx (ws : Waiters ω) (i : Nat) : awake ws ≤ awake (ws.eraseIdx i) + 1 := by
  induction ws generalizing i with
  | nil => exact Nat.zero_le _
  | cons w ws ih =>
    cases i with
    | zero =>
      rw [List.eraseIdx_zero, List.tail_cons, awake_cons]
      split <;> omega
    | succ i =>
      rw [List.eraseIdx_cons_succ, awake_cons, awake_cons]
      have := ih i
      omega

end Counts

end Waiters
