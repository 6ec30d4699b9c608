import MediaFoundation.Lib.Fifo
import MediaFoundation.Lib.Runs
import MediaFoundation.Lib.Waiters

/-!
# BlockingQueue

`osal/task/blocking_queue.h`. The older copy under `engine` is the same with a
constant capacity, so its runs are those without `ResetCapacity`.

Conventions:

* An event is what one thread does while it holds `mutex_`. A thread that waits
  has given the mutex up; it is resumed when it has been notified, when its time
  is over, or for no reason.
* `ResetCapacity` notifies after it has released the mutex: `resetNotify`.
* `WaitFor` with a negative timeout returns at once.
* `pushed`, `popped` and `dropped` only record what happens: the elements whose
  `Push` returned true, with what the queue held then, the elements that `Pop`
  returned, and those that were cleared away.
-/

namespace MediaFoundation.BlockingQueue

variable {α : Type*}

structure Producer (α : Type*) where
  value : α
  timed : Bool

structure Consumer where
  timed : Bool

structure Pushed (α : Type*) where
  element : α
  held : Nat
  capacity : Nat
deriving DecidableEq

structure State (α : Type*) where
  que : List α := []
  capacity : Nat
  isActive : Bool := true
  cvFull : Waiters (Producer α) := []
  cvEmpty : Waiters Consumer := []
  /-- The calls of `ResetCapacity` that have not notified yet. -/
  resets : Nat := 0
  pushed : List (Pushed α) := []
  popped : List α := []
  dropped : List α := []

def init (capacity : Nat) : State α := { capacity }

/-- What blocked producers wait for. -/
def State.mayPush (s : State α) : Bool := !s.isActive || decide (s.que.length < s.capacity)

/-- What blocked consumers wait for. -/
def State.mayPop (s : State α) : Bool := !s.isActive || !s.que.isEmpty

-- Push

/-- `que_.push` and the notification of all consumers. -/
def enqueue (s : State α) (value : α) : State α :=
  { s with
    que := s.que ++ [value]
    cvEmpty := s.cvEmpty.notifyAll
    pushed := s.pushed ++ [⟨value, s.que.length, s.capacity⟩] }

/-- The end of `Push`. Only the one with a timeout looks at the size again. -/
def finishPush (s : State α) (p : Producer α) : State α :=
  if !s.isActive || (p.timed && decide (s.que.length = s.capacity)) then s else enqueue s p.value

def push (s : State α) (value : α) (timeoutMs : Option Int) : State α :=
  let p : Producer α := ⟨value, timeoutMs.isSome⟩
  if !s.isActive then s
  else if s.capacity ≤ s.que.length then
    match timeoutMs with
    | some t => if t < 0 then finishPush s p else { s with cvFull := s.cvFull.sleep p }
    | none => { s with cvFull := s.cvFull.sleep p }
  else finishPush s p

/-- The `i`-th blocked producer has the mutex again. -/
def resumePush (s : State α) (i : Nat) (timedOut : Bool) : Option (State α) :=
  s.cvFull[i]?.bind fun w =>
    if timedOut && !w.thread.timed then none
    else if timedOut || s.mayPush then
      some (finishPush { s with cvFull := s.cvFull.eraseIdx i } w.thread)
    else some { s with cvFull := s.cvFull.resume i w.thread }

-- Pop

/-- `que_.pop` and the notification of one producer. -/
def dequeue (s : State α) (element : α) (k : Nat) : State α :=
  { s with
    que := s.que.tail
    cvFull := s.cvFull.notifyOne k
    popped := s.popped ++ [element] }

/-- The end of `Pop`. The front of an empty queue is undefined. -/
def finishPop (s : State α) (c : Consumer) (k : Nat) : Option (State α) :=
  if !s.isActive then some s
  else match s.que with
    | [] => if c.timed then some s else none
    | element :: _ => some (dequeue s element k)

def pop (s : State α) (timeoutMs : Option Int) (k : Nat) : Option (State α) :=
  let c : Consumer := ⟨timeoutMs.isSome⟩
  if !s.isActive then some s
  else if s.que.isEmpty then
    match timeoutMs with
    | some t => if t < 0 then finishPop s c k else some { s with cvEmpty := s.cvEmpty.sleep c }
    | none => some { s with cvEmpty := s.cvEmpty.sleep c }
  else finishPop s c k

def resumePop (s : State α) (i : Nat) (timedOut : Bool) (k : Nat) : Option (State α) :=
  s.cvEmpty[i]?.bind fun w =>
    if timedOut && !w.thread.timed then none
    else if timedOut || s.mayPop then
      finishPop { s with cvEmpty := s.cvEmpty.eraseIdx i } w.thread k
    else some { s with cvEmpty := s.cvEmpty.resume i w.thread }

-- Clear, SetActive and ResetCapacity

def clearUnprotected (s : State α) (k : Nat) : State α :=
  if s.que.isEmpty then s
  else
    let s' := { s with que := [], dropped := s.dropped ++ s.que }
    if s.que.length = s.capacity then { s' with cvFull := s.cvFull.notifyOne k } else s'

def setActive (s : State α) (active cleanData : Bool) (kFull kEmpty : Nat) : State α :=
  let s := { s with isActive := active }
  if active then s
  else
    let s := if cleanData then clearUnprotected s kFull else s
    { s with cvEmpty := s.cvEmpty.notifyOne kEmpty }

def resetCapacity (s : State α) (capacity : Nat) : State α :=
  { s with capacity, resets := s.resets + 1 }

def resetNotify (s : State α) : Option (State α) :=
  if s.resets = 0 then none
  else some { s with resets := s.resets - 1, cvEmpty := s.cvEmpty.notifyAll }

-- Any interleaving

/-- The numbers `k` say which of the sleeping threads a notification reaches. -/
inductive Event (α : Type*) where
  | push (value : α) (timeoutMs : Option Int)
  | resumePush (i : Nat) (timedOut : Bool)
  | pop (timeoutMs : Option Int) (k : Nat)
  | resumePop (i : Nat) (timedOut : Bool) (k : Nat)
  | clear (k : Nat)
  | setActive (active cleanData : Bool) (kFull kEmpty : Nat)
  | resetCapacity (capacity : Nat)
  | resetNotify

def step (s : State α) : Event α → Option (State α)
  | .push value timeoutMs => some (push s value timeoutMs)
  | .resumePush i timedOut => resumePush s i timedOut
  | .pop timeoutMs k => pop s timeoutMs k
  | .resumePop i timedOut k => resumePop s i timedOut k
  | .clear k => some (clearUnprotected s k)
  | .setActive active cleanData kFull kEmpty => some (setActive s active cleanData kFull kEmpty)
  | .resetCapacity capacity => some (resetCapacity s capacity)
  | .resetNotify => resetNotify s

end MediaFoundation.BlockingQueue
