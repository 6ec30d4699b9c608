import MediaFoundation.Lib.Runs

/-!
# AVSharedMemoryPool

The pool of shared memory blocks (`avsharedmemorypool.cpp`), as the blocks of
code that hold its mutex. `AcquireMemory` is one block up to its wait and one
for each time it goes on.

Conventions:

* A memory block is its address and its size. `live` are the addresses of the
  blocks that exist, which is what `new` and `delete` change.
* `AllocMemory` is given what the system makes of it: no block, or an address.
  An address that is taken is none that `new` returns, so it counts as no block.
* `flags` and the callback `notifier_` are left out: the lists do not depend on them.
-/

namespace MediaFoundation.Pool

-- State

structure Memory where
  address : Nat
  size : Int32
deriving DecidableEq

structure InitializeOption where
  preAllocMemCnt : UInt32 := 0
  memSize : Int32 := 0
  maxMemCnt : UInt32 := 0
  enableFixedSize : Bool := true

def maxMemSize : Int32 := 100 * 1024 * 1024

def maxMemCount : UInt32 := 10 * 1024

structure MemoryPool where
  option : InitializeOption := {}
  idleList : List Memory := []
  busyList : List Memory := []
  inited : Bool := false
  forceNonBlocking : Bool := false
  live : List Nat := []

namespace MemoryPool

-- AllocMemory and Init

/-- `AllocMemory`; a block of no size fails its own `Init`. -/
def allocMemory (p : MemoryPool) (size : Int32) (outcome : Option Nat) : Option Memory :=
  match outcome with
  | some address => if address ∈ p.live ∨ size ≤ 0 then none else some ⟨address, size⟩
  | none => none

/-- The loop of `Init`; each round is given one outcome. -/
def preAlloc : MemoryPool → Nat → List (Option Nat) → MemoryPool × Bool
  | p, 0, _ => (p, true)
  | p, count + 1, outcomes =>
    match p.allocMemory p.option.memSize outcomes.head?.join with
    | none => (p, false)
    | some memory =>
      preAlloc { p with
        idleList := p.idleList ++ [memory]
        live := memory.address :: p.live } count outcomes.tail

def init (p : MemoryPool) (option : InitializeOption) (outcomes : List (Option Nat)) :
    MemoryPool × Int32 :=
  if p.inited then (p, -1)
  else if ¬ option.memSize < maxMemSize then (p, -1)
  else if ¬ (0 < option.maxMemCnt ∧ option.maxMemCnt ≤ maxMemCount) then (p, -1)
  else
    let p := { p with
      option := { option with preAllocMemCnt := min option.preAllocMemCnt option.maxMemCnt } }
    match p.preAlloc p.option.preAllocMemCnt.toNat outcomes with
    | (p, false) => (p, -1)
    | (p, true) => ({ p with inited := true }, 0)

-- ReleaseMemory

def releaseMemory (p : MemoryPool) (address : Nat) : MemoryPool :=
  match p.busyList.find? fun m => m.address = address with
  | some memory =>
    { p with
      busyList := p.busyList.erase memory
      idleList := p.idleList ++ [memory] }
  | none => { p with live := p.live.erase address }

-- DoAcquireMemory

def minSizeIdleMem : List Memory → Option Memory
  | [] => none
  | m :: rest =>
    match minSizeIdleMem rest with
    | some m' => if m'.size < m.size then some m' else some m
    | none => some m

/-- `DoAcquireMemory`: whether it succeeds, and the block if it has one. -/
def doAcquireMemory (p : MemoryPool) (size : Int32) (outcome : Option Nat) :
    MemoryPool × Bool × Option Memory :=
  match p.idleList.find? fun m => size ≤ m.size with
  | some result => ({ p with idleList := p.idleList.erase result }, true, some result)
  | none =>
    if p.busyList.length + p.idleList.length < p.option.maxMemCnt.toNat then
      match p.allocMemory size outcome with
      | none => (p, false, none)
      | some result => ({ p with live := result.address :: p.live }, true, some result)
    else
      match p.option.enableFixedSize, minSizeIdleMem p.idleList with
      | false, some smallest =>
        let p := { p with
          idleList := p.idleList.erase smallest
          live := p.live.erase smallest.address }
        match p.allocMemory size outcome with
        | none => (p, false, none)
        | some result => ({ p with live := result.address :: p.live }, true, some result)
      | _, _ => (p, true, none)

-- AcquireMemory

def checkSize (p : MemoryPool) (size : Int32) : Bool :=
  if size ≤ 0 ∧ size ≠ -1 then false
  else if ¬ p.option.enableFixedSize ∧ size = -1 then false
  else if p.option.enableFixedSize then
    if p.option.memSize < size then false
    else if size ≤ 0 ∧ size ≠ -1 then false
    else true
  else true

inductive Reply where
  | void
  | code (ret : Int32)
  | acquired (size : Int32) (memory : Option Memory)
  | waits (size : Int32)

def acquireRound (p : MemoryPool) (size : Int32) (blocking : Bool) (outcome : Option Nat) :
    MemoryPool × Reply :=
  match p.doAcquireMemory size outcome with
  | (p, _, some memory) => ({ p with busyList := p.busyList ++ [memory] }, .acquired size (some memory))
  | (p, false, none) => (p, .acquired size none)
  | (p, true, none) =>
    if ¬ blocking ∨ p.forceNonBlocking then (p, .acquired size none) else (p, .waits size)

def acquireMemory (p : MemoryPool) (size : Int32) (blocking : Bool) (outcome : Option Nat) :
    MemoryPool × Reply :=
  if ¬ p.checkSize size then (p, .acquired size none)
  else
    let size := if p.option.enableFixedSize then p.option.memSize else size
    p.acquireRound size blocking outcome

/-- A waiting `AcquireMemory` goes on, whatever woke it. -/
def resumeAcquire (p : MemoryPool) (size : Int32) (outcome : Option Nat) : MemoryPool × Reply :=
  if p.inited ∧ ¬ p.forceNonBlocking then p.acquireRound size true outcome
  else (p, .acquired size none)

-- SetNonBlocking and Reset

def setNonBlocking (p : MemoryPool) (enable : Bool) : MemoryPool :=
  { p with forceNonBlocking := enable }

def reset (p : MemoryPool) : MemoryPool :=
  { p with
    idleList := []
    inited := false
    forceNonBlocking := false
    live := p.live.filter fun address => address ∉ p.idleList.map Memory.address }

end MemoryPool

-- The pool and its users

/-- The pool, the blocks that somebody holds, and the sizes that the threads in
`AcquireMemory` wait for. -/
structure System where
  pool : MemoryPool := {}
  held : List Nat := []
  waiting : Nat → Option Int32 := fun _ => none

inductive Action where
  | init (option : InitializeOption) (outcomes : List (Option Nat))
  | acquireMemory (size : Int32) (blocking : Bool) (outcome : Option Nat)
  | resumeAcquire (outcome : Option Nat)
  /-- The last reference to a held block goes. -/
  | release (address : Nat)
  | setNonBlocking (enable : Bool)
  | reset

structure Label where
  thread : Nat
  action : Action

open MemoryPool in
def exec (s : System) (l : Label) : Option (MemoryPool × Reply) :=
  match s.waiting l.thread, l.action with
  | some size, .resumeAcquire outcome => some (s.pool.resumeAcquire size outcome)
  | some _, _ => none
  | none, .resumeAcquire _ => none
  | none, .init option outcomes =>
    let r := s.pool.init option outcomes
    some (r.1, .code r.2)
  | none, .acquireMemory size blocking outcome => some (s.pool.acquireMemory size blocking outcome)
  | none, .release address =>
    if address ∈ s.held then some (s.pool.releaseMemory address, .void) else none
  | none, .setNonBlocking enable => some (s.pool.setNonBlocking enable, .void)
  | none, .reset => some (s.pool.reset, .void)

/-- The state after a block, by what the thread was told. -/
def settle (s : System) (l : Label) (pool : MemoryPool) : MemoryPool.Reply → System
  | .acquired _ (some memory) =>
    { pool
      held := memory.address :: s.held
      waiting := Function.update s.waiting l.thread none }
  | .waits size => { s with pool, waiting := Function.update s.waiting l.thread (some size) }
  | _ =>
    { pool
      held := match l.action with
        | .release address => s.held.erase address
        | _ => s.held
      waiting := Function.update s.waiting l.thread none }

def step (s : System) (l : Label) : Option System :=
  (exec s l).map fun r => settle s l r.1 r.2

end MediaFoundation.Pool
