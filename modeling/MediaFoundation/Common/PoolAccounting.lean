import MediaFoundation.Common.SharedMemoryPool

/-!
# The accounts of the memory pool

Every block of `AVSharedMemoryPool` that exists is in one of its two lists, and
the busy ones are those that somebody holds. This holds in every run.

The bound `maxMemCnt` does not: `Init` starts to pre-allocate without a look at
the blocks that the pool already has, which are the idle ones of an `Init` that
failed half-way and the busy ones that outlived a `Reset`. `KeepsCount` is the
condition under which it holds, and no other operation adds to it.
-/

namespace MediaFoundation.Pool

open MemoryPool

variable {p : MemoryPool} {s : System} {l : Label}

-- Accounts of the pool

def addresses (blocks : List Memory) : List Nat := blocks.map Memory.address

structure Accounts (idleList busyList : List Memory) (live : List Nat) : Prop where
  nodup : live.Nodup
  blocks : (addresses idleList ++ addresses busyList).Perm live

namespace Accounts

variable {idleList busyList : List Memory} {live : List Nat} {m : Memory}

theorem lend (h : Accounts (m :: idleList) busyList live) :
    Accounts idleList (busyList ++ [m]) live := by
  refine ⟨h.nodup, List.Perm.trans ?_ h.blocks⟩
  unfold addresses
  rw [List.map_append, ← List.append_assoc]
  exact List.perm_append_singleton _ _

theorem giveBack (h : Accounts idleList (m :: busyList) live) :
    Accounts (idleList ++ [m]) busyList live := by
  refine ⟨h.nodup, List.Perm.trans ?_ h.blocks⟩
  unfold addresses
  rw [List.map_append, List.map_cons, List.append_assoc]
  exact List.Perm.refl _

theorem congr {idleList' busyList' : List Memory} (h : Accounts idleList busyList live)
    (hi : idleList.Perm idleList') (hb : busyList.Perm busyList') :
    Accounts idleList' busyList' live :=
  ⟨h.nodup, ((hi.map _).append (hb.map _)).symm.trans h.blocks⟩

theorem allocate (h : Accounts idleList busyList live) (hm : m.address ∉ live) :
    Accounts (m :: idleList) busyList (m.address :: live) :=
  ⟨List.nodup_cons.mpr ⟨hm, h.nodup⟩, h.blocks.cons _⟩

theorem discard (h : Accounts (m :: idleList) busyList live) :
    Accounts idleList busyList (live.erase m.address) := by
  refine ⟨h.nodup.erase _, ?_⟩
  have herase := h.blocks.erase m.address
  unfold addresses at herase
  rw [List.map_cons, List.cons_append, List.erase_cons_head] at herase
  exact herase

theorem clear (h : Accounts idleList busyList live) :
    Accounts [] busyList (live.filter fun a => a ∉ addresses idleList) := by
  refine ⟨h.nodup.filter _, ?_⟩
  have hnodup : (addresses idleList ++ addresses busyList).Nodup := h.blocks.nodup_iff.mpr h.nodup
  have hfilter := h.blocks.filter fun a => decide (a ∉ addresses idleList)
  rw [List.filter_append] at hfilter
  -- none of the idle list is kept, and all of the busy list is
  have hidle : (addresses idleList).filter (fun a => decide (a ∉ addresses idleList)) = [] := by
    rw [List.filter_eq_nil_iff]
    intro a ha
    simpa using ha
  have hbusy : (addresses busyList).filter (fun a => decide (a ∉ addresses idleList)) =
      addresses busyList := by
    rw [List.filter_eq_self]
    intro a ha
    simpa using fun h => (List.nodup_append.mp hnodup).2.2 a h a ha rfl
  rw [hidle, hbusy] at hfilter
  exact hfilter

theorem not_busy (h : Accounts (m :: idleList) busyList live) : m.address ∉ addresses busyList := by
  have hnodup := h.blocks.nodup_iff.mpr h.nodup
  unfold addresses at hnodup
  rw [List.map_cons, List.cons_append, List.nodup_cons] at hnodup
  intro hm
  exact hnodup.1 (List.mem_append_right _ hm)

end Accounts

-- What each operation does

namespace MemoryPool

def Accounted (p : MemoryPool) : Prop := Accounts p.idleList p.busyList p.live

def count (p : MemoryPool) : Nat := p.idleList.length + p.busyList.length

theorem allocMemory_eq_some {size : Int32} {outcome : Option Nat} {m : Memory}
    (h : p.allocMemory size outcome = some m) : m.size = size ∧ m.address ∉ p.live := by
  cases outcome with
  | none => cases h
  | some address =>
    simp only [allocMemory] at h
    split at h
    · cases h
    · rename_i hfree
      cases h
      exact ⟨rfl, fun hm => hfree (.inl hm)⟩

theorem minSizeIdleMem_mem {blocks : List Memory} {m : Memory} (h : minSizeIdleMem blocks = some m) :
    m ∈ blocks := by
  induction blocks generalizing m with
  | nil => cases h
  | cons first rest ih =>
    simp only [minSizeIdleMem] at h
    cases hrest : minSizeIdleMem rest with
    | none =>
      rw [hrest] at h
      cases h
      exact List.mem_cons_self
    | some m' =>
      rw [hrest] at h
      simp only at h
      split at h
      · cases h
        exact List.mem_cons_of_mem _ (ih hrest)
      · cases h
        exact List.mem_cons_self

/-- How many blocks the loop of `Init` gets, which is up to its first failure. -/
def granted (size : Int32) : List Nat → Nat → List (Option Nat) → Nat
  | _, 0, _ => 0
  | live, count + 1, outcomes =>
    match outcomes.head?.join with
    | none => 0
    | some address =>
      if address ∈ live ∨ size ≤ 0 then 0 else granted size (address :: live) count outcomes.tail + 1

/-- The loop of `Init` adds idle blocks and nothing else. -/
theorem preAlloc_spec (n : Nat) (outcomes : List (Option Nat)) (h : p.Accounted) :
    (p.preAlloc n outcomes).1.Accounted ∧
      (p.preAlloc n outcomes).1.busyList = p.busyList ∧
      (p.preAlloc n outcomes).1.option = p.option ∧
      (p.preAlloc n outcomes).1.count = p.count + granted p.option.memSize p.live n outcomes := by
  induction n generalizing p outcomes with
  | zero => exact ⟨h, rfl, rfl, rfl⟩
  | succ n ih =>
    simp only [preAlloc, granted]
    cases hm : p.allocMemory p.option.memSize outcomes.head?.join with
    | none =>
      -- the loop ends here, and the count of the granted blocks with it
      refine ⟨h, rfl, rfl, ?_⟩
      cases ho : outcomes.head?.join with
      | none => rfl
      | some address =>
        rw [ho] at hm
        simp only [allocMemory] at hm
        split at hm
        · rename_i hfail
          simp only [if_pos hfail]
          rfl
        · cases hm
    | some memory =>
      obtain ⟨-, hnew⟩ := allocMemory_eq_some hm
      have hnext : Accounted { p with
          idleList := p.idleList ++ [memory]
          live := memory.address :: p.live } :=
        (Accounts.allocate h hnew).congr (List.perm_append_singleton _ _).symm (.refl _)
      obtain ⟨hA, hbusy, hoption, hcount⟩ := ih outcomes.tail hnext
      refine ⟨hA, hbusy, hoption, hcount.trans ?_⟩
      cases ho : outcomes.head?.join with
      | none => rw [ho] at hm; cases hm
      | some address =>
        rw [ho] at hm
        simp only [allocMemory] at hm
        split at hm
        · cases hm
        · rename_i hfree
          cases hm
          simp only [if_neg hfree, count, List.length_append, List.length_singleton]
          omega

/-- `DoAcquireMemory` with a block: it is off the lists, which have room for it. -/
structure Taken (p q : MemoryPool) (size : Int32) (m : Memory) : Prop where
  accounts : Accounts (m :: q.idleList) q.busyList q.live
  busyList : q.busyList = p.busyList
  option : q.option = p.option
  count : q.count + 1 ≤ max p.count p.option.maxMemCnt.toNat
  size : size ≤ m.size

/-- `DoAcquireMemory` without a block: an idle one may be gone. -/
structure Untaken (p q : MemoryPool) : Prop where
  accounts : q.Accounted
  busyList : q.busyList = p.busyList
  option : q.option = p.option
  count : q.count ≤ p.count

def Outcome (p : MemoryPool) (size : Int32) (r : MemoryPool × Bool × Option Memory) : Prop :=
  match r.2.2 with
  | some m => Taken p r.1 size m
  | none => Untaken p r.1

theorem Accounted.discard {m : Memory} (h : p.Accounted) (hm : m ∈ p.idleList) :
    Accounted { p with idleList := p.idleList.erase m, live := p.live.erase m.address } :=
  (Accounts.congr h (List.perm_cons_erase hm) (.refl _)).discard

theorem count_erase {m : Memory} (hm : m ∈ p.idleList) :
    (p.idleList.erase m).length + p.busyList.length + 1 = p.count := by
  have hlength := List.length_erase_of_mem hm
  have hpos := List.length_pos_of_mem hm
  unfold count
  omega

theorem doAcquireMemory_spec (h : p.Accounted) (size : Int32)
    (outcome : Option Nat) : Outcome p size (p.doAcquireMemory size outcome) := by
  unfold doAcquireMemory
  cases hfind : p.idleList.find? fun m => size ≤ m.size with
  | some m =>
    have hm := List.mem_of_find?_eq_some hfind
    exact
      { accounts := Accounts.congr h (List.perm_cons_erase hm) (.refl _)
        busyList := rfl
        option := rfl
        count := (count_erase hm).trans_le (Nat.le_max_left _ _)
        size := by simpa using List.find?_some hfind }
  | none =>
    simp only
    by_cases hroom : p.busyList.length + p.idleList.length < p.option.maxMemCnt.toNat
    · -- there is room for one more
      rw [if_pos hroom]
      cases halloc : p.allocMemory size outcome with
      | none => exact ⟨h, rfl, rfl, le_rfl⟩
      | some m =>
        obtain ⟨hsize, hnew⟩ := allocMemory_eq_some halloc
        exact
          { accounts := Accounts.allocate h hnew
            busyList := rfl
            option := rfl
            count := by
              show p.idleList.length + p.busyList.length + 1 ≤ _
              omega
            size := hsize ▸ Int32.le_refl _ }
    · rw [if_neg hroom]
      cases hfixed : p.option.enableFixedSize with
      | true => exact ⟨h, rfl, rfl, le_rfl⟩
      | false =>
        cases hmin : minSizeIdleMem p.idleList with
        | none => exact ⟨h, rfl, rfl, le_rfl⟩
        | some smallest =>
          -- the smallest idle block is deleted, also when no new one comes in its place
          have hm := minSizeIdleMem_mem hmin
          have hcount := count_erase hm
          simp only
          cases halloc : allocMemory { p with
              idleList := p.idleList.erase smallest
              live := p.live.erase smallest.address } size outcome with
          | none => exact ⟨h.discard hm, rfl, rfl, (Nat.le_succ _).trans hcount.le⟩
          | some m =>
            obtain ⟨hsize, hnew⟩ := allocMemory_eq_some halloc
            exact
              { accounts := Accounts.allocate (h.discard hm) hnew
                busyList := rfl
                option := rfl
                count := hcount.trans_le (Nat.le_max_left _ _)
                size := hsize ▸ Int32.le_refl _ }

structure Round (p : MemoryPool) (size : Int32) (q : MemoryPool) (memory : Option Memory) : Prop where
  accounts : q.Accounted
  busyList : q.busyList = p.busyList ++ memory.toList
  option : q.option = p.option
  count : q.count ≤ max p.count p.option.maxMemCnt.toNat
  size : ∀ m ∈ memory, size ≤ m.size
  fresh : ∀ m ∈ memory, m.address ∉ addresses p.busyList

theorem Taken.round {p q : MemoryPool} {size : Int32} {m : Memory} (h : Taken p q size m) :
    Round p size { q with busyList := q.busyList ++ [m] } (some m) where
  accounts := h.accounts.lend
  busyList := by rw [h.busyList]; rfl
  option := h.option
  count := by
    have hcount := h.count
    simp only [MemoryPool.count, List.length_append, List.length_singleton] at hcount ⊢
    omega
  size := by rintro _ ⟨⟩; exact h.size
  fresh := by rintro _ ⟨⟩; rw [← h.busyList]; exact h.accounts.not_busy

theorem Untaken.round {p q : MemoryPool} {size : Int32} (h : Untaken p q) : Round p size q none where
  accounts := h.accounts
  busyList := by rw [h.busyList]; exact (List.append_nil _).symm
  option := h.option
  count := h.count.trans (Nat.le_max_left _ _)
  size := nofun
  fresh := nofun

def Reply.memory : Reply → Option Memory
  | .acquired _ memory => memory
  | _ => none

def Reply.size : Reply → Option Int32
  | .acquired size _ => some size
  | .waits size => some size
  | _ => none

theorem acquireRound_spec (h : p.Accounted) (size : Int32) (blocking : Bool)
    (outcome : Option Nat) :
    Round p size (p.acquireRound size blocking outcome).1
        (p.acquireRound size blocking outcome).2.memory ∧
      (p.acquireRound size blocking outcome).2.size = some size := by
  have hspec := doAcquireMemory_spec h size outcome
  unfold acquireRound
  rcases hr : p.doAcquireMemory size outcome with ⟨q, ok, _ | m⟩
  · rw [hr] at hspec
    have hround : Round p size q none := Untaken.round hspec
    cases ok with
    | false => exact ⟨hround, rfl⟩
    | true =>
      simp only
      split
      · exact ⟨hround, rfl⟩
      · exact ⟨hround, rfl⟩
  · rw [hr] at hspec
    exact ⟨Taken.round hspec, rfl⟩

-- Init

def Accepts (p : MemoryPool) (option : InitializeOption) : Prop :=
  p.inited = false ∧ option.memSize < maxMemSize ∧
    0 < option.maxMemCnt ∧ option.maxMemCnt ≤ maxMemCount

/-- The blocks that the pool has and those that `Init` gets are not too many. -/
def KeepsCount (p : MemoryPool) (option : InitializeOption) (outcomes : List (Option Nat)) : Prop :=
  p.Accepts option →
    p.count + granted option.memSize p.live (min option.preAllocMemCnt option.maxMemCnt).toNat outcomes ≤
      option.maxMemCnt.toNat

theorem init_refused {option : InitializeOption} (h : ¬ p.Accepts option)
    (outcomes : List (Option Nat)) : p.init option outcomes = (p, -1) := by
  unfold init
  split
  · rfl
  · split
    · rfl
    · split
      · rfl
      · rename_i hinited hsize hcount
        rw [not_not] at hsize hcount
        exact absurd ⟨by simpa using hinited, hsize, hcount⟩ h

theorem init_spec {option : InitializeOption} (h : p.Accounted)
    (ha : p.Accepts option) (outcomes : List (Option Nat)) :
    (p.init option outcomes).1.Accounted ∧
      (p.init option outcomes).1.busyList = p.busyList ∧
      (p.init option outcomes).1.option.maxMemCnt = option.maxMemCnt ∧
      (p.init option outcomes).1.count = p.count + granted option.memSize p.live
        (min option.preAllocMemCnt option.maxMemCnt).toNat outcomes := by
  obtain ⟨hinited, hsize, hcount⟩ := ha
  have hstart : Accounted { p with
      option := { option with preAllocMemCnt := min option.preAllocMemCnt option.maxMemCnt } } := h
  unfold init
  rw [if_neg (by simp [hinited]), if_neg (not_not.mpr hsize), if_neg (not_not.mpr hcount)]
  obtain ⟨hA, hbusy, hoption, hgranted⟩ := preAlloc_spec
    (min option.preAllocMemCnt option.maxMemCnt).toNat outcomes hstart
  simp only
  revert hA hbusy hoption hgranted
  rcases preAlloc _ _ outcomes with ⟨q, _ | _⟩
  · intro hA hbusy hoption hgranted
    exact ⟨hA, hbusy, congrArg (·.maxMemCnt) hoption, hgranted⟩
  · intro hA hbusy hoption hgranted
    exact ⟨hA, hbusy, congrArg (·.maxMemCnt) hoption, hgranted⟩

/-- `Init` keeps the bound exactly when its pre-allocations fit. -/
theorem init_count_iff (h : p.Accounted)
    (hcount : p.count ≤ p.option.maxMemCnt.toNat) (option : InitializeOption)
    (outcomes : List (Option Nat)) :
    (p.init option outcomes).1.count ≤ (p.init option outcomes).1.option.maxMemCnt.toNat ↔
      p.KeepsCount option outcomes := by
  unfold KeepsCount
  by_cases ha : p.Accepts option
  · obtain ⟨-, -, hmax, hgranted⟩ := init_spec h ha outcomes
    rw [hmax, hgranted]
    exact ⟨fun hle _ => hle, fun hle => hle ha⟩
  · rw [init_refused ha]
    exact ⟨fun _ hacc => absurd hacc ha, fun _ => hcount⟩

theorem releaseMemory_spec (h : p.Accounted) {address : Nat}
    (hbusy : address ∈ addresses p.busyList) :
    (p.releaseMemory address).Accounted ∧
      (addresses p.busyList).Perm (address :: addresses (p.releaseMemory address).busyList) ∧
      (p.releaseMemory address).option = p.option ∧
      (p.releaseMemory address).count = p.count := by
  unfold releaseMemory
  cases hfind : p.busyList.find? fun m => m.address = address with
  | none =>
    obtain ⟨m, hm, rfl⟩ := List.mem_map.mp hbusy
    have hne : ¬ m.address = m.address := by simpa using List.find?_eq_none.mp hfind m hm
    exact absurd rfl hne
  | some m =>
    have hm := List.mem_of_find?_eq_some hfind
    have haddress : m.address = address := by simpa using List.find?_some hfind
    subst haddress
    have hperm := List.perm_cons_erase hm
    refine ⟨(Accounts.congr h (.refl _) hperm).giveBack, hperm.map _, rfl, ?_⟩
    have hlength := hperm.length_eq
    rw [List.length_cons] at hlength
    simp only [count, List.length_append, List.length_singleton]
    omega

theorem reset_spec (h : p.Accounted) :
    p.reset.Accounted ∧ p.reset.count ≤ p.count := by
  refine ⟨Accounts.clear h, ?_⟩
  show ([] : List Memory).length + p.busyList.length ≤ p.idleList.length + p.busyList.length
  simp

end MemoryPool

-- The pool and its users

structure Accounted (s : System) : Prop where
  pool : s.pool.Accounted
  held : s.held.Perm (addresses s.pool.busyList)

def Bounded (p : MemoryPool) : Prop := p.count ≤ p.option.maxMemCnt.toNat

/-- An `Init` of the run pre-allocates no more than there is room for. -/
def KeepsCount (s : System) (l : Label) : Prop :=
  match s.waiting l.thread, l.action with
  | none, .init option outcomes => s.pool.KeepsCount option outcomes
  | _, _ => True

/-- The size that `AcquireMemory` asks for, or asked for when it began to wait. -/
def requested (s : System) (l : Label) : Option Int32 :=
  match s.waiting l.thread, l.action with
  | some size, .resumeAcquire _ => some size
  | none, .acquireMemory size _ _ =>
    if s.pool.option.enableFixedSize then some s.pool.option.memSize else some size
  | _, _ => none

@[simp] theorem settle_pool (s : System) (l : Label) (q : MemoryPool) (reply : Reply) :
    (settle s l q reply).pool = q := by
  cases reply with
  | acquired _ memory => cases memory <;> rfl
  | _ => rfl

theorem settle_held (hl : ∀ address, l.action ≠ .release address)
    (q : MemoryPool) (reply : Reply) :
    (settle s l q reply).held = addresses reply.memory.toList ++ s.held := by
  cases haction : l.action with
  | release address => exact absurd haction (hl address)
  | _ =>
    cases reply with
    | acquired _ memory =>
      cases memory with
      | none => simp only [settle, haction]; rfl
      | some _ => rfl
    | waits _ => rfl
    | _ => simp only [settle, haction]; rfl

/-- What one block of code keeps, and what it promises to its caller. -/
structure Kept (s : System) (l : Label) (q : MemoryPool) (reply : Reply) : Prop where
  accounted : Accounted (settle s l q reply)
  bounded : KeepsCount s l → Bounded s.pool → Bounded q
  handed : ∀ size m, reply = .acquired size (some m) →
    requested s l = some size ∧ size ≤ m.size ∧ m.address ∉ s.held
  waits : ∀ size, reply = .waits size → requested s l = some size

/-- Blocks of code that hand nothing out and take nothing back. -/
theorem Kept.quiet {q : MemoryPool} {reply : Reply} (h : Accounted s)
    (hl : ∀ address, l.action ≠ .release address) (hq : q.Accounted)
    (hbusy : q.busyList = s.pool.busyList) (hreply : reply.memory = none)
    (hwaits : ∀ size, reply ≠ .waits size) (hbounded : KeepsCount s l → Bounded s.pool → Bounded q) :
    Kept s l q reply where
  accounted := by
    refine ⟨by rw [settle_pool]; exact hq, ?_⟩
    rw [settle_held hl, hreply, settle_pool, hbusy]
    exact h.held
  bounded := hbounded
  handed := by
    rintro size m rfl
    cases hreply
  waits := fun size hsize => absurd hsize (hwaits size)

theorem requested_not_release {size : Int32} (h : requested s l = some size)
    (address : Nat) : l.action ≠ .release address := by
  intro hl
  unfold requested at h
  rw [hl] at h
  cases hw : s.waiting l.thread with
  | none | some _ => rw [hw] at h; cases h

theorem Kept.round {q : MemoryPool} {size : Int32} {reply : Reply}
    (h : Accounted s) (hsize : requested s l = some size)
    (hround : Round s.pool size q reply.memory ∧ reply.size = some size) : Kept s l q reply where
  accounted := by
    refine ⟨by rw [settle_pool]; exact hround.1.accounts, ?_⟩
    rw [settle_held (requested_not_release hsize), settle_pool, hround.1.busyList]
    unfold addresses
    rw [List.map_append]
    exact (h.held.append_left _).trans List.perm_append_comm
  bounded := by
    intro _ hbound
    have hcount := hround.1.count
    unfold Bounded at hbound ⊢
    rw [hround.1.option]
    omega
  handed := by
    rintro n m rfl
    obtain rfl : n = size := Option.some.inj hround.2
    have hfresh := hround.1.fresh m rfl
    exact ⟨hsize, hround.1.size m rfl, fun hheld => hfresh (h.held.mem_iff.mp hheld)⟩
  waits := by
    rintro n rfl
    obtain rfl : n = size := Option.some.inj hround.2
    exact hsize

theorem Kept.released {address : Nat} (h : Accounted s)
    (hl : l.action = .release address) (hheld : address ∈ s.held) :
    Kept s l (s.pool.releaseMemory address) .void := by
  obtain ⟨hA, hperm, hoption, hcount⟩ := releaseMemory_spec h.pool (h.held.mem_iff.mp hheld)
  refine ⟨⟨hA, ?_⟩, ?_, fun _ _ heq => (by cases heq), fun _ heq => (by cases heq)⟩
  · -- what is held without this block is what is busy without it
    have herase := (h.held.trans hperm).erase address
    rw [List.erase_cons_head] at herase
    have hsettle : (settle s l (s.pool.releaseMemory address) .void).held =
        s.held.erase address := by
      simp only [settle, hl]
    rw [hsettle]
    exact herase
  · intro _ hbound
    unfold Bounded at hbound ⊢
    rw [hoption, hcount]
    exact hbound

theorem exec_spec {q : MemoryPool} {reply : Reply} (h : Accounted s)
    (hx : exec s l = some (q, reply)) : Kept s l q reply := by
  cases hwaiting : s.waiting l.thread with
  | some size =>
    cases hl : l.action with
    | resumeAcquire outcome =>
      simp only [exec, hwaiting, hl, Option.some.injEq] at hx
      have hsize : requested s l = some size := by simp only [requested, hwaiting, hl]
      have hround := acquireRound_spec h.pool size true outcome
      unfold resumeAcquire at hx
      split at hx
      · rw [hx] at hround
        exact Kept.round h hsize hround
      · -- the pool is reset, or does not block any more
        obtain ⟨rfl, rfl⟩ := Prod.mk.inj hx
        exact Kept.round h hsize ⟨Untaken.round ⟨h.pool, rfl, rfl, le_rfl⟩, rfl⟩
    | _ => simp only [exec, hwaiting, hl, reduceCtorEq] at hx
  | none =>
    cases hl : l.action with
    | init option outcomes =>
      simp only [exec, hwaiting, hl, Option.some.injEq, Prod.mk.injEq] at hx
      obtain ⟨rfl, rfl⟩ := hx
      have hbounded : KeepsCount s l → Bounded s.pool → Bounded (s.pool.init option outcomes).1 := by
        intro hkeeps hbound
        simp only [KeepsCount, hwaiting, hl] at hkeeps
        exact (init_count_iff h.pool hbound option outcomes).mpr hkeeps
      by_cases ha : s.pool.Accepts option
      · obtain ⟨hA, hbusy, -, -⟩ := init_spec h.pool ha outcomes
        exact Kept.quiet h (by rw [hl]; nofun) hA hbusy rfl nofun hbounded
      · rw [init_refused ha] at hbounded ⊢
        exact Kept.quiet h (by rw [hl]; nofun) h.pool rfl rfl nofun hbounded
    | acquireMemory size blocking outcome =>
      simp only [exec, hwaiting, hl, Option.some.injEq] at hx
      unfold acquireMemory at hx
      split at hx
      · obtain ⟨rfl, rfl⟩ := Prod.mk.inj hx
        exact Kept.quiet h (by rw [hl]; nofun) h.pool rfl rfl nofun fun _ hbound => hbound
      · have hround := acquireRound_spec h.pool
          (if s.pool.option.enableFixedSize then s.pool.option.memSize else size) blocking outcome
        rw [hx] at hround
        have hsize : requested s l =
            some (if s.pool.option.enableFixedSize then s.pool.option.memSize else size) := by
          simp only [requested, hwaiting, hl]
          split
          · rfl
          · rfl
        exact Kept.round h hsize hround
    | resumeAcquire _ => simp only [exec, hwaiting, hl, reduceCtorEq] at hx
    | release address =>
      simp only [exec, hwaiting, hl] at hx
      split at hx
      · rename_i hheld
        obtain ⟨rfl, rfl⟩ := Prod.mk.inj (Option.some.inj hx)
        exact Kept.released h hl hheld
      · cases hx
    | setNonBlocking enable =>
      simp only [exec, hwaiting, hl, Option.some.injEq, Prod.mk.injEq] at hx
      obtain ⟨rfl, rfl⟩ := hx
      exact Kept.quiet h (by rw [hl]; nofun) h.pool rfl rfl nofun fun _ hbound => hbound
    | reset =>
      simp only [exec, hwaiting, hl, Option.some.injEq, Prod.mk.injEq] at hx
      obtain ⟨rfl, rfl⟩ := hx
      obtain ⟨hA, hcount⟩ := reset_spec h.pool
      exact Kept.quiet h (by rw [hl]; nofun) hA rfl rfl nofun fun _ hbound => hcount.trans hbound

-- Every run

theorem accounted_start : Accounted {} :=
  ⟨⟨List.nodup_nil, .refl _⟩, .refl _⟩

theorem step_spec {s t : System} (h : Accounted s) (hstep : step s l = some t) :
    Accounted t ∧ (KeepsCount s l → Bounded s.pool → Bounded t.pool) := by
  obtain ⟨⟨q, reply⟩, hx, rfl⟩ := Option.map_eq_some_iff.mp hstep
  have hkept := exec_spec h hx
  refine ⟨hkept.accounted, ?_⟩
  rw [settle_pool]
  exact hkept.bounded

theorem accounted_run {ls : List Label} (hrun : Runs.run step {} ls = some s) :
    Accounted s :=
  Runs.run_keeps (fun _ _ _ h hstep => (step_spec h hstep).1) accounted_start hrun

theorem bounded_run {ls : List Label} (hkeeps : Runs.Along step KeepsCount {} ls)
    (hrun : Runs.run step {} ls = some s) : Bounded s.pool := by
  have hstart : Accounted {} ∧ Bounded ({} : System).pool :=
    ⟨accounted_start, Nat.le_refl _⟩
  refine (Runs.run_invariant (I := fun u => Accounted u ∧ Bounded u.pool) ?_ hstart hkeeps hrun).2
  intro u l t h hgood hstep
  obtain ⟨hA, hbound⟩ := step_spec h.1 hstep
  exact ⟨hA, hbound hgood h.2⟩

/--
**The accounts of the pool**, in every run: each block that exists is in one of
the two lists and in it once, the busy ones are those that are held, and
`AcquireMemory` hands out a block that is large enough and that nobody holds.
The bound holds in every run whose `Init`s pre-allocate no more than fits.
-/
theorem accounting {ls : List Label} {s : System} (hrun : Runs.run step {} ls = some s) :
    (addresses s.pool.idleList ++ addresses s.pool.busyList).Nodup ∧
      (∀ address, address ∈ s.pool.live ↔
        address ∈ addresses s.pool.idleList ∨ address ∈ addresses s.pool.busyList) ∧
      s.held.Perm (addresses s.pool.busyList) ∧
      (∀ l q size m, exec s l = some (q, .acquired size (some m)) →
        requested s l = some size ∧ size ≤ m.size ∧ m.address ∉ s.held) ∧
      (∀ l q size, exec s l = some (q, .waits size) → requested s l = some size) ∧
      (Runs.Along step KeepsCount {} ls →
        s.pool.idleList.length + s.pool.busyList.length ≤ s.pool.option.maxMemCnt.toNat) := by
  have h := accounted_run hrun
  refine ⟨h.pool.blocks.nodup_iff.mpr h.pool.nodup, ?_, h.held, ?_, ?_,
    fun hkeeps => bounded_run hkeeps hrun⟩
  · intro address
    rw [← h.pool.blocks.mem_iff, List.mem_append]
  · intro l q size m hx
    exact (exec_spec h hx).handed size m rfl
  · intro l q size hx
    exact (exec_spec h hx).waits size rfl

-- Two runs

def twoBlocks : InitializeOption := { preAllocMemCnt := 2, memSize := 8, maxMemCnt := 2 }

/-- Init, two acquired, one released, and a reset with the other in use. -/
def lentRun : List Label :=
  [⟨0, .init twoBlocks [some 100, some 200]⟩, ⟨0, .acquireMemory (-1) true none⟩,
    ⟨1, .acquireMemory 4 true none⟩, ⟨0, .release 100⟩, ⟨0, .reset⟩]

theorem accounting_lentRun : ∃ s, Runs.run step {} lentRun = some s ∧
    s.pool.idleList.length + s.pool.busyList.length ≤ s.pool.option.maxMemCnt.toNat ∧
    s.held.Perm (addresses s.pool.busyList) := by
  have hrun : Runs.run step {} lentRun = some _ := rfl
  have hkeeps : Runs.Along step KeepsCount {} lentRun :=
    .cons (fun _ => by decide) rfl (.cons trivial rfl (.cons trivial rfl (.cons trivial rfl
      (.cons trivial rfl trivial))))
  obtain ⟨-, -, hheld, -, -, hbound⟩ := accounting hrun
  exact ⟨_, hrun, hbound hkeeps, hheld⟩

/-- The first `Init` gets one block and fails, the second gets two more. -/
def retriedInit : List Label :=
  [⟨0, .init twoBlocks [some 100, none]⟩, ⟨0, .init twoBlocks [some 200, some 300]⟩]

theorem retriedInit_exceeds : ∃ s, Runs.run step {} retriedInit = some s ∧
    s.pool.option.maxMemCnt.toNat < s.pool.idleList.length + s.pool.busyList.length :=
  ⟨_, rfl, by decide⟩

end MediaFoundation.Pool
