import Mathlib

/-!
# The journal of a first-in first-out channel

A journal lists every item that was ever put into a channel, in the order of
arrival, with what has become of it. It says what a channel is for: what is
taken out is what was put in, in that order and once each, minus what was
removed on purpose (with a cause).

Every operation keeps `InOrder` and changes `waiting` and `taken` as the
operation on a plain list of waiting items would.
-/

namespace Fifo

variable {α κ : Type*}

inductive Fate (κ : Type*) where
  | waiting
  | taken
  | removed (cause : κ)

structure Entry (α κ : Type*) where
  item : α
  fate : Fate κ

def Entry.waits (e : Entry α κ) : Bool :=
  match e.fate with
  | .waiting => true
  | _ => false

def Entry.isTaken (e : Entry α κ) : Bool :=
  match e.fate with
  | .taken => true
  | _ => false

def Entry.isRemoved (e : Entry α κ) : Bool :=
  match e.fate with
  | .removed _ => true
  | _ => false

@[simp] theorem waits_waiting (a : α) : (⟨a, .waiting⟩ : Entry α κ).waits = true := rfl

@[simp] theorem waits_taken (a : α) : (⟨a, .taken⟩ : Entry α κ).waits = false := rfl

@[simp] theorem waits_removed (a : α) (c : κ) : (⟨a, .removed c⟩ : Entry α κ).waits = false := rfl

@[simp] theorem isTaken_waiting (a : α) : (⟨a, .waiting⟩ : Entry α κ).isTaken = false := rfl

@[simp] theorem isTaken_taken (a : α) : (⟨a, .taken⟩ : Entry α κ).isTaken = true := rfl

@[simp] theorem isTaken_removed (a : α) (c : κ) : (⟨a, .removed c⟩ : Entry α κ).isTaken = false :=
  rfl

abbrev Journal (α κ : Type*) := List (Entry α κ)

/-! ## Operations -/

def append (j : Journal α κ) (a : α) : Journal α κ := j ++ [⟨a, .waiting⟩]

def take : Journal α κ → Journal α κ
  | [] => []
  | e :: j => if e.waits then ⟨e.item, .taken⟩ :: j else e :: take j

def removeIf (cause : κ) (p : α → Bool) (j : Journal α κ) : Journal α κ :=
  j.map fun e => if e.waits && p e.item then ⟨e.item, .removed cause⟩ else e

def removeFirst (cause : κ) : Nat → Journal α κ → Journal α κ
  | 0, j => j
  | _ + 1, [] => []
  | n + 1, e :: j =>
    if e.waits then ⟨e.item, .removed cause⟩ :: removeFirst cause n j
    else e :: removeFirst cause (n + 1) j

attribute [local grind =] append take removeIf removeFirst

/-! ## Views -/

def items (j : Journal α κ) : List α := j.map Entry.item

def waiting (j : Journal α κ) : List α := (j.filter Entry.waits).map Entry.item

def taken (j : Journal α κ) : List α := (j.filter Entry.isTaken).map Entry.item

def removed (j : Journal α κ) : List α := (j.filter Entry.isRemoved).map Entry.item

def InOrder (j : Journal α κ) : Prop := j.Pairwise fun e f => e.waits = true → f.isTaken = false

theorem waiting_cons (e : Entry α κ) (j : Journal α κ) :
    waiting (e :: j) = if e.waits then e.item :: waiting j else waiting j := by
  unfold waiting
  rw [List.filter_cons]
  split <;> simp

theorem taken_cons (e : Entry α κ) (j : Journal α κ) :
    taken (e :: j) = if e.isTaken then e.item :: taken j else taken j := by
  unfold taken
  rw [List.filter_cons]
  split <;> simp

theorem removed_cons (e : Entry α κ) (j : Journal α κ) :
    removed (e :: j) = if e.isRemoved then e.item :: removed j else removed j := by
  unfold removed
  rw [List.filter_cons]
  split
  · rfl
  · rfl

theorem isRemoved_of_waits {e : Entry α κ} (h : e.waits = true) : e.isRemoved = false := by
  obtain ⟨a, fate⟩ := e
  cases fate with
  | waiting | taken => rfl
  | removed c => cases h

theorem isTaken_of_waits {e : Entry α κ} (h : e.waits = true) : e.isTaken = false := by
  obtain ⟨a, fate⟩ := e
  cases fate <;> simp_all [Entry.waits, Entry.isTaken]

theorem taken_eq_nil {j : Journal α κ} (h : ∀ e ∈ j, e.isTaken = false) : taken j = [] := by
  rw [taken, List.filter_eq_nil_iff.mpr, List.map_nil]
  intro e he
  rw [h e he]
  exact Bool.false_ne_true

/-! ## Putting in -/

@[simp] theorem items_append (j : Journal α κ) (a : α) : items (append j a) = items j ++ [a] := by
  simp [items, append]

@[simp] theorem waiting_append (j : Journal α κ) (a : α) :
    waiting (append j a) = waiting j ++ [a] := by
  simp [waiting, append, List.filter_cons]

@[simp] theorem taken_append (j : Journal α κ) (a : α) : taken (append j a) = taken j := by
  simp [taken, append]

@[simp] theorem removed_append (j : Journal α κ) (a : α) : removed (append j a) = removed j := by
  rw [removed, append, List.filter_append, List.map_append]
  exact List.append_nil _

theorem InOrder.append {j : Journal α κ} (h : InOrder j) (a : α) : InOrder (append j a) := by
  refine List.pairwise_append.mpr ⟨h, List.pairwise_singleton _ _, ?_⟩
  intro e _ f hf _
  rw [List.mem_singleton.mp hf]
  rfl

/-! ## Taking out -/

@[simp] theorem items_take (j : Journal α κ) : items (take j) = items j := by
  induction j with
  | nil => rfl
  | cons e j ih =>
    unfold items at ih ⊢
    rw [take]
    split <;> simp [ih]

theorem waiting_take (j : Journal α κ) : waiting (take j) = (waiting j).tail := by
  induction j with
  | nil => rfl
  | cons e j ih =>
    rw [take, waiting_cons]
    split
    next he => rw [waiting_cons]; simp
    next he => rw [waiting_cons, if_neg he, ih]

/-- In an ordered journal the item taken comes after all that were taken before. -/
theorem taken_take {j : Journal α κ} (h : InOrder j) {a : α} {w : List α}
    (hw : waiting j = a :: w) : taken (take j) = taken j ++ [a] := by
  induction j with
  | nil => cases hw
  | cons e j ih =>
    obtain ⟨hhead, htail⟩ := List.pairwise_cons.mp h
    rw [waiting_cons] at hw
    rw [take]
    by_cases he : e.waits = true
    · rw [if_pos he] at hw ⊢
      have hnone : taken j = [] := taken_eq_nil fun f hf => hhead f hf he
      obtain ⟨rfl, -⟩ := List.cons.inj hw
      rw [taken_cons, taken_cons, isTaken_of_waits he, hnone]
      rfl
    · rw [if_neg he] at hw ⊢
      rw [taken_cons, taken_cons, ih htail hw]
      split <;> simp

@[simp] theorem removed_take (j : Journal α κ) : removed (take j) = removed j := by
  induction j with
  | nil => rfl
  | cons e j ih =>
    rw [take]
    split
    next he =>
      rw [removed_cons, removed_cons, isRemoved_of_waits he]
      rfl
    next he => rw [removed_cons, removed_cons, ih]

theorem InOrder.take {j : Journal α κ} (h : InOrder j) : InOrder (take j) := by
  induction j with
  | nil => exact h
  | cons e j ih =>
    obtain ⟨hhead, htail⟩ := List.pairwise_cons.mp h
    rw [Fifo.take]
    split
    next he =>
      refine List.pairwise_cons.mpr ⟨fun f _ hwaits => ?_, htail⟩
      cases hwaits
    next he => exact List.pairwise_cons.mpr ⟨fun f _ hwaits => absurd hwaits he, ih htail⟩

/-! ## Removing -/

@[simp] theorem items_removeIf (cause : κ) (p : α → Bool) (j : Journal α κ) :
    items (removeIf cause p j) = items j := by
  unfold items removeIf
  rw [List.map_map]
  refine List.map_congr_left fun e _ => ?_
  simp only [Function.comp]
  split <;> rfl

@[simp] theorem waiting_removeIf (cause : κ) (p : α → Bool) (j : Journal α κ) :
    waiting (removeIf cause p j) = (waiting j).filter fun a => !p a := by
  induction j with
  | nil => rfl
  | cons e j ih =>
    have hcons : removeIf cause p (e :: j) =
        (if e.waits && p e.item then ⟨e.item, .removed cause⟩ else e) :: removeIf cause p j := rfl
    rw [hcons, waiting_cons, waiting_cons, ih]
    cases hw : e.waits <;> cases hp : p e.item <;> simp [hw, hp]

@[simp] theorem taken_removeIf (cause : κ) (p : α → Bool) (j : Journal α κ) :
    taken (removeIf cause p j) = taken j := by
  induction j with
  | nil => rfl
  | cons e j ih =>
    have hcons : removeIf cause p (e :: j) =
        (if e.waits && p e.item then ⟨e.item, .removed cause⟩ else e) :: removeIf cause p j := rfl
    rw [hcons, taken_cons, taken_cons, ih]
    split
    next he =>
      rw [Bool.and_eq_true] at he
      rw [isTaken_of_waits he.1]
      rfl
    next => rfl

theorem removed_removeIf_all (cause : κ) (j : Journal α κ) :
    (removed (removeIf cause (fun _ => true) j)).Perm (removed j ++ waiting j) := by
  induction j with
  | nil => exact .refl _
  | cons e j ih =>
    have hcons : removeIf cause (fun _ => true) (e :: j) =
        (if e.waits && true then ⟨e.item, .removed cause⟩ else e) ::
          removeIf cause (fun _ => true) j := rfl
    rw [hcons, removed_cons, removed_cons, waiting_cons, Bool.and_true]
    by_cases he : e.waits = true
    · rw [if_pos he, if_pos he, isRemoved_of_waits he]
      exact (ih.cons e.item).trans List.perm_middle.symm
    · rw [if_neg he, if_neg he]
      split
      · exact ih.cons e.item
      · exact ih

theorem InOrder.removeIf {j : Journal α κ} (h : InOrder j) (cause : κ) (p : α → Bool) :
    InOrder (removeIf cause p j) := by
  refine List.Pairwise.map _ (fun e f hef => ?_) h
  split <;> split
  · simp
  · simp
  · simp
  · exact hef

@[simp] theorem items_removeFirst (cause : κ) (n : Nat) (j : Journal α κ) :
    items (removeFirst cause n j) = items j := by
  induction j generalizing n with
  | nil => cases n <;> rfl
  | cons e j ih =>
    unfold items at ih ⊢
    cases n with
    | zero => rfl
    | succ n =>
      rw [removeFirst]
      split <;> simp [ih]

@[simp] theorem waiting_removeFirst (cause : κ) (n : Nat) (j : Journal α κ) :
    waiting (removeFirst cause n j) = (waiting j).drop n := by
  induction j generalizing n with
  | nil => cases n <;> rfl
  | cons e j ih =>
    cases n with
    | zero => rfl
    | succ n =>
      rw [removeFirst, waiting_cons]
      split
      next he => rw [waiting_cons, ih]; simp
      next he => rw [waiting_cons, if_neg he, ih]

@[simp] theorem taken_removeFirst (cause : κ) (n : Nat) (j : Journal α κ) :
    taken (removeFirst cause n j) = taken j := by
  induction j generalizing n with
  | nil => cases n <;> rfl
  | cons e j ih =>
    cases n with
    | zero => rfl
    | succ n =>
      rw [removeFirst, taken_cons]
      split
      next he => rw [taken_cons, ih, isTaken_of_waits he]; rfl
      next he => rw [taken_cons, ih]

theorem InOrder.removeFirst {j : Journal α κ} (h : InOrder j) (cause : κ) (n : Nat) :
    InOrder (removeFirst cause n j) := by
  induction j generalizing n with
  | nil => cases n <;> exact h
  | cons e j ih =>
    obtain ⟨hhead, htail⟩ := List.pairwise_cons.mp h
    cases n with
    | zero => exact h
    | succ n =>
      rw [Fifo.removeFirst]
      split
      next he =>
        refine List.pairwise_cons.mpr ⟨fun f _ hwaits => ?_, ih htail n⟩
        cases hwaits
      next he => exact List.pairwise_cons.mpr ⟨fun f _ hwaits => absurd hwaits he, ih htail _⟩

end Fifo
