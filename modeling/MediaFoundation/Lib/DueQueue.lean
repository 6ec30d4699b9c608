import Mathlib

/-!
# Queues ordered by due time

A queue of items, each under a due time of its own, of which only the earliest
is taken. An item that is added when its time is occupied gets the next time
that is free.
-/

variable {α : Type*}

structure DueQueue (α : Type*) where
  entries : List (Int × α)
  ordered : entries.Pairwise fun a b => a.1 < b.1

namespace DueQueue

def empty : DueQueue α := ⟨[], .nil⟩

def dues (q : DueQueue α) : List Int := q.entries.map Prod.fst

/-! ## The next free time -/

/-- The search from `t` on, for as many steps as there can be occupied times. -/
def nextFree (occupied : List Int) : Nat → Int → Int
  | 0, t => t
  | n + 1, t => if t ∈ occupied then nextFree occupied n (t + 1) else t

def freeTime (q : DueQueue α) (t : Int) : Int := nextFree q.dues q.entries.length t

theorem le_nextFree (occupied : List Int) (n : Nat) (t : Int) : t ≤ nextFree occupied n t := by
  induction n generalizing t with
  | zero => exact Int.le_refl _
  | succ n ih =>
    rw [nextFree]
    split
    · have := ih (t + 1)
      omega
    · exact Int.le_refl _

theorem nextFree_congr {occupied occupied' : List Int} {t : Int}
    (h : ∀ u, t ≤ u → (u ∈ occupied ↔ u ∈ occupied')) (n : Nat) :
    nextFree occupied n t = nextFree occupied' n t := by
  induction n generalizing t with
  | zero => rfl
  | succ n ih =>
    rw [nextFree, nextFree, if_congr (h t (Int.le_refl _)) rfl rfl,
      ih fun u hu => h u (by omega)]

/-- There are too few occupied times for the search to fail. -/
theorem nextFree_not_mem {occupied : List Int} {n : Nat} (h : occupied.length ≤ n) (t : Int) :
    nextFree occupied n t ∉ occupied := by
  induction n generalizing occupied t with
  | zero =>
    rw [List.length_eq_zero_iff.mp (Nat.le_zero.mp h)]
    exact List.not_mem_nil
  | succ n ih =>
    rw [nextFree]
    split
    next hmem =>
      -- the times from `t + 1` on are occupied alike without `t`
      have hrest : ∀ u, t + 1 ≤ u → (u ∈ occupied ↔ u ∈ occupied.filter fun u => u ≠ t) := by
        intro u hu
        rw [List.mem_filter, decide_eq_true_eq]
        exact ⟨fun hmem => ⟨hmem, by omega⟩, And.left⟩
      have hlength : (occupied.filter fun u => u ≠ t).length ≤ n := by
        have hlt : (occupied.filter fun u => u ≠ t).length < occupied.length := by
          refine List.length_filter_lt_length_iff_exists.mpr ⟨t, hmem, ?_⟩
          rw [decide_eq_true_eq]
          exact not_not.mpr rfl
        omega
      have hfree := ih hlength (t + 1)
      rw [← nextFree_congr hrest] at hfree
      intro hmem
      exact hfree ((hrest _ (le_nextFree _ _ _)).mp hmem)
    next hmem => exact hmem

theorem le_freeTime (q : DueQueue α) (t : Int) : t ≤ q.freeTime t := le_nextFree _ _ _

theorem freeTime_not_mem (q : DueQueue α) (t : Int) : q.freeTime t ∉ q.dues :=
  nextFree_not_mem (by rw [dues, List.length_map]) t

/-! ## Adding -/

/-- The entries with one more, before the first that is due later. -/
def insertEntry (e : Int × α) (es : List (Int × α)) : List (Int × α) :=
  es.orderedInsert (fun a b => a.1 ≤ b.1) e

theorem insertEntry_ordered {e : Int × α} {es : List (Int × α)}
    (hes : es.Pairwise fun a b => a.1 < b.1) (he : e.1 ∉ es.map Prod.fst) :
    (insertEntry e es).Pairwise fun a b => a.1 < b.1 := by
  induction es with
  | nil => exact List.pairwise_singleton _ _
  | cons a es ih =>
    obtain ⟨ha, hes⟩ := List.pairwise_cons.mp hes
    rw [List.map_cons, List.mem_cons, not_or] at he
    unfold insertEntry
    rw [List.orderedInsert_cons]
    split
    next hle =>
      have hlt : e.1 < a.1 := lt_of_le_of_ne hle he.1
      refine List.pairwise_cons.mpr ⟨fun b hb => ?_, List.pairwise_cons.mpr ⟨ha, hes⟩⟩
      rcases List.mem_cons.mp hb with rfl | hb
      · exact hlt
      · exact hlt.trans (ha b hb)
    next hle =>
      refine List.pairwise_cons.mpr ⟨fun b hb => ?_, ih hes he.2⟩
      rcases (List.mem_orderedInsert _).mp hb with rfl | hb
      · exact Int.not_le.mp hle
      · exact ha b hb

def add (q : DueQueue α) (t : Int) (a : α) : DueQueue α :=
  ⟨insertEntry (q.freeTime t, a) q.entries, insertEntry_ordered q.ordered (q.freeTime_not_mem t)⟩

theorem entries_add (q : DueQueue α) (t : Int) (a : α) :
    (q.add t a).entries.Perm ((q.freeTime t, a) :: q.entries) :=
  List.perm_orderedInsert _ _ _

/-! ## The earliest item -/

def head? (q : DueQueue α) : Option (Int × α) := q.entries.head?

def tail (q : DueQueue α) : DueQueue α := ⟨q.entries.tail, q.ordered.tail⟩

variable {q : DueQueue α} {e : Int × α} {t : Int} {a : α}

theorem entries_of_head? (h : q.head? = some e) : q.entries = e :: q.tail.entries :=
  (List.eq_cons_of_mem_head? h)

theorem head?_mem (h : q.head? = some e) : e ∈ q.entries := List.mem_of_head? h

/-- No item waits that is due before the head. -/
theorem head?_le (h : q.head? = some e) {e' : Int × α} (he : e' ∈ q.entries) : e.1 ≤ e'.1 := by
  have hordered := q.ordered
  rw [entries_of_head? h] at hordered he
  rcases List.mem_cons.mp he with rfl | he
  · exact Int.le_refl _
  · exact ((List.pairwise_cons.mp hordered).1 e' he).le

theorem head?_add (h : q.head? = some e) :
    (q.add t a).head? = some (if q.freeTime t ≤ e.1 then (q.freeTime t, a) else e) := by
  show (insertEntry (q.freeTime t, a) q.entries).head? = _
  rw [entries_of_head? h, insertEntry, List.orderedInsert_cons]
  split
  · rfl
  · rfl

theorem head?_add_of_lt (h : q.head? = some e) (ht : e.1 < q.freeTime t) :
    (q.add t a).head? = some e := by
  rw [head?_add h, if_neg (by omega)]

theorem head?_add_le (h : q.head? = some e) : ∃ e', (q.add t a).head? = some e' ∧ e'.1 ≤ e.1 := by
  refine ⟨_, head?_add h, ?_⟩
  split
  next hle => exact hle
  next => exact Int.le_refl _

/-! ## The due times -/

theorem mem_dues_add {u : Int} : u ∈ (q.add t a).dues ↔ u = q.freeTime t ∨ u ∈ q.dues := by
  rw [dues, ((q.entries_add t a).map Prod.fst).mem_iff, List.map_cons, List.mem_cons]
  rfl

theorem mem_dues_of_tail {u : Int} (hu : u ∈ q.tail.dues) : u ∈ q.dues :=
  (List.Sublist.map Prod.fst (List.tail_sublist q.entries)).subset hu

theorem head?_not_mem_tail (h : q.head? = some e) : e.1 ∉ q.tail.dues := by
  intro hmem
  have hordered := q.ordered
  rw [entries_of_head? h] at hordered
  obtain ⟨e', he', heq⟩ := List.mem_map.mp hmem
  have hlt := (List.pairwise_cons.mp hordered).1 e' he'
  omega

end DueQueue
