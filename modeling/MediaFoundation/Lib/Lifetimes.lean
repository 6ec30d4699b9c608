import Mathlib

/-!
# Lifetimes

Objects that are constructed, read and destroyed, each known by a number, with a
log of what happened to them, and owners that hold one object each at most.
-/

namespace Lifetimes

inductive Event where
  | constructed (id : Nat)
  | read (id : Nat)
  | destroyed (id : Nat)
deriving DecidableEq

def Event.id : Event → Nat
  | constructed id | read id | destroyed id => id

abbrev Log := List Event

def Alive (log : Log) (id : Nat) : Prop := .constructed id ∈ log ∧ .destroyed id ∉ log

def Orderly : Log → Prop
  | [] => True
  | .constructed id :: past => (∀ e ∈ past, e.id ≠ id) ∧ Orderly past
  | .read id :: past => Alive past id ∧ Orderly past
  | .destroyed id :: past => Alive past id ∧ Orderly past

section Orderly

variable {log past : Log} {id : Nat} {e : Event}

theorem Orderly.tail (h : Orderly (e :: past)) : Orderly past := by
  cases e <;> exact h.2

/-- What happens to an object that is destroyed: nothing more. -/
theorem Orderly.after_destroyed {later : Log} (h : Orderly (later ++ .destroyed id :: past)) :
    ∀ e ∈ later, e.id ≠ id := by
  induction later with
  | nil => exact fun e he => absurd he List.not_mem_nil
  | cons e later ih =>
    have hgone : Event.destroyed id ∈ later ++ .destroyed id :: past :=
      List.mem_append_right _ List.mem_cons_self
    refine List.forall_mem_cons.mpr ⟨?_, ih h.tail⟩
    rintro rfl
    cases e with
    | constructed => exact h.1 _ hgone rfl
    | read | destroyed => exact h.1.2 hgone

theorem Orderly.count_constructed_le (h : Orderly log) (id : Nat) :
    log.count (.constructed id) ≤ 1 := by
  induction log with
  | nil => exact Nat.zero_le _
  | cons e past ih =>
    have hpast := ih h.tail
    by_cases he : e = .constructed id
    · subst he
      have hfresh : Event.constructed id ∉ past := fun hmem => h.1 _ hmem rfl
      rw [List.count_cons_self, List.count_eq_zero.mpr hfresh]
    · rwa [List.count_cons_of_ne he]

theorem Orderly.count_destroyed_le (h : Orderly log) (id : Nat) :
    log.count (.destroyed id) ≤ 1 := by
  induction log with
  | nil => exact Nat.zero_le _
  | cons e past ih =>
    have hpast := ih h.tail
    by_cases he : e = .destroyed id
    · subst he
      have halive : Event.destroyed id ∉ past := h.1.2
      rw [List.count_cons_self, List.count_eq_zero.mpr halive]
    · rwa [List.count_cons_of_ne he]

end Orderly

-- Owners

variable {ν : Type*}

/-- The objects that are alive are held by one owner each; `next` is the number of
the object that is constructed next. -/
structure Owned (owner : ν → Option Nat) (log : Log) (next : Nat) : Prop where
  orderly : Orderly log
  fresh : ∀ e ∈ log, e.id < next
  alive : ∀ id, Alive log id ↔ ∃ n, owner n = some id
  single : ∀ n m id, owner n = some id → owner m = some id → n = m

namespace Owned

variable {owner : ν → Option Nat} {log : Log} {next : Nat} {n m : ν} {id : Nat}

theorem start : Owned (fun _ : ν => none) [] 0 where
  orderly := trivial
  fresh e he := absurd he List.not_mem_nil
  alive id := iff_of_false (fun h => absurd h.1 List.not_mem_nil) (by simp)
  single n m id h := by cases h

theorem lt_next (h : Owned owner log next) (hn : owner n = some id) : id < next :=
  h.fresh _ ((h.alive id).mpr ⟨n, hn⟩).1

/-- An owner that changes nothing. -/
theorem congr {owner' : ν → Option Nat} (h : Owned owner log next)
    (hsame : ∀ n, owner' n = owner n) : Owned owner' log next := by
  rwa [funext hsame]

theorem read (h : Owned owner log next) (hn : owner n = some id) :
    Owned owner (.read id :: log) next := by
  have halive : ∀ id', Alive (.read id :: log) id' ↔ Alive log id' := by
    intro id'
    simp [Alive]
  refine ⟨⟨(h.alive id).mpr ⟨n, hn⟩, h.orderly⟩, ?_, fun id' => ?_, h.single⟩
  · exact List.forall_mem_cons.mpr ⟨h.lt_next hn, h.fresh⟩
  · rw [halive, h.alive]

section Moves

variable [DecidableEq ν]

theorem construct (h : Owned owner log next) (hn : owner n = none) :
    Owned (Function.update owner n (some next)) (.constructed next :: log) (next + 1) := by
  have hfresh : ∀ e ∈ log, e.id ≠ next := fun e he => (h.fresh e he).ne
  have hold : ∀ {m : ν} {id : Nat}, owner m = some id → m ≠ n ∧ id ≠ next := by
    intro m id hm
    refine ⟨?_, (h.lt_next hm).ne⟩
    rintro rfl
    rw [hn] at hm
    cases hm
  refine ⟨⟨hfresh, h.orderly⟩, ?_, fun id => ?_, fun m m' id hm hm' => ?_⟩
  · refine List.forall_mem_cons.mpr ⟨Nat.lt_succ_self _, fun e he => ?_⟩
    exact Nat.lt_succ_of_lt (h.fresh e he)
  · by_cases hid : id = next
    · subst hid
      refine iff_of_true ⟨List.mem_cons_self, ?_⟩ ⟨n, Function.update_self ..⟩
      intro hgone
      rcases List.mem_cons.mp hgone with hgone | hgone
      · cases hgone
      · exact hfresh _ hgone rfl
    · have halive : Alive (.constructed next :: log) id ↔ Alive log id := by
        simp [Alive, hid]
      rw [halive, h.alive]
      constructor
      · rintro ⟨m, hm⟩
        exact ⟨m, by rw [Function.update_of_ne (hold hm).1, hm]⟩
      · rintro ⟨m, hm⟩
        by_cases hmn : m = n
        · rw [hmn, Function.update_self, Option.some.injEq] at hm
          exact absurd hm.symm hid
        · rw [Function.update_of_ne hmn] at hm
          exact ⟨m, hm⟩
  · by_cases hmn : m = n
    · by_cases hmn' : m' = n
      · rw [hmn, hmn']
      · rw [hmn, Function.update_self, Option.some.injEq] at hm
        rw [Function.update_of_ne hmn'] at hm'
        exact absurd hm.symm (hold hm').2
    · rw [Function.update_of_ne hmn] at hm
      by_cases hmn' : m' = n
      · rw [hmn', Function.update_self, Option.some.injEq] at hm'
        exact absurd hm'.symm (hold hm).2
      · rw [Function.update_of_ne hmn'] at hm'
        exact h.single m m' id hm hm'

theorem destroy (h : Owned owner log next) (hn : owner n = some id) :
    Owned (Function.update owner n none) (.destroyed id :: log) next := by
  refine ⟨⟨(h.alive id).mpr ⟨n, hn⟩, h.orderly⟩, ?_, fun id' => ?_, fun m m' id' hm hm' => ?_⟩
  · exact List.forall_mem_cons.mpr ⟨h.lt_next hn, h.fresh⟩
  · by_cases hid : id' = id
    · subst hid
      refine iff_of_false (fun h' => h'.2 List.mem_cons_self) ?_
      rintro ⟨m, hm⟩
      by_cases hmn : m = n
      · rw [hmn, Function.update_self] at hm
        cases hm
      · rw [Function.update_of_ne hmn] at hm
        exact hmn (h.single m n id' hm hn)
    · have halive : Alive (.destroyed id :: log) id' ↔ Alive log id' := by
        simp [Alive, hid]
      rw [halive, h.alive]
      constructor
      · rintro ⟨m, hm⟩
        refine ⟨m, ?_⟩
        rw [Function.update_of_ne, hm]
        rintro rfl
        rw [hn, Option.some.injEq] at hm
        exact hid hm.symm
      · rintro ⟨m, hm⟩
        by_cases hmn : m = n
        · rw [hmn, Function.update_self] at hm
          cases hm
        · rw [Function.update_of_ne hmn] at hm
          exact ⟨m, hm⟩
  · by_cases hmn : m = n
    · rw [hmn, Function.update_self] at hm
      cases hm
    · by_cases hmn' : m' = n
      · rw [hmn', Function.update_self] at hm'
        cases hm'
      · rw [Function.update_of_ne hmn] at hm
        rw [Function.update_of_ne hmn'] at hm'
        exact h.single m m' id' hm hm'

theorem hand (h : Owned owner log next) (hn : owner n = none) (hm : owner m = some id) :
    Owned (Function.update (Function.update owner m none) n (some id)) log next := by
  have hne : m ≠ n := by
    rintro rfl
    rw [hn] at hm
    cases hm
  -- the new owner stands for the old one
  have hold : ∀ k id', Function.update (Function.update owner m none) n (some id) k = some id' →
      owner (if k = n then m else k) = some id' ∧ k ≠ m := by
    intro k id' hk
    by_cases hkn : k = n
    · rw [hkn, Function.update_self] at hk
      rw [if_pos hkn, hkn]
      exact ⟨hm.trans hk, hne.symm⟩
    · rw [Function.update_of_ne hkn] at hk
      by_cases hkm : k = m
      · rw [hkm, Function.update_self] at hk
        cases hk
      · rw [Function.update_of_ne hkm] at hk
        rw [if_neg hkn]
        exact ⟨hk, hkm⟩
  refine ⟨h.orderly, h.fresh, fun id' => ?_, fun k k' id' hk hk' => ?_⟩
  · rw [h.alive]
    constructor
    · rintro ⟨k, hk⟩
      by_cases hkm : k = m
      · refine ⟨n, ?_⟩
        rw [Function.update_self, ← hm, ← hkm, hk]
      · refine ⟨k, ?_⟩
        have hkn : k ≠ n := by
          rintro rfl
          rw [hn] at hk
          cases hk
        rw [Function.update_of_ne hkn, Function.update_of_ne hkm, hk]
    · rintro ⟨k, hk⟩
      exact ⟨_, (hold k id' hk).1⟩
  · obtain ⟨hk, hkm⟩ := hold k id' hk
    obtain ⟨hk', hkm'⟩ := hold k' id' hk'
    have hsame := h.single _ _ id' hk hk'
    by_cases hkn : k = n
    · by_cases hkn' : k' = n
      · rw [hkn, hkn']
      · rw [if_pos hkn, if_neg hkn'] at hsame
        exact absurd hsame.symm hkm'
    · rw [if_neg hkn] at hsame
      by_cases hkn' : k' = n
      · rw [if_pos hkn'] at hsame
        exact absurd hsame hkm
      · rwa [if_neg hkn'] at hsame

end Moves

-- What follows

theorem not_read_after {later earlier : Log} (h : Owned owner log next)
    (hlog : log = later ++ .destroyed id :: earlier) : .read id ∉ later := by
  intro hread
  have horderly := h.orderly
  rw [hlog] at horderly
  exact horderly.after_destroyed _ hread rfl

/-- An object that was constructed is held, or has been destroyed once. -/
theorem destroyed_once (h : Owned owner log next) (hid : .constructed id ∈ log) :
    log.count (.constructed id) = 1 ∧
      ((∃ n, owner n = some id) ∧ log.count (.destroyed id) = 0 ∨
        (∀ n, owner n ≠ some id) ∧ log.count (.destroyed id) = 1) := by
  refine ⟨le_antisymm (h.orderly.count_constructed_le id) (List.count_pos_iff.mpr hid), ?_⟩
  by_cases hgone : Event.destroyed id ∈ log
  · refine .inr ⟨fun n hn => ((h.alive id).mpr ⟨n, hn⟩).2 hgone, ?_⟩
    exact le_antisymm (h.orderly.count_destroyed_le id) (List.count_pos_iff.mpr hgone)
  · exact .inl ⟨(h.alive id).mp ⟨hid, hgone⟩, List.count_eq_zero.mpr hgone⟩

end Owned

end Lifetimes
