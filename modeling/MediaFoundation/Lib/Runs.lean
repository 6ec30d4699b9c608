import Mathlib

/-!
# Runs of a partial step function

A component is given by `step : σ → ℓ → Option σ`: what one atomic block with
label `l` does to a state, `none` when the block cannot be taken there. A run
takes a list of labels in order, so a theorem about every list of labels is a
theorem about every interleaving of the blocks.
-/

namespace Runs

variable {σ ℓ γ : Type*}

/-- The state after taking the labels in order. -/
def run (step : σ → ℓ → Option σ) : σ → List ℓ → Option σ
  | s, [] => some s
  | s, l :: ls => (step s l).bind fun t => run step t ls

/-- Every label of the run meets `good` in the state it is taken from. -/
def Along (step : σ → ℓ → Option σ) (good : σ → ℓ → Prop) : σ → List ℓ → Prop
  | _, [] => True
  | s, l :: ls => good s l ∧
      match step s l with
      | some t => Along step good t ls
      | none => True

section Basic

variable {step : σ → ℓ → Option σ} {good : σ → ℓ → Prop}

@[simp] theorem run_nil (s : σ) : run step s [] = some s := rfl

theorem run_cons (s : σ) (l : ℓ) (ls : List ℓ) :
    run step s (l :: ls) = (step s l).bind fun t => run step t ls := rfl

/-- A nonempty run is a first step followed by the rest of the run. -/
theorem run_cons_some {s t : σ} {l : ℓ} {ls : List ℓ} :
    run step s (l :: ls) = some t ↔ ∃ u, step s l = some u ∧ run step u ls = some t := by
  rw [run_cons]
  constructor
  · intro h
    cases hs : step s l with
    | none => rw [hs] at h; simp at h
    | some u => rw [hs] at h; exact ⟨u, rfl, h⟩
  · rintro ⟨u, hu, h⟩
    rw [hu]
    exact h

theorem run_append (s : σ) (ls ms : List ℓ) :
    run step s (ls ++ ms) = (run step s ls).bind fun t => run step t ms := by
  induction ls generalizing s with
  | nil => rfl
  | cons l ls ih =>
    rw [List.cons_append, run_cons, run_cons]
    cases step s l with
    | none => rfl
    | some u => exact ih u

theorem Along.cons {s t : σ} {l : ℓ} {ls : List ℓ} (hl : good s l) (hs : step s l = some t)
    (h : Along step good t ls) : Along step good s (l :: ls) := by
  refine ⟨hl, ?_⟩
  rw [hs]
  exact h

/-- Whether a condition is met along a given run can be computed. -/
instance decidableAlong [∀ s l, Decidable (good s l)] :
    ∀ (ls : List ℓ) (s : σ), Decidable (Along step good s ls)
  | [], _ => .isTrue trivial
  | l :: ls, s =>
    @instDecidableAnd _ _ inferInstance
      (match step s l with
      | some t => decidableAlong ls t
      | none => .isTrue trivial)

/-- A condition that every label meets in every state is met along the run. -/
theorem along_of_forall_mem {ls : List ℓ} (h : ∀ l ∈ ls, ∀ s, good s l) (s : σ) :
    Along step good s ls := by
  induction ls generalizing s with
  | nil => trivial
  | cons l ls ih =>
    refine ⟨h l List.mem_cons_self s, ?_⟩
    cases step s l with
    | none => trivial
    | some t => exact ih (fun l hl => h l (List.mem_cons_of_mem _ hl)) t

theorem along_tail {s t : σ} {l : ℓ} {ls : List ℓ} (h : Along step good s (l :: ls))
    (ht : step s l = some t) : Along step good t ls := by
  have h2 := h.2
  rw [ht] at h2
  exact h2

theorem Along.last :
    ∀ {ls : List ℓ} {s t : σ} {l : ℓ}, Along step good s (ls ++ [l]) → run step s ls = some t →
      good t l := by
  intro ls
  induction ls with
  | nil =>
    intro s t l h hrun
    rw [run_nil, Option.some.injEq] at hrun
    exact hrun ▸ h.1
  | cons l' ls ih =>
    intro s t l h hrun
    obtain ⟨u, hu, hrun⟩ := run_cons_some.mp hrun
    exact ih (along_tail h hu) hrun

theorem Along.append :
    ∀ {ls ms : List ℓ} {s t : σ}, Along step good s ls → run step s ls = some t →
      Along step good t ms → Along step good s (ls ++ ms) := by
  intro ls
  induction ls with
  | nil =>
    intro ms s t _ hrun h
    rw [run_nil, Option.some.injEq] at hrun
    exact hrun ▸ h
  | cons l ls ih =>
    intro ms s t h hrun h'
    obtain ⟨u, hu, hrun⟩ := run_cons_some.mp hrun
    exact .cons h.1 hu (ih (along_tail h hu) hrun h')

theorem Along.and {good' : σ → ℓ → Prop} :
    ∀ {ls : List ℓ} {s : σ}, Along step good s ls → Along step good' s ls →
      Along step (fun s l => good s l ∧ good' s l) s ls := by
  intro ls
  induction ls with
  | nil => intro s _ _; trivial
  | cons l ls ih =>
    intro s h h'
    refine ⟨⟨h.1, h'.1⟩, ?_⟩
    have h2 := h.2
    have h2' := h'.2
    cases hs : step s l with
    | none => trivial
    | some t =>
      rw [hs] at h2 h2'
      exact ih h2 h2'

/-- **The invariant rule.** A property that every step meeting the condition
keeps holds at the end of every run whose steps all meet the condition. -/
theorem run_invariant {I : σ → Prop}
    (hstep : ∀ s l t, I s → good s l → step s l = some t → I t) :
    ∀ {ls : List ℓ} {s t : σ}, I s → Along step good s ls → run step s ls = some t → I t := by
  intro ls
  induction ls with
  | nil =>
    intro s t hI _ h
    rw [run_nil, Option.some.injEq] at h
    exact h ▸ hI
  | cons l ls ih =>
    intro s t hI hA h
    obtain ⟨u, hu, h⟩ := run_cons_some.mp h
    exact ih (hstep s l u hI hA.1 hu) (along_tail hA hu) h

/-- Likewise, and the run gets to its end, if no step that meets the condition
is refused. -/
theorem run_total {I : σ → Prop}
    (hstep : ∀ s l, I s → good s l → ∃ t, step s l = some t ∧ I t) :
    ∀ {ls : List ℓ} {s : σ}, I s → Along step good s ls → ∃ t, run step s ls = some t ∧ I t := by
  intro ls
  induction ls with
  | nil => exact fun hI _ => ⟨_, rfl, hI⟩
  | cons l ls ih =>
    intro s hI hA
    obtain ⟨u, hu, hIu⟩ := hstep s l hI hA.1
    obtain ⟨t, ht, hIt⟩ := ih hIu (along_tail hA hu)
    exact ⟨t, run_cons_some.mpr ⟨u, hu, ht⟩, hIt⟩

theorem run_keeps {I : σ → Prop} (hstep : ∀ s l t, I s → step s l = some t → I t) :
    ∀ {ls : List ℓ} {s t : σ}, I s → run step s ls = some t → I t := by
  intro ls
  induction ls with
  | nil =>
    intro s t hI h
    rw [run_nil, Option.some.injEq] at h
    exact h ▸ hI
  | cons l ls ih =>
    intro s t hI h
    obtain ⟨u, hu, h⟩ := run_cons_some.mp h
    exact ih (hstep s l u hI hu) h

/-- A condition that follows from another one in the states with a property is
met along the runs that meet the other one, if their steps keep the property. -/
theorem along_imp {good' : σ → ℓ → Prop} {I : σ → Prop}
    (himp : ∀ s l, I s → good s l → good' s l)
    (hstep : ∀ s l t, I s → good s l → step s l = some t → I t) :
    ∀ {ls : List ℓ} {s : σ}, I s → Along step good s ls → Along step good' s ls := by
  intro ls
  induction ls with
  | nil => intro s _ _; trivial
  | cons l ls ih =>
    intro s hI h
    refine ⟨himp s l hI h.1, ?_⟩
    cases hs : step s l with
    | none => trivial
    | some t => exact ih (hstep s l t hI h.1 hs) (along_tail h hs)

/-- Two conditions that agree in the states with a property are met along the
same runs, if the steps that meet them keep it. -/
theorem along_congr {good' : σ → ℓ → Prop} {I : σ → Prop}
    (hiff : ∀ s l, I s → (good s l ↔ good' s l))
    (hstep : ∀ s l t, I s → good s l → step s l = some t → I t) :
    ∀ {ls : List ℓ} {s : σ}, I s → (Along step good s ls ↔ Along step good' s ls) := by
  intro ls
  induction ls with
  | nil => intro s _; exact Iff.rfl
  | cons l ls ih =>
    intro s hI
    constructor
    · intro h
      refine ⟨(hiff s l hI).mp h.1, ?_⟩
      cases hs : step s l with
      | none => trivial
      | some t => exact (ih (hstep s l t hI h.1 hs)).mp (along_tail h hs)
    · intro h
      have hgood := (hiff s l hI).mpr h.1
      refine ⟨hgood, ?_⟩
      cases hs : step s l with
      | none => trivial
      | some t => exact (ih (hstep s l t hI hgood hs)).mpr (along_tail h hs)

end Basic

/-! ## History variables -/

/-- The component with a history variable: `record g s l t` is the history
after the step from `s` to `t`. The steps are those of the component. -/
def withGhost (step : σ → ℓ → Option σ) (record : γ → σ → ℓ → σ → γ) :
    σ × γ → ℓ → Option (σ × γ) :=
  fun x l => (step x.1 l).map fun t => (t, record x.2 x.1 l t)

section Ghost

variable {step : σ → ℓ → Option σ} {record : γ → σ → ℓ → σ → γ}

theorem withGhost_some {x y : σ × γ} {l : ℓ} :
    withGhost step record x l = some y ↔
      step x.1 l = some y.1 ∧ y.2 = record x.2 x.1 l y.1 := by
  obtain ⟨t, g⟩ := y
  simp only [withGhost, Option.map_eq_some_iff, Prod.mk.injEq]
  constructor
  · rintro ⟨u, hu, rfl, rfl⟩
    exact ⟨hu, rfl⟩
  · rintro ⟨hu, rfl⟩
    exact ⟨t, hu, rfl, rfl⟩

end Ghost

end Runs
