import MediaFoundation.Lib.Runs

/-!
# What a fair schedule brings about

A component with a partial step function never ends: at every time it takes one
more step. Several helpers take its steps. A helper is treated fairly when it
does not stay ready for ever without a step of its own.
-/

namespace Response

variable {σ ℓ τ : Type*}

structure Endless (step : σ → ℓ → Option σ) where
  state : Nat → σ
  label : Nat → ℓ
  steps : ∀ i, step (state i) (label i) = some (state (i + 1))

/-- A helper that is ready from some time on acts then or later. -/
def Fair {step : σ → ℓ → Option σ} (ready : τ → σ → Prop) (acts : τ → σ → ℓ → Prop)
    (r : Endless step) : Prop :=
  ∀ t i, (∀ j ≥ i, ready t (r.state j)) → ∃ j ≥ i, acts t (r.state j) (r.label j)

/-- While the goal is open, the wanted helper is ready. A step reaches the goal,
or lowers the rank, or it is a step of somebody else and leaves rank and helper
as they are. -/
structure Descent (step : σ → ℓ → Option σ) (allowed : σ → ℓ → Prop) (ready : τ → σ → Prop)
    (acts : τ → σ → ℓ → Prop) (pending goal : σ → Prop) (rank : σ → Nat) (helper : σ → τ) :
    Prop where
  ready : ∀ s, pending s → ready (helper s) s
  step : ∀ s l t, pending s → allowed s l → step s l = some t →
    goal t ∨ pending t ∧ (rank t < rank s ∨
      rank t = rank s ∧ helper t = helper s ∧ ¬ acts (helper s) s l)

section Rule

variable {step : σ → ℓ → Option σ} {allowed : σ → ℓ → Prop} {ready : τ → σ → Prop}
  {acts : τ → σ → ℓ → Prop} {pending goal : σ → Prop} {rank : σ → Nat} {helper : σ → τ}
  {r : Endless step}

/-- As long as neither the goal nor a lower rank is reached, nobody helps. -/
theorem Descent.waits (h : Descent step allowed ready acts pending goal rank helper)
    (hallowed : ∀ i, allowed (r.state i) (r.label i)) {i : Nat} (hpending : pending (r.state i))
    (hgoal : ∀ j ≥ i, ¬ goal (r.state j))
    (hrank : ∀ j ≥ i, pending (r.state j) → ¬ rank (r.state j) < rank (r.state i)) (k : Nat) :
    pending (r.state (i + k)) ∧ rank (r.state (i + k)) = rank (r.state i) ∧
      helper (r.state (i + k)) = helper (r.state i) ∧
      ¬ acts (helper (r.state i)) (r.state (i + k)) (r.label (i + k)) := by
  have hstep : ∀ k, pending (r.state (i + k)) → rank (r.state (i + k)) = rank (r.state i) →
      pending (r.state (i + k + 1)) ∧ rank (r.state (i + k + 1)) = rank (r.state i) ∧
        helper (r.state (i + k + 1)) = helper (r.state (i + k)) ∧
        ¬ acts (helper (r.state (i + k))) (r.state (i + k)) (r.label (i + k)) := by
    intro k hp hr
    rcases h.step _ _ _ hp (hallowed _) (r.steps (i + k)) with hg | ⟨hp', hlt | ⟨heq, hh, ha⟩⟩
    · exact absurd hg (hgoal _ (by omega))
    · exact absurd (hr ▸ hlt) (hrank _ (by omega) hp')
    · exact ⟨hp', heq.trans hr, hh, ha⟩
  have hsame : pending (r.state (i + k)) ∧ rank (r.state (i + k)) = rank (r.state i) ∧
      helper (r.state (i + k)) = helper (r.state i) := by
    induction k with
    | zero => exact ⟨hpending, rfl, rfl⟩
    | succ k ih =>
      obtain ⟨hp, hr, hh, -⟩ := hstep k ih.1 ih.2.1
      exact ⟨hp, hr, hh.trans ih.2.2⟩
  obtain ⟨hp, hr, hh⟩ := hsame
  refine ⟨hp, hr, hh, ?_⟩
  have hidle := (hstep k hp hr).2.2.2
  rwa [hh] at hidle

/-- **The response rule.** Along a fair run whose steps are all allowed, what a
descent leads to is reached. -/
theorem Descent.responds (h : Descent step allowed ready acts pending goal rank helper)
    (hfair : Fair ready acts r) (hallowed : ∀ i, allowed (r.state i) (r.label i)) :
    ∀ i, pending (r.state i) → ∃ j ≥ i, goal (r.state j) := by
  suffices hall : ∀ n i, rank (r.state i) = n → pending (r.state i) → ∃ j ≥ i, goal (r.state j) from
    fun i => hall _ i rfl
  intro n
  induction n using Nat.strong_induction_on with
  | _ n ih =>
    intro i hn hpending
    by_contra hnever
    have hgoal : ∀ j ≥ i, ¬ goal (r.state j) := fun j hj hg => hnever ⟨j, hj, hg⟩
    have hrank : ∀ j ≥ i, pending (r.state j) → ¬ rank (r.state j) < rank (r.state i) := by
      intro j hj hp hlt
      obtain ⟨k, hk, hg⟩ := ih _ (hn ▸ hlt) j rfl hp
      exact hgoal k (hj.trans hk) hg
    have hwaits := h.waits hallowed hpending hgoal hrank
    obtain ⟨j, hj, hacts⟩ := hfair (helper (r.state i)) i fun j hj => by
      obtain ⟨k, rfl⟩ := Nat.exists_eq_add_of_le hj
      have hready := h.ready _ (hwaits k).1
      rwa [(hwaits k).2.2.1] at hready
    obtain ⟨k, rfl⟩ := Nat.exists_eq_add_of_le hj
    exact (hwaits k).2.2.2 hacts

end Rule

/-! ## Endless runs after finite ones -/

section Endless

variable {step : σ → ℓ → Option σ} {ready : τ → σ → Prop} {acts : τ → σ → ℓ → Prop}

/-- The run that takes one label for ever. -/
def Endless.iterate (f : σ → σ) (l : ℓ) (h : ∀ s, step s l = some (f s)) (s : σ) :
    Endless step where
  state i := f^[i] s
  label _ := l
  steps i := by rw [Function.iterate_succ_apply', h]

def Endless.cons (s : σ) (l : ℓ) (r : Endless step) (h : step s l = some (r.state 0)) :
    Endless step where
  state
    | 0 => s
    | i + 1 => r.state i
  label
    | 0 => l
    | i + 1 => r.label i
  steps
    | 0 => h
    | i + 1 => r.steps i

def Endless.drop (r : Endless step) (n : Nat) : Endless step where
  state i := r.state (i + n)
  label i := r.label (i + n)
  steps i := by
    rw [show i + 1 + n = i + n + 1 by omega]
    exact r.steps (i + n)

@[simp] theorem Endless.drop_state_zero (r : Endless step) (n : Nat) :
    (r.drop n).state 0 = r.state n :=
  congrArg r.state (Nat.zero_add n)

theorem Fair.drop {r : Endless step} (h : Fair ready acts r) (n : Nat) :
    Fair ready acts (r.drop n) := by
  intro t i hready
  have hlater : ∀ j ≥ i + n, ready t (r.state j) := by
    intro j hj
    obtain ⟨k, rfl⟩ := Nat.exists_eq_add_of_le' (show n ≤ j by omega)
    exact hready k (by omega)
  obtain ⟨j, hj, hacts⟩ := h t (i + n) hlater
  obtain ⟨k, rfl⟩ := Nat.exists_eq_add_of_le' (show n ≤ j by omega)
  exact ⟨k, by omega, hacts⟩

/-- An endless run from the end of a finite one goes on with it. -/
theorem exists_prepend {good : σ → ℓ → Prop} {r : Endless step}
    (hgood : ∀ i, good (r.state i) (r.label i)) :
    ∀ {ls : List ℓ} {s : σ}, Runs.run step s ls = some (r.state 0) → Runs.Along step good s ls →
      ∃ r' : Endless step, r'.state 0 = s ∧ (∀ i, good (r'.state i) (r'.label i)) ∧
        ∀ i, r'.state (i + ls.length) = r.state i ∧ r'.label (i + ls.length) = r.label i := by
  intro ls
  induction ls with
  | nil =>
    intro s hrun _
    rw [Runs.run_nil, Option.some.injEq] at hrun
    exact ⟨r, hrun.symm, hgood, fun i => ⟨rfl, rfl⟩⟩
  | cons l ls ih =>
    intro s hrun halong
    obtain ⟨u, hu, hrun⟩ := Runs.run_cons_some.mp hrun
    obtain ⟨r', rfl, hgood', htail⟩ := ih hrun (Runs.along_tail halong hu)
    refine ⟨r'.cons s l hu, rfl, fun i => ?_, htail⟩
    cases i with
    | zero => exact halong.1
    | succ i => exact hgood' i

theorem Fair.of_tail {r r' : Endless step} (n : Nat)
    (htail : ∀ i, r'.state (i + n) = r.state i ∧ r'.label (i + n) = r.label i)
    (h : Fair ready acts r) : Fair ready acts r' := by
  intro t i hready
  obtain ⟨j, hj, hacts⟩ := h t i fun j hj => by
    rw [← (htail j).1]
    exact hready _ (by omega)
  refine ⟨j + n, by omega, ?_⟩
  rw [(htail j).1, (htail j).2]
  exact hacts

/-- Where no helper is ever ready, nobody has to act. -/
theorem Fair.of_never {r : Endless step} (h : ∀ t i, ¬ ready t (r.state i)) :
    Fair ready acts r :=
  fun t i hready => absurd (hready i (Nat.le_refl i)) (h t i)

theorem Endless.iterate_keeps {f : σ → σ} {l : ℓ} {h : ∀ s, step s l = some (f s)} {P : σ → Prop}
    (hkeeps : ∀ s, P s → P (f s)) {s : σ} (hs : P s) (i : Nat) :
    P ((Endless.iterate f l h s).state i) := by
  induction i with
  | zero => exact hs
  | succ i ih =>
    show P (f^[i + 1] s)
    rw [Function.iterate_succ_apply']
    exact hkeeps _ ih

end Endless

end Response
