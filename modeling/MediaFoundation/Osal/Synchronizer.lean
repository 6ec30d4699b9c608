import MediaFoundation.Lib.Runs

/-!
# Synchronizer

`OSAL::Synchronizer` (`synchronizer.h`): threads that start an operation each and wait for its
result, by an id. Who waits is a set of ids, and the results that have come are a map.

Conventions:

* A call holds the mutex until it returns or sleeps, also while its operation runs; so it is one
  step up to there, and one for each time it gets the mutex again.
* An operation that calls `Notify` of the same synchronizer itself waits for the mutex for ever.
* A thread may wake up and find that there is nothing for it. A timed wait may end at any time.
* `notified`, `since` and `answers` only record what has happened.
-/

namespace MediaFoundation.Osal.Synchronizer

/-- A thread that sleeps, or has not got the mutex again yet. -/
structure Wait (ι : Type) where
  syncId : ι
  timed : Bool
  /-- How many times `Notify` had been called when the wait registered. -/
  since : Nat
  /-- The thread has been notified since it last went to sleep. -/
  awake : Bool := false

structure Answer (ι ρ : Type) where
  syncId : ι
  since : Nat
  /-- The number of the notification that the result is of. -/
  serial : Nat
  result : ρ

structure State (ι τ ρ : Type) where
  waitSet : ι → Bool := fun _ => false
  syncMap : ι → Option (Nat × ρ) := fun _ => none
  waiting : τ → Option (Wait ι) := fun _ => none
  notified : List (ι × ρ) := []
  answers : List (Answer ι ρ) := []

section Code

variable {ι τ ρ : Type} [DecidableEq ι] [DecidableEq τ]

-- The code

def take (s : State ι τ ρ) (t : τ) (w : Wait ι) (found : Nat × ρ) : State ι τ ρ :=
  { s with
    syncMap := Function.update s.syncMap w.syncId none
    waiting := Function.update s.waiting t none
    answers := s.answers ++ [⟨w.syncId, w.since, found.1, found.2⟩] }

def giveUp (s : State ι τ ρ) (t : τ) (syncId : ι) : State ι τ ρ :=
  { s with
    waitSet := Function.update s.waitSet syncId false
    waiting := Function.update s.waiting t none }

/-- `Wait` and `WaitFor`, up to where they return or sleep. `asyncOps` is none if it is null, and
otherwise has its result, `true` where it has none; `Wait` has no timeout. -/
def wait (s : State ι τ ρ) (t : τ) (syncId : ι) (asyncOps : Option Bool)
    (timeoutMs : Option Int) : State ι τ ρ :=
  match asyncOps with
  | none => s
  | some started =>
    let s := { s with waitSet := Function.update s.waitSet syncId true }
    let w : Wait ι := ⟨syncId, timeoutMs.isSome, s.notified.length, false⟩
    if started = false ∨ timeoutMs.any (· < 0) then giveUp s t syncId
    else
      match s.syncMap syncId with
      | some found => take s t w found
      | none => { s with waiting := Function.update s.waiting t (some w) }

/-- The thread has the mutex again. -/
def resume (s : State ι τ ρ) (t : τ) (w : Wait ι) (timedOut : Bool) : State ι τ ρ :=
  match s.syncMap w.syncId with
  | some found => take s t w found
  | none =>
    if timedOut then giveUp s t w.syncId
    else { s with waiting := Function.update s.waiting t (some { w with awake := false }) }

def notify (s : State ι τ ρ) (syncId : ι) (result : ρ) : State ι τ ρ :=
  let called := { s with notified := s.notified ++ [(syncId, result)] }
  if s.waitSet syncId then
    { called with
      waitSet := Function.update s.waitSet syncId false
      -- `insert` leaves what is there
      syncMap := Function.update s.syncMap syncId
        ((s.syncMap syncId).orElse fun _ => some (s.notified.length, result))
      waiting := fun t => (s.waiting t).map fun w => { w with awake := true } }
  else called

inductive Event (ι τ ρ : Type) where
  | wait (t : τ) (syncId : ι) (asyncOps : Option Bool) (timeoutMs : Option Int)
  | resume (t : τ) (timedOut : Bool)
  | notify (syncId : ι) (result : ρ)

def step (s : State ι τ ρ) : Event ι τ ρ → Option (State ι τ ρ)
  | .wait t syncId asyncOps timeoutMs =>
    if (s.waiting t).isNone then some (wait s t syncId asyncOps timeoutMs) else none
  | .resume t timedOut =>
    (s.waiting t).bind fun w =>
      if timedOut = true ∧ w.timed = false then none else some (resume s t w timedOut)
  | .notify syncId result => some (notify s syncId result)

-- The property and the condition

def WaitsFor (s : State ι τ ρ) (syncId : ι) : Prop :=
  ∃ t w, s.waiting t = some w ∧ w.syncId = syncId

/-- A thread that waits for the id has been woken, and there is a result for it. -/
def Released (s : State ι τ ρ) (syncId : ι) : Prop :=
  ∃ t w, s.waiting t = some w ∧ w.syncId = syncId ∧ w.awake = true ∧
    (s.syncMap syncId).isSome = true

structure AnswersRight (s : State ι τ ρ) : Prop where
  /-- The result of a notification for its id, issued after the wait registered. -/
  own : ∀ a ∈ s.answers, a.since ≤ a.serial ∧
    s.notified[a.serial]? = some (a.syncId, a.result)
  /-- No other wait has had it. -/
  once : s.answers.Pairwise fun a b => a.serial ≠ b.serial
  /-- A result that is there is one for a wait that had registered before. -/
  notLeft : ∀ syncId n r, s.syncMap syncId = some (n, r) →
    ∃ t w, s.waiting t = some w ∧ w.syncId = syncId ∧ w.since ≤ n

/-- After the step the answers are right, and a notification has released one of those that wait
for its id. -/
def StepRight (s : State ι τ ρ) (e : Event ι τ ρ) : Prop :=
  ∀ s', step s e = some s' → AnswersRight s' ∧
    ∀ syncId result, e = .notify syncId result → WaitsFor s syncId → Released s' syncId

/-- No wait for an id begins while there is another one for it. -/
def NoOverlap (s : State ι τ ρ) : Event ι τ ρ → Prop
  | .wait _ syncId asyncOps _ => asyncOps ≠ none → ¬ WaitsFor s syncId
  | _ => True

-- What the steps keep

variable {s s' : State ι τ ρ} {t : τ} {w : Wait ι} {syncId : ι}

/-- The wait is registered and there is no result, or it has been notified with one. -/
def Stands (s : State ι τ ρ) (w : Wait ι) : Prop :=
  (s.waitSet w.syncId = true ∧ s.syncMap w.syncId = none) ∨
    (s.waitSet w.syncId = false ∧ w.awake = true ∧
      ∃ n r, s.syncMap w.syncId = some (n, r) ∧ w.since ≤ n)

structure Inv (s : State ι τ ρ) : Prop where
  alone : ∀ t t' w w', s.waiting t = some w → s.waiting t' = some w' → w.syncId = w'.syncId → t = t'
  stands : ∀ t w, s.waiting t = some w → Stands s w ∧ w.since ≤ s.notified.length
  clear : ∀ syncId, ¬ WaitsFor s syncId → s.waitSet syncId = false ∧ s.syncMap syncId = none
  results : ∀ syncId n r, s.syncMap syncId = some (n, r) → s.notified[n]? = some (syncId, r)
  own : ∀ a ∈ s.answers, a.since ≤ a.serial ∧ s.notified[a.serial]? = some (a.syncId, a.result)
  once : s.answers.Pairwise fun a b => a.serial ≠ b.serial
  untaken : ∀ a ∈ s.answers, ∀ syncId n r, s.syncMap syncId = some (n, r) → a.serial ≠ n

omit [DecidableEq ι] [DecidableEq τ] in
theorem Inv.answersRight (h : Inv s) : AnswersRight s where
  own := h.own
  once := h.once
  notLeft := by
    intro syncId n r hresult
    by_cases hwaits : WaitsFor s syncId
    · obtain ⟨t, w, ht, rfl⟩ := hwaits
      refine ⟨t, w, ht, rfl, ?_⟩
      rcases (h.stands t w ht).1 with hnone | ⟨-, -, n', r', hresult', hsince⟩
      · rw [hresult] at hnone
        simp at hnone
      · rw [hresult] at hresult'
        cases hresult'
        exact hsince
    · have hnone := (h.clear syncId hwaits).2
      rw [hresult] at hnone
      cases hnone

omit [DecidableEq ι] [DecidableEq τ] in
theorem inv_new : Inv ({} : State ι τ ρ) where
  alone := by simp
  stands := by simp
  clear := by simp
  results := by simp
  own := by simp
  once := by simp
  untaken := by simp

omit [DecidableEq ι] in
theorem update_none {f : τ → Option (Wait ι)} {t t' : τ} {w : Wait ι} :
    Function.update f t none t' = some w ↔ t' ≠ t ∧ f t' = some w := by
  by_cases h : t' = t
  · simp [h]
  · simp [h]

omit [DecidableEq ι] in
theorem kept {l : List (ι × ρ)} {n : Nat} {x : ι × ρ} (h : l[n]? = some x) (y : ι × ρ) :
    (l ++ [y])[n]? = some x := by
  rw [List.getElem?_append_left (List.getElem?_eq_some_iff.mp h).1]
  exact h

theorem Inv.take (h : Inv s) (ht : s.waiting t = some w) {found : Nat × ρ}
    (hfound : s.syncMap w.syncId = some found) : Inv (take s t w found) := by
  have hresult := h.results _ _ _ hfound
  have hstands : s.waitSet w.syncId = false ∧ w.since ≤ found.1 := by
    rcases (h.stands t w ht).1 with hnone | ⟨hset, -, n, r, hfound', hsince⟩
    · rw [hfound] at hnone
      simp at hnone
    · rw [hfound] at hfound'
      cases hfound'
      exact ⟨hset, hsince⟩
  have hother : ∀ syncId n r, Function.update s.syncMap w.syncId none syncId = some (n, r) →
      syncId ≠ w.syncId ∧ s.syncMap syncId = some (n, r) := by
    intro syncId n r hmap
    by_cases hid : syncId = w.syncId
    · simp [hid] at hmap
    · rw [Function.update_of_ne hid] at hmap
      exact ⟨hid, hmap⟩
  refine ⟨?_, ?_, ?_, ?_, ?_, ?_, ?_⟩
  · intro t₁ t₂ w₁ w₂ h₁ h₂ hid
    exact h.alone t₁ t₂ w₁ w₂ (update_none.mp h₁).2 (update_none.mp h₂).2 hid
  · intro t' w' ht'
    obtain ⟨hne, ht'⟩ := update_none.mp ht'
    obtain ⟨hstands', hsince⟩ := h.stands t' w' ht'
    have hid : w'.syncId ≠ w.syncId := by
      intro hid
      exact hne (h.alone t' t w' w ht' ht hid)
    refine ⟨?_, hsince⟩
    unfold Stands Synchronizer.take
    dsimp only
    rw [Function.update_of_ne hid]
    exact hstands'
  · intro syncId hwaits
    by_cases hid : syncId = w.syncId
    · exact ⟨hid ▸ hstands.1, by simp [Synchronizer.take, hid]⟩
    · have hnot : ¬ WaitsFor s syncId := by
        rintro ⟨t', w', ht', rfl⟩
        refine hwaits ⟨t', w', update_none.mpr ⟨?_, ht'⟩, rfl⟩
        rintro rfl
        rw [ht] at ht'
        cases ht'
        exact hid rfl
      obtain ⟨hset, hmap⟩ := h.clear syncId hnot
      exact ⟨hset, by simp [Synchronizer.take, Function.update_of_ne hid, hmap]⟩
  · intro syncId n r hmap
    exact h.results syncId n r (hother syncId n r hmap).2
  · intro a ha
    rcases List.mem_append.mp ha with ha | ha
    · exact h.own a ha
    · rw [List.mem_singleton.mp ha]
      exact ⟨hstands.2, hresult⟩
  · refine List.pairwise_append.mpr ⟨h.once, List.pairwise_singleton _ _, ?_⟩
    intro a ha b hb
    rw [List.mem_singleton.mp hb]
    exact h.untaken a ha _ _ _ hfound
  · intro a ha syncId n r hmap
    obtain ⟨hid, hmap⟩ := hother syncId n r hmap
    rcases List.mem_append.mp ha with ha | ha
    · exact h.untaken a ha syncId n r hmap
    · rw [List.mem_singleton.mp ha]
      rintro rfl
      -- the number tells the id
      have hsame := (h.results _ _ _ hmap).symm.trans hresult
      simp only [Option.some.injEq, Prod.mk.injEq] at hsame
      exact hid hsame.1

theorem Inv.giveUp (h : Inv s) (hnone : s.syncMap syncId = none)
    (hself : ∀ w, s.waiting t = some w → w.syncId = syncId)
    (honly : ∀ t' w, s.waiting t' = some w → w.syncId = syncId → t' = t) :
    Inv (giveUp s t syncId) := by
  refine ⟨?_, ?_, ?_, h.results, h.own, h.once, h.untaken⟩
  · intro t₁ t₂ w₁ w₂ h₁ h₂ hid
    exact h.alone t₁ t₂ w₁ w₂ (update_none.mp h₁).2 (update_none.mp h₂).2 hid
  · intro t' w' ht'
    obtain ⟨hne, ht'⟩ := update_none.mp ht'
    obtain ⟨hstands, hsince⟩ := h.stands t' w' ht'
    have hid : w'.syncId ≠ syncId := by
      intro hid
      exact hne (honly t' w' ht' hid)
    refine ⟨?_, hsince⟩
    unfold Stands Synchronizer.giveUp
    dsimp only
    rw [Function.update_of_ne hid]
    exact hstands
  · intro syncId' hwaits
    by_cases hid : syncId' = syncId
    · exact ⟨by simp [Synchronizer.giveUp, hid], hid ▸ hnone⟩
    · have hnot : ¬ WaitsFor s syncId' := by
        rintro ⟨t', w', ht', rfl⟩
        refine hwaits ⟨t', w', update_none.mpr ⟨?_, ht'⟩, rfl⟩
        rintro rfl
        exact hid (hself w' ht')
      obtain ⟨hset, hmap⟩ := h.clear syncId' hnot
      exact ⟨by simp [Synchronizer.giveUp, Function.update_of_ne hid, hset], hmap⟩

omit [DecidableEq ι] in
theorem update_some {f : τ → Option (Wait ι)} {t t' : τ} {w w' : Wait ι} :
    Function.update f t (some w) t' = some w' ↔ (t' = t ∧ w = w') ∨ (t' ≠ t ∧ f t' = some w') := by
  by_cases h : t' = t
  · simp [h]
  · simp [h]

theorem Inv.sleep (h : Inv s) (hfree : s.waiting t = none) (hnot : ¬ WaitsFor s w.syncId)
    (hsince : w.since ≤ s.notified.length) :
    Inv { s with
      waitSet := Function.update s.waitSet w.syncId true
      waiting := Function.update s.waiting t (some w) } := by
  have hne : ∀ t' w', s.waiting t' = some w' → w'.syncId ≠ w.syncId := by
    intro t' w' ht' hid
    exact hnot ⟨t', w', ht', hid⟩
  refine ⟨?_, ?_, ?_, h.results, h.own, h.once, h.untaken⟩
  · intro t₁ t₂ w₁ w₂ h₁ h₂ hid
    rcases update_some.mp h₁ with ⟨ht₁, rfl⟩ | ⟨-, h₁⟩ <;>
      rcases update_some.mp h₂ with ⟨ht₂, rfl⟩ | ⟨-, h₂⟩
    · rw [ht₁, ht₂]
    · exact absurd hid.symm (hne t₂ w₂ h₂)
    · exact absurd hid (hne t₁ w₁ h₁)
    · exact h.alone t₁ t₂ w₁ w₂ h₁ h₂ hid
  · intro t' w' ht'
    rcases update_some.mp ht' with ⟨-, rfl⟩ | ⟨-, ht'⟩
    · exact ⟨Or.inl ⟨Function.update_self _ _ _, (h.clear w.syncId hnot).2⟩, hsince⟩
    · obtain ⟨hstands, hsince'⟩ := h.stands t' w' ht'
      refine ⟨?_, hsince'⟩
      unfold Stands
      dsimp only
      rw [Function.update_of_ne (hne t' w' ht')]
      exact hstands
  · intro syncId hwaits
    have hid : syncId ≠ w.syncId := by
      rintro rfl
      exact hwaits ⟨t, w, update_some.mpr (Or.inl ⟨rfl, rfl⟩), rfl⟩
    have hnot' : ¬ WaitsFor s syncId := by
      rintro ⟨t', w', ht', rfl⟩
      refine hwaits ⟨t', w', update_some.mpr (Or.inr ⟨?_, ht'⟩), rfl⟩
      rintro rfl
      rw [hfree] at ht'
      cases ht'
    obtain ⟨hset, hmap⟩ := h.clear syncId hnot'
    exact ⟨by simp [Function.update_of_ne hid, hset], hmap⟩

omit [DecidableEq ι] in
/-- A thread finds nothing, and sleeps on. -/
theorem Inv.again (h : Inv s) (ht : s.waiting t = some w) (hnone : s.syncMap w.syncId = none) :
    Inv { s with waiting := Function.update s.waiting t (some { w with awake := false }) } := by
  have hback : ∀ {t' w'}, Function.update s.waiting t (some { w with awake := false }) t' = some w' →
      ∃ w'', s.waiting t' = some w'' ∧ w''.syncId = w'.syncId := by
    intro t' w' ht'
    rcases update_some.mp ht' with ⟨rfl, rfl⟩ | ⟨-, ht'⟩
    · exact ⟨w, ht, rfl⟩
    · exact ⟨w', ht', rfl⟩
  refine ⟨?_, ?_, ?_, h.results, h.own, h.once, h.untaken⟩
  · intro t₁ t₂ w₁ w₂ h₁ h₂ hid
    obtain ⟨v₁, h₁, hid₁⟩ := hback h₁
    obtain ⟨v₂, h₂, hid₂⟩ := hback h₂
    exact h.alone t₁ t₂ v₁ v₂ h₁ h₂ (by rw [hid₁, hid₂, hid])
  · intro t' w' ht'
    rcases update_some.mp ht' with ⟨rfl, rfl⟩ | ⟨-, ht'⟩
    · obtain ⟨hstands, hsince⟩ := h.stands t' w ht
      refine ⟨?_, hsince⟩
      rcases hstands with hset | ⟨-, -, n, r, hfound, -⟩
      · exact Or.inl hset
      · rw [hnone] at hfound
        cases hfound
    · exact h.stands t' w' ht'
  · intro syncId hwaits
    refine h.clear syncId ?_
    rintro ⟨t', w', ht', rfl⟩
    by_cases htt : t' = t
    · subst htt
      rw [ht] at ht'
      cases ht'
      exact hwaits ⟨t', _, update_some.mpr (Or.inl ⟨rfl, rfl⟩), rfl⟩
    · exact hwaits ⟨t', w', update_some.mpr (Or.inr ⟨htt, ht'⟩), rfl⟩

omit [DecidableEq ι] [DecidableEq τ] in
theorem Inv.counted (h : Inv s) (x : ι × ρ) : Inv { s with notified := s.notified ++ [x] } where
  alone := h.alone
  stands := by
    intro t w ht
    obtain ⟨hstands, hsince⟩ := h.stands t w ht
    refine ⟨hstands, ?_⟩
    rw [List.length_append]
    omega
  clear := h.clear
  results := by
    intro syncId n r hmap
    exact kept (h.results syncId n r hmap) x
  own := by
    intro a ha
    exact ⟨(h.own a ha).1, kept (h.own a ha).2 x⟩
  once := h.once
  untaken := h.untaken

omit [DecidableEq τ] in
theorem Inv.notify (h : Inv s) (hset : s.waitSet syncId = true) (result : ρ) :
    s.syncMap syncId = none ∧
      Inv { s with
        notified := s.notified ++ [(syncId, result)]
        waitSet := Function.update s.waitSet syncId false
        syncMap := Function.update s.syncMap syncId (some (s.notified.length, result))
        waiting := fun t => (s.waiting t).map fun w => { w with awake := true } } := by
  have hnone : s.syncMap syncId = none := by
    by_cases hwaits : WaitsFor s syncId
    · obtain ⟨t, w, ht, rfl⟩ := hwaits
      rcases (h.stands t w ht).1 with hstands | hstands
      · exact hstands.2
      · rw [hset] at hstands
        simp at hstands
    · exact (h.clear syncId hwaits).2
  have hnew : ∀ {id n r}, Function.update s.syncMap syncId (some (s.notified.length, result)) id =
      some (n, r) → (id = syncId ∧ n = s.notified.length ∧ r = result) ∨
        s.syncMap id = some (n, r) := by
    intro id n r hmap
    by_cases hid : id = syncId
    · rw [hid, Function.update_self] at hmap
      cases hmap
      exact Or.inl ⟨hid, rfl, rfl⟩
    · rw [Function.update_of_ne hid] at hmap
      exact Or.inr hmap
  refine ⟨hnone, ?_, ?_, ?_, ?_, ?_, h.once, ?_⟩
  · intro t₁ t₂ w₁ w₂ h₁ h₂ hid
    obtain ⟨v₁, hv₁, rfl⟩ := Option.map_eq_some_iff.mp h₁
    obtain ⟨v₂, hv₂, rfl⟩ := Option.map_eq_some_iff.mp h₂
    exact h.alone t₁ t₂ v₁ v₂ hv₁ hv₂ hid
  · intro t w' ht
    obtain ⟨w, hw, rfl⟩ := Option.map_eq_some_iff.mp ht
    obtain ⟨hstands, hsince⟩ := h.stands t w hw
    refine ⟨?_, by rw [List.length_append]; exact hsince.trans (Nat.le_add_right _ _)⟩
    unfold Stands
    dsimp only
    by_cases hid : w.syncId = syncId
    · rw [hid, Function.update_self, Function.update_self]
      exact Or.inr ⟨rfl, rfl, _, _, rfl, hsince⟩
    · rw [Function.update_of_ne hid, Function.update_of_ne hid]
      rcases hstands with hleft | ⟨hset', -, hright⟩
      · exact Or.inl hleft
      · exact Or.inr ⟨hset', rfl, hright⟩
  · intro id hwaits
    have hnot : ¬ WaitsFor s id := by
      rintro ⟨t, w, ht, rfl⟩
      exact hwaits ⟨t, { w with awake := true }, by simp [ht], rfl⟩
    obtain ⟨hset', hmap⟩ := h.clear id hnot
    have hid : id ≠ syncId := by
      rintro rfl
      rw [hset] at hset'
      cases hset'
    exact ⟨by simp [Function.update_of_ne hid, hset'], by simp [Function.update_of_ne hid, hmap]⟩
  · intro id n r hmap
    rcases hnew hmap with ⟨rfl, rfl, rfl⟩ | hmap
    · simp
    · exact kept (h.results id n r hmap) _
  · intro a ha
    exact ⟨(h.own a ha).1, kept (h.own a ha).2 _⟩
  · intro a ha id n r hmap
    rcases hnew hmap with ⟨-, rfl, -⟩ | hmap
    · exact (List.getElem?_eq_some_iff.mp (h.own a ha).2).1.ne
    · exact h.untaken a ha id n r hmap

theorem Inv.wait (h : Inv s) {asyncOps : Option Bool} (timeoutMs : Option Int)
    (hfree : s.waiting t = none) (hno : asyncOps ≠ none → ¬ WaitsFor s syncId) :
    Inv (wait s t syncId asyncOps timeoutMs) := by
  cases asyncOps with
  | none => exact h
  | some started =>
    have hnot := hno (by simp)
    have hnone := (h.clear syncId hnot).2
    simp only [Synchronizer.wait, hnone]
    split
    · have hgive : Inv (Synchronizer.giveUp s t syncId) := by
        refine h.giveUp hnone ?_ ?_
        · intro w ht
          rw [hfree] at ht
          cases ht
        · intro t' w ht' hid
          exact absurd ⟨t', w, ht', hid⟩ hnot
      -- the registration is taken back
      simpa [Synchronizer.giveUp, Function.update_idem] using hgive
    · exact h.sleep (w := ⟨syncId, timeoutMs.isSome, s.notified.length, false⟩) hfree hnot le_rfl

theorem Inv.resume (h : Inv s) (ht : s.waiting t = some w) (timedOut : Bool) :
    Inv (resume s t w timedOut) := by
  unfold Synchronizer.resume
  cases hfound : s.syncMap w.syncId with
  | some found => exact h.take ht hfound
  | none =>
    dsimp only
    split
    · refine h.giveUp hfound ?_ ?_
      · intro w' ht'
        rw [ht] at ht'
        cases ht'
        rfl
      · intro t' w' ht' hid
        exact h.alone t' t w' w ht' ht hid
    · exact h.again ht hfound

theorem Inv.step (h : Inv s) {e : Event ι τ ρ} (hno : NoOverlap s e) (hstep : step s e = some s') :
    Inv s' := by
  cases e with
  | wait t syncId asyncOps timeoutMs =>
    change (if (s.waiting t).isNone then some (Synchronizer.wait s t syncId asyncOps timeoutMs)
      else none) = some s' at hstep
    split at hstep
    · rename_i hfree
      cases hstep
      exact h.wait timeoutMs (Option.isNone_iff_eq_none.mp hfree) hno
    · cases hstep
  | resume t timedOut =>
    obtain ⟨w, ht, hstep⟩ := Option.bind_eq_some_iff.mp hstep
    split at hstep
    · cases hstep
    · cases hstep
      exact h.resume ht timedOut
  | notify syncId result =>
    cases hstep
    unfold Synchronizer.notify
    dsimp only
    split
    · rename_i hset
      obtain ⟨hnone, hinv⟩ := h.notify hset result
      rw [hnone]
      exact hinv
    · exact h.counted _

omit [DecidableEq τ] in
/-- A notification finds a registered wait, or one that has been notified. -/
theorem Inv.released (h : Inv s) (hwaits : WaitsFor s syncId) (result : ρ) :
    Released (Synchronizer.notify s syncId result) syncId := by
  obtain ⟨t, w, ht, rfl⟩ := hwaits
  unfold Synchronizer.notify
  rcases (h.stands t w ht).1 with ⟨hset, hnone⟩ | ⟨hset, hawake, n, r, hfound, -⟩
  · simp only [hset, if_pos, hnone]
    exact ⟨t, { w with awake := true }, by simp [ht], rfl, rfl, by simp⟩
  · simp only [hset]
    exact ⟨t, w, ht, rfl, hawake, by simp [hfound]⟩

/-- **Each wait gets its own answer** in every run in which no two waits for an id overlap. -/
theorem answers_runs (events : List (Event ι τ ρ))
    (h : Runs.Along step NoOverlap ({} : State ι τ ρ) events) :
    Runs.Along step StepRight ({} : State ι τ ρ) events := by
  refine Runs.along_imp (I := Inv) ?_ ?_ inv_new h
  · intro s e hinv hno s' hstep
    refine ⟨(hinv.step hno hstep).answersRight, ?_⟩
    rintro syncId result rfl hwaits
    cases hstep
    exact hinv.released hwaits result
  · intro s e s' hinv hno hstep
    exact hinv.step hno hstep

end Code

-- One wait after another, and two that overlap

/-- The second wait begins when the first has been answered. -/
def oneAfterAnother : List (Event Nat Nat Nat) :=
  [.wait 1 7 (some true) none, .notify 7 10, .resume 1 false, .wait 2 7 (some true) (some 50),
    .notify 7 20, .resume 2 true]

theorem answers_runs_twice :
    Runs.Along step StepRight ({} : State Nat Nat Nat) oneAfterAnother := by
  refine answers_runs oneAfterAnother ?_
  refine .cons ?_ rfl (.cons trivial rfl (.cons trivial rfl (.cons ?_ rfl
    (.cons trivial rfl (.cons trivial rfl trivial)))))
  · rintro - ⟨t, w, ht, -⟩
    cases ht
  · rintro - ⟨t, w, ht, -⟩
    obtain ⟨hne, ht⟩ := update_none.mp ht
    obtain ⟨v, hv, -⟩ := Option.map_eq_some_iff.mp ht
    exact hne ((update_some.mp hv).resolve_right (by simp)).1

/-- Two threads wait for the id, the first notification is taken by one of them, and the second
one finds no registration. -/
def overlapping : List (Event Nat Nat Nat) :=
  [.wait 1 7 (some true) none, .wait 2 7 (some true) none, .notify 7 10, .resume 1 false]

theorem overlap_unanswered :
    ¬ Runs.Along step StepRight ({} : State Nat Nat Nat) (overlapping ++ [.notify 7 20]) := by
  intro h
  have hright := h.2.2.2.2.1
  obtain ⟨-, hreleased⟩ := hright _ rfl
  obtain ⟨t, w, -, -, -, hsome⟩ := hreleased 7 20 rfl ⟨2, ⟨7, false, 0, true⟩, rfl, rfl⟩
  revert hsome
  decide

end MediaFoundation.Osal.Synchronizer
