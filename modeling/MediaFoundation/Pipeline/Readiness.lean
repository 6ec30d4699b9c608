import MediaFoundation.Pipeline.FilterOrder

/-!
# The readiness of a pipeline

`OnEvent` counts the `EVENT_READY`s; with the one that makes as many as there are
filters the state becomes `READY`, and it is forwarded. `OnEvent` takes no lock:
here it is one step, so that events of two filters come one after the other. A
history is kept beside a run: who has sent one since the last `Prepare` or `Stop`,
and who since the count was last set to zero.

The count says who is ready as long as it counts filters of the pipeline, once
each (`Tallies`): `Prepare` finds it at zero, nobody sends who is not in the
pipeline or counted who has left it, somebody of those that were announced stays,
and the last filter that is missing does not just leave (`announced_once`).
-/

namespace MediaFoundation.PipelineCore

variable {F I O : Type}

-- The history

structure History (F : Type) where
  sent : List F := []
  /-- Who has sent it since the count was last set to zero. -/
  counted : List F := []
  /-- How many were forwarded since the last `Prepare` or `Stop`. -/
  forwarded : Nat := 0
  /-- Whether all that were ever forwarded came when no filter was missing. -/
  complete : Bool := true
  /-- Whether the state was `READY` after each that was forwarded, and became it with no other
  event. -/
  turned : Bool := true

/-- Who has sent what. -/
def History.send [DecidableEq F] (h : History F) (s : State F I O) : Event F I O → History F
  | .prepare => { h with sent := [], forwarded := 0 }
  | .stop => { h with sent := [], counted := [], forwarded := 0 }
  | .ready f =>
    if s.forwards then
      { h with
        sent := f :: h.sent
        counted := []
        forwarded := h.forwarded + 1
        complete := h.complete && decide (∀ g ∈ s.filters, g ∈ f :: h.sent) }
    else { h with sent := f :: h.sent, counted := f :: h.counted }
  | _ => h

/-- Whether the state turns `READY` as it should. -/
def turns (s : State F I O) (e : Event F I O) (s' : State F I O) : Bool :=
  let isForwarded := match e with
    | .ready _ => decide s.forwards
    | _ => false
  if isForwarded then s'.state = .ready else s'.state = .ready → s.state = .ready

def History.record [DecidableEq F] (h : History F) (s : State F I O) (e : Event F I O)
    (s' : State F I O) : History F :=
  { h.send s e with turned := h.turned && turns s e s' }

def stepWithHistory [DecidableEq F] [DecidableEq I] [DecidableEq O] (W : Ports F I O) :
    State F I O × History F → Event F I O → Option (State F I O × History F) :=
  Runs.withGhost (step W) History.record

/-- What is wanted: `EVENT_READY` was only forwarded, and the state only became `READY`, when
every filter had sent it, and once every filter has, exactly one was. -/
structure Announced (s : State F I O) (h : History F) : Prop where
  complete : h.complete = true
  turned : h.turned = true
  once : s.filters ≠ [] → (∀ f ∈ s.filters, f ∈ h.sent) → h.forwarded = 1

/-- Each filter sends `EVENT_READY` at most once between two calls of `Prepare` or `Stop`. -/
def SendsOnce (x : State F I O × History F) : Event F I O → Prop
  | .ready f => f ∉ x.2.sent
  | _ => True

def Missing (filters : List F) (h : History F) : Prop :=
  h.forwarded = 0 → filters = [] ∨ ∃ f ∈ filters, f ∉ h.sent

def Tallies [DecidableEq F] (x : State F I O × History F) : Event F I O → Prop
  | .prepare => x.1.readyEventCnt = 0
  | .ready f =>
    f ∈ x.1.filters ∧ (∀ g ∈ x.2.counted, g ∈ x.1.filters) ∧
      (x.2.forwarded ≠ 0 → ∃ g ∈ x.1.filters, g ∈ x.2.sent ∧ g ∉ x.2.counted)
  | .addFilters filtersIn _ =>
    (x.1.filtersToAdd filtersIn).Nodup ∧ Missing (x.1.filters ++ x.1.filtersToAdd filtersIn) x.2
  | .removeFilter f => Missing (x.1.filters.erase f) x.2
  | .stopped => Missing (x.1.filtersToRemove.foldl List.erase x.1.filters) x.2
  | _ => True

-- The count

/-- The count is that of the filters counted, which are all that have sent as long as
nothing was forwarded. -/
structure Tallied (s : State F I O) (h : History F) : Prop where
  count : s.readyEventCnt = h.counted.length
  nodup : s.filters.Nodup
  nodup_counted : h.counted.Nodup
  counted : ∀ f ∈ h.counted, f ∈ h.sent
  first : h.forwarded = 0 → h.sent = h.counted
  forwarded : h.forwarded ≤ 1
  missing : Missing s.filters h
  complete : h.complete = true
  turned : h.turned = true

variable {W : Ports F I O} {s s' : State F I O} {h : History F} {f : F}

theorem Tallied.announced (ht : Tallied s h) : Announced s h := by
  refine ⟨ht.complete, ht.turned, fun hne hall => ?_⟩
  have hpos : h.forwarded ≠ 0 := fun hzero => by
    rcases ht.missing hzero with hnil | ⟨f, hf, hout⟩
    · exact hne hnil
    · exact hout (hall f hf)
  have := ht.forwarded
  omega

theorem missing_fresh (filters : List F) (h : History F) :
    Missing filters { h with sent := [], forwarded := 0 } := by
  intro _
  by_cases hne : filters = []
  · exact .inl hne
  · obtain ⟨f, hf⟩ := List.exists_mem_of_ne_nil filters hne
    exact .inr ⟨f, hf, List.not_mem_nil⟩

/-- Other filters, and the same count. -/
theorem Tallied.change (ht : Tallied s h) {filters : List F} (hnodup : filters.Nodup)
    (hmissing : Missing filters h) (hcore : s'.core = (filters, s.readyEventCnt)) :
    Tallied s' h := by
  obtain ⟨rfl, hcount⟩ := Prod.mk.inj hcore
  exact ⟨hcount.trans ht.count, hnodup, ht.nodup_counted, ht.counted, ht.first, ht.forwarded,
    hmissing, ht.complete, ht.turned⟩

section Ready

variable (ht : Tallied s h) (hnew : f ∉ h.sent) (hf : f ∈ s.filters)
  (hcounted : ∀ g ∈ h.counted, g ∈ s.filters)

include ht hnew

theorem nodup_count : (f :: h.counted).Nodup :=
  List.nodup_cons.mpr ⟨fun habs => hnew (ht.counted f habs), ht.nodup_counted⟩

include hf hcounted

theorem subperm_count : (f :: h.counted).Subperm s.filters :=
  List.subperm_of_subset (nodup_count ht hnew) (List.forall_mem_cons.mpr ⟨hf, hcounted⟩)

theorem forwards_iff : s.forwards ↔ ∀ g ∈ s.filters, g ∈ f :: h.counted := by
  have hlength : s.forwards ↔ (f :: h.counted).length = s.filters.length := by
    rw [State.forwards, ht.count]
    rfl
  rw [hlength]
  have hsub := subperm_count ht hnew hf hcounted
  constructor
  · intro heq g hg
    exact (hsub.perm_of_length_le heq.ge).mem_iff.mpr hg
  · intro hall
    exact Nat.le_antisymm hsub.length_le (List.subperm_of_subset ht.nodup hall).length_le

theorem forwarded_zero (hstays : h.forwarded ≠ 0 → ∃ g ∈ s.filters, g ∈ h.sent ∧ g ∉ h.counted)
    (hforwards : s.forwards) : h.forwarded = 0 := by
  by_contra hpos
  obtain ⟨g, hg, hsent, hout⟩ := hstays hpos
  rcases List.mem_cons.mp ((forwards_iff ht hnew hf hcounted).mp hforwards g hg) with rfl | hin
  · exact hnew hsent
  · exact hout hin

/-- **One `EVENT_READY`** of a filter that was missing. -/
theorem Tallied.ready [DecidableEq F]
    (hstays : h.forwarded ≠ 0 → ∃ g ∈ s.filters, g ∈ h.sent ∧ g ∉ h.counted)
    (hcore : s'.core = (s.filters, if s.forwards then 0 else s.readyEventCnt + 1)) :
    Tallied s' (h.send s (.ready f : Event F I O)) := by
  have hiff := forwards_iff ht hnew hf hcounted
  obtain ⟨hfilters, hcount⟩ := Prod.mk.inj hcore
  replace hfilters : s'.filters = s.filters := hfilters
  replace hcount : s'.readyEventCnt = if s.forwards then 0 else s.readyEventCnt + 1 := hcount
  rw [History.send]
  by_cases hforwards : s.forwards
  · have hzero := forwarded_zero ht hnew hf hcounted hstays hforwards
    -- the first one forwarded: all that were counted are all that have sent
    have hall : ∀ g ∈ s.filters, g ∈ f :: h.sent := fun g hg => by
      rw [ht.first hzero]
      exact hiff.mp hforwards g hg
    rw [if_pos hforwards] at hcount ⊢
    refine ⟨hcount, hfilters ▸ ht.nodup, List.nodup_nil, nofun, nofun, ?_, nofun, ?_, ht.turned⟩
    · show h.forwarded + 1 ≤ 1
      omega
    · show (h.complete && decide (∀ g ∈ s.filters, g ∈ f :: h.sent)) = true
      rw [ht.complete, Bool.true_and, decide_eq_true_eq]
      exact hall
  · rw [if_neg hforwards] at hcount ⊢
    refine ⟨?_, hfilters ▸ ht.nodup, nodup_count ht hnew, fun g hg => ?_, fun hzero => ?_,
      ht.forwarded, fun hzero => ?_, ht.complete, ht.turned⟩
    · rw [hcount, ht.count]
      rfl
    · rcases List.mem_cons.mp hg with rfl | hold
      · exact List.mem_cons_self
      · exact List.mem_cons_of_mem _ (ht.counted g hold)
    · exact congrArg (f :: ·) (ht.first hzero)
    · -- who is not counted has not sent
      obtain ⟨g, hg, hout⟩ : ∃ g ∈ s.filters, g ∉ f :: h.counted := by
        by_contra hnone
        exact hforwards (hiff.mpr fun g hg => by_contra fun hout => hnone ⟨g, hg, hout⟩)
      refine .inr ⟨g, hfilters ▸ hg, ?_⟩
      show g ∉ f :: h.sent
      rw [ht.first hzero]
      exact hout

end Ready

variable [DecidableEq F] [DecidableEq I] [DecidableEq O]

/-- The state is looked at after every event. -/
theorem turns_step {e : Event F I O} (hstep : step W s e = some s') : turns s e s' = true := by
  have hready := step_ready hstep
  cases e with
  | ready f =>
    cases hstep
    by_cases hforwards : s.forwards
    · simp [turns, State.onReady, hforwards]
    · simp [turns, State.onReady, hforwards]
  | _ => exact decide_eq_true fun habs => (hready habs).resolve_right (by simp)

/-- **One call** of a run whose steps meet the condition. -/
theorem tallied_step {x y : State F I O × History F} {e : Event F I O} (ht : Tallied x.1 x.2)
    (he : SendsOnce x e ∧ Tallies x e) (hstep : stepWithHistory W x e = some y) :
    Tallied y.1 y.2 := by
  obtain ⟨s, h⟩ := x
  obtain ⟨s', h'⟩ := y
  obtain ⟨hstep, rfl : h' = h.record s e s'⟩ := Runs.withGhost_some.mp hstep
  -- what the event does to the state is a part of its own
  suffices hsend : Tallied s' (h.send s e) from
    { hsend with turned := by rw [History.record, ht.turned, turns_step hstep]; rfl }
  have heffect := step_effect hstep
  obtain ⟨honce, htallies⟩ := he
  have hkeep : s'.core = s.core → Tallied s' h := fun hcore =>
    ht.change ht.nodup ht.missing hcore
  cases e with
  | init | start | pause | resume success | linkPorts port1 port2 => exact hkeep heffect
  | prepare =>
    obtain ⟨hperm, hcount⟩ := heffect
    -- `Prepare` starts a new round, but keeps the count
    have hzero : s.readyEventCnt = 0 := htallies
    have hnil : h.counted = [] := List.length_eq_zero_iff.mp (ht.count.symm.trans hzero)
    refine ⟨hcount.trans ht.count, hperm.nodup_iff.mpr ht.nodup, ht.nodup_counted, ?_, ?_,
      Nat.zero_le 1, missing_fresh _ h, ht.complete, ht.turned⟩
    · show ∀ f ∈ h.counted, f ∈ ([] : List F)
      rw [hnil]
      exact fun _ habs => habs
    · exact fun _ => hnil.symm
  | stop =>
    obtain ⟨hfilters, hcount⟩ := Prod.mk.inj (show s'.core = (s.filters, 0) from heffect)
    replace hfilters : s'.filters = s.filters := hfilters
    exact ⟨hcount, hfilters ▸ ht.nodup, List.nodup_nil, nofun, fun _ => rfl, Nat.zero_le 1,
      missing_fresh _ { h with counted := [] }, ht.complete, ht.turned⟩
  | stopped => exact ht.change (ht.nodup.sublist (foldl_erase_sublist _ _)) htallies heffect
  | addFilters filtersIn initPorts =>
    exact ht.change (nodup_filtersToAdd ht.nodup htallies.1) htallies.2 heffect
  | removeFilter f => exact ht.change (ht.nodup.erase f) htallies heffect
  | removeFilterChain firstFilter rounds | linkFilters l => exact hkeep heffect
  | ready f => exact ht.ready honce htallies.1 htallies.2.1 htallies.2.2 heffect
  | setPorts f inPorts outPorts => exact hkeep heffect

/-- **The announcement of readiness.** In every run in which each filter sends
`EVENT_READY` at most once between two calls of `Prepare` or `Stop`, and whose steps
tally, it is forwarded and the state becomes `READY` only when no filter is missing, and it is
forwarded exactly once. -/
theorem announced_once {s₀ : State F I O} (hfilters : s₀.filters = [])
    (hcount : s₀.readyEventCnt = 0) {events : List (Event F I O)}
    (hrun : Runs.run (stepWithHistory W) (s₀, {}) events = some (s, h))
    (halong : Runs.Along (stepWithHistory W) (fun x e => SendsOnce x e ∧ Tallies x e) (s₀, {})
      events) :
    Announced s h ∧ h.forwarded ≤ 1 := by
  have hinit : Tallied s₀ ({} : History F) :=
    ⟨hcount, by rw [hfilters]; exact List.nodup_nil, List.nodup_nil, nofun, fun _ => rfl,
      Nat.zero_le 1, fun _ => .inl hfilters, rfl, rfl⟩
  have ht : Tallied s h :=
    Runs.run_invariant (I := fun x => Tallied x.1 x.2)
      (fun _ _ _ ht he hstep => tallied_step ht he hstep) hinit halong hrun
  exact ⟨ht.announced, ht.forwarded⟩

/-- A filter is added while another one has reported. -/
def readyRun : List (Event ℕ ℕ ℕ) :=
  [.addFilters [1, 2] twoPorts, .prepare, .ready 1, .addFilters [3] twoPorts, .ready 2, .ready 3]

theorem announced_once_readyRun :
    ∃ s h, Runs.run (stepWithHistory numbered) (unlinked, {}) readyRun = some (s, h) ∧
      h.forwarded = 1 ∧ Announced s h := by
  obtain ⟨s, h, hrun, hforwarded⟩ : ∃ s h, Runs.run (stepWithHistory numbered) (unlinked, {})
      readyRun = some (s, h) ∧ h.forwarded = 1 := ⟨_, _, rfl, by decide⟩
  have halong : Runs.Along (stepWithHistory numbered) (fun x e => SendsOnce x e ∧ Tallies x e)
      (unlinked, {}) readyRun :=
    .cons ⟨trivial, (show [1, 2].Nodup by decide), fun _ => .inr ⟨1, by decide, by decide⟩⟩ rfl <|
      .cons ⟨trivial, rfl⟩ rfl <|
      .cons ⟨(show 1 ∉ [] by decide), (show 1 ∈ [2, 1] by decide), nofun, fun hpos => absurd rfl hpos⟩
        rfl <|
      .cons ⟨trivial, (show [3].Nodup by decide), fun _ => .inr ⟨3, by decide, by decide⟩⟩ rfl <|
      .cons ⟨(show 2 ∉ [1] by decide), (show 2 ∈ [2, 1, 3] by decide),
        (show ∀ g ∈ [1], g ∈ [2, 1, 3] by decide), fun hpos => absurd rfl hpos⟩ rfl <|
      .cons ⟨(show 3 ∉ [2, 1] by decide), (show 3 ∈ [2, 1, 3] by decide),
        (show ∀ g ∈ [2, 1], g ∈ [2, 1, 3] by decide), fun hpos => absurd rfl hpos⟩ rfl trivial
  exact ⟨s, h, hrun, hforwarded, (announced_once rfl rfl hrun halong).1⟩

/-- `Prepare` is called again after it has failed. -/
def againRun : List (Event ℕ ℕ ℕ) :=
  [.addFilters [1, 2] twoPorts, .prepare, .ready 1, .prepare, .ready 1]

/-- The last filter that is missing is removed. -/
def leavesRun : List (Event ℕ ℕ ℕ) :=
  [.addFilters [1, 2] twoPorts, .prepare, .ready 1, .removeFilter 2]

/-- The filters are exchanged after the announcement. -/
def exchangedRun : List (Event ℕ ℕ ℕ) :=
  [.addFilters [1] twoPorts, .prepare, .ready 1, .removeFilter 1, .addFilters [2] twoPorts,
    .ready 2]

/-- An early announcement, a missing one and a second one. -/
theorem misannounced :
    (∃ s h, Runs.run (stepWithHistory numbered) (unlinked, {}) againRun = some (s, h) ∧
      s.state = .ready ∧ h.sent = [1] ∧ s.filters = [1, 2] ∧ ¬ Announced s h) ∧
    (∃ s h, Runs.run (stepWithHistory numbered) (unlinked, {}) leavesRun = some (s, h) ∧
      s.filters = [1] ∧ h.sent = [1] ∧ h.forwarded = 0 ∧ ¬ Announced s h) ∧
    ∃ s h, Runs.run (stepWithHistory numbered) (unlinked, {}) exchangedRun = some (s, h) ∧
      h.forwarded = 2 ∧ ¬ Announced s h := by
  refine ⟨⟨_, _, rfl, by decide, by decide, by decide, fun habs => ?_⟩,
    ⟨_, _, rfl, by decide, by decide, by decide, fun habs => ?_⟩,
    ⟨_, _, rfl, by decide, fun habs => ?_⟩⟩
  · exact absurd habs.complete (by decide)
  · exact absurd (habs.once (by decide) (by decide)) (by decide)
  · exact absurd (habs.once (by decide) (by decide)) (by decide)

end MediaFoundation.PipelineCore
