import MediaFoundation.Filter.Settling
import MediaFoundation.Filter.Waiting

/-!
# The calls down the trees

What the lists of actions contain that the operations start with: every filter is settled by the
caller or by a job, unless a failure cuts a list off.
-/

namespace MediaFoundation.Filters

variable {hasTask : FilterId → Bool}

section Descent

variable {v : Invocation} {vars : FilterId → FilterVars} {S E E' : FilterId → Prop}
  {M : List FilterId} {T : List Action} {F nexts rest : Forest} {f : FilterId} {a : Action}

-- Prepare

theorem aborts_of_quiet (h : ∀ f ∈ F.members, fails v vars f = false) :
    aborts v vars F = false := by
  induction F with
  | nil => rfl
  | cons f nexts rest ihn ihr =>
    rw [aborts, h f List.mem_cons_self,
      ihn fun g hg => h g (List.mem_cons_of_mem _ (List.mem_append_left _ hg)),
      ihr fun g hg => h g (List.mem_cons_of_mem _ (List.mem_append_right _ hg))]
    simp

theorem free_of_quiet (h : ∀ f ∈ F.members, fails v vars f = false) : Free v vars F := by
  induction F with
  | nil => trivial
  | cons f nexts rest ihn ihr =>
    have hnexts : ∀ g ∈ nexts.members, fails v vars g = false := fun g hg =>
      h g (List.mem_cons_of_mem _ (List.mem_append_left _ hg))
    refine ⟨?_, fun _ => ihn hnexts,
      ihr fun g hg => h g (List.mem_cons_of_mem _ (List.mem_append_right _ hg))⟩
    rw [stuck, aborts_of_quiet hnexts, Bool.and_false]

/-- A list of filters whose calls do not return early: so does the rest of the list, and a filter
without a task succeeds and does not cut off its own next filters either. -/
theorem aborts_cons (h : aborts v vars (.cons f nexts rest) = false) :
    aborts v vars rest = false ∧
      (v.hasTask f = false → fails v vars f = false ∧ aborts v vars nexts = false) := by
  rw [aborts, Bool.or_eq_false_iff] at h
  refine ⟨h.2, fun htask => ?_⟩
  rw [htask, Bool.not_false, Bool.true_and, Bool.or_eq_false_iff] at h
  exact h.1

/-- A filter that is waited for and not stuck is settled, and its next filters are in turn. -/
theorem visit_prepared_cons (hop : v.op = .prepare)
    (hab : aborts v vars (.cons f nexts rest) = false) (hstuck : stuck v vars f nexts = false)
    (hS : ∀ g ∈ prepared v vars (.cons f nexts rest), S g) :
    S f ∧ (fails v vars f = false →
        aborts v vars nexts = false ∧ ∀ g ∈ prepared v vars nexts, S g) ∧
      ∀ g ∈ prepared v vars rest, S g := by
  obtain ⟨-, hsync⟩ := aborts_cons hab
  rw [prepared] at hS
  by_cases htask : v.hasTask f = true
  · rw [if_pos htask] at hS
    have hrest : ∀ g ∈ prepared v vars rest, S g := fun g hg => hS g (List.mem_append_right _ hg)
    cases hfails : fails v vars f with
    | true =>
      rw [if_pos hfails] at hS
      exact ⟨hS f (List.mem_append_left _ (List.mem_singleton.mpr rfl)),
        fun h => Bool.noConfusion h, hrest⟩
    | false =>
      have hnexts : aborts v vars nexts = false := by
        rw [stuck, hop, htask, hfails] at hstuck
        exact hstuck
      rw [hfails, hnexts] at hS
      refine ⟨hS f ?_, fun _ => ⟨hnexts, fun g hg => hS g ?_⟩, hrest⟩
      · simp
      · simp [hg]
  · rw [Bool.not_eq_true] at htask
    obtain ⟨hfails, hnexts⟩ := hsync htask
    rw [htask, hfails, hnexts] at hS
    refine ⟨hS f ?_, fun _ => ⟨hnexts, fun g hg => hS g ?_⟩, fun g hg => hS g ?_⟩
    · simp
    · simp [hg]
    · simp [hg]

theorem visitIn_of_prepared (hop : v.op = .prepare) (hab : aborts v vars F = false)
    (hfree : Free v vars F) (hS : ∀ g ∈ prepared v vars F, S g) : VisitIn v vars S F := by
  induction F with
  | nil => trivial
  | cons f nexts rest ihn ihr =>
    obtain ⟨hf, hnexts, hrest⟩ := visit_prepared_cons hop hab hfree.1 hS
    exact ⟨hf, fun hfails => ihn (hnexts hfails).1 (hfree.2.1 hfails) (hnexts hfails).2,
      ihr (aborts_cons hab).1 hfree.2.2 hrest⟩

theorem heardIn_of_prepared (hop : v.op = .prepare) (hab : aborts v vars F = false)
    (hheard : HeardFrom v vars F) (hS : ∀ g ∈ prepared v vars F, S g) :
    HeardIn v vars S F := by
  induction F with
  | nil => exact hheard
  | cons f nexts rest _ ihr =>
    obtain ⟨hf, hnexts, hrest⟩ := visit_prepared_cons hop hab hheard.1.1 hS
    refine ⟨⟨hf, fun hfails => ?_⟩, hheard.2.imp id fun hlater => ?_⟩
    · exact visitIn_of_prepared hop (hnexts hfails).1 (hheard.1.2 hfails) (hnexts hfails).2
    · exact ihr (aborts_cons hab).1 hlater hrest

theorem failing_of_aborts (h : aborts v vars F = true) :
    ∃ f, .enter f ∈ prepareActions v.hasTask F ∧ fails v vars f = true := by
  induction F with
  | nil => cases h
  | cons f nexts rest ihn ihr =>
    rw [aborts, Bool.or_eq_true, Bool.and_eq_true, Bool.or_eq_true] at h
    rw [prepareActions]
    rcases h with ⟨htask, hf | hn⟩ | hr
    · rw [Bool.not_eq_true'] at htask
      exact ⟨f, by simp [htask], hf⟩
    · rw [Bool.not_eq_true'] at htask
      obtain ⟨g, hg, hfails⟩ := ihn hn
      exact ⟨g, by simp [htask, hg], hfails⟩
    · obtain ⟨g, hg, hfails⟩ := ihr hr
      exact ⟨g, List.mem_append_right _ hg, hfails⟩

/-- `PrepareDone` of a filter ends after it has begun. -/
def Opened (E : FilterId → Prop) : List Action → Prop
  | [] => True
  | .enter f :: T => Opened (fun g => E g ∨ g = f) T
  | .ready f :: T => E f ∧ Opened E T
  | .done _ :: T => Opened E T
  | .submit _ _ :: T => Opened E T
  | .returned _ :: T => Opened E T

theorem Opened.mono (h : Opened E T) (hE : ∀ f, E f → E' f) : Opened E' T := by
  induction T generalizing E E' with
  | nil => trivial
  | cons a T ih =>
    cases a with
    | enter f => exact ih h fun g hg => hg.imp (hE g) id
    | ready f => exact ⟨hE f h.1, ih h.2 hE⟩
    | done f | submit f nexts | returned f => exact ih (E := E) h hE

theorem Opened.prepareActions (h : Opened E T) :
    Opened E (prepareActions hasTask F ++ T) := by
  induction F generalizing E T with
  | nil => exact h
  | cons f nexts rest ihn ihr =>
    rw [Filters.prepareActions]
    by_cases htask : hasTask f = true
    · rw [if_pos htask]
      exact ihr h
    · rw [if_neg htask, List.append_assoc, List.cons_append, List.append_assoc]
      refine ihn ⟨.inr rfl, ihr (h.mono fun g hg => .inl hg)⟩

/-- The hook of a filter is called by a task, or by the caller. -/
theorem prepare_reaches (hop : v.op = .prepare) (h : f ∈ F.members) :
    f ∈ onTasks v F ∨ .enter f ∈ prepareActions v.hasTask F := by
  induction F with
  | nil => cases h
  | cons g nexts rest ihn ihr =>
    simp only [onTasks, hop, Filters.prepareActions, List.mem_append]
    rcases List.mem_cons.mp h with rfl | h
    · by_cases htask : v.hasTask f = true
      · simp [htask]
      · simp [htask]
    · rcases List.mem_append.mp h with h | h
      · by_cases htask : v.hasTask g = true
        · simp [htask, h]
        · rcases ihn h with h | h
          · simp [htask, h]
          · simp [htask, h]
      · exact (ihr h).imp .inr .inr

theorem prepareActions_fits (hop : v.op = .prepare) (hM : ∀ g ∈ F.members, g ∈ M) :
    ∀ a ∈ prepareActions v.hasTask F, a.Fits v M := by
  induction F with
  | nil => exact fun a ha => absurd ha List.not_mem_nil
  | cons f nexts rest ihn ihr =>
    have hf : f ∈ M := hM f List.mem_cons_self
    have hnexts : ∀ g ∈ nexts.members, g ∈ M := fun g hg =>
      hM g (List.mem_cons_of_mem _ (List.mem_append_left _ hg))
    have hrest : ∀ g ∈ rest.members, g ∈ M := fun g hg =>
      hM g (List.mem_cons_of_mem _ (List.mem_append_right _ hg))
    intro a ha
    rw [Filters.prepareActions] at ha
    rcases List.mem_append.mp ha with ha | ha
    · by_cases htask : v.hasTask f = true
      · rw [if_pos htask, List.mem_singleton] at ha
        subst ha
        exact ⟨hf, hnexts⟩
      · rw [if_neg htask, List.mem_cons, List.mem_append, List.mem_singleton] at ha
        rcases ha with rfl | ha | rfl
        · exact ⟨hop, hf⟩
        · exact ihn hnexts a ha
        · exact ⟨hop, hf⟩
    · exact ihr hrest a ha

-- The other operations

/-- The action calls the hook of the filter, or submits the job that does. -/
def Action.Serves (hasTask : FilterId → Bool) (f : FilterId) (a : Action) : Prop :=
  a = .done f ∨ hasTask f = true ∧ ∃ nexts, a = .submit f nexts

theorem start_reaches (h : f ∈ F.members) :
    ∃ a ∈ startActions hasTask F, a.Serves hasTask f := by
  induction F with
  | nil => cases h
  | cons g nexts rest ihn ihr =>
    rw [startActions]
    rcases List.mem_cons.mp h with rfl | h
    · by_cases htask : hasTask f = true
      · exact ⟨.submit f nexts, by simp [htask], .inr ⟨htask, nexts, rfl⟩⟩
      · exact ⟨.done f, by simp [htask], .inl rfl⟩
    · rcases List.mem_append.mp h with h | h
      · obtain ⟨a, ha, hserves⟩ := ihn h
        refine ⟨a, List.mem_append_left _ ?_, hserves⟩
        split
        · exact List.mem_cons_of_mem _ ha
        · exact List.mem_append_left _ ha
      · obtain ⟨a, ha, hserves⟩ := ihr h
        exact ⟨a, List.mem_append_right _ ha, hserves⟩

/-- The loop over the head filters adds only what is done when a head filter has returned. -/
theorem startActions_subset (ha : a ∈ startActions hasTask F) :
    a ∈ startHeads hasTask F := by
  induction F with
  | nil => exact ha
  | cons f nexts rest _ ih =>
    rw [startActions] at ha
    rw [startHeads]
    refine List.mem_append.mpr ((List.mem_append.mp ha).imp (fun ha => ?_) ih)
    split at ha <;> grind

theorem mem_startHeads (ha : a ∈ startHeads hasTask F) :
    a ∈ startActions hasTask F ∨ ∃ f, a = .returned f := by
  induction F with
  | nil => exact .inl ha
  | cons f nexts rest _ ih =>
    rw [startHeads, List.mem_append] at ha
    rw [startActions, List.mem_append]
    rcases ha with ha | ha
    · split at ha <;> grind
    · exact (ih ha).imp_left .inr

theorem startHeads_reaches (hasTask : FilterId → Bool) (h : f ∈ F.members) :
    ∃ a ∈ startHeads hasTask F, a.Serves hasTask f :=
  have ⟨a, ha, hserves⟩ := start_reaches h
  ⟨a, startActions_subset ha, hserves⟩

theorem pause_reaches (h : f ∈ F.members) : .done f ∈ pauseActions F := by
  induction F with
  | nil => cases h
  | cons g nexts rest ihn ihr =>
    rw [pauseActions]
    rcases List.mem_cons.mp h with rfl | h
    · exact List.mem_cons_self
    · refine List.mem_cons_of_mem _ (List.mem_append.mpr ?_)
      exact (List.mem_append.mp h).imp ihn ihr

theorem pauseActions_subset (ha : a ∈ pauseActions F) : a ∈ pauseHeads F := by
  induction F with
  | nil => exact ha
  | cons f nexts rest _ ih =>
    rw [pauseActions, List.mem_cons, List.mem_append] at ha
    rw [pauseHeads, List.mem_cons, List.mem_append]
    exact ha.imp_right (.imp_right fun ha => List.mem_cons_of_mem _ (ih ha))

theorem mem_pauseHeads (ha : a ∈ pauseHeads F) : a ∈ pauseActions F ∨ ∃ f, a = .returned f := by
  induction F with
  | nil => exact .inl ha
  | cons f nexts rest _ ih =>
    rw [pauseHeads, List.mem_cons, List.mem_append, List.mem_cons] at ha
    rw [pauseActions, List.mem_cons, List.mem_append]
    rcases ha with ha | ha | ha | ha
    · exact .inl (.inl ha)
    · exact .inl (.inr (.inl ha))
    · exact .inr ⟨f, ha⟩
    · exact (ih ha).imp_left fun ha => .inr (.inr ha)

theorem pauseHeads_reaches (h : f ∈ F.members) : .done f ∈ pauseHeads F :=
  pauseActions_subset (pause_reaches h)

theorem startActions_fits (hop : v.op ≠ .prepare) (hM : ∀ g ∈ F.members, g ∈ M) :
    ∀ a ∈ startActions v.hasTask F, a.Fits v M := by
  induction F with
  | nil => exact fun a ha => absurd ha List.not_mem_nil
  | cons f nexts rest ihn ihr =>
    have hf : f ∈ M := hM f List.mem_cons_self
    have hnexts : ∀ g ∈ nexts.members, g ∈ M := fun g hg =>
      hM g (List.mem_cons_of_mem _ (List.mem_append_left _ hg))
    intro a ha
    rw [startActions] at ha
    rcases List.mem_append.mp ha with ha | ha
    · split at ha
      · rcases List.mem_cons.mp ha with rfl | ha
        · exact ⟨hf, hnexts⟩
        · exact ihn hnexts a ha
      · rcases List.mem_append.mp ha with ha | ha
        · exact ihn hnexts a ha
        · rw [List.mem_singleton] at ha
          subst ha
          exact ⟨hop, hf⟩
    · exact ihr (fun g hg => hM g (List.mem_cons_of_mem _ (List.mem_append_right _ hg))) a ha

theorem startHeads_fits (hop : v.op ≠ .prepare) (hM : ∀ g ∈ F.members, g ∈ M) :
    ∀ a ∈ startHeads v.hasTask F, a.Fits v M := by
  intro a ha
  rcases mem_startHeads ha with ha | ⟨f, rfl⟩
  · exact startActions_fits hop hM a ha
  · trivial

theorem pauseActions_fits (hop : v.op ≠ .prepare) (hM : ∀ g ∈ F.members, g ∈ M) :
    ∀ a ∈ pauseActions F, a.Fits v M := by
  induction F with
  | nil => exact fun a ha => absurd ha List.not_mem_nil
  | cons f nexts rest ihn ihr =>
    intro a ha
    rw [pauseActions, List.mem_cons, List.mem_append] at ha
    rcases ha with rfl | ha | ha
    · exact ⟨hop, hM f List.mem_cons_self⟩
    · exact ihn (fun g hg => hM g (List.mem_cons_of_mem _ (List.mem_append_left _ hg))) a ha
    · exact ihr (fun g hg => hM g (List.mem_cons_of_mem _ (List.mem_append_right _ hg))) a ha

theorem pauseHeads_fits (hop : v.op ≠ .prepare) (hM : ∀ g ∈ F.members, g ∈ M) :
    ∀ a ∈ pauseHeads F, a.Fits v M := by
  intro a ha
  rcases mem_pauseHeads ha with ha | ⟨f, rfl⟩
  · exact pauseActions_fits hop hM a ha
  · trivial

theorem opened_of_fits (hop : v.op ≠ .prepare) (hfits : ∀ a ∈ T, a.Fits v M) : Opened E T := by
  induction T generalizing E with
  | nil => trivial
  | cons a T ih =>
    have hT : ∀ a ∈ T, a.Fits v M := fun a ha => hfits a (List.mem_cons_of_mem _ ha)
    have ha := hfits a List.mem_cons_self
    cases a with
    | enter f | ready f => exact absurd ha.1 hop
    | done f | submit f nexts | returned f => exact ih hT

theorem settles_of_serves (hop : v.op ≠ .prepare) (hfits : ∀ a ∈ T, a.Fits v M) (ha : a ∈ T)
    (hserves : a.Serves v.hasTask f) : f ∈ settles v vars T := by
  induction T with
  | nil => cases ha
  | cons b T ih =>
    have hT : ∀ a ∈ T, a.Fits v M := fun a ha => hfits a (List.mem_cons_of_mem _ ha)
    have hb := hfits b List.mem_cons_self
    rcases List.mem_cons.mp ha with rfl | ha
    · rcases hserves with rfl | ⟨-, nexts, rfl⟩
      · exact List.mem_cons_self
      · refine List.mem_append_left _ ?_
        unfold submitted
        split
        next heq => exact absurd heq hop
        · exact List.mem_singleton.mpr rfl
    · have hmem := ih hT ha
      cases b with
      | enter g => exact absurd hb.1 hop
      | ready g | done g => exact List.mem_cons_of_mem _ hmem
      | submit g nexts => exact List.mem_append_right _ hmem
      | returned g => exact hmem

theorem onTasks_start (hop : v.op = .start ∨ v.op = .resume) (h : f ∈ F.members)
    (htask : v.hasTask f = true) : f ∈ onTasks v F := by
  induction F with
  | nil => cases h
  | cons g nexts rest ihn ihr =>
    have heq : onTasks v (.cons g nexts rest) =
        (if v.hasTask g then [g] else []) ++ (onTasks v nexts ++ onTasks v rest) := by
      rcases hop with hop | hop
      · simp only [onTasks, hop]
      · simp only [onTasks, hop]
    rw [heq]
    rcases List.mem_cons.mp h with rfl | h
    · simp [htask]
    · refine List.mem_append_right _ (List.mem_append.mpr ?_)
      exact (List.mem_append.mp h).imp ihn ihr

-- Jobs

theorem jobActions_fits (hf : f ∈ M) (hnexts : ∀ g ∈ nexts.members, g ∈ M) :
    ∀ a ∈ jobActions v f nexts, a.Fits v M := by
  intro a ha
  unfold jobActions at ha
  split at ha
  next hop =>
    rw [List.mem_cons, List.mem_append, List.mem_singleton] at ha
    rcases ha with rfl | ha | rfl
    · exact ⟨hop, hf⟩
    · exact prepareActions_fits hop hnexts a ha
    · exact ⟨hop, hf⟩
  next hop =>
    rw [List.mem_singleton] at ha
    subst ha
    exact ⟨hop, hf⟩

theorem prepareActions_stays :
    ∀ a ∈ prepareActions hasTask F, ∀ f, a ≠ .returned f := by
  induction F with
  | nil => exact fun a ha => absurd ha List.not_mem_nil
  | cons g nexts rest ihn ihr =>
    intro a ha
    rw [prepareActions] at ha
    rcases List.mem_append.mp ha with ha | ha
    · split at ha
      · rw [List.mem_singleton.mp ha]
        exact fun f heq => by cases heq
      · rw [List.mem_cons, List.mem_append, List.mem_singleton] at ha
        rcases ha with rfl | ha | rfl
        · exact fun f heq => by cases heq
        · exact ihn a ha
        · exact fun f heq => by cases heq
    · exact ihr a ha

theorem jobActions_stays : ∀ a ∈ jobActions v f nexts, ∀ g, a ≠ .returned g := by
  intro a ha
  unfold jobActions at ha
  split at ha
  · rw [List.mem_cons, List.mem_append, List.mem_singleton] at ha
    rcases ha with rfl | ha | rfl
    · exact nofun
    · exact prepareActions_stays a ha
    · exact nofun
  · rw [List.mem_singleton.mp ha]
    exact nofun

theorem jobActions_opened : Opened E (jobActions v f nexts) := by
  unfold jobActions
  split
  · exact Opened.prepareActions (E := fun g => E g ∨ g = f) ⟨.inr rfl, trivial⟩
  · trivial

end Descent

end MediaFoundation.Filters
