import MediaFoundation.Filter.Failures

/-!
# The waits of the caller

The waits that the caller still has to do, and the codes that it holds, decide how the operation
ends, whatever the jobs do meanwhile: `Sound` follows them to the end. A wait for a filter
unfolds into waits for its next filters without changing that.
-/

namespace MediaFoundation.Filters

section Waiting

variable (v : Invocation) (vars : FilterId → FilterVars) (S : FilterId → Prop)

/-- `WaitAllState` comes only to filters of `S`. -/
def VisitIn : Forest → Prop
  | .nil => True
  | .cons f nexts rest =>
    S f ∧ (fails v vars f = false → VisitIn nexts) ∧ VisitIn rest

/-- Up to a head filter that answers with an error, `WaitAllState` comes only to filters of `S`. -/
def HeardIn : Forest → Prop
  | .nil => False
  | .cons f nexts rest =>
    (S f ∧ (fails v vars f = false → VisitIn v vars S nexts)) ∧
      (loud v vars f nexts = true ∨ HeardIn rest)

/-- The waits come only to filters of `S`, and end with an error if there must be one. `W` holds
of the filters that were waited for, and the codes are looked at for being errors only. -/
def Sound (must : Bool) : (FilterId → Prop) → List Wait → List Bool → Bool → Bool → Prop
  | _, [], _, _, ret => must = true → ret = true
  | W, .wait f nexts :: waits, results, _, ret =>
    (S f ∧ (fails v vars f = false → VisitIn v vars S nexts)) ∧
      Sound must (fun g => W g ∨ g = f) waits results (loud v vars f nexts) ret
  | W, .merge f :: waits, res :: results, last, ret =>
    (last = true → (S f ∧ W f) ∧ (fails v vars f = true → code v vars f ≠ .ok)) ∧
      Sound must W waits ((if last then fails v vars f else res) :: results) last ret
  | _, .merge _ :: _, [], _, _ => False
  | W, .leave :: waits, res :: results, _, ret => Sound must W waits results res ret
  | _, .leave :: _, [], _, _ => False
  | W, .head :: waits, results, last, ret =>
    v.op.goesOn = false ∧ last = true ∨ Sound must W waits results last (ret || last)

variable {v vars S} {must : Bool} {W W' : FilterId → Prop} {F nexts rest : Forest}
  {waits : List Wait} {results : List Bool} {last ret res : Bool} {f : FilterId}

theorem Sound.mono (h : Sound v vars S must W waits results last ret) (hW : ∀ f, W f → W' f) :
    Sound v vars S must W' waits results last ret := by
  induction waits generalizing W W' results last ret with
  | nil => exact h
  | cons w waits ih =>
    cases w with
    | wait f nexts => exact ⟨h.1, ih h.2 fun g hg => hg.imp (hW g) id⟩
    | merge f =>
      cases results with
      | nil => exact h
      | cons res results =>
        refine ⟨fun hlast => ?_, ih h.2 hW⟩
        obtain ⟨⟨hS, hwaited⟩, hcode⟩ := h.1 hlast
        exact ⟨⟨hS, hW f hwaited⟩, hcode⟩
    | leave =>
      cases results with
      | nil => exact h
      | cons res results => exact ih (show Sound v vars S must W waits results res ret from h) hW
    | head => exact h.imp id fun h => ih h hW

theorem Sound.noted (h : Sound v vars S must W waits results last ret) :
    Sound v vars S must W waits results last true := by
  induction waits generalizing W results last ret with
  | nil => exact fun _ => rfl
  | cons w waits ih =>
    cases w with
    | wait f nexts => exact ⟨h.1, ih h.2⟩
    | merge f =>
      cases results with
      | nil => exact h
      | cons res results => exact ⟨h.1, ih h.2⟩
    | leave =>
      cases results with
      | nil => exact h
      | cons res results => exact ih (show Sound v vars S must W waits results res ret from h)
    | head => exact h.imp id ih

/-- **A loop over next filters** ends as `heard` says. -/
theorem Sound.loop (hvisit : VisitIn v vars S F)
    (h : Sound v vars S must W waits results (heard v vars res F) ret) :
    Sound v vars S must W (waitLoop F ++ .leave :: waits) (res :: results) last ret := by
  induction F generalizing W res last with
  | nil => exact h
  | cons f nexts rest _ ih =>
    refine ⟨⟨hvisit.1, hvisit.2.1⟩, fun hloud => ⟨⟨hvisit.1, .inr rfl⟩, fun hfails => ?_⟩, ?_⟩
    · rw [loud, if_pos hfails] at hloud
      exact bne_iff_ne.mp hloud
    · exact ih hvisit.2.2 (h.mono fun g hg => .inl hg)

theorem Sound.heads (hvisit : VisitIn v vars S F) (hret : must = true → ret = true) :
    Sound v vars S must W (waitHeads F) results last ret := by
  induction F generalizing W last ret with
  | nil => exact hret
  | cons f nexts rest _ ih =>
    refine ⟨⟨hvisit.1, hvisit.2.1⟩, .inr (ih hvisit.2.2 fun hmust => ?_)⟩
    rw [hret hmust, Bool.true_or]

theorem Sound.heads_heard (hheard : HeardIn v vars S F)
    (hvisit : v.op.goesOn = true → VisitIn v vars S F) :
    Sound v vars S true W (waitHeads F) results last ret := by
  induction F generalizing W last ret with
  | nil => exact absurd hheard id
  | cons f nexts rest _ ih =>
    refine ⟨hheard.1, ?_⟩
    rcases hheard.2 with hloud | hlater
    · by_cases hop : v.op.goesOn = true
      · refine .inr (.heads (hvisit hop).2.2 fun _ => ?_)
        rw [hloud, Bool.or_true]
      · exact .inl ⟨Bool.not_eq_true _ ▸ hop, hloud⟩
    · exact .inr (ih hlater fun hop => (hvisit hop).2.2)

-- Where WaitAllState comes to

theorem visitIn_of_members (h : ∀ f ∈ F.members, S f) : VisitIn v vars S F := by
  induction F with
  | nil => trivial
  | cons f nexts rest ihn ihr =>
    refine ⟨h f List.mem_cons_self, fun _ => ihn fun g hg => h g ?_, ihr fun g hg => h g ?_⟩
    · exact List.mem_cons_of_mem _ (List.mem_append_left _ hg)
    · exact List.mem_cons_of_mem _ (List.mem_append_right _ hg)

theorem heardIn_of_members (hheard : HeardFrom v vars F) (h : ∀ f ∈ F.members, S f) :
    HeardIn v vars S F := by
  induction F with
  | nil => exact hheard
  | cons f nexts rest _ ih =>
    have hvisit : VisitIn v vars S (.cons f nexts rest) := visitIn_of_members h
    refine ⟨⟨hvisit.1, hvisit.2.1⟩, hheard.2.imp id fun hlater => ih hlater fun g hg => h g ?_⟩
    exact List.mem_cons_of_mem _ (List.mem_append_right _ hg)

end Waiting

end MediaFoundation.Filters
