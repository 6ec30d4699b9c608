import MediaFoundation.Lib.TopoSort
import MediaFoundation.Pipeline.PipelineCore

/-!
# The order of the filters

`ReorderFilters` sorts by in-degrees, which it takes from the in ports, and by
edges, which it takes from the out ports. Whatever the ports say, it ends and
permutes the filters. It puts them in the order of the data flow when both sides
agree (`Agrees`): no out port leads out of the pipeline, and every filter has as
many linked in ports as out ports lead to it.
-/

namespace MediaFoundation.PipelineCore

variable {F I O : Type}

-- The graph

def graphOf (filters : List F) (deg : ℕ → ℤ) (nexts : ℕ → List ℕ) : List (FilterNode F) :=
  filters.zipIdx.map fun x => { inDegree := deg x.2, filter := x.1, nexts := nexts x.2 }

variable {filters : List F} {deg : ℕ → ℤ} {nexts : ℕ → List ℕ}

theorem getElem?_graphOf (i : ℕ) :
    (graphOf filters deg nexts)[i]? =
      filters[i]?.map fun f => { inDegree := deg i, filter := f, nexts := nexts i } := by
  rw [graphOf, List.getElem?_map, List.getElem?_zipIdx, Option.map_map]
  simp only [Nat.zero_add]
  rfl

variable (filters deg nexts) in
theorem modify_graphOf (v : ℕ) (d : ℤ → ℤ) (e : List ℕ → List ℕ) :
    ((graphOf filters deg nexts).modify v fun node =>
      { node with inDegree := d node.inDegree, nexts := e node.nexts }) =
      graphOf filters (Function.update deg v (d (deg v)))
        (Function.update nexts v (e (nexts v))) := by
  refine List.ext_getElem? fun i => ?_
  rw [List.getElem?_modify, getElem?_graphOf, getElem?_graphOf]
  by_cases hi : v = i
  · subst hi
    simp only [if_true, Function.update_self]
    cases filters[v]? <;> rfl
  · have hi' : i ≠ v := fun heq => hi heq.symm
    simp only [if_neg hi, Function.update_of_ne hi']
    cases filters[i]? <;> rfl

theorem releaseEdge_graphOf {v : ℕ} (hv : v < filters.length) (stack : List ℕ) :
    releaseEdge (graphOf filters deg nexts, stack) v =
      (graphOf filters (Function.update deg v (deg v - 1)) nexts,
        if Function.update deg v (deg v - 1) v = 0 then v :: stack else stack) := by
  have hmodify := modify_graphOf filters deg nexts v
    (fun d => d - 1) fun e => e
  simp only [Function.update_eq_self] at hmodify
  simp only [releaseEdge, hmodify, getElem?_graphOf, List.getElem?_eq_getElem hv,
    Option.map_some, Option.some.injEq]

theorem releaseEdges_graphOf {vs : List ℕ} (hvs : ∀ v ∈ vs, v < filters.length)
    (deg : ℕ → ℤ) (stack : List ℕ) :
    vs.foldl releaseEdge (graphOf filters deg nexts, stack) =
      (graphOf filters (TopoSort.release deg stack vs).1 nexts,
        (TopoSort.release deg stack vs).2) := by
  induction vs generalizing deg stack with
  | nil => rfl
  | cons v vs ih =>
    rw [List.foldl_cons, releaseEdge_graphOf (hvs v List.mem_cons_self),
      ih fun w hw => hvs w (List.mem_cons_of_mem _ hw)]
    rfl

theorem reorderLoop_graphOf (hnexts : ∀ u < filters.length, ∀ v ∈ nexts u, v < filters.length)
    (fuel : ℕ) {stack : List ℕ} (hcovers : ∃ done, TopoSort.Covers filters.length deg stack done)
    (done : List ℕ) :
    reorderLoop fuel (graphOf filters deg nexts) stack (done.filterMap fun i => filters[i]?) =
      (TopoSort.sort nexts fuel deg stack done).map
        fun taken => taken.filterMap fun i => filters[i]? := by
  induction fuel generalizing deg stack done with
  | zero => rfl
  | succ fuel ih =>
    cases stack with
    | nil => rfl
    | cons cur stack =>
      obtain ⟨taken, hcovers⟩ := hcovers
      have hcur : cur < filters.length := hcovers.lt cur List.mem_cons_self
      have hnext := ih ⟨_, hcovers.take.release (hnexts cur hcur)⟩ (done ++ [cur])
      rw [reorderLoop, getElem?_graphOf, List.getElem?_eq_getElem hcur]
      simp only [Option.map_some, Option.bind_some]
      rw [releaseEdges_graphOf (hnexts cur hcur), TopoSort.sort, ← hnext, List.filterMap_append]
      simp [List.getElem?_eq_getElem hcur]

theorem filterMap_range (filters : List F) :
    ((List.range filters.length).filterMap fun i => filters[i]?) = filters := by
  induction filters using List.reverseRecOn with
  | nil => rfl
  | append_singleton filters f ih =>
    rw [List.length_append, List.length_singleton, List.range_succ, List.filterMap_append]
    have hold : ((List.range filters.length).filterMap fun i => (filters ++ [f])[i]?) =
        (List.range filters.length).filterMap fun i => filters[i]? :=
      List.filterMap_congr fun i hi => List.getElem?_append_left (List.mem_range.mp hi)
    rw [hold, ih]
    simp

variable (pre next : F → List F)

def degrees (filters : List F) (i : ℕ) : ℤ := ((filters[i]?.elim [] pre).length : ℕ)

theorem readyStack (l : List (F × ℕ)) (stack : List ℕ) :
    l.foldl (fun stack x => if (pre x.1).isEmpty then x.2 :: stack else stack) stack =
      ((l.filter fun x => (pre x.1).isEmpty).map Prod.snd).reverse ++ stack := by
  induction l generalizing stack with
  | nil => rfl
  | cons x l ih =>
    rw [List.foldl_cons, ih, List.filter_cons]
    split <;> simp

theorem covers_readyStack :
    TopoSort.Covers filters.length (degrees pre filters)
      ((filters.zipIdx.filter fun x => (pre x.1).isEmpty).map Prod.snd).reverse [] := by
  have hmem : ∀ v, v ∈ ((filters.zipIdx.filter fun x => (pre x.1).isEmpty).map Prod.snd).reverse ++
      [] ↔ ∃ f, filters[v]? = some f ∧ pre f = [] := by
    intro v
    simp only [List.append_nil, List.mem_reverse, List.mem_map, List.mem_filter,
      List.isEmpty_iff, Prod.exists, List.mem_zipIdx_iff_getElem?]
    constructor
    · rintro ⟨f, w, ⟨hget, hpre⟩, rfl⟩
      exact ⟨f, hget, hpre⟩
    · rintro ⟨f, hget, hpre⟩
      exact ⟨f, v, ⟨hget, hpre⟩, rfl⟩
  refine ⟨?_, fun v hv => ?_, fun v hv => ?_⟩
  · rw [List.append_nil, List.nodup_reverse]
    have hall : (filters.zipIdx.map Prod.snd).Nodup := by
      rw [List.zipIdx_map_snd]
      exact List.nodup_range'
    exact hall.sublist (List.filter_sublist.map Prod.snd)
  · rw [hmem, degrees, List.getElem?_eq_getElem hv]
    simp
  · obtain ⟨f, hget, -⟩ := (hmem v).mp hv
    exact (List.getElem?_eq_some_iff.mp hget).1

-- Indices of filters

variable [DecidableEq F]

theorem mapInfo_concat (filters : List F) (g f : F) :
    mapInfo (filters ++ [g]) f = if g = f then filters.length else mapInfo filters f := by
  rw [mapInfo, List.zipIdx_append, List.foldl_append]
  simp [mapInfo]

theorem mapInfo_lt (filters : List F) (hne : filters ≠ []) (f : F) :
    mapInfo filters f < filters.length := by
  induction filters using List.reverseRecOn with
  | nil => exact absurd rfl hne
  | append_singleton filters g ih =>
    rw [mapInfo_concat, List.length_append, List.length_singleton]
    split
    · omega
    · by_cases hnil : filters = []
      · subst hnil
        exact Nat.zero_lt_one
      · exact Nat.lt_succ_of_lt (ih hnil)

theorem getElem?_mapInfo {filters : List F} {f : F} (hf : f ∈ filters) :
    filters[mapInfo filters f]? = some f := by
  induction filters using List.reverseRecOn with
  | nil => exact absurd hf List.not_mem_nil
  | append_singleton filters g ih =>
    rw [mapInfo_concat]
    split
    next heq =>
      subst heq
      simp
    next hne =>
      rcases List.mem_append.mp hf with hold | hnew
      · have hget := ih hold
        rw [List.getElem?_append_left (List.getElem?_eq_some_iff.mp hget).1]
        exact hget
      · exact absurd (List.mem_singleton.mp hnew).symm hne

theorem mapInfo_getElem {filters : List F} (hnodup : filters.Nodup) {i : ℕ}
    (hi : i < filters.length) : mapInfo filters filters[i] = i := by
  obtain ⟨hlt, hget⟩ := List.getElem?_eq_some_iff.mp
    (getElem?_mapInfo (List.getElem_mem hi))
  exact (hnodup.getElem_inj_iff).mp hget

theorem mapInfo_inj {filters : List F} {f g : F} (hf : f ∈ filters) (hg : g ∈ filters)
    (heq : mapInfo filters f = mapInfo filters g) : f = g := by
  have hget := getElem?_mapInfo hf
  rw [heq, getElem?_mapInfo hg] at hget
  exact (Option.some.inj hget).symm


-- What ConstructGraph makes

def edges (filters : List F) (i : ℕ) : List ℕ :=
  filters.flatMap fun f =>
    if mapInfo filters f = i then (next f).map (mapInfo filters) else []

theorem addEdges_graphOf (l : List F) (deg : ℕ → ℤ) (nexts : ℕ → List ℕ) :
    l.foldl (fun graph f => graph.modify (mapInfo filters f) fun node =>
        { node with nexts := node.nexts ++ (next f).map (mapInfo filters) })
      (graphOf filters deg nexts) =
    graphOf filters deg fun i => nexts i ++ l.flatMap fun f =>
      if mapInfo filters f = i then (next f).map (mapInfo filters) else [] := by
  induction l generalizing nexts with
  | nil => simp
  | cons f l ih =>
    have hmodify := modify_graphOf filters deg nexts
      (mapInfo filters f) (fun d => d) fun e => e ++ (next f).map (mapInfo filters)
    simp only [Function.update_eq_self] at hmodify
    rw [List.foldl_cons, hmodify, ih]
    congr 1
    funext i
    by_cases hi : mapInfo filters f = i
    · subst hi
      rw [Function.update_self, List.flatMap_cons, if_pos rfl, List.append_assoc]
    · have hi' : i ≠ mapInfo filters f := fun heq => hi heq.symm
      rw [Function.update_of_ne hi', List.flatMap_cons, if_neg hi, List.nil_append]

theorem constructGraph_eq :
    constructGraph filters pre next =
      (graphOf filters (degrees pre filters) (edges next filters),
        ((filters.zipIdx.filter fun x => (pre x.1).isEmpty).map Prod.snd).reverse) := by
  have hnodes : (filters.map fun f => { inDegree := (pre f).length, filter := f }) =
      graphOf filters (degrees pre filters) fun _ => [] := by
    refine List.ext_getElem? fun i => ?_
    rw [getElem?_graphOf, List.getElem?_map]
    cases hget : filters[i]? with
    | none => rfl
    | some f =>
      rw [Option.map_some, Option.map_some, degrees, hget]
      rfl
  rw [constructGraph, hnodes, readyStack, List.append_nil, addEdges_graphOf]
  rfl

theorem edges_lt (hne : filters ≠ []) (i : ℕ) :
    ∀ v ∈ edges next filters i, v < filters.length := by
  intro v hv
  obtain ⟨f, -, hv⟩ := List.mem_flatMap.mp hv
  split at hv
  · obtain ⟨g, -, rfl⟩ := List.mem_map.mp hv
    exact mapInfo_lt filters hne g
  · exact absurd hv List.not_mem_nil

-- What ReorderFilters leaves

variable {pre next}

theorem reorderFilters_eq (hne : filters ≠ []) :
    reorderFilters filters pre next =
      (TopoSort.sort (edges next filters) (filters.length + 1) (degrees pre filters)
        ((filters.zipIdx.filter fun x => (pre x.1).isEmpty).map Prod.snd).reverse []).map
        fun taken =>
          let result := taken.filterMap fun i => filters[i]?
          if result.length = filters.length then result else filters := by
  have hloop := reorderLoop_graphOf (fun u _ => edges_lt next hne u) (filters.length + 1)
    ⟨[], covers_readyStack pre⟩ []
  rw [List.filterMap_nil] at hloop
  rw [reorderFilters, constructGraph_eq, hloop, Option.map_map]
  rfl

omit [DecidableEq F] in
theorem perm_filterMap {taken : List ℕ} (hperm : taken.Perm (List.range filters.length)) :
    (taken.filterMap fun i => filters[i]?).Perm filters := by
  have h := hperm.filterMap fun i => filters[i]?
  rw [filterMap_range] at h
  exact h

theorem reorderFilters_perm (filters : List F) (pre next : F → List F) :
    ∃ result, reorderFilters filters pre next = some result ∧ result.Perm filters := by
  by_cases hne : filters = []
  · subst hne
    exact ⟨[], rfl, .refl _⟩
  · obtain ⟨taken, hsort, hleft, -⟩ :=
      TopoSort.sort_spec (fun u _ => edges_lt next hne u) (covers_readyStack pre)
        (show filters.length < filters.length + 1 + ([] : List ℕ).length by simp)
    rw [List.nil_append] at hsort hleft
    refine ⟨_, by rw [reorderFilters_eq hne, hsort]; rfl, ?_⟩
    show (if _ then _ else filters).Perm filters
    split
    next hlength =>
      refine perm_filterMap ?_
      have hsub : taken.Subperm (List.range filters.length) :=
        List.subperm_of_subset hleft.nodup fun i hi => List.mem_range.mpr (hleft.lt i hi)
      refine hsub.perm_of_length_le ?_
      rw [List.length_range, ← hlength]
      exact List.length_filterMap_le _ _
    next => exact .refl _

def Feeds (filters : List F) (next : F → List F) (f g : F) : Prop :=
  f ∈ filters ∧ g ∈ filters ∧ g ∈ next f

def Acyclic (filters : List F) (next : F → List F) : Prop :=
  ∀ f, ¬ Relation.TransGen (Feeds filters next) f f

/-- Both sides of the ports say the same of the filters in the pipeline. -/
structure Agrees (filters : List F) (pre next : F → List F) : Prop where
  inside : ∀ f ∈ filters, ∀ g ∈ next f, g ∈ filters
  counted : ∀ g ∈ filters, (pre g).length = (filters.map fun f => (next f).count g).sum

def Ordered (filters : List F) (next : F → List F) : Prop :=
  ∀ f g, Feeds filters next f g → filters.idxOf f < filters.idxOf g

theorem mem_edges {u v : ℕ} :
    v ∈ edges next filters u ↔
      ∃ f ∈ filters, mapInfo filters f = u ∧ ∃ g ∈ next f, mapInfo filters g = v := by
  rw [edges, List.mem_flatMap]
  constructor
  · rintro ⟨f, hf, hv⟩
    split at hv
    next heq => exact ⟨f, hf, heq, List.mem_map.mp hv⟩
    next => exact absurd hv List.not_mem_nil
  · rintro ⟨f, hf, heq, hg⟩
    exact ⟨f, hf, by rw [if_pos heq]; exact List.mem_map.mpr hg⟩

theorem sum_count_edges (hne : filters ≠ []) (v : ℕ) :
    ((List.range filters.length).map fun u => (edges next filters u).count v).sum =
      (filters.map fun f => ((next f).map (mapInfo filters)).count v).sum := by
  have hone : ∀ f, ((List.range filters.length).map fun u =>
      (if mapInfo filters f = u then (next f).map (mapInfo filters) else []).count v).sum =
      ((next f).map (mapInfo filters)).count v := by
    intro f
    show (∑ u ∈ Finset.range filters.length, _) = _
    rw [Finset.sum_eq_single (mapInfo filters f)]
    · rw [if_pos rfl]
    · intro u _ hu
      rw [if_neg hu.symm, List.count_nil]
    · exact fun habs => absurd (Finset.mem_range.mpr (mapInfo_lt filters hne f)) habs
  have hall : ∀ l : List F, ((List.range filters.length).map fun u =>
      (l.flatMap fun f => if mapInfo filters f = u then (next f).map (mapInfo filters)
        else []).count v).sum =
      (l.map fun f => ((next f).map (mapInfo filters)).count v).sum := by
    intro l
    induction l with
    | nil => simp
    | cons f l ih =>
      simp only [List.flatMap_cons, List.count_append, List.map_cons, List.sum_cons,
        List.sum_map_add, ih, hone]
  exact hall filters

theorem exact_degrees (hnodup : filters.Nodup) (h : Agrees filters pre next) :
    TopoSort.Exact filters.length (edges next filters) (degrees pre filters) := by
  intro v hv
  have hne : filters ≠ [] := fun heq => by
    rw [heq] at hv
    exact absurd hv (Nat.not_lt_zero v)
  rw [sum_count_edges hne, degrees, List.getElem?_eq_getElem hv]
  show (((pre filters[v]).length : ℕ) : ℤ) = _
  rw [h.counted _ (List.getElem_mem hv)]
  congr 2
  refine List.map_congr_left fun f hf => ?_
  rw [List.count, List.count, List.countP_map]
  refine List.countP_congr fun g hg => ?_
  simp only [Function.comp_apply, beq_iff_eq]
  constructor
  · rintro rfl
    exact mapInfo_getElem hnodup hv
  · intro heq
    refine mapInfo_inj (h.inside f hf g hg) (List.getElem_mem hv) ?_
    rw [heq, mapInfo_getElem hnodup hv]

theorem wellFounded_edges (h : Agrees filters pre next)
    (hacyclic : Acyclic filters next) :
    WellFounded fun u v => u < filters.length ∧ v ∈ edges next filters u := by
  -- the filters of the pipeline are finitely many
  let E : {f // f ∈ filters} → {f // f ∈ filters} → Prop := fun f g => (g : F) ∈ next f
  have hwf : WellFounded E := by
    have hirrefl : ∀ f, ¬ Relation.TransGen E f f := fun f hf =>
      hacyclic f (hf.lift Subtype.val fun a b hab => ⟨a.2, b.2, hab⟩)
    have : Std.Irrefl (Relation.TransGen E) := ⟨hirrefl⟩
    have hfinite : Finite {f // f ∈ filters} := List.finite_toSet filters
    exact (Finite.wellFounded_of_trans_of_irrefl (Relation.TransGen E)).mono
      fun _ _ => Relation.TransGen.single
  have hacc : ∀ f : {f // f ∈ filters}, Acc (fun u v => u < filters.length ∧
      v ∈ edges next filters u) (mapInfo filters f) := by
    intro f
    induction f using hwf.induction with
    | h f ih =>
      refine Acc.intro _ fun u hu => ?_
      obtain ⟨f', hf', rfl, g, hg, heq⟩ := mem_edges.mp hu.2
      obtain rfl : g = f := mapInfo_inj (h.inside f' hf' g hg) f.2 heq
      exact ih ⟨f', hf'⟩ hg
  refine ⟨fun v => Acc.intro _ fun u hu => ?_⟩
  obtain ⟨f, hf, rfl, -⟩ := mem_edges.mp hu.2
  exact hacc ⟨f, hf⟩

theorem reorderFilters_order (hnodup : filters.Nodup) (h : Agrees filters pre next)
    (hacyclic : Acyclic filters next) {result : List F}
    (hresult : reorderFilters filters pre next = some result) : Ordered result next := by
  by_cases hne : filters = []
  · subst hne
    cases hresult
    exact fun f g hfeeds => absurd hfeeds.1 List.not_mem_nil
  · obtain ⟨taken, hsort, hperm, horder⟩ :=
      TopoSort.sort_complete (fun u _ => edges_lt next hne u) (exact_degrees hnodup h)
        (covers_readyStack pre) (wellFounded_edges h hacyclic) (Nat.lt_succ_self _)
    have hall := perm_filterMap hperm
    rw [reorderFilters_eq hne, hsort, Option.map_some] at hresult
    simp only [hall.length_eq, if_true, Option.some.injEq] at hresult
    rw [hresult] at hall
    intro f g hfeeds
    have hf := hall.mem_iff.mp hfeeds.1
    have hg := hall.mem_iff.mp hfeeds.2.1
    -- the index of `g` is taken after that of `f`
    have hmem : mapInfo filters g ∈ taken := hperm.mem_iff.mpr
      (List.mem_range.mpr (mapInfo_lt filters hne g))
    obtain ⟨before, after, hsplit⟩ := List.append_of_mem hmem
    have hedge : mapInfo filters g ∈ edges next filters (mapInfo filters f) :=
      mem_edges.mpr ⟨f, hf, rfl, g, hfeeds.2.2, rfl⟩
    have hbefore := horder before _ after hsplit _ (mapInfo_lt filters hne f) hedge
    have hres : result = (before.filterMap fun i => filters[i]?) ++
        g :: after.filterMap fun i => filters[i]? := by
      rw [← hresult, hsplit, List.filterMap_append, List.filterMap_cons, getElem?_mapInfo hg]
    have hmemf : f ∈ before.filterMap fun i => filters[i]? :=
      List.mem_filterMap.mpr ⟨_, hbefore, getElem?_mapInfo hf⟩
    have hnotin : g ∉ before.filterMap fun i => filters[i]? := by
      have hnd : result.Nodup := hall.nodup_iff.mpr hnodup
      rw [hres] at hnd
      exact fun habs => (List.disjoint_of_nodup_append hnd) habs List.mem_cons_self
    rw [hres, List.idxOf_append_of_mem hmemf, List.idxOf_append_of_notMem hnotin]
    exact Nat.lt_of_lt_of_le (List.idxOf_lt_length_of_mem hmemf) (Nat.le_add_right _ _)

-- Every run

variable [DecidableEq I] [DecidableEq O] {W : Ports F I O} {s s' : State F I O}

/-- The step adds no filter twice, and the ports agree when it is `Prepare` of an
acyclic pipeline. -/
def Orderly (W : Ports F I O) (s : State F I O) : Event F I O → Prop
  | .addFilters filtersIn _ => (s.filtersToAdd filtersIn).Nodup
  | .prepare => Acyclic s.filters (s.getNextFilters W) →
      Agrees s.filters (s.getPreFilters W) (s.getNextFilters W)
  | _ => True

/-- The filters and the number of `EVENT_READY`s, which few calls change. -/
def State.core (s : State F I O) : List F × Nat := (s.filters, s.readyEventCnt)

/-- What no link between ports changes. -/
def State.kept (s : State F I O) : (List F × Nat) × FilterState := (s.core, s.state)

omit [DecidableEq F] [DecidableEq O] in
theorem inConnect_kept (port : I) (peer : O) : (s.inConnect W port peer).kept = s.kept := by
  rw [State.inConnect]
  split <;> rfl

omit [DecidableEq F] [DecidableEq I] in
theorem outConnect_kept (port : O) (peer : I) : (s.outConnect W port peer).2.kept = s.kept := by
  rw [State.outConnect]
  split
  · rfl
  · split <;> rfl

omit [DecidableEq F] in
theorem linkFilters_kept (l : List F) (s : State F I O) :
    (State.linkFilters W s l).kept = s.kept := by
  induction l generalizing s with
  | nil => rfl
  | cons f l ih =>
    cases l with
    | nil => rfl
    | cons g l => rw [State.linkFilters, ih, inConnect_kept, outConnect_kept]

omit [DecidableEq F] in
theorem linkPorts_kept (port1 : O) (port2 : I) :
    (s.linkPorts W port1 port2).kept = s.kept := by
  rw [State.linkPorts]
  show (if _ then _ else _ : State F I O).kept = _
  split
  · rw [inConnect_kept, outConnect_kept]
  · rw [outConnect_kept]

omit [DecidableEq F] in
theorem unlinkPrev_kept (s : State F I O) (port : I) : (s.unlinkPrev W port).kept = s.kept := by
  simp only [State.unlinkPrev]
  split <;> rfl

omit [DecidableEq F] in
theorem unlinkPrevFilters_kept (s : State F I O) (f : F) :
    (s.unlinkPrevFilters W f).kept = s.kept := by
  rw [State.unlinkPrevFilters]
  induction s.inPorts f generalizing s with
  | nil => rfl
  | cons port ports ih => rw [List.foldl_cons, ih, unlinkPrev_kept]

omit [DecidableEq F] in
theorem removeChain_kept {rounds : Nat} {l : List F}
    (h : State.removeChain W rounds s l = some s') : s'.kept = s.kept := by
  induction rounds generalizing s l with
  | zero =>
    cases l with
    | nil => exact congrArg State.kept (Option.some.inj h).symm
    | cons f l => cases h
  | succ rounds ih =>
    cases l with
    | nil => exact congrArg State.kept (Option.some.inj h).symm
    | cons f l => exact (ih h).trans (unlinkPrevFilters_kept s f)

omit [DecidableEq I] [DecidableEq O] in
theorem stopped_kept (l : List F) (s : State F I O) :
    (l.foldl State.removeFilter s).kept =
      ((l.foldl List.erase s.filters, s.readyEventCnt), s.state) := by
  induction l generalizing s with
  | nil => rfl
  | cons f l ih => exact ih (s.removeFilter f)

omit [DecidableEq I] in
theorem reorder_perm (W : Ports F I O) (s : State F I O) :
    ∃ filters, s.reorder W = some filters ∧ filters.Perm s.filters :=
  reorderFilters_perm _ _ _

theorem prepare_perm (hstep : step W s .prepare = some s') : s'.filters.Perm s.filters := by
  obtain ⟨filters, hreorder, hperm⟩ := reorder_perm W s
  obtain ⟨filters', hreorder', rfl⟩ := Option.map_eq_some_iff.mp hstep
  rw [hreorder] at hreorder'
  exact Option.some.inj hreorder' ▸ hperm

/-- What a call does to the filters and to the count. -/
def Effect (s : State F I O) (e : Event F I O) (s' : State F I O) : Prop :=
  match e with
  | .prepare => s'.filters.Perm s.filters ∧ s'.readyEventCnt = s.readyEventCnt
  | .stop => s'.core = (s.filters, 0)
  | .stopped => s'.core = (s.filtersToRemove.foldl List.erase s.filters, s.readyEventCnt)
  | .addFilters filtersIn _ => s'.core = (s.filters ++ s.filtersToAdd filtersIn, s.readyEventCnt)
  | .removeFilter f => s'.core = (s.filters.erase f, s.readyEventCnt)
  | .ready _ => s'.core = (s.filters, if s.forwards then 0 else s.readyEventCnt + 1)
  | _ => s'.core = s.core

theorem step_effect {e : Event F I O} (hstep : step W s e = some s') : Effect s e s' := by
  cases e with
  | init | start | stop | setPorts f inPorts outPorts => exact Option.some.inj hstep ▸ rfl
  | prepare =>
    refine ⟨prepare_perm hstep, ?_⟩
    obtain ⟨filters, -, rfl⟩ := Option.map_eq_some_iff.mp hstep
    rfl
  | pause =>
    cases hstep
    show s.pause.core = s.core
    rw [State.pause]
    split <;> rfl
  | resume success =>
    cases hstep
    show (if _ then _ else _ : State F I O).core = s.core
    split <;> rfl
  | stopped => exact Option.some.inj hstep ▸ congrArg Prod.fst (stopped_kept _ s)
  | addFilters filtersIn initPorts | removeFilter f => exact Option.some.inj hstep ▸ rfl
  | removeFilterChain firstFilter rounds =>
    cases firstFilter with
    | none => exact Option.some.inj hstep ▸ rfl
    | some f => exact congrArg Prod.fst (removeChain_kept hstep)
  | linkFilters l => exact Option.some.inj hstep ▸ congrArg Prod.fst (linkFilters_kept l s)
  | linkPorts port1 port2 =>
    exact Option.some.inj hstep ▸ congrArg Prod.fst (linkPorts_kept port1 port2)
  | ready f =>
    cases hstep
    show s.onReady.core = _
    rw [State.onReady]
    split <;> rfl

/-- The state only becomes `READY` with the event that is forwarded. -/
theorem step_ready {e : Event F I O} (hstep : step W s e = some s') (hready : s'.state = .ready) :
    s.state = .ready ∨ ∃ f, e = .ready f ∧ s.forwards := by
  have hkept : s'.kept.2 = s.kept.2 → s.state = .ready := fun heq => heq.symm.trans hready
  cases e with
  | init | start | stop =>
    cases hstep
    cases hready
  | prepare =>
    obtain ⟨filters, -, rfl⟩ := Option.map_eq_some_iff.mp hstep
    cases hready
  | pause =>
    cases hstep
    rw [State.pause] at hready
    split at hready
    · cases hready
    · exact .inl hready
  | resume success =>
    cases hstep
    cases success with
    | true => cases hready
    | false => exact .inl hready
  | stopped =>
    cases hstep
    exact .inl ((congrArg Prod.snd (stopped_kept _ s)).symm.trans hready)
  | addFilters filtersIn initPorts | removeFilter f | setPorts f inPorts outPorts =>
    cases hstep
    exact .inl hready
  | removeFilterChain firstFilter rounds =>
    cases firstFilter with
    | none => exact .inl (hkept (Option.some.inj hstep ▸ rfl))
    | some f => exact .inl (hkept (congrArg Prod.snd (removeChain_kept hstep)))
  | linkFilters l =>
    exact .inl (hkept (Option.some.inj hstep ▸ congrArg Prod.snd (linkFilters_kept l s)))
  | linkPorts port1 port2 =>
    exact .inl (hkept (Option.some.inj hstep ▸ congrArg Prod.snd (linkPorts_kept port1 port2)))
  | ready f =>
    cases hstep
    by_cases hforwards : s.forwards
    · exact .inr ⟨f, rfl, hforwards⟩
    · rw [State.onReady, if_neg hforwards] at hready
      exact .inl hready

theorem foldl_erase_sublist (l filters : List F) : (l.foldl List.erase filters).Sublist filters := by
  induction l generalizing filters with
  | nil => exact .refl _
  | cons f l ih => exact (ih (filters.erase f)).trans List.erase_sublist

omit [DecidableEq I] [DecidableEq O] in
theorem nodup_filtersToAdd {filtersIn : List F} (hs : s.filters.Nodup)
    (hadd : (s.filtersToAdd filtersIn).Nodup) :
    (s.filters ++ s.filtersToAdd filtersIn).Nodup := by
  refine List.nodup_append.mpr ⟨hs, hadd, fun f hf g hg heq => ?_⟩
  have hout := (List.mem_filter.mp hg).2
  rw [decide_eq_true_eq, ← heq] at hout
  exact hout hf

/-- **One call** keeps the filters distinct when it adds none twice. -/
theorem nodup_step {e : Event F I O} (hs : s.filters.Nodup)
    (hadd : ∀ filtersIn initPorts, e = .addFilters filtersIn initPorts →
      (s.filtersToAdd filtersIn).Nodup)
    (hstep : step W s e = some s') : s'.filters.Nodup := by
  have heffect := step_effect hstep
  have hcore : ∀ {filters n}, s'.core = (filters, n) → filters.Nodup → s'.filters.Nodup := by
    intro filters n heq h
    obtain rfl : s'.filters = filters := congrArg Prod.fst heq
    exact h
  cases e with
  | prepare => exact heffect.1.nodup_iff.mpr hs
  | stopped => exact hcore heffect (hs.sublist (foldl_erase_sublist _ _))
  | addFilters filtersIn initPorts =>
    exact hcore heffect (nodup_filtersToAdd hs (hadd filtersIn initPorts rfl))
  | removeFilter f => exact hcore heffect (hs.erase f)
  | _ => exact hcore heffect hs

theorem nodup_orderly {e : Event F I O} (hs : s.filters.Nodup) (he : Orderly W s e)
    (hstep : step W s e = some s') : s'.filters.Nodup :=
  nodup_step hs (fun _ _ heq => by subst heq; exact he) hstep

theorem feeds_prepare (hstep : step W s .prepare = some s') :
    Feeds s'.filters (s'.getNextFilters W) = Feeds s.filters (s.getNextFilters W) := by
  have hperm := prepare_perm hstep
  obtain ⟨filters, -, rfl⟩ := Option.map_eq_some_iff.mp hstep
  funext f g
  exact propext (and_congr hperm.mem_iff (and_congr_left' hperm.mem_iff))

/-- `Prepare` of an acyclic pipeline whose ports agree leaves the order of the data flow. -/
theorem ordered_prepare (hs : s.filters.Nodup) (he : Orderly W s .prepare)
    (hstep : step W s .prepare = some s')
    (hacyclic : Acyclic s'.filters (s'.getNextFilters W)) :
    Ordered s'.filters (s'.getNextFilters W) := by
  rw [Acyclic, feeds_prepare hstep] at hacyclic
  obtain ⟨filters, hreorder, rfl⟩ := Option.map_eq_some_iff.mp hstep
  exact reorderFilters_order hs (he hacyclic) hacyclic hreorder

theorem idxOf_reverse_lt {l : List F} (hnodup : l.Nodup) {f g : F} (hg : g ∈ l)
    (hlt : l.idxOf f < l.idxOf g) : l.reverse.idxOf g < l.reverse.idxOf f := by
  obtain ⟨before, after, rfl⟩ := List.append_of_mem hg
  have hbefore : g ∉ before := fun habs =>
    List.disjoint_of_nodup_append hnodup habs List.mem_cons_self
  have hafter : g ∉ after := (List.nodup_cons.mp (List.Nodup.of_append_right hnodup)).1
  have hf : f ∈ before := by
    by_contra hout
    rw [List.idxOf_append_of_notMem hout, List.idxOf_append_of_notMem hbefore,
      List.idxOf_cons_self] at hlt
    omega
  have hfg : g ≠ f := fun heq => hbefore (heq ▸ hf)
  have hout : f ∉ after.reverse := fun habs =>
    List.disjoint_of_nodup_append hnodup hf (List.mem_cons_of_mem _ (List.mem_reverse.mp habs))
  rw [List.reverse_append, List.reverse_cons, List.append_assoc, List.singleton_append,
    List.idxOf_append_of_notMem (fun habs => hafter (List.mem_reverse.mp habs)),
    List.idxOf_append_of_notMem hout, List.idxOf_cons_self, List.idxOf_cons_ne _ hfg]
  omega

omit [DecidableEq I] [DecidableEq O] in
theorem visits_of_ordered (hs : s.filters.Nodup)
    (h : Ordered s.filters (s.getNextFilters W)) {f g : F}
    (hfeeds : Feeds s.filters (s.getNextFilters W) f g) :
    (visits s).idxOf g < (visits s).idxOf f :=
  idxOf_reverse_lt hs hfeeds.2.1 (h f g hfeeds)

/-- **The order of the filters.** In every run `ReorderFilters` ends and permutes the
filters. As long as every step is orderly no filter is there twice, and a `Prepare`
of an acyclic pipeline leaves every filter before all it feeds, so that the calls of
the filters reach consumers first. -/
theorem ordered_filters {s₀ : State F I O} (hinit : s₀.filters = []) {events : List (Event F I O)}
    (hrun : Runs.run (step W) s₀ events = some s) :
    (∃ filters, s.reorder W = some filters ∧ filters.Perm s.filters) ∧
      (Runs.Along (step W) (Orderly W) s₀ events →
        s.filters.Nodup ∧
          ∀ s', Orderly W s .prepare → step W s .prepare = some s' →
            Acyclic s'.filters (s'.getNextFilters W) →
              Ordered s'.filters (s'.getNextFilters W) ∧
                ∀ f g, Feeds s'.filters (s'.getNextFilters W) f g →
                  (visits s').idxOf g < (visits s').idxOf f) := by
  refine ⟨reorder_perm W s, fun halong => ?_⟩
  have hnodup : s.filters.Nodup :=
    Runs.run_invariant (I := fun s => s.filters.Nodup)
      (fun _ _ _ hs he hstep => nodup_orderly hs he hstep)
      (by rw [hinit]; exact List.nodup_nil) halong hrun
  refine ⟨hnodup, fun s' he hstep hacyclic => ?_⟩
  have hordered := ordered_prepare hnodup he hstep hacyclic
  exact ⟨hordered, fun f g hfeeds =>
    visits_of_ordered (nodup_orderly hnodup he hstep) hordered hfeeds⟩

-- Runs

/-- Filters with one default in port and out port each, and one more in port, named by
numbers: the ports of filter `n` are `2 n` and `2 n + 1`, and zero is the empty port. -/
def numbered : Ports ℕ ℕ ℕ where
  inName := fun port => if port % 2 = 0 then portNameDefault else "second"
  inOwner := fun port => if port = 0 then none else some (port / 2)
  emptyIn := 0
  emptyIn_owner := rfl
  outName := fun _ => portNameDefault
  outOwner := fun port => if port = 0 then none else some (port / 2)
  emptyOut := 0
  emptyOut_owner := rfl

def unlinked : State ℕ ℕ ℕ where
  ownerPipeline := fun _ => none
  inPorts := fun _ => []
  outPorts := fun _ => []
  prevPort := fun _ => none
  nextPort := fun _ => none

def twoPorts (f : ℕ) : List ℕ × List ℕ := ([2 * f, 2 * f + 1], [2 * f])

/-- A sink is added before its source. -/
def linkedRun : List (Event ℕ ℕ ℕ) := [.addFilters [2, 1] twoPorts, .linkFilters [1, 2]]

/-- A filter that is linked to the sink too is removed from the pipeline. -/
def removedRun : List (Event ℕ ℕ ℕ) :=
  [.addFilters [2, 1, 3] twoPorts, .linkFilters [1, 2], .linkPorts 6 5, .removeFilter 3]

theorem acyclic_of_lt {filters : List ℕ} {next : ℕ → List ℕ}
    (h : ∀ f ∈ filters, ∀ g ∈ next f, f < g) : Acyclic filters next := by
  intro f hf
  have hlt : Relation.TransGen (fun a b : ℕ => a < b) f f :=
    hf.lift id fun a b hab => h a hab.1 b hab.2.2
  rw [Relation.transGen_eq_self] at hlt
  exact lt_irrefl f hlt

theorem ordered_filters_linkedRun :
    ∃ s s', Runs.run (step numbered) unlinked linkedRun = some s ∧ s.filters = [2, 1] ∧
      step numbered s .prepare = some s' ∧ s'.filters = [1, 2] ∧ s.filters.Nodup ∧
      Ordered s'.filters (s'.getNextFilters numbered) := by
  obtain ⟨s, hrun, hfilters, hnext, hpre⟩ :
      ∃ s, Runs.run (step numbered) unlinked linkedRun = some s ∧ s.filters = [2, 1] ∧
        (s.getNextFilters numbered 1 = [2] ∧ s.getNextFilters numbered 2 = []) ∧
        s.getPreFilters numbered 1 = [] ∧ s.getPreFilters numbered 2 = [1] :=
    ⟨_, rfl, by decide, ⟨by decide, by decide⟩, by decide, by decide⟩
  have halong : Runs.Along (step numbered) (Orderly numbered) unlinked linkedRun :=
    .cons (show [2, 1].Nodup by decide) rfl <| .cons trivial rfl trivial
  have hagrees : Agrees s.filters (s.getPreFilters numbered) (s.getNextFilters numbered) := by
    refine ⟨?_, ?_⟩ <;> simp [hfilters, hnext, hpre]
  have hacyclic : Acyclic s.filters (s.getNextFilters numbered) :=
    acyclic_of_lt (by simp [hfilters, hnext])
  obtain ⟨filters, hreorder, -⟩ := (ordered_filters rfl hrun).1
  have hreordered : filters = [1, 2] := by
    rw [State.reorder, hfilters] at hreorder
    simp [reorderFilters, constructGraph, mapInfo, hnext, hpre, reorderLoop, releaseEdge,
      List.modify] at hreorder
    exact hreorder.symm
  have hstep : step numbered s .prepare = some { s with state := .preparing, filters } := by
    rw [step, hreorder]
    rfl
  obtain ⟨hnodup, hordered⟩ := (ordered_filters rfl hrun).2 halong
  refine ⟨s, _, hrun, hfilters, hstep, hreordered, hnodup, (hordered _ (fun _ => hagrees) hstep ?_).1⟩
  rw [Acyclic, feeds_prepare hstep]
  exact hacyclic

/-- A filter that one `AddFilters` names twice is there twice; and a link from
outside of the pipeline makes `Prepare` leave a sink before its source. -/
theorem unordered_filters :
    (Runs.run (step numbered) unlinked [.addFilters [1, 1] twoPorts]).map State.filters =
      some [1, 1] ∧
    ∃ s, Runs.run (step numbered) unlinked (removedRun ++ [.prepare]) = some s ∧
      s.filters = [2, 1] ∧ Acyclic s.filters (s.getNextFilters numbered) ∧
      Feeds s.filters (s.getNextFilters numbered) 1 2 ∧
      ¬ Ordered s.filters (s.getNextFilters numbered) := by
  refine ⟨by decide, ?_⟩
  obtain ⟨s, hrun, hfilters, hnext⟩ :
      ∃ s, Runs.run (step numbered) unlinked (removedRun ++ [.prepare]) = some s ∧
        s.filters = [2, 1] ∧
        s.getNextFilters numbered 1 = [2] ∧ s.getNextFilters numbered 2 = [] :=
    ⟨_, rfl, by decide, by decide, by decide⟩
  have hfeeds : Feeds s.filters (s.getNextFilters numbered) 1 2 := by
    simp [Feeds, hfilters, hnext]
  refine ⟨s, hrun, hfilters, acyclic_of_lt (by simp [hfilters, hnext]), hfeeds, fun hordered => ?_⟩
  have hlt := hordered 1 2 hfeeds
  rw [hfilters] at hlt
  exact absurd hlt (by decide)

end MediaFoundation.PipelineCore
