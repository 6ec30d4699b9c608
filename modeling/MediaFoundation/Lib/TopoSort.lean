import Mathlib

/-!
# Topological sorting by in-degrees

The nodes are the numbers below `n`, with the edges `nexts` and a count of
incoming edges for each of them. A node whose count is zero goes on a stack;
taking a node from the stack releases its edges. Nothing is assumed about the
counts at first: they may disagree with the edges.
-/

namespace TopoSort

/-- Takes one edge to each of the nodes away, and puts a node on the stack when
it was the last edge to it. -/
def release (deg : ℕ → ℤ) (stack : List ℕ) : List ℕ → (ℕ → ℤ) × List ℕ
  | [] => (deg, stack)
  | v :: vs =>
    let deg := Function.update deg v (deg v - 1)
    release deg (if deg v = 0 then v :: stack else stack) vs

def sort (nexts : ℕ → List ℕ) : ℕ → (ℕ → ℤ) → List ℕ → List ℕ → Option (List ℕ)
  | 0, _, _, _ => none
  | _ + 1, _, [], done => some done
  | fuel + 1, deg, u :: stack, done =>
    let x := release deg stack (nexts u)
    sort nexts fuel x.1 x.2 (done ++ [u])

-- What one round keeps

/-- The nodes on the stack or taken are those without an edge left. -/
structure Covers (n : ℕ) (deg : ℕ → ℤ) (stack done : List ℕ) : Prop where
  nodup : (stack ++ done).Nodup
  mem : ∀ v < n, v ∈ stack ++ done ↔ deg v ≤ 0
  lt : ∀ v ∈ stack ++ done, v < n

variable {n : ℕ} {nexts : ℕ → List ℕ} {deg : ℕ → ℤ} {stack done : List ℕ}

theorem release_deg (vs : List ℕ) (v : ℕ) :
    (release deg stack vs).1 v = deg v - vs.count v := by
  induction vs generalizing deg stack with
  | nil => simp [release]
  | cons w vs ih =>
    rw [release, ih, List.count_cons]
    by_cases hw : v = w
    · subst hw
      simp only [Function.update_self, beq_self_eq_true, if_true, Nat.cast_add, Nat.cast_one]
      ring
    · have hw' : (w == v) = false := by simpa using fun heq => hw heq.symm
      simp only [Function.update_of_ne hw, hw', Bool.false_eq_true, if_false, Nat.add_zero]

/-- Taking one edge to `v` away. -/
theorem Covers.releaseOne (h : Covers n deg stack done) {v : ℕ} (hv : v < n) :
    Covers n (Function.update deg v (deg v - 1))
      (if Function.update deg v (deg v - 1) v = 0 then v :: stack else stack) done := by
  have hmem := h.mem v hv
  rw [Function.update_self]
  split
  next hzero =>
    -- the last edge: the node was neither on the stack nor taken
    have hnew : v ∉ stack ++ done := by
      rw [hmem]
      omega
    refine ⟨List.nodup_cons.mpr ⟨hnew, h.nodup⟩, fun w hw => ?_, fun w hw => ?_⟩
    · rw [List.cons_append, List.mem_cons]
      by_cases heq : w = v
      · subst heq
        simp only [true_or, Function.update_self, true_iff]
        omega
      · rw [Function.update_of_ne heq, h.mem w hw, or_iff_right heq]
    · rcases List.mem_cons.mp hw with rfl | hold
      · exact hv
      · exact h.lt w hold
  next hne =>
    refine ⟨h.nodup, fun w hw => ?_, h.lt⟩
    by_cases heq : w = v
    · subst heq
      rw [Function.update_self, hmem]
      omega
    · rw [Function.update_of_ne heq, h.mem w hw]

theorem Covers.release (h : Covers n deg stack done) {vs : List ℕ} (hvs : ∀ v ∈ vs, v < n) :
    Covers n (release deg stack vs).1 (release deg stack vs).2 done := by
  induction vs generalizing deg stack with
  | nil => exact h
  | cons v vs ih =>
    exact ih (h.releaseOne (hvs v List.mem_cons_self))
      fun w hw => hvs w (List.mem_cons_of_mem _ hw)

theorem Covers.take {u : ℕ} (h : Covers n deg (u :: stack) done) :
    Covers n deg stack (done ++ [u]) := by
  have hperm : (stack ++ (done ++ [u])).Perm (u :: stack ++ done) := by
    rw [← List.append_assoc]
    exact List.perm_append_comm
  exact ⟨hperm.nodup_iff.mpr h.nodup, fun v hv => (hperm.mem_iff).trans (h.mem v hv),
    fun v hv => h.lt v (hperm.mem_iff.mp hv)⟩

theorem Covers.length_le (h : Covers n deg stack done) : (stack ++ done).length ≤ n := by
  have hsub : stack ++ done ⊆ List.range n := fun v hv => List.mem_range.mpr (h.lt v hv)
  simpa using (List.subperm_of_subset h.nodup hsub).length_le

-- The loop

/-- The loop takes nodes, each one once and when the nodes taken before have all
the edges that its count counts; it leaves no node that it could take. -/
theorem sort_spec (hnexts : ∀ u < n, ∀ v ∈ nexts u, v < n) (h : Covers n deg stack done)
    {fuel : ℕ} (hfuel : n < fuel + done.length) :
    ∃ taken, sort nexts fuel deg stack done = some (done ++ taken) ∧
      Covers n (fun v => deg v - (taken.map fun u => (nexts u).count v).sum) []
        (done ++ taken) ∧
      ∀ pre v post, taken = pre ++ v :: post →
        deg v ≤ (pre.map fun u => (nexts u).count v).sum := by
  induction fuel generalizing deg stack done with
  | zero =>
    have hlen := h.length_le
    rw [List.length_append] at hlen
    omega
  | succ fuel ih =>
    cases stack with
    | nil =>
      refine ⟨[], by rw [sort, List.append_nil], ?_, fun pre v post habs => ?_⟩
      · simpa using h
      · exact absurd habs.symm (List.append_ne_nil_of_right_ne_nil pre (List.cons_ne_nil v post))
    | cons u stack =>
      have hu : u < n := h.lt u List.mem_cons_self
      obtain ⟨taken, hsort, hcovers, hready⟩ := ih (h.take.release (hnexts u hu)) (by
        rw [List.length_append, List.length_singleton]
        omega)
      refine ⟨u :: taken, ?_, ?_, fun pre v post hsplit => ?_⟩
      · rw [sort, hsort, List.append_assoc]
        rfl
      · rw [List.append_assoc] at hcovers
        have hdeg : (fun v => (TopoSort.release deg stack (nexts u)).1 v -
            ((taken.map fun w => (nexts w).count v).sum : ℕ)) =
            fun v => deg v - (((u :: taken).map fun w => (nexts w).count v).sum : ℕ) := by
          funext v
          rw [release_deg, List.map_cons, List.sum_cons]
          push_cast
          ring
        rw [hdeg] at hcovers
        exact hcovers
      · cases pre with
        | nil =>
          obtain ⟨rfl, -⟩ := List.cons.inj hsplit
          exact (h.mem u hu).mp List.mem_cons_self
        | cons w pre =>
          rw [List.cons_append] at hsplit
          obtain ⟨rfl, hrest⟩ := List.cons.inj hsplit
          have hle := hready pre v post hrest
          rw [release_deg] at hle
          rw [List.map_cons, List.sum_cons, Nat.cast_add]
          omega

-- Counts that agree with the edges

/-- Every count is the number of edges to the node. -/
def Exact (n : ℕ) (nexts : ℕ → List ℕ) (deg : ℕ → ℤ) : Prop :=
  ∀ v < n, deg v = ((List.range n).map fun u => (nexts u).count v).sum

/-- Distinct nodes, and those that are missing. -/
theorem exists_rest {taken : List ℕ} (hnodup : taken.Nodup) (hlt : ∀ u ∈ taken, u < n) :
    ∃ rest, (List.range n).Perm (taken ++ rest) := by
  obtain ⟨l, hl, hsub⟩ : taken.Subperm (List.range n) :=
    List.subperm_of_subset hnodup fun w hw => List.mem_range.mpr (hlt w hw)
  obtain ⟨rest, hperm⟩ := hsub.exists_perm_append
  exact ⟨rest, hperm.trans (hl.append_right rest)⟩

/-- A node whose edges all come from some nodes has no edge from another one. -/
theorem Exact.mem_of_edge (h : Exact n nexts deg) {taken : List ℕ} (hnodup : taken.Nodup)
    (hlt : ∀ u ∈ taken, u < n) {v : ℕ} (hv : v < n)
    (hle : deg v ≤ (taken.map fun u => (nexts u).count v).sum) {u : ℕ} (hu : u < n)
    (hedge : v ∈ nexts u) : u ∈ taken := by
  by_contra hout
  obtain ⟨rest, hperm⟩ :=
    exists_rest (List.nodup_cons.mpr ⟨hout, hnodup⟩) (List.forall_mem_cons.mpr ⟨hu, hlt⟩)
  have hsum := (hperm.map fun w => (nexts w).count v).sum_eq
  rw [List.cons_append, List.map_cons, List.sum_cons, List.map_append, List.sum_append] at hsum
  have hpos : 0 < (nexts u).count v := List.count_pos_iff.mpr hedge
  rw [h v hv] at hle
  omega

theorem sum_le_of_edges {taken : List ℕ} (hnodup : taken.Nodup) (hlt : ∀ u ∈ taken, u < n)
    {v : ℕ} (hall : ∀ u < n, v ∈ nexts u → u ∈ taken) :
    ((List.range n).map fun u => (nexts u).count v).sum ≤
      (taken.map fun u => (nexts u).count v).sum := by
  obtain ⟨rest, hperm⟩ := exists_rest hnodup hlt
  have hdisjoint := List.disjoint_of_nodup_append (hperm.nodup_iff.mp List.nodup_range)
  have hrest : (rest.map fun u => (nexts u).count v).sum = 0 := by
    refine List.sum_eq_zero fun c hc => ?_
    obtain ⟨u, hu, rfl⟩ := List.mem_map.mp hc
    have hlt : u < n := List.mem_range.mp (hperm.mem_iff.mpr (List.mem_append_right _ hu))
    exact List.count_eq_zero.mpr fun hedge => hdisjoint (hall u hlt hedge) hu
  rw [(hperm.map fun u => (nexts u).count v).sum_eq, List.map_append, List.sum_append, hrest,
    Nat.add_zero]

/-- Every node is taken, each one after all that have an edge to it. -/
theorem sort_complete (hnexts : ∀ u < n, ∀ v ∈ nexts u, v < n) (hexact : Exact n nexts deg)
    (hcovers : Covers n deg stack []) (hwf : WellFounded fun u v => u < n ∧ v ∈ nexts u)
    {fuel : ℕ} (hfuel : n < fuel) :
    ∃ taken, sort nexts fuel deg stack [] = some taken ∧ taken.Perm (List.range n) ∧
      ∀ pre v post, taken = pre ++ v :: post → ∀ u < n, v ∈ nexts u → u ∈ pre := by
  obtain ⟨taken, hsort, hleft, hready⟩ := sort_spec hnexts hcovers hfuel
  rw [List.nil_append] at hsort hleft
  have hnodup : taken.Nodup := hleft.nodup
  have hlt : ∀ u ∈ taken, u < n := hleft.lt
  refine ⟨taken, hsort, ?_, fun pre v post hsplit u hu hedge => ?_⟩
  · have hall : ∀ v, v < n → v ∈ taken := by
      intro v
      induction v using hwf.induction with
      | h v ih =>
        intro hv
        have hmem := hleft.mem v hv
        rw [List.nil_append] at hmem
        rw [hmem, hexact v hv]
        -- the edges to `v` all come from nodes that were taken
        have hsum := sum_le_of_edges hnodup hlt fun u hu hedge => ih u ⟨hu, hedge⟩ hu
        omega
    exact (List.perm_ext_iff_of_nodup hnodup List.nodup_range).mpr fun v =>
      ⟨fun hv => List.mem_range.mpr (hlt v hv), fun hv => hall v (List.mem_range.mp hv)⟩
  · rw [hsplit] at hnodup hlt
    refine hexact.mem_of_edge (List.Nodup.of_append_left hnodup)
      (fun w hw => hlt w (List.mem_append_left _ hw)) (hlt v (by simp)) (hready pre v post hsplit)
      hu hedge

end TopoSort
