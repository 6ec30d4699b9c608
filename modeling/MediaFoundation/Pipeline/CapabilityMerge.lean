import MediaFoundation.Lib.Narrow
import MediaFoundation.Pipeline.CompatibleCheck

/-!
# Merging capability values is intersection

A capability value denotes a set of values, and a check is right when it gives
their intersection. It compares by differences narrowed to `int`, so it orders
values on a circle of `2 ^ 32` numbers, and it takes the bounds of an interval
that meets a list as they come.

`Compares` says of two values that neither matters for them: the exact condition
(`merges_iff`), but for two intervals of which one has its own bounds put in the
wrong order.
-/

namespace MediaFoundation.Capability

open Narrow

variable {T : Type}

-- What a value denotes

/-- The values between two bounds, in either order. -/
def between (number : T → Int) (first second : T) : Set T :=
  {x | min (number first) (number second) ≤ number x ∧
    number x ≤ max (number first) (number second)}

def ValueType.denotes (number : T → Int) : ValueType T → Set T
  | .fixed value => {value}
  | .interval first second => between number first second
  | .discrete values => {x | x ∈ values}
  | .other => ∅

def ValueType.Allowed (flags : UInt8) : ValueType T → Prop
  | .fixed _ => isFixedAllowed flags
  | .interval _ _ => isIntervalAllowed flags
  | .discrete _ => isDiscreteAllowed flags
  | .other => False

def Gives (number : T → Int) (S : Set T) : Option (ValueType T) → Prop
  | some out => S.Nonempty ∧ out.denotes number = S
  | none => S = ∅

/-- **The two values are merged into their intersection**, in either order. -/
def Merges (number : T → Int) (cmpFunc : T → T → Int32) (flags : UInt8) (v1 v2 : ValueType T) :
    Prop :=
  ((capabilityValueCheck cmpFunc flags v1 v2).isSome ↔
      (v1.denotes number ∩ v2.denotes number).Nonempty) ∧
    (∀ out ∈ capabilityValueCheck cmpFunc flags v1 v2,
      out.denotes number = v1.denotes number ∩ v2.denotes number) ∧
    ((capabilityValueCheck cmpFunc flags v1 v2).isSome =
      (capabilityValueCheck cmpFunc flags v2 v1).isSome) ∧
    ∀ out ∈ capabilityValueCheck cmpFunc flags v1 v2,
      ∀ out' ∈ capabilityValueCheck cmpFunc flags v2 v1, out.denotes number = out'.denotes number

theorem gives_iff {number : T → Int} {S : Set T} {r : Option (ValueType T)} :
    Gives number S r ↔ (r.isSome ↔ S.Nonempty) ∧ ∀ out ∈ r, out.denotes number = S := by
  cases r with
  | none =>
    show S = ∅ ↔ _
    rw [← Set.not_nonempty_iff_eq_empty]
    simp
  | some out =>
    show S.Nonempty ∧ out.denotes number = S ↔ _
    simp

/-- Both orders give the intersection, or else they differ or both are wrong. -/
theorem merges_iff_gives {number : T → Int} {cmpFunc : T → T → Int32} {flags : UInt8}
    {v1 v2 : ValueType T} :
    Merges number cmpFunc flags v1 v2 ↔
      Gives number (v1.denotes number ∩ v2.denotes number) (capabilityValueCheck cmpFunc flags v1 v2) ∧
      Gives number (v1.denotes number ∩ v2.denotes number)
        (capabilityValueCheck cmpFunc flags v2 v1) := by
  unfold Merges
  rw [gives_iff, gives_iff]
  constructor
  · rintro ⟨hsome, hset, hsame, hswap⟩
    refine ⟨⟨hsome, hset⟩, hsame ▸ hsome, fun out' hout' => ?_⟩
    -- the other order has a value too, and it denotes the same
    have hout : (capabilityValueCheck cmpFunc flags v1 v2).isSome := by
      rw [hsame]
      exact Option.isSome_of_mem hout'
    obtain ⟨out, hout⟩ := Option.isSome_iff_exists.mp hout
    rw [← hswap out hout out' hout', hset out hout]
  · rintro ⟨⟨hsome, hset⟩, hsome', hset'⟩
    refine ⟨hsome, hset, Bool.eq_iff_iff.mpr (hsome.trans hsome'.symm), ?_⟩
    intro out hout out' hout'
    rw [hset out hout, hset' out' hout']

-- Results of a check

section Results

variable {number : T → Int}

theorem gives_fixed {value : T} {S : Set T} {test : Prop} [Decidable test] :
    Gives number ({value} ∩ S) (if test then some (.fixed value) else none) ↔
      (test ↔ value ∈ S) := by
  split
  · rename_i htest
    show ({value} ∩ S).Nonempty ∧ {value} = {value} ∩ S ↔ _
    rw [Set.singleton_inter_nonempty, eq_comm, Set.inter_eq_left, Set.singleton_subset_iff, and_self]
    exact (iff_true_left htest).symm
  · rename_i htest
    show {value} ∩ S = ∅ ↔ _
    rw [Set.singleton_inter_eq_empty]
    exact (iff_false_left htest).symm

theorem gives_fromCollected {values : List T} {S : Set T} :
    Gives number S (fromCollected values) ↔ ∀ x, x ∈ values ↔ x ∈ S := by
  have hset : (∀ x, x ∈ values ↔ x ∈ S) ↔ {x | x ∈ values} = S := by
    rw [Set.ext_iff]
    rfl
  rw [hset]
  match values with
  | [] =>
    show S = ∅ ↔ {x | x ∈ []} = S
    simp [eq_comm]
  | [value] =>
    show S.Nonempty ∧ {value} = S ↔ {x | x ∈ [value]} = S
    simp only [List.mem_singleton, Set.ofPred_eq_eq_singleton, and_iff_right_iff_imp]
    rintro rfl
    exact Set.singleton_nonempty value
  | first :: second :: rest =>
    show S.Nonempty ∧ {x | x ∈ first :: second :: rest} = S ↔ {x | x ∈ first :: second :: rest} = S
    simp only [and_iff_right_iff_imp]
    rintro rfl
    exact ⟨first, List.mem_cons_self⟩

theorem gives_filter {values : List T} {S : Set T} {test : T → Bool} :
    Gives number (S ∩ {x | x ∈ values}) (fromCollected (values.filter test)) ↔
      ∀ x ∈ values, test x = true ↔ x ∈ S := by
  rw [gives_fromCollected]
  simp only [List.mem_filter, Set.mem_inter_iff, Set.mem_ofPred_eq]
  constructor
  · intro h x hx
    simpa [hx] using h x
  · intro h x
    constructor
    · rintro ⟨hx, htest⟩
      exact ⟨(h x hx).mp htest, hx⟩
    · rintro ⟨hS, hx⟩
      exact ⟨hx, (h x hx).mpr hS⟩

end Results

-- The condition

section Condition

variable (number : T → Int) (cmpFunc : T → T → Int32)

def lower (first second : T) : Int := min (number first) (number second)

def upper (first second : T) : Int := max (number first) (number second)

def InOrder (first second : T) : Prop :=
  MinRight (number first) (number second) ∧ MaxRight (number first) (number second)

/-- Of two intervals each has its own bounds put in the right order. -/
def Fit : ValueType T → ValueType T → Prop
  | .interval first1 second1, .interval first2 second2 =>
    InOrder number first1 second1 ∧ InOrder number first2 second2
  | _, _ => True

/-- The check takes two intervals for disjoint. -/
def TakenApart (lo1 hi1 lo2 hi2 : Int) : Prop :=
  0 ≤ narrow (lo1 - lo2) ∧ 0 < narrow (hi1 - hi2) ∧ 0 < narrow (lo1 - hi2) ∨
    narrow (lo1 - lo2) < 0 ∧ narrow (hi1 - hi2) ≤ 0 ∧ 0 < narrow (lo2 - hi1)

/-- The greater lower bound is found, and the smaller upper one unless a single
value is left; and these two are in order. Or nothing is found where nothing is. -/
def Placed (lo1 hi1 lo2 hi2 : Int) : Prop :=
  if max lo1 lo2 ≤ min hi1 hi2 then
    MaxRight lo1 lo2 ∧
      (MinRight hi1 hi2 ∧ narrow (max lo1 lo2 - min hi1 hi2) < 0 ∨
        max lo1 lo2 = min hi1 hi2 ∧ (MinRight hi1 hi2 ∨ narrow (hi1 - hi2) = 0))
  else TakenApart lo1 hi1 lo2 hi2

/-- The comparisons of the check are right for these two values. -/
def Compares : ValueType T → ValueType T → Prop
  | .fixed v1, .fixed v2 => cmpFunc v1 v2 = 0 → v1 = v2
  | .fixed v, .discrete values | .discrete values, .fixed v =>
    v ∈ values ∨ ∀ x ∈ values, cmpFunc x v ≠ 0
  | .discrete values1, .discrete values2 =>
    ∀ x ∈ values1, ∀ y ∈ values2, cmpFunc x y = 0 → x ∈ values2 ∧ y ∈ values1
  | .fixed v, .interval first second | .interval first second, .fixed v =>
    v ∈ between number first second ↔ OnShort (number first) (number second) (number v)
  | .discrete values, .interval first second | .interval first second, .discrete values =>
    ∀ x ∈ values, x ∈ between number first second ↔
      OnArc (number first) (number second) (number x)
  | .interval first1 second1, .interval first2 second2 =>
    Placed (lower number first1 second1) (upper number first1 second1)
        (lower number first2 second2) (upper number first2 second2) ∧
      Placed (lower number first2 second2) (upper number first2 second2)
        (lower number first1 second1) (upper number first1 second1)
  | .other, _ | _, .other => False

end Condition

-- The nine checks

section Kinds

variable {number : T → Int} {cmpFunc : T → T → Int32} (h : Narrowed number cmpFunc)

theorem mem_between {first second x : T} :
    x ∈ between number first second ↔
      lower number first second ≤ number x ∧ number x ≤ upper number first second := Iff.rfl

section Span

variable {low high x y : T}

theorem span_eq_empty : {z | number low ≤ number z ∧ number z ≤ number high} = ∅ ↔
    number high < number low := by
  rw [Set.eq_empty_iff_forall_notMem]
  constructor
  · intro hempty
    by_contra hle
    exact hempty low ⟨le_rfl, by omega⟩
  · rintro hlt z ⟨hlow, hhigh⟩
    omega

theorem between_eq_span :
    between number x y = {z | number low ≤ number z ∧ number z ≤ number high} ↔
      min (number x) (number y) = number low ∧ max (number x) (number y) = number high := by
  constructor
  · intro heq
    have hmem (z : T) : z ∈ between number x y ↔ number low ≤ number z ∧ number z ≤ number high :=
      heq ▸ Iff.rfl
    simp only [mem_between, lower, upper] at hmem
    have hx := hmem x
    have hy := hmem y
    have hlow := hmem low
    have hhigh := hmem high
    omega
  · rintro ⟨hmin, hmax⟩
    rw [← hmin, ← hmax]
    rfl

end Span

include h

theorem number_minOf_eq (x y : T) : number (minOf cmpFunc x y) =
    earlier (number x) (number y) := by
  unfold minOf earlier
  simp only [h.cmp_nonpos]
  split <;> rfl

theorem number_maxOf_eq (x y : T) : number (maxOf cmpFunc x y) =
    later (number x) (number y) := by
  unfold maxOf later
  simp only [h.cmp_nonneg]
  split <;> rfl

theorem number_minOf {first second : T} (hfit : InOrder number first second) :
    number (minOf cmpFunc first second) = lower number first second := by
  rw [number_minOf_eq h]
  exact earlier_eq_min.mpr hfit.1

theorem number_maxOf {first second : T} (hfit : InOrder number first second) :
    number (maxOf cmpFunc first second) = upper number first second := by
  rw [number_maxOf_eq h]
  exact later_eq_max.mpr hfit.2

theorem gives_ff (v1 v2 : T) :
    Gives number ({v1} ∩ {v2}) (ffCapabilityCheck cmpFunc v1 v2) ↔ (cmpFunc v1 v2 = 0 → v1 = v2) := by
  unfold ffCapabilityCheck
  rw [gives_fixed, Set.mem_singleton_iff]
  constructor
  · exact Iff.mp
  · intro hcmp
    refine ⟨hcmp, ?_⟩
    rintro rfl
    exact h.cmp_self v1

theorem gives_fd {v : T} {values : List T} :
    Gives number ({v} ∩ {x | x ∈ values}) (fdCapabilityCheck cmpFunc v values) ↔
      v ∈ values ∨ ∀ x ∈ values, cmpFunc x v ≠ 0 := by
  unfold fdCapabilityCheck
  rw [gives_fixed, Set.mem_ofPred_eq, List.any_eq_true]
  simp only [decide_eq_true_eq]
  constructor
  · intro htest
    by_cases hv : v ∈ values
    · exact .inl hv
    · exact .inr fun x hx hcmp => hv (htest.mp ⟨x, hx, hcmp⟩)
  · rintro (hv | hnone)
    · exact ⟨fun _ => hv, fun _ => ⟨v, hv, h.cmp_self v⟩⟩
    · refine ⟨?_, fun hv => ⟨v, hv, h.cmp_self v⟩⟩
      rintro ⟨x, hx, hcmp⟩
      exact absurd hcmp (hnone x hx)

theorem cmp_short {v first second : T} :
    0 ≤ cmpFunc v (minOf cmpFunc first second) ∧ cmpFunc v (maxOf cmpFunc first second) ≤ 0 ↔
      OnShort (number first) (number second) (number v) := by
  rw [h.cmp_nonneg, h.cmp_nonpos, number_minOf_eq h, number_maxOf_eq h, onShort_iff]

theorem cmp_arc {first second x : T} : 0 ≤ cmpFunc x first ∧ cmpFunc x second ≤ 0 ↔
    OnArc (number first) (number second) (number x) := by
  rw [h.cmp_nonneg, h.cmp_nonpos, onArc_iff]

theorem gives_fi {v first second : T} :
    Gives number ({v} ∩ between number first second) (fiCapabilityCheck cmpFunc v (first, second)) ↔
      (v ∈ between number first second ↔ OnShort (number first) (number second) (number v)) := by
  unfold fiCapabilityCheck
  rw [gives_fixed, cmp_short h]
  exact iff_comm

theorem gives_id {first second : T} {values : List T} :
    Gives number (between number first second ∩ {x | x ∈ values})
        (idCapabilityCheck cmpFunc (first, second) values) ↔
      ∀ x ∈ values, x ∈ between number first second ↔
        OnArc (number first) (number second) (number x) := by
  unfold idCapabilityCheck
  rw [gives_filter]
  simp only [decide_eq_true_eq, cmp_arc h]
  exact forall₂_congr fun x _ => iff_comm

theorem gives_dd (values1 values2 : List T) :
    Gives number ({x | x ∈ values1} ∩ {x | x ∈ values2}) (ddCapabilityCheck cmpFunc values2 values1) ↔
      ∀ x ∈ values1, ∀ y ∈ values2, cmpFunc x y = 0 → y ∈ values1 := by
  have hsymm : ∀ x y, cmpFunc x y = 0 ↔ cmpFunc y x = 0 := by
    intro x y
    rw [h.cmp_eq_zero, h.cmp_eq_zero, narrow_eq_zero, narrow_eq_zero]
    omega
  unfold ddCapabilityCheck
  rw [gives_filter]
  simp only [List.any_eq_true, decide_eq_true_eq, Set.mem_ofPred_eq]
  constructor
  · intro htest x hx y hy hcmp
    exact (htest y hy).mp ⟨x, hx, (hsymm x y).mp hcmp⟩
  · intro hmem y hy
    constructor
    · rintro ⟨x, hx, hcmp⟩
      exact hmem x hx y hy ((hsymm y x).mp hcmp)
    · intro hy'
      exact ⟨y, hy', h.cmp_self y⟩

theorem gives_ends {tmpMin tmpMax low high : T} :
    Gives number {z | number low ≤ number z ∧ number z ≤ number high}
        (if 0 < cmpFunc tmpMin tmpMax then none
          else if cmpFunc tmpMin tmpMax = 0 then some (.fixed tmpMin)
          else some (.interval tmpMin tmpMax)) ↔
      if 0 < narrow (number tmpMin - number tmpMax) then number high < number low
      else if narrow (number tmpMin - number tmpMax) = 0 then
        number tmpMin = number low ∧ number tmpMin = number high
      else min (number tmpMin) (number tmpMax) = number low ∧
        max (number tmpMin) (number tmpMax) = number high := by
  have hsome {x y : T} {out : ValueType T} (hout : out.denotes number = between number x y) :
      Gives number {z | number low ≤ number z ∧ number z ≤ number high} (some out) ↔
        min (number x) (number y) = number low ∧ max (number x) (number y) = number high := by
    rw [← between_eq_span, ← hout]
    refine and_iff_right_of_imp fun heq => ?_
    rw [← heq, hout]
    exact ⟨x, min_le_left _ _, le_max_left _ _⟩
  simp only [h.cmp_pos, h.cmp_eq_zero]
  split
  · exact span_eq_empty
  · split
    · rw [hsome (x := tmpMin) (y := tmpMin), min_self, max_self]
      ext z
      show z = tmpMin ↔ min (number tmpMin) (number tmpMin) ≤ number z ∧ _
      rw [← h.injective.eq_iff]
      omega
    · exact hsome rfl

omit h in
theorem narrow_bounds {first second : T} (hfit : InOrder number first second) :
    narrow (lower number first second - upper number first second) ≤ 0 := by
  obtain ⟨hmin, hmax⟩ := hfit
  unfold MinRight at hmin
  unfold MaxRight at hmax
  unfold lower upper
  rcases le_total (number first) (number second) with hle | hle
  · rw [min_eq_left hle, max_eq_right hle]
    exact hmin.mp hle
  · rw [min_eq_right hle, max_eq_left hle]
    rw [narrow_nonneg] at hmax
    rw [narrow_nonpos]
    omega

omit h in
/-- An interval is never apart from itself, so that two of the four cases are left. -/
theorem takenApart_iff {lo1 hi1 lo2 hi2 : Int} (hself1 : narrow (lo1 - hi1) ≤ 0)
    (hself2 : narrow (lo2 - hi2) ≤ 0) :
    0 < narrow (later lo1 lo2 - earlier hi1 hi2) ↔ TakenApart lo1 hi1 lo2 hi2 := by
  unfold later earlier TakenApart
  split <;> split <;> omega

omit h in
/-- The greater lower bound and the smaller upper one have to be the ends. -/
theorem placed_iff {lo1 hi1 lo2 hi2 : Int} (hself1 : narrow (lo1 - hi1) ≤ 0)
    (hself2 : narrow (lo2 - hi2) ≤ 0) :
    (if 0 < narrow (later lo1 lo2 - earlier hi1 hi2) then min hi1 hi2 < max lo1 lo2
      else if narrow (later lo1 lo2 - earlier hi1 hi2) = 0 then
        later lo1 lo2 = max lo1 lo2 ∧ later lo1 lo2 = min hi1 hi2
      else min (later lo1 lo2) (earlier hi1 hi2) = max lo1 lo2 ∧
        max (later lo1 lo2) (earlier hi1 hi2) = min hi1 hi2) ↔ Placed lo1 hi1 lo2 hi2 := by
  have hlower := @later_le_max lo1 lo2
  have hupper := @min_le_earlier hi1 hi2
  -- two upper bounds that count as equal are equal to a third one
  have hequal : narrow (min hi1 hi2 - earlier hi1 hi2) = 0 ↔
      earlier hi1 hi2 = min hi1 hi2 ∨ narrow (hi1 - hi2) = 0 := by
    unfold earlier
    simp only [narrow_eq_zero]
    split <;> omega
  unfold Placed
  rw [← takenApart_iff hself1 hself2, ← later_eq_max, ← earlier_eq_min]
  generalize later lo1 lo2 = low at *
  generalize earlier hi1 hi2 = high at *
  generalize max lo1 lo2 = L at *
  generalize min hi1 hi2 = H at *
  have hzero : low = high → narrow (low - high) = 0 := by simp +contextual [narrow]
  have hbounds : low = L → high = H → narrow (L - H) = narrow (low - high) := by
    simp +contextual
  have hthird : low = H → narrow (low - high) = narrow (H - high) := by simp +contextual
  split_ifs <;> omega

section Ends

variable {first1 second1 first2 second2 : T} (hfit1 : InOrder number first1 second1)
  (hfit2 : InOrder number first2 second2)

include hfit1 hfit2

theorem number_low :
    number (maxOf cmpFunc (minOf cmpFunc first2 second2) (minOf cmpFunc first1 second1)) =
      later (lower number first2 second2) (lower number first1 second1) := by
  rw [number_maxOf_eq h, number_minOf h hfit1, number_minOf h hfit2]

theorem number_high :
    number (minOf cmpFunc (maxOf cmpFunc first2 second2) (maxOf cmpFunc first1 second1)) =
      earlier (upper number first2 second2) (upper number first1 second1) := by
  rw [number_minOf_eq h, number_maxOf h hfit1, number_maxOf h hfit2]

theorem gives_ii :
    Gives number (between number first1 second1 ∩ between number first2 second2)
        (iiCapabilityCheck cmpFunc (first2, second2) (first1, second1)) ↔
      Placed (lower number first2 second2) (upper number first2 second2)
        (lower number first1 second1) (upper number first1 second1) := by
  obtain ⟨low, hlow⟩ : ∃ low, number low =
      max (lower number first2 second2) (lower number first1 second1) := by
    rw [← number_minOf h hfit1, ← number_minOf h hfit2]
    rcases max_choice (number (minOf cmpFunc first2 second2)) (number (minOf cmpFunc first1 second1))
      with heq | heq
    · exact ⟨_, heq.symm⟩
    · exact ⟨_, heq.symm⟩
  obtain ⟨high, hhigh⟩ : ∃ high, number high =
      min (upper number first2 second2) (upper number first1 second1) := by
    rw [← number_maxOf h hfit1, ← number_maxOf h hfit2]
    rcases min_choice (number (maxOf cmpFunc first2 second2)) (number (maxOf cmpFunc first1 second1))
      with heq | heq
    · exact ⟨_, heq.symm⟩
    · exact ⟨_, heq.symm⟩
  have hset : between number first1 second1 ∩ between number first2 second2 =
      {z | number low ≤ number z ∧ number z ≤ number high} := by
    ext z
    rw [Set.mem_inter_iff, mem_between, mem_between, Set.mem_ofPred_eq]
    omega
  unfold iiCapabilityCheck
  simp only
  rw [hset, gives_ends h, number_low h hfit1 hfit2, number_high h hfit1 hfit2, hlow, hhigh]
  exact placed_iff (narrow_bounds hfit2) (narrow_bounds hfit1)

end Ends

end Kinds

-- The two switches

/-- The nine kind combinations. -/
def intersect (cmpFunc : T → T → Int32) : ValueType T → ValueType T → Option (ValueType T)
  | .fixed v1, .fixed v2 => ffCapabilityCheck cmpFunc v1 v2
  | .fixed v, .interval first second | .interval first second, .fixed v =>
    fiCapabilityCheck cmpFunc v (first, second)
  | .fixed v, .discrete values | .discrete values, .fixed v => fdCapabilityCheck cmpFunc v values
  | .interval first1 second1, .interval first2 second2 =>
    iiCapabilityCheck cmpFunc (first2, second2) (first1, second1)
  | .interval first second, .discrete values | .discrete values, .interval first second =>
    idCapabilityCheck cmpFunc (first, second) values
  | .discrete values1, .discrete values2 => ddCapabilityCheck cmpFunc values2 values1
  | .other, _ | _, .other => none

/-- The nested switches find the combination of two allowed kinds. -/
theorem capabilityValueCheck_eq (cmpFunc : T → T → Int32) {flags : UInt8} {v1 v2 : ValueType T}
    (hallowed1 : v1.Allowed flags) (hallowed2 : v2.Allowed flags) :
    capabilityValueCheck cmpFunc flags v1 v2 = intersect cmpFunc v1 v2 := by
  cases v1 with
  | fixed v =>
    refine (if_pos hallowed1).trans ?_
    cases v2 with
    | fixed _ => rfl
    | interval _ _ | discrete _ => exact if_pos hallowed2
    | other => exact hallowed2.elim
  | interval first second =>
    refine (if_pos hallowed1).trans ?_
    cases v2 with
    | fixed _ | discrete _ => exact if_pos hallowed2
    | interval _ _ => rfl
    | other => exact hallowed2.elim
  | discrete values =>
    refine (if_pos hallowed1).trans ?_
    cases v2 with
    | fixed _ | interval _ _ => exact if_pos hallowed2
    | discrete _ => rfl
    | other => exact hallowed2.elim
  | other => exact hallowed1.elim

section Merge

variable {number : T → Int} {cmpFunc : T → T → Int32} {flags : UInt8} {v1 v2 : ValueType T}

/-- **Merging is intersection exactly when the comparisons are right.** -/
theorem merges_iff_compares (h : Narrowed number cmpFunc)
    (hallowed1 : v1.Allowed flags) (hallowed2 : v2.Allowed flags) (hfit : Fit number v1 v2) :
    Merges number cmpFunc flags v1 v2 ↔ Compares number cmpFunc v1 v2 := by
  rw [merges_iff_gives, capabilityValueCheck_eq cmpFunc hallowed1 hallowed2,
    capabilityValueCheck_eq cmpFunc hallowed2 hallowed1]
  cases v1 with
  | fixed v =>
    cases v2 with
    | fixed v' =>
      show Gives number ({v} ∩ {v'}) (ffCapabilityCheck cmpFunc v v') ∧
        Gives number ({v} ∩ {v'}) (ffCapabilityCheck cmpFunc v' v) ↔ (cmpFunc v v' = 0 → v = v')
      have hswap := gives_ff h v' v
      rw [Set.inter_comm] at hswap
      rw [gives_ff h, hswap, h.cmp_eq_zero, h.cmp_eq_zero, narrow_eq_zero, narrow_eq_zero]
      constructor
      · exact And.left
      · intro heq
        exact ⟨heq, fun hzero => (heq (by omega)).symm⟩
    | interval first second => exact (and_self_iff).trans (gives_fi h)
    | discrete values => exact (and_self_iff).trans (gives_fd h)
    | other => exact hallowed2.elim
  | interval first second =>
    cases v2 with
    | fixed v =>
      refine (and_self_iff).trans ?_
      rw [Set.inter_comm]
      exact gives_fi h
    | interval first' second' =>
      have hswap := gives_ii h hfit.2 hfit.1
      rw [Set.inter_comm] at hswap
      exact (and_congr (gives_ii h hfit.1 hfit.2) hswap).trans and_comm
    | discrete values => exact (and_self_iff).trans (gives_id h)
    | other => exact hallowed2.elim
  | discrete values =>
    cases v2 with
    | fixed v =>
      refine (and_self_iff).trans ?_
      rw [Set.inter_comm]
      exact gives_fd h
    | interval first second =>
      refine (and_self_iff).trans ?_
      rw [Set.inter_comm]
      exact gives_id h
    | discrete values' =>
      have hswap := gives_dd h values' values
      rw [Set.inter_comm] at hswap
      show Gives number ({x | x ∈ values} ∩ {x | x ∈ values'})
          (ddCapabilityCheck cmpFunc values' values) ∧
        Gives number ({x | x ∈ values} ∩ {x | x ∈ values'}) (ddCapabilityCheck cmpFunc values values') ↔
        ∀ x ∈ values, ∀ y ∈ values', cmpFunc x y = 0 → x ∈ values' ∧ y ∈ values
      rw [gives_dd h, hswap]
      constructor
      · rintro ⟨hleft, hright⟩ x hx y hy hcmp
        refine ⟨hright y hy x hx ?_, hleft x hx y hy hcmp⟩
        rw [h.cmp_eq_zero, narrow_eq_zero] at hcmp ⊢
        omega
      · intro hboth
        refine ⟨fun x hx y hy hcmp => (hboth x hx y hy hcmp).2, fun y hy x hx hcmp => ?_⟩
        refine (hboth x hx y hy ?_).1
        rw [h.cmp_eq_zero, narrow_eq_zero] at hcmp ⊢
        omega
    | other => exact hallowed2.elim
  | other => exact hallowed1.elim

end Merge

-- The keys

theorem CapabilityID.narrowed (key : CapabilityID) : Narrowed key.number key.cmpFunc := by
  cases key with
  | audioChannelLayout => exact narrowed_uint64
  | audioSampleFormat | audioAacProfile | audioAacStreamFormat => exact narrowed_uint8
  | mediaBitrate => exact narrowed_int64
  | _ => exact narrowed_uint32

/--
**The check of a key is intersection**, for two values of kinds that the key
allows, exactly when its comparisons are right for them. Two intervals have to
have their own bounds in order.
-/
theorem CapabilityID.merges_iff (key : CapabilityID) {v1 v2 : ValueType key.Value}
    (hallowed1 : v1.Allowed key.flags) (hallowed2 : v2.Allowed key.flags)
    (hfit : Fit key.number v1 v2) :
    Merges key.number key.cmpFunc key.flags v1 v2 ↔ Compares key.number key.cmpFunc v1 v2 :=
  merges_iff_compares key.narrowed hallowed1 hallowed2 hfit

theorem CapabilityID.merges_iff_sampleRates :
    Merges (number .audioSampleRate) (cmpFunc .audioSampleRate) (flags .audioSampleRate)
      (.interval (8000 : UInt32) (48000 : UInt32)) (.interval (96000 : UInt32) (44100 : UInt32)) := by
  have hfit : Fit (number .audioSampleRate) (.interval (8000 : UInt32) (48000 : UInt32))
      (.interval (96000 : UInt32) (44100 : UInt32)) := by
    unfold Fit InOrder MinRight MaxRight
    decide
  have hallowed (first second : UInt32) :
      ValueType.Allowed (flags .audioSampleRate) (.interval first second) := rfl
  refine (CapabilityID.merges_iff .audioSampleRate (hallowed _ _) (hallowed _ _) hfit).mpr ?_
  show Placed 8000 48000 44100 96000 ∧ Placed 44100 96000 8000 48000
  unfold Placed MaxRight MinRight TakenApart
  decide

/-- The sample rate 7 is between 10 and 5, and the check does not find it. -/
theorem CapabilityID.reversed_interval_loses_value :
    ¬ Merges (number .audioSampleRate) (cmpFunc .audioSampleRate) (flags .audioSampleRate)
      (.interval (10 : UInt32) (5 : UInt32)) (.discrete [(7 : UInt32)]) := by
  rintro ⟨hsome, -⟩
  have hmeet : (ValueType.denotes (number .audioSampleRate) (.interval (10 : UInt32) (5 : UInt32)) ∩
      ValueType.denotes (number .audioSampleRate) (.discrete [(7 : UInt32)])).Nonempty :=
    ⟨(7 : UInt32), by show _ ∧ _; decide, List.mem_cons_self⟩
  exact absurd (hsome.mpr hmeet) (by decide)

end MediaFoundation.Capability
