import MediaFoundation.Pipeline.CapabilitySet

/-!
# A negotiated capability satisfies both sides

What the values of a key allow, against what the merges make of them. Three
places break the negotiation:

* the comparisons wrap and take the bounds of an interval as they come, so that
  what they keep of two values is not what the two have in common;
* a key without a check is skipped where both have it, and then taken from the
  other side;
* the last loop fixes every key of the merge, also those the capability does not
  have.
-/

namespace MediaFoundation.Negotiation

open MediaFoundation.Capability
open Narrow

variable {id : CapabilityID} {key : Key}

-- What the comparisons keep

section Kept

variable {T : Type} (number : T → Int) (cmpFunc : T → T → Int32)

/-- The lower end of two intervals, as the comparisons have it. -/
def lowEnd (first1 second1 first2 second2 : T) : T :=
  maxOf cmpFunc (minOf cmpFunc first2 second2) (minOf cmpFunc first1 second1)

def highEnd (first1 second1 first2 second2 : T) : T :=
  minOf cmpFunc (maxOf cmpFunc first2 second2) (maxOf cmpFunc first1 second1)

/-- What the comparisons keep of two values. -/
def kept : ValueType T → ValueType T → Set T
  | .fixed v1, .fixed v2 => {x | x = v1 ∧ cmpFunc v1 v2 = 0}
  | .fixed v, .interval first second | .interval first second, .fixed v =>
    {x | x = v ∧ 0 ≤ cmpFunc v (minOf cmpFunc first second) ∧
      cmpFunc v (maxOf cmpFunc first second) ≤ 0}
  | .fixed v, .discrete values | .discrete values, .fixed v =>
    {x | x = v ∧ ∃ y ∈ values, cmpFunc y v = 0}
  | .interval first1 second1, .interval first2 second2 =>
    let low := lowEnd cmpFunc first1 second1 first2 second2
    let high := highEnd cmpFunc first1 second1 first2 second2
    {x | ¬ 0 < cmpFunc low high ∧
      (x = low ∨ cmpFunc low high ≠ 0 ∧ x ∈ between number low high)}
  | .interval first second, .discrete values | .discrete values, .interval first second =>
    {x | x ∈ values ∧ 0 ≤ cmpFunc x first ∧ cmpFunc x second ≤ 0}
  | .discrete values1, .discrete values2 => {x | x ∈ values2 ∧ ∃ y ∈ values1, cmpFunc x y = 0}
  | .other, _ | _, .other => ∅

def pick : ValueType T → ValueType T → Option T
  | .fixed v, .fixed _ | .fixed v, .interval _ _ | .interval _ _, .fixed v
  | .fixed v, .discrete _ | .discrete _, .fixed v => some v
  | .interval first1 second1, .interval first2 second2 =>
    some (lowEnd cmpFunc first1 second1 first2 second2)
  | .interval first second, .discrete values | .discrete values, .interval first second =>
    values.find? fun x => 0 ≤ cmpFunc x first ∧ cmpFunc x second ≤ 0
  | .discrete values1, .discrete values2 =>
    values2.find? fun x => values1.any fun y => cmpFunc x y = 0
  | .other, _ | _, .other => none

end Kept

-- What the comparisons keep, on the values

section Told

variable {T : Type} (number : T → Int) (cmpFunc : T → T → Int32)

/-- Two values that the comparisons find nothing in common of. -/
def ToldApart : ValueType T → ValueType T → Prop
  | .fixed v1, .fixed v2 => cmpFunc v1 v2 ≠ 0
  | .fixed v, .interval first second | .interval first second, .fixed v =>
    ¬ OnShort (number first) (number second) (number v)
  | .fixed v, .discrete values | .discrete values, .fixed v => ∀ y ∈ values, cmpFunc y v ≠ 0
  | .interval first1 second1, .interval first2 second2 =>
    TakenApart (lower number first2 second2) (upper number first2 second2)
      (lower number first1 second1) (upper number first1 second1)
  | .interval first second, .discrete values | .discrete values, .interval first second =>
    ∀ x ∈ values, ¬ OnArc (number first) (number second) (number x)
  | .discrete values1, .discrete values2 => ∀ x ∈ values2, ∀ y ∈ values1, cmpFunc x y ≠ 0
  | .other, _ | _, .other => True

/-- The lower end of what is found of two intervals is in both. -/
def LowRight (first1 second1 first2 second2 : T) : Prop :=
  max (lower number first2 second2) (lower number first1 second1) ≤
      min (upper number first2 second2) (upper number first1 second1) ∧
    MaxRight (lower number first2 second2) (lower number first1 second1)

/-- What is found in common is in both. -/
def Agrees : ValueType T → ValueType T → Prop
  | .fixed v1, .fixed v2 => v1 = v2
  | .fixed v, .interval first second | .interval first second, .fixed v =>
    v ∈ between number first second
  | .fixed v, .discrete values | .discrete values, .fixed v => v ∈ values
  | .interval first1 second1, .interval first2 second2 =>
    LowRight number first1 second1 first2 second2 ∧
      (MinRight (upper number first2 second2) (upper number first1 second1) ∨
        narrow (max (lower number first2 second2) (lower number first1 second1) -
          max (upper number first2 second2) (upper number first1 second1)) = 0)
  | .interval first second, .discrete values | .discrete values, .interval first second =>
    ∀ x ∈ values, OnArc (number first) (number second) (number x) → x ∈ between number first second
  | .discrete values1, .discrete values2 =>
    ∀ x ∈ values2, (∃ y ∈ values1, cmpFunc x y = 0) → x ∈ values1
  | .other, _ | _, .other => True

/-- The single value that is fixed of what is found is in both. -/
def Picks : ValueType T → ValueType T → Prop
  | .interval first1 second1, .interval first2 second2 =>
    LowRight number first1 second1 first2 second2
  | .interval first second, .discrete values | .discrete values, .interval first second =>
    ∀ x ∈ values.find? fun x => OnArc (number first) (number second) (number x),
      x ∈ between number first second
  | .discrete values1, .discrete values2 =>
    ∀ x ∈ values2.find? fun x => values1.any fun y => cmpFunc x y = 0, x ∈ values1
  | v1, v2 => Agrees number cmpFunc v1 v2

variable {number cmpFunc} (h : Narrowed number cmpFunc)

section Ends

variable {first1 second1 first2 second2 : T} (hfit1 : InOrder number first1 second1)
  (hfit2 : InOrder number first2 second2)

include h hfit1 hfit2

theorem apart_iff : 0 < cmpFunc (lowEnd cmpFunc first1 second1 first2 second2)
      (highEnd cmpFunc first1 second1 first2 second2) ↔
    ToldApart number cmpFunc (.interval first1 second1) (.interval first2 second2) := by
  rw [h.cmp_pos, lowEnd, highEnd, number_low h hfit1 hfit2, number_high h hfit1 hfit2]
  exact takenApart_iff (narrow_bounds hfit2) (narrow_bounds hfit1)

theorem lowEnd_mem : lowEnd cmpFunc first1 second1 first2 second2 ∈
      between number first1 second1 ∩ between number first2 second2 ↔
    LowRight number first1 second1 first2 second2 := by
  unfold LowRight
  rw [← later_eq_max, Set.mem_inter_iff, mem_between, mem_between, lowEnd,
    number_low h hfit1 hfit2]
  have hle := @later_le_max (lower number first2 second2) (lower number first1 second1)
  omega

theorem highEnd_mem : highEnd cmpFunc first1 second1 first2 second2 ∈
      between number first1 second1 ∩ between number first2 second2 ↔
    max (lower number first2 second2) (lower number first1 second1) ≤
        min (upper number first2 second2) (upper number first1 second1) ∧
      MinRight (upper number first2 second2) (upper number first1 second1) := by
  rw [← earlier_eq_min, Set.mem_inter_iff, mem_between, mem_between, highEnd,
    number_high h hfit1 hfit2]
  have hle := @min_le_earlier (upper number first2 second2) (upper number first1 second1)
  omega

theorem ends_equal (hlow : LowRight number first1 second1 first2 second2)
    (hhigh : ¬ MinRight (upper number first2 second2) (upper number first1 second1)) :
    cmpFunc (lowEnd cmpFunc first1 second1 first2 second2)
        (highEnd cmpFunc first1 second1 first2 second2) = 0 ↔
      narrow (max (lower number first2 second2) (lower number first1 second1) -
        max (upper number first2 second2) (upper number first1 second1)) = 0 := by
  have hearlier : earlier (upper number first2 second2) (upper number first1 second1) =
      max (upper number first2 second2) (upper number first1 second1) := by
    rw [← earlier_eq_min] at hhigh
    unfold earlier at hhigh ⊢
    split at hhigh <;> rename_i hle
    · rw [if_pos hle]
      omega
    · rw [if_neg hle]
      omega
  rw [h.cmp_eq_zero, lowEnd, highEnd, number_low h hfit1 hfit2, number_high h hfit1 hfit2,
    later_eq_max.mpr hlow.2, hearlier]

end Ends

theorem between_subset {low high first second : T} (hlow : low ∈ between number first second)
    (hhigh : high ∈ between number first second) :
    between number low high ⊆ between number first second := by
  intro x hx
  rw [mem_between] at hlow hhigh hx ⊢
  simp only [lower, upper] at *
  omega

include h

theorem kept_eq_empty {v1 v2 : ValueType T} (hfit : Fit number v1 v2) :
    kept number cmpFunc v1 v2 = ∅ ↔ ToldApart number cmpFunc v1 v2 := by
  rw [Set.eq_empty_iff_forall_notMem]
  cases v1 with
  | interval first second =>
    cases v2 with
    | interval first' second' =>
      rw [← apart_iff h hfit.1 hfit.2]
      constructor
      · intro hempty
        by_contra hpos
        exact hempty _ ⟨hpos, .inl rfl⟩
      · rintro hpos x ⟨hnot, -⟩
        exact hnot hpos
    | _ => simp [kept, ToldApart, cmp_short h, cmp_arc h]
  | _ => cases v2 <;> simp [kept, ToldApart, cmp_short h, cmp_arc h]

theorem kept_subset {v1 v2 : ValueType T} (hfit : Fit number v1 v2)
    (hapart : ¬ ToldApart number cmpFunc v1 v2) :
    kept number cmpFunc v1 v2 ⊆ v1.denotes number ∩ v2.denotes number ↔
      Agrees number cmpFunc v1 v2 := by
  cases v1 with
  | interval first second =>
    cases v2 with
    | interval first' second' =>
      have hlow := lowEnd_mem h hfit.1 hfit.2
      have hhigh := highEnd_mem h hfit.1 hfit.2
      rw [← apart_iff h hfit.1 hfit.2] at hapart
      constructor
      · intro hsubset
        have hright := hlow.mp (hsubset ⟨hapart, .inl rfl⟩)
        refine ⟨hright, ?_⟩
        by_contra hneither
        rw [not_or] at hneither
        have hne := mt (ends_equal h hfit.1 hfit.2 hright hneither.1).mp hneither.2
        exact hneither.1 (hhigh.mp
          (hsubset ⟨hapart, .inr ⟨hne, min_le_right _ _, le_max_right _ _⟩⟩)).2
      · rintro ⟨hright, hends⟩ x ⟨-, rfl | ⟨hne, hx⟩⟩
        · exact hlow.mpr hright
        · -- the ends differ, so that both are in both intervals
          have hmin : MinRight (upper number first' second') (upper number first second) := by
            rcases hends with hmin | hequal
            · exact hmin
            · by_contra hmin
              exact hne ((ends_equal h hfit.1 hfit.2 hright hmin).mpr hequal)
          obtain ⟨hlow1, hlow2⟩ := hlow.mpr hright
          obtain ⟨hhigh1, hhigh2⟩ := hhigh.mpr ⟨hright.1, hmin⟩
          exact ⟨between_subset hlow1 hhigh1 hx, between_subset hlow2 hhigh2 hx⟩
    | _ =>
      simp_all [kept, ToldApart, Agrees, ValueType.denotes, Set.subset_def, cmp_short h, cmp_arc h]
  | _ =>
    cases v2 <;>
      simp_all [kept, ToldApart, Agrees, ValueType.denotes, Set.subset_def, cmp_short h, cmp_arc h]

theorem pick_mem {v1 v2 : ValueType T} (hfit : Fit number v1 v2) :
    (∀ x ∈ pick cmpFunc v1 v2, x ∈ v1.denotes number ∩ v2.denotes number) ↔
      Picks number cmpFunc v1 v2 := by
  have hlist {values : List T} {test : T → Bool} {S : Set T} :
      (∀ x ∈ values.find? test, x ∈ values ∧ x ∈ S) ↔ ∀ x ∈ values.find? test, x ∈ S :=
    forall₂_congr fun x hx => and_iff_right (List.mem_of_find?_eq_some hx)
  have hlist' {values : List T} {test : T → Bool} {S : Set T} :
      (∀ x ∈ values.find? test, x ∈ S ∧ x ∈ values) ↔ ∀ x ∈ values.find? test, x ∈ S :=
    forall₂_congr fun x hx => and_iff_left (List.mem_of_find?_eq_some hx)
  cases v1 with
  | interval first second =>
    cases v2 with
    | interval first' second' =>
      rw [Picks, ← lowEnd_mem h hfit.1 hfit.2]
      simp [pick, ValueType.denotes]
    | _ => simp_all [pick, Picks, Agrees, ValueType.denotes, cmp_arc h]
  | discrete values =>
    cases v2 with
    | discrete values' => exact hlist' (S := {x | x ∈ values})
    | _ => simp_all [pick, Picks, Agrees, ValueType.denotes, cmp_arc h]
  | _ => cases v2 <;> simp_all [pick, Picks, Agrees, ValueType.denotes]

end Told

-- The values of a key

theorem fixed_allowed (id : CapabilityID) : isFixedAllowed id.flags = true := by
  cases id <;> rfl

theorem discrete_allowed (id : CapabilityID) : isDiscreteAllowed id.flags = true := by
  cases id <;> rfl

theorem check_of_not_allowed {v1 v2 : ValueType id.Value}
    (h : ¬ (v1.Allowed id.flags ∧ v2.Allowed id.flags)) : id.check v1 v2 = none := by
  have hfixed := fixed_allowed id
  have hdiscrete := discrete_allowed id
  unfold CapabilityID.check
  cases v1 with
  | fixed v =>
    cases v2 <;>
      simp_all [capabilityValueCheck, fixedNumericalCapabilityCheck, ValueType.Allowed]
  | interval first second =>
    cases v2 <;>
      simp_all [capabilityValueCheck, intervalNumericalCapabilityCheck, ValueType.Allowed]
  | discrete values =>
    cases v2 <;>
      simp_all [capabilityValueCheck, discreteNumericalCapabilityCheck, ValueType.Allowed]
  | other => rfl

/-- A check finds this set, of which `x` is fixed. -/
def Results (id : CapabilityID) (S : Set id.Value) (x : Option id.Value) :
    Option (ValueType id.Value) → Prop
  | none => S = ∅
  | some out => out.Allowed id.flags ∧ out.denotes id.number = S ∧ S.Nonempty ∧
      extractFixedCap out = x

section Intersect

variable {id : CapabilityID}

theorem results_if {v : id.Value} {test : Prop} [Decidable test] :
    Results id {x | x = v ∧ test} (some v) (if test then some (.fixed v) else none) := by
  by_cases htest : test
  · rw [if_pos htest]
    refine ⟨fixed_allowed id, ?_, ⟨v, rfl, htest⟩, rfl⟩
    ext x
    simp [ValueType.denotes, htest]
  · rw [if_neg htest]
    simp [Results, htest]

theorem results_filter (values : List id.Value) (test : id.Value → Bool) :
    Results id {x | x ∈ values ∧ test x = true} (values.find? test)
      (fromCollected (values.filter test)) := by
  have hgives : Gives id.number {x | x ∈ values ∧ test x = true}
      (fromCollected (values.filter test)) := gives_fromCollected.mpr fun x => List.mem_filter
  rw [← List.head?_filter]
  cases hout : values.filter test with
  | nil =>
    rw [hout] at hgives
    exact hgives
  | cons first rest =>
    rw [hout] at hgives
    cases rest with
    | nil => exact ⟨fixed_allowed id, hgives.2, hgives.1, rfl⟩
    | cons second rest => exact ⟨discrete_allowed id, hgives.2, hgives.1, rfl⟩

theorem results_ends (hallowed : isIntervalAllowed id.flags = true) (low high : id.Value) :
    Results id {x | ¬ 0 < id.cmpFunc low high ∧
        (x = low ∨ id.cmpFunc low high ≠ 0 ∧ x ∈ between id.number low high)} (some low)
      (if 0 < id.cmpFunc low high then none
        else if id.cmpFunc low high = 0 then some (.fixed low)
        else some (.interval low high)) := by
  by_cases hpos : 0 < id.cmpFunc low high
  · rw [if_pos hpos]
    simp [Results, hpos]
  · rw [if_neg hpos]
    split
    · rename_i hzero
      refine ⟨fixed_allowed id, ?_, ⟨low, hpos, .inl rfl⟩, rfl⟩
      ext x
      simp [ValueType.denotes, hzero]
    · rename_i hne
      refine ⟨hallowed, ?_, ⟨low, hpos, .inl rfl⟩, rfl⟩
      ext x
      refine ⟨fun hx => ⟨hpos, .inr ⟨hne, hx⟩⟩, ?_⟩
      rintro ⟨-, rfl | ⟨-, hx⟩⟩
      · exact ⟨min_le_left _ _, le_max_left _ _⟩
      · exact hx

theorem intersect_spec {v1 v2 : ValueType id.Value} (hallowed : v1.Allowed id.flags) :
    Results id (kept id.number id.cmpFunc v1 v2) (pick id.cmpFunc v1 v2)
      (intersect id.cmpFunc v1 v2) := by
  have hfd (v : id.Value) (values : List id.Value) :
      Results id {x | x = v ∧ ∃ y ∈ values, id.cmpFunc y v = 0} (some v)
        (fdCapabilityCheck id.cmpFunc v values) := by
    have hif : Results id {x | x = v ∧ (values.any fun tmp => id.cmpFunc tmp v = 0) = true}
        (some v) (fdCapabilityCheck id.cmpFunc v values) := results_if
    simpa [List.any_eq_true] using hif
  have hid (first second : id.Value) (values : List id.Value) :
      Results id {x | x ∈ values ∧ 0 ≤ id.cmpFunc x first ∧ id.cmpFunc x second ≤ 0}
        (values.find? fun x => 0 ≤ id.cmpFunc x first ∧ id.cmpFunc x second ≤ 0)
        (idCapabilityCheck id.cmpFunc (first, second) values) := by
    have hfilter :=
      results_filter values fun x => 0 ≤ id.cmpFunc x first ∧ id.cmpFunc x second ≤ 0
    simp only [decide_eq_true_eq] at hfilter
    exact hfilter
  cases v1 with
  | fixed v =>
    cases v2 with
    | fixed v' | interval first second => exact results_if
    | discrete values => exact hfd v values
    | other => rfl
  | interval first second =>
    cases v2 with
    | fixed v' => exact results_if
    | interval first' second' => exact results_ends hallowed _ _
    | discrete values => exact hid first second values
    | other => rfl
  | discrete values =>
    cases v2 with
    | fixed v' => exact hfd v' values
    | interval first second => exact hid first second values
    | discrete values' =>
      have hfilter := results_filter values' fun x => values.any fun y => id.cmpFunc x y = 0
      simp only [List.any_eq_true, decide_eq_true_eq] at hfilter
      exact hfilter
    | other => rfl
  | other => rfl

end Intersect

/-- What the check of a key keeps: of two allowed kinds. -/
def keptAt (id : CapabilityID) (v1 v2 : ValueType id.Value) : Set id.Value :=
  {x | v1.Allowed id.flags ∧ v2.Allowed id.flags ∧ x ∈ kept id.number id.cmpFunc v1 v2}

/-- **The check of a key**: nothing where nothing is kept, or an allowed value that denotes what
is, and of which `pick` is fixed. -/
theorem check_spec (id : CapabilityID) (v1 v2 : ValueType id.Value) :
    Results id (keptAt id v1 v2) (pick id.cmpFunc v1 v2) (id.check v1 v2) := by
  by_cases hallowed : v1.Allowed id.flags ∧ v2.Allowed id.flags
  · have hkept : keptAt id v1 v2 = kept id.number id.cmpFunc v1 v2 := by
      ext x
      simp [keptAt, hallowed.1, hallowed.2]
    have hcheck : id.check v1 v2 = intersect id.cmpFunc v1 v2 :=
      capabilityValueCheck_eq id.cmpFunc hallowed.1 hallowed.2
    rw [hcheck, hkept]
    exact intersect_spec hallowed.1
  · rw [check_of_not_allowed hallowed]
    show keptAt id v1 v2 = ∅
    ext x
    simp only [keptAt, Set.mem_ofPred_eq, Set.mem_empty_iff_false, iff_false]
    rintro ⟨h1, h2, -⟩
    exact hallowed ⟨h1, h2⟩

-- What a value allows

def single (id : CapabilityID) (x : id.Value) : Any := .of id (.fixed x)

def Any.singles : Any → Set Any
  | of id value => single id '' value.denotes id.number
  | text s => {text s}
  | foreign n => {foreign n}

/-- The single values that a key with this value allows: of its type and its kinds, where it
has a check. -/
def allows (key : Key) (value : Any) : Set Any :=
  match capabilityID key with
  | some id =>
    {x | (value.view id).Allowed id.flags ∧ x ∈ single id '' (value.view id).denotes id.number}
  | none => value.singles

theorem single_injective (id : CapabilityID) : Function.Injective (single id) := by
  intro x y h
  rw [single, single, Any.of.injEq] at h
  exact ValueType.fixed.inj (eq_of_heq h.2)

theorem mem_allows (hid : capabilityID key = some id)
    {value : Any} {x : id.Value} : single id x ∈ allows key value ↔
      (value.view id).Allowed id.flags ∧ x ∈ (value.view id).denotes id.number := by
  unfold allows
  rw [hid]
  simp only [Set.mem_ofPred_eq, (single_injective id).mem_set_image]

theorem allows_eq (hid : capabilityID key = some id)
    {value y : Any} (h : y ∈ allows key value) : ∃ x, y = single id x := by
  unfold allows at h
  rw [hid] at h
  obtain ⟨-, x, -, rfl⟩ := h
  exact ⟨x, rfl⟩

def allowed (keys : KeyMap) (key : Key) : Set Any :=
  match keys[key]? with
  | some value => allows key value
  | none => Set.univ

/-- `subset` is a mime `type/name` that `universeMime` covers, in any letter case. -/
def MimeIn (subset universeMime : List Char) : Prop :=
  ∃ type name, type ≠ [] ∧ '/' ∉ type ∧ subset = type ++ '/' :: name ∧
    (universeMime = ['*'] ∨ ∃ type' name', '/' ∉ type' ∧ universeMime = type' ++ '/' :: name' ∧
      type'.map Char.toLower = type.map Char.toLower ∧
      (name' = ['*'] ∨ name'.map Char.toLower = name.map Char.toLower))

structure Compatible (originCap cap : Capability) : Prop where
  mime : MimeIn originCap.mime cap.mime
  keys : ∀ (key : Key) value val, originCap.keys[key]? = some value →
    cap.keys[key]? = some val → (allows key value ∩ allows key val).Nonempty

/-- What is to hold of a set: the members before the first compatible one are passed over,
and the merge with it satisfies both sides. -/
def Applied (originCap : Capability) (capabilitySet : List Capability) : Option Capability → Prop
  | none => ∀ cap ∈ capabilitySet, ¬ Compatible originCap cap
  | some resCap => ∃ before cap after, capabilitySet = before ++ cap :: after ∧
      (∀ other ∈ before, mergeCapability originCap other = none ∧ ¬ Compatible originCap other) ∧
      Compatible originCap cap ∧ mergeCapability originCap cap = some resCap ∧
      ∀ key, allowed resCap.keys key ⊆ allowed originCap.keys key ∩ allowed cap.keys key

structure Fixed (meta' : Meta) (cap : Capability) (resMeta : Meta) : Prop where
  fixed : ∀ (key : Key) val id, cap.keys[key]? = some val → capabilityID key = some id →
    (allows key val).Nonempty → ∃ x, resMeta[key]? = some (single id x) ∧
      single id x ∈ allows key val ∧
      ∀ value, meta'[key]? = some value → single id x ∈ allows key value
  others : ∀ key : Key, cap.keys[key]? = none → key ≠ mimeTag → resMeta[key]? = meta'[key]?

/-- **The negotiation satisfies both sides.** -/
structure Negotiated (originCap : Capability) (capabilitySet : List Capability) (meta' : Meta)
    (cap : Capability) : Prop where
  applied : Applied originCap capabilitySet (applyCapabilitySet originCap capabilitySet)
  fixed : ∀ resMeta, mergeMetaWithCapability meta' cap = some resMeta → Fixed meta' cap resMeta

-- Mimes

theorem stringEqIgnoreCase_iff {s1 s2 : List Char} :
    stringEqIgnoreCase s1 s2 = true ↔ s1.map Char.toLower = s2.map Char.toLower := by
  unfold stringEqIgnoreCase
  induction s1 generalizing s2 with
  | nil => cases s2 <;> simp
  | cons c s1 ih =>
    cases s2 with
    | nil => simp
    | cons d s2 =>
      have hrest := @ih s2
      simp only [Bool.and_eq_true, decide_eq_true_eq] at hrest
      simp only [List.length_cons, List.zip_cons_cons, List.all_cons, Bool.and_eq_true,
        decide_eq_true_eq, List.map_cons, List.cons.injEq, Nat.add_right_cancel_iff, ← hrest]
      tauto

theorem splitMime_append {type name : List Char} (hne : type ≠ []) (hslash : '/' ∉ type) :
    splitMime (type ++ '/' :: name) = some (type, name) := by
  have hpos : (type ++ '/' :: name).idxOf '/' = type.length := by
    rw [List.idxOf_append_of_notMem hslash, List.idxOf_cons_self]
    rfl
  have hlength : type.length ≠ 0 := fun h => hne (List.eq_nil_of_length_eq_zero h)
  simp [splitMime, hpos, hlength]

theorem splitMime_eq_some {mime type name : List Char} :
    splitMime mime = some (type, name) ↔
      type ≠ [] ∧ '/' ∉ type ∧ mime = type ++ '/' :: name := by
  constructor
  · intro h
    have hmem : '/' ∈ mime := by
      by_contra hnot
      simp [splitMime, List.idxOf_eq_length hnot] at h
    obtain ⟨first, rest, rfl, hfirst⟩ := List.eq_append_cons_of_mem hmem
    have hne : first ≠ [] := by
      rintro rfl
      simp [splitMime] at h
    rw [splitMime_append hne hfirst, Option.some.injEq, Prod.mk.injEq] at h
    obtain ⟨rfl, rfl⟩ := h
    exact ⟨hne, hfirst, rfl⟩
  · rintro ⟨hne, hslash, rfl⟩
    exact splitMime_append hne hslash

def Covers (s s' : List Char × List Char) : Prop :=
  s'.1.map Char.toLower = s.1.map Char.toLower ∧
    (s'.2 = ['*'] ∨ s'.2.map Char.toLower = s.2.map Char.toLower)

theorem mimeIn_iff {subset universeMime : List Char} :
    MimeIn subset universeMime ↔ ∃ s, splitMime subset = some s ∧
      (universeMime = ['*'] ∨ ∃ s', splitMime universeMime = some s' ∧ Covers s s') := by
  constructor
  · rintro ⟨type, name, hne, hslash, rfl, hcovers⟩
    refine ⟨(type, name), splitMime_append hne hslash, ?_⟩
    rcases hcovers with hall | ⟨type', name', hslash', rfl, htype, hname⟩
    · exact .inl hall
    · have hne' : type' ≠ [] := by
        rintro rfl
        exact hne (List.map_eq_nil_iff.mp htype.symm)
      exact .inr ⟨(type', name'), splitMime_append hne' hslash', htype, hname⟩
  · rintro ⟨⟨type, name⟩, hsplit, hcovers⟩
    obtain ⟨hne, hslash, rfl⟩ := splitMime_eq_some.mp hsplit
    refine ⟨type, name, hne, hslash, rfl, ?_⟩
    rcases hcovers with hall | ⟨⟨type', name'⟩, hsplit', htype, hname⟩
    · exact .inl hall
    · obtain ⟨-, hslash', rfl⟩ := splitMime_eq_some.mp hsplit'
      exact .inr ⟨type', name', hslash', rfl, htype, hname⟩

theorem isSubsetMime_iff {subset universeMime : List Char} :
    isSubsetMime subset universeMime = true ↔ MimeIn subset universeMime := by
  rw [mimeIn_iff]
  unfold isSubsetMime
  cases hsubset : splitMime subset with
  | none => simp
  | some s =>
    obtain ⟨type, name⟩ := s
    by_cases hall : universeMime = ['*']
    · simp [hall]
    · cases huniverse : splitMime universeMime with
      | none => simp [hall]
      | some s' =>
        obtain ⟨type', name'⟩ := s'
        have htype : stringEqIgnoreCase type type' = true ↔ _ := stringEqIgnoreCase_iff
        have hname : stringEqIgnoreCase name' name = true ↔ _ := stringEqIgnoreCase_iff
        simp only [Option.some.injEq, exists_eq_left', hall, false_or, Covers,
          eq_comm (a := type'.map Char.toLower), ← htype, ← hname, if_false]
        by_cases hstar : name' = ['*']
        · simp [hstar]
        · simp [hstar]

-- One capability

def Shared (originKeys otherKeys : KeyMap) (id : CapabilityID) (v1 v2 : ValueType id.Value) :
    Prop :=
  ∃ (key : Key) (value val : Any), originKeys[key]? = some value ∧ otherKeys[key]? = some val ∧
    capabilityID key = some id ∧ value.view id = v1 ∧ val.view id = v2

/-- Two such values are of kinds that the key does not allow, or are told apart. -/
def Apart (originKeys otherKeys : KeyMap) : Prop :=
  ∃ id v1 v2, Shared originKeys otherKeys id v1 v2 ∧
    (¬ (v1.Allowed id.flags ∧ v2.Allowed id.flags) ∨
      Fit id.number v1 v2 ∧ ToldApart id.number id.cmpFunc v1 v2)

/-- Where nothing is told apart, no interval has its own bounds put in the wrong order. -/
def Fits (originKeys otherKeys : KeyMap) : Prop :=
  ¬ Apart originKeys otherKeys →
    ∀ id v1 v2, Shared originKeys otherKeys id v1 v2 → Fit id.number v1 v2

def NoCommon (originKeys otherKeys : KeyMap) : Prop :=
  ∃ (key : Key) (value val : Any), originKeys[key]? = some value ∧ otherKeys[key]? = some val ∧
    allows key value ∩ allows key val = ∅

/-- Where a key is told apart, some key has nothing in common. Where none is, the comparisons
agree, and at a key without a check the other side allows something, and no more than the
origin. -/
def Judged (originKeys otherKeys : KeyMap) : Prop :=
  Apart originKeys otherKeys ∧ NoCommon originKeys otherKeys ∨
    ¬ Apart originKeys otherKeys ∧
      (∀ id v1 v2, Shared originKeys otherKeys id v1 v2 → Agrees id.number id.cmpFunc v1 v2) ∧
      ∀ (key : Key) value val, originKeys[key]? = some value → otherKeys[key]? = some val →
        capabilityID key = none → (allows key val).Nonempty ∧ allows key val ⊆ allows key value

theorem checkValues_eq_none {value val : Any} :
    checkValues id value val = none ↔ keptAt id (value.view id) (val.view id) = ∅ := by
  have hspec := check_spec id (value.view id) (val.view id)
  rw [checkValues, Option.map_eq_none_iff]
  cases hcheck : id.check (value.view id) (val.view id) with
  | none =>
    rw [hcheck] at hspec
    exact iff_of_true rfl hspec
  | some out =>
    rw [hcheck] at hspec
    exact iff_of_false nofun fun hempty => hspec.2.2.1.ne_empty hempty

section Keys

variable {originKeys otherKeys : KeyMap} (hfits : Fits originKeys otherKeys)

include hfits

theorem keptAt_of_shared (hapart : ¬ Apart originKeys otherKeys)
    {v1 v2 : ValueType id.Value} (hshared : Shared originKeys otherKeys id v1 v2) :
    (keptAt id v1 v2).Nonempty ∧ (keptAt id v1 v2 ⊆ v1.denotes id.number ∩ v2.denotes id.number ↔
      Agrees id.number id.cmpFunc v1 v2) := by
  have hfit := hfits hapart id v1 v2 hshared
  have hallowed : v1.Allowed id.flags ∧ v2.Allowed id.flags := by
    by_contra hnot
    exact hapart ⟨id, v1, v2, hshared, .inl hnot⟩
  have htold : ¬ ToldApart id.number id.cmpFunc v1 v2 := fun htold =>
    hapart ⟨id, v1, v2, hshared, .inr ⟨hfit, htold⟩⟩
  have hkept : keptAt id v1 v2 = kept id.number id.cmpFunc v1 v2 := by
    ext x
    simp [keptAt, hallowed.1, hallowed.2]
  rw [hkept, Set.nonempty_iff_ne_empty, Ne, kept_eq_empty id.narrowed hfit]
  exact ⟨htold, kept_subset id.narrowed hfit htold⟩

theorem refused_iff_apart : Refused originKeys otherKeys ↔ Apart originKeys otherKeys := by
  constructor
  · rintro ⟨key, value, val, id, hvalue, hval, hid, hcheck⟩
    by_contra hapart
    obtain ⟨hne, -⟩ := keptAt_of_shared hfits hapart ⟨key, value, val, hvalue, hval, hid, rfl, rfl⟩
    exact hne.ne_empty (checkValues_eq_none.mp hcheck)
  · rintro ⟨id, -, -, ⟨key, value, val, hvalue, hval, hid, rfl, rfl⟩, hwhy⟩
    refine ⟨key, value, val, id, hvalue, hval, hid, checkValues_eq_none.mpr ?_⟩
    rw [Set.eq_empty_iff_forall_notMem]
    rintro x ⟨hallowed, hallowed', hx⟩
    rcases hwhy with hnot | ⟨hfit, htold⟩
    · exact hnot ⟨hallowed, hallowed'⟩
    · rw [(kept_eq_empty id.narrowed hfit).mpr htold] at hx
      exact hx

end Keys

theorem allows_checkValues (hid : capabilityID key = some id)
    {value val out : Any} (h : checkValues id value val = some out) :
    allows key out = single id '' keptAt id (value.view id) (val.view id) := by
  have hspec := check_spec id (value.view id) (val.view id)
  obtain ⟨out', hcheck, rfl⟩ := Option.map_eq_some_iff.mp h
  rw [hcheck] at hspec
  obtain ⟨hallowed, hdenotes, -⟩ := hspec
  unfold allows
  rw [hid]
  simp only [Any.view_of, hdenotes]
  ext x
  simp [hallowed]

theorem isSome_mergeCapability_iff {originCap cap : Capability}
    (hfits : MimeIn originCap.mime cap.mime → Fits originCap.keys cap.keys) :
    (mergeCapability originCap cap).isSome ↔
      MimeIn originCap.mime cap.mime ∧ ¬ Apart originCap.keys cap.keys := by
  rw [isSome_mergeCapability, isSubsetMime_iff]
  exact and_congr_right fun hmime => not_congr (refused_iff_apart (hfits hmime))

theorem compatible_iff {originCap cap : Capability} : Compatible originCap cap ↔
    MimeIn originCap.mime cap.mime ∧ ¬ NoCommon originCap.keys cap.keys := by
  constructor
  · rintro ⟨hmime, hkeys⟩
    refine ⟨hmime, ?_⟩
    rintro ⟨key, value, val, hvalue, hval, hempty⟩
    exact (hkeys key value val hvalue hval).ne_empty hempty
  · rintro ⟨hmime, hdisjoint⟩
    refine ⟨hmime, fun key value val hvalue hval => ?_⟩
    by_contra hempty
    rw [Set.not_nonempty_iff_eq_empty] at hempty
    exact hdisjoint ⟨key, value, val, hvalue, hval, hempty⟩

theorem satisfies_checked (hid : capabilityID key = some id)
    (value val : Any) :
    single id '' keptAt id (value.view id) (val.view id) ⊆ allows key value ∩ allows key val ↔
      keptAt id (value.view id) (val.view id) ⊆
        (value.view id).denotes id.number ∩ (val.view id).denotes id.number := by
  rw [Set.image_subset_iff]
  constructor
  · intro h x hx
    obtain ⟨hleft, hright⟩ := h hx
    exact ⟨((mem_allows hid).mp hleft).2, ((mem_allows hid).mp hright).2⟩
  · intro h x hx
    obtain ⟨hleft, hright⟩ := h hx
    exact ⟨(mem_allows hid).mpr ⟨hx.1, hleft⟩, (mem_allows hid).mpr ⟨hx.2.1, hright⟩⟩

/-- Where no key is refused, each check of two values has a result. -/
theorem exists_checkValues {originKeys otherKeys : KeyMap} {key : Key} {value val : Any}
    {id : CapabilityID} (hrefused : ¬ Refused originKeys otherKeys)
    (hvalue : originKeys[key]? = some value) (hval : otherKeys[key]? = some val)
    (hid : capabilityID key = some id) :
    ∃ out, checkValues id value val = some out :=
  Option.ne_none_iff_exists'.mp fun hnone =>
    hrefused ⟨key, value, val, id, hvalue, hval, hid, hnone⟩

/-- The merge satisfies both sides where the comparisons keep what they have in common. -/
theorem satisfies_iff {originCap cap resCap : Capability}
    (h : mergeCapability originCap cap = some resCap) :
    (∀ key, allowed resCap.keys key ⊆ allowed originCap.keys key ∩ allowed cap.keys key) ↔
      (∀ (key : Key) value val id, originCap.keys[key]? = some value →
        cap.keys[key]? = some val → capabilityID key = some id →
          keptAt id (value.view id) (val.view id) ⊆
            (value.view id).denotes id.number ∩ (val.view id).denotes id.number) ∧
        ∀ (key : Key) value val, originCap.keys[key]? = some value →
          cap.keys[key]? = some val → capabilityID key = none →
            allows key val ⊆ allows key value := by
  obtain ⟨-, hrefused, hentries⟩ := mergeCapability_eq_some h
  constructor
  · intro hkeys
    refine ⟨fun key value val id hvalue hval hid => ?_, fun key value val hvalue hval hid => ?_⟩
    · have hkey := hkeys key
      obtain ⟨out, hout⟩ := exists_checkValues hrefused hvalue hval hid
      simp only [allowed, hentries, merged, hvalue, hval, hid, hout] at hkey
      rw [allows_checkValues hid hout] at hkey
      exact (satisfies_checked hid value val).mp hkey
    · have hkey := hkeys key
      simp only [allowed, hentries, merged, hvalue, hval, hid] at hkey
      exact fun x hx => (hkey hx).1
  · rintro ⟨hchecked, hunchecked⟩ key
    simp only [allowed, hentries, merged]
    cases hvalue : originCap.keys[key]? with
    | none => cases hval : cap.keys[key]? <;> simp
    | some value =>
      cases hval : cap.keys[key]? with
      | none => simp
      | some val =>
        cases hid : capabilityID key with
        | none => exact fun x hx => ⟨hunchecked key value val hvalue hval hid hx, hx⟩
        | some id =>
          obtain ⟨out, hout⟩ := exists_checkValues hrefused hvalue hval hid
          simp only [hout]
          rw [allows_checkValues hid hout]
          exact (satisfies_checked hid value val).mpr (hchecked key value val id hvalue hval hid)

section Merge

variable {originCap cap : Capability}
  (hfits : MimeIn originCap.mime cap.mime → Fits originCap.keys cap.keys)

include hfits

theorem judged_of_some {resCap : Capability} (h : mergeCapability originCap cap = some resCap) :
    (MimeIn originCap.mime cap.mime → Judged originCap.keys cap.keys) ↔
      Compatible originCap cap ∧
        ∀ key, allowed resCap.keys key ⊆ allowed originCap.keys key ∩ allowed cap.keys key := by
  obtain ⟨hmime, hapart⟩ :=
    (isSome_mergeCapability_iff hfits).mp (Option.isSome_iff_exists.mpr ⟨_, h⟩)
  rw [satisfies_iff h, compatible_iff]
  constructor
  · intro hjudged
    rcases hjudged hmime with ⟨habs, -⟩ | ⟨-, hagrees, hunchecked⟩
    · exact absurd habs hapart
    have hspec {key : Key} {value val : Any} {id : CapabilityID}
        (hvalue : originCap.keys[key]? = some value) (hval : cap.keys[key]? = some val)
        (hid : capabilityID key = some id) :=
      keptAt_of_shared (hfits hmime) hapart ⟨key, value, val, hvalue, hval, hid, rfl, rfl⟩
    have hcommon {key : Key} {value val : Any} {id : CapabilityID}
        (hvalue : originCap.keys[key]? = some value) (hval : cap.keys[key]? = some val)
        (hid : capabilityID key = some id) :=
      (hspec hvalue hval hid).2.mpr
        (hagrees id _ _ ⟨key, value, val, hvalue, hval, hid, rfl, rfl⟩)
    refine ⟨⟨hmime, ?_⟩, fun key value val id hvalue hval hid => hcommon hvalue hval hid,
      fun key value val hvalue hval hid => (hunchecked key value val hvalue hval hid).2⟩
    rintro ⟨key, value, val, hvalue, hval, hempty⟩
    refine Set.Nonempty.ne_empty ?_ hempty
    cases hid : capabilityID key with
    | none =>
      obtain ⟨⟨x, hx⟩, hsubset⟩ := hunchecked key value val hvalue hval hid
      exact ⟨x, hsubset hx, hx⟩
    | some id =>
      obtain ⟨x, hx⟩ := (hspec hvalue hval hid).1
      exact ⟨_, (satisfies_checked hid value val).mpr (hcommon hvalue hval hid) ⟨x, hx, rfl⟩⟩
  · rintro ⟨⟨-, hnocommon⟩, hcommon, hunchecked⟩ -
    refine .inr ⟨hapart, ?_, fun key value val hvalue hval hid => ?_⟩
    · rintro id - - ⟨key, value, val, hvalue, hval, hid, rfl, rfl⟩
      exact (keptAt_of_shared (hfits hmime) hapart
        ⟨key, value, val, hvalue, hval, hid, rfl, rfl⟩).2.mp
          (hcommon key value val id hvalue hval hid)
    · refine ⟨?_, hunchecked key value val hvalue hval hid⟩
      by_contra hempty
      rw [Set.not_nonempty_iff_eq_empty] at hempty
      exact hnocommon ⟨key, value, val, hvalue, hval, by rw [hempty, Set.inter_empty]⟩

theorem judged_of_none (h : mergeCapability originCap cap = none) :
    (MimeIn originCap.mime cap.mime → Judged originCap.keys cap.keys) ↔
      ¬ Compatible originCap cap := by
  have hnot : MimeIn originCap.mime cap.mime → Apart originCap.keys cap.keys := by
    intro hmime
    by_contra hapart
    have hsome := (isSome_mergeCapability_iff hfits).mpr ⟨hmime, hapart⟩
    rw [h] at hsome
    exact Bool.false_ne_true hsome
  rw [compatible_iff, not_and, not_not]
  refine forall_congr' fun hmime => ?_
  have hapart := hnot hmime
  simp [Judged, hapart]

end Merge

-- A set of capabilities

/-- Of every member that fits by its mime, up to the first of which no key is told apart. -/
def UpTo (P : KeyMap → KeyMap → Prop) (originCap : Capability)
    (capabilitySet : List Capability) : Prop :=
  ∀ before cap after, capabilitySet = before ++ cap :: after →
    (∀ other ∈ before, ¬ (MimeIn originCap.mime other.mime ∧ ¬ Apart originCap.keys other.keys)) →
      MimeIn originCap.mime cap.mime → P originCap.keys cap.keys

theorem applied_cons_none {originCap cap : Capability} {capabilitySet : List Capability}
    (h : mergeCapability originCap cap = none) (r : Option Capability) :
    Applied originCap (cap :: capabilitySet) r ↔
      ¬ Compatible originCap cap ∧ Applied originCap capabilitySet r := by
  cases r with
  | none => simp [Applied]
  | some resCap =>
    constructor
    · rintro ⟨before, first, after, hset, hbefore, hcompatible, hmerge, hkeys⟩
      cases before with
      | nil =>
        rw [List.nil_append, List.cons.injEq] at hset
        obtain ⟨rfl, -⟩ := hset
        rw [h] at hmerge
        cases hmerge
      | cons other before =>
        rw [List.cons_append, List.cons.injEq] at hset
        obtain ⟨rfl, hset⟩ := hset
        exact ⟨(hbefore cap List.mem_cons_self).2, before, first, after, hset,
          fun other hmem => hbefore other (List.mem_cons_of_mem cap hmem), hcompatible, hmerge,
          hkeys⟩
    · rintro ⟨hnot, before, first, after, hset, hbefore, hcompatible, hmerge, hkeys⟩
      refine ⟨cap :: before, first, after, by rw [hset, List.cons_append], ?_, hcompatible, hmerge,
        hkeys⟩
      intro other hmem
      rcases List.mem_cons.mp hmem with rfl | hmem
      · exact ⟨h, hnot⟩
      · exact hbefore other hmem

theorem applied_cons_some {originCap cap resCap : Capability} {capabilitySet : List Capability}
    (h : mergeCapability originCap cap = some resCap) :
    Applied originCap (cap :: capabilitySet) (some resCap) ↔
      Compatible originCap cap ∧
        ∀ key, allowed resCap.keys key ⊆ allowed originCap.keys key ∩ allowed cap.keys key := by
  constructor
  · rintro ⟨before, first, after, hset, hbefore, hcompatible, hmerge, hkeys⟩
    cases before with
    | nil =>
      rw [List.nil_append, List.cons.injEq] at hset
      obtain ⟨rfl, -⟩ := hset
      exact ⟨hcompatible, hkeys⟩
    | cons other before =>
      rw [List.cons_append, List.cons.injEq] at hset
      obtain ⟨rfl, -⟩ := hset
      have hnone := (hbefore cap List.mem_cons_self).1
      rw [h] at hnone
      cases hnone
  · rintro ⟨hcompatible, hkeys⟩
    exact ⟨[], cap, capabilitySet, rfl, nofun, hcompatible, h, hkeys⟩

section UpTo

variable {P : KeyMap → KeyMap → Prop} {originCap cap : Capability} {capabilitySet : List Capability}

theorem upTo_cons_none
    (hnot : ¬ (MimeIn originCap.mime cap.mime ∧ ¬ Apart originCap.keys cap.keys)) :
    UpTo P originCap (cap :: capabilitySet) ↔
      (MimeIn originCap.mime cap.mime → P originCap.keys cap.keys) ∧
        UpTo P originCap capabilitySet := by
  constructor
  · intro hupTo
    refine ⟨hupTo [] cap capabilitySet rfl nofun, fun before first after hset hbefore => ?_⟩
    refine hupTo (cap :: before) first after (by rw [hset, List.cons_append]) ?_
    intro other hmem
    rcases List.mem_cons.mp hmem with rfl | hmem
    · exact hnot
    · exact hbefore other hmem
  · rintro ⟨hcap, hupTo⟩ before first after hset hbefore
    cases before with
    | nil =>
      rw [List.nil_append, List.cons.injEq] at hset
      obtain ⟨rfl, -⟩ := hset
      exact hcap
    | cons other before =>
      rw [List.cons_append, List.cons.injEq] at hset
      exact hupTo before first after hset.2
        fun other hmem => hbefore other (List.mem_cons_of_mem _ hmem)

theorem upTo_cons_some (hfound : MimeIn originCap.mime cap.mime ∧ ¬ Apart originCap.keys cap.keys) :
    UpTo P originCap (cap :: capabilitySet) ↔
      (MimeIn originCap.mime cap.mime → P originCap.keys cap.keys) := by
  constructor
  · exact fun hupTo => hupTo [] cap capabilitySet rfl nofun
  · intro hcap before first after hset hbefore
    cases before with
    | nil =>
      rw [List.nil_append, List.cons.injEq] at hset
      obtain ⟨rfl, -⟩ := hset
      exact hcap
    | cons other before =>
      rw [List.cons_append, List.cons.injEq] at hset
      obtain ⟨rfl, -⟩ := hset
      exact absurd hfound (hbefore cap List.mem_cons_self)

end UpTo

/-- **What is applied of a set.** -/
theorem applied_iff {originCap : Capability} {capabilitySet : List Capability}
    (hfits : UpTo Fits originCap capabilitySet) :
    Applied originCap capabilitySet (applyCapabilitySet originCap capabilitySet) ↔
      UpTo Judged originCap capabilitySet := by
  induction capabilitySet with
  | nil =>
    refine iff_of_true nofun ?_
    intro before cap after hset
    simp at hset
  | cons cap capabilitySet ih =>
    have hcap := hfits [] cap capabilitySet rfl nofun
    have hsome := isSome_mergeCapability_iff hcap
    rw [applyCapabilitySet]
    cases hmerge : mergeCapability originCap cap with
    | none =>
      have hnot := (not_congr hsome).mp (by simp [hmerge])
      rw [applied_cons_none hmerge, upTo_cons_none hnot, judged_of_none hcap hmerge,
        ih ((upTo_cons_none hnot).mp hfits).2]
    | some resCap =>
      have hfound := hsome.mp (by simp [hmerge])
      rw [applied_cons_some hmerge, upTo_cons_some hfound, judged_of_some hcap hmerge]

-- Fixing the values of a meta

/-- A value that fixing leaves as it is: neither a range nor a list with a value in it. -/
def Plain {T : Type} : ValueType T → Prop
  | .interval _ _ => False
  | .discrete values => values = []
  | .fixed _ | .other => True

/-- What is picked of two values is allowed by both, and the values of keys that the capability
does not have are plain. -/
structure Fixable (meta' : Meta) (cap : Capability) : Prop where
  picked : ∀ id v1 v2, Shared meta' cap.keys id v1 v2 →
    Picks id.number id.cmpFunc v1 v2
  plain : ∀ (key : Key) value id, meta'[key]? = some value → cap.keys[key]? = none →
    capabilityID key = some id → Plain (value.view id)

section Extract

variable {T : Type} {number : T → Int}

theorem extract_mem {v : ValueType T} {x : T} (h : extractFixedCap v = some x) :
    x ∈ v.denotes number := by
  cases v with
  | fixed value => cases h; rfl
  | interval first second => cases h; exact ⟨min_le_left _ _, le_max_left _ _⟩
  | discrete values => exact List.mem_of_head? h
  | other => cases h

theorem exists_extract {v : ValueType T} (h : (v.denotes number).Nonempty) :
    ∃ x, extractFixedCap v = some x := by
  cases v with
  | fixed value => exact ⟨value, rfl⟩
  | interval first second => exact ⟨first, rfl⟩
  | discrete values =>
    obtain ⟨x, hx⟩ := h
    cases values with
    | nil => exact absurd hx List.not_mem_nil
    | cons first values => exact ⟨first, rfl⟩
  | other => exact absurd h Set.not_nonempty_empty

theorem denotes_of_kept {cmpFunc : T → T → Int32} {v1 v2 : ValueType T}
    (h : (kept number cmpFunc v1 v2).Nonempty) : (v2.denotes number).Nonempty := by
  cases v2 with
  | fixed value => exact ⟨value, rfl⟩
  | interval first second => exact ⟨first, min_le_left _ _, le_max_left _ _⟩
  | discrete values =>
    obtain ⟨x, hx⟩ := h
    cases v1 with
    | fixed v =>
      obtain ⟨-, y, hy, -⟩ := hx
      exact ⟨y, hy⟩
    | interval first second | discrete values' => exact ⟨x, hx.1⟩
    | other => exact absurd hx (Set.notMem_empty x)
  | other =>
    obtain ⟨x, hx⟩ := h
    cases v1 <;> exact absurd hx (Set.notMem_empty x)

end Extract

theorem plain_iff {value : Any} :
    (extract id value).or (some value) = some value ↔ Plain (value.view id) := by
  cases value with
  | of id' v =>
    by_cases heq : id' = id
    · subst heq
      rw [Any.view_of, extract, Any.view_of]
      cases v with
      | fixed x | other => exact iff_of_true rfl trivial
      | interval first second => exact iff_of_false (by simp [extractFixedCap]) not_false
      | discrete values => cases values <;> simp [extractFixedCap, Plain]
    · have hview : (Any.of id' v).view id = .other := dif_neg heq
      rw [extract, hview]
      exact iff_of_true rfl trivial
  | text s | foreign n => exact iff_of_true rfl trivial

theorem ne_mimeTag (hid : capabilityID key = some id) :
    key ≠ mimeTag := by
  rintro rfl
  exact absurd hid (by rw [show capabilityID mimeTag = none by decide]; nofun)

theorem metaKeys_of_id (meta' : Meta)
    (hid : capabilityID key = some id) : (metaKeys meta')[key]? = meta'[key]? := by
  rw [getElem?_metaKeys, hid]
  rfl

theorem shared_metaKeys (meta' : Meta) (keys : KeyMap) :
    Shared (metaKeys meta') keys = Shared meta' keys := by
  funext id v1 v2
  refine propext (exists₃_congr fun key value val => ?_)
  constructor
  · rintro ⟨hvalue, hval, hid, hviews⟩
    exact ⟨metaKeys_of_id meta' hid ▸ hvalue, hval, hid, hviews⟩
  · rintro ⟨hvalue, hval, hid, hviews⟩
    exact ⟨(metaKeys_of_id meta' hid).trans hvalue, hval, hid, hviews⟩

theorem isSome_mergeMeta_iff {meta' : Meta} {cap : Capability}
    (hfits : MimeIn cap.mime cap.mime → Fits meta' cap.keys) :
    (mergeCapability ⟨cap.mime, metaKeys meta'⟩ cap).isSome ↔
      MimeIn cap.mime cap.mime ∧ ¬ Apart meta' cap.keys := by
  unfold Fits Apart at *
  rw [← shared_metaKeys meta'] at *
  exact isSome_mergeCapability_iff hfits

theorem getElem?_insert_mime {meta' : Meta} (h : key ≠ mimeTag) (value : Any) :
    (meta'.insert mimeTag value)[key]? = meta'[key]? := by
  simp [Std.ExtTreeMap.getElem?_insert, Ne.symm h]

section Result

variable {meta' : Meta} {cap : Capability} {resMeta : Meta}
  (h : mergeMetaWithCapability meta' cap = some resMeta)

include h

/-- A key that both sides have. -/
theorem result_shared {value val : Any}
    (hvalue : meta'[key]? = some value) (hval : cap.keys[key]? = some val)
    (hid : capabilityID key = some id) :
    ∃ x, pick id.cmpFunc (value.view id) (val.view id) = some x ∧
      resMeta[key]? = some (single id x) ∧
      (value.view id).Allowed id.flags ∧ (val.view id).Allowed id.flags ∧
      ((val.view id).denotes id.number).Nonempty := by
  obtain ⟨resCap, hmerge, -⟩ := Option.map_eq_some_iff.mp h
  obtain ⟨-, hrefused, -⟩ := mergeCapability_eq_some hmerge
  have hmeta := (metaKeys_of_id meta' hid).trans hvalue
  obtain ⟨out, hout⟩ : ∃ out, checkValues id value val = some out := by
    refine Option.ne_none_iff_exists'.mp fun hnone => hrefused ?_
    exact ⟨key, value, val, id, hmeta, hval, hid, hnone⟩
  obtain ⟨out', hcheck, rfl⟩ := Option.map_eq_some_iff.mp hout
  have hspec := check_spec id (value.view id) (val.view id)
  rw [hcheck] at hspec
  obtain ⟨-, hdenotes, hnonempty, hpick⟩ := hspec
  obtain ⟨x, hx⟩ := exists_extract (hdenotes ▸ hnonempty)
  obtain ⟨y, hallowed1, hallowed2, hy⟩ := hnonempty
  refine ⟨x, hpick ▸ hx, ?_, hallowed1, hallowed2, denotes_of_kept ⟨y, hy⟩⟩
  rw [getElem?_mergeMeta h]
  simp only [merged, hmeta, hval, hid, hout, Option.elim_some, fixedEntry, extract, Any.view_of, hx]
  rfl

theorem result_cap {val : Any} (hvalue : meta'[key]? = none)
    (hval : cap.keys[key]? = some val) (hid : capabilityID key = some id)
    (hnonempty : ((val.view id).denotes id.number).Nonempty) :
    ∃ x ∈ (val.view id).denotes id.number, resMeta[key]? = some (single id x) := by
  have hmeta := (metaKeys_of_id meta' hid).trans hvalue
  obtain ⟨x, hx⟩ := exists_extract hnonempty
  refine ⟨x, extract_mem hx, ?_⟩
  rw [getElem?_mergeMeta h]
  simp only [merged, hmeta, hval, Option.elim_some, fixedEntry, hid, extract, hx]
  rfl

theorem result_meta (hval : cap.keys[key]? = none) (hmime : key ≠ mimeTag) :
    resMeta[key]? = match capabilityID key, meta'[key]? with
      | some id, some value => (extract id value).or (some value)
      | _, old => old := by
  rw [getElem?_mergeMeta h, getElem?_insert_mime hmime]
  cases hid : capabilityID key with
  | none =>
    have hmeta : (metaKeys meta')[key]? = none := by
      rw [getElem?_metaKeys, hid]
      rfl
    simp [merged, hmeta, hval]
  | some id =>
    have hmeta := metaKeys_of_id meta' hid
    cases hvalue : meta'[key]? with
    | none => simp [merged, hmeta, hval, hvalue]
    | some value => simp [merged, hmeta, hval, hvalue, fixedEntry, hid]

/-- **What is fixed of a meta.** -/
theorem fixed_iff (hfits : MimeIn cap.mime cap.mime → Fits meta' cap.keys) :
    Fixed meta' cap resMeta ↔ Fixable meta' cap := by
  obtain ⟨resCap, hmerge, -⟩ := Option.map_eq_some_iff.mp h
  obtain ⟨hmime, hapart⟩ :=
    (isSome_mergeMeta_iff hfits).mp (Option.isSome_iff_exists.mpr ⟨_, hmerge⟩)
  have hpicks {id : CapabilityID} {v1 v2 : ValueType id.Value}
      (hshared : Shared meta' cap.keys id v1 v2) :=
    pick_mem id.narrowed (hfits hmime hapart id v1 v2 hshared)
  constructor
  · rintro ⟨hfixed, hothers⟩
    refine ⟨?_, fun key value id hvalue hval hid => ?_⟩
    · rintro id - - ⟨key, value, val, hvalue, hval, hid, rfl, rfl⟩
      refine (hpicks ⟨key, value, val, hvalue, hval, hid, rfl, rfl⟩).mp fun x hx => ?_
      obtain ⟨y, hy, hres, hallowed, hallowed', hnonempty⟩ := result_shared h hvalue hval hid
      obtain rfl := Option.some.inj (hy.symm.trans hx)
      obtain ⟨z, hz⟩ := hnonempty
      obtain ⟨w, hw, hright, hleft⟩ :=
        hfixed key val id hval hid ⟨single id z, (mem_allows hid).mpr ⟨hallowed', hz⟩⟩
      obtain rfl := single_injective id (Option.some.inj (hres.symm.trans hw))
      exact ⟨((mem_allows hid).mp (hleft value hvalue)).2, ((mem_allows hid).mp hright).2⟩
    · have hkeep := hothers key hval (ne_mimeTag hid)
      rw [result_meta h hval (ne_mimeTag hid), hid, hvalue] at hkeep
      exact plain_iff.mp hkeep
  · rintro ⟨hpicked, hplain⟩
    refine ⟨fun key val id hval hid hnonempty => ?_, fun key hval hmime => ?_⟩
    · cases hvalue : meta'[key]? with
      | none =>
        obtain ⟨y, hy⟩ := hnonempty
        obtain ⟨x, rfl⟩ := allows_eq hid hy
        obtain ⟨hallowed, hx⟩ := (mem_allows hid).mp hy
        obtain ⟨z, hz, hres⟩ := result_cap h hvalue hval hid ⟨x, hx⟩
        exact ⟨z, hres, (mem_allows hid).mpr ⟨hallowed, hz⟩, nofun⟩
      | some value =>
        obtain ⟨x, hx, hres, hallowed, hallowed', -⟩ := result_shared h hvalue hval hid
        have hshared : Shared meta' cap.keys id (value.view id) (val.view id) :=
          ⟨key, value, val, hvalue, hval, hid, rfl, rfl⟩
        obtain ⟨hleft, hright⟩ := (hpicks hshared).mpr (hpicked id _ _ hshared) x hx
        refine ⟨x, hres, (mem_allows hid).mpr ⟨hallowed', hright⟩, ?_⟩
        rintro other hother
        cases hother
        exact (mem_allows hid).mpr ⟨hallowed, hleft⟩
    · rw [result_meta h hval hmime]
      cases hid : capabilityID key with
      | none => rfl
      | some id =>
        cases hvalue : meta'[key]? with
        | none => rfl
        | some value => exact plain_iff.mpr (hplain key value id hvalue hval hid)

end Result

/-- **The negotiations that satisfy both sides.** -/
theorem negotiated_iff (originCap : Capability) (capabilitySet : List Capability) (meta' : Meta)
    (cap : Capability) (hset : UpTo Fits originCap capabilitySet)
    (hmeta : MimeIn cap.mime cap.mime → Fits meta' cap.keys) :
    Negotiated originCap capabilitySet meta' cap ↔
      UpTo Judged originCap capabilitySet ∧
        (MimeIn cap.mime cap.mime ∧ ¬ Apart meta' cap.keys → Fixable meta' cap) := by
  have hsome := isSome_mergeMeta_iff hmeta
  constructor
  · rintro ⟨happlied, hfixed⟩
    refine ⟨(applied_iff hset).mp happlied, fun hmerges => ?_⟩
    obtain ⟨resCap, hmerge⟩ := Option.isSome_iff_exists.mp (hsome.mpr hmerges)
    obtain ⟨resMeta, hres⟩ : ∃ resMeta, mergeMetaWithCapability meta' cap = some resMeta := by
      rw [mergeMetaWithCapability, hmerge]
      exact ⟨_, rfl⟩
    exact (fixed_iff hres hmeta).mp (hfixed resMeta hres)
  · rintro ⟨hjudged, hfixable⟩
    refine ⟨(applied_iff hset).mpr hjudged, fun resMeta hres => ?_⟩
    obtain ⟨resCap, hmerge, -⟩ := Option.map_eq_some_iff.mp hres
    exact (fixed_iff hres hmeta).mpr
      (hfixable (hsome.mp (Option.isSome_iff_exists.mpr ⟨_, hmerge⟩)))

def capWith (mime : String) (key : Key) (value : Any) : Capability :=
  ⟨mime.toList, (∅ : KeyMap).insert key value⟩

theorem shared_capWith {mime mime' : String} {value val : Any}
    {v1 v2 : ValueType id.Value}
    (h : Shared (capWith mime key value).keys (capWith mime' key val).keys id v1 v2) :
    capabilityID key = some id ∧ value.view id = v1 ∧ val.view id = v2 := by
  obtain ⟨key', value', val', hvalue, hval, hid, hv1, hv2⟩ := h
  by_cases hkey : key = key'
  · subst hkey
    simp only [capWith, Std.ExtTreeMap.getElem?_insert_self, Option.some.injEq] at hvalue hval
    exact ⟨hid, hvalue ▸ hv1, hval ▸ hv2⟩
  · simp [capWith, hkey] at hvalue

theorem upTo_single {P : KeyMap → KeyMap → Prop} {originCap cap : Capability}
    (h : P originCap.keys cap.keys) : UpTo P originCap [cap] := by
  intro before other after hset _ _
  have hmem : other ∈ [cap] := by
    rw [hset]
    simp
  obtain rfl := List.mem_singleton.mp hmem
  exact h

theorem apart_of_shared {originKeys otherKeys : KeyMap}
    (h : ∀ id v1 v2, ¬ Shared originKeys otherKeys id v1 v2) :
    Fits originKeys otherKeys ∧ ¬ Apart originKeys otherKeys := by
  refine ⟨fun _ id v1 v2 hshared => absurd hshared (h id v1 v2), ?_⟩
  rintro ⟨id, v1, v2, hshared, -⟩
  exact h id v1 v2 hshared

theorem not_shared_empty {keys : KeyMap} (id : CapabilityID) (v1 v2 : ValueType id.Value) :
    ¬ Shared keys ∅ id v1 v2 := by
  rintro ⟨key, value, val, -, hval, -⟩
  simp at hval

def rates (first second : UInt32) : Capability :=
  capWith "audio/mpeg" 0x30003 (.of .audioSampleRate (.interval first second))

theorem negotiated_iff_rates : Negotiated (rates 8000 48000) [rates 96000 44100]
    (rates 8000 48000).keys (rates 96000 44100) := by
  have hrates {P : (id : CapabilityID) → ValueType id.Value → ValueType id.Value → Prop}
      (hP : P .audioSampleRate (.interval (8000 : UInt32) (48000 : UInt32))
        (.interval (96000 : UInt32) (44100 : UInt32))) (id : CapabilityID)
      (v1 v2 : ValueType id.Value)
      (hshared : Shared (rates 8000 48000).keys (rates 96000 44100).keys id v1 v2) :
      P id v1 v2 := by
    obtain ⟨hid, rfl, rfl⟩ := shared_capWith hshared
    have hkey : capabilityID 0x30003 = some .audioSampleRate := by decide
    obtain rfl := Option.some.inj (hkey.symm.trans hid)
    rwa [Any.view_of, Any.view_of]
  have hfit : Fit (CapabilityID.number .audioSampleRate)
      (.interval (8000 : UInt32) (48000 : UInt32))
      (.interval (96000 : UInt32) (44100 : UInt32)) := by
    unfold Fit InOrder MinRight MaxRight
    decide
  have hlow : LowRight (CapabilityID.number .audioSampleRate) (8000 : UInt32) (48000 : UInt32)
      (96000 : UInt32) (44100 : UInt32) := by
    unfold LowRight MaxRight
    decide
  have htold : ¬ ToldApart (CapabilityID.number .audioSampleRate)
      (CapabilityID.cmpFunc .audioSampleRate) (.interval (8000 : UInt32) (48000 : UInt32))
      (.interval (96000 : UInt32) (44100 : UInt32)) := by
    unfold ToldApart TakenApart
    decide
  have hfits : Fits (rates 8000 48000).keys (rates 96000 44100).keys := fun _ =>
    hrates (P := fun id v1 v2 => Fit id.number v1 v2) hfit
  have hapart : ¬ Apart (rates 8000 48000).keys (rates 96000 44100).keys := by
    rintro ⟨id, v1, v2, hshared, hwhy⟩
    refine hrates (P := fun id v1 v2 => ¬ (¬ (v1.Allowed id.flags ∧ v2.Allowed id.flags) ∨
      Fit id.number v1 v2 ∧ ToldApart id.number id.cmpFunc v1 v2)) ?_ id v1 v2 hshared hwhy
    rintro (hnot | ⟨-, habs⟩)
    · exact hnot ⟨rfl, rfl⟩
    · exact htold habs
  refine (negotiated_iff _ _ _ _ (upTo_single hfits) fun _ => hfits).mpr
    ⟨upTo_single (.inr ⟨hapart, ?_, ?_⟩), fun _ => ⟨?_, ?_⟩⟩
  · exact hrates (P := fun id v1 v2 => Agrees id.number id.cmpFunc v1 v2)
      ⟨hlow, .inl (by unfold MinRight; decide)⟩
  · intro key value val hvalue _ hid
    by_cases hkey : (0x30003 : Key) = key
    · subst hkey
      exact absurd hid (by decide)
    · simp [rates, capWith, hkey] at hvalue
  · exact hrates (P := fun id v1 v2 => Picks id.number id.cmpFunc v1 v2) hlow
  · intro key value id hvalue hval
    by_cases hkey : (0x30003 : Key) = key
    · simp [rates, capWith, hkey] at hval
    · simp [rates, capWith, hkey] at hvalue

/-- The width of a frame has no check: the merge takes it from the other side. A list of stream
formats that the capability says nothing of is replaced by its first. -/
theorem negotiation_breaks :
    ¬ Negotiated (capWith "video/avc" 0x50001 (.foreign 640))
        [capWith "video/avc" 0x50001 (.foreign 1280)] ∅ ⟨[], ∅⟩ ∧
      ¬ Negotiated ⟨[], ∅⟩ [] ((∅ : Meta).insert 0x50008
        (.of .videoBitStreamFormat (.discrete [(1 : UInt32), (2 : UInt32)])))
        ⟨"video/avc".toList, ∅⟩ := by
  have hmime : MimeIn "video/avc".toList "video/avc".toList := isSubsetMime_iff.mp (by decide)
  refine ⟨fun h => ?_, fun h => ?_⟩
  · obtain ⟨hfits, hapart⟩ : Fits (capWith "video/avc" 0x50001 (.foreign 640)).keys
          (capWith "video/avc" 0x50001 (.foreign 1280)).keys ∧ ¬ Apart _ _ := by
      refine apart_of_shared fun id v1 v2 hshared => ?_
      have hid := (shared_capWith hshared).1
      rw [show capabilityID 0x50001 = none by decide] at hid
      cases hid
    have hjudged := ((negotiated_iff _ _ _ _ (upTo_single hfits)
      fun _ => (apart_of_shared not_shared_empty).1).mp h).1 [] _ [] rfl nofun hmime
    rcases hjudged with ⟨habs, -⟩ | ⟨-, -, hunchecked⟩
    · exact hapart habs
    · have hcap (n : Nat) : (capWith "video/avc" 0x50001 (.foreign n)).keys[(0x50001 : Key)]? =
          some (.foreign n) := Std.ExtTreeMap.getElem?_insert_self
      obtain ⟨-, hsubset⟩ := hunchecked 0x50001 (.foreign 640) (.foreign 1280) (hcap 640)
        (hcap 1280) (by decide)
      have hallows (n : Nat) : allows 0x50001 (.foreign n) = {.foreign n} := rfl
      rw [hallows, hallows, Set.singleton_subset_singleton] at hsubset
      cases hsubset
  · obtain ⟨hfits, hapart⟩ := apart_of_shared not_shared_empty
    have hfixable := ((negotiated_iff _ _ _ _ (by rintro before cap after hset; simp at hset)
      fun _ => hfits).mp h).2 ⟨hmime, hapart⟩
    have hplain := hfixable.plain 0x50008 _ .videoBitStreamFormat
      Std.ExtTreeMap.getElem?_insert_self Std.ExtTreeMap.getElem?_empty (by decide)
    rw [Any.view_of] at hplain
    exact absurd hplain (List.cons_ne_nil _ _)

end MediaFoundation.Negotiation
