import Mathlib

/-!
# Episodes of an observed value

Something has a value of interest or none, and is observed from time to time:
each observation says at which time which value holds from then on. An episode
is a longest stretch of observations in which one value holds. Whoever keeps
the value that holds now and the time since when can tell, at each observation,
which episode ends and how long it was.
-/

namespace Episodes

variable {V : Type*}

structure Obs (V : Type*) where
  time : Nat
  value : Option V
  deriving DecidableEq

/-- The value that holds, and since when. -/
abbrev Current (V : Type*) := Option (V × Nat)

section Reports

variable [DecidableEq V]

def observe (cur : Current V) (o : Obs V) : Current V :=
  if cur.map Prod.fst = o.value then cur else o.value.map fun v => (v, o.time)

/-- The value of the episode that an observation ends, and its length. -/
def ended (cur : Current V) (o : Obs V) : Option (V × Nat) :=
  if cur.map Prod.fst = o.value then none else cur.map fun e => (e.1, o.time - e.2)

/-- What is told at an observation: the episode that it ends, if it is worth it. -/
def report (worth : V → Nat → Bool) (cur : Current V) (o : Obs V) : List (V × Nat) :=
  (ended cur o).toList.filter fun r => worth r.1 r.2

def reports (worth : V → Nat → Bool) : Current V → List (Obs V) → List (List (V × Nat))
  | _, [] => []
  | cur, o :: os => report worth cur o :: reports worth (observe cur o) os

end Reports

-- What counting once means

variable (obs : List (Obs V))

def timeAt (n : Nat) : Nat := (obs[n]?.map Obs.time).getD 0

def valueBefore : Nat → Option V
  | 0 => none
  | n + 1 => obs[n]?.bind Obs.value

structure HoldsBetween (v : V) (i j : Nat) : Prop where
  lt : i < j
  lt_length : j < obs.length
  holds : ∀ n, i ≤ n → n < j → valueBefore obs (n + 1) = some v

def toldAt (told : List (List (V × Nat))) (n : Nat) : List (V × Nat) := told[n]?.getD []

/-- Everything told is the length of a stretch in which its value held, the stretches are
disjoint, and every episode worth telling is told when it ends. -/
structure CountedOnce (worth : V → Nat → Bool) (told : List (List (V × Nat))) : Prop where
  stretches : ∃ start : Nat → Nat,
    (∀ j, ∀ r ∈ toldAt told j, HoldsBetween obs r.1 (start j) j ∧
      r.2 = timeAt obs j - timeAt obs (start j)) ∧
    ∀ j j', j < j' → toldAt told j ≠ [] → toldAt told j' ≠ [] → j ≤ start j'
  once : ∀ j, (toldAt told j).length ≤ 1
  complete : ∀ v i j, HoldsBetween obs v i j → valueBefore obs i ≠ some v →
    valueBefore obs (j + 1) ≠ some v → worth v (timeAt obs j - timeAt obs i) = true →
    (v, timeAt obs j - timeAt obs i) ∈ toldAt told j

-- The beginning of an episode

variable [DecidableEq V]

/-- The observation that began the value that holds just before observation `n`. -/
def began : Nat → Nat
  | 0 => 0
  | n + 1 => if valueBefore obs (n + 1) = valueBefore obs n then began n else n

attribute [local grind =] valueBefore began reports

theorem began_le (n : Nat) : began obs n ≤ n := by
  induction n with
  | zero => exact Nat.le_refl 0
  | succ n ih =>
    rw [began]
    split
    · omega
    · omega

theorem began_mono {m n : Nat} (h : m ≤ n) : began obs m ≤ began obs n := by
  induction n, h using Nat.le_induction with
  | base => exact Nat.le_refl _
  | succ n hmn ih =>
    rw [began]
    split
    · exact ih
    · exact (began_le obs m).trans hmn

theorem valueBefore_of_began {n k : Nat} (hlo : began obs n ≤ k) (hhi : k < n) :
    valueBefore obs (k + 1) = valueBefore obs n := by
  induction n with
  | zero => omega
  | succ n ih =>
    rw [began] at hlo
    split at hlo
    case isTrue hsame =>
      rcases Nat.lt_succ_iff_lt_or_eq.mp hhi with hk | rfl
      · exact (ih hlo hk).trans hsame.symm
      · rfl
    case isFalse hne =>
      obtain rfl : k = n := by omega
      rfl

theorem began_lt {n : Nat} {v : V} (h : valueBefore obs n = some v) : began obs n < n := by
  induction n with
  | zero => cases h
  | succ n ih =>
    rw [began]
    split
    case isTrue hsame => exact (ih (hsame ▸ h)).trans (Nat.lt_succ_self n)
    case isFalse => exact Nat.lt_succ_self n

/-- A stretch that nothing precedes begins its episode. -/
theorem began_of_holds {v : V} {i j : Nat} (h : HoldsBetween obs v i j)
    (hbefore : valueBefore obs i ≠ some v) : began obs j = i := by
  have hlt := h.lt
  have hall : ∀ n, i ≤ n → n < j → began obs (n + 1) = i := by
    intro n hin
    induction n, hin using Nat.le_induction with
    | base =>
      intro hj
      rw [began, h.holds i (Nat.le_refl i) hj, if_neg (fun heq => hbefore heq.symm)]
    | succ n hin ih =>
      intro hj
      rw [began, h.holds (n + 1) (by omega) hj, h.holds n hin (by omega), if_pos rfl]
      exact ih (by omega)
  obtain ⟨n, rfl⟩ : ∃ n, j = n + 1 := ⟨j - 1, by omega⟩
  exact hall n (by omega) (Nat.lt_succ_self n)

-- Keeping the value and the time

def currentBefore (n : Nat) : Current V := (obs.take n).foldl observe none

theorem currentBefore_succ {n : Nat} {o : Obs V} (h : obs[n]? = some o) :
    currentBefore obs (n + 1) = observe (currentBefore obs n) o := by
  unfold currentBefore
  rw [List.take_add_one, h, Option.toList_some, List.foldl_append, List.foldl_cons, List.foldl_nil]

/-- The value kept is the one that holds, the time kept is the one at which it began. -/
theorem currentBefore_eq {n : Nat} (hn : n ≤ obs.length) :
    currentBefore obs n = (valueBefore obs n).map fun v => (v, timeAt obs (began obs n)) := by
  induction n with
  | zero => rfl
  | succ n ih =>
    have hget := List.getElem?_eq_getElem (show n < obs.length by omega)
    have hfst : (currentBefore obs n).map Prod.fst = valueBefore obs n := by
      rw [ih (by omega), Option.map_map]
      exact Option.map_id'
    have hvalue : valueBefore obs (n + 1) = obs[n].value := by
      rw [valueBefore, hget]
      rfl
    rw [currentBefore_succ obs hget, observe, hfst, began, hvalue]
    by_cases hsame : valueBefore obs n = obs[n].value
    · rw [if_pos hsame, if_pos hsame.symm, ih (by omega), hsame]
    · rw [if_neg hsame, if_neg (fun heq => hsame heq.symm)]
      have htime : timeAt obs n = obs[n].time := by
        unfold timeAt
        rw [hget]
        rfl
      rw [htime]

theorem getElem?_reports (worth : V → Nat → Bool) (cur : Current V) (n : Nat) :
    (reports worth cur obs)[n]? =
      obs[n]?.map fun o => report worth ((obs.take n).foldl observe cur) o := by
  induction obs generalizing cur n with
  | nil => rfl
  | cons o obs ih =>
    cases n with
    | zero => rfl
    | succ n =>
      rw [reports, List.getElem?_cons_succ, List.getElem?_cons_succ, ih]
      rfl

variable {obs}

theorem mem_toldAt_reports {worth : V → Nat → Bool} {j : Nat} {r : V × Nat} :
    r ∈ toldAt (reports worth none obs) j ↔
      j < obs.length ∧ valueBefore obs j = some r.1 ∧ valueBefore obs (j + 1) ≠ some r.1 ∧
        r.2 = timeAt obs j - timeAt obs (began obs j) ∧ worth r.1 r.2 = true := by
  unfold toldAt
  rw [getElem?_reports]
  by_cases hj : j < obs.length
  · have hget := List.getElem?_eq_getElem hj
    have hvalue : valueBefore obs (j + 1) = obs[j].value := by
      rw [valueBefore, hget]
      rfl
    have htime : timeAt obs j = obs[j].time := by
      unfold timeAt
      rw [hget]
      rfl
    have hcur : (obs.take j).foldl observe none = _ := currentBefore_eq obs (Nat.le_of_lt hj)
    rw [hget, Option.map_some, Option.getD_some, report, hcur, ended, List.mem_filter,
      Option.mem_toList, hvalue, htime]
    cases hbefore : valueBefore obs j with
    | none => simp
    | some v =>
      simp only [Option.map_some]
      split
      case isTrue hsame =>
        constructor
        · rintro ⟨h, -⟩
          cases h
        · rintro ⟨-, hv, hne, -⟩
          exact absurd (hsame ▸ hv) hne
      case isFalse hne =>
        rw [Option.some.injEq]
        constructor
        · rintro ⟨rfl, hworth⟩
          exact ⟨hj, rfl, fun heq => hne heq.symm, rfl, hworth⟩
        · rintro ⟨-, hv, -, hd, hworth⟩
          exact ⟨Prod.ext (Option.some.inj hv) hd.symm, hworth⟩
  · rw [List.getElem?_eq_none (Nat.le_of_not_lt hj)]
    simp [hj]

/-- Telling the ended episodes counts every one of them once. -/
theorem countedOnce_reports (worth : V → Nat → Bool) :
    CountedOnce obs worth (reports worth none obs) where
  stretches := by
    refine ⟨began obs, fun j r hr => ?_, fun j j' hlt hj _ => ?_⟩
    · obtain ⟨hj, hvalue, -, hlength, -⟩ := mem_toldAt_reports.mp hr
      exact ⟨⟨began_lt obs hvalue, hj,
        fun n hlo hhi => (valueBefore_of_began obs hlo hhi).trans hvalue⟩, hlength⟩
    · obtain ⟨r, hr⟩ := List.exists_mem_of_ne_nil _ hj
      obtain ⟨-, hvalue, hends, -⟩ := mem_toldAt_reports.mp hr
      -- the observation that ends an episode begins what comes next
      have hbegan : began obs (j + 1) = j := by
        rw [began, if_neg]
        rw [hvalue]
        exact hends
      exact hbegan ▸ began_mono obs hlt
  once := by
    intro j
    unfold toldAt
    rw [getElem?_reports]
    cases obs[j]? with
    | none => exact Nat.zero_le 1
    | some o =>
      refine (List.length_filter_le _ _).trans ?_
      cases ended ((obs.take j).foldl observe none) o with
      | none => exact Nat.zero_le 1
      | some r => exact Nat.le_refl 1
  complete := by
    intro v i j h hbefore hends hworth
    have hbegan := began_of_holds obs h hbefore
    have hlt := h.lt
    have hvalue : valueBefore obs j = some v := by
      obtain ⟨n, rfl⟩ : ∃ n, j = n + 1 := ⟨j - 1, by omega⟩
      exact h.holds n (by omega) (Nat.lt_succ_self n)
    exact mem_toldAt_reports.mpr ⟨h.lt_length, hvalue, hends, by rw [hbegan], hworth⟩

end Episodes
