import Mathlib

/-!
# Numbers compared by a narrowed difference

A comparison that returns the difference of two numbers as an `int32_t` orders
them on a circle of `2 ^ 32` numbers: its sign is right for numbers less than
`2 ^ 31` apart, and says nothing about others.
-/

namespace Narrow

def narrow (d : Int) : Int := Int.bmod d (2 ^ 32)

theorem narrow_eq (d : Int) :
    narrow d = if d % 2 ^ 32 < 2 ^ 31 then d % 2 ^ 32 else d % 2 ^ 32 - 2 ^ 32 := by
  unfold narrow
  rw [Int.bmod_def]
  norm_num

theorem narrow_nonneg {d : Int} : 0 ≤ narrow d ↔ d % 2 ^ 32 < 2 ^ 31 := by
  rw [narrow_eq]
  split <;> omega

theorem narrow_nonpos {d : Int} : narrow d ≤ 0 ↔ d % 2 ^ 32 = 0 ∨ 2 ^ 31 ≤ d % 2 ^ 32 := by
  rw [narrow_eq]
  split <;> omega

theorem narrow_eq_zero {d : Int} : narrow d = 0 ↔ d % 2 ^ 32 = 0 := by
  rw [narrow_eq]
  split <;> omega

theorem narrow_of_near {d : Int} (h : |d| < 2 ^ 31) : narrow d = d := by
  rw [abs_lt] at h
  rw [narrow_eq]
  split <;> omega

section Circle

variable {lo hi x : Int}

/-- On the circle `x` is neither before `lo` nor after `hi`: between them, or
opposite to them if the way from `lo` to `hi` is the longer one. -/
def OnArc (lo hi x : Int) : Prop :=
  if (hi - lo) % 2 ^ 32 < 2 ^ 31 then (x - lo) % 2 ^ 32 ≤ (hi - lo) % 2 ^ 32
  else (hi - lo) % 2 ^ 32 - 2 ^ 31 ≤ (x - lo) % 2 ^ 32 ∧ (x - lo) % 2 ^ 32 < 2 ^ 31

instance decidableOnArc : Decidable (OnArc lo hi x) := by
  unfold OnArc
  infer_instance

theorem onArc_iff : OnArc lo hi x ↔ 0 ≤ narrow (x - lo) ∧ narrow (x - hi) ≤ 0 := by
  rw [narrow_nonneg, narrow_nonpos]
  unfold OnArc
  split <;> omega

/-- The one of two that the narrowed difference takes for the greater. -/
def later (x y : Int) : Int := if 0 ≤ narrow (x - y) then x else y

def earlier (x y : Int) : Int := if narrow (x - y) ≤ 0 then x else y

/-- The same with the two put in order first. -/
def OnShort (first second x : Int) : Prop :=
  if (second - first) % 2 ^ 32 ≤ 2 ^ 31 then OnArc first second x else OnArc second first x

theorem onShort_iff {first second : Int} : OnShort first second x ↔
    0 ≤ narrow (x - earlier first second) ∧ narrow (x - later first second) ≤ 0 := by
  rw [narrow_nonneg, narrow_nonpos]
  unfold OnShort OnArc earlier later
  rw [narrow_eq]
  split
  · split <;> split <;> omega
  · split <;> omega

/-- The narrowed difference takes the smaller one for the smaller. -/
def MinRight (x y : Int) : Prop := x ≤ y ↔ narrow (x - y) ≤ 0

def MaxRight (x y : Int) : Prop := y ≤ x ↔ 0 ≤ narrow (x - y)

theorem earlier_eq_min {x y : Int} : earlier x y = min x y ↔ MinRight x y := by
  have hzero : x = y → narrow (x - y) = 0 := by simp +contextual [narrow]
  unfold earlier MinRight
  split <;> omega

theorem later_eq_max {x y : Int} : later x y = max x y ↔ MaxRight x y := by
  have hzero : x = y → narrow (x - y) = 0 := by simp +contextual [narrow]
  unfold later MaxRight
  split <;> omega

theorem min_le_earlier {x y : Int} : min x y ≤ earlier x y := by
  unfold earlier
  split <;> omega

theorem later_le_max {x y : Int} : later x y ≤ max x y := by
  unfold later
  split <;> omega

end Circle

/-- A function that compares values by the narrowed difference of their numbers. -/
structure Narrowed {T : Type*} (number : T → Int) (cmpFunc : T → T → Int32) : Prop where
  injective : Function.Injective number
  toInt_cmp : ∀ a b, (cmpFunc a b).toInt = narrow (number a - number b)

namespace Narrowed

variable {T : Type*} {number : T → Int} {cmpFunc : T → T → Int32} (h : Narrowed number cmpFunc)

include h

theorem cmp_nonneg (a b : T) : 0 ≤ cmpFunc a b ↔ 0 ≤ narrow (number a - number b) := by
  rw [Int32.le_iff_toInt_le, h.toInt_cmp]
  rfl

theorem cmp_nonpos (a b : T) : cmpFunc a b ≤ 0 ↔ narrow (number a - number b) ≤ 0 := by
  rw [Int32.le_iff_toInt_le, h.toInt_cmp]
  rfl

theorem cmp_pos (a b : T) : 0 < cmpFunc a b ↔ 0 < narrow (number a - number b) := by
  rw [Int32.lt_iff_toInt_lt, h.toInt_cmp]
  rfl

theorem cmp_eq_zero (a b : T) : cmpFunc a b = 0 ↔ narrow (number a - number b) = 0 := by
  rw [← Int32.toInt_inj, h.toInt_cmp]
  rfl

/-- A value compares as equal to itself. -/
theorem cmp_self (a : T) : cmpFunc a a = 0 := by
  rw [h.cmp_eq_zero, sub_self]
  rfl

end Narrowed

/-! ## The differences of machine words -/

theorem narrow_congr {d e : Int} (h : d % 2 ^ 32 = e % 2 ^ 32) : narrow d = narrow e := by
  rw [narrow_eq, narrow_eq, h]

theorem toInt_toInt32 (w : UInt32) : w.toInt32.toInt = narrow w.toNat :=
  BitVec.toInt_eq_toNat_bmod w.toBitVec

theorem narrowed_uint32 :
    Narrowed (fun a : UInt32 => (a.toNat : Int)) fun a b => (a - b).toInt32 where
  injective := by
    intro a b hab
    exact UInt32.toNat_inj.mp (Int.ofNat.inj hab)
  toInt_cmp := by
    intro a b
    rw [toInt_toInt32, UInt32.toNat_sub]
    have hb := b.toNat_lt
    exact narrow_congr (by omega)

theorem narrowed_uint64 :
    Narrowed (fun a : UInt64 => (a.toNat : Int)) fun a b => (a - b).toUInt32.toInt32 where
  injective := by
    intro a b hab
    exact UInt64.toNat_inj.mp (Int.ofNat.inj hab)
  toInt_cmp := by
    intro a b
    rw [toInt_toInt32, UInt64.toNat_toUInt32, UInt64.toNat_sub]
    have hb := b.toNat_lt
    exact narrow_congr (by omega)

/-- Bytes are promoted before they are subtracted, so nothing is lost. -/
theorem narrowed_uint8 :
    Narrowed (fun a : UInt8 => (a.toNat : Int)) fun a b =>
      a.toUInt32.toInt32 - b.toUInt32.toInt32 where
  injective := by
    intro a b hab
    exact UInt8.toNat_inj.mp (Int.ofNat.inj hab)
  toInt_cmp := by
    intro a b
    rw [Int32.toInt_sub, toInt_toInt32, toInt_toInt32]
    show narrow (narrow a.toNat - narrow b.toNat) = narrow (a.toNat - b.toNat)
    have ha := a.toNat_lt
    have hb := b.toNat_lt
    have hleft : narrow (a.toNat : Int) = a.toNat := narrow_of_near (by rw [abs_lt]; omega)
    have hright : narrow (b.toNat : Int) = b.toNat := narrow_of_near (by rw [abs_lt]; omega)
    rw [hleft, hright]

theorem narrowed_int64 : Narrowed (fun a : Int64 => a.toInt) fun a b => (a - b).toInt32 where
  injective := by
    intro a b hab
    exact Int64.toInt_inj.mp hab
  toInt_cmp := by
    intro a b
    rw [Int64.toInt_toInt32, Int64.toInt_sub]
    exact Int.bmod_bmod_of_dvd (by norm_num)

end Narrow
