import Mathlib

/-!
# Machine words

The sums, differences and casts of machine words that stay within their range
are those of the numbers.
-/

namespace Words

theorem toNat_sum {a b : UInt64} (h : a.toNat + b.toNat < 2 ^ 64) :
    (a + b).toNat = a.toNat + b.toNat := by
  rw [UInt64.toNat_add, Nat.mod_eq_of_lt h]

theorem toNat_diff {a b : UInt64} (h : b.toNat ≤ a.toNat) : (a - b).toNat = a.toNat - b.toNat :=
  UInt64.toNat_sub_of_le _ _ (UInt64.le_iff_toNat_le.mpr h)

theorem toNat_min (a b : UInt64) : (min a b).toNat = min a.toNat b.toNat := by
  show (if a ≤ b then a else b).toNat = _
  split
  next hle => exact (Nat.min_eq_left (UInt64.le_iff_toNat_le.mp hle)).symm
  next hlt =>
    rw [UInt64.le_iff_toNat_le, Nat.not_le] at hlt
    exact (Nat.min_eq_right hlt.le).symm

section Casts

variable {n : UInt64}

theorem toInt_toInt32 (h : n.toNat < 2 ^ 31) : n.toUInt32.toInt32.toInt = n.toNat := by
  have hword : n.toUInt32.toBitVec.toNat = n.toNat := by
    show n.toUInt32.toNat = n.toNat
    rw [UInt64.toNat_toUInt32, Nat.mod_eq_of_lt (by omega)]
  rw [← Int32.toInt_toBitVec, UInt32.toBitVec_toInt32, BitVec.toInt_eq_toNat_of_lt (by omega),
    hword]

theorem toInt32_nonneg (h : n.toNat < 2 ^ 31) : 0 ≤ n.toUInt32.toInt32 := by
  rw [Int32.le_iff_toInt_le, toInt_toInt32 h]
  exact Int.natCast_nonneg _

theorem toInt32_pos (h : n.toNat < 2 ^ 31) : 0 < n.toUInt32.toInt32 ↔ 0 < n.toNat := by
  rw [Int32.lt_iff_toInt_lt, toInt_toInt32 h]
  exact Int.natCast_pos

theorem toInt32_min {m : UInt64} (hn : n.toNat < 2 ^ 31) (hm : m.toNat < 2 ^ 31) :
    min n.toUInt32.toInt32 m.toUInt32.toInt32 = (min n m).toUInt32.toInt32 := by
  have hle : n.toUInt32.toInt32 ≤ m.toUInt32.toInt32 ↔ n ≤ m := by
    rw [Int32.le_iff_toInt_le, toInt_toInt32 hn, toInt_toInt32 hm, Nat.cast_le,
      UInt64.le_iff_toNat_le]
  show (if n.toUInt32.toInt32 ≤ m.toUInt32.toInt32 then _ else _) =
    (if n ≤ m then n else m).toUInt32.toInt32
  by_cases h : n ≤ m
  · rw [if_pos h, if_pos (hle.mpr h)]
  · rw [if_neg h, if_neg (mt hle.mp h)]

theorem toInt32_sub {m : UInt64} (hn : n.toNat < 2 ^ 31) (hm : m.toNat ≤ n.toNat) :
    n.toUInt32.toInt32 - m.toUInt32.toInt32 = (n - m).toUInt32.toInt32 := by
  have hdiff := toNat_diff hm
  rw [← Int32.toInt_inj, Int32.toInt_sub, toInt_toInt32 hn, toInt_toInt32 (by omega),
    toInt_toInt32 (by omega), hdiff, ← Nat.cast_sub hm,
    Int.bmod_eq_of_le (by norm_num) (by norm_num; omega)]

/-- And it comes back when the `int32_t` is widened. -/
theorem toUInt64_toInt32 (h : n.toNat < 2 ^ 31) : n.toUInt32.toInt32.toInt64.toUInt64 = n := by
  have hwide : n.toUInt32.toInt32.toInt64.toInt = n.toNat := by
    rw [Int32.toInt_toInt64, toInt_toInt32 h]
  have hbits : n.toUInt32.toInt32.toInt64.toUInt64.toNat =
      n.toUInt32.toInt32.toInt64.toBitVec.toNat := rfl
  rw [← Int64.toInt_toBitVec, BitVec.toInt_eq_toNat_cond] at hwide
  refine UInt64.toNat_inj.mp ?_
  split at hwide <;> omega

theorem toInt_toInt64 (n : UInt64) :
    n.toInt64.toInt = if n.toNat < 2 ^ 63 then (n.toNat : Int) else n.toNat - 2 ^ 64 := by
  show n.toBitVec.toInt = _
  rw [BitVec.toInt_eq_toNat_cond]
  show (if 2 * n.toNat < 2 ^ 64 then (n.toNat : Int) else n.toNat - (2 ^ 64 : Nat)) = _
  split <;> split <;> omega

theorem toInt64_neg : n.toInt64 < 0 ↔ 2 ^ 63 ≤ n.toNat := by
  have hlt := n.toNat_lt
  rw [Int64.lt_iff_toInt_lt, toInt_toInt64]
  show _ < (0 : Int) ↔ _
  split <;> omega

/-- A negative `int32_t` is widened to a number above all the positive ones. -/
theorem toUInt64_of_neg {m : Int32} (h : m < 0) : 2 ^ 63 ≤ m.toInt64.toUInt64.toNat := by
  rw [← toInt64_neg, Int64.toInt64_toUInt64, Int64.lt_iff_toInt_lt, Int32.toInt_toInt64]
  exact Int32.lt_iff_toInt_lt.mp h

theorem toNatClampNeg_toInt64 (h : n.toNat < 2 ^ 63) : n.toInt64.toNatClampNeg = n.toNat := by
  rw [Int64.toNatClampNeg, toInt_toInt64, if_pos h]
  rfl

theorem toInt32_toInt64_eq (n : UInt64) : n.toInt64.toInt32 = -1 ↔ n.toUInt32 = -1 := by
  rw [← Int32.toBitVec_inj, ← UInt32.toBitVec_inj, Int64.toBitVec_toInt32,
    UInt64.toBitVec_toUInt32, UInt64.toBitVec_toInt64,
    BitVec.signExtend_eq_setWidth_of_le _ (by omega)]
  exact Iff.rfl

end Casts

end Words
