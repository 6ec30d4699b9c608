import Mathlib

/-!
# Bit strings

The bits of a row of bytes, most significant bit of each byte first, and the
number that a row of bits stands for.
-/

namespace BitString

-- Numbers

/-- The number that the bits stand for, the first of them being the highest. -/
def number (bits : List Bool) : Nat := Nat.ofDigits 2 (bits.reverse.map Bool.toNat)

theorem number_append (as bs : List Bool) :
    number (as ++ bs) = number as * 2 ^ bs.length + number bs := by
  rw [number, List.reverse_append, List.map_append, Nat.ofDigits_append, List.length_map,
    List.length_reverse]
  show number bs + 2 ^ bs.length * number as = number as * 2 ^ bs.length + number bs
  rw [Nat.mul_comm, Nat.add_comm]

theorem number_lt (bits : List Bool) : number bits < 2 ^ bits.length := by
  have hdigits : ∀ d ∈ bits.reverse.map Bool.toNat, d < 2 := by
    intro d hd
    obtain ⟨b, -, rfl⟩ := List.mem_map.mp hd
    exact Bool.toNat_lt b
  have hlt := Nat.ofDigits_lt_base_pow_length (by omega) hdigits
  rwa [List.length_map, List.length_reverse] at hlt

/-- The last `w` bits of a number. -/
def bitsOf : Nat → Nat → List Bool
  | 0, _ => []
  | w + 1, n => n.testBit w :: bitsOf w n

@[simp] theorem length_bitsOf (w n : Nat) : (bitsOf w n).length = w := by
  induction w with
  | zero => rfl
  | succ w ih => rw [bitsOf, List.length_cons, ih]

theorem number_bitsOf (w n : Nat) : number (bitsOf w n) = n % 2 ^ w := by
  induction w with
  | zero => rw [pow_zero, Nat.mod_one]; rfl
  | succ w ih =>
    rw [bitsOf, ← List.singleton_append, number_append, length_bitsOf, ih]
    have hbit : number [n.testBit w] = n / 2 ^ w % 2 := by
      rw [Nat.testBit_eq_decide_div_mod_eq]
      rcases Nat.mod_two_eq_zero_or_one (n / 2 ^ w) with h | h <;> rw [h] <;> rfl
    rw [hbit, Nat.pow_succ, Nat.mod_mul, Nat.mul_comm, Nat.add_comm]

theorem bitsOf_drop (w n i : Nat) : (bitsOf w n).drop i = bitsOf (w - i) n := by
  induction w generalizing i with
  | zero => rw [Nat.zero_sub, bitsOf, List.drop_nil]
  | succ w ih =>
    cases i with
    | zero => rfl
    | succ i => rw [bitsOf, List.drop_succ_cons, ih, Nat.succ_sub_succ]

theorem bitsOf_take {w k : Nat} (n : Nat) (h : k ≤ w) :
    (bitsOf w n).take k = bitsOf k (n / 2 ^ (w - k)) := by
  induction w generalizing k with
  | zero =>
    obtain rfl := Nat.le_zero.mp h
    rfl
  | succ w ih =>
    cases k with
    | zero => rfl
    | succ k =>
      rw [bitsOf, List.take_succ_cons, ih (Nat.le_of_succ_le_succ h), bitsOf, Nat.succ_sub_succ,
        ← Nat.shiftRight_eq_div_pow, Nat.testBit_shiftRight, Nat.sub_add_cancel (by omega)]

/-- **Bits from the middle of a number.** -/
theorem number_drop_take {w i k : Nat} (n : Nat) (h : i + k ≤ w) :
    number (((bitsOf w n).drop i).take k) = n / 2 ^ (w - i - k) % 2 ^ k := by
  rw [bitsOf_drop, bitsOf_take n (by omega), number_bitsOf]

-- Bytes

def bytesToBits (bytes : List UInt8) : List Bool := bytes.flatMap fun b => bitsOf 8 b.toNat

@[simp] theorem length_bytesToBits (bytes : List UInt8) :
    (bytesToBits bytes).length = 8 * bytes.length := by
  induction bytes with
  | nil => rfl
  | cons b bytes ih =>
    rw [bytesToBits, List.flatMap_cons, List.length_append, length_bitsOf, List.length_cons]
    rw [bytesToBits] at ih
    omega

theorem bytesToBits_append (as bs : List UInt8) :
    bytesToBits (as ++ bs) = bytesToBits as ++ bytesToBits bs :=
  List.flatMap_append

theorem bytesToBits_drop {bytes : List UInt8} {b : UInt8} {i k : Nat} (hb : bytes[i]? = some b)
    (hk : k ≤ 8) :
    (bytesToBits bytes).drop (8 * i + k) =
      (bitsOf 8 b.toNat).drop k ++ bytesToBits (bytes.drop (i + 1)) := by
  obtain ⟨hi, rfl⟩ := List.getElem?_eq_some_iff.mp hb
  have hsplit : bytes = bytes.take i ++ bytes[i] :: bytes.drop (i + 1) := by
    rw [← List.drop_eq_getElem_cons hi, List.take_append_drop]
  have hlength : (bytesToBits (bytes.take i)).length = 8 * i := by
    rw [length_bytesToBits, List.length_take, Nat.min_eq_left hi.le]
  conv_lhs => rw [hsplit]
  rw [bytesToBits_append, ← hlength, List.drop_length_add_append]
  show (bitsOf 8 bytes[i].toNat ++ bytesToBits (bytes.drop (i + 1))).drop k = _
  exact List.drop_append_of_le_length (by rwa [length_bitsOf])

-- Cursors

structure Cursor where
  bits : List Bool
  position : Nat

namespace Cursor

def remaining (c : Cursor) : Nat := c.bits.length - c.position

def next (c : Cursor) (n : Nat) : Nat := number ((c.bits.drop c.position).take n)

def read? (c : Cursor) (n : Nat) : Option (Nat × Cursor) :=
  if n ≤ c.remaining then some (c.next n, { c with position := c.position + n }) else none

def skip (c : Cursor) (n : Nat) : Cursor := { c with position := c.position + min n c.remaining }

def moveTo (c : Cursor) (p : Nat) : Cursor := { c with position := p }

end Cursor

end BitString
