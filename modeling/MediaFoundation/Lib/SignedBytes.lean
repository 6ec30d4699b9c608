import Mathlib

/-!
# Signed numbers as bytes

A signed number of `w` bytes, least significant byte first, and rows of such
numbers.
-/

namespace SignedBytes

/-- The last `w` bytes of a number. -/
def encode : Nat → Int → List UInt8
  | 0, _ => []
  | w + 1, v => UInt8.ofNat (v % 256).toNat :: encode w (v / 256)

def magnitude : List UInt8 → Int
  | [] => 0
  | b :: bytes => b.toNat + 256 * magnitude bytes

def decode (bytes : List UInt8) : Int :=
  if 2 * magnitude bytes < 256 ^ bytes.length then magnitude bytes
  else magnitude bytes - 256 ^ bytes.length

/-- The numbers of `w` bytes. -/
def InRange (w : Nat) (v : Int) : Prop := -(256 ^ w : Int) ≤ 2 * v ∧ 2 * v < 256 ^ w

-- One number

variable {w : Nat} {v : Int} {bytes : List UInt8}

@[simp] theorem length_encode (w : Nat) (v : Int) : (encode w v).length = w := by
  induction w generalizing v with
  | zero => rfl
  | succ w ih => rw [encode, List.length_cons, ih]

theorem magnitude_mem (bytes : List UInt8) :
    0 ≤ magnitude bytes ∧ magnitude bytes < 256 ^ bytes.length := by
  induction bytes with
  | nil => exact ⟨Int.le_refl 0, Int.zero_lt_one⟩
  | cons b bytes ih =>
    have hb := b.toNat_lt
    rw [magnitude, List.length_cons, pow_succ]
    omega

/-- The remainder of a number, from its last byte and the rest. -/
theorem emod_mul_byte (v : Int) {m : Int} (hm : 0 < m) :
    v % (256 * m) = v % 256 + 256 * (v / 256 % m) := by
  have hv := Int.emod_add_mul_ediv v 256
  have hq := Int.emod_add_mul_ediv (v / 256) m
  have hr := Int.emod_nonneg (v / 256) (Int.ne_of_gt hm)
  have hr' := Int.emod_lt_of_pos (v / 256) hm
  have hsplit : v = v % 256 + 256 * (v / 256 % m) + 256 * m * (v / 256 / m) := by
    linear_combination - hv - 256 * hq
  rw [hsplit, Int.add_mul_emod_self_left, ← hsplit]
  exact Int.emod_eq_of_lt (by omega) (by omega)

theorem magnitude_encode (w : Nat) (v : Int) : magnitude (encode w v) = v % 256 ^ w := by
  induction w generalizing v with
  | zero => rw [encode, magnitude, pow_zero, Int.emod_one]
  | succ w ih =>
    have hbyte : ((UInt8.ofNat (v % 256).toNat).toNat : Int) = v % 256 := by
      rw [UInt8.toNat_ofNat']
      omega
    rw [encode, magnitude, ih, hbyte, pow_succ', emod_mul_byte v (by positivity)]

theorem encode_magnitude (bytes : List UInt8) : encode bytes.length (magnitude bytes) = bytes := by
  induction bytes with
  | nil => rfl
  | cons b bytes ih =>
    have hb := b.toNat_lt
    have hmod : (b.toNat + 256 * magnitude bytes) % 256 = b.toNat := by omega
    have hdiv : (b.toNat + 256 * magnitude bytes) / 256 = magnitude bytes := by omega
    rw [List.length_cons, magnitude, encode, hmod, hdiv, ih, Int.toNat_natCast, UInt8.ofNat_toNat]

theorem encode_emod (w : Nat) (v : Int) : encode w (v % 256 ^ w) = encode w v := by
  have h := encode_magnitude (encode w v)
  rwa [length_encode, magnitude_encode] at h

theorem decode_encode (h : InRange w v) : decode (encode w v) = v := by
  obtain ⟨hlo, hhi⟩ := h
  have hpos : (0 : Int) < 256 ^ w := by positivity
  rw [decode, magnitude_encode, length_encode]
  generalize (256 ^ w : Int) = m at *
  rcases Int.lt_or_le v 0 with hv | hv
  · have hmod : v % m = v + m := by
      rw [← Int.add_emod_right, Int.emod_eq_of_lt (by omega) (by omega)]
    rw [hmod, if_neg (by omega)]
    omega
  · rw [Int.emod_eq_of_lt hv (by omega), if_pos hhi]

theorem encode_decode (bytes : List UInt8) : encode bytes.length (decode bytes) = bytes := by
  rw [decode]
  split
  · exact encode_magnitude bytes
  · rw [← encode_emod, Int.sub_emod_right, encode_emod, encode_magnitude]

theorem inRange_decode (bytes : List UInt8) : InRange bytes.length (decode bytes) := by
  obtain ⟨hlo, hhi⟩ := magnitude_mem bytes
  rw [InRange, decode]
  split
  · omega
  · omega

-- A row of numbers

def encodeAll (w : Nat) (vs : List Int) : List UInt8 := vs.flatMap (encode w)

def decodeAll (w : Nat) : Nat → List UInt8 → List Int
  | 0, _ => []
  | n + 1, bytes => decode (bytes.take w) :: decodeAll w n (bytes.drop w)

theorem encodeAll_cons (w : Nat) (v : Int) (vs : List Int) :
    encodeAll w (v :: vs) = encode w v ++ encodeAll w vs := List.flatMap_cons

@[simp] theorem length_decodeAll (w n : Nat) (bytes : List UInt8) :
    (decodeAll w n bytes).length = n := by
  induction n generalizing bytes with
  | zero => rfl
  | succ n ih => rw [decodeAll, List.length_cons, ih]

@[simp] theorem length_encodeAll (w : Nat) (vs : List Int) :
    (encodeAll w vs).length = vs.length * w := by
  induction vs with
  | nil => simp [encodeAll]
  | cons v vs ih =>
    rw [encodeAll_cons, List.length_append, length_encode, ih, List.length_cons]
    ring

theorem decodeAll_encodeAll {vs : List Int} (h : ∀ v ∈ vs, InRange w v) :
    decodeAll w vs.length (encodeAll w vs) = vs := by
  induction vs with
  | nil => rfl
  | cons v vs ih =>
    have htake : (encodeAll w (v :: vs)).take w = encode w v :=
      List.take_left' (length_encode w v)
    have hdrop : (encodeAll w (v :: vs)).drop w = encodeAll w vs :=
      List.drop_left' (length_encode w v)
    rw [List.length_cons, decodeAll, htake, hdrop, decode_encode (h v List.mem_cons_self),
      ih fun u hu => h u (List.mem_cons_of_mem v hu)]

theorem encodeAll_decodeAll {n : Nat} (h : bytes.length = n * w) :
    encodeAll w (decodeAll w n bytes) = bytes := by
  induction n generalizing bytes with
  | zero =>
    rw [Nat.zero_mul, List.length_eq_zero_iff] at h
    rw [h]
    rfl
  | succ n ih =>
    rw [Nat.succ_mul] at h
    have htake : (bytes.take w).length = w := List.length_take_of_le (by omega)
    have hone := encode_decode (bytes.take w)
    rw [htake] at hone
    have hdrop : (bytes.drop w).length = n * w := by rw [List.length_drop]; omega
    have hrest := ih hdrop
    rw [decodeAll, encodeAll_cons, hone, hrest, List.take_append_drop]

theorem getElem?_decodeAll {n i : Nat} (h : i < n) (bytes : List UInt8) :
    (decodeAll w n bytes)[i]? = some (decode ((bytes.drop (i * w)).take w)) := by
  induction n generalizing bytes i with
  | zero => omega
  | succ n ih =>
    cases i with
    | zero => simp [decodeAll]
    | succ i =>
      rw [decodeAll, List.getElem?_cons_succ, ih (by omega), List.drop_drop, Nat.succ_mul,
        Nat.add_comm w]

theorem inRange_decodeAll {n : Nat} (h : bytes.length = n * w) :
    ∀ v ∈ decodeAll w n bytes, InRange w v := by
  induction n generalizing bytes with
  | zero => intro v hv; cases hv
  | succ n ih =>
    intro v hv
    rw [Nat.succ_mul] at h
    rw [decodeAll] at hv
    rcases List.mem_cons.mp hv with rfl | hv
    · have htake : (bytes.take w).length = w := List.length_take_of_le (by omega)
      have hone := inRange_decode (bytes.take w)
      rwa [htake] at hone
    · have hdrop : (bytes.drop w).length = n * w := by rw [List.length_drop]; omega
      exact ih hdrop v hv

end SignedBytes
