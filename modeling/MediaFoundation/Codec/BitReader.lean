import MediaFoundation.Lib.BitString
import MediaFoundation.Codec.AvcConversion

/-!
# BitReader

The rest of `bit_reader.h` and `bit_reader.cpp`, and the reader as a cursor over the bits of its
buffer. The place of the reader is a byte and the number of bits of it that have not been read, so
a boundary between two bytes has two forms: no bit left of the byte before it, or all eight bits
left of the byte behind it.
-/

namespace MediaFoundation.AvcConfig

open BitString (Cursor bytesToBits bitsOf number)

namespace BitReader

-- The other calls

def peekBits (r : BitReader) (width bits : Nat) : Option (Option Nat) :=
  (r.readBits width bits).map Prod.fst

def seekTo (r : BitReader) (bitPos : Nat) : Bool × BitReader :=
  let bytePos := bitPos / 8
  if r.buffer.length ≤ bytePos then (false, r)
  else
    let bits := bitPos % 8
    (true, { r with cur := bytePos, availBits := 8 - bits }.skipBits bits)

def reset (buffer : List UInt8) : BitReader := { buffer }

/-- A call; a variable that is read into is as wide as the bits asked for, at least. -/
inductive Call where
  | readBits (width bits : Nat) (fits : bits ≤ width)
  | peekBits (width bits : Nat) (fits : bits ≤ width)
  | skipBits (bits : Nat)
  | seekTo (bitPos : Nat)

/-- What a call answers; a variable that is read into holds `val`, or what it held before. -/
inductive Answer where
  | read (val : Option Nat)
  | skipped
  | sought (found : Bool)
deriving DecidableEq

def call (r : BitReader) : Call → Option (Answer × BitReader)
  | .readBits width bits _ => (r.readBits width bits).map fun x => (.read x.1, x.2)
  | .peekBits width bits _ => (r.peekBits width bits).map fun val => (.read val, r)
  | .skipBits bits => some (.skipped, r.skipBits bits)
  | .seekTo bitPos => some (.sought (r.seekTo bitPos).1, (r.seekTo bitPos).2)

def answers (r : BitReader) : List Call → Option (List (Answer × Nat))
  | [] => some []
  | c :: cs => (r.call c).bind fun x =>
    (x.2.answers cs).map fun rest => (x.1, x.2.getAvailableBits) :: rest

-- The cursor

def cursorCall (c : Cursor) : Call → Answer × Cursor
  | .readBits _ bits _ =>
    match c.read? bits with
    | some (val, c') => (.read (some val), c')
    | none => (.read none, c)
  | .peekBits _ bits _ => (.read ((c.read? bits).map Prod.fst), c)
  | .skipBits bits => (.skipped, c.skip bits)
  | .seekTo bitPos =>
    if bitPos < c.bits.length then (.sought true, c.moveTo bitPos) else (.sought false, c)

def cursorAnswers (c : Cursor) : List Call → List (Answer × Nat)
  | [] => []
  | k :: ks =>
    ((cursorCall c k).1, (cursorCall c k).2.remaining) :: cursorAnswers (cursorCall c k).2 ks

structure At (c : Cursor) (r : BitReader) : Prop where
  bits : c.bits = bytesToBits r.buffer
  place : (r.Inside ∧ c.position = r.pos) ∨
    (r.cur = r.buffer.length ∧ c.position = 8 * r.buffer.length)

variable {c : Cursor} {r : BitReader}

theorem At.length (h : At c r) : c.bits.length = 8 * r.buffer.length := by
  rw [h.bits, BitString.length_bytesToBits]

theorem At.available (h : At c r) : r.getAvailableBits = c.remaining := by
  rw [Cursor.remaining, h.length]
  obtain ⟨hin, hpos⟩ | ⟨hend, hpos⟩ := h.place
  · rw [getAvailableBits_eq hin, hpos]
  · rw [getAvailableBits, if_neg (not_not.mpr hend), hpos, Nat.sub_self]

theorem at_reset (buffer : List UInt8) : At ⟨bytesToBits buffer, 0⟩ (reset buffer) := by
  refine ⟨rfl, ?_⟩
  rcases Nat.eq_zero_or_pos buffer.length with hzero | hpos
  · exact .inr ⟨hzero.symm, by show 0 = 8 * buffer.length; omega⟩
  · exact .inl ⟨⟨Nat.le_refl 8, hpos⟩, rfl⟩

-- Reading

theorem at_refill (h : At c r) (hmore : 0 < c.remaining) :
    ∃ r₁ : BitReader,
      (if r.availBits = 0 then { r with cur := r.cur + 1, availBits := 8 } else r) = r₁ ∧
        r₁.buffer = r.buffer ∧ r₁.Inside ∧ 0 < r₁.availBits ∧ c.position = r₁.pos := by
  rw [Cursor.remaining, h.length] at hmore
  obtain ⟨hin, hpos⟩ | ⟨-, hpos⟩ := h.place
  · have hcur := hin.cur
    have havail := hin.avail
    have hplace : r.pos = 8 * r.cur + 8 - r.availBits := rfl
    by_cases hzero : r.availBits = 0
    · rw [if_pos hzero]
      refine ⟨_, rfl, rfl, ⟨Nat.le_refl 8, ?_⟩, Nat.succ_pos 7, ?_⟩
      · show r.cur + 1 < r.buffer.length
        omega
      · show c.position = 8 * (r.cur + 1) + 8 - 8
        omega
    · rw [if_neg hzero]
      exact ⟨r, rfl, rfl, hin, Nat.pos_of_ne_zero hzero, hpos⟩
  · omega

theorem shift_mask (b shift : Nat) {k : Nat} (hk : k ≤ 8) :
    b >>> shift &&& 0xFF >>> (8 - k) = b / 2 ^ shift % 2 ^ k := by
  have hmask : 0xFF >>> (8 - k) = 2 ^ k - 1 := by
    interval_cases k <;> rfl
  rw [hmask, Nat.and_two_pow_sub_one_eq_mod, Nat.shiftRight_eq_div_pow]

/-- What is read in two parts. -/
theorem next_add (c : Cursor) {k m : Nat} (h : k + m ≤ c.remaining) :
    c.next (k + m) = c.next k * 2 ^ m + (Cursor.next { c with position := c.position + k } m) := by
  rw [Cursor.next, List.take_add, BitString.number_append, List.drop_drop]
  have hlength : (((c.bits.drop (c.position + k))).take m).length = m := by
    rw [List.length_take, List.length_drop]
    rw [Cursor.remaining] at h
    omega
  rw [hlength]
  rfl

theorem next_byte {b : UInt8} {k : Nat} (hbits : c.bits = bytesToBits r.buffer) (hin : r.Inside)
    (hpos : c.position = r.pos) (hb : r.buffer[r.cur]? = some b) (hk : k ≤ r.availBits) :
    c.next k = b.toNat / 2 ^ (r.availBits - k) % 2 ^ k := by
  have havail := hin.avail
  have hplace : c.position = 8 * r.cur + (8 - r.availBits) := by
    rw [hpos, pos]
    omega
  rw [Cursor.next, hbits, hplace, BitString.bytesToBits_drop hb (by omega),
    List.take_append_of_le_length (by rw [List.length_drop, BitString.length_bitsOf]; omega),
    BitString.number_drop_take _ (by omega)]
  congr 3
  omega

theorem append_mod (val a b k m n : Nat) :
    ((val * 2 ^ k + a) % n * 2 ^ m + b) % n = (val * 2 ^ (k + m) + (a * 2 ^ m + b)) % n := by
  rw [Nat.add_mod, Nat.mod_mul_mod, ← Nat.add_mod]
  congr 1
  ring

/-- **The loop of `ReadBits`.** The bits that are read follow what is in the variable. -/
theorem readLoop_spec {width : Nat} (fuel : Nat) {remainBits val : Nat} (h : At c r)
    (hfuel : remainBits ≤ fuel) (hmore : remainBits ≤ c.remaining) (hval : val < 2 ^ width) :
    ∃ r' : BitReader, readLoop width fuel r remainBits val =
        some ((val * 2 ^ remainBits + c.next remainBits) % 2 ^ width, r') ∧
      At { c with position := c.position + remainBits } r' := by
  have hdone : ∀ (c : Cursor) (val : Nat), val < 2 ^ width →
      (val * 2 ^ 0 + c.next 0) % 2 ^ width = val := by
    intro c val hval
    rw [pow_zero, Nat.mul_one]
    show (val + 0) % 2 ^ width = val
    exact Nat.mod_eq_of_lt hval
  induction fuel generalizing c r remainBits val with
  | zero =>
    obtain rfl := Nat.le_zero.mp hfuel
    exact ⟨r, by rw [readLoop, hdone c val hval], h⟩
  | succ fuel ih =>
    rw [readLoop]
    split
    next hzero =>
      subst hzero
      exact ⟨r, by rw [hdone c val hval], h⟩
    next hpos =>
      obtain ⟨r₁, hr₁, hbuffer, hin, havail, hplace⟩ := at_refill h (by omega)
      simp only [hr₁]
      obtain ⟨b, hb⟩ : ∃ b, r₁.buffer[r₁.cur]? = some b :=
        ⟨_, List.getElem?_eq_getElem hin.cur⟩
      have hbits : c.bits = bytesToBits r₁.buffer := by rw [hbuffer, h.bits]
      have hle := hin.avail
      obtain ⟨k, hk⟩ : ∃ k, min remainBits r₁.availBits = k := ⟨_, rfl⟩
      have hk₁ : k ≤ remainBits := hk ▸ Nat.min_le_left _ _
      have hk₂ : k ≤ r₁.availBits := hk ▸ Nat.min_le_right _ _
      have hk₀ : 0 < k := by omega
      rw [hb, Option.bind_some, hk, shift_mask _ _ (by omega), ← next_byte hbits hin hplace hb hk₂]
      have hlow : c.next k < 2 ^ k := by
        rw [next_byte hbits hin hplace hb hk₂]
        exact Nat.mod_lt _ (Nat.two_pow_pos k)
      rw [← Nat.shiftLeft_add_eq_or_of_lt hlow, Nat.shiftLeft_eq]
      have hat : At { c with position := c.position + k }
          { r₁ with availBits := r₁.availBits - k } := by
        refine ⟨hbits, .inl ⟨⟨show r₁.availBits - k ≤ 8 by omega, hin.cur⟩, ?_⟩⟩
        show c.position + k = 8 * r₁.cur + 8 - (r₁.availBits - k)
        rw [hplace, pos]
        omega
      have hremaining : Cursor.remaining { c with position := c.position + k } =
          c.remaining - k := by
        rw [Cursor.remaining, Cursor.remaining]
        show c.bits.length - (c.position + k) = _
        omega
      obtain ⟨r', hrest, hat'⟩ := ih hat (show remainBits - k ≤ fuel by omega)
        (by rw [hremaining]; omega) (Nat.mod_lt (val * 2 ^ k + c.next k) (Nat.two_pow_pos width))
      refine ⟨r', ?_, ?_⟩
      · rw [hrest, append_mod, ← next_add c (by omega), Nat.add_sub_cancel' hk₁]
      · rwa [show c.position + k + (remainBits - k) = c.position + remainBits by omega] at hat'

theorem readBits_spec (h : At c r) {width bits : Nat} (hfits : bits ≤ width) :
    (c.read? bits = none ∧ r.readBits width bits = some (none, r)) ∨
      ∃ val c' r', c.read? bits = some (val, c') ∧ r.readBits width bits = some (some val, r') ∧
        At c' r' := by
  by_cases hmore : bits ≤ c.remaining
  · have hzero : 0 < 2 ^ width := Nat.two_pow_pos width
    obtain ⟨r', hloop, hat⟩ := readLoop_spec bits h (Nat.le_refl bits) hmore hzero
    refine .inr ⟨_, _, r', by rw [Cursor.read?, if_pos hmore], ?_, hat⟩
    have hlt : c.next bits < 2 ^ width := by
      refine (BitString.number_lt _).trans_le (Nat.pow_le_pow_right (by omega) ?_)
      exact (List.length_take_le _ _).trans hfits
    rw [readBits, h.available, if_neg (by omega), hloop, Nat.zero_mul, Nat.zero_add,
      Nat.mod_eq_of_lt hlt]
    rfl
  · refine .inl ⟨by rw [Cursor.read?, if_neg hmore], ?_⟩
    rw [readBits, h.available, if_pos (by omega)]

-- Skipping and seeking

theorem at_skipBits (h : At c r) (bits : Nat) : At (c.skip bits) (r.skipBits bits) := by
  have hremaining : c.remaining = 8 * r.buffer.length - c.position := by
    rw [Cursor.remaining, h.length]
  have hskip : (c.skip bits).position = c.position + min bits c.remaining := rfl
  unfold skipBits
  split
  next hwithin =>
    refine ⟨h.bits, ?_⟩
    obtain ⟨hin, hpos⟩ | ⟨hend, hpos⟩ := h.place
    · have hcur := hin.cur
      have havail := hin.avail
      refine .inl ⟨⟨show r.availBits - bits ≤ 8 by omega, hcur⟩, ?_⟩
      show (c.skip bits).position = 8 * r.cur + 8 - (r.availBits - bits)
      rw [pos] at hpos
      omega
    · refine .inr ⟨hend, ?_⟩
      show (c.skip bits).position = 8 * r.buffer.length
      omega
  next hbeyond =>
    dsimp only
    split
    next hend =>
      refine ⟨h.bits, .inr ⟨rfl, ?_⟩⟩
      show (c.skip bits).position = 8 * r.buffer.length
      obtain ⟨hin, hpos⟩ | ⟨-, hpos⟩ := h.place
      · have hcur := hin.cur
        have havail := hin.avail
        rw [pos] at hpos
        omega
      · omega
    next hinner =>
      refine ⟨h.bits, .inl ⟨⟨?_, Nat.not_le.mp hinner⟩, ?_⟩⟩
      · show 8 - (bits - r.availBits) % 8 ≤ 8
        omega
      · show (c.skip bits).position = 8 * (r.cur + (1 + (bits - r.availBits) / 8)) + 8 -
          (8 - (bits - r.availBits) % 8)
        obtain ⟨hin, hpos⟩ | ⟨hend, hpos⟩ := h.place
        · have havail := hin.avail
          rw [pos] at hpos
          omega
        · omega

/-- **The bits in front of a position are skipped twice**, once by the byte that the reader is set
to and once more. -/
theorem at_seekTo (h : At c r) (bitPos : Nat) :
    (8 * r.buffer.length ≤ bitPos ∧ r.seekTo bitPos = (false, r)) ∨
      (bitPos < 8 * r.buffer.length ∧ (r.seekTo bitPos).1 = true ∧
        At ((c.moveTo bitPos).skip (bitPos % 8)) (r.seekTo bitPos).2) := by
  unfold seekTo
  dsimp only
  split
  next hbeyond => exact .inl ⟨by omega, rfl⟩
  next hinside =>
    have hin : Inside { r with cur := bitPos / 8, availBits := 8 - bitPos % 8 } :=
      ⟨show 8 - bitPos % 8 ≤ 8 by omega, Nat.not_le.mp hinside⟩
    have hat : At (c.moveTo bitPos) { r with cur := bitPos / 8, availBits := 8 - bitPos % 8 } := by
      refine ⟨h.bits, .inl ⟨hin, ?_⟩⟩
      show bitPos = 8 * (bitPos / 8) + 8 - (8 - bitPos % 8)
      omega
    exact .inr ⟨by omega, rfl, at_skipBits hat _⟩

-- Sequences of calls

/-- The cursor as the reader moves it: a position that is found is passed by its bits in a byte. -/
def moved (c : Cursor) : Call → Cursor
  | .seekTo bitPos =>
    if bitPos < c.bits.length then (c.moveTo bitPos).skip (bitPos % 8) else c
  | k => (cursorCall c k).2

/-- **One call** answers as it is meant to; only the place after a seek may differ. -/
theorem call_spec (h : At c r) (k : Call) :
    ∃ r' : BitReader, r.call k = some ((cursorCall c k).1, r') ∧ At (moved c k) r' := by
  cases k with
  | readBits width bits fits =>
    obtain ⟨hnone, hread⟩ | ⟨val, c', r', hsome, hread, hat⟩ := readBits_spec h fits
    · refine ⟨r, ?_, ?_⟩
      · rw [call, hread, cursorCall, hnone]
        rfl
      · show At (cursorCall c (.readBits width bits fits)).2 r
        rwa [cursorCall, hnone]
    · refine ⟨r', ?_, ?_⟩
      · rw [call, hread, cursorCall, hsome]
        rfl
      · show At (cursorCall c (.readBits width bits fits)).2 r'
        rwa [cursorCall, hsome]
  | peekBits width bits fits =>
    refine ⟨r, ?_, h⟩
    obtain ⟨hnone, hread⟩ | ⟨val, c', r', hsome, hread, -⟩ := readBits_spec h fits
    · rw [call, peekBits, hread, cursorCall, hnone]
      rfl
    · rw [call, peekBits, hread, cursorCall, hsome]
      rfl
  | skipBits bits => exact ⟨_, rfl, at_skipBits h bits⟩
  | seekTo bitPos =>
    obtain ⟨hbeyond, hseek⟩ | ⟨hinside, hfound, hat⟩ := at_seekTo h bitPos
    · have hlength : ¬ bitPos < c.bits.length := by rw [h.length]; omega
      refine ⟨r, ?_, ?_⟩
      · rw [call, hseek, cursorCall, if_neg hlength]
      · rwa [moved, if_neg hlength]
    · have hlength : bitPos < c.bits.length := by rwa [h.length]
      refine ⟨(r.seekTo bitPos).2, ?_, ?_⟩
      · rw [call, hfound, cursorCall, if_pos hlength]
      · rwa [moved, if_pos hlength]

/-- The places agree exactly after the calls that keep to the boundaries of bytes. -/
theorem moved_eq_iff (c : Cursor) (k : Call) :
    (moved c k).remaining = (cursorCall c k).2.remaining ↔
      ∀ bitPos, k = .seekTo bitPos → bitPos < c.bits.length → bitPos % 8 = 0 := by
  cases k with
  | readBits width bits fits => exact ⟨fun _ _ h => (nomatch h), fun _ => rfl⟩
  | peekBits width bits fits | skipBits bits => exact ⟨fun _ _ h => (nomatch h), fun _ => rfl⟩
  | seekTo bitPos =>
    rw [moved, cursorCall]
    split
    next hinside =>
      show c.bits.length - (bitPos + min (bitPos % 8) (c.bits.length - bitPos)) =
        c.bits.length - bitPos ↔ _
      constructor
      · rintro heq p hp -
        cases hp
        omega
      · intro haligned
        have := haligned bitPos rfl hinside
        omega
    next hbeyond =>
      refine ⟨fun _ p hp hinside => ?_, fun _ => rfl⟩
      cases hp
      exact absurd hinside hbeyond

theorem moved_eq {c : Cursor} {k : Call}
    (h : ∀ bitPos, k = .seekTo bitPos → bitPos < c.bits.length → bitPos % 8 = 0) :
    moved c k = (cursorCall c k).2 := by
  cases k with
  | readBits width bits fits | peekBits width bits fits | skipBits bits => rfl
  | seekTo bitPos =>
    rw [moved, cursorCall]
    split
    next hinside =>
      rw [h bitPos rfl hinside]
      show Cursor.mk c.bits (bitPos + min 0 (c.bits.length - bitPos)) = Cursor.mk c.bits bitPos
      rw [Nat.zero_min, Nat.add_zero]
    next => rfl

theorem cursorCall_bits (c : Cursor) (k : Call) : (cursorCall c k).2.bits = c.bits := by
  cases k with
  | readBits width bits fits =>
    rw [cursorCall, Cursor.read?]
    split_ifs <;> rfl
  | peekBits width bits fits | skipBits bits => rfl
  | seekTo bitPos =>
    rw [cursorCall]
    split_ifs <;> rfl

theorem answers_iff (h : At c r) (calls : List Call) :
    r.answers calls = some (cursorAnswers c calls) ↔
      ∀ bitPos, .seekTo bitPos ∈ calls → bitPos < c.bits.length → bitPos % 8 = 0 := by
  induction calls generalizing c r with
  | nil => exact ⟨fun _ _ hmem => (nomatch hmem), fun _ => rfl⟩
  | cons k ks ih =>
    obtain ⟨r', hcall, hat⟩ := call_spec h k
    have hanswers : r.answers (k :: ks) =
        (r'.answers ks).map fun rest => ((cursorCall c k).1, r'.getAvailableBits) :: rest := by
      rw [answers, hcall]
      rfl
    have hsplit : (∀ bitPos, .seekTo bitPos ∈ k :: ks → bitPos < c.bits.length → bitPos % 8 = 0) ↔
        (∀ bitPos, k = .seekTo bitPos → bitPos < c.bits.length → bitPos % 8 = 0) ∧
          ∀ bitPos, .seekTo bitPos ∈ ks → bitPos < c.bits.length → bitPos % 8 = 0 := by
      constructor
      · intro hall
        exact ⟨fun p hp => hall p (hp ▸ List.mem_cons_self),
          fun p hp => hall p (List.mem_cons_of_mem k hp)⟩
      · rintro ⟨hhead, htail⟩ p hp
        rcases List.mem_cons.mp hp with hp | hp
        · exact hhead p hp.symm
        · exact htail p hp
    rw [hsplit, hanswers, hat.available, cursorAnswers]
    by_cases hhead : ∀ bitPos, k = .seekTo bitPos → bitPos < c.bits.length → bitPos % 8 = 0
    · rw [moved_eq hhead] at hat ⊢
      rw [← cursorCall_bits c k, ← ih hat]
      constructor
      · intro heq
        obtain ⟨rest, hrest, hcons⟩ := Option.map_eq_some_iff.mp heq
        rw [hrest, List.tail_eq_of_cons_eq hcons]
        rw [cursorCall_bits]
        exact ⟨hhead, rfl⟩
      · rintro ⟨-, hrest⟩
        rw [hrest]
        rfl
    · refine ⟨fun heq => ?_, fun hall => absurd hall.1 hhead⟩
      obtain ⟨rest, -, hcons⟩ := Option.map_eq_some_iff.mp heq
      have hremaining := congrArg Prod.snd (List.head_eq_of_cons_eq hcons)
      exact absurd ((moved_eq_iff c k).mp hremaining) hhead

/-- **The reader is a cursor over the bits of its buffer** exactly when it is set to boundaries
between bytes only. -/
theorem cursor_iff (buffer : List UInt8) (calls : List Call) :
    (reset buffer).answers calls = some (cursorAnswers ⟨bytesToBits buffer, 0⟩ calls) ↔
      ∀ bitPos, .seekTo bitPos ∈ calls → bitPos < 8 * buffer.length → bitPos % 8 = 0 := by
  rw [answers_iff (at_reset buffer)]
  show (∀ bitPos, _ → bitPos < (bytesToBits buffer).length → _) ↔ _
  rw [BitString.length_bytesToBits]

/-- Set to its fourth bit, the reader stands before its seventh. -/
theorem bits_skipped_twice :
    (reset [0xff, 0x11]).answers [.seekTo 3, .readBits 8 5 (by decide)] =
        some [(.sought true, 10), (.read (some 24), 5)] ∧
      cursorAnswers ⟨bytesToBits [0xff, 0x11], 0⟩ [.seekTo 3, .readBits 8 5 (by decide)] =
        [(.sought true, 13), (.read (some 31), 8)] := by
  decide

end BitReader

end MediaFoundation.AvcConfig
