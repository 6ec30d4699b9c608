import MediaFoundation.Codec.AvcConfig

/-!
# The conversion of AVC decoder configurations

`ReadBits(1, val)` reads one bit, and the parser means one byte by it. So the
parser looks at single bits: the first is its version, and a record, which
starts with the byte 1, is never of version 1.
-/

namespace MediaFoundation.AvcConfig

-- Records

/-- The bytes of a record by their meaning. The reserved bits are free. -/
structure AvcRecord where
  profile : UInt8
  profileCompat : UInt8
  level : UInt8
  lengthSize : UInt8
  spsCount : UInt8
  sps : List (List UInt8)
  pps : List (List UInt8)

namespace AvcRecord

def encodeEntry (entry : List UInt8) : List UInt8 :=
  UInt8.ofNat (entry.length / 256) :: UInt8.ofNat (entry.length % 256) :: entry

def encode (r : AvcRecord) : List UInt8 :=
  [1, r.profile, r.profileCompat, r.level, r.lengthSize, r.spsCount] ++
    r.sps.flatMap encodeEntry ++ UInt8.ofNat r.pps.length :: r.pps.flatMap encodeEntry

def startCodes (r : AvcRecord) : List UInt8 :=
  (r.sps ++ r.pps).flatMap fun entry => avcNalHeader ++ entry

structure Valid (r : AvcRecord) : Prop where
  lengthSize : r.lengthSize &&& 3 ≠ 2
  spsCount : (r.spsCount &&& 0x1F).toNat = r.sps.length
  ppsCount : r.pps.length < 256
  lengths : ∀ entry ∈ r.sps ++ r.pps, entry.length < 65536
  entries : 1 ≤ (r.sps ++ r.pps).length ∧ (r.sps ++ r.pps).length ≤ 256

end AvcRecord

/-- The conversion is what is wanted: the start-code form of a record; for other
bytes no access outside a buffer, and the bytes themselves when there are any. -/
def Meets (cfgData : List UInt8) : Prop :=
  (∀ r : AvcRecord, r.Valid → r.encode = cfgData →
    convert cfgData = some (true, some r.startCodes)) ∧
  ((∀ r : AvcRecord, r.Valid → r.encode ≠ cfgData) →
    ∃ ok newCfgData, convert cfgData = some (ok, newCfgData) ∧
      (cfgData ≠ [] → newCfgData = some cfgData))

-- Reading bits

def bit (bytes : List UInt8) (i : Nat) : Nat :=
  (bytes[i / 8]?.getD 0).toNat >>> (7 - i % 8) &&& 1

theorem bit_lt (bytes : List UInt8) (i : Nat) : bit bytes i < 2 := by
  rw [bit, Nat.and_one_is_mod]
  exact Nat.mod_lt _ (by decide)

namespace BitReader

structure Inside (r : BitReader) : Prop where
  avail : r.availBits ≤ 8
  cur : r.cur < r.buffer.length

def pos (r : BitReader) : Nat := 8 * r.cur + 8 - r.availBits

variable {r : BitReader}

theorem getAvailableBits_eq (h : r.Inside) :
    r.getAvailableBits = 8 * r.buffer.length - r.pos := by
  have := h.avail
  have := h.cur
  rw [getAvailableBits, if_pos h.cur.ne, pos]
  omega

theorem readRound {buffer : List UInt8} {cur availBits width : Nat} (hwidth : 0 < width)
    (hpos : 0 < availBits) (hle : availBits ≤ 8) (hcur : cur < buffer.length) :
    (buffer[cur]?.bind fun byte =>
      readLoop width 0 ⟨buffer, cur, availBits - min 1 availBits⟩ (1 - min 1 availBits)
        ((0 <<< min 1 availBits ||| (byte.toNat >>> (availBits - min 1 availBits) &&&
          0xFF >>> (8 - min 1 availBits))) % 2 ^ width)) =
      some (bit buffer (8 * cur + 8 - availBits), ⟨buffer, cur, availBits - 1⟩) := by
  have hone : buffer[cur].toNat >>> (availBits - 1) &&& 1 < 2 ^ width := by
    rw [Nat.and_one_is_mod]
    have hpow : 2 ^ 1 ≤ 2 ^ width := Nat.pow_le_pow_right (by decide) hwidth
    have := Nat.mod_lt (buffer[cur].toNat >>> (availBits - 1)) (show 0 < 2 by decide)
    omega
  have hdiv : (8 * cur + 8 - availBits) / 8 = cur := by omega
  have hmod : 7 - (8 * cur + 8 - availBits) % 8 = availBits - 1 := by omega
  rw [Nat.min_eq_left hpos, bit, hdiv, hmod, List.getElem?_eq_getElem hcur, Option.bind_some,
    Option.getD_some, readLoop]
  show some ((0 ||| (buffer[cur].toNat >>> (availBits - 1) &&& 1)) % 2 ^ width, _) = _
  rw [Nat.zero_or, Nat.mod_eq_of_lt hone]

theorem readBits_some (h : r.Inside) (hmore : r.pos < 8 * r.buffer.length) {width : Nat}
    (hwidth : 0 < width) :
    ∃ r' : BitReader, r.readBits width 1 = some (some (bit r.buffer r.pos), r') ∧ r'.Inside ∧
      r'.buffer = r.buffer ∧ r'.pos = r.pos + 1 ∧ r'.cur = r.pos / 8 := by
  obtain ⟨buffer, cur, availBits⟩ := r
  have havail : availBits ≤ 8 := h.avail
  have hcur : cur < buffer.length := h.cur
  have hin : 8 * cur + 8 - availBits < 8 * buffer.length := hmore
  rw [readBits, getAvailableBits_eq h, if_neg (by omega), readLoop, if_neg (by decide)]
  by_cases hzero : availBits = 0
  · -- the reader moves to the next byte first
    subst hzero
    refine ⟨⟨buffer, cur + 1, 7⟩, ?_, ⟨show 7 ≤ 8 by decide, show cur + 1 < buffer.length by omega⟩,
      rfl, ?_, ?_⟩
    · simp only [if_pos]
      rw [readRound hwidth (by decide) (Nat.le_refl 8) (by omega)]
      rfl
    · show 8 * (cur + 1) + 8 - 7 = 8 * cur + 8 - 0 + 1
      omega
    · show cur + 1 = (8 * cur + 8 - 0) / 8
      omega
  · refine ⟨⟨buffer, cur, availBits - 1⟩, ?_, ⟨show availBits - 1 ≤ 8 by omega, hcur⟩, rfl, ?_, ?_⟩
    · simp only [if_neg hzero]
      rw [readRound hwidth (by omega) havail hcur]
      rfl
    · show 8 * cur + 8 - (availBits - 1) = 8 * cur + 8 - availBits + 1
      omega
    · show cur = (8 * cur + 8 - availBits) / 8
      omega

theorem skipBits_spec (h : r.Inside) {bits : Nat} (hbits : r.pos + bits ≤ 8 * r.buffer.length) :
    (r.skipBits bits).buffer = r.buffer ∧
      (r.skipBits bits).getAvailableBits = 8 * r.buffer.length - (r.pos + bits) ∧
      (r.pos + bits < 8 * r.buffer.length →
        (r.skipBits bits).Inside ∧ (r.skipBits bits).pos = r.pos + bits) := by
  obtain ⟨buffer, cur, availBits⟩ := r
  have havail : availBits ≤ 8 := h.avail
  have hcur : cur < buffer.length := h.cur
  have hin : 8 * cur + 8 - availBits + bits ≤ 8 * buffer.length := hbits
  have hpos : pos ⟨buffer, cur, availBits⟩ = 8 * cur + 8 - availBits := rfl
  rw [hpos]
  simp only [skipBits]
  split
  next hwithin =>
    have hinside : Inside ⟨buffer, cur, availBits - bits⟩ :=
      ⟨show availBits - bits ≤ 8 by omega, hcur⟩
    have hpos' : pos ⟨buffer, cur, availBits - bits⟩ = 8 * cur + 8 - availBits + bits := by
      show 8 * cur + 8 - (availBits - bits) = _
      omega
    exact ⟨rfl, by rw [getAvailableBits_eq hinside, hpos'], fun _ => ⟨hinside, hpos'⟩⟩
  next hbeyond =>
    split
    next hend =>
      refine ⟨rfl, ?_, fun hlt => ?_⟩
      · rw [getAvailableBits, if_neg (not_not.mpr rfl)]
        omega
      · omega
    next hinner =>
      have hinside : Inside ⟨buffer, cur + (1 + (bits - availBits) / 8),
          8 - (bits - availBits) % 8⟩ :=
        ⟨show 8 - (bits - availBits) % 8 ≤ 8 by omega, Nat.not_le.mp hinner⟩
      have hpos' : pos ⟨buffer, cur + (1 + (bits - availBits) / 8), 8 - (bits - availBits) % 8⟩ =
          8 * cur + 8 - availBits + bits := by
        show 8 * (cur + (1 + (bits - availBits) / 8)) + 8 - (8 - (bits - availBits) % 8) = _
        omega
      exact ⟨rfl, by rw [getAvailableBits_eq hinside, hpos'], fun _ => ⟨hinside, hpos'⟩⟩

end BitReader

-- The bytes that are given back

/-- The length of an item as the parser reads it: two bits, not two bytes. -/
def itemLen (bytes : List UInt8) (i : Nat) : Nat := (bit bytes i <<< 8 ||| bit bytes (i + 1)) &&& 0xFFFF

/-- The count at a bit asks for an item that the bytes do not have. -/
def RefusesAt (bytes : List UInt8) (i : Nat) : Prop :=
  bit bytes i = 1 ∧
    (8 * bytes.length < i + 3 ∨ 8 * bytes.length - (i + 3) < itemLen bytes (i + 1))

/-- The bytes that `ParseNal` refuses: those of another version, and those that end
in the SPS item or before the end of the PPS item. -/
def Refused (bytes : List UInt8) : Prop :=
  bit bytes 0 = 0 ∨
    (bit bytes 5 = 0 ∧ RefusesAt bytes 6) ∨
    (bit bytes 5 = 1 ∧
      (8 * bytes.length - 8 < itemLen bytes 6 ∨
        (itemLen bytes 6 ≤ bytes.length ∧
          (8 * bytes.length ≤ 8 + itemLen bytes 6 ∨ RefusesAt bytes (8 + itemLen bytes 6)))))

namespace AVCConfigDataParser

/-- The parser stands before the `q`-th bit and has that many items. -/
structure Stands (bytes : List UInt8) (q count : Nat) (p : AVCConfigDataParser) : Prop where
  inside : p.bitReader.Inside
  buffer : p.bitReader.buffer = bytes
  pos : p.bitReader.pos = q
  count : p.items.length = count

variable {bytes : List UInt8} {q count : Nat} {p : AVCConfigDataParser}

theorem Stands.available (h : Stands bytes q count p) :
    p.bitReader.getAvailableBits = 8 * bytes.length - q := by
  rw [BitReader.getAvailableBits_eq h.inside, h.buffer, h.pos]

theorem reading_some (h : Stands bytes q count p) (hmore : q < 8 * bytes.length) {width : Nat}
    (hwidth : 0 < width) (use : Nat → Member) :
    ∃ p', reading width use p = use (bit bytes q) p' ∧ Stands bytes (q + 1) count p' ∧
      p'.bitReader.cur = q / 8 := by
  obtain ⟨r, hread, hin, hbuffer, hpos, hcur⟩ :=
    BitReader.readBits_some h.inside (by rw [h.buffer, h.pos]; exact hmore) hwidth
  rw [h.buffer, h.pos] at hread
  refine ⟨{ p with bitReader := r }, ?_,
    ⟨hin, hbuffer.trans h.buffer, by rw [hpos, h.pos], h.count⟩, by rw [hcur, h.pos]⟩
  rw [reading, hread]
  rfl

theorem parseItem_spec (h : Stands bytes q count p) (hcount : count < avcMaxConfigItem) :
    ((8 * bytes.length < q + 2 ∨ 8 * bytes.length - (q + 2) < itemLen bytes q) ∧
      ∃ p', parseItem p = some (false, p')) ∨
    (q + 2 + itemLen bytes q ≤ 8 * bytes.length ∧
      bytes.length < (q + 1) / 8 + itemLen bytes q ∧ parseItem p = none) ∨
    (q + 2 + itemLen bytes q ≤ 8 * bytes.length ∧
      (q + 1) / 8 + itemLen bytes q ≤ bytes.length ∧
      ∃ p', parseItem p = some (true, p') ∧
        p'.bitReader.getAvailableBits = 8 * bytes.length - (q + 2 + itemLen bytes q) ∧
        (q + 2 + itemLen bytes q < 8 * bytes.length →
          Stands bytes (q + 2 + itemLen bytes q) (count + 1) p')) := by
  by_cases hshort : 8 * bytes.length < q + 2
  · refine .inl ⟨.inl hshort, p, ?_⟩
    rw [parseItem, if_pos]
    rw [h.available]
    omega
  · obtain ⟨p₁, hread₁, h₁, -⟩ := reading_some h (by omega) (show 0 < 8 by decide)
      fun tmp1 => reading 8 fun tmp2 p =>
        let len := (tmp1 <<< 8 ||| tmp2) &&& 0xFFFF
        if p.bitReader.getAvailableBits < len then some (false, p)
        else if avcMaxConfigItem ≤ p.items.length then some (false, p)
        else
          (p.bitReader.copyBytes len).map fun bytes =>
            (true, { p with
              items := p.items ++ [avcNalHeader ++ bytes]
              bitReader := p.bitReader.skipBits len })
    obtain ⟨p₂, hread₂, h₂, hcur⟩ := reading_some h₁ (by omega) (show 0 < 8 by decide)
      fun tmp2 p =>
        let len := (bit bytes q <<< 8 ||| tmp2) &&& 0xFFFF
        if p.bitReader.getAvailableBits < len then some (false, p)
        else if avcMaxConfigItem ≤ p.items.length then some (false, p)
        else
          (p.bitReader.copyBytes len).map fun bytes =>
            (true, { p with
              items := p.items ++ [avcNalHeader ++ bytes]
              bitReader := p.bitReader.skipBits len })
    have hstep : parseItem p =
        if p₂.bitReader.getAvailableBits < itemLen bytes q then some (false, p₂)
        else if avcMaxConfigItem ≤ p₂.items.length then some (false, p₂)
        else
          (p₂.bitReader.copyBytes (itemLen bytes q)).map fun bytes' =>
            (true, { p₂ with
              items := p₂.items ++ [avcNalHeader ++ bytes']
              bitReader := p₂.bitReader.skipBits (itemLen bytes q) }) := by
      rw [parseItem, if_neg (by rw [h.available]; omega)]
      exact hread₁.trans hread₂
    rw [h₂.available, h₂.count, if_neg (Nat.not_le.mpr hcount), BitReader.copyBytes, h₂.buffer,
      hcur] at hstep
    by_cases hlong : 8 * bytes.length - (q + 2) < itemLen bytes q
    · rw [if_pos hlong] at hstep
      exact .inl ⟨.inr hlong, p₂, hstep⟩
    · rw [if_neg hlong] at hstep
      have hfits : q + 2 + itemLen bytes q ≤ 8 * bytes.length := by omega
      by_cases hcopy : (q + 1) / 8 + itemLen bytes q ≤ bytes.length
      · rw [if_pos hcopy] at hstep
        obtain ⟨hbuffer, havail, hgo⟩ :=
          BitReader.skipBits_spec h₂.inside 
            (by rw [h₂.buffer, h₂.pos]; omega)
        rw [h₂.buffer, h₂.pos] at havail hgo
        refine .inr (.inr ⟨hfits, hcopy, _, hstep, havail, fun hlt => ?_⟩)
        refine ⟨(hgo hlt).1, hbuffer.trans h₂.buffer, (hgo hlt).2, ?_⟩
        show (p₂.items ++ _).length = count + 1
        rw [List.length_append, h₂.count]
        rfl
      · rw [if_neg hcopy] at hstep
        exact .inr (.inl ⟨hfits, by omega, hstep⟩)

theorem parseSpsOrPps_zero (h : Stands bytes q count p) (hmore : q < 8 * bytes.length)
    (hbit : bit bytes q = 0) (mask : Nat) :
    ∃ p', parseSpsOrPps mask p = some (true, p') ∧ Stands bytes (q + 1) count p' := by
  obtain ⟨p', hread, h', -⟩ := reading_some h hmore (show 0 < 32 by decide)
    fun setCount => parseItems (setCount &&& mask)
  refine ⟨p', ?_, h'⟩
  rw [parseSpsOrPps, hread, hbit, Nat.zero_and]
  rfl

theorem parseSpsOrPps_one (h : Stands bytes q count p) (hmore : q < 8 * bytes.length)
    (hbit : bit bytes q = 1) {mask : Nat} (hmask : 1 &&& mask = 1) :
    ∃ p', parseSpsOrPps mask p = parseItem p' ∧ Stands bytes (q + 1) count p' := by
  obtain ⟨p', hread, h', -⟩ := reading_some h hmore (show 0 < 32 by decide)
    fun setCount => parseItems (setCount &&& mask)
  refine ⟨p', ?_, h'⟩
  rw [parseSpsOrPps, hread, hbit, hmask]
  show andThen parseItem (parseItems 0) p' = parseItem p'
  rw [andThen]
  rcases parseItem p' with - | ⟨_ | _, p''⟩ <;> rfl

theorem parsePps_refused (h : Stands bytes q count p) (hmore : q < 8 * bytes.length)
    (hcount : count < avcMaxConfigItem) :
    (parseSpsOrPps 0xFF p).map Prod.fst = some false ↔ RefusesAt bytes q := by
  have hbit := bit_lt bytes q
  rcases (show bit bytes q = 0 ∨ bit bytes q = 1 by omega) with hzero | hone
  · obtain ⟨p', hparse, -⟩ := parseSpsOrPps_zero h hmore hzero 0xFF
    rw [hparse]
    exact ⟨fun heq => (by cases heq), fun href => absurd (hzero.symm.trans href.1) (by decide)⟩
  · obtain ⟨p', hparse, h'⟩ := parseSpsOrPps_one h hmore hone (show 1 &&& 0xFF = 1 by decide)
    rw [hparse]
    rcases parseItem_spec h' hcount with ⟨href, p'', heq⟩ | ⟨hfits, -, heq⟩ | ⟨hfits, -, p'', heq, -⟩
    · rw [heq]
      exact ⟨fun _ => ⟨hone, href⟩, fun _ => rfl⟩
    · rw [heq]
      exact ⟨fun heq => (by cases heq), fun href => by have := href.2; omega⟩
    · rw [heq]
      exact ⟨fun heq => (by cases heq), fun href => by have := href.2; omega⟩

theorem stands_new (hne : bytes ≠ []) : Stands bytes 0 0 (.new bytes) :=
  ⟨⟨Nat.le_refl 8, List.length_pos_iff.mpr hne⟩, rfl, rfl, rfl⟩

/-- The header is the first five bits, and only the first of them matters. -/
theorem parseNalHeader_spec (hne : bytes ≠ []) :
    (bit bytes 0 = 0 ∧ ∃ p', parseNalHeader (.new bytes) = some (false, p')) ∨
    (bit bytes 0 = 1 ∧ ∃ p', parseNalHeader (.new bytes) = some (true, p') ∧
      Stands bytes 5 0 p') := by
  have hlength : 0 < bytes.length := List.length_pos_iff.mpr hne
  have h₀ := stands_new hne
  have havail : ¬ (new bytes).bitReader.getAvailableBits < avcMinConfigDataSize := by
    rw [h₀.available, show avcMinConfigDataSize = 7 from rfl]
    omega
  have hbit := bit_lt bytes 0
  obtain ⟨p₁, hread₁, h₁, -⟩ := reading_some h₀ (by omega) (show 0 < 8 by decide)
    fun version p => some (version = 1, { p with version })
  rcases (show bit bytes 0 = 0 ∨ bit bytes 0 = 1 by omega) with hzero | hone
  · refine .inl ⟨hzero, { p₁ with version := bit bytes 0 }, ?_⟩
    rw [parseNalHeader, if_neg havail, andThen, hread₁, hzero]
    rfl
  · -- the other four are read without a further test
    have h₁' : Stands bytes 1 0 { p₁ with version := bit bytes 0 } :=
      ⟨h₁.inside, h₁.buffer, h₁.pos, h₁.count⟩
    obtain ⟨p₂, hread₂, h₂, -⟩ := reading_some h₁' (by omega) (show 0 < 8 by decide)
      fun profile p => some (true, { p with profile })
    have h₂' : Stands bytes 2 0 { p₂ with profile := bit bytes 1 } :=
      ⟨h₂.inside, h₂.buffer, h₂.pos, h₂.count⟩
    obtain ⟨p₃, hread₃, h₃, -⟩ := reading_some h₂' (by omega) (show 0 < 8 by decide)
      fun profileCompat p => some (true, { p with profileCompat })
    have h₃' : Stands bytes 3 0 { p₃ with profileCompat := bit bytes 2 } :=
      ⟨h₃.inside, h₃.buffer, h₃.pos, h₃.count⟩
    obtain ⟨p₄, hread₄, h₄, -⟩ := reading_some h₃' (by omega) (show 0 < 8 by decide)
      fun level p => some (true, { p with level })
    have h₄' : Stands bytes 4 0 { p₄ with level := bit bytes 3 } :=
      ⟨h₄.inside, h₄.buffer, h₄.pos, h₄.count⟩
    obtain ⟨p₅, hread₅, h₅, -⟩ := reading_some h₄' (by omega) (show 0 < 8 by decide)
      fun sizeLen p =>
        let nalUnitLen := (sizeLen &&& 0x3) + 1
        some (nalUnitLen = 1 ∨ nalUnitLen = 2 ∨ nalUnitLen = 4, { p with nalUnitLen })
    have hsize : (bit bytes 4 &&& 0x3) + 1 = 1 ∨ (bit bytes 4 &&& 0x3) + 1 = 2 ∨
        (bit bytes 4 &&& 0x3) + 1 = 4 := by
      have := bit_lt bytes 4
      rcases (show bit bytes 4 = 0 ∨ bit bytes 4 = 1 by omega) with h | h <;> rw [h] <;> decide
    refine .inr ⟨hone, { p₅ with nalUnitLen := (bit bytes 4 &&& 0x3) + 1 }, ?_,
      ⟨h₅.inside, h₅.buffer, h₅.pos, h₅.count⟩⟩
    rw [parseNalHeader, if_neg havail, andThen, hread₁]
    simp only [Option.bind_some, hone, decide_true, if_true]
    rw [hone] at hread₂
    rw [andThen, hread₂]
    simp only [Option.bind_some, if_true]
    rw [andThen, hread₃]
    simp only [Option.bind_some, if_true]
    rw [andThen, hread₄]
    simp only [Option.bind_some, if_true]
    rw [parseNalUnitSizeLen, hread₅]
    simp only [hsize, decide_true]

def parseRest : Member := fun p =>
  if p.bitReader.getAvailableBits < 1 then some (false, p) else parseSpsOrPps 0xFF p

theorem parseRest_refused (h : Stands bytes q count p) (hmore : q < 8 * bytes.length)
    (hcount : count < avcMaxConfigItem) :
    (parseRest p).map Prod.fst = some false ↔ RefusesAt bytes q := by
  rw [parseRest, if_neg (by rw [h.available]; omega)]
  exact parsePps_refused h hmore hcount

theorem parseSps_refused (h : Stands bytes 5 0 p) (hne : bytes ≠ []) :
    (andThen (parseSpsOrPps 0x1F) parseRest p).map Prod.fst = some false ↔
      (bit bytes 5 = 0 ∧ RefusesAt bytes 6) ∨
      (bit bytes 5 = 1 ∧
        (8 * bytes.length - 8 < itemLen bytes 6 ∨
          (itemLen bytes 6 ≤ bytes.length ∧
            (8 * bytes.length ≤ 8 + itemLen bytes 6 ∨
              RefusesAt bytes (8 + itemLen bytes 6))))) := by
  have hlength : 0 < bytes.length := List.length_pos_iff.mpr hne
  have hbit := bit_lt bytes 5
  rcases (show bit bytes 5 = 0 ∨ bit bytes 5 = 1 by omega) with hzero | hone
  · obtain ⟨p', hparse, h'⟩ := parseSpsOrPps_zero h (by omega) hzero 0x1F
    have hrest := parseRest_refused h' (by omega) (by decide)
    rw [andThen, hparse]
    show (parseRest p').map Prod.fst = some false ↔ _
    rw [hrest, hzero]
    constructor
    · exact fun href => .inl ⟨rfl, href⟩
    · rintro (⟨-, href⟩ | ⟨habs, -⟩)
      · exact href
      · exact absurd habs (by decide)
  · obtain ⟨p', hparse, (h' : Stands bytes 6 0 p')⟩ :=
      parseSpsOrPps_one h (by omega) hone (show 1 &&& 0x1F = 1 by decide)
    have hleft : ¬ (bit bytes 5 = 0 ∧ RefusesAt bytes 6) := fun habs => by
      rw [hone] at habs
      exact absurd habs.1 (by decide)
    rw [or_iff_right hleft, and_iff_right hone, andThen, hparse]
    rcases parseItem_spec h' (by decide) with
      ⟨href, p'', heq⟩ | ⟨hfits, hcopy, heq⟩ | ⟨hfits, hcopy, p'', heq, havail, hgo⟩
    · -- the item does not fit
      rw [heq]
      exact ⟨fun _ => .inl (by omega), fun _ => rfl⟩
    · -- the copy reads behind the bytes
      rw [heq]
      refine ⟨fun habs => (by cases habs), ?_⟩
      rintro (hlong | ⟨hle, -⟩)
      · omega
      · omega
    · rw [heq]
      show (parseRest p'').map Prod.fst = some false ↔ _
      by_cases hend : 8 * bytes.length ≤ 8 + itemLen bytes 6
      · rw [parseRest, if_pos (by rw [havail]; omega)]
        exact ⟨fun _ => .inr ⟨by omega, .inl hend⟩, fun _ => rfl⟩
      · rw [parseRest_refused (hgo (by omega)) (by omega) (by decide)]
        constructor
        · exact fun href => .inr ⟨by omega, .inr href⟩
        · rintro (hlong | ⟨-, habs | href⟩)
          · omega
          · exact absurd habs hend
          · exact href

theorem parseNal_refused (hne : bytes ≠ []) :
    (parseNal (.new bytes)).map Prod.fst = some false ↔ Refused bytes := by
  show (andThen parseNalHeader (andThen (parseSpsOrPps 0x1F) parseRest) (.new bytes)).map
    Prod.fst = some false ↔ _
  rw [andThen, Refused]
  rcases parseNalHeader_spec hne with ⟨hzero, p, hheader⟩ | ⟨hone, p, hheader, hp⟩
  · rw [hheader]
    exact ⟨fun _ => .inl hzero, fun _ => rfl⟩
  · rw [hheader, hone, or_iff_right (by decide)]
    exact parseSps_refused hp hne

-- What the parser keeps

structure Good (bytes : List UInt8) (p : AVCConfigDataParser) : Prop where
  cfgData : p.cfgData = bytes
  newCfgData : p.newCfgData = none
  items : ∀ item ∈ p.items, ∃ x, item = avcNalHeader ++ x

def Keeps (bytes : List UInt8) (f : Member) : Prop :=
  ∀ p, Good bytes p → ∀ ok p', f p = some (ok, p') → Good bytes p'

theorem Keeps.andThen {f g : Member} (hf : Keeps bytes f) (hg : Keeps bytes g) :
    Keeps bytes (AVCConfigDataParser.andThen f g) := by
  intro p hp ok p' h
  obtain ⟨⟨ok₁, p₁⟩, hfp, h⟩ := Option.bind_eq_some_iff.mp h
  have hp₁ := hf p hp ok₁ p₁ hfp
  cases ok₁ with
  | true => exact hg p₁ hp₁ ok p' h
  | false =>
    cases h
    exact hp₁

theorem Keeps.reading {width : Nat} {use : Nat → Member} (huse : ∀ val, Keeps bytes (use val)) :
    Keeps bytes (AVCConfigDataParser.reading width use) := by
  intro p hp ok p' h
  obtain ⟨⟨val, r⟩, -, h⟩ := Option.bind_eq_some_iff.mp h
  have hp₁ : Good bytes { p with bitReader := r } := ⟨hp.cfgData, hp.newCfgData, hp.items⟩
  cases val with
  | some val => exact huse val _ hp₁ ok p' h
  | none =>
    cases h
    exact hp₁

theorem Keeps.unless {c : AVCConfigDataParser → Prop} [DecidablePred c] {f : Member}
    (hf : Keeps bytes f) : Keeps bytes fun p => if c p then some (false, p) else f p := by
  intro p hp ok p' h
  beta_reduce at h
  split at h
  · cases h
    exact hp
  · exact hf p hp ok p' h

theorem Keeps.set {ok : AVCConfigDataParser → Bool} {f : AVCConfigDataParser → AVCConfigDataParser}
    (hf : ∀ p, Good bytes p → Good bytes (f p)) : Keeps bytes fun p => some (ok p, f p) := by
  intro p hp ok' p' h
  cases h
  exact hf p hp

theorem keeps_parseItem : Keeps bytes parseItem := by
  refine .unless (.reading fun _ => .reading fun _ => .unless (.unless ?_))
  intro p hp ok p' h
  obtain ⟨x, -, h⟩ := Option.map_eq_some_iff.mp h
  cases h
  refine ⟨hp.cfgData, hp.newCfgData, fun item hitem => ?_⟩
  rcases List.mem_append.mp hitem with hold | hnew
  · exact hp.items item hold
  · exact ⟨x, List.mem_singleton.mp hnew⟩

theorem keeps_parseSpsOrPps (mask : Nat) : Keeps bytes (parseSpsOrPps mask) := by
  refine .reading fun setCount => ?_
  induction setCount &&& mask with
  | zero => exact .set fun _ hp => hp
  | succ setCount ih => exact keeps_parseItem.andThen ih

theorem keeps_parseNalHeader : Keeps bytes parseNalHeader := by
  have hset : ∀ {f : AVCConfigDataParser → AVCConfigDataParser}, (∀ p, (f p).cfgData = p.cfgData ∧
      (f p).newCfgData = p.newCfgData ∧ (f p).items = p.items) →
      ∀ p, Good bytes p → Good bytes (f p) := by
    intro f hf p hp
    exact ⟨(hf p).1.trans hp.cfgData, (hf p).2.1.trans hp.newCfgData,
      fun item hitem => hp.items item ((hf p).2.2 ▸ hitem)⟩
  refine .unless (.andThen ?_ (.andThen ?_ (.andThen ?_ (.andThen ?_ ?_))))
  · exact .reading fun _ => .set (hset fun _ => ⟨rfl, rfl, rfl⟩)
  · exact .reading fun _ => .set (hset fun _ => ⟨rfl, rfl, rfl⟩)
  · exact .reading fun _ => .set (hset fun _ => ⟨rfl, rfl, rfl⟩)
  · exact .reading fun _ => .set (hset fun _ => ⟨rfl, rfl, rfl⟩)
  · exact .reading fun _ => .set (hset fun _ => ⟨rfl, rfl, rfl⟩)

theorem keeps_parseNal : Keeps bytes parseNal :=
  keeps_parseNalHeader.andThen
    ((keeps_parseSpsOrPps 0x1F).andThen (.unless (keeps_parseSpsOrPps 0xFF)))

end AVCConfigDataParser

-- The conversion

open AVCConfigDataParser

variable {bytes : List UInt8}

theorem good_new (bytes : List UInt8) : Good bytes (.new bytes) :=
  ⟨rfl, rfl, fun _ hitem => (nomatch hitem)⟩

theorem convert_nil : convert [] = some (false, none) := rfl

theorem convert_of_refused (hne : bytes ≠ []) (h : Refused bytes) :
    convert bytes = some (true, some bytes) := by
  obtain ⟨⟨ok, p⟩, hparse, hok⟩ := Option.map_eq_some_iff.mp ((parseNal_refused hne).mpr h)
  have hp := keeps_parseNal _ (good_new bytes) ok p hparse
  obtain rfl : ok = false := hok
  rw [convert, parseConfigData, hparse]
  simp only [Option.bind_some, Bool.not_false, if_true]
  split <;> simp [hp.cfgData, hne]

theorem copyItems_head {size : Nat} {items : List (List UInt8)} {out : List UInt8}
    (hitems : ∀ item ∈ items, ∃ x, item = avcNalHeader ++ x) (hne : items.length ≠ 0)
    (h : copyItems size items = some out) : out.head? = some 0 := by
  rw [copyItems] at h
  obtain ⟨-, h⟩ := Option.ite_none_right_eq_some.mp h
  cases h
  cases items with
  | nil => exact absurd rfl hne
  | cons item items =>
    obtain ⟨x, rfl⟩ := hitems item List.mem_cons_self
    rfl

theorem bit_zero_of_head {out : List UInt8} (h : out.head? = some 0) : bit out 0 = 0 := by
  cases out with
  | nil => rfl
  | cons byte out =>
    obtain rfl : byte = 0 := Option.some.inj h
    simp [bit]

theorem convert_of_not_refused (hne : bytes ≠ []) (h : ¬ Refused bytes) {ok : Bool}
    {newCfgData : Option (List UInt8)} (hconv : convert bytes = some (ok, newCfgData)) :
    newCfgData ≠ some bytes := by
  obtain ⟨⟨ok', p'⟩, hparse, heq⟩ := Option.map_eq_some_iff.mp hconv
  obtain ⟨⟨found, p⟩, hnal, hrest⟩ := Option.bind_eq_some_iff.mp hparse
  have hp := keeps_parseNal _ (good_new bytes) found p hnal
  cases heq
  cases found with
  | false => exact absurd ((parseNal_refused hne).mp (by rw [hnal]; rfl)) h
  | true =>
    simp only [Bool.not_true, Bool.false_eq_true, if_false] at hrest
    split at hrest
    next =>
      cases hrest
      rw [hp.newCfgData]
      exact fun habs => (by cases habs)
    next hitems =>
      obtain ⟨out, hcopy, hrest⟩ := Option.map_eq_some_iff.mp hrest
      cases hrest
      intro hout
      obtain rfl : out = bytes := Option.some.inj hout
      exact h (.inl (bit_zero_of_head (copyItems_head hp.items hitems hcopy)))

theorem refused_encode (r : AvcRecord) : Refused r.encode := .inl (by simp [bit, AvcRecord.encode])

theorem startCodes_ne_encode {r : AvcRecord} (hr : r.Valid) : r.startCodes ≠ r.encode := by
  intro heq
  rw [AvcRecord.startCodes] at heq
  have hentries := hr.entries.1
  cases hall : r.sps ++ r.pps with
  | nil =>
    rw [hall] at hentries
    exact absurd hentries (by decide)
  | cons entry rest =>
    rw [hall] at heq
    exact absurd (List.cons.inj heq).1 (by decide)

/-- The conversion is what is wanted exactly of the bytes that are no record and, if
there are any, are refused: it never converts. -/
theorem convert_iff (bytes : List UInt8) :
    Meets bytes ↔
      (∀ r : AvcRecord, r.Valid → r.encode ≠ bytes) ∧ (bytes = [] ∨ Refused bytes) := by
  constructor
  · rintro ⟨hrecord, hother⟩
    have hnone : ∀ r : AvcRecord, r.Valid → r.encode ≠ bytes := by
      rintro r hr rfl
      have hback := convert_of_refused (fun habs => (by cases habs)) (refused_encode r)
      exact startCodes_ne_encode hr
        (Option.some.inj (Prod.mk.inj (Option.some.inj ((hrecord r hr rfl).symm.trans hback))).2)
    refine ⟨hnone, ?_⟩
    by_contra hnot
    obtain ⟨hne, href⟩ := not_or.mp hnot
    obtain ⟨ok, newCfgData, hconv, hout⟩ := hother hnone
    exact convert_of_not_refused hne href hconv (hout hne)
  · rintro ⟨hnone, hbytes⟩
    refine ⟨fun r hr heq => absurd heq (hnone r hr), fun _ => ?_⟩
    rcases hbytes with rfl | href
    · exact ⟨false, none, convert_nil, fun habs => absurd rfl habs⟩
    · by_cases hne : bytes = []
      · subst hne
        exact ⟨false, none, convert_nil, fun habs => absurd rfl habs⟩
      · exact ⟨true, some bytes, convert_of_refused hne href, fun _ => rfl⟩

def smallRecord : AvcRecord where
  profile := 66
  profileCompat := 0
  level := 30
  lengthSize := 0xFF
  spsCount := 0xE1
  sps := [[0x67, 66, 0, 30]]
  pps := [[0x68, 0xCE]]

theorem record_given_back :
    smallRecord.Valid ∧ convert smallRecord.encode = some (true, some smallRecord.encode) ∧
      ¬ Meets smallRecord.encode ∧
      convert (0x86 :: List.replicate 39 0) = none ∧ ¬ Meets (0x86 :: List.replicate 39 0) := by
  have hvalid : smallRecord.Valid :=
    ⟨by decide, by decide, by decide, by decide, by decide⟩
  have hback : convert smallRecord.encode = some (true, some smallRecord.encode) :=
    convert_of_refused (fun habs => (by cases habs)) (refused_encode smallRecord)
  have hover : convert (0x86 :: List.replicate 39 0) = none := by decide +kernel
  refine ⟨hvalid, hback, fun hmeets => ?_, hover, fun hmeets => ?_⟩
  · have hconv := hmeets.1 smallRecord hvalid rfl
    rw [hback] at hconv
    exact absurd hconv (by decide)
  · obtain ⟨ok, newCfgData, hconv, -⟩ := hmeets.2 fun r _ heq => (by cases heq)
    rw [hover] at hconv
    cases hconv

end MediaFoundation.AvcConfig
