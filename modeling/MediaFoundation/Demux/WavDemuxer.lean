import MediaFoundation.Lib.Words

/-!
# WavDemuxerPlugin

`wav_demuxer_plugin.cpp`, with `Sec2HstTime` and `HstTime2Sec` of `plugin_time.h`, and the duration
that `GetMediaInfo` works out from the header of a file.

Conventions:

* The fields of the header are what the read of its bytes has left there. Those that nothing is made
  of are left out, and so are the entries of the track that are always the same.
* A division by zero, and a product of signed numbers beyond 63 bits, are undefined: no result.
-/

namespace MediaFoundation.Wav

-- The header

structure WavHeadAttr where
  audioFormat : UInt16
  numChannels : UInt16
  sampleRate : UInt32
  byteRate : UInt32
  bitsPerSample : UInt16
deriving DecidableEq

def waveFormatPcm : UInt16 := 0x0001
def waveFormatIeeeFloat : UInt16 := 0x0003
def waveFormatExtensible : UInt16 := 0xFFFE

def wavHeadInfoLen : UInt32 := 56

def wavPerFrameSize : Nat := 8192

inductive AudioChannelLayout where
  | mono | stereo
deriving DecidableEq

inductive AudioSampleFormat where
  | none | u8 | s16 | s32 | f32
deriving DecidableEq

def sampleFormatPacked (bitsPerSample : UInt16) : AudioSampleFormat :=
  if bitsPerSample = 8 then .u8
  else if bitsPerSample = 16 then .s16
  else if bitsPerSample = 32 then .s32
  else .none

-- Times

def hstSecond : Int := 1000000000

def maxSeconds : Int := 9223372036

/-- `Sec2HstTime`; no result is `false`. -/
def sec2HstTime (sec : Int) : Option Int :=
  if maxSeconds < sec ∨ sec < -maxSeconds then none else some (sec * hstSecond)

def hstTime2Sec (hTime : Int) : Int := hTime.tdiv hstSecond

-- GetMediaInfo

def headLength (head : WavHeadAttr) : UInt32 :=
  if head.audioFormat = waveFormatPcm then wavHeadInfoLen - 12 else wavHeadInfoLen

/-- The duration that is set from a number of seconds, which is cast to a signed one. -/
def reported (sec : UInt64) : Int := (sec2HstTime sec.toInt64.toInt).getD 0

def duration (fileSize : UInt64) (head : WavHeadAttr) : Option Int :=
  if head.sampleRate = 0 ∨ head.bitsPerSample = 0 ∨ head.numChannels = 0 then some 0
  else
    let bits := (fileSize - (headLength head).toUInt64) * 8
    let bitRate := head.sampleRate * head.bitsPerSample.toUInt32 * head.numChannels.toUInt32
    if bitRate = 0 then none else some (reported (bits / bitRate.toUInt64))

/-- What `GetMediaInfo` sets of the one track. -/
structure Track where
  channelLayout : AudioChannelLayout
  duration : Int
  sampleRate : UInt32
  bitRate : UInt32
  channels : UInt16
  sampleFormat : AudioSampleFormat
  bitsPerCodedSample : UInt16
deriving DecidableEq

inductive Seekable where
  | invalid | unseekable | seekable
deriving DecidableEq

structure WavDemuxerPlugin where
  fileSize_ : UInt64
  seekable_ : Seekable
  dataOffset_ : UInt32 := 0
  wavHeadLength_ : UInt32 := 0
  wavHeader_ : WavHeadAttr := ⟨0, 0, 0, 0, 0⟩
deriving DecidableEq

def WavDemuxerPlugin.getMediaInfo (p : WavDemuxerPlugin) (head : WavHeadAttr) :
    Option (Track × WavDemuxerPlugin) :=
  (Wav.duration p.fileSize_ head).map fun duration =>
    ({ channelLayout := if head.numChannels = 1 then .mono else .stereo
       duration
       sampleRate := head.sampleRate
       bitRate := head.byteRate * 8
       channels := head.numChannels
       sampleFormat :=
         if head.audioFormat = waveFormatPcm ∨ head.audioFormat = waveFormatExtensible then
           sampleFormatPacked head.bitsPerSample
         else if head.audioFormat = waveFormatIeeeFloat then .f32
         else .none
       bitsPerCodedSample := head.bitsPerSample },
     { p with
       wavHeader_ := head
       wavHeadLength_ := headLength head
       dataOffset_ := headLength head })

-- The duration that is wanted

def bitsPerSecond (head : WavHeadAttr) : Nat :=
  head.sampleRate.toNat * head.bitsPerSample.toNat * head.numChannels.toNat

/-- That many seconds, or nothing if they do not fit. -/
def seconds (n : Nat) : Int := if n ≤ maxSeconds.toNat then n * hstSecond else 0

/-- The duration is defined; it is exact for a file that is not shorter than its header, and zero
for one that is, or whose size is not known. -/
def DurationRight (fileSize : UInt64) (head : WavHeadAttr) : Prop :=
  ∃ d, duration fileSize head = some d ∧
    (bitsPerSecond head ≠ 0 → (headLength head).toNat ≤ fileSize.toNat →
      d = seconds (8 * (fileSize.toNat - (headLength head).toNat) / bitsPerSecond head)) ∧
    (fileSize = 0 ∨ fileSize.toNat < (headLength head).toNat → d = 0)

/-- No duration is made of so many bits at that rate: they are less than a second, or too many. -/
def Unreported (bits rate : Nat) : Prop := bits < rate ∨ (maxSeconds.toNat + 1) * rate ≤ bits

/-- The sizes and headers for which the machine arithmetic makes no difference. The product of a
header that has no zero is not a multiple of `2 ^ 32`. Where the file is not shorter than its
header, neither the bits nor the rate wrap, or no duration is made before nor after; if both wrap,
the quotient may be the same by accident. Where it is shorter, so much is divided that the quotient
does not fit. A bit rate of one leaves a quotient that may be negative as a signed number. -/
def DurationFits (fileSize : UInt64) (head : WavHeadAttr) : Prop :=
  let rate := bitsPerSecond head
  let wrappedRate := rate % 2 ^ 32
  let length := (headLength head).toNat
  rate = 0 ∨ wrappedRate ≠ 0 ∧
    if length ≤ fileSize.toNat then
      let bits := 8 * (fileSize.toNat - length)
      let wrappedBits := bits % 2 ^ 64
      (wrappedRate = 1 → wrappedBits + maxSeconds.toNat < 2 ^ 64) ∧
        (bits < 2 ^ 64 ∧ rate < 2 ^ 32 ∨
          Unreported wrappedBits wrappedRate ∧ Unreported bits rate ∨
          2 ^ 64 ≤ bits ∧ 2 ^ 32 ≤ rate ∧ wrappedBits / wrappedRate = bits / rate)
    else
      1 < wrappedRate ∧
        (maxSeconds.toNat + 1) * wrappedRate + 8 * (length - fileSize.toNat) ≤ 2 ^ 64

-- Reported seconds

theorem seconds_nonneg (n : Nat) : 0 ≤ seconds n := by
  unfold seconds hstSecond
  split <;> omega

theorem seconds_eq_zero_iff (n : Nat) : seconds n = 0 ↔ n = 0 ∨ maxSeconds.toNat < n := by
  unfold seconds hstSecond maxSeconds
  split <;> omega

theorem seconds_eq_iff (n m : Nat) :
    seconds n = seconds m ↔ n = m ∨ seconds n = 0 ∧ seconds m = 0 := by
  unfold seconds hstSecond maxSeconds
  split <;> split <;> omega

theorem seconds_div_eq_zero_iff {bits rate : Nat} (h : 0 < rate) :
    seconds (bits / rate) = 0 ↔ Unreported bits rate := by
  unfold Unreported
  rw [seconds_eq_zero_iff, Nat.div_eq_zero_iff_lt h, ← Nat.le_div_iff_mul_le h]
  exact Iff.rfl

/-- Seconds that are small enough as an unsigned number are made a duration, or are too many. -/
theorem reported_of_lt {sec : UInt64} (h : sec.toNat + maxSeconds.toNat < 2 ^ 64) :
    reported sec = seconds sec.toNat := by
  have hint := Words.toInt_toInt64 sec
  have hmax : maxSeconds.toNat = 9223372036 := rfl
  unfold reported sec2HstTime seconds
  rw [hmax] at h ⊢
  unfold maxSeconds
  by_cases hsmall : sec.toNat ≤ 9223372036
  · rw [if_pos (by omega)] at hint
    rw [hint, if_neg (by omega), if_pos hsmall]
    rfl
  · have hout : 9223372036 < sec.toInt64.toInt ∨ sec.toInt64.toInt < -9223372036 := by
      split at hint <;> omega
    rw [if_pos hout, if_neg hsmall]
    rfl

theorem reported_neg {sec : UInt64} (h : 2 ^ 64 ≤ sec.toNat + maxSeconds.toNat) :
    reported sec < 0 := by
  have hint := Words.toInt_toInt64 sec
  have hlt := sec.toNat_lt
  have hmax : maxSeconds.toNat = 9223372036 := rfl
  rw [hmax] at h
  rw [if_neg (by omega)] at hint
  unfold reported sec2HstTime
  rw [hint, if_neg (by unfold maxSeconds; omega)]
  show (_ : Int) * hstSecond < 0
  unfold hstSecond
  omega

theorem reported_iff (sec : UInt64) (n : Nat) :
    reported sec = seconds n ↔
      sec.toNat + maxSeconds.toNat < 2 ^ 64 ∧ seconds sec.toNat = seconds n := by
  by_cases h : sec.toNat + maxSeconds.toNat < 2 ^ 64
  · rw [reported_of_lt h]
    exact (and_iff_right h).symm
  · have hneg := reported_neg (Nat.not_lt.mp h)
    have hpos := seconds_nonneg n
    exact ⟨fun heq => absurd heq (by omega), fun ⟨hlt, _⟩ => absurd hlt h⟩

-- The numbers that are divided

section Duration

variable (fileSize : UInt64) (head : WavHeadAttr)

theorem headLength_cases : (headLength head).toNat = 44 ∨ (headLength head).toNat = 56 := by
  unfold headLength
  split
  · exact Or.inl rfl
  · exact Or.inr rfl

theorem bitsPerSecond_eq_zero_iff :
    bitsPerSecond head = 0 ↔
      head.sampleRate = 0 ∨ head.bitsPerSample = 0 ∨ head.numChannels = 0 := by
  unfold bitsPerSecond
  rw [Nat.mul_eq_zero, Nat.mul_eq_zero, or_assoc, ← UInt32.toNat_inj, ← UInt16.toNat_inj,
    ← UInt16.toNat_inj]
  exact Iff.rfl

theorem toNat_bitRate :
    (head.sampleRate * head.bitsPerSample.toUInt32 * head.numChannels.toUInt32).toNat =
      bitsPerSecond head % 2 ^ 32 := by
  rw [UInt32.toNat_mul, UInt32.toNat_mul, UInt16.toNat_toUInt32, UInt16.toNat_toUInt32,
    Nat.mod_mul_mod]
  rfl

theorem toNat_bits (h : (headLength head).toNat ≤ fileSize.toNat) :
    ((fileSize - (headLength head).toUInt64) * 8).toNat =
      8 * (fileSize.toNat - (headLength head).toNat) % 2 ^ 64 := by
  have hlength : (headLength head).toUInt64.toNat = (headLength head).toNat :=
    UInt32.toNat_toUInt64 _
  rw [UInt64.toNat_mul, Words.toNat_diff (by omega), hlength, Nat.mul_comm]
  rfl

theorem toNat_bits_of_short (h : fileSize.toNat < (headLength head).toNat) :
    ((fileSize - (headLength head).toUInt64) * 8).toNat =
      2 ^ 64 - 8 * ((headLength head).toNat - fileSize.toNat) := by
  have hlength : (headLength head).toUInt64.toNat = (headLength head).toNat :=
    UInt32.toNat_toUInt64 _
  have hcases := headLength_cases head
  have height : (8 : UInt64).toNat = 8 := rfl
  rw [UInt64.toNat_mul, UInt64.toNat_sub, hlength, height]
  omega

theorem quotient_fits_iff {bits rate : Nat} (hbits : bits < 2 ^ 64) (hrate : rate ≠ 0) :
    bits / rate + maxSeconds.toNat < 2 ^ 64 ↔ (rate = 1 → bits + maxSeconds.toNat < 2 ^ 64) := by
  have hmax : maxSeconds.toNat = 9223372036 := rfl
  by_cases hone : rate = 1
  · subst hone
    rw [Nat.div_one]
    exact ⟨fun h _ => h, fun h => h rfl⟩
  · have hhalf : bits / rate ≤ bits / 2 := Nat.div_le_div_left (by omega) (by norm_num)
    exact ⟨fun _ h => absurd h hone, fun _ => by omega⟩

/-- With a header that has no zero, what is set is the quotient of the wrapped numbers. -/
theorem duration_eq (h : bitsPerSecond head ≠ 0) (hrate : bitsPerSecond head % 2 ^ 32 ≠ 0) :
    ∃ sec : UInt64, duration fileSize head = some (reported sec) ∧
      sec.toNat = ((fileSize - (headLength head).toUInt64) * 8).toNat /
        (bitsPerSecond head % 2 ^ 32) := by
  rw [Ne, bitsPerSecond_eq_zero_iff] at h
  have hbitRate := toNat_bitRate head
  unfold duration
  rw [if_neg h]
  dsimp only
  rw [if_neg (fun hzero => hrate (by rw [← hbitRate, hzero]; rfl))]
  refine ⟨_, rfl, ?_⟩
  rw [UInt64.toNat_div, UInt32.toNat_toUInt64, hbitRate]

/-- A header without a zero whose product is a multiple of `2 ^ 32` ends in a division by zero. -/
theorem duration_eq_none (h : bitsPerSecond head ≠ 0) (hrate : bitsPerSecond head % 2 ^ 32 = 0) :
    duration fileSize head = none := by
  rw [Ne, bitsPerSecond_eq_zero_iff] at h
  unfold duration
  rw [if_neg h]
  dsimp only
  rw [if_pos]
  rw [← UInt32.toNat_inj, toNat_bitRate, hrate]
  rfl

theorem duration_of_zero (h : bitsPerSecond head = 0) : duration fileSize head = some 0 := by
  unfold duration
  rw [if_pos ((bitsPerSecond_eq_zero_iff head).mp h)]

/-- The quotients differ if only one of the numbers wraps, or both are zero. -/
theorem eq_zero_of_quotients_eq {bits rate : Nat} (hwrapped : 0 < rate % 2 ^ 32)
    (hone : bits < 2 ^ 64 ∧ 2 ^ 32 ≤ rate ∨ 2 ^ 64 ≤ bits ∧ rate < 2 ^ 32)
    (h : bits % 2 ^ 64 / (rate % 2 ^ 32) = bits / rate) : bits / rate = 0 := by
  have hmod : rate % 2 ^ 32 < 2 ^ 32 := Nat.mod_lt _ (by norm_num)
  rcases hone with ⟨hsmall, hrate⟩ | ⟨hbits, hrate⟩
  · -- the rate that wraps is more than twice what is left of it
    rw [Nat.mod_eq_of_lt hsmall] at h
    have hdouble : rate % 2 ^ 32 * 2 ≤ rate := by omega
    have hle : bits / rate ≤ bits / (rate % 2 ^ 32) / 2 := by
      rw [Nat.div_div_eq_div_mul]
      exact Nat.div_le_div_left hdouble (by omega)
    rw [h] at hle
    generalize bits / rate = quotient at hle ⊢
    omega
  · rw [Nat.mod_eq_of_lt hrate] at h hwrapped
    have hnext : bits % 2 ^ 64 / rate + 1 = (bits % 2 ^ 64 + rate) / rate :=
      (Nat.add_div_right _ hwrapped).symm
    have hle : (bits % 2 ^ 64 + rate) / rate ≤ bits / rate := Nat.div_le_div_right (by omega)
    omega

theorem quotient_right_iff {bits rate : Nat} (hwrapped : 0 < rate % 2 ^ 32) :
    seconds (bits % 2 ^ 64 / (rate % 2 ^ 32)) = seconds (bits / rate) ↔
      bits < 2 ^ 64 ∧ rate < 2 ^ 32 ∨
        Unreported (bits % 2 ^ 64) (rate % 2 ^ 32) ∧ Unreported bits rate ∨
        2 ^ 64 ≤ bits ∧ 2 ^ 32 ≤ rate ∧ bits % 2 ^ 64 / (rate % 2 ^ 32) = bits / rate := by
  have hpos : 0 < rate := Nat.lt_of_lt_of_le hwrapped (Nat.mod_le _ _)
  rw [seconds_eq_iff, seconds_div_eq_zero_iff hwrapped, seconds_div_eq_zero_iff hpos]
  constructor
  · rintro (heq | hunreported)
    · by_cases hone : bits < 2 ^ 64 ∧ 2 ^ 32 ≤ rate ∨ 2 ^ 64 ≤ bits ∧ rate < 2 ^ 32
      · have hzero := eq_zero_of_quotients_eq hwrapped hone heq
        rw [hzero] at heq
        refine Or.inr (Or.inl ⟨Or.inl ?_, Or.inl ?_⟩)
        · exact (Nat.div_eq_zero_iff_lt hwrapped).mp heq
        · exact (Nat.div_eq_zero_iff_lt hpos).mp hzero
      · omega
    · exact Or.inr (Or.inl hunreported)
  · rintro (⟨hsmall, hrate⟩ | hunreported | ⟨-, -, heq⟩)
    · rw [Nat.mod_eq_of_lt hsmall, Nat.mod_eq_of_lt hrate]
      exact Or.inl rfl
    · exact Or.inr hunreported
    · exact Or.inl heq

theorem short_right_iff {lack rate : Nat} (hlack : 1 ≤ lack) (hfew : lack ≤ 56)
    (hzero : rate ≠ 0) (hrate : rate < 2 ^ 32) :
    ((2 ^ 64 - 8 * lack) / rate + maxSeconds.toNat < 2 ^ 64 ∧
      seconds ((2 ^ 64 - 8 * lack) / rate) = seconds 0) ↔
    (1 < rate ∧ (maxSeconds.toNat + 1) * rate + 8 * lack ≤ 2 ^ 64) := by
  have hmax : maxSeconds.toNat = 9223372036 := rfl
  have hmany : seconds ((2 ^ 64 - 8 * lack) / rate) = seconds 0 ↔
      (maxSeconds.toNat + 1) * rate + 8 * lack ≤ 2 ^ 64 := by
    show _ = (0 : Int) ↔ _
    rw [seconds_div_eq_zero_iff (Nat.pos_of_ne_zero hzero)]
    unfold Unreported
    generalize (maxSeconds.toNat + 1) * rate = bits
    omega
  rw [quotient_fits_iff (by omega) hzero, hmany]
  refine and_congr_left fun hle => ⟨fun hfits => ?_, fun hone h => absurd h hone.ne'⟩
  by_contra hone
  have := hfits (by omega)
  omega

end Duration

-- The duration of a file

/-- The durations that `GetMediaInfo` gets right, over all sizes and headers. -/
theorem duration_iff (fileSize : UInt64) (head : WavHeadAttr) :
    DurationRight fileSize head ↔ DurationFits fileSize head := by
  have hlength := headLength_cases head
  unfold DurationFits
  dsimp only
  by_cases hrate : bitsPerSecond head = 0
  · refine ⟨fun _ => Or.inl hrate, fun _ => ⟨0, duration_of_zero fileSize head hrate, ?_, ?_⟩⟩
    · exact fun h => absurd hrate h
    · exact fun _ => rfl
  rw [or_iff_right hrate]
  by_cases hwrapped : bitsPerSecond head % 2 ^ 32 = 0
  · refine ⟨?_, fun h => absurd hwrapped h.1⟩
    rintro ⟨d, hd, -⟩
    rw [duration_eq_none fileSize head hrate hwrapped] at hd
    exact absurd hd nofun
  rw [and_iff_right hwrapped]
  obtain ⟨sec, hsec, hquotient⟩ := duration_eq fileSize head hrate hwrapped
  unfold DurationRight
  simp only [hsec, Option.some.injEq, exists_eq_left']
  by_cases hlong : (headLength head).toNat ≤ fileSize.toNat
  · have hbits : 8 * (fileSize.toNat - (headLength head).toNat) % 2 ^ 64 < 2 ^ 64 :=
      Nat.mod_lt _ (by norm_num)
    rw [if_pos hlong, ← quotient_right_iff (Nat.pos_of_ne_zero hwrapped),
      ← quotient_fits_iff hbits hwrapped, ← toNat_bits fileSize head hlong, ← hquotient,
      ← reported_iff]
    refine ⟨fun h => h.1 hrate hlong, fun h => ⟨fun _ _ => h, ?_⟩⟩
    rintro (hzero | hshort)
    · have : fileSize.toNat = 0 := by rw [hzero]; rfl
      omega
    · omega
  · have hshort := Nat.not_le.mp hlong
    have hwrappedLt : bitsPerSecond head % 2 ^ 32 < 2 ^ 32 := Nat.mod_lt _ (by norm_num)
    rw [if_neg hlong, ← short_right_iff (by omega) (by omega) hwrapped hwrappedLt,
      ← toNat_bits_of_short fileSize head hshort, ← hquotient, ← reported_iff]
    exact ⟨fun h => h.2 (Or.inr hshort), fun h => ⟨fun _ hle => absurd hle hlong, fun _ => h⟩⟩

theorem divides_by_zero :
    let head : WavHeadAttr := ⟨waveFormatPcm, 1, 0x10000000, 0x20000000, 16⟩
    head.sampleRate ≠ 0 ∧ head.bitsPerSample ≠ 0 ∧ head.numChannels ≠ 0 ∧
      duration 1000 head = none ∧ ¬ DurationRight 1000 head := by
  have hnone : duration 1000 ⟨waveFormatPcm, 1, 0x10000000, 0x20000000, 16⟩ = none := by
    decide +kernel
  refine ⟨by decide, by decide, by decide, hnone, ?_⟩
  rintro ⟨d, hd, -⟩
  rw [hnone] at hd
  exact absurd hd nofun

end MediaFoundation.Wav
