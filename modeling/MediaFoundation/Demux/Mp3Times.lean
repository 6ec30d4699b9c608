import MediaFoundation.Demux.Minimp3Demuxer

/-!
# Times and positions of an MP3 file

`AudioDemuxerMp3GetSeekPosition`, the duration that `AudioDemuxerMp3Probe` computes, and
`GetCurrentPositionTimeS` (`minimp3_demuxer_plugin.cpp`).
-/

namespace MediaFoundation.Minimp3

-- The code

def probeDurationMs (fileSize bitRate : Nat) : Nat :=
  fileSize % 2 ^ 32 * 8 % 2 ^ 32 / bitRate

-- What it is for

/-- Where the sound of the time `t`, in milliseconds, is in the file. -/
def exactPosition (s : State) (t : Nat) : Nat := t * s.bitRate / 8 + s.id3v2Size

structure TimesExact (s : State) (t : Nat) : Prop where
  fails_iff : audioDemuxerMp3GetSeekPosition s t = none ↔ s.file.length < exactPosition s t
  exact : ∀ pos, audioDemuxerMp3GetSeekPosition s t = some pos → pos = exactPosition s t
  duration : s.file.length * 8 / s.bitRate < 2 ^ 32 →
    probeDurationMs s.file.length s.bitRate = s.file.length * 8 / s.bitRate
  /-- The time after the seek is no later, and by less than the `8 / bitRate` ms of a byte
  earlier. -/
  position : ∀ s', seekTo s (t * hstMsecond) = (s', .ok) →
    getCurrentPositionTimeS s' ≤ t * hstMsecond ∧
      s.bitRate * (t * hstMsecond - getCurrentPositionTimeS s') < 8 * hstMsecond

/-- The numbers of bits and of bytes fit 32 bits. -/
def SeekFits (s : State) (t : Nat) : Prop :=
  t * s.bitRate < 2 ^ 32 ∧ exactPosition s t < 2 ^ 32

def keptPosition (s : State) (t : Nat) : Nat :=
  (t * s.bitRate % 2 ^ 32 / 8 + s.id3v2Size) % 2 ^ 32

/-- The position fits 32 bits and is not between what 32 bits keep of the size and the size, or it
lies beyond the file, and what 32 bits keep of it beyond what they keep of the size. And either the
number of bits of the file fits 32 bits, or the duration does not. -/
def TimesExactWhen (s : State) (t : Nat) : Prop :=
  ((SeekFits s t ∧ ¬ (s.file.length % 2 ^ 32 < exactPosition s t ∧
        exactPosition s t ≤ s.file.length)) ∨
      (¬ SeekFits s t ∧ s.file.length < exactPosition s t ∧
        s.file.length % 2 ^ 32 < keptPosition s t)) ∧
    (s.file.length * 8 < 2 ^ 32 ∨ 2 ^ 32 ≤ s.file.length * 8 / s.bitRate)

variable {s s' : State} {t : Nat}

-- The duration

theorem wrapped_div_lt {n b : Nat} (hb : 0 < b) (hb' : b ≤ 2 ^ 32) (hn : 2 ^ 32 ≤ n) :
    n % 2 ^ 32 / b < n / b := by
  have hle : n % 2 ^ 32 + b ≤ n := by omega
  calc n % 2 ^ 32 / b < n % 2 ^ 32 / b + 1 := Nat.lt_succ_self _
    _ = (n % 2 ^ 32 + b) / b := (Nat.add_div_right _ hb).symm
    _ ≤ n / b := Nat.div_le_div_right hle

theorem duration_exact_iff (fileSize : Nat) {bitRate : Nat} (hb : 0 < bitRate) (hb' : bitRate ≤ 2 ^ 32) :
    probeDurationMs fileSize bitRate = fileSize * 8 / bitRate ↔ fileSize * 8 < 2 ^ 32 := by
  have hmod : fileSize % 2 ^ 32 * 8 % 2 ^ 32 = fileSize * 8 % 2 ^ 32 := by omega
  unfold probeDurationMs
  rw [hmod]
  constructor
  · intro h
    by_contra hlarge
    have hlt := wrapped_div_lt hb hb' (by omega : 2 ^ 32 ≤ fileSize * 8)
    omega
  · intro h
    rw [Nat.mod_eq_of_lt h]

-- The position

theorem getSeekPosition_eq (s : State) (t : Nat) :
    audioDemuxerMp3GetSeekPosition s t =
      if s.file.length % 2 ^ 32 < keptPosition s t then none else some (keptPosition s t) :=
  rfl

theorem getSeekPosition_some {pos : Nat} (h : audioDemuxerMp3GetSeekPosition s t = some pos) :
    pos = keptPosition s t := by
  rw [getSeekPosition_eq] at h
  split at h
  · cases h
  · exact (Option.some_inj.mp h).symm

theorem keptPosition_eq_iff : keptPosition s t = exactPosition s t ↔ SeekFits s t := by
  unfold keptPosition exactPosition SeekFits exactPosition
  generalize t * s.bitRate = bits
  constructor
  · intro h
    omega
  · intro h
    omega

theorem seek_exact_iff :
    ((audioDemuxerMp3GetSeekPosition s t = none ↔ s.file.length < exactPosition s t) ∧
        ∀ pos, audioDemuxerMp3GetSeekPosition s t = some pos → pos = exactPosition s t) ↔
      (SeekFits s t ∧ ¬ (s.file.length % 2 ^ 32 < exactPosition s t ∧
          exactPosition s t ≤ s.file.length)) ∨
        (¬ SeekFits s t ∧ s.file.length < exactPosition s t ∧
          s.file.length % 2 ^ 32 < keptPosition s t) := by
  have hmod := Nat.mod_le s.file.length (2 ^ 32)
  rw [getSeekPosition_eq, ← keptPosition_eq_iff]
  by_cases hbeyond : s.file.length % 2 ^ 32 < keptPosition s t
  · simp only [hbeyond, if_pos]
    by_cases hkept : keptPosition s t = exactPosition s t <;> simp [hkept]
    all_goals omega
  · simp only [hbeyond, if_neg, not_false_eq_true]
    by_cases hkept : keptPosition s t = exactPosition s t <;> simp [hkept]
    all_goals omega

-- The time after a seek

/-- Going to a byte and back loses less than the time of a byte. -/
theorem time_close {b : Nat} (hb : 0 < b) (hb' : b ≤ 1000000) (t : Nat) :
    t * b / 8 * 8 * 1000000 / b ≤ t * 1000000 ∧
      b * (t * 1000000) < b * (t * b / 8 * 8 * 1000000 / b) + 8 * 1000000 := by
  have hbytes : t * b / 8 * 8 ≤ t * b ∧ t * b ≤ t * b / 8 * 8 + 7 := by omega
  generalize t * b / 8 * 8 = bits at hbytes ⊢
  have hle : b * (bits * 1000000 / b) ≤ bits * 1000000 := Nat.mul_div_le _ _
  have hlt : bits * 1000000 < b * (bits * 1000000 / b + 1) := Nat.lt_mul_div_succ _ hb
  have hcomm : b * (t * 1000000) = t * b * 1000000 := by ring
  rw [Nat.mul_add, Nat.mul_one] at hlt
  constructor
  · refine Nat.le_of_mul_le_mul_left ?_ hb
    omega
  · omega

theorem targetTimeMs_mul (ht : t < 2 ^ 32) : targetTimeMs (t * hstMsecond) = t := by
  unfold targetTimeMs
  rw [Int.mul_tdiv_cancel _ (by decide)]
  omega

theorem seekTo_ok (ht : t < 2 ^ 32) (h : seekTo s (t * hstMsecond) = (s', .ok)) :
    audioDemuxerMp3GetSeekPosition s t = some s'.currentDemuxerPos ∧
      s'.id3v2Size = s.id3v2Size ∧ s'.bitRate = s.bitRate := by
  rw [← targetTimeMs_mul ht]
  cases hpos : audioDemuxerMp3GetSeekPosition s (targetTimeMs (t * hstMsecond)) with
  | none =>
    rw [seekTo_none hpos] at h
    cases h
  | some pos =>
    rw [seekTo_some hpos] at h
    cases h
    exact ⟨rfl, rfl, rfl⟩

theorem position_of_fits (hb : 0 < s.bitRate) (hb' : s.bitRate ≤ 1000000) (ht : t < 2 ^ 32)
    (hfits : SeekFits s t) (h : seekTo s (t * hstMsecond) = (s', .ok)) :
    getCurrentPositionTimeS s' ≤ t * hstMsecond ∧
      s.bitRate * (t * hstMsecond - getCurrentPositionTimeS s') < 8 * hstMsecond := by
  obtain ⟨hpos, hsize, hrate⟩ := seekTo_ok ht h
  have hexact : s'.currentDemuxerPos = exactPosition s t := by
    rw [getSeekPosition_some hpos, keptPosition_eq_iff]
    exact hfits
  have htime : getCurrentPositionTimeS s' = t * s.bitRate / 8 * 8 * 1000000 / s.bitRate := by
    have hlt := hfits.1
    have hms : hstMsecond.toNat = 1000000 := rfl
    unfold getCurrentPositionTimeS
    rw [hexact, hsize, hrate, hms, exactPosition]
    congr 1
    omega
  obtain ⟨hle, hlt⟩ := time_close hb hb' t
  rw [← htime] at hle hlt
  have hms : hstMsecond = 1000000 := rfl
  rw [hms, mul_sub]
  zify at hlt
  omega

theorem times_exact_iff (s : State) (t : Nat) (ht : t < 2 ^ 32) (hb : 8 ≤ s.bitRate)
    (hb' : s.bitRate ≤ 448) : TimesExact s t ↔ TimesExactWhen s t := by
  have hduration := duration_exact_iff s.file.length (by omega : 0 < s.bitRate) (by omega)
  constructor
  · intro h
    refine ⟨seek_exact_iff.mp ⟨h.fails_iff, h.exact⟩, ?_⟩
    by_contra hnot
    push Not at hnot
    exact absurd (hduration.mp (h.duration hnot.2)) (by omega)
  · intro h
    obtain ⟨hfails, hexact⟩ := seek_exact_iff.mpr h.1
    refine ⟨hfails, hexact, ?_, ?_⟩
    · intro hfits
      exact hduration.mpr (by have := h.2; omega)
    · intro s' hs'
      -- a seek that succeeds is one of a position that fits
      have hpos := (seekTo_ok ht hs').1
      have hfits : SeekFits s t := by
        rw [← keptPosition_eq_iff, ← hexact _ hpos, getSeekPosition_some hpos]
      exact position_of_fits (by omega) (by omega) ht hfits hs'

/-- A file of 417 bytes, at 320 kbit/s. -/
def shortFile : State where
  file := List.replicate 417 0
  bitRate := 320

theorem times_exact_iff_short :
    TimesExact shortFile 13421773 ↔ TimesExactWhen shortFile 13421773 :=
  times_exact_iff shortFile 13421773 (by decide) (by decide) (by decide)

/-- The time of 2 ^ 32 + 64 bits is found at the byte 8. -/
theorem short_not_exact : ¬ TimesExact shortFile 13421773 := by
  intro h
  have hlength : shortFile.file.length = 417 := List.length_replicate
  have hfound : audioDemuxerMp3GetSeekPosition shortFile 13421773 = some 8 := by
    rw [getSeekPosition_eq, hlength]
    decide
  have hpos := h.exact 8 hfound
  revert hpos
  decide

end MediaFoundation.Minimp3
