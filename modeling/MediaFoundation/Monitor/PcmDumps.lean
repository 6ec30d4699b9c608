import Mathlib

/-!
# MediaAudioEncoder

`media_audio_encoder.cpp`: the PCM dumps of a directory are encoded, and removed when they are.

Conventions:

* A file is known by its name in the directory. The library is loaded, files can be opened and
  removed, and `fread` fills the buffer up to the end of the file.
* FFmpeg is what its calls answer, and gives finitely many packets for a frame.
* `failed` only records whether sending, receiving or writing a packet, or the trailer, has failed.
-/

namespace MediaFoundation.MediaAudioEncoder

-- ParseAudioArgs

inductive SampleFormat where
  | u8
  | s16le
  | s24le
  | s32le
  | f32le
deriving DecidableEq

structure AudioEncodeConfig where
  sampleRate : Nat
  channels : Nat
  sampleFmt : SampleFormat
deriving DecidableEq

def supportedSampleRates : List (List Char) :=
  ["8000", "11025", "12000", "16000", "22050", "24000", "32000", "44100", "48000", "64000", "88200",
    "96000", "192000"].map String.toList

def supportedChannels : List (List Char) := ["1", "2", "3", "4", "5", "6"].map String.toList

def supportedSampleFormats : List (List Char) := ["1", "2", "3", "4"].map String.toList

def stringConverter (str : List Char) : Option Nat :=
  if str.isEmpty then none
  else str.foldlM (fun n c => if c.isDigit then some (10 * n + (c.toNat - '0'.toNat)) else none) 0

/-- The fields that `getline` finds, the first of which begins with `field`. -/
def getline (field : List Char) : List Char → List (List Char)
  | [] => if field = [] then [] else [field]
  | c :: l => if c = '_' then field :: getline [] l else getline (field ++ [c]) l

local instance lawfulListChar : LawfulBEq (List Char) := inferInstance

def parseAudioArgs (fileName : List Char) : Option AudioEncodeConfig :=
  -- up to `rfind(".")`
  let nameStr := ((fileName.reverse.dropWhile (· ≠ '.')).drop 1).reverse
  match (getline [] nameStr).reverse with
  | sampleFormat :: channel :: sampleRate :: _ =>
    if sampleRate ∈ supportedSampleRates ∧ channel ∈ supportedChannels ∧
        sampleFormat ∈ supportedSampleFormats then do
      let rate ← stringConverter sampleRate
      let channels ← stringConverter channel
      let format ← stringConverter sampleFormat
      let sampleFmt ← [SampleFormat.u8, .s16le, .s24le, .s32le, .f32le][format]?
      some ⟨rate, channels, sampleFmt⟩
    else none
  | _ => none

def getAudioConfig (inFullName : List Char) : Option AudioEncodeConfig :=
  parseAudioArgs (inFullName.take (inFullName.length - ".pcm".length) ++ ".flac".toList)

def extension (name : List Char) : List Char :=
  let r := name.reverse.takeWhile (· ≠ '.')
  if r.length + 1 < name.length then '.' :: r.reverse else []

-- EncodeFrame

def averrorEagain : Int := -11
def averrorEof : Int := -541478725

structure EncodeAnswers where
  send : Int := 0
  writes : List Int := []
  /-- To `CodecRecvPacket` when there is no packet. -/
  last : Int := averrorEagain
  last_ne : last ≠ 0 := by decide

def receive (last : Int) : List Int → Bool
  | [] => last = averrorEagain || last = averrorEof
  | ret :: writes => 0 ≤ ret && receive last writes

def encodeFrame (a : EncodeAnswers) : Bool := 0 ≤ a.send && receive a.last a.writes

structure Services where
  init : Bool := true
  frameSize : Nat
  linesize : Nat
  convert : List UInt8 → Option (List UInt8) := some
  frame : Nat → EncodeAnswers := fun _ => {}
  flush : Nat → EncodeAnswers := fun _ => {}
  trailer : Int := 0

def maxFlushCodecTimes : Nat := 5

/-- `FlushEncoder` fails. It sends the null frame up to five times; `AVERROR_EOF` to one that is
sent again is no failure. -/
def flushFails (s : Services) : Nat → Nat → Bool
  | 0, _ => false
  | n + 1, i =>
    if encodeFrame (s.flush i) then flushFails s n (i + 1)
    else i = 0 || (s.flush i).send ≠ averrorEof

def releaseFails (s : Services) : Bool := flushFails s maxFlushCodecTimes 0 || s.trailer < 0

-- EncodePcmToFlac

def maxBufferLen : Nat := 4608 * 4 * 6

def bytesPerSample : SampleFormat → Nat
  | .u8 => 1
  | .s16le => 2
  | .s24le => 3
  | .s32le | .f32le => 4

def pcmDataSize (c : AudioEncodeConfig) (s : Services) : Nat :=
  s.frameSize * c.channels * bytesPerSample c.sampleFmt

def littleEndian (w : UInt32) : List UInt8 :=
  [w.toUInt8, (w >>> 8).toUInt8, (w >>> 16).toUInt8, (w >>> 24).toUInt8]

/-- From the last sample to the first; `dst` is what has been written. -/
def copyS24ToS32 (src : List UInt8) : Nat → List UInt8 → List UInt8
  | 0, dst => dst
  | count + 1, dst =>
    let byte i := (src.getD (3 * count + i) 0).toUInt32
    copyS24ToS32 src count (littleEndian (byte 0 <<< 8 ||| byte 1 <<< 16 ||| byte 2 <<< 24) ++ dst)

def fillFrameFromBuffer (c : AudioEncodeConfig) (s : Services) (buffer : List UInt8) :
    Option (List UInt8) :=
  if s.linesize < buffer.length then none
  else if c.sampleFmt = .s24le then some (copyS24ToS32 buffer (buffer.length / 3) [])
  else some buffer

def fillFrame (c : AudioEncodeConfig) (s : Services) (buffer : List UInt8) :
    Option (List UInt8) :=
  if c.sampleFmt = .u8 ∨ c.sampleFmt = .f32le then s.convert buffer
  else fillFrameFromBuffer c s buffer

structure Encoded where
  /-- Handed to `CodecSendFrame`. -/
  frames : List (List UInt8) := []
  failed : Bool := false
  success : Bool

def encodeLoop (c : AudioEncodeConfig) (s : Services) (bufferLen i : Nat) (file : List UInt8) :
    Encoded :=
  let read := file.take bufferLen
  if _hread : read = [] then { success := false }
  else
    match fillFrame c s (read ++ List.replicate (bufferLen - read.length) 0) with
    | none => { success := false }
    | some frame =>
      if encodeFrame (s.frame i) = false then
        { frames := [frame], failed := true, success := false }
      else if read.length < bufferLen then { frames := [frame], success := true }
      else
        let r := encodeLoop c s bufferLen (i + 1) (file.drop bufferLen)
        { r with frames := frame :: r.frames }
termination_by file.length
decreasing_by
  have hne : file ≠ [] ∧ bufferLen ≠ 0 := by
    simpa [read, List.take_eq_nil_iff, and_comm] using _hread
  have := List.length_pos_iff.mpr hne.1
  rw [List.length_drop]
  omega

structure File where
  name : List Char
  content : List UInt8
  services : Services

def encodePcmToFlac (f : File) : Encoded :=
  match getAudioConfig f.name with
  | none => { success := false }
  | some c =>
    if f.services.init = false then { success := false }
    else
      let bufferLen := pcmDataSize c f.services
      let r :=
        if bufferLen = 0 ∨ maxBufferLen < bufferLen then { success := false }
        else encodeLoop c f.services bufferLen 0 f.content
      { r with failed := r.failed || releaseFails f.services }

def removes (f : File) : Bool := extension f.name = ".pcm".toList && (encodePcmToFlac f).success

def encodePcmFiles (files : List File) : List File := files.filter fun f => !removes f

-- What is expected

def widen : List UInt8 → List UInt8
  | a :: b :: c :: l => 0 :: a :: b :: c :: widen l
  | _ => []

def samplesOf (format : SampleFormat) (bytes : List UInt8) : List UInt8 :=
  if format = .s24le then widen bytes else bytes

def frameBytes (format : SampleFormat) (bufferLen : Nat) : Nat :=
  if format = .s24le then bufferLen / 3 * 4 else bufferLen

def frameCount (bufferLen n : Nat) : Nat := (n + bufferLen - 1) / bufferLen

structure Complete (format : SampleFormat) (bufferLen : Nat) (file : List UInt8)
    (frames : List (List UInt8)) : Prop where
  count : frames.length = frameCount bufferLen file.length
  size : ∀ frame ∈ frames, frame.length = frameBytes format bufferLen
  samples : ∃ pad < bufferLen, frames.flatten = samplesOf format (file ++ List.replicate pad 0)

structure Right (files : List File) (f : File) (format : SampleFormat) (bufferLen : Nat) :
    Prop where
  encodes : f.services.init = true → (encodePcmToFlac f).failed = false →
    Complete format bufferLen f.content (encodePcmToFlac f).frames ∧
      (encodePcmToFlac f).success = true ∧ f ∉ encodePcmFiles files
  keeps : (encodePcmToFlac f).failed = true → f ∈ encodePcmFiles files

-- The name

theorem getline_append (t : List Char) : ∀ (s field : List Char),
    ∃ pre, getline field (s ++ '_' :: t) = pre ++ getline [] t := by
  intro s
  induction s with
  | nil => exact fun field => ⟨[field], by simp [getline]⟩
  | cons c s ih =>
    intro field
    by_cases hc : c = '_'
    · obtain ⟨pre, hpre⟩ := ih []
      exact ⟨field :: pre, by simp [getline, hc, hpre]⟩
    · obtain ⟨pre, hpre⟩ := ih (field ++ [c])
      exact ⟨pre, by simp [getline, hc, hpre]⟩

theorem getline_field {t : List Char} : ∀ (s field : List Char), '_' ∉ s →
    getline field (s ++ '_' :: t) = (field ++ s) :: getline [] t ∧
      (field ++ s ≠ [] → getline field s = [field ++ s]) := by
  intro s
  induction s with
  | nil => simp +contextual [getline]
  | cons c s ih =>
    intro field h
    rw [List.mem_cons, not_or] at h
    have ih := ih (field ++ [c]) h.2
    rw [List.append_assoc, List.singleton_append] at ih
    simpa [getline, Ne.symm h.1] using ih

def dumpName (stem rate channels format : List Char) : List Char :=
  stem ++ '_' :: (rate ++ '_' :: (channels ++ '_' :: (format ++ ".pcm".toList)))

theorem getAudioConfig_dumpName {rate channels format : List Char} (stem : List Char)
    (hrate : rate ∈ supportedSampleRates) (hchannels : channels ∈ supportedChannels)
    (hformat : format ∈ ["1", "2", "3"].map String.toList) :
    ∃ c, getAudioConfig (dumpName stem rate channels format) = some c ∧
      c.sampleFmt ∈ [SampleFormat.s16le, .s24le, .s32le] := by
  have hrates : ∀ s ∈ supportedSampleRates, '_' ∉ s ∧ (stringConverter s).isSome := by decide
  have hcounts : ∀ s ∈ supportedChannels, '_' ∉ s ∧ (stringConverter s).isSome := by decide
  have hformats : ∀ s ∈ ["1", "2", "3"].map String.toList, '_' ∉ s ∧ s ≠ [] ∧
      s ∈ supportedSampleFormats ∧ ∃ f ∈ [SampleFormat.s16le, .s24le, .s32le],
        (stringConverter s).bind ([SampleFormat.u8, .s16le, .s24le, .s32le, .f32le][·]?) =
          some f := by decide
  obtain ⟨hrate', r, hr⟩ := (hrates rate hrate).imp_right Option.isSome_iff_exists.mp
  obtain ⟨hchannels', n, hn⟩ := (hcounts channels hchannels).imp_right Option.isSome_iff_exists.mp
  obtain ⟨hformat', hne, hsupported, f, hf, hfmt⟩ := hformats format hformat
  obtain ⟨k, hk, hkf⟩ := Option.bind_eq_some_iff.mp hfmt
  refine ⟨⟨r, n, f⟩, ?_, hf⟩
  have hstem : (dumpName stem rate channels format).take
      ((dumpName stem rate channels format).length - ".pcm".length) =
        stem ++ '_' :: (rate ++ '_' :: (channels ++ '_' :: format)) := by
    have hsplit : dumpName stem rate channels format =
        (stem ++ '_' :: (rate ++ '_' :: (channels ++ '_' :: format))) ++ ".pcm".toList := by
      simp [dumpName]
    have hpcm : ".pcm".toList.length = ".pcm".length := by decide
    rw [hsplit, List.length_append, hpcm, Nat.add_sub_cancel]
    exact List.take_left
  have hflac : ∀ l : List Char,
      (((l ++ ".flac".toList).reverse.dropWhile (· ≠ '.')).drop 1).reverse = l := by
    intro l
    simp
  obtain ⟨pre, hpre⟩ := getline_append (rate ++ '_' :: (channels ++ '_' :: format)) stem []
  have hfields : getline [] (stem ++ '_' :: (rate ++ '_' :: (channels ++ '_' :: format))) =
      pre ++ [rate, channels, format] := by
    rw [hpre, (getline_field rate [] hrate').1, (getline_field channels [] hchannels').1,
      (getline_field (t := []) format [] hformat').2 hne]
    rfl
  rw [getAudioConfig, hstem, parseAudioArgs, hflac, hfields]
  simp [hrate, hchannels, hsupported, hr, hn, hk, hkf]

theorem extension_dumpName (stem rate channels format : List Char) :
    extension (dumpName stem rate channels format) = ".pcm".toList := by
  simp [extension, dumpName]
  omega

-- The loop

theorem widen_append : ∀ {a b : List UInt8}, 3 ∣ a.length →
    widen (a ++ b) = widen a ++ widen b := by
  intro a
  induction a using widen.induct with
  | case1 x y z l ih =>
    intro b h
    have ih := ih (b := b) (by simp only [List.length_cons] at h; omega)
    simp [widen, ih]
  | case2 l hl =>
    intro b h
    rcases l with _ | ⟨x, _ | ⟨y, _ | ⟨z, l⟩⟩⟩
    · simp [widen]
    · simp at h
    · simp at h
    · exact absurd rfl (hl x y z l)

theorem littleEndian_s24 (a b c : UInt8) :
    littleEndian (a.toUInt32 <<< 8 ||| b.toUInt32 <<< 16 ||| c.toUInt32 <<< 24) = [0, a, b, c] := by
  simp only [littleEndian, List.cons.injEq, and_true]
  refine ⟨?_, ?_, ?_, ?_⟩ <;> apply UInt8.toBitVec_inj.mp <;> ext i hi
  · simp
  all_goals
    simp
    interval_cases i <;> simp

theorem copyS24ToS32_eq (src : List UInt8) : ∀ (count : Nat) (dst : List UInt8),
    3 * count ≤ src.length → copyS24ToS32 src count dst = widen (src.take (3 * count)) ++ dst := by
  intro count
  induction count with
  | zero => simp [copyS24ToS32, widen]
  | succ count ih =>
    intro dst h
    have hadd : ∀ n, n < src.length → src.take (n + 1) = src.take n ++ [src.getD n 0] := by
      intro n hn
      rw [List.take_add_one, List.getElem?_eq_getElem hn, List.getD_eq_getElem _ _ hn]
      rfl
    have htake : src.take (3 * (count + 1)) = src.take (3 * count) ++
        [src.getD (3 * count + 0) 0, src.getD (3 * count + 1) 0, src.getD (3 * count + 2) 0] := by
      rw [show 3 * (count + 1) = 3 * count + 2 + 1 by omega, hadd _ (by omega), hadd _ (by omega),
        hadd _ (by omega)]
      simp
    rw [copyS24ToS32, ih _ (by omega), htake, widen_append (by simp; omega), littleEndian_s24]
    simp [widen]

section Loop

variable {c : AudioEncodeConfig} {s : Services} {bufferLen : Nat}

/-- Samples do not cross the end of the buffer, which fits into the frame. -/
structure Fits (c : AudioEncodeConfig) (s : Services) (bufferLen : Nat) : Prop where
  integer : c.sampleFmt ∈ [SampleFormat.s16le, .s24le, .s32le]
  pos : 0 < bufferLen
  whole : c.sampleFmt = .s24le → 3 ∣ bufferLen
  linesize : bufferLen ≤ s.linesize

theorem Fits.fill (h : Fits c s bufferLen) {buffer : List UInt8} (hb : buffer.length = bufferLen) :
    fillFrame c s buffer = some (samplesOf c.sampleFmt buffer) := by
  have hfmt := h.integer
  rw [fillFrame, if_neg (by rintro (hf | hf) <;> simp [hf] at hfmt), fillFrameFromBuffer,
    if_neg (by rw [hb]; exact Nat.not_lt.mpr h.linesize), samplesOf]
  split
  · next hs24 =>
    have hwhole := h.whole hs24
    rw [copyS24ToS32_eq _ _ _ (by omega), List.append_nil, List.take_of_length_le (by omega)]
  · rfl

theorem Fits.samplesOf_append (h : Fits c s bufferLen) {a b : List UInt8}
    (ha : a.length = bufferLen) :
    samplesOf c.sampleFmt (a ++ b) = samplesOf c.sampleFmt a ++ samplesOf c.sampleFmt b := by
  unfold samplesOf
  split
  · next hs24 => exact widen_append (by rw [ha]; exact h.whole hs24)
  · rfl

theorem length_widen (l : List UInt8) : (widen l).length = l.length / 3 * 4 := by
  induction l using widen.induct with
  | case1 a b c l ih =>
    simp [widen, ih]
    omega
  | case2 l hl =>
    rcases l with _ | ⟨a, _ | ⟨b, _ | ⟨c, l⟩⟩⟩
    · rfl
    · simp [widen]
    · simp [widen]
    · exact absurd rfl (hl a b c l)

theorem length_samplesOf {format : SampleFormat} {l : List UInt8} (h : l.length = bufferLen) :
    (samplesOf format l).length = frameBytes format bufferLen := by
  unfold samplesOf frameBytes
  split
  · rw [length_widen, h]
  · exact h

theorem frameCount_add (h : 0 < bufferLen) (n : Nat) :
    frameCount bufferLen (n + bufferLen) = frameCount bufferLen n + 1 := by
  rw [frameCount, show n + bufferLen + bufferLen - 1 = n + bufferLen - 1 + bufferLen by omega,
    Nat.add_div_right _ h, frameCount]

/-- A round that reads something. -/
theorem Fits.loop (h : Fits c s bufferLen) {file : List UInt8} (hfile : file ≠ []) (i : Nat) :
    encodeLoop c s bufferLen i file =
      let frame := samplesOf c.sampleFmt (file.take bufferLen ++
        List.replicate (bufferLen - (file.take bufferLen).length) 0)
      if encodeFrame (s.frame i) = false then
        { frames := [frame], failed := true, success := false }
      else if file.length < bufferLen then { frames := [frame], success := true }
      else
        let r := encodeLoop c s bufferLen (i + 1) (file.drop bufferLen)
        { r with frames := frame :: r.frames } := by
  have hread : file.take bufferLen ≠ [] := by simp [hfile, h.pos.ne']
  have hlt : (file.take bufferLen).length < bufferLen ↔ file.length < bufferLen := by
    simp
  rw [encodeLoop, dif_neg hread, h.fill (by simp)]
  simp only [hlt]

theorem Fits.encodeLoop (h : Fits c s bufferLen) : ∀ (n : Nat) (file : List UInt8) (i : Nat),
    file.length = n →
    ((∀ j < frameCount bufferLen n, encodeFrame (s.frame (i + j)) = true) →
      Complete c.sampleFmt bufferLen file (encodeLoop c s bufferLen i file).frames ∧
        (encodeLoop c s bufferLen i file).failed = false ∧
        ((encodeLoop c s bufferLen i file).success = true ↔ ¬ bufferLen ∣ n)) ∧
    ((∃ j < frameCount bufferLen n, encodeFrame (s.frame (i + j)) = false) →
      (encodeLoop c s bufferLen i file).failed = true ∧
        (encodeLoop c s bufferLen i file).success = false) := by
  have hpos := h.pos
  intro n
  induction n using Nat.strong_induction_on with
  | _ n ih =>
    intro file i hn
    by_cases hfile : file = []
    · obtain rfl : n = 0 := by simpa [hfile] using hn.symm
      have hcount : frameCount bufferLen 0 = 0 := Nat.div_eq_of_lt (by omega)
      rw [MediaAudioEncoder.encodeLoop, dif_pos (by simp [hfile])]
      exact ⟨fun _ => ⟨⟨by simp [hfile, hcount], by simp, 0, hpos,
        by simp [hfile, samplesOf, widen]⟩, rfl, by simp⟩, by simp [hcount]⟩
    have hnpos : 0 < n := hn ▸ List.length_pos_iff.mpr hfile
    have hcount : 0 < frameCount bufferLen n := Nat.div_pos (by omega) hpos
    rw [h.loop hfile]
    by_cases hfirst : encodeFrame (s.frame i) = false
    · refine ⟨fun hok => ?_, by simp [hfirst]⟩
      simpa [hfirst] using hok 0 hcount
    by_cases hlt : n < bufferLen
    · have hone : frameCount bufferLen n = 1 := Nat.div_eq_of_lt_le (by omega) (by omega)
      have htake : file.take bufferLen = file := List.take_of_length_le (by omega)
      simp only [hfirst, Bool.true_eq_false, hn, hlt, htake, hone, if_true, if_false]
      refine ⟨fun _ => ⟨⟨by simp [hn, hone], fun frame hframe => ?_, bufferLen - n, by omega,
        by simp⟩, trivial, iff_of_true trivial fun hdvd => ?_⟩, ?_⟩
      · rw [List.mem_singleton.mp hframe]
        exact length_samplesOf (by simp; omega)
      · exact absurd (Nat.le_of_dvd hnpos hdvd) (by omega)
      · simpa using hfirst
    · obtain ⟨m, rfl⟩ := Nat.exists_eq_add_of_le' (Nat.le_of_not_lt hlt)
      have hlen : (file.take bufferLen).length = bufferLen := by simp; omega
      have ih := ih m (by omega) (file.drop bufferLen) (i + 1) (by simp; omega)
      have hnext : ∀ j, s.frame (i + 1 + j) = s.frame (i + (j + 1)) := fun j => by
        rw [Nat.add_right_comm, Nat.add_assoc]
      simp only [hnext] at ih
      simp only [hfirst, Bool.true_eq_false, hn, hlt, hlen, frameCount_add hpos, Nat.sub_self,
        List.replicate_zero, List.append_nil, if_false]
      refine ⟨fun hok => ?_, ?_⟩
      · obtain ⟨⟨hcount, hsize, pad, hpad, hsamples⟩, hfailed, hsuccess⟩ :=
          ih.1 fun j hj => hok (j + 1) (by omega)
        refine ⟨⟨?_, ?_, pad, hpad, ?_⟩, hfailed, hsuccess.trans (by rw [Nat.dvd_add_self_right])⟩
        · rw [List.length_cons, hcount, hn, frameCount_add hpos, List.length_drop, hn,
            Nat.add_sub_cancel]
        · intro frame hframe
          rcases List.mem_cons.mp hframe with rfl | hframe
          · exact length_samplesOf (by simp [hlen])
          · exact hsize frame hframe
        · rw [List.flatten_cons, hsamples, ← h.samplesOf_append hlen, ← List.append_assoc,
            List.take_append_drop]
      · rintro ⟨_ | j, hj, hbad⟩
        · exact absurd hbad hfirst
        · exact ih.2 ⟨j, by omega, hbad⟩

end Loop

/-- FFmpeg fails before the end of the loop, and so no more matters; or the file does not end with
a buffer, just if `Release` works. -/
def Meets (s : Services) (bufferLen n : Nat) : Prop :=
  s.init = false ∨ (∃ i < frameCount bufferLen n, encodeFrame (s.frame i) = false) ∨
    (releaseFails s = false ↔ ¬ bufferLen ∣ n)

theorem right_iff {files : List File} {f : File} {c : AudioEncodeConfig} {bufferLen : Nat}
    (hf : f ∈ files) (hpcm : extension f.name = ".pcm".toList)
    (hc : getAudioConfig f.name = some c) (hsize : pcmDataSize c f.services = bufferLen)
    (hmax : bufferLen ≤ maxBufferLen) (hfits : Fits c f.services bufferLen) :
    Right files f c.sampleFmt bufferLen ↔ Meets f.services bufferLen f.content.length := by
  have hpos := hfits.pos
  have hleft : f ∈ encodePcmFiles files ↔ (encodePcmToFlac f).success = false := by
    simp [encodePcmFiles, removes, hf, hpcm]
  by_cases hinit : f.services.init = false
  · have hflac : encodePcmToFlac f = { success := false } := by
      simp [encodePcmToFlac, hc, hinit]
    exact iff_of_true ⟨by simp [hinit], by simp [hflac]⟩ (.inl hinit)
  have hflac : encodePcmToFlac f =
      { encodeLoop c f.services bufferLen 0 f.content with
        failed := (encodeLoop c f.services bufferLen 0 f.content).failed ||
          releaseFails f.services } := by
    have hlen : ¬ (bufferLen = 0 ∨ maxBufferLen < bufferLen) := by omega
    simp [encodePcmToFlac, hc, hinit, hsize, hlen]
  by_cases hbad : ∃ i < frameCount bufferLen f.content.length,
      encodeFrame (f.services.frame i) = false
  · obtain ⟨hfailed, hsuccess⟩ := (hfits.encodeLoop _ f.content 0 rfl).2
      (by simpa using hbad)
    refine iff_of_true ⟨fun _ h => ?_, fun _ => ?_⟩ (.inr (.inl hbad))
    · simp [hflac, hfailed] at h
    · rw [hleft, hflac]
      exact hsuccess
  · obtain ⟨hcomplete, hfailed, hsuccess⟩ := (hfits.encodeLoop _ f.content 0 rfl).1
      (by simpa using hbad)
    have hright : Right files f c.sampleFmt bufferLen ↔
        ((releaseFails f.services = false → ¬ bufferLen ∣ f.content.length) ∧
          (releaseFails f.services = true → bufferLen ∣ f.content.length)) := by
      have hkept : (encodeLoop c f.services bufferLen 0 f.content).success = false ↔
          bufferLen ∣ f.content.length := by
        rw [← Bool.not_eq_true, hsuccess, not_not]
      refine ⟨fun h => ?_, fun h => ⟨?_, ?_⟩⟩
      · have hencodes := h.encodes
        have hkeeps := h.keeps
        simp only [hleft, hflac, hfailed, Bool.false_or, hkept, hsuccess] at hencodes hkeeps
        exact ⟨fun hrelease => (hencodes (by simpa using hinit) hrelease).2.1, hkeeps⟩
      · simp only [hleft, hflac, hfailed, Bool.false_or, hkept, hsuccess]
        exact fun _ hrelease => ⟨hcomplete, h.1 hrelease, h.1 hrelease⟩
      · simp only [hleft, hflac, hfailed, Bool.false_or, hkept]
        exact h.2
    rw [hright, Meets, or_iff_right hinit, or_iff_right hbad]
    rcases releaseFails f.services <;> simp

/-- A dump is encoded completely before it is removed, exactly when `Meets` holds. -/
theorem dump_right_iff {files : List File} {f : File} (hf : f ∈ files)
    {stem rate channels format : List Char} (hname : f.name = dumpName stem rate channels format)
    (hrate : rate ∈ supportedSampleRates) (hchannels : channels ∈ supportedChannels)
    (hformat : format ∈ ["1", "2", "3"].map String.toList) :
    ∃ c, getAudioConfig f.name = some c ∧ ∀ bufferLen, pcmDataSize c f.services = bufferLen →
      0 < bufferLen → bufferLen ≤ maxBufferLen → bufferLen ≤ f.services.linesize →
      (Right files f c.sampleFmt bufferLen ↔
        Meets f.services bufferLen f.content.length) := by
  obtain ⟨c, hc, hinteger⟩ := getAudioConfig_dumpName stem hrate hchannels hformat
  rw [← hname] at hc
  refine ⟨c, hc, ?_⟩
  intro bufferLen hsize hpos hmax hline
  refine right_iff hf (hname ▸ extension_dumpName ..) hc hsize hmax ⟨hinteger, hpos, ?_, hline⟩
  intro hs24
  rw [← hsize, pcmDataSize, hs24]
  exact Nat.dvd_mul_left ..

/-- A packet for each frame, and one when the encoder is flushed. -/
def shortDump (content : List UInt8) : File where
  name := dumpName "dump".toList "8000".toList "1".toList "1".toList
  content := content
  services :=
    { frameSize := 1
      linesize := 2
      frame := fun _ => { writes := [0] }
      flush := fun i => if i = 0 then { writes := [0], last := averrorEof }
        else { send := averrorEof } }

theorem meets_shortDump {content : List UInt8} :
    Meets (shortDump content).services 2 content.length ↔ ¬ 2 ∣ content.length := by
  have hframe : ∀ i, encodeFrame ((shortDump content).services.frame i) = true := fun _ => rfl
  have hrelease : releaseFails (shortDump content).services = false := rfl
  have hinit : (shortDump content).services.init = true := rfl
  simp [Meets, hframe, hrelease, hinit]

theorem dump_right_iff_three_bytes : ∃ c, getAudioConfig (shortDump [1, 2, 3]).name = some c ∧
    Right [shortDump [1, 2, 3]] (shortDump [1, 2, 3]) c.sampleFmt 2 := by
  obtain ⟨c, hc, hiff⟩ := dump_right_iff (List.mem_singleton_self (shortDump [1, 2, 3])) rfl
    (by decide) (by decide) (by decide)
  have hconfig : getAudioConfig (shortDump [1, 2, 3]).name = some ⟨8000, 1, .s16le⟩ := by decide
  obtain rfl := Option.some.inj (hc.symm.trans hconfig)
  exact ⟨_, hc, (hiff 2 rfl (by decide) (by decide) (by decide)).mpr
    (meets_shortDump.mpr (by decide))⟩

/-- A dump of one buffer is encoded, and not removed. -/
theorem dump_kept : ¬ ∀ (f : File) (c : AudioEncodeConfig), f.content ≠ [] →
    (∃ stem, ∃ rate ∈ supportedSampleRates, ∃ channels ∈ supportedChannels,
      ∃ format ∈ ["1", "2", "3"].map String.toList, f.name = dumpName stem rate channels format) →
    getAudioConfig f.name = some c → 0 < pcmDataSize c f.services →
    pcmDataSize c f.services ≤ maxBufferLen → pcmDataSize c f.services ≤ f.services.linesize →
    Right [f] f c.sampleFmt (pcmDataSize c f.services) := by
  intro h
  have hc : getAudioConfig (shortDump [1, 2]).name = some ⟨8000, 1, .s16le⟩ := by decide
  have hright := h (shortDump [1, 2]) _ (by simp [shortDump])
    ⟨_, "8000".toList, by decide, "1".toList, by decide, "1".toList, by decide, rfl⟩ hc
    (by decide) (by decide) (by decide)
  have hmeets := (right_iff (List.mem_singleton_self _) (by decide) hc rfl (by decide)
    ⟨by decide, by decide, by decide, by decide⟩).mp hright
  exact meets_shortDump.mp hmeets (by decide)

end MediaFoundation.MediaAudioEncoder
