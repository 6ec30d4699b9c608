import MediaFoundation.Demux.WavDemuxer

/-!
# WavDemuxerPlugin, the places it reads from

`ReadFrame` and `SeekTo` of `wav_demuxer_plugin.cpp`, in any order and number after `GetMediaInfo`.

Conventions:

* The data source answers a read as it likes: with a status, and with the size that it leaves in the
  memory of the buffer if it puts data there.
* A caller may hand in a buffer without memory, or one that still has the size of an earlier use.
-/

namespace MediaFoundation.Wav

inductive Status where
  | ok | endOfStream | errorUnknown | errorInvalidOperation | errorWrongState | errorNotEnoughData
deriving DecidableEq

/-- What the data source makes of a read. -/
structure Answer where
  status : Status
  size : Option UInt64

namespace WavDemuxerPlugin

variable (p : WavDemuxerPlugin)

/-- `ReadFrame`, with the size of the memory in the buffer. The read starts at `dataOffset_`. -/
def readFrame (memory : Option UInt64) (answer : Answer) : Status × WavDemuxerPlugin :=
  let size := answer.size.getD (memory.getD 0)
  (answer.status, { p with dataOffset_ := (p.dataOffset_.toUInt64 + size).toUInt32 })

/-- Whether `SeekTo` goes past its first test. -/
def CanSeek : Prop := ¬ (p.fileSize_ = 0 ∨ p.seekable_ = .invalid ∨ p.seekable_ = .unseekable)

instance : Decidable p.CanSeek := inferInstanceAs (Decidable (¬ _))

/-- `SeekTo`, without the arguments that it does not read. -/
def seekTo (seekTime : Int64) : Option (Status × WavDemuxerPlugin) :=
  if p.CanSeek then
    let blockAlign := p.wavHeader_.bitsPerSample.toNat / 8 * p.wavHeader_.numChannels.toNat
    let byteRate := UInt32.ofNat blockAlign * p.wavHeader_.sampleRate
    let position := hstTime2Sec seekTime.toInt * byteRate.toNat
    if position < -2 ^ 63 ∨ 2 ^ 63 ≤ position then none
    else
      let position := if blockAlign ≠ 0 then position.tdiv blockAlign * blockAlign else position
      some (.ok, { p with dataOffset_ := UInt32.ofInt position })
  else some (.errorInvalidOperation, p)

end WavDemuxerPlugin

-- The places that are wanted

inductive Call where
  | readFrame (memory : Option UInt64) (answer : Answer)
  | seekTo (seekTime : Int64)

def Call.IsRead : Call → Prop
  | .readFrame _ _ => True
  | .seekTo _ => False

def Call.NonNeg : Call → Prop
  | .readFrame _ _ => True
  | .seekTo seekTime => 0 ≤ seekTime

/-- The bytes that are put in the buffer. -/
def Answer.delivered (answer : Answer) : Nat := (answer.size.getD 0).toNat

/-- The size that a read without data finds in the memory from before. -/
def Answer.leftOver (answer : Answer) (memory : Option UInt64) : Nat :=
  if answer.size.isSome then 0 else (memory.getD 0).toNat

def dataStart (head : WavHeadAttr) : Nat := if head.audioFormat = waveFormatPcm then 44 else 56

def blockSize (head : WavHeadAttr) : Nat := head.bitsPerSample.toNat / 8 * head.numChannels.toNat

def soughtPlace (head : WavHeadAttr) (seekTime : Int64) : Nat :=
  let seconds := (hstTime2Sec seekTime.toInt).toNat
  dataStart head +
    seconds * blockSize head * head.sampleRate.toNat / blockSize head * blockSize head

/-- A file whose samples have less than a byte has no boundaries. -/
def OnBoundary (head : WavHeadAttr) (bytes : Nat) : Prop :=
  blockSize head = 0 ∨ blockSize head ∣ bytes

/-- Every read starts at the wanted place, which is `place` for the first one, and on the boundary
of a sample. After a seek whose product overflows no place is right. -/
def ReadsRight : WavDemuxerPlugin → Nat → List Call → Prop
  | _, _, [] => True
  | p, place, .readFrame memory answer :: calls =>
    p.dataOffset_.toNat = place ∧ OnBoundary p.wavHeader_ (place - dataStart p.wavHeader_) ∧
      ReadsRight (p.readFrame memory answer).2 (place + answer.delivered) calls
  | p, place, .seekTo seekTime :: calls =>
    match p.seekTo seekTime with
    | none => ∀ call ∈ calls, ¬ call.IsRead
    | some (status, p') =>
      ReadsRight p' (if status = .ok then soughtPlace p.wavHeader_ seekTime else place) calls

/-- After `delivered` bytes, and reads without data in which sizes of `leftOver` were found: the
offset has not wrapped, nothing is left over, whole samples are delivered, and no read comes after a
seek that is carried out. -/
def Steady (p : WavDemuxerPlugin) : Nat → Nat → List Call → Prop
  | _, _, [] => True
  | delivered, leftOver, .readFrame memory answer :: calls =>
    dataStart p.wavHeader_ + delivered < 2 ^ 32 ∧ 2 ^ 32 ∣ leftOver ∧
      OnBoundary p.wavHeader_ delivered ∧
      Steady p (delivered + answer.delivered) (leftOver + answer.leftOver memory) calls
  | delivered, leftOver, .seekTo _ :: calls =>
    if p.CanSeek then ∀ call ∈ calls, ¬ call.IsRead else Steady p delivered leftOver calls

-- Calls without reads

theorem readsRight_of_noRead {calls : List Call} (h : ∀ call ∈ calls, ¬ call.IsRead)
    (p : WavDemuxerPlugin) (place : Nat) : ReadsRight p place calls := by
  induction calls generalizing p place with
  | nil => trivial
  | cons call calls ih =>
    have hrest : ∀ call ∈ calls, ¬ call.IsRead := fun c hc => h c (List.mem_cons_of_mem _ hc)
    cases call with
    | readFrame memory answer => exact absurd trivial (h _ List.mem_cons_self)
    | seekTo seekTime =>
      unfold ReadsRight
      split
      · exact hrest
      · exact ih hrest _ _

-- A seek leaves out the header

section Seek

variable {p p' : WavDemuxerPlugin} {seekTime : Int64} {status : Status}

theorem seconds_of_nonneg (h : 0 ≤ seekTime) : 0 ≤ hstTime2Sec seekTime.toInt := by
  rw [Int64.le_iff_toInt_le] at h
  exact Int.tdiv_nonneg h (by decide)

theorem seekTo_refused (h : ¬ p.CanSeek) :
    p.seekTo seekTime = some (.errorInvalidOperation, p) := by
  unfold WavDemuxerPlugin.seekTo
  rw [if_neg h]

theorem seekTo_some (hcan : p.CanSeek) (hpos : 0 ≤ seekTime)
    (h : p.seekTo seekTime = some (status, p')) :
    status = .ok ∧ ∃ rate, rate = blockSize p.wavHeader_ * p.wavHeader_.sampleRate.toNat % 2 ^ 32 ∧
      p' = { p with dataOffset_ := p'.dataOffset_ } ∧
      p'.dataOffset_.toNat =
        (hstTime2Sec seekTime.toInt).toNat * rate / blockSize p.wavHeader_ *
          blockSize p.wavHeader_ % 2 ^ 32 := by
  have hrate : (UInt32.ofNat (p.wavHeader_.bitsPerSample.toNat / 8 *
      p.wavHeader_.numChannels.toNat) * p.wavHeader_.sampleRate).toNat =
      blockSize p.wavHeader_ * p.wavHeader_.sampleRate.toNat % 2 ^ 32 := by
    rw [UInt32.toNat_mul, UInt32.toNat_ofNat', Nat.mod_mul_mod]
    rfl
  obtain ⟨seconds, hseconds⟩ := Int.eq_ofNat_of_zero_le (seconds_of_nonneg hpos)
  unfold WavDemuxerPlugin.seekTo at h
  rw [if_pos hcan] at h
  dsimp only at h
  rw [hrate, hseconds] at h
  rw [hseconds, Int.toNat_natCast]
  split at h
  · exact absurd h nofun
  obtain ⟨rfl, rfl⟩ := Prod.mk.inj (Option.some.inj h)
  refine ⟨rfl, _, rfl, rfl, ?_⟩
  have hofInt : ∀ n : Nat, (UInt32.ofInt (n : Int)).toNat = n % 2 ^ 32 := by
    intro n
    rw [UInt32.ofInt, UInt32.toNat_ofNat', ← Nat.cast_ofNat (R := Int) (n := 2), ← Nat.cast_pow,
      ← Int.natCast_mod, Int.toNat_natCast, Nat.mod_mod]
  show (UInt32.ofInt (if blockSize p.wavHeader_ ≠ 0 then _ else _)).toNat = _
  refine Eq.trans (congrArg (fun n => (UInt32.ofInt n).toNat) ?_) (hofInt _)
  split
  · rw [← Nat.cast_mul]
    rfl
  · next hzero =>
    rw [not_not] at hzero
    rw [hzero, Nat.zero_mul, Nat.zero_mod, Nat.mul_zero]
    exact Int.mul_zero _

theorem seekTo_misses (hcan : p.CanSeek) (hpos : 0 ≤ seekTime)
    (h : p.seekTo seekTime = some (status, p')) :
    p'.dataOffset_.toNat ≠ soughtPlace p.wavHeader_ seekTime := by
  obtain ⟨-, rate, hrate, -, hoffset⟩ := seekTo_some hcan hpos h
  have hstart : 0 < dataStart p.wavHeader_ := by
    unfold dataStart
    split <;> norm_num
  have hlt := p'.dataOffset_.toNat_lt
  unfold soughtPlace
  dsimp only
  rw [hoffset] at hlt ⊢
  rw [hrate]
  generalize (hstTime2Sec seekTime.toInt).toNat = seconds
  generalize blockSize p.wavHeader_ = block
  generalize p.wavHeader_.sampleRate.toNat = sampleRate
  intro heq
  have hfits : seconds * block * sampleRate / block * block < 2 ^ 32 := by
    have := Nat.mod_lt (seconds * (block * sampleRate % 2 ^ 32) / block * block)
      (show 0 < 2 ^ 32 by norm_num)
    omega
  -- a place that fits is reached without a wrap, and the header is missing there
  suffices hsame : seconds * (block * sampleRate % 2 ^ 32) / block * block =
      seconds * block * sampleRate / block * block by
    rw [hsame, Nat.mod_eq_of_lt hfits] at heq
    omega
  rcases Nat.eq_zero_or_pos block with hblock | hblock
  · rw [hblock, Nat.mul_zero, Nat.mul_zero]
  rcases Nat.eq_zero_or_pos seconds with hseconds | hseconds
  · rw [hseconds, Nat.zero_mul, Nat.zero_mul, Nat.zero_mul]
  have hcomm : seconds * block * sampleRate = seconds * sampleRate * block := by
    rw [Nat.mul_assoc, Nat.mul_comm block, Nat.mul_assoc]
  have hrateFits : block * sampleRate < 2 ^ 32 := by
    rw [hcomm, Nat.mul_div_cancel _ hblock] at hfits
    calc block * sampleRate = sampleRate * block := Nat.mul_comm _ _
      _ ≤ seconds * (sampleRate * block) := Nat.le_mul_of_pos_left _ hseconds
      _ = seconds * sampleRate * block := (Nat.mul_assoc _ _ _).symm
      _ < 2 ^ 32 := hfits
  rw [Nat.mod_eq_of_lt hrateFits, Nat.mul_assoc]

theorem readsRight_of_sought {calls : List Call} {place : Nat} (hcan : p.CanSeek)
    (hmissed : p.dataOffset_.toNat ≠ place) (hpos : ∀ call ∈ calls, call.NonNeg) :
    ReadsRight p place calls ↔ ∀ call ∈ calls, ¬ call.IsRead := by
  refine ⟨?_, fun h => readsRight_of_noRead h p place⟩
  induction calls generalizing p place with
  | nil => exact fun _ => List.forall_mem_nil _
  | cons call calls ih =>
    have hrest : ∀ call ∈ calls, call.NonNeg := fun c hc => hpos c (List.mem_cons_of_mem _ hc)
    intro h
    cases call with
    | readFrame memory answer => exact absurd h.1 hmissed
    | seekTo seekTime =>
      rw [List.forall_mem_cons]
      refine ⟨fun hread => hread, ?_⟩
      have hseek : 0 ≤ seekTime := hpos _ List.mem_cons_self
      unfold ReadsRight at h
      split at h
      · exact h
      · next status p' heq =>
        obtain ⟨hok, -, -, hsame, -⟩ := seekTo_some hcan hseek heq
        rw [if_pos hok] at h
        have hcan' : p'.CanSeek := by
          rw [hsame]
          exact hcan
        exact ih hcan' (seekTo_misses hcan hseek heq) hrest h

end Seek

-- The reads before it

theorem readFrame_offset (p : WavDemuxerPlugin) (memory : Option UInt64) (answer : Answer) :
    (p.readFrame memory answer).2.dataOffset_.toNat =
      (p.dataOffset_.toNat + answer.delivered + answer.leftOver memory) % 2 ^ 32 := by
  have hsum : answer.delivered + answer.leftOver memory =
      (answer.size.getD (memory.getD 0)).toNat := by
    unfold Answer.delivered Answer.leftOver
    cases answer.size with
    | none => exact Nat.zero_add _
    | some size => rfl
  show ((_ : UInt64).toUInt32).toNat = _
  rw [UInt64.toNat_toUInt32, UInt64.toNat_add, UInt32.toNat_toUInt64, Nat.add_assoc, hsum]
  omega

theorem steady_congr {p p' : WavDemuxerPlugin} (h : p' = { p with dataOffset_ := p'.dataOffset_ })
    (delivered leftOver : Nat) (calls : List Call) :
    Steady p' delivered leftOver calls ↔ Steady p delivered leftOver calls := by
  have hhead : p'.wavHeader_ = p.wavHeader_ := by rw [h]
  have hcan : p'.CanSeek ↔ p.CanSeek := by
    rw [h]
    exact Iff.rfl
  induction calls generalizing delivered leftOver with
  | nil => exact Iff.rfl
  | cons call calls ih =>
    cases call with
    | readFrame memory answer =>
      unfold Steady
      rw [hhead]
      exact and_congr_right fun _ => and_congr_right fun _ => and_congr_right fun _ => ih _ _
    | seekTo seekTime =>
      unfold Steady
      by_cases hseek : p.CanSeek
      · rw [if_pos hseek, if_pos (hcan.mpr hseek)]
      · rw [if_neg hseek, if_neg (mt hcan.mp hseek)]
        exact ih delivered leftOver

/-- The calls in which every read starts where it should, when nothing has been sought yet. -/
theorem readsRight_iff {calls : List Call} {p : WavDemuxerPlugin} {delivered leftOver : Nat}
    (hoffset : p.dataOffset_.toNat =
      (dataStart p.wavHeader_ + delivered + leftOver) % 2 ^ 32)
    (hpos : ∀ call ∈ calls, call.NonNeg) :
    ReadsRight p (dataStart p.wavHeader_ + delivered) calls ↔
      Steady p delivered leftOver calls := by
  induction calls generalizing p delivered leftOver with
  | nil => exact Iff.rfl
  | cons call calls ih =>
    have hrest : ∀ call ∈ calls, call.NonNeg := fun c hc => hpos c (List.mem_cons_of_mem _ hc)
    cases call with
    | readFrame memory answer =>
      have hnext : (p.readFrame memory answer).2.dataOffset_.toNat =
          (dataStart (p.readFrame memory answer).2.wavHeader_ + (delivered + answer.delivered) +
            (leftOver + answer.leftOver memory)) % 2 ^ 32 := by
        rw [readFrame_offset, hoffset]
        show _ = (dataStart p.wavHeader_ + (delivered + answer.delivered) + _) % 2 ^ 32
        omega
      have hstep := ih hnext hrest
      have hsame : (p.readFrame memory answer).2 =
          { p with dataOffset_ := (p.readFrame memory answer).2.dataOffset_ } := rfl
      rw [steady_congr hsame] at hstep
      have hhere : p.dataOffset_.toNat = dataStart p.wavHeader_ + delivered ↔
          dataStart p.wavHeader_ + delivered < 2 ^ 32 ∧ 2 ^ 32 ∣ leftOver := by
        rw [hoffset]
        omega
      unfold ReadsRight Steady
      rw [hhere, Nat.add_sub_cancel_left, Nat.add_assoc, and_assoc]
      exact and_congr_right fun _ => and_congr_right fun _ => and_congr_right fun _ => hstep
    | seekTo seekTime =>
      have hseek : 0 ≤ seekTime := hpos _ List.mem_cons_self
      unfold ReadsRight Steady
      by_cases hcan : p.CanSeek
      · rw [if_pos hcan]
        split
        · exact Iff.rfl
        · next status p' heq =>
          obtain ⟨hok, -, -, hsame, -⟩ := seekTo_some hcan hseek heq
          have hcan' : p'.CanSeek := by
            rw [hsame]
            exact hcan
          rw [if_pos hok]
          exact readsRight_of_sought hcan' (seekTo_misses hcan hseek heq) hrest
      · rw [if_neg hcan, seekTo_refused hcan]
        exact ih hoffset hrest

-- After GetMediaInfo

/-- The calls after `GetMediaInfo` in which every read starts where it should. -/
theorem reads_iff {p p' : WavDemuxerPlugin} {head : WavHeadAttr} {track : Track}
    {calls : List Call} (hinfo : p.getMediaInfo head = some (track, p'))
    (hpos : ∀ call ∈ calls, call.NonNeg) :
    ReadsRight p' (dataStart head) calls ↔ Steady p' 0 0 calls := by
  unfold WavDemuxerPlugin.getMediaInfo at hinfo
  obtain ⟨d, -, heq⟩ := Option.map_eq_some_iff.mp hinfo
  obtain ⟨-, rfl⟩ := Prod.mk.inj heq
  have hoffset : (headLength head).toNat = (dataStart head + 0 + 0) % 2 ^ 32 := by
    unfold headLength dataStart
    split <;> rfl
  exact @readsRight_iff calls _ 0 0 hoffset hpos

/-- A file of `1000` bytes with two channels of `16` bits. -/
def stereoHead : WavHeadAttr := ⟨waveFormatPcm, 2, 44100, 176400, 16⟩

def stereoFile : WavDemuxerPlugin := { fileSize_ := 1000, seekable_ := .seekable }

def stereoOpened : WavDemuxerPlugin :=
  { stereoFile with wavHeader_ := stereoHead, wavHeadLength_ := 44, dataOffset_ := 44 }

def stereoTrack : Track :=
  { channelLayout := .stereo, duration := 0, sampleRate := 44100, bitRate := 1411200,
    channels := 2, sampleFormat := .s16, bitsPerCodedSample := 16 }

theorem stereoFile_opened : stereoFile.getMediaInfo stereoHead = some (stereoTrack, stereoOpened) := by
  decide +kernel

theorem reads_iff_twoReads :
    ReadsRight stereoOpened 44
      [.readFrame none ⟨.ok, some 956⟩, .readFrame none ⟨.endOfStream, none⟩, .seekTo 0] := by
  refine (reads_iff stereoFile_opened ?_).mpr ?_
  · intro call hcall
    fin_cases hcall
    · trivial
    · trivial
    · exact Int64.le_refl 0
  · exact ⟨by decide, by decide, Or.inr (by decide), by decide, by decide, Or.inr (by decide),
      fun _ hcall => absurd hcall List.not_mem_nil⟩

theorem reads_header_as_samples :
    stereoFile.getMediaInfo stereoHead = some (stereoTrack, stereoOpened) ∧
      (∃ p, stereoOpened.seekTo 0 = some (.ok, p) ∧ p.dataOffset_ = 0) ∧
      ¬ ReadsRight stereoOpened 44 [.seekTo 0, .readFrame none ⟨.ok, some 1000⟩] := by
  have hseek : stereoOpened.seekTo 0 = some (.ok, { stereoOpened with dataOffset_ := 0 }) := by
    decide +kernel
  refine ⟨stereoFile_opened, ⟨_, hseek, rfl⟩, ?_⟩
  intro h
  unfold ReadsRight at h
  rw [hseek] at h
  exact absurd h.1 (by decide)

end MediaFoundation.Wav
