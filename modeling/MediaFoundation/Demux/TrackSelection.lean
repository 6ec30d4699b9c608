import MediaFoundation.Lib.Runs

/-!
# The tracks of the FFmpeg demuxer

`ffmpeg_demuxer_plugin.cpp` and `ffmpeg_track_meta.cpp`. A stream may be left out of the
`MediaInfo`; a track is told by the index of its stream, and `SelectTrack` compares it with the
number of the tracks.

Conventions:

* `av_rescale_q` does what FFmpeg documents. There is no bit-stream filter, memory is allocated,
  and `av_read_frame` fails only at the end.
* `GetMediaInfo` has been called.
-/

namespace MediaFoundation.TrackSelection

inductive CodecType where
  | audio
  | video
  | other
deriving DecidableEq

/-- Of `int`s, as FFmpeg sets a time base. -/
structure AVRational where
  num : Nat
  den : Nat
  num_pos : 0 < num
  den_pos : 0 < den
  den_lt : den < 2 ^ 31

structure AVStream where
  codecType : CodecType
  rawVideo : Bool := false
  codecContext : Bool := true
  /-- Neither the width nor the height is 0. -/
  sized : Bool := true
  /-- Its codec is in `g_streamConvertors`. -/
  convertor : Bool := true
  timeBase : AVRational

structure AVPacket where
  streamIndex : Nat
  pts : Int
  dts : Int
  duration : Int
  data : List UInt8

structure Frame where
  trackID : Nat
  pts : Int
  dts : Int
  duration : Int
  data : List UInt8

inductive Status where
  | ok
  | endOfStream
  | errorUnknown
  | errorInvalidParameter
deriving DecidableEq

structure FFmpegDemuxerPlugin where
  streams : List (AVStream)
  /-- What `av_read_frame` is going to deliver. -/
  packets : List AVPacket
  selectedTrackIds_ : List Int := []

def hstSecond : Nat := 1000000000

def nearest (a b : Nat) : Nat := (2 * a + b) / (2 * b)

/-- `a * bq / cq`, to the nearest number, halves away from zero; the least `int64_t` if that is
none. -/
def avRescaleQ (a : Int) (bq cq : AVRational) : Int :=
  let n : Int := nearest (a.natAbs * (bq.num * cq.den)) (bq.den * cq.num)
  let n := if a < 0 then -n else n
  if -2 ^ 63 ≤ n ∧ n < 2 ^ 63 then n else -2 ^ 63

def nanosecond : AVRational := ⟨1, hstSecond, by decide, by decide, by decide⟩

namespace FFmpegDemuxerPlugin

def tracks (d : FFmpegDemuxerPlugin) : List (Option Nat) :=
  d.streams.zipIdx.filterMap fun x =>
    if x.1.codecContext = false then none
    else if x.1.codecType = .video ∧ x.1.rawVideo = false ∧ x.1.sized = false then none
    else some (if x.1.convertor then some x.2 else none)

/-- `AV_NOPTS_VALUE` is the least number. -/
def convertTimeFromFFmpeg (pts : Int) (base : AVRational) : Int :=
  if pts = -2 ^ 63 then -1 else avRescaleQ pts base nanosecond

def selectTrack (d : FFmpegDemuxerPlugin) (trackId : Int) : FFmpegDemuxerPlugin × Status :=
  if trackId < 0 ∨ (d.tracks.length : Int) ≤ trackId then (d, .errorInvalidParameter)
  else if trackId ∈ d.selectedTrackIds_ then (d, .ok)
  else ({ d with selectedTrackIds_ := d.selectedTrackIds_ ++ [trackId] }, .ok)

def unselectTrack (d : FFmpegDemuxerPlugin) (trackId : Int) : FFmpegDemuxerPlugin :=
  { d with selectedTrackIds_ := d.selectedTrackIds_.erase trackId }

def isSelectedTrack (d : FFmpegDemuxerPlugin) (trackId : Int) : Bool :=
  d.selectedTrackIds_.any fun id => id = trackId

def convertAVPacketToFrameInfo (avStream : AVStream) (pkt : AVPacket) : Option Frame :=
  let frame : Frame :=
    { trackID := pkt.streamIndex
      pts := convertTimeFromFFmpeg (if 0 < pkt.pts then pkt.pts else 0) avStream.timeBase
      dts := pkt.dts % 2 ^ 32
      duration := convertTimeFromFFmpeg pkt.duration avStream.timeBase
      data := pkt.data }
  match avStream.codecType with
  | .audio => some frame
  | .video => if avStream.rawVideo then none else some frame
  | .other => none

/-- The first packet that ends the loop, and what follows it. -/
def readFrame (d : FFmpegDemuxerPlugin) : FFmpegDemuxerPlugin × Status × Option Frame :=
  match d.packets.dropWhile fun pkt =>
      !d.selectedTrackIds_.isEmpty && !d.isSelectedTrack pkt.streamIndex with
  | [] => ({ d with packets := [] }, .endOfStream, none)
  | pkt :: rest =>
    match d.streams[pkt.streamIndex]?.bind fun s => convertAVPacketToFrameInfo s pkt with
    | some frame => ({ d with packets := rest }, .ok, some frame)
    | none => ({ d with packets := rest }, .errorUnknown, none)

end FFmpegDemuxerPlugin

open FFmpegDemuxerPlugin

inductive Call where
  | selectTrack (trackId : Int)
  | unselectTrack (trackId : Int)
  | readFrame

def exec (d : FFmpegDemuxerPlugin) : Call → FFmpegDemuxerPlugin
  | .selectTrack trackId => (d.selectTrack trackId).1
  | .unselectTrack trackId => d.unselectTrack trackId
  | .readFrame => d.readFrame.1

def step (d : FFmpegDemuxerPlugin) (call : Call) : Option (FFmpegDemuxerPlugin) :=
  some (exec d call)

-- What is expected

def IsTrackId (d : FFmpegDemuxerPlugin) (trackId : Int) : Prop :=
  ∃ i : Nat, some i ∈ d.tracks ∧ (i : Int) = trackId

/-- A packet with its times converted. -/
def wanted (avStream : AVStream) (pkt : AVPacket) : Frame :=
  { trackID := pkt.streamIndex
    pts := convertTimeFromFFmpeg pkt.pts avStream.timeBase
    dts := convertTimeFromFFmpeg pkt.dts avStream.timeBase
    duration := convertTimeFromFFmpeg pkt.duration avStream.timeBase
    data := pkt.data }

def selectedPackets (d : FFmpegDemuxerPlugin) : List AVPacket :=
  d.packets.dropWhile fun pkt => (pkt.streamIndex : Int) ∉ d.selectedTrackIds_

def Right (d : FFmpegDemuxerPlugin) : Call → Prop
  | .selectTrack trackId => (d.selectTrack trackId).2 = .ok ↔ IsTrackId d trackId
  | .unselectTrack _ => True
  | .readFrame => d.selectedTrackIds_ ≠ [] →
      match selectedPackets d with
      | [] => d.readFrame = ({ d with packets := [] }, .endOfStream, none)
      | pkt :: rest => ∃ s, d.streams[pkt.streamIndex]? = some s ∧
          d.readFrame = ({ d with packets := rest }, .ok, some (wanted s pkt))

/-- A negative pts is less than half a nanosecond, and is not `AV_NOPTS_VALUE`; the dts is not
negative, and rounded to nanoseconds it is its low 32 bits. -/
def TimesAgree (base : AVRational) (pkt : AVPacket) : Prop :=
  (0 ≤ pkt.pts ∨ pkt.pts ≠ -2 ^ 63 ∧
      2 * (pkt.pts.natAbs * (base.num * hstSecond)) < base.den) ∧
    0 ≤ pkt.dts ∧
      2 * (pkt.dts.natAbs % 2 ^ 32 * base.den) ≤
        2 * (pkt.dts.natAbs * (base.num * hstSecond)) + base.den ∧
      2 * (pkt.dts.natAbs * (base.num * hstSecond)) <
        2 * (pkt.dts.natAbs % 2 ^ 32 * base.den) + base.den

instance decidableTimesAgree (base : AVRational) (pkt : AVPacket) :
    Decidable (TimesAgree base pkt) := inferInstanceAs (Decidable ((_ ∨ _ ∧ _) ∧ _ ∧ _ ∧ _))

/-- A `TRACK_ID` is asked for exactly if the number is below that of the tracks. -/
def Agrees (d : FFmpegDemuxerPlugin) : Call → Prop
  | .selectTrack trackId =>
      0 ≤ trackId ∧ trackId < (d.tracks.length : Int) ↔ IsTrackId d trackId
  | .unselectTrack _ => True
  | .readFrame => d.selectedTrackIds_ ≠ [] → ∀ pkt ∈ (selectedPackets d).head?,
      ∀ s ∈ d.streams[pkt.streamIndex]?, TimesAgree s.timeBase pkt

def Encoded (d : FFmpegDemuxerPlugin) : Prop :=
  ∀ i s, some i ∈ d.tracks → d.streams[i]? = some s →
    s.codecType = .audio ∨ s.codecType = .video ∧ s.rawVideo = false

-- The times

theorem nearest_eq_iff {a b r : Nat} (hb : 0 < b) :
    nearest a b = r ↔ 2 * (r * b) ≤ 2 * a + b ∧ 2 * a < 2 * (r * b) + b := by
  rw [nearest, Nat.div_eq_iff (by omega), show r * (2 * b) = 2 * (r * b) by ring]
  omega

theorem avRescaleQ_eq_iff {a : Int} {base : AVRational} {r : Nat} (hr : r < 2 ^ 63) :
    avRescaleQ a base nanosecond = r ↔
      (0 ≤ a ∨ r = 0) ∧ nearest (a.natAbs * (base.num * hstSecond)) base.den = r := by
  have hden : base.den * nanosecond.num = base.den := Nat.mul_one _
  have hnum : base.num * nanosecond.den = base.num * hstSecond := rfl
  simp only [avRescaleQ, hden, hnum]
  generalize nearest _ _ = n
  split <;> split <;> omega

theorem pts_agrees_iff (pts : Int) (base : AVRational) :
    convertTimeFromFFmpeg (if 0 < pts then pts else 0) base = convertTimeFromFFmpeg pts base ↔
      0 ≤ pts ∨ pts ≠ -2 ^ 63 ∧ 2 * (pts.natAbs * (base.num * hstSecond)) < base.den := by
  have hzero : convertTimeFromFFmpeg 0 base = 0 := by
    rw [convertTimeFromFFmpeg, if_neg (by decide)]
    refine (avRescaleQ_eq_iff (r := 0) (by decide)).mpr ⟨.inr rfl, ?_⟩
    rw [nearest_eq_iff base.den_pos]
    have := base.den_pos
    simpa using this
  by_cases hpos : 0 < pts
  · rw [if_pos hpos]
    exact iff_of_true rfl (.inl hpos.le)
  rw [if_neg hpos, hzero]
  by_cases hsame : pts = 0
  · rw [hsame, hzero]
    simp
  by_cases hnone : pts = -2 ^ 63
  · rw [convertTimeFromFFmpeg, if_pos hnone]
    exact iff_of_false (by decide) (by omega)
  -- a negative time that is rounded to zero
  have hiff := @avRescaleQ_eq_iff pts base 0 (by decide)
  rw [nearest_eq_iff base.den_pos] at hiff
  rw [convertTimeFromFFmpeg, if_neg hnone, eq_comm, show (0 : Int) = (0 : Nat) from rfl, hiff]
  simp
  omega

theorem dts_agrees_iff (dts : Int) (base : AVRational) :
    dts % 2 ^ 32 = convertTimeFromFFmpeg dts base ↔ 0 ≤ dts ∧
      2 * (dts.natAbs % 2 ^ 32 * base.den) ≤
        2 * (dts.natAbs * (base.num * hstSecond)) + base.den ∧
      2 * (dts.natAbs * (base.num * hstSecond)) <
        2 * (dts.natAbs % 2 ^ 32 * base.den) + base.den := by
  rw [eq_comm]
  by_cases hdts : 0 ≤ dts
  · have hlow : dts % 2 ^ 32 = ((dts.natAbs % 2 ^ 32 : Nat) : Int) := by omega
    have hsmall : dts.natAbs % 2 ^ 32 < 2 ^ 63 := by omega
    rw [convertTimeFromFFmpeg, if_neg (by omega), hlow, avRescaleQ_eq_iff hsmall,
      nearest_eq_iff base.den_pos]
    simp [hdts]
  refine iff_of_false (fun habs => ?_) (fun h => hdts h.1)
  rw [convertTimeFromFFmpeg] at habs
  split at habs
  · omega
  -- only less than half a nanosecond becomes zero, and no low 32 bits are zero then
  have hlow : dts % 2 ^ 32 = ((dts % 2 ^ 32).toNat : Int) := by omega
  rw [hlow, avRescaleQ_eq_iff (by omega)] at habs
  obtain ⟨hzero, hnearest⟩ := habs
  have hzero := hzero.resolve_left hdts
  rw [hzero, nearest_eq_iff base.den_pos] at hnearest
  have hone : 2 ^ 32 ≤ dts.natAbs := by omega
  have hlarge : 2 ^ 32 * hstSecond ≤ dts.natAbs * (base.num * hstSecond) :=
    Nat.mul_le_mul hone (Nat.le_mul_of_pos_left _ base.num_pos)
  have hden := base.den_lt
  simp only [hstSecond] at hlarge hnearest
  omega

-- Each call

structure Inv (d : FFmpegDemuxerPlugin) : Prop where
  encoded : Encoded d
  selected : ∀ trackId ∈ d.selectedTrackIds_, IsTrackId d trackId

section Calls

variable {d : FFmpegDemuxerPlugin}

theorem stream_of_track {i : Nat} (h : some i ∈ d.tracks) : ∃ s, d.streams[i]? = some s := by
  obtain ⟨x, hx, h⟩ := List.mem_filterMap.mp h
  refine ⟨x.1, ?_⟩
  have hget := List.mem_zipIdx_iff_getElem?.mp hx
  split at h
  · simp at h
  split at h
  · simp at h
  split at h
  · rwa [Option.some.inj (Option.some.inj h)] at hget
  · simp at h

theorem Inv.of_streams {d' : FFmpegDemuxerPlugin} (hd : Inv d) (hstreams : d'.streams = d.streams)
    (hselected : ∀ trackId ∈ d'.selectedTrackIds_, IsTrackId d trackId) : Inv d' := by
  have htracks : d'.tracks = d.tracks := by rw [tracks, tracks, hstreams]
  refine ⟨?_, fun trackId h => ?_⟩
  · rw [Encoded, htracks, hstreams]
    exact hd.encoded
  · rw [IsTrackId, htracks]
    exact hselected trackId h

theorem right_selectTrack (trackId : Int) :
    Right d (.selectTrack trackId) ↔ Agrees d (.selectTrack trackId) := by
  have hok : (d.selectTrack trackId).2 = .ok ↔
      0 ≤ trackId ∧ trackId < (d.tracks.length : Int) := by
    rw [selectTrack]
    split
    · next h => simp; omega
    · next h => split <;> simp <;> omega
  rw [Right, Agrees, hok]

theorem streams_readFrame : d.readFrame.1.streams = d.streams ∧
    d.readFrame.1.selectedTrackIds_ = d.selectedTrackIds_ := by
  rw [readFrame]
  split
  · exact ⟨rfl, rfl⟩
  · split <;> exact ⟨rfl, rfl⟩

theorem convertAVPacketToFrameInfo_eq {s : AVStream} {pkt : AVPacket}
    (hs : s.codecType = .audio ∨ s.codecType = .video ∧ s.rawVideo = false) :
    ∃ frame, convertAVPacketToFrameInfo s pkt = some frame ∧
      (frame = wanted s pkt ↔ TimesAgree s.timeBase pkt) := by
  rw [TimesAgree, ← pts_agrees_iff, ← dts_agrees_iff, convertAVPacketToFrameInfo]
  rcases hs with hs | ⟨hs, hraw⟩
  · rw [hs]
    exact ⟨_, rfl, by simp [wanted]⟩
  · simp only [hs, hraw]
    exact ⟨_, rfl, by simp [wanted]⟩

theorem right_readFrame (hd : Inv d) : Right d .readFrame ↔ Agrees d .readFrame := by
  refine imp_congr_right fun hne => ?_
  have hloop : (d.packets.dropWhile fun pkt =>
      !d.selectedTrackIds_.isEmpty && !d.isSelectedTrack pkt.streamIndex) = selectedPackets d := by
    rw [selectedPackets]
    refine congrArg (List.dropWhile · d.packets) (funext fun pkt => ?_)
    have hempty : d.selectedTrackIds_.isEmpty = false := by simpa using hne
    have hany : d.isSelectedTrack pkt.streamIndex =
        decide ((pkt.streamIndex : Int) ∈ d.selectedTrackIds_) := by
      rw [isSelectedTrack, Bool.eq_iff_iff]
      simp
    simp [hempty, hany]
  rw [readFrame, hloop]
  rcases hrest : selectedPackets d with _ | ⟨pkt, rest⟩
  · simp
  -- the loop has ended at a packet of a track that is selected, so listed
  have hin : (pkt.streamIndex : Int) ∈ d.selectedTrackIds_ := by
    have hhead := List.head?_dropWhile_not
      (fun pkt : AVPacket => (pkt.streamIndex : Int) ∉ d.selectedTrackIds_) d.packets
    rw [← selectedPackets, hrest] at hhead
    simpa using hhead
  obtain ⟨i, hi, heq⟩ := hd.selected _ hin
  obtain rfl : i = pkt.streamIndex := by omega
  obtain ⟨s, hs⟩ := stream_of_track hi
  obtain ⟨frame, hframe, hiff⟩ := @convertAVPacketToFrameInfo_eq s pkt
    (hd.encoded _ s hi hs)
  simp [hs, hframe, hiff]

theorem Inv.step {t : FFmpegDemuxerPlugin} {call : Call} (hd : Inv d) (hcall : Agrees d call)
    (h : step d call = some t) : Inv t := by
  cases h
  rcases call with trackId | trackId | _
  · show Inv (d.selectTrack trackId).1
    rw [selectTrack]
    split
    · exact hd
    next hlt =>
    split
    · exact hd
    · refine hd.of_streams rfl fun id hid => ?_
      rcases List.mem_append.mp hid with hid | hid
      · exact hd.selected id hid
      · obtain rfl := List.mem_singleton.mp hid
        exact hcall.mp (by omega)
  · exact hd.of_streams rfl fun id hid => hd.selected id (List.mem_of_mem_erase hid)
  · refine hd.of_streams streams_readFrame.1 fun id hid => hd.selected id ?_
    rw [← streams_readFrame.2]
    exact hid

end Calls

/-- Every call is right exactly when the numbers of the listed tracks are the indices of their
streams, as far as they are asked for, and the times need not be converted where they are not. -/
theorem selected_delivered_iff (d : FFmpegDemuxerPlugin) (hencoded : Encoded d)
    (hnone : d.selectedTrackIds_ = []) (calls : List Call) :
    Runs.Along step Right d calls ↔ Runs.Along step Agrees d calls := by
  have hd : Inv d := ⟨hencoded, by simp [hnone]⟩
  refine Runs.along_congr (I := Inv) (fun d call hd => ?_) (fun d call t hd hright h => ?_) hd
  · rcases call with trackId | trackId | _
    · exact right_selectTrack trackId
    · exact Iff.rfl
    · exact right_readFrame hd
  · refine hd.step ?_ h
    rcases call with trackId | trackId | _
    · exact (right_selectTrack trackId).mp hright
    · trivial
    · exact (right_readFrame hd).mp hright

def audioBehindVideo (sized : Bool) : FFmpegDemuxerPlugin where
  streams := [{ codecType := .video, sized, timeBase := nanosecond },
    { codecType := .audio, timeBase := nanosecond }]
  packets := [⟨0, 5, 5, 1, [7]⟩, ⟨1, 5, 5, 1, [8]⟩, ⟨1, 6, 6, 1, [9]⟩]

theorem encoded_audioBehindVideo (sized : Bool) : Encoded (audioBehindVideo sized) := by
  intro i s hi hs
  have hlt := (List.getElem?_eq_some_iff.mp hs).1
  obtain rfl | rfl : i = 0 ∨ i = 1 := by
    change i < 2 at hlt
    omega
  · exact .inr (Option.some.inj hs ▸ ⟨rfl, rfl⟩)
  · exact .inl (Option.some.inj hs ▸ rfl)

theorem selected_delivered_iff_audioBehindVideo :
    Runs.Along step Right (audioBehindVideo true)
      [.selectTrack 1, .readFrame, .unselectTrack 1, .selectTrack 0, .readFrame] := by
  refine (selected_delivered_iff _ (encoded_audioBehindVideo true) rfl _).mpr ?_
  have htracks : (audioBehindVideo true).tracks = [some 0, some 1] := by decide
  have hone : IsTrackId (audioBehindVideo true) 1 := ⟨1, by rw [htracks]; decide, rfl⟩
  have hzero : IsTrackId (audioBehindVideo true) 0 := ⟨0, by rw [htracks]; decide, rfl⟩
  exact .cons (iff_of_true (by decide) hone) rfl <| .cons (fun _ => by decide +kernel) rfl <|
    .cons trivial rfl <| .cons (iff_of_true (by decide) hzero) rfl <|
    .cons (fun _ => by decide +kernel) rfl trivial

/-- The video stream has no size: the audio track has the number 1, and it is the only track. -/
theorem listed_not_selected : ¬ ∀ d : FFmpegDemuxerPlugin, Encoded d →
    d.selectedTrackIds_ = [] → ∀ calls, Runs.Along step Right d calls := by
  intro h
  have htracks : (audioBehindVideo false).tracks = [some 1] := by decide
  have hright := (h _ (encoded_audioBehindVideo false) rfl [.selectTrack 1]).1
  have hrefused : ((audioBehindVideo false).selectTrack 1).2 = .errorInvalidParameter := by decide
  have hok := hright.mpr ⟨1, by simp [htracks], rfl⟩
  rw [hrefused] at hok
  simp at hok

end MediaFoundation.TrackSelection
