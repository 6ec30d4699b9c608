import MediaFoundation.Demux.Mp3Window

/-!
# The ID3v2 tag before the frames of an MP3 file

`Minimp3DemuxerPlugin::GetMediaInfo` as a whole, from a new plugin on. Its rounds pass over a tag
and look for the first frame. `usedInputLength` stays where the round that ends the tag has left
it, and goes again in every round after it.
-/

namespace MediaFoundation.Minimp3

-- Tags

structure Id3v2Tag where
  version : UInt8
  revision : UInt8
  flags : UInt8
  /-- The digits of the length field. -/
  d0 : Fin 128
  d1 : Fin 128
  d2 : Fin 128
  d3 : Fin 128
  body : List UInt8
  flagsLow : flags &&& 15 = 0
  bodyLength : body.length = d0 * 2 ^ 21 + d1 * 2 ^ 14 + d2 * 2 ^ 7 + d3 +
    if flags &&& 16 ≠ 0 then 10 else 0

def syncsafe (d : Fin 128) : UInt8 := .ofNat d

def Id3v2Tag.bytes (tag : Id3v2Tag) : List UInt8 :=
  [0x49, 0x44, 0x33, tag.version, tag.revision, tag.flags, syncsafe tag.d0, syncsafe tag.d1,
    syncsafe tag.d2, syncsafe tag.d3] ++ tag.body

/-- An MP3 file. Data without a tag does not begin like one. -/
structure Mp3Source where
  tag : Option Id3v2Tag
  data : List UInt8
  untagged : tag = none → data.take 3 ≠ [0x49, 0x44, 0x33]

def Mp3Source.tagBytes (source : Mp3Source) : List UInt8 := source.tag.elim [] Id3v2Tag.bytes

def Mp3Source.tagLength (source : Mp3Source) : Nat := source.tagBytes.length

def Mp3Source.file (source : Mp3Source) : List UInt8 := source.tagBytes ++ source.data

theorem syncsafe_bits : ∀ d : Fin 128,
    syncsafe d &&& 0x80 = 0 ∧ (syncsafe d &&& 0x7f).toNat = d := by
  decide +kernel

theorem getId3v2Size_tag (tag : Id3v2Tag) (rest : List UInt8) {n : Nat} (hn : id3DetectSize ≤ n) :
    audioDemuxerMp3GetId3v2Size ((tag.bytes ++ rest).take n) = tag.bytes.length := by
  obtain ⟨m, rfl⟩ := Nat.exists_eq_add_of_le' hn
  have hlength := tag.bodyLength
  simp only [Id3v2Tag.bytes, id3DetectSize, List.cons_append, List.nil_append, List.take_succ_cons,
    audioDemuxerMp3GetId3v2Size, syncsafe_bits, tag.flagsLow, List.length_cons, hlength,
    and_self, if_pos]
  split <;> omega

theorem getId3v2Size_untagged {data : List UInt8} (h : data.take 3 ≠ [0x49, 0x44, 0x33]) (n : Nat) :
    audioDemuxerMp3GetId3v2Size (data.take n) = 0 := by
  unfold audioDemuxerMp3GetId3v2Size
  split
  next b0 b1 b2 _ _ _ _ _ _ _ _ hbytes =>
    refine if_neg ?_
    intro htag
    apply h
    have hprefix : ([b0, b1, b2] : List UInt8) <+: data := by
      refine List.IsPrefix.trans ?_ (List.take_prefix n data)
      rw [hbytes]
      exact List.prefix_append [b0, b1, b2] _
    rw [← htag.1]
    exact (List.prefix_iff_eq_take.mp hprefix).symm
  next => rfl

theorem Mp3Source.getId3v2Size (source : Mp3Source) {n : Nat} (hn : id3DetectSize ≤ n) :
    audioDemuxerMp3GetId3v2Size (source.file.take n) = source.tagLength := by
  unfold file tagLength tagBytes
  cases htag : source.tag with
  | none => exact getId3v2Size_untagged (source.untagged htag) n
  | some tag => exact getId3v2Size_tag tag source.data hn

-- GetMediaInfo

/-- A round of `GetMediaInfo`. `answers` has the bit rate of the frame that a call of the iterator
finds, after so many others. -/
def round (answers : Nat → Option Nat) (s : State) (f : Fetch) : Option (State × Option Status) :=
  (getDataFromSource s f).map fun (t, status) =>
    if status = .ok then prepare t (answers t.calls.length) else (t, some status)

def getMediaInfo (answers : Nat → Option Nat) : State → List Fetch → Option (State × Status)
  | _, [] => none
  | s, f :: fetches =>
    (round answers s f).bind fun (t, status) =>
      match status with
      | some status => some (t, status)
      | none => getMediaInfo answers t fetches

structure NextByte (start : Nat) (s : State) : Prop where
  pos : s.currentDemuxerPos = start
  offset : s.offset = start + s.ioDataRemainSize
  bytes : (s.inIoBuffer.drop s.usedInputLength).take s.ioDataRemainSize =
    (s.file.drop start).take s.ioDataRemainSize

structure SkipsExactly (source : Mp3Source) (s : State) : Prop where
  next : NextByte source.tagLength s
  size : s.id3v2Size = source.tagLength

-- A round

variable {source : Mp3Source} {answers : Nat → Option Nat} {s t : State} {f : Fetch}
  {status : Status}

theorem doReadFromSource_keeps {readSize : Nat} {reads : List ReadResult} {retryTimes : Nat}
    (h : doReadFromSource s readSize retryTimes reads = some (t, status)) :
    ∃ buffer offset remain, t = { s with
      inIoBuffer := buffer
      offset := offset
      ioDataRemainSize := remain } := by
  induction reads generalizing retryTimes with
  | nil => cases h
  | cons read rest ih =>
    cases read with
    | failed code =>
      cases h
      exact ⟨_, _, _, rfl⟩
    | bytes n =>
      unfold doReadFromSource at h
      split at h
      · exact ih h
      · split_ifs at h <;> cases h <;> exact ⟨_, _, _, rfl⟩

theorem getDataFromSource_keeps (h : getDataFromSource s f = some (t, status)) :
    ∃ buffer offset remain, t = { s with
      inIoBuffer := buffer
      offset := offset
      ioDataRemainSize := remain } := by
  unfold getDataFromSource at h
  obtain ⟨m, hm, h⟩ := Option.bind_eq_some_iff.mp h
  have hmoved : ∃ buffer, m = { s with inIoBuffer := buffer } := by
    unfold moveWindow at hm
    split_ifs at hm <;> cases hm <;> exact ⟨_, rfl⟩
  obtain ⟨buffer, rfl⟩ := hmoved
  dsimp only at h
  split_ifs at h
  all_goals first
    | (obtain ⟨_, _, _, rfl⟩ := doReadFromSource_keeps h; exact ⟨_, _, _, rfl⟩)
    | (cases h; exact ⟨_, _, _, rfl⟩)

/-- The tag is not passed over yet: either nothing is known of it, or what has been used up and
what is left of it are the tag. -/
structure Passing (source : Mp3Source) (s : State) : Prop where
  file : s.file = source.file
  flag : s.id3v2SkipFlag = false
  calls : s.calls = []
  progress : (s.id3v2Offset = 0 ∧ s.currentDemuxerPos = 0 ∧ s.usedInputLength = 0) ∨
    (0 < s.id3v2Offset ∧ s.currentDemuxerPos + s.id3v2Offset = source.tagLength ∧
      s.id3v2Size = source.tagLength)

/-- Between two rounds. -/
structure Before (source : Mp3Source) (s : State) : Prop extends Passing source s where
  window : Window s.usedInputLength s
  restful : s.ioDataRemainSize = 0 ∨ s.usedInputLength = 0

structure Ready (source : Mp3Source) (s : State) : Prop extends Passing source s where
  window : Window 0 s
  filled : 0 < s.ioDataRemainSize

/-- The tag is passed over without a frame: its last part is used up again and again. -/
structure After (source : Mp3Source) (s : State) : Prop where
  flag : s.id3v2SkipFlag = true
  used : 0 < s.usedInputLength
  tagged : 0 < source.tagLength
  passed : source.tagLength ≤ s.currentDemuxerPos

theorem before_new (source : Mp3Source) : Before source { file := source.file } where
  file := rfl
  flag := rfl
  calls := rfl
  progress := Or.inl ⟨rfl, rfl, rfl⟩
  window := ⟨List.length_replicate, Nat.zero_le _, rfl, Or.inl rfl, by simp⟩
  restful := Or.inl rfl

theorem findTag_after (h : s.id3v2SkipFlag = true) : findTag s = .none := by
  simp [findTag, h]

/-- Every round behind the tag uses its last part up again. -/
theorem After.prepare (h : After source s) (found : Option Nat) :
    (∀ status, (prepare s found).2 = some status →
        source.tagLength < (prepare s found).1.currentDemuxerPos) ∧
      ((prepare s found).2 = none → After source (prepare s found).1) := by
  have hpassed : source.tagLength < s.currentDemuxerPos + s.usedInputLength := by
    have hused := h.used
    have hle := h.passed
    omega
  have hagain : After source (consume s s.usedInputLength) :=
    ⟨h.flag, h.used, h.tagged, hpassed.le⟩
  unfold Minimp3.prepare
  split
  · exact ⟨fun _ hnone => (by cases hnone), fun _ => hagain⟩
  · rw [findTag_after h.flag]
    cases found with
    | some bitRate => exact ⟨fun _ _ => hpassed, fun hnone => (by cases hnone)⟩
    | none =>
      simp only [afterProbe, h.flag, if_pos]
      exact ⟨fun _ hnone => (by cases hnone), fun _ => ⟨rfl, h.used, h.tagged, hpassed.le⟩⟩

theorem After.round (h : After source s) {r : Option Status}
    (hround : round answers s f = some (t, r)) :
    (r = some .ok → source.tagLength < t.currentDemuxerPos) ∧ (r = none → After source t) := by
  obtain ⟨⟨u, status⟩, hget, hu⟩ := Option.map_eq_some_iff.mp hround
  have hafter : After source u := by
    obtain ⟨_, _, _, rfl⟩ := getDataFromSource_keeps hget
    exact ⟨h.flag, h.used, h.tagged, h.passed⟩
  dsimp only at hu
  split at hu
  · obtain ⟨hok, hnone⟩ := hafter.prepare (answers u.calls.length)
    rw [hu] at hok hnone
    exact ⟨hok .ok, hnone⟩
  next hfailed =>
    cases hu
    constructor
    · intro hok
      exact absurd (Option.some_inj.mp hok) hfailed
    · intro hnone
      cases hnone

/-- What a round leaves that is the first to end the tag, or comes before it. -/
structure RoundBefore (source : Mp3Source) (found : Option Nat) (t : State) (r : Option Status) :
    Prop where
  ok : r = some .ok → SkipsExactly source t ∧ found.isSome = true
  goesOn : r = none → Before source t ∨ (found = none ∧ After source t)

theorem RoundBefore.done {found : Option Nat} (h : SkipsExactly source t)
    (hfound : found.isSome = true) : RoundBefore source found t (some .ok) where
  ok := fun _ => ⟨h, hfound⟩
  goesOn := fun hnone => by cases hnone

theorem RoundBefore.failed {found : Option Nat} (h : status ≠ .ok) :
    RoundBefore source found t (some status) where
  ok := fun hok => absurd (Option.some_inj.mp hok) h
  goesOn := fun hnone => by cases hnone

theorem RoundBefore.more {found : Option Nat}
    (h : Before source t ∨ (found = none ∧ After source t)) : RoundBefore source found t none where
  ok := fun hok => by cases hok
  goesOn := fun _ => h

theorem Ready.size (h : Ready source s) (hoffset : s.id3v2Offset = 0)
    (hdetect : id3DetectSize ≤ s.ioDataRemainSize) :
    audioDemuxerMp3GetId3v2Size (Minimp3.window s) = source.tagLength := by
  have hpos : s.currentDemuxerPos = 0 := by
    rcases h.progress with hnew | hknown
    · exact hnew.2.1
    · omega
  rw [h.window.window_eq, hpos, List.drop_zero, h.file]
  exact source.getId3v2Size hdetect

theorem Ready.findTag (h : Ready source s) :
    (findTag s = .unknown ∧ s.id3v2Offset = 0) ∨
      (∃ left, s.currentDemuxerPos + left = source.tagLength ∧ foundSize s = source.tagLength ∧
        findTag s = if left = 0 then .none
          else if left ≤ s.ioDataRemainSize then .ends left else .goesOn left) := by
  by_cases hoffset : s.id3v2Offset = 0
  · by_cases hdetect : s.ioDataRemainSize < id3DetectSize
    · left
      simp [Minimp3.findTag, h.flag, hoffset, hdetect]
    · right
      have hsize := h.size hoffset (by omega)
      have hpos : s.currentDemuxerPos = 0 := by
        rcases h.progress with hnew | hknown
        · exact hnew.2.1
        · omega
      refine ⟨source.tagLength, by omega, ?_, ?_⟩
      · simp [foundSize, h.flag, hoffset, hsize]
      · simp [Minimp3.findTag, h.flag, hoffset, hdetect, hsize]
  · right
    rcases h.progress with hnew | hknown
    · exact absurd hnew.1 hoffset
    · refine ⟨s.id3v2Offset, hknown.2.1, ?_, ?_⟩
      · simp [foundSize, h.flag, hoffset, hknown.2.2]
      · simp [Minimp3.findTag, h.flag, hoffset]

theorem Window.nextByte {n : Nat} (h : Window n s) (hused : s.usedInputLength = n) :
    NextByte s.currentDemuxerPos s := by
  refine ⟨rfl, h.sum.symm, ?_⟩
  rw [hused]
  exact h.bytes

theorem Ready.unknown (h : Ready source s) (hoffset : s.id3v2Offset = 0) :
    Before source (consume { s with usedInputLength := 0 } 0) := by
  have hwindow : Window 0 { s with usedInputLength := 0 } := { h.window with }
  refine ⟨⟨h.file, h.flag, h.calls, Or.inl ?_⟩, hwindow.consume (Nat.zero_le _), Or.inr rfl⟩
  rcases h.progress with hnew | hknown
  · exact ⟨hoffset, hnew.2.1, rfl⟩
  · omega

theorem Ready.goesOn (h : Ready source s) {left : Nat}
    (hsum : s.currentDemuxerPos + left = source.tagLength)
    (hsize : foundSize s = source.tagLength) (hlt : s.ioDataRemainSize < left) :
    Before source (consume { s with
      usedInputLength := s.ioDataRemainSize
      id3v2Size := foundSize s
      id3v2Offset := left - s.ioDataRemainSize } s.ioDataRemainSize) := by
  have hwindow : Window 0 { s with
      usedInputLength := s.ioDataRemainSize
      id3v2Size := foundSize s
      id3v2Offset := left - s.ioDataRemainSize } := { h.window with }
  refine ⟨⟨h.file, h.flag, h.calls, Or.inr ⟨?_, ?_, hsize⟩⟩, hwindow.consume le_rfl,
    Or.inl ((consume_remain le_rfl hwindow.le).trans (Nat.sub_self _))⟩
  · show 0 < left - s.ioDataRemainSize
    omega
  · show s.currentDemuxerPos + s.ioDataRemainSize + (left - s.ioDataRemainSize) = _
    omega

theorem skipsExactly_record {left : Nat} (hle : left ≤ s.ioDataRemainSize)
    (hsum : s.currentDemuxerPos + left = source.tagLength) (ht : Window 0 t)
    (hpos : t.currentDemuxerPos = s.currentDemuxerPos)
    (hremain : t.ioDataRemainSize = s.ioDataRemainSize) (hused : t.usedInputLength = left)
    (hsize : t.id3v2Size = source.tagLength) (bitRate tag : Nat) (bytes : List UInt8) :
    SkipsExactly source
      (record s { consume t t.usedInputLength with bitRate } tag bytes none) := by
  have hwindow : Window left { consume t t.usedInputLength with bitRate } := by
    rw [hused]
    exact { ht.consume (by omega) with }
  refine ⟨?_, hsize⟩
  have hnext := hwindow.nextByte hused
  have hend : t.currentDemuxerPos + t.usedInputLength = source.tagLength := by omega
  have hstart : ({ consume t t.usedInputLength with bitRate } : State).currentDemuxerPos =
      source.tagLength := hend
  rw [hstart] at hnext
  exact ⟨hnext.pos, hnext.offset, hnext.bytes⟩

theorem Ready.prepare (h : Ready source s) (found : Option Nat) :
    RoundBefore source found (prepare s found).1 (prepare s found).2 := by
  have hfilled := h.filled
  have hflag := h.flag
  unfold Minimp3.prepare
  rw [if_neg (by omega)]
  obtain ⟨hunknown, hoffset⟩ | ⟨left, hsum, hsize, htag⟩ := h.findTag
  · rw [hunknown]
    exact .more (Or.inl (h.unknown hoffset))
  · rw [htag]
    by_cases hnone : left = 0
    · -- there is no tag, and nothing has been used up
      have hunused : s.usedInputLength = 0 := by
        rcases h.progress with hnew | hknown
        · exact hnew.2.2
        · omega
      have hzero : s.currentDemuxerPos + 0 = source.tagLength := by omega
      rw [if_pos hnone]
      cases found with
      | some bitRate =>
        refine .done ?_ rfl
        exact skipsExactly_record (t := { s with id3v2Size := foundSize s }) (Nat.zero_le _)
          hzero { h.window with } rfl rfl hunused hsize _ _ _
      | none =>
        have hfailed : afterProbe s { s with id3v2Size := foundSize s } 0 none =
            (record s { s with id3v2Size := foundSize s } 0 ((Minimp3.window s).drop 0) none,
              some .errorUnsupportedFormat) := by
          simp [afterProbe, hflag]
        simp only [hfailed]
        exact .failed (by simp)
    · rw [if_neg hnone]
      by_cases hends : left ≤ s.ioDataRemainSize
      · rw [if_pos hends]
        cases found with
        | some bitRate =>
          refine .done ?_ rfl
          exact skipsExactly_record (t := { s with
            usedInputLength := left
            id3v2SkipFlag := true
            id3v2Size := foundSize s
            id3v2Offset := 0 }) hends hsum { h.window with } rfl rfl rfl hsize _ _ _
        | none =>
          refine .more (Or.inr ⟨rfl, rfl, ?_, ?_, ?_⟩)
          · show 0 < left
            omega
          · omega
          · show source.tagLength ≤ s.currentDemuxerPos + left
            omega
      · rw [if_neg hends]
        exact .more (Or.inl (h.goesOn hsum hsize (by omega)))

theorem Before.round (h : Before source s) {r : Option Status}
    (hround : round answers s f = some (t, r)) : RoundBefore source (answers 0) t r := by
  obtain ⟨⟨u, status⟩, hget, hu⟩ := Option.map_eq_some_iff.mp hround
  have hkeeps : KeepsFetch s f := by
    rcases h.restful with hempty | hunused
    · exact Or.inl hempty
    · exact Or.inr (Or.inl hunused)
  obtain ⟨hgot, -⟩ := h.window.getDataFromSource hkeeps hget
  dsimp only at hu
  split at hu
  next hok =>
    have hready : Ready source u := by
      obtain ⟨_, _, _, rfl⟩ := getDataFromSource_keeps hget
      exact ⟨⟨h.file, h.flag, h.calls, h.progress⟩, hgot.window, hgot.filled hok⟩
    have hcalls : u.calls.length = 0 := by rw [hready.calls]; rfl
    rw [hcalls] at hu
    have hprepared := hready.prepare (answers 0)
    rw [hu] at hprepared
    exact hprepared
  next hfailed =>
    cases hu
    exact .failed hfailed

-- All rounds

theorem After.getMediaInfo {fetches : List Fetch} (h : After source s)
    (hrun : getMediaInfo answers s fetches = some (t, .ok)) :
    source.tagLength < t.currentDemuxerPos := by
  induction fetches generalizing s with
  | nil => cases hrun
  | cons f fetches ih =>
    obtain ⟨⟨u, r⟩, hround, hrest⟩ := Option.bind_eq_some_iff.mp hrun
    obtain ⟨hok, hnone⟩ := h.round hround
    cases r with
    | some status =>
      cases hrest
      exact hok rfl
    | none => exact ih (hnone rfl) hrest

theorem Before.getMediaInfo {fetches : List Fetch} (h : Before source s)
    (hrun : getMediaInfo answers s fetches = some (t, .ok)) :
    (SkipsExactly source t ∧ (answers 0).isSome = true) ∨
      (answers 0 = none ∧ 0 < source.tagLength ∧ source.tagLength < t.currentDemuxerPos) := by
  induction fetches generalizing s with
  | nil => cases hrun
  | cons f fetches ih =>
    obtain ⟨⟨u, r⟩, hround, hrest⟩ := Option.bind_eq_some_iff.mp hrun
    have hleft := h.round hround
    cases r with
    | some status =>
      cases hrest
      exact Or.inl (hleft.ok rfl)
    | none =>
      obtain hbefore | ⟨hanswer, hafter⟩ := hleft.goesOn rfl
      · exact ih hbefore hrest
      · exact Or.inr ⟨hanswer, hafter.tagged, hafter.getMediaInfo hrest⟩

theorem Mp3Source.tagLength_pos {source : Mp3Source} :
    0 < source.tagLength ↔ source.tag ≠ none := by
  unfold tagLength tagBytes
  cases source.tag with
  | none => simp
  | some tag => simp [Id3v2Tag.bytes]

/-- **The tag is skipped exactly** if there is none, or the iterator finds a frame when it is called
for the first time, in the round that ends the tag. -/
theorem skipsExactly_iff (source : Mp3Source) (answers : Nat → Option Nat) (fetches : List Fetch)
    (s : State) (hrun : getMediaInfo answers { file := source.file } fetches = some (s, .ok)) :
    SkipsExactly source s ↔ source.tag = none ∨ (answers 0).isSome = true := by
  obtain ⟨hright, hfound⟩ | ⟨hnone, htagged, hpassed⟩ := (before_new source).getMediaInfo hrun
  · simp [hright, hfound]
  · have hwrong : ¬ SkipsExactly source s := by
      intro h
      have hpos := h.next.pos
      omega
    have htag := Mp3Source.tagLength_pos.mp htagged
    simp [hwrong, hnone, htag]

def tenByteTag : Mp3Source where
  tag := some ⟨4, 0, 0, 0, 0, 0, 0, [], by decide, by decide⟩
  data := mp3Frame ++ mp3Frame
  untagged := by simp

theorem skipsExactly_iff_ten : ∃ s,
    getMediaInfo (fun _ => some 32) { file := tenByteTag.file } [⟨true, [.bytes 218]⟩] =
      some (s, .ok) ∧ SkipsExactly tenByteTag s := by
  have hok : (getMediaInfo (fun _ => some 32) { file := tenByteTag.file }
      [⟨true, [.bytes 218]⟩]).map Prod.snd = some .ok := by decide +kernel
  obtain ⟨⟨s, status⟩, hrun, rfl⟩ := Option.map_eq_some_iff.mp hok
  exact ⟨s, hrun, (skipsExactly_iff tenByteTag _ _ s hrun).mpr (.inr rfl)⟩

/-- They are read in two pieces, and the iterator finds the frame when it has both: ten bytes behind
the tag are passed over with it. -/
theorem ten_not_skipped : ∃ s,
    getMediaInfo (fun n => if n = 0 then none else some 32) { file := tenByteTag.file }
      [⟨true, [.bytes 14]⟩, ⟨true, [.bytes 204]⟩] = some (s, .ok) ∧ ¬ SkipsExactly tenByteTag s := by
  have hpos : (getMediaInfo (fun n => if n = 0 then none else some 32) { file := tenByteTag.file }
      [⟨true, [.bytes 14]⟩, ⟨true, [.bytes 204]⟩]).map (fun r => (r.1.currentDemuxerPos, r.2)) =
        some (20, .ok) := by decide +kernel
  obtain ⟨⟨s, status⟩, hrun, heq⟩ := Option.map_eq_some_iff.mp hpos
  obtain ⟨hpos, rfl⟩ := Prod.mk.inj heq
  refine ⟨s, hrun, fun h => ?_⟩
  have hnext := h.next.pos
  rw [show s.currentDemuxerPos = 20 from hpos] at hnext
  exact absurd hnext (by decide)

end MediaFoundation.Minimp3
