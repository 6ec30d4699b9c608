import MediaFoundation.Lib.Runs
import MediaFoundation.Demux.AacDemuxer

/-!
# The frames of the AAC demuxer

A frame is only cut out when two more bytes stand behind it in the window, and
what is in the window is dropped otherwise. So the last frame of a file is never
delivered, whatever the pieces and the other plugins are: the bytes delivered and
two more came from the file (`Booked`).

A call of `ReadFrame` moves the bytes that remain by the length that some plugin
used last. It goes on in the file when that stays in the window, and when the
window does not begin with a header of length zero (`readFrame_proceeds`).
-/

namespace MediaFoundation.AacDemuxer

-- Memory

theorem load_some {buffer : List UInt8} {i len : Nat} (h : i + len ≤ buffer.length) :
    load buffer i len = some ((buffer.drop i).take len) := if_pos h

theorem isAACPattern_some {buffer : List UInt8} {i : Nat} (h : i + 1 < buffer.length) :
    ∃ found, isAACPattern buffer i = some found := by
  rw [isAACPattern, List.getElem?_eq_getElem (by omega), Option.bind_some]
  split
  · exact ⟨_, by rw [List.getElem?_eq_getElem h, Option.map_some]⟩
  · exact ⟨_, rfl⟩

theorem getFrameLength_some {buffer : List UInt8} (h : 5 < buffer.length) :
    ∃ length, getFrameLength buffer = some length := by
  rw [getFrameLength, List.getElem?_eq_getElem (show 3 < buffer.length by omega), Option.bind_some,
    List.getElem?_eq_getElem (show 4 < buffer.length by omega), Option.bind_some,
    List.getElem?_eq_getElem h, Option.map_some]
  exact ⟨_, rfl⟩

-- Cutting a frame out

def ZeroHeader (buffer : List UInt8) (bufferLen : Nat) : Prop :=
  2 ≤ bufferLen ∧ isAACPattern buffer 0 = some true ∧ getFrameLength buffer = some 0

/-- What is used is in the window, and two bytes stand behind a frame in it. -/
structure AACDemuxerRst.Within (rst : AACDemuxerRst) (bufferLen : Nat) : Prop where
  pos : 0 < rst.usedInputLength
  le : rst.usedInputLength ≤ bufferLen
  frame : rst.frameBuffer ≠ [] →
    rst.frameBuffer.length = rst.usedInputLength ∧ rst.usedInputLength + 2 ≤ bufferLen

theorem process_spec {buffer : List UInt8} {bufferLen : Nat}
    (hbuffer : buffer.length = mediaIoSize) (hpos : 0 < bufferLen) (hle : bufferLen ≤ mediaIoSize) :
    (ZeroHeader buffer bufferLen ∧ audioDemuxerAACProcess buffer bufferLen = some none) ∨
    (¬ ZeroHeader buffer bufferLen ∧
      ∃ rst, audioDemuxerAACProcess buffer bufferLen = some (some rst) ∧ rst.Within bufferLen) := by
  have hsize : mediaIoSize = 2048 := rfl
  obtain ⟨found, hfound⟩ := isAACPattern_some (show 0 + 1 < buffer.length by omega)
  obtain ⟨length, hlength⟩ := getFrameLength_some (show 5 < buffer.length by omega)
  rw [audioDemuxerAACProcess, hfound, Option.bind_some]
  have hone : (⟨1, []⟩ : AACDemuxerRst).Within bufferLen := ⟨Nat.one_pos, hpos, nofun⟩
  cases found with
  | false =>
    refine .inr ⟨fun habs => ?_, _, rfl, hone⟩
    have := hfound.symm.trans habs.2.1
    cases this
  | true =>
    rw [hlength]
    simp only [Bool.not_true, Bool.false_eq_true, if_false, Option.bind_some]
    have hnonzero : length ≠ 0 → ¬ ZeroHeader buffer bufferLen := fun hne habs =>
      hne (Option.some.inj (hlength.symm.trans habs.2.2))
    split
    next hshort =>
      refine .inr ⟨fun habs => ?_, _, rfl, hpos, Nat.le_refl _, nofun⟩
      have hzero : length = 0 := Option.some.inj (hlength.symm.trans habs.2.2)
      have := habs.1
      omega
    next hfits =>
      split
      next hzero => exact .inl ⟨⟨by omega, hfound, hzero ▸ hlength⟩, rfl⟩
      next hne =>
        obtain ⟨next, hnext⟩ := isAACPattern_some (show length + 1 < buffer.length by omega)
        rw [hnext, Option.bind_some]
        cases next with
        | false => exact .inr ⟨hnonzero hne, _, rfl, hone⟩
        | true =>
          rw [load_some (by omega)]
          refine .inr ⟨hnonzero hne, _, rfl, Nat.pos_of_ne_zero hne, by show length ≤ _; omega, fun _ => ?_⟩
          refine ⟨?_, by show length + 2 ≤ _; omega⟩
          show ((buffer.drop 0).take length).length = length
          rw [List.length_take, List.length_drop]
          omega

-- The window

namespace AACDemuxerPlugin

/-- The window holds bytes of the file that were read. -/
structure Sound (p : AACDemuxerPlugin) : Prop where
  buffer : p.inIoBuffer.length = mediaIoSize
  remain_le : p.ioDataRemainSize ≤ mediaIoSize
  remain : p.ioDataRemainSize ≤ p.ioOffset
  offset : p.ioOffset ≤ p.file.length

/-- The bytes that the first answer of the source has. -/
def arrival (pieces : Nat → Nat) (p : AACDemuxerPlugin) : List UInt8 :=
  (p.file.drop p.ioOffset).take
    (min (min (mediaIoSize - p.ioDataRemainSize) (p.file.length - p.ioOffset)) (pieces 0))

def moved (usedDataSize : Nat) (p : AACDemuxerPlugin) : List UInt8 :=
  if p.ioDataRemainSize = 0 then p.inIoBuffer
  else
    (p.inIoBuffer.drop usedDataSize).take p.ioDataRemainSize ++
      List.replicate (mediaIoSize - p.ioDataRemainSize) 0

/-- The window: the bytes that remain, and the answer behind them. -/
def window (usedDataSize : Nat) (pieces : Nat → Nat) (p : AACDemuxerPlugin) : List UInt8 :=
  (p.moved usedDataSize).take p.ioDataRemainSize ++ p.arrival pieces ++
    (p.moved usedDataSize).drop (p.ioDataRemainSize + (p.arrival pieces).length)

def MovesInside (usedDataSize : Nat) (p : AACDemuxerPlugin) : Prop :=
  p.ioDataRemainSize = 0 ∨ usedDataSize + p.ioDataRemainSize ≤ mediaIoSize

variable {p : AACDemuxerPlugin} {usedDataSize : Nat} {pieces : Nat → Nat}

theorem length_arrival (pieces : Nat → Nat) (p : AACDemuxerPlugin) :
    (p.arrival pieces).length =
      min (min (mediaIoSize - p.ioDataRemainSize) (p.file.length - p.ioOffset)) (pieces 0) := by
  rw [arrival, List.length_take, List.length_drop]
  omega

theorem length_moved (h : p.Sound) (hin : MovesInside usedDataSize p) :
    (p.moved usedDataSize).length = mediaIoSize := by
  have hremain := h.remain_le
  rw [moved]
  split
  · exact h.buffer
  next hne =>
    have := hin.resolve_left hne
    rw [List.length_append, List.length_take, List.length_drop, List.length_replicate, h.buffer]
    omega

theorem moveRemain_some (h : p.Sound) (hin : MovesInside usedDataSize p) :
    moveRemain usedDataSize p = some { p with inIoBuffer := p.moved usedDataSize } := by
  have hbuffer := h.buffer
  have hremain := h.remain_le
  rw [moveRemain, moved]
  split
  next => rfl
  next hne =>
    have hin := hin.resolve_left hne
    rw [load_some (by omega), Option.bind_some]
    have hlen : ((p.inIoBuffer.drop usedDataSize).take p.ioDataRemainSize).length =
        p.ioDataRemainSize := by
      rw [List.length_take, List.length_drop]
      omega
    generalize (p.inIoBuffer.drop usedDataSize).take p.ioDataRemainSize = front at hlen ⊢
    have hfirst : store p.inIoBuffer 0 front =
        some (front ++ p.inIoBuffer.drop p.ioDataRemainSize) := by
      rw [store, if_pos (by omega), hlen]
      simp
    have hall : p.ioDataRemainSize + (mediaIoSize - p.ioDataRemainSize) = mediaIoSize := by omega
    have htotal : (front ++ p.inIoBuffer.drop p.ioDataRemainSize).length = mediaIoSize := by
      rw [List.length_append, List.length_drop]
      omega
    rw [hfirst, Option.bind_some, store, List.length_replicate, hall, if_pos htotal.ge,
      Option.map_some, List.drop_of_length_le htotal.le, List.append_nil,
      List.take_append_of_le_length hlen.ge, List.take_of_length_le hlen.le]

theorem moveRemain_none (h : p.Sound) (hout : ¬ MovesInside usedDataSize p) :
    moveRemain usedDataSize p = none := by
  obtain ⟨hne, hlong⟩ := not_or.mp hout
  rw [moveRemain, if_neg hne, load, h.buffer, if_neg hlong]
  rfl

/-- One answer of the source is enough, since it has a byte. -/
theorem readLoop_spec (h : p.Sound) (hpieces : ∀ n, 0 < pieces n) {readSize : Nat}
    (hread : 0 < readSize) (hfit : readSize ≤ mediaIoSize - p.ioDataRemainSize)
    (hmore : p.ioOffset < p.file.length) :
    readLoop pieces readSize 200 p = some (.ok, { p with
      inIoBuffer := p.inIoBuffer.take p.ioDataRemainSize ++
        (p.file.drop p.ioOffset).take (min readSize (pieces 0)) ++
        p.inIoBuffer.drop (p.ioDataRemainSize +
          ((p.file.drop p.ioOffset).take (min readSize (pieces 0))).length)
      ioOffset := p.ioOffset + ((p.file.drop p.ioOffset).take (min readSize (pieces 0))).length
      ioDataRemainSize := p.ioDataRemainSize +
        ((p.file.drop p.ioOffset).take (min readSize (pieces 0))).length }) := by
  have hseek : p.isSeekable = true := by
    rw [isSeekable, fileSize, decide_eq_true_eq]
    omega
  have hpos := hpieces 0
  have hbuffer := h.buffer
  have hanswer : readAt p.file (if p.isSeekable then p.ioOffset else 0) readSize
      (pieces (200 - 200)) = (.ok, (p.file.drop p.ioOffset).take (min readSize (pieces 0))) := by
    rw [hseek, if_pos rfl, readAt, if_neg (by omega)]
  have hlen : ((p.file.drop p.ioOffset).take (min readSize (pieces 0))).length =
      min (min readSize (pieces 0)) (p.file.length - p.ioOffset) := by
    rw [List.length_take, List.length_drop]
  rw [readLoop, hanswer]
  generalize (p.file.drop p.ioOffset).take (min readSize (pieces 0)) = bytes at hlen ⊢
  simp only [ne_eq, not_true_eq_false, if_false]
  have hin : p.ioDataRemainSize + bytes.length ≤ p.inIoBuffer.length := by omega
  rw [receive, if_neg (by omega), store, if_pos hin, Option.map_some, Option.bind_some]
  simp only [hseek, if_true]
  rw [if_neg (by omega)]

theorem getDataFromSource_none (h : p.Sound) (hout : ¬ MovesInside usedDataSize p) :
    getDataFromSource usedDataSize pieces p = none := by
  rw [getDataFromSource, moveRemain_none h hout]
  rfl

theorem getDataFromSource_end (h : p.Sound) (hzero : p.ioDataRemainSize = 0)
    (hend : p.file.length ≤ p.ioOffset) :
    ∃ p', getDataFromSource usedDataSize pieces p = some (.endOfStream, p') ∧ p'.Sound ∧
      p'.file = p.file := by
  have hmoved : p.moved usedDataSize = p.inIoBuffer := if_pos hzero
  have hmove : moveRemain usedDataSize p = _ := moveRemain_some h (.inl hzero)
  rw [hmoved] at hmove
  have hsize : mediaIoSize = 2048 := rfl
  rw [getDataFromSource, hmove, Option.bind_some]
  by_cases hseek : p.isSeekable = true
  · refine ⟨{ p with eos := true, ioOffset := 0 }, ?_, ⟨h.buffer, h.remain_le, ?_, Nat.zero_le _⟩, rfl⟩
    · show (if p.isSeekable = true then if p.fileSize ≤ p.ioOffset ∧ p.ioDataRemainSize = 0 then _
        else _ else _) = _
      rw [if_pos hseek, if_pos ⟨hend, hzero⟩]
    · show p.ioDataRemainSize ≤ 0
      omega
  · -- an empty file: the source says that it is at its end
    refine ⟨p, ?_, h, rfl⟩
    show (if p.isSeekable = true then _ else doReadFromSource pieces
      (mediaIoSize - p.ioDataRemainSize) p) = _
    have hempty : p.file.length = 0 := by
      rw [isSeekable, fileSize, decide_eq_true_eq] at hseek
      omega
    have hanswer : ∀ readSize piece, readAt p.file (if p.isSeekable then p.ioOffset else 0) readSize
        piece = (.endOfStream, []) := fun _ _ => if_pos (by rw [hempty]; exact Nat.zero_le _)
    rw [if_neg hseek, doReadFromSource, if_neg (by omega), readLoop, hanswer]
    rfl

theorem getDataFromSource_ok (h : p.Sound) (hpieces : ∀ n, 0 < pieces n)
    (hin : MovesInside usedDataSize p)
    (hmore : p.ioDataRemainSize ≠ 0 ∨ p.ioOffset < p.file.length) :
    0 < p.ioDataRemainSize + (p.arrival pieces).length ∧
      ∃ p', getDataFromSource usedDataSize pieces p = some (.ok, p') ∧ p'.Sound ∧
        p'.file = p.file ∧ p'.inIoBuffer = p.window usedDataSize pieces ∧
        p'.ioOffset = p.ioOffset + (p.arrival pieces).length ∧
        p'.ioDataRemainSize = p.ioDataRemainSize + (p.arrival pieces).length := by
  have hsize : mediaIoSize = 2048 := rfl
  have hremain := h.remain
  have hremain' := h.remain_le
  have hoffset := h.offset
  have hlength := length_arrival pieces p
  have hpos := hpieces 0
  have hlen := length_moved h hin
  have hseek : p.isSeekable = true := by
    rw [isSeekable, fileSize, decide_eq_true_eq]
    omega
  have hsound : ({ p with inIoBuffer := p.moved usedDataSize } : AACDemuxerPlugin).Sound :=
    ⟨hlen, h.remain_le, h.remain, h.offset⟩
  refine ⟨by omega, { p with
    inIoBuffer := p.window usedDataSize pieces
    ioOffset := p.ioOffset + (p.arrival pieces).length
    ioDataRemainSize := p.ioDataRemainSize + (p.arrival pieces).length }, ?_, ⟨?_, ?_, ?_, ?_⟩, rfl,
    rfl, rfl, rfl⟩
  · rw [getDataFromSource, moveRemain_some h hin, Option.bind_some]
    show (if p.isSeekable = true then if p.fileSize ≤ p.ioOffset ∧ p.ioDataRemainSize = 0 then _
      else doReadFromSource pieces (if p.fileSize < p.ioOffset + (mediaIoSize - p.ioDataRemainSize)
        then p.fileSize - p.ioOffset else mediaIoSize - p.ioDataRemainSize) _ else _) = _
    have hneed : (if p.fileSize < p.ioOffset + (mediaIoSize - p.ioDataRemainSize)
        then p.fileSize - p.ioOffset else mediaIoSize - p.ioDataRemainSize) =
        min (mediaIoSize - p.ioDataRemainSize) (p.file.length - p.ioOffset) := by
      rw [fileSize]
      split <;> omega
    have hnot : ¬ (p.fileSize ≤ p.ioOffset ∧ p.ioDataRemainSize = 0) := by
      rw [fileSize]
      omega
    rw [if_pos hseek, if_neg hnot, hneed, doReadFromSource]
    split
    next hnone =>
      -- the window is full, or the file is read
      have hnil : p.arrival pieces = [] := List.length_eq_zero_iff.mp (by omega)
      rw [window, hnil, List.append_nil, List.length_nil, Nat.add_zero, Nat.add_zero,
        List.take_append_drop]
    next hsome =>
      rw [readLoop_spec hsound hpieces (Nat.pos_of_ne_zero hsome) (Nat.min_le_left _ _)
        (show p.ioOffset < p.file.length by omega)]
      rfl
  · show (p.window usedDataSize pieces).length = mediaIoSize
    rw [window, List.length_append, List.length_append, List.length_take, List.length_drop, hlen]
    omega
  · show p.ioDataRemainSize + _ ≤ mediaIoSize
    omega
  · show p.ioDataRemainSize + _ ≤ p.ioOffset + _
    omega
  · show p.ioOffset + _ ≤ p.file.length
    omega

-- ReadFrame

/-- The call ends the stream, or consumes a byte of the file. -/
def Proceeds (usedDataSize : Nat) (pieces : Nat → Nat) (p : AACDemuxerPlugin) : Prop :=
  ∃ r, p.readFrame usedDataSize pieces = some r ∧
    (r.status = .endOfStream ∨
      p.ioOffset + r.plugin.ioDataRemainSize < r.plugin.ioOffset + p.ioDataRemainSize)

structure Kept (p : AACDemuxerPlugin) (r : Reading) : Prop where
  sound : r.plugin.Sound
  file : r.plugin.file = p.file
  ended : r.status = .endOfStream → r.outBuffer = []
  /-- The bytes delivered were read from the file. -/
  booked : r.status ≠ .endOfStream →
    p.ioOffset + r.outBuffer.length + r.plugin.ioDataRemainSize ≤
      r.plugin.ioOffset + p.ioDataRemainSize
  /-- Two more bytes stood behind a frame. -/
  behind : r.outBuffer ≠ [] →
    p.ioOffset + r.outBuffer.length + 2 ≤ r.plugin.ioOffset + p.ioDataRemainSize

theorem readFrame_spec (h : p.Sound) (hpieces : ∀ n, 0 < pieces n) :
    (¬ MovesInside usedDataSize p ∧ p.readFrame usedDataSize pieces = none) ∨
    (∃ r, p.readFrame usedDataSize pieces = some r ∧ Kept p r ∧
      (p.ioDataRemainSize = 0 ∧ p.file.length ≤ p.ioOffset ∧ r.status = .endOfStream ∨
        (p.ioDataRemainSize ≠ 0 ∨ p.ioOffset < p.file.length) ∧ r.status ≠ .endOfStream ∧
          (ZeroHeader (p.window usedDataSize pieces)
              (p.ioDataRemainSize + (p.arrival pieces).length) ∧
            r.plugin.ioOffset + p.ioDataRemainSize = p.ioOffset + r.plugin.ioDataRemainSize ∨
          ¬ ZeroHeader (p.window usedDataSize pieces)
              (p.ioDataRemainSize + (p.arrival pieces).length) ∧
            p.ioOffset + r.plugin.ioDataRemainSize < r.plugin.ioOffset + p.ioDataRemainSize))) := by
  by_cases hin : MovesInside usedDataSize p
  · refine .inr ?_
    by_cases hend : p.ioDataRemainSize = 0 ∧ p.file.length ≤ p.ioOffset
    · obtain ⟨p', hget, hsound, hfile⟩ :=
        getDataFromSource_end h hend.1 hend.2
      refine ⟨⟨.endOfStream, [], usedDataSize, p'⟩, ?_,
        ⟨hsound, hfile, fun _ => rfl, fun habs => absurd rfl habs, fun habs => absurd rfl habs⟩,
        .inl ⟨hend.1, hend.2, rfl⟩⟩
      rw [readFrame, hget]
      rfl
    · have hmore : p.ioDataRemainSize ≠ 0 ∨ p.ioOffset < p.file.length := by omega
      obtain ⟨hpos, p', hget, hsound, hfile, hbuffer, hoffset, hremain⟩ :=
        getDataFromSource_ok h hpieces hin hmore
      rw [← hremain] at hpos ⊢
      rw [← hbuffer]
      rcases process_spec hsound.buffer hpos hsound.remain_le with
        ⟨hzero, hprocess⟩ | ⟨hzero, rst, hprocess, hwithin⟩
      · have hread : p.readFrame usedDataSize pieces =
            some ⟨.errorUnknown, [], usedDataSize, p'⟩ := by
          rw [readFrame, hget, Option.bind_some, hprocess]
          rfl
        refine ⟨_, hread, ⟨hsound, hfile, fun habs => (by cases habs), fun _ => ?_,
          fun habs => absurd rfl habs⟩,
          .inr ⟨hmore, fun habs => (by cases habs), .inl ⟨hzero, ?_⟩⟩⟩
        · show p.ioOffset + 0 + p'.ioDataRemainSize ≤ p'.ioOffset + p.ioDataRemainSize
          omega
        · show p'.ioOffset + p.ioDataRemainSize = p.ioOffset + p'.ioDataRemainSize
          omega
      · have hread : p.readFrame usedDataSize pieces =
            some ⟨.ok, rst.frameBuffer, rst.usedInputLength,
              { p' with ioDataRemainSize := p'.ioDataRemainSize - rst.usedInputLength }⟩ := by
          rw [readFrame, hget, Option.bind_some, hprocess]
          rfl
        have hused := hwithin.pos
        have hle := hwithin.le
        have hsremain := hsound.remain
        have hsremain' := hsound.remain_le
        refine ⟨_, hread, ⟨⟨hsound.buffer, ?_, ?_, hsound.offset⟩, hfile, fun habs => (by cases habs),
          fun _ => ?_, fun hne => ?_⟩,
          .inr ⟨hmore, fun habs => (by cases habs), .inr ⟨hzero, ?_⟩⟩⟩
        · show p'.ioDataRemainSize - rst.usedInputLength ≤ mediaIoSize
          omega
        · show p'.ioDataRemainSize - rst.usedInputLength ≤ p'.ioOffset
          omega
        · show p.ioOffset + rst.frameBuffer.length + (p'.ioDataRemainSize - rst.usedInputLength) ≤
            p'.ioOffset + p.ioDataRemainSize
          by_cases hnil : rst.frameBuffer = []
          · rw [hnil, List.length_nil]
            omega
          · have := (hwithin.frame hnil).1
            omega
        · obtain ⟨hlen, htwo⟩ := hwithin.frame hne
          show p.ioOffset + rst.frameBuffer.length + 2 ≤ p'.ioOffset + p.ioDataRemainSize
          omega
        · show p.ioOffset + (p'.ioDataRemainSize - rst.usedInputLength) <
            p'.ioOffset + p.ioDataRemainSize
          omega
  · exact .inl ⟨hin, by rw [readFrame, getDataFromSource_none h hin]; rfl⟩

theorem readFrame_proceeds (h : p.Sound) (hpieces : ∀ n, 0 < pieces n) :
    Proceeds usedDataSize pieces p ↔
      MovesInside usedDataSize p ∧
        ¬ ZeroHeader (p.window usedDataSize pieces)
          (p.ioDataRemainSize + (p.arrival pieces).length) := by
  rcases readFrame_spec h hpieces with ⟨hout, hread⟩ | ⟨r, hread, hkept, hcase⟩
  · constructor
    · rintro ⟨r, habs, -⟩
      rw [hread] at habs
      cases habs
    · exact fun habs => absurd habs.1 hout
  · have hin : MovesInside usedDataSize p := by
      by_contra hout
      rw [readFrame, getDataFromSource_none h hout] at hread
      cases hread
    rw [and_iff_right hin]
    rcases hcase with ⟨hzero, hend, hstatus⟩ | ⟨-, hstatus, ⟨hheader, hsame⟩ | ⟨hheader, hless⟩⟩
    · refine iff_of_true ⟨r, hread, .inl hstatus⟩ fun habs => ?_
      have hlength := length_arrival pieces p
      have := habs.1
      omega
    · refine iff_of_false ?_ (not_not.mpr hheader)
      rintro ⟨r', hread', hr'⟩
      rw [hread] at hread'
      cases hread'
      rcases hr' with hr' | hr'
      · exact hstatus hr'
      · omega
    · exact iff_of_true ⟨r, hread, .inr hless⟩ hheader

theorem readFrame_kept (h : p.Sound) (hpieces : ∀ n, 0 < pieces n) {r : Reading}
    (hread : p.readFrame usedDataSize pieces = some r) : Kept p r := by
  rcases readFrame_spec h hpieces with ⟨-, hnone⟩ | ⟨r', hread', hkept, -⟩
  · rw [hnone] at hread
    cases hread
  · rw [hread'] at hread
    exact Option.some.inj hread ▸ hkept

theorem getMediaInfo_kept (h : p.Sound) (hpieces : ∀ n, 0 < pieces n) {status : Status}
    {p' : AACDemuxerPlugin} (hinfo : p.getMediaInfo usedDataSize pieces = some (status, p')) :
    Kept p ⟨status, [], usedDataSize, p'⟩ := by
  obtain ⟨⟨status', p''⟩, hget, hrest⟩ := Option.bind_eq_some_iff.mp hinfo
  have hin : MovesInside usedDataSize p := by
    by_contra hout
    rw [getDataFromSource_none h hout] at hget
    cases hget
  by_cases hend : p.ioDataRemainSize = 0 ∧ p.file.length ≤ p.ioOffset
  · obtain ⟨q, hget', hsound, hfile⟩ :=
      getDataFromSource_end h hend.1 hend.2
    rw [hget'] at hget
    cases hget
    cases hrest
    exact ⟨hsound, hfile, fun _ => rfl, fun habs => absurd rfl habs, fun habs => absurd rfl habs⟩
  · obtain ⟨-, q, hget', hsound, hfile, -, hoffset, hremain⟩ :=
      getDataFromSource_ok h hpieces hin (by omega)
    rw [hget'] at hget
    cases hget
    obtain ⟨found, -, hrest⟩ := Option.map_eq_some_iff.mp hrest
    cases hrest
    refine ⟨hsound, hfile, fun _ => rfl, fun _ => ?_, fun habs => absurd rfl habs⟩
    show p.ioOffset + 0 + p''.ioDataRemainSize ≤ p''.ioOffset + p.ioDataRemainSize
    omega

end AACDemuxerPlugin

open AACDemuxerPlugin

-- What was delivered

/-- The bytes delivered were read from the file, and two more with them. -/
structure Booked (p : AACDemuxerPlugin) (log : Log) : Prop where
  short : log.delivered = [] ∨ log.delivered.flatten.length + 2 ≤ p.file.length
  going : log.ended = false →
    log.delivered.flatten.length + p.ioDataRemainSize ≤ p.ioOffset

theorem Booked.record {p : AACDemuxerPlugin} {log : Log} {r : Reading} (h : Booked p log)
    (hr : Kept p r) : Booked r.plugin (log.record r.status r.outBuffer) := by
  rw [Log.record]
  cases hended : log.ended with
  | true =>
    refine ⟨hr.file ▸ h.short, fun habs => ?_⟩
    rw [if_pos rfl, hended] at habs
    cases habs
  | false =>
    have hgoing := h.going hended
    have hoffset := hr.sound.offset
    rw [hr.file] at hoffset
    rw [if_neg Bool.false_ne_true]
    by_cases hnil : r.outBuffer = []
    · refine ⟨?_, fun hend => ?_⟩
      · rw [if_pos hnil, hr.file]
        exact h.short
      · have hbooked := hr.booked (of_decide_eq_false hend)
        rw [hnil, List.length_nil] at hbooked
        show (if r.outBuffer = [] then log.delivered else _).flatten.length + _ ≤ _
        rw [if_pos hnil]
        omega
    · have hstatus : r.status ≠ .endOfStream := fun habs => hnil (hr.ended habs)
      have hbooked := hr.booked hstatus
      have hbehind := hr.behind hnil
      have hlen : (log.delivered ++ [r.outBuffer]).flatten.length =
          log.delivered.flatten.length + r.outBuffer.length := by
        rw [List.flatten_append, List.length_append, List.flatten_singleton]
      refine ⟨.inr ?_, fun _ => ?_⟩
      · show (if r.outBuffer = [] then (_ : List (List UInt8)) else _).flatten.length + 2 ≤ _
        rw [if_neg hnil, hlen, hr.file]
        omega
      · show (if r.outBuffer = [] then (_ : List (List UInt8)) else _).flatten.length + _ ≤ _
        rw [if_neg hnil, hlen]
        omega

variable {ι : Type} [DecidableEq ι] {s s' : System ι}

def Right (s : System ι) : Prop := ∀ id, (s.plugins id).Sound ∧ Booked (s.plugins id) (s.logs id)

def Answers : Event ι → Prop
  | .open _ _ => True
  | .getMediaInfo _ pieces => ∀ n, 0 < pieces n
  | .readFrame _ pieces => ∀ n, 0 < pieces n

theorem sound_open (file : List UInt8) : ({ file } : AACDemuxerPlugin).Sound :=
  ⟨List.length_replicate, Nat.zero_le _, Nat.zero_le _, Nat.zero_le _⟩

theorem booked_open (p : AACDemuxerPlugin) (h : p.ioDataRemainSize ≤ p.ioOffset) : Booked p {} :=
  ⟨.inl rfl, fun _ => by show 0 + p.ioDataRemainSize ≤ _; omega⟩

theorem Right.update (h : Right s) (id : ι) {p : AACDemuxerPlugin} {log : Log} (hp : p.Sound)
    (hlog : Booked p log) (usedDataSize : Nat) :
    Right { usedDataSize, plugins := Function.update s.plugins id p,
            logs := Function.update s.logs id log } := by
  intro other
  by_cases heq : other = id
  · subst heq
    simp only [Function.update_self]
    exact ⟨hp, hlog⟩
  · simp only [Function.update_of_ne heq]
    exact h other

/-- **One call** of any plugin. -/
theorem right_step {e : Event ι} (h : Right s) (he : Answers e) (hstep : step s e = some s') :
    Right s' := by
  cases e with
  | «open» id file =>
    cases hstep
    exact h.update id (sound_open file) (booked_open _ (Nat.le_refl 0)) _
  | getMediaInfo id pieces =>
    obtain ⟨⟨status, p⟩, hinfo, rfl⟩ := Option.map_eq_some_iff.mp hstep
    have hkept := getMediaInfo_kept (h id).1 he hinfo
    exact h.update id hkept.sound ((h id).2.record hkept) _
  | readFrame id pieces =>
    obtain ⟨r, hread, rfl⟩ := Option.map_eq_some_iff.mp hstep
    have hkept := readFrame_kept (h id).1 he hread
    exact h.update id hkept.sound ((h id).2.record hkept) _

structure WellFormed (frame : List UInt8) : Prop where
  header : isAACPattern frame 0 = some true
  length : getFrameLength frame = some frame.length
  bounds : 7 ≤ frame.length ∧ frame.length ≤ 8191

/-- **The frames of a file.** In every run of any number of plugins: when the file is a
concatenation of frames they have all been delivered if and only if there are none,
and then `ReadFrame` ends the stream; and for every file the next `ReadFrame` goes on
exactly when its move stays inside the buffer and its window does not begin with a
header of length zero. -/
theorem delivers_iff {events : List (Event ι)} (hanswers : ∀ e ∈ events, Answers e)
    (hrun : Runs.run step {} events = some s) (id : ι) {pieces : Nat → Nat}
    (hpieces : ∀ n, 0 < pieces n) :
    (∀ frames, (∀ frame ∈ frames, WellFormed frame) → frames.flatten = (s.plugins id).file →
      ((s.logs id).delivered = frames ↔ frames = []) ∧
        (frames = [] → ∃ r, (s.plugins id).readFrame s.usedDataSize pieces = some r ∧
          r.status = .endOfStream)) ∧
      (Proceeds s.usedDataSize pieces (s.plugins id) ↔
        MovesInside s.usedDataSize (s.plugins id) ∧
          ¬ ZeroHeader ((s.plugins id).window s.usedDataSize pieces)
            ((s.plugins id).ioDataRemainSize + ((s.plugins id).arrival pieces).length)) := by
  have hright : Right s := by
    refine Runs.run_invariant (I := Right) (fun _ _ _ h he hstep => right_step h he hstep) ?_
      (Runs.along_of_forall_mem (fun e he _ => hanswers e he) _) hrun
    exact fun id => ⟨sound_open [], booked_open _ (Nat.le_refl 0)⟩
  obtain ⟨hsound, hbooked⟩ := hright id
  refine ⟨fun frames hframes hfile => ⟨?_, fun hnil => ?_⟩, readFrame_proceeds hsound hpieces⟩
  · constructor
    · intro hall
      rcases hbooked.short with hnil | hshort
      · exact hall.symm.trans hnil
      · -- more bytes than the file has
        rw [hall, hfile] at hshort
        omega
    · rintro rfl
      rcases hbooked.short with hnil | hshort
      · exact hnil
      · rw [← hfile] at hshort
        exact absurd hshort (by simp)
  · subst hnil
    have hempty : (s.plugins id).file.length = 0 := by
      rw [← hfile]
      rfl
    have hremain := hsound.remain
    have hoffset := hsound.offset
    rcases readFrame_spec hsound hpieces with
      ⟨hout, -⟩ | ⟨r, hread, -, ⟨-, -, hstatus⟩ | ⟨hmore, -⟩⟩
    · exact absurd (.inl (by omega)) hout
    · exact ⟨r, hread, hstatus⟩
    · omega

def oneFrame : List UInt8 := [0xFF, 0xF1, 0x50, 0x80, 0x00, 0xE0, 0x00]

def oneFrameRun : List (Event ℕ) := [.open 0 oneFrame, .readFrame 0 fun _ => 2048]

theorem wellFormed_oneFrame : WellFormed oneFrame := ⟨by decide, by decide, by decide⟩

theorem delivers_iff_oneFrame :
    ∃ s, Runs.run step {} oneFrameRun = some s ∧ (s.logs 0).delivered ≠ [oneFrame] ∧
      Proceeds s.usedDataSize (fun _ => 2048) (s.plugins 0) := by
  have hcomputed : (Runs.run step {} oneFrameRun).map
      (fun s => ((s.plugins 0).file, (s.plugins 0).ioOffset, (s.plugins 0).ioDataRemainSize)) =
        some (oneFrame, 7, 0) := by
    decide +kernel
  obtain ⟨s, hrun, hs⟩ := Option.map_eq_some_iff.mp hcomputed
  obtain ⟨hfile, hrest⟩ := Prod.mk.inj hs
  obtain ⟨hoffset, hremain⟩ := Prod.mk.inj hrest
  have hanswers : ∀ e ∈ oneFrameRun, Answers e :=
    List.forall_mem_cons.mpr ⟨trivial, List.forall_mem_cons.mpr
      ⟨fun _ => show 0 < 2048 by decide, fun _ habs => absurd habs List.not_mem_nil⟩⟩
  have hsource : ∀ n : ℕ, 0 < (fun _ => 2048 : ℕ → ℕ) n := fun _ => show 0 < 2048 by decide
  obtain ⟨hframes, hproceeds⟩ := delivers_iff hanswers hrun 0 hsource
  refine ⟨s, hrun, ?_, hproceeds.mpr ⟨.inl hremain, fun habs => ?_⟩⟩
  · exact fun hall => absurd (((hframes [oneFrame]
      (List.forall_mem_singleton.mpr wellFormed_oneFrame) hfile.symm).1).mp hall) (by decide)
  · have hmin := length_arrival (fun _ => 2048) (s.plugins 0)
    rw [hfile, hoffset, show oneFrame.length = 7 from rfl] at hmin
    have htwo := habs.1
    omega

def longFrame : List UInt8 :=
  [0xFF, 0xF1, 0x50, 0x83, 0xFF, 0xE0] ++ List.replicate 2042 0

/-- The last frame is not delivered; another plugin makes a move read outside of the
buffer; and a header of length zero is never passed. -/
theorem undelivered :
    (WellFormed oneFrame ∧
      (Runs.run step {} (oneFrameRun ++ [.readFrame 0 fun _ => 2048])).map (fun s => s.logs 0) =
        some ⟨[], true⟩) ∧
    (Runs.run step {} [.open 0 [0, 0], .readFrame 0 fun _ => 2048, .open 1 longFrame,
      .readFrame 1 fun _ => 2048, .readFrame 0 fun _ => 2048] : Option (System ℕ)).isNone ∧
    (AACDemuxerPlugin.readFrame 0 (fun _ => 2048) { file := [0xFF, 0xF1, 0, 0, 0, 0, 0] }).map
      (fun r => (r.status, r.plugin.ioOffset, r.plugin.ioDataRemainSize)) =
        some (.errorUnknown, 7, 7) := by
  refine ⟨⟨wellFormed_oneFrame, by decide +kernel⟩, by decide +kernel, by decide +kernel⟩

end MediaFoundation.AacDemuxer
