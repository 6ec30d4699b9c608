import MediaFoundation.Demux.Minimp4Demuxer

/-!
# What the window of MiniMP4DemuxerPlugin shows

The remaining data are a part of the file. They lie at the front of the buffer after a load, and
behind the last frame after a `ReadFrame`; `ReadCallback` looks for them at the front in either
case, and nothing but the two sizes tells where they are.
-/

namespace MediaFoundation.Minimp4Demuxer

open AacDemuxer (load store getFrameLength)
open MiniMP4DemuxerPlugin (adtsHeader)
open Slices

-- What is wanted, and when it holds

def FrameRight (m : Media) (k : Nat) (frame : List UInt8) : Prop :=
  ∃ header, frame = header ++ m.sample k ∧ header.length = adtsHeaderSize ∧
    ((m.frameOffset k).2 < 8185 → getFrameLength header = some ((m.frameOffset k).2 + 7))

/-- The bytes that were asked for, and the samples in their order. -/
structure Right (m : Media) (s : System) : Prop where
  answers : ∀ a ∈ s.answers, a.1 + a.2.1 ≤ m.fileSize ∧ a.2.2 = slice m.file a.1 a.2.1
  frames : ∀ k frame, s.frames[k]? = some frame → FrameRight m k frame

def AtFront (p : MiniMP4DemuxerPlugin) : Prop :=
  p.readDataSize_ = 0 ∨ mediaIoSize < p.readDataSize_ + p.ioDataRemainSize_

def BehindFrame (p : MiniMP4DemuxerPlugin) : Prop :=
  p.ioDataRemainSize_ = 0 ∨ p.readDataSize_ + p.ioDataRemainSize_ ≤ mediaIoSize

/-- A request behind the window asks for no more than the window holds and the file has; another one
asks for nothing, or for bytes of the window that lie at the front. -/
def CallbackFits (m : Media) (p : MiniMP4DemuxerPlugin) (offset size : Nat) : Prop :=
  m.fileSize % 2 ^ 32 ≤ offset ∨
    if p.offset < offset + size then size ≤ mediaIoSize ∧ offset + size ≤ m.fileSize
    else size = 0 ∨ p.offset ≤ offset + p.ioDataRemainSize_ ∧ AtFront p

/-- The sample comes after all that was read, or is where the remaining data begin; and its buffer
has room. -/
def FrameFits (m : Media) (p : MiniMP4DemuxerPlugin) (out : Option Memory) : Prop :=
  let (offset, frameSize) := m.frameOffset p.sampleIndex_
  m.track.sampleCount ≤ p.sampleIndex_ ∨ m.fileSize < offset + frameSize ∨
    (p.offset < offset ∨ p.offset = offset + p.ioDataRemainSize_ ∧ BehindFrame p) ∧
      (frameSize ≤ mediaIoSize →
        ∀ memory ∈ out, frameSize + adtsHeaderSize ≤ memory.bytes.length)

def Fits (m : Media) (s : System) : Event → Prop
  | .readCallback offset size => CallbackFits m s.plugin offset size
  | .goToFirst => True
  | .readFrame out => FrameFits m s.plugin out

-- Loads and stores

theorem load_slice {buffer : List UInt8} {i n : Nat} (h : i + n ≤ buffer.length) :
    load buffer i n = some (slice buffer i n) := if_pos h

theorem store_write {buffer bytes : List UInt8} {i : Nat} (h : i + bytes.length ≤ buffer.length) :
    store buffer i bytes = some (write buffer i bytes) := if_pos h

-- The window

/-- The remaining data are at this place of the buffer, and are those of the file before the place
that is read next. -/
structure Shows (m : Media) (p : MiniMP4DemuxerPlugin) (place : Nat) : Prop where
  length : p.inIoBuffer_.length = mediaIoSize
  sum : p.ioDataRemainSize_ ≤ p.offset
  inBuffer : p.ioDataRemainSize_ = 0 ∨ place + p.ioDataRemainSize_ ≤ mediaIoSize
  inFile : p.ioDataRemainSize_ = 0 ∨ p.offset ≤ m.fileSize
  bytes : slice p.inIoBuffer_ place p.ioDataRemainSize_ =
    slice m.file (p.offset - p.ioDataRemainSize_) p.ioDataRemainSize_

def place (p : MiniMP4DemuxerPlugin) : Nat :=
  if p.readDataSize_ + p.ioDataRemainSize_ ≤ mediaIoSize then p.readDataSize_ else 0

def Window (m : Media) (p : MiniMP4DemuxerPlugin) : Prop := Shows m p (place p)

section Window

variable {m : Media} {p p' : MiniMP4DemuxerPlugin} {status : Status} {offset size i : Nat}

theorem Shows.remain_le (h : Shows m p i) : p.ioDataRemainSize_ ≤ mediaIoSize := by
  have hbuffer := h.inBuffer
  omega

/-- Nothing is shown anywhere. -/
theorem shows_of_none (hlength : p.inIoBuffer_.length = mediaIoSize)
    (hnone : p.ioDataRemainSize_ = 0) (i : Nat) : Shows m p i := by
  refine ⟨hlength, by omega, Or.inl hnone, Or.inl hnone, ?_⟩
  rw [hnone, slice_zero, slice_zero]

theorem window_init : Window m {} := shows_of_none List.length_replicate rfl _

theorem Shows.window (h : Shows m p i) (hplace : p.ioDataRemainSize_ = 0 ∨ place p = i) :
    Window m p := by
  rcases hplace with hnone | rfl
  · exact shows_of_none h.length hnone _
  · exact h

theorem Window.front (h : Window m p) (hfront : AtFront p) : Shows m p 0 := by
  have hplace : place p = 0 := by
    unfold place
    rcases hfront with hzero | hfar
    · rw [hzero, ite_self]
    · rw [if_neg (by omega)]
  exact hplace ▸ h

theorem Window.behind (h : Window m p) (hbehind : BehindFrame p) :
    Shows m p p.readDataSize_ := by
  rcases hbehind with hnone | hle
  · exact shows_of_none h.length hnone _
  · have hplace : place p = p.readDataSize_ := if_pos hle
    exact hplace ▸ h

-- Filling the window

theorem moveRemain_spec (h : Shows m p p.readDataSize_) :
    (p.ioDataRemainSize_ = mediaIoSize ∧ p.moveRemain = some (.errorUnknown, p)) ∨
      (p.ioDataRemainSize_ < mediaIoSize ∧ ∃ buffer, p.moveRemain =
        some (.ok, { p with inIoBuffer_ := buffer }) ∧
          Shows m { p with inIoBuffer_ := buffer } 0) := by
  have hlength := h.length
  have hle := h.remain_le
  unfold MiniMP4DemuxerPlugin.moveRemain
  by_cases hnone : p.ioDataRemainSize_ = 0
  · rw [if_pos hnone]
    exact Or.inr ⟨by rw [hnone]; decide, _, rfl, shows_of_none hlength hnone 0⟩
  have hbuffer := h.inBuffer.resolve_left hnone
  have hsize : (slice p.inIoBuffer_ p.readDataSize_ p.ioDataRemainSize_).length =
      p.ioDataRemainSize_ := length_slice_of_le (by omega)
  rw [if_neg hnone, load_slice (by omega), Option.bind_some, store_write (by omega),
    Option.bind_some]
  dsimp only
  rcases Nat.lt_or_eq_of_le hle with hlt | hfull
  · have hmoved : (write p.inIoBuffer_ 0
        (slice p.inIoBuffer_ p.readDataSize_ p.ioDataRemainSize_)).length =
        p.inIoBuffer_.length := length_write (by omega)
    have hzeros : (List.replicate (mediaIoSize - p.ioDataRemainSize_) (0 : UInt8)).length =
        mediaIoSize - p.ioDataRemainSize_ := List.length_replicate
    rw [if_neg (by omega), store_write (by omega), Option.map_some]
    refine Or.inr ⟨hlt, _, rfl, ?_⟩
    refine ⟨?_, h.sum, Or.inr (by dsimp only; omega), h.inFile, ?_⟩
    · dsimp only
      rw [length_write (by omega), hmoved, hlength]
    · dsimp only
      have hfirst : slice (write p.inIoBuffer_ 0
          (slice p.inIoBuffer_ p.readDataSize_ p.ioDataRemainSize_)) 0 _ = _ :=
        slice_write (Nat.zero_le _)
      rw [hsize] at hfirst
      rw [slice_write_below (by omega) (by omega), hfirst, h.bytes]
  · -- the data begin at the front already
    have hzero : p.readDataSize_ = 0 := by omega
    have hsame : write p.inIoBuffer_ 0 (slice p.inIoBuffer_ p.readDataSize_ p.ioDataRemainSize_) =
        p.inIoBuffer_ := by
      rw [hzero, hfull, ← hlength, slice_self, write, List.take_zero, List.nil_append,
        Nat.zero_add, List.drop_length, List.append_nil]
    rw [if_pos (by omega), hsame]
    exact Or.inl ⟨hfull, rfl⟩

/-- A read of bytes that exist goes behind those that remain. -/
theorem doReadFromSource_spec (h : Shows m p 0) (readSize : Nat)
    (hroom : p.ioDataRemainSize_ + readSize ≤ mediaIoSize)
    (hfile : p.offset + readSize ≤ m.fileSize) :
    ∃ buffer, p.doReadFromSource m readSize = some (.ok, { p with
        inIoBuffer_ := buffer
        offset := p.offset + readSize
        ioDataRemainSize_ := p.ioDataRemainSize_ + readSize }) ∧
      Shows m { p with
        inIoBuffer_ := buffer
        offset := p.offset + readSize
        ioDataRemainSize_ := p.ioDataRemainSize_ + readSize } 0 := by
  have hlength := h.length
  have hsum := h.sum
  unfold MiniMP4DemuxerPlugin.doReadFromSource
  by_cases hzero : readSize = 0
  · subst hzero
    rw [if_pos rfl]
    exact ⟨p.inIoBuffer_, rfl, h⟩
  have hbytes : (slice m.file p.offset readSize).length = readSize := length_slice_of_le hfile
  rw [if_neg hzero]
  dsimp only
  rw [hbytes, if_neg hzero, store_write (by omega)]
  refine ⟨_, rfl, ?_, by dsimp only; omega, Or.inr (by dsimp only; omega), Or.inr hfile, ?_⟩
  · dsimp only
    rw [length_write (by omega), hlength]
  · dsimp only
    have hplace : p.offset + readSize - (p.ioDataRemainSize_ + readSize) =
        p.offset - p.ioDataRemainSize_ := by omega
    rw [hplace]
    refine slice_join ?_ ?_
    · rw [slice_write_below (by omega) (by omega)]
      exact h.bytes
    · have hnew : slice (write p.inIoBuffer_ p.ioDataRemainSize_
          (slice m.file p.offset readSize)) p.ioDataRemainSize_ _ = _ := slice_write (by omega)
      rw [hbytes] at hnew
      rw [Nat.zero_add, hnew, Nat.sub_add_cancel hsum]

/-- What `GetDataFromSource` leaves when it succeeds: the window begins where the remaining data
began, is full or ends with the file, and lies at the front. -/
structure Filled (m : Media) (p p' : MiniMP4DemuxerPlugin) : Prop where
  shows : Shows m p' 0
  sampleIndex : p'.sampleIndex_ = p.sampleIndex_
  readDataSize : p'.readDataSize_ = p.readDataSize_
  start : p'.offset + p.ioDataRemainSize_ = p.offset + p'.ioDataRemainSize_
  remain : p'.ioDataRemainSize_ =
    min mediaIoSize (m.fileSize - (p.offset - p.ioDataRemainSize_))
  pos : 0 < p'.ioDataRemainSize_

/-- It succeeds, or leaves the plugin as it is because the window is full or the file has ended. -/
theorem getDataFromSource_spec (h : Shows m p p.readDataSize_) :
    ((∃ status, status ≠ .ok ∧ p.getDataFromSource m = some (status, p)) ∧
      (p.ioDataRemainSize_ = mediaIoSize ∨
        p.ioDataRemainSize_ = 0 ∧ m.fileSize ≤ p.offset)) ∨
      ∃ p', p.getDataFromSource m = some (.ok, p') ∧ Filled m p p' := by
  unfold MiniMP4DemuxerPlugin.getDataFromSource
  dsimp only
  obtain ⟨hfull, hmove⟩ | ⟨hlt, buffer, hmove, hshows⟩ := moveRemain_spec h
  · rw [hmove, Option.bind_some]
    exact Or.inl ⟨⟨.errorUnknown, nofun, rfl⟩, Or.inl hfull⟩
  rw [hmove, Option.bind_some]
  dsimp only
  rw [if_neg (by decide)]
  by_cases hend : m.fileSize ≤ p.offset ∧ p.ioDataRemainSize_ = 0
  · rw [if_pos hend]
    refine Or.inl ⟨⟨.endOfStream, nofun, ?_⟩, Or.inr hend.symm⟩
    -- without data nothing is moved
    unfold MiniMP4DemuxerPlugin.moveRemain at hmove
    rw [if_pos hend.2] at hmove
    rw [← (Prod.mk.inj (Option.some.inj hmove)).2]
  rw [if_neg hend]
  have hsum := h.sum
  have hin : p.offset ≤ m.fileSize := by
    have hfile := h.inFile
    omega
  have hread : ∃ readSize, readSize = min (mediaIoSize - p.ioDataRemainSize_)
      (m.fileSize - p.offset) ∧
      (if m.fileSize < p.offset + (mediaIoSize - p.ioDataRemainSize_) then
        MiniMP4DemuxerPlugin.doReadFromSource m { p with inIoBuffer_ := buffer }
          (m.fileSize - p.offset)
      else MiniMP4DemuxerPlugin.doReadFromSource m { p with inIoBuffer_ := buffer }
        (mediaIoSize - p.ioDataRemainSize_)) =
      MiniMP4DemuxerPlugin.doReadFromSource m { p with inIoBuffer_ := buffer } readSize := by
    refine ⟨_, rfl, ?_⟩
    split
    · rw [Nat.min_eq_right (by omega)]
    · rw [Nat.min_eq_left (by omega)]
  obtain ⟨readSize, hsize, hread⟩ := hread
  rw [hread]
  obtain ⟨buffer', hdo, hshows'⟩ := doReadFromSource_spec hshows readSize
    (by dsimp only; omega) (by dsimp only; omega)
  rw [hdo]
  refine Or.inr ⟨_, rfl, hshows', rfl, rfl, ?_, ?_, ?_⟩
  · dsimp only
    omega
  · dsimp only
    omega
  · dsimp only
    have hmedia : 0 < mediaIoSize := by decide
    omega

-- ReadCallback

theorem loadWindow_round (h : Window m p) (hin : offset < m.fileSize)
    (hfar : p.offset < offset + size) :
    ∃ p', Shows m p' 0 ∧ AtFront p' ∧ p'.sampleIndex_ = p.sampleIndex_ ∧
      p'.offset = offset + min mediaIoSize (m.fileSize - offset) ∧
      p'.offset = offset + p'.ioDataRemainSize_ ∧
      ∀ fuel, p.loadWindow m offset size (fuel + 1) = p'.loadWindow m offset size fuel := by
  have hstart : Shows m
      { p with ioDataRemainSize_ := 0, offset, readDataSize_ := mediaIoSize } mediaIoSize := by
    refine shows_of_none ?_ rfl _
    exact h.length
  obtain ⟨-, hfull | hend⟩ | ⟨p', hget, hfilled⟩ := getDataFromSource_spec hstart
  · exact absurd (show 0 = mediaIoSize from hfull) (by decide)
  · exact absurd hend.2 (Nat.not_le.mpr hin)
  · have hremain := hfilled.remain
    have hplace := hfilled.start
    have hdata := hfilled.readDataSize
    have hpos := hfilled.pos
    dsimp only at hremain hplace hdata
    refine ⟨p', hfilled.shows, Or.inr (by omega), hfilled.sampleIndex, by omega, by omega, ?_⟩
    intro fuel
    rw [MiniMP4DemuxerPlugin.loadWindow, if_pos hfar, hget]
    rfl

/-- **The loop does not end** for a request that is longer than the window, or reaches behind the
file. -/
theorem loadWindow_endless (h : Window m p) (hin : offset < m.fileSize)
    (hfar : p.offset < offset + size) (hlong : min mediaIoSize (m.fileSize - offset) < size)
    (fuel : Nat) : p.loadWindow m offset size fuel = none := by
  induction fuel generalizing p with
  | zero => rfl
  | succ fuel ih =>
    obtain ⟨p', hshows, hfront, -, hend, -, hround⟩ := loadWindow_round h hin hfar
    rw [hround]
    refine ih (hshows.window (Or.inr ?_)) (by omega)
    rcases hfront with hzero | hbig
    · unfold place
      rw [hzero, ite_self]
    · exact if_neg (by omega)

/-- A request that fits is answered, with the bytes that it asks for. -/
theorem readCallback_spec (h : Window m p) (hfits : CallbackFits m p offset size) {fuel : Nat}
    (hfuel : 2 ≤ fuel) :
    ∃ reply p', p.readCallback m fuel offset size = some (reply, p') ∧ Window m p' ∧
      p'.sampleIndex_ = p.sampleIndex_ ∧ ∀ bytes, reply = .bytes bytes →
        offset + size ≤ m.fileSize ∧ bytes = slice m.file offset size := by
  unfold MiniMP4DemuxerPlugin.readCallback
  dsimp only
  by_cases hrefused : m.fileSize % 2 ^ 32 ≤ offset
  · rw [if_pos hrefused]
    exact ⟨_, _, rfl, h, rfl, nofun⟩
  have hfits := hfits.resolve_left hrefused
  have hin : offset < m.fileSize := by omega
  obtain ⟨rounds, rfl⟩ : ∃ rounds, fuel = rounds + 2 := ⟨fuel - 2, by omega⟩
  rw [if_neg hrefused]
  by_cases hfar : p.offset < offset + size
  · -- the window is loaded in one round, and reaches far enough
    rw [if_pos hfar] at hfits
    obtain ⟨p', hshows, hfront, hindex, hend, hplace, hround⟩ := loadWindow_round h hin hfar
    have hlength := hshows.length
    have hdone : p'.loadWindow m offset size (rounds + 1) = some (none, p') :=
      if_neg (by omega)
    rw [if_neg (by omega), hround, hdone, Option.bind_some]
    dsimp only
    rw [load_slice (by omega)]
    refine ⟨_, _, rfl, hshows.window (Or.inr ?_), hindex, ?_⟩
    · rcases hfront with hzero | hbig
      · unfold place
        rw [hzero, ite_self]
      · exact if_neg (by omega)
    · rintro bytes ⟨⟩
      refine ⟨by omega, ?_⟩
      have hbytes := slice_sub (j := 0) (m := size) hshows.bytes (by omega)
      rwa [Nat.zero_add, Nat.add_zero, hplace, Nat.add_sub_cancel] at hbytes
  rw [if_neg hfar] at hfits
  have hlength := h.length
  have hsum := h.sum
  have hle := h.remain_le
  by_cases hhit : offset + size ≤ p.offset ∧ p.offset ≤ offset + p.ioDataRemainSize_
  · rw [if_pos hhit, load_slice (by omega)]
    refine ⟨_, _, rfl, h, rfl, ?_⟩
    rintro bytes ⟨⟩
    rcases hfits with rfl | ⟨-, hfront⟩
    · exact ⟨by omega, by rw [slice_zero, slice_zero]⟩
    · have hshows := h.front hfront
      have hbytes := slice_sub (j := p.ioDataRemainSize_ - (p.offset - offset)) (m := size)
        hshows.bytes (by omega)
      have hplace : p.offset - p.ioDataRemainSize_ +
          (p.ioDataRemainSize_ - (p.offset - offset)) = offset := by omega
      rw [Nat.zero_add, hplace] at hbytes
      refine ⟨?_, hbytes⟩
      rcases hshows.inFile with hnone | hfile
      · omega
      · omega
  · -- nothing is asked for before the window
    have hnothing : size = 0 := by omega
    subst hnothing
    have hdone : p.loadWindow m offset 0 (rounds + 1 + 1) = some (none, p) := if_neg hfar
    rw [if_neg hhit, hdone, Option.bind_some]
    dsimp only
    rw [load_slice (by omega)]
    refine ⟨_, _, rfl, h, rfl, ?_⟩
    rintro bytes ⟨⟩
    exact ⟨by omega, by rw [slice_zero, slice_zero]⟩

end Window

-- Frames

theorem or_shifted {a b c : Nat} (hb : b < 2 ^ 8) (hc : c < 2 ^ 3) :
    a <<< 11 ||| b <<< 3 ||| c = a * 2048 + b * 8 + c := by
  have hlow : b <<< 3 < 2 ^ 11 := by
    rw [Nat.shiftLeft_eq]
    omega
  rw [← Nat.shiftLeft_add_eq_or_of_lt hlow]
  have hhigh : a <<< 11 + b <<< 3 = (a * 256 + b) <<< 3 := by
    rw [Nat.shiftLeft_eq, Nat.shiftLeft_eq, Nat.shiftLeft_eq]
    omega
  rw [hhigh, ← Nat.shiftLeft_add_eq_or_of_lt hc, Nat.shiftLeft_eq]
  omega

theorem getFrameLength_adtsHeader (track : Track) {frameSize : Nat} (h : frameSize < 8185) :
    getFrameLength (adtsHeader track frameSize) = some (frameSize + 7) := by
  have hlength : (frameSize + 7) % 2 ^ 32 = frameSize + 7 := Nat.mod_eq_of_lt (by omega)
  unfold adtsHeader getFrameLength
  dsimp only
  rw [hlength]
  generalize track.channelcount.toNat = channelConfig
  generalize hpacket : frameSize + 7 = packetLen
  show some ((_ &&& 0x03) <<< 11 ||| _ <<< 3 ||| (_ &&& 0xE0) >>> 5) = some packetLen
  have hhigh : (UInt8.ofNat (((channelConfig &&& 0x3) <<< 6) + (packetLen >>> 11))).toNat &&& 0x03 =
      packetLen / 2048 := by
    rw [UInt8.toNat_ofNat', Nat.shiftLeft_eq, Nat.shiftRight_eq_div_pow,
      Nat.and_two_pow_sub_one_eq_mod _ 2]
    omega
  have hmiddle : (UInt8.ofNat ((packetLen &&& 0x7FF) >>> 3)).toNat = packetLen % 2048 / 8 := by
    rw [UInt8.toNat_ofNat', Nat.shiftRight_eq_div_pow, Nat.and_two_pow_sub_one_eq_mod _ 11]
    omega
  have hlow : ((UInt8.ofNat (((packetLen &&& 0x7) <<< 5) + 0x1F)).toNat &&& 0xE0) >>> 5 =
      packetLen % 8 := by
    rw [UInt8.toNat_ofNat', Nat.shiftRight_and_distrib, Nat.shiftLeft_eq,
      Nat.shiftRight_eq_div_pow, Nat.and_two_pow_sub_one_eq_mod _ 3]
    show _ &&& 2 ^ 3 - 1 = _
    rw [Nat.and_two_pow_sub_one_eq_mod]
    omega
  rw [hhigh, hmiddle, hlow, or_shifted (by omega) (by omega)]
  congr 1
  omega

theorem write_content {memory : Memory} {bytes : List UInt8} {position : Nat}
    (hroom : position + bytes.length ≤ memory.bytes.length) (hsize : memory.size = position) :
    (memory.write bytes position).bytes.length = memory.bytes.length ∧
      (memory.write bytes position).size = position + bytes.length ∧
      (memory.write bytes position).content = memory.content ++ bytes := by
  unfold Memory.write Memory.content
  dsimp only
  rw [Nat.min_eq_left (by omega : position ≤ memory.bytes.length),
    Nat.min_eq_left (by omega : bytes.length ≤ memory.bytes.length - position)]
  split
  · next hzero =>
    rw [List.length_eq_zero_iff] at hzero
    subst hzero
    exact ⟨rfl, hsize, (List.append_nil _).symm⟩
  · rw [List.take_length]
    refine ⟨length_write hroom, rfl, ?_⟩
    have hall := slice_add (write memory.bytes position bytes) 0 position bytes.length
    have hbelow : slice (write memory.bytes position bytes) 0 position = _ :=
      slice_write_below (by omega) (by omega)
    rw [hbelow, Nat.zero_add, slice_write (by omega)] at hall
    rw [hsize]
    exact hall

theorem frame_content {memory : Memory} {header frame : List UInt8}
    (hheader : header.length = adtsHeaderSize)
    (hroom : frame.length + adtsHeaderSize ≤ memory.bytes.length) :
    ((memory.write header 0).write frame adtsHeaderSize).content = header ++ frame := by
  -- the first write begins anew, whatever the size was
  have hsame : memory.write header 0 = { memory with size := 0 }.write header 0 := by
    unfold Memory.write
    dsimp only
    rw [if_neg, if_neg]
    · show ¬ min header.length (memory.bytes.length - min 0 memory.bytes.length) = 0
      unfold adtsHeaderSize at *
      omega
    · unfold adtsHeaderSize at *
      omega
  obtain ⟨hlength, hsize, hcontent⟩ :=
    @write_content { memory with size := 0 } header 0 (by dsimp only; omega) rfl
  rw [hsame]
  obtain ⟨-, -, hboth⟩ := @write_content _ frame adtsHeaderSize
    (by rw [hlength]; dsimp only; omega) (by rw [hsize, hheader, Nat.zero_add])
  rw [hboth, hcontent]
  rfl

section ReadFrame

variable {m : Media} {p p' : MiniMP4DemuxerPlugin} {out : Option Memory}

theorem window_before (h : Window m p) {offset : Nat}
    (hplace : p.offset < offset ∨ p.offset = offset + p.ioDataRemainSize_ ∧ BehindFrame p)
    {q : MiniMP4DemuxerPlugin} (hq : q = if p.offset < offset then
      { p with inIoBuffer_ := List.replicate mediaIoSize 0, ioDataRemainSize_ := 0, offset }
      else p) :
    Shows m q q.readDataSize_ ∧ Window m q ∧ q.sampleIndex_ = p.sampleIndex_ ∧
      q.offset = offset + q.ioDataRemainSize_ := by
  by_cases hafter : p.offset < offset
  · rw [if_pos hafter] at hq
    subst hq
    have hshows : ∀ i, Shows m { p with
        inIoBuffer_ := List.replicate mediaIoSize 0, ioDataRemainSize_ := 0, offset } i :=
      shows_of_none List.length_replicate rfl
    exact ⟨hshows _, hshows _, rfl, rfl⟩
  · rw [if_neg hafter] at hq
    subst hq
    obtain ⟨hstart, hbehind⟩ := hplace.resolve_left hafter
    exact ⟨h.behind hbehind, h, rfl, hstart⟩

theorem readFrame_spec (h : Window m p) (hfits : FrameFits m p out) :
    ∃ status memory p', p.readFrame m out = some (status, memory, p') ∧ Window m p' ∧
      (status ≠ .ok → p'.sampleIndex_ = p.sampleIndex_) ∧
      (status = .ok → p'.sampleIndex_ = p.sampleIndex_ + 1 ∧
        ∃ mp4FrameData, memory = some mp4FrameData ∧
          FrameRight m p.sampleIndex_ mp4FrameData.content) := by
  unfold FrameFits at hfits
  unfold MiniMP4DemuxerPlugin.readFrame
  obtain ⟨offset, frameSize, hsample⟩ : ∃ offset frameSize,
      m.frameOffset p.sampleIndex_ = (offset, frameSize) := ⟨_, _, rfl⟩
  rw [hsample] at hfits ⊢
  dsimp only at hfits ⊢
  by_cases hlast : m.track.sampleCount ≤ p.sampleIndex_
  · rw [if_pos hlast]
    exact ⟨_, _, _, rfl, shows_of_none List.length_replicate rfl _, fun _ => rfl, nofun⟩
  rw [if_neg hlast]
  by_cases hfile : m.fileSize < offset ∨ m.fileSize < offset + frameSize
  · rw [if_pos hfile]
    exact ⟨_, _, _, rfl, h, fun _ => rfl, nofun⟩
  obtain ⟨hplace, hroom⟩ := (hfits.resolve_left hlast).resolve_left (by omega)
  rw [if_neg hfile]
  generalize hq : (if p.offset < offset then
    { p with inIoBuffer_ := List.replicate mediaIoSize 0, ioDataRemainSize_ := 0, offset }
    else p) = q
  obtain ⟨hshows, hwindow, hindex, hstart⟩ := window_before h hplace hq.symm
  obtain ⟨⟨status, hstatus, hget⟩, -⟩ | ⟨q', hget, hfilled⟩ := getDataFromSource_spec hshows
  · rw [hget, Option.bind_some]
    dsimp only
    rw [if_pos hstatus]
    exact ⟨_, _, _, rfl, hwindow, fun _ => hindex, fun heq => absurd heq hstatus⟩
  rw [hget, Option.bind_some]
  dsimp only
  rw [if_neg (by decide)]
  have hremain := hfilled.remain
  have hend := hfilled.start
  have hdata := hfilled.readDataSize
  have hlength := hfilled.shows.length
  by_cases hshort : q'.ioDataRemainSize_ < frameSize
  · -- the sample is longer than the window, which is full then
    rw [if_pos hshort]
    refine ⟨_, _, _, rfl, hfilled.shows.window (Or.inr ?_),
      fun _ => hfilled.sampleIndex.trans hindex, nofun⟩
    unfold place
    split
    · omega
    · rfl
  rw [if_neg hshort, load_slice (by omega)]
  have hframe : slice q'.inIoBuffer_ 0 frameSize = slice m.file offset frameSize := by
    have hbytes := slice_sub (j := 0) (m := frameSize) hfilled.shows.bytes (by omega)
    have hbegin : q'.offset - q'.ioDataRemainSize_ + 0 = offset := by omega
    rwa [Nat.zero_add, hbegin] at hbytes
  have hsize : (slice m.file offset frameSize).length = frameSize :=
    length_slice_of_le (show offset + frameSize ≤ m.fileSize by omega)
  refine ⟨_, _, _, rfl, ?_, nofun, fun _ => ⟨?_, _, rfl, ?_⟩⟩
  · -- what remains lies behind the frame
    have hsum := hfilled.shows.sum
    have hplace : place { q' with
        sampleIndex_ := q'.sampleIndex_ + 1
        ioDataRemainSize_ := q'.ioDataRemainSize_ - frameSize
        readDataSize_ := frameSize } = frameSize := if_pos (by dsimp only; omega)
    unfold Window
    rw [hplace]
    refine ⟨hlength, by dsimp only; omega, Or.inr (by dsimp only; omega), ?_, ?_⟩
    · exact hfilled.shows.inFile.imp (by dsimp only; omega) id
    · have hbytes := slice_sub (j := frameSize) (m := q'.ioDataRemainSize_ - frameSize)
        hfilled.shows.bytes (by omega)
      have hbegin : q'.offset - q'.ioDataRemainSize_ + frameSize =
          q'.offset - (q'.ioDataRemainSize_ - frameSize) := by omega
      rwa [Nat.zero_add, hbegin] at hbytes
  · exact congrArg (· + 1) (hfilled.sampleIndex.trans hindex)
  · rw [hframe]
    refine ⟨adtsHeader m.track frameSize, ?_, rfl, ?_⟩
    · unfold Media.sample
      rw [hsample]
      refine frame_content rfl ?_
      rw [hsize]
      cases out with
      | none =>
        show _ ≤ (List.replicate ((frameSize + adtsHeaderSize) % 2 ^ 32) (0 : UInt8)).length
        rw [List.length_replicate]
        have hmedia : mediaIoSize = 16384 := rfl
        have hheader : adtsHeaderSize = 7 := rfl
        omega
      | some memory => exact hroom (by omega) memory rfl
    · rw [hsample]
      exact fun hsmall => getFrameLength_adtsHeader m.track hsmall

end ReadFrame

-- Runs

/-- What was read is right, and as many samples were delivered as the plugin has counted. -/
structure Kept (m : Media) (s : System) : Prop where
  window : Window m s.plugin
  right : Right m s
  counted : s.frames.length = s.plugin.sampleIndex_

section Run

variable {m : Media} {fuel : Nat} {s : System}

theorem kept_init (m : Media) : Kept m {} :=
  ⟨window_init, ⟨fun _ h => absurd h List.not_mem_nil, fun _ _ h => absurd h nofun⟩, rfl⟩

theorem kept_step (hfuel : 2 ≤ fuel) (e : Event) (h : Kept m s) (hfits : Fits m s e) :
    ∃ t, step m fuel s e = some t ∧ Kept m t := by
  obtain ⟨hwindow, hright, hcounted⟩ := h
  cases e with
  | readCallback offset size =>
    obtain ⟨reply, p', hread, hwindow', hindex, hreply⟩ :=
      readCallback_spec hwindow hfits hfuel
    unfold step
    dsimp only
    rw [hread, Option.map_some]
    refine ⟨_, rfl, ?_⟩
    cases reply with
    | bytes bytes =>
      refine ⟨hwindow', ⟨?_, hright.frames⟩, hcounted.trans hindex.symm⟩
      intro a ha
      rcases List.mem_append.mp ha with hold | hnew
      · exact hright.answers a hold
      · obtain rfl := List.mem_singleton.mp hnew
        exact hreply bytes rfl
    | refused => exact ⟨hwindow', ⟨hright.answers, hright.frames⟩, hcounted.trans hindex.symm⟩
    | failed _ => exact ⟨hwindow', ⟨hright.answers, hright.frames⟩, hcounted.trans hindex.symm⟩
  | goToFirst =>
    have hnone : Window m (s.plugin.goToFirst m) :=
      shows_of_none (p := s.plugin.goToFirst m) hwindow.length rfl _
    exact ⟨_, rfl, hnone, ⟨hright.answers, hright.frames⟩, hcounted⟩
  | readFrame out =>
    obtain ⟨status, memory, p', hread, hwindow', hfailed, hok⟩ := readFrame_spec hwindow hfits
    unfold step
    dsimp only
    rw [hread, Option.map_some]
    refine ⟨_, rfl, ?_⟩
    by_cases hstatus : status = .ok
    · subst hstatus
      obtain ⟨hindex, mp4FrameData, rfl, hframe⟩ := hok rfl
      refine ⟨hwindow', ⟨hright.answers, ?_⟩, ?_⟩
      · intro k frame hk
        rcases Nat.lt_or_ge k s.frames.length with hlt | hge
        · rw [List.getElem?_append_left hlt] at hk
          exact hright.frames k frame hk
        · rw [List.getElem?_append_right hge] at hk
          obtain ⟨hzero, heq⟩ := List.getElem?_eq_some_iff.mp hk
          rw [List.length_singleton] at hzero
          obtain rfl : k = s.plugin.sampleIndex_ := by omega
          rw [← heq, List.getElem_singleton]
          exact hframe
      · show (s.frames ++ [_]).length = p'.sampleIndex_
        rw [List.length_append, List.length_singleton, hcounted, hindex]
    · have hsame := hcounted.trans (hfailed hstatus).symm
      cases status with
      | ok => exact absurd rfl hstatus
      | _ => exact ⟨hwindow', ⟨hright.answers, hright.frames⟩, hsame⟩

/-- **The bytes that are asked for** are what is read, in every run whose steps fit, and every
request returns. -/
theorem reads_right {events : List Event} (hfuel : 2 ≤ fuel)
    (hfits : Runs.Along (step m fuel) (Fits m) {} events) :
    ∃ t, Runs.run (step m fuel) {} events = some t ∧ Right m t := by
  obtain ⟨t, hrun, hkept⟩ :=
    Runs.run_total (fun s e h hfit => kept_step hfuel e h hfit) (kept_init m) hfits
  exact ⟨t, hrun, hkept.right⟩

end Run

def tenBytes : Media :=
  { file := [0, 1, 2, 3, 4, 5, 6, 7, 8, 9], track := ⟨2, 0x40, 0x12, 0x10, 1⟩
    frameOffset := fun _ => (5, 3) }

theorem reads_right_tenBytes :
    ∃ t, Runs.run (step tenBytes 2) {} [.readCallback 0 4, .goToFirst, .readFrame none] = some t ∧
      Right tenBytes t := by
  have hcallback : CallbackFits tenBytes {} 0 4 := Or.inr ⟨by decide, by decide⟩
  obtain ⟨t, hstep, -⟩ :=
    kept_step (Nat.le_refl 2) (.readCallback 0 4) (kept_init tenBytes) hcallback
  have hframe : FrameFits tenBytes (t.plugin.goToFirst tenBytes) none :=
    Or.inr (Or.inr ⟨Or.inr ⟨rfl, Or.inl rfl⟩, fun _ _ hnone => absurd hnone nofun⟩)
  have hlast : Runs.Along (step tenBytes 2) (Fits tenBytes)
      { t with plugin := t.plugin.goToFirst tenBytes } [.readFrame none] := by
    refine ⟨hframe, ?_⟩
    split
    · trivial
    · trivial
  exact reads_right (Nat.le_refl 2) (.cons hcallback hstep (.cons trivial rfl hlast))

theorem request_never_returns :
    tenBytes.fileSize = 10 ∧
      ∀ fuel, ({} : MiniMP4DemuxerPlugin).readCallback tenBytes fuel 6 5 = none := by
  refine ⟨rfl, fun fuel => ?_⟩
  have hendless : ({} : MiniMP4DemuxerPlugin).loadWindow tenBytes 6 5 fuel = none :=
    loadWindow_endless window_init (by decide) (by decide) (by decide) fuel
  unfold MiniMP4DemuxerPlugin.readCallback
  dsimp only
  rw [if_neg (by decide), if_neg (by decide), hendless]
  rfl

end MediaFoundation.Minimp4Demuxer
