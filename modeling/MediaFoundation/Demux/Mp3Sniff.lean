import MediaFoundation.Lib.Runs
import MediaFoundation.Demux.Minimp3Demuxer

/-!
# Sniffing for MP3

`Sniff` of `minimp3_demuxer_plugin.cpp`, with the record of what it has probed. There is one record
for the whole process, and only a new plugin clears it.

Conventions:

* What the iterator finds is a parameter, with the handle of the decoder as its state: whether
  there is a frame that the callback accepts.
* The data of a source does not change. `ReadAt` yields what there is of the bytes asked for.
* A negative offset is none of a source.
-/

namespace MediaFoundation.Minimp3

def probeReadLength : Nat := 16 * 1024
def maxRank : Nat := 100

structure ProbeRecord (δ : Type) where
  mp3DemuxerHandle : δ
  id3v2SkipFlag : Bool := false
  id3v2Size : Nat := 0
  id3v2Offset : Nat := 0
  usedInputLength : Nat := 0

inductive ProbeStatus where
  | ok
  | errorNotEnoughData
  | errorUnsupportedFormat

structure SniffSource where
  content : List UInt8
  /-- `GetSize` has the size, and 0 otherwise. -/
  sizeKnown : Bool
  /-- `ReadAt` fails at the end and beyond it, and yields no data otherwise. -/
  endFails : Bool

namespace SniffSource

def readSize (source : SniffSource) : Nat :=
  if source.sizeKnown ∧ 0 < source.content.length ∧ source.content.length < probeReadLength then
    source.content.length
  else probeReadLength

def Has (source : SniffSource) (offset : Int) : Prop :=
  0 ≤ offset ∧ offset < source.content.length

instance (source : SniffSource) (offset : Int) : Decidable (source.Has offset) :=
  inferInstanceAs (Decidable (_ ∧ _))

def chunk (source : SniffSource) (offset : Nat) : List UInt8 :=
  (source.content.drop offset).take source.readSize

def readAt (source : SniffSource) (offset : Int) : Option (List UInt8) :=
  if source.Has offset then some (source.chunk offset.toNat)
  else if source.endFails then none else some []

end SniffSource

section Sniff

variable {δ : Type} (iterate : δ → List UInt8 → δ × Bool)

-- The code

/-- What `AudioDemuxerMp3Probe` does behind a tag. -/
def iterateBuf (r : ProbeRecord δ) (input : List UInt8) : ProbeRecord δ × ProbeStatus :=
  let found := iterate r.mp3DemuxerHandle input
  ({ r with mp3DemuxerHandle := found.1 },
    if found.2 then .ok
    else if r.id3v2SkipFlag then .errorNotEnoughData else .errorUnsupportedFormat)

/-- What it does with the part of a tag that is left. -/
def skipTag (r : ProbeRecord δ) (input : List UInt8) : ProbeRecord δ × ProbeStatus :=
  if r.id3v2Offset = 0 then iterateBuf iterate r input
  else if r.id3v2Offset ≤ input.length then
    iterateBuf iterate { r with
      usedInputLength := r.id3v2Offset
      id3v2SkipFlag := true
      id3v2Offset := 0 } (input.drop r.id3v2Offset)
  else ({ r with
    usedInputLength := input.length
    id3v2Offset := r.id3v2Offset - input.length }, .errorNotEnoughData)

def audioDemuxerMp3Probe (r : ProbeRecord δ) (input : List UInt8) :
    ProbeRecord δ × ProbeStatus :=
  if input = [] then (r, .errorNotEnoughData)
  else if r.id3v2SkipFlag then iterateBuf iterate r input
  else if r.id3v2Offset = 0 then
    if input.length < id3DetectSize then ({ r with usedInputLength := 0 }, .errorNotEnoughData)
    else skipTag iterate { r with
      id3v2Size := audioDemuxerMp3GetId3v2Size input
      id3v2Offset := audioDemuxerMp3GetId3v2Size input } input
  else skipTag iterate r input

def sniffLoop (source : SniffSource) : Nat → Int → ProbeRecord δ → Option (ProbeRecord δ × Nat)
  | 0, _, _ => none
  | rounds + 1, offset, r =>
    match source.readAt offset with
    | none => some (r, 0)
    | some input =>
      let probed := audioDemuxerMp3Probe iterate r input
      match probed.2 with
      | .ok => some (probed.1, maxRank)
      | .errorUnsupportedFormat => some (probed.1, 0)
      | .errorNotEnoughData =>
        sniffLoop source rounds ((offset + probed.1.usedInputLength).bmod (2 ^ 32)) probed.1

def sniff (source : SniffSource) (rounds : Nat) (r : ProbeRecord δ) :
    Option (ProbeRecord δ × Nat) :=
  sniffLoop iterate source rounds 0 r

inductive SniffEvent where
  /-- A plugin is created. -/
  | construct
  /-- A sniff that takes no more than so many rounds. -/
  | sniff (source : SniffSource) (rounds : Nat)

/-- `handle` is that of a decoder that is all zeros. -/
def sniffStep (handle : δ) (r : ProbeRecord δ) : SniffEvent → Option (ProbeRecord δ)
  | .construct => some { mp3DemuxerHandle := handle }
  | .sniff source rounds => (sniff iterate source rounds r).map Prod.fst

-- The property and the condition

def SniffsRightly (handle : δ) (r : ProbeRecord δ) : SniffEvent → Prop
  | .construct => True
  | .sniff source _ => ∃ rounds answer,
      (sniff iterate source rounds r).map Prod.snd = some answer ∧
        (sniff iterate source rounds { mp3DemuxerHandle := handle }).map Prod.snd = some answer

def answers : δ → List (List UInt8) → List Bool
  | _, [] => []
  | d, input :: inputs => (iterate d input).2 :: answers (iterate d input).1 inputs

/-- The two handles give the same answers. -/
def Agrees (d d' : δ) : Prop := ∀ inputs, answers iterate d inputs = answers iterate d' inputs

def Reads (source : SniffSource) (offset : Nat) : Prop :=
  offset < source.content.length ∧ offset < 2 ^ 31

/-- A frame is found in one of the inputs that begin at the offset, and then every `used` bytes. -/
inductive FindsFrom (source : SniffSource) (used : Nat) : δ → Nat → Prop where
  | here {d : δ} {offset : Nat} (reads : Reads source offset)
      (found : (iterate d (source.chunk offset)).2 = true) : FindsFrom source used d offset
  | later {d : δ} {offset : Nat} (reads : Reads source offset)
      (more : FindsFrom source used (iterate d (source.chunk offset)).1 (offset + used)) :
      FindsFrom source used d offset

/-- A frame is found behind the tag of which `left` bytes are left at the offset. -/
inductive FindsBehind (source : SniffSource) (d : δ) : Nat → Nat → Prop where
  | goesOn {left offset : Nat} (reads : Reads source offset)
      (long : (source.chunk offset).length < left)
      (more : FindsBehind source d (left - (source.chunk offset).length)
        (offset + (source.chunk offset).length)) : FindsBehind source d left offset
  | here {left offset : Nat} (reads : Reads source offset)
      (ends : left ≤ (source.chunk offset).length)
      (found : (iterate d ((source.chunk offset).drop left)).2 = true) :
      FindsBehind source d left offset
  | later {left offset : Nat} (reads : Reads source offset)
      (ends : left ≤ (source.chunk offset).length)
      (more : FindsFrom iterate source left (iterate d ((source.chunk offset).drop left)).1
        (offset + left)) : FindsBehind source d left offset

/-- No tag has been seen since the last plugin was created, and the decoder is as good as new. The
source has ten bytes or none. And reads at its end fail, or it has no tag, or a frame is found
behind the tag. -/
structure SniffsFresh (handle : δ) (r : ProbeRecord δ) (source : SniffSource) : Prop where
  flag : r.id3v2SkipFlag = false
  offset : r.id3v2Offset = 0
  decoder : Agrees iterate r.mp3DemuxerHandle handle
  size : source.content = [] ∨ id3DetectSize ≤ source.content.length
  ends : source.endFails = true ∨
    (source.content ≠ [] ∧ audioDemuxerMp3GetId3v2Size (source.chunk 0) = 0) ∨
    FindsBehind iterate source handle (audioDemuxerMp3GetId3v2Size (source.chunk 0)) 0

def SniffsWhen (handle : δ) (r : ProbeRecord δ) : SniffEvent → Prop
  | .construct => True
  | .sniff source _ => SniffsFresh iterate handle r source

variable {iterate : δ → List UInt8 → δ × Bool} {handle d d' : δ} {r r' : ProbeRecord δ}
  {source : SniffSource} {input : List UInt8} {offset : Int}

-- Two records that show no difference

structure Alike (iterate : δ → List UInt8 → δ × Bool) (r r' : ProbeRecord δ) : Prop where
  flag : r.id3v2SkipFlag = r'.id3v2SkipFlag
  offset : r.id3v2Offset = r'.id3v2Offset
  used : r.usedInputLength = r'.usedInputLength
  decoder : Agrees iterate r.mp3DemuxerHandle r'.mp3DemuxerHandle

theorem Agrees.found (h : Agrees iterate d d') (input : List UInt8) :
    (iterate d input).2 = (iterate d' input).2 := by
  have hone := h [input]
  simpa [answers] using hone

theorem Agrees.next (h : Agrees iterate d d') (input : List UInt8) :
    Agrees iterate (iterate d input).1 (iterate d' input).1 := by
  intro inputs
  have hmore := h (input :: inputs)
  simp only [answers, List.cons.injEq] at hmore
  exact hmore.2

theorem Alike.iterateBuf (h : Alike iterate r r') (input : List UInt8) :
    (iterateBuf iterate r input).2 = (iterateBuf iterate r' input).2 ∧
      Alike iterate (iterateBuf iterate r input).1 (iterateBuf iterate r' input).1 := by
  unfold Minimp3.iterateBuf
  dsimp only
  rw [h.decoder.found input, h.flag]
  exact ⟨rfl, rfl, h.offset, h.used, h.decoder.next input⟩

theorem Alike.skipTag (h : Alike iterate r r') (input : List UInt8) :
    (skipTag iterate r input).2 = (skipTag iterate r' input).2 ∧
      Alike iterate (skipTag iterate r input).1 (skipTag iterate r' input).1 := by
  unfold Minimp3.skipTag
  rw [h.offset]
  split
  · exact h.iterateBuf input
  · split
    · refine Alike.iterateBuf ?_ _
      exact ⟨rfl, rfl, rfl, h.decoder⟩
    · exact ⟨rfl, h.flag, rfl, rfl, h.decoder⟩

theorem Alike.probe (h : Alike iterate r r') (input : List UInt8) :
    (audioDemuxerMp3Probe iterate r input).2 = (audioDemuxerMp3Probe iterate r' input).2 ∧
      Alike iterate (audioDemuxerMp3Probe iterate r input).1
        (audioDemuxerMp3Probe iterate r' input).1 := by
  unfold audioDemuxerMp3Probe
  rw [h.flag, h.offset]
  split
  · exact ⟨rfl, h⟩
  · split
    · exact h.iterateBuf input
    · split
      · split
        · exact ⟨rfl, rfl, rfl, rfl, h.decoder⟩
        · refine Alike.skipTag ?_ input
          exact ⟨rfl, rfl, h.used, h.decoder⟩
      · exact h.skipTag input

theorem Alike.sniffLoop (h : Alike iterate r r') (source : SniffSource) (rounds : Nat)
    (offset : Int) :
    (sniffLoop iterate source rounds offset r).map Prod.snd =
      (sniffLoop iterate source rounds offset r').map Prod.snd := by
  induction rounds generalizing r r' offset with
  | zero => rfl
  | succ rounds ih =>
    unfold Minimp3.sniffLoop
    cases source.readAt offset with
    | none => rfl
    | some input =>
      obtain ⟨hstatus, halike⟩ := h.probe input
      simp only [hstatus]
      cases (audioDemuxerMp3Probe iterate r' input).2 with
      | ok | errorUnsupportedFormat => rfl
      | errorNotEnoughData =>
        simp only [halike.used]
        exact ih halike _

-- Sniffs that end

def Ends (iterate : δ → List UInt8 → δ × Bool) (source : SniffSource) (offset : Int)
    (r : ProbeRecord δ) : Prop :=
  ∃ rounds, (sniffLoop iterate source rounds offset r).isSome = true

/-- The loop ends if the next round is the last, or it ends from there on. -/
theorem Ends.step (h : ∀ input, source.readAt offset = some input →
    (audioDemuxerMp3Probe iterate r input).2 = .errorNotEnoughData →
      Ends iterate source
        ((offset + (audioDemuxerMp3Probe iterate r input).1.usedInputLength).bmod (2 ^ 32))
        (audioDemuxerMp3Probe iterate r input).1) : Ends iterate source offset r := by
  cases hread : source.readAt offset with
  | none => exact ⟨1, by simp [sniffLoop, hread]⟩
  | some input =>
    cases hstatus : (audioDemuxerMp3Probe iterate r input).2 with
    | ok | errorUnsupportedFormat => exact ⟨1, by simp [sniffLoop, hread, hstatus]⟩
    | errorNotEnoughData =>
      obtain ⟨rounds, hrounds⟩ := h input hread hstatus
      exact ⟨rounds + 1, by simpa [sniffLoop, hread, hstatus] using hrounds⟩

theorem readSize_le (source : SniffSource) : source.readSize ≤ probeReadLength := by
  unfold SniffSource.readSize
  split <;> omega

theorem readSize_pos (source : SniffSource) : 0 < source.readSize := by
  unfold SniffSource.readSize probeReadLength
  split <;> omega

theorem chunk_length (source : SniffSource) (offset : Nat) :
    (source.chunk offset).length = min source.readSize (source.content.length - offset) := by
  simp [SniffSource.chunk]

theorem readAt_some (h : source.readAt offset = some input) (hends : source.endFails = true) :
    source.Has offset ∧ input = source.chunk offset.toNat := by
  unfold SniffSource.readAt at h
  by_cases hhas : source.Has offset
  · rw [if_pos hhas] at h
    exact ⟨hhas, (Option.some_inj.mp h).symm⟩
  · rw [if_neg hhas, if_pos hends] at h
    cases h

theorem readAt_reads {offset : Nat} (h : Reads source offset) :
    source.readAt offset = some (source.chunk offset) := by
  have hlt := h.1
  have hhas : source.Has offset := ⟨by omega, by omega⟩
  simp [SniffSource.readAt, hhas]

theorem chunk_ne_nil (source : SniffSource) {offset : Nat} (h : offset < source.content.length) :
    source.chunk offset ≠ [] := by
  rw [← List.length_pos_iff, chunk_length]
  have hpos := readSize_pos source
  omega

/-- A tag has been seen: something goes in every round. -/
def Progress (r : ProbeRecord δ) : Prop :=
  (r.id3v2SkipFlag = true ∧ 0 < r.usedInputLength ∧ r.usedInputLength ≤ probeReadLength) ∨
    (r.id3v2SkipFlag = false ∧ 0 < r.id3v2Offset)

structure Goes (r : ProbeRecord δ) : Prop where
  progress : Progress r
  pos : 0 < r.usedInputLength
  le : r.usedInputLength ≤ probeReadLength

theorem Goes.skipTag (iterate : δ → List UInt8 → δ × Bool) (hflag : r.id3v2SkipFlag = false)
    (htag : 0 < r.id3v2Offset)
    (hinput : input ≠ []) (hlength : input.length ≤ probeReadLength) :
    Goes (skipTag iterate r input).1 := by
  have hpos := List.length_pos_iff.mpr hinput
  unfold Minimp3.skipTag
  rw [if_neg (by omega)]
  split
  · exact ⟨Or.inl ⟨rfl, htag, by show r.id3v2Offset ≤ _; omega⟩, htag,
      by show r.id3v2Offset ≤ _; omega⟩
  · exact ⟨Or.inr ⟨hflag, by show 0 < r.id3v2Offset - _; omega⟩, hpos, hlength⟩

theorem Progress.probe (h : Progress r) (iterate : δ → List UInt8 → δ × Bool) (hinput : input ≠ [])
    (hlength : input.length ≤ probeReadLength) :
    Goes (audioDemuxerMp3Probe iterate r input).1 := by
  unfold audioDemuxerMp3Probe
  rw [if_neg hinput]
  obtain ⟨hflag, hpos, hle⟩ | ⟨hflag, htag⟩ := h
  · simp only [hflag, if_pos]
    exact ⟨Or.inl ⟨hflag, hpos, hle⟩, hpos, hle⟩
  · rw [if_neg (by simp [hflag]), if_neg (by omega)]
    exact .skipTag iterate hflag htag hinput hlength

theorem ends_of_endFails (hends : source.endFails = true) :
    ∀ (n : Nat) {offset : Int} {r : ProbeRecord δ}, offset < 2 ^ 31 → 2 ^ 31 - offset ≤ n →
      Progress r → Ends iterate source offset r := by
  intro n
  induction n with
  | zero => intro offset r hlt hle _; omega
  | succ n ih =>
    intro offset r hlt hle hprogress
    refine .step ?_
    intro input hread _
    obtain ⟨hhas, rfl⟩ := readAt_some hread hends
    have hin := hhas.2
    have hstart := hhas.1
    have hlength := chunk_length source offset.toNat
    have hsize := readSize_le source
    have hne : source.chunk offset.toNat ≠ [] := chunk_ne_nil source (by omega)
    have hgoes := hprogress.probe iterate hne (by omega)
    have hpos := hgoes.pos
    have hused := hgoes.le
    generalize (audioDemuxerMp3Probe iterate r (source.chunk offset.toNat)).1 = next at *
    unfold probeReadLength at hused
    by_cases hfits : offset + next.usedInputLength < 2 ^ 31
    · rw [Int.bmod_eq_of_le (by omega) (by omega)]
      exact ih hfits (by omega) hgoes.progress
    · -- beyond 2 GiB the offset is negative
      refine .step ?_
      intro input hread' _
      have hnot := (readAt_some hread' hends).1.1
      rw [Int.bmod_def] at hnot
      split at hnot <;> omega

theorem FindsFrom.reads {used offset : Nat} (h : FindsFrom iterate source used d offset) :
    Reads source offset := by
  cases h with
  | here reads _ | later reads _ => exact reads

theorem FindsBehind.reads {left offset : Nat} (h : FindsBehind iterate source d left offset) :
    Reads source offset := by
  cases h with
  | goesOn reads _ _ | here reads _ _ | later reads _ _ => exact reads

theorem bmod_of_reads {offset : Nat} (h : Reads source offset) :
    (offset : Int).bmod (2 ^ 32) = offset := by
  have hlt := h.2
  exact Int.bmod_eq_of_le (by omega) (by omega)

theorem FindsFrom.ends {used offset : Nat} (h : FindsFrom iterate source used d offset)
    (hflag : r.id3v2SkipFlag = true) (hused : r.usedInputLength = used)
    (hhandle : r.mp3DemuxerHandle = d) : Ends iterate source offset r := by
  induction h generalizing r with
  | here reads found =>
    refine .step ?_
    intro input hread hstatus
    rw [readAt_reads reads] at hread
    cases hread
    simp [audioDemuxerMp3Probe, chunk_ne_nil source reads.1, hflag, iterateBuf, hhandle, found] at hstatus
  | @later _ offset reads more ih =>
    refine .step ?_
    intro input hread _
    rw [readAt_reads reads] at hread
    cases hread
    have hprobe : audioDemuxerMp3Probe iterate r (source.chunk offset) =
        iterateBuf iterate r (source.chunk offset) := by
      simp [audioDemuxerMp3Probe, chunk_ne_nil source reads.1, hflag]
    have hnext : (offset : Int) +
        ((iterateBuf iterate r (source.chunk offset)).1.usedInputLength : Nat) =
        ((offset + used : Nat) : Int) := by
      rw [← hused]
      exact (Int.natCast_add _ _).symm
    rw [hprobe, hnext, bmod_of_reads more.reads]
    exact ih hflag hused (by rw [← hhandle]; rfl)

theorem probe_skipTag (hinput : input ≠ []) (hflag : r.id3v2SkipFlag = false)
    (htag : r.id3v2Offset ≠ 0) :
    audioDemuxerMp3Probe iterate r input = skipTag iterate r input := by
  simp [audioDemuxerMp3Probe, hinput, hflag, htag]

theorem FindsBehind.ends {left offset : Nat} (h : FindsBehind iterate source d left offset)
    (hprobe : audioDemuxerMp3Probe iterate r (source.chunk offset) =
      skipTag iterate r' (source.chunk offset))
    (hflag : r'.id3v2SkipFlag = false) (hleft : r'.id3v2Offset = left) (hpos : 0 < left)
    (hhandle : r'.mp3DemuxerHandle = d) : Ends iterate source offset r := by
  induction h generalizing r r' with
  | @goesOn left offset reads long more ih =>
    refine .step ?_
    intro input hread _
    rw [readAt_reads reads] at hread
    cases hread
    have hskip : skipTag iterate r' (source.chunk offset) = ({ r' with
        usedInputLength := (source.chunk offset).length
        id3v2Offset := left - (source.chunk offset).length }, .errorNotEnoughData) := by
      simp [skipTag, hleft, hpos.ne', long]
    rw [hprobe, hskip]
    dsimp only
    rw [← Int.natCast_add, bmod_of_reads more.reads]
    have hrest : 0 < left - (source.chunk offset).length := by omega
    exact ih (probe_skipTag (chunk_ne_nil source more.reads.1) hflag hrest.ne') hflag rfl hrest hhandle
  | @here left offset reads ends found =>
    refine .step ?_
    intro input hread hstatus
    rw [readAt_reads reads] at hread
    cases hread
    rw [hprobe] at hstatus
    simp [skipTag, hleft, hpos.ne', ends, iterateBuf, hhandle, found] at hstatus
  | @later left offset reads ends more =>
    refine .step ?_
    intro input hread _
    rw [readAt_reads reads] at hread
    cases hread
    have hskip : (skipTag iterate r' (source.chunk offset)).1 = { r' with
        mp3DemuxerHandle := (iterate d ((source.chunk offset).drop left)).1
        usedInputLength := left
        id3v2SkipFlag := true
        id3v2Offset := 0 } := by
      simp [skipTag, hleft, hpos.ne', ends, iterateBuf, hhandle]
    rw [hprobe, hskip]
    dsimp only
    rw [← Int.natCast_add, bmod_of_reads more.reads]
    exact more.ends rfl rfl rfl

theorem ends_of_fresh (h : SniffsFresh iterate handle r source) :
    Ends iterate source 0 { mp3DemuxerHandle := handle } := by
  by_cases hempty : source.content = []
  · -- nothing can be read, and the read fails
    have hno : ∀ offset, ¬ Reads source offset := by
      intro offset hreads
      have hlt := hreads.1
      simp [hempty] at hlt
    have hends : source.endFails = true := by
      rcases h.ends with hfails | hsome | hfinds
      · exact hfails
      · exact absurd hempty hsome.1
      · exact absurd hfinds.reads (hno 0)
    refine .step ?_
    intro input hread _
    have hlt := (readAt_some hread hends).1.2
    simp [hempty] at hlt
  · have hten := h.size.resolve_left hempty
    have hreads : Reads source 0 := ⟨List.length_pos_iff.mpr hempty, by norm_num⟩
    have hne := chunk_ne_nil source hreads.1
    have hlength : ¬ (source.chunk 0).length < id3DetectSize := by
      rw [chunk_length]
      unfold SniffSource.readSize probeReadLength
      unfold id3DetectSize at *
      split <;> omega
    generalize hsize : audioDemuxerMp3GetId3v2Size (source.chunk 0) = size at *
    have hprobe : audioDemuxerMp3Probe iterate { mp3DemuxerHandle := handle } (source.chunk 0) =
        skipTag iterate { mp3DemuxerHandle := handle, id3v2Size := size, id3v2Offset := size }
          (source.chunk 0) := by
      simp [audioDemuxerMp3Probe, hne, hlength, hsize]
    by_cases hnone : size = 0
    · refine .step ?_
      intro input hread hstatus
      rw [show (0 : Int) = ((0 : Nat) : Int) from rfl, readAt_reads hreads] at hread
      cases hread
      rw [hprobe, hnone] at hstatus
      simp only [skipTag, if_pos, iterateBuf] at hstatus
      split at hstatus <;> simp at hstatus
    · have hpos : 0 < size := Nat.pos_of_ne_zero hnone
      rcases h.ends with hfails | huntagged | hfinds
      · refine .step ?_
        intro input hread _
        rw [show (0 : Int) = ((0 : Nat) : Int) from rfl, readAt_reads hreads] at hread
        cases hread
        have hle := readSize_le source
        have hgoes := Goes.skipTag iterate (r := ⟨handle, false, size, size, 0⟩) rfl
          hpos hne (by rw [chunk_length]; omega)
        rw [hprobe]
        have hused := hgoes.le
        unfold probeReadLength at hused
        rw [Int.bmod_eq_of_le (by omega) (by omega)]
        exact ends_of_endFails hfails (2 ^ 31) (by omega) (by omega) hgoes.progress
      · exact absurd (hsize ▸ huntagged.2) hnone
      · rw [hsize] at hfinds
        exact hfinds.ends hprobe rfl rfl hpos rfl

-- Runs

/-- Where no tag has been seen nothing has been used up. -/
def Unused (r : ProbeRecord δ) : Prop :=
  r.id3v2SkipFlag = false → r.id3v2Offset = 0 → r.usedInputLength = 0

theorem Unused.skipTag (h : Unused r) : Unused (skipTag iterate r input).1 := by
  unfold Minimp3.skipTag
  split
  · exact h
  · split
    · intro hflag
      cases hflag
    · intro _ hnone
      change r.id3v2Offset - input.length = 0 at hnone
      omega

theorem Unused.probe (h : Unused r) (iterate : δ → List UInt8 → δ × Bool) (input : List UInt8) :
    Unused (audioDemuxerMp3Probe iterate r input).1 := by
  unfold audioDemuxerMp3Probe
  split
  · exact h
  · split
    · exact h
    · split
      · rename_i hnone
        split
        · exact fun _ _ => rfl
        · refine Unused.skipTag ?_
          exact fun hflag _ => h hflag hnone
      · exact h.skipTag

theorem Unused.sniffLoop {rounds answer : Nat} (h : Unused r)
    (hrun : sniffLoop iterate source rounds offset r = some (r', answer)) : Unused r' := by
  induction rounds generalizing r offset with
  | zero => cases hrun
  | succ rounds ih =>
    unfold Minimp3.sniffLoop at hrun
    cases hread : source.readAt offset with
    | none =>
      rw [hread] at hrun
      cases hrun
      exact h
    | some input =>
      have hprobed := h.probe iterate input
      rw [hread] at hrun
      dsimp only at hrun
      split at hrun
      · cases hrun
        exact hprobed
      · cases hrun
        exact hprobed
      · exact ih hprobed hrun

theorem sniffsRightly_of_fresh (hunused : Unused r) (h : SniffsFresh iterate handle r source) :
    ∃ rounds answer, (sniff iterate source rounds r).map Prod.snd = some answer ∧
      (sniff iterate source rounds { mp3DemuxerHandle := handle }).map Prod.snd =
        some answer := by
  have halike : Alike iterate r { mp3DemuxerHandle := handle } :=
    ⟨h.flag, h.offset, hunused h.flag h.offset, h.decoder⟩
  obtain ⟨rounds, hrounds⟩ := ends_of_fresh h
  obtain ⟨⟨t, answer⟩, hfirst⟩ := Option.isSome_iff_exists.mp hrounds
  have hanswer : (sniff iterate source rounds { mp3DemuxerHandle := handle }).map Prod.snd =
      some answer := by
    unfold sniff
    rw [hfirst]
    rfl
  refine ⟨rounds, answer, ?_, hanswer⟩
  rw [← hanswer]
  exact halike.sniffLoop source rounds 0

/-- **Sniffing has no memory** in every run of sniffs that meet the condition. -/
theorem sniffs_rightly (iterate : δ → List UInt8 → δ × Bool) (handle : δ)
    (events : List SniffEvent)
    (h : Runs.Along (sniffStep iterate handle) (SniffsWhen iterate handle)
      { mp3DemuxerHandle := handle } events) :
    Runs.Along (sniffStep iterate handle) (SniffsRightly iterate handle)
      { mp3DemuxerHandle := handle } events := by
  refine Runs.along_imp (I := Unused) ?_ ?_ (fun _ _ => rfl) h
  · intro r e hunused hwhen
    cases e with
    | construct => trivial
    | sniff source rounds => exact sniffsRightly_of_fresh hunused hwhen
  · intro r e t hunused _ hstep
    cases e with
    | construct =>
      cases hstep
      exact fun _ _ => rfl
    | sniff source rounds =>
      obtain ⟨⟨t', answer⟩, hrun, rfl⟩ := Option.map_eq_some_iff.mp hstep
      exact hunused.sniffLoop hrun

end Sniff

-- A source of twelve bytes, and one of four

def noFrame (_ : Unit) (_ : List UInt8) : Unit × Bool := ((), false)

def twelveZeros : SniffSource := ⟨List.replicate 12 0, true, true⟩

def fourBytes : SniffSource := ⟨[0x52, 0x49, 0x46, 0x46], true, true⟩

theorem twelveZeros_fresh : SniffsFresh noFrame () { mp3DemuxerHandle := () } twelveZeros where
  flag := rfl
  offset := rfl
  decoder := fun _ => rfl
  size := by decide
  ends := Or.inl rfl

theorem sniffs_rightly_twice :
    Runs.Along (sniffStep noFrame ()) (SniffsRightly noFrame ()) { mp3DemuxerHandle := () }
      [.sniff twelveZeros 1, .construct, .sniff twelveZeros 1] := by
  refine sniffs_rightly noFrame () _ ?_
  refine .cons twelveZeros_fresh rfl (.cons trivial rfl ?_)
  exact ⟨twelveZeros_fresh, by trivial⟩

theorem fourBytes_goes_on (rounds : Nat) (r : ProbeRecord Unit) (hflag : r.id3v2SkipFlag = false)
    (hoffset : r.id3v2Offset = 0) : sniffLoop noFrame fourBytes rounds 0 r = none := by
  induction rounds generalizing r with
  | zero => rfl
  | succ rounds ih =>
    have hprobe : audioDemuxerMp3Probe noFrame r (fourBytes.chunk 0) =
        ({ r with usedInputLength := 0 }, .errorNotEnoughData) := by
      unfold audioDemuxerMp3Probe
      rw [hflag, hoffset]
      rfl
    have hread : fourBytes.readAt 0 = some (fourBytes.chunk 0) := rfl
    unfold sniffLoop
    rw [hread]
    simp only [hprobe]
    exact ih _ hflag hoffset

theorem fourBytes_not_rightly :
    ¬ Runs.Along (sniffStep noFrame ()) (SniffsRightly noFrame ()) { mp3DemuxerHandle := () }
      [.sniff fourBytes 1] := by
  intro h
  obtain ⟨rounds, answer, hsniff, -⟩ := h.1
  unfold sniff at hsniff
  rw [fourBytes_goes_on rounds _ rfl rfl] at hsniff
  cases hsniff

end MediaFoundation.Minimp3
