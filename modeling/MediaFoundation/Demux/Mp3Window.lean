import MediaFoundation.Lib.Runs
import MediaFoundation.Demux.Minimp3Demuxer

/-!
# The window of Minimp3DemuxerPlugin

The window moves by `usedInputLength`, which is what the last look at it has left there: the fixed
amount that goes when no frame is found is not in it, and a call that fails after the move has
moved the window already.
-/

namespace MediaFoundation.Minimp3

variable {s t : State} {events : List Event} {start : Nat} {status : Status}

-- The property and the condition

def Call.Shows (c : Call) (p : Nat) : Prop :=
  c.pos + c.tag ≤ p ∧ p < c.pos + c.tag + c.bytes.length

structure CallRight (file : List UInt8) (start : Nat) (c : Call) : Prop where
  bytes : c.bytes <+: file.drop start
  sum : c.pos + c.remain = c.offset
  fits : c.remain ≤ mediaIoSize

structure WindowRight (start : Call → Nat) (s : State) : Prop where
  calls : ∀ c ∈ s.calls, CallRight s.file (start c) c
  neverWraps : s.ioDataRemainSize ≤ mediaIoSize
  /-- What lies between two frames was shown. -/
  shown : ∀ c ∈ s.calls, ∀ d ∈ s.calls, ∀ f ∈ c.frame, ∀ g ∈ d.frame, ∀ p,
    f.start + f.size ≤ p → p < g.start → ∃ e ∈ s.calls, e.Shows p
  usedUp : s.calls.Pairwise fun c d => c.next ≤ d.pos

def NoFrame (s : State) : Prop := ∀ c ∈ s.calls, c.frame = none

def ReadResult.Delivers (readSize : Nat) : ReadResult → Prop
  | .failed _ => False
  | .bytes n => n ≤ readSize

/-- Where the window has been moved, the read does not fail. -/
def KeepsFetch (s : State) (f : Fetch) : Prop :=
  s.ioDataRemainSize = 0 ∨ s.usedInputLength = 0 ∨
    ∀ r ∈ f.reads.head?,
      r.Delivers (min (mediaIoSize - s.ioDataRemainSize) (s.file.length - s.offset))

/-- A tag comes before the frames, and without a tag what was used before is no more than there is,
and nothing where the format is refused. -/
def KeepsTag (s : State) (found : Option Nat) : Tag → Prop
  | .unknown => True
  | .goesOn _ | .ends _ => NoFrame s
  | .none =>
    if found = none ∧ s.id3v2SkipFlag = false then s.usedInputLength = 0
    else s.usedInputLength ≤ s.ioDataRemainSize

/-- Without a frame the whole window goes, and no zeros with it that were not shown, unless the
file is at its end or no frame has come yet. -/
def KeepsProcess (s : State) (found : Option (Nat × Nat)) : Prop :=
  (∀ x ∈ found, x.2 = 0) →
    s.ioDataRemainSize ≤ audioDemuxerSourceOnceLengthMax ∧
      ((audioDemuxerMp3IgnoreTailZero (window s)).length = s.ioDataRemainSize ∨
        s.offset = s.file.length ∨ NoFrame s)

def KeepsWindow (s : State) : Event → Prop
  | .getMediaInfo f => KeepsFetch s f
  | .prepare found => KeepsTag s found (findTag s)
  | .readFrame f => KeepsFetch s f
  | .process found => KeepsProcess s found
  | .seekTo _ => True

def NoTag (s : State) : Event → Prop
  | .prepare _ => (findTag s).endsHere = false
  | _ => True

instance decidableDelivers (readSize : Nat) : ∀ r : ReadResult, Decidable (r.Delivers readSize)
  | .failed _ => .isFalse id
  | .bytes n => inferInstanceAs (Decidable (n ≤ readSize))

instance (s : State) : Decidable (NoFrame s) :=
  inferInstanceAs (Decidable (∀ c ∈ s.calls, c.frame = none))

instance (s : State) (f : Fetch) : Decidable (KeepsFetch s f) :=
  inferInstanceAs (Decidable (_ ∨ _ ∨ _))

instance decidableKeepsTag (s : State) (found : Option Nat) :
    ∀ tag, Decidable (KeepsTag s found tag)
  | .unknown => .isTrue trivial
  | .goesOn _ | .ends _ => inferInstanceAs (Decidable (NoFrame s))
  | .none => inferInstanceAs (Decidable (if found = none ∧ s.id3v2SkipFlag = false
      then s.usedInputLength = 0 else s.usedInputLength ≤ s.ioDataRemainSize))

instance (s : State) (found : Option (Nat × Nat)) : Decidable (KeepsProcess s found) :=
  inferInstanceAs (Decidable ((∀ x ∈ found, x.2 = 0) → _ ∧ (_ ∨ _ ∨ _)))

instance decidableKeepsWindow (s : State) : ∀ e, Decidable (KeepsWindow s e)
  | .getMediaInfo f | .readFrame f => inferInstanceAs (Decidable (KeepsFetch s f))
  | .prepare found => decidableKeepsTag s found (findTag s)
  | .process found => inferInstanceAs (Decidable (KeepsProcess s found))
  | .seekTo _ => .isTrue trivial

instance decidableNoTag (s : State) : ∀ e, Decidable (NoTag s e)
  | .prepare _ => inferInstanceAs (Decidable ((findTag s).endsHere = false))
  | .getMediaInfo _ | .readFrame _ | .process _ | .seekTo _ => .isTrue trivial

-- The window

structure Window (start : Nat) (s : State) : Prop where
  length : s.inIoBuffer.length = mediaIoSize
  inFile : s.offset ≤ s.file.length
  sum : s.currentDemuxerPos + s.ioDataRemainSize = s.offset
  fits : s.ioDataRemainSize = 0 ∨ start + s.ioDataRemainSize ≤ mediaIoSize
  bytes : (s.inIoBuffer.drop start).take s.ioDataRemainSize =
    (s.file.drop s.currentDemuxerPos).take s.ioDataRemainSize

/-- Where the data begins does not matter if there is none. -/
theorem Window.restart {start' : Nat} (h : Window start s) (hnone : s.ioDataRemainSize = 0) :
    Window start' s := by
  refine { h with fits := .inl hnone, bytes := ?_ }
  rw [hnone, List.take_zero, List.take_zero]

theorem Window.le (h : Window start s) : s.ioDataRemainSize ≤ mediaIoSize := by
  have hfits := h.fits
  omega

theorem Window.window_eq (h : Window 0 s) :
    window s = (s.file.drop s.currentDemuxerPos).take s.ioDataRemainSize := h.bytes

theorem Window.length_window (h : Window 0 s) : (window s).length = s.ioDataRemainSize := by
  unfold window
  rw [List.length_take, h.length]
  exact Nat.min_eq_left h.le

theorem Window.move (h : Window s.usedInputLength s) :
    ∃ buffer, moveWindow s = some { s with inIoBuffer := buffer } ∧
      Window 0 { s with inIoBuffer := buffer } := by
  unfold moveWindow
  by_cases hnone : s.ioDataRemainSize = 0
  · rw [if_pos hnone]
    exact ⟨s.inIoBuffer, rfl, h.restart hnone⟩
  · have hfits := h.fits.resolve_left hnone
    have hlength : ((s.inIoBuffer.drop s.usedInputLength).take s.ioDataRemainSize).length =
        s.ioDataRemainSize := by
      rw [List.length_take, List.length_drop, h.length]
      omega
    rw [if_neg hnone, if_pos hfits]
    refine ⟨_, rfl, { h with length := ?_, fits := .inr (by dsimp only; omega), bytes := ?_ }⟩
    · rw [List.length_append, hlength, List.length_replicate]
      omega
    · show List.take s.ioDataRemainSize (_ ++ _) = _
      rw [List.take_left' hlength]
      exact h.bytes

theorem Window.append (h : Window 0 s) {n : Nat} (hroom : s.ioDataRemainSize + n ≤ mediaIoSize)
    (hfile : s.offset + n ≤ s.file.length) :
    Window 0 { s with
      inIoBuffer := s.inIoBuffer.take s.ioDataRemainSize ++ (s.file.drop s.offset).take n ++
        s.inIoBuffer.drop (s.ioDataRemainSize + n)
      offset := s.offset + n
      ioDataRemainSize := s.ioDataRemainSize + n } := by
  have hread : ((s.file.drop s.offset).take n).length = n := by
    rw [List.length_take, List.length_drop]
    omega
  have hwindow := h.length_window
  unfold window at hwindow
  have hfront : (s.inIoBuffer.take s.ioDataRemainSize ++ (s.file.drop s.offset).take n).length =
      s.ioDataRemainSize + n := by
    rw [List.length_append, hwindow, hread]
  refine ⟨?_, hfile, ?_, .inr (by dsimp only; omega), ?_⟩
  · rw [List.length_append, hfront, List.length_drop, h.length]
    omega
  · have hsum := h.sum
    dsimp only
    omega
  · show List.take (s.ioDataRemainSize + n) (_ ++ _) = _
    rw [List.take_left' hfront, List.take_add, List.drop_drop, h.sum]
    exact congrArg (· ++ _) h.bytes

def AtEnd (s : State) : Prop := s.ioDataRemainSize = 0 ∧ s.offset = s.file.length

structure Filled (s t : State) (status : Status) : Prop where
  window : Window 0 t
  filled : status = .ok → 0 < t.ioDataRemainSize
  failed : status ≠ .ok → t.ioDataRemainSize = s.ioDataRemainSize
  atEnd : AtEnd s → AtEnd t
  used : t.usedInputLength = s.usedInputLength
  calls : t.calls = s.calls
  file : t.file = s.file
  pos : t.currentDemuxerPos = s.currentDemuxerPos

theorem Filled.refl (h : Window 0 s) (hfilled : status = .ok → 0 < s.ioDataRemainSize) :
    Filled s s status :=
  ⟨h, hfilled, fun _ => rfl, id, rfl, rfl, rfl, rfl⟩

theorem Window.doReadFromSource (h : Window 0 s) {readSize : Nat}
    (hroom : s.ioDataRemainSize + readSize ≤ mediaIoSize)
    (hfile : s.offset + readSize ≤ s.file.length) (reads : List ReadResult) :
    ∀ retryTimes, doReadFromSource s readSize retryTimes reads = some (t, status) →
      Filled s t status := by
  induction reads with
  | nil => exact nofun
  | cons read rest ih =>
    intro retryTimes hread
    cases read with
    | failed code =>
      cases hread
      exact .refl h nofun
    | bytes n =>
      unfold Minimp3.doReadFromSource at hread
      split at hread
      next => exact ih _ hread
      next hretry =>
        split at hread
        next =>
          cases hread
          exact .refl h nofun
        next htimes =>
          split at hread
          next hzero =>
            cases hread
            refine .refl h fun _ => ?_
            -- an empty read with an empty window is tried again
            by_contra hnone
            exact hretry ⟨hzero, by omega, by omega⟩
          next hsome =>
            split at hread
            next =>
              cases hread
              exact .refl h nofun
            next hle =>
              cases hread
              refine ⟨h.append (by omega) (by omega), fun _ => by dsimp only; omega,
                fun hne => absurd rfl hne, fun hend => ?_, rfl, rfl, rfl, rfl⟩
              have hoffset := hend.2
              omega

theorem doReadFromSource_ok {readSize : Nat} {reads : List ReadResult}
    (hsome : s.ioDataRemainSize ≠ 0) (hdelivers : ∀ r ∈ reads.head?, r.Delivers readSize)
    (hread : doReadFromSource s readSize 0 reads = some (t, status)) : status = .ok := by
  cases reads with
  | nil => cases hread
  | cons read rest =>
    have hhead : read.Delivers readSize := hdelivers read rfl
    cases read with
    | failed code => exact hhead.elim
    | bytes n =>
      have hle : n ≤ readSize := hhead
      unfold doReadFromSource at hread
      rw [if_neg (fun h => hsome h.2.2), if_neg (by omega)] at hread
      split at hread
      · cases hread
        rfl
      · rw [if_neg (by omega)] at hread
        cases hread
        rfl

/-- **`GetDataFromSource`** fails only where nothing has been moved. -/
theorem Window.getDataFromSource (h : Window s.usedInputLength s) {f : Fetch}
    (hkeeps : KeepsFetch s f) (hget : getDataFromSource s f = some (t, status)) :
    Filled s t status ∧
      (status ≠ .ok → s.ioDataRemainSize = 0 ∨ s.usedInputLength = 0) := by
  obtain ⟨buffer, hmove, hwindow⟩ := h.move
  unfold Minimp3.getDataFromSource at hget
  rw [hmove, Option.bind_some] at hget
  generalize hm : ({ s with inIoBuffer := buffer } : State) = m at hget hwindow
  have hfrom : Filled m t status → Filled s t status := fun hfilled => by
    rw [← hm] at hfilled
    exact { hfilled with }
  have hle := hwindow.le
  have hin := hwindow.inFile
  have hused : m.usedInputLength = s.usedInputLength := by rw [← hm]
  have hremain : m.ioDataRemainSize = s.ioDataRemainSize := by rw [← hm]
  have hoffset : m.offset = s.offset := by rw [← hm]
  have hfile : m.file = s.file := by rw [← hm]
  dsimp only at hget
  split at hget
  next hfull =>
    cases hget
    refine ⟨hfrom (.refl hwindow nofun), fun _ => .inr ?_⟩
    have hfits := h.fits
    have hnone := hfull.2.1
    have hsome := hfull.1
    omega
  next =>
    split at hget
    next hend =>
      cases hget
      exact ⟨hfrom (.refl hwindow nofun), fun _ => .inl (hremain ▸ hend.2)⟩
    next hmore =>
      generalize hneed : (if m.file.length < m.offset + (mediaIoSize - m.ioDataRemainSize)
        then m.file.length - m.offset else mediaIoSize - m.ioDataRemainSize) = need at hget
      have hmin : need = min (mediaIoSize - m.ioDataRemainSize) (m.file.length - m.offset) := by
        rw [← hneed]
        split <;> omega
      split at hget
      next hnone =>
        cases hget
        refine ⟨hfrom (.refl hwindow fun _ => ?_), fun hne => absurd rfl hne⟩
        have hsize : 0 < mediaIoSize := Nat.mul_pos (by decide) (by decide)
        omega
      next =>
        refine ⟨hfrom (hwindow.doReadFromSource (by omega) (by omega) f.reads 0 hget), fun hne => ?_⟩
        by_contra hboth
        rw [not_or] at hboth
        refine hne (doReadFromSource_ok (by rw [hremain]; exact hboth.1) ?_ hget)
        rw [hmin, hremain, hoffset, hfile]
        exact (hkeeps.resolve_left hboth.1).resolve_left hboth.2

theorem consume_remain {n : Nat} (hn : n ≤ s.ioDataRemainSize)
    (hsmall : s.ioDataRemainSize ≤ mediaIoSize) :
    (consume s n).ioDataRemainSize = s.ioDataRemainSize - n := by
  have hsize : mediaIoSize < 2 ^ 32 := by
    unfold mediaIoSize
    norm_num
  show subtract s.ioDataRemainSize n = _
  unfold subtract
  rw [Nat.mod_eq_of_lt (by omega : n < 2 ^ 32)]
  omega

theorem Window.consume (h : Window 0 s) {n : Nat} (hn : n ≤ s.ioDataRemainSize) :
    Window n (consume s n) := by
  have hremain := consume_remain hn h.le
  have hle := h.le
  have hsum := h.sum
  refine ⟨h.length, h.inFile, ?_, .inr (by rw [hremain]; omega), ?_⟩
  · rw [hremain]
    show s.currentDemuxerPos + n + (s.ioDataRemainSize - n) = s.offset
    omega
  · rw [hremain]
    show (s.inIoBuffer.drop n).take _ = (s.file.drop (s.currentDemuxerPos + n)).take _
    have hdrop := congrArg (List.drop n) h.window_eq
    unfold window at hdrop
    rw [List.drop_take, List.drop_take, List.drop_drop] at hdrop
    exact hdrop

-- What the iterator was given

/-- Of the calls since the last seek. -/
structure History (s : State) : Prop where
  calls : ∀ c ∈ s.calls, CallRight s.file (c.pos + c.tag) c
  frames : ∀ c ∈ s.calls, ∀ f ∈ c.frame,
    c.tag = 0 ∧ c.pos ≤ f.start ∧ f.start + f.size ≤ c.pos + c.bytes.length
  last : ∀ c ∈ s.calls, c.pos ≤ c.next ∧ c.next ≤ s.currentDemuxerPos
  usedUp : s.calls.Pairwise fun c d => c.next ≤ d.pos
  /-- All that has been used up since a frame was shown, but for the end of the file. -/
  covered : ∀ c ∈ s.calls, c.frame ≠ none → AtEnd s ∨
    ∀ p, c.pos ≤ p → p < s.currentDemuxerPos → ∃ e ∈ s.calls, e.Shows p
  shown : ∀ c ∈ s.calls, ∀ d ∈ s.calls, c.frame ≠ none → d.frame ≠ none →
    ∀ p, c.pos ≤ p → p < d.pos → ∃ e ∈ s.calls, e.Shows p

theorem History.windowRight (h : History s) (hle : s.ioDataRemainSize ≤ mediaIoSize) :
    WindowRight (fun c => c.pos + c.tag) s where
  calls := h.calls
  neverWraps := hle
  usedUp := h.usedUp
  shown c hc d hd f hf g hg p hp hlt := by
    obtain ⟨-, hstart, -⟩ := h.frames c hc f hf
    obtain ⟨htag, hbegins, hends⟩ := h.frames d hd g hg
    have hsome : ∀ {x : Call} {y : Frame}, y ∈ x.frame → x.frame ≠ none := by
      intro x y hy hnone
      rw [hnone] at hy
      cases hy
    by_cases hbefore : p < d.pos
    · exact h.shown c hc d hd (hsome hf) (hsome hg) p (by omega) hbefore
    · exact ⟨d, hd, by omega, by omega⟩

theorem History.congr (h : History s) (hcalls : t.calls = s.calls) (hfile : t.file = s.file)
    (hpos : t.currentDemuxerPos = s.currentDemuxerPos) (hend : AtEnd s → AtEnd t) :
    History t where
  calls := by rw [hcalls, hfile]; exact h.calls
  frames := by rw [hcalls]; exact h.frames
  last := by rw [hcalls, hpos]; exact h.last
  usedUp := by rw [hcalls]; exact h.usedUp
  covered c hc hframe := by
    rw [hcalls] at hc ⊢
    rw [hpos]
    exact (h.covered c hc hframe).imp_left hend
  shown := by rw [hcalls]; exact h.shown

/-- Something is used up that the iterator was not given, before any frame. -/
theorem History.skip (h : History s) (hcalls : t.calls = s.calls) (hfile : t.file = s.file)
    (hpos : s.currentDemuxerPos ≤ t.currentDemuxerPos) (hnone : NoFrame s) : History t where
  calls := by rw [hcalls, hfile]; exact h.calls
  frames := by rw [hcalls]; exact h.frames
  last c hc := by
    rw [hcalls] at hc
    exact ⟨(h.last c hc).1, (h.last c hc).2.trans hpos⟩
  usedUp := by rw [hcalls]; exact h.usedUp
  covered c hc hframe := absurd (hnone c (hcalls ▸ hc)) hframe
  shown := by rw [hcalls]; exact h.shown

section Record

variable {tag : Nat} {bytes : List UInt8} {frame : Option Frame}

theorem mem_record {c : Call} (hc : c ∈ (record s t tag bytes frame).calls)
    (hcalls : t.calls = s.calls) :
    c ∈ s.calls ∨ c = ⟨s.currentDemuxerPos, s.ioDataRemainSize, s.offset, tag, bytes, frame,
      t.currentDemuxerPos⟩ := by
  change c ∈ t.calls ++ [_] at hc
  rw [hcalls, List.mem_append, List.mem_singleton] at hc
  exact hc

/-- The iterator was given something: what goes then was shown, or no frame has come, or the file
is at its end. -/
theorem History.record (h : History s) (hcalls : t.calls = s.calls) (hfile : t.file = s.file)
    (hpos : s.currentDemuxerPos ≤ t.currentDemuxerPos)
    (hbytes : bytes <+: s.file.drop (s.currentDemuxerPos + tag))
    (hsum : s.currentDemuxerPos + s.ioDataRemainSize = s.offset)
    (hfits : s.ioDataRemainSize ≤ mediaIoSize)
    (hframe : ∀ f ∈ frame, tag = 0 ∧ s.currentDemuxerPos ≤ f.start ∧
      f.start + f.size ≤ s.currentDemuxerPos + bytes.length)
    (hmore : 0 < s.ioDataRemainSize)
    (hcover : NoFrame s ∧ frame = none ∨ AtEnd t ∨
      tag = 0 ∧ t.currentDemuxerPos ≤ s.currentDemuxerPos + bytes.length) :
    History (record s t tag bytes frame) := by
  have hold : ∀ {e : Call}, e ∈ s.calls → e ∈ (Minimp3.record s t tag bytes frame).calls :=
    fun he => List.mem_append_left _ (hcalls ▸ he)
  have hnew : Call.mk s.currentDemuxerPos s.ioDataRemainSize s.offset tag bytes frame
      t.currentDemuxerPos ∈ (Minimp3.record s t tag bytes frame).calls :=
    List.mem_append_right _ List.mem_cons_self
  -- up to the position of this call everything was shown
  have hbefore : ∀ c ∈ s.calls, c.frame ≠ none → ∀ p, c.pos ≤ p → p < s.currentDemuxerPos →
      ∃ e ∈ (Minimp3.record s t tag bytes frame).calls, e.Shows p := by
    intro c hc hsome p hlo hhi
    cases h.covered c hc hsome with
    | inl hend => exact absurd hend.1 hmore.ne'
    | inr hall =>
      obtain ⟨e, he, hshows⟩ := hall p hlo hhi
      exact ⟨e, hold he, hshows⟩
  refine ⟨fun c hc => ?_, fun c hc => ?_, fun c hc => ?_, ?_, fun c hc hsome => ?_,
    fun c hc d hd hc' hd' p hlo hhi => ?_⟩
  · show CallRight t.file _ _
    rw [hfile]
    cases mem_record hc hcalls with
    | inl hc => exact h.calls c hc
    | inr hc =>
      rw [hc]
      exact ⟨hbytes, hsum, hfits⟩
  · cases mem_record hc hcalls with
    | inl hc => exact h.frames c hc
    | inr hc =>
      rw [hc]
      exact hframe
  · show c.pos ≤ c.next ∧ c.next ≤ t.currentDemuxerPos
    cases mem_record hc hcalls with
    | inl hc => exact ⟨(h.last c hc).1, (h.last c hc).2.trans hpos⟩
    | inr hc =>
      rw [hc]
      exact ⟨hpos, le_rfl⟩
  · show (t.calls ++ [_]).Pairwise _
    rw [hcalls, List.pairwise_append]
    refine ⟨h.usedUp, List.pairwise_singleton _ _, fun c hc d hd => ?_⟩
    rw [List.mem_singleton.mp hd]
    exact (h.last c hc).2
  · show AtEnd t ∨ ∀ p, c.pos ≤ p → p < t.currentDemuxerPos → _
    obtain hnone | hend | ⟨htag, hgone⟩ := hcover
    · cases mem_record hc hcalls with
      | inl hc => exact absurd (hnone.1 c hc) hsome
      | inr hc =>
        rw [hc] at hsome
        exact absurd hnone.2 hsome
    · exact .inl hend
    · refine .inr fun p hlo hhi => ?_
      by_cases hp : p < s.currentDemuxerPos
      · cases mem_record hc hcalls with
        | inl hc => exact hbefore c hc hsome p hlo hp
        | inr hc =>
          rw [hc] at hlo
          exact absurd hlo (by dsimp only; omega)
      · refine ⟨_, hnew, ?_, ?_⟩
        · show s.currentDemuxerPos + tag ≤ p
          omega
        · show p < s.currentDemuxerPos + tag + bytes.length
          omega
  · cases mem_record hc hcalls with
    | inl hc =>
      cases mem_record hd hcalls with
      | inl hd =>
        obtain ⟨e, he, hshows⟩ := h.shown c hc d hd hc' hd' p hlo hhi
        exact ⟨e, hold he, hshows⟩
      | inr hd =>
        rw [hd] at hhi
        exact hbefore c hc hc' p hlo hhi
    | inr hc =>
      rw [hc] at hlo
      change s.currentDemuxerPos ≤ p at hlo
      cases mem_record hd hcalls with
      | inl hd =>
        have hlast := h.last d hd
        omega
      | inr hd =>
        rw [hd] at hhi
        change p < s.currentDemuxerPos at hhi
        omega

end Record

-- The steps

/-- Between two looks at the window its data begins where the last one has left it. -/
structure Rested (s : State) : Prop where
  window : Window s.usedInputLength s
  history : History s

section Prepare

variable {u : State} {tag : Nat} {found : Option Nat}

theorem Window.drop_prefix (h : Window 0 s) (tag : Nat) :
    (window s).drop tag <+: s.file.drop (s.currentDemuxerPos + tag) := by
  rw [h.window_eq, List.drop_take, List.drop_drop]
  exact List.take_prefix _ _

/-- A round in which the iterator was given what follows the tag. -/
theorem rested_afterProbe (hw : Window 0 s) (hh : History s) (hmore : 0 < s.ioDataRemainSize)
    (hu : Window 0 u) (hcalls : u.calls = s.calls) (hfile : u.file = s.file)
    (hpos : u.currentDemuxerPos = s.currentDemuxerPos)
    (hremain : u.ioDataRemainSize = s.ioDataRemainSize)
    (htag : NoFrame s ∨ tag = 0)
    (hused : if found = none ∧ u.id3v2SkipFlag = false then u.usedInputLength = 0
      else u.usedInputLength ≤ s.ioDataRemainSize) :
    Rested (afterProbe s u tag found).1 := by
  have hlength : tag = 0 → ((window s).drop tag).length = s.ioDataRemainSize := by
    intro htag
    rw [htag, List.drop_zero, hw.length_window]
  have hrecord : ∀ {t : State}, t.calls = s.calls → t.file = s.file →
      s.currentDemuxerPos ≤ t.currentDemuxerPos →
      t.currentDemuxerPos ≤ s.currentDemuxerPos + s.ioDataRemainSize →
      History (record s t tag ((window s).drop tag) none) := by
    intro t hcalls hfile hle hge
    refine hh.record hcalls hfile hle (hw.drop_prefix tag) hw.sum hw.le nofun hmore ?_
    cases htag with
    | inl hnone => exact .inl ⟨hnone, rfl⟩
    | inr hzero => exact .inr (.inr ⟨hzero, by rw [hlength hzero]; exact hge⟩)
  have hconsumed : u.usedInputLength ≤ s.ioDataRemainSize →
      Window u.usedInputLength (consume u u.usedInputLength) := fun hle =>
    hu.consume (hremain ▸ hle)
  have hafter : (consume u u.usedInputLength).currentDemuxerPos =
      s.currentDemuxerPos + u.usedInputLength := by rw [← hpos]; rfl
  unfold afterProbe
  cases found with
  | some bitRate =>
    rw [if_neg (fun h => nomatch h.1)] at hused
    refine ⟨{ hconsumed hused with }, hrecord hcalls hfile ?_ ?_⟩
    · exact hafter ▸ Nat.le_add_right _ _
    · exact hafter ▸ Nat.add_le_add_left hused _
  | none =>
    dsimp only
    split
    next hskip =>
      rw [if_neg (fun h => Bool.false_ne_true (h.2.symm.trans hskip))] at hused
      refine ⟨{ hconsumed hused with }, hrecord hcalls hfile ?_ ?_⟩
      · exact hafter ▸ Nat.le_add_right _ _
      · exact hafter ▸ Nat.add_le_add_left hused _
    next hskip =>
      rw [if_pos ⟨rfl, Bool.eq_false_iff.mpr hskip⟩] at hused
      refine ⟨?_, hrecord hcalls hfile hpos.ge (hpos ▸ Nat.le_add_right _ _)⟩
      show Window u.usedInputLength _
      rw [hused]
      exact { hu with }

theorem findTag_ends {length : Nat} (h : findTag s = .ends length) :
    length ≤ s.ioDataRemainSize := by
  unfold findTag at h
  grind

/-- **A round of `GetMediaInfo`.** -/
theorem rested_prepare (hw : Window 0 s) (hh : History s) (hmore : 0 < s.ioDataRemainSize)
    (hkeeps : KeepsTag s found (findTag s)) : Rested (prepare s found).1 := by
  unfold prepare
  rw [if_neg hmore.ne']
  cases htag : findTag s with
  | unknown =>
    have hw' : Window 0 { s with usedInputLength := 0 } := { hw with }
    refine ⟨hw'.consume (Nat.zero_le _), hh.congr rfl rfl rfl ?_⟩
    exact fun hend => absurd hend.1 hmore.ne'
  | goesOn left =>
    rw [htag] at hkeeps
    have hw' : Window 0 { s with
        usedInputLength := s.ioDataRemainSize
        id3v2Size := foundSize s
        id3v2Offset := left - s.ioDataRemainSize } := { hw with }
    exact ⟨hw'.consume le_rfl, hh.skip rfl rfl (Nat.le_add_right _ _) hkeeps⟩
  | ends length =>
    rw [htag] at hkeeps
    refine rested_afterProbe hw hh hmore { hw with } rfl rfl rfl rfl (.inl hkeeps) ?_
    rw [if_neg (fun h => nomatch h.2)]
    exact findTag_ends htag
  | none =>
    rw [htag] at hkeeps
    exact rested_afterProbe hw hh hmore { hw with } rfl rfl rfl rfl (.inr rfl) hkeeps

end Prepare

section Process

theorem discard_same (s : State) (r : Result) :
    ∃ count seek, (discard s r).1 = { s with discardItemCount := count, mp3SeekFlag := seek } := by
  unfold discard
  split
  · exact ⟨_, _, rfl⟩
  · exact ⟨_, _, rfl⟩

theorem discard_result (s : State) (r : Result) :
    (discard s r).2.usedInputLength = r.usedInputLength ∧
      (discard s r).2.frameLength = r.frameLength := by
  unfold discard
  split <;> exact ⟨rfl, rfl⟩

theorem iterateCallback_some {bytes : List UInt8} {offset frameSize : Nat} {r : Result}
    (hinside : offset + frameSize ≤ bytes.length)
    (hr : iterateCallback bytes offset frameSize = some r) :
    r.frameLength = frameSize ∧
      r.usedInputLength = if frameSize = 0 then 0 else offset + frameSize := by
  unfold iterateCallback at hr
  split at hr
  next hzero =>
    cases hr
    exact ⟨hzero.symm, (if_pos hzero).symm⟩
  next hzero =>
    split at hr
    · cases hr
    · cases hr
      exact ⟨rfl, (if_neg hzero).symm⟩

theorem Window.shown_prefix (h : Window 0 s) :
    audioDemuxerMp3IgnoreTailZero (window s) <+: s.file.drop (s.currentDemuxerPos + 0) := by
  have hall := h.drop_prefix 0
  rw [List.drop_zero] at hall
  exact (List.rdropWhile_prefix _ _).trans hall

theorem Window.length_shown (h : Window 0 s) :
    (audioDemuxerMp3IgnoreTailZero (window s)).length ≤ s.ioDataRemainSize := by
  have hle := (List.rdropWhile_prefix (· = 0) (window s)).length_le
  rw [h.length_window] at hle
  exact hle

theorem writeMp3Data_some {r : Result} (h : writeMp3Data s r = some t) :
    ∃ pts, t = { useInput s r with pts } := by
  obtain ⟨-, h⟩ := Option.ite_none_left_eq_some.mp h
  exact ⟨_, (Option.some.inj h).symm⟩

theorem rested_noFrame (hw : Window 0 s) (hh : History s) (hmore : 0 < s.ioDataRemainSize)
    (hkeeps : s.ioDataRemainSize ≤ audioDemuxerSourceOnceLengthMax ∧
      ((audioDemuxerMp3IgnoreTailZero (window s)).length = s.ioDataRemainSize ∨
        s.offset = s.file.length ∨ NoFrame s))
    {r : Result} (hused : r.usedInputLength = 0) (hlength : r.frameLength = 0)
    (hwrite : writeMp3Data (discard { s with usedInputLength := 0 } r).1
      (discard { s with usedInputLength := 0 } r).2 = some t) :
    Rested (record s t 0 (audioDemuxerMp3IgnoreTailZero (window s)) none) := by
  obtain ⟨pts, rfl⟩ := writeMp3Data_some hwrite
  obtain ⟨count, seek, hsame⟩ := discard_same { s with usedInputLength := 0 } r
  obtain ⟨hused', hlength'⟩ := discard_result { s with usedInputLength := 0 } r
  have hw' : Window 0 { s with
      usedInputLength := 0
      discardItemCount := count
      mp3SeekFlag := seek } := { hw with }
  have hgone := consume_remain le_rfl hw'.le
  unfold useInput
  rw [hsame, hused', hlength', hused, hlength, if_neg (not_not_intro rfl), if_pos rfl,
    if_neg (Nat.not_lt.mpr hkeeps.1)]
  refine ⟨{ ((hw'.consume le_rfl).restart (hgone.trans (Nat.sub_self _)) : Window 0 _) with }, ?_⟩
  refine hh.record rfl rfl (Nat.le_add_right _ _) hw.shown_prefix hw.sum hw.le nofun hmore ?_
  obtain hall | hend | hnone := hkeeps.2
  · exact .inr (.inr ⟨rfl, by rw [hall]; exact le_rfl⟩)
  · exact .inr (.inl ⟨hgone.trans (Nat.sub_self _), hend⟩)
  · exact .inl ⟨hnone, rfl⟩

/-- **`ReadFrame` looks at the window.** -/
theorem rested_process (hw : Window 0 s) (hh : History s) (hmore : 0 < s.ioDataRemainSize)
    {found : Option (Nat × Nat)} (hkeeps : KeepsProcess s found)
    (ht : process s found = some (t, status)) : Rested t := by
  unfold process at ht
  rw [if_neg hmore.ne'] at ht
  cases found with
  | none =>
    obtain ⟨u, hwrite, hu⟩ := Option.map_eq_some_iff.mp ht
    cases hu
    exact rested_noFrame hw hh hmore (hkeeps nofun) rfl rfl hwrite
  | some x =>
    obtain ⟨offset, frameSize⟩ := x
    dsimp only at ht
    split at ht
    next hinside =>
      have hle := hw.length_shown
      cases hcall : iterateCallback (audioDemuxerMp3IgnoreTailZero (window s)) offset frameSize with
      | none =>
        obtain ⟨count, seek, hsame⟩ := discard_same { s with usedInputLength := 0 } {}
        rw [hcall] at ht
        dsimp only at ht
        rw [hsame] at ht
        cases ht
        refine ⟨{ hw with }, hh.record rfl rfl le_rfl hw.shown_prefix hw.sum hw.le nofun hmore ?_⟩
        exact .inr (.inr ⟨rfl, Nat.le_add_right _ _⟩)
      | some r =>
        obtain ⟨hframe, hcount⟩ := iterateCallback_some hinside hcall
        obtain ⟨hused, hlength⟩ :=
          discard_result { s with usedInputLength := r.usedInputLength } r
        rw [hcall] at ht
        dsimp only at ht
        obtain ⟨u, hwrite, hu⟩ := Option.map_eq_some_iff.mp ht
        cases hu
        by_cases hzero : frameSize = 0
        · rw [if_pos hzero] at hcount
          rw [if_pos (hlength.trans (hframe.trans hzero))]
          rw [hcount] at hwrite
          refine rested_noFrame hw hh hmore (hkeeps ?_) hcount (hframe.trans hzero) hwrite
          rintro _ ⟨⟩
          exact hzero
        · obtain ⟨count, seek, hsame⟩ :=
            discard_same { s with usedInputLength := r.usedInputLength } r
          rw [if_neg hzero] at hcount
          rw [hframe] at hlength
          obtain ⟨pts, rfl⟩ := writeMp3Data_some hwrite
          unfold useInput
          rw [hsame, hlength, if_neg hzero, if_pos hzero, hused, hcount]
          have hw' : Window 0 { s with
              usedInputLength := offset + frameSize
              discardItemCount := count
              mp3SeekFlag := seek } := { hw with }
          refine ⟨{ hw'.consume (hinside.trans hle) with }, ?_⟩
          refine hh.record rfl rfl (Nat.le_add_right _ _) hw.shown_prefix hw.sum hw.le ?_ hmore
            (.inr (.inr ⟨rfl, Nat.add_le_add_left hinside _⟩))
          rintro _ ⟨⟩
          dsimp only
          exact ⟨rfl, Nat.le_add_right _ _, by omega⟩
    next => cases ht

end Process

-- Every run

structure Inv (s : State) : Prop where
  rested : s.phase = .idle ∨ s.phase = .looping → Rested s
  filled : s.phase = .preparing ∨ s.phase = .processing → Window 0 s ∧ 0 < s.ioDataRemainSize
  history : History s

theorem Rested.inv (h : Rested s) {phase : Phase} (hphase : phase = .idle ∨ phase = .looping) :
    Inv { s with phase } where
  rested _ := ⟨{ h.window with }, { h.history with }⟩
  filled hbusy := by
    obtain rfl | rfl := hphase <;> (cases hbusy <;> contradiction)
  history := { h.history with }

theorem Inv.le (h : Inv s) : s.ioDataRemainSize ≤ mediaIoSize := by
  cases hphase : s.phase with
  | idle => exact (h.rested (.inl hphase)).window.le
  | looping => exact (h.rested (.inr hphase)).window.le
  | preparing => exact (h.filled (.inl hphase)).1.le
  | processing => exact (h.filled (.inr hphase)).1.le

theorem Inv.fetch (h : Inv s) {f : Fetch} {phase : Phase}
    (hphase : s.phase = .idle ∨ s.phase = .looping)
    (hnext : phase = .preparing ∨ phase = .processing) (hkeeps : KeepsFetch s f)
    (ht : fetch s f phase = some t) : Inv t ∧ t.calls = s.calls := by
  obtain ⟨⟨u, status⟩, hget, rfl⟩ := Option.map_eq_some_iff.mp ht
  obtain ⟨hwindow, hhistory⟩ := h.rested hphase
  obtain ⟨hfilled, hfailed⟩ := hwindow.getDataFromSource hkeeps hget
  have hu : History u := hhistory.congr hfilled.calls hfilled.file hfilled.pos hfilled.atEnd
  refine ⟨?_, hfilled.calls⟩
  dsimp only
  by_cases hok : status = .ok
  · rw [if_pos hok]
    refine ⟨fun hrest => ?_, fun _ => ⟨{ hfilled.window with }, hfilled.filled hok⟩, { hu with }⟩
    obtain rfl | rfl := hnext <;> (cases hrest <;> contradiction)
  · rw [if_neg hok]
    refine Rested.inv ⟨?_, hu⟩ (.inl rfl)
    cases hfailed hok with
    | inl hnone => exact hfilled.window.restart ((hfilled.failed hok).trans hnone)
    | inr hzero =>
      rw [hfilled.used, hzero]
      exact hfilled.window

theorem Inv.prepare (h : Inv s) {found : Option Nat} (hphase : s.phase = .preparing)
    (hkeeps : KeepsTag s found (findTag s)) :
    Inv { (prepare s found).1 with
      phase := if (prepare s found).2.isNone then .looping else .idle } := by
  obtain ⟨hwindow, hmore⟩ := h.filled (.inl hphase)
  refine (rested_prepare hwindow h.history hmore hkeeps).inv ?_
  split
  · exact .inr rfl
  · exact .inl rfl

theorem Inv.seekTo (h : Inv s) (hphase : s.phase = .idle) (seekTime : Int) :
    Inv (seekTo s seekTime).1 := by
  unfold Minimp3.seekTo
  dsimp only
  cases hpos : audioDemuxerMp3GetSeekPosition s (seekTime.tdiv hstMsecond % 2 ^ 32).toNat with
  | none => exact h
  | some pos =>
    have hle : pos ≤ s.file.length := by
      unfold audioDemuxerMp3GetSeekPosition at hpos
      dsimp only at hpos
      split at hpos
      · cases hpos
      next hnot =>
        cases hpos
        exact (Nat.not_lt.mp hnot).trans (Nat.mod_le _ _)
    have hhistory : History { s with
        offset := pos
        ioDataRemainSize := 0
        currentDemuxerPos := pos
        inIoBuffer := List.replicate mediaIoSize 0
        mp3SeekFlag := true
        calls := [] } := ⟨nofun, nofun, nofun, .nil, nofun, nofun⟩
    refine ⟨fun _ => ⟨⟨List.length_replicate, hle, rfl, .inl rfl, ?_⟩, hhistory⟩, fun hbusy => ?_,
      hhistory⟩
    · show List.take 0 _ = List.take 0 _
      rw [List.take_zero, List.take_zero]
    · change s.phase = _ ∨ s.phase = _ at hbusy
      rw [hphase] at hbusy
      cases hbusy <;> contradiction

/-- **One step.** -/
theorem Inv.step {e : Event} (h : Inv s) (hkeeps : KeepsWindow s e) (ht : step s e = some t) :
    Inv t := by
  unfold Minimp3.step at ht
  cases e with
  | getMediaInfo f =>
    dsimp only at ht
    split at ht
    next hphase => exact (h.fetch hphase (.inl rfl) hkeeps ht).1
    next => cases ht
  | prepare found =>
    dsimp only at ht
    split at ht
    next hphase =>
      cases ht
      exact h.prepare hphase hkeeps
    next => cases ht
  | readFrame f =>
    dsimp only at ht
    split at ht
    next hphase => exact (h.fetch (.inl hphase) (.inr rfl) hkeeps ht).1
    next => cases ht
  | process found =>
    dsimp only at ht
    split at ht
    next hphase =>
      obtain ⟨⟨u, status⟩, hu, rfl⟩ := Option.map_eq_some_iff.mp ht
      obtain ⟨hwindow, hmore⟩ := h.filled (.inr hphase)
      exact (rested_process hwindow h.history hmore hkeeps hu).inv (.inl rfl)
    next => cases ht
  | seekTo seekTime =>
    dsimp only at ht
    split at ht
    next hphase =>
      cases ht
      exact h.seekTo hphase seekTime
    next => cases ht

theorem inv_new (file : List UInt8) : Inv { file } where
  rested _ := ⟨⟨List.length_replicate, Nat.zero_le _, rfl, .inl rfl, rfl⟩,
    ⟨nofun, nofun, nofun, .nil, nofun, nofun⟩⟩
  filled hbusy := by cases hbusy <;> contradiction
  history := ⟨nofun, nofun, nofun, .nil, nofun, nofun⟩

-- Without a tag

def Untagged (s : State) : Prop := ∀ c ∈ s.calls, c.tag = 0

theorem Untagged.record {tag : Nat} {bytes : List UInt8} {frame : Option Frame}
    (h : Untagged s) (hcalls : t.calls = s.calls) (htag : tag = 0) :
    Untagged (record s t tag bytes frame) := by
  intro c hc
  cases mem_record hc hcalls with
  | inl hc => exact h c hc
  | inr hc => rw [hc]; exact htag

theorem Untagged.afterProbe (h : Untagged s) {u : State} (hcalls : u.calls = s.calls)
    (found : Option Nat) : Untagged (afterProbe s u 0 found).1 := by
  unfold Minimp3.afterProbe
  cases found with
  | some bitRate => exact h.record hcalls rfl
  | none =>
    dsimp only
    split
    · exact h.record hcalls rfl
    · exact h.record hcalls rfl

theorem Untagged.prepare (h : Untagged s) {found : Option Nat}
    (hnone : (findTag s).endsHere = false) : Untagged (prepare s found).1 := by
  unfold Minimp3.prepare
  split
  · exact h
  · cases htag : findTag s with
    | unknown | goesOn left => exact h
    | ends length =>
      rw [htag] at hnone
      cases hnone
    | none => exact h.afterProbe (u := { s with id3v2Size := foundSize s }) rfl found

theorem calls_consume (s : State) (n : Nat) : (consume s n).calls = s.calls := rfl

theorem calls_writeMp3Data {r : Result} (h : writeMp3Data s r = some t) : t.calls = s.calls := by
  obtain ⟨pts, rfl⟩ := writeMp3Data_some h
  show (useInput s r).calls = s.calls
  unfold useInput
  split
  · exact calls_consume _ _
  · split
    · split <;> exact calls_consume _ _
    · exact calls_consume _ _

theorem calls_discard (s : State) (r : Result) : (discard s r).1.calls = s.calls := by
  obtain ⟨count, seek, hsame⟩ := discard_same s r
  rw [hsame]

theorem Untagged.process (h : Untagged s) {found : Option (Nat × Nat)}
    (ht : process s found = some (t, status)) : Untagged t := by
  unfold Minimp3.process at ht
  split at ht
  · cases ht
    exact h
  · dsimp only at ht
    split at ht
    · obtain ⟨u, hwrite, hu⟩ := Option.map_eq_some_iff.mp ht
      cases hu
      exact h.record ((calls_writeMp3Data hwrite).trans (calls_discard _ _)) rfl
    · split at ht
      · split at ht
        · cases ht
          exact h.record (calls_discard _ _) rfl
        · obtain ⟨u, hwrite, hu⟩ := Option.map_eq_some_iff.mp ht
          cases hu
          exact h.record ((calls_writeMp3Data hwrite).trans (calls_discard _ _)) rfl
      · cases ht

theorem Untagged.step {e : Event} (h : Untagged s) (hinv : Inv s)
    (hkeeps : KeepsWindow s e ∧ NoTag s e) (ht : step s e = some t) : Untagged t := by
  obtain ⟨hkeeps, hnone⟩ := hkeeps
  unfold Minimp3.step at ht
  cases e with
  | getMediaInfo f =>
    dsimp only at ht
    split at ht
    next hphase =>
      unfold Untagged
      rw [(hinv.fetch hphase (.inl rfl) hkeeps ht).2]
      exact h
    next => cases ht
  | prepare found =>
    dsimp only at ht
    split at ht
    next =>
      cases ht
      exact h.prepare hnone
    next => cases ht
  | readFrame f =>
    dsimp only at ht
    split at ht
    next hphase =>
      unfold Untagged
      rw [(hinv.fetch (.inl hphase) (.inr rfl) hkeeps ht).2]
      exact h
    next => cases ht
  | process found =>
    dsimp only at ht
    split at ht
    next =>
      obtain ⟨⟨u, status⟩, hu, rfl⟩ := Option.map_eq_some_iff.mp ht
      have hprocessed : Untagged u := h.process hu
      exact hprocessed
    next => cases ht
  | seekTo seekTime =>
    dsimp only at ht
    split at ht
    next =>
      cases ht
      unfold seekTo
      dsimp only
      split
      · exact h
      · exact nofun
    next => cases ht

/-- **The window is the file**, in every run of steps that meet the condition and in which no tag
ends in the window. -/
theorem window_is_file {file : List UInt8}
    (hkeeps : Runs.Along step (fun s e => KeepsWindow s e ∧ NoTag s e) { file } events)
    (hrun : Runs.run step { file } events = some s) : WindowRight Call.pos s := by
  obtain ⟨hinv, hnone⟩ := Runs.run_invariant (I := fun s => Inv s ∧ Untagged s)
    (fun _ _ _ h hgood hstep => ⟨h.1.step hgood.1 hstep, h.2.step h.1 hgood hstep⟩)
    ⟨inv_new file, nofun⟩ hkeeps hrun
  have hright := hinv.history.windowRight hinv.le
  refine { hright with calls := fun c hc => ?_ }
  have hcall := hright.calls c hc
  rw [hnone c hc, Nat.add_zero] at hcall
  exact hcall

def afterEvents (file : List UInt8) (events : List Event) : State :=
  (Runs.run step { file } events).getD { file }

theorem run_afterEvents {file : List UInt8}
    (h : (Runs.run step { file } events).isSome = true) :
    Runs.run step { file } events = some (afterEvents file events) := by
  obtain ⟨t, ht⟩ := Option.isSome_iff_exists.mp h
  rw [afterEvents, ht]
  rfl

def twelveBytes : List UInt8 := [1, 2, 3, 4, 5, 6, 7, 8, 9, 10, 11, 12]

/-- The media info, two frames, a seek to the start, and a frame of what a shorter read yields. -/
def framesAndSeek : List Event :=
  [.getMediaInfo ⟨true, [.bytes 12]⟩, .prepare (some 64),
    .readFrame ⟨true, []⟩, .process (some (2, 4)), .readFrame ⟨true, []⟩, .process (some (0, 6)),
    .seekTo 0, .readFrame ⟨true, [.bytes 0, .bytes 5]⟩, .process (some (1, 3))]

theorem window_is_file_twelve :
    Runs.run step { file := twelveBytes } framesAndSeek =
        some (afterEvents twelveBytes framesAndSeek) ∧
      WindowRight Call.pos (afterEvents twelveBytes framesAndSeek) ∧
      (afterEvents twelveBytes framesAndSeek).calls.map Call.bytes = [[1, 2, 3, 4, 5]] := by
  have hkeeps : Runs.Along step (fun s e => KeepsWindow s e ∧ NoTag s e) { file := twelveBytes }
      framesAndSeek := by decide +kernel
  have hrun : Runs.run step { file := twelveBytes } framesAndSeek =
      some (afterEvents twelveBytes framesAndSeek) := run_afterEvents (by decide +kernel)
  exact ⟨hrun, window_is_file hkeeps hrun, by decide +kernel⟩

/-- Frames, and what is none. -/
def elevenFrames : List UInt8 := (List.replicate 11 mp3Frame).flatten ++ List.replicate 100 1

/-- The media info, the first frame, and two looks that find none. -/
def threeLooks : List Event :=
  [.getMediaInfo ⟨true, [.bytes 1244]⟩, .prepare (some 32), .readFrame ⟨true, []⟩,
    .process (some (0, 104)), .readFrame ⟨true, []⟩, .process none, .readFrame ⟨true, []⟩,
    .process none]

theorem window_not_moved :
    Runs.run step { file := elevenFrames } threeLooks =
        some (afterEvents elevenFrames threeLooks) ∧
      ¬ WindowRight Call.pos (afterEvents elevenFrames threeLooks) := by
  refine ⟨run_afterEvents (by decide +kernel), fun h => ?_⟩
  have hbytes : ∀ c ∈ (afterEvents elevenFrames threeLooks).calls,
      c.bytes <+: (afterEvents elevenFrames threeLooks).file.drop c.pos :=
    fun c hc => (h.calls c hc).bytes
  exact absurd hbytes (by decide +kernel)

end MediaFoundation.Minimp3
