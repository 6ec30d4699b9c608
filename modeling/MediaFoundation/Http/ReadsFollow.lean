import MediaFoundation.Lib.Runs
import MediaFoundation.Http.HttpMediaDownloader

/-!
# Reads that follow seeks

The ring, the downloader and the player each keep a position. A seek within the ring moves its head
and not `mediaOffset_`; a seek outside of it moves all of them, unless the downloader refuses the
offset, which it does not tell.
-/

namespace MediaFoundation.HttpMedia

open Http

variable {file data bytes : List UInt8} {r r' : RingBuffer} {s t : State} {events : List Event}

-- The property and the condition

def RingBuffer.contents (r : RingBuffer) : List UInt8 :=
  (List.range r.getSize).map fun i => r.buffer ((r.head + i) % r.bufferSize)

structure ReadsFollow (s : State) : Prop where
  delivered : s.delivered <+: s.file.drop s.base
  position : s.ring.mediaOffset = s.base + s.delivered.length
  next : s.ring.contents <+: s.file.drop s.ring.mediaOffset
  refused : ∀ a ∈ s.answers, a.1 < 0 ∨ (s.file.length : Int) ≤ a.1 → a.2 = false

def KeepsSeek (s : State) : Phase → Prop
  | .seekPaused offset => ∀ d ∈ s.downloader, 0 ≤ offset ∧ offset < (s.file.length : Int) ∧
      offset < toInt64 d.currentRequest.headerInfo.fileContentLen
  | _ => True

/-- `Open` is called once, a pause does not drop what can be read, no seek moves the head of the
ring, and no body of an error comes. -/
def KeepsReads (s : State) : Event → Prop
  | .openUrl => s.opened = false
  | .pause => s.ring.getSize = 0 ∨ ∀ r ∈ downloadRequest s, r.headerInfo.isChunked = false
  | .seekTo offset =>
    s.ring.Within (RingBuffer.toUInt64 offset) → offset = (s.ring.mediaOffset : Int)
  | .next => KeepsSeek s s.phase
  | .block _ => s.transfer ≠ some .error
  | _ => True

instance decidableKeepsSeek (s : State) : ∀ phase, Decidable (KeepsSeek s phase)
  | .seekPaused offset => inferInstanceAs (Decidable (∀ d ∈ s.downloader, 0 ≤ offset ∧
      offset < (s.file.length : Int) ∧
        offset < toInt64 d.currentRequest.headerInfo.fileContentLen))
  | .idle | .pausing | .resuming | .seeking _ | .seekPausing _ => .isTrue trivial

instance decidableKeepsReads (s : State) : ∀ e, Decidable (KeepsReads s e)
  | .openUrl => inferInstanceAs (Decidable (s.opened = false))
  | .pause => inferInstanceAs (Decidable (s.ring.getSize = 0 ∨
      ∀ r ∈ downloadRequest s, r.headerInfo.isChunked = false))
  | .seekTo offset => inferInstanceAs (Decidable
      (s.ring.Within (RingBuffer.toUInt64 offset) → offset = (s.ring.mediaOffset : Int)))
  | .next => decidableKeepsSeek s s.phase
  | .block _ => inferInstanceAs (Decidable (s.transfer ≠ some .error))
  | .read _ | .resume | .request _ | .finish _ _ => .isTrue trivial

-- The ring

structure Carries (file : List UInt8) (r : RingBuffer) : Prop where
  size : 0 < r.bufferSize
  head_le : r.head ≤ r.tail
  tail_le : r.tail ≤ r.head + r.bufferSize
  holds : Ring.Holds r.bufferSize r.buffer (fun p => file[r.mediaOffset + (p - r.head)]?) r.head
    r.tail

/-- A ring without data holds any file from anywhere. -/
theorem carries_empty (hsize : 0 < r.bufferSize) (hnone : r.head = r.tail) : Carries file r :=
  ⟨hsize, hnone.le, hnone ▸ Nat.le_add_right _ _, fun p hlo hhi => by omega⟩

theorem Carries.getElem? (h : Carries file r) {i : Nat} (hi : i < r.getSize) :
    file[r.mediaOffset + i]? = some (r.buffer ((r.head + i) % r.bufferSize)) := by
  unfold RingBuffer.getSize at hi
  have hheld := h.holds (r.head + i) (by omega) (by omega)
  dsimp only at hheld
  rw [Nat.add_sub_cancel_left] at hheld
  exact hheld

theorem Carries.load_prefix (h : Carries file r) {n : Nat} (hn : n ≤ r.getSize) :
    (List.range n).map (fun i => r.buffer ((r.head + i) % r.bufferSize)) <+:
      file.drop r.mediaOffset := by
  rw [List.prefix_iff_getElem?]
  intro i hi
  rw [List.length_map, List.length_range] at hi
  rw [List.getElem?_drop, h.getElem? (by omega), List.getElem_map, List.getElem_range]

theorem Carries.contents_prefix (h : Carries file r) : r.contents <+: file.drop r.mediaOffset :=
  h.load_prefix le_rfl

theorem Carries.mediaOffset_lt (h : Carries file r) (hsome : 0 < r.getSize) :
    r.mediaOffset < file.length := by
  have hfirst := h.getElem? hsome
  exact (List.getElem?_eq_some_iff.mp hfirst).1

theorem Carries.readBuffer (h : Carries file r) {readSize : Nat}
    (hread : r.readBuffer readSize = some (r', bytes)) :
    Carries file r' ∧ bytes <+: file.drop r.mediaOffset ∧
      r'.mediaOffset = r.mediaOffset + bytes.length ∧
        r'.mediaOffset + r'.getSize = r.mediaOffset + r.getSize := by
  unfold RingBuffer.readBuffer at hread
  split at hread
  · split at hread
    · cases hread
    · have hhead := h.head_le
      have htail := h.tail_le
      have hle : min readSize r.getSize ≤ r.getSize := Nat.min_le_right _ _
      generalize min readSize r.getSize = n at hread hle
      have hsize : r.getSize = r.tail - r.head := rfl
      dsimp only at hread
      rw [Ring.ringLoad_eq h.size (by omega)] at hread
      cases hread
      refine ⟨⟨h.size, ?_, ?_, fun p hlo hhi => ?_⟩, h.load_prefix hle, ?_, ?_⟩
      · show r.head + n ≤ r.tail
        omega
      · show r.tail ≤ r.head + n + r.bufferSize
        omega
      · have hp := h.holds p (by dsimp only at hlo; omega) hhi
        rw [← hp]
        dsimp only at hlo ⊢
        congr 1
        omega
      · rw [List.length_map, List.length_range]
      · show r.mediaOffset + n + (r.tail - (r.head + n)) = r.mediaOffset + r.getSize
        omega
  · cases hread
    exact ⟨h, List.nil_prefix, rfl, rfl⟩

theorem Carries.writeBuffer (h : Carries file r)
    (hdata : data <+: file.drop (r.mediaOffset + r.getSize))
    (hwrite : r.writeBuffer data = some (r', true)) :
    Carries file r' ∧ r'.mediaOffset = r.mediaOffset ∧ r'.getSize = r.getSize + data.length ∧
      r.isActive = true := by
  unfold RingBuffer.writeBuffer at hwrite
  split at hwrite
  next hactive =>
    split at hwrite
    · cases hwrite
    next hroom =>
      cases hwrite
      have hhead := h.head_le
      have hsize : r.getSize = r.tail - r.head := rfl
      refine ⟨⟨h.size, ?_, ?_, fun p hlo hhi => ?_⟩, rfl, ?_, hactive⟩
      · show r.head ≤ r.tail + data.length
        omega
      · show r.tail + data.length ≤ r.head + r.bufferSize
        omega
      · have hnew : Ring.Holds r.bufferSize
            (Ring.ringStore r.bufferSize r.buffer (r.tail % r.bufferSize) data.length
              fun i => data.getD i 0)
            (Ring.overwrite (fun p => file[r.mediaOffset + (p - r.head)]?) r.tail data.length
              fun i => data.getD i 0) r.head (max r.tail (r.tail + data.length)) :=
          h.holds.write h.size le_rfl hhead le_rfl (by omega)
        have hp := hnew p hlo (by dsimp only at hhi; omega)
        rw [← hp]
        unfold Ring.overwrite
        dsimp only at hlo hhi ⊢
        by_cases hrun : r.tail ≤ p ∧ p < r.tail + data.length
        · have hi : p - r.tail < data.length := by omega
          have hat := (List.prefix_iff_getElem?.mp hdata) (p - r.tail) hi
          rw [List.getElem?_drop] at hat
          rw [if_pos hrun, List.getD_eq_getElem _ _ hi, ← hat]
          congr 1
          omega
        · rw [if_neg hrun]
      · show r.tail + data.length - r.head = _
        omega
  next => cases hwrite

-- Requests

structure RightRequest (r : DownloadRequest) : Prop where
  whole : r.requestWholeFile = false
  startPos : 0 ≤ r.startPos
  positive : 0 < r.requestSize
  small : r.requestSize ≤ perRequestSize

/-- What comes with a response leaves alone what the next request asks for. -/
structure SameRange (r r' : DownloadRequest) : Prop where
  whole : r'.requestWholeFile = r.requestWholeFile
  startPos : r'.startPos = r.startPos
  requestSize : r'.requestSize = r.requestSize

section Requests

variable {req req' : DownloadRequest}

theorem RightRequest.congr (h : RightRequest req) (hsame : SameRange req req') :
    RightRequest req' :=
  ⟨hsame.whole ▸ h.whole, hsame.startPos ▸ h.startPos, hsame.requestSize ▸ h.positive,
    hsame.requestSize ▸ h.small⟩

theorem sameRange_headers (req : DownloadRequest) (lines : List HeaderLine) :
    SameRange req (lines.foldl rxHeaderData req) := by
  induction lines generalizing req with
  | nil => exact ⟨rfl, rfl, rfl⟩
  | cons line lines ih =>
    have hrest := ih (rxHeaderData req line)
    exact ⟨hrest.whole, hrest.startPos, hrest.requestSize⟩

theorem sameRange_transferResult (req : DownloadRequest) (code : CurlCode) (httpCode : Int) :
    SameRange req (transferResult req code httpCode).2 := by
  unfold transferResult
  split
  · exact ⟨rfl, rfl, rfl⟩
  · split <;> exact ⟨rfl, rfl, rfl⟩

theorem rxBodyData_some {block : List UInt8} (h : rxBodyData req block = some req') :
    req'.startPos = req.startPos + block.length ∧
      SameRange { req with startPos := req.startPos + block.length } req' := by
  unfold rxBodyData at h
  dsimp only at h
  split at h
  · cases h
  · cases h
    exact ⟨rfl, rfl, rfl, rfl⟩

theorem rightRequest_begin : RightRequest (beginDownload false).currentRequest :=
  ⟨rfl, le_rfl, by decide, by decide⟩

theorem handleRetOK_right {d : Downloader} (h : RightRequest d.currentRequest) :
    RightRequest (handleRetOK d).currentRequest ∧
      (handleRetOK d).currentRequest.startPos = d.currentRequest.startPos := by
  unfold handleRetOK
  dsimp only
  split
  · exact ⟨{ h with }, rfl⟩
  · split
    · exact ⟨{ h with }, rfl⟩
    · have hsize : 0 < perRequestSize := by decide
      split
      next hless =>
        refine ⟨⟨h.whole, h.startPos, ?_, ?_⟩, rfl⟩
        · dsimp only
          omega
        · dsimp only
          omega
      next => exact ⟨⟨h.whole, h.startPos, hsize, le_rfl⟩, rfl⟩

/-- The server answers with no more than was asked for. -/
theorem respond_left (h : RightRequest req) {left : Nat}
    (hleft : respond file (nextRange req) = .range left) : left ≤ perRequestSize.toNat := by
  have hrange : nextRange req =
      some ⟨req.startPos, some (req.startPos + req.requestSize - 1)⟩ := by
    unfold nextRange requestRange
    rw [h.whole, if_neg Bool.false_ne_true, if_pos h.startPos, if_pos h.positive]
  rw [hrange] at hleft
  unfold respond at hleft
  dsimp only at hleft
  split at hleft
  · cases hleft
    have hsmall := h.small
    omega
  · cases hleft

theorem toInt_ofInt_small {n : Int} (hlo : 0 < n) (hhi : n ≤ perRequestSize) :
    (BitVec.ofInt 32 n).toInt = n := by
  have hsize : perRequestSize = 491520 := rfl
  rw [BitVec.toInt_ofInt]
  exact Int.bmod_eq_of_le (by omega) (by omega)

theorem seek_right {d d' : Downloader} {offset : Int} (h : RightRequest d.currentRequest)
    (hlo : 0 ≤ offset) (hhi : offset < toInt64 d.currentRequest.headerInfo.fileContentLen)
    (hseek : Http.seek d offset = some d') :
    RightRequest d'.currentRequest ∧ d'.currentRequest.startPos = offset := by
  obtain ⟨length, hlength, rfl⟩ := Option.map_eq_some_iff.mp hseek
  have hlen : length = d.currentRequest.headerInfo.fileContentLen := by
    unfold getFileContentLength at hlength
    dsimp only at hlength
    split at hlength
    · cases hlength
    · exact (Option.some.inj hlength).symm
  rw [← hlen] at hhi
  have hsize : 0 < perRequestSize := by decide
  dsimp only
  rw [if_pos ⟨hlo, hhi⟩, toInt_ofInt_small (by omega) (min_le_right _ _)]
  exact ⟨⟨h.whole, hlo, by dsimp only; omega, min_le_right _ _⟩, rfl⟩

end Requests

-- The invariant

/-- The ring has been cleared for a seek. -/
def Phase.sought : Phase → Bool
  | .seekPausing _ | .seekPaused _ => true
  | _ => false

def startOf (s : State) : Int :=
  match s.downloader with
  | some d => d.currentRequest.startPos
  | none => 0

structure Inv (s : State) : Prop where
  ring : Carries s.file s.ring
  delivered : s.delivered <+: s.file.drop s.base
  position : s.ring.mediaOffset = s.base + s.delivered.length
  refused : ∀ a ∈ s.answers, a.1 < 0 ∨ (s.file.length : Int) ≤ a.1 → a.2 = false
  start : s.phase.sought = false → startOf s = s.ring.mediaOffset + s.ring.getSize
  cleared : s.phase.sought = true → s.ring.isActive = false ∧ s.ring.head = s.ring.tail
  fresh : s.downloader = none → s.ring.mediaOffset = 0
  request : ∀ d ∈ s.downloader, RightRequest d.currentRequest
  left : ∀ left, s.transfer = some (.range left) → left ≤ perRequestSize.toNat
  waiting : s.waiting ≠ 0 → s.waiting = 1 ∧ s.downloader = none
  unopened : s.opened = false → s.waiting = 0 ∧ s.downloader = none

theorem Inv.readsFollow (h : Inv s) : ReadsFollow s :=
  ⟨h.delivered, h.position, h.ring.contents_prefix, h.refused⟩

theorem Inv.withDownloader (h : Inv s) {d : Downloader} (d' : Downloader)
    (hd : s.downloader = some d) (hright : RightRequest d'.currentRequest)
    (hpos : d'.currentRequest.startPos = d.currentRequest.startPos) (transfer : Option Transfer)
    (hleft : ∀ left, transfer = some (.range left) → left ≤ perRequestSize.toNat)
    (running : Bool) :
    Inv { s with
      downloader := some d'
      transfer
      running } := by
  have hstart : startOf s = d'.currentRequest.startPos := by
    unfold startOf
    rw [hd]
    exact hpos.symm
  refine { h with start := fun hnot => ?_, fresh := nofun, request := ?_, left := hleft,
                  waiting := fun hwaiting => ?_, unopened := fun hclosed => ?_ }
  · show d'.currentRequest.startPos = _
    rw [← hstart]
    exact h.start hnot
  · rintro _ ⟨⟩
    exact hright
  · exact absurd (hd.symm.trans (h.waiting hwaiting).2) (Option.some_ne_none d)
  · exact absurd (hd.symm.trans (h.unopened hclosed).2) (Option.some_ne_none d)

theorem Inv.fail (h : Inv s) {d : Downloader} (hd : s.downloader = some d) {req : DownloadRequest}
    (hsame : SameRange d.currentRequest req) (code : CurlCode) (httpCode : Int) :
    Inv (fail s d req code httpCode) := by
  have hresult := sameRange_transferResult req code httpCode
  have hright := (h.request d hd).congr hsame
  exact h.withDownloader _ hd (hright.congr hresult) (hresult.startPos.trans hsame.startPos) none
    nofun false

-- The download thread

theorem Inv.nextRequest (h : Inv s) {d : Downloader} {waiting : Nat}
    (hnext : nextRequest s = some (d, waiting)) :
    RightRequest d.currentRequest ∧ d.currentRequest.startPos = startOf s ∧ waiting = 0 ∧
      s.opened = true := by
  have hopened : s.waiting ≠ 0 ∨ s.downloader ≠ none → s.opened = true := by
    intro hsome
    by_contra hclosed
    obtain ⟨hwaiting, hnone⟩ := h.unopened (Bool.eq_false_iff.mpr hclosed)
    exact hsome.elim (· hwaiting) (· hnone)
  have hpop : s.downloader = none → HttpMedia.nextRequest.popRequest s = some (d, waiting) →
      RightRequest d.currentRequest ∧ d.currentRequest.startPos = startOf s ∧ waiting = 0 ∧
        s.opened = true := by
    intro hnone hpop
    unfold HttpMedia.nextRequest.popRequest at hpop
    split at hpop
    next hready =>
      cases hpop
      refine ⟨rightRequest_begin, ?_, ?_, hopened (.inl hready.2)⟩
      · unfold startOf
        rw [hnone]
        rfl
      · have hone := (h.waiting hready.2).1
        omega
    next => cases hpop
  unfold HttpMedia.nextRequest at hnext
  cases hd : s.downloader with
  | none =>
    rw [hd] at hnext
    exact hpop hd hnext
  | some d₀ =>
    have hnone : s.waiting = 0 := by
      by_contra hwaiting
      exact absurd (hd.symm.trans (h.waiting hwaiting).2) (Option.some_ne_none d₀)
    rw [hd] at hnext
    dsimp only at hnext
    split at hnext
    · unfold HttpMedia.nextRequest.popRequest at hnext
      rw [if_neg (fun hready => hready.2 hnone)] at hnext
      cases hnext
    · cases hnext
      refine ⟨h.request d hd, ?_, hnone, hopened (.inr (hd ▸ Option.some_ne_none d))⟩
      unfold startOf
      rw [hd]

theorem Inv.request_step (h : Inv s) {lines : List HeaderLine} (ht : HttpMedia.request s lines = some t) :
    Inv t := by
  unfold HttpMedia.request at ht
  split at ht
  · obtain ⟨⟨d, waiting⟩, hnext, rfl⟩ := Option.map_eq_some_iff.mp ht
    obtain ⟨hright, hpos, hwaiting, hopened⟩ := h.nextRequest hnext
    have hsame := sameRange_headers d.currentRequest lines
    refine { h with start := fun hnot => ?_, fresh := nofun, request := ?_, left := ?_,
                    waiting := fun hne => absurd hwaiting hne, unopened := fun hclosed => ?_ }
    · show (lines.foldl rxHeaderData d.currentRequest).startPos = _
      rw [hsame.startPos, hpos]
      exact h.start hnot
    · rintro _ ⟨⟩
      exact hright.congr hsame
    · intro left hleft
      exact respond_left hright (Option.some.inj hleft)
    · exact absurd hopened (Bool.eq_false_iff.mp hclosed)
  · cases ht

/-- A block of the file goes to the ring, or the transfer fails. -/
theorem Inv.block_step (h : Inv s) (hkeeps : s.transfer ≠ some .error)
    (ht : block s data = some t) : Inv t := by
  unfold HttpMedia.block at ht
  cases hd : s.downloader with
  | none => rw [hd] at ht; cases ht
  | some d =>
    cases htransfer : s.transfer with
    | none => rw [hd, htransfer] at ht; cases ht
    | some transfer =>
      cases transfer with
      | error => exact absurd htransfer hkeeps
      | range left =>
        rw [hd, htransfer] at ht
        dsimp only at ht
        split at ht
        next hblock =>
          obtain ⟨-, hle, hdata⟩ := hblock
          have hleft := h.left left htransfer
          have hsize : perRequestSize.toNat < 2 ^ 32 := by decide
          unfold saveBlock at ht
          split at ht
          next =>
            cases ht
            exact h.fail hd ⟨rfl, rfl, rfl⟩ .writeError 0
          next req hreq =>
            obtain ⟨hpos, hsame⟩ := rxBodyData_some hreq
            rw [Nat.mod_eq_of_lt (by omega), List.take_length] at ht
            obtain ⟨⟨ring, saved⟩, hwrite, rfl⟩ := Option.map_eq_some_iff.mp ht
            cases saved with
            | false =>
              have hsame' : SameRange d.currentRequest
                  { d.currentRequest with headerInfo := req.headerInfo } := ⟨rfl, rfl, rfl⟩
              exact h.fail hd hsame' .writeError 0
            | true =>
              have hactive : s.phase.sought = false := by
                by_contra hsought
                have hoff := (h.cleared (Bool.eq_true_of_not_eq_false hsought)).1
                unfold RingBuffer.writeBuffer at hwrite
                rw [hoff] at hwrite
                cases hwrite
              have hstart := h.start hactive
              have hright := h.request d hd
              unfold startOf at hstart
              rw [hd] at hstart
              dsimp only at hstart
              have hfile : data <+: s.file.drop (s.ring.mediaOffset + s.ring.getSize) := by
                have hat : d.currentRequest.startPos.toNat =
                    s.ring.mediaOffset + s.ring.getSize := by omega
                rw [hat] at hdata
                rw [hdata]
                exact List.take_prefix _ _
              obtain ⟨hring, hoffset, hgrown, -⟩ := h.ring.writeBuffer hfile hwrite
              refine { h with ring := hring, position := hoffset.trans h.position,
                              start := fun _ => ?_, cleared := fun hsought => ?_, fresh := nofun,
                              request := ?_, left := ?_, waiting := fun hne => ?_,
                              unopened := fun hclosed => ?_ }
              · show req.startPos = (ring.mediaOffset : Int) + ring.getSize
                rw [hpos, hoffset, hgrown, hstart]
                push_cast
                ring
              · exact absurd (hactive.symm.trans hsought) Bool.false_ne_true
              · rintro _ ⟨⟩
                refine RightRequest.congr ?_ hsame
                refine { hright with startPos := ?_ }
                have hnonneg := hright.startPos
                dsimp only
                omega
              · intro left' hleft'
                cases hleft'
                exact (Nat.sub_le _ _).trans hleft
              · exact absurd (hd.symm.trans (h.waiting hne).2) (Option.some_ne_none d)
              · exact absurd (hd.symm.trans (h.unopened hclosed).2) (Option.some_ne_none d)
        next => cases ht

theorem Inv.finish_step (h : Inv s) {code : CurlCode} {httpCode : Int}
    (ht : finish s code httpCode = some t) : Inv t := by
  unfold HttpMedia.finish at ht
  cases hd : s.downloader with
  | none => rw [hd] at ht; cases ht
  | some d =>
    cases htransfer : s.transfer with
    | none => rw [hd, htransfer] at ht; cases ht
    | some transfer =>
      rw [hd, htransfer] at ht
      cases transfer with
      | error =>
        dsimp only at ht
        split at ht
        · cases ht
          exact h.fail hd ⟨rfl, rfl, rfl⟩ code httpCode
        · cases ht
      | range left =>
        dsimp only at ht
        split at ht
        · split at ht
          · cases ht
            have hresult := sameRange_transferResult d.currentRequest code httpCode
            have hright := (h.request d hd).congr hresult
            obtain ⟨hnext, hpos⟩ := handleRetOK_right (d := { d with
              currentRequest := (transferResult d.currentRequest code httpCode).2 }) hright
            exact h.withDownloader _ hd hnext (hpos.trans hresult.startPos) none nofun _
          · cases ht
            exact h.fail hd ⟨rfl, rfl, rfl⟩ code httpCode
        · cases ht

-- The calls

theorem Inv.openUrl (h : Inv s) (hidle : s.phase = .idle) (hclosed : s.opened = false)
    (ht : openUrl s = some t) : Inv t := by
  unfold HttpMedia.openUrl at ht
  split at ht
  · cases ht
    obtain ⟨hwaiting, hnone⟩ := h.unopened hclosed
    have hstart := h.start (by rw [hidle]; rfl)
    unfold startOf at hstart
    rw [hnone] at hstart
    dsimp only at hstart
    have hsize : s.ring.getSize = 0 := by omega
    have hhead := h.ring.head_le
    have hempty : s.ring.head = s.ring.tail := by
      unfold RingBuffer.getSize at hsize
      omega
    refine { h with ring := carries_empty h.ring.size hempty, delivered := List.nil_prefix,
                    position := rfl, start := fun _ => ?_, fresh := fun _ => rfl,
                    waiting := fun _ => ⟨by dsimp only; omega, hnone⟩, unopened := nofun }
    show startOf s = ((0 : Nat) : Int) + s.ring.getSize
    unfold startOf
    rw [hnone, hsize]
    rfl
  · cases ht

theorem prefix_append_drop {l m : List UInt8} {n : Nat} (hl : l <+: file.drop n)
    (hm : m <+: file.drop (n + l.length)) : l ++ m <+: file.drop n := by
  obtain ⟨rest, hrest⟩ := hl
  have hdrop : file.drop (n + l.length) = rest := by
    rw [← List.drop_drop, ← hrest, List.drop_left]
  rw [hdrop] at hm
  rw [← hrest]
  exact (List.prefix_append_right_inj l).mpr hm

/-- **A read gets what follows in the file.** -/
theorem Inv.read (h : Inv s) {wantReadLength : Nat} (hidle : s.phase = .idle)
    (ht : read s wantReadLength = some t) : Inv t := by
  unfold HttpMedia.read at ht
  obtain ⟨req, -, ht⟩ := Option.bind_eq_some_iff.mp ht
  dsimp only at ht
  split at ht
  · split at ht
    · cases ht
      exact h
    · cases ht
  · obtain ⟨length, -, ht⟩ := Option.bind_eq_some_iff.mp ht
    split at ht
    · cases ht
    · obtain ⟨⟨ring, bytes⟩, hread, rfl⟩ := Option.map_eq_some_iff.mp ht
      obtain ⟨hring, hbytes, hoffset, hend⟩ := h.ring.readBuffer hread
      have hstart := h.start (by rw [hidle]; rfl)
      rw [h.position] at hbytes
      refine { h with ring := hring, delivered := prefix_append_drop h.delivered hbytes,
                      position := ?_, start := fun _ => ?_, cleared := fun hsought => ?_,
                      fresh := fun hnone => ?_ }
      · show ring.mediaOffset = s.base + (s.delivered ++ bytes).length
        rw [hoffset, h.position, List.length_append, Nat.add_assoc]
      · show startOf s = (ring.mediaOffset : Int) + ring.getSize
        omega
      · change s.phase.sought = true at hsought
        rw [hidle] at hsought
        cases hsought
      · change s.downloader = none at hnone
        unfold startOf at hstart
        rw [hnone] at hstart
        dsimp only at hstart ⊢
        omega

theorem Inv.pause (h : Inv s) (hidle : s.phase = .idle)
    (hkeeps : s.ring.getSize = 0 ∨ ∀ r ∈ downloadRequest s, r.headerInfo.isChunked = false)
    (ht : pause s = some t) : Inv t := by
  obtain ⟨req, hreq, rfl⟩ := Option.map_eq_some_iff.mp ht
  have hstart := h.start (by rw [hidle]; rfl)
  cases hchunked : req.headerInfo.isChunked with
  | false => exact { h with ring := { h.ring with }, start := fun _ => hstart, cleared := nofun }
  | true =>
    have hnone : s.ring.getSize = 0 :=
      hkeeps.resolve_right fun hall => absurd (hall req hreq) (by rw [hchunked]; decide)
    refine { h with ring := carries_empty h.ring.size rfl, start := fun _ => ?_,
                    cleared := nofun }
    show startOf s = (s.ring.mediaOffset : Int) + ((0 : Nat) : Int)
    rw [hstart, hnone]

theorem Inv.resume (h : Inv s) (hidle : s.phase = .idle) : Inv (resume s) :=
  { h with
    ring := { h.ring with }
    start := fun _ => h.start (by rw [hidle]; rfl)
    cleared := nofun }

theorem Inv.seekTo (h : Inv s) {offset : Int} (hidle : s.phase = .idle)
    (hkeeps : s.ring.Within (RingBuffer.toUInt64 offset) → offset = (s.ring.mediaOffset : Int)) :
    Inv (seekTo s offset) := by
  have hstart := h.start (by rw [hidle]; rfl)
  unfold HttpMedia.seekTo RingBuffer.seek
  by_cases hwithin : s.ring.Within (RingBuffer.toUInt64 offset)
  · rw [if_pos hwithin]
    have hoffset := hkeeps hwithin
    have hlt := h.ring.mediaOffset_lt (Nat.zero_lt_of_lt hwithin.2)
    have hzero : RingBuffer.toUInt64 offset - s.ring.mediaOffset = 0 := by
      unfold RingBuffer.toUInt64
      omega
    have hnat : offset.toNat = s.ring.mediaOffset := by omega
    dsimp only
    rw [hzero, hnat]
    refine { h with delivered := List.nil_prefix, position := rfl, refused := fun a ha hout => ?_,
                    start := fun _ => hstart, cleared := ?_ }
    · cases List.mem_append.mp ha with
      | inl hold => exact h.refused a hold hout
      | inr hnew =>
        rw [List.mem_singleton.mp hnew] at hout
        dsimp only at hout
        omega
    · rw [hidle]
      exact nofun
  · rw [if_neg hwithin]
    exact { h with start := fun _ => hstart, cleared := nofun }

theorem Inv.downloaderPause (h : Inv s) (ht : downloaderPause s = some t) : Inv t := by
  unfold HttpMedia.downloaderPause at ht
  split at ht
  · cases ht
    exact { h with }
  · cases ht

theorem Inv.downloaderResume (h : Inv s) (ht : downloaderResume s = some t) : Inv t := by
  unfold HttpMedia.downloaderResume at ht
  split at ht
  · cases ht
    obtain hd | ⟨d, hd⟩ := Option.eq_none_or_eq_some s.downloader
    · rw [hd, Option.map_none, ← hd]
      exact { h with }
    · have hright := h.request d hd
      have hresumed := h.withDownloader { d with
        currentRequest := { d.currentRequest with isEos := false } } hd { hright with } rfl
        s.transfer h.left true
      rw [hd]
      exact { hresumed with }
  · cases ht

theorem Inv.withPhase (h : Inv s) {phase : Phase} (hsame : phase.sought = s.phase.sought) :
    Inv { s with phase } :=
  { h with
    start := fun hnot => h.start (hsame ▸ hnot)
    cleared := fun hsought => h.cleared (hsame ▸ hsought) }

theorem downloaderPause_phase (s : State) (phase : Phase) :
    downloaderPause { s with phase } = (downloaderPause s).map fun s => { s with phase } := by
  unfold downloaderPause
  by_cases hidle : s.transfer = none
  · rw [if_pos hidle, if_pos hidle]
    rfl
  · rw [if_neg hidle, if_neg hidle]
    rfl

theorem downloaderResume_phase (s : State) (phase : Phase) :
    downloaderResume { s with phase } = (downloaderResume s).map fun s => { s with phase } := by
  unfold downloaderResume
  by_cases hidle : s.transfer = none
  · rw [if_pos hidle, if_pos hidle]
    rfl
  · rw [if_neg hidle, if_neg hidle]
    rfl

theorem toUInt64_small {offset : Int} (hlo : 0 ≤ offset) {n : Nat} (hhi : offset < toInt64 n) :
    RingBuffer.toUInt64 offset = offset.toNat := by
  have hsmall := BitVec.toInt_lt (x := BitVec.ofNat 64 n)
  unfold toInt64 at hhi
  unfold RingBuffer.toUInt64
  rw [Int.emod_eq_of_lt hlo (by omega)]

theorem Inv.seekDownloader (h : Inv s) {offset : Int}
    (hkeeps : KeepsSeek s (.seekPaused offset)) (ht : seekDownloader s offset = some t) :
    Inv { t with phase := .idle } := by
  unfold HttpMedia.seekDownloader at ht
  obtain hd | ⟨d, hd⟩ := Option.eq_none_or_eq_some s.downloader
  · rw [hd] at ht
    cases ht
    rw [← hd]
    refine { h with ring := carries_empty h.ring.size rfl, refused := fun a ha hout => ?_,
                    start := fun _ => ?_, cleared := nofun }
    · cases List.mem_append.mp ha with
      | inl hold => exact h.refused a hold hout
      | inr hnew =>
        rw [List.mem_singleton.mp hnew]
    · show startOf s = (s.ring.mediaOffset : Int) + ((0 : Nat) : Int)
      unfold startOf
      rw [hd, h.fresh hd]
      rfl
  · obtain ⟨hlo, hin, hknown⟩ := hkeeps d hd
    rw [hd] at ht
    obtain ⟨d', hseek, rfl⟩ := Option.map_eq_some_iff.mp ht
    obtain ⟨hright, hpos⟩ := seek_right (h.request d hd) hlo hknown hseek
    have hoffset := toUInt64_small hlo hknown
    dsimp only
    rw [hoffset]
    refine { h with ring := carries_empty h.ring.size rfl, delivered := List.nil_prefix,
                    position := rfl, refused := fun a ha hout => ?_, start := fun _ => ?_,
                    cleared := nofun, fresh := nofun, request := ?_,
                    waiting := fun hne => ?_, unopened := fun hclosed => ?_ }
    · cases List.mem_append.mp ha with
      | inl hold => exact h.refused a hold hout
      | inr hnew =>
        rw [List.mem_singleton.mp hnew] at hout
        dsimp only at hout
        omega
    · show d'.currentRequest.startPos = (offset.toNat : Int) + ((0 : Nat) : Int)
      rw [hpos]
      omega
    · rintro _ ⟨⟩
      exact hright
    · exact absurd (hd.symm.trans (h.waiting hne).2) (Option.some_ne_none d)
    · exact absurd (hd.symm.trans (h.unopened hclosed).2) (Option.some_ne_none d)

/-- **A call goes on.** -/
theorem Inv.next (h : Inv s) (hkeeps : KeepsSeek s s.phase) (ht : next s = some t) : Inv t := by
  unfold HttpMedia.next at ht
  cases hphase : s.phase with
  | idle => rw [hphase] at ht; cases ht
  | pausing =>
    rw [hphase] at ht
    have hidle : Inv { s with phase := .idle } := h.withPhase (by rw [hphase]; rfl)
    exact hidle.downloaderPause ((downloaderPause_phase s _).trans ht)
  | resuming =>
    rw [hphase] at ht
    have hidle : Inv { s with phase := .idle } := h.withPhase (by rw [hphase]; rfl)
    exact hidle.downloaderResume ((downloaderResume_phase s _).trans ht)
  | seeking offset =>
    rw [hphase] at ht
    cases ht
    exact { h with
      ring := carries_empty h.ring.size rfl
      start := nofun
      cleared := fun _ => ⟨rfl, rfl⟩ }
  | seekPausing offset =>
    rw [hphase] at ht
    have hpaused : Inv { s with phase := .seekPaused offset } :=
      h.withPhase (by rw [hphase]; rfl)
    exact hpaused.downloaderPause ((downloaderPause_phase s _).trans ht)
  | seekPaused offset =>
    rw [hphase] at ht hkeeps
    obtain ⟨u, hu, ht⟩ := Option.bind_eq_some_iff.mp ht
    exact (h.seekDownloader hkeeps hu).downloaderResume ((downloaderResume_phase u _).trans ht)

-- Every run

theorem whenIdle_some {u : Option State} (ht : whenIdle s u = some t) :
    s.phase = .idle ∧ u = some t := by
  unfold whenIdle at ht
  split at ht
  next hidle => exact ⟨hidle, ht⟩
  next => cases ht

/-- **One step.** -/
theorem Inv.step {e : Event} (h : Inv s) (hkeeps : KeepsReads s e) (ht : step s e = some t) :
    Inv t := by
  cases e with
  | openUrl =>
    obtain ⟨hidle, ht⟩ := whenIdle_some ht
    exact h.openUrl hidle hkeeps ht
  | read wantReadLength =>
    obtain ⟨hidle, ht⟩ := whenIdle_some ht
    exact h.read hidle ht
  | pause =>
    obtain ⟨hidle, ht⟩ := whenIdle_some ht
    exact h.pause hidle hkeeps ht
  | resume =>
    obtain ⟨hidle, ht⟩ := whenIdle_some ht
    exact Option.some.inj ht ▸ h.resume hidle
  | seekTo offset =>
    obtain ⟨hidle, ht⟩ := whenIdle_some ht
    exact Option.some.inj ht ▸ h.seekTo hidle hkeeps
  | next => exact h.next hkeeps ht
  | request lines => exact h.request_step ht
  | block data => exact h.block_step hkeeps ht
  | finish code httpCode => exact h.finish_step ht

def new (file : List UInt8) (bufferSize : Nat) : State where
  file
  ring := { bufferSize }

theorem inv_new {bufferSize : Nat} (hsize : 0 < bufferSize) : Inv (new file bufferSize) where
  ring := carries_empty hsize rfl
  delivered := List.nil_prefix
  position := rfl
  refused := nofun
  start _ := rfl
  cleared := nofun
  fresh _ := rfl
  request d hd := absurd hd (Option.not_mem_none d)
  left := nofun
  waiting hne := absurd rfl hne
  unopened _ := ⟨rfl, rfl⟩

/-- **Reads follow seeks**, in every run of steps that meet the condition. -/
theorem reads_follow {bufferSize : Nat} (hsize : 0 < bufferSize)
    (hkeeps : Runs.Along step KeepsReads (new file bufferSize) events)
    (hrun : Runs.run step (new file bufferSize) events = some s) : ReadsFollow s :=
  Inv.readsFollow (Runs.run_invariant (fun _ _ _ h hgood hstep => h.step hgood hstep)
    (inv_new hsize) hkeeps hrun)

def ringBufferSize : Nat := 5 * 1024 * 1024

def sixBytes : List UInt8 := [10, 11, 12, 13, 14, 15]

def afterEvents (events : List Event) : State :=
  (Runs.run step (new sixBytes ringBufferSize) events).getD (new sixBytes ringBufferSize)

theorem run_afterEvents
    (h : (Runs.run step (new sixBytes ringBufferSize) events).isSome = true) :
    Runs.run step (new sixBytes ringBufferSize) events = some (afterEvents events) := by
  obtain ⟨t, ht⟩ := Option.isSome_iff_exists.mp h
  rw [afterEvents, ht]
  rfl

def firstRequest (length : Nat) : List Event :=
  [.openUrl, .request [.contentRange [] length], .block [10], .finish .ok 206]

def restComes : List Event := [.request [], .block [11, 12, 13, 14, 15], .finish .ok 206]

def seekOutside (offset : Int) : List Event := [.seekTo offset, .next, .next, .next]

def readThenSeek : List Event :=
  firstRequest 6 ++ ([.read 1, .pause, .next, .resume, .next] : List Event) ++ seekOutside 4 ++
    ([.request [], .block [14, 15], .read 2] : List Event)

theorem reads_follow_seek :
    Runs.run step (new sixBytes ringBufferSize) readThenSeek = some (afterEvents readThenSeek) ∧
      ReadsFollow (afterEvents readThenSeek) ∧
      (afterEvents readThenSeek).delivered = [14, 15] := by
  have hkeeps : Runs.Along step KeepsReads (new sixBytes ringBufferSize) readThenSeek := by
    decide +kernel
  have hrun : Runs.run step (new sixBytes ringBufferSize) readThenSeek =
      some (afterEvents readThenSeek) := run_afterEvents (by decide +kernel)
  exact ⟨hrun, reads_follow (Nat.mul_pos (by decide) (by decide)) hkeeps hrun, by decide +kernel⟩

/-- Two seeks to the third byte, which is in the ring, and a read. -/
def seekTwice : List Event :=
  firstRequest 6 ++ restComes ++ [.seekTo 2, .seekTo 2, .read 1]

/-- The second seek goes two bytes on, though the first one has got there. -/
theorem seek_drifts :
    Runs.run step (new sixBytes ringBufferSize) seekTwice = some (afterEvents seekTwice) ∧
      (afterEvents seekTwice).base = 2 ∧ (afterEvents seekTwice).delivered = [14] ∧
      ¬ ReadsFollow (afterEvents seekTwice) := by
  have hbase : (afterEvents seekTwice).base = 2 := by decide +kernel
  have hdelivered : (afterEvents seekTwice).delivered = [14] := by decide +kernel
  have hfile : (afterEvents seekTwice).file = sixBytes := by decide +kernel
  refine ⟨run_afterEvents (by decide +kernel), hbase, hdelivered, fun h => ?_⟩
  have hfollows := h.delivered
  rw [hbase, hdelivered, hfile] at hfollows
  exact absurd hfollows (by decide)

end MediaFoundation.HttpMedia
