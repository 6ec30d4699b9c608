import MediaFoundation.Lib.Runs
import MediaFoundation.Http.Downloader

/-!
# A download from begin to end

What the save function gets from `BeginDownload`, or from the last `Seek`, until
`isEos_`: the file from there on, each byte once and in order. The downloader
keeps its position in `startPos_` and asks for what follows, so a failed or
truncated request is taken up where it ended. Three places break this:

* a request for the whole file does not ask from `startPos_`, and a retry after
  some bytes gets these bytes again;
* `sscanf_s` never reads the length of the file, since its format asks for the
  letters `ld` after each number;
* the body of an error response is saved like the file.
-/

namespace MediaFoundation.Http

-- The length of the file

theorem scan_stops {c : Char} (before after : List Directive) {cs : List Char} (h : c ∉ cs) :
    (scan (before ++ .literal c :: after) cs).length ≤ before.count .unsigned := by
  induction before generalizing cs with
  | nil =>
    cases cs with
    | nil => exact Nat.le_refl _
    | cons c' cs =>
      have hne : c ≠ c' := fun heq => h (heq ▸ List.mem_cons_self)
      show (if c = c' then _ else _ : List Nat).length ≤ _
      rw [if_neg hne]
      exact Nat.le_refl _
  | cons d before ih =>
    cases d with
    | space =>
      have hrest : c ∉ cs.dropWhile Char.isWhitespace := fun hmem =>
        h ((List.dropWhile_sublist _).mem hmem)
      exact (ih hrest).trans (by simp)
    | literal c' =>
      cases cs with
      | nil => exact Nat.zero_le _
      | cons c'' cs =>
        show (if c' = c'' then _ else _ : List Nat).length ≤ _
        split
        · exact (ih fun hmem => h (List.mem_cons_of_mem _ hmem)).trans (by simp)
        · exact Nat.zero_le _
    | unsigned =>
      rw [List.cons_append, scan]
      split
      · exact Nat.zero_le _
      · have hrest : c ∉ (cs.dropWhile Char.isWhitespace).drop
            ((cs.dropWhile Char.isWhitespace).takeWhile Char.isDigit).length := fun hmem =>
          h ((List.dropWhile_sublist _).mem ((List.drop_sublist _ _).mem hmem))
        have hle := ih hrest
        rw [List.length_cons, List.count_cons_self]
        omega

/-- **The length is not read**: no range of bytes has an `l`. -/
theorem fileLen_eq_leftover {strRange : List Char} (h : 'l' ∉ strRange) (leftover : Nat) :
    fileLen strRange leftover = leftover := by
  have hformat : rangeFormat = directives "bytes %u".toList ++ .literal 'l' ::
      directives "d-%uld/%uld".toList := by decide +kernel
  have hle := scan_stops (directives "bytes %u".toList) (directives "d-%uld/%uld".toList) h
  rw [← hformat] at hle
  have hcount : (directives "bytes %u".toList).count .unsigned = 1 := by decide +kernel
  have hnone : (scan rangeFormat strRange)[2]? = none := List.getElem?_eq_none (by omega)
  rw [fileLen, hnone]

-- The callbacks

/-- What the callbacks leave as it is. -/
def SameRequest (r r' : DownloadRequest) : Prop :=
  r'.requestWholeFile = r.requestWholeFile ∧ r'.isEos = r.isEos

theorem rxHeaders_frame (r : DownloadRequest) (lines : List HeaderLine) :
    SameRequest r (lines.foldl rxHeaderData r) ∧
      (lines.foldl rxHeaderData r).startPos = r.startPos := by
  induction lines generalizing r with
  | nil => exact ⟨⟨rfl, rfl⟩, rfl⟩
  | cons line lines ih => exact ih (rxHeaderData r line)

theorem read_fileContentLen_ne_zero {info : HeaderInfo} (h : info.fileContentLen ≠ 0)
    (line : HeaderLine) : (info.read line).fileContentLen = info.fileContentLen := by
  cases line with
  | contentLength value | other => rfl
  | transferEncoding chunked => cases chunked <;> rfl
  | contentRange strRange leftover =>
    rw [HeaderInfo.read, if_neg h]

theorem rxHeaders_of_known {r : DownloadRequest} (h : r.headerInfo.fileContentLen ≠ 0)
    (lines : List HeaderLine) :
    (lines.foldl rxHeaderData r).headerInfo.fileContentLen = r.headerInfo.fileContentLen := by
  induction lines generalizing r with
  | nil => rfl
  | cons line lines ih =>
    have hline : (rxHeaderData r line).headerInfo.fileContentLen = r.headerInfo.fileContentLen :=
      read_fileContentLen_ne_zero h line
    rw [List.foldl_cons, ih (hline ▸ h), hline]

/-- The lines tell no length, or the one that each range of them does. -/
theorem rxHeaders_of_unknown {n : Nat} (hn : n ≠ 0) {r : DownloadRequest}
    (h : r.headerInfo.fileContentLen = 0) {lines : List HeaderLine}
    (hlines : ∀ strRange leftover, .contentRange strRange leftover ∈ lines →
      fileLen strRange leftover = n) :
    let info := (lines.foldl rxHeaderData r).headerInfo
    (info.fileContentLen = 0 ∨ info.fileContentLen = n) ∧
      ((∃ strRange leftover, .contentRange strRange leftover ∈ lines) →
        info.fileContentLen = n) := by
  induction lines generalizing r with
  | nil => exact ⟨.inl h, fun ⟨_, _, hmem⟩ => absurd hmem List.not_mem_nil⟩
  | cons line lines ih =>
    have hrest : ∀ strRange leftover, .contentRange strRange leftover ∈ lines →
        fileLen strRange leftover = n := fun s l hmem => hlines s l (List.mem_cons_of_mem _ hmem)
    by_cases hzero : (rxHeaderData r line).headerInfo.fileContentLen = 0
    · obtain ⟨hlen, hrange⟩ := ih hzero hrest
      refine ⟨hlen, fun ⟨strRange, leftover, hmem⟩ => ?_⟩
      rcases List.mem_cons.mp hmem with rfl | hmem
      · have hset : (rxHeaderData r (.contentRange strRange leftover)).headerInfo.fileContentLen =
            n := by
          rw [← hlines strRange leftover List.mem_cons_self]
          show (r.headerInfo.read _).fileContentLen = _
          rw [HeaderInfo.read, if_pos h]
        exact absurd (hset.symm.trans hzero) hn
      · exact hrange ⟨strRange, leftover, hmem⟩
    · have hset : (rxHeaderData r line).headerInfo.fileContentLen = n := by
        cases line with
        | contentLength value | other => exact absurd h hzero
        | transferEncoding chunked => cases chunked <;> exact absurd h hzero
        | contentRange strRange leftover =>
          rw [← hlines strRange leftover List.mem_cons_self]
          show (r.headerInfo.read _).fileContentLen = _
          rw [HeaderInfo.read, if_pos h]
      have hkeep := rxHeaders_of_known hzero lines
      rw [hset] at hkeep
      exact ⟨.inr hkeep, fun _ => hkeep⟩

/-- **The body callback** saves the blocks in order and moves the position by
what it saves. -/
theorem rxBody_spec {r : DownloadRequest} {body : List (List UInt8)}
    (hblocks : ∀ buffer ∈ body, buffer.length < 2 ^ 32) :
    let out := rxBody r body
    SameRequest r out.1 ∧ out.2.1 <+: body ∧ (out.2.2 = true → out.2.1 = body) ∧
      out.1.startPos = r.startPos + out.2.1.flatten.length ∧
      (r.headerInfo.fileContentLen ≠ 0 →
        out.1.headerInfo.fileContentLen = r.headerInfo.fileContentLen) := by
  induction body generalizing r with
  | nil => exact ⟨⟨rfl, rfl⟩, List.prefix_rfl, fun _ => rfl, by simp [rxBody], fun _ => rfl⟩
  | cons buffer body ih =>
    simp only [rxBody, rxBodyData]
    split
    next hnone =>
      refine ⟨⟨rfl, rfl⟩, List.nil_prefix, Bool.noConfusion, by simp, fun _ => rfl⟩
    next r' hsome =>
      split at hsome
      · cases hsome
      next hknown =>
        cases hsome
        have hshort : buffer.length < 2 ^ 32 := hblocks buffer List.mem_cons_self
        obtain ⟨hsame, hprefix, hall, hpos, hlen⟩ := ih
          (r := { r with headerInfo := r.headerInfo.known, startPos := r.startPos + buffer.length })
          fun b hb => hblocks b (List.mem_cons_of_mem _ hb)
        rw [Nat.mod_eq_of_lt hshort, List.take_length]
        refine ⟨hsame, ?_, fun haccepted => ?_, ?_, fun hne => ?_⟩
        · exact (List.prefix_cons_inj buffer).mpr hprefix
        · rw [hall haccepted]
        · rw [hpos, List.flatten_cons, List.length_append]
          push_cast
          ring
        · have hsamelen : r.headerInfo.known = r.headerInfo := by
            rw [HeaderInfo.known, if_neg fun hzero => hne hzero.1]
          rw [hlen hknown, hsamelen]

-- The server, and the condition

/-- What the save function has got since `BeginDownload` or the last `Seek`,
and the byte that it began at. -/
structure Session where
  downloader : Downloader
  saved : List UInt8
  origin : Nat

inductive Event where
  | loop (resp : Response)
  | seek (offset : Int)
  | retry

def start (requestWholeFile : Bool) : Session := ⟨beginDownload requestWholeFile, [], 0⟩

def step (s : Session) : Event → Option Session
  | .loop resp =>
    (httpDownloadLoop s.downloader resp).map fun out =>
      { s with downloader := out.1, saved := s.saved ++ out.2.flatten }
  | .seek offset => (seek s.downloader offset).map fun d => ⟨d, [], offset.toNat⟩
  | .retry => (retry s.downloader).map fun d => { s with downloader := d }

def part (file : List UInt8) : Option ByteRange → List UInt8
  | none => file
  | some ⟨first, none⟩ => file.drop first.toNat
  | some ⟨first, some last⟩ => (file.drop first.toNat).take (last + 1 - first).toNat

/-- What the server and curl send for a request: an error, or from the bytes of
the range as many as arrive, all of them when the transfer ends well. The
header comes before the body, in blocks of at most `CURL_MAX_WRITE_SIZE`. -/
structure Served (file : List UInt8) (range : Option ByteRange) (resp : Response) : Prop where
  blocks : ∀ buffer ∈ resp.body, buffer.length ≤ 16384
  ranges : ∀ strRange leftover, .contentRange strRange leftover ∈ resp.headers → 'l' ∉ strRange
  content : resp.httpCode < 400 → resp.body.flatten <+: part file range
  complete : resp.httpCode < 400 → resp.code = .ok → resp.body.flatten = part file range ∧
    ∀ r, range = some r → r.first < file.length
  header : resp.httpCode < 400 → range ≠ none → resp.body ≠ [] →
    ∃ strRange leftover, .contentRange strRange leftover ∈ resp.headers

def Assumed (file : List UInt8) (s : Session) : Event → Prop
  | .loop resp => Served file (nextRange s.downloader.currentRequest) resp
  | .seek offset => 0 ≤ offset ∧ offset < file.length
  | .retry => True

/-- The steps that stay clear of the defects: no error response has a body, the
length that is not read happens to be in `fileLen`, the whole file is requested
where nothing of it has been saved, and the length is known when it is sought in. -/
def Clear (file : List UInt8) (s : Session) : Event → Prop
  | .loop resp =>
    (400 ≤ resp.httpCode → resp.body = []) ∧
      (s.downloader.currentRequest.requestWholeFile = true →
        s.downloader.currentRequest.startPos = 0) ∧
      (s.downloader.currentRequest.requestWholeFile = false →
        s.downloader.currentRequest.headerInfo.fileContentLen = 0 →
        ∀ strRange leftover, .contentRange strRange leftover ∈ resp.headers →
          leftover = file.length)
  | .seek offset => offset < toInt64 s.downloader.currentRequest.headerInfo.fileContentLen
  | .retry => True

/-- The save function has got the file from `origin` up to the position. -/
structure Delivers (file : List UInt8) (s : Session) : Prop where
  origin_le : (s.origin : Int) ≤ s.downloader.currentRequest.startPos
  startPos_le : s.downloader.currentRequest.startPos ≤ file.length
  saved : s.saved =
    (file.drop s.origin).take (s.downloader.currentRequest.startPos.toNat - s.origin)
  known : s.downloader.currentRequest.requestWholeFile = false →
    s.downloader.currentRequest.headerInfo.fileContentLen = 0 ∨
      s.downloader.currentRequest.headerInfo.fileContentLen = file.length
  running : s.downloader.shouldStartNextRequest = false →
    s.downloader.currentRequest.isEos = false
  eos : s.downloader.currentRequest.isEos = true →
    s.downloader.currentRequest.startPos = file.length

-- One request

variable {file : List UInt8} {r : DownloadRequest} {resp : Response} {d : Downloader}

theorem take_append_block {origin pos : Nat} (h : origin ≤ pos) {block : List UInt8}
    (hblock : block <+: file.drop pos) :
    (file.drop origin).take (pos - origin) ++ block =
      (file.drop origin).take (pos + block.length - origin) := by
  have hdrop : (file.drop origin).drop (pos - origin) = file.drop pos := by
    rw [List.drop_drop, Nat.add_sub_cancel' h]
  rw [Nat.sub_add_comm h, List.take_add, hdrop, ← List.prefix_iff_eq_take.mp hblock]

/-- What is asked for continues at the position. -/
theorem part_nextRange (hwhole : r.requestWholeFile = true → r.startPos = 0) :
    part file (nextRange r) <+: file.drop r.startPos.toNat := by
  unfold nextRange
  cases hr : r.requestWholeFile with
  | true =>
    rw [hwhole hr]
    exact List.prefix_rfl
  | false =>
    unfold requestRange
    simp only [Bool.false_eq_true, if_false]
    split
    · split
      · exact List.take_prefix _ _
      · exact List.prefix_rfl
    next hneg =>
      have hzero : r.startPos.toNat = 0 := by omega
      rw [hzero]
      exact List.prefix_rfl

theorem part_ne_nil {startPos len : Int} {range : ByteRange}
    (hrange : requestRange startPos len = some range) (hfirst : range.first < file.length) :
    part file (some range) ≠ [] := by
  unfold requestRange at hrange
  split at hrange
  next hnonneg =>
    split at hrange
    next hlen =>
      cases hrange
      intro hnil
      have := congrArg List.length hnil
      simp only [part, List.length_take, List.length_drop, List.length_nil] at this hfirst
      omega
    next hlen =>
      cases hrange
      intro hnil
      have := congrArg List.length hnil
      simp only [part, List.length_drop, List.length_nil] at this hfirst
      omega
  next => cases hrange

theorem transferResult_spec (r : DownloadRequest) (code : CurlCode) (httpCode : Int) :
    let out := transferResult r code httpCode
    SameRequest r out.2 ∧ out.2.startPos = r.startPos ∧ out.2.headerInfo = r.headerInfo ∧
      (out.1 = .ok → code = .ok ∧ httpCode < 400) := by
  unfold transferResult
  split
  next => exact ⟨⟨rfl, rfl⟩, rfl, rfl, Status.noConfusion⟩
  next hcode =>
    split
    next => exact ⟨⟨rfl, rfl⟩, rfl, rfl, Status.noConfusion⟩
    next hok => exact ⟨⟨rfl, rfl⟩, rfl, rfl, fun _ => ⟨not_not.mp hcode, Int.not_le.mp hok⟩⟩

theorem requestData_spec (hblocks : ∀ buffer ∈ resp.body, buffer.length ≤ 16384) :
    let out := requestData r resp
    SameRequest r out.2.1 ∧ out.2.2 <+: resp.body ∧
      out.2.1.startPos = r.startPos + out.2.2.flatten.length ∧
      out.2.1.headerInfo =
        (rxBody (resp.headers.foldl rxHeaderData r) resp.body).1.headerInfo ∧
      (out.1 = .ok → out.2.2 = resp.body ∧ resp.code = .ok ∧ resp.httpCode < 400) := by
  have hshort : ∀ buffer ∈ resp.body, buffer.length < 2 ^ 32 := fun b hb =>
    (hblocks b hb).trans_lt (by decide)
  obtain ⟨hframe, hstart⟩ := rxHeaders_frame r resp.headers
  obtain ⟨hsame, hprefix, hall, hpos, -⟩ :=
    rxBody_spec (r := resp.headers.foldl rxHeaderData r) hshort
  obtain ⟨hresult, hresultPos, hinfo, hok⟩ := transferResult_spec
    (rxBody (resp.headers.foldl rxHeaderData r) resp.body).1
    (if (rxBody (resp.headers.foldl rxHeaderData r) resp.body).2.2 then resp.code else .writeError)
    resp.httpCode
  refine ⟨⟨?_, ?_⟩, hprefix, ?_, hinfo, fun hret => ?_⟩
  · exact hresult.1.trans (hsame.1.trans hframe.1)
  · exact hresult.2.trans (hsame.2.trans hframe.2)
  · rw [← hstart]
    exact hresultPos.trans hpos
  · obtain ⟨hcode, hhttp⟩ := hok hret
    split at hcode
    next haccepted => exact ⟨hall haccepted, hcode, hhttp⟩
    next => cases hcode

theorem handleRetOK_spec (d : Downloader) :
    let r := (handleRetOK d).currentRequest
    r.startPos = d.currentRequest.startPos ∧
      r.requestWholeFile = d.currentRequest.requestWholeFile ∧
      r.headerInfo.fileContentLen = d.currentRequest.headerInfo.fileContentLen ∧
      ((handleRetOK d).shouldStartNextRequest = d.shouldStartNextRequest ∧
          r.isEos = d.currentRequest.isEos ∨
        (handleRetOK d).shouldStartNextRequest = true ∧
          (0 < r.headerInfo.fileContentLen → toInt64 r.headerInfo.fileContentLen ≤ r.startPos)) := by
  unfold handleRetOK
  dsimp only
  by_cases hend : 0 < d.currentRequest.headerInfo.fileContentLen ∧
      toInt64 d.currentRequest.headerInfo.fileContentLen - d.currentRequest.startPos ≤ 0
  · rw [if_pos hend]
    exact ⟨rfl, rfl, rfl, .inr ⟨rfl, fun _ => sub_nonpos.mp hend.2⟩⟩
  · rw [if_neg hend]
    by_cases hzero : d.currentRequest.headerInfo.fileContentLen = 0 ∧
      toInt64 d.currentRequest.headerInfo.fileContentLen - d.currentRequest.startPos ≤ 0
    · rw [if_pos hzero]
      exact ⟨rfl, rfl, rfl, .inr ⟨rfl, fun hpos => absurd hzero.1 hpos.ne'⟩⟩
    · rw [if_neg hzero]
      split
      · exact ⟨rfl, rfl, rfl, .inl ⟨rfl, rfl⟩⟩
      · exact ⟨rfl, rfl, rfl, .inl ⟨rfl, rfl⟩⟩

-- One step

theorem toInt64_of_lt {n : Nat} (h : n < 2 ^ 63) : toInt64 n = n := by
  unfold toInt64
  rw [BitVec.toInt_ofNat', Int.bmod_eq_of_le] <;> omega

theorem known_of_requestData {n : Nat} (hn : n ≠ 0)
    (hknown : r.headerInfo.fileContentLen = 0 ∨ r.headerInfo.fileContentLen = n)
    (hblocks : ∀ buffer ∈ resp.body, buffer.length ≤ 16384)
    (hranges : r.headerInfo.fileContentLen = 0 → ∀ strRange leftover,
      .contentRange strRange leftover ∈ resp.headers → fileLen strRange leftover = n)
    (hheader : resp.body ≠ [] → ∃ strRange leftover, .contentRange strRange leftover ∈ resp.headers) :
    let info := (requestData r resp).2.1.headerInfo
    (info.fileContentLen = 0 ∨ info.fileContentLen = n) ∧
      (resp.body ≠ [] → info.fileContentLen = n) := by
  obtain ⟨-, -, -, hinfo, -⟩ := requestData_spec (r := r) hblocks
  show ((requestData r resp).2.1.headerInfo.fileContentLen = 0 ∨ _) ∧ _
  rw [hinfo]
  have hshort : ∀ buffer ∈ resp.body, buffer.length < 2 ^ 32 := fun b hb =>
    (hblocks b hb).trans_lt (by decide)
  obtain ⟨-, -, -, -, hkeep⟩ := rxBody_spec (r := resp.headers.foldl rxHeaderData r) hshort
  have hheaders : ((resp.headers.foldl rxHeaderData r).headerInfo.fileContentLen = 0 ∨
      (resp.headers.foldl rxHeaderData r).headerInfo.fileContentLen = n) ∧
      (resp.body ≠ [] → (resp.headers.foldl rxHeaderData r).headerInfo.fileContentLen = n) := by
    by_cases hzero : r.headerInfo.fileContentLen = 0
    · obtain ⟨hlen, hrange⟩ := rxHeaders_of_unknown hn hzero (hranges hzero)
      exact ⟨hlen, fun hbody => hrange (hheader hbody)⟩
    · have hlen := rxHeaders_of_known hzero resp.headers
      rw [hknown.resolve_left hzero] at hlen
      exact ⟨.inr hlen, fun _ => hlen⟩
  by_cases hbody : resp.body = []
  · rw [hbody]
    exact ⟨hheaders.1, fun hne => absurd rfl hne⟩
  · have hlen := hheaders.2 hbody
    have hsame := hkeep (hlen ▸ hn)
    rw [hlen] at hsame
    exact ⟨.inr hsame, fun _ => hsame⟩

variable {s s' : Session}

theorem saved_prefix (hserved : Served file (nextRange r) resp)
    (herror : 400 ≤ resp.httpCode → resp.body = [])
    (hwhole : r.requestWholeFile = true → r.startPos = 0) :
    (requestData r resp).2.2.flatten <+: file.drop r.startPos.toNat := by
  obtain ⟨-, hprefix, -⟩ := requestData_spec (r := r) hserved.blocks
  have hbody : resp.body.flatten <+: file.drop r.startPos.toNat := by
    by_cases hcode : resp.httpCode < 400
    · exact (hserved.content hcode).trans (part_nextRange hwhole)
    · rw [herror (Int.not_lt.mp hcode)]
      exact List.nil_prefix
  exact hprefix.flatten.trans hbody

def requested (s : Session) (resp : Response) : Session :=
  let out := requestData s.downloader.currentRequest resp
  { s with
    downloader := { s.downloader with currentRequest := out.2.1 }
    saved := s.saved ++ out.2.2.flatten }

theorem nextRange_ranged (hranged : r.requestWholeFile = false) (hpos : 0 ≤ r.startPos) :
    nextRange r ≠ none := by
  rw [nextRange, hranged]
  unfold requestRange
  simp only [Bool.false_eq_true, if_false]
  rw [if_pos hpos]
  split
  · exact Option.some_ne_none _
  · exact Option.some_ne_none _

theorem known_requested (hL : 0 < file.length) (h : Delivers file s)
    (hserved : Assumed file s (.loop resp)) (hclear : Clear file s (.loop resp))
    (hranged : s.downloader.currentRequest.requestWholeFile = false) :
    let info := (requested s resp).downloader.currentRequest.headerInfo
    (info.fileContentLen = 0 ∨ info.fileContentLen = file.length) ∧
      (resp.body ≠ [] → info.fileContentLen = file.length) := by
  obtain ⟨herror, -, hlength⟩ := hclear
  refine known_of_requestData hL.ne' (h.known hranged) hserved.blocks ?_ ?_
  · intro hzero strRange leftover hmem
    rw [fileLen_eq_leftover (hserved.ranges strRange leftover hmem)]
    exact hlength hranged hzero strRange leftover hmem
  · intro hbody
    have hpos : 0 ≤ s.downloader.currentRequest.startPos := by
      have := h.origin_le
      omega
    by_cases hcode : resp.httpCode < 400
    · exact hserved.header hcode (nextRange_ranged hranged hpos) hbody
    · exact absurd (herror (Int.not_lt.mp hcode)) hbody

theorem delivers_requested (hL : 0 < file.length) (h : Delivers file s)
    (hrun : s.downloader.shouldStartNextRequest = false)
    (hserved : Assumed file s (.loop resp)) (hclear : Clear file s (.loop resp)) :
    Delivers file (requested s resp) := by
  obtain ⟨hsame, hprefix, hpos, -, -⟩ :=
    requestData_spec (r := s.downloader.currentRequest) hserved.blocks
  have hsaved := saved_prefix hserved hclear.1 hclear.2.1
  have horigin := h.origin_le
  have hle := h.startPos_le
  have heos : (requestData s.downloader.currentRequest resp).2.1.isEos = false :=
    hsame.2.trans (h.running hrun)
  have hlen := hsaved.length_le
  rw [List.length_drop] at hlen
  constructor
  · show (s.origin : Int) ≤ (requestData s.downloader.currentRequest resp).2.1.startPos
    omega
  · show (requestData s.downloader.currentRequest resp).2.1.startPos ≤ _
    omega
  · show s.saved ++ (requestData s.downloader.currentRequest resp).2.2.flatten =
      (file.drop s.origin).take
        ((requestData s.downloader.currentRequest resp).2.1.startPos.toNat - s.origin)
    have hmove : (requestData s.downloader.currentRequest resp).2.1.startPos.toNat =
        s.downloader.currentRequest.startPos.toNat +
          (requestData s.downloader.currentRequest resp).2.2.flatten.length := by omega
    rw [hmove, h.saved]
    exact take_append_block (by omega) hsaved
  · intro hranged
    exact (known_requested hL h hserved hclear (hsame.1 ▸ hranged)).1
  · exact fun _ => heos
  · intro htrue
    exact absurd (heos.symm.trans htrue) Bool.false_ne_true

theorem complete_requested (hL : 0 < file.length) (h : Delivers file s)
    (hserved : Assumed file s (.loop resp)) (hclear : Clear file s (.loop resp))
    (hret : (requestData s.downloader.currentRequest resp).1 = .ok) :
    let r := (requested s resp).downloader.currentRequest
    (r.requestWholeFile = true → r.startPos = file.length) ∧
      (r.requestWholeFile = false → r.headerInfo.fileContentLen = file.length) := by
  obtain ⟨hsame, -, hpos, -, hok⟩ :=
    requestData_spec (r := s.downloader.currentRequest) hserved.blocks
  obtain ⟨hbody, hcode, hhttp⟩ := hok hret
  obtain ⟨hpart, hinside⟩ := hserved.complete hhttp hcode
  constructor
  · intro hwhole
    have hwhole : s.downloader.currentRequest.requestWholeFile = true := hsame.1 ▸ hwhole
    have hnone : nextRange s.downloader.currentRequest = none := by
      rw [nextRange, hwhole]
      rfl
    rw [hnone] at hpart
    show (requestData s.downloader.currentRequest resp).2.1.startPos = _
    rw [hpos, hclear.2.1 hwhole, hbody, hpart, Int.zero_add]
    rfl
  · intro hranged
    have hranged : s.downloader.currentRequest.requestWholeFile = false := hsame.1 ▸ hranged
    refine (known_requested hL h hserved hclear hranged).2 fun hnil => ?_
    have hstart : 0 ≤ s.downloader.currentRequest.startPos := by
      have := h.origin_le
      omega
    obtain ⟨range, hrange⟩ := Option.ne_none_iff_exists'.mp (nextRange_ranged hranged hstart)
    rw [hrange, hnil] at hpart
    exact part_ne_nil hrange (hinside range hrange) hpart.symm

theorem delivers_handleRetOK (hfits : file.length < 2 ^ 63) (h : Delivers file s)
    (hcomplete : let r := s.downloader.currentRequest
      (r.requestWholeFile = true → r.startPos = file.length) ∧
        (r.requestWholeFile = false → r.headerInfo.fileContentLen = file.length)) :
    Delivers file { s with downloader := handleRetOK s.downloader } := by
  obtain ⟨hpos, hwhole, hlen, hend⟩ := handleRetOK_spec s.downloader
  have hsaved := h.saved
  rw [← hpos] at hsaved
  refine ⟨hpos ▸ h.origin_le, hpos ▸ h.startPos_le, hsaved, fun hranged => ?_, fun hrun => ?_,
    fun heos => ?_⟩
  · rw [hlen]
    exact h.known (hwhole ▸ hranged)
  · rcases hend with ⟨hnext, heos⟩ | ⟨hnext, -⟩
    · rw [heos]
      exact h.running (hnext ▸ hrun)
    · exact absurd (hnext.symm.trans hrun) Bool.noConfusion
  · rw [hpos]
    rcases hend with ⟨-, hsame⟩ | ⟨-, hreach⟩
    · exact h.eos (hsame ▸ heos)
    · cases hr : s.downloader.currentRequest.requestWholeFile with
      | true => exact hcomplete.1 hr
      | false =>
        have hfile := hcomplete.2 hr
        rw [hlen, hfile, toInt64_of_lt hfits, hpos] at hreach
        have hle := h.startPos_le
        by_cases hzero : file.length = 0
        · have := h.origin_le
          omega
        · have := hreach (Nat.pos_of_ne_zero hzero)
          omega

theorem delivers_loop (hL : 0 < file.length) (hfits : file.length < 2 ^ 63)
    (h : Delivers file s) (hserved : Assumed file s (.loop resp))
    (hclear : Clear file s (.loop resp)) (hstep : step s (.loop resp) = some s') :
    Delivers file s' := by
  obtain ⟨out, hloop, rfl⟩ := Option.map_eq_some_iff.mp hstep
  unfold httpDownloadLoop at hloop
  split at hloop
  next => cases hloop
  next hrun =>
    have hrequested := delivers_requested hL h (Bool.eq_false_iff.mpr hrun) hserved hclear
    simp only at hloop
    split at hloop
    next hret =>
      cases hloop
      exact delivers_handleRetOK hfits hrequested (complete_requested hL h hserved hclear hret)
    next =>
      cases hloop
      exact hrequested

theorem delivers_seek {offset : Int} (h : Delivers file s)
    (hinside : Assumed file s (.seek offset)) (hclear : Clear file s (.seek offset))
    (hstep : step s (.seek offset) = some s') : Delivers file s' := by
  obtain ⟨d, hseek, rfl⟩ := Option.map_eq_some_iff.mp hstep
  obtain ⟨contentLength, hlength, rfl⟩ := Option.map_eq_some_iff.mp hseek
  have hvalue : s.downloader.currentRequest.headerInfo.fileContentLen = contentLength := by
    simp only [getFileContentLength] at hlength
    split at hlength
    · cases hlength
    · exact Option.some.inj hlength
  have hoffset : 0 ≤ offset ∧ offset < toInt64 contentLength := ⟨hinside.1, hvalue ▸ hclear⟩
  have hcast : (offset.toNat : Int) = offset := Int.toNat_of_nonneg hoffset.1
  simp only [if_pos hoffset]
  refine ⟨hcast.le, hinside.2.le, ?_, h.known, fun _ => rfl, Bool.noConfusion⟩
  rw [Nat.sub_self, List.take_zero]

theorem delivers_retry (h : Delivers file s) (hstep : step s .retry = some s') :
    Delivers file s' := by
  obtain ⟨d, hretry, rfl⟩ := Option.map_eq_some_iff.mp hstep
  unfold retry at hretry
  split at hretry
  · cases hretry
  · cases hretry
    exact ⟨h.origin_le, h.startPos_le, h.saved, h.known, fun _ => rfl, Bool.noConfusion⟩

theorem delivers_start (file : List UInt8) (requestWholeFile : Bool) :
    Delivers file (start requestWholeFile) :=
  ⟨Int.le_refl _, Int.natCast_nonneg _, rfl, fun _ => .inl rfl, fun _ => rfl, Bool.noConfusion⟩

/-- **A download delivers the file once and in order**, in every run that stays
clear of the defects: at any time a prefix of what is wanted, and all of it at
the end. -/
theorem download_once (file : List UInt8) (requestWholeFile : Bool) {events : List Event}
    (hL : 0 < file.length) (hfits : file.length < 2 ^ 63)
    (halong : Runs.Along step (fun s e => Assumed file s e ∧ Clear file s e)
      (start requestWholeFile) events)
    (hrun : Runs.run step (start requestWholeFile) events = some s) :
    s.saved <+: file.drop s.origin ∧
      (s.downloader.currentRequest.isEos = true → s.saved = file.drop s.origin) := by
  have h : Delivers file s := by
    refine Runs.run_invariant (I := Delivers file) (fun s e s' hI hgood hstep => ?_)
      (delivers_start file requestWholeFile) halong hrun
    cases e with
    | loop resp => exact delivers_loop hL hfits hI hgood.1 hgood.2 hstep
    | seek offset => exact delivers_seek hI hgood.1 hgood.2 hstep
    | retry => exact delivers_retry hI hstep
  refine ⟨h.saved ▸ List.take_prefix _ _, fun heos => ?_⟩
  rw [h.saved, h.eos heos]
  refine List.take_of_length_le ?_
  rw [List.length_drop]
  omega

-- Two downloads of a file of two bytes

/-- What the server sends of a range of the file `[1, 2]`, where 2 happens to
be left in `fileLen`. -/
def partialContent (strRange : String) (body : List UInt8) : Response where
  headers := [.contentLength body.length, .contentRange strRange.toList 2]
  body := [body]
  code := .ok
  httpCode := 206

def lostConnection : Response := ⟨[], [], .couldntConnect, 0⟩

/-- The probe, a connection that is lost, and a retry. -/
def rangedEvents : List Event :=
  [.loop (partialContent "bytes 0-0/2" [1]), .loop lostConnection, .retry,
    .loop (partialContent "bytes 1-1/2" [2])]

theorem served_partialContent {strRange : String} {body : List UInt8} {range : ByteRange}
    (hletter : 'l' ∉ strRange.toList) (hsize : body.length ≤ 16384)
    (hbody : body = part [1, 2] (some range)) (hfirst : range.first < 2) :
    Served [1, 2] (some range) (partialContent strRange body) where
  blocks := by
    intro buffer hmem
    rw [List.mem_singleton.mp hmem]
    exact hsize
  ranges := by
    intro text leftover hmem
    rcases List.mem_cons.mp hmem with hmem | hmem
    · cases hmem
    · cases List.mem_singleton.mp hmem
      exact hletter
  content := fun _ => by
    show [body].flatten <+: _
    rw [List.flatten_singleton, hbody]
  complete := fun _ _ => ⟨by rw [← hbody]; exact List.flatten_singleton, fun r hr => by
    cases hr
    exact hfirst⟩
  header := fun _ _ _ => ⟨_, _, List.mem_cons_of_mem _ List.mem_cons_self⟩

theorem served_lostConnection (file : List UInt8) (range : Option ByteRange) :
    Served file range lostConnection where
  blocks := fun _ hmem => nomatch hmem
  ranges := fun _ _ hmem => nomatch hmem
  content := fun _ => List.nil_prefix
  complete := fun _ hcode => nomatch hcode
  header := fun _ _ hne => absurd rfl hne

theorem clear_partialContent {s : Session} {strRange : String} {body : List UInt8}
    (hranged : s.downloader.currentRequest.requestWholeFile = false) :
    Clear [1, 2] s (.loop (partialContent strRange body)) := by
  refine ⟨fun h => absurd h ?_, fun h => ?_, fun _ _ text leftover hmem => ?_⟩
  · show ¬ (400 : Int) ≤ 206
    decide
  · exact absurd (hranged.symm.trans h) Bool.false_ne_true
  · rcases List.mem_cons.mp hmem with hmem | hmem
    · cases hmem
    · cases List.mem_singleton.mp hmem
      rfl

theorem download_once_rangedEvents :
    ∃ s, Runs.run step (start false) rangedEvents = some s ∧
      s.downloader.currentRequest.isEos = true ∧ s.saved = [1, 2] := by
  have halong : Runs.Along step (fun s e => Assumed [1, 2] s e ∧ Clear [1, 2] s e)
      (start false) rangedEvents :=
    .cons ⟨served_partialContent (by decide +kernel) (by decide) rfl (by decide),
        clear_partialContent rfl⟩ rfl <|
      .cons ⟨served_lostConnection _ _, fun h => absurd h (by decide), Bool.noConfusion,
        fun _ _ _ _ hmem => nomatch hmem⟩ rfl <|
      .cons ⟨trivial, trivial⟩ rfl <|
      .cons ⟨served_partialContent (by decide +kernel) (by decide) rfl (by decide),
        clear_partialContent rfl⟩ rfl trivial
  have hrun : Runs.run step (start false) rangedEvents = some _ := rfl
  have hdownload := download_once [1, 2] false (by decide) (by decide) halong hrun
  exact ⟨_, hrun, rfl, hdownload.2 rfl⟩

/-- What the server sends of the whole file, as far as it arrives. -/
def wholeContent (body : List UInt8) (code : CurlCode) : Response :=
  ⟨[.contentLength 2], [body], code, 200⟩

/-- A request for the whole file that is cut off, and a retry. -/
def wholeEvents : List Event :=
  [.loop (wholeContent [1] .other), .retry, .loop (wholeContent [1, 2] .ok)]

theorem served_wholeContent {body : List UInt8} {code : CurlCode} (hsize : body.length ≤ 16384)
    (hbody : body <+: [1, 2]) (hok : code = .ok → body = [1, 2]) :
    Served [1, 2] none (wholeContent body code) where
  blocks := by
    intro buffer hmem
    rw [List.mem_singleton.mp hmem]
    exact hsize
  ranges := by
    intro text leftover hmem
    cases List.mem_singleton.mp hmem
  content := fun _ => by
    show [body].flatten <+: _
    rw [List.flatten_singleton]
    exact hbody
  complete := fun _ hcode => ⟨(List.flatten_singleton).trans (hok hcode), fun _ hr => nomatch hr⟩
  header := fun _ hne => absurd rfl hne

/-- The retry gets the first byte again. -/
theorem download_twice :
    Runs.Along step (Assumed [1, 2]) (start true) wholeEvents ∧
      ∃ s, Runs.run step (start true) wholeEvents = some s ∧
        s.downloader.currentRequest.isEos = true ∧ s.saved = [1, 1, 2] := by
  refine ⟨?_, _, rfl, rfl, rfl⟩
  exact .cons (served_wholeContent (by decide) ⟨[2], rfl⟩ CurlCode.noConfusion) rfl <|
    .cons trivial rfl <|
    .cons (served_wholeContent (by decide) List.prefix_rfl fun _ => rfl) rfl trivial

end MediaFoundation.Http
