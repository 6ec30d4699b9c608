import MediaFoundation.Lib.Runs
import MediaFoundation.Http.HttpMediaDownloader

/-!
# The wait of HttpMediaDownloader::Read

`Read` with the download thread and with the calls that other threads make meanwhile
(`http_media_downloader.cpp`, `downloader.cpp`): who makes its condition true, and who notifies it.

Conventions:

* One request is opened, and its reads come one after another. `mutex_` is taken by `Read` only.
* A step is what is done between two accesses to what threads share. What `RingBuffer` does under
  its mutex is one step, and so is what the end of a transfer writes.
* A thread that sleeps may wake up at any time.
* A turn of the download loop may begin whenever `operatorMutex_` is free.
* The water lines and the errors are left out.
-/

namespace MediaFoundation.HttpWaits

open Http HttpMedia

-- The threads

inductive Reader where
  | idle
  /-- It is about to look whether there is anything. -/
  | polling (wantReadLength : Nat)
  | empty (wantReadLength : Nat)
  | fits (wantReadLength : Nat)
  /-- It is about to compare with the size of what is buffered. -/
  | comparing (wantReadLength : Nat)
  /-- It has `mutex_`, and is about to test the three parts of the predicate. -/
  | testSize (wantReadLength : Nat)
  | testEos (wantReadLength : Nat)
  | testClosed (wantReadLength : Nat)
  /-- It has found the predicate false, and is about to sleep. -/
  | falling (wantReadLength : Nat)
  | asleep (wantReadLength : Nat) (notified : Bool)
  /-- It is about to call `ReadBuffer`. -/
  | reading (wantReadLength : Nat)
deriving DecidableEq

inductive Loop where
  | idle
  /-- It has `operatorMutex_`. -/
  | requesting
  /-- `SaveData` has written to the ring, and is about to notify. -/
  | saved (dataLen : Nat)
deriving DecidableEq

inductive Call where
  | close (isAsync : Bool)
  | pause
  | resume
deriving DecidableEq

inductive Stage where
  | active
  /-- The downloader has done its part, and `NotifyOne` is next. -/
  | done

structure State (τ : Type*) where
  ring : RingBuffer
  /-- `currentRequest_`, when the request has been taken from the queue. -/
  downloader : Option Downloader := none
  reader : Reader := .idle
  loop : Loop := .idle
  calls : τ → Option (Call × Stage) := fun _ => none

inductive Event (τ : Type*) where
  | read (wantReadLength : Nat)
  /-- The `Read` goes on. -/
  | next
  | wake
  /-- `ReadBuffer` has been notified twice, and there is nothing yet. -/
  | giveUp
  | beginLoop
  | header (line : HeaderLine)
  | body (data : List UInt8)
  /-- The rest of it. -/
  | notify
  | endLoop (code : CurlCode) (httpCode : Int)
  | call (t : τ) (c : Call)
  /-- The call goes on. -/
  | goOn (t : τ)

section Code

variable {τ : Type*}

def downloadRequest (s : State τ) : DownloadRequest :=
  match s.downloader with
  | some d => d.currentRequest
  | none => newRequest

def isEos (s : State τ) : Bool := (downloadRequest s).isEos

def isClosed (s : State τ) : Bool := (downloadRequest s).headerInfo.isClosed

def newDownloader (bufferSize : Nat) : State τ where
  ring := { bufferSize }

-- Read

def next (s : State τ) : Option (State τ) :=
  match s.reader with
  | .polling n =>
    some { s with reader := if s.ring.getSize = 0 then .empty n else .fits n }
  | .empty n =>
    some { s with reader := if isEos s || isClosed s then .idle else .polling n }
  | .fits n =>
    (getFileContentLength (downloadRequest s)).map fun length => { s with
      reader := if (s.ring.mediaOffset + n) % 2 ^ 64 ≤ length then .comparing n else .reading n }
  | .comparing n =>
    some { s with reader := if s.ring.getSize < n then .testSize n else .reading n }
  | .testSize n =>
    some { s with reader := if n ≤ s.ring.getSize then .reading n else .testEos n }
  | .testEos n => some { s with reader := if isEos s then .reading n else .testClosed n }
  | .testClosed n => some { s with reader := if isClosed s then .reading n else .falling n }
  | .falling n => some { s with reader := .asleep n false }
  | .reading n => (s.ring.readBuffer n).map fun (ring, _) => { s with
      ring
      reader := .idle }
  | _ => none

def notifyOne (s : State τ) : State τ :=
  match s.reader with
  | .asleep n _ => { s with reader := .asleep n true }
  | _ => s

-- The download thread

def setRequest (s : State τ) (d : Downloader) (r : DownloadRequest) : State τ :=
  { s with downloader := some { d with currentRequest := r } }

def beginLoop (s : State τ) : Option (State τ) :=
  if s.loop = .idle then
    match s.downloader with
    | none => some { s with
        downloader := some (beginDownload false)
        loop := .requesting }
    | some d => if d.shouldStartNextRequest then none else some { s with loop := .requesting }
  else none

def header (s : State τ) (line : HeaderLine) : Option (State τ) :=
  match s.loop, s.downloader with
  | .requesting, some d => some (setRequest s d (rxHeaderData d.currentRequest line))
  | _, _ => none

def savedData (data : List UInt8) : List UInt8 := data.take (data.length % 2 ^ 32)

def body (s : State τ) (data : List UInt8) : Option (State τ) :=
  match s.loop, s.downloader with
  | .requesting, some d =>
    let info := d.currentRequest.headerInfo.known
    if info.fileContentLen = 0 then some s
    else
      (s.ring.writeBuffer (savedData data)).map fun (ring, written) => { s with
        ring
        downloader := some { d with currentRequest := { d.currentRequest with headerInfo := info } }
        loop := if written then .saved data.length else .requesting }
  | _, _ => none

def notify (s : State τ) : Option (State τ) :=
  match s.loop, s.downloader with
  | .saved dataLen, some d =>
    some { notifyOne s with
      downloader := some { d with currentRequest :=
        { d.currentRequest with startPos := d.currentRequest.startPos + dataLen } }
      loop := .requesting }
  | _, _ => none

/-- The end of `RequestData`, and `HandleRetOK` when it is OK. -/
def endLoop (s : State τ) (code : CurlCode) (httpCode : Int) : Option (State τ) :=
  match s.loop, s.downloader with
  | .requesting, some d =>
    let result := transferResult d.currentRequest code httpCode
    let d := { d with currentRequest := result.2 }
    some { s with
      downloader := some (if result.1 = .ok then handleRetOK d else d)
      loop := .idle }
  | _, _ => none

-- Close, Pause and Resume

def setActive (s : State τ) : Call → RingBuffer
  | .close _ => s.ring.setActive false
  | .pause => s.ring.setActive false (downloadRequest s).headerInfo.isChunked
  | .resume => s.ring.setActive true

def downloaderPart (s : State τ) : Call → Option (State τ)
  | .close _ => some { s with
      downloader := s.downloader.map fun d =>
        { d with currentRequest := { d.currentRequest with
          headerInfo := { d.currentRequest.headerInfo with isClosed := true } } } }
  | .pause => if s.loop = .idle then some s else none
  | .resume =>
    if s.loop = .idle then some { s with
      downloader := s.downloader.map fun d =>
        { d with currentRequest := { d.currentRequest with isEos := false } } }
    else none

/-- `Close` waits for the end of the turn, unless it is asynchronous. -/
def mayNotify (s : State τ) (c : Call) : Prop := c = .close false → s.loop = .idle

instance (s : State τ) (c : Call) : Decidable (mayNotify s c) :=
  inferInstanceAs (Decidable (_ → _))

def goOn [DecidableEq τ] (s : State τ) (t : τ) : Option (State τ) :=
  match s.calls t with
  | none => none
  | some (c, .active) =>
    (downloaderPart s c).map fun s => { s with
      calls := Function.update s.calls t (some (c, .done)) }
  | some (c, .done) =>
    if mayNotify s c then some { notifyOne s with calls := Function.update s.calls t none }
    else none

def step [DecidableEq τ] (s : State τ) : Event τ → Option (State τ)
  | .read n => if s.reader = .idle then some { s with reader := .polling n } else none
  | .next => next s
  | .wake =>
    match s.reader with
    | .asleep n _ => some { s with reader := .testSize n }
    | _ => none
  | .giveUp =>
    match s.reader with
    | .reading _ => if s.ring.getSize = 0 then some { s with reader := .idle } else none
    | _ => none
  | .beginLoop => beginLoop s
  | .header line => header s line
  | .body data => body s data
  | .notify => notify s
  | .endLoop code httpCode => endLoop s code httpCode
  | .call t c =>
    if s.calls t = none then some { s with
      ring := setActive s c
      calls := Function.update s.calls t (some (c, .active)) }
    else none
  | .goOn t => goOn s t

-- The property and the condition

def Enough (s : State τ) (n : Nat) : Prop :=
  n ≤ s.ring.getSize ∨ isEos s = true ∨ isClosed s = true

/-- A `NotifyOne` is still to come. -/
def Pending (s : State τ) : Prop :=
  (∃ dataLen, s.loop = .saved dataLen) ∨ ∃ t call, s.calls t = some call

/-- A `Read` that sleeps waits for what the ring can hold, and when it has enough it is notified. -/
def Waits (s : State τ) : Prop :=
  ∀ n notified, s.reader = .asleep n notified →
    n ≤ s.ring.bufferSize ∧ (notified = false → Enough s n → Pending s)

def StepRight [DecidableEq τ] (s : State τ) (e : Event τ) : Prop :=
  ∀ s', step s e = some s' → Waits s'

/-- It has found that too little is buffered, and does not sleep yet. -/
def Reader.TestedSize (r : Reader) (n : Nat) : Prop :=
  r = .testEos n ∨ r = .testClosed n ∨ r = .falling n

/-- It has found that the stream goes on, and does not sleep yet. -/
def Reader.TestedEos (r : Reader) (n : Nat) : Prop := r = .testClosed n ∨ r = .falling n

def TransferEnds (s : State τ) (code : CurlCode) (httpCode : Int) : Prop :=
  ∃ d, s.downloader = some d ∧ (transferResult d.currentRequest code httpCode).1 = .ok ∧
    toInt64 d.currentRequest.headerInfo.fileContentLen - d.currentRequest.startPos ≤ 0

/-- A `Read` of what the file has asks for no more than the ring can hold. What it has found not to
be so does not become so before it sleeps, and the transfer does not end while it sleeps, unless a
`NotifyOne` is still to come. -/
def KeepsNotifying (s : State τ) : Event τ → Prop
  | .next => ∀ n, s.reader = .comparing n → n ≤ s.ring.bufferSize
  | .body data => ∀ n, s.reader.TestedSize n →
    ∀ ring, s.ring.writeBuffer (savedData data) = some (ring, true) → ring.getSize < n
  | .endLoop code httpCode => TransferEnds s code httpCode → ∀ n,
    ¬ s.reader.TestedEos n ∧ (s.reader = .asleep n false → Pending s)
  | .goOn t => ∀ isAsync, s.calls t = some (.close isAsync, .active) → ∀ n, s.reader ≠ .falling n
  | _ => True

-- What the steps keep

def Right (s : State τ) : Reader → Prop
  | .testSize n => n ≤ s.ring.bufferSize
  | .testEos n => n ≤ s.ring.bufferSize ∧ s.ring.getSize < n
  | .testClosed n => n ≤ s.ring.bufferSize ∧ s.ring.getSize < n ∧ isEos s = false
  | .falling n =>
    n ≤ s.ring.bufferSize ∧ s.ring.getSize < n ∧ isEos s = false ∧ isClosed s = false
  | .asleep n notified =>
    n ≤ s.ring.bufferSize ∧ (notified = false → Enough s n → Pending s)
  | _ => True

def Inv (s : State τ) : Prop := Right s s.reader

variable {s s' : State τ} {e : Event τ} {r : Reader}

theorem Inv.waits (h : Inv s) : Waits s := by
  intro n notified hasleep
  unfold Inv at h
  rw [hasleep] at h
  exact h

theorem not_enough {n : Nat} (hsize : s.ring.getSize < n) (heos : isEos s = false)
    (hclosed : isClosed s = false) : ¬ Enough s n := by
  rintro (hle | hset | hset)
  · omega
  · simp [heos] at hset
  · simp [hclosed] at hset

/-- What a step of another thread has to keep. -/
theorem Right.keep (h : Right s r) (hbuffer : s'.ring.bufferSize = s.ring.bufferSize)
    (hsize : ∀ n, r.TestedSize n → s.ring.getSize < n → s'.ring.getSize < n)
    (heos : ∀ n, r.TestedEos n → isEos s = false → isEos s' = false)
    (hclosed : ∀ n, r = .falling n → isClosed s = false → isClosed s' = false)
    (hpending : ∀ n, r = .asleep n false → (Enough s n → Pending s) → Enough s' n → Pending s') :
    Right s' r := by
  cases r with
  | testSize n =>
    show n ≤ s'.ring.bufferSize
    rw [hbuffer]
    exact h
  | testEos n =>
    obtain ⟨hle, hless⟩ := h
    exact ⟨hbuffer.symm ▸ hle, hsize n (Or.inl rfl) hless⟩
  | testClosed n =>
    obtain ⟨hle, hless, hgoes⟩ := h
    exact ⟨hbuffer.symm ▸ hle, hsize n (Or.inr (Or.inl rfl)) hless, heos n (Or.inl rfl) hgoes⟩
  | falling n =>
    obtain ⟨hle, hless, hgoes, hopen⟩ := h
    exact ⟨hbuffer.symm ▸ hle, hsize n (Or.inr (Or.inr rfl)) hless, heos n (Or.inr rfl) hgoes,
      hclosed n rfl hopen⟩
  | asleep n notified =>
    obtain ⟨hle, hnotified⟩ := h
    refine ⟨hbuffer.symm ▸ hle, ?_⟩
    rintro rfl
    exact hpending n rfl (hnotified rfl)
  | _ => trivial

/-- Nothing of the predicate has become true, and who was about to notify still is. -/
structure NoMore (s s' : State τ) : Prop where
  reader : s'.reader = s.reader
  bufferSize : s'.ring.bufferSize = s.ring.bufferSize
  size : s'.ring.getSize ≤ s.ring.getSize
  eos : isEos s' = true → isEos s = true
  closed : isClosed s' = true → isClosed s = true
  pending : Pending s → Pending s'

theorem Inv.noMore (h : Inv s) (hno : NoMore s s') : Inv s' := by
  unfold Inv
  rw [hno.reader]
  refine Right.keep h hno.bufferSize ?_ ?_ ?_ ?_
  · intro n _ hless
    exact hno.size.trans_lt hless
  · intro n _ hgoes
    exact Bool.eq_false_iff.mpr (mt hno.eos (by simp [hgoes]))
  · intro n _ hopen
    exact Bool.eq_false_iff.mpr (mt hno.closed (by simp [hopen]))
  · intro n _ hbefore henough
    refine hno.pending (hbefore ?_)
    rcases henough with hle | hset | hset
    · exact Or.inl (hle.trans hno.size)
    · exact Or.inr (Or.inl (hno.eos hset))
    · exact Or.inr (Or.inr (hno.closed hset))

theorem notifyOne_asleep {n : Nat} {notified : Bool} (hasleep : s.reader = .asleep n notified) :
    (notifyOne s).reader = .asleep n true := by
  simp [notifyOne, hasleep]

theorem notifyOne_awake (hawake : ∀ n notified, s.reader ≠ .asleep n notified) :
    (notifyOne s).reader = s.reader := by
  unfold notifyOne
  split
  · rename_i n notified hasleep
    exact absurd hasleep (hawake n notified)
  · rfl

@[simp] theorem notifyOne_ring : (notifyOne s).ring = s.ring := by
  unfold notifyOne
  split <;> rfl

@[simp] theorem notifyOne_downloader : (notifyOne s).downloader = s.downloader := by
  unfold notifyOne
  split <;> rfl

/-- After a notification nobody is left who has not been notified. -/
theorem Inv.notifyOne (h : Inv s) (hreader : s'.reader = (notifyOne s).reader)
    (hring : s'.ring = s.ring) (heos : isEos s' = isEos s) (hclosed : isClosed s' = isClosed s) :
    Inv s' := by
  unfold Inv
  rw [hreader]
  by_cases hasleep : ∃ n notified, s.reader = .asleep n notified
  · obtain ⟨n, notified, hasleep⟩ := hasleep
    rw [notifyOne_asleep hasleep]
    refine ⟨?_, by simp⟩
    rw [hring]
    exact (h.waits n notified hasleep).1
  · push Not at hasleep
    rw [notifyOne_awake hasleep]
    refine Right.keep h (by rw [hring]) ?_ ?_ ?_ ?_
    · intro n _ hless
      rwa [hring]
    · intro n _ hgoes
      rwa [heos]
    · intro n _ hopen
      rwa [hclosed]
    · intro n hasleep'
      exact absurd hasleep' (hasleep n false)

-- Each step

theorem Inv.next (h : Inv s) (hfits : ∀ n, s.reader = .comparing n → n ≤ s.ring.bufferSize)
    (hstep : next s = some s') : Inv s' := by
  unfold HttpWaits.next at hstep
  unfold Inv at h
  split at hstep
  · injection hstep with hs
    subst hs
    simp only [Inv]
    split <;> trivial
  · injection hstep with hs
    subst hs
    simp only [Inv]
    split <;> trivial
  · obtain ⟨length, -, rfl⟩ := Option.map_eq_some_iff.mp hstep
    simp only [Inv]
    split <;> trivial
  · rename_i n hreader
    injection hstep with hs
    subst hs
    simp only [Inv]
    split
    · exact hfits n hreader
    · trivial
  · rename_i n hreader
    injection hstep with hs
    subst hs
    rw [hreader] at h
    simp only [Inv]
    split
    · trivial
    · rename_i hless
      exact ⟨h, Nat.lt_of_not_le hless⟩
  · rename_i n hreader
    injection hstep with hs
    subst hs
    rw [hreader] at h
    simp only [Inv]
    split
    · trivial
    · rename_i hgoes
      exact ⟨h.1, h.2, Bool.eq_false_iff.mpr hgoes⟩
  · rename_i n hreader
    injection hstep with hs
    subst hs
    rw [hreader] at h
    simp only [Inv]
    split
    · trivial
    · rename_i hopen
      exact ⟨h.1, h.2.1, h.2.2, Bool.eq_false_iff.mpr hopen⟩
  · rename_i n hreader
    injection hstep with hs
    subst hs
    rw [hreader] at h
    refine ⟨h.1, ?_⟩
    intro _ henough
    exact absurd henough (not_enough h.2.1 h.2.2.1 h.2.2.2)
  · obtain ⟨⟨ring, bytes⟩, -, rfl⟩ := Option.map_eq_some_iff.mp hstep
    trivial
  · cases hstep

theorem setActive_noMore (s : State τ) (c : Call) :
    (setActive s c).bufferSize = s.ring.bufferSize ∧ (setActive s c).getSize ≤ s.ring.getSize := by
  cases c <;> simp only [HttpWaits.setActive, RingBuffer.setActive] <;> split <;>
    simp [RingBuffer.getSize]

theorem Inv.call [DecidableEq τ] (h : Inv s) (t : τ) (c : Call) : Inv { s with
    ring := setActive s c
    calls := Function.update s.calls t (some (c, .active)) } := by
  obtain ⟨hbuffer, hsize⟩ := setActive_noMore s c
  refine h.noMore ⟨rfl, hbuffer, hsize, id, id, ?_⟩
  intro _
  exact Or.inr ⟨t, (c, .active), by simp⟩

theorem Inv.beginLoop (h : Inv s) (hstep : beginLoop s = some s') : Inv s' := by
  unfold HttpWaits.beginLoop at hstep
  split at hstep
  · rename_i hidle
    have hpending : ∀ t : State τ, t.calls = s.calls → Pending s → Pending t := by
      intro t hcalls hpending
      rcases hpending with ⟨dataLen, hsaved⟩ | hcall
      · rw [hidle] at hsaved
        cases hsaved
      · exact Or.inr (hcalls ▸ hcall)
    split at hstep
    · rename_i hnone
      injection hstep with hs
      subst hs
      refine h.noMore ⟨rfl, rfl, le_rfl, ?_, ?_, hpending _ rfl⟩
      · simp [isEos, downloadRequest, beginDownload]
      · simp [isClosed, downloadRequest, beginDownload]
    · split at hstep
      · cases hstep
      · injection hstep with hs
        subst hs
        exact h.noMore ⟨rfl, rfl, le_rfl, id, id, hpending _ rfl⟩
  · cases hstep

theorem Inv.header (h : Inv s) (line : HeaderLine) (hstep : header s line = some s') : Inv s' := by
  unfold HttpWaits.header at hstep
  split at hstep
  · rename_i d hloop hd
    injection hstep with hs
    subst hs
    refine h.noMore ⟨rfl, rfl, le_rfl, ?_, ?_, id⟩
    · simp [isEos, downloadRequest, setRequest, rxHeaderData, hd]
    · have hread : ∀ info : HeaderInfo, (info.read line).isClosed = info.isClosed := by
        intro info
        cases line <;> simp only [HeaderInfo.read] <;> split <;> rfl
      simp [isClosed, downloadRequest, setRequest, rxHeaderData, hd, hread]
  · cases hstep

theorem known_isClosed (info : HeaderInfo) : info.known.isClosed = info.isClosed := by
  unfold HeaderInfo.known
  split <;> rfl

theorem writeBuffer_bufferSize {r ring : RingBuffer} {data : List UInt8} {written : Bool}
    (h : r.writeBuffer data = some (ring, written)) : ring.bufferSize = r.bufferSize := by
  unfold RingBuffer.writeBuffer at h
  split at h
  · split at h
    · cases h
    · cases h
      rfl
  · cases h
    rfl

theorem writeBuffer_refused {r ring : RingBuffer} {data : List UInt8}
    (h : r.writeBuffer data = some (ring, false)) : ring = r := by
  unfold RingBuffer.writeBuffer at h
  split at h
  · split at h <;> cases h
  · cases h
    rfl

/-- `SaveData` notifies who sleeps of what it has written. -/
theorem Inv.body (h : Inv s) {data : List UInt8} (hkeeps : KeepsNotifying s (.body data))
    (hstep : body s data = some s') : Inv s' := by
  unfold HttpWaits.body at hstep
  split at hstep
  · rename_i d hloop hd
    simp only at hstep
    split at hstep
    · injection hstep with hs
      exact hs ▸ h
    · obtain ⟨⟨ring, written⟩, hwrite, rfl⟩ := Option.map_eq_some_iff.mp hstep
      have hclosed := known_isClosed d.currentRequest.headerInfo
      cases written with
      | true =>
        refine Right.keep h (writeBuffer_bufferSize hwrite) ?_ ?_ ?_ ?_
        · intro n htested _
          exact hkeeps n htested ring hwrite
        · intro n _ hgoes
          simpa [isEos, downloadRequest, hd] using hgoes
        · intro n _ hopen
          simpa [isClosed, downloadRequest, hd, hclosed] using hopen
        · intro n _ _ _
          exact Or.inl ⟨data.length, rfl⟩
      | false =>
        obtain rfl := writeBuffer_refused hwrite
        refine h.noMore ⟨rfl, rfl, le_rfl, ?_, ?_, ?_⟩
        · simp [isEos, downloadRequest, hd]
        · simp [isClosed, downloadRequest, hd, hclosed]
        · simp [Pending, hloop]
  · cases hstep

theorem Inv.notify (h : Inv s) (hstep : notify s = some s') : Inv s' := by
  unfold HttpWaits.notify at hstep
  split at hstep
  · rename_i dataLen d hloop hd
    injection hstep with hs
    subst hs
    refine h.notifyOne rfl notifyOne_ring ?_ ?_
    · simp [isEos, downloadRequest, hd]
    · simp [isClosed, downloadRequest, hd]
  · cases hstep

theorem handleRetOK_goes {d : Downloader}
    (h : ¬ toInt64 d.currentRequest.headerInfo.fileContentLen - d.currentRequest.startPos ≤ 0) :
    (handleRetOK d).currentRequest.isEos = d.currentRequest.isEos ∧
      (handleRetOK d).currentRequest.headerInfo = d.currentRequest.headerInfo := by
  simp only [handleRetOK, h, and_false, if_false]
  split <;> simp

theorem transferResult_keeps (r : DownloadRequest) (code : CurlCode) (httpCode : Int) :
    (transferResult r code httpCode).2.isEos = r.isEos ∧
      (transferResult r code httpCode).2.headerInfo = r.headerInfo ∧
      (transferResult r code httpCode).2.startPos = r.startPos := by
  unfold transferResult
  split
  · simp
  · split <;> simp

/-- A transfer that does not end the request changes nothing of the predicate. -/
theorem endLoop_goes {code : CurlCode} {httpCode : Int} (hends : ¬ TransferEnds s code httpCode)
    (hstep : endLoop s code httpCode = some s') :
    isEos s' = isEos s ∧ isClosed s' = isClosed s := by
  unfold HttpWaits.endLoop at hstep
  split at hstep
  · rename_i d hloop hd
    injection hstep with hs
    subst hs
    obtain ⟨heos, hinfo, hstart⟩ := transferResult_keeps d.currentRequest code httpCode
    simp only [isEos, isClosed, downloadRequest, hd]
    split
    · rename_i hok
      have hgoes : ¬ toInt64 d.currentRequest.headerInfo.fileContentLen -
          d.currentRequest.startPos ≤ 0 := by
        intro hle
        exact hends ⟨d, hd, hok, hle⟩
      obtain ⟨heos', hinfo'⟩ := handleRetOK_goes
        (d := { d with currentRequest := (transferResult d.currentRequest code httpCode).2 })
        (by rw [hinfo, hstart]; exact hgoes)
      rw [heos', hinfo', heos, hinfo]
      exact ⟨rfl, rfl⟩
    · rw [heos, hinfo]
      exact ⟨rfl, rfl⟩
  · cases hstep

theorem endLoop_frame {code : CurlCode} {httpCode : Int}
    (hstep : endLoop s code httpCode = some s') :
    s'.reader = s.reader ∧ s'.ring = s.ring ∧ (Pending s → Pending s') := by
  unfold HttpWaits.endLoop at hstep
  split at hstep
  · rename_i d hloop hd
    injection hstep with hs
    subst hs
    refine ⟨rfl, rfl, ?_⟩
    simp [Pending, hloop]
  · cases hstep

/-- The end of the stream is not told to who sleeps, so it must not come meanwhile. -/
theorem Inv.endLoop (h : Inv s) {code : CurlCode} {httpCode : Int}
    (hkeeps : KeepsNotifying s (.endLoop code httpCode))
    (hstep : endLoop s code httpCode = some s') : Inv s' := by
  obtain ⟨hreader, hring, hpending⟩ := endLoop_frame hstep
  by_cases hends : TransferEnds s code httpCode
  · unfold Inv
    rw [hreader]
    refine Right.keep h (by rw [hring]) ?_ ?_ ?_ ?_
    · intro n _ hless
      rwa [hring]
    · intro n htested
      exact absurd htested (hkeeps hends n).1
    · intro n hfalling
      exact absurd (Or.inr hfalling) (hkeeps hends n).1
    · intro n hasleep _ _
      exact hpending ((hkeeps hends n).2 hasleep)
  · obtain ⟨heos, hclosed⟩ := endLoop_goes hends hstep
    refine h.noMore ⟨hreader, by rw [hring], by rw [hring], ?_, ?_, hpending⟩
    · simp [heos]
    · simp [hclosed]

theorem downloaderPart_spec {c : Call} (hpart : downloaderPart s c = some s') :
    s'.reader = s.reader ∧ s'.ring = s.ring ∧ (isEos s' = true → isEos s = true) ∧
      ((∀ isAsync, c ≠ .close isAsync) → isClosed s' = isClosed s) := by
  cases c with
  | close isAsync =>
    cases hpart
    refine ⟨rfl, rfl, ?_, ?_⟩
    · cases hd : s.downloader <;> simp [isEos, downloadRequest, hd]
    · intro hopens
      exact absurd rfl (hopens isAsync)
  | pause =>
    simp only [downloaderPart] at hpart
    split at hpart
    · cases hpart
      exact ⟨rfl, rfl, id, by simp⟩
    · cases hpart
  | resume =>
    simp only [downloaderPart] at hpart
    split at hpart
    · cases hpart
      refine ⟨rfl, rfl, ?_, ?_⟩
      · cases hd : s.downloader <;> simp [isEos, downloadRequest, hd]
      · intro _
        cases hd : s.downloader <;> simp [isClosed, downloadRequest, hd]
    · cases hpart

theorem Inv.goOn [DecidableEq τ] (h : Inv s) (t : τ) (hkeeps : KeepsNotifying s (.goOn t))
    (hstep : goOn s t = some s') : Inv s' := by
  unfold HttpWaits.goOn at hstep
  split at hstep
  · cases hstep
  · rename_i c hcall
    obtain ⟨s₁, hpart, rfl⟩ := Option.map_eq_some_iff.mp hstep
    obtain ⟨hreader, hring, heos, hclosed⟩ := downloaderPart_spec hpart
    have hright : Right { s₁ with calls := Function.update s₁.calls t (some (c, .done)) }
        s.reader := by
      refine Right.keep h (by rw [hring]) ?_ ?_ ?_ ?_
      · intro n _ hless
        rwa [hring]
      · intro n _ hgoes
        exact Bool.eq_false_iff.mpr (mt heos (by simp [hgoes]))
      · intro n hfalling hopen
        have hopens : ∀ isAsync, c ≠ .close isAsync := by
          rintro isAsync rfl
          exact hkeeps isAsync hcall n hfalling
        exact (hclosed hopens).trans hopen
      · intro n _ _ _
        exact Or.inr ⟨t, (c, .done), by simp⟩
    rwa [← hreader] at hright
  · split at hstep
    · injection hstep with hs
      subst hs
      exact h.notifyOne rfl notifyOne_ring (by simp [isEos, downloadRequest])
        (by simp [isClosed, downloadRequest])
    · cases hstep

theorem Inv.step [DecidableEq τ] (h : Inv s) (hkeeps : KeepsNotifying s e)
    (hstep : step s e = some s') : Inv s' := by
  cases e with
  | read n =>
    simp only [HttpWaits.step] at hstep
    split at hstep
    · cases hstep
      trivial
    · cases hstep
  | next => exact h.next hkeeps hstep
  | wake =>
    simp only [HttpWaits.step] at hstep
    split at hstep
    · rename_i n notified hasleep
      cases hstep
      exact (h.waits n notified hasleep).1
    · cases hstep
  | giveUp =>
    simp only [HttpWaits.step] at hstep
    split at hstep
    · split at hstep
      · cases hstep
        trivial
      · cases hstep
    · cases hstep
  | beginLoop => exact h.beginLoop hstep
  | header line => exact h.header line hstep
  | body data => exact h.body hkeeps hstep
  | notify => exact h.notify hstep
  | endLoop code httpCode => exact h.endLoop hkeeps hstep
  | call t c =>
    simp only [HttpWaits.step] at hstep
    split at hstep
    · cases hstep
      exact h.call t c
    · cases hstep
  | goOn t => exact h.goOn t hkeeps hstep

/-- **No read is left waiting** in every run of steps that meet the condition. -/
theorem waits_runs [DecidableEq τ] (bufferSize : Nat) (events : List (Event τ))
    (h : Runs.Along step KeepsNotifying (newDownloader bufferSize) events) :
    Runs.Along step StepRight (newDownloader bufferSize) events := by
  refine Runs.along_imp (I := Inv) ?_ ?_ trivial h
  · intro s e hinv hkeeps s' hstep
    exact (hinv.step hkeeps hstep).waits
  · intro s e s' hinv hkeeps hstep
    exact hinv.step hkeeps hstep

end Code

-- A read that is notified, and one that is overtaken

def ringBufferSize : Nat := 5 * 1024 * 1024

/-- The first byte of a file of four comes, and all of it is read: the `Read` is about to sleep. -/
def readAll : List (Event Nat) :=
  [.beginLoop, .header (.contentLength 4), .body [1], .notify, .read 4, .next, .next, .next, .next,
    .next, .next]

/-- The `Read` sleeps, and is notified when the others come. -/
theorem waits_runs_notified :
    Runs.Along step StepRight (newDownloader ringBufferSize)
      (readAll ++ [.next, .body [2, 3, 4], .notify, .endLoop .ok 206, .call 1 (.close true),
        .wake, .goOn 1, .next, .next]) := by
  refine waits_runs ringBufferSize _ ?_
  refine .cons trivial rfl (.cons trivial rfl (.cons ?_ rfl (.cons trivial rfl (.cons trivial rfl
    (.cons ?_ rfl (.cons ?_ rfl (.cons ?_ rfl (.cons ?_ rfl (.cons ?_ rfl (.cons ?_ rfl
    (.cons ?_ rfl (.cons ?_ rfl (.cons trivial rfl (.cons ?_ rfl (.cons trivial rfl
    (.cons trivial rfl (.cons ?_ rfl (.cons ?_ rfl (.cons ?_ rfl trivial)))))))))))))))))))
  · rintro n (hreader | hreader | hreader) <;> cases hreader
  · intro n hreader
    cases hreader
  · intro n hreader
    cases hreader
  · intro n hreader
    cases hreader
    decide
  · intro n hreader
    cases hreader
  · intro n hreader
    cases hreader
  · intro n hreader
    cases hreader
  · intro n hreader
    cases hreader
  · rintro n (hreader | hreader | hreader) <;> cases hreader
  · rintro - n
    refine ⟨?_, ?_⟩
    · rintro (hreader | hreader) <;> cases hreader
    · intro hreader
      cases hreader
  · rintro isAsync - n hreader
    cases hreader
  · intro n hreader
    cases hreader
  · intro n hreader
    cases hreader

/-- The others come before it sleeps. -/
theorem overtaken_not_notified :
    ¬ Runs.Along step StepRight (newDownloader ringBufferSize)
      (readAll ++ [.body [2, 3, 4], .notify] ++ [.next]) := by
  intro h
  obtain ⟨-, hpending⟩ := h.last rfl _ rfl 4 false rfl
  rcases hpending rfl (Or.inl (by decide)) with ⟨dataLen, hsaved⟩ | ⟨t, call, hcall⟩
  · cases hsaved
  · cases hcall

end MediaFoundation.HttpWaits
