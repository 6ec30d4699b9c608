import MediaFoundation.Lib.Ring
import MediaFoundation.Http.Downloader

/-!
# HttpMediaDownloader

`http_media_downloader.cpp` with the `RingBuffer` of `foundation/utils/ring_buffer.h`: the download
thread writes what it gets into the ring, and the calls of the player read and seek there.

Conventions:

* The calls come one after the other. Where a call lets the download thread in between, it goes on
  in `next`. A step of that thread is the start of a request with the header lines, one block of
  the body, or the end of the transfer.
* `operatorMutex_` is held during a whole transfer, so `Downloader::Pause`, `Resume`, `Seek` and
  `Download` wait for its end. A step that waits has no result.
* The server answers a range that the file has with these bytes, and another one with an error.
* All requests are for the same file. The positions in the ring are natural numbers.
* The water lines are left out, and `Close` is.
* What follows `opened` only records what happens.
-/

namespace MediaFoundation.HttpMedia

open Http

-- RingBuffer

structure RingBuffer where
  bufferSize : Nat
  buffer : Nat → UInt8 := fun _ => 0
  head : Nat := 0
  tail : Nat := 0
  isActive : Bool := true
  /-- A `uint64_t`. -/
  mediaOffset : Nat := 0

namespace RingBuffer

def getSize (r : RingBuffer) : Nat := r.tail - r.head

/-- An `int` as an `uint64_t`. -/
def toUInt64 (offset : Int) : Nat := (offset % 2 ^ 64).toNat

def readBuffer (r : RingBuffer) (readSize : Nat) : Option (RingBuffer × List UInt8) :=
  if r.isActive then
    if r.getSize = 0 then none
    else
      let available := min readSize r.getSize
      some ({ r with
        head := r.head + available
        mediaOffset := r.mediaOffset + available },
        Ring.ringLoad r.bufferSize r.buffer (r.head % r.bufferSize) available)
  else some (r, [])

def writeBuffer (r : RingBuffer) (data : List UInt8) : Option (RingBuffer × Bool) :=
  if r.isActive then
    if r.head + r.bufferSize < data.length + r.tail then none
    else some ({ r with
      buffer := Ring.ringStore r.bufferSize r.buffer (r.tail % r.bufferSize) data.length
        fun i => data.getD i 0
      tail := r.tail + data.length }, true)
  else some (r, false)

def setActive (r : RingBuffer) (active : Bool) (cleanData : Bool := true) : RingBuffer :=
  if !active && cleanData then { r with
    isActive := active
    head := 0
    tail := 0 }
  else { r with isActive := active }

def setMediaOffset (r : RingBuffer) (offset : Nat) : RingBuffer := { r with mediaOffset := offset }

def clear (r : RingBuffer) : RingBuffer := { r with
  head := 0
  tail := 0 }

def Within (r : RingBuffer) (offset : Nat) : Prop :=
  r.mediaOffset ≤ offset ∧ offset - r.mediaOffset < r.getSize

instance (r : RingBuffer) (offset : Nat) : Decidable (r.Within offset) :=
  inferInstanceAs (Decidable (_ ∧ _))

def seek (r : RingBuffer) (offset : Nat) : RingBuffer × Bool :=
  if r.Within offset then ({ r with head := r.head + (offset - r.mediaOffset) }, true)
  else (r, false)

end RingBuffer

-- The state

def requestQueueSize : Nat := 50

inductive Transfer where
  | range (left : Nat)
  /-- The server has refused the range. -/
  | error
deriving DecidableEq

inductive Phase where
  | idle
  | pausing
  | resuming
  | seeking (offset : Int)
  | seekPausing (offset : Int)
  | seekPaused (offset : Int)
deriving DecidableEq

structure State where
  file : List UInt8
  ring : RingBuffer
  /-- `currentRequest_` and `shouldStartNextRequest`, which is true while there is none. -/
  downloader : Option Downloader := none
  /-- The number of requests in `requestQue_`. -/
  waiting : Nat := 0
  queueActive : Bool := true
  /-- The task of the downloader is started. -/
  running : Bool := false
  transfer : Option Transfer := none
  phase : Phase := .idle
  opened : Bool := false
  /-- Where the reads have begun, and what they have got since then. -/
  base : Nat := 0
  delivered : List UInt8 := []
  /-- The seeks and their results. -/
  answers : List (Int × Bool) := []

def newRequest : DownloadRequest where
  startPos := 0
  requestWholeFile := false
  requestSize := 0
  retryTimes := 0

def downloadRequest (s : State) : Option DownloadRequest :=
  if s.waiting = 0 then s.downloader.map Downloader.currentRequest else some newRequest

-- The download thread

/-- The request that a turn of the loop works on, with what is waiting behind it. -/
def nextRequest (s : State) : Option (Downloader × Nat) :=
  match s.downloader with
  | some d => if d.shouldStartNextRequest then popRequest else some (d, s.waiting)
  | none => popRequest
where
  popRequest : Option (Downloader × Nat) :=
    if s.queueActive ∧ s.waiting ≠ 0 then some (beginDownload false, s.waiting - 1) else none

def respond (file : List UInt8) (range : Option ByteRange) : Transfer :=
  match range with
  | none => .range file.length
  | some ⟨first, last⟩ =>
    if first < file.length then
      match last with
      | some last => .range (min (last + 1) file.length - first).toNat
      | none => .range (file.length - first).toNat
    else .error

def request (s : State) (lines : List HeaderLine) : Option State :=
  if s.running ∧ s.transfer = none then
    (nextRequest s).map fun (d, waiting) => { s with
      downloader := some { d with
        currentRequest := lines.foldl rxHeaderData d.currentRequest }
      waiting
      transfer := some (respond s.file (nextRange d.currentRequest)) }
  else none

def fail (s : State) (d : Downloader) (r : DownloadRequest) (code : CurlCode) (httpCode : Int) :
    State :=
  { s with
    downloader := some { d with currentRequest := (transferResult r code httpCode).2 }
    transfer := none
    running := false }

def saveBlock (s : State) (d : Downloader) (block : List UInt8) (rest : Transfer) :
    Option State :=
  match rxBodyData d.currentRequest block with
  | none => some (fail s d d.currentRequest .writeError 0)
  | some r =>
    -- the save function takes the length as a `uint32_t`
    (s.ring.writeBuffer (block.take (block.length % 2 ^ 32))).map fun (ring, saved) =>
      if saved then { s with
        ring
        downloader := some { d with currentRequest := r }
        transfer := some rest }
      else fail s d { d.currentRequest with headerInfo := r.headerInfo } .writeError 0

def block (s : State) (data : List UInt8) : Option State :=
  match s.downloader, s.transfer with
  | some d, some (.range left) =>
    if data ≠ [] ∧ data.length ≤ left ∧
        data = (s.file.drop d.currentRequest.startPos.toNat).take data.length then
      saveBlock s d data (.range (left - data.length))
    else none
  | some d, some .error => saveBlock s d data .error
  | _, _ => none

def finish (s : State) (code : CurlCode) (httpCode : Int) : Option State :=
  match s.downloader, s.transfer with
  | some d, some (.range left) =>
    if httpCode < 400 ∧ (code = .ok → left = 0) then
      if code = .ok then
        let next := handleRetOK { d with
          currentRequest := (transferResult d.currentRequest code httpCode).2 }
        some { s with
          downloader := some next
          transfer := none
          running := if next.shouldStartNextRequest ∧ s.waiting = 0 then false else s.running }
      else some (fail s d d.currentRequest code httpCode)
    else none
  | some d, some .error =>
    if 400 ≤ httpCode then some (fail s d d.currentRequest code httpCode) else none
  | _, _ => none

-- The calls

def openUrl (s : State) : Option State :=
  if s.transfer = none ∧ s.waiting < requestQueueSize then some { s with
    waiting := s.waiting + 1
    queueActive := true
    ring := s.ring.setMediaOffset 0
    running := true
    opened := true
    base := 0
    delivered := [] }
  else none

/-- `Read`, when it gets to the ring or gives up. -/
def read (s : State) (wantReadLength : Nat) : Option State :=
  (downloadRequest s).bind fun r =>
    let isOver := r.isEos || r.headerInfo.isClosed
    if s.ring.getSize = 0 then if isOver then some s else none
    else
      (getFileContentLength r).bind fun length =>
        if (s.ring.mediaOffset + wantReadLength) % 2 ^ 64 ≤ length ∧
            s.ring.getSize < wantReadLength ∧ isOver = false then none
        else (s.ring.readBuffer wantReadLength).map fun (ring, bytes) => { s with
          ring
          delivered := s.delivered ++ bytes }

def pause (s : State) : Option State :=
  (downloadRequest s).map fun r => { s with
    ring := s.ring.setActive false r.headerInfo.isChunked
    phase := .pausing }

def resume (s : State) : State :=
  { s with
    ring := s.ring.setActive true
    phase := .resuming }

def seekTo (s : State) (offset : Int) : State :=
  match s.ring.seek (RingBuffer.toUInt64 offset) with
  | (ring, true) => { s with
      ring
      base := offset.toNat
      delivered := []
      answers := s.answers ++ [(offset, true)] }
  | (_, false) => { s with phase := .seeking offset }

def downloaderPause (s : State) : Option State :=
  if s.transfer = none then some { s with
    queueActive := false
    running := false }
  else none

def downloaderResume (s : State) : Option State :=
  if s.transfer = none then some { s with
    queueActive := true
    downloader := s.downloader.map fun d =>
      { d with currentRequest := { d.currentRequest with isEos := false } }
    running := true }
  else none

/-- The end of a `Seek` outside of the ring. -/
def seekDownloader (s : State) (offset : Int) : Option State :=
  let ring := s.ring.clear.setActive true
  match s.downloader with
  | none => some { s with
      ring
      answers := s.answers ++ [(offset, false)] }
  | some d =>
    (Http.seek d offset).map fun d => { s with
      ring := ring.setMediaOffset (RingBuffer.toUInt64 offset)
      downloader := some d
      base := offset.toNat
      delivered := []
      answers := s.answers ++ [(offset, true)] }

def next (s : State) : Option State :=
  match s.phase with
  | .idle => none
  | .pausing => (downloaderPause s).map fun s => { s with phase := .idle }
  | .resuming => (downloaderResume s).map fun s => { s with phase := .idle }
  | .seeking offset => some { s with
      ring := s.ring.setActive false
      phase := .seekPausing offset }
  | .seekPausing offset =>
    (downloaderPause s).map fun s => { s with phase := .seekPaused offset }
  | .seekPaused offset =>
    (seekDownloader s offset).bind fun s =>
      (downloaderResume s).map fun s => { s with phase := .idle }

-- Any interleaving

inductive Event where
  | openUrl
  | read (wantReadLength : Nat)
  | pause
  | resume
  | seekTo (offset : Int)
  | next
  | request (lines : List HeaderLine)
  | block (data : List UInt8)
  | finish (code : CurlCode) (httpCode : Int)

def whenIdle (s : State) (t : Option State) : Option State := if s.phase = .idle then t else none

def step (s : State) : Event → Option State
  | .openUrl => whenIdle s (openUrl s)
  | .read wantReadLength => whenIdle s (read s wantReadLength)
  | .pause => whenIdle s (pause s)
  | .resume => whenIdle s (some (resume s))
  | .seekTo offset => whenIdle s (some (seekTo s offset))
  | .next => next s
  | .request lines => request s lines
  | .block data => block s data
  | .finish code httpCode => finish s code httpCode

end MediaFoundation.HttpMedia
