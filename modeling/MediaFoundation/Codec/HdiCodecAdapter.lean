import MediaFoundation.Lib.Runs

/-!
# HdiCodecAdapter

`plugins/codec_adapter/hdi_codec_adapter.cpp` with `codec_buffer_pool.cpp` and `codec_buffer.cpp`:
buffers that are queued go to the component in the codec buffers of its two ports, and come back
through callbacks.

Conventions:

* A step is what one thread does between two points where another one may come in: what it does
  under a mutex, or one test of the loops. The threads in `HandleFrame` and those on their way to
  `FillAllTheOutBuffer` are lists; whoever is in the latter holds its mutex.
* The component is a list of the codec buffers it holds. It accepts what it is given or not, and
  returns what it holds at any time, in any order.
* `UseBuffers` drops the buffer that the component answers with and files each codec buffer under
  the `bufferId` of its own `OmxCodecBuffer`, which nothing sets: all of them have one id.
* What `Rebind` does with surface and share memory is left out, and so is the data of the output.
  Waiting for the component is left out as well: the results of its commands are part of the events.
* `GetBuffer` with no id pops with a timeout while it holds the mutex that every push takes, so an
  empty list stays empty until the time is over.
* What follows `made` only records what happens.
-/

namespace MediaFoundation.HdiCodec

def bufferFlagEos : UInt64 := 1
def omxBufferFlagEos : UInt32 := 1

/-- The first memory of a `Plugin::Buffer`. -/
inductive Memory where
  | none
  /-- `GetReadOnlyData` returns null. -/
  | unreadable
  | bytes (data : List UInt8)
deriving DecidableEq

structure Buffer where
  pts : Int
  flag : UInt64
  memory : Memory
  bufferMeta : Nat
deriving DecidableEq

def Buffer.hasEos (b : Buffer) : Bool := b.flag &&& bufferFlagEos ≠ 0

def Buffer.payload (b : Buffer) : List UInt8 :=
  match b.memory with
  | .bytes data => data
  | _ => []

-- CodecBuffer

structure CodecBuffer where
  flag : UInt32 := 0
  pts : Int := 0
  filledLen : Nat := 4
  memory : List UInt8

def translate2omxFlagSet (pluginFlags : UInt64) : UInt32 :=
  if pluginFlags = bufferFlagEos then omxBufferFlagEos else 0

def translate2PluginFlagSet (omxBufFlag : UInt32) : UInt64 :=
  if omxBufFlag = omxBufferFlagEos then bufferFlagEos else 0

def writeMemory (memory data : List UInt8) : List UInt8 :=
  data.take memory.length ++ memory.drop data.length

def copy (c : CodecBuffer) (b : Buffer) : CodecBuffer × Bool :=
  let c := { c with
    flag := translate2omxFlagSet b.flag
    pts := b.pts }
  if b.hasEos then (c, true)
  else match b.memory with
    | .none => (c, false)
    | .unreadable => (c, false)
    | .bytes data => ({ c with
        memory := writeMemory c.memory data
        filledLen := data.length }, true)

def rebind (c : CodecBuffer) (b : Buffer) : CodecBuffer :=
  { c with
    flag := translate2omxFlagSet b.flag
    pts := b.pts }

-- CodecBufferPool

structure Pool where
  bufferCnt : Nat
  freeBufferId : List UInt32 := []
  /-- The keys of `codecBufMap_`. -/
  ids : List UInt32 := []
  /-- The ids of the buffers that the component holds. -/
  component : List UInt32 := []

/-- `UseBuffers`, up to the first codec buffer that the component refuses. -/
def Pool.useBuffers (p : Pool) (bufferId : UInt32) : List Bool → Pool
  | [] | false :: _ => p
  | true :: rest =>
    Pool.useBuffers { p with
      ids := if bufferId ∈ p.ids then p.ids else p.ids ++ [bufferId]
      freeBufferId := p.freeBufferId ++ [bufferId] } bufferId rest

def Pool.emptyBufferCount (p : Pool) : Nat := p.freeBufferId.length

def Pool.pop (p : Pool) : Pool × UInt32 :=
  match p.freeBufferId with
  | [] => (p, 0)
  | id :: rest => ({ p with freeBufferId := rest }, id)

def Pool.find (p : Pool) (id : UInt32) : Option UInt32 := if id ∈ p.ids then some id else none

def Pool.getBuffer (p : Pool) (bufferId : Int32) : Pool × Option UInt32 :=
  if 0 ≤ bufferId then (p, p.find bufferId.toUInt32) else (p.pop.1, p.find p.pop.2)

/-- `UseBufferDone`, which blocks when the list is full. -/
def Pool.useBufferDone (p : Pool) (id : UInt32) : Option Pool :=
  if p.freeBufferId.length < p.bufferCnt then
    some { p with freeBufferId := p.freeBufferId ++ [id] }
  else none

def Pool.accepts (p : Pool) (id : UInt32) : Pool := { p with component := p.component ++ [id] }

def Pool.returns (p : Pool) (id : UInt32) : Pool := { p with component := p.component.erase id }

-- The adapter

/-- Where a thread is that has queued an input or brought a codec buffer back. -/
inductive Frame where
  /-- It looks at `isFlushing_`. -/
  | decide
  /-- It tests the number of free buffers. -/
  | check
  | take
  | fill (b : Buffer) (id : UInt32)
  | note (b : Buffer) (id : UInt32)
  | submit (b : Buffer) (id : UInt32)
  | notify (b : Buffer)

inductive Out where
  | queued
  | lookUp (pts : Int)
  | done
  /-- It waits for the mutex of `FillAllTheOutBuffer`. -/
  | enter

inductive Fill where
  | first (i : Nat)
  | firstSubmit (i : Nat) (id : UInt32)
  | loop
  | count
  | get
  | pop (id : UInt32)
  | giveBack (id : UInt32)
  | submit (id : UInt32)
  | undo (id : UInt32)

inductive Flush where
  | idle
  | begun
  | cleared
deriving DecidableEq

/-- What `EmptyThisBuffer` is called with. -/
structure Submitted where
  id : UInt32
  flag : UInt32
  pts : Int
  filledLen : Nat
  bytes : List UInt8
deriving DecidableEq

/-- The meta that an output gets, and the inputs that were queued by then since the last flush. -/
structure Met where
  pts : Int
  bufferMeta : Option Nat
  queued : List Buffer

structure State where
  virtualAddr : Bool
  inBufPool : Pool
  codecBufs : UInt32 → CodecBuffer
  inBufQue : List Buffer := []
  isFlushing : Bool := false
  flush : Flush := .idle
  frames : List Frame := []
  bufferMetaMap : Int → Option Nat := fun _ => none
  outBufPool : Pool
  outBufferCnt : Nat
  outBufQue : Nat := 0
  outActive : Bool := true
  isFirstCall : Bool := true
  /-- `curState_` is `OMX_StateExecuting`. -/
  executing : Bool := false
  outs : List Out := []
  filling : Option Fill := none
  made : Int → Bool := fun _ => false
  /-- The inputs since the last flush; those that a thread has taken and not submitted yet; and
  those that were submitted. -/
  queued : List Buffer := []
  taken : List (Buffer × UInt32) := []
  submitted : List (Buffer × Submitted) := []
  everSubmitted : List Buffer := []
  reported : List Buffer := []
  met : List Met := []

-- The input

/-- The buffer goes to the component in the codec buffer. -/
def submission (s : State) (id : UInt32) : Submitted :=
  let c := s.codecBufs id
  ⟨id, c.flag, c.pts, c.filledLen, c.memory.take c.filledLen⟩

/-- The next step of a thread in `HandleFrame`, and where it is then. `ok` is the result of
`Rebind` or `EmptyThisBuffer`. -/
def frameStep (s : State) (ok : Bool) : Frame → State × Option Frame
  | .decide => (s, if s.isFlushing then none else some .check)
  | .check => (s, if s.inBufPool.emptyBufferCount = 0 then none else some .take)
  | .take =>
    match s.inBufQue with
    | [] => (s, none)
    | b :: rest =>
      match s.inBufPool.getBuffer (-1) with
      | (pool, none) => ({ s with inBufPool := pool }, none)
      | (pool, some id) => ({ s with
          inBufPool := pool
          inBufQue := rest
          taken := s.taken ++ [(b, id)] }, some (.fill b id))
  | .fill b id =>
    let (c, filled) := if s.virtualAddr then copy (s.codecBufs id) b
      else (rebind (s.codecBufs id) b, ok)
    ({ s with codecBufs := Function.update s.codecBufs id c },
      if filled then some (.note b id) else none)
  | .note b id =>
    (if (s.bufferMetaMap b.pts).isSome then s
      else { s with
        bufferMetaMap := Function.update s.bufferMetaMap b.pts (some b.bufferMeta)
        made := Function.update s.made b.pts true }, some (.submit b id))
  | .submit b id =>
    let s := { s with
      taken := s.taken.erase (b, id)
      submitted := s.submitted ++ [(b, submission s id)]
      everSubmitted := s.everSubmitted ++ [b] }
    (if ok then { s with inBufPool := s.inBufPool.accepts id } else s, some (.notify b))
  | .notify b => ({ s with reported := s.reported ++ [b] }, some .check)

def moveTo {α : Type*} (threads : List α) (i : Nat) (thread : Option α) : List α :=
  threads.take i ++ thread.toList ++ threads.drop (i + 1)

def runFrame (s : State) (i : Nat) (ok : Bool) : Option State :=
  s.frames[i]?.map fun f =>
    let (t, f') := frameStep s ok f
    { t with frames := moveTo s.frames i f' }

def queueInputBuffer (s : State) (b : Buffer) : State :=
  if b.memory = .none ∧ b.hasEos = false then s
  else { s with
    inBufQue := s.inBufQue ++ [b]
    queued := s.queued ++ [b]
    frames := s.frames ++ [.decide] }

/-- The callback, up to the end of `UseBufferDone`. -/
def emptyBufferDone (s : State) (bufferId : UInt32) : Option State :=
  if bufferId ∈ s.inBufPool.component then
    ((s.inBufPool.returns bufferId).useBufferDone bufferId).map fun pool =>
      { s with
        inBufPool := pool
        frames := s.frames ++ [.decide] }
  else none

-- Flush

def flushBegin (s : State) : Option State :=
  if s.flush = .idle then some { s with
    isFlushing := true
    flush := .begun }
  else none

def flushClear (s : State) : Option State :=
  if s.flush = .begun then some { s with
    inBufQue := []
    flush := .cleared
    made := fun _ => false
    queued := []
    submitted := [] }
  else none

/-- The commands have succeeded or not. -/
def flushEnd (s : State) (ok : Bool) : Option State :=
  if s.flush = .cleared then some { s with
    isFlushing := if ok then false else s.isFlushing
    flush := .idle }
  else none

-- The output

/-- The next step of a thread on its way to `FillAllTheOutBuffer`. -/
def outStep (s : State) : Out → Option (State × Option Out)
  | .queued => some (s, if s.executing && !s.isFlushing then some .enter else none)
  | .lookUp pts =>
    some ({ s with
      bufferMetaMap := Function.update s.bufferMetaMap pts none
      met := s.met ++ [⟨pts, s.bufferMetaMap pts, s.queued⟩] }, some .done)
  | .done => some (s, if s.isFlushing then none else some .enter)
  | .enter =>
    if s.filling.isSome then none
    else some ({ s with
      isFirstCall := false
      filling := some (if s.isFirstCall then .first 0 else .loop) }, none)

def runOut (s : State) (i : Nat) : Option State :=
  s.outs[i]?.bind fun o => (outStep s o).map fun (t, o') => { t with outs := moveTo s.outs i o' }

/-- The next step in `FillAllTheOutBuffer`. `ok` is the result of `FillThisBuffer`. -/
def fillStep (s : State) (ok : Bool) : Fill → Option (State × Option Fill)
  | .first i =>
    if i < s.outBufferCnt then
      let (pool, found) := s.outBufPool.getBuffer (-1)
      some ({ s with outBufPool := pool }, found.map (.firstSubmit i))
    else some (s, none)
  | .firstSubmit i id =>
    if ok then some ({ s with outBufPool := s.outBufPool.accepts id }, some (.first (i + 1)))
    else some (s, none)
  | .loop => some (s, if s.outBufQue = 0 then none else some .count)
  | .count => some (s, if s.outBufPool.emptyBufferCount = 0 then none else some .get)
  | .get =>
    let (pool, found) := s.outBufPool.getBuffer (-1)
    some ({ s with outBufPool := pool }, found.map .pop)
  | .pop id =>
    if !s.outActive ∨ s.outBufQue = 0 then some (s, some (.giveBack id))
    else some ({ s with outBufQue := s.outBufQue - 1 }, some (.submit id))
  | .giveBack id =>
    (s.outBufPool.useBufferDone id).map fun pool => ({ s with outBufPool := pool }, none)
  | .submit id =>
    if ok then some ({ s with outBufPool := s.outBufPool.accepts id }, some .loop)
    else some (s, some (.undo id))
  | .undo id =>
    (s.outBufPool.useBufferDone id).map fun pool => ({ s with outBufPool := pool }, some .loop)

def runFill (s : State) (ok : Bool) : Option State :=
  s.filling.bind fun f => (fillStep s ok f).map fun (t, f') => { t with filling := f' }

/-- `Push` blocks on a full queue. -/
def queueOutputBuffer (s : State) : Option State :=
  let s' := { s with outs := s.outs ++ [.queued] }
  if !s.outActive then some s'
  else if s.outBufQue < s.outBufferCnt then some { s' with outBufQue := s.outBufQue + 1 }
  else none

/-- The callback, up to the end of `UseBufferDone`. -/
def fillBufferDone (s : State) (bufferId : UInt32) (pts : Int) : Option State :=
  if bufferId ∈ s.outBufPool.component then
    match (s.outBufPool.returns bufferId).getBuffer bufferId.toInt32 with
    | (pool, none) => some { s with outBufPool := pool }
    | (pool, some _) => (pool.useBufferDone bufferId).map fun pool =>
      { s with
        outBufPool := pool
        outs := s.outs ++ [.lookUp pts] }
  else none

def start (s : State) : State :=
  { s with
    executing := true
    outActive := true
    outs := s.outs ++ [.enter] }

def stop (s : State) : State :=
  { s with
    outActive := false
    outBufQue := 0 }

-- Any interleaving

inductive Event where
  | queueInputBuffer (b : Buffer)
  | frame (i : Nat) (ok : Bool)
  | emptyBufferDone (bufferId : UInt32)
  | flushBegin
  | flushClear
  | flushEnd (ok : Bool)
  | queueOutputBuffer
  | out (i : Nat)
  | fill (ok : Bool)
  | fillBufferDone (bufferId : UInt32) (pts : Int)
  | start
  | stop

def step (s : State) : Event → Option State
  | .queueInputBuffer b => some (queueInputBuffer s b)
  | .frame i ok => runFrame s i ok
  | .emptyBufferDone bufferId => emptyBufferDone s bufferId
  | .flushBegin => flushBegin s
  | .flushClear => flushClear s
  | .flushEnd ok => flushEnd s ok
  | .queueOutputBuffer => queueOutputBuffer s
  | .out i => runOut s i
  | .fill ok => runFill s ok
  | .fillBufferDone bufferId pts => fillBufferDone s bufferId pts
  | .start => some (start s)
  | .stop => some (stop s)

/-- After `Prepare`. `bufferId` is what a new `OmxCodecBuffer` has, and the lists say which codec
buffers the component accepts. -/
def prepared (virtualAddr : Bool) (inBufferCnt inBufferSize outBufferCnt : Nat) (bufferId : UInt32)
    (inAnswers outAnswers : List Bool) : State where
  virtualAddr
  inBufPool := Pool.useBuffers { bufferCnt := inBufferCnt } bufferId (inAnswers.take inBufferCnt)
  codecBufs _ := { memory := List.replicate inBufferSize 0 }
  outBufPool :=
    Pool.useBuffers { bufferCnt := outBufferCnt } bufferId (outAnswers.take outBufferCnt)
  outBufferCnt

end MediaFoundation.HdiCodec
