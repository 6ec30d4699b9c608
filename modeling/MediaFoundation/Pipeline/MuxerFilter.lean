import MediaFoundation.Lib.Runs

/-!
# MuxerFilter

`pipeline/filters/muxer/muxer_filter.cpp`: the tracks of a recording are pushed into one muxer
plug-in, and the end of the last one ends the recording.

Conventions:

* The port `i` is the `i`-th port that `AddTrack` has added. The parameters of the tracks and what
  the capabilities and metas contain are left out, so what the plug-ins and the downstream filter
  answer is part of the event.
* `PushData` is what its thread does under `pushDataMutex_`; then the thread looks at the tracks
  without the mutex (`checkEos`) and may go into `SendEos` (`endByTrack`). Each track has one
  thread, so a port that is in `checking` or `ending` pushes nothing else.
* `Resume` of the base class calls `Start`, which is the one of the muxer.
* What follows `started` only records what happens: whether the filter has been started and not
  negotiated again, and the calls, the data and the ends since it was started.
-/

namespace MediaFoundation.Muxer

inductive FilterState where
  | created
  | initialized
  | preparing
  | ready
  | running
  | paused
deriving DecidableEq

structure AVBuffer where
  memory : List UInt8
  eos : Bool
deriving DecidableEq

structure TrackInfo where
  trackId : Int
  inPort : Nat
  eos : Bool

/-- A call of the plug-in, or the end that goes downstream. -/
inductive Call where
  | writeHeader
  | writeFrame (buffer : AVBuffer)
  | writeTrailer
  | pushEos
deriving DecidableEq

structure State where
  state : FilterState := .initialized
  inPorts : Nat := 0
  trackInfos : List TrackInfo := []
  plugin : Bool := false
  capabilityCache : List Nat := []
  metaCache : List Nat := []
  hasWriteHeader : Bool := false
  eos : Bool := false
  eosTrackCnt : Nat := 0
  /-- The ports whose thread has pushed and not looked at the tracks yet. -/
  checking : List Nat := []
  /-- The ports whose thread is on its way into `SendEos`. -/
  ending : List Nat := []
  started : Bool := false
  /-- The number of ports when the filter was started. -/
  tracks : Nat := 0
  log : List Call := []
  /-- Something was accepted, if only an empty buffer. -/
  pushed : Bool := false
  /-- The buffers that were accepted and are not empty. -/
  accepted : List AVBuffer := []
  /-- The ports whose end was accepted. -/
  delivered : List Nat := []
  /-- Somebody else has called `SendEos`. -/
  asked : Bool := false

def init : State := {}

-- AddTrack, Prepare and Negotiate

def addTrack (s : State) : State :=
  if s.state ≠ .initialized then s else { s with inPorts := s.inPorts + 1 }

def prepare (s : State) : State :=
  if s.state = .initialized then { s with state := .preparing } else s

inductive Found where
  /-- There is no candidate, or the downstream filter refuses. -/
  | nothing
  /-- The plug-in could not be created. -/
  | failed
  | plugin

def negotiate (s : State) (inPort : Nat) (found : Found) : State × Bool :=
  if s.state ≠ .preparing then (s, false)
  else
    let s := { s with
      hasWriteHeader := false
      capabilityCache := s.capabilityCache ++ [inPort]
      started := false }
    if s.capabilityCache.length < s.inPorts then (s, true)
    else match found with
      | .nothing => (s, false)
      | .failed => ({ s with plugin := false }, false)
      | .plugin => ({ s with plugin := true }, true)

-- Configure

/-- The answers to `Configure`: the meta has a MIME type, the downstream filter agrees, the id of
the `i`-th track that is added, and `Prepare` and `Start` of the plug-in succeed. -/
structure Answers where
  mime : Bool
  downstream : Bool
  addTrack : Nat → Option Int
  prepare : Bool
  start : Bool

/-- The loop of `ConfigureToStart`: the tracks up to the first one that is refused. -/
def addTracks (addTrack : Nat → Option Int) : Nat → List Nat → List TrackInfo × Bool
  | _, [] => ([], true)
  | i, inPort :: rest =>
    match addTrack i with
    | none => ([], false)
    | some trackId =>
      let (infos, ok) := addTracks addTrack (i + 1) rest
      (⟨trackId, inPort, false⟩ :: infos, ok)

def configureToStart (s : State) (answers : Answers) : State × Bool :=
  let (infos, ok) := addTracks answers.addTrack 0 s.metaCache
  ({ s with trackInfos := s.trackInfos ++ infos }, ok && answers.prepare && answers.start)

def configure (s : State) (inPort : Nat) (answers : Answers) : State × Bool :=
  if !answers.mime then (s, false)
  else
    let s := { s with metaCache := s.metaCache ++ [inPort] }
    if s.metaCache.length < s.inPorts then (s, true)
    else if !s.plugin then (s, false)
    else if !answers.downstream then (s, false)
    else match configureToStart s answers with
      | (s, true) => ({ s with state := .ready }, true)
      | (s, false) => (s, false)

-- Start, Pause, Resume and Stop

def start (s : State) : State := { s with
  eos := false
  state := .running }

def startRecording (s : State) : State := { start s with
  started := true
  tracks := s.inPorts
  log := []
  pushed := false
  accepted := []
  delivered := []
  asked := false }

def pause (s : State) : State := { s with state := .paused }

def resume (s : State) : State := start s

def stop (s : State) : State := { s with state := .initialized }

-- PushData and SendEos

def State.allTracksEos (s : State) : Bool := decide (s.eosTrackCnt = s.trackInfos.length)

def updateEosState (s : State) (inPort : Nat) : State :=
  let trackInfos := s.trackInfos.map fun item =>
    if item.inPort = inPort then { item with eos := true } else item
  { s with
    trackInfos
    eosTrackCnt := trackInfos.countP TrackInfo.eos }

/-- The state lets data in, and the recording has not ended. -/
def State.accepts (s : State) : Bool :=
  (s.state == .ready || s.state == .paused || s.state == .running) && !s.eos

def write (s : State) (buffer : AVBuffer) : List Call :=
  (if s.hasWriteHeader then [] else [.writeHeader]) ++
    if buffer.memory = [] then [] else [.writeFrame buffer]

/-- `PushData` under the mutex. Without a plug-in a null pointer is followed. -/
def pushData (s : State) (inPort : Nat) (buffer : AVBuffer) : Option State :=
  if !s.accepts then some s
  else if !s.plugin then none
  else
    let s := { s with
      hasWriteHeader := true
      log := s.log ++ write s buffer
      pushed := true
      accepted := if buffer.memory = [] then s.accepted else s.accepted ++ [buffer] }
    let s := if buffer.eos then
        updateEosState { s with delivered := s.delivered ++ [inPort] } inPort
      else s
    some { s with checking := s.checking ++ [inPort] }

/-- `PushData` after the mutex. -/
def checkEos (s : State) (inPort : Nat) : Option State :=
  if inPort ∈ s.checking then
    let s := { s with checking := s.checking.erase inPort }
    some (if s.allTracksEos then { s with ending := s.ending ++ [inPort] } else s)
  else none

def sendEos (s : State) : State :=
  { s with
    eos := true
    log := s.log ++ (if s.hasWriteHeader && s.plugin then [.writeTrailer] else []) ++ [.pushEos]
    hasWriteHeader := false
    metaCache := [] }

-- Any interleaving

inductive Event where
  | addTrack
  | prepare
  | negotiate (inPort : Nat) (found : Found)
  | configure (inPort : Nat) (answers : Answers)
  | start
  | pause
  | resume
  | stop
  | pushData (inPort : Nat) (buffer : AVBuffer)
  | checkEos (inPort : Nat)
  | endByTrack (inPort : Nat)
  | sendEos

/-- A call through a port that exists. -/
def onPort (s : State) (inPort : Nat) (result : Option State) : Option State :=
  if inPort < s.inPorts then result else none

def step (s : State) : Event → Option State
  | .addTrack => some (addTrack s)
  | .prepare => some (prepare s)
  | .negotiate inPort found => onPort s inPort (some (negotiate s inPort found).1)
  | .configure inPort answers => onPort s inPort (some (configure s inPort answers).1)
  | .start => some (startRecording s)
  | .pause => some (pause s)
  | .resume => some (resume s)
  | .stop => some (stop s)
  | .pushData inPort buffer =>
    if inPort ∈ s.checking ∨ inPort ∈ s.ending then none
    else onPort s inPort (pushData s inPort buffer)
  | .checkEos inPort => checkEos s inPort
  | .endByTrack inPort =>
    if inPort ∈ s.ending then
      some (sendEos { s with ending := s.ending.erase inPort })
    else none
  | .sendEos => some { sendEos s with asked := true }

end MediaFoundation.Muxer
