import Mathlib

/-!
# The states of the player

The eight states of the player's state machine (`state.cpp` and the headers
`*_state.h`): what each does with an intent and on entry.

Conventions:

* A `PlayExecutor` answers each call as it likes, also by the calls before it.
  The calls made so far are threaded through as a list.
* `StateId::BUTT` is left out, no state has it. `Exit` does nothing in any state.
* A media source is a number, and a parameter of a type that no state looks for
  is `other`.
-/

namespace MediaFoundation.Player

inductive ErrorCode where
  | endOfStream
  | success
  | errorUnknown
  | errorUnimplemented
  | errorAgain
  | errorInvalidParameterValue
  | errorInvalidParameterType
  | errorInvalidOperation
  | errorUnsupportedFormat
  | errorNotExisted
  | errorTimedOut
  | errorNoMemory
  | errorInvalidState
  | errorPermissionDenied
  | errorNoNotify
  | errorNullPointer
deriving DecidableEq

inductive StateId where
  | idle
  | init
  | preparing
  | ready
  | pause
  | playing
  | stopped
  | eos
deriving DecidableEq

inductive Intent where
  | setSource
  | seek
  | prepare
  | play
  | pause
  | resume
  | stop
  | reset
  | setAttribute
  | notifyReady
  | notifyComplete
  | notifyError
  | intentButt
deriving DecidableEq

inductive Action where
  | transToIdle
  | transToInit
  | transToPreparing
  | transToReady
  | transToPlaying
  | transToPause
  | transToStopped
  | transToEos
  | actionPending
  | actionButt
deriving DecidableEq

inductive SeekMode where
  | seekNextSync
  | seekPreviousSync
  | seekClosestSync
  | seekClosest
deriving DecidableEq

structure SeekInfo where
  hstTime : Int64
  mode : SeekMode
deriving DecidableEq

inductive Param where
  /-- A `shared_ptr<MediaSource>`, which may be null. -/
  | mediaSource (source : Option Nat)
  | seekInfo (info : SeekInfo)
  | errorCode (code : ErrorCode)
  | other
deriving DecidableEq

-- The executor

inductive Call where
  | prepareFilters
  | doSetSource (source : Nat)
  | doPlay
  | doPause
  | doResume
  | doStop
  | doReset
  | doSeek (hstTime : Int64) (mode : SeekMode) (appTriggered : Bool)
  | doOnReady
  | doOnComplete
  | doOnError (errorCode : ErrorCode)
deriving DecidableEq

structure PlayExecutor where
  isSingleLoop : List Call → Bool
  answer : List Call → Call → ErrorCode

structure Returned where
  calls : List Call
  code : ErrorCode
  action : Action

def withoutCall (calls : List Call) (code : ErrorCode) (action : Action) : Returned :=
  ⟨calls, code, action⟩

def PlayExecutor.perform (executor : PlayExecutor) (calls : List Call) (call : Call)
    (action : ErrorCode → Action) : Returned :=
  let ret := executor.answer calls call
  ⟨calls ++ [call], ret, action ret⟩

-- Enter

section States

variable (executor : PlayExecutor) (calls : List Call)

def enter (state : StateId) (intent : Intent) : Returned :=
  match state with
  | .idle => executor.perform calls .doReset fun _ => .actionButt
  | .init => withoutCall calls .success .actionButt
  | .preparing =>
    executor.perform calls .prepareFilters fun rtv =>
      if rtv ≠ .success then .transToInit else .actionButt
  | .ready =>
    executor.perform calls .doOnReady fun rtv =>
      if rtv = .success then .actionButt else .transToInit
  | .playing =>
    executor.perform calls (if intent = .resume then .doResume else .doPlay) fun _ => .actionButt
  | .pause => executor.perform calls .doPause fun _ => .actionButt
  | .stopped => executor.perform calls .doStop fun _ => .actionButt
  | .eos => executor.perform calls .doPause fun _ => .actionButt

-- Execute, intent by intent

/-- What a state does with an intent that it has no function for. -/
def invalidOperation : Returned := withoutCall calls .errorInvalidOperation .actionButt

def setSource (state : StateId) (param : Param) : Returned :=
  match state, param with
  | .idle, .mediaSource (some source) | .init, .mediaSource (some source) =>
    executor.perform calls (.doSetSource source) fun ret =>
      if ret = .success then .transToInit else .actionButt
  | .idle, _ | .init, _ => withoutCall calls .errorInvalidParameterType .actionButt
  | _, _ => invalidOperation calls

def prepare : StateId → Returned
  | .init => withoutCall calls .success .transToPreparing
  | _ => invalidOperation calls

def play : StateId → Returned
  | .preparing => withoutCall calls .success .actionPending
  | .ready => withoutCall calls .success .transToPlaying
  | .playing => withoutCall calls .success .actionButt
  | .pause => withoutCall calls .success .transToPlaying
  | .eos =>
    executor.perform calls (.doSeek 0 .seekPreviousSync false) fun ret =>
      if ret = .success then .transToPlaying else .actionButt
  | _ => invalidOperation calls

def stop : StateId → Returned
  | .init | .preparing | .ready | .playing | .pause | .eos =>
    withoutCall calls .success .transToStopped
  | _ => invalidOperation calls

def reset (_ : StateId) : Returned := withoutCall calls .success .transToIdle

def pause : StateId → Returned
  | .playing => withoutCall calls .success .transToPause
  | .pause => withoutCall calls .success .actionButt
  | _ => invalidOperation calls

def resume : StateId → Returned
  | .pause => withoutCall calls .success .transToPlaying
  | _ => invalidOperation calls

def seek (state : StateId) (param : Param) : Returned :=
  match state, param with
  | .ready, .seekInfo info | .playing, .seekInfo info | .pause, .seekInfo info =>
    executor.perform calls (.doSeek info.hstTime info.mode true) fun _ => .actionButt
  | .ready, _ | .playing, _ | .pause, _ =>
    withoutCall calls .errorInvalidParameterType .actionButt
  | _, _ => invalidOperation calls

def setAttribute (_ : StateId) : Returned := invalidOperation calls

def onReady : StateId → Returned
  | .preparing => withoutCall calls .success .transToReady
  | _ => invalidOperation calls

/-- What the executor answers to `DoOnError` is not looked at. -/
def onError (param : Param) : Returned :=
  let errorCode := match param with
    | .errorCode code => code
    | _ => .errorUnknown
  withoutCall (calls ++ [.doOnError errorCode]) .success .transToInit

/-- In a single loop the answer to `DoSeek` stands for that to `DoOnComplete`. -/
def onComplete : StateId → Returned
  | .playing =>
    let completed := executor.perform calls .doOnComplete fun _ => .transToEos
    if executor.isSingleLoop completed.calls then
      executor.perform completed.calls (.doSeek 0 .seekPreviousSync false) fun _ => .actionButt
    else completed
  | _ => invalidOperation calls

def execute (state : StateId) (intent : Intent) (param : Param) : Returned :=
  match intent with
  | .setSource => setSource executor calls state param
  | .prepare => prepare calls state
  | .seek => seek executor calls state param
  | .play => play executor calls state
  | .pause => pause calls state
  | .resume => resume calls state
  | .stop => stop calls state
  | .reset => reset calls state
  | .setAttribute => setAttribute calls state
  | .notifyReady => onReady calls state
  | .notifyComplete => onComplete executor calls state
  | .notifyError => onError calls param
  | .intentButt => withoutCall calls .success .actionButt

end States

end MediaFoundation.Player
