import MediaFoundation.Player.States

/-!
# The states of the recorder

The six states of the recorder's state machine (`state.cpp` and the headers `*_state.h` of the
recorder): what each does with an intent and on entry.

Conventions:

* A `RecorderExecutor` answers each call as it likes, also by the calls before it. The calls made so
  far are threaded through as a list, the last one first.
* The parameters of the intents go to the executor, and are left out. `Exit` does nothing in any
  state.
* The error codes are those of the player.
-/

namespace MediaFoundation.Recorder

open Player (ErrorCode)

inductive StateId where
  | init
  | recordingSetting
  | ready
  | pause
  | recording
  | error
deriving DecidableEq

inductive Intent where
  | setObs
  | setVideoSource
  | setAudioSource
  | setOutputFormat
  | configure
  | prepare
  | start
  | pause
  | resume
  | stop
  | reset
  | notifyReady
  | notifyComplete
  | notifyError
  | intentButt
deriving DecidableEq

inductive Action where
  | transToInit
  | transToRecordingSetting
  | transToReady
  | transToRecording
  | transToPause
  | transToError
  | actionPending
  | actionButt
deriving DecidableEq

-- The executor

inductive Call where
  | doSetVideoSource
  | doSetAudioSource
  | doConfigure
  | doSetOutputFormat
  | doPrepare
  | doStart
  | doPause
  | doResume
  | doStop
  | doReset
  | doOnComplete

structure Called where
  call : Call
  code : ErrorCode

structure RecorderExecutor where
  answer : List Called → Call → ErrorCode

structure Returned where
  calls : List Called
  code : ErrorCode
  action : Action

def withoutCall (calls : List Called) (code : ErrorCode) (action : Action) : Returned :=
  ⟨calls, code, action⟩

/-- Make a call and return its code, with one action on success and another otherwise. -/
def RecorderExecutor.perform (executor : RecorderExecutor) (calls : List Called) (call : Call)
    (success otherwise : Action) : Returned :=
  let ret := executor.answer calls call
  ⟨⟨call, ret⟩ :: calls, ret, if ret = .success then success else otherwise⟩

section States

variable (executor : RecorderExecutor) (calls : List Called)

-- Enter

def enter (state : StateId) (intent : Intent) : Returned :=
  match state with
  | .recording =>
    executor.perform calls (if intent = .resume then .doResume else .doStart) .actionButt
      .actionButt
  | .pause => executor.perform calls .doPause .actionButt .actionButt
  | _ => withoutCall calls .success .actionButt

-- Execute, intent by intent

/-- What a state does with an intent that it has no function for. -/
def invalidOperation : Returned := withoutCall calls .errorInvalidOperation .actionButt

/-- The functions that pass a setting on to the executor. -/
def set (call : Call) : Returned :=
  executor.perform calls call .transToRecordingSetting .actionButt

def setVideoSource : StateId → Returned
  | .init | .recordingSetting => set executor calls .doSetVideoSource
  | _ => invalidOperation calls

def setAudioSource : StateId → Returned
  | .init | .recordingSetting => set executor calls .doSetAudioSource
  | _ => invalidOperation calls

def configure : StateId → Returned
  | .recordingSetting => set executor calls .doConfigure
  | _ => invalidOperation calls

def setOutputFormat : StateId → Returned
  | .recordingSetting => set executor calls .doSetOutputFormat
  | _ => invalidOperation calls

def setObs (_ : StateId) : Returned := invalidOperation calls

def prepare : StateId → Returned
  | .recordingSetting => executor.perform calls .doPrepare .actionButt .transToError
  | _ => invalidOperation calls

def start : StateId → Returned
  | .recordingSetting => withoutCall calls .success .actionPending
  | .ready => withoutCall calls .success .transToRecording
  | .recording => withoutCall calls .success .actionButt
  | .pause => withoutCall calls .success .transToRecording
  | _ => invalidOperation calls

def stop : StateId → Returned
  | .init => withoutCall calls .errorInvalidOperation .transToError
  | .recordingSetting => executor.perform calls .doStop .transToInit .transToError
  | .ready => withoutCall calls .errorInvalidOperation .transToError
  -- the end of the recording is notified with `NOTIFY_COMPLETE`
  | .recording => executor.perform calls .doStop .actionButt .transToError
  | .pause => executor.perform calls .doStop .transToInit .transToError
  | .error => invalidOperation calls

def pause : StateId → Returned
  | .recording => withoutCall calls .success .transToPause
  | .pause => withoutCall calls .success .actionButt
  | _ => invalidOperation calls

def resume : StateId → Returned
  | .recording => withoutCall calls .success .actionButt
  | .pause => withoutCall calls .success .transToRecording
  | _ => invalidOperation calls

/-- What the executor answers to `DoReset` is only logged. -/
def reset (_ : StateId) : Returned :=
  withoutCall (executor.perform calls .doReset .actionButt .actionButt).calls .success .transToInit

def onReady : StateId → Returned
  | .recordingSetting => withoutCall calls .success .transToReady
  | _ => invalidOperation calls

def onError (_ : StateId) : Returned := withoutCall calls .success .transToError

def onComplete : StateId → Returned
  | .init => executor.perform calls .doOnComplete .actionButt .actionButt
  | .recording => executor.perform calls .doOnComplete .transToInit .actionButt
  | _ => withoutCall calls .success .actionButt

def execute (state : StateId) (intent : Intent) : Returned :=
  match intent with
  | .setObs => setObs calls state
  | .setVideoSource => setVideoSource executor calls state
  | .setAudioSource => setAudioSource executor calls state
  | .setOutputFormat => setOutputFormat executor calls state
  | .configure => configure executor calls state
  | .prepare => prepare executor calls state
  | .start => start calls state
  | .pause => pause calls state
  | .resume => resume calls state
  | .stop => stop executor calls state
  | .reset => reset executor calls state
  | .notifyReady => onReady calls state
  | .notifyComplete => onComplete executor calls state
  | .notifyError => onError calls state
  | .intentButt => withoutCall calls .success .actionButt

end States

end MediaFoundation.Recorder
