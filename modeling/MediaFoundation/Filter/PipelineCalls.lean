import MediaFoundation.Basic
import MediaFoundation.Lib.Runs

/-!
# Pipeline and its filters

`Prepare`, `Start`, `Pause`, `Resume` and `Stop` of `pipeline.cpp`, with the functions of the
filters that they call (`filter.cpp`): the calls down the trees of filters, the jobs that
filters with a task submit, and `WaitAllState`. One operation is a machine of several threads:
the caller, and the jobs.

Conventions:

* The filters of `nextFiltersMap_`, in the order of its iteration, are a list. Filters do not
  gain next filters meanwhile. `filters_.clear()`, at the end of `Stop`, is left out.
* `hook f` is what the hook of the operation (`DoPrepare` for `Prepare`, and so on) returns.
* `SetErrCode` and the `ChangeState` after it are one step: `WaitAllState` looks at the state
  of a filter once, and at its code only afterwards.
* `Start`, `Pause` and `Stop` of a task change no state of a filter, and are left out.
* A wait runs into its timeout when no job is left that could end it: every job finishes
  before 30 s are over.
-/

namespace MediaFoundation.Filters

-- Filters

inductive FilterState where
  | created
  | initialized
  | preparing
  | ready
  | running
  | paused
  | frozen
  | stopped
  | released
  | error
deriving DecidableEq

def errorTimedOut : Status := .unlisted (-10)

def errorInvalidOperation : Status := .unlisted (-17)

abbrev FilterId := Nat

inductive Forest where
  | nil
  | cons (filter : FilterId) (nextFilters rest : Forest)

def Forest.members : Forest → List FilterId
  | nil => []
  | cons f nexts rest => f :: (nexts.members ++ rest.members)

structure FilterVars where
  curState : FilterState := .initialized
  errCode : Status := .ok

def FilterVars.changeState (v : FilterVars) (state : FilterState) : FilterVars :=
  { v with
    curState := if state = .released then state
      else if v.curState = .error then .error else state }

def FilterVars.setErrCode (v : FilterVars) (errCode : Status) : FilterVars := { v with errCode }

inductive Operation where
  | prepare
  | start
  | pause
  | resume
  | stop
deriving DecidableEq

def Operation.target : Operation → FilterState
  | prepare => .ready
  | start => .running
  | pause => .paused
  | resume => .running
  | stop => .stopped

/-- `Pause` and `Stop` go on after an error, the others return it. -/
def Operation.goesOn : Operation → Bool
  | pause => true
  | stop => true
  | _ => false

structure Invocation where
  filters : Forest
  hasTask : FilterId → Bool
  op : Operation
  hook : FilterId → Status

-- The calls down the trees

/-- What a thread does on its way down. -/
inductive Action where
  /-- `PrepareDone`, up to the loop over the next filters. -/
  | enter (f : FilterId)
  /-- The end of `PrepareDone`. -/
  | ready (f : FilterId)
  | done (f : FilterId)
  | submit (f : FilterId) (nextFilters : Forest)
  /-- The pipeline looks at what a head filter without a task returned. -/
  | returned (f : FilterId)

section Calls

variable (hasTask : FilterId → Bool)

def prepareActions : Forest → List Action
  | .nil => []
  | .cons f nexts rest =>
    (if hasTask f then [.submit f nexts]
      else .enter f :: (prepareActions nexts ++ [.ready f])) ++ prepareActions rest

def startActions : Forest → List Action
  | .nil => []
  | .cons f nexts rest =>
    (if hasTask f then .submit f nexts :: startActions nexts
      else startActions nexts ++ [.done f]) ++ startActions rest

def pauseActions : Forest → List Action
  | .nil => []
  | .cons f nexts rest => .done f :: (pauseActions nexts ++ pauseActions rest)

/-- The loop of `Pipeline::Start` and `Pipeline::Resume` over the head filters. -/
def startHeads : Forest → List Action
  | .nil => []
  | .cons f nexts rest =>
    (if hasTask f then .submit f nexts :: startActions hasTask nexts
      else startActions hasTask nexts ++ [.done f, .returned f]) ++ startHeads rest

/-- The loop of `Pipeline::Pause` and `Pipeline::Stop` over the head filters. -/
def pauseHeads : Forest → List Action
  | .nil => []
  | .cons f nexts rest =>
    .done f :: (pauseActions nexts ++ .returned f :: pauseHeads rest)

end Calls

def jobActions (v : Invocation) (f : FilterId) (nextFilters : Forest) : List Action :=
  match v.op with
  | .prepare => .enter f :: (prepareActions v.hasTask nextFilters ++ [.ready f])
  | _ => [.done f]

def headActions (v : Invocation) : List Action :=
  match v.op with
  | .prepare => prepareActions v.hasTask v.filters
  | .start => startHeads v.hasTask v.filters
  | .resume => startHeads v.hasTask v.filters
  | .pause => pauseHeads v.filters
  | .stop => pauseHeads v.filters

-- WaitAllState

inductive Wait where
  | wait (f : FilterId) (nextFilters : Forest)
  /-- `if (filter->WaitAllState(state) != Status::OK)`, after the call. -/
  | merge (f : FilterId)
  | leave
  /-- The pipeline looks at what the call for a head filter returned. -/
  | head

def waitLoop : Forest → List Wait
  | .nil => []
  | .cons f nexts rest => .wait f nexts :: .merge f :: waitLoop rest

def waitHeads : Forest → List Wait
  | .nil => []
  | .cons f nexts rest => .wait f nexts :: .head :: waitHeads rest

-- The threads

structure Config where
  vars : FilterId → FilterVars
  calls : List Action
  waits : List Wait
  last : Status := .ok
  /-- `res` of the loops that the caller is in. -/
  results : List Status := []
  ret : Status := .ok
  /-- What the operation returned. -/
  result : Option Status := none
  /-- The jobs that have been submitted and are not finished. -/
  jobs : List (List Action) := []
  hookFailed : Bool := false
  /-- Some wait ran into its timeout. -/
  timedOut : Bool := false

/-- The operation is called when no job of an earlier one is left. -/
def Invocation.begin (v : Invocation) (vars : FilterId → FilterVars) : Config where
  vars
  calls := headActions v
  waits := waitHeads v.filters

namespace Config

def setVars (c : Config) (f : FilterId) (w : FilterVars) : Config :=
  { c with vars := Function.update c.vars f w }

def callHook (c : Config) (f : FilterId) (ret : Status) : Config :=
  { c.setVars f ((c.vars f).setErrCode ret) with hookFailed := c.hookFailed || ret != .ok }

def changeState (c : Config) (f : FilterId) (state : FilterState) : Config :=
  c.setVars f ((c.vars f).changeState state)

/-- One action, and the code if the thread returns there. -/
def act (v : Invocation) (c : Config) : Action → Config × Option Status
  | .enter f =>
    if (c.vars f).curState = .error then (c, some errorInvalidOperation)
    else if v.hook f = .ok then (c.callHook f .ok, none)
    else ((c.callHook f (v.hook f)).changeState f .error, some (v.hook f))
  | .ready f => (c.changeState f .ready, none)
  | .done f =>
    ((c.callHook f (v.hook f)).changeState f (if v.hook f = .ok then v.op.target else .error),
      none)
  | .submit f nextFilters => ({ c with jobs := c.jobs ++ [jobActions v f nextFilters] }, none)
  | .returned f =>
    if v.hook f = .ok then (c, none)
    else if v.op.goesOn then ({ c with ret := v.hook f }, none)
    else (c, some (v.hook f))

/-- The caller, in `WaitAllState` or between two calls of it. -/
def waitStep (v : Invocation) (c : Config) : Option Config :=
  match c.waits with
  | [] => some { c with result := some c.ret }
  | .wait f nexts :: waits =>
    if (c.vars f).curState = v.op.target then
      some { c with waits := waitLoop nexts ++ .leave :: waits, results := .ok :: c.results }
    else if v.op.target ≠ .released ∧ (c.vars f).curState = .error then
      some { c with waits, last := (c.vars f).errCode }
    else if c.jobs = [] then
      some { c.setVars f ((c.vars f).setErrCode errorTimedOut) with
        waits
        last := errorTimedOut
        timedOut := true }
    else none
  | .merge f :: waits =>
    if c.last = .ok then some { c with waits }
    else some { c with waits, results := (c.vars f).errCode :: c.results.tail }
  | .leave :: waits =>
    some { c with waits, last := c.results.headD .ok, results := c.results.tail }
  | .head :: waits =>
    if c.last = .ok then some { c with waits }
    else if v.op.goesOn then some { c with waits, ret := c.last }
    else some { c with waits, result := some c.last }

end Config

inductive Thread where
  | caller
  | job (i : Nat)

def step (v : Invocation) (c : Config) : Thread → Option Config
  | .caller =>
    if c.result.isSome then none
    else match c.calls with
      | [] => c.waitStep v
      | a :: calls =>
        match { c with calls }.act v a with
        | (c, none) => some c
        | (c, some ret) => some { c with result := some ret }
  | .job i =>
    match c.jobs[i]? with
    | none => none
    | some [] => some { c with jobs := c.jobs.eraseIdx i }
    | some (a :: job) =>
      match { c with jobs := c.jobs.set i job }.act v a with
      | (c, none) => some c
      | (c, some _) => some { c with jobs := c.jobs.eraseIdx i }

-- The property

/-- What is reported is the truth: no error means that every filter is in the state, and a hook
that failed means an error, without a timeout. -/
def Truthful (v : Invocation) (c : Config) : Prop :=
  ∀ ret, c.result = some ret →
    (ret = .ok → ∀ f ∈ v.filters.members, (c.vars f).curState = v.op.target) ∧
      (c.hookFailed = true → ret ≠ .ok ∧ c.timedOut = false)

end MediaFoundation.Filters
