import MediaFoundation.Lib.Runs

/-!
# PipelineCore

`pipeline_core.cpp`, with the ports of `port.cpp` and what `filter_base.cpp` does
with them.

Conventions:

* Filters and ports are names of objects, so that two of them are the same or
  not. The name and the owner of a port never change.
* A hook of a filter (`Init`, `Prepare`, `Stop`, …) calls back by events of its
  own. `InitPorts` is virtual: the ports it makes come with the event.
* Filters are not null, as every caller has it. A port that a weak pointer
  points to is gone when its owner does not list it any more.
* An in-degree is an `Int`. The `size_t` of the source wraps below zero, and no
  run has the edges to count it down to zero from there.
-/

namespace MediaFoundation.PipelineCore

-- Filters and ports

def portNameDefault : String := "default"

structure Ports (F I O : Type) where
  inName : I → String
  inOwner : I → Option F
  emptyIn : I
  emptyIn_owner : inOwner emptyIn = none
  outName : O → String
  outOwner : O → Option F
  emptyOut : O
  emptyOut_owner : outOwner emptyOut = none

inductive FilterState where
  | created
  | initialized
  | preparing
  | ready
  | running
  | paused
deriving DecidableEq

/-- The pipeline, and of every filter the pipeline that `Init` gave it to (this one
is `some 0`) and its ports. -/
structure State (F I O : Type) where
  readyEventCnt : Nat := 0
  state : FilterState := .created
  filters : List F := []
  filtersToRemove : List F := []
  ownerPipeline : F → Option Nat
  inPorts : F → List I
  outPorts : F → List O
  prevPort : I → Option O
  nextPort : O → Option I

variable {F I O : Type} [DecidableEq F] [DecidableEq I] [DecidableEq O]

namespace State

variable (W : Ports F I O) (s : State F I O)

def getInPort (f : F) (name : String) : I :=
  ((s.inPorts f).find? fun port => W.inName port = name).getD W.emptyIn

def getOutPort (f : F) (name : String) : O :=
  ((s.outPorts f).find? fun port => W.outName port = name).getD W.emptyOut

def lock (port : I) : Option O :=
  (s.prevPort port).filter fun out =>
    match W.outOwner out with
    | some f => out ∈ s.outPorts f
    | none => true

def inConnect (port : I) (peer : O) : State F I O :=
  if port = W.emptyIn then s else { s with prevPort := Function.update s.prevPort port (some peer) }

def inDisconnect (port : I) : State F I O :=
  { s with prevPort := Function.update s.prevPort port none }

def inSamePipeline (port : O) (peer : I) : Bool :=
  match (W.outOwner port).bind s.ownerPipeline, (W.inOwner peer).bind s.ownerPipeline with
  | some pipeline1, some pipeline2 => pipeline1 = pipeline2
  | _, _ => false

def outConnect (port : O) (peer : I) : Bool × State F I O :=
  if port = W.emptyOut then (true, s)
  else if s.inSamePipeline W port peer then
    (true, { s with nextPort := Function.update s.nextPort port (some peer) })
  else (false, s)

def outDisconnect (port : O) : State F I O :=
  { s with nextPort := Function.update s.nextPort port none }

def unlinkPrev (port : I) : State F I O :=
  let peer := s.lock W port
  let s := s.inDisconnect port
  match peer with
  | some out => s.outDisconnect out
  | none => s

def unlinkPrevFilters (f : F) : State F I O := (s.inPorts f).foldl (unlinkPrev W) s

def getNextFilters (f : F) : List F :=
  (s.outPorts f).filterMap fun port => (s.nextPort port).bind W.inOwner

def getPreFilters (f : F) : List F :=
  (s.inPorts f).filterMap fun port => (s.lock W port).bind W.outOwner

end State

-- ReorderFilters

structure FilterNode (F : Type) where
  inDegree : Int
  filter : F
  nexts : List Nat := []

def mapInfo (filters : List F) (f : F) : Nat :=
  filters.zipIdx.foldl (fun index x => if x.1 = f then x.2 else index) 0

/-- The nodes, and the stack with its top first. -/
def constructGraph (filters : List F) (pre next : F → List F) : List (FilterNode F) × List Nat :=
  let graph := filters.map fun f => { inDegree := (pre f).length, filter := f }
  let stack := filters.zipIdx.foldl (fun stack x => if (pre x.1).isEmpty then x.2 :: stack else stack) []
  let graph := filters.foldl (fun graph f =>
    graph.modify (mapInfo filters f) fun node =>
      { node with nexts := node.nexts ++ (next f).map (mapInfo filters) }) graph
  (graph, stack)

def releaseEdge (x : List (FilterNode F) × List Nat) (idx : Nat) : List (FilterNode F) × List Nat :=
  let graph := x.1.modify idx fun node => { node with inDegree := node.inDegree - 1 }
  (graph, if (graph[idx]?.map FilterNode.inDegree) = some 0 then idx :: x.2 else x.2)

/-- `none` when the rounds do not suffice to empty the stack. -/
def reorderLoop : Nat → List (FilterNode F) → List Nat → List F → Option (List F)
  | 0, _, _, _ => none
  | _ + 1, _, [], result => some result
  | fuel + 1, graph, cur :: stack, result =>
    graph[cur]?.bind fun node =>
      let x := node.nexts.foldl releaseEdge (graph, stack)
      reorderLoop fuel x.1 x.2 (result ++ [node.filter])

def reorderFilters (filters : List F) (pre next : F → List F) : Option (List F) :=
  let x := constructGraph filters pre next
  (reorderLoop (filters.length + 1) x.1 x.2 []).map fun result =>
    if result.length = filters.length then result else filters

-- The calls

/-- `Stop` is its beginning, the calls that the filters make, and the removals at
its end, which it does not reach when a filter fails. -/
inductive Event (F I O : Type) where
  | init
  | prepare
  | start
  | pause
  | resume (success : Bool)
  | stop
  | stopped
  | addFilters (filtersIn : List F) (initPorts : F → List I × List O)
  | removeFilter (filter : F)
  | removeFilterChain (firstFilter : Option F) (rounds : Nat)
  | linkFilters (filters : List F)
  | linkPorts (port1 : O) (port2 : I)
  | ready (filter : F)
  /-- A filter changes its lists of ports, as the demuxer and the muxer do. -/
  | setPorts (filter : F) (inPorts : List I) (outPorts : List O)

namespace State

variable (W : Ports F I O) (s : State F I O)

def filtersToAdd (filtersIn : List F) : List F := filtersIn.filter fun f => f ∉ s.filters

def addFilters (filtersIn : List F) (initPorts : F → List I × List O) : State F I O :=
  let filtersToAdd := s.filtersToAdd filtersIn
  { s with
    filters := s.filters ++ filtersToAdd
    ownerPipeline := fun f => if f ∈ filtersToAdd then some 0 else s.ownerPipeline f
    inPorts := fun f => if f ∈ filtersToAdd then (initPorts f).1 else s.inPorts f
    outPorts := fun f => if f ∈ filtersToAdd then (initPorts f).2 else s.outPorts f }

def removeFilter (f : F) : State F I O := { s with filters := s.filters.erase f }

/-- The loop of `RemoveFilterChain`, which need not end. -/
def removeChain : Nat → State F I O → List F → Option (State F I O)
  | _, s, [] => some s
  | 0, _, _ :: _ => none
  | rounds + 1, s, f :: levelFilters =>
    let s := s.unlinkPrevFilters W f
    let s := { s with filtersToRemove := s.filtersToRemove ++ [f] }
    removeChain rounds s (levelFilters ++ s.getNextFilters W f)

def linkFilters : State F I O → List F → State F I O
  | s, f :: g :: filters =>
    let port1 := s.getOutPort W f portNameDefault
    let port2 := s.getInPort W g portNameDefault
    linkFilters ((s.outConnect W port1 port2).2.inConnect W port2 port1) (g :: filters)
  | s, _ => s

def linkPorts (port1 : O) (port2 : I) : State F I O :=
  let x := s.outConnect W port1 port2
  if x.1 then x.2.inConnect W port2 port1 else x.2

def reorder : Option (List F) :=
  reorderFilters s.filters (s.getPreFilters W) (s.getNextFilters W)

/-- Whether an `EVENT_READY` that comes now is forwarded. -/
def forwards : Prop := s.readyEventCnt + 1 = s.filters.length

instance : Decidable s.forwards := inferInstanceAs (Decidable (_ = _))

def onReady : State F I O :=
  if s.forwards then { s with readyEventCnt := 0, state := .ready }
  else { s with readyEventCnt := s.readyEventCnt + 1 }

def pause : State F I O :=
  if s.state = .ready ∨ s.state = .running then { s with state := .paused } else s

end State

def step (W : Ports F I O) (s : State F I O) : Event F I O → Option (State F I O)
  | .init => some { s with state := .initialized }
  | .prepare => (s.reorder W).map fun filters => { s with state := .preparing, filters }
  | .start => some { s with state := .running }
  | .pause => some s.pause
  | .resume success => some (if success then { s with state := .running } else s)
  | .stop => some { s with readyEventCnt := 0, state := .initialized, filtersToRemove := [] }
  | .stopped => some (s.filtersToRemove.foldl State.removeFilter s)
  | .addFilters filtersIn initPorts => some (s.addFilters filtersIn initPorts)
  | .removeFilter f => some (s.removeFilter f)
  | .removeFilterChain none _ => some s
  | .removeFilterChain (some f) rounds => State.removeChain W rounds s [f]
  | .linkFilters filters => some (State.linkFilters W s filters)
  | .linkPorts port1 port2 => some (s.linkPorts W port1 port2)
  | .ready _ => some s.onReady
  | .setPorts f inPorts outPorts =>
    some { s with
      inPorts := Function.update s.inPorts f inPorts
      outPorts := Function.update s.outPorts f outPorts }

/-- The filters in the order in which `Prepare`, `Start`, `Pause`, `Resume` and `Stop`
call them. -/
def visits (s : State F I O) : List F := s.filters.reverse

end MediaFoundation.PipelineCore
