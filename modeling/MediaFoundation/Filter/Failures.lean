import MediaFoundation.Filter.PipelineCalls

/-!
# Failures that reach the caller

Which filters fail in an operation is decided by the states they are in before it and by their
hooks. Whether a failure reaches the caller is decided by where it is in the trees:
`WaitAllState` answers for a next filter with that filter's own code, so that a failure further
down is heard from the next filter and then forgotten.
-/

namespace MediaFoundation.Filters

section Failures

variable (v : Invocation) (vars : FilterId → FilterVars)

-- Filters that fail

def fails (f : FilterId) : Bool := (vars f).curState == .error || v.hook f != .ok

def code (f : FilterId) : Status :=
  if v.op = .prepare ∧ (vars f).curState = .error then (vars f).errCode else v.hook f

/-- An early return of `PrepareDone`: a filter fails before any job comes in between. -/
def aborts : Forest → Bool
  | .nil => false
  | .cons f nexts rest => !v.hasTask f && (fails v vars f || aborts nexts) || aborts rest

/-- The job of the filter returns early, and the filter itself is neither `READY` nor `ERROR`. -/
def stuck (f : FilterId) (nexts : Forest) : Bool :=
  v.op == .prepare && v.hasTask f && !fails v vars f && aborts v vars nexts

-- Failures that WaitAllState answers with

/-- The loop over the next filters ends with an error: so does the last filter that answers with
one, and by itself. `acc` is the error so far. -/
def heard (acc : Bool) : Forest → Bool
  | .nil => acc
  | .cons f nexts rest =>
    heard (if (if fails v vars f then code v vars f != .ok else heard false nexts)
      then fails v vars f else acc) rest

/-- `WaitAllState` of the filter answers with an error. -/
def loud (f : FilterId) (nexts : Forest) : Bool :=
  if fails v vars f then code v vars f != .ok else heard v vars false nexts

/-- No filter that `WaitAllState` comes to is stuck. -/
def Free : Forest → Prop
  | .nil => True
  | .cons f nexts rest =>
    stuck v vars f nexts = false ∧ (fails v vars f = false → Free nexts) ∧ Free rest

/-- The first head filter that answers with an error does so without a timeout before. -/
def HeardFrom : Forest → Prop
  | .nil => False
  | .cons f nexts rest =>
    (stuck v vars f nexts = false ∧ (fails v vars f = false → Free v vars nexts)) ∧
      (loud v vars f nexts = true ∨ HeardFrom rest)

def anyFails (F : Forest) : Bool := F.members.any (fails v vars)

-- The condition

def onTasks : Forest → List FilterId
  | .nil => []
  | .cons f nexts rest =>
    match v.op with
    | .prepare =>
      (if v.hasTask f then f :: nexts.members else onTasks nexts) ++ onTasks rest
    | .start | .resume => (if v.hasTask f then [f] else []) ++ (onTasks nexts ++ onTasks rest)
    | .pause | .stop => []

/-- What `WaitAllState` can see before the task has called the hook is true afterwards too. -/
structure Steady (f : FilterId) : Prop where
  target : (vars f).curState = v.op.target → v.hook f = .ok ∧ (vars f).errCode = .ok
  error : (vars f).curState = .error → ((vars f).errCode = .ok ↔ code v vars f = .ok)

/-- Nothing fails, or some failure reaches the caller. -/
structure Told : Prop where
  steady : ∀ f ∈ onTasks v v.filters, Steady v vars f
  told : (∀ f ∈ v.filters.members, fails v vars f = false) ∨
    v.op = .prepare ∧ aborts v vars v.filters = true ∨ HeardFrom v vars v.filters

end Failures

end MediaFoundation.Filters
