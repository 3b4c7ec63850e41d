import Naalp.Native.Federation
import Naalp.Python.MultiAgent
import Naalp.Python.Plan

/-! The plan orchestrator of `ecosystem/naalp-agent-go/plan/orchestrator.go`. Where it ranges over a
map, the order is any; the rounds of its loop are those of the Python port.
-/

namespace Naalp.Go.Plan

open Naalp.Foundation
open Naalp.Python
open Naalp.Python.Plan hiding Task

variable {σ ι ε : Type} [LinearOrder ι] (printing : Printing ι ε)

local instance keyLawfulBEq : LawfulBEq ι := instLawfulBEq

/-- The task map, with its entries in the order of the slice. -/
def byID (tasks : List (Plan.Task ι)) : Except PlanError (List (Plan.Task ι)) :=
  tasks.foldlM (fun known t => do
    raiseIf (t.id ∈ known.map (·.id)) ⟨.duplicateTaskId,
      "task id " ++ printing.repr t.id ++ " appears more than once in the plan"⟩
    return known ++ [t]) []

/-- The orders in which the loops over the map and the counters visit their entries. -/
structure MapOrders (ι : Type) where
  checked : List (Plan.Task ι) → List (Plan.Task ι)
  checked_perm : ∀ tasks, (checked tasks).Perm tasks
  counted : List ι → List ι
  counted_perm : ∀ ids, (counted ids).Perm ids
  started : List ι → List ι
  started_perm : ∀ ids, (started ids).Perm ids

variable (orders : MapOrders ι)

def checkPrereqs (known : List (Plan.Task ι)) : Except PlanError Unit :=
  forM (orders.checked known) fun t => forM t.prereqs fun p =>
    raiseIf (p ∉ known.map (·.id)) ⟨.unknownPrerequisite,
      "task " ++ printing.repr t.id ++ " names unknown prerequisite " ++ printing.repr p⟩

/-- `topologicalOrder`; its loop has a round for every task. -/
def topologicalOrder (known : List (Plan.Task ι)) : Except PlanError (List ι) := do
  let ids := known.map (·.id)
  let counters := countEdges (edgesOf (prereqsOf known) (orders.counted ids))
  let ready := ((orders.started ids).filter fun id => counters.indegree id = 0).insertionSort
    (· ≤ ·)
  let (order, _) := drain (· ≤ ·) counters.dependents ids.length
    { indegree := counters.indegree, ready }
  raiseIf (order.length ≠ ids.length) (cyclicPlan printing ids order)
  return order

def validateAndOrder (tasks : List (Plan.Task ι))
    : Except PlanError (List (Plan.Task ι) × List ι) := do
  let known ← byID printing tasks
  checkPrereqs printing orders known
  return (known, ← topologicalOrder printing orders known)

/-- `Orchestrator.Run`. -/
def run (injected : Injected σ ι ε) (tasks : List (Plan.Task ι)) (world : σ)
    : Except PlanError (PlanRun ι) × σ × List (Call ι ε) :=
  match validateAndOrder printing orders tasks with
  | .error error => (.error error, world, [])
  | .ok (known, order) =>
      let (planRun, world, calls) := execute printing injected known order world
      (.ok planRun, world, calls)

end Naalp.Go.Plan

/-! The parallel fan-out of `ecosystem/naalp-agent-go/multiagent/fanout.go`. A verification always
answers with an observation, and the map of the attempts has a zero value for every key.
-/

namespace Naalp.Go.Multiagent

open Naalp.Foundation
open Naalp.Python.Plan (Action Request Observation Printing)
open Naalp.Python.Fanout

variable {ι ε : Type} [DecidableEq ι] (printing : Printing ι ε)

/-- `runBranch`; an observation without an error has the empty one. -/
def runBranch (shared : Bytes) (b : Branch ι ε Observation) : BranchAttempt :=
  match b.linkedRequest shared with
  | .error failure =>
      .refused none none
        ("action build or request signing/validation refused: " ++ printing.failure failure)
  | .ok request =>
      match b.executor request with
      | .error failure =>
          .refused (some request) none ("executor failed: " ++ printing.failure failure)
      | .ok response => checkObservation "" request (b.responseToObservation response request)

/-- A `Fanout`, whose branches have distinct agent ids. -/
structure Fanout (ι ε : Type) where
  branches : List (Branch ι ε Observation)
  distinct : (branches.map (·.agentId)).Nodup

/-- `NewParallelFanout`. -/
def newParallelFanout (branches : List (Branch ι ε Observation))
    : Except MultiAgentError (Fanout ι ε) :=
  match checked : branches.foldlM
      (keepDistinct (·.agentId) fun b => duplicateAgentId printing b.agentId) [] with
  | .error error => .error error
  | .ok _ => .ok { branches, distinct := nodup_of_checked printing checked }

/-- A round of the loop over the channel. -/
def collectAttempt (shared : Bytes) (attempts : AList fun _ : ι => BranchAttempt)
    (b : Branch ι ε Observation) : AList fun _ : ι => BranchAttempt :=
  attempts.insert b.agentId (runBranch printing shared b)

def graphNode (id : Bytes) (causes : List Bytes) : CausalNode Bytes UInt64 :=
  { id, causes, position := 0 }

/-- A round of the loop over the branches. -/
def settleBranch (shared : Bytes) (attempts : AList fun _ : ι => BranchAttempt)
    (state : Settling ι (CausalNode Bytes UInt64)) (b : Branch ι ε Observation)
    : Settling ι (CausalNode Bytes UInt64) :=
  state.settle (fun observation => some (observation.error.getD "")) graphNode shared b.agentId
    ((attempts.lookup b.agentId).getD (.refused none none ""))

/-- `Run`, with the order in which the branches finish. -/
def Fanout.run (fanout : Fanout ι ε) (finished : List (Branch ι ε Observation)) (shared : Bytes)
    : Result (FanoutRun ι) := do
  let attempts := finished.foldl (collectAttempt printing shared) ∅
  let settled := fanout.branches.foldl (settleBranch shared attempts)
    { graphNodes := [graphNode shared []] }
  let order ← Federation.reconcile settled.graphNodes
  return {
    sharedInputId := shared
    branchResults := settled.branchResults
    reconciledOrder := order
  }

end Naalp.Go.Multiagent
