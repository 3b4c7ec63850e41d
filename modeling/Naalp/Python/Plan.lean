import Mathlib.Data.List.AList
import Naalp.Foundation.ReadyQueue
import Naalp.Python.Cbor

/-! The plan orchestrator of `ecosystem/naalp-plan/naalp_plan/orchestrator.py`. The injected bridge,
executor and clock share a world, and every call of the bridge and the executor is recorded with
its answer. Ids and failures are any types; how they print is a parameter.
-/

namespace Naalp.Python.Plan

open Naalp.Foundation

inductive PlanErrorKind where
  | cyclicPlan
  | duplicateTaskId
  | unknownPrerequisite
  deriving DecidableEq, Repr

structure PlanError where
  kind : PlanErrorKind
  msg : String
  deriving DecidableEq, Repr

/-- The action, request and observation of `naalp_react`. -/
structure Action where
  name : PyStr
  channel : Int
  kind : Int
  effect : Int
  args : Cbor.Value
  argsSummary : PyStr := []
  causes : List Bytes := []

structure Request where
  payload : Bytes
  id : Bytes
  deriving DecidableEq

structure Observation where
  ok : Bool
  name : String := ""
  body : Option Cbor.Value := none
  error : Option String := none
  detail : String := ""

structure Task (ι : Type) where
  id : ι
  action : Action
  prereqs : List ι := []

inductive Status where
  | executed
  | refused
  | blocked
  deriving DecidableEq, Repr

structure NodeResult (ι : Type) where
  taskId : ι
  status : Status
  request : Option Request := none
  observation : Option Observation := none
  detail : String := ""

structure PlanRun (ι : Type) where
  order : List ι
  results : AList (fun _ : ι => NodeResult ι)
  startedAt : Int
  finishedAt : Int

/-- `request_id_for`: the id of the request of a task, if one was signed. -/
def PlanRun.requestIdFor {ι : Type} [DecidableEq ι] (planRun : PlanRun ι) (id : ι)
    : Option Bytes := do
  let result ← planRun.results.lookup id
  return (← result.request).id

/-- How an id prints under `%r` and `%s`, a failure with its type, and a missing error. -/
structure Printing (ι ε : Type) where
  repr : ι → String
  str : ι → String
  failure : ε → String
  noError : String

/-- The bridge, the executor and the clock, which may change a world that they share. -/
structure Injected (σ ι ε : Type) where
  actionToRequest : Action → σ → Except ε Request × σ
  executor : Task ι → Request → σ → Except ε Bytes × σ
  responseToObservation : Bytes → Request → σ → Observation × σ
  clock : σ → Int × σ

/-- A call of the bridge or the executor for a task, with its answer. -/
inductive Call (ι ε : Type) where
  | asked (id : ι) (action : Action) (answer : Except ε Request)
  | sent (id : ι) (request : Request) (answer : Except ε Bytes)
  | observed (id : ι) (response : Bytes) (request : Request) (observation : Observation)

def Call.id {ι ε : Type} : Call ι ε → ι
  | .asked id _ _ | .sent id _ _ | .observed id _ _ _ => id

section Ordering

variable {ι ε : Type} [LinearOrder ι] (printing : Printing ι ε)

/-- The dictionary of the tasks by id, in the order of its insertions. -/
def tasksById (tasks : List (Task ι)) : Except PlanError (List (Task ι)) :=
  tasks.foldlM (fun known t => do
    raiseIf (t.id ∈ known.map (·.id)) ⟨.duplicateTaskId,
      "task id " ++ printing.repr t.id ++ " appears more than once in the plan"⟩
    return known ++ [t]) []

def checkPrereqs (known : List (Task ι)) : Except PlanError Unit :=
  forM known fun t => forM t.prereqs fun p =>
    raiseIf (p ∉ known.map (·.id)) ⟨.unknownPrerequisite,
      "task " ++ printing.repr t.id ++ " names unknown prerequisite " ++ printing.repr p⟩

/-- The prerequisites of the task with an id. -/
def prereqsOf (known : List (Task ι)) (id : ι) : List ι :=
  ((known.find? (·.id = id)).map (·.prereqs)).getD []

/-- The error that names the tasks that no order reaches. -/
def cyclicPlan (ids order : List ι) : PlanError where
  kind := .cyclicPlan
  msg := "the plan's task DAG contains a cycle reachable from: "
    ++ ", ".intercalate (((ids.filter (· ∉ order)).insertionSort (· ≤ ·)).map printing.str)

/-- `_topological_order`; its loop has a round for every task. -/
def topologicalOrder (known : List (Task ι)) : Except PlanError (List ι) := do
  let ids := known.map (·.id)
  let counters := countEdges (edgesOf (prereqsOf known) ids)
  let ready := (ids.filter fun id => counters.indegree id = 0).insertionSort (· ≤ ·)
  let (order, _) := drain (· ≤ ·) counters.dependents ids.length
    { indegree := counters.indegree, ready }
  raiseIf (order.length ≠ ids.length) (cyclicPlan printing ids order)
  return order

def validateAndOrder (tasks : List (Task ι)) : Except PlanError (List (Task ι) × List ι) := do
  let known ← tasksById printing tasks
  checkPrereqs printing known
  return (known, ← topologicalOrder printing known)

end Ordering

section Running

variable {σ ι ε : Type} [LinearOrder ι]

/-- The variables of the loop over the tasks, with the world and the calls so far. -/
structure Progress (σ ι ε : Type) where
  world : σ
  results : AList (fun _ : ι => NodeResult ι) := ∅
  requestIds : AList (fun _ : ι => Bytes) := ∅
  calls : List (Call ι ε) := []

def Progress.finish (state : Progress σ ι ε) (result : NodeResult ι) : Progress σ ι ε :=
  { state with results := state.results.insert result.taskId result }

def Progress.executed (state : Progress σ ι ε) (id : ι) : Bool :=
  (state.results.lookup id).map (·.status) = some .executed

def Progress.unresolved (state : Progress σ ι ε) (task : Task ι) : List ι :=
  task.prereqs.filter fun p => state.executed p = false

/-- `replace(task.action, causes=...)`: the request ids of the prerequisites, in order. -/
def Progress.linkedAction (state : Progress σ ι ε) (task : Task ι) : Action :=
  { task.action with causes := task.prereqs.map fun p => (state.requestIds.lookup p).getD [] }

variable (printing : Printing ι ε) (injected : Injected σ ι ε)

/-- The verification of a response. -/
def settleResponse (task : Task ι) (request : Request) (response : Bytes) (state : Progress σ ι ε)
    : Progress σ ι ε :=
  let (observation, world) := injected.responseToObservation response request state.world
  let state := { state with
    world, calls := state.calls ++ [Call.observed task.id response request observation] }
  if observation.ok = false then
    state.finish {
      taskId := task.id, status := .refused, request, observation
      detail := "response verification refused: " ++ observation.error.getD printing.noError }
  else state.finish { taskId := task.id, status := .executed, request, observation }

/-- What follows a signed request. -/
def sendRequest (task : Task ι) (request : Request) (state : Progress σ ι ε) : Progress σ ι ε :=
  let state := { state with requestIds := state.requestIds.insert task.id request.id }
  let (answer, world) := injected.executor task request state.world
  let state := { state with world, calls := state.calls ++ [.sent task.id request answer] }
  match answer with
  | .error failure =>
      state.finish {
        taskId := task.id, status := .refused, request
        detail := "executor failed: " ++ printing.failure failure }
  | .ok response => settleResponse printing injected task request response state

/-- A round of the loop. -/
def runTask (state : Progress σ ι ε) (task : Task ι) : Progress σ ι ε :=
  if state.unresolved task ≠ [] then
    state.finish {
      taskId := task.id, status := .blocked
      detail := "blocked on unresolved prerequisite(s): "
        ++ ", ".intercalate (((state.unresolved task).insertionSort (· ≤ ·)).map printing.str) }
  else
    let action := state.linkedAction task
    let (answer, world) := injected.actionToRequest action state.world
    let state := { state with world, calls := state.calls ++ [.asked task.id action answer] }
    match answer with
    | .error failure =>
        state.finish {
          taskId := task.id, status := .refused
          detail := "request signing/validation refused: " ++ printing.failure failure }
    | .ok request => sendRequest printing injected task request state

/-- The rounds of the loop, over the tasks in the order of their ids. -/
def runOrder (known : List (Task ι)) (order : List ι) (state : Progress σ ι ε) : Progress σ ι ε :=
  order.foldl (fun state id =>
    match known.find? (·.id = id) with
    | some task => runTask printing injected state task
    | none => state) state

/-- The run of an ordered plan: its result, the world after it and the calls. -/
def execute (known : List (Task ι)) (order : List ι) (world : σ)
    : PlanRun ι × σ × List (Call ι ε) :=
  let (startedAt, world) := injected.clock world
  let state := runOrder printing injected known order { world }
  let (finishedAt, world) := injected.clock state.world
  ({ order, results := state.results, startedAt, finishedAt }, world, state.calls)

/-- `PlanOrchestrator.run`. -/
def run (tasks : List (Task ι)) (world : σ) : Except PlanError (PlanRun ι) × σ × List (Call ι ε) :=
  match validateAndOrder printing tasks with
  | .error error => (.error error, world, [])
  | .ok (known, order) =>
      let (planRun, world, calls) := execute printing injected known order world
      (.ok planRun, world, calls)

end Running

end Naalp.Python.Plan
