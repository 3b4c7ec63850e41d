import Naalp.Foundation.Loops
import Naalp.Python.Federation
import Naalp.Python.Plan

/-! The parallel fan-out and the sequential pipeline of
`ecosystem/naalp-multiagent/naalp_multiagent`. What the injected parts of a branch answer is a
parameter, and so is the order in which the branches finish. The parts that
`ecosystem/naalp-agent-go/multiagent/fanout.go` has in the same words are generic in the answer of
the verification and in the nodes of the causal graph. The injected parts of the stages of a
pipeline share a world, and every call of one is recorded with its answer.
-/

namespace Naalp.Python.Fanout

open Naalp.Foundation
open Naalp.Python.Plan (Action Request Observation Printing)
open Naalp.Python.Federation (CausalNode)

inductive MultiAgentErrorKind where
  | duplicateAgentId
  deriving DecidableEq, Repr

structure MultiAgentError where
  kind : MultiAgentErrorKind
  msg : String
  deriving DecidableEq, Repr

/-- A branch: its agent, and what its executor and its bridge answer. -/
structure Branch (ι ε ω : Type) where
  agentId : ι
  buildAction : Bytes → Except ε Action
  actionToRequest : Action → Except ε Request
  executor : Request → Except ε Bytes
  responseToObservation : Bytes → Request → ω

inductive Status where
  | executed
  | excluded
  deriving DecidableEq, Repr

structure BranchResult (ι : Type) where
  agentId : ι
  status : Status
  request : Option Request := none
  observation : Option Observation := none
  error : Option String := some ""
  detail : String := ""

structure FanoutRun (ι : Type) where
  sharedInputId : Bytes
  branchResults : AList (fun _ : ι => BranchResult ι)
  reconciledOrder : List Bytes

/-- `_BranchAttempt`, by its status. -/
inductive BranchAttempt where
  | executed (request : Request) (observation : Observation)
  | refused (request : Option Request) (observation : Option Observation) (detail : String)
  deriving Inhabited

section Attempts

variable {ι ε ω : Type} (printing : Printing ι ε)

/-- The request for the action of the branch, which is linked to the shared input alone. -/
def Branch.linkedRequest (b : Branch ι ε ω) (shared : Bytes) : Except ε Request := do
  let action ← b.buildAction shared
  b.actionToRequest { action with causes := [shared] }

/-- The end of an attempt, with the text of an error that is missing. -/
def checkObservation (noError : String) (request : Request) (observation : Observation)
    : BranchAttempt :=
  if observation.ok = false then
    .refused (some request) (some observation)
      ("response verification refused: " ++ observation.error.getD noError)
  else .executed request observation

/-- `_run_branch`. An exception of the verification is not caught. -/
def runBranch (shared : Bytes) (b : Branch ι ε (Except ε Observation)) : Except ε BranchAttempt :=
  match b.linkedRequest shared with
  | .error failure =>
      .ok (.refused none none
        ("action build or request signing/validation refused: " ++ printing.failure failure))
  | .ok request =>
      match b.executor request with
      | .error failure =>
          .ok (.refused (some request) none ("executor failed: " ++ printing.failure failure))
      | .ok response => do
          let observation ← b.responseToObservation response request
          return checkObservation printing.noError request observation

end Attempts

section Settling

variable {ι ν : Type} [DecidableEq ι]

/-- The variables of the loop over the branches. -/
structure Settling (ι ν : Type) where
  branchResults : AList (fun _ : ι => BranchResult ι) := ∅
  graphNodes : List ν

/-- The result of an attempt, with the error that an observation gives it. -/
def resultOf (errorOf : Observation → Option String) (agentId : ι) : BranchAttempt → BranchResult ι
  | .executed request observation => { agentId, status := .executed, request, observation }
  | .refused request observation detail =>
      let error := match observation with
        | some observation => errorOf observation
        | none => some "SigningOrExecutionRefused"
      { agentId, status := .excluded, request, observation, error, detail }

/-- A round of the loop. The node of an executed request is caused by the shared input. -/
def Settling.settle (errorOf : Observation → Option String) (node : Bytes → List Bytes → ν)
    (shared : Bytes) (state : Settling ι ν) (agentId : ι) (attempt : BranchAttempt)
    : Settling ι ν where
  branchResults := state.branchResults.insert agentId (resultOf errorOf agentId attempt)
  graphNodes :=
    match attempt with
    | .executed request _ => state.graphNodes ++ [node request.id [shared]]
    | .refused .. => state.graphNodes

end Settling

section Running

variable {ι ε : Type} [DecidableEq ι] (printing : Printing ι ε)

/-- `ParallelFanout`, whose branches have distinct agent ids. -/
structure ParallelFanout (ι ε : Type) where
  branches : List (Branch ι ε (Except ε Observation))
  maxWorkers : Option Int := none
  distinct : (branches.map (·.agentId)).Nodup

def duplicateAgentId (agentId : ι) : MultiAgentError where
  kind := .duplicateAgentId
  msg := "agent id " ++ printing.repr agentId ++ " appears more than once in this fan-out"

/-- Branches that pass the check have different ids. -/
theorem nodup_of_checked {ω : Type} {branches seen : List (Branch ι ε ω)}
    (checked : branches.foldlM
      (keepDistinct (·.agentId) fun b => duplicateAgentId printing b.agentId) []
      = .ok seen)
    : (branches.map (·.agentId)).Nodup := by
  have cases := @foldlM_keepDistinct _ _ _ _ (·.agentId)
    (fun b : Branch ι ε ω => duplicateAgentId printing b.agentId) [] branches List.nodup_nil
  rcases cases with kept | failed
  · exact kept.1
  · obtain ⟨-, x, -, failed⟩ := failed
    rw [failed] at checked
    cases checked

/-- The constructor; the loop fails at the first repeated agent id. -/
def ParallelFanout.new (branches : List (Branch ι ε (Except ε Observation)))
    (maxWorkers : Option Int)
    : Except MultiAgentError (ParallelFanout ι ε) :=
  match checked : branches.foldlM
      (keepDistinct (·.agentId) fun b => duplicateAgentId printing b.agentId) [] with
  | .error error => .error error
  | .ok _ => .ok { branches, maxWorkers, distinct := nodup_of_checked printing checked }

/-- A branch's own exception that escapes, or one of the fan-out and what it calls. -/
inductive Failure (ε : Type) where
  | raised (failure : ε)
  | own (exc : Exc)

/-- `self._max_workers or max(len(self._branches), 1)`. -/
def ParallelFanout.workerCount (fanout : ParallelFanout ι ε) : Int :=
  match fanout.maxWorkers with
  | none => max fanout.branches.length 1
  | some workers => if workers = 0 then max fanout.branches.length 1 else workers

/-- A round of the loop over the futures, which raises what the branch raised. -/
def collectAttempt (shared : Bytes) (attempts : AList fun _ : ι => BranchAttempt)
    (b : Branch ι ε (Except ε Observation)) : Except ε (AList fun _ : ι => BranchAttempt) := do
  return attempts.insert b.agentId (← runBranch printing shared b)

/-- A round of the loop over the branches, which have all been attempted. -/
def settleBranch (shared : Bytes) (attempts : AList fun _ : ι => BranchAttempt)
    (state : Settling ι CausalNode) (b : Branch ι ε (Except ε Observation))
    : Py (Settling ι CausalNode) :=
  match attempts.lookup b.agentId with
  | none => .error .keyError
  | some attempt => .ok (state.settle (·.error) CausalNode.mk shared b.agentId attempt)

/-- `ParallelFanout.run`, with the order in which the branches finish. -/
def ParallelFanout.run (fanout : ParallelFanout ι ε)
    (finished : List (Branch ι ε (Except ε Observation))) (shared : Bytes)
    : Except (Failure ε) (FanoutRun ι) := do
  raiseIf (fanout.workerCount ≤ 0) (.own (.valueError "max_workers must be greater than 0"))
  let attempts ← (finished.foldlM (collectAttempt printing shared) ∅).mapError .raised
  let settled ← (fanout.branches.foldlM (settleBranch shared attempts)
    { graphNodes := [⟨shared, []⟩] }).mapError .own
  let order ← (Federation.reconcile settled.graphNodes).mapError .own
  return {
    sharedInputId := shared
    branchResults := settled.branchResults
    reconciledOrder := order
  }

end Running

end Naalp.Python.Fanout

namespace Naalp.Python.Pipeline

open Naalp.Foundation
open Naalp.Python.Plan (Action Request Observation Status Printing)

/-- A stage: its agent, and its callables, which may change a world that all stages share. The
executor is given the stage too.
-/
structure Stage (σ ι ε : Type) where
  agentId : ι
  buildAction : Option Observation → σ → Except ε Action × σ
  actionToRequest : Action → σ → Except ε Request × σ
  executor : Request → σ → Except ε Bytes × σ
  responseToObservation : Bytes → Request → σ → Observation × σ

structure StageResult (ι : Type) where
  agentId : ι
  status : Status
  request : Option Request := none
  observation : Option Observation := none
  detail : String := ""

/-- A call of a callable of the stage at a position, with its answer. -/
inductive Call (ε : Type) where
  | built (stage : ℕ) (previous : Option Observation) (answer : Except ε Action)
  | asked (stage : ℕ) (action : Action) (answer : Except ε Request)
  | sent (stage : ℕ) (request : Request) (answer : Except ε Bytes)
  | observed (stage : ℕ) (response : Bytes) (request : Request) (observation : Observation)

def Call.stage {ε : Type} : Call ε → ℕ
  | .built stage _ _ | .asked stage _ _ | .sent stage _ _ | .observed stage _ _ _ => stage

/-- The variables of the loop over the stages, with the world and the calls so far. -/
structure Progress (σ ι ε : Type) where
  world : σ
  results : List (StageResult ι) := []
  prevObservation : Option Observation := none
  prevRequestId : Option Bytes := none
  chainBroken : Bool := false
  calls : List (Call ε) := []

section Running

variable {σ ι ε : Type} (printing : Printing ι ε)

def Progress.called (state : Progress σ ι ε) (call : Call ε) (world : σ) : Progress σ ι ε :=
  { state with world, calls := state.calls ++ [call] }

/-- The position of the stage of the present round. -/
def Progress.position (state : Progress σ ι ε) : ℕ := state.results.length

def Progress.refuse (state : Progress σ ι ε) (result : StageResult ι) : Progress σ ι ε :=
  { state with results := state.results ++ [result], chainBroken := true }

/-- The verification of a response. -/
def settleResponse (stage : Stage σ ι ε) (request : Request) (response : Bytes)
    (state : Progress σ ι ε) : Progress σ ι ε :=
  let (observation, world) := stage.responseToObservation response request state.world
  let state := state.called (.observed state.position response request observation) world
  if observation.ok = false then
    state.refuse {
      agentId := stage.agentId, status := .refused, request, observation
      detail := "response verification refused: " ++ observation.error.getD printing.noError }
  else
    { state with
      results := state.results ++
        [{ agentId := stage.agentId, status := .executed, request, observation }]
      prevObservation := observation
      prevRequestId := request.id }

/-- What follows a signed request. -/
def sendRequest (stage : Stage σ ι ε) (request : Request) (state : Progress σ ι ε)
    : Progress σ ι ε :=
  let (answer, world) := stage.executor request state.world
  let state := state.called (.sent state.position request answer) world
  match answer with
  | .error failure =>
      state.refuse {
        agentId := stage.agentId, status := .refused, request
        detail := "executor failed: " ++ printing.failure failure }
  | .ok response => settleResponse printing stage request response state

def refuseRequest (stage : Stage σ ι ε) (failure : ε) (state : Progress σ ι ε)
    : Progress σ ι ε :=
  state.refuse {
    agentId := stage.agentId, status := .refused
    detail := "action build or request signing/validation refused: " ++ printing.failure failure }

/-- What follows a built action, whose own causes are overwritten. -/
def askRequest (stage : Stage σ ι ε) (action : Action) (state : Progress σ ι ε)
    : Progress σ ι ε :=
  let linkedAction := { action with causes := state.prevRequestId.toList }
  let (answer, world) := stage.actionToRequest linkedAction state.world
  let state := state.called (.asked state.position linkedAction answer) world
  match answer with
  | .error failure => refuseRequest printing stage failure state
  | .ok request => sendRequest printing stage request state

/-- A round of the loop. -/
def runStage (state : Progress σ ι ε) (stage : Stage σ ι ε) : Progress σ ι ε :=
  if state.chainBroken then
    { state with
      results := state.results ++
        [{ agentId := stage.agentId, status := .blocked
           detail := "an earlier stage in the pipeline did not execute" }] }
  else
    let (answer, world) := stage.buildAction state.prevObservation state.world
    let state := state.called (.built state.position state.prevObservation answer) world
    match answer with
    | .error failure => refuseRequest printing stage failure state
    | .ok action => askRequest printing stage action state

/-- `SequentialPipeline.run`, from a world. -/
def run (stages : List (Stage σ ι ε)) (world : σ) : Progress σ ι ε :=
  stages.foldl (runStage printing) { world }

end Running

end Naalp.Python.Pipeline
