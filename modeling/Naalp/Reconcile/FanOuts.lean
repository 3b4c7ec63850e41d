import Naalp.Go.Orchestrators
import Naalp.Reconcile.Agreement

/-! Fan-outs converge to one order. A fan-out runs its branches on a shared input; whatever the
order in which they finish, each has one result, and the merge lists the shared input and then the
requests of the executed branches. The merge counts nodes and does not tell two nodes with one id
apart, so this needs ids that do not coincide.
-/

namespace Naalp.Reconcile

open Naalp.Foundation
open Naalp.Python.Federation (CausalNode)
open Naalp.Python.Plan (Request Observation Printing)
open Naalp.Python.Fanout

-----------------------------------------------------------------------------------------
-- The graph of a fan-out
-----------------------------------------------------------------------------------------

section Graph

variable {shared : Bytes} {ids : List Bytes}

/-- The shared input, which every other node names as its cause. -/
def fanNodes (shared : Bytes) (ids : List Bytes) : List CausalNode :=
  ⟨shared, []⟩ :: ids.map fun id => ⟨id, [shared]⟩

theorem map_id_fanNodes : (fanNodes shared ids).map (·.id) = shared :: ids := by
  rw [fanNodes, List.map_cons, List.map_map]
  exact congrArg _ (List.map_id ids)

theorem causes_of_mem_fanNodes {n : CausalNode} (member : n ∈ fanNodes shared ids)
    : n.causes = [] ∨ n.id ∈ ids ∧ n.causes = [shared] := by
  rcases List.mem_cons.mp member with root | branch
  · exact .inl (root ▸ rfl)
  · obtain ⟨id, inside, rfl⟩ := List.mem_map.mp branch
    exact .inr ⟨inside, rfl⟩

/-- A branch's node has the shared cause and no other. -/
theorem names_fanNodes {e c : Bytes} (named : Names (graph (fanNodes shared ids)) e c)
    : e ∈ ids ∧ c = shared := by
  obtain ⟨-, n, member, rfl, cause⟩ := named
  obtain ⟨m, inside, rfl⟩ := List.mem_map.mp member
  rcases causes_of_mem_fanNodes inside with none | one
  · rw [CausalNode.atPosition, none] at cause
    cases cause
  · rw [CausalNode.atPosition, one.2] at cause
    exact ⟨one.1, List.mem_singleton.mp cause⟩

theorem names_shared {e : Bytes} (member : e ∈ ids)
    : Names (graph (fanNodes shared ids)) e shared := by
  refine ⟨?_, CausalNode.atPosition 0 ⟨e, [shared]⟩, ?_, rfl, List.mem_cons_self⟩
  · rw [map_id_graph, map_id_fanNodes]
    exact List.mem_cons_self
  · apply List.mem_map_of_mem
    exact List.mem_cons_of_mem _ (List.mem_map_of_mem member)

/-- A cycle would lead from an effect of the shared input back to the shared input. -/
theorem acyclic_fanNodes (fresh : shared ∉ ids) : Acyclic (graph (fanNodes shared ids)) := by
  intro v cycle
  obtain ⟨_, step, -⟩ := Relation.TransGen.head'_iff.mp cycle
  obtain ⟨_, -, back⟩ := Relation.TransGen.tail'_iff.mp cycle
  have inside := (names_fanNodes step).1
  have root := (names_fanNodes back).2
  exact fresh (root ▸ inside)

/-- Only the shared input can come first. -/
theorem starts_with_shared {order : List Bytes}
    (linear : Linearizes (Names (graph (fanNodes shared ids))) (shared :: ids) order)
    : ∃ rest, order = shared :: rest ∧ rest.Perm ids := by
  cases order with
  | nil => exact absurd linear.perm.length_eq (by simp)
  | cons x rest =>
      have member : x ∈ shared :: ids := linear.perm.mem_iff.mp List.mem_cons_self
      rcases List.mem_cons.mp member with same | effect
      · subst same
        exact ⟨rest, rfl, linear.perm.cons_inv⟩
      · have placed := linear.causal.1 shared (names_shared effect)
        cases placed

/-- On distinct ids both merges list the shared input and then the other ids, in one order. -/
theorem reconcile_fanNodes (distinct : (shared :: ids).Nodup)
    : ∃ rest, rest.Perm ids
        ∧ Python.Federation.reconcile (fanNodes shared ids) = .ok (shared :: rest)
        ∧ Go.Federation.reconcile (goNodes 0 (fanNodes shared ids)) = .ok (shared :: rest) := by
  have acyclic := acyclic_fanNodes (List.nodup_cons.mp distinct).1
  rw [← @map_id_fanNodes shared ids] at distinct
  have single : ∀ n ∈ fanNodes shared ids, n.causes.Nodup := by
    intro n member
    rcases causes_of_mem_fanNodes member with none | one
    · rw [none]
      exact List.nodup_nil
    · rw [one.2]
      exact List.nodup_singleton shared
  have alike := (@mergedAlike_iff _ 0 distinct).mpr (.inr (by
    intro n member
    obtain ⟨m, inside, rfl⟩ := List.mem_map.mp member
    exact (single m inside).filter _))
  rcases reconcile_cases distinct single with merged | cyclic
  · obtain ⟨-, order, least, ran, -⟩ := merged
    rw [map_id_fanNodes] at least
    obtain ⟨rest, rfl, perm⟩ := starts_with_shared least.toLinearizes
    exact ⟨rest, perm, ran, (alike.sameOk _).mpr ran⟩
  · exact absurd acyclic cyclic.1

/-- A merge lists the ids of its nodes as often as the nodes have them. -/
theorem perm_of_reconcile {nodes : List CausalNode} {order : List Bytes}
    (ran : Python.Federation.reconcile nodes = .ok order) : order.Perm (nodes.map (·.id)) := by
  rw [pythonReconcile_eq] at ran
  have perm := kahn_startSlots_perm (unit_bind_eq_ok.mp ran).2
  rwa [map_id_graph] at perm

theorem perm_of_goReconcile {nodes : List CausalNode} {order : List Bytes}
    (ran : Go.Federation.reconcile (goNodes 0 nodes) = .ok order)
    : order.Perm (nodes.map (·.id)) := by
  rw [goReconcile_goNodes] at ran
  have perm := kahn_startSlots_perm (unit_bind_eq_ok.mp ran).2
  rwa [map_id_graph] at perm

end Graph

-----------------------------------------------------------------------------------------
-- The branches that are executed
-----------------------------------------------------------------------------------------

section Executions

variable {ι ε ω : Type} (observed : ω → Option Observation) (shared : Bytes)

/-- The branch signs the request, its executor answers it, and the answer is verified. -/
structure Executed (b : Branch ι ε ω) (request : Request) : Prop where
  signed : b.linkedRequest shared = .ok request
  verified : ∃ response observation, b.executor request = .ok response
    ∧ observed (b.responseToObservation response request) = some observation
    ∧ observation.ok = true

/-- No request has the id of the shared input, and no two executed requests have one id. -/
structure Separate (branches : List (Branch ι ε ω)) : Prop where
  fresh : ∀ b ∈ branches, ∀ request, b.linkedRequest shared = .ok request → request.id ≠ shared
  apart : branches.Pairwise fun b b' => ∀ request request', Executed observed shared b request
    → Executed observed shared b' request' → request.id ≠ request'.id

/-- The id that an attempt adds to the graph. -/
def executedId : BranchAttempt → Option Bytes
  | .executed request _ => some request.id
  | .refused .. => none

def executedIds (attemptOf : Branch ι ε ω → BranchAttempt) (branches : List (Branch ι ε ω))
    : List Bytes :=
  branches.filterMap fun b => executedId (attemptOf b)

variable {observed shared} {attemptOf : Branch ι ε ω → BranchAttempt}
  {branches : List (Branch ι ε ω)} (represents : ∀ b ∈ branches, ∀ request,
    (∃ observation, attemptOf b = .executed request observation)
      ↔ Executed observed shared b request)

include represents

theorem executedId_eq_some {b : Branch ι ε ω} (member : b ∈ branches) {x : Bytes}
    : executedId (attemptOf b) = some x
      ↔ ∃ request, Executed observed shared b request ∧ request.id = x := by
  simp only [← represents b member]
  cases attemptOf b with
  | executed request observation => simp [executedId]
  | refused request observation detail => simp [executedId]

theorem mem_executedIds {x : Bytes}
    : x ∈ executedIds attemptOf branches
      ↔ ∃ b ∈ branches, ∃ request, Executed observed shared b request ∧ request.id = x := by
  rw [executedIds, List.mem_filterMap]
  apply exists_congr
  intro b
  apply and_congr_right
  intro member
  exact executedId_eq_some represents member

/-- The ids of the executed requests are different exactly when those of any two branches are.
-/
theorem nodup_executedIds
    : (executedIds attemptOf branches).Nodup
      ↔ branches.Pairwise fun b b' => ∀ request request', Executed observed shared b request
          → Executed observed shared b' request' → request.id ≠ request'.id := by
  rw [executedIds, List.Nodup, List.pairwise_filterMap]
  apply List.Pairwise.iff_of_mem
  intro b b' member member'
  constructor
  · intro apart request request' ran ran'
    exact apart _ ((executedId_eq_some represents member).mpr ⟨request, ran, rfl⟩) _
      ((executedId_eq_some represents member').mpr ⟨request', ran', rfl⟩)
  · intro apart x here x' here'
    obtain ⟨request, ran, rfl⟩ := (executedId_eq_some represents member).mp here
    obtain ⟨request', ran', rfl⟩ := (executedId_eq_some represents member').mp here'
    exact apart request request' ran ran'

theorem distinct_of_separate (separate : Separate observed shared branches)
    : (shared :: executedIds attemptOf branches).Nodup := by
  apply List.nodup_cons.mpr
  refine ⟨?_, (nodup_executedIds represents).mpr separate.apart⟩
  intro inside
  obtain ⟨b, member, request, ran, same⟩ := (mem_executedIds represents).mp inside
  exact separate.fresh b member request ran.signed same

end Executions

-----------------------------------------------------------------------------------------
-- What a fan-out is for
-----------------------------------------------------------------------------------------

section Convergence

variable {ι ε ω ν : Type} [DecidableEq ι]

/-- What is promised of a run: every branch has one result, which says whether it was executed, and
the order lists the shared input and then the requests of the executed branches, each id once.
-/
structure Converged (observed : ω → Option Observation) (shared : Bytes)
    (branches : List (Branch ι ε ω)) (run : FanoutRun ι) : Prop where
  keys : run.branchResults.keys.Perm (branches.map (·.agentId))
  executed : ∀ b ∈ branches, ∀ request, Executed observed shared b request
    → ∃ result, run.branchResults.lookup b.agentId = some result
      ∧ result.status = .executed ∧ result.request = some request
  excluded : ∀ b ∈ branches, (∀ request, ¬ Executed observed shared b request)
    → ∃ result, run.branchResults.lookup b.agentId = some result ∧ result.status = .excluded
  first : run.reconciledOrder.head? = some shared
  once : run.reconciledOrder.Nodup
  listed : ∀ x, x ∈ run.reconciledOrder
    ↔ x = shared ∨ ∃ b ∈ branches, ∃ request, Executed observed shared b request ∧ request.id = x
  unlisted : ∀ b ∈ branches, ∀ request, b.linkedRequest shared = .ok request
    → (∀ b' ∈ branches, ∀ request', Executed observed shared b' request' → request'.id ≠ request.id)
    → request.id ∉ run.reconciledOrder

/-- The loop over the branches, with their attempts. -/
def settled (errorOf : Observation → Option String) (node : Bytes → List Bytes → ν)
    (shared : Bytes) (attemptOf : Branch ι ε ω → BranchAttempt) (branches : List (Branch ι ε ω))
    (state : Settling ι ν) : Settling ι ν :=
  branches.foldl (fun state b => state.settle errorOf node shared b.agentId (attemptOf b)) state

/-- The table of the results. -/
def results (errorOf : Observation → Option String) (attemptOf : Branch ι ε ω → BranchAttempt)
    (branches : List (Branch ι ε ω)) : AList fun _ : ι => BranchResult ι :=
  tabulate (·.agentId) (fun b => resultOf errorOf b.agentId (attemptOf b)) branches ∅

variable {observed : ω → Option Observation} {shared : Bytes}
  {errorOf : Observation → Option String} {node : Bytes → List Bytes → ν}
  {attemptOf : Branch ι ε ω → BranchAttempt} {branches : List (Branch ι ε ω)}

theorem branchResults_settled {state : Settling ι ν}
    : (settled errorOf node shared attemptOf branches state).branchResults
      = tabulate (·.agentId) (fun b => resultOf errorOf b.agentId (attemptOf b)) branches
          state.branchResults := by
  induction branches generalizing state with
  | nil => rfl
  | cons b branches ih =>
      rw [settled, List.foldl_cons]
      exact ih

/-- The loop over the branches adds one node for each executed request, by induction on the
branches.
-/
theorem graphNodes_settled {state : Settling ι ν}
    : (settled errorOf node shared attemptOf branches state).graphNodes
      = state.graphNodes ++ (executedIds attemptOf branches).map (node · [shared]) := by
  induction branches generalizing state with
  | nil => exact (List.append_nil _).symm
  | cons b branches ih =>
      rw [settled, List.foldl_cons, executedIds]
      refine ih.trans ?_
      unfold Settling.settle
      cases came : attemptOf b with
      | executed request observation =>
          rw [List.filterMap_cons_some (by rw [came]; rfl), List.map_cons, List.append_assoc]
          rfl
      | refused request observation detail =>
          rw [List.filterMap_cons_none (by rw [came]; rfl)]
          rfl

variable (represents : ∀ b ∈ branches, ∀ request,
  (∃ observation, attemptOf b = .executed request observation) ↔ Executed observed shared b request)

include represents

/-- Separate branches converge, for every order of their ids after the shared input.
Witness: every executed request is found under its agent and occurs once in the order.
-/
theorem converged_of_separate (agents : (branches.map (·.agentId)).Nodup)
    (separate : Separate observed shared branches) {rest : List Bytes}
    (perm : rest.Perm (executedIds attemptOf branches))
    : Converged observed shared branches
        ⟨shared, results errorOf attemptOf branches, shared :: rest⟩ := by
  have distinct := distinct_of_separate represents separate
  have listed : ∀ x, x ∈ shared :: rest
      ↔ x = shared ∨ ∃ b ∈ branches, ∃ request, Executed observed shared b request
          ∧ request.id = x := by
    intro x
    rw [List.mem_cons, perm.mem_iff, mem_executedIds represents]
  have found : ∀ b ∈ branches, (results errorOf attemptOf branches).lookup b.agentId
      = some (resultOf errorOf b.agentId (attemptOf b)) := fun b member =>
    lookup_tabulate agents member
  constructor
  · have keyed := @keys_tabulate ι _ (BranchResult ι) _ (·.agentId)
      (fun b => resultOf errorOf b.agentId (attemptOf b)) branches ∅
      (by rwa [AList.keys_empty, List.append_nil])
    rwa [AList.keys_empty, List.append_nil] at keyed
  · intro b member request ran
    obtain ⟨observation, came⟩ := (represents b member request).mpr ran
    exact ⟨_, found b member, by rw [came]; rfl, by rw [came]; rfl⟩
  · intro b member none
    refine ⟨_, found b member, ?_⟩
    cases came : attemptOf b with
    | executed request observation =>
        exact (none request ((represents b member request).mp ⟨observation, came⟩)).elim
    | refused request observation detail => rfl
  · rfl
  · exact (perm.cons shared).nodup_iff.mpr distinct
  · exact listed
  · intro b member request signed others inside
    rcases (listed request.id).mp inside with root | branch
    · exact separate.fresh b member request signed root
    · obtain ⟨b', member', request', ran', same⟩ := branch
      exact others b' member' request' ran' same

/-- Branches that converge are separate, since the merge lists an id for every node. -/
theorem separate_of_converged {run : FanoutRun ι}
    (converged : Converged observed shared branches run)
    (perm : run.reconciledOrder.Perm (shared :: executedIds attemptOf branches))
    : Separate observed shared branches := by
  have distinct := List.nodup_cons.mp (perm.nodup_iff.mp converged.once)
  have ranApart : ∀ b ∈ branches, ∀ request, Executed observed shared b request
      → request.id ≠ shared := by
    intro b member request ran same
    exact distinct.1 ((mem_executedIds represents).mpr ⟨b, member, request, ran, same⟩)
  constructor
  · intro b member request signed same
    apply converged.unlisted b member request signed
    · intro b' member' request' ran'
      rw [same]
      exact ranApart b' member' request' ran'
    · rw [same, converged.listed]
      exact .inl rfl
  · exact (nodup_executedIds represents).mp distinct.2

end Convergence

-----------------------------------------------------------------------------------------
-- The Python fan-out
-----------------------------------------------------------------------------------------

section Python

variable {ι ε : Type} {printing : Printing ι ε} {shared : Bytes}
  {b : Branch ι ε (Except ε Observation)}

theorem checkObservation_eq_executed {noError : String} {request request' : Request}
    {observation observation' : Observation}
    : checkObservation noError request observation = .executed request' observation'
      ↔ request = request' ∧ observation = observation' ∧ observation.ok = true := by
  unfold checkObservation
  split
  · simp_all
  · simp_all

/-- The verification of the branch raises nothing, if it is reached. -/
def Verifies (shared : Bytes) (b : Branch ι ε (Except ε Observation)) : Prop :=
  ∀ request response, b.linkedRequest shared = .ok request → b.executor request = .ok response
    → ∃ observation, b.responseToObservation response request = .ok observation

/-- A Python branch comes to an attempt exactly when its verification raises nothing.
Witness: cases on the request and on the response; a refused request or a failed executor is an
attempt as well.
-/
theorem runBranch_eq_ok
    : (∃ attempt, Python.Fanout.runBranch printing shared b = .ok attempt) ↔ Verifies shared b := by
  unfold Python.Fanout.runBranch
  cases signed : b.linkedRequest shared with
  | error failure =>
      refine ⟨fun _ request response signed' => ?_, fun _ => ⟨_, rfl⟩⟩
      cases signed.symm.trans signed'
  | ok request =>
      cases answered : b.executor request with
      | error failure =>
          refine ⟨fun _ request' response signed' answered' => ?_, fun _ =>
            ⟨_, by simp only [answered]; rfl⟩⟩
          cases signed.symm.trans signed'
          cases answered.symm.trans answered'
      | ok response =>
          simp only [answered]
          constructor
          · intro came
            obtain ⟨attempt, came⟩ := came
            intro request' response' signed' answered'
            cases signed.symm.trans signed'
            cases answered.symm.trans answered'
            obtain ⟨observation, verified, -⟩ := bind_eq_ok.mp came
            exact ⟨observation, verified⟩
          · intro verifies
            obtain ⟨observation, verified⟩ := verifies request response signed answered
            exact ⟨_, by rw [verified]; rfl⟩

/-- An attempt executed a request exactly when the branch did.
Witness: each step of the branch either goes on or ends the attempt with its error.
-/
theorem executed_of_runBranch {attempt : BranchAttempt} {request : Request}
    (came : Python.Fanout.runBranch printing shared b = .ok attempt)
    : (∃ observation, attempt = .executed request observation)
      ↔ Executed Except.toOption shared b request := by
  unfold Python.Fanout.runBranch at came
  cases signed : b.linkedRequest shared with
  | error failure =>
      rw [signed] at came
      obtain rfl := Except.ok.inj came
      constructor
      · intro executed
        obtain ⟨_, executed⟩ := executed
        cases executed
      · intro executed
        cases signed.symm.trans executed.signed
  | ok request' =>
      simp only [signed] at came
      cases answered : b.executor request' with
      | error failure =>
          simp only [answered] at came
          obtain rfl := Except.ok.inj came
          constructor
          · intro executed
            obtain ⟨_, executed⟩ := executed
            cases executed
          · intro executed
            obtain ⟨signed', response, -, answered', -⟩ := executed
            cases signed.symm.trans signed'
            cases answered.symm.trans answered'
      | ok response =>
          simp only [answered] at came
          obtain ⟨observation, verified, checked⟩ := bind_eq_ok.mp came
          obtain rfl := Except.ok.inj checked
          constructor
          · intro executed
            obtain ⟨observation', executed⟩ := executed
            obtain ⟨rfl, rfl, passed⟩ := checkObservation_eq_executed.mp executed
            exact ⟨signed, response, observation, answered, by rw [verified]; rfl, passed⟩
          · intro executed
            obtain ⟨signed', response', observation', answered', verified', passed⟩ := executed
            cases signed.symm.trans signed'
            cases answered.symm.trans answered'
            rw [verified] at verified'
            obtain rfl := Option.some.inj verified'
            exact ⟨observation, checkObservation_eq_executed.mpr ⟨rfl, rfl, passed⟩⟩

variable [DecidableEq ι] {attemptOf : Branch ι ε (Except ε Observation) → BranchAttempt}
  {branches finished : List (Branch ι ε (Except ε Observation))}

/-- The loop over the futures ends when no branch raises; by induction over the futures to come. -/
theorem collectAttempts_eq
    (came : ∀ b ∈ finished, Python.Fanout.runBranch printing shared b = .ok (attemptOf b))
    {table : AList fun _ : ι => BranchAttempt}
    : finished.foldlM (Python.Fanout.collectAttempt printing shared) table
      = .ok (tabulate (·.agentId) attemptOf finished table) := by
  induction finished generalizing table with
  | nil => rfl
  | cons b finished ih =>
      rw [List.foldlM_cons, Python.Fanout.collectAttempt, came b List.mem_cons_self]
      exact ih fun b' later => came b' (List.mem_cons_of_mem _ later)

/-- Every attempt that was collected came from its branch, by induction on the finished ones.
-/
theorem came_of_collectAttempts {table attempts : AList fun _ : ι => BranchAttempt}
    (collected : finished.foldlM (Python.Fanout.collectAttempt printing shared) table
      = .ok attempts)
    : ∀ b ∈ finished, ∃ attempt, Python.Fanout.runBranch printing shared b = .ok attempt := by
  induction finished generalizing table with
  | nil =>
      intro b member
      cases member
  | cons b finished ih =>
      rw [List.foldlM_cons] at collected
      obtain ⟨next, round, rest⟩ := bind_eq_ok.mp collected
      obtain ⟨attempt, came, -⟩ := bind_eq_ok.mp round
      intro b' member
      rcases List.mem_cons.mp member with same | later
      · exact same ▸ ⟨attempt, came⟩
      · exact ih rest b' later

theorem settleBranches_eq {attempts : AList fun _ : ι => BranchAttempt}
    (found : ∀ b ∈ branches, attempts.lookup b.agentId = some (attemptOf b))
    {state : Settling ι CausalNode}
    : branches.foldlM (Python.Fanout.settleBranch shared attempts) state
      = .ok (settled (·.error) CausalNode.mk shared attemptOf branches state) := by
  induction branches generalizing state with
  | nil => rfl
  | cons b branches ih =>
      rw [List.foldlM_cons, Python.Fanout.settleBranch, found b List.mem_cons_self]
      exact ih fun b' later => found b' (List.mem_cons_of_mem _ later)

/-- A run whose branches raise nothing is the merge of its graph. -/
theorem python_run_eq {fanout : ParallelFanout ι ε} (workers : 0 < fanout.workerCount)
    (came : ∀ b ∈ fanout.branches, Python.Fanout.runBranch printing shared b = .ok (attemptOf b))
    (all : finished.Perm fanout.branches)
    : fanout.run printing finished shared
      = ((Python.Federation.reconcile
        (fanNodes shared (executedIds attemptOf fanout.branches))).mapError
          .own >>= fun order =>
            .ok ⟨shared, results (·.error) attemptOf fanout.branches, order⟩) := by
  have collected := @collectAttempts_eq _ _ _ shared _ attemptOf finished
    (fun b member => came b (all.mem_iff.mp member)) ∅
  have distinct : (finished.map (·.agentId)).Nodup := (all.map _).nodup_iff.mpr fanout.distinct
  have settles := @settleBranches_eq _ _ shared _ attemptOf fanout.branches
    (tabulate (·.agentId) attemptOf finished ∅)
    (fun b member => lookup_tabulate distinct (all.mem_iff.mpr member))
    { graphNodes := [⟨shared, []⟩] }
  rw [ParallelFanout.run, raiseIf_neg (by omega), ok_bind, collected, mapError_ok, ok_bind, settles,
    mapError_ok, ok_bind, graphNodes_settled, branchResults_settled]
  rfl

end Python

-----------------------------------------------------------------------------------------
-- The Go fan-out
-----------------------------------------------------------------------------------------

section Go

variable {ι ε : Type} {printing : Printing ι ε} {shared : Bytes}

/-- The branch for the Python port, whose verification may raise. -/
def lifted (b : Branch ι ε Observation) : Branch ι ε (Except ε Observation) :=
  { b with
    responseToObservation := fun response request =>
      .ok (b.responseToObservation response request) }

/-- An attempt is that of the Python port on the same branch, up to the text of a missing error. -/
theorem runBranch_lifted {b : Branch ι ε Observation}
    : Python.Fanout.runBranch { printing with noError := "" } shared (lifted b)
      = .ok (Go.Multiagent.runBranch printing shared b) := by
  have same : (lifted b).linkedRequest shared = b.linkedRequest shared := rfl
  unfold Python.Fanout.runBranch Go.Multiagent.runBranch
  cases signed : b.linkedRequest shared with
  | error failure => simp only [same, signed]
  | ok request =>
      have sent : (lifted b).executor request = b.executor request := rfl
      cases answered : b.executor request with
      | error failure => simp only [same, signed, sent, answered]
      | ok response =>
          simp only [same, signed, sent, answered]
          rfl

theorem executed_of_goRunBranch {b : Branch ι ε Observation} {request : Request}
    : (∃ observation, Go.Multiagent.runBranch printing shared b = .executed request observation)
      ↔ Executed some shared b request := by
  rw [executed_of_runBranch runBranch_lifted]
  constructor
  · intro executed
    exact ⟨executed.signed, executed.verified⟩
  · intro executed
    exact ⟨executed.signed, executed.verified⟩

variable [DecidableEq ι] {finished branches : List (Branch ι ε Observation)}

theorem settleBranches_goEq {attempts : AList fun _ : ι => BranchAttempt}
    (found : ∀ b ∈ branches,
      attempts.lookup b.agentId = some (Go.Multiagent.runBranch printing shared b))
    {state : Settling ι (Foundation.CausalNode Bytes UInt64)}
    : branches.foldl (Go.Multiagent.settleBranch shared attempts) state
      = settled (fun observation => some (observation.error.getD "")) Go.Multiagent.graphNode shared
          (Go.Multiagent.runBranch printing shared) branches state := by
  induction branches generalizing state with
  | nil => rfl
  | cons b branches ih =>
      rw [List.foldl_cons, Go.Multiagent.settleBranch, found b List.mem_cons_self]
      exact ih fun b' later => found b' (List.mem_cons_of_mem _ later)

theorem map_graphNode {ids : List Bytes}
    : Go.Multiagent.graphNode shared [] :: ids.map (Go.Multiagent.graphNode · [shared])
      = goNodes 0 (fanNodes shared ids) := by
  rw [goNodes, fanNodes, List.map_cons, List.map_map]
  rfl

/-- A run is the merge of its graph. -/
theorem go_run_eq {fanout : Go.Multiagent.Fanout ι ε} (all : finished.Perm fanout.branches)
    : fanout.run printing finished shared
      = (Go.Federation.reconcile (goNodes 0 (fanNodes shared
            (executedIds (Go.Multiagent.runBranch printing shared) fanout.branches)))
                >>= fun order =>
          .ok ⟨shared, results (fun observation => some (observation.error.getD ""))
            (Go.Multiagent.runBranch printing shared) fanout.branches, order⟩) := by
  have distinct : (finished.map (·.agentId)).Nodup := (all.map _).nodup_iff.mpr fanout.distinct
  have settles := @settleBranches_goEq _ _ printing shared _ fanout.branches
    (tabulate (·.agentId) (Go.Multiagent.runBranch printing shared) finished ∅)
    (fun b member => lookup_tabulate distinct (all.mem_iff.mpr member))
    { graphNodes := [Go.Multiagent.graphNode shared []] }
  have collected : finished.foldl (Go.Multiagent.collectAttempt printing shared) ∅
      = tabulate (·.agentId) (Go.Multiagent.runBranch printing shared) finished ∅ := rfl
  simp only [← map_graphNode, Go.Multiagent.Fanout.run, collected, settles, graphNodes_settled,
    branchResults_settled]
  rfl

end Go

-----------------------------------------------------------------------------------------
-- When the fan-outs converge
-----------------------------------------------------------------------------------------

section Construction

variable {ι ε ω : Type} [DecidableEq ι] {printing : Printing ι ε}

theorem checked_of_nodup {branches : List (Branch ι ε ω)}
    (distinct : (branches.map (·.agentId)).Nodup)
    : branches.foldlM (keepDistinct (·.agentId) fun b => duplicateAgentId printing b.agentId) []
      = .ok branches := by
  rcases @foldlM_keepDistinct _ _ _ _ (·.agentId)
    (fun b : Branch ι ε ω => duplicateAgentId printing b.agentId) [] branches List.nodup_nil
    with kept | failed
  · exact kept.2
  · exact absurd distinct failed.1

/-- Branches with distinct agent ids make a fan-out, and no others do. -/
theorem new_eq_ok_iff {branches : List (Branch ι ε (Except ε Observation))}
    {maxWorkers : Option Int}
    : (∃ fanout, ParallelFanout.new printing branches maxWorkers = .ok fanout
        ∧ fanout.branches = branches ∧ fanout.maxWorkers = maxWorkers)
      ↔ (branches.map (·.agentId)).Nodup := by
  constructor
  · intro made
    obtain ⟨fanout, -, rfl, -⟩ := made
    exact fanout.distinct
  · intro distinct
    unfold ParallelFanout.new
    split
    · rename_i failed
      rw [checked_of_nodup distinct] at failed
      cases failed
    · exact ⟨_, rfl, rfl, rfl⟩

/-- A fan-out is made exactly of branches with different ids. -/
theorem newParallelFanout_eq_ok_iff {branches : List (Branch ι ε Observation)}
    : (∃ fanout, Go.Multiagent.newParallelFanout printing branches = .ok fanout
        ∧ fanout.branches = branches)
      ↔ (branches.map (·.agentId)).Nodup := by
  constructor
  · intro made
    obtain ⟨fanout, -, rfl⟩ := made
    exact fanout.distinct
  · intro distinct
    unfold Go.Multiagent.newParallelFanout
    split
    · rename_i failed
      rw [checked_of_nodup distinct] at failed
      cases failed
    · exact ⟨_, rfl, rfl⟩

end Construction

section Converging

variable {ι ε : Type} [DecidableEq ι] (printing : Printing ι ε) (shared : Bytes)

/-- Every order in which the branches finish gives one run, which keeps what is promised. -/
def PythonConverges (fanout : ParallelFanout ι ε) : Prop :=
  ∃ run, (∀ finished, finished.Perm fanout.branches
      → fanout.run printing finished shared = .ok run)
    ∧ Converged Except.toOption shared fanout.branches run

def GoConverges (fanout : Go.Multiagent.Fanout ι ε) : Prop :=
  ∃ run, (∀ finished, finished.Perm fanout.branches
      → fanout.run printing finished shared = .ok run)
    ∧ Converged some shared fanout.branches run

variable {printing shared}

omit [DecidableEq ι] in
/-- There is a worker unless a negative number of them is asked for. -/
theorem workerCount_pos {fanout : ParallelFanout ι ε}
    : 0 < fanout.workerCount ↔ ∀ workers ∈ fanout.maxWorkers, 0 ≤ workers := by
  unfold ParallelFanout.workerCount
  cases fanout.maxWorkers with
  | none => simp
  | some workers =>
      simp only [Option.mem_some_iff, forall_eq']
      split
      · omega
      · omega

/-- The Python fan-out converges exactly when it has workers, its requests verify and their ids
are separate.
Witness: the run ends with a merge of all executed requests, which keeps every branch exactly
when their ids are separate.
-/
theorem pythonConverges_iff {fanout : ParallelFanout ι ε}
    : PythonConverges printing shared fanout
      ↔ (∀ workers ∈ fanout.maxWorkers, 0 ≤ workers)
        ∧ (∀ b ∈ fanout.branches, Verifies shared b)
        ∧ Separate Except.toOption shared fanout.branches := by
  rw [← workerCount_pos]
  constructor
  · intro converges
    obtain ⟨run, ran, converged⟩ := converges
    have first := ran fanout.branches .rfl
    have opened := first
    rw [ParallelFanout.run, unit_bind_eq_ok, raiseIf_eq_ok, bind_eq_ok] at opened
    obtain ⟨workers, attempts, collected, -⟩ := opened
    have came := came_of_collectAttempts (mapError_eq_ok.mp collected)
    have verifies : ∀ b ∈ fanout.branches, Verifies shared b :=
      fun b member => runBranch_eq_ok.mp (came b member)
    choose! attemptOf came using came
    rw [python_run_eq (by omega) came .rfl] at first
    obtain ⟨order, merged, same⟩ := bind_eq_ok.mp first
    obtain rfl := Except.ok.inj same
    have perm := perm_of_reconcile (mapError_eq_ok.mp merged)
    rw [map_id_fanNodes] at perm
    refine ⟨by omega, verifies, ?_⟩
    exact separate_of_converged (fun b member _ => executed_of_runBranch (came b member))
      converged perm
  · intro condition
    obtain ⟨workers, verifies, separate⟩ := condition
    have came := fun b member => (@runBranch_eq_ok _ _ printing shared b).mpr (verifies b member)
    choose! attemptOf came using came
    have represents := fun b member request =>
      @executed_of_runBranch _ _ _ shared b _ request (came b member)
    obtain ⟨rest, perm, merged, -⟩ := reconcile_fanNodes (distinct_of_separate represents separate)
    refine ⟨⟨shared, results (·.error) attemptOf fanout.branches, shared :: rest⟩, ?_,
      converged_of_separate represents fanout.distinct separate perm⟩
    intro finished all
    rw [python_run_eq workers came all, merged]
    rfl

/-- The Go fan-out converges exactly when the ids are separate, as its branches raise nothing.
-/
theorem goConverges_iff {fanout : Go.Multiagent.Fanout ι ε}
    : GoConverges printing shared fanout ↔ Separate some shared fanout.branches := by
  have represents : ∀ b ∈ fanout.branches, ∀ request, (∃ observation,
      Go.Multiagent.runBranch printing shared b = .executed request observation)
      ↔ Executed some shared b request := fun _ _ _ => executed_of_goRunBranch
  constructor
  · intro converges
    obtain ⟨run, ran, converged⟩ := converges
    have first := ran fanout.branches .rfl
    rw [go_run_eq .rfl] at first
    obtain ⟨order, merged, same⟩ := bind_eq_ok.mp first
    obtain rfl := Except.ok.inj same
    have perm := perm_of_goReconcile merged
    rw [map_id_fanNodes] at perm
    exact separate_of_converged represents converged perm
  · intro separate
    obtain ⟨rest, perm, -, merged⟩ := reconcile_fanNodes (distinct_of_separate represents separate)
    refine ⟨⟨shared, results (fun observation => some (observation.error.getD ""))
      (Go.Multiagent.runBranch printing shared) fanout.branches, shared :: rest⟩, ?_,
      converged_of_separate represents fanout.distinct separate perm⟩
    intro finished all
    rw [go_run_eq all, merged]
    rfl

/-- The Python fan-out converges exactly when its number of workers is not negative, no verification
raises, and its branches are separate; the Go fan-out exactly when its branches are separate.
-/
theorem fan_outs_converge_iff (printing : Printing ι ε) (shared : Bytes)
    (python : ParallelFanout ι ε) (go : Go.Multiagent.Fanout ι ε)
    : (PythonConverges printing shared python
        ↔ (∀ workers ∈ python.maxWorkers, 0 ≤ workers)
          ∧ (∀ b ∈ python.branches, Verifies shared b)
          ∧ Separate Except.toOption shared python.branches)
      ∧ (GoConverges printing shared go ↔ Separate some shared go.branches) :=
  ⟨pythonConverges_iff, goConverges_iff⟩

end Converging

/-- The branch of an agent whose request has a fixed id and is answered and verified. -/
def sampleBranch (agentId : ℕ) (id : Bytes) : Branch ℕ Unit Observation where
  agentId
  buildAction _ := .ok { name := [], channel := 1, kind := 1, effect := 1, args := .m [] }
  actionToRequest _ := .ok { payload := [], id }
  executor _ := .ok []
  responseToObservation _ _ := { ok := true }

/-- Two agents whose requests have one content id. -/
def twins : Go.Multiagent.Fanout ℕ Unit where
  branches := [sampleBranch 0 [7], sampleBranch 1 [7]]
  distinct := by simp [sampleBranch]

def pythonTwins : ParallelFanout ℕ Unit where
  branches := twins.branches.map lifted
  distinct := by simp [twins, sampleBranch, lifted]

def samplePrinting : Printing ℕ Unit where
  repr _ := "agent"
  str _ := "agent"
  failure _ := "failed"
  noError := "None"

theorem not_separate_of_same_id {ω : Type} {observed : ω → Option Observation} {shared : Bytes}
    {first second : Branch ℕ Unit ω} {request request' : Request} (same : request.id = request'.id)
    (ran : Executed observed shared first request) (ran' : Executed observed shared second request')
    : ¬ Separate observed shared [first, second] := by
  intro separate
  have apart := List.pairwise_pair.mp separate.apart
  exact apart request request' ran ran' same

/-- Two executed branches whose requests have one id do not converge, in either port; the id is
listed twice.
-/
theorem twins_do_not_converge
    : ¬ PythonConverges samplePrinting [1] pythonTwins ∧ ¬ GoConverges samplePrinting [1] twins
      ∧ (twins.run samplePrinting twins.branches [1]).toOption.map (·.reconciledOrder)
        = some [[1], [7], [7]] := by
  have executed : ∀ agentId, Executed some [1] (sampleBranch agentId [7]) ⟨[], [7]⟩ :=
    fun _ => ⟨rfl, [], { ok := true }, rfl, rfl, rfl⟩
  have lifts
      : ∀ agentId, Executed Except.toOption [1] (lifted (sampleBranch agentId [7])) ⟨[], [7]⟩ :=
    fun _ => ⟨rfl, [], { ok := true }, rfl, rfl, rfl⟩
  refine ⟨?_, ?_, ?_⟩
  · intro converges
    have condition := pythonConverges_iff.mp converges
    exact not_separate_of_same_id rfl (lifts 0) (lifts 1) condition.2.2
  · intro converges
    exact not_separate_of_same_id rfl (executed 0) (executed 1) (goConverges_iff.mp converges)
  · rfl

end Naalp.Reconcile
