import Naalp.Python.Federation

/-! On distinct ids without repeated causes, the reconcile returns the least linearization of the
causal graph exactly when the graph is acyclic.
-/

namespace Naalp.Reconcile

open Naalp.Foundation
open Naalp.Python
open Naalp.Python.Federation (CausalNode ReconcileRecord verifyReconcileOrder)

/-- The causal graph of the nodes, which the merge orders by its ids and causes alone. -/
def graph (nodes : List CausalNode) : List (Foundation.CausalNode Bytes Int) :=
  nodes.map (CausalNode.atPosition (0 : Int))

variable {nodes nodes' : List CausalNode}

theorem map_id_graph : (graph nodes).map (·.id) = nodes.map (·.id) := by
  rw [graph, List.map_map]
  rfl

theorem not_futureCause_graph : ¬ FutureCause (graph nodes) := by
  apply @not_futureCause_of_equal _ _ _ _ _ _ (0 : Int)
  intro n member
  obtain ⟨m, -, rfl⟩ := List.mem_map.mp member
  rfl

theorem atPosition_eq_mapPosition {π : Type} (position : π)
    : nodes.map (CausalNode.atPosition position)
      = (graph nodes).map (Foundation.CausalNode.mapPosition fun _ => position) := by
  rw [graph, List.map_map]
  rfl

def errCycle : Exc := .causalViolation "causal graph contains a cycle"

/-- Without future causes, the check is for cycles only. -/
theorem verifyCausal_atPosition (position : Int)
    : Graph.verifyCausal (nodes.map (CausalNode.atPosition position))
      = raiseIf (hasCycle (graph nodes)) errCycle := by
  rw [Graph.verifyCausal, verifyCausal_of_not_futureCause, atPosition_eq_mapPosition,
    hasCycle_mapPosition]
  · rfl
  · apply not_futureCause_of_equal
    intro n member
    obtain ⟨m, -, rfl⟩ := List.mem_map.mp member
    rfl

theorem linearize_atPosition (position : Int) (stuck : Exc)
    : Graph.linearize stuck (nodes.map (CausalNode.atPosition position))
      = Graph.linearize stuck (graph nodes) := by
  rw [atPosition_eq_mapPosition]
  unfold Graph.linearize
  rw [startSlots_mapPosition, map_id_mapPosition, List.length_map]

/-- On distinct ids without repeated causes, every merge of the nodes either returns the least
linearization or reports a cycle.
Witness: the cycle check decides; without a cycle both loops place the least ready id and have
one linearization.
-/
theorem reconcile_cases (distinct : (nodes.map (·.id)).Nodup)
    (single : ∀ n ∈ nodes, n.causes.Nodup)
    : (Acyclic (graph nodes) ∧ ∃ order,
        LeastLinearization (Names (graph nodes)) (nodes.map (·.id)) order
          ∧ Federation.reconcile nodes = .ok order
          ∧ ∀ position, Graph.reconcile (nodes.map (CausalNode.atPosition position)) = .ok order)
      ∨ (¬ Acyclic (graph nodes) ∧ Federation.reconcile nodes = .error errCycle
          ∧ ∀ position,
            Graph.reconcile (nodes.map (CausalNode.atPosition position)) = .error errCycle) := by
  rw [← map_id_graph] at distinct
  have singleGraph : ∀ n ∈ graph nodes, (presented ((graph nodes).map (·.id)) n.causes).Nodup := by
    intro n member
    obtain ⟨m, inside, rfl⟩ := List.mem_map.mp member
    exact (single m inside).filter _
  by_cases acyclic : Acyclic (graph nodes)
  · left
    have passed := (hasCycle_eq_false_iff distinct).mpr acyclic
    have linear := fun stuck => @kahn_once_least _ _ Exc _ _ _ _ _ _ _ stuck distinct acyclic
      singleGraph
    obtain ⟨order, ran, least⟩ := linear (.causalViolation "no ready node")
    obtain ⟨order', ran', least'⟩ := linear
      (.causalViolation "no ready node (unreachable after verify_causal)")
    obtain rfl := least.unique least'
    refine ⟨acyclic, order, map_id_graph ▸ least, ?_, ?_⟩
    · rw [Federation.reconcile, verifyCausal_atPosition, passed]
      exact ran
    · intro position
      rw [Graph.reconcile, verifyCausal_atPosition, linearize_atPosition, passed]
      exact ran'
  · right
    have found := mt (hasCycle_eq_false_iff distinct).mp acyclic
    rw [Bool.not_eq_false] at found
    refine ⟨acyclic, ?_, ?_⟩
    · rw [Federation.reconcile, verifyCausal_atPosition, found]
      rfl
    · intro position
      rw [Graph.reconcile, verifyCausal_atPosition, found]
      rfl

theorem graph_perm (same : nodes.Perm nodes') : (graph nodes).Perm (graph nodes') := same.map _

theorem names_perm (same : nodes.Perm nodes') : Names (graph nodes) = Names (graph nodes') := by
  funext e c
  apply propext
  unfold Names
  simp only [((graph_perm same).map _).mem_iff, (graph_perm same).mem_iff]

/-- A record is accepted when its order is the one that is computed from the nodes. -/
theorem verifyReconcileOrder_eq_ok {record : ReconcileRecord}
    : verifyReconcileOrder record nodes = .ok ()
      ↔ Federation.reconcile nodes = .ok record.order := by
  unfold verifyReconcileOrder
  cases Federation.reconcile nodes with
  | error error => simp
  | ok recomputed =>
      simp only [ok_bind, unit_bind_eq_ok, raiseIf_eq_ok, forM_eq_ok, not_not, Except.ok.injEq]
      constructor
      · intro checked
        obtain ⟨size, pairs⟩ := checked
        apply List.ext_getElem size
        intro i inside inside'
        have paired : (recomputed[i], record.order[i]) ∈ recomputed.zip record.order :=
          List.mem_iff_getElem.mpr ⟨i, by simpa using ⟨inside, inside'⟩, by simp⟩
        exact pairs _ paired
      · intro same
        subst same
        refine ⟨rfl, ?_⟩
        intro pair member
        obtain ⟨i, inside, rfl⟩ := List.mem_iff_getElem.mp member
        simp

/-- What is promised of a merge of the nodes: it returns an order exactly when their graph is
acyclic, the least linearization, whatever their order and a common position; and a record is
accepted with that order only.
-/
structure Canonical (nodes : List CausalNode) : Prop where
  succeeds : (∃ order, Federation.reconcile nodes = .ok order) ↔ Acyclic (graph nodes)
  least : ∀ order, Federation.reconcile nodes = .ok order
    → LeastLinearization (Names (graph nodes)) (nodes.map (·.id)) order
  permuted : ∀ nodes', nodes.Perm nodes'
    → Federation.reconcile nodes' = Federation.reconcile nodes
  positioned : ∀ position, Graph.reconcile (nodes.map (CausalNode.atPosition position))
    = Federation.reconcile nodes
  accepted : ∀ record, verifyReconcileOrder record nodes = .ok ()
    ↔ Federation.reconcile nodes = .ok record.order
  neverStuck : Federation.reconcile nodes ≠ .error (.causalViolation "no ready node")
  neverStuckGraph : ∀ position, Graph.reconcile (nodes.map (CausalNode.atPosition position))
    ≠ .error (.causalViolation "no ready node (unreachable after verify_causal)")

/-- The reconcile is canonical on distinct ids without repeated causes.
Witness: what the cases are about, the names and the least linearization, does not depend on
the order of the nodes.
-/
theorem reconcile_canonical (distinct : (nodes.map (·.id)).Nodup)
    (single : ∀ n ∈ nodes, n.causes.Nodup) : Canonical nodes := by
  have permuted : ∀ nodes', nodes.Perm nodes'
      → Federation.reconcile nodes' = Federation.reconcile nodes := by
    intro nodes' same
    have distinct' := (same.map _).nodup_iff.mp distinct
    have single' : ∀ n ∈ nodes', n.causes.Nodup :=
      fun n member => single n (same.mem_iff.mpr member)
    have names := names_perm same
    have acyclic : Acyclic (graph nodes) ↔ Acyclic (graph nodes') := by rw [Acyclic, names, Acyclic]
    rcases reconcile_cases distinct single with ⟨first, order, least, ran, -⟩ | ⟨first, ran, -⟩
    · rcases reconcile_cases distinct' single' with ⟨-, order', least', ran', -⟩ | ⟨second, -⟩
      · rw [names] at least
        rw [ran, ran', least'.unique (least.of_perm (same.map _))]
      · exact (second (acyclic.mp first)).elim
    · rcases reconcile_cases distinct' single' with ⟨second, -⟩ | ⟨-, ran', -⟩
      · exact (first (acyclic.mpr second)).elim
      · rw [ran, ran']
  have accepted := fun record => @verifyReconcileOrder_eq_ok nodes record
  rcases reconcile_cases distinct single with
    ⟨acyclic, order, least, ran, ran'⟩ | ⟨cyclic, ran, ran'⟩
  · have positioned := fun position => (ran' position).trans ran.symm
    refine ⟨iff_of_true ⟨order, ran⟩ acyclic, ?_, permuted, positioned, accepted, ?_, ?_⟩
    · intro order' returned
      obtain rfl := Except.ok.inj (ran.symm.trans returned)
      exact least
    · intro stuck
      cases ran.symm.trans stuck
    · intro position stuck
      cases (ran' position).symm.trans stuck
  · have positioned := fun position => (ran' position).trans ran.symm
    refine ⟨iff_of_false ?_ cyclic, ?_, permuted, positioned, accepted, ?_, ?_⟩
    · intro returned
      obtain ⟨order, returned⟩ := returned
      cases ran.symm.trans returned
    · intro order returned
      cases ran.symm.trans returned
    · rw [ran]
      simp [errCycle]
    · intro position
      rw [ran' position]
      simp [errCycle]

/-- Witness: two causes of a later node, given in another order than their ids. -/
theorem reconcile_canonical_diamond
    : Canonical [⟨[3], [[2], [1]]⟩, ⟨[2], []⟩, ⟨[1], []⟩] :=
  reconcile_canonical (by decide) (by decide)

end Naalp.Reconcile
