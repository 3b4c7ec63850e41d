import Naalp.Foundation.CausalGraph
import Naalp.Foundation.CausalOrder
import Naalp.Python.Exceptions

/-! The causal graph of `impl/python/naalp/graph.py`, the topological order of
`impl/python/naalp/audit.py`, and the reconcile of `impl/python/naalp/federation.py`, which has a
copy of the loop of the graph. The nodes of the graph are tuples of an id, the ids of the causes and
a position.
-/

namespace Naalp.Python

open Naalp.Foundation

namespace Graph

/-- `verify_causal`. -/
def verifyCausal (nodes : List (CausalNode Bytes Int)) : Py Unit :=
  Foundation.verifyCausal (.causalViolation "cause at a later position than its effect")
    (.causalViolation "causal graph contains a cycle") nodes

/-- The causes that no node presents are dropped, and a placed id is taken off the in-degree of a
node once, by `ids[pick] in causes[j]`.
-/
def linearize (stuck : Exc) (nodes : List (CausalNode Bytes Int)) : Py (List Bytes) :=
  kahn (subtract once) stuck nodes.length (startSlots (presented (nodes.map (·.id))) nodes)

def reconcile (nodes : List (CausalNode Bytes Int)) : Py (List Bytes) := do
  verifyCausal nodes
  linearize (.causalViolation "no ready node (unreachable after verify_causal)") nodes

end Graph

namespace Audit

/-- `verify_causal`, which passes the nodes on to the graph. -/
def verifyCausal (nodes : List (CausalNode Bytes Int)) : Py Unit := Graph.verifyCausal nodes

/-- `topo_order`. -/
def topoOrder (nodes : List (CausalNode Bytes Int)) : Py (List Bytes) := do
  verifyCausal nodes
  linearizeByPosition (.causalViolation "no ready node (unreachable after verify_causal)") nodes

end Audit

namespace Federation

/-- A node's place in the shared causal graph. -/
structure CausalNode where
  id : Bytes
  causes : List Bytes
  deriving DecidableEq, Repr

def CausalNode.atPosition {π : Type} (position : π) (n : CausalNode)
    : Foundation.CausalNode Bytes π :=
  { id := n.id, causes := n.causes, position }

/-- `reconcile`: all nodes are given the position 0. -/
def reconcile (nodes : List CausalNode) : Py (List Bytes) := do
  let positioned := nodes.map (CausalNode.atPosition (0 : Int))
  Graph.verifyCausal positioned
  Graph.linearize (.causalViolation "no ready node") positioned

structure ReconcileRecord where
  authorities : List PyStr
  order : List Bytes

def reconcileMismatch : Exc :=
  .reconcileMismatch
    "independent linearization disagrees with the reconcile record's claimed order"

def verifyReconcileOrder (record : ReconcileRecord) (nodes : List CausalNode) : Py Unit := do
  let recomputed ← reconcile nodes
  raiseIf (recomputed.length ≠ record.order.length) reconcileMismatch
  forM (recomputed.zip record.order) fun (got, want) => raiseIf (got ≠ want) reconcileMismatch

end Federation

end Naalp.Python
