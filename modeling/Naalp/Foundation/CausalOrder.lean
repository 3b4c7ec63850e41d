import Naalp.Foundation.CausalGraph
import Naalp.Foundation.ReadyScan

/-! The nodes of a causal graph in an order in which their positions do not fall. Ids and causes may
repeat; a cause stands for the last node with its id, and the order has every node once.
-/

namespace Naalp.Foundation

variable {κ π ε : Type}

/-- The nodes with their indices. -/
def enumerate (nodes : List (CausalNode κ π)) : List (ℕ × CausalNode κ π) :=
  (List.range nodes.length).zip nodes

/-- The ids of the nodes as the loop places them. The counters have an edge for every occurrence of
a presented cause.
-/
def linearizeByPosition [DecidableEq κ] [LT π] [DecidableLT π] (stuck : ε)
    (nodes : List (CausalNode κ π)) : Except ε (List κ) := do
  let counters := countEdges (edgesOf (successors nodes) (List.range nodes.length))
  let order ← linearizeScan (·.position) stuck counters.dependents (enumerate nodes) nodes.length
    { indegree := counters.indegree, done := fun _ => false }
  return order.map (·.2.id)

/-- The last node with the id `e` has the presented id `c` for a cause. -/
def LastNames [DecidableEq κ] (nodes : List (CausalNode κ π)) (e c : κ) : Prop :=
  ∃ n, (indexOf nodes e).bind (nodes[·]?) = some n ∧ c ∈ n.causes ∧ c ∈ nodes.map (·.id)

/-- Every node comes once, after the nodes that its causes stand for, and not before a node at a
lower position.
-/
structure PositionOrder [DecidableEq κ] [LE π] (nodes : List (CausalNode κ π))
    (order : List (ℕ × CausalNode κ π)) : Prop where
  perm : order.Perm (enumerate nodes)
  causal : Causal (Edge (successors nodes)) [] (order.map Prod.fst)
  positions : order.Pairwise fun e d => e.2.position ≤ d.2.position

section Enumeration

variable {nodes : List (CausalNode κ π)}

theorem map_fst_enumerate : (enumerate nodes).map Prod.fst = List.range nodes.length :=
  List.map_fst_zip (by simp)

theorem length_enumerate : (enumerate nodes).length = nodes.length := by
  simp [enumerate]

/-- Enumeration pairs every node with its index. -/
theorem mem_enumerate {i : ℕ} {n : CausalNode κ π}
    : (i, n) ∈ enumerate nodes ↔ nodes[i]? = some n := by
  rw [enumerate, List.mem_iff_getElem?]
  constructor
  · intro listed
    obtain ⟨k, found⟩ := listed
    obtain ⟨index, inside⟩ := List.getElem?_zip_eq_some.mp found
    obtain ⟨_, same⟩ := List.getElem?_eq_some_iff.mp index
    rw [List.getElem_range] at same
    obtain rfl : k = i := same
    exact inside
  · intro found
    obtain ⟨inside, -⟩ := List.getElem?_eq_some_iff.mp found
    exact ⟨i, List.getElem?_zip_eq_some.mpr ⟨List.getElem?_range inside, found⟩⟩

end Enumeration

section Relation

variable [DecidableEq κ] {nodes : List (CausalNode κ π)}

/-- An index that a cause stands for is that of the last node with the id of its node. -/
theorem exists_last {c : κ} {j : ℕ} (found : indexOf nodes c = some j)
    : c ∈ nodes.map (·.id) ∧ ∃ m, nodes[j]? = some m ∧ m.id = c := by
  obtain ⟨m, inside, same⟩ := indexOf_eq_some found
  exact ⟨same ▸ List.mem_map_of_mem (f := (·.id)) (List.mem_of_getElem? inside), m, inside, same⟩

theorem edge_of_lastNames {e c : κ} {i : ℕ} (named : LastNames nodes e c)
    (start : indexOf nodes e = some i)
    : ∃ j, indexOf nodes c = some j ∧ Edge (successors nodes) i j := by
  obtain ⟨n, last, cause, presented⟩ := named
  obtain ⟨j, found⟩ := Option.ne_none_iff_exists'.mp (indexFrom_ne_none presented)
  rw [start, Option.bind_some] at last
  exact ⟨j, found, edge_successors.mpr ⟨n, last, c, cause, found⟩⟩

theorem lastNames_of_edge {e : κ} {i j : ℕ} (edge : Edge (successors nodes) i j)
    (start : indexOf nodes e = some i)
    : ∃ c, indexOf nodes c = some j ∧ LastNames nodes e c := by
  obtain ⟨n, inside, c, cause, found⟩ := edge_successors.mp edge
  have last : (indexOf nodes e).bind (nodes[·]?) = some n := by rw [start, Option.bind_some, inside]
  exact ⟨c, found, n, last, cause, (exists_last found).1⟩

/-- What the last nodes name is what the search follows. -/
theorem path_of_lastNames {e c : κ} {i : ℕ} (named : Relation.TransGen (LastNames nodes) e c)
    (start : indexOf nodes e = some i)
    : ∃ j, indexOf nodes c = some j ∧ Relation.TransGen (Edge (successors nodes)) i j := by
  induction named with
  | single named =>
      obtain ⟨j, found, edge⟩ := edge_of_lastNames named start
      exact ⟨j, found, .single edge⟩
  | tail _ named ih =>
      obtain ⟨j, found, path⟩ := ih
      obtain ⟨k, found', edge⟩ := edge_of_lastNames named found
      exact ⟨k, found', path.tail edge⟩

/-- A path through the indices is a path through the ids that are last named, by induction on
the path.
-/
theorem lastNames_of_path {e : κ} {i j : ℕ}
    (path : Relation.TransGen (Edge (successors nodes)) i j) (start : indexOf nodes e = some i)
    : ∃ c, indexOf nodes c = some j ∧ Relation.TransGen (LastNames nodes) e c := by
  induction path with
  | single edge =>
      obtain ⟨c, found, named⟩ := lastNames_of_edge edge start
      exact ⟨c, found, .single named⟩
  | tail _ edge ih =>
      obtain ⟨c, found, named⟩ := ih
      obtain ⟨d, found', named'⟩ := lastNames_of_edge edge found
      exact ⟨d, found', named.tail named'⟩

/-- The search finds the cycles of the graph on the ids: a node that is not the last with its id has
no edge to it, so it is on no cycle.
-/
theorem hasCycle_eq_false_iff_last
    : hasCycle nodes = false ↔ ∀ v, ¬ Relation.TransGen (LastNames nodes) v v := by
  have sound := hasCycle_sound nodes
  constructor
  · intro passed v cycle
    rw [passed, if_neg Bool.false_ne_true] at sound
    obtain ⟨_, -, _, -, -, presented⟩ := Relation.TransGen.tail'_iff.mp cycle
    obtain ⟨i, start⟩ := Option.ne_none_iff_exists'.mp (indexFrom_ne_none presented)
    obtain ⟨j, found, path⟩ := path_of_lastNames cycle start
    obtain rfl := Option.some.inj (start.symm.trans found)
    obtain ⟨n, inside, -⟩ := indexOf_eq_some start
    exact sound i (List.mem_range.mpr (List.getElem?_eq_some_iff.mp inside).1) path
  · intro acyclic
    by_contra found
    rw [Bool.not_eq_false] at found
    rw [found, if_pos rfl] at sound
    obtain ⟨i, cycle⟩ := sound
    obtain ⟨h, -, edge⟩ := Relation.TransGen.tail'_iff.mp cycle
    obtain ⟨n, -, e, -, start⟩ := edge_successors.mp edge
    obtain ⟨c, again, named⟩ := lastNames_of_path cycle start
    have same : c = e := by
      obtain ⟨-, m, inside, idM⟩ := exists_last start
      obtain ⟨-, m', inside', idM'⟩ := exists_last again
      obtain rfl := Option.some.inj (inside.symm.trans inside')
      exact idM'.symm.trans idM
    subst same
    exact acyclic c named

end Relation

section Ordering

variable [DecidableEq κ] [LinearOrder π] [DecidableLT π] {nodes : List (CausalNode κ π)} {stuck : ε}

omit [LinearOrder π] [DecidableLT π] in
theorem requires_successors {i j : ℕ} : Requires (List.range nodes.length) (successors nodes) i j
    ↔ Edge (successors nodes) i j := by
  refine and_iff_right_of_imp fun edge => ?_
  obtain ⟨n, inside, -⟩ := edge_successors.mp edge
  exact List.mem_range.mpr (List.getElem?_eq_some_iff.mp inside).1

/-- Where nothing is named from an earlier position and there is no cycle, all nodes are placed.
Witness: the scan places a node in each round, as every acyclic graph on the nodes left has one
that is ready.
-/
theorem linearizeByPosition_ok (present : ¬ FutureCause nodes) (acyclic : hasCycle nodes = false)
    : ∃ order, linearizeByPosition stuck nodes = .ok (order.map (·.2.id))
        ∧ PositionOrder nodes order := by
  have indices : (enumerate nodes).map Prod.fst = List.range nodes.length := map_fst_enumerate
  have distinct : ((enumerate nodes).map Prod.fst).Nodup := indices ▸ List.nodup_range
  have requires : Requires ((enumerate nodes).map Prod.fst) (successors nodes)
      = Edge (successors nodes) := by
    funext i j
    rw [indices]
    exact propext requires_successors
  have noCycle : ∀ i, ¬ Relation.TransGen (Edge (successors nodes)) i i := by
    intro i cycle
    have sound := hasCycle_sound nodes
    rw [acyclic, if_neg Bool.false_ne_true] at sound
    obtain ⟨j, edge, -⟩ := Relation.TransGen.head'_iff.mp cycle
    exact sound i (requires_successors.mpr edge).1 cycle
  obtain ⟨order, ran, listed, perm, greedy⟩ := @linearizeScan_edgesOf _ _ _ _ _ _ _
    (fun n : CausalNode κ π => n.position) (successors nodes) (enumerate nodes) stuck distinct
    (fun i _ j edge => indices ▸ List.mem_range.mpr (successors_lt nodes i j edge))
    (requires ▸ noCycle)
  rw [requires] at greedy
  rw [List.nil_append] at perm
  have once : (order.map Prod.fst).Nodup := perm.nodup_iff.mpr distinct
  have all := (List.subperm_of_subset once.of_map listed).perm_of_length_le (by
    rw [← List.length_map Prod.fst, ← perm.length_eq, List.length_map])
  refine ⟨order, ?_, all, greedy.causal, greedy.positions listed once ?_⟩
  · rw [indices, length_enumerate] at ran
    simp only [linearizeByPosition, ran]
    rfl
  · intro i m j n inside inside' edge
    obtain ⟨n', found, c, cause, index⟩ := edge_successors.mp edge
    obtain rfl := Option.some.inj ((mem_enumerate.mp inside').symm.trans found)
    refine not_lt.mp fun later => present ?_
    refine ⟨n, List.mem_of_getElem? found, c, cause, m, ?_, later⟩
    rw [index, Option.bind_some]
    exact mem_enumerate.mp inside

end Ordering

end Naalp.Foundation
