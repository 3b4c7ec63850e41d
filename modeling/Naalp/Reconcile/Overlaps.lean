import Naalp.Native.Federation
import Naalp.Reconcile.Canonical

/-! Nodes that are presented several times, and causes that a node names several times. The merges
order every id as often as it is presented.
-/

namespace Naalp.Reconcile

open Naalp.Foundation
open Naalp.Python (Exc)

variable {κ π ε : Type} [DecidableEq κ] [DecidableEq π]

/-- The graph with repeated causes and repeated nodes removed. -/
def dedupCauses (n : CausalNode κ π) : CausalNode κ π := { n with causes := n.causes.dedup }

def clean (nodes : List (CausalNode κ π)) : List (CausalNode κ π) := (nodes.map dedupCauses).dedup

/-- No node names a presented cause twice. -/
def NamedOnce (nodes : List (CausalNode κ π)) : Prop :=
  ∀ n ∈ nodes, (presented (nodes.map (·.id)) n.causes).Nodup

instance (nodes : List (CausalNode κ π)) : Decidable (NamedOnce nodes) :=
  inferInstanceAs (Decidable (∀ n ∈ nodes, (presented (nodes.map (·.id)) n.causes).Nodup))

/-- The merge of the nodes lists every presented id once, in causal order, as the merge of the clean
nodes does.
-/
def OrderedOnce (names : κ → κ → Prop) (ids : List κ) (merged cleaned : Except ε (List κ)) : Prop :=
  ∃ order, merged = .ok order ∧ order.Nodup ∧ (∀ x, x ∈ order ↔ x ∈ ids) ∧ Causal names [] order
    ∧ cleaned = .ok order

variable {nodes : List (CausalNode κ π)}

omit [DecidableEq π] in
theorem map_id_dedupCauses : (nodes.map dedupCauses).map (·.id) = nodes.map (·.id) := by
  rw [List.map_map]
  rfl

omit [DecidableEq π] in
theorem names_dedupCauses : Names (nodes.map dedupCauses) = Names nodes := by
  unfold Names
  rw [map_id_dedupCauses]
  simp [dedupCauses]

/-- On distinct ids only the causes change. -/
theorem clean_of_distinct (distinct : (nodes.map (·.id)).Nodup)
    : clean nodes = nodes.map dedupCauses := by
  apply List.dedup_eq_self.mpr
  apply List.Nodup.of_map (·.id)
  rwa [map_id_dedupCauses]

omit [DecidableEq π] in
theorem futureCause_dedupCauses [LT π] (distinct : (nodes.map (·.id)).Nodup)
    : FutureCause (nodes.map dedupCauses) ↔ FutureCause nodes := by
  rw [futureCause_iff distinct, futureCause_iff (by rwa [map_id_dedupCauses])]
  simp [dedupCauses]

omit [DecidableEq π] in
theorem namedOnce_dedupCauses : NamedOnce (nodes.map dedupCauses) := by
  intro n member
  obtain ⟨m, -, rfl⟩ := List.mem_map.mp member
  exact (List.nodup_dedup m.causes).filter _

/-- A merge whose results are permutations of the ids, and which linearizes distinct ids when a
condition on the causes holds and only then, orders every id once exactly there.
-/
theorem orderedOnce_iff [LT κ] [Std.Trichotomous (fun x y : κ => x < y)] [LT π]
    {merge : List (CausalNode κ π) → Except ε (List κ)}
    {single : List (CausalNode κ π) → Prop}
    (returns : ∀ (nodes : List (CausalNode κ π)) order, merge nodes = .ok order
      → ¬ FutureCause nodes ∧ order.Perm (nodes.map (·.id))
        ∧ ((nodes.map (·.id)).Nodup → single nodes))
    (merges : ∀ nodes : List (CausalNode κ π), (nodes.map (·.id)).Nodup → Acyclic nodes
      → ¬ FutureCause nodes
      → single nodes → ∃ order, merge nodes = .ok order
        ∧ LeastLinearization (Names nodes) (nodes.map (·.id)) order)
    (cleaned : ∀ nodes : List (CausalNode κ π), single (nodes.map dedupCauses))
    (acyclic : Acyclic nodes)
    : OrderedOnce (Names nodes) (nodes.map (·.id)) (merge nodes) (merge (clean nodes))
      ↔ (nodes.map (·.id)).Nodup ∧ ¬ FutureCause nodes ∧ single nodes := by
  constructor
  · intro ordered
    obtain ⟨order, ran, nodup, -⟩ := ordered
    obtain ⟨present, perm, named⟩ := returns nodes order ran
    have distinct := perm.nodup_iff.mp nodup
    exact ⟨distinct, present, named distinct⟩
  · intro condition
    obtain ⟨distinct, present, named⟩ := condition
    obtain ⟨order, ran, least⟩ := merges nodes distinct acyclic present named
    have distinct' : ((nodes.map dedupCauses).map (·.id)).Nodup := by rwa [map_id_dedupCauses]
    have acyclic' : Acyclic (nodes.map dedupCauses) := by rwa [Acyclic, names_dedupCauses]
    have present' := mt (futureCause_dedupCauses distinct).mp present
    obtain ⟨order', ran', least'⟩ := merges _ distinct' acyclic' present' (cleaned nodes)
    rw [names_dedupCauses, map_id_dedupCauses] at least'
    refine ⟨order, ran, least.perm.nodup_iff.mpr distinct, fun _ => least.perm.mem_iff,
      least.causal, ?_⟩
    rw [clean_of_distinct distinct, ran', least'.unique least]

/-- The merges of the Python modules, which differ in the error of a branch that cannot be reached.
-/
def mergeOnce (stuck : Exc) (nodes : List (CausalNode Bytes Int)) : Python.Py (List Bytes) := do
  Python.Graph.verifyCausal nodes
  Python.Graph.linearize stuck nodes

/-- The Python merges need nodes that name each cause once. -/
theorem mergeOnce_orderedOnce_iff (stuck : Exc) {nodes : List (CausalNode Bytes Int)}
    (acyclic : Acyclic nodes)
    : OrderedOnce (Names nodes) (nodes.map (·.id)) (mergeOnce stuck nodes)
        (mergeOnce stuck (clean nodes))
      ↔ (nodes.map (·.id)).Nodup ∧ ¬ FutureCause nodes ∧ NamedOnce nodes := by
  apply orderedOnce_iff
  · intro nodes order ran
    obtain ⟨passed, ran⟩ := unit_bind_eq_ok.mp ran
    refine ⟨(verifyCausal_eq_ok.mp passed).1, kahn_startSlots_perm ran, ?_⟩
    intro distinct n member
    by_contra repeated
    exact kahn_once_ne_ok distinct member repeated ran
  · intro nodes distinct acyclic present named
    obtain ⟨order, ran, least⟩ :=
      @kahn_once_least _ _ Exc _ _ _ _ _ _ _ stuck distinct acyclic named
    have passed : Python.Graph.verifyCausal nodes = .ok () :=
      verifyCausal_eq_ok.mpr ⟨present, acyclic.hasCycle_eq_false⟩
    exact ⟨order, unit_bind_eq_ok.mpr ⟨passed, ran⟩, least⟩
  · intro nodes
    exact namedOnce_dedupCauses
  · exact acyclic

/-- The Go merge needs distinct ids only. -/
theorem go_orderedOnce_iff {nodes : List (CausalNode Bytes UInt64)} (acyclic : Acyclic nodes)
    : OrderedOnce (Names nodes) (nodes.map (·.id)) (Go.Federation.reconcile nodes)
        (Go.Federation.reconcile (clean nodes))
      ↔ (nodes.map (·.id)).Nodup ∧ ¬ FutureCause nodes := by
  have once := @orderedOnce_iff _ _ _ _ _ nodes _ _ _ Go.Federation.reconcile (fun _ => True)
    (by
      intro nodes order ran
      obtain ⟨passed, ran⟩ := unit_bind_eq_ok.mp ran
      exact ⟨(verifyCausal_eq_ok.mp passed).1, kahn_startSlots_perm ran, fun _ => trivial⟩)
    (by
      intro nodes distinct acyclic present _
      obtain ⟨order, ran, least⟩ := @kahn_perOccurrence_least _ _ _ _ _ _ _ _ _ _
        Native.Audit.errCausalViolation distinct acyclic
      have passed : Native.Audit.verifyCausal nodes = .ok () :=
        verifyCausal_eq_ok.mpr ⟨present, acyclic.hasCycle_eq_false⟩
      exact ⟨order, unit_bind_eq_ok.mpr ⟨passed, ran⟩, least⟩)
    (fun _ => trivial) acyclic
  simpa only [and_true] using once

/-- The nodes of the federation with repeated causes and repeated nodes removed. -/
def cleanNodes (nodes : List Python.Federation.CausalNode) : List Python.Federation.CausalNode :=
  (nodes.map fun n => { n with causes := n.causes.dedup }).dedup

/-- Cleaning the nodes cleans their graph. -/
theorem graph_cleanNodes (nodes : List Python.Federation.CausalNode)
    : graph (cleanNodes nodes) = clean (graph nodes) := by
  have injective : Function.Injective (Python.Federation.CausalNode.atPosition (0 : Int)) := by
    intro n m same
    cases n
    cases m
    obtain ⟨rfl, rfl, -⟩ := CausalNode.mk.inj same
    rfl
  rw [graph, cleanNodes, ← List.dedup_map_of_injective injective, clean, graph, List.map_map,
    List.map_map]
  rfl

/-- An acyclic graph is merged with every id listed once, in causal order and as without
repetitions, exactly when the ids are distinct, no cause is at a later position, and for the Python
merges no node names a presented cause twice.
-/
theorem overlaps_ordered_once_iff (objects : List Python.Federation.CausalNode)
    (nodes : List (CausalNode Bytes Int)) (goNodes : List (CausalNode Bytes UInt64))
    : (Acyclic (graph objects)
        → (OrderedOnce (Names (graph objects)) (objects.map (·.id))
              (Python.Federation.reconcile objects)
                (Python.Federation.reconcile (cleanNodes objects))
            ↔ (objects.map (·.id)).Nodup ∧ NamedOnce (graph objects)))
      ∧ (Acyclic nodes
        → (OrderedOnce (Names nodes) (nodes.map (·.id)) (Python.Graph.reconcile nodes)
              (Python.Graph.reconcile (clean nodes))
            ↔ (nodes.map (·.id)).Nodup ∧ ¬ FutureCause nodes ∧ NamedOnce nodes))
      ∧ (Acyclic goNodes
        → (OrderedOnce (Names goNodes) (goNodes.map (·.id)) (Go.Federation.reconcile goNodes)
              (Go.Federation.reconcile (clean goNodes))
            ↔ (goNodes.map (·.id)).Nodup ∧ ¬ FutureCause goNodes)) := by
  refine ⟨?_, fun acyclic => mergeOnce_orderedOnce_iff _ acyclic,
    fun acyclic => go_orderedOnce_iff acyclic⟩
  intro acyclic
  have once := mergeOnce_orderedOnce_iff (.causalViolation "no ready node") acyclic
  rw [and_iff_right (@not_futureCause_graph objects), ← graph_cleanNodes, map_id_graph] at once
  exact once

/-- Witness: an effect with two causes, of which one names the other. -/
theorem three_objects_ordered_once
    : OrderedOnce (Names (graph [⟨[3], [[2], [1]]⟩, ⟨[2], [[1]]⟩, ⟨[1], []⟩])) [[3], [2], [1]]
        (Python.Federation.reconcile [⟨[3], [[2], [1]]⟩, ⟨[2], [[1]]⟩, ⟨[1], []⟩])
        (Python.Federation.reconcile
            (cleanNodes [⟨[3], [[2], [1]]⟩, ⟨[2], [[1]]⟩, ⟨[1], []⟩])) := by
  refine ((overlaps_ordered_once_iff _ [] []).1 ?_).mpr ⟨by decide, by decide⟩
  exact (hasCycle_eq_false_iff (by decide)).mp rfl

omit [DecidableEq κ] in
theorem not_orderedOnce {names : κ → κ → Prop} {ids order : List κ}
    {merged cleaned : Except ε (List κ)} (ran : merged = .ok order) (repeated : ¬ order.Nodup)
    : ¬ OrderedOnce names ids merged cleaned := by
  intro ordered
  obtain ⟨order', ran', nodup, -⟩ := ordered
  obtain rfl := Except.ok.inj (ran.symm.trans ran')
  exact repeated nodup

/-- An object that two scopes present is listed twice by the three merges. -/
theorem overlap_listed_twice
    : Acyclic (graph [⟨[1], []⟩, ⟨[1], []⟩])
      ∧ Python.Federation.reconcile [⟨[1], []⟩, ⟨[1], []⟩] = .ok [[1], [1]]
      ∧ Python.Graph.reconcile [⟨[1], [], 0⟩, ⟨[1], [], 0⟩] = .ok [[1], [1]]
      ∧ Go.Federation.reconcile [⟨[1], [], 0⟩, ⟨[1], [], 0⟩] = .ok [[1], [1]]
      ∧ ¬ OrderedOnce (Names (graph [⟨[1], []⟩, ⟨[1], []⟩])) [[1], [1]]
          (Python.Federation.reconcile [⟨[1], []⟩, ⟨[1], []⟩])
          (Python.Federation.reconcile (cleanNodes [⟨[1], []⟩, ⟨[1], []⟩])) := by
  refine ⟨?_, rfl, rfl, rfl, not_orderedOnce rfl (by decide)⟩
  intro v cycle
  obtain ⟨c, named, -⟩ := Relation.TransGen.head'_iff.mp cycle
  obtain ⟨-, n, member, -, cause⟩ := named
  simp only [graph, List.map_cons, List.map_nil, List.mem_cons, List.not_mem_nil, or_false,
    or_self] at member
  subst member
  cases cause

end Naalp.Reconcile
