import Naalp.Foundation.HighWater
import Naalp.Native.Federation
import Naalp.Python.Federation
import Naalp.Reconcile.Overlaps

/-! The merges of the three implementations against each other. The Go loop takes an id off a
counter for every occurrence among the causes; the Python and Rust loops take it off once, Rust an
unsigned counter. They go alike until a placed id is named twice by a node that waits.
-/

namespace Naalp.Reconcile

open Naalp.Foundation
open Naalp.Python (Exc)
open Naalp.Go (Stop Result)
open Naalp.Native.Audit (errCausalViolation)

/-- The Go loop, by the node that is released and the id that is placed: what holds at every release
of its run.
-/
def GoReleases {π : Type} (holds : Bytes → Slot Bytes ℤ → Prop) (nodes : List (CausalNode Bytes π))
    : Prop :=
  AllReleases holds (subtract perOccurrence : Bytes → Slot Bytes ℤ → Result ℤ) nodes.length
    (startSlots id nodes)

-----------------------------------------------------------------------------------------
-- Go and Python
-----------------------------------------------------------------------------------------

/-- Both errors are of the kind `CausalViolation`. -/
def BothViolate (stop : Stop) (exc : Exc) : Prop :=
  stop = errCausalViolation ∧ exc.kind? = some .causalViolation

/-- Both merges return one order, or both reject with `CausalViolation`. -/
def MergedAlike (go : Result (List Bytes)) (python : Python.Py (List Bytes)) : Prop :=
  Related BothViolate Eq go python

section Python

variable {nodes : List Python.Federation.CausalNode}

/-- The same nodes for the Go merge, at one position. -/
def goNodes (position : UInt64) (nodes : List Python.Federation.CausalNode)
    : List (CausalNode Bytes UInt64) :=
  nodes.map (Python.Federation.CausalNode.atPosition position)

variable {position : UInt64}

/-- The Go check of the nodes, which all have one position, is that of their cycles. -/
theorem verifyCausal_goNodes
    : Native.Audit.verifyCausal (goNodes position nodes)
      = raiseIf (hasCycle (graph nodes)) errCausalViolation := by
  have present : ¬ FutureCause (goNodes position nodes) := by
    apply @not_futureCause_of_equal _ _ _ _ _ _ position
    intro n member
    obtain ⟨m, -, rfl⟩ := List.mem_map.mp member
    rfl
  rw [Native.Audit.verifyCausal, verifyCausal_of_not_futureCause present, goNodes,
    atPosition_eq_mapPosition, hasCycle_mapPosition]

theorem goReconcile_goNodes
    : Go.Federation.reconcile (goNodes position nodes)
      = (raiseIf (hasCycle (graph nodes)) errCausalViolation >>= fun _ =>
          kahn (subtract perOccurrence) errCausalViolation (graph nodes).length
            (startSlots id (graph nodes))) := by
  rw [Go.Federation.reconcile, verifyCausal_goNodes, goNodes, atPosition_eq_mapPosition,
    startSlots_mapPosition, List.length_map]

theorem pythonReconcile_eq
    : Python.Federation.reconcile nodes
      = (raiseIf (hasCycle (graph nodes)) errCycle >>= fun _ =>
          kahn (subtract once) (.causalViolation "no ready node") (graph nodes).length
            (startSlots (presented ((graph nodes).map (·.id))) (graph nodes))) := by
  rw [Python.Federation.reconcile, verifyCausal_atPosition]
  rfl

theorem goReleases_goNodes {holds : Bytes → Slot Bytes ℤ → Prop}
    : GoReleases holds (goNodes position nodes) ↔ GoReleases holds (graph nodes) := by
  rw [GoReleases, goNodes, atPosition_eq_mapPosition, startSlots_mapPosition, List.length_map]
  rfl

/-- The merges go alike when the nodes are refused, or when no release is of a node that names the
placed id twice.
-/
theorem mergedAlike_of_releases
    (condition : hasCycle (graph nodes) = true
      ∨ GoReleases Slot.NamesOnce (graph nodes))
    : MergedAlike (Go.Federation.reconcile (goNodes position nodes))
        (Python.Federation.reconcile nodes) := by
  rw [goReconcile_goNodes, pythonReconcile_eq]
  cases found : hasCycle (graph nodes) with
  | true => exact ⟨rfl, rfl⟩
  | false =>
      rcases condition with cyclic | releases
      · rw [found] at cyclic
        cases cyclic
      · exact kahn_once_alike ⟨rfl, rfl⟩ releases

/-- On distinct ids that is when the graph has a cycle or no node names a presented cause twice. -/
theorem mergedAlike_iff (distinct : (nodes.map (·.id)).Nodup)
    : MergedAlike (Go.Federation.reconcile (goNodes position nodes))
        (Python.Federation.reconcile nodes)
      ↔ ¬ Acyclic (graph nodes) ∨ NamedOnce (graph nodes) := by
  rw [← map_id_graph] at distinct
  constructor
  · intro alike
    rw [or_iff_not_imp_left, not_not]
    intro acyclic n member
    by_contra repeated
    obtain ⟨order, ran, -⟩ := @kahn_perOccurrence_least _ _ _ _ _ _ _ _ _ _ errCausalViolation
      distinct acyclic
    rw [goReconcile_goNodes, pythonReconcile_eq, acyclic.hasCycle_eq_false] at alike
    exact kahn_once_ne_ok distinct member repeated ((alike.sameOk order).mp ran)
  · intro condition
    apply mergedAlike_of_releases
    refine condition.imp ?_ releases_of_nodup
    intro cyclic
    rwa [← hasCycle_eq_false_iff distinct, Bool.not_eq_false] at cyclic

/-- The Go and Python merges of the same nodes give one result when the nodes are refused, or when
no step of the loop places an id that a waiting node names twice; on distinct ids exactly when the
graph has a cycle or no node names a presented cause twice.
-/
theorem go_python_merged_alike (position : UInt64) (nodes : List Python.Federation.CausalNode)
    : ((Native.Audit.verifyCausal (goNodes position nodes) ≠ .ok ()
          ∨ GoReleases Slot.NamesOnce (goNodes position nodes))
        → MergedAlike (Go.Federation.reconcile (goNodes position nodes))
            (Python.Federation.reconcile nodes))
      ∧ ((nodes.map (·.id)).Nodup
        → (MergedAlike (Go.Federation.reconcile (goNodes position nodes))
              (Python.Federation.reconcile nodes)
            ↔ ¬ Acyclic (graph nodes) ∨ NamedOnce (graph nodes))) := by
  refine ⟨?_, mergedAlike_iff⟩
  intro condition
  apply mergedAlike_of_releases
  refine condition.imp ?_ goReleases_goNodes.mp
  rw [verifyCausal_goNodes]
  intro refused
  by_contra passed
  exact refused (raiseIf_neg passed)

/-- Witness: two causes of one effect. -/
theorem effect_of_two_merged_alike
    : MergedAlike (Go.Federation.reconcile (goNodes 7 [⟨[3], [[2], [1]]⟩, ⟨[2], []⟩, ⟨[1], []⟩]))
        (Python.Federation.reconcile [⟨[3], [[2], [1]]⟩, ⟨[2], []⟩, ⟨[1], []⟩]) :=
  ((go_python_merged_alike 7 _).2 (by decide)).mpr (.inr (by decide))

/-- A cause that is named twice: Go orders the two nodes, Python rejects them. -/
theorem repeated_cause_merged_apart
    : Go.Federation.reconcile (goNodes 0 [⟨[1], []⟩, ⟨[2], [[1], [1]]⟩]) = .ok [[1], [2]]
      ∧ Python.Federation.reconcile [⟨[1], []⟩, ⟨[2], [[1], [1]]⟩]
        = .error (.causalViolation "no ready node")
      ∧ ¬ MergedAlike (Go.Federation.reconcile (goNodes 0 [⟨[1], []⟩, ⟨[2], [[1], [1]]⟩]))
          (Python.Federation.reconcile [⟨[1], []⟩, ⟨[2], [[1], [1]]⟩]) :=
  ⟨rfl, rfl, id⟩

end Python

-----------------------------------------------------------------------------------------
-- Go and Rust
-----------------------------------------------------------------------------------------

section Rust

variable {nodes : List (CausalNode Bytes UInt64)}

/-- The Rust merge ends without an underflow and as the Go merge does, in builds with overflow
checks and without.
-/
structure RustAgrees (nodes : List (CausalNode Bytes UInt64)) : Prop where
  neverUnderflows : Rust.Federation.reconcile true nodes ≠ .error .panic
  same : ∀ overflowChecks,
    Rust.Federation.reconcile overflowChecks nodes = Go.Federation.reconcile nodes

/-- The waiting node names the id not at all, or once with a cause left to count. -/
def CountsDown (x : Bytes) (s : Slot Bytes ℤ) : Prop :=
  x ∈ s.causes → s.NamesOnce x ∧ 0 < s.waiting

/-- A release of a counter that is positive takes one off it. -/
theorem release_of_pos {overflowChecks : Bool} {x : Bytes} {s : Slot Bytes ℕ}
    (positive : x ∈ s.causes → 0 < s.waiting)
    : Rust.Federation.release overflowChecks x s
      = .ok (s.waiting - if x ∈ s.causes then 1 else 0) := by
  unfold Rust.Federation.release
  by_cases named : x ∈ s.causes
  · obtain ⟨waiting, counted⟩ := Nat.exists_eq_add_one_of_ne_zero (positive named).ne'
    rw [if_pos named, if_pos named, counted]
    rfl
  · rw [if_neg named, if_neg named]
    rfl

/-- The unsigned counter stays the signed one where that loses one at most. -/
theorem once_eq_released {b : Bytes} {causes causes' : List Bytes} {waiting : ℤ} {waiting' : ℕ}
    (same : waiting = waiting') (named : b ∈ causes ↔ b ∈ causes')
    (positive : b ∈ causes' → 0 < waiting')
    : waiting - once b causes = ((waiting' - if b ∈ causes' then 1 else 0 : ℕ) : ℤ) := by
  unfold once
  by_cases member : b ∈ causes'
  · have left := positive member
    rw [if_pos member, if_pos (named.mpr member)]
    omega
  · rw [if_neg member, if_neg (mt named.mp member), same]
    rfl

/-- Where every release of the Go run counts down, the Rust loop goes the same way.
Witness: its unsigned counter then never passes zero, so both rules leave the same amount.
-/
theorem rust_loop_alike (overflowChecks : Bool) (releases : GoReleases CountsDown nodes)
    : kahn (Rust.Federation.release overflowChecks) errCausalViolation nodes.length
        (startSlots id nodes)
      = kahn (subtract perOccurrence) errCausalViolation nodes.length (startSlots id nodes) := by
  let related : Slot Bytes ℤ → Slot Bytes ℕ → Prop := fun s s' =>
    s.waiting = s'.waiting ∧ s'.causes = s.causes
  have rules : AlikeRules related Eq CountsDown (subtract perOccurrence : _ → _ → Result ℤ)
      (Rust.Federation.release overflowChecks) := by
    intro b b' s s' _ relatedS down
    obtain ⟨waiting, causes⟩ := relatedS
    have positive : b.id ∈ s'.causes → 0 < s'.waiting := by
      intro named
      rw [causes] at named
      have left := (down named).2
      omega
    have single : s.NamesOnce b.id := by
      by_cases named : b.id ∈ s.causes
      · exact (down named).1
      · exact Slot.namesOnce_of_not_mem named
    rw [release_of_pos positive]
    refine ⟨?_, causes⟩
    change s.waiting - perOccurrence b.id s.causes = _
    rw [single.amount]
    exact once_eq_released waiting (by rw [causes]) positive
  have alike : List.Forall₂ (Alike related) (startSlots id nodes) (startSlots id nodes) :=
    startSlots_alike fun _ _ _ => ⟨rfl, rfl⟩
  have zero : ∀ s s', related s s' → (s'.waiting = 0 ↔ s.waiting = 0) := by
    intro s s' related
    rw [related.1, Nat.cast_eq_zero]
  have loops : Related Eq Eq
      (kahn (subtract perOccurrence) errCausalViolation nodes.length (startSlots id nodes))
      (kahn (Rust.Federation.release overflowChecks) errCausalViolation nodes.length
        (startSlots id nodes)) :=
    kahn_alike zero rules rfl alike releases
  exact loops.eq.symm

/-- On distinct ids the unsigned counters are those of the loop that releases once.
Witness: the counters stay equal and are positive where the id is named, so no subtraction goes
below zero.
-/
theorem rust_once_alike (overflowChecks : Bool) (distinct : (nodes.map (·.id)).Nodup)
    : SameOk
        (kahn (subtract once : _ → _ → Result ℤ) errCausalViolation nodes.length
          (startSlots (presented (nodes.map (·.id))) nodes))
        (kahn (Rust.Federation.release overflowChecks) errCausalViolation nodes.length
          (startSlots id nodes)) := by
  let ids := nodes.map (·.id)
  let related : Slot Bytes ℤ → Slot Bytes ℕ → Prop := fun s s' =>
    s.id ∈ ids ∧ s.waiting = s'.waiting ∧ s.causes = presented ids s'.causes
  have rules : AlikeRules related Eq (fun x s => x ∈ s.causes → 0 < s.waiting)
      (subtract once : _ → _ → Result ℤ) (Rust.Federation.release overflowChecks) := by
    intro b b' s s' relatedB relatedS left
    obtain ⟨inside, waiting, causes⟩ := relatedS
    have named : b.id ∈ s.causes ↔ b.id ∈ s'.causes := by
      rw [causes, mem_presented, and_iff_left relatedB.1]
    have positive : b.id ∈ s'.causes → 0 < s'.waiting := by
      intro member
      have left := left (named.mpr member)
      omega
    rw [release_of_pos positive]
    exact ⟨inside, once_eq_released waiting named positive, causes⟩
  have alike : List.Forall₂ (Alike related) (startSlots (presented ids) nodes)
      (startSlots id nodes) :=
    startSlots_alike fun n member _ => ⟨List.mem_map_of_mem member, rfl, rfl⟩
  have zero : ∀ s s', related s s' → (s'.waiting = 0 ↔ s.waiting = 0) := by
    intro s s' related
    rw [related.2.1, Nat.cast_eq_zero]
  have presentedOnly : ∀ s ∈ (startSlots (presented ids) nodes : List (Slot Bytes ℤ)),
      s.causes ⊆ ids := by
    intro s member c named
    obtain ⟨n, -, rfl⟩ := mem_startSlots.mp member
    exact (mem_presented.mp named).2
  have progress := @progress_startSlots _ _ _ nodes (presented ids) once distinct
    fun _ => presented_presented
  have releases := @releases_positive _ Stop _ _ _ _ _ _ _ _ _ _ nodes.length distinct progress
    presentedOnly
  have loops : Related Eq Eq
      (kahn (subtract once) errCausalViolation nodes.length
        (startSlots (presented (nodes.map (·.id))) nodes))
      (kahn (Rust.Federation.release overflowChecks) errCausalViolation nodes.length
        (startSlots id nodes)) :=
    kahn_alike zero rules rfl alike releases
  exact loops.sameOk

/-- On nodes that `verify_causal` accepts, Rust neither underflows nor differs from Go when every
step of the loop places an id that the waiting nodes name once at most, with a cause left to count;
on distinct ids exactly when no node names a presented cause twice.
Witness: the loops differ in the release alone; on distinct ids a repeated cause is lowered
once in Rust and each time in Go, and then the two orders cannot both be complete.
-/
theorem rust_go_merged_alike (nodes : List (CausalNode Bytes UInt64))
    (accepted : Native.Audit.verifyCausal nodes = .ok ())
    : (GoReleases CountsDown nodes → RustAgrees nodes)
      ∧ ((nodes.map (·.id)).Nodup → (RustAgrees nodes ↔ NamedOnce nodes)) := by
  have rust : ∀ overflowChecks, Rust.Federation.reconcile overflowChecks nodes
      = kahn (Rust.Federation.release overflowChecks) errCausalViolation nodes.length
          (startSlots id nodes) := by
    intro overflowChecks
    rw [Rust.Federation.reconcile, accepted]
    rfl
  have go : Go.Federation.reconcile nodes
      = kahn (subtract perOccurrence) errCausalViolation nodes.length (startSlots id nodes) := by
    rw [Go.Federation.reconcile, accepted]
    rfl
  have agrees : (∀ overflowChecks,
      Rust.Federation.reconcile overflowChecks nodes = Go.Federation.reconcile nodes)
      → RustAgrees nodes := by
    intro same
    refine ⟨?_, same⟩
    rw [same, go]
    have failures : FailsOnly (· ≠ Stop.panic) (kahn (subtract perOccurrence) errCausalViolation
        nodes.length (startSlots id nodes)) :=
      kahn_failsOnly (fun _ _ => failsOnly_pure _) Stop.noConfusion
    intro panicked
    exact failures .panic panicked rfl
  refine ⟨?_, ?_⟩
  · intro releases
    apply agrees
    intro overflowChecks
    rw [rust, go]
    exact rust_loop_alike overflowChecks releases
  · intro distinct
    have acyclic := (hasCycle_eq_false_iff distinct).mp (verifyCausal_eq_ok.mp accepted).2
    obtain ⟨order, ran, least⟩ := @kahn_perOccurrence_least _ _ _ _ _ _ _ _ _ _ errCausalViolation
      distinct acyclic
    constructor
    · intro agreed n member
      by_contra repeated
      have same := agreed.same true
      rw [rust, go, ran] at same
      exact kahn_once_ne_ok distinct member repeated
        ((rust_once_alike true distinct order).mpr same)
    · intro named
      apply agrees
      intro overflowChecks
      obtain ⟨order', ran', least'⟩ := @kahn_once_least _ _ _ _ _ _ _ _ _ _ errCausalViolation
        distinct acyclic named
      rw [rust, go, ran, (rust_once_alike overflowChecks distinct order').mp ran',
        least.unique least']

/-- Witness: two causes of one effect. -/
theorem effect_of_two_never_underflows
    : RustAgrees [⟨[3], [[2], [1]], 2⟩, ⟨[2], [], 1⟩, ⟨[1], [], 0⟩] :=
  ((rust_go_merged_alike _ rfl).2 (by decide)).mpr (by decide)

/-- A cause that is presented twice before its effect: Rust takes its second copy off a counter at
zero, Go gets stuck. A cause that is named twice: Rust gets stuck, Go orders the nodes.
-/
theorem repeated_cause_underflows
    : Rust.Federation.reconcile true [⟨[1], [], 0⟩, ⟨[1], [], 0⟩, ⟨[2], [[1]], 0⟩] = .error .panic
      ∧ Go.Federation.reconcile [⟨[1], [], 0⟩, ⟨[1], [], 0⟩, ⟨[2], [[1]], 0⟩]
        = .error errCausalViolation
      ∧ Rust.Federation.reconcile false [⟨[1], [], 0⟩, ⟨[2], [[1], [1]], 0⟩]
        = .error errCausalViolation
      ∧ Go.Federation.reconcile [⟨[1], [], 0⟩, ⟨[2], [[1], [1]], 0⟩] = .ok [[1], [2]]
      ∧ Native.Audit.verifyCausal [⟨[1], [], 0⟩, ⟨[1], [], 0⟩, ⟨[2], [[1]], 0⟩] = .ok ()
      ∧ ¬ RustAgrees [⟨[1], [], 0⟩, ⟨[1], [], 0⟩, ⟨[2], [[1]], 0⟩] :=
  ⟨rfl, rfl, rfl, rfl, rfl, fun agreed => agreed.neverUnderflows rfl⟩

end Rust

end Naalp.Reconcile

/-! The check of causal graphs and the topological order of the audit modules, on all lists of
nodes. Ids may repeat, and so may the causes of a node.
-/

namespace Naalp.Reconcile

open Naalp.Foundation

attribute [local instance] wordOrder

variable {κ π ε : Type} [DecidableEq κ] [LinearOrder π]

/-- The check accepts the graphs without a future cause and without a cycle, and orders those that
it accepts by their positions.
-/
structure OrdersCausally (verifyCausal : List (CausalNode κ π) → Except ε Unit)
    (topoOrder : List (CausalNode κ π) → Except ε (List κ)) (nodes : List (CausalNode κ π))
    : Prop where
  accepts : verifyCausal nodes = .ok ()
    ↔ ¬ FutureCause nodes ∧ ∀ v, ¬ Relation.TransGen (LastNames nodes) v v
  orders : verifyCausal nodes = .ok () → ∃ order,
    topoOrder nodes = .ok (order.map (·.2.id)) ∧ PositionOrder nodes order
  refuses : ∀ error, verifyCausal nodes = .error error → topoOrder nodes = .error error

/-- The check and the ordering by position order causally, whatever the nodes. -/
theorem ordersCausally_of_graph [DecidableLT π] {futureCause cycle stuck : ε}
    (nodes : List (CausalNode κ π))
    : OrdersCausally (Foundation.verifyCausal futureCause cycle)
        (fun nodes => do
          Foundation.verifyCausal futureCause cycle nodes
          linearizeByPosition stuck nodes)
        nodes := by
  refine ⟨?_, ?_, ?_⟩
  · rw [verifyCausal_eq_ok, hasCycle_eq_false_iff_last]
  · intro accepted
    obtain ⟨present, acyclic⟩ := verifyCausal_eq_ok.mp accepted
    obtain ⟨order, ran, ordered⟩ := @linearizeByPosition_ok _ _ _ _ _ _ _ stuck present acyclic
    refine ⟨order, ?_, ordered⟩
    simp only [accepted]
    exact ran
  · intro error refused
    simp only [refused]
    rfl

theorem ordersCausally
    : (∀ nodes : List (CausalNode Bytes Int),
        OrdersCausally Python.Audit.verifyCausal Python.Audit.topoOrder nodes)
      ∧ ∀ nodes : List (CausalNode Bytes UInt64),
        OrdersCausally Native.Audit.verifyCausal Go.Audit.topoOrder nodes :=
  ⟨ordersCausally_of_graph, ordersCausally_of_graph⟩

end Naalp.Reconcile
