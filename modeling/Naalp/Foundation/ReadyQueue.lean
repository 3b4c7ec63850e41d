import Mathlib.Data.Int.Cast.Lemmas
import Mathlib.Data.List.Sort
import Mathlib.Logic.Function.Basic
import Naalp.Foundation.Linearization

/-! Kahn's linearization with a queue of ready nodes. In every round the loop sorts the queue,
places its first node and lowers the counters of the nodes that wait for it; those whose counter
reaches zero join the queue.
-/

namespace Naalp.Foundation

variable {ι : Type}

-----------------------------------------------------------------------------------------
-- Counters
-----------------------------------------------------------------------------------------

section Counters

variable [DecidableEq ι]

/-- The nodes that wait for each node, and how many edges lead to each node. -/
structure Counters (ι : Type) where
  dependents : ι → List ι
  indegree : ι → ℤ

def Counters.empty : Counters ι := ⟨fun _ => [], fun _ => 0⟩

/-- An edge leads from a node to one that waits for it. -/
def Counters.addEdge (counters : Counters ι) (edge : ι × ι) : Counters ι where
  dependents := Function.update counters.dependents edge.1
    (counters.dependents edge.1 ++ [edge.2])
  indegree := Function.update counters.indegree edge.2 (counters.indegree edge.2 + 1)

def countEdges (edges : List (ι × ι)) : Counters ι := edges.foldl Counters.addEdge .empty

/-- The edges that lead to the nodes, in the order of the nodes and of what they name. -/
def edgesOf (prereqs : ι → List ι) (nodes : List ι) : List (ι × ι) :=
  nodes.flatMap fun n => (prereqs n).map fun p => (p, n)

/-- After all edges are added, each list counts its own, and each counter its incoming ones, by
induction on the edges.
-/
theorem foldl_addEdge (edges : List (ι × ι)) (counters : Counters ι)
    : (∀ p n, ((edges.foldl Counters.addEdge counters).dependents p).count n
        = (counters.dependents p).count n + edges.count (p, n))
      ∧ ∀ n, (edges.foldl Counters.addEdge counters).indegree n
        = counters.indegree n + (edges.map Prod.snd).count n := by
  induction edges generalizing counters with
  | nil => simp
  | cons edge edges ih =>
      obtain ⟨dependents, indegree⟩ := ih (counters.addEdge edge)
      obtain ⟨q, m⟩ := edge
      constructor
      · intro p n
        rw [List.foldl_cons, dependents, List.count_cons, Counters.addEdge]
        by_cases same : p = q
        · subst same
          by_cases target : n = m
          · subst target
            simp only [Function.update_self, List.count_append, List.count_singleton,
              beq_self_eq_true, if_true]
            omega
          · simp [Function.update_self, List.count_append, Ne.symm target]
        · simp [Function.update_of_ne same, Ne.symm same]
      · intro n
        rw [List.foldl_cons, indegree, List.map_cons, List.count_cons, Counters.addEdge]
        by_cases target : n = m
        · subst target
          simp only [Function.update_self, beq_self_eq_true, if_true, Nat.cast_add, Nat.cast_one]
          omega
        · simp [Function.update_of_ne target, Ne.symm target]

/-- An edge is there as often as a listed node names the other end, by induction on the nodes.
-/
theorem count_edgesOf {prereqs : ι → List ι} {nodes : List ι} (distinct : nodes.Nodup) (p n : ι)
    : (edgesOf prereqs nodes).count (p, n) = if n ∈ nodes then (prereqs n).count p else 0 := by
  induction nodes with
  | nil => rfl
  | cons m nodes ih =>
      obtain ⟨absent, later⟩ := List.nodup_cons.mp distinct
      have first : ((prereqs m).map fun p => (p, m)).count (p, n)
          = if m = n then (prereqs n).count p else 0 := by
        by_cases same : m = n
        · subst same
          rw [if_pos rfl]
          exact List.count_map_of_injective (prereqs m) (fun p => (p, m))
            (fun _ _ equal => congrArg Prod.fst equal) p
        · rw [if_neg same]
          refine List.count_eq_zero.mpr ?_
          intro member
          obtain ⟨_, -, equal⟩ := List.mem_map.mp member
          exact same (congrArg Prod.snd equal)
      have rest : (edgesOf prereqs (m :: nodes)).count (p, n)
          = (if m = n then (prereqs n).count p else 0)
            + if n ∈ nodes then (prereqs n).count p else 0 := by
        rw [← first, ← ih later, ← List.count_append]
        rfl
      rw [rest]
      by_cases same : m = n
      · subst same
        simp [absent]
      · simp [same, Ne.symm same]

/-- A listed node is the target of as many edges as it has prerequisites. -/
theorem count_targets {prereqs : ι → List ι} {nodes : List ι} (distinct : nodes.Nodup) (n : ι)
    : ((edgesOf prereqs nodes).map Prod.snd).count n
      = if n ∈ nodes then (prereqs n).length else 0 := by
  induction nodes with
  | nil => rfl
  | cons m nodes ih =>
      obtain ⟨absent, later⟩ := List.nodup_cons.mp distinct
      have targets : (edgesOf prereqs (m :: nodes)).map Prod.snd
          = List.replicate (prereqs m).length m ++ (edgesOf prereqs nodes).map Prod.snd := by
        rw [edgesOf, List.flatMap_cons, List.map_append, List.map_map, edgesOf]
        exact congrArg (· ++ _) List.map_const'
      rw [targets, List.count_append, ih later, List.count_replicate]
      by_cases same : m = n
      · subst same
        simp [absent]
      · simp [same, Ne.symm same]

/-- The counters of the edges that lead to the nodes. -/
theorem countEdges_edgesOf {prereqs : ι → List ι} {nodes : List ι} (distinct : nodes.Nodup)
    : (∀ p n, ((countEdges (edgesOf prereqs nodes)).dependents p).count n
        = if n ∈ nodes then (prereqs n).count p else 0)
      ∧ ∀ n ∈ nodes, (countEdges (edgesOf prereqs nodes)).indegree n = (prereqs n).length := by
  obtain ⟨dependents, indegree⟩ := foldl_addEdge (edgesOf prereqs nodes) .empty
  constructor
  · intro p n
    rw [countEdges, dependents, count_edgesOf distinct]
    simp [Counters.empty]
  · intro n member
    rw [countEdges, indegree, count_targets distinct, if_pos member]
    simp [Counters.empty]

end Counters

-----------------------------------------------------------------------------------------
-- The loop
-----------------------------------------------------------------------------------------

/-- The counters that are still to be lowered, and the nodes that are ready. -/
structure ReadyQueue (ι : Type) where
  indegree : ι → ℤ
  ready : List ι

section Loop

variable [DecidableEq ι]

/-- One edge to the node is taken. -/
def ReadyQueue.release (queue : ReadyQueue ι) (child : ι) : ReadyQueue ι where
  indegree := Function.update queue.indegree child (queue.indegree child - 1)
  ready := if queue.indegree child - 1 = 0 then queue.ready ++ [child] else queue.ready

/-- The nodes in the order in which they are placed, and what is ready when the rounds are used up.
-/
def drain (le : ι → ι → Prop) [DecidableRel le] (dependents : ι → List ι)
    : (rounds : ℕ) → ReadyQueue ι → List ι × List ι
  | 0, queue => ([], queue.ready)
  | rounds + 1, queue =>
      match queue.ready.insertionSort le with
      | [] => ([], [])
      | current :: ready =>
          let (order, left) := drain le dependents rounds
            ((dependents current).foldl ReadyQueue.release { queue with ready })
          (current :: order, left)

/-- Taking edges lowers the counters, and the nodes whose last edge was taken join the queue.
Witness: induction on the edges; a node joins with the edge that lowers its counter to zero, so
once.
-/
theorem foldl_release (children : List ι) (queue : ReadyQueue ι)
    : (∀ n, (children.foldl ReadyQueue.release queue).indegree n
        = queue.indegree n - children.count n)
      ∧ ∃ added, (children.foldl ReadyQueue.release queue).ready = queue.ready ++ added
        ∧ added.Nodup
        ∧ ∀ n, n ∈ added ↔ 0 < queue.indegree n ∧ queue.indegree n ≤ children.count n := by
  induction children generalizing queue with
  | nil =>
      refine ⟨by simp, [], by simp, .nil, ?_⟩
      intro n
      simp only [List.not_mem_nil, List.count_nil, false_iff]
      omega
  | cons child children ih =>
      obtain ⟨indegree, added, ready, distinct, members⟩ := ih (queue.release child)
      have lowered : ∀ n, (queue.release child).indegree n
          = queue.indegree n - if child = n then 1 else 0 := by
        intro n
        by_cases same : child = n
        · subst same
          simp [ReadyQueue.release]
        · simp [ReadyQueue.release, Function.update_of_ne (Ne.symm same), same]
      have counted : ∀ n, ((child :: children).count n : ℤ)
          = children.count n + if child = n then 1 else 0 := by
        intro n
        by_cases same : child = n
        · simp [same]
        · simp [same]
      refine ⟨?_, (if queue.indegree child - 1 = 0 then [child] else []) ++ added, ?_, ?_, ?_⟩
      · intro n
        rw [List.foldl_cons, indegree, lowered, counted]
        omega
      · rw [List.foldl_cons, ready, ReadyQueue.release]
        split <;> simp
      · split
        · rename_i last
          refine List.nodup_cons.mpr ⟨?_, distinct⟩
          intro again
          have positive := ((members child).mp again).1
          rw [lowered, if_pos rfl] at positive
          omega
        · exact distinct
      · intro n
        rw [List.mem_append, members, lowered, counted]
        by_cases same : child = n
        · subst same
          split
          · simp only [List.mem_singleton, true_or, if_true, true_iff]
            omega
          · simp only [List.not_mem_nil, false_or, if_true]
            omega
        · have other : n ∉ (if queue.indegree child - 1 = 0 then [child] else []) := by
            split
            · simpa using Ne.symm same
            · simp
          simp only [other, false_or, if_neg same, sub_zero, add_zero]

end Loop

-----------------------------------------------------------------------------------------
-- The order
-----------------------------------------------------------------------------------------

/-- (Greedy names le nodes placed order) says that each node of the order comes when all it names is
placed, and is then the least of those that could come.
-/
def Greedy (names : ι → ι → Prop) (le : ι → ι → Prop) (nodes : List ι)
    : (placed : List ι) → List ι → Prop
  | _, [] => True
  | placed, e :: rest =>
      (∀ c, names e c → c ∈ placed)
      ∧ (∀ n ∈ nodes, n ∉ placed → (∀ c, names n c → c ∈ placed) → le e n)
      ∧ Greedy names le nodes (e :: placed) rest

/-- The relation that the prerequisites describe. -/
def Requires (nodes : List ι) (prereqs : ι → List ι) (n c : ι) : Prop := n ∈ nodes ∧ c ∈ prereqs n

theorem Greedy.causal {names le : ι → ι → Prop} {nodes placed order : List ι}
    (greedy : Greedy names le nodes placed order) : Causal names placed order := by
  induction order generalizing placed with
  | nil => trivial
  | cons e rest ih => exact ⟨greedy.1, ih greedy.2.2⟩

section Draining

variable [DecidableEq ι]

/-- What the loop keeps: the counter of a node is the number of its prerequisites that are not
placed, and the ready nodes are the unplaced ones for which that is zero.
-/
structure Draining (prereqs : ι → List ι) (nodes placed : List ι) (queue : ReadyQueue ι)
    : Prop where
  inside : placed ⊆ nodes
  placedOnce : placed.Nodup
  closed : ∀ n ∈ placed, ∀ c ∈ prereqs n, c ∈ placed
  indegree : ∀ n ∈ nodes, queue.indegree n = ((prereqs n).filter (· ∉ placed)).length
  ready : ∀ n, n ∈ queue.ready ↔ n ∈ nodes ∧ n ∉ placed ∧ ∀ c ∈ prereqs n, c ∈ placed
  readyOnce : queue.ready.Nodup

/-- The counters that the loop starts with, where nothing is placed. -/
theorem draining_start {prereqs : ι → List ι} {nodes ready : List ι} (distinct : nodes.Nodup)
    (perm : ready.Perm
      (nodes.filter fun n => (countEdges (edgesOf prereqs nodes)).indegree n = 0))
    : Draining prereqs nodes []
        { indegree := (countEdges (edgesOf prereqs nodes)).indegree, ready } := by
  obtain ⟨-, indegree⟩ := @countEdges_edgesOf _ _ prereqs _ distinct
  refine ⟨by simp, .nil, by simp, ?_, ?_, perm.nodup_iff.mpr (distinct.filter _)⟩
  · intro n member
    simp [indegree n member]
  · intro n
    rw [perm.mem_iff, List.mem_filter, decide_eq_true_eq]
    refine and_congr_right fun member => ?_
    rw [indegree n member]
    simp [List.eq_nil_iff_forall_not_mem]

variable {prereqs : ι → List ι} {nodes placed : List ι} {queue : ReadyQueue ι}
  {dependents : ι → List ι} {le : ι → ι → Prop} [DecidableRel le]

/-- Placing an id takes its occurrences off what is not placed yet. -/
theorem length_filter_placed {names : List ι} {current : ι} (unplaced : current ∉ placed)
    : ((names.filter (· ∉ placed)).length : ℤ) - names.count current
      = (names.filter (· ∉ current :: placed)).length := by
  induction names with
  | nil => rfl
  | cons c rest ih =>
      by_cases same : c = current
      · subst same
        simp only [List.filter_cons, unplaced, not_false_eq_true, decide_true, if_true,
          List.count_cons_self, List.mem_cons_self, not_true_eq_false, decide_false,
          Bool.false_eq_true, if_false, List.length_cons] at ih ⊢
        omega
      · simp only [List.filter_cons, List.mem_cons, same, false_or, List.count_cons_of_ne same]
          at ih ⊢
        split
        · simp only [List.length_cons]
          omega
        · exact ih

/-- One round keeps it: `current` is placed and the edges from it are taken.
Witness: the counter of a node falls by its edges from `current`, so it meets zero exactly when
all it requires is placed.
-/
theorem Draining.round (draining : Draining prereqs nodes placed queue)
    (counts : ∀ p n, (dependents p).count n = if n ∈ nodes then (prereqs n).count p else 0)
    {current : ι} {ready : List ι} (sorted : queue.ready.Perm (current :: ready))
    : Draining prereqs nodes (current :: placed)
        ((dependents current).foldl ReadyQueue.release { queue with ready }) := by
  obtain ⟨lowered, added, joined, addedOnce, members⟩ :=
    foldl_release (dependents current) { queue with ready }
  obtain ⟨inside, unplaced, allPlaced⟩ := (draining.ready current).mp
    (sorted.mem_iff.mpr List.mem_cons_self)
  have once := sorted.nodup_iff.mp draining.readyOnce
  obtain ⟨absent, readyOnce⟩ := List.nodup_cons.mp once
  have count : ∀ n ∈ nodes, ((dependents current).count n : ℤ) = (prereqs n).count current := by
    intro n member
    rw [counts, if_pos member]
  have waiting : ∀ n ∈ nodes, queue.indegree n - (dependents current).count n
      = ((prereqs n).filter (· ∉ current :: placed)).length := by
    intro n member
    rw [draining.indegree n member, count n member, length_filter_placed unplaced]
  -- the counter is zero exactly when all that the node names is placed
  have none : ∀ (n : ι) (placed : List ι), (((prereqs n).filter (· ∉ placed)).length : ℤ) = 0
      ↔ ∀ c ∈ prereqs n, c ∈ placed := by
    intro n placed
    simp [List.filter_eq_nil_iff]
  have joins : ∀ n, n ∈ added ↔ n ∈ nodes ∧ ¬ (∀ c ∈ prereqs n, c ∈ placed)
      ∧ ∀ c ∈ prereqs n, c ∈ current :: placed := by
    intro n
    rw [members]
    by_cases member : n ∈ nodes
    · have before := draining.indegree n member
      have after := waiting n member
      rw [← none n placed, ← none n (current :: placed)]
      simp only [member, true_and]
      omega
    · have nowhere : (dependents current).count n = 0 := by rw [counts, if_neg member]
      simp only [member, false_and, iff_false, nowhere]
      omega
  refine ⟨List.cons_subset.mpr ⟨inside, draining.inside⟩,
    List.nodup_cons.mpr ⟨unplaced, draining.placedOnce⟩, ?_, ?_, ?_, ?_⟩
  · intro n member c named
    refine List.mem_cons_of_mem _ ?_
    rcases List.mem_cons.mp member with rfl | earlier
    · exact allPlaced c named
    · exact draining.closed n earlier c named
  · intro n member
    rw [lowered]
    exact waiting n member
  · intro n
    rw [joined, List.mem_append, joins, List.mem_cons, not_or]
    constructor
    · intro found
      rcases found with old | ⟨member, unready, named⟩
      · obtain ⟨member, waits, named⟩ := (draining.ready n).mp
          (sorted.mem_iff.mpr (List.mem_cons_of_mem _ old))
        have other : n ≠ current := fun same => absent (same ▸ old)
        exact ⟨member, ⟨other, waits⟩, fun c inside => List.mem_cons_of_mem _ (named c inside)⟩
      · have other : n ≠ current := fun same => unready (same ▸ allPlaced)
        exact ⟨member, ⟨other, fun earlier => unready (draining.closed n earlier)⟩, named⟩
    · intro found
      obtain ⟨member, ⟨other, waits⟩, named⟩ := found
      by_cases unready : ∀ c ∈ prereqs n, c ∈ placed
      · have old := sorted.mem_iff.mp ((draining.ready n).mpr ⟨member, waits, unready⟩)
        exact .inl ((List.mem_cons.mp old).resolve_left other)
      · exact .inr ⟨member, unready, named⟩
  · rw [joined]
    refine List.nodup_append.mpr ⟨readyOnce, addedOnce, ?_⟩
    rintro n old m new rfl
    have was := (draining.ready n).mp (sorted.mem_iff.mpr (List.mem_cons_of_mem _ old))
    exact ((joins n).mp new).2.1 was.2.2

/-- What the loop places: a greedy order of some of the nodes, after which every other node names
one that is not placed.
-/
structure Drained (le : ι → ι → Prop) (prereqs : ι → List ι) (nodes placed order : List ι)
    : Prop where
  greedy : Greedy (Requires nodes prereqs) le nodes placed order
  inside : order ⊆ nodes
  once : (placed.reverse ++ order).Nodup
  stuck : ∀ n ∈ nodes, n ∉ placed.reverse ++ order
    → ∃ c ∈ prereqs n, c ∉ placed.reverse ++ order

omit [DecidableRel le] in
/-- The loop ends when nothing is ready: each unplaced node then waits for another. -/
theorem Draining.finished (draining : Draining prereqs nodes placed queue)
    (empty : queue.ready = [])
    : Drained le prereqs nodes placed [] := by
  refine ⟨trivial, List.nil_subset _, by simpa using draining.placedOnce, ?_⟩
  intro n member unplaced
  simp only [List.append_nil, List.mem_reverse] at unplaced ⊢
  have notReady : n ∉ queue.ready := by simp [empty]
  rw [draining.ready n] at notReady
  push Not at notReady
  exact notReady member unplaced

omit [DecidableEq ι] [DecidableRel le] in
/-- A ready node that is least, and an order that drains what is left, drain the whole. -/
theorem Drained.cons {current : ι} {order : List ι} (inside : current ∈ nodes)
    (allPlaced : ∀ c ∈ prereqs current, c ∈ placed)
    (least : ∀ n ∈ nodes, n ∉ placed → (∀ c ∈ prereqs n, c ∈ placed) → le current n)
    (drained : Drained le prereqs nodes (current :: placed) order)
    : Drained le prereqs nodes placed (current :: order) := by
  have same : placed.reverse ++ current :: order = (current :: placed).reverse ++ order := by simp
  have first : ∀ n ∈ nodes, n ∉ placed → (∀ c, Requires nodes prereqs n c → c ∈ placed)
      → le current n :=
    fun n member unplaced named => least n member unplaced fun c inside => named c ⟨member, inside⟩
  refine ⟨⟨fun c named => allPlaced c named.2, first, drained.greedy⟩,
    List.cons_subset.mpr ⟨inside, drained.inside⟩, ?_, ?_⟩
  · rw [same]
    exact drained.once
  · rw [same]
    exact drained.stuck

/-- As many rounds as there are unplaced nodes empty the queue; by induction on the rounds. -/
theorem Draining.drained [total : Std.Total le] [IsTrans ι le]
    (counts : ∀ p n, (dependents p).count n = if n ∈ nodes then (prereqs n).count p else 0)
    {rounds : ℕ} (enough : nodes.length ≤ rounds + placed.length)
    (draining : Draining prereqs nodes placed queue)
    : ∃ order, drain le dependents rounds queue = (order, [])
      ∧ Drained le prereqs nodes placed order := by
  induction rounds generalizing placed queue with
  | zero =>
      have empty : queue.ready = [] := by
        refine List.eq_nil_iff_forall_not_mem.mpr fun n waits => ?_
        obtain ⟨member, unplaced, -⟩ := (draining.ready n).mp waits
        have more : (n :: placed) ⊆ nodes := List.cons_subset.mpr ⟨member, draining.inside⟩
        have bound := (List.subperm_of_subset
          (List.nodup_cons.mpr ⟨unplaced, draining.placedOnce⟩) more).length_le
        rw [List.length_cons] at bound
        omega
      exact ⟨[], by rw [drain, empty], draining.finished empty⟩
  | succ rounds ih =>
      have perm := List.perm_insertionSort le queue.ready
      have ascending := List.pairwise_insertionSort le queue.ready
      rw [drain]
      cases sorted : queue.ready.insertionSort le with
      | nil =>
          rw [sorted] at perm
          exact ⟨[], rfl, draining.finished (List.nil_perm.mp perm)⟩
      | cons current ready =>
          rw [sorted] at perm ascending
          obtain ⟨inside, -, allPlaced⟩ := (draining.ready current).mp
            (perm.mem_iff.mp List.mem_cons_self)
          obtain ⟨order, ran, drained⟩ := ih (by rw [List.length_cons]; omega)
            (draining.round counts perm.symm)
          refine ⟨current :: order, by simp only [ran], drained.cons inside allPlaced ?_⟩
          intro n member unplaced named
          have waits := perm.mem_iff.mpr ((draining.ready n).mpr ⟨member, unplaced, named⟩)
          rcases List.mem_cons.mp waits with rfl | later
          · exact or_self_iff.mp (total.total n n)
          · exact (List.pairwise_cons.mp ascending).1 n later

/-- The loop on the counters of the edges, from the nodes without prerequisites. -/
theorem drain_edgesOf [Std.Total le] [IsTrans ι le] {rounds : ℕ} {ready : List ι}
    (distinct : nodes.Nodup) (enough : nodes.length ≤ rounds)
    (perm : ready.Perm
      (nodes.filter fun n => (countEdges (edgesOf prereqs nodes)).indegree n = 0))
    : ∃ order, drain le (countEdges (edgesOf prereqs nodes)).dependents rounds
        { indegree := (countEdges (edgesOf prereqs nodes)).indegree, ready } = (order, [])
      ∧ Drained le prereqs nodes [] order :=
  (draining_start distinct perm).drained (countEdges_edgesOf distinct).1 (by simpa using enough)

end Draining

-----------------------------------------------------------------------------------------
-- Whole orders
-----------------------------------------------------------------------------------------

section Whole

/-- What a node of a causal order names stands before it. -/
theorem Causal.before {names : ι → ι → Prop} {placed before after : List ι} {e c : ι}
    (causal : Causal names placed (before ++ e :: after)) (named : names e c)
    : c ∈ before ∨ c ∈ placed := by
  induction before generalizing placed with
  | nil => exact .inr (causal.1 c named)
  | cons b before ih =>
      rcases ih causal.2 with earlier | member
      · exact .inl (List.mem_cons_of_mem _ earlier)
      · rcases List.mem_cons.mp member with rfl | earlier
        · exact .inl List.mem_cons_self
        · exact .inr earlier

/-- What a node names has an earlier position than the node. -/
theorem Causal.idxOf_lt [DecidableEq ι] {names : ι → ι → Prop} {order : List ι}
    (causal : Causal names [] order) {e c : ι} (member : e ∈ order) (named : names e c)
    : order.idxOf c < order.idxOf e := by
  obtain ⟨before, after, split, first⟩ := List.eq_append_cons_of_mem member
  have place : c ∈ before := by
    rw [split] at causal
    exact (causal.before named).resolve_right List.not_mem_nil
  rw [split, List.idxOf_append_of_mem place, List.idxOf_append_of_notMem first,
    List.idxOf_cons_self]
  exact List.idxOf_lt_length_of_mem place

/-- A causal order of all nodes that name others leaves no cycle: every path leads to an earlier
position.
-/
theorem Causal.acyclic {names : ι → ι → Prop} {order : List ι} (causal : Causal names [] order)
    (inside : ∀ v c, names v c → v ∈ order) (v : ι) : ¬ Relation.TransGen names v v := by
  classical
  intro cycle
  have back : ∀ {v w}, Relation.TransGen names v w → order.idxOf w < order.idxOf v := by
    intro v w path
    induction path with
    | single named => exact causal.idxOf_lt (inside _ _ named) named
    | tail _ named ih => exact (causal.idxOf_lt (inside _ _ named) named).trans ih
  exact lt_irrefl _ (back cycle)

/-- A greedy order comes before every causal order of the same nodes. -/
theorem Greedy.le_of_causal [LT ι] [Std.Asymm (fun x y : ι => x < y)]
    [Std.Trichotomous (fun x y : ι => x < y)] {names le : ι → ι → Prop}
    {nodes placed order other : List ι} (lawful : ∀ x y, le x y → ¬ y < x)
    (inside : order ⊆ nodes) (once : (placed.reverse ++ order).Nodup)
    (greedy : Greedy names le nodes placed order) (perm : other.Perm order)
    (causal : Causal names placed other) : order ≤ other := by
  induction order generalizing placed other with
  | nil =>
      rw [List.perm_nil.mp perm]
      exact List.le_refl []
  | cons e rest ih =>
      obtain ⟨-, least, later⟩ := greedy
      have shifted : ((e :: placed).reverse ++ rest).Nodup := by simpa using once
      refine cons_le_of_causal perm causal ?_ ?_
      · intro y member ready
        refine lawful e y (least y (inside member) ?_ ready)
        intro already
        exact (List.nodup_append.mp once).2.2 y (List.mem_reverse.mpr already) y member rfl
      · intro tail permTail causalTail
        exact ih (fun _ member => inside (List.mem_cons_of_mem _ member)) shifted later permTail
          causalTail

variable {le : ι → ι → Prop} {prereqs : ι → List ι} {nodes order : List ι}

/-- All nodes are placed exactly when the prerequisites have no cycle. -/
theorem Drained.complete_iff (closed : ∀ n ∈ nodes, prereqs n ⊆ nodes)
    (drained : Drained le prereqs nodes [] order)
    : nodes ⊆ order ↔ ∀ v, ¬ Relation.TransGen (Requires nodes prereqs) v v := by
  classical
  constructor
  · intro complete
    exact drained.greedy.causal.acyclic fun v c named => complete named.1
  · intro acyclic n member
    by_contra unplaced
    have waiting : nodes.filter (· ∉ order) ≠ [] := by
      refine List.ne_nil_of_mem (a := n) ?_
      simp [member, unplaced]
    have blocked : ∀ e ∈ nodes.filter (· ∉ order), ∃ c ∈ nodes.filter (· ∉ order),
        Requires nodes prereqs e c := by
      intro e inside
      obtain ⟨listed, left⟩ := List.mem_filter.mp inside
      obtain ⟨c, named, stuck⟩ := drained.stuck e listed (by simpa using left)
      exact ⟨c, List.mem_filter.mpr ⟨closed e listed named, by simpa using stuck⟩, listed, named⟩
    obtain ⟨v, cycle⟩ := exists_cycle_of_named waiting blocked
    exact acyclic v cycle

theorem Drained.perm (distinct : nodes.Nodup) (drained : Drained le prereqs nodes [] order)
    (complete : nodes ⊆ order) : order.Perm nodes :=
  (List.perm_ext_iff_of_nodup (by simpa using drained.once) distinct).mpr fun _ =>
    ⟨fun member => drained.inside member, fun member => complete member⟩

/-- What is placed is the least of the orders of all nodes. -/
theorem Drained.least [LT ι] [Std.Asymm (fun x y : ι => x < y)]
    [Std.Trichotomous (fun x y : ι => x < y)] (lawful : ∀ x y, le x y → ¬ y < x)
    (distinct : nodes.Nodup) (drained : Drained le prereqs nodes [] order)
    (complete : nodes ⊆ order) : LeastLinearization (Requires nodes prereqs) nodes order := by
  have perm := drained.perm distinct complete
  refine ⟨⟨perm, drained.greedy.causal⟩, fun other linear => ?_⟩
  exact drained.greedy.le_of_causal lawful drained.inside drained.once
    (linear.perm.trans perm.symm) linear.causal

end Whole

end Naalp.Foundation
