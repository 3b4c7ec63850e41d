import Naalp.Foundation.Checks
import Naalp.Foundation.ReadyQueue

/-! Kahn's linearization with a scan for the next node. In every round the loop goes over all nodes,
places the first of the ready ones with the least position, and lowers the counters of the nodes
that wait for it. It is stuck when no node is ready.
-/

namespace Naalp.Foundation

variable {ι α π ε : Type}

section Loop

variable [DecidableEq ι]

/-- The counters that are still to be lowered, and which nodes are placed. -/
structure ReadyScan (ι : Type) where
  indegree : ι → ℤ
  done : ι → Bool

def ReadyScan.finish (state : ReadyScan ι) (n : ι) : ReadyScan ι :=
  { state with done := Function.update state.done n true }

def ReadyScan.lower (state : ReadyScan ι) (child : ι) : ReadyScan ι :=
  { state with indegree := Function.update state.indegree child (state.indegree child - 1) }

def ReadyScan.Ready (state : ReadyScan ι) (n : ι) : Prop :=
  state.done n = false ∧ state.indegree n = 0

omit [DecidableEq ι] in
instance (state : ReadyScan ι) (n : ι) : Decidable (state.Ready n) :=
  inferInstanceAs (Decidable (_ ∧ _))

variable [LT π] [DecidableLT π] (position : α → π)

/-- The node has a lower position than the pick so far, if any. -/
def improves (n : α) : Option (ι × α) → Bool
  | none => true
  | some (_, best) => position n < position best

omit [DecidableEq ι] in
/-- The loop over the nodes that picks the next one. -/
def scan (state : ReadyScan ι) : (pick : Option (ι × α)) → List (ι × α) → Option (ι × α)
  | pick, [] => pick
  | pick, (i, n) :: rest =>
      if state.Ready i ∧ improves position n pick then scan state (some (i, n)) rest
      else scan state pick rest

/-- As many rounds as there are nodes to place. -/
def linearizeScan (stuck : ε) (dependents : ι → List ι) (nodes : List (ι × α))
    : (rounds : ℕ) → ReadyScan ι → Except ε (List (ι × α))
  | 0, _ => pure []
  | rounds + 1, state =>
      match scan position state none nodes with
      | none => throw stuck
      | some (i, n) => do
          let lowered := (dependents i).foldl ReadyScan.lower (state.finish i)
          let rest ← linearizeScan stuck dependents nodes rounds lowered
          return (i, n) :: rest

end Loop

-----------------------------------------------------------------------------------------
-- One round
-----------------------------------------------------------------------------------------

section Picking

variable [LinearOrder π] [DecidableLT π] {position : α → π} {state : ReadyScan ι}

/-- The pick is among the nodes or is the one so far; no ready node has a lower position. -/
structure Picked (position : α → π) (state : ReadyScan ι) (nodes : List (ι × α))
    (pick : ι × α) : Prop where
  ready : state.Ready pick.1
  least : ∀ e ∈ nodes, state.Ready e.1 → position pick.2 ≤ position e.2

/-- With a pick so far the loop ends with a pick that is not above it; by induction over the nodes.
-/
theorem scan_some {nodes : List (ι × α)} {best : ι × α} (ready : state.Ready best.1)
    : ∃ pick, scan position state (some best) nodes = some pick ∧ (pick = best ∨ pick ∈ nodes)
        ∧ Picked position state nodes pick ∧ position pick.2 ≤ position best.2 := by
  induction nodes generalizing best with
  | nil => exact ⟨best, rfl, .inl rfl, ⟨ready, by simp⟩, le_refl _⟩
  | cons e rest ih =>
      rw [scan]
      by_cases improved : state.Ready e.1 ∧ improves position e.2 (some best)
      · obtain ⟨pick, ran, origin, picked, below⟩ := @ih e improved.1
        have smaller : position e.2 < position best.2 := of_decide_eq_true improved.2
        refine ⟨pick, by rw [if_pos improved, ran], ?_, ⟨picked.ready, ?_⟩,
          below.trans smaller.le⟩
        · rcases origin with rfl | later
          · exact .inr List.mem_cons_self
          · exact .inr (List.mem_cons_of_mem _ later)
        · exact List.forall_mem_cons.mpr ⟨fun _ => below, picked.least⟩
      · obtain ⟨pick, ran, origin, picked, below⟩ := ih ready
        refine ⟨pick, by rw [if_neg improved, ran], ?_, ⟨picked.ready, ?_⟩, below⟩
        · exact origin.imp_right (List.mem_cons_of_mem _)
        · refine List.forall_mem_cons.mpr ⟨fun isReady => below.trans ?_, picked.least⟩
          exact not_lt.mp fun smaller => improved ⟨isReady, decide_eq_true smaller⟩

/-- Nothing is picked exactly when no node is ready.
Witness: induction on the nodes; a later ready node takes the place of the pick when it is
less.
-/
theorem scan_none {nodes : List (ι × α)}
    : match scan position state none nodes with
      | none => ∀ e ∈ nodes, ¬ state.Ready e.1
      | some pick => pick ∈ nodes ∧ Picked position state nodes pick := by
  induction nodes with
  | nil => simp [scan]
  | cons e rest ih =>
      rw [scan]
      by_cases ready : state.Ready e.1
      · obtain ⟨pick, ran, origin, picked, below⟩ :=
          @scan_some _ _ _ _ _ position state rest e ready
        rw [if_pos ⟨ready, rfl⟩, ran]
        refine ⟨?_, picked.ready, List.forall_mem_cons.mpr ⟨fun _ => below, picked.least⟩⟩
        rcases origin with rfl | later
        · exact List.mem_cons_self
        · exact List.mem_cons_of_mem _ later
      · rw [if_neg fun improved => ready improved.1]
        split
        · rename_i nothing
          rw [nothing] at ih
          exact List.forall_mem_cons.mpr ⟨ready, ih⟩
        · rename_i pick found
          rw [found] at ih
          refine ⟨List.mem_cons_of_mem _ ih.1, ih.2.ready, ?_⟩
          exact List.forall_mem_cons.mpr ⟨fun isReady => (ready isReady).elim, ih.2.least⟩

end Picking

section Rounds

variable [DecidableEq ι] {prereqs dependents : ι → List ι} {nodes placed : List ι}
  {state : ReadyScan ι}

/-- After the children are lowered, each counter is less by how often its node occurs among
them, by induction on the children.
-/
theorem foldl_lower (children : List ι) (state : ReadyScan ι)
    : (children.foldl ReadyScan.lower state).done = state.done
      ∧ ∀ n, (children.foldl ReadyScan.lower state).indegree n
        = state.indegree n - children.count n := by
  induction children generalizing state with
  | nil => simp
  | cons child children ih =>
      obtain ⟨done, indegree⟩ := ih (state.lower child)
      refine ⟨done, ?_⟩
      intro n
      rw [List.foldl_cons, indegree, ReadyScan.lower]
      by_cases same : n = child
      · subst same
        simp only [Function.update_self, List.count_cons_self]
        omega
      · simp [Function.update_of_ne same, List.count_cons_of_ne (Ne.symm same)]

/-- What the loop keeps: the counter of a node is the number of its prerequisites that are not
placed.
-/
structure Scanning (prereqs : ι → List ι) (nodes placed : List ι) (state : ReadyScan ι) : Prop where
  inside : placed ⊆ nodes
  placedOnce : placed.Nodup
  done : ∀ n, state.done n = true ↔ n ∈ placed
  indegree : ∀ n ∈ nodes, state.indegree n = ((prereqs n).filter (· ∉ placed)).length

theorem scanning_start (distinct : nodes.Nodup)
    : Scanning prereqs nodes []
        { indegree := (countEdges (edgesOf prereqs nodes)).indegree, done := fun _ => false } := by
  obtain ⟨-, indegree⟩ := @countEdges_edgesOf _ _ prereqs _ distinct
  refine ⟨by simp, .nil, by simp, ?_⟩
  intro n member
  simp [indegree n member]

theorem Scanning.ready_iff (scanning : Scanning prereqs nodes placed state) {n : ι}
    (member : n ∈ nodes) : state.Ready n ↔ n ∉ placed ∧ ∀ c ∈ prereqs n, c ∈ placed := by
  have none : (((prereqs n).filter (· ∉ placed)).length : ℤ) = 0 ↔ ∀ c ∈ prereqs n, c ∈ placed := by
    simp [List.filter_eq_nil_iff]
  rw [ReadyScan.Ready, scanning.indegree n member, none, ← scanning.done, Bool.not_eq_true]

/-- One round keeps it. -/
theorem Scanning.round (scanning : Scanning prereqs nodes placed state)
    (counts : ∀ p n, (dependents p).count n = if n ∈ nodes then (prereqs n).count p else 0)
    {current : ι} (inside : current ∈ nodes) (unplaced : current ∉ placed)
    : Scanning prereqs nodes (current :: placed)
        ((dependents current).foldl ReadyScan.lower (state.finish current)) := by
  obtain ⟨done, indegree⟩ := foldl_lower (dependents current) (state.finish current)
  refine ⟨List.cons_subset.mpr ⟨inside, scanning.inside⟩,
    List.nodup_cons.mpr ⟨unplaced, scanning.placedOnce⟩, ?_, ?_⟩
  · intro n
    rw [done, ReadyScan.finish, List.mem_cons]
    by_cases same : n = current
    · simp [same]
    · simp [same, scanning.done]
  · intro n member
    have before : (state.finish current).indegree n = state.indegree n := rfl
    rw [indegree, before, scanning.indegree n member, counts, if_pos member,
      length_filter_placed unplaced]

/-- While nodes are left, one of them is ready, unless they name each other in a cycle.
Witness: otherwise each node that is left names another one that is left, and so some node
reaches itself.
-/
theorem Scanning.exists_ready (scanning : Scanning prereqs nodes placed state)
    (distinct : nodes.Nodup) (more : placed.length < nodes.length)
    (known : ∀ n ∈ nodes, prereqs n ⊆ nodes)
    (acyclic : ∀ n, ¬ Relation.TransGen (Requires nodes prereqs) n n)
    : ∃ n ∈ nodes, state.Ready n := by
  by_contra stuck
  push Not at stuck
  let left := nodes.filter (· ∉ placed)
  have named : ∀ n ∈ left, ∃ c ∈ left, Requires nodes prereqs n c := by
    intro n member
    obtain ⟨inside, unplaced⟩ := List.mem_filter.mp member
    have waits := stuck n inside
    rw [scanning.ready_iff inside] at waits
    push Not at waits
    obtain ⟨c, names, waiting⟩ := waits (of_decide_eq_true unplaced)
    have unplacedC := decide_eq_true waiting
    exact ⟨c, List.mem_filter.mpr ⟨known n inside names, unplacedC⟩, inside, names⟩
  have nonempty : left ≠ [] := by
    intro empty
    have all : nodes ⊆ placed := by
      intro n member
      simpa using List.filter_eq_nil_iff.mp empty n member
    have bound := (List.subperm_of_subset distinct all).length_le
    omega
  obtain ⟨v, cycle⟩ := exists_cycle_of_named nonempty named
  exact acyclic v cycle

end Rounds

-----------------------------------------------------------------------------------------
-- The order
-----------------------------------------------------------------------------------------

/-- No listed entry of one node has a lower position than a listed entry of the other. -/
def NotAfter [LE π] (position : α → π) (nodes : List (ι × α)) (m n : ι) : Prop :=
  ∀ a b, (m, a) ∈ nodes → (n, b) ∈ nodes → position a ≤ position b

section Ordering

variable [DecidableEq ι] [LinearOrder π] [DecidableLT π] {position : α → π}
  {prereqs dependents : ι → List ι} {nodes : List (ι × α)} {stuck : ε}

/-- What the loop returns: a greedy order of what was not placed. -/
structure Scanned (position : α → π) (prereqs : ι → List ι) (nodes : List (ι × α)) (placed : List ι)
    (order : List (ι × α)) : Prop where
  listed : order ⊆ nodes
  perm : (placed ++ order.map Prod.fst).Perm (nodes.map Prod.fst)
  greedy : Greedy (Requires (nodes.map Prod.fst) prereqs) (NotAfter position nodes)
    (nodes.map Prod.fst) placed (order.map Prod.fst)

omit [DecidableEq ι] [LinearOrder π] [DecidableLT π] in
theorem eq_of_fst_eq (distinct : (nodes.map Prod.fst).Nodup) {i : ι} {a b : α}
    (first : (i, a) ∈ nodes) (second : (i, b) ∈ nodes) : a = b :=
  congrArg Prod.snd (List.inj_on_of_nodup_map distinct first second rfl)

/-- The loop places all nodes of a graph without cycles; by induction on the rounds. -/
theorem Scanning.scanned (distinct : (nodes.map Prod.fst).Nodup)
    (counts : ∀ p n, (dependents p).count n
      = if n ∈ nodes.map Prod.fst then (prereqs n).count p else 0)
    (known : ∀ n ∈ nodes.map Prod.fst, prereqs n ⊆ nodes.map Prod.fst)
    (acyclic : ∀ n, ¬ Relation.TransGen (Requires (nodes.map Prod.fst) prereqs) n n)
    {rounds : ℕ} {placed : List ι} {state : ReadyScan ι}
    (left : rounds + placed.length = nodes.length)
    (scanning : Scanning prereqs (nodes.map Prod.fst) placed state)
    : ∃ order, linearizeScan position stuck dependents nodes rounds state = .ok order
        ∧ Scanned position prereqs nodes placed order := by
  induction rounds generalizing placed state with
  | zero =>
      have all := List.subperm_of_subset scanning.placedOnce scanning.inside
      have perm := all.perm_of_length_le (by rw [List.length_map]; omega)
      exact ⟨[], rfl, List.nil_subset _, by simpa using perm, trivial⟩
  | succ rounds ih =>
      have more : placed.length < (nodes.map Prod.fst).length := by
        rw [List.length_map]
        omega
      obtain ⟨n, member, ready⟩ := scanning.exists_ready distinct more known acyclic
      have spec := @scan_none _ _ _ _ _ position state nodes
      rw [linearizeScan]
      cases picked : scan position state none nodes with
      | none =>
          rw [picked] at spec
          obtain ⟨e, listed, rfl⟩ := List.mem_map.mp member
          exact (spec e listed ready).elim
      | some pick =>
          obtain ⟨i, a⟩ := pick
          rw [picked] at spec
          obtain ⟨listed, first, least⟩ := spec
          have inside : i ∈ nodes.map Prod.fst := List.mem_map_of_mem (f := Prod.fst) listed
          obtain ⟨unplaced, named⟩ := (scanning.ready_iff inside).mp first
          obtain ⟨order, ran, scanned⟩ := ih (by rw [List.length_cons]; omega)
            (scanning.round counts inside unplaced)
          refine ⟨(i, a) :: order, by simp only [ran]; rfl, ?_, ?_, ?_, ?_, scanned.greedy⟩
          · exact List.cons_subset.mpr ⟨listed, scanned.listed⟩
          · exact List.perm_middle.trans scanned.perm
          · exact fun c requires => named c requires.2
          · intro m member waits allPlaced b c here there
            obtain rfl := eq_of_fst_eq distinct listed here
            have readyM : state.Ready m := (scanning.ready_iff member).mpr
              ⟨waits, fun d names => allPlaced d ⟨member, names⟩⟩
            exact least (m, c) there readyM

/-- The loop on the counters of the edges. -/
theorem linearizeScan_edgesOf (distinct : (nodes.map Prod.fst).Nodup)
    (known : ∀ n ∈ nodes.map Prod.fst, prereqs n ⊆ nodes.map Prod.fst)
    (acyclic : ∀ n, ¬ Relation.TransGen (Requires (nodes.map Prod.fst) prereqs) n n)
    : ∃ order, linearizeScan position stuck
          (countEdges (edgesOf prereqs (nodes.map Prod.fst))).dependents nodes nodes.length
          { indegree := (countEdges (edgesOf prereqs (nodes.map Prod.fst))).indegree,
            done := fun _ => false } = .ok order
        ∧ Scanned position prereqs nodes [] order :=
  (scanning_start distinct).scanned distinct (countEdges_edgesOf distinct).1 known acyclic rfl

omit [DecidableEq ι] [DecidableLT π] in
/-- Positions do not fall along a greedy order in which nothing is named from an earlier position.
Witness: a node that does not require the one before it was ready beside it, and was not picked
first.
-/
theorem Greedy.positions {names : ι → ι → Prop} {placed : List ι} {order : List (ι × α)}
    (listed : order ⊆ nodes) (once : (placed ++ order.map Prod.fst).Nodup)
    (present : ∀ m a n b, (m, a) ∈ nodes → (n, b) ∈ nodes → names n m → position a ≤ position b)
    (greedy : Greedy names (NotAfter position nodes) (nodes.map Prod.fst) placed
      (order.map Prod.fst))
    : order.Pairwise fun e d => position e.2 ≤ position d.2 := by
  have trans : IsTrans (ι × α) fun e d => position e.2 ≤ position d.2 :=
    ⟨fun _ _ _ first second => le_trans first second⟩
  refine List.isChain_iff_pairwise.mp ?_
  induction order generalizing placed with
  | nil => exact .nil
  | cons e rest ih =>
      obtain ⟨first, later⟩ := List.cons_subset.mp listed
      have shifted : ((e.1 :: placed) ++ rest.map Prod.fst).Nodup :=
        (List.perm_middle.nodup_iff).mp once
      have chain := ih later shifted greedy.2.2
      cases rest with
      | nil => exact .singleton e
      | cons d rest =>
          refine List.isChain_cons_cons.mpr ⟨?_, chain⟩
          have inside := (List.cons_subset.mp later).1
          by_cases direct : names d.1 e.1
          · exact present e.1 e.2 d.1 d.2 first inside direct
          · -- what it names was placed before, so it was ready too
            have unplaced : d.1 ∉ placed := by
              intro member
              exact (List.disjoint_of_nodup_append once) member (by simp)
            have ready : ∀ c, names d.1 c → c ∈ placed := by
              intro c named
              rcases List.mem_cons.mp (greedy.2.2.1 c named) with rfl | earlier
              · exact (direct named).elim
              · exact earlier
            exact greedy.2.1 d.1 (List.mem_map_of_mem (f := Prod.fst) inside) unplaced ready e.2 d.2
              first inside

end Ordering

end Naalp.Foundation
