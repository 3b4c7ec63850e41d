import Naalp.Foundation.CycleCheck
import Naalp.Foundation.KahnAgreement
import Naalp.Foundation.KahnOrder

/-! Nodes with the ids of their causes and a position. A check refuses a cause at a later position
than its effect, and cycles; nodes that pass are linearized. Where an id repeats, a cause stands for
the last node with its id. Causes that no node has for an id are left out.
-/

namespace Naalp.Foundation

structure CausalNode (κ π : Type) where
  id : κ
  causes : List κ
  position : π
  deriving DecidableEq, Repr

variable {κ π ι ε ε' : Type}

section Nodes

variable [DecidableEq κ]

/-- The index of the last node with the id, as a map from the ids that is filled in order has it. -/
def indexFrom (c : κ) : (i : ℕ) → List (CausalNode κ π) → Option ℕ
  | _, [] => none
  | i, n :: rest =>
      match indexFrom c (i + 1) rest with
      | some j => some j
      | none => if n.id = c then some i else none

def indexOf (nodes : List (CausalNode κ π)) (c : κ) : Option ℕ := indexFrom c 0 nodes

/-- The nodes that the causes of a node stand for. -/
def successors (nodes : List (CausalNode κ π)) (i : ℕ) : List ℕ :=
  match nodes[i]? with
  | none => []
  | some n => n.causes.filterMap (indexOf nodes)

/-- The index of an id is where a node with it stands, by induction on the nodes. -/
theorem indexFrom_eq_some {c : κ} {i j : ℕ} {nodes : List (CausalNode κ π)}
    (found : indexFrom c i nodes = some j)
    : ∃ k n, j = i + k ∧ nodes[k]? = some n ∧ n.id = c := by
  induction nodes generalizing i with
  | nil => cases found
  | cons n rest ih =>
      rw [indexFrom] at found
      split at found
      · rename_i later
        obtain rfl := Option.some.inj found
        obtain ⟨k, m, rfl, inside, same⟩ := ih later
        exact ⟨k + 1, m, by omega, inside, same⟩
      · obtain ⟨same, here⟩ := Option.ite_none_right_eq_some.mp found
        obtain rfl := Option.some.inj here
        exact ⟨0, n, rfl, rfl, same⟩

theorem indexOf_eq_some {nodes : List (CausalNode κ π)} {c : κ} {j : ℕ}
    (found : indexOf nodes c = some j) : ∃ n, nodes[j]? = some n ∧ n.id = c := by
  obtain ⟨k, n, rfl, inside, same⟩ := indexFrom_eq_some found
  rw [Nat.zero_add]
  exact ⟨n, inside, same⟩

/-- Every id of a node has an index. -/
theorem indexFrom_ne_none {c : κ} {i : ℕ} {nodes : List (CausalNode κ π)}
    (member : c ∈ nodes.map (·.id)) : indexFrom c i nodes ≠ none := by
  induction nodes generalizing i with
  | nil => cases member
  | cons n rest ih =>
      rw [indexFrom]
      split
      · exact Option.some_ne_none _
      · rename_i absent
        rcases List.mem_cons.mp member with same | later
        · rw [if_pos same.symm]
          exact Option.some_ne_none _
        · exact (ih later absent).elim

/-- Successors are indices of nodes. -/
theorem successors_lt (nodes : List (CausalNode κ π)) (i : ℕ)
    : ∀ j ∈ successors nodes i, j < nodes.length := by
  intro j member
  unfold successors at member
  split at member
  · cases member
  · obtain ⟨c, -, found⟩ := List.mem_filterMap.mp member
    obtain ⟨n, inside, -⟩ := indexOf_eq_some found
    exact (List.getElem?_eq_some_iff.mp inside).1

/-- Whether the search from all nodes finds a cycle; it ends because a visit is of a white node. -/
def hasCycle (nodes : List (CausalNode κ π)) : Bool :=
  (findCycle (successors nodes) nodes.length (List.range nodes.length) (fun _ => .white)).get
    (findCycle_isSome (successors_lt nodes) (fun _ member => List.mem_range.mp member) _)

variable [LT π] [DecidableLT π]

def checkCause (futureCause : ε) (nodes : List (CausalNode κ π)) (n : CausalNode κ π) (c : κ)
    : Except ε Unit :=
  match (indexOf nodes c).bind (nodes[·]?) with
  | none => pure ()
  | some m => raiseIf (n.position < m.position) futureCause

def checkPositions (futureCause : ε) (nodes : List (CausalNode κ π)) : Except ε Unit :=
  forM nodes fun n => forM n.causes (checkCause futureCause nodes n)

/-- No cause may be at a later position than its effect, and there may be no cycle. -/
def verifyCausal (futureCause cycle : ε) (nodes : List (CausalNode κ π)) : Except ε Unit := do
  checkPositions futureCause nodes
  raiseIf (hasCycle nodes) cycle

end Nodes

-----------------------------------------------------------------------------------------
-- The relation that the nodes describe
-----------------------------------------------------------------------------------------

/-- (Names nodes e c) says that a node with the id `e` has the presented id `c` for a cause. -/
def Names (nodes : List (CausalNode κ π)) (e c : κ) : Prop :=
  c ∈ nodes.map (·.id) ∧ ∃ n ∈ nodes, n.id = e ∧ c ∈ n.causes

/-- No presented id is among its own causes, their causes and so on. -/
def Acyclic (nodes : List (CausalNode κ π)) : Prop :=
  ∀ v, ¬ Relation.TransGen (Names nodes) v v

/-- A cause stands for a node at a later position than its effect. -/
def FutureCause [DecidableEq κ] [LT π] (nodes : List (CausalNode κ π)) : Prop :=
  ∃ n ∈ nodes, ∃ c ∈ n.causes, ∃ m, (indexOf nodes c).bind (nodes[·]?) = some m
    ∧ n.position < m.position

section Relation

variable {nodes : List (CausalNode κ π)}

/-- On distinct ids a node is the only one with its id. -/
theorem eq_of_id_eq (distinct : (nodes.map (·.id)).Nodup) {n m : CausalNode κ π} (first : n ∈ nodes)
    (second : m ∈ nodes) (same : n.id = m.id) : n = m :=
  List.inj_on_of_nodup_map distinct first second same

variable [DecidableEq κ]

/-- With different ids, what a node's id names are the causes of that node that are presented.
-/
theorem names_iff (distinct : (nodes.map (·.id)).Nodup) {n : CausalNode κ π} (member : n ∈ nodes)
    {c : κ} : Names nodes n.id c ↔ c ∈ presented (nodes.map (·.id)) n.causes := by
  rw [mem_presented, and_comm, Names]
  refine and_congr_right fun _ => ?_
  constructor
  · intro named
    obtain ⟨m, inside, same, cause⟩ := named
    rwa [eq_of_id_eq distinct inside member same] at cause
  · intro cause
    exact ⟨n, member, rfl, cause⟩

/-- The position check passes exactly when no cause lies in the future. -/
theorem checkPositions_eq_ok [LT π] [DecidableLT π] {futureCause : ε}
    : checkPositions futureCause nodes = .ok () ↔ ¬ FutureCause nodes := by
  have passes : ∀ n c, checkCause futureCause nodes n c = .ok ()
      ↔ ∀ m, (indexOf nodes c).bind (nodes[·]?) = some m → ¬ n.position < m.position := by
    intro n c
    unfold checkCause
    split
    · rename_i absent
      simp [absent]
    · rename_i m found
      simp [found, raiseIf_eq_ok]
  simp only [checkPositions, forM_eq_ok, passes, FutureCause, not_exists, not_and]

theorem verifyCausal_eq_ok [LT π] [DecidableLT π] {futureCause cycle : ε}
    : verifyCausal futureCause cycle nodes = .ok ()
      ↔ ¬ FutureCause nodes ∧ hasCycle nodes = false := by
  rw [verifyCausal, unit_bind_eq_ok, checkPositions_eq_ok, raiseIf_eq_ok, Bool.not_eq_true]

theorem verifyCausal_of_not_futureCause [LT π] [DecidableLT π] {futureCause cycle : ε}
    (present : ¬ FutureCause nodes)
    : verifyCausal futureCause cycle nodes = raiseIf (hasCycle nodes) cycle := by
  rw [verifyCausal, checkPositions_eq_ok.mpr present]
  rfl

theorem not_futureCause_of_equal [LT π] [Std.Irrefl (fun p q : π => p < q)] {position : π}
    (equal : ∀ n ∈ nodes, n.position = position) : ¬ FutureCause nodes := by
  intro future
  obtain ⟨n, member, c, -, m, found, later⟩ := future
  obtain ⟨j, -, inside⟩ := Option.bind_eq_some_iff.mp found
  rw [equal n member, equal m (List.mem_of_getElem? inside)] at later
  exact Std.Irrefl.irrefl position later

-----------------------------------------------------------------------------------------
-- The cycle check
-----------------------------------------------------------------------------------------

theorem edge_successors {i j : ℕ}
    : Edge (successors nodes) i j
      ↔ ∃ n, nodes[i]? = some n ∧ ∃ c ∈ n.causes, indexOf nodes c = some j := by
  unfold Edge successors
  split
  · rename_i absent
    simp [absent]
  · rename_i n found
    simp [found]

/-- What the search follows is a relation of the ids. -/
theorem names_of_path {i j : ℕ} (path : Relation.TransGen (Edge (successors nodes)) i j)
    {n : CausalNode κ π} (start : nodes[i]? = some n)
    : ∃ m, nodes[j]? = some m ∧ Relation.TransGen (Names nodes) n.id m.id := by
  have step : ∀ {i j n}, Edge (successors nodes) i j → nodes[i]? = some n
      → ∃ m, nodes[j]? = some m ∧ Names nodes n.id m.id := by
    intro i j n edge start
    obtain ⟨n', start', c, cause, found⟩ := edge_successors.mp edge
    obtain rfl := Option.some.inj (start.symm.trans start')
    obtain ⟨m, inside, rfl⟩ := indexOf_eq_some found
    have presented := List.mem_map_of_mem (f := (·.id)) (List.mem_of_getElem? inside)
    exact ⟨m, inside, presented, n, List.mem_of_getElem? start, rfl, cause⟩
  induction path with
  | single edge =>
      obtain ⟨m, inside, named⟩ := step edge start
      exact ⟨m, inside, .single named⟩
  | tail _ edge ih =>
      obtain ⟨m, inside, named⟩ := ih
      obtain ⟨m', inside', named'⟩ := step edge inside
      exact ⟨m', inside', named.tail named'⟩

/-- The search starts with every node white. -/
theorem hasCycle_sound (nodes : List (CausalNode κ π))
    : if hasCycle nodes then Cyclic (successors nodes)
      else ∀ v ∈ List.range nodes.length, ¬ Relation.TransGen (Edge (successors nodes)) v v := by
  have ran : findCycle (successors nodes) nodes.length (List.range nodes.length)
      (fun _ => .white) = some (hasCycle nodes) :=
    (Option.some_get _).symm
  refine findCycle_sound ran ⟨?_, ?_⟩ ?_
  · intro b black
    cases black
  · intro b black
    cases black
  · intro v gray
    cases gray

/-- Nothing is found among nodes whose ids lie on no cycle. -/
theorem Acyclic.hasCycle_eq_false (acyclic : Acyclic nodes) : hasCycle nodes = false := by
  have sound := hasCycle_sound nodes
  by_contra found
  rw [Bool.not_eq_false] at found
  rw [found, if_pos rfl] at sound
  obtain ⟨v, cycle⟩ := sound
  obtain ⟨j, edge, -⟩ := Relation.TransGen.head'_iff.mp cycle
  obtain ⟨n, start, -⟩ := edge_successors.mp edge
  obtain ⟨m, same, named⟩ := names_of_path cycle start
  obtain rfl := Option.some.inj (start.symm.trans same)
  exact acyclic n.id named

/-- On distinct ids, a cause stands for the node with its id. -/
theorem futureCause_iff [LT π] (distinct : (nodes.map (·.id)).Nodup)
    : FutureCause nodes
      ↔ ∃ n ∈ nodes, ∃ m ∈ nodes, m.id ∈ n.causes ∧ n.position < m.position := by
  constructor
  · intro future
    obtain ⟨n, member, c, cause, m, found, later⟩ := future
    obtain ⟨j, index, inside⟩ := Option.bind_eq_some_iff.mp found
    obtain ⟨m', inside', rfl⟩ := indexOf_eq_some index
    obtain rfl := Option.some.inj (inside.symm.trans inside')
    exact ⟨n, member, m, List.mem_of_getElem? inside, cause, later⟩
  · intro future
    obtain ⟨n, member, m, inside, cause, later⟩ := future
    have presented := @List.mem_map_of_mem _ _ _ _ (·.id) inside
    obtain ⟨j, index⟩ := Option.ne_none_iff_exists'.mp (@indexFrom_ne_none _ _ _ _ 0 _ presented)
    obtain ⟨m', found, same⟩ := indexOf_eq_some index
    obtain rfl := eq_of_id_eq distinct (List.mem_of_getElem? found) inside same
    exact ⟨n, member, m'.id, cause, m', Option.bind_eq_some_iff.mpr ⟨j, index, found⟩, later⟩

/-- On distinct ids, what the ids name is what the search follows. -/
theorem path_of_names (distinct : (nodes.map (·.id)).Nodup) {e c : κ}
    (named : Relation.TransGen (Names nodes) e c) {i : ℕ} (start : indexOf nodes e = some i)
    : ∃ j, indexOf nodes c = some j ∧ Relation.TransGen (Edge (successors nodes)) i j := by
  have step : ∀ {e c i}, Names nodes e c → indexOf nodes e = some i
      → ∃ j, indexOf nodes c = some j ∧ Edge (successors nodes) i j := by
    intro e c i named start
    obtain ⟨presented, n, member, rfl, cause⟩ := named
    obtain ⟨j, found⟩ := Option.ne_none_iff_exists'.mp (indexFrom_ne_none presented)
    obtain ⟨m, inside, same⟩ := indexOf_eq_some start
    obtain rfl := eq_of_id_eq distinct (List.mem_of_getElem? inside) member same
    exact ⟨j, found, edge_successors.mpr ⟨m, inside, c, cause, found⟩⟩
  induction named with
  | single named =>
      obtain ⟨j, found, edge⟩ := step named start
      exact ⟨j, found, .single edge⟩
  | tail _ named ih =>
      obtain ⟨j, found, path⟩ := ih
      obtain ⟨k, found', edge⟩ := step named found
      exact ⟨k, found', path.tail edge⟩

/-- The colouring finds no cycle exactly when the ids are acyclic. -/
theorem hasCycle_eq_false_iff (distinct : (nodes.map (·.id)).Nodup)
    : hasCycle nodes = false ↔ Acyclic nodes := by
  refine ⟨?_, Acyclic.hasCycle_eq_false⟩
  intro passed v cycle
  have sound := hasCycle_sound nodes
  rw [passed, if_neg Bool.false_ne_true] at sound
  obtain ⟨_, -, presented, -⟩ := Relation.TransGen.tail'_iff.mp cycle
  obtain ⟨i, start⟩ := Option.ne_none_iff_exists'.mp (indexFrom_ne_none presented)
  obtain ⟨j, found, path⟩ := path_of_names distinct cycle start
  obtain rfl := Option.some.inj (start.symm.trans found)
  obtain ⟨n, inside, -⟩ := indexOf_eq_some start
  exact sound i (List.mem_range.mpr (List.getElem?_eq_some_iff.mp inside).1) path

end Relation

-----------------------------------------------------------------------------------------
-- Other positions
-----------------------------------------------------------------------------------------

section Positions

variable {ρ : Type}

def CausalNode.mapPosition (f : π → ρ) (n : CausalNode κ π) : CausalNode κ ρ :=
  { id := n.id, causes := n.causes, position := f n.position }

variable (f : π → ρ) (nodes : List (CausalNode κ π))

theorem map_id_mapPosition : (nodes.map (CausalNode.mapPosition f)).map (·.id) = nodes.map
    (·.id) := by
  rw [List.map_map]
  rfl

variable [DecidableEq κ]

theorem indexFrom_mapPosition (c : κ) (i : ℕ)
    : indexFrom c i (nodes.map (CausalNode.mapPosition f)) = indexFrom c i nodes := by
  induction nodes generalizing i with
  | nil => rfl
  | cons n rest ih =>
      rw [List.map_cons, indexFrom, indexFrom, ih]
      rfl

/-- The positions play no part in it. -/
theorem hasCycle_mapPosition
    : hasCycle (nodes.map (CausalNode.mapPosition f)) = hasCycle nodes := by
  have same : successors (nodes.map (CausalNode.mapPosition f)) = successors nodes := by
    funext i
    unfold successors
    rw [List.getElem?_map]
    cases nodes[i]? with
    | none => rfl
    | some n =>
        exact congrArg (n.causes.filterMap ·) (funext fun c => indexFrom_mapPosition f nodes c 0)
  apply Option.some.inj
  unfold hasCycle
  rw [Option.some_get, Option.some_get, same, List.length_map]

end Positions

-----------------------------------------------------------------------------------------
-- The linearization
-----------------------------------------------------------------------------------------

section Linearization

variable [DecidableEq κ]

/-- The nodes with a counter of their presented causes, and the causes that the loop looks at. -/
def startSlots [NatCast ι] (keep : List κ → List κ) (nodes : List (CausalNode κ π))
    : List (Slot κ ι) :=
  nodes.map fun n =>
    { id := n.id, causes := keep n.causes, done := false,
      waiting := ((presented (nodes.map (·.id)) n.causes).length : ℕ) }

variable {nodes : List (CausalNode κ π)} {keep : List κ → List κ}

section Start

variable [NatCast ι]

theorem mem_startSlots {s : Slot κ ι}
    : s ∈ startSlots keep nodes ↔ ∃ n ∈ nodes,
        { id := n.id, causes := keep n.causes, done := false,
          waiting := ((presented (nodes.map (·.id)) n.causes).length : ℕ) } = s :=
  List.mem_map

/-- Loops over the same nodes start alike when their rules relate the causes that they keep. -/
theorem startSlots_alike {ι' : Type} [NatCast ι'] {keep' : List κ → List κ}
    {related : Slot κ ι → Slot κ ι' → Prop}
    (start : ∀ n ∈ nodes, ∀ count : ℕ,
      related { id := n.id, causes := keep n.causes, waiting := count, done := false }
        { id := n.id, causes := keep' n.causes, waiting := count, done := false })
    : List.Forall₂ (Alike related) (startSlots keep nodes) (startSlots keep' nodes) := by
  rw [startSlots, startSlots, List.forall₂_map_left_iff, List.forall₂_map_right_iff,
    List.forall₂_same]
  exact fun n member => ⟨rfl, rfl, fun _ => start n member _⟩

theorem map_id_startSlots
    : (startSlots keep nodes : List (Slot κ ι)).map (·.id) = nodes.map (·.id) := by
  rw [startSlots, List.map_map]
  rfl

theorem waitingIds_startSlots
    : waitingIds (startSlots keep nodes : List (Slot κ ι)) = nodes.map (·.id) := by
  rw [waitingIds, List.filter_eq_self.mpr, map_id_startSlots]
  intro s member
  obtain ⟨n, -, rfl⟩ := mem_startSlots.mp member
  rfl

theorem length_waitingIds
    : nodes.length = (waitingIds (startSlots keep nodes : List (Slot κ ι))).length := by
  rw [waitingIds_startSlots, List.length_map]

theorem startSlots_mapPosition {ρ : Type} (f : π → ρ)
    : (startSlots keep (nodes.map (CausalNode.mapPosition f)) : List (Slot κ ι))
      = startSlots keep nodes := by
  unfold startSlots
  rw [map_id_mapPosition, List.map_map]
  rfl

end Start

theorem presented_presented {ids causes : List κ}
    : presented ids (presented ids causes) = presented ids causes := by
  rw [presented, List.filter_eq_self]
  intro c member
  exact decide_eq_true (mem_presented.mp member).2

/-- Before the first round nothing is placed. -/
theorem progress_startSlots (amount : κ → List κ → ℤ) (distinct : (nodes.map (·.id)).Nodup)
    (keeps : ∀ causes, presented (nodes.map (·.id)) (keep causes)
      = presented (nodes.map (·.id)) causes)
    : Progress amount (Names nodes) (nodes.map (·.id)) [] (startSlots keep nodes) where
  slotIds := map_id_startSlots
  named s member c := by
    obtain ⟨n, inside, rfl⟩ := mem_startSlots.mp member
    rw [keeps]
    exact names_iff distinct inside
  done s member := by
    obtain ⟨n, -, rfl⟩ := mem_startSlots.mp member
    simp
  inside := List.nil_subset _
  placedOnce := List.nodup_nil
  waiting s member _ := by
    obtain ⟨n, -, rfl⟩ := mem_startSlots.mp member
    simp [keeps]

/-- The id is at most once among the causes of the node. -/
def Slot.NamesOnce (x : κ) (s : Slot κ ι) : Prop := s.causes.count x ≤ 1

/-- For a node that names an id once, both ways of counting take off one. -/
theorem Slot.NamesOnce.amount {x : κ} {s : Slot κ ι} (single : s.NamesOnce x)
    : perOccurrence x s.causes = once x s.causes := by
  unfold once perOccurrence
  by_cases named : x ∈ s.causes
  · have counted : s.causes.count x = 1 := Nat.le_antisymm single (List.count_pos_iff.mpr named)
    rw [if_pos named, counted]
    rfl
  · rw [if_neg named, List.count_eq_zero.mpr named]
    rfl

theorem Slot.namesOnce_of_not_mem {x : κ} {s : Slot κ ι} (absent : x ∉ s.causes)
    : s.NamesOnce x := by
  rw [Slot.NamesOnce, List.count_eq_zero.mpr absent]
  exact Nat.zero_le 1

section Runs

variable [LE κ] [LT κ] [DecidableLT κ] [Std.IsLinearOrder κ] [Std.LawfulOrderLT κ] {stuck : ε}

/-- What a loop returns has every presented id as often as it is presented. -/
theorem kahn_startSlots_perm {rule : κ → Slot κ ℤ → Except ε ℤ} {order : List κ}
    (ran : kahn rule stuck nodes.length (startSlots keep nodes) = .ok order)
    : order.Perm (nodes.map (·.id)) := by
  have perm := kahn_perm length_waitingIds ran
  rwa [waitingIds_startSlots] at perm

/-- The loop that releases every occurrence linearizes the acyclic graphs with distinct ids. -/
theorem kahn_perOccurrence_least (distinct : (nodes.map (·.id)).Nodup) (acyclic : Acyclic nodes)
    : ∃ order, kahn (subtract perOccurrence) stuck nodes.length (startSlots id nodes) = .ok order
        ∧ LeastLinearization (Names nodes) (nodes.map (·.id)) order := by
  obtain ⟨order, ran, causal, least⟩ := kahn_least distinct acyclic
    (progress_startSlots perOccurrence distinct fun _ => rfl) length_waitingIds
  have perm := kahn_startSlots_perm ran
  rw [waitingIds_startSlots] at least
  exact ⟨order, ran, ⟨perm, causal⟩, fun other linear => least other linear.perm linear.causal⟩

/-- The loop that releases once gets stuck on distinct ids when a node names a presented cause
twice.
-/
theorem kahn_once_ne_ok (distinct : (nodes.map (·.id)).Nodup) {n : CausalNode κ π}
    (member : n ∈ nodes) (repeated : ¬ (presented (nodes.map (·.id)) n.causes).Nodup)
    {order : List κ}
    : kahn (subtract once) stuck nodes.length
        (startSlots (presented (nodes.map (·.id))) nodes) ≠ .ok order := by
  have progress := @progress_startSlots κ π _ nodes (presented (nodes.map (·.id))) once distinct
    fun _ => presented_presented
  refine kahn_once_stuck distinct progress length_waitingIds (mem_startSlots.mpr ⟨n, member, rfl⟩)
    rfl ?_
  rwa [presented_presented]

/-- The two loops go alike as long as no release is of a node that names the placed id twice. -/
theorem kahn_once_alike {errors : ε → ε' → Prop} {stuck' : ε'} (stuckAlike : errors stuck stuck')
    (releases : AllReleases Slot.NamesOnce
      (subtract perOccurrence : κ → Slot κ ℤ → Except ε ℤ) nodes.length (startSlots id nodes))
    : Related errors Eq
        (kahn (subtract perOccurrence) stuck nodes.length (startSlots id nodes))
        (kahn (subtract once) stuck' nodes.length
          (startSlots (presented (nodes.map (·.id))) nodes)) := by
  let ids := nodes.map (·.id)
  let related : Slot κ ℤ → Slot κ ℤ → Prop := fun s s' =>
    s.id ∈ ids ∧ s'.waiting = s.waiting ∧ s'.causes = presented ids s.causes
  have rules : AlikeRules related errors Slot.NamesOnce
      (subtract perOccurrence) (subtract once) := by
    intro b b' s s' relatedB relatedS few
    obtain ⟨inside, waiting, causes⟩ := relatedS
    refine ⟨inside, ?_, causes⟩
    have amounts : once b.id s'.causes = perOccurrence b.id s.causes := by
      rw [few.amount]
      unfold once
      simp only [causes, mem_presented, relatedB.1, and_true]
    exact congrArg₂ (· - ·) waiting amounts
  have alike
      : List.Forall₂ (Alike related) (startSlots id nodes) (startSlots (presented ids) nodes) :=
    startSlots_alike fun n member _ => ⟨List.mem_map_of_mem member, rfl, rfl⟩
  refine kahn_alike ?_ rules stuckAlike alike releases
  intro s s' related
  rw [related.2.1]

/-- Nothing is named twice where the presented causes of each node are distinct. -/
theorem releases_of_nodup
    (single : ∀ n ∈ nodes, (presented (nodes.map (·.id)) n.causes).Nodup)
    : AllReleases Slot.NamesOnce
        (subtract perOccurrence : κ → Slot κ ℤ → Except ε ℤ) nodes.length
            (startSlots id nodes) := by
  let ids := nodes.map (·.id)
  apply allReleases_of_kept (fun x causes => x ∈ ids ∧ (presented ids causes).Nodup)
  · intro b s keptB keptS
    have counted : (presented ids s.causes).count b.id = s.causes.count b.id :=
      List.count_filter (decide_eq_true keptB.1)
    rw [Slot.NamesOnce, ← counted]
    exact List.nodup_iff_count_le_one.mp keptS.2 b.id
  · intro s member
    obtain ⟨n, inside, rfl⟩ := mem_startSlots.mp member
    exact ⟨List.mem_map_of_mem inside, single n inside⟩

/-- On distinct ids a counter that loses one at most is positive while a named id is not placed; by
induction on the rounds.
-/
theorem releases_positive {names : κ → κ → Prop} {ids placed : List κ} {slots : List (Slot κ ℤ)}
    {rounds : ℕ} (distinct : ids.Nodup) (progress : Progress once names ids placed slots)
    (presentedOnly : ∀ s ∈ slots, s.causes ⊆ ids)
    : AllReleases (fun x s => x ∈ s.causes → 0 < s.waiting)
        (subtract once : κ → Slot κ ℤ → Except ε ℤ) rounds slots := by
  induction rounds generalizing placed slots with
  | zero => trivial
  | succ rounds ih =>
      intro p b picked
      obtain ⟨found, ready, -⟩ := pick_eq_some picked
      have memberB := List.mem_of_getElem? found
      refine ⟨?_, ?_⟩
      · intro s member waits named
        rcases List.mem_or_eq_of_mem_set member with inside | rfl
        · have presentedB : b.id ∈ presented ids s.causes :=
            mem_presented.mpr ⟨named, presentedOnly s inside named⟩
          refine progress.waiting_pos inside waits ((presented ids s.causes).erase b.id) ?_ ?_
          · intro y placedY namedY
            have other : y ≠ b.id := by
              rintro rfl
              have isDone := (progress.done b memberB).mpr placedY
              rw [ready.1] at isDone
              cases isDone
            have presentedY := mem_presented.mpr ⟨namedY, presentedOnly s inside namedY⟩
            exact (List.mem_erase_of_ne other).mpr presentedY
          · have size := List.length_erase_of_mem presentedB
            have some := List.length_pos_of_mem presentedB
            omega
        · cases waits
      · intro next step
        apply ih (progress.round distinct picked step)
        intro t member
        rcases mem_place found step member with rfl | ⟨s, inside, released, -⟩
        · exact presentedOnly b memberB
        · rw [released.causes]
          exact presentedOnly s inside

/-- On distinct ids the loop that releases once linearizes the acyclic graphs in which no node
names a presented cause twice.
-/
theorem kahn_once_least (distinct : (nodes.map (·.id)).Nodup) (acyclic : Acyclic nodes)
    (single : ∀ n ∈ nodes, (presented (nodes.map (·.id)) n.causes).Nodup)
    : ∃ order, kahn (subtract once) stuck nodes.length
          (startSlots (presented (nodes.map (·.id))) nodes) = .ok order
        ∧ LeastLinearization (Names nodes) (nodes.map (·.id)) order := by
  obtain ⟨order, ran, least⟩ := @kahn_perOccurrence_least κ π ε _ nodes _ _ _ _ _ stuck distinct
    acyclic
  have alike := @kahn_once_alike κ π ε ε _ nodes _ _ _ _ _ stuck (fun _ _ => True) stuck trivial
    (releases_of_nodup single)
  exact ⟨order, (alike.sameOk order).mp ran, least⟩

end Runs

end Linearization

end Naalp.Foundation
