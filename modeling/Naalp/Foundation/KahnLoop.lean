import Mathlib.Data.List.Dedup
import Mathlib.Data.List.Forall2
import Mathlib.Algebra.BigOperators.Group.List.Basic
import Naalp.Foundation.Checks
import Naalp.Foundation.Linearization

/-! Kahn's linearization with a counter of the causes that a node still waits for. In every round
the loop places a node whose counter is zero, the one with the least id, and releases the nodes
that name it. How a release changes the counter is a parameter.
-/

namespace Naalp.Foundation

variable {κ ι ι' ε ε' η : Type}

/-- A node in the loop. -/
structure Slot (κ ι : Type) where
  id : κ
  causes : List κ
  waiting : ι
  done : Bool

def Slot.finish (s : Slot κ ι) : Slot κ ι := { s with done := true }

def Slot.Ready [Zero ι] (s : Slot κ ι) : Prop := s.done = false ∧ s.waiting = 0

instance [Zero ι] [DecidableEq ι] (s : Slot κ ι) : Decidable s.Ready :=
  inferInstanceAs (Decidable (_ ∧ _))

/-- What placing the id does to a node that is not done. -/
def releaseSlot (rule : κ → Slot κ ι → Except ε ι) (id : κ) (s : Slot κ ι)
    : Except ε (Slot κ ι) :=
  if s.done then pure s
  else do
    let waiting ← rule id s
    return { s with waiting }

/-- The picked node is done and the others are released. -/
def place (rule : κ → Slot κ ι → Except ε ι) (slots : List (Slot κ ι)) (p : ℕ) (b : Slot κ ι)
    : Except ε (List (Slot κ ι)) :=
  (slots.set p b.finish).mapM (releaseSlot rule b.id)

section Loop

variable [LT κ] [DecidableLT κ]

/-- The node has a smaller id than the pick so far, if any. -/
def Slot.improves (s : Slot κ ι) : Option (ℕ × Slot κ ι) → Bool
  | none => true
  | some (_, b) => s.id < b.id

variable [Zero ι] [DecidableEq ι]

/-- The loop that picks the first of the ready nodes with the least id, with its index. -/
def pickFrom : (i : ℕ) → (pick : Option (ℕ × Slot κ ι)) → List (Slot κ ι)
    → Option (ℕ × Slot κ ι)
  | _, pick, [] => pick
  | i, pick, s :: rest =>
      if s.Ready ∧ s.improves pick then pickFrom (i + 1) (some (i, s)) rest
      else pickFrom (i + 1) pick rest

def pick (slots : List (Slot κ ι)) : Option (ℕ × Slot κ ι) := pickFrom 0 none slots

/-- As many rounds as there are nodes to place. -/
def kahn (rule : κ → Slot κ ι → Except ε ι) (stuck : ε)
    : (rounds : ℕ) → List (Slot κ ι) → Except ε (List κ)
  | 0, _ => pure []
  | rounds + 1, slots =>
      match pick slots with
      | none => throw stuck
      | some (p, b) => do
          let slots ← place rule slots p b
          let rest ← kahn rule stuck rounds slots
          return b.id :: rest

end Loop

-----------------------------------------------------------------------------------------
-- One round
-----------------------------------------------------------------------------------------

section Rounds

section Picking

variable [LE κ] [LT κ] [DecidableLT κ] [Std.IsLinearOrder κ] [Std.LawfulOrderLT κ] [Zero ι]
  [DecidableEq ι]

/-- What is known of the pick when the loop has a pick already, by induction over the nodes. -/
theorem pickFrom_some {i q p : ℕ} {best b : Slot κ ι} {slots : List (Slot κ ι)}
    (picked : pickFrom i (some (q, best)) slots = some (p, b))
    : ((p, b) = (q, best) ∨ ∃ k, p = i + k ∧ slots[k]? = some b ∧ b.Ready)
      ∧ (∀ s ∈ slots, s.Ready → ¬ s.id < b.id) ∧ ¬ best.id < b.id := by
  induction slots generalizing i q best with
  | nil =>
      obtain ⟨rfl, rfl⟩ := Prod.mk.inj (Option.some.inj picked)
      exact ⟨.inl rfl, by simp, Std.lt_irrefl⟩
  | cons s rest ih =>
      rw [pickFrom] at picked
      split at picked
      · rename_i improved
        obtain ⟨origin, least, notBelow⟩ := ih picked
        refine ⟨.inr ?_, List.forall_mem_cons.mpr ⟨fun _ => notBelow, least⟩, ?_⟩
        · rcases origin with same | ⟨k, place, found, ready⟩
          · obtain ⟨rfl, rfl⟩ := Prod.mk.inj same
            exact ⟨0, rfl, rfl, improved.1⟩
          · exact ⟨k + 1, by omega, found, ready⟩
        · intro below
          have smaller : s.id < best.id := of_decide_eq_true improved.2
          exact notBelow (Std.lt_trans smaller below)
      · rename_i kept
        obtain ⟨origin, least, notBelow⟩ := ih picked
        refine ⟨?_, List.forall_mem_cons.mpr ⟨?_, least⟩, notBelow⟩
        · rcases origin with same | ⟨k, place, found, ready⟩
          · exact .inl same
          · exact .inr ⟨k + 1, by omega, found, ready⟩
        · intro ready below
          have notSmaller : ¬ s.id < best.id := fun smaller => kept ⟨ready, decide_eq_true smaller⟩
          exact notBelow (Std.lt_of_le_of_lt (Std.not_lt.mp notSmaller) below)

omit [LE κ] [Std.IsLinearOrder κ] [Std.LawfulOrderLT κ] in
/-- Once a slot is picked, the scan ends with one. -/
theorem pickFrom_isSome {i : ℕ} {best : ℕ × Slot κ ι} {slots : List (Slot κ ι)}
    : pickFrom i (some best) slots ≠ none := by
  induction slots generalizing i best with
  | nil => simp [pickFrom]
  | cons s rest ih =>
      rw [pickFrom]
      split
      · exact ih
      · exact ih

/-- The scan picks a ready slot of which no ready one is less, or finds that none is ready.
Witness: by induction on the slots, with the best one so far carried along.
-/
theorem pickFrom_none {i : ℕ} {slots : List (Slot κ ι)}
    : match pickFrom i none slots with
      | none => ∀ s ∈ slots, ¬ s.Ready
      | some (p, b) => (∃ k, p = i + k ∧ slots[k]? = some b ∧ b.Ready)
          ∧ ∀ s ∈ slots, s.Ready → ¬ s.id < b.id := by
  induction slots generalizing i with
  | nil => simp [pickFrom]
  | cons s rest ih =>
      rw [pickFrom]
      by_cases ready : s.Ready
      · rw [if_pos ⟨ready, rfl⟩]
        split
        · rename_i stuck
          exact (pickFrom_isSome stuck).elim
        · rename_i p b picked
          obtain ⟨origin, least, notBelow⟩ := pickFrom_some picked
          refine ⟨?_, List.forall_mem_cons.mpr ⟨fun _ => notBelow, least⟩⟩
          rcases origin with same | ⟨k, place, found, ready'⟩
          · obtain ⟨rfl, rfl⟩ := Prod.mk.inj same
            exact ⟨0, rfl, rfl, ready⟩
          · exact ⟨k + 1, by omega, found, ready'⟩
      · rw [if_neg (fun improved => ready improved.1)]
        have later := @ih (i + 1)
        split
        · rename_i stuck
          rw [stuck] at later
          exact List.forall_mem_cons.mpr ⟨ready, later⟩
        · rename_i p b picked
          rw [picked] at later
          obtain ⟨⟨k, place, found, ready'⟩, least⟩ := later
          exact ⟨⟨k + 1, by omega, found, ready'⟩,
            List.forall_mem_cons.mpr ⟨fun isReady => (ready isReady).elim, least⟩⟩

/-- Nothing is picked when no node is ready. -/
theorem pick_eq_none {slots : List (Slot κ ι)} (stuck : pick slots = none)
    : ∀ s ∈ slots, ¬ s.Ready := by
  have spec := @pickFrom_none κ ι _ _ _ _ _ _ _ 0 slots
  rw [← pick, stuck] at spec
  exact spec

/-- The picked node is ready, and no ready node has a smaller id. -/
theorem pick_eq_some {slots : List (Slot κ ι)} {p : ℕ} {b : Slot κ ι}
    (picked : pick slots = some (p, b))
    : slots[p]? = some b ∧ b.Ready ∧ ∀ s ∈ slots, s.Ready → ¬ s.id < b.id := by
  have spec := @pickFrom_none κ ι _ _ _ _ _ _ _ 0 slots
  rw [← pick, picked] at spec
  obtain ⟨⟨k, place, found, ready⟩, least⟩ := spec
  obtain rfl : p = k := by omega
  exact ⟨found, ready, least⟩

end Picking

/-- (Released rule x s t) says that placing the id `x` makes `t` of the node `s`. -/
structure Released (rule : κ → Slot κ ι → Except ε ι) (x : κ) (s t : Slot κ ι) : Prop where
  id : t.id = s.id
  causes : t.causes = s.causes
  done : t.done = s.done
  waiting : s.done = false → rule x s = .ok t.waiting

/-- What releasing a slot does to it. -/
theorem releaseSlot_eq_ok {rule : κ → Slot κ ι → Except ε ι} {x : κ} {s t : Slot κ ι}
    (released : releaseSlot rule x s = .ok t) : Released rule x s t := by
  unfold releaseSlot at released
  split at released
  · rename_i isDone
    obtain rfl := Except.ok.inj released
    exact ⟨rfl, rfl, rfl, fun waits => absurd isDone (by simp [waits])⟩
  · obtain ⟨waiting, ruled, same⟩ := bind_eq_ok.mp released
    obtain rfl := Except.ok.inj same
    exact ⟨rfl, rfl, rfl, fun _ => ruled⟩

/-- A loop that may fail succeeds exactly when it does at every item, by induction on the
items.
-/
theorem mapM_eq_ok {α β : Type} {f : α → Except ε β} {xs : List α} {ys : List β}
    : xs.mapM f = .ok ys ↔ List.Forall₂ (fun x y => f x = .ok y) xs ys := by
  induction xs generalizing ys with
  | nil => cases ys <;> simp
  | cons x xs ih =>
      simp only [List.mapM_cons, bind_eq_ok, pure_eq_ok, Except.ok.injEq, ih]
      constructor
      · intro mapped
        obtain ⟨y, first, rest, later, rfl⟩ := mapped
        exact .cons first later
      · intro mapped
        cases mapped with
        | cons first later => exact ⟨_, first, _, later, rfl⟩

/-- It succeeds when every item does. -/
theorem mapM_ok_of_forall {α β : Type} {f : α → Except ε β} {xs : List α}
    (items : ∀ x ∈ xs, ∃ y, f x = .ok y) : ∃ ys, xs.mapM f = .ok ys := by
  induction xs with
  | nil => exact ⟨[], rfl⟩
  | cons x xs ih =>
      obtain ⟨⟨y, first⟩, later⟩ := List.forall_mem_cons.mp items
      obtain ⟨ys, rest⟩ := ih later
      rw [mapM_eq_ok] at rest
      exact ⟨y :: ys, mapM_eq_ok.mpr (.cons first rest)⟩

/-- A round finishes the picked node where it stands and releases the others. -/
theorem place_eq_ok {rule : κ → Slot κ ι → Except ε ι} {slots next : List (Slot κ ι)} {p : ℕ}
    {b : Slot κ ι} (found : slots[p]? = some b) (placed : place rule slots p b = .ok next)
    : ∃ before after before' after', slots = before ++ b :: after
      ∧ next = before' ++ b.finish :: after'
      ∧ List.Forall₂ (Released rule b.id) before before'
      ∧ List.Forall₂ (Released rule b.id) after after' := by
  obtain ⟨inside, same⟩ := List.getElem?_eq_some_iff.mp found
  obtain ⟨before, after, split, -, replaced⟩ := @List.exists_of_set _ p b.finish slots inside
  rw [same] at split
  simp only [place, replaced, List.mapM_append, bind_eq_ok, mapM_eq_ok, pure_eq_ok,
    Except.ok.injEq] at placed
  obtain ⟨before', first, rest, later, rfl⟩ := placed
  cases later with
  | @cons _ finished _ after' middle later =>
      have stays : b.finish = finished := by
        simpa [releaseSlot, Slot.finish] using middle
      subst stays
      exact ⟨before, after, before', after', split, rfl,
        first.imp fun _ _ => releaseSlot_eq_ok, later.imp fun _ _ => releaseSlot_eq_ok⟩

/-- Every right item of related lists has a left one, by induction on the relation. -/
theorem exists_of_mem_right {α β : Type} {R : α → β → Prop} {xs : List α} {ys : List β}
    (related : List.Forall₂ R xs ys) {y : β} (member : y ∈ ys) : ∃ x ∈ xs, R x y := by
  induction related with
  | nil => cases member
  | @cons x _ _ _ first _ ih =>
      rcases List.mem_cons.mp member with rfl | later
      · exact ⟨x, List.mem_cons_self, first⟩
      · obtain ⟨x, inside, found⟩ := ih later
        exact ⟨x, List.mem_cons_of_mem _ inside, found⟩

theorem exists_of_mem_left {α β : Type} {R : α → β → Prop} {xs : List α} {ys : List β}
    (related : List.Forall₂ R xs ys) {x : α} (member : x ∈ xs) : ∃ y ∈ ys, R x y :=
  exists_of_mem_right related.flip member

theorem map_id_released {rule : κ → Slot κ ι → Except ε ι} {x : κ} {slots next : List (Slot κ ι)}
    (released : List.Forall₂ (Released rule x) slots next)
    : next.map (·.id) = slots.map (·.id) := by
  induction released with
  | nil => rfl
  | cons first _ ih => rw [List.map_cons, List.map_cons, ih, first.id]

/-- The nodes stand where they were. -/
theorem map_id_place {rule : κ → Slot κ ι → Except ε ι} {slots next : List (Slot κ ι)} {p : ℕ}
    {b : Slot κ ι} (found : slots[p]? = some b) (placed : place rule slots p b = .ok next)
    : next.map (·.id) = slots.map (·.id) := by
  obtain ⟨before, after, before', after', rfl, rfl, first, later⟩ := place_eq_ok found placed
  rw [List.map_append, List.map_append, List.map_cons, List.map_cons, map_id_released first,
    map_id_released later]
  rfl

/-- A node after a round is the finished pick, or another node that was released. -/
theorem mem_place {rule : κ → Slot κ ι → Except ε ι} {slots next : List (Slot κ ι)} {p : ℕ}
    {b t : Slot κ ι} (found : slots[p]? = some b) (placed : place rule slots p b = .ok next)
    (member : t ∈ next)
    : t = b.finish ∨ ∃ s ∈ slots, Released rule b.id s t
        ∧ ((slots.map (·.id)).Nodup → s.id ≠ b.id) := by
  obtain ⟨before, after, before', after', rfl, rfl, first, later⟩ := place_eq_ok found placed
  rcases List.mem_append.mp member with left | right
  · obtain ⟨s, inside, released⟩ := exists_of_mem_right first left
    refine .inr ⟨s, List.mem_append_left _ inside, released, ?_⟩
    intro distinct same
    rw [List.map_append, List.nodup_append] at distinct
    exact distinct.2.2 _ (List.mem_map_of_mem inside) _ List.mem_cons_self same
  · rcases List.mem_cons.mp right with rfl | right
    · exact .inl rfl
    · obtain ⟨s, inside, released⟩ := exists_of_mem_right later right
      refine .inr ⟨s, List.mem_append_right _ (List.mem_cons_of_mem _ inside), released, ?_⟩
      intro distinct same
      rw [List.map_append, List.nodup_append, List.map_cons, List.nodup_cons] at distinct
      exact distinct.2.1.1 (same ▸ List.mem_map_of_mem inside)

/-- A node other than the pick goes on, released. -/
theorem exists_released {rule : κ → Slot κ ι → Except ε ι} {slots next : List (Slot κ ι)} {p : ℕ}
    {b s : Slot κ ι} (found : slots[p]? = some b) (placed : place rule slots p b = .ok next)
    (member : s ∈ slots) (other : s ≠ b) : ∃ t ∈ next, Released rule b.id s t := by
  obtain ⟨before, after, before', after', rfl, rfl, first, later⟩ := place_eq_ok found placed
  rcases List.mem_append.mp member with left | right
  · obtain ⟨t, inside, released⟩ := exists_of_mem_left first left
    exact ⟨t, List.mem_append_left _ inside, released⟩
  · obtain ⟨t, inside, released⟩ := exists_of_mem_left later (List.mem_of_ne_of_mem other right)
    exact ⟨t, List.mem_append_right _ (List.mem_cons_of_mem _ inside), released⟩

/-- The ids that are still to be placed. -/
def waitingIds (slots : List (Slot κ ι)) : List κ :=
  (slots.filter (fun s => !s.done)).map (·.id)

theorem mem_waitingIds {slots : List (Slot κ ι)} {id : κ}
    : id ∈ waitingIds slots ↔ ∃ s ∈ slots, s.done = false ∧ s.id = id := by
  simp [waitingIds, and_assoc]

/-- Releasing leaves the same ids waiting: no slot is placed by it. -/
theorem waitingIds_released {rule : κ → Slot κ ι → Except ε ι} {x : κ}
    {slots next : List (Slot κ ι)} (released : List.Forall₂ (Released rule x) slots next)
    : waitingIds next = waitingIds slots := by
  induction released with
  | nil => rfl
  | @cons s t _ _ first _ ih =>
      simp only [waitingIds, List.filter_cons, first.done] at ih ⊢
      split
      · rw [List.map_cons, List.map_cons, ih, first.id]
      · exact ih

/-- A round takes the picked id from those that are still to be placed. -/
theorem waitingIds_place {rule : κ → Slot κ ι → Except ε ι} {slots next : List (Slot κ ι)} {p : ℕ}
    {b : Slot κ ι} (found : slots[p]? = some b) (waits : b.done = false)
    (placed : place rule slots p b = .ok next)
    : (waitingIds slots).Perm (b.id :: waitingIds next) := by
  obtain ⟨before, after, before', after', rfl, rfl, first, later⟩ := place_eq_ok found placed
  have left := waitingIds_released first
  have right := waitingIds_released later
  simp only [waitingIds, List.filter_append, List.map_append, List.filter_cons, waits, Slot.finish]
    at left right ⊢
  simp only [Bool.not_false, if_true, Bool.not_true, Bool.false_eq_true, if_false, List.map_cons,
    left, right]
  exact List.perm_middle

end Rounds

-----------------------------------------------------------------------------------------
-- Whole runs
-----------------------------------------------------------------------------------------

section Runs

variable [LE κ] [LT κ] [DecidableLT κ] [Std.IsLinearOrder κ] [Std.LawfulOrderLT κ]

variable [Zero ι] [DecidableEq ι] {rule : κ → Slot κ ι → Except ε ι} {stuck : ε}
  {slots : List (Slot κ ι)} {order : List κ} {rounds : ℕ}

omit [LE κ] [Std.IsLinearOrder κ] [Std.LawfulOrderLT κ] in
/-- One round of the loop: a slot is picked and placed, and the rest is ordered. -/
theorem kahn_succ_eq_ok
    : kahn rule stuck (rounds + 1) slots = .ok order
      ↔ ∃ p b next rest, pick slots = some (p, b) ∧ place rule slots p b = .ok next
        ∧ kahn rule stuck rounds next = .ok rest ∧ order = b.id :: rest := by
  rw [kahn]
  cases pick slots with
  | none => simp
  | some picked =>
      obtain ⟨p, b⟩ := picked
      simp only [bind_eq_ok, pure_eq_ok, Except.ok.injEq, Option.some.injEq, Prod.mk.injEq]
      constructor
      · intro ran
        obtain ⟨next, placed, rest, later, rfl⟩ := ran
        exact ⟨p, b, next, rest, ⟨rfl, rfl⟩, placed, later, rfl⟩
      · intro ran
        obtain ⟨p', b', next, rest, ⟨rfl, rfl⟩, placed, later, rfl⟩ := ran
        exact ⟨next, placed, rest, later, rfl⟩

/-- A run that succeeds places every waiting node once, whatever the releases do; by induction on
the rounds.
-/
theorem kahn_perm (enough : rounds = (waitingIds slots).length)
    (ran : kahn rule stuck rounds slots = .ok order) : order.Perm (waitingIds slots) := by
  induction rounds generalizing slots order with
  | zero =>
      obtain rfl := Except.ok.inj ran
      rw [List.eq_nil_of_length_eq_zero enough.symm]
  | succ rounds ih =>
      obtain ⟨p, b, next, rest, picked, placed, later, rfl⟩ := kahn_succ_eq_ok.mp ran
      obtain ⟨found, ready, -⟩ := pick_eq_some picked
      have taken := waitingIds_place found ready.1 placed
      have size := taken.length_eq
      rw [List.length_cons] at size
      exact ((ih (by omega) later).cons b.id).trans taken.symm

omit [LE κ] [Std.IsLinearOrder κ] [Std.LawfulOrderLT κ] in
/-- A run fails as its releases do, or because it is stuck. -/
theorem kahn_failsOnly {named : ε → Prop} (releases : ∀ x s, FailsOnly named (rule x s))
    (known : named stuck) : FailsOnly named (kahn rule stuck rounds slots) := by
  induction rounds generalizing slots with
  | zero => exact failsOnly_pure []
  | succ rounds ih =>
      rw [kahn]
      split
      · exact failsOnly_throw known
      · rename_i p b _
        refine FailsOnly.bind (FailsOnly.mapM fun s => ?_) fun next => ih.bind fun rest =>
          failsOnly_pure _
        unfold releaseSlot
        split
        · exact failsOnly_pure s
        · exact (releases b.id s).bind fun waiting => failsOnly_pure _

end Runs

end Naalp.Foundation
