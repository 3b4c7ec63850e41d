import Mathlib.Algebra.BigOperators.Group.List.Basic
import Mathlib.Data.Int.Cast.Lemmas
import Mathlib.Data.List.Dedup
import Naalp.Foundation.KahnLoop

/-! Counters that start with the number of the presented causes of a node. Where a release takes
off one for every occurrence of the placed id, the loop finds the least linearization of every
acyclic graph with distinct ids. Where it takes off one at most, a node that names a cause twice is
never placed.
-/

namespace Naalp.Foundation

variable {κ ε : Type}

/-- Placing an id takes an amount, which depends on the causes of a node, off its counter. -/
def subtract (amount : κ → List κ → ℤ) (x : κ) (s : Slot κ ℤ) : Except ε ℤ :=
  pure (s.waiting - amount x s.causes)

/-- The rules that only subtract do not fail. -/
theorem place_subtract (amount : κ → List κ → ℤ) (slots : List (Slot κ ℤ)) (p : ℕ) (b : Slot κ ℤ)
    : ∃ next, place (subtract amount : κ → Slot κ ℤ → Except ε ℤ) slots p b = .ok next := by
  apply mapM_ok_of_forall
  intro s _
  unfold releaseSlot
  split
  · exact ⟨s, rfl⟩
  · exact ⟨_, rfl⟩

section Counting

variable [DecidableEq κ]

/-- One for a node that names the id. -/
def once (x : κ) (causes : List κ) : ℤ := if x ∈ causes then 1 else 0

/-- One for every occurrence of the id among the causes. -/
def perOccurrence (x : κ) (causes : List κ) : ℤ := causes.count x

/-- The causes that are among the ids. -/
def presented (ids causes : List κ) : List κ := causes.filter (· ∈ ids)

@[simp]
theorem mem_presented {ids causes : List κ} {c : κ}
    : c ∈ presented ids causes ↔ c ∈ causes ∧ c ∈ ids := by
  simp [presented]

theorem filter_presented {ids placed causes : List κ} (inside : placed ⊆ ids)
    : (presented ids causes).filter (· ∈ placed) = causes.filter (· ∈ placed) := by
  rw [presented, List.filter_filter]
  apply List.filter_congr
  intro c _
  rw [← Bool.decide_and, decide_eq_decide]
  exact and_iff_left_of_imp fun member => inside member

/-- Placing an id places as many causes as it occurs among them, by induction on the causes. -/
theorem length_filter_cons {x : κ} {placed causes : List κ} (unplaced : x ∉ placed)
    : (causes.filter (· ∈ x :: placed)).length
      = causes.count x + (causes.filter (· ∈ placed)).length := by
  induction causes with
  | nil => rfl
  | cons c rest ih =>
      by_cases same : c = x
      · subst same
        simp only [List.filter_cons, List.mem_cons_self, decide_true, if_true, List.length_cons, ih,
          List.count_cons_self, unplaced, decide_false, Bool.false_eq_true, if_false]
        omega
      · simp only [List.filter_cons, List.mem_cons, same, false_or, List.count_cons_of_ne same]
          at ih ⊢
        split
        · rw [List.length_cons, List.length_cons, ih]
          rfl
        · exact ih

/-- The occurrences of the placed ids add up to the placed causes, by induction on the ids. -/
theorem sum_perOccurrence {placed causes : List κ} (placedOnce : placed.Nodup)
    : (placed.map (fun x => perOccurrence x causes)).sum
      = (causes.filter (· ∈ placed)).length := by
  induction placed with
  | nil => simp
  | cons x placed ih =>
      obtain ⟨unplaced, later⟩ := List.nodup_cons.mp placedOnce
      rw [List.map_cons, List.sum_cons, ih later, length_filter_cons unplaced, perOccurrence,
        Nat.cast_add]

/-- The placed ids that a node names. -/
theorem sum_once {placed causes : List κ}
    : (placed.map (fun x => once x causes)).sum = (placed.filter (· ∈ causes)).length := by
  induction placed with
  | nil => rfl
  | cons x placed ih =>
      rw [List.map_cons, List.sum_cons, ih, once, List.filter_cons]
      by_cases named : x ∈ causes
      · simp [named, add_comm]
      · simp [named]

end Counting

section Runs

variable [LE κ] [LT κ] [DecidableLT κ] [Std.IsLinearOrder κ] [Std.LawfulOrderLT κ]
  [DecidableEq κ]

/-- What a run keeps on distinct ids: a node is done when its id is placed, and one that waits has
a counter of its presented causes less what the placed ids took.
-/
structure Progress (amount : κ → List κ → ℤ) (names : κ → κ → Prop) (ids placed : List κ)
    (slots : List (Slot κ ℤ)) : Prop where
  slotIds : slots.map (·.id) = ids
  named : ∀ s ∈ slots, ∀ c, names s.id c ↔ c ∈ presented ids s.causes
  done : ∀ s ∈ slots, s.done = true ↔ s.id ∈ placed
  inside : placed ⊆ ids
  placedOnce : placed.Nodup
  waiting : ∀ s ∈ slots, s.done = false
    → s.waiting = (presented ids s.causes).length - (placed.map (fun x => amount x s.causes)).sum

variable {amount : κ → List κ → ℤ} {names : κ → κ → Prop} {ids placed : List κ}
  {slots next : List (Slot κ ℤ)} {stuck : ε} {rounds : ℕ}

/-- The progress of a round: the picked id is placed.
Witness: the slot of the picked id is the only one that becomes done, and those that wait for
it are lowered by as much as they name it.
-/
theorem Progress.round (distinct : ids.Nodup) (progress : Progress amount names ids placed slots)
    {p : ℕ} {b : Slot κ ℤ} (picked : pick slots = some (p, b))
    (step : place (subtract amount : κ → Slot κ ℤ → Except ε ℤ) slots p b = .ok next)
    : Progress amount names ids (b.id :: placed) next := by
  obtain ⟨found, ready, -⟩ := pick_eq_some picked
  have memberB : b ∈ slots := List.mem_of_getElem? found
  have unplaced : b.id ∉ placed := by
    intro already
    have isDone := (progress.done b memberB).mpr already
    rw [ready.1] at isDone
    cases isDone
  have distinctSlots : (slots.map (·.id)).Nodup := progress.slotIds ▸ distinct
  refine ⟨(map_id_place found step).trans progress.slotIds, ?_, ?_, ?_, ?_, ?_⟩
  · intro t member c
    rcases mem_place found step member with rfl | ⟨s, inside, released, -⟩
    · exact progress.named b memberB c
    · rw [released.id, released.causes]
      exact progress.named s inside c
  · intro t member
    rcases mem_place found step member with rfl | ⟨s, inside, released, other⟩
    · exact iff_of_true rfl List.mem_cons_self
    · rw [released.id, released.done, progress.done s inside, List.mem_cons,
        or_iff_right (other distinctSlots)]
  · have insideB : b.id ∈ ids := progress.slotIds ▸ List.mem_map_of_mem memberB
    exact List.cons_subset.mpr ⟨insideB, progress.inside⟩
  · exact List.nodup_cons.mpr ⟨unplaced, progress.placedOnce⟩
  · intro t member waits
    rcases mem_place found step member with rfl | ⟨s, inside, released, -⟩
    · cases waits
    · rw [released.done] at waits
      have counted : s.waiting - amount b.id s.causes = t.waiting :=
        Except.ok.inj (released.waiting waits)
      rw [← counted, progress.waiting s inside waits, released.causes, List.map_cons,
        List.sum_cons]
      omega

omit [LE κ] [LT κ] [DecidableLT κ] [Std.IsLinearOrder κ] [Std.LawfulOrderLT κ] in
/-- With a counter for every occurrence, the ready nodes are those whose presented causes are all
placed.
-/
theorem Progress.ready_iff (progress : Progress perOccurrence names ids placed slots)
    {s : Slot κ ℤ} (member : s ∈ slots) (waits : s.done = false)
    : s.Ready ↔ ∀ c, names s.id c → c ∈ placed := by
  have counted : s.waiting
      = ((presented ids s.causes).filter (fun c => !decide (c ∈ placed))).length := by
    have split := List.length_eq_length_filter_add (l := presented ids s.causes) (· ∈ placed)
    rw [progress.waiting s member waits, sum_perOccurrence progress.placedOnce,
      ← filter_presented progress.inside, split, Nat.cast_add, add_sub_cancel_left]
  rw [Slot.Ready, and_iff_right waits, counted, Nat.cast_eq_zero, List.length_eq_zero_iff,
    List.filter_eq_nil_iff]
  refine forall_congr' fun c => ?_
  rw [progress.named s member c]
  simp

/-- While nodes wait in an acyclic graph, one is ready: else each would name another that waits. -/
theorem Progress.pick_ne_none (progress : Progress perOccurrence names ids placed slots)
    (acyclic : ∀ v, ¬ Relation.TransGen names v v) (waiting : waitingIds slots ≠ [])
    : pick slots ≠ none := by
  intro picked
  have named : ∀ e ∈ waitingIds slots, ∃ c ∈ waitingIds slots, names e c := by
    intro e waiting
    obtain ⟨s, member, waits, rfl⟩ := mem_waitingIds.mp waiting
    have notReady := pick_eq_none picked s member
    rw [progress.ready_iff member waits] at notReady
    push Not at notReady
    obtain ⟨c, named, unplaced⟩ := notReady
    have inside : c ∈ ids := (mem_presented.mp ((progress.named s member c).mp named)).2
    obtain ⟨t, found, rfl⟩ := List.mem_map.mp (progress.slotIds ▸ inside)
    have waits : t.done = false := by
      rw [← Bool.not_eq_true, progress.done t found]
      exact unplaced
    exact ⟨t.id, mem_waitingIds.mpr ⟨t, found, waits, rfl⟩, named⟩
  obtain ⟨v, cycle⟩ := exists_cycle_of_named waiting named
  exact acyclic v cycle

/-- A run succeeds on every acyclic graph, and what it places is causal and least among the orders
of what waits; by induction on the rounds.
-/
theorem kahn_least (distinct : ids.Nodup) (acyclic : ∀ v, ¬ Relation.TransGen names v v)
    (progress : Progress perOccurrence names ids placed slots)
    (enough : rounds = (waitingIds slots).length)
    : ∃ order, kahn (subtract perOccurrence) stuck rounds slots = .ok order
        ∧ Causal names placed order
        ∧ ∀ other, other.Perm (waitingIds slots) → Causal names placed other
          → order ≤ other := by
  induction rounds generalizing placed slots with
  | zero =>
      refine ⟨[], rfl, trivial, ?_⟩
      intro other perm causal
      rw [List.eq_nil_of_length_eq_zero enough.symm, List.perm_nil] at perm
      subst perm
      exact List.le_refl []
  | succ rounds ih =>
      have waiting : waitingIds slots ≠ [] := by
        intro empty
        rw [empty] at enough
        cases enough
      obtain ⟨⟨p, b⟩, picked⟩ := Option.ne_none_iff_exists'.mp
        (progress.pick_ne_none acyclic waiting)
      obtain ⟨found, ready, least⟩ := pick_eq_some picked
      obtain ⟨next, step⟩ := @place_subtract κ ε perOccurrence slots p b
      have taken := waitingIds_place found ready.1 step
      have few : rounds = (waitingIds next).length := by
        have size := taken.length_eq
        rw [List.length_cons] at size
        omega
      obtain ⟨rest, ran, causal, first⟩ := ih (progress.round distinct picked step) few
      have perm := kahn_perm few ran
      have whole := taken.trans (perm.symm.cons b.id)
      have placedAll := (progress.ready_iff (List.mem_of_getElem? found) ready.1).mp ready
      refine ⟨b.id :: rest, kahn_succ_eq_ok.mpr ⟨p, b, next, rest, picked, step, ran, rfl⟩,
        ⟨placedAll, causal⟩, ?_⟩
      intro other permOther causalOther
      refine cons_le_of_causal (permOther.trans whole) causalOther ?_ ?_
      · intro y member placedAll
        obtain ⟨s, inside, waits, rfl⟩ := mem_waitingIds.mp (whole.mem_iff.mpr member)
        exact least s inside ((progress.ready_iff inside waits).mpr placedAll)
      · intro tail permTail causalTail
        exact first tail (permTail.trans perm) causalTail

omit [LE κ] [LT κ] [DecidableLT κ] [Std.IsLinearOrder κ] [Std.LawfulOrderLT κ] in
/-- A counter that loses one at most is too large while a cause of the node is not placed. -/
theorem Progress.waiting_pos (progress : Progress once names ids placed slots) {s : Slot κ ℤ}
    (member : s ∈ slots) (waits : s.done = false) (rest : List κ)
    (few : ∀ x ∈ placed, x ∈ s.causes → x ∈ rest)
    (fewer : rest.length < (presented ids s.causes).length)
    : 0 < s.waiting := by
  have named : (placed.filter (· ∈ s.causes)).length ≤ rest.length := by
    apply List.Subperm.length_le
    apply List.subperm_of_subset (progress.placedOnce.filter _)
    intro x member
    obtain ⟨inside, named⟩ := List.mem_filter.mp member
    exact few x inside (of_decide_eq_true named)
  rw [progress.waiting s member waits, sum_once]
  omega

/-- A node that names a presented cause twice is never ready where a release takes off one, so no
run succeeds; by induction on the rounds.
-/
theorem kahn_once_stuck (distinct : ids.Nodup)
    (progress : Progress once names ids placed slots)
    (enough : rounds = (waitingIds slots).length) {s : Slot κ ℤ} (member : s ∈ slots)
    (waits : s.done = false) (repeated : ¬ (presented ids s.causes).Nodup) {order : List κ}
    : kahn (subtract once) stuck rounds slots ≠ .ok order := by
  induction rounds generalizing placed slots s order with
  | zero =>
      have waiting := mem_waitingIds.mpr ⟨s, member, waits, rfl⟩
      rw [List.eq_nil_of_length_eq_zero enough.symm] at waiting
      cases waiting
  | succ rounds ih =>
      intro ran
      obtain ⟨p, b, next, rest, picked, step, later, rfl⟩ := kahn_succ_eq_ok.mp ran
      obtain ⟨found, ready, -⟩ := pick_eq_some picked
      have few : rounds = (waitingIds next).length := by
        have size := (waitingIds_place found ready.1 step).length_eq
        rw [List.length_cons] at size
        omega
      have positive : 0 < s.waiting := by
        have few : ∀ x ∈ placed, x ∈ s.causes → x ∈ (presented ids s.causes).dedup := by
          intro x placed named
          exact List.mem_dedup.mpr (mem_presented.mpr ⟨named, progress.inside placed⟩)
        have shorter := (List.dedup_sublist (presented ids s.causes)).length_le
        refine progress.waiting_pos member waits _ few (Nat.lt_of_le_of_ne shorter fun same => ?_)
        apply repeated
        rw [← (List.dedup_sublist _).eq_of_length same]
        exact List.nodup_dedup _
      have other : s ≠ b := by
        rintro rfl
        rw [ready.2] at positive
        exact absurd positive (by decide)
      obtain ⟨t, inside, released⟩ := exists_released found step member other
      have waits' : t.done = false := released.done.trans waits
      rw [← released.causes] at repeated
      exact ih (progress.round distinct picked step) few inside waits' repeated later

end Runs

end Naalp.Foundation
