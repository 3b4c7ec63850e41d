import Naalp.Foundation.KahnLoop

/-! Two loops that keep their counters differently. They go alike as long as the releases of one of
them meet a condition under which the rules do.
-/

namespace Naalp.Foundation

variable {κ ι ι' ε ε' : Type}

/-- Results that are related by equality are equal. -/
theorem Related.eq {α : Type} {left right : Except ε α} (related : Related Eq Eq left right)
    : left = right := by
  cases left with
  | error error =>
      cases right with
      | error error' => exact congrArg Except.error related
      | ok value' => exact related.elim
  | ok value =>
      cases right with
      | error error' => exact related.elim
      | ok value' => exact congrArg Except.ok related

/-- (AllReleases holds rule rounds slots) says that every node that is released in a run meets the
condition with the placed id.
-/
def AllReleases [LT κ] [DecidableLT κ] [Zero ι] [DecidableEq ι] (holds : κ → Slot κ ι → Prop)
    (rule : κ → Slot κ ι → Except ε ι) : (rounds : ℕ) → List (Slot κ ι) → Prop
  | 0, _ => True
  | rounds + 1, slots =>
      ∀ p b, pick slots = some (p, b)
        → (∀ s ∈ slots.set p b.finish, s.done = false → holds b.id s)
          ∧ ∀ next, place rule slots p b = .ok next → AllReleases holds rule rounds next

/-- What holds of the ids and causes of the nodes holds along the run. -/
theorem allReleases_of_kept [LE κ] [LT κ] [DecidableLT κ] [Std.IsLinearOrder κ]
    [Std.LawfulOrderLT κ] [Zero ι] [DecidableEq ι] {holds : κ → Slot κ ι → Prop}
    {rule : κ → Slot κ ι → Except ε ι} (kept : κ → List κ → Prop)
    (meets : ∀ b s : Slot κ ι, kept b.id b.causes → kept s.id s.causes → holds b.id s)
    {rounds : ℕ} {slots : List (Slot κ ι)} (start : ∀ s ∈ slots, kept s.id s.causes)
    : AllReleases holds rule rounds slots := by
  induction rounds generalizing slots with
  | zero => trivial
  | succ rounds ih =>
      intro p b picked
      obtain ⟨found, -, -⟩ := pick_eq_some picked
      have keptB := start b (List.mem_of_getElem? found)
      refine ⟨?_, ?_⟩
      · intro s member _
        rcases List.mem_or_eq_of_mem_set member with inside | rfl
        · exact meets b s keptB (start s inside)
        · exact meets b b.finish keptB keptB
      · intro next placed
        apply ih
        intro t member
        rcases mem_place found placed member with rfl | ⟨s, inside, released, -⟩
        · exact keptB
        · rw [released.id, released.causes]
          exact start s inside

/-- The same node in two loops, whose counters are related while it waits. -/
structure Alike (related : Slot κ ι → Slot κ ι' → Prop) (s : Slot κ ι) (s' : Slot κ ι')
    : Prop where
  id : s'.id = s.id
  done : s'.done = s.done
  related : s.done = false → related s s'

section Loops

variable {related : Slot κ ι → Slot κ ι' → Prop} {slots : List (Slot κ ι)}
  {slots' : List (Slot κ ι')}

theorem Alike.finish {s : Slot κ ι} {s' : Slot κ ι'} (alike : Alike related s s')
    : Alike related s.finish s'.finish where
  id := alike.id
  done := rfl
  related waits := by cases waits

theorem alike_set (alike : List.Forall₂ (Alike related) slots slots') (p : ℕ) {b : Slot κ ι}
    {b' : Slot κ ι'} (same : Alike related b b')
    : List.Forall₂ (Alike related) (slots.set p b) (slots'.set p b') := by
  induction alike generalizing p with
  | nil => exact .nil
  | cons first later ih =>
      cases p with
      | zero => exact .cons same later
      | succ p => exact .cons first (ih p)

section Picks

variable [LT κ] [DecidableLT κ] [Zero ι] [DecidableEq ι] [Zero ι'] [DecidableEq ι']
  (zero : ∀ s s', related s s' → (s'.waiting = 0 ↔ s.waiting = 0))

include zero

omit [LT κ] [DecidableLT κ] [DecidableEq ι] [DecidableEq ι'] in
theorem Alike.ready_iff {s : Slot κ ι} {s' : Slot κ ι'} (alike : Alike related s s')
    : s'.Ready ↔ s.Ready := by
  rw [Slot.Ready, Slot.Ready, alike.done]
  exact and_congr_right fun waits => zero s s' (alike.related waits)

/-- The loops pick the same node, by induction over the nodes. -/
theorem pickFrom_alike {i : ℕ} {best : Option (ℕ × Slot κ ι)} {best' : Option (ℕ × Slot κ ι')}
    (alike : List.Forall₂ (Alike related) slots slots')
    (alikeBest : Option.Rel (fun b b' => b.1 = b'.1 ∧ Alike related b.2 b'.2) best best')
    : Option.Rel (fun b b' => b.1 = b'.1 ∧ Alike related b.2 b'.2) (pickFrom i best slots)
        (pickFrom i best' slots') := by
  induction alike generalizing i best best' with
  | nil => exact alikeBest
  | @cons s s' _ _ first later ih =>
      have improves : s'.improves best' = s.improves best := by
        cases alikeBest with
        | none => rfl
        | some same =>
            obtain ⟨-, same⟩ := same
            rw [Slot.improves, Slot.improves, first.id, same.id]
      rw [pickFrom, pickFrom]
      by_cases improved : s.Ready ∧ s.improves best
      · rw [if_pos improved, if_pos (by rwa [first.ready_iff zero, improves])]
        exact ih (.some ⟨rfl, first⟩)
      · rw [if_neg improved, if_neg (by rwa [first.ready_iff zero, improves])]
        exact ih alikeBest

theorem pick_alike (alike : List.Forall₂ (Alike related) slots slots')
    : Option.Rel (fun b b' => b.1 = b'.1 ∧ Alike related b.2 b'.2) (pick slots) (pick slots') :=
  pickFrom_alike zero alike .none

end Picks

variable {rule : κ → Slot κ ι → Except ε ι} {rule' : κ → Slot κ ι' → Except ε' ι'}
  {errors : ε → ε' → Prop} {holds : κ → Slot κ ι → Prop}

/-- Rules that release related counters to related ones, where the condition holds. -/
def AlikeRules (related : Slot κ ι → Slot κ ι' → Prop) (errors : ε → ε' → Prop)
    (holds : κ → Slot κ ι → Prop) (rule : κ → Slot κ ι → Except ε ι)
    (rule' : κ → Slot κ ι' → Except ε' ι') : Prop :=
  ∀ b b' s s', related b b' → related s s' → holds b.id s
    → Related errors (fun waiting waiting' =>
      related { s with waiting } { s' with waiting := waiting' })
        (rule b.id s) (rule' b.id s')

/-- Releasing related slots by rules that are alike leaves related slots or related errors, by
induction on the slots.
-/
theorem releaseAll_alike {b : Slot κ ι} {b' : Slot κ ι'}
    (rules : AlikeRules related errors holds rule rule')
    (relatedB : related b b') (alike : List.Forall₂ (Alike related) slots slots')
    (meets : ∀ s ∈ slots, s.done = false → holds b.id s)
    : Related errors (List.Forall₂ (Alike related)) (slots.mapM (releaseSlot rule b.id))
        (slots'.mapM (releaseSlot rule' b.id)) := by
  induction alike with
  | nil => exact .nil
  | @cons s s' _ _ first later ih =>
      obtain ⟨meets, meetsLater⟩ := List.forall_mem_cons.mp meets
      have released : Related errors (Alike related) (releaseSlot rule b.id s)
          (releaseSlot rule' b.id s') := by
        unfold releaseSlot
        by_cases isDone : s.done
        · rw [if_pos isDone, if_pos (first.done.trans isDone)]
          exact first
        · rw [if_neg isDone, if_neg (by rwa [first.done])]
          rw [Bool.not_eq_true] at isDone
          refine (rules b b' s s' relatedB (first.related isDone) (meets isDone)).bind ?_
          intro waiting waiting' same
          exact ⟨first.id, first.done, fun _ => same⟩
      rw [List.mapM_cons, List.mapM_cons]
      refine released.bind fun t t' same => ?_
      exact (ih meetsLater).bind fun rest rest' sameRest => .cons same sameRest

/-- The loops go alike when all releases of the first meet the condition; by induction on the
rounds.
-/
theorem kahn_alike [LE κ] [LT κ] [DecidableLT κ] [Std.IsLinearOrder κ] [Std.LawfulOrderLT κ]
    [Zero ι] [DecidableEq ι] [Zero ι'] [DecidableEq ι'] {stuck : ε} {stuck' : ε'}
    (zero : ∀ s s', related s s' → (s'.waiting = 0 ↔ s.waiting = 0))
    (rules : AlikeRules related errors holds rule rule') (stuckAlike : errors stuck stuck')
    {rounds : ℕ} (alike : List.Forall₂ (Alike related) slots slots')
    (meets : AllReleases holds rule rounds slots)
    : Related errors Eq (kahn rule stuck rounds slots) (kahn rule' stuck' rounds slots') := by
  induction rounds generalizing slots slots' with
  | zero => exact rfl
  | succ rounds ih =>
      have picks := pick_alike zero alike
      rw [kahn, kahn]
      cases picked : pick slots with
      | none =>
          rw [picked] at picks
          generalize pick slots' = best' at picks ⊢
          cases picks
          exact stuckAlike
      | some best =>
          obtain ⟨p, b⟩ := best
          obtain ⟨-, ready, -⟩ := pick_eq_some picked
          obtain ⟨meetsFirst, meetsLater⟩ := meets p b picked
          rw [picked] at picks
          generalize pick slots' = best' at picks ⊢
          cases picks with
          | @some _ best' same =>
              obtain ⟨p', b'⟩ := best'
              obtain ⟨rfl, same⟩ := same
              have placed : Related errors (List.Forall₂ (Alike related)) (place rule slots p b)
                  (place rule' slots' p b') := by
                rw [place, place, same.id]
                exact releaseAll_alike rules (same.related ready.1) (alike_set alike p same.finish)
                  meetsFirst
              refine placed.bind_of_ok fun next next' step sameNext => ?_
              refine (ih sameNext (meetsLater next step)).bind fun rest rest' sameRest => ?_
              exact congrArg₂ List.cons same.id.symm sameRest

end Loops

end Naalp.Foundation
