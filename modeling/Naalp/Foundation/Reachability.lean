import Mathlib.Algebra.BigOperators.Group.List.Basic
import Mathlib.Algebra.GroupWithZero.Nat
import Mathlib.Logic.Relation

/-! A search for a vertex along the edges of a graph, with a stack and the vertices that were seen.
Only known vertices have successors; the search ends when they are finitely many.
-/

namespace Naalp.Foundation

section Search

variable {κ : Type} [DecidableEq κ] (next : κ → Option (List κ)) (target : κ)

/-- The loop, with the top of the stack in front; it has no outcome when the fuel is used up. -/
def searchStack : (fuel : ℕ) → (seen stack : List κ) → Option Bool
  | 0, _, _ => none
  | _ + 1, _, [] => some false
  | fuel + 1, seen, c :: rest =>
      if c = target then some true
      else if c ∈ seen then searchStack fuel seen rest
      else
        match next c with
        | none => searchStack fuel (c :: seen) rest
        | some successors => searchStack fuel (c :: seen) (successors.reverse ++ rest)

/-- The vertices that a vertex has pushed. -/
def pushed (c : κ) : List κ := (next c).getD []

/-- What is left to be popped: the stack, and what the known vertices that were not seen will push.
-/
def pending (known seen stack : List κ) : ℕ :=
  stack.length + ((known.filter (· ∉ seen)).map fun c => (pushed next c).length).sum

/-- The search from a stack of vertices, with fuel for all that the known vertices push. -/
def reaches (known start : List κ) : Bool :=
  (searchStack next target (pending next known [] start.reverse + 1) [] start.reverse).getD false

/-- An edge leads from a known vertex to each of its successors. -/
def Leads (c d : κ) : Prop := d ∈ pushed next c

variable {next target} {known seen stack start : List κ} {c : κ} {fuel : ℕ}

/-- The branches on whether the vertex is known, as one. -/
theorem searchStack_cons
    : searchStack next target (fuel + 1) seen (c :: stack)
      = if c = target then some true
        else if c ∈ seen then searchStack next target fuel seen stack
        else searchStack next target fuel (c :: seen) ((pushed next c).reverse ++ stack) := by
  rw [searchStack, pushed]
  cases next c with
  | none => rfl
  | some successors => rfl

-----------------------------------------------------------------------------------------
-- The search ends
-----------------------------------------------------------------------------------------

/-- A vertex that is seen from now on takes its weight off the sum over those that were not seen. -/
theorem unseen_sum (weight : κ → ℕ) (fresh : c ∉ seen)
    : (if c ∈ known then weight c else 0) + ((known.filter (· ∉ c :: seen)).map weight).sum
      ≤ ((known.filter (· ∉ seen)).map weight).sum := by
  induction known with
  | nil => simp
  | cons d rest ih =>
      by_cases same : d = c
      · subst same
        have dropped : (d :: rest).filter (· ∉ d :: seen) = rest.filter (· ∉ d :: seen) := by simp
        have kept : (d :: rest).filter (· ∉ seen) = d :: rest.filter (· ∉ seen) := by simp [fresh]
        rw [dropped, kept, if_pos List.mem_cons_self, List.map_cons, List.sum_cons]
        omega
      · have member : c ∈ d :: rest ↔ c ∈ rest := by simp [Ne.symm same]
        by_cases old : d ∈ seen
        · simpa [member, same, old] using ih
        · simp only [member, List.mem_cons, same, old, or_self, not_false_eq_true, decide_true,
            List.filter_cons_of_pos, List.map_cons, List.sum_cons] at ih ⊢
          omega

/-- A vertex that is seen for the first time pushes no more than it takes off what is left. -/
theorem pending_push (complete : ∀ c, next c ≠ none → c ∈ known) (fresh : c ∉ seen)
    : pending next known (c :: seen) ((pushed next c).reverse ++ stack)
      < pending next known seen (c :: stack) := by
  have counted := @unseen_sum _ _ known seen c (fun c => (pushed next c).length) fresh
  have weight : (if c ∈ known then (pushed next c).length else 0) = (pushed next c).length := by
    split_ifs with member
    · rfl
    · have unknown : next c = none := by
        by_contra resolved
        exact member (complete c resolved)
      simp [pushed, unknown]
  rw [weight] at counted
  simp only [pending, List.length_append, List.length_reverse, List.length_cons]
  omega

/-- The search ends with enough fuel.
Witness: induction on the fuel; each round takes a node off what is pending.
-/
theorem searchStack_isSome (complete : ∀ c, next c ≠ none → c ∈ known)
    (enough : pending next known seen stack < fuel)
    : (searchStack next target fuel seen stack).isSome := by
  induction fuel generalizing seen stack with
  | zero => omega
  | succ fuel ih =>
      cases stack with
      | nil => rfl
      | cons c rest =>
          rw [searchStack_cons]
          split_ifs with found known_seen
          · rfl
          · refine ih ?_
            simp only [pending, List.length_cons] at enough ⊢
            omega
          · have less := @pending_push _ _ next known seen rest c complete known_seen
            exact ih (by omega)

-----------------------------------------------------------------------------------------
-- What the search finds
-----------------------------------------------------------------------------------------

/-- What is found is reached from the stack, by induction over the rounds. -/
theorem searchStack_sound (found : searchStack next target fuel seen stack = some true)
    : ∃ c ∈ stack, Relation.ReflTransGen (Leads next) c target := by
  induction fuel generalizing seen stack with
  | zero => cases found
  | succ fuel ih =>
      cases stack with
      | nil => cases found
      | cons c rest =>
          rw [searchStack_cons] at found
          split_ifs at found with here old
          · exact ⟨c, List.mem_cons_self, here ▸ .refl⟩
          · obtain ⟨d, member, path⟩ := ih found
            exact ⟨d, List.mem_cons_of_mem _ member, path⟩
          · obtain ⟨d, member, path⟩ := ih found
            rcases List.mem_append.mp member with fresh | later
            · exact ⟨c, List.mem_cons_self, .head (List.mem_reverse.mp fresh) path⟩
            · exact ⟨d, List.mem_cons_of_mem _ later, path⟩

/-- The vertices seen are not the target, and their successors were seen or are on the stack. -/
structure Explored (next : κ → Option (List κ)) (target : κ) (seen stack : List κ) : Prop where
  missed : target ∉ seen
  closed : ∀ c ∈ seen, ∀ d ∈ pushed next c, d ∈ seen ∨ d ∈ stack

omit [DecidableEq κ] in
theorem Explored.skip (explored : Explored next target seen (c :: stack)) (old : c ∈ seen)
    : Explored next target seen stack := by
  refine ⟨explored.missed, fun a member d leads => ?_⟩
  rcases explored.closed a member d leads with before | waiting
  · exact .inl before
  · rcases List.mem_cons.mp waiting with rfl | waiting
    · exact .inl old
    · exact .inr waiting

omit [DecidableEq κ] in
/-- Going on from a node keeps what is explored: its successors are on the stack. -/
theorem Explored.push (explored : Explored next target seen (c :: stack)) (other : c ≠ target)
    : Explored next target (c :: seen) ((pushed next c).reverse ++ stack) := by
  refine ⟨?_, fun a member d leads => ?_⟩
  · simpa [Ne.symm other] using explored.missed
  · rcases List.mem_cons.mp member with rfl | member
    · exact .inr (List.mem_append_left _ (List.mem_reverse.mpr leads))
    · rcases explored.closed a member d leads with before | waiting
      · exact .inl (List.mem_cons_of_mem _ before)
      · rcases List.mem_cons.mp waiting with rfl | waiting
        · exact .inl List.mem_cons_self
        · exact .inr (List.mem_append_right _ waiting)

/-- A search that ends without finding the target has seen all that its stack leads to. -/
theorem searchStack_complete (explored : Explored next target seen stack)
    (missed : searchStack next target fuel seen stack = some false)
    : ∃ all, Explored next target all [] ∧ seen ⊆ all ∧ stack ⊆ all := by
  induction fuel generalizing seen stack with
  | zero => cases missed
  | succ fuel ih =>
      cases stack with
      | nil => exact ⟨seen, explored, List.Subset.refl _, List.nil_subset _⟩
      | cons c rest =>
          rw [searchStack_cons] at missed
          by_cases here : c = target
          · simp [here] at missed
          · rw [if_neg here] at missed
            by_cases old : c ∈ seen
            · rw [if_pos old] at missed
              obtain ⟨all, closed, seen_all, rest_all⟩ := ih (explored.skip old) missed
              exact ⟨all, closed, seen_all, List.cons_subset.mpr ⟨seen_all old, rest_all⟩⟩
            · rw [if_neg old] at missed
              obtain ⟨all, closed, seen_all, pushed_all⟩ := ih (explored.push here) missed
              obtain ⟨first, seen_all⟩ := List.cons_subset.mp seen_all
              exact ⟨all, closed, seen_all,
                List.cons_subset.mpr ⟨first, (List.append_subset.mp pushed_all).2⟩⟩

omit [DecidableEq κ] in
theorem Explored.not_reached (explored : Explored next target seen []) (member : c ∈ seen)
    : ¬ Relation.ReflTransGen (Leads next) c target := by
  intro path
  induction path using Relation.ReflTransGen.head_induction_on with
  | refl => exact explored.missed member
  | head leads _ ih =>
      exact ih ((explored.closed _ member _ leads).resolve_right (List.not_mem_nil))

/-- The search answers whether the target is reached from a vertex that it starts with. -/
theorem reaches_iff (complete : ∀ c, next c ≠ none → c ∈ known)
    : reaches next target known start = true
      ↔ ∃ c ∈ start, Relation.ReflTransGen (Leads next) c target := by
  have ends := @searchStack_isSome _ _ next target known [] start.reverse _ complete
    (Nat.lt_succ_self _)
  obtain ⟨answer, answered⟩ := Option.isSome_iff_exists.mp ends
  rw [reaches, answered, Option.getD_some]
  cases answer with
  | true =>
      obtain ⟨c, member, path⟩ := searchStack_sound answered
      exact iff_of_true rfl ⟨c, List.mem_reverse.mp member, path⟩
  | false =>
      refine iff_of_false Bool.false_ne_true ?_
      rintro ⟨c, member, path⟩
      obtain ⟨all, explored, -, start_all⟩ :=
        searchStack_complete ⟨List.not_mem_nil, nofun⟩ answered
      exact explored.not_reached (start_all (List.mem_reverse.mpr member)) path

end Search

end Naalp.Foundation
