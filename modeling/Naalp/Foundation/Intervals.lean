import Mathlib.Algebra.Order.Ring.Int
import Mathlib.Data.List.Forall2
import Mathlib.Data.List.Nodup
import Mathlib.Data.List.Perm.Subperm

/-! Intervals of integers laid end to end, and boxes. Intervals in order of their starts are laid
end to end when they cover one interval that is as long as their lengths sum up to. A box is a list
of intervals, one for each axis.
-/

namespace Naalp.Foundation

/-- (Laid start extents) says that the intervals, given by start and length, follow one another
from `start` on.
-/
def Laid : Int → List (Int × Nat) → Prop
  | _, [] => True
  | start, extent :: rest => extent.1 = start ∧ Laid (start + extent.2) rest

/-- The sum of the lengths. -/
def extentSum (extents : List (Int × Nat)) : Nat := (extents.map Prod.snd).sum

/-- The integers from `start` on, as many as `length`. -/
def interval (start : Int) (length : Nat) : List Int :=
  (List.range length).map fun i : Nat => start + i

/-- The integers in the intervals, one interval after the other. -/
def covered (extents : List (Int × Nat)) : List Int :=
  extents.flatMap fun extent => interval extent.1 extent.2

variable {start : Int} {extents extents' : List (Int × Nat)}

theorem extentSum_cons (extent : Int × Nat) (rest : List (Int × Nat))
    : extentSum (extent :: rest) = extent.2 + extentSum rest := by
  simp [extentSum]

/-- An interval holds the integers from its start on, as many as its length. -/
theorem mem_interval {length : Nat} {p : Int}
    : p ∈ interval start length ↔ start ≤ p ∧ p < start + length := by
  simp only [interval, List.mem_map, List.mem_range]
  constructor
  · intro listed
    obtain ⟨i, bound, rfl⟩ := listed
    omega
  · intro inside
    exact ⟨(p - start).toNat, by omega, by omega⟩

theorem interval_nodup (start : Int) (length : Nat) : (interval start length).Nodup := by
  refine List.nodup_range.map ?_
  intro i j same
  simp only at same
  omega

theorem interval_add (start : Int) (length more : Nat)
    : interval start (length + more) = interval start length ++ interval (start + length) more := by
  simp [interval, List.range_add, Int.add_assoc, Function.comp_def]

theorem mem_covered {p : Int}
    : p ∈ covered extents ↔ ∃ extent ∈ extents, extent.1 ≤ p ∧ p < extent.1 + extent.2 := by
  simp [covered, mem_interval]

theorem length_covered (extents : List (Int × Nat))
    : (covered extents).length = extentSum extents := by
  simp [covered, extentSum, interval, List.length_flatMap]

/-- Intervals that cover one interval of the length of their sum cover each integer once. -/
theorem covered_perm
    (same : ∀ p, p ∈ covered extents ↔ start ≤ p ∧ p < start + extentSum extents)
    : (covered extents).Perm (interval start (extentSum extents)) := by
  have all : interval start (extentSum extents) ⊆ covered extents := by
    intro p inside
    exact (same p).mpr (mem_interval.mp inside)
  refine (((interval_nodup _ _).subperm all).perm_of_length_le ?_).symm
  simp [length_covered, interval]

/-- Intervals in order of their starts that cover one interval once are laid end to end, by
induction on the intervals: the first starts where the cover starts, and the others cover what is
left of it.
-/
theorem laid_of_covered_perm (sorted : extents.Pairwise fun a b => a.1 ≤ b.1)
    (positive : ∀ extent ∈ extents, 0 < extent.2)
    (perm : (covered extents).Perm (interval start (extentSum extents))) : Laid start extents := by
  induction extents generalizing start with
  | nil => trivial
  | cons extent rest ih =>
      obtain ⟨first, later⟩ := List.pairwise_cons.mp sorted
      obtain ⟨long, longer⟩ := List.forall_mem_cons.mp positive
      rw [extentSum_cons] at perm
      have starts : extent.1 = start := by
        have lower : extent.1 ∈ covered (extent :: rest) :=
          mem_covered.mpr ⟨extent, List.mem_cons_self, le_refl _, by omega⟩
        have least : start ∈ covered (extent :: rest) :=
          perm.mem_iff.mpr (mem_interval.mpr (by omega))
        have above := (mem_interval.mp (perm.mem_iff.mp lower)).1
        obtain ⟨other, member, below, -⟩ := mem_covered.mp least
        rcases List.mem_cons.mp member with rfl | member
        · omega
        · have order := first other member
          omega
      refine ⟨starts, ih later longer ?_⟩
      rw [interval_add, ← starts] at perm
      rw [← starts]
      exact (List.perm_append_left_iff _).mp perm

/-- Each interval ends before the later ones start. -/
theorem Laid.pairwise (laid : Laid start extents)
    : (∀ extent ∈ extents, start ≤ extent.1)
      ∧ extents.Pairwise fun a b : Int × Nat => a.1 + a.2 ≤ b.1 := by
  induction extents generalizing start with
  | nil => simp
  | cons extent rest ih =>
      obtain ⟨rfl, laid⟩ := laid
      obtain ⟨above, apart⟩ := ih laid
      refine ⟨List.forall_mem_cons.mpr ⟨le_refl _, ?_⟩, List.pairwise_cons.mpr ⟨above, apart⟩⟩
      intro other member
      have := above other member
      omega

/-- When no empty interval starts where a nonempty one does, intervals laid end to end have no other
order by their starts.
Witness: ordered by the start and then by the length, a permutation of the intervals has one
order only.
-/
theorem Laid.eq_of_perm (laid : Laid start extents) (perm : extents'.Perm extents)
    (sorted : extents'.Pairwise fun a b => a.1 ≤ b.1)
    (unmixed : ∀ a ∈ extents, ∀ b ∈ extents, a.1 = b.1 → a.2 = 0 → b.2 = 0)
    : extents' = extents := by
  have apart := laid.pairwise.2
  have ties : extents.Pairwise fun a b => a.1 = b.1 → a.2 = 0 ∧ b.2 = 0 := by
    refine apart.imp_of_mem ?_
    intro a b member member' ends same
    have empty : a.2 = 0 := by omega
    exact ⟨empty, unmixed a member b member' same empty⟩
  have ties' := (perm.pairwise_iff fun h same => (h same.symm).symm).mpr ties
  have ordered : extents.Pairwise fun a b => a.1 < b.1 ∨ a.1 = b.1 ∧ a.2 ≤ b.2 := by
    refine apart.imp ?_
    intro a b ends
    omega
  have ordered' : extents'.Pairwise fun a b => a.1 < b.1 ∨ a.1 = b.1 ∧ a.2 ≤ b.2 := by
    refine (sorted.and ties').imp ?_
    intro a b both
    obtain ⟨order, tie⟩ := both
    rcases lt_or_eq_of_le order with below | same
    · exact .inl below
    · exact .inr ⟨same, by rw [(tie same).1]; exact Nat.zero_le _⟩
  refine List.Perm.eq_of_pairwise ?_ ordered' ordered perm
  intro a b _ _ before after
  ext <;> omega

-----------------------------------------------------------------------------------------
-- Boxes
-----------------------------------------------------------------------------------------

section Boxes

variable {α : Type}

section Preorders

variable [Preorder α] {inner outer between : List (α × α)} {point : List α}

/-- The point has a coordinate in each axis. -/
def InBox (axes : List (α × α)) (point : List α) : Prop :=
  List.Forall₂ (fun axis x => axis.1 ≤ x ∧ x ≤ axis.2) axes point

/-- The boxes have the same axes, each inside the other's. -/
def Nested (inner outer : List (α × α)) : Prop :=
  List.Forall₂ (fun a b => b.1 ≤ a.1 ∧ a.2 ≤ b.2) inner outer

theorem Nested.refl (axes : List (α × α)) : Nested axes axes :=
  List.forall₂_same.mpr fun _ _ => ⟨le_refl _, le_refl _⟩

theorem Nested.trans (first : Nested inner between) (second : Nested between outer)
    : Nested inner outer := by
  induction first generalizing outer with
  | nil => exact second
  | cons axis rest ih =>
      cases second with
      | cons axis' rest' =>
          exact .cons ⟨axis'.1.trans axis.1, axis.2.trans axis'.2⟩ (ih rest')

theorem Nested.inBox (nested : Nested inner outer) (inside : InBox inner point)
    : InBox outer point := by
  induction nested generalizing point with
  | nil => exact inside
  | cons axis rest ih =>
      cases inside with
      | cons coordinate inside =>
          exact .cons ⟨axis.1.trans coordinate.1, coordinate.2.trans axis.2⟩ (ih inside)

/-- A box without inverted axes is nested in every box that has its least and its greatest corner.
-/
theorem nested_of_points (proper : ∀ axis ∈ inner, axis.1 ≤ axis.2)
    (inside : ∀ point, InBox inner point → InBox outer point) : Nested inner outer := by
  have least : InBox inner (inner.map Prod.fst) :=
    List.forall₂_map_right_iff.mpr
      (List.forall₂_same.mpr fun axis member => ⟨le_refl _, proper axis member⟩)
  have greatest : InBox inner (inner.map Prod.snd) :=
    List.forall₂_map_right_iff.mpr
      (List.forall₂_same.mpr fun axis member => ⟨proper axis member, le_refl _⟩)
  have lower := List.forall₂_map_right_iff.mp (inside _ least)
  have upper := List.forall₂_map_right_iff.mp (inside _ greatest)
  have both : List.Forall₂ (fun b a : α × α => b.1 ≤ a.1 ∧ a.2 ≤ b.2) outer inner := by
    rw [List.forall₂_iff_zip] at lower upper ⊢
    exact ⟨lower.1, fun member => ⟨(lower.2 member).1, (upper.2 member).2⟩⟩
  exact both.flip

end Preorders

theorem Nested.antisymm [PartialOrder α] {left right : List (α × α)} (nested : Nested left right)
    (nests : Nested right left) : left = right := by
  induction nested with
  | nil => rfl
  | cons axis rest ih =>
      cases nests with
      | cons axis' rest' =>
          rw [ih rest', Prod.ext (le_antisymm axis'.1 axis.1) (le_antisymm axis.2 axis'.2)]

end Boxes

end Naalp.Foundation
