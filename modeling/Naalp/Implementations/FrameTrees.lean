import Naalp.Go.WorkflowGate
import Naalp.Python.Channels

/-! The check of coordinate frames refuses exactly the parent links that lead some frame back to
itself, in whatever order it goes over the frames.
-/

namespace Naalp.Implementations

open Naalp.Foundation
open Naalp.Python (PyStr)
open Naalp.Python.Channels (parentLinks frameCycle transformCycle)
open Naalp.Go.Channels (errTransformCycle)

section Frames

variable {χ : Type} [DecidableEq χ] {parent : AList fun _ : List χ => List χ} {f p : List χ}

/-- (LinksTo parent f p) says that the frame `f` has the parent `p`, which is a name. -/
def LinksTo (parent : AList fun _ : List χ => List χ) (f p : List χ) : Prop :=
  parent.lookup f = some p ∧ p ≠ []

/-- The parent links lead some frame back to itself. -/
def LinksBack (parent : AList fun _ : List χ => List χ) : Prop :=
  ∃ f, Relation.TransGen (LinksTo parent) f f

/-- The edges of the links are those from a frame to its parent. -/
theorem edge_parentLinks : Edge (parentLinks parent) f p ↔ LinksTo parent f p := by
  unfold Edge LinksTo parentLinks
  cases found : parent.lookup f with
  | none => simp
  | some p' =>
      by_cases root : p' = []
      · subst root
        simp only [ne_eq, not_true_eq_false, if_false, List.not_mem_nil, false_iff,
          Option.some.injEq]
        intro both
        exact both.2 both.1.symm
      · simp only [ne_eq, root, not_false_eq_true, if_true, List.mem_singleton, Option.some.injEq]
        constructor
        · intro same
          exact ⟨same.symm, same ▸ root⟩
        · intro both
          exact both.1.symm

theorem edge_eq_linksTo : Edge (parentLinks parent) = LinksTo parent :=
  funext fun _ => funext fun _ => propext edge_parentLinks

/-- A frame on a cycle has a parent, so it is among the frames. -/
theorem mem_keys_of_linksBack (back : Relation.TransGen (LinksTo parent) f f)
    : f ∈ parent.keys := by
  obtain ⟨p, link, -⟩ := Relation.TransGen.head'_iff.mp back
  have found := Option.isSome_of_mem link.1
  exact AList.lookup_isSome.mp found

/-- Every order of the frames comes to the same verdict. -/
theorem frameCycle_iff {order : List (List χ)} (listed : order.Perm parent.keys)
    : frameCycle order (fun _ member => listed.mem_iff.mp member) ↔ LinksBack parent := by
  have ran : findCycle (parentLinks parent) (2 * parent.keys.length) order (fun _ => .white)
      = some (frameCycle order fun _ member => listed.mem_iff.mp member) :=
    (Option.some_get _).symm
  have settled : Settled (parentLinks parent) fun _ => .white := ⟨nofun, nofun⟩
  have sound := findCycle_sound ran settled nofun
  cases verdict : frameCycle order (fun _ member => listed.mem_iff.mp member) with
  | true =>
      rw [verdict, if_pos rfl] at sound
      rw [Cyclic, edge_eq_linksTo] at sound
      exact iff_of_true rfl sound
  | false =>
      rw [verdict, if_neg Bool.false_ne_true] at sound
      refine iff_of_false Bool.false_ne_true ?_
      intro cycle
      obtain ⟨f, back⟩ := cycle
      have member := listed.mem_iff.mpr (mem_keys_of_linksBack back)
      rw [edge_eq_linksTo] at sound
      exact sound f member back

end Frames

/-- A check of a parent map accepts it, or raises the error for cycles when the links lead back. -/
structure ChecksFrames {χ ε : Type} [DecidableEq χ] (parent : AList fun _ : List χ => List χ)
    (cycle : ε) (check : Except ε Unit) : Prop where
  accepts : check = .ok () ↔ ¬ LinksBack parent
  refuses : check = .error cycle ↔ LinksBack parent

theorem checksFrames_of_order {χ ε : Type} [DecidableEq χ] {parent : AList fun _ : List χ => List χ}
    {cycle : ε} {order : List (List χ)} (listed : order.Perm parent.keys)
    : ChecksFrames parent cycle
        (raiseIf (frameCycle order fun _ member => listed.mem_iff.mp member) cycle) := by
  have verdict := frameCycle_iff listed
  constructor
  · rw [raiseIf_eq_ok, verdict]
  · rw [← verdict]
    cases frameCycle order (fun _ member => listed.mem_iff.mp member) <;> simp [raiseIf]

/-- Python's check, whose dictionary may hold the frames in any order, and Go's, whose map gives
them in any order.
-/
theorem frame_trees_checked
    : (∀ parent : AList fun _ : PyStr => PyStr,
        ChecksFrames parent transformCycle (Python.Channels.checkFrameTree parent))
      ∧ ∀ (parent : AList fun _ : Bytes => Bytes) (order : List Bytes)
          (listed : order.Perm parent.keys),
        ChecksFrames parent errTransformCycle
          (Go.Channels.checkFrameTree parent order fun _ member => listed.mem_iff.mp member) := by
  constructor
  · intro parent
    exact checksFrames_of_order (List.Perm.refl _)
  · intro parent order listed
    exact checksFrames_of_order listed

/-- Two frames with the same parent, which is its own parent. -/
def sampleFrames : AList fun _ : Bytes => Bytes :=
  AList.insert [1] [3] (AList.insert [2] [3] (AList.singleton [3] [3]))

theorem sampleFrames_listed : [[3], [2], [1]].Perm sampleFrames.keys := by
  decide

/-- The theorem on them, from the other end. -/
theorem frame_trees_checked_sample
    : ChecksFrames sampleFrames errTransformCycle
        (Go.Channels.checkFrameTree sampleFrames [[3], [2], [1]]
          fun _ member => sampleFrames_listed.mem_iff.mp member) :=
  frame_trees_checked.2 _ _ sampleFrames_listed

end Naalp.Implementations
