import Naalp.Foundation.MerkleClimb
import Naalp.Native.MerkleProofs
import Naalp.Transparency.GoAgreement

/-! The Rust verifier of inclusion proofs climbs from the leaf to the root, the Python one descends
from the root to the leaf. For an index inside the tree both find the same root or none.
-/

namespace Naalp.Transparency

open Naalp.Foundation
open Naalp.Python.Gateway
open Naalp.Rust.EvidenceRecord (recomputeInclusionRoot shiftWhileEven)

theorem toNat_shift (x : UInt64) : (x >>> 1).toNat = x.toNat / 2 := by
  simp [UInt64.toNat_shiftRight, Nat.shiftRight_eq_div_pow]

theorem lowBit_zero_iff (x : UInt64) : x &&& 1 = 0 ↔ x.toNat % 2 = 0 := by
  rw [← UInt64.toNat_inj]
  simp [UInt64.toNat_and, Nat.and_one_is_mod]

theorem lowBit_one_iff (x : UInt64) : x &&& 1 = 1 ↔ x.toNat % 2 = 1 := by
  rw [← UInt64.toNat_inj]
  simp [UInt64.toNat_and, Nat.and_one_is_mod]

theorem ne_zero_iff (x : UInt64) : x ≠ 0 ↔ x.toNat ≠ 0 := by
  rw [ne_eq, ← UInt64.toNat_inj]
  rfl

/-- The shifting of unsigned words is that of the numbers, by the cases of the loop. -/
theorem shiftWhileEven_toNat (fn sn : UInt64)
    : ((shiftWhileEven fn sn).1.toNat, (shiftWhileEven fn sn).2.toNat)
      = skipLevels fn.toNat sn.toNat := by
  fun_induction shiftWhileEven fn sn with
  | case1 fn sn even ih =>
      rw [skipLevels_of_even ((lowBit_zero_iff fn).mp even.1) ((ne_zero_iff fn).mp even.2), ih,
        toNat_shift, toNat_shift]
  | case2 fn sn odd =>
      rw [lowBit_zero_iff, ne_zero_iff] at odd
      rw [skipLevels, dif_neg odd]

/-- The counters after an element of the path. -/
def advanced (fn sn : UInt64) : UInt64 × UInt64 :=
  let (fn, sn) := if (fn &&& 1 = 1 ∨ fn = sn) ∧ fn &&& 1 = 0 then shiftWhileEven fn sn else (fn, sn)
  (fn >>> 1, sn >>> 1)

theorem onRight_iff (fn sn : UInt64)
    : (fn &&& 1 = 1 ∨ fn = sn) ↔ OnRight fn.toNat sn.toNat := by
  rw [OnRight, lowBit_one_iff, UInt64.toNat_inj]

theorem advanced_toNat (fn sn : UInt64)
    : ((advanced fn sn).1.toNat, (advanced fn sn).2.toNat) = advance fn.toNat sn.toNat := by
  unfold advanced advance
  simp only [onRight_iff, lowBit_zero_iff]
  split
  · rw [← shiftWhileEven_toNat, toNat_shift, toNat_shift]
  · rw [toNat_shift, toNat_shift]

/-- One round of the loop: the new node, and both counters advanced. -/
theorem climb_round {r p : Bytes} {fn sn : UInt64} {path : List Bytes} (positive : sn ≠ 0)
    : Rust.EvidenceRecord.climb r fn sn (p :: path)
      = Rust.EvidenceRecord.climb
          (if OnRight fn.toNat sn.toNat then nodeHash p r else nodeHash r p)
          (advanced fn sn).1 (advanced fn sn).2 path := by
  rw [Rust.EvidenceRecord.climb, if_neg positive]
  unfold advanced
  simp only [← onRight_iff]
  by_cases right : fn &&& 1 = 1 ∨ fn = sn
  · simp only [right, if_true, true_and]
    rfl
  · simp only [right, if_false, false_and]
    rfl

/-- The loop of the Rust verifier is the climb of the tree, by induction on the path. -/
theorem climb_finds {r : Bytes} {fn sn : UInt64} {path : List Bytes}
    : Finds (Rust.EvidenceRecord.climb r fn sn path)
        (merkleTree.climb r fn.toNat sn.toNat path) := by
  induction path generalizing r fn sn with
  | nil =>
      intro root
      rw [Rust.EvidenceRecord.climb, TreeHash.climb]
      by_cases last : sn.toNat = 0
      · rw [if_neg (mt (ne_zero_iff sn).mp (not_not_intro last)), if_pos last]
        simp
      · rw [if_pos ((ne_zero_iff sn).mpr last), if_neg last]
        simp
  | cons p path ih =>
      by_cases last : sn.toNat = 0
      · intro root
        have zero := not_not.mp (mt (ne_zero_iff sn).mp (not_not_intro last))
        rw [Rust.EvidenceRecord.climb, if_pos zero, TreeHash.climb, if_pos last]
        simp
      · rw [climb_round ((ne_zero_iff sn).mpr last), TreeHash.climb_cons _ last, ← advanced_toNat]
        exact ih

/-- Inside the tree the Rust recomputation finds what the recursion of the tree finds. -/
theorem recomputeInclusionRoot_finds {leafH : Bytes} {index size : UInt64} {path : List Bytes}
    (inside : index < size)
    : Finds (recomputeInclusionRoot index size leafH path)
        (merkleTree.recompute leafH index.toNat size.toNat path.reverse) := by
  have below := UInt64.lt_iff_toNat_lt.mp inside
  have last : (size - 1).toNat = size.toNat - 1 := by
    rw [UInt64.toNat_sub_of_le]
    · rfl
    · exact UInt64.le_iff_toNat_le.mpr (Nat.one_le_of_lt below)
  have climbed := @climb_finds leafH index (size - 1) path
  rw [last, ← List.reverse_reverse path, TreeHash.climb_eq_recompute _ below,
    List.reverse_reverse] at climbed
  rwa [recomputeInclusionRoot, raiseIf_neg (UInt64.not_le.mpr inside)]

theorem recomputeInclusionRoot_outside {leafH : Bytes} {index size : UInt64} {path : List Bytes}
    (outside : size ≤ index)
    : recomputeInclusionRoot index size leafH path
      = .error Rust.EvidenceRecord.errInclusionProofInvalid := by
  rw [recomputeInclusionRoot, raiseIf_pos outside]
  rfl

/-- The Rust verifier accepts exactly what the Python one does. -/
theorem rustVerify_eq_ok {proof : Rust.EvidenceRecord.InclusionProof} {size : UInt64} {root : Bytes}
    : Rust.EvidenceRecord.verifyInclusionProof proof size root = .ok ()
      ↔ verifyInclusionProof proof.leaf proof.index.toNat size.toNat proof.path root = .ok () := by
  rw [verifyInclusionProof_eq_ok, ← UInt64.lt_iff_toNat_lt,
    Rust.EvidenceRecord.verifyInclusionProof, bind_eq_ok]
  simp only [raiseIf_eq_ok, not_not]
  by_cases outside : size ≤ proof.index
  · simp [recomputeInclusionRoot_outside outside, outside]
  · have inside := UInt64.not_le.mp outside
    rw [and_iff_right inside, ← recomputeInclusionRoot_finds inside root]
    constructor
    · intro verified
      obtain ⟨computed, recomputed, rfl⟩ := verified
      exact recomputed
    · intro recomputed
      exact ⟨root, recomputed, rfl⟩

/-- The generators give one path, which both verifiers accept. -/
theorem generators_agree {leaves : List Bytes} {i : UInt64} {size : UInt64}
    (whole : size.toNat = leaves.length) (inside : i.toNat < leaves.length)
    : ∃ path, generateInclusionProofPath leaves i.toNat = .ok path
      ∧ Rust.EvidenceRecord.generateInclusionProofPath leaves i.toNat = .ok path
      ∧ verifyInclusionProof leaves[i.toNat] i.toNat size.toNat path (merkleRoot leaves) = .ok ()
      ∧ Rust.EvidenceRecord.verifyInclusionProof ⟨merkleRoot leaves, leaves[i.toNat], i, path⟩ size
          (Rust.EvidenceRecord.merkleRoot leaves) = .ok () := by
  have here : ¬ ((i.toNat : Int) < 0 ∨ (leaves.length : Int) ≤ i.toNat) := by omega
  have verified := verify_generated inside
  rw [← whole] at verified
  refine ⟨_, generateInclusionProofPath_inside inside, ?_, verified, rustVerify_eq_ok.mpr verified⟩
  rw [Rust.EvidenceRecord.generateInclusionProofPath, raiseIf_neg here]
  rfl

/-- For an index inside the tree the recomputations fail on the same paths and otherwise find one
root. For an index outside, the Rust recomputation fails and the Python verifier refuses before it
recomputes. So both verifiers accept the same proofs, those of both generators among them.
-/
theorem rustVerifier_agrees
    : (∀ (leafH : Bytes) (path : List Bytes) (index size : UInt64), index < size
        → ∀ root, recomputeInclusionRoot index size leafH path = .ok root
          ↔ recomputeRoot leafH index.toNat size.toNat path = .ok root)
      ∧ (∀ (leaf : Bytes) (path : List Bytes) (index size : UInt64) (root : Bytes), size ≤ index
        → recomputeInclusionRoot index size (leafHash leaf) path
            = .error Rust.EvidenceRecord.errInclusionProofInvalid
          ∧ verifyInclusionProof leaf index.toNat size.toNat path root
            = .error (inclusionProofInvalid "index out of range for the claimed tree size"))
      ∧ (∀ (proof : Rust.EvidenceRecord.InclusionProof) (size : UInt64) (root : Bytes),
        Rust.EvidenceRecord.verifyInclusionProof proof size root = .ok ()
          ↔ verifyInclusionProof proof.leaf proof.index.toNat size.toNat proof.path root = .ok ())
      ∧ (∀ (leaves : List Bytes) (i size : UInt64) (_whole : size.toNat = leaves.length)
          (_inside : i.toNat < leaves.length),
        ∃ path, generateInclusionProofPath leaves i.toNat = .ok path
          ∧ Rust.EvidenceRecord.generateInclusionProofPath leaves i.toNat = .ok path
          ∧ verifyInclusionProof leaves[i.toNat] i.toNat size.toNat path (merkleRoot leaves)
            = .ok ()
          ∧ Rust.EvidenceRecord.verifyInclusionProof ⟨merkleRoot leaves, leaves[i.toNat], i, path⟩
              size (Rust.EvidenceRecord.merkleRoot leaves) = .ok ()) := by
  refine ⟨?_, ?_, fun _ _ _ => rustVerify_eq_ok, fun _ _ _ => generators_agree⟩
  · intro leafH path index size inside root
    rw [recomputeRoot, recomputeFromEnd_eq_ok (UInt64.lt_iff_toNat_lt.mp inside)]
    exact recomputeInclusionRoot_finds inside root
  · intro leaf path index size root outside
    refine ⟨recomputeInclusionRoot_outside outside, ?_⟩
    have past : (size.toNat : Int) ≤ index.toNat :=
      Int.ofNat_le.mpr (UInt64.le_iff_toNat_le.mp outside)
    rw [verifyInclusionProof, raiseIf_pos (.inr past)]
    rfl

/-- An index at the end of a tree of one leaf: the Rust recomputation fails, and the Python
recursion, which does not look at the index there, does not.
-/
theorem recomputations_differ_outside
    : ¬ ∀ (leafH : Bytes) (path : List Bytes) (index size : UInt64),
        (∃ error, recomputeInclusionRoot index size leafH path = .error error)
          ↔ ∃ error, recomputeRoot leafH index.toNat size.toNat path = .error error := by
  intro agree
  obtain ⟨error, failed⟩ := (agree [] [] 1 1).mp ⟨_, recomputeInclusionRoot_outside (by decide)⟩
  cases failed

/-- Witness: the first of two leaves. -/
theorem rustVerifier_agrees_two_leaves
    : ∀ root, recomputeInclusionRoot 0 2 (leafHash [1]) [leafHash [2]] = .ok root
        ↔ recomputeRoot (leafHash [1]) 0 2 [leafHash [2]] = .ok root :=
  rustVerifier_agrees.1 (leafHash [1]) [leafHash [2]] 0 2 (by decide)

end Naalp.Transparency
