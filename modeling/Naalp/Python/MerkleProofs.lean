import Naalp.Foundation.MerkleTree
import Naalp.Foundation.Sha2
import Naalp.Python.Exceptions

/-! The Merkle trees of `impl/python/naalp/gateway.py`: roots, inclusion paths and the verifier of
inclusion proofs.
-/

namespace Naalp.Python.Gateway

open Naalp.Foundation

/-- `_leaf_hash` and `_node_hash` prefix what they hash; the empty tree hashes no octet at all. -/
def merkleTree : TreeHash Bytes Bytes Bytes where
  hash := Sha2.sha384
  empty := []
  leaf leaf := 0x00 :: leaf
  node l r := 0x01 :: (l ++ r)

def leafHash (leaf : Bytes) : Bytes := merkleTree.leafHash leaf

def nodeHash (l r : Bytes) : Bytes := merkleTree.nodeHash l r

def merkleRoot (leaves : List Bytes) : Bytes := merkleTree.root leaves

def inclusionProofInvalid (msg : String) : Exc := .gatewayError .inclusionProofInvalid msg

def generateInclusionProofPath (leaves : List Bytes) (index : Int) : Py (List Bytes) := do
  raiseIf (index < 0 ∨ leaves.length ≤ index) (inclusionProofInvalid "leaf index out of range")
  return merkleTree.auditPath leaves index.toNat

/-- The loop of `_largest_power_of_two_less_than`. -/
def doubleWhileLess (n k : Int) (positive : 0 < k) : Int :=
  if 2 * k < n then doubleWhileLess n (2 * k) (by omega) else k
termination_by (n - k).toNat

def largestPowerOfTwoLessThan (n : Int) : Int := doubleWhileLess n 1 Int.one_pos

/-- `_PathLengthMismatch`, which does not leave the module. -/
inductive PathLengthMismatch where
  | pathLengthMismatch

/-- `_recompute_root`, on the path from its last entry on. -/
def recomputeFromEnd (leafH : Bytes)
    : (index size : Int) → (reversed : List Bytes) → Except PathLengthMismatch Bytes
  | _, size, [] => if size = 1 then return leafH else throw .pathLengthMismatch
  | index, size, last :: rest => do
      if size = 1 then throw .pathLengthMismatch
      let k := largestPowerOfTwoLessThan size
      if index < k then
        let left ← recomputeFromEnd leafH index k rest
        return nodeHash left last
      else
        let right ← recomputeFromEnd leafH (index - k) (size - k) rest
        return nodeHash last right

def recomputeRoot (leafH : Bytes) (index size : Int) (path : List Bytes)
    : Except PathLengthMismatch Bytes :=
  recomputeFromEnd leafH index size path.reverse

def verifyInclusionProof (leaf : Bytes) (index size : Int) (path : List Bytes) (root : Bytes)
    : Py Unit := do
  raiseIf (size = 0 ∨ size ≤ index)
    (inclusionProofInvalid "index out of range for the claimed tree size")
  match recomputeRoot (leafHash leaf) index size path with
  | .error .pathLengthMismatch =>
      throw (inclusionProofInvalid "inclusion path length does not match the claimed tree size")
  | .ok got =>
      raiseIf (got ≠ root)
        (inclusionProofInvalid "inclusion audit path does not recompute to the named root")

theorem doubleWhileLess_cast {n k : ℕ} (positive : 0 < k) (positive' : (0 : Int) < k)
    : doubleWhileLess n k positive' = doubleWhileBelow n k positive := by
  fun_induction doubleWhileBelow n k positive with
  | case1 k positive more ih =>
      rw [doubleWhileLess, if_pos (by omega)]
      exact ih (by omega)
  | case2 k positive least => rw [doubleWhileLess, if_neg (by omega)]

theorem largestPowerOfTwoLessThan_cast (n : ℕ)
    : largestPowerOfTwoLessThan n = splitPoint n :=
  @doubleWhileLess_cast n 1 Nat.one_pos Int.one_pos

/-- For an index inside the tree the recomputation is the one of the tree; by induction on the
reversed path.
-/
theorem recomputeFromEnd_eq_ok {leafH r : Bytes} {i n : ℕ} {reversed : List Bytes} (inside : i < n)
    : recomputeFromEnd leafH i n reversed = .ok r
      ↔ merkleTree.recompute leafH i n reversed = some r := by
  induction reversed generalizing i n r with
  | nil =>
      rw [recomputeFromEnd, TreeHash.recompute]
      by_cases single : n = 1
      · simp [single]
      · rw [if_neg (by omega), if_neg single]
        simp
  | cons last rest ih =>
      rw [recomputeFromEnd, TreeHash.recompute]
      by_cases single : n = 1
      · simp [single]
      · have below := splitPoint_lt (show 1 < n by omega)
        rw [if_neg (by omega), if_neg single, largestPowerOfTwoLessThan_cast]
        by_cases left : i < splitPoint n
        · simp only [Nat.cast_lt, left, if_true, bind_eq_ok, ih left, Option.map_eq_some_iff,
            pure_eq_ok, Except.ok.injEq]
          rfl
        · have shifted : (i : Int) - splitPoint n = (i - splitPoint n : ℕ) := by omega
          have remaining : (n : Int) - splitPoint n = (n - splitPoint n : ℕ) := by omega
          have later : i - splitPoint n < n - splitPoint n := by omega
          simp only [Nat.cast_lt, left, if_false, shifted, remaining, bind_eq_ok, ih later,
            Option.map_eq_some_iff, pure_eq_ok, Except.ok.injEq]
          rfl

/-- A proof is accepted exactly when its index is inside the tree and its path leads to the root. -/
theorem verifyInclusionProof_eq_ok {leaf root : Bytes} {i n : ℕ} {path : List Bytes}
    : verifyInclusionProof leaf i n path root = .ok ()
      ↔ i < n ∧ merkleTree.recompute (leafHash leaf) i n path.reverse = some root := by
  rw [verifyInclusionProof, raiseIf_bind_eq_ok]
  by_cases inside : i < n
  · rw [← recomputeFromEnd_eq_ok inside, ← recomputeRoot]
    have nonempty : n ≠ 0 := by omega
    cases recomputeRoot (leafHash leaf) i n path with
    | ok got => simp [nonempty, inside, raiseIf_eq_ok]
    | error mismatch => simp
  · simp [inside]

end Naalp.Python.Gateway
