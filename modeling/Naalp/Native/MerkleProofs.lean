import Naalp.Foundation.MerkleTree
import Naalp.Foundation.Sha2
import Naalp.Go.Cbor

/-! The verifier of inclusion proofs in `impl/go/gateway/checkpoint.go`. Its `int` has 64 bits, and
its products wrap. The doubling loop runs for a number of rounds at most, since it need not end.
-/

namespace Naalp.Go.Gateway

open Naalp.Foundation

def errInclusionProofInvalid : Stop :=
  .error .inclusionProofInvalid "inclusion audit path does not recompute to the named root"

def leafHash (leaf : Bytes) : Bytes := Sha2.sha384 (0x00 :: leaf)

def nodeHash (l r : Bytes) : Bytes := Sha2.sha384 (0x01 :: (l ++ r))

/-- The loop of `largestPowerOfTwoLessThan`; nothing when its rounds are used up. -/
def doubleWhileLess : (rounds : ℕ) → (n k : Int64) → Option Int64
  | 0, _, _ => none
  | rounds + 1, n, k => if 2 * k < n then doubleWhileLess rounds n (2 * k) else some k

def largestPowerOfTwoLessThan (rounds : ℕ) (n : Int64) : Option Int64 :=
  doubleWhileLess rounds n 1

/-- `errPathLengthMismatch`, which does not leave the package. -/
inductive PathError where
  | pathLengthMismatch

/-- `recomputeRoot`, on the path from its last entry on. -/
def recomputeFromEnd (rounds : ℕ) (leafH : Bytes)
    : (index size : Int64) → (reversed : List Bytes) → Option (Except PathError Bytes)
  | _, size, [] => if size = 1 then return .ok leafH else return .error .pathLengthMismatch
  | index, size, last :: rest => do
      if size = 1 then return .error .pathLengthMismatch
      let k ← largestPowerOfTwoLessThan rounds size
      if index < k then
        let left ← recomputeFromEnd rounds leafH index k rest
        return left.map fun left => nodeHash left last
      else
        let right ← recomputeFromEnd rounds leafH (index - k) (size - k) rest
        return right.map fun right => nodeHash last right

def recomputeRoot (rounds : ℕ) (leafH : Bytes) (index size : Int64) (path : List Bytes)
    : Option (Except PathError Bytes) :=
  recomputeFromEnd rounds leafH index size path.reverse

/-- `VerifyInclusionProof`: `int(index)` and `int(size)` keep the bits of the unsigned values. -/
def verifyInclusionProof (rounds : ℕ) (leaf : Bytes) (index size : UInt64) (path : List Bytes)
    (root : Bytes) : Option (Result Unit) :=
  if size = 0 ∨ size ≤ index then return .error errInclusionProofInvalid
  else do
    match ← recomputeRoot rounds (leafHash leaf) index.toInt64 size.toInt64 path with
    | .error .pathLengthMismatch => return .error errInclusionProofInvalid
    | .ok got => return raiseIf (got ≠ root) errInclusionProofInvalid

theorem recomputeFromEnd_cons {rounds : ℕ} {leafH last : Bytes} {index size k : Int64}
    {rest : List Bytes} (inner : size ≠ 1) (split : largestPowerOfTwoLessThan rounds size = some k)
    : recomputeFromEnd rounds leafH index size (last :: rest)
      = if index < k then (recomputeFromEnd rounds leafH index k rest).map
          (·.map fun left => nodeHash left last)
        else (recomputeFromEnd rounds leafH (index - k) (size - k) rest).map
          (·.map fun right => nodeHash last right) := by
  rw [recomputeFromEnd, if_neg inner, split, Option.map_eq_bind, Option.map_eq_bind]
  rfl

/-- More rounds change no result of the doubling, by induction on the rounds. -/
theorem doubleWhileLess_mono {rounds more : ℕ} {n k result : Int64} (le : rounds ≤ more)
    (returned : doubleWhileLess rounds n k = some result)
    : doubleWhileLess more n k = some result := by
  induction rounds generalizing more k with
  | zero => cases returned
  | succ rounds ih =>
      obtain ⟨more, rfl⟩ := Nat.exists_eq_add_of_le' (Nat.le_trans (Nat.le_add_left 1 rounds) le)
      rw [doubleWhileLess] at returned ⊢
      split
      · rename_i below
        rw [if_pos below] at returned
        exact ih (Nat.le_of_succ_le_succ le) returned
      · rename_i least
        rwa [if_neg least] at returned

/-- More rounds change no result of the recomputation, by induction on the path from its end.
-/
theorem recomputeFromEnd_mono {rounds more : ℕ} {leafH : Bytes} {index size : Int64}
    {reversed : List Bytes} {outcome : Except PathError Bytes} (le : rounds ≤ more)
    (returned : recomputeFromEnd rounds leafH index size reversed = some outcome)
    : recomputeFromEnd more leafH index size reversed = some outcome := by
  induction reversed generalizing index size outcome with
  | nil => exact returned
  | cons last rest ih =>
      rw [recomputeFromEnd] at returned ⊢
      by_cases single : size = 1
      · rwa [if_pos single] at returned ⊢
      · rw [if_neg single] at returned ⊢
        obtain ⟨k, split, returned⟩ := Option.bind_eq_some_iff.mp returned
        refine Option.bind_eq_some_iff.mpr ⟨k, doubleWhileLess_mono le split, ?_⟩
        by_cases below : index < k
        · rw [if_pos below] at returned ⊢
          obtain ⟨left, recomputed, same⟩ := Option.bind_eq_some_iff.mp returned
          exact Option.bind_eq_some_iff.mpr ⟨left, ih recomputed, same⟩
        · rw [if_neg below] at returned ⊢
          obtain ⟨right, recomputed, same⟩ := Option.bind_eq_some_iff.mp returned
          exact Option.bind_eq_some_iff.mpr ⟨right, ih recomputed, same⟩

/-- More rounds change no verdict. -/
theorem verifyInclusionProof_mono {rounds more : ℕ} {leaf root : Bytes} {index size : UInt64}
    {path : List Bytes} {outcome : Result Unit} (le : rounds ≤ more)
    (returned : verifyInclusionProof rounds leaf index size path root = some outcome)
    : verifyInclusionProof more leaf index size path root = some outcome := by
  unfold verifyInclusionProof at returned ⊢
  split
  · rename_i outside
    rwa [if_pos outside] at returned
  · rename_i inside
    rw [if_neg inside] at returned
    obtain ⟨got, recomputed, same⟩ := Option.bind_eq_some_iff.mp returned
    exact Option.bind_eq_some_iff.mpr ⟨got, recomputeFromEnd_mono le recomputed, same⟩

/-- A call returns the outcome if some number of rounds is enough for it. -/
def Returns (leaf : Bytes) (index size : UInt64) (path : List Bytes) (root : Bytes)
    (outcome : Result Unit) : Prop :=
  ∃ rounds, verifyInclusionProof rounds leaf index size path root = some outcome

/-- A call returns one outcome only, by running for the longer of the two times. -/
theorem Returns.unique {leaf root : Bytes} {index size : UInt64} {path : List Bytes}
    {outcome outcome' : Result Unit} (first : Returns leaf index size path root outcome)
    (second : Returns leaf index size path root outcome') : outcome = outcome' := by
  obtain ⟨rounds, first⟩ := first
  obtain ⟨rounds', second⟩ := second
  have left := verifyInclusionProof_mono (Nat.le_max_left rounds rounds') first
  have right := verifyInclusionProof_mono (Nat.le_max_right rounds rounds') second
  exact Option.some.inj (left.symm.trans right)

end Naalp.Go.Gateway

/-! The Merkle proofs of `impl/rust/src/evidence_record.rs`. Their verifier climbs from the leaf up
with two counters of type `u64`.
-/

namespace Naalp.Rust.EvidenceRecord

open Naalp.Foundation
open Naalp.Go (Stop Result)

def errInclusionProofInvalid : Stop :=
  .error .inclusionProofInvalid "inclusion-proof audit path does not recompute the named root"

/-- `leaf_hash` and `node_hash` prefix what they hash; the empty tree hashes no octet at all. -/
def merkleTree : TreeHash Bytes Bytes Bytes where
  hash := Sha2.sha384
  empty := []
  leaf leaf := 0x00 :: leaf
  node left right := 0x01 :: (left ++ right)

def leafHash (leaf : Bytes) : Bytes := merkleTree.leafHash leaf

def nodeHash (left right : Bytes) : Bytes := merkleTree.nodeHash left right

/-- `mth` and its alias. -/
def merkleRoot (leaves : List Bytes) : Bytes := merkleTree.root leaves

/-- `index` has the type `i64`. -/
def generateInclusionProofPath (leaves : List Bytes) (index : Int) : Result (List Bytes) := do
  raiseIf (index < 0 ∨ leaves.length ≤ index) errInclusionProofInvalid
  return merkleTree.auditPath leaves index.toNat

/-- The inner loop on `fn` and `sn`, which shifts while the first is even and not zero. -/
def shiftWhileEven (fn sn : UInt64) : UInt64 × UInt64 :=
  if _even : fn &&& 1 = 0 ∧ fn ≠ 0 then shiftWhileEven (fn >>> 1) (sn >>> 1) else (fn, sn)
termination_by fn.toNat
decreasing_by
  have positive : fn.toNat ≠ 0 := fun zero => _even.2 (UInt64.toNat_inj.mp zero)
  have halved : (fn >>> 1).toNat = fn.toNat / 2 := by
    simp [UInt64.toNat_shiftRight, Nat.shiftRight_eq_div_pow]
  omega

/-- The loop over the path. -/
def climb : (r : Bytes) → (fn sn : UInt64) → List Bytes → Result Bytes
  | r, _, sn, [] => if sn ≠ 0 then throw errInclusionProofInvalid else return r
  | r, fn, sn, p :: path =>
      if sn = 0 then throw errInclusionProofInvalid
      else if fn &&& 1 = 1 ∨ fn = sn then
        let (fn, sn) := if fn &&& 1 = 0 then shiftWhileEven fn sn else (fn, sn)
        climb (nodeHash p r) (fn >>> 1) (sn >>> 1) path
      else climb (nodeHash r p) (fn >>> 1) (sn >>> 1) path

def recomputeInclusionRoot (leafIndex treeSize : UInt64) (leafHashValue : Bytes)
    (path : List Bytes) : Result Bytes := do
  raiseIf (treeSize ≤ leafIndex) errInclusionProofInvalid
  climb leafHashValue leafIndex (treeSize - 1) path

structure InclusionProof where
  root : Bytes
  leaf : Bytes
  index : UInt64
  path : List Bytes

def verifyInclusionProof (proof : InclusionProof) (treeSize : UInt64) (root : Bytes)
    : Result Unit := do
  let computed ← recomputeInclusionRoot proof.index treeSize (leafHash proof.leaf) proof.path
  raiseIf (computed ≠ root) errInclusionProofInvalid

end Naalp.Rust.EvidenceRecord
