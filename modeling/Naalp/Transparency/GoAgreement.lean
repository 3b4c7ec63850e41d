import Naalp.Native.MerkleProofs
import Naalp.Python.MerkleProofs

/-! Inclusion proofs are complete and bind a leaf to its position, and a root binds its leaves;
unless two of the octet strings that were hashed have one digest.
-/

namespace Naalp.Transparency

open Naalp.Foundation
open Naalp.Foundation.Sha2 (DigestsCollide)
open Naalp.Python.Gateway

/-- A digest has 48 octets, so in a hashed pair the other child has the octets that are left. -/
theorem merkleTree_separated : merkleTree.Separated fun digest => digest.length = 48 where
  hash message := Sha2.length_sha384 message
  leaf x y same := (List.cons.inj same).2
  left l r l' r' first second same :=
    List.append_inj (List.cons.inj same).2 (first.trans second.symm)
  right l r l' r' first second same :=
    List.append_inj' (List.cons.inj same).2 (first.trans second.symm)
  emptyLeaf x same := List.cons_ne_nil _ _ same.symm
  emptyNode l r same := List.cons_ne_nil _ _ same.symm
  leafNode x l r same := by
    have prefixes : (0x00 : UInt8) = 0x01 := (List.cons.inj same).1
    revert prefixes
    decide

/-- What the verifier hashes for a leaf and a path. -/
def verifierInputs (leaf : Bytes) (index size : ℕ) (path : List Bytes) : List Bytes :=
  merkleTree.leaf leaf :: merkleTree.recomputeInputs (leafHash leaf) index size path.reverse

/-- What `merkle_root` hashes. -/
def rootInputs (leaves : List Bytes) : List Bytes := merkleTree.rootInputs leaves

/-- Generation succeeds for every index of the list. -/
theorem generateInclusionProofPath_inside {leaves : List Bytes} {i : ℕ}
    (inside : i < leaves.length)
    : generateInclusionProofPath leaves i = .ok (merkleTree.auditPath leaves i) := by
  have here : ¬ ((i : Int) < 0 ∨ (leaves.length : Int) ≤ i) := by omega
  rw [generateInclusionProofPath, raiseIf_neg here]
  rfl

theorem verify_generated {leaves : List Bytes} {i : ℕ} (inside : i < leaves.length)
    : verifyInclusionProof leaves[i] i leaves.length (merkleTree.auditPath leaves i)
        (merkleRoot leaves) = .ok () :=
  verifyInclusionProof_eq_ok.mpr ⟨inside, merkleTree.recompute_auditPath inside⟩

/-- An accepted proof is about the leaf at its index, whatever its path is made of. -/
theorem verified_leaf {leaves path : List Bytes} {leaf : Bytes} {i : ℕ}
    (verified : verifyInclusionProof leaf i leaves.length path (merkleRoot leaves) = .ok ())
    : i < leaves.length
      ∧ (leaves[i]? = some leaf
        ∨ DigestsCollide (verifierInputs leaf i leaves.length path ++ rootInputs leaves)) := by
  obtain ⟨inside, recomputed⟩ := verifyInclusionProof_eq_ok.mp verified
  exact ⟨inside, merkleTree_separated.binds inside recomputed⟩

/-- Every leaf of a list has a path that verifies, an accepted proof is about the leaf at its
index, and equal roots have equal leaves. The index is a natural number, as in the format of a
proof.
-/
theorem inclusionProofs_bind
    : (∀ (leaves : List Bytes) (i : ℕ) (inside : i < leaves.length),
        ∃ path, generateInclusionProofPath leaves i = .ok path
          ∧ verifyInclusionProof leaves[i] i leaves.length path (merkleRoot leaves) = .ok ())
      ∧ (∀ (leaves : List Bytes) (leaf : Bytes) (i : ℕ) (path : List Bytes),
        verifyInclusionProof leaf i leaves.length path (merkleRoot leaves) = .ok ()
          → i < leaves.length
            ∧ (leaves[i]? = some leaf
              ∨ DigestsCollide (verifierInputs leaf i leaves.length path ++ rootInputs leaves)))
      ∧ (∀ xs ys : List Bytes,
        merkleRoot xs = merkleRoot ys
          → xs = ys ∨ DigestsCollide (rootInputs xs ++ rootInputs ys)) := by
  refine ⟨?_, ?_, ?_⟩
  · intro leaves i inside
    exact ⟨_, generateInclusionProofPath_inside inside, verify_generated inside⟩
  · intro leaves leaf i path verified
    exact verified_leaf verified
  · intro xs ys same
    exact merkleTree_separated.root_injective same

/-- Witness: the path of the second of three leaves. -/
theorem inclusionProofs_bind_second_leaf
    : ∃ path, verifyInclusionProof [2] 1 3 path (merkleRoot [[1], [2], [3]]) = .ok ()
        ∧ (([[1], [2], [3]] : List Bytes)[1]? = some [2]
          ∨ DigestsCollide (verifierInputs [2] 1 3 path ++ rootInputs [[1], [2], [3]])) := by
  obtain ⟨path, -, verified⟩ := inclusionProofs_bind.1 [[1], [2], [3]] 1 (by decide)
  exact ⟨path, verified, (inclusionProofs_bind.2.1 _ _ _ _ verified).2⟩

end Naalp.Transparency

/-! The Go verifier of inclusion proofs against the Python one. They agree for trees of at most
2^62 leaves; above, the doubling loop of the Go verifier goes on for ever or starts from a negative
size.
-/

namespace Naalp.Transparency

open Naalp.Foundation
open Naalp.Go.Gateway (Returns)
open Naalp.Python.Gateway

-----------------------------------------------------------------------------------------
-- Machine integers
-----------------------------------------------------------------------------------------

/-- (Holds x n) says that the machine integer `x` is `n`. -/
def Holds (x : Int64) (n : ℕ) : Prop := x.toInt = n

theorem toInt_toInt64 (x : UInt64) : x.toInt64.toInt = (x.toNat : Int).bmod (2 ^ 64) :=
  BitVec.toInt_eq_toNat_bmod x.toBitVec

theorem holds_toInt64 {x : UInt64} (small : x.toNat < 2 ^ 63) : Holds x.toInt64 x.toNat := by
  rw [Holds, toInt_toInt64]
  exact Int.bmod_eq_of_le (by omega) (by omega)

theorem Holds.eq_iff {x y : Int64} {m n : ℕ} (left : Holds x m) (right : Holds y n)
    : x = y ↔ m = n := by
  rw [← Int64.toInt_inj, left, right, Nat.cast_inj]

theorem Holds.lt_iff {x y : Int64} {m n : ℕ} (left : Holds x m) (right : Holds y n)
    : x < y ↔ m < n := by
  rw [Int64.lt_iff_toInt_lt, left, right, Nat.cast_lt]

theorem toInt_double {k : Int64} (low : -2 ^ 62 ≤ k.toInt) (high : k.toInt < 2 ^ 62)
    : (2 * k).toInt = 2 * k.toInt := by
  rw [Int64.toInt_mul]
  exact Int.bmod_eq_of_le (show _ ≤ 2 * k.toInt by omega) (show 2 * k.toInt < _ by omega)

theorem Holds.double {k : Int64} {n : ℕ} (held : Holds k n) (small : n < 2 ^ 62)
    : Holds (2 * k) (2 * n) := by
  have value : k.toInt = n := held
  rw [Holds, toInt_double (by omega) (by omega), value, Nat.cast_mul, Nat.cast_ofNat]

theorem Holds.sub {x y : Int64} {m n : ℕ} (left : Holds x m) (right : Holds y n) (le : n ≤ m)
    (small : m < 2 ^ 63) : Holds (x - y) (m - n) := by
  have value : x.toInt = m := left
  have value' : y.toInt = n := right
  rw [Holds, Int64.toInt_sub, value, value', Int.bmod_eq_of_le (by omega) (by omega)]
  omega

-----------------------------------------------------------------------------------------
-- Sizes up to 2^62
-----------------------------------------------------------------------------------------

/-- Up to 2^62 the loop ends with the power that the unbounded loop finds. -/
theorem doubleWhileLess_holds {rounds n e : ℕ} {size k : Int64} (held : Holds size n)
    (small : n ≤ 2 ^ 62) (power : Holds k (2 ^ e)) (below : 2 ^ e < n) (enough : 62 ≤ e + rounds)
    : ∃ k', Go.Gateway.doubleWhileLess (rounds + 1) size k = some k'
      ∧ Holds k' (doubleWhileBelow n (2 ^ e) (Nat.two_pow_pos e)) := by
  induction rounds generalizing e k with
  | zero =>
      have large : 2 ^ 62 ≤ 2 ^ e := Nat.pow_le_pow_right Nat.two_pos enough
      omega
  | succ rounds ih =>
      have doubled := power.double (by omega)
      rw [Go.Gateway.doubleWhileLess, doubleWhileBelow]
      by_cases more : 2 * 2 ^ e < n
      · rw [if_pos ((doubled.lt_iff held).mpr more), if_pos more]
        simp only [← pow_succ'] at more doubled ⊢
        exact ih doubled more (by omega)
      · rw [if_neg (mt (doubled.lt_iff held).mp more), if_neg more]
        exact ⟨k, rfl, power⟩

theorem largestPowerOfTwoLessThan_holds {n : ℕ} {size : Int64} (held : Holds size n)
    (small : n ≤ 2 ^ 62) (large : 1 < n)
    : ∃ k, Go.Gateway.largestPowerOfTwoLessThan 63 size = some k ∧ Holds k (splitPoint n) :=
  @doubleWhileLess_holds 62 n 0 size 1 held small rfl large le_rfl

/-- The outcome is the root that was found, or a failure when there is none. -/
def Finds {ε : Type} (outcome : Except ε Bytes) (found : Option Bytes) : Prop :=
  ∀ r, outcome = .ok r ↔ found = some r

theorem Finds.map {ε : Type} {outcome : Except ε Bytes} {found : Option Bytes}
    (finds : Finds outcome found) (f : Bytes → Bytes) : Finds (outcome.map f) (found.map f) := by
  intro r
  rw [Option.map_eq_some_iff]
  have same := fun root => (finds root).symm
  cases outcome with
  | error failed => simp [Except.map, same]
  | ok root => simp [Except.map, same]

/-- Up to 2^62 the recomputation returns, with the root of the unbounded one; by induction on the
reversed path.
-/
theorem goRecomputeFromEnd_finds {leafH : Bytes} {i n : ℕ} {index size : Int64}
    {reversed : List Bytes} (index_held : Holds index i) (size_held : Holds size n)
    (inside : i < n) (small : n ≤ 2 ^ 62)
    : ∃ outcome, Go.Gateway.recomputeFromEnd 63 leafH index size reversed = some outcome
      ∧ Finds outcome (merkleTree.recompute leafH i n reversed) := by
  have one : Holds 1 1 := rfl
  induction reversed generalizing i n index size with
  | nil =>
      rw [Go.Gateway.recomputeFromEnd]
      by_cases single : n = 1
      · rw [if_pos ((size_held.eq_iff one).mpr single)]
        exact ⟨_, rfl, by simp [Finds, TreeHash.recompute, single]⟩
      · rw [if_neg (mt (size_held.eq_iff one).mp single)]
        exact ⟨_, rfl, by simp [Finds, TreeHash.recompute, single]⟩
  | cons last rest ih =>
      by_cases single : n = 1
      · rw [Go.Gateway.recomputeFromEnd, if_pos ((size_held.eq_iff one).mpr single)]
        exact ⟨_, rfl, by simp [Finds, TreeHash.recompute, single]⟩
      · have large : 1 < n := by omega
        have below := splitPoint_lt large
        obtain ⟨k, split, k_held⟩ := largestPowerOfTwoLessThan_holds size_held small large
        rw [Go.Gateway.recomputeFromEnd_cons (mt (size_held.eq_iff one).mp single) split,
          TreeHash.recompute, if_neg single]
        simp only [index_held.lt_iff k_held]
        by_cases left : i < splitPoint n
        · obtain ⟨outcome, returned, finds⟩ := ih index_held k_held left (by omega)
          rw [if_pos left, if_pos left, returned]
          exact ⟨_, rfl, finds.map _⟩
        · have later := index_held.sub k_held (by omega) (by omega)
          have remaining := size_held.sub k_held (by omega) (by omega)
          obtain ⟨outcome, returned, finds⟩ := ih later remaining (by omega) (by omega)
          rw [if_neg left, if_neg left, returned]
          exact ⟨_, rfl, finds.map _⟩

-----------------------------------------------------------------------------------------
-- Calls that return
-----------------------------------------------------------------------------------------

/-- The Go verifier returns, and accepts exactly when the Python verifier does. -/
def Agrees (leaf : Bytes) (index size : UInt64) (path : List Bytes) (root : Bytes) : Prop :=
  ∃ outcome, Returns leaf index size path root outcome
    ∧ (outcome = .ok ()
      ↔ verifyInclusionProof leaf index.toNat size.toNat path root = .ok ())

section

variable {leaf root : Bytes} {index size : UInt64} {path : List Bytes}

theorem goVerify_outside (outside : size ≤ index) (rounds : ℕ)
    : Go.Gateway.verifyInclusionProof rounds leaf index size path root
      = some (.error Go.Gateway.errInclusionProofInvalid) := by
  rw [Go.Gateway.verifyInclusionProof, if_pos (.inr outside)]
  rfl

/-- Inside the range, the Go verdict is told from the recomputed root. -/
theorem goVerify_inside (inside : index < size) (rounds : ℕ)
    : Go.Gateway.verifyInclusionProof rounds leaf index size path root
      = (Go.Gateway.recomputeRoot rounds (leafHash leaf) index.toInt64 size.toInt64 path).map
          fun
          | .error .pathLengthMismatch => .error Go.Gateway.errInclusionProofInvalid
          | .ok got => raiseIf (got ≠ root) Go.Gateway.errInclusionProofInvalid := by
  have here : ¬ (size = 0 ∨ size ≤ index) := by
    rw [← UInt64.toNat_inj, UInt64.le_iff_toNat_le]
    rw [UInt64.lt_iff_toNat_lt] at inside
    simp only [UInt64.toNat_zero]
    omega
  rw [Go.Gateway.verifyInclusionProof, if_neg here, Option.map_eq_bind]
  refine congrArg _ (funext fun got => ?_)
  rcases got with ⟨⟨⟩⟩ | got
  · rfl
  · rfl

theorem agrees_outside (outside : size ≤ index) : Agrees leaf index size path root := by
  refine ⟨_, ⟨0, goVerify_outside outside 0⟩, ?_⟩
  rw [verifyInclusionProof_eq_ok]
  rw [UInt64.le_iff_toNat_le] at outside
  refine iff_of_false (fun accepted => by cases accepted) (fun accepted => ?_)
  exact Nat.not_lt_of_le outside accepted.1

/-- A recomputation that returns what the unbounded one finds makes the verifiers agree. -/
theorem agrees_of_finds {rounds : ℕ} {got : Except Go.Gateway.PathError Bytes}
    (inside : index < size)
    (recomputed : Go.Gateway.recomputeRoot rounds (leafHash leaf) index.toInt64 size.toInt64 path
      = some got)
    (finds : Finds got (merkleTree.recompute (leafHash leaf) index.toNat size.toNat path.reverse))
    : Agrees leaf index size path root := by
  refine ⟨_, ⟨rounds, by rw [goVerify_inside inside, recomputed, Option.map_some]⟩, ?_⟩
  rw [verifyInclusionProof_eq_ok, ← finds root, and_iff_right (UInt64.lt_iff_toNat_lt.mp inside)]
  rcases got with ⟨⟨⟩⟩ | got
  · simp
  · simp [raiseIf_eq_ok]

/-- Up to the largest power of two that a signed integer doubles to, the verdicts agree. -/
theorem agrees_of_small (small : size.toNat ≤ 2 ^ 62) : Agrees leaf index size path root := by
  by_cases outside : size ≤ index
  · exact agrees_outside outside
  · have inside := UInt64.not_le.mp outside
    have below := UInt64.lt_iff_toNat_lt.mp inside
    obtain ⟨got, recomputed, finds⟩ := goRecomputeFromEnd_finds
      (holds_toInt64 (show index.toNat < 2 ^ 63 by omega))
      (holds_toInt64 (show size.toNat < 2 ^ 63 by omega)) below small
    exact agrees_of_finds inside recomputed finds

/-- Without a path no loop runs. -/
theorem agrees_nil : Agrees leaf index size [] root := by
  by_cases outside : size ≤ index
  · exact agrees_outside outside
  · have inside := UInt64.not_le.mp outside
    by_cases one : size = 1
    · subst one
      exact agrees_of_small (by decide)
    · have inner : size.toInt64 ≠ 1 := fun same => one (congrArg Int64.toUInt64 same)
      have inner' : size.toNat ≠ 1 := fun same => one (UInt64.toNat_inj.mp same)
      have refused : Go.Gateway.recomputeRoot 0 (leafHash leaf) index.toInt64 size.toInt64 []
          = some (.error .pathLengthMismatch) := by
        rw [Go.Gateway.recomputeRoot, List.reverse_nil, Go.Gateway.recomputeFromEnd, if_neg inner]
        rfl
      refine agrees_of_finds inside refused ?_
      simp [Finds, TreeHash.recompute, inner']

-----------------------------------------------------------------------------------------
-- Calls that go on for ever
-----------------------------------------------------------------------------------------

/-- The values of the loop: the powers of two, the least integer after the last of them, then zero.
-/
def Doubling (k : Int64) : Prop := (∃ e ≤ 62, k.toInt = 2 ^ e) ∨ k.toInt = -2 ^ 63 ∨ k.toInt = 0

/-- Doubling a power of two below the bound gives the next one, or the overflow. -/
theorem Doubling.double {k : Int64} (doubling : Doubling k)
    : Doubling (2 * k) ∧ (2 * k).toInt ≤ 2 ^ 62 := by
  have wrapped : (2 * k).toInt = (2 * k.toInt).bmod (2 ^ 64) := Int64.toInt_mul 2 k
  rcases doubling with ⟨e, le, power⟩ | least | zero
  · rw [power, ← pow_succ'] at wrapped
    rcases Nat.lt_or_eq_of_le le with less | rfl
    · have bound : (2 : Int) ^ (e + 1) ≤ 2 ^ 62 := pow_le_pow_right₀ (by decide) less
      have positive : (0 : Int) < 2 ^ (e + 1) := pow_pos (by decide) _
      rw [Int.bmod_eq_of_le (by omega) (by omega)] at wrapped
      exact ⟨.inl ⟨e + 1, less, wrapped⟩, by omega⟩
    · have value : ((2 : Int) ^ (62 + 1)).bmod (2 ^ 64) = -2 ^ 63 := by decide
      rw [value] at wrapped
      exact ⟨.inr (.inl wrapped), by omega⟩
  · have value : (2 * (-2 ^ 63 : Int)).bmod (2 ^ 64) = 0 := by decide
    rw [least, value] at wrapped
    exact ⟨.inr (.inr wrapped), by omega⟩
  · rw [zero] at wrapped
    exact ⟨.inr (.inr wrapped), by rw [wrapped]; decide⟩

/-- Above 2^62 the loop does not end, by induction on its rounds. -/
theorem doubleWhileLess_diverges {n k : Int64} (large : 2 ^ 62 < n.toInt) (doubling : Doubling k)
    (rounds : ℕ) : Go.Gateway.doubleWhileLess rounds n k = none := by
  induction rounds generalizing k with
  | zero => rfl
  | succ rounds ih =>
      obtain ⟨doubling', le⟩ := doubling.double
      rw [Go.Gateway.doubleWhileLess, if_pos (Int64.lt_iff_toInt_lt.mpr (by omega))]
      exact ih doubling'

/-- Beyond it the recomputation returns after no number of rounds: the doubling never reaches
the size.
-/
theorem recompute_diverges {leafH last : Bytes} {index size : Int64} {rest : List Bytes}
    (large : 2 ^ 62 < size.toInt) (rounds : ℕ)
    : Go.Gateway.recomputeFromEnd rounds leafH index size (last :: rest) = none := by
  have inner : size ≠ 1 := by
    intro single
    rw [single] at large
    revert large
    decide
  have forever : Go.Gateway.largestPowerOfTwoLessThan rounds size = none :=
    doubleWhileLess_diverges large (.inl ⟨0, by decide, rfl⟩) rounds
  rw [Go.Gateway.recomputeFromEnd, if_neg inner, forever]
  rfl

/-- So the verdicts do not agree on a path that is not empty. -/
theorem not_agrees_of_large (inside : index < size) (large : 2 ^ 62 < size.toNat)
    (fits : size.toNat < 2 ^ 63) (nonempty : path ≠ []) : ¬ Agrees leaf index size path root := by
  intro agrees
  obtain ⟨outcome, ⟨rounds, returned⟩, -⟩ := agrees
  obtain ⟨last, rest, reversed⟩ :=
    List.exists_cons_of_ne_nil (mt List.reverse_eq_nil_iff.mp nonempty)
  have held : size.toInt64.toInt = size.toNat := holds_toInt64 fits
  rw [goVerify_inside inside, Go.Gateway.recomputeRoot, reversed,
    recompute_diverges (by omega)] at returned
  cases returned

/-- A size from 2^63 on is a negative integer, below which the split point is one.
Witness: with the split point one the leaf of the sample path is put on the left, so another
root is computed.
-/
theorem not_agrees_of_negative (negative : 2 ^ 63 ≤ size.toNat)
    : ¬ Agrees [] 0 size [[]] (nodeHash (leafHash []) []) := by
  intro agrees
  obtain ⟨outcome, ⟨rounds, returned⟩, same⟩ := agrees
  have bound := size.toNat_lt
  have inside : (0 : UInt64) < size := by
    rw [UInt64.lt_iff_toNat_lt]
    exact Nat.lt_of_lt_of_le (by decide) negative
  have value : size.toInt64.toInt = size.toNat - 2 ^ 64 := by
    rw [toInt_toInt64, Int.bmod_def]
    omega
  have inner : size.toInt64 ≠ 1 := by
    intro single
    rw [single] at value
    have one : (1 : Int64).toInt = 1 := rfl
    omega
  have least : ¬ 2 * 1 < size.toInt64 := by
    have two : (2 * 1 : Int64).toInt = 2 := rfl
    rw [Int64.lt_iff_toInt_lt]
    omega
  have accepted : outcome = .ok () := by
    rw [goVerify_inside inside, Go.Gateway.recomputeRoot, List.reverse_singleton] at returned
    cases rounds with
    | zero =>
        rw [Go.Gateway.recomputeFromEnd, if_neg inner] at returned
        cases returned
    | succ rounds =>
        have split : Go.Gateway.largestPowerOfTwoLessThan (rounds + 1) size.toInt64 = some 1 :=
          if_neg least
        rw [Go.Gateway.recomputeFromEnd_cons inner split] at returned
        have result := (Option.some.inj returned).symm
        rw [result]
        exact raiseIf_neg (not_not_intro rfl)
  obtain ⟨-, recomputed⟩ := verifyInclusionProof_eq_ok.mp (same.mp accepted)
  obtain ⟨e, split, -, above⟩ := splitPoint_spec (show 1 < size.toNat by omega)
  have double : 2 ^ (e + 1) = 2 ^ e * 2 := pow_succ 2 e
  rw [List.reverse_singleton, TreeHash.recompute, if_neg (by omega)] at recomputed
  simp [TreeHash.recompute, splitPoint_pos, show splitPoint size.toNat ≠ 1 by omega] at recomputed

end

/-- The Go verifier returns and agrees for trees of at most 2^62 leaves, and for larger ones when
the index is outside or the path is empty. Below 2^63 it does not otherwise, and for every size
above 2^62 there is a call on which it does not.
Witness: up to 2^62 the split point is computed without overflow; above, the doubling passes it
and never ends, or starts from a negative size.
-/
theorem goVerifier_agrees_iff (leaf : Bytes) (index size : UInt64) (path : List Bytes)
    (root : Bytes)
    : (size.toNat ≤ 2 ^ 62 ∨ size ≤ index ∨ path = [] → Agrees leaf index size path root)
      ∧ (size.toNat < 2 ^ 63
        → (Agrees leaf index size path root
          ↔ size.toNat ≤ 2 ^ 62 ∨ size ≤ index ∨ path = []))
      ∧ ((∀ (leaf : Bytes) (index : UInt64) (path : List Bytes) (root : Bytes),
          Agrees leaf index size path root)
        ↔ size.toNat ≤ 2 ^ 62) := by
  have enough : size.toNat ≤ 2 ^ 62 ∨ size ≤ index ∨ path = []
      → Agrees leaf index size path root := by
    intro condition
    rcases condition with small | outside | rfl
    · exact agrees_of_small small
    · exact agrees_outside outside
    · exact agrees_nil
  refine ⟨enough, ?_, ?_⟩
  · intro fits
    refine ⟨fun agrees => ?_, enough⟩
    by_contra unmet
    simp only [not_or, Nat.not_le, UInt64.not_le] at unmet
    exact not_agrees_of_large unmet.2.1 unmet.1 fits unmet.2.2 agrees
  · refine ⟨fun agrees => ?_, fun small leaf index path root => agrees_of_small small⟩
    by_contra large
    rw [Nat.not_le] at large
    rcases Nat.lt_or_ge size.toNat (2 ^ 63) with fits | negative
    · have inside : (0 : UInt64) < size := by
        rw [UInt64.lt_iff_toNat_lt]
        exact Nat.lt_of_le_of_lt (Nat.zero_le _) large
      exact not_agrees_of_large inside large fits (List.cons_ne_nil [] []) (agrees [] 0 [[]] [])
    · exact not_agrees_of_negative negative (agrees _ _ _ _)

/-- A tree of 2^62 + 1 leaves with a path of one element: the Go verifier does not return. -/
theorem goVerifier_never_returns : ¬ Agrees [] 0 0x4000000000000001 [[]] [] :=
  not_agrees_of_large (by decide) (by decide) (by decide) (List.cons_ne_nil [] [])

/-- Witness: two leaves, and the path of the first. -/
theorem goVerifier_agrees_two_leaves
    : Agrees [1] 0 2 [leafHash [2]] (merkleRoot [[1], [2]]) :=
  (goVerifier_agrees_iff [1] 0 2 [leafHash [2]] (merkleRoot [[1], [2]])).1 (.inl (by decide))

end Naalp.Transparency
