import Naalp.Python.Description

/-! Forks of signed directories: what a fork proof shows, and which directories of a signer can be
accused.
-/

namespace Naalp.Names

open Naalp.Foundation
open Naalp.Python
open Naalp.Python.Cose
open Naalp.Python.Description

/-- The lists agree up to a position and differ there, as the members or as an end. -/
def DifferAt (n : Nat) (a b : List Bytes) : Prop := a.take n = b.take n ∧ a[n]? ≠ b[n]?

/-- The directories are of one version, and first differ in the member at the position. -/
structure Forks (a b : Directory) (n : Nat) : Prop where
  directory : a.directory = b.directory
  version : a.version = b.version
  members : DifferAt n a.members b.members

section Differences

variable {i pos : Int} {n : Nat} {x y : Bytes} {a b : List Bytes}

theorem differAt_succ : DifferAt (n + 1) (x :: a) (y :: b) ↔ x = y ∧ DifferAt n a b := by
  simp [DifferAt, and_assoc]

theorem differAt_zero : DifferAt 0 (x :: a) (y :: b) ↔ x ≠ y := by
  simp [DifferAt]

theorem differAt_nil_left : DifferAt n [] (y :: b) ↔ n = 0 := by
  cases n <;> simp [DifferAt]

theorem differAt_nil_right : DifferAt n (x :: a) [] ↔ n = 0 := by
  cases n <;> simp [DifferAt]

/-- The search finds the position at which the lists differ, by induction over both. -/
theorem firstDifference_eq_some
    : firstDifference i a b = some pos ↔ ∃ n : Nat, pos = i + n ∧ DifferAt n a b := by
  induction a generalizing i b with
  | nil =>
      cases b with
      | nil => simp [firstDifference, DifferAt]
      | cons y b => simp [firstDifference, differAt_nil_left, eq_comm]
  | cons x a ih =>
      cases b with
      | nil => simp [firstDifference, differAt_nil_right, eq_comm]
      | cons y b =>
          rw [firstDifference]
          split
          · rename_i differ
            constructor
            · rintro ⟨⟩
              exact ⟨0, by simp, differAt_zero.mpr differ⟩
            · rintro ⟨n, rfl, at_⟩
              cases n with
              | zero => simp
              | succ n => exact absurd (differAt_succ.mp at_).1 differ
          · rename_i same
            rw [not_not] at same
            rw [ih]
            constructor
            · rintro ⟨n, rfl, at_⟩
              exact ⟨n + 1, by push_cast; ring, differAt_succ.mpr ⟨same, at_⟩⟩
            · rintro ⟨n, rfl, at_⟩
              cases n with
              | zero => exact absurd same (differAt_zero.mp at_)
              | succ n => exact ⟨n, by push_cast; ring, (differAt_succ.mp at_).2⟩

/-- The search finds no difference exactly between equal lists, by induction on the first. -/
theorem firstDifference_eq_none : firstDifference i a b = none ↔ a = b := by
  induction a generalizing i b with
  | nil => cases b <;> simp [firstDifference]
  | cons x a ih =>
      cases b with
      | nil => simp [firstDifference]
      | cons y b =>
          by_cases same : x = y <;> simp [firstDifference, same, ih]

/-- Lists that differ do so at some position. -/
theorem exists_differAt (differ : a ≠ b) : ∃ n, DifferAt n a b := by
  cases found : firstDifference 0 a b with
  | none => exact absurd (firstDifference_eq_none.mp found) differ
  | some pos =>
      obtain ⟨n, -, at_⟩ := firstDifference_eq_some.mp found
      exact ⟨n, at_⟩

end Differences

section Proofs

variable {lib : SignatureLibrary} {proof : DirectoryForkProof} {profile alg pos : Int}
  {pubkey : Bytes} {a b : Directory}

/-- A fork is found at a position exactly when the heads differ there first. -/
theorem detectFork_eq_true : detectFork a b = (pos, true) ↔ ∃ n : Nat, pos = n ∧ Forks a b n := by
  unfold detectFork
  split
  · rename_i apart
    constructor
    · intro found
      cases found
    · rintro ⟨n, -, directory, version, -⟩
      exact absurd apart (not_or.mpr ⟨not_not_intro directory, not_not_intro version⟩)
  · rename_i same
    rw [not_or, not_not, not_not] at same
    have found : firstMemberDifference a.members b.members = (pos, true)
        ↔ firstDifference 0 a.members b.members = some pos := by
      unfold firstMemberDifference
      cases firstDifference 0 a.members b.members <;> simp
    rw [found, firstDifference_eq_some]
    simp only [Int.zero_add]
    exact exists_congr fun n => and_congr_right fun _ =>
      ⟨fun members => ⟨same.1, same.2, members⟩, fun forks => forks.members⟩

/-- A fork proof is accepted exactly when it names a signer and both of its objects verify as
directories of one version that fork, with the position where they do.
-/
theorem verify_directory_fork_eq_ok
    : proof.verify lib profile alg pubkey = .ok pos
      ↔ proof.signer ≠ [] ∧ ∃ a b n, verifyDirectory lib proof.signedA profile alg pubkey = .ok a
        ∧ verifyDirectory lib proof.signedB profile alg pubkey = .ok b ∧ pos = Nat.cast n
        ∧ Forks a b n := by
  rw [DirectoryForkProof.verify, raiseIf_bind_eq_ok]
  refine and_congr_right fun _ => ?_
  simp only [bind_eq_ok, mapError_eq_ok, raiseIf_eq_ok, exists_const, Bool.not_eq_false, pure_eq_ok,
    Except.ok.injEq]
  constructor
  · rintro ⟨a, first, b, second, forks, rfl⟩
    obtain ⟨n, pos, forks⟩ := detectFork_eq_true.mp (Prod.ext rfl forks)
    exact ⟨a, b, n, first, second, pos, forks⟩
  · rintro ⟨a, b, n, first, second, rfl, forks⟩
    have found := detectFork_eq_true.mpr ⟨n, rfl, forks⟩
    exact ⟨a, first, b, second, congrArg Prod.snd found, congrArg Prod.fst found⟩

/-- Verified directories of one version have the same members when no fork proof over them is
accepted.
-/
theorem members_eq_of_unaccused {signed : Set Bytes} {obj obj' : Bytes}
    (unaccused : ∀ proof : DirectoryForkProof, proof.signedA ∈ signed → proof.signedB ∈ signed
      → ∀ pos, proof.verify lib profile alg pubkey ≠ .ok pos)
    (inA : obj ∈ signed) (first : verifyDirectory lib obj profile alg pubkey = .ok a)
    (inB : obj' ∈ signed) (second : verifyDirectory lib obj' profile alg pubkey = .ok b)
    (directory : a.directory = b.directory) (version : a.version = b.version)
    : a.members = b.members := by
  by_contra differ
  obtain ⟨n, members⟩ := exists_differAt differ
  have accepted
      : (DirectoryForkProof.mk [1] obj obj').verify lib profile alg pubkey = .ok (Nat.cast n) :=
    verify_directory_fork_eq_ok.mpr
      ⟨List.cons_ne_nil _ _, a, b, n, first, second, rfl, directory, version, members⟩
  exact unaccused ⟨[1], obj, obj'⟩ inA inB _ accepted

end Proofs

/-- A fork proof is accepted exactly when it names a signer and both of its objects verify as
directories of one version that fork, with the position where they do. Over the objects that a
signer has signed, no fork proof is accepted exactly when each version of a directory has one list
of members; and then the verified directories are those of a table.
Witness: the checks are read off in order; without forks a table is filled with the members of
whatever directory is verified at each version.
-/
theorem directory_forks (lib : SignatureLibrary) (profile alg : Int) (pubkey : Bytes)
    : (∀ (proof : DirectoryForkProof) pos, proof.verify lib profile alg pubkey = .ok pos
        ↔ proof.signer ≠ [] ∧ ∃ a b n, verifyDirectory lib proof.signedA profile alg pubkey = .ok a
          ∧ verifyDirectory lib proof.signedB profile alg pubkey = .ok b ∧ pos = Nat.cast n
          ∧ Forks a b n)
      ∧ ∀ signed : Set Bytes,
        (∀ proof : DirectoryForkProof, proof.signedA ∈ signed → proof.signedB ∈ signed
          → ∀ pos, proof.verify lib profile alg pubkey ≠ .ok pos)
        ↔ ∃ table : Bytes → Int → List Bytes, ∀ obj ∈ signed, ∀ d,
          verifyDirectory lib obj profile alg pubkey = .ok d
          → d.members = table d.directory d.version := by
  refine ⟨fun proof pos => verify_directory_fork_eq_ok, fun signed => ?_⟩
  constructor
  · intro unaccused
    have each : ∀ directory version, ∃ members, ∀ obj ∈ signed, ∀ d,
        verifyDirectory lib obj profile alg pubkey = .ok d → d.directory = directory
          → d.version = version → d.members = members := by
      intro directory version
      by_cases some_ : ∃ obj ∈ signed, ∃ d, verifyDirectory lib obj profile alg pubkey = .ok d
          ∧ d.directory = directory ∧ d.version = version
      · obtain ⟨obj', inB, b, second, rfl, rfl⟩ := some_
        exact ⟨b.members, fun obj inA a first directory version =>
          members_eq_of_unaccused unaccused inA first inB second directory version⟩
      · exact ⟨[], fun obj inA a first directory version =>
          absurd ⟨obj, inA, a, first, directory, version⟩ some_⟩
    choose table listed using each
    exact ⟨table, fun obj in_ d verified => listed _ _ obj in_ d verified rfl rfl⟩
  · rintro ⟨table, listed⟩ proof inA inB pos accepted
    obtain ⟨-, a, b, n, first, second, -, directory, version, members⟩ :=
      verify_directory_fork_eq_ok.mp accepted
    have same : a.members = b.members := by
      rw [listed _ inA a first, listed _ inB b second, directory, version]
    exact members.2 (by rw [same])

end Naalp.Names
