import Mathlib.Data.List.Permutation
import Naalp.Streams.Commitments

/-! The order in which chunks are delivered. It is irrelevant exactly when chunks at one offset
commute and no empty chunk shares its offset with the data of a contiguous stream.
-/

namespace Naalp.Streams

open Naalp.Foundation
open Naalp.Foundation.Sha2 (DigestsCollide)
open Naalp.Python
open Naalp.Python.Streaming

/-- Acceptance, or the kind of the error. -/
def verdict (outcome : Py Unit) : Except (Option Kind) Unit := outcome.mapError Exc.kind?

theorem contiguousEnd_eq_ok {start last : Int} {chunks : List Chunk}
    : contiguousEnd start chunks = .ok last
      ↔ Laid start (chunks.map extent) ∧ last = start + extentSum (chunks.map extent) := by
  induction chunks generalizing start with
  | nil => simp [contiguousEnd, Laid, extentSum, eq_comm]
  | cons c chunks ih =>
      rw [contiguousEnd, raiseIf_bind_eq_ok, not_not, ih]
      simp only [List.map_cons, Laid, extent, extentSum, List.sum_cons, Nat.cast_add]
      rw [and_assoc, Int.add_assoc]

/-- The loop over the chunks fails with one kind of error, by induction on the chunks. -/
theorem contiguousEnd_error {start : Int} {chunks : List Chunk} {error : Exc}
    (refused : contiguousEnd start chunks = .error error)
    : error.kind? = some .streamDigestMismatch := by
  induction chunks generalizing start with
  | nil => cases refused
  | cons c chunks ih =>
      rw [contiguousEnd] at refused
      by_cases begins : c.offset = start
      · rw [raiseIf_neg (not_not_intro begins), ok_bind] at refused
        exact ih refused
      · rw [raiseIf_pos begins, error_bind] at refused
        cases refused
        rfl

/-- A checkpoint is accepted exactly when the sorted chunks are contiguous from zero on, and
have its length and its digest.
-/
theorem verifyCheckpoint_eq_ok {cp : StreamCheckpoint} {chunks : List Chunk}
    : verifyCheckpoint cp chunks = .ok ()
      ↔ chunks.length ≤ maxStreamChunks ∧ Laid 0 ((sortChunks chunks).map extent)
        ∧ (streamBytes chunks).length = cp.throughOffset
        ∧ cp.digestSoFar = commitDigest chunks := by
  rw [verifyCheckpoint, raiseIf_bind_eq_ok, gt_iff_lt, not_lt, bind_eq_ok]
  simp only [contiguousEnd_eq_ok, extentSum_sortChunks, raiseIf_bind_eq_ok, raiseIf_eq_ok, not_not,
    ne_eq, Int.zero_add]
  constructor
  · intro accepted
    obtain ⟨short, _, ⟨laid, rfl⟩, length, digest⟩ := accepted
    exact ⟨short, laid, length, digest⟩
  · intro accepted
    obtain ⟨short, laid, length, digest⟩ := accepted
    exact ⟨short, _, ⟨laid, rfl⟩, length, digest⟩

/-- A checkpoint is refused for the number of the chunks, or else for their digest. -/
theorem verifyCheckpoint_error {cp : StreamCheckpoint} {chunks : List Chunk} {error : Exc}
    (refused : verifyCheckpoint cp chunks = .error error)
    : error.kind? = some (if chunks.length > maxStreamChunks then .tooManyChunks
      else .streamDigestMismatch) := by
  rw [verifyCheckpoint] at refused
  by_cases long : chunks.length > maxStreamChunks
  · rw [raiseIf_pos long, error_bind] at refused
    cases refused
    rw [if_pos long]
    rfl
  · rw [raiseIf_neg long, ok_bind] at refused
    rw [if_neg long]
    rcases bind_eq_error.mp refused with failed | ⟨last, -, failed⟩
    · exact contiguousEnd_error failed
    · rcases bind_eq_error.mp failed with failed | ⟨-, -, failed⟩
      all_goals
        unfold raiseIf at failed
        split at failed <;> cases failed
        rfl

/-- Checkpoint verdicts agree when as many chunks are delivered and acceptance agrees. -/
theorem verdict_verifyCheckpoint {cp : StreamCheckpoint} {chunks order : List Chunk}
    (length : order.length = chunks.length)
    (accepted : verifyCheckpoint cp order = .ok () ↔ verifyCheckpoint cp chunks = .ok ())
    : verdict (verifyCheckpoint cp order) = verdict (verifyCheckpoint cp chunks) := by
  cases here : verifyCheckpoint cp order with
  | ok done => rw [accepted.mp here]
  | error error =>
      cases there : verifyCheckpoint cp chunks with
      | ok done =>
          rw [accepted.mpr there] at here
          cases here
      | error error' =>
          have kind := verifyCheckpoint_error here
          rw [length, ← verifyCheckpoint_error there] at kind
          exact congrArg Except.error kind

/-- Every order of the chunks has the same digest and gets the same verdicts. -/
def OrderIrrelevant (chunks : List Chunk) : Prop :=
  ∀ order : List Chunk, order.Perm chunks
    → commitDigest order = commitDigest chunks
      ∧ (∀ commitObj, verdict (verifyCommit commitObj order)
        = verdict (verifyCommit commitObj chunks))
      ∧ ∀ cp, verdict (verifyCheckpoint cp order) = verdict (verifyCheckpoint cp chunks)

/-- No empty chunk is at the offset of a chunk with data. -/
def Unmixed (chunks : List Chunk) : Prop :=
  ∀ c ∈ chunks, ∀ d ∈ chunks, c.offset = d.offset → c.data = [] → d.data = []

/-- Some order of the chunks follows one another from offset zero on. -/
def Arrangeable (chunks : List Chunk) : Prop :=
  ∃ order : List Chunk, order.Perm chunks ∧ Laid 0 (order.map extent)

/-- Chunks at one offset commute, and in a list that a checkpoint may accept no empty chunk is at
the offset of a chunk with data.
-/
structure OrderFree (chunks : List Chunk) : Prop where
  commute : TiesCommute Chunk.offset Chunk.data chunks
  unmixed : chunks.length ≤ maxStreamChunks → Arrangeable chunks → Unmixed chunks

section Permuted

variable {chunks order : List Chunk}

theorem sortChunks_perm_of_perm (perm : order.Perm chunks)
    : (sortChunks order).Perm (sortChunks chunks) :=
  ((sortChunks_perm order).trans perm).trans (sortChunks_perm chunks).symm

theorem sorted_extents (chunks : List Chunk)
    : ((sortChunks chunks).map extent).Pairwise fun a b => a.1 ≤ b.1 :=
  List.pairwise_map.mpr (sortChunks_sorted chunks)

theorem streamBytes_of_perm (perm : order.Perm chunks)
    (commute : TiesCommute Chunk.offset Chunk.data chunks)
    : streamBytes order = streamBytes chunks := by
  refine flatMap_eq_of_sorted (sortChunks_perm_of_perm perm) (sortChunks_sorted order)
    (sortChunks_sorted chunks) ?_
  intro c member d member'
  have listed := ((sortChunks_perm order).trans perm).subset
  exact commute c (listed member) d (listed member')

/-- Without mixed offsets one order is contiguous when another is. -/
theorem laid_of_perm (perm : order.Perm chunks) (unmixed : Unmixed chunks)
    (laid : Laid 0 ((sortChunks chunks).map extent)) : Laid 0 ((sortChunks order).map extent) := by
  rw [laid.eq_of_perm ((sortChunks_perm_of_perm perm).map extent) (sorted_extents order) ?_]
  · exact laid
  · intro a member b member'
    obtain ⟨c, listed, rfl⟩ := List.mem_map.mp member
    obtain ⟨d, listed', rfl⟩ := List.mem_map.mp member'
    simp only [extent, List.length_eq_zero_iff]
    exact unmixed c ((sortChunks_perm _).subset listed) d ((sortChunks_perm _).subset listed')

theorem Unmixed.perm (unmixed : Unmixed chunks) (perm : order.Perm chunks) : Unmixed order :=
  fun c member d member' => unmixed c (perm.subset member) d (perm.subset member')

/-- In an order-free list contiguity does not depend on the order. -/
theorem OrderFree.laid_iff (free : OrderFree chunks) (short : chunks.length ≤ maxStreamChunks)
    (perm : order.Perm chunks)
    : Laid 0 ((sortChunks order).map extent) ↔ Laid 0 ((sortChunks chunks).map extent) := by
  constructor
  · intro laid
    have unmixed := free.unmixed short ⟨_, (sortChunks_perm order).trans perm, laid⟩
    exact laid_of_perm perm.symm (unmixed.perm perm) laid
  · intro laid
    exact laid_of_perm perm (free.unmixed short ⟨_, sortChunks_perm chunks, laid⟩) laid

/-- In an order-free list every order is digested and judged alike.
Witness: commuting ties give one string of octets, and unmixed ones one layout.
-/
theorem OrderFree.orderIrrelevant (free : OrderFree chunks) : OrderIrrelevant chunks := by
  intro order perm
  have bytes := streamBytes_of_perm perm free.commute
  have digest : commitDigest order = commitDigest chunks := by
    rw [commitDigest_eq, commitDigest_eq, bytes]
  have length := perm.length_eq
  refine ⟨digest, ?_, ?_⟩
  · intro commitObj
    unfold verifyCommit
    rw [length, digest]
  · intro cp
    refine verdict_verifyCheckpoint length ?_
    rw [verifyCheckpoint_eq_ok, verifyCheckpoint_eq_ok, length, bytes, digest]
    refine and_congr_right fun short => and_congr_left fun _ => ?_
    exact free.laid_iff short perm

end Permuted

section Tied

variable {chunks : List Chunk} {c d : Chunk}

/-- Two chunks of a list can be delivered first. -/
theorem exists_perm_cons_cons (member : c ∈ chunks) (member' : d ∈ chunks) (different : c ≠ d)
    : ∃ rest, (c :: d :: rest).Perm chunks := by
  have first := List.perm_cons_erase member
  have listed : d ∈ chunks.erase c := (List.mem_erase_of_ne different.symm).mpr member'
  exact ⟨_, (first.trans ((List.perm_cons_erase listed).cons c)).symm⟩

/-- Where every order has one digest, chunks at one offset commute, unless bytes collide. -/
theorem commute_of_orderIrrelevant (irrelevant : OrderIrrelevant chunks)
    (free : ¬ DigestsCollide (chunks.permutations.map streamBytes))
    : TiesCommute Chunk.offset Chunk.data chunks := by
  intro c member d member' tie
  by_cases same : c = d
  · rw [same]
  obtain ⟨rest, perm⟩ := exists_perm_cons_cons member member' same
  have perm' : (d :: c :: rest).Perm chunks := (List.Perm.swap c d rest).trans perm
  have digest := (irrelevant _ perm).1.trans (irrelevant _ perm').1.symm
  rw [commitDigest_eq, commitDigest_eq] at digest
  have bytes : streamBytes (c :: d :: rest) = streamBytes (d :: c :: rest) := by
    by_contra apart
    exact free ⟨_, List.mem_map_of_mem (List.mem_permutations.mpr perm), _,
      List.mem_map_of_mem (List.mem_permutations.mpr perm'), apart, digest⟩
  obtain ⟨before, after, sorted, sorted'⟩ := @insertionSort_cons_cons _ _ _ _ c d rest tie
  simp only [streamBytes, sortChunks, sorted, sorted', List.flatMap_append, List.flatMap_cons,
    ← List.append_assoc] at bytes
  have cut := List.append_cancel_right bytes
  rw [List.append_assoc, List.append_assoc] at cut
  exact List.append_cancel_left cut

/-- Chunks that are contiguous in their order are sorted. -/
theorem sortChunks_of_laid {order : List Chunk} {start : Int} (laid : Laid start (order.map extent))
    : sortChunks order = order := by
  refine List.Pairwise.insertionSort_eq ?_
  refine (List.pairwise_map.mp laid.pairwise.2).imp ?_
  intro c d ends
  simp only [extent] at ends
  omega

/-- Data before an empty chunk at its offset is no contiguous order. -/
theorem not_laid_of_mixed {rest : List Chunk} (tie : d.offset = c.offset) (data : d.data ≠ [])
    : ¬ Laid 0 ((sortChunks (d :: c :: rest)).map extent) := by
  intro laid
  obtain ⟨before, after, sorted, -⟩ := @insertionSort_cons_cons _ _ _ _ d c rest tie
  have apart := laid.pairwise.2
  rw [sortChunks, sorted, List.map_append, List.pairwise_append] at apart
  have ends := (List.pairwise_cons.mp apart.2.1).1 (extent c) (by simp)
  simp only [extent] at ends
  have long := List.length_pos_iff.mpr data
  omega

/-- Where every order gets one verdict on checkpoints, no offset of a contiguous list is mixed.
Witness: a mixed offset has two orders with different first chunks, and the checkpoint of one
is refused of the other.
-/
theorem unmixed_of_orderIrrelevant (irrelevant : OrderIrrelevant chunks)
    (short : chunks.length ≤ maxStreamChunks) (arranged : Arrangeable chunks)
    : Unmixed chunks := by
  intro c member d member' tie empty
  by_contra data
  have different : d ≠ c := by
    rintro rfl
    exact data empty
  obtain ⟨order, perm, laid⟩ := arranged
  obtain ⟨rest, perm'⟩ := exists_perm_cons_cons member' member different
  -- The checkpoint of the contiguous order is refused when the data comes first.
  let cp : StreamCheckpoint :=
    { throughOffset := (streamBytes order).length, digestSoFar := commitDigest order }
  have accepted : verifyCheckpoint cp order = .ok () :=
    verifyCheckpoint_eq_ok.mpr
      ⟨perm.length_eq ▸ short, (sortChunks_of_laid laid).symm ▸ laid, rfl, rfl⟩
  have verdicts := ((irrelevant order perm).2.2 cp).trans ((irrelevant _ perm').2.2 cp).symm
  rw [accepted] at verdicts
  cases late : verifyCheckpoint cp (d :: c :: rest) with
  | ok done => exact not_laid_of_mixed tie.symm data (verifyCheckpoint_eq_ok.mp late).2.1
  | error error =>
      rw [late] at verdicts
      cases verdicts

end Tied

/-- The order of delivery is irrelevant if and only if the list is order-free; different bytes of
two orders with one digest apart.
-/
theorem delivery_order_irrelevant_iff (chunks : List Chunk)
    : (OrderFree chunks → OrderIrrelevant chunks)
      ∧ (OrderIrrelevant chunks
        → OrderFree chunks ∨ DigestsCollide (chunks.permutations.map streamBytes)) := by
  refine ⟨OrderFree.orderIrrelevant, ?_⟩
  intro irrelevant
  by_cases collide : DigestsCollide (chunks.permutations.map streamBytes)
  · exact .inr collide
  · exact .inl ⟨commute_of_orderIrrelevant irrelevant collide,
      unmixed_of_orderIrrelevant irrelevant⟩

/-- Two chunks that were delivered in exchanged order. -/
def exchanged : List Chunk := [{ offset := 1, data := [2] }, { offset := 0, data := [1] }]

theorem exchanged_orderFree : OrderFree exchanged where
  commute := by
    simp [TiesCommute, exchanged]
  unmixed _ _ := by
    simp [Unmixed, exchanged]

/-- Witness: chunks at different offsets, delivered out of order. -/
theorem delivery_order_irrelevant_exchanged
    : OrderIrrelevant exchanged
      ∧ (OrderFree exchanged ∨ DigestsCollide (exchanged.permutations.map streamBytes)) := by
  obtain ⟨irrelevant, orderFree⟩ := delivery_order_irrelevant_iff exchanged
  exact ⟨irrelevant exchanged_orderFree, orderFree (irrelevant exchanged_orderFree)⟩

/-- Two chunks at one offset are digested in the order of their delivery, and an empty chunk is
refused behind the data at its offset only.
-/
theorem tied_chunks_reordered
    : ¬ OrderIrrelevant [{ offset := 0, data := [1] }, { offset := 0, data := [2] }]
      ∧ ¬ OrderIrrelevant [{ offset := 0, data := [] }, { offset := 0, data := [1] }] := by
  constructor
  · intro irrelevant
    have digest := (irrelevant _ (List.Perm.swap _ _ [])).1
    exact absurd digest (by decide +kernel)
  · intro irrelevant
    have unmixed := unmixed_of_orderIrrelevant irrelevant (by simp [maxStreamChunks])
      ⟨_, List.Perm.refl _, by simp [Laid, extent]⟩
    have empty := unmixed _ List.mem_cons_self _ (List.mem_cons_of_mem _ List.mem_cons_self) rfl rfl
    cases empty

end Naalp.Streams
