import Naalp.Foundation.Intervals
import Naalp.Foundation.Grouping
import Naalp.Streams.StateTable

/-! Stream commitments. A commitment fixes the bytes of a stream but not their offsets: it binds
them exactly for the lists of chunks that follow one another from offset zero on.
-/

namespace Naalp.Streams

open Naalp.Foundation
open Naalp.Foundation.Sha2 (DigestsCollide)
open Naalp.Python
open Naalp.Python.Streaming

/-- The bytes that are digested for a list of chunks. -/
def streamBytes (chunks : List Chunk) : Bytes := (sortChunks chunks).flatMap Chunk.data

/-- The offsets that a chunk takes up. -/
def extent (c : Chunk) : Int × Nat := (c.offset, c.data.length)

theorem sortChunks_perm (chunks : List Chunk) : (sortChunks chunks).Perm chunks :=
  List.perm_insertionSort _ chunks

theorem sortChunks_sorted (chunks : List Chunk)
    : (sortChunks chunks).Pairwise fun c d => c.offset ≤ d.offset :=
  insertionSort_sorted Chunk.offset chunks

theorem foldl_update (sd : StreamDigest) (chunks : List Chunk)
    : (chunks.foldl (fun sd c => StreamDigest.update sd c.data) sd).fed
      = sd.fed ++ chunks.flatMap Chunk.data := by
  induction chunks generalizing sd with
  | nil => simp
  | cons c chunks ih => rw [List.foldl_cons, ih, StreamDigest.update, List.flatMap_cons,
      List.append_assoc]

theorem commitDigest_eq (chunks : List Chunk)
    : commitDigest chunks = Sha2.sha384 (streamBytes chunks) := by
  rw [commitDigest, StreamDigest.digestSoFar, foldl_update]
  rfl

theorem extentSum_eq (chunks : List Chunk)
    : extentSum (chunks.map extent) = (chunks.flatMap Chunk.data).length := by
  simp [extentSum, extent, List.length_flatMap, Function.comp_def]

theorem extentSum_sortChunks (chunks : List Chunk)
    : extentSum ((sortChunks chunks).map extent) = (streamBytes chunks).length :=
  extentSum_eq _

/-- Some chunk has the byte at the offset. -/
def Covers (chunks : List Chunk) (position : Int) (byte : UInt8) : Prop :=
  ∃ c ∈ chunks, ∃ i : Nat, c.data[i]? = some byte ∧ position = c.offset + i

/-- The same offsets are covered, with the same bytes. -/
def SameStream (chunks others : List Chunk) : Prop :=
  ∀ position byte, Covers chunks position byte ↔ Covers others position byte

/-- The chunks with data, in order of their offsets. -/
def dataChunks (chunks : List Chunk) : List Chunk :=
  (sortChunks chunks).filter fun c => c.data ≠ []

/-- No gap, no overlap, and no other first offset than zero: the chunks with data follow one another
from zero on.
-/
def Gapless (chunks : List Chunk) : Prop := Laid 0 ((dataChunks chunks).map extent)

theorem covers_cons {c : Chunk} {chunks : List Chunk} {position : Int} {byte : UInt8}
    : Covers (c :: chunks) position byte
      ↔ (∃ i : Nat, c.data[i]? = some byte ∧ position = c.offset + i)
        ∨ Covers chunks position byte := by
  simp [Covers]

/-- Empty chunks cover nothing, so leaving them out changes nothing. -/
theorem covers_dataChunks {chunks : List Chunk} {position : Int} {byte : UInt8}
    : Covers (dataChunks chunks) position byte ↔ Covers chunks position byte := by
  simp only [Covers, dataChunks, List.mem_filter, (sortChunks_perm chunks).mem_iff]
  constructor
  · intro covers
    obtain ⟨c, ⟨member, -⟩, found⟩ := covers
    exact ⟨c, member, found⟩
  · intro covers
    obtain ⟨c, member, i, found, place⟩ := covers
    refine ⟨c, ⟨member, ?_⟩, i, found, place⟩
    simp only [ne_eq, decide_not, Bool.not_eq_eq_eq_not, Bool.not_true, decide_eq_false_iff_not]
    intro empty
    simp [empty] at found

/-- Leaving out the empty chunks leaves the octets of the stream, by induction on the sorted
chunks.
-/
theorem flatMap_dataChunks (chunks : List Chunk)
    : (dataChunks chunks).flatMap Chunk.data = streamBytes chunks := by
  unfold dataChunks streamBytes
  induction sortChunks chunks with
  | nil => rfl
  | cons c rest ih =>
      by_cases empty : c.data = []
      · simpa [empty] using ih
      · simpa [empty] using ih

/-- Chunks that follow one another cover their bytes in order, by induction on the chunks. -/
theorem covers_of_laid {start : Int} {chunks : List Chunk} (laid : Laid start (chunks.map extent))
    {position : Int} {byte : UInt8}
    : Covers chunks position byte
      ↔ ∃ i : Nat, (chunks.flatMap Chunk.data)[i]? = some byte ∧ position = start + i := by
  induction chunks generalizing start with
  | nil => simp [Covers]
  | cons c chunks ih =>
      obtain ⟨begins, laid⟩ := laid
      simp only [extent] at begins laid
      rw [covers_cons, ih laid, List.flatMap_cons, begins]
      constructor
      · intro covers
        rcases covers with ⟨i, found, place⟩ | ⟨i, found, place⟩
        · have inside := (List.getElem?_eq_some_iff.mp found).1
          exact ⟨i, by rwa [List.getElem?_append_left inside], place⟩
        · refine ⟨c.data.length + i, ?_, by push_cast; omega⟩
          rw [List.getElem?_append_right (Nat.le_add_right _ _), Nat.add_sub_cancel_left]
          exact found
      · intro found
        obtain ⟨i, found, place⟩ := found
        by_cases inside : i < c.data.length
        · rw [List.getElem?_append_left inside] at found
          exact .inl ⟨i, found, place⟩
        · rw [List.getElem?_append_right (Nat.le_of_not_lt inside)] at found
          exact .inr ⟨i - c.data.length, found, by omega⟩

/-- Gapless chunks describe the stream of the bytes that are digested for them. -/
theorem covers_of_gapless {chunks : List Chunk} (gapless : Gapless chunks) {position : Int}
    {byte : UInt8}
    : Covers chunks position byte
      ↔ ∃ i : Nat, (streamBytes chunks)[i]? = some byte ∧ position = i := by
  rw [← covers_dataChunks, covers_of_laid gapless, flatMap_dataChunks]
  simp

/-- A position is covered exactly when it lies in the extent of a chunk. -/
theorem exists_covers {chunks : List Chunk} {position : Int}
    : (∃ byte, Covers chunks position byte) ↔ position ∈ covered (chunks.map extent) := by
  rw [mem_covered]
  constructor
  · intro covers
    obtain ⟨byte, c, member, i, found, rfl⟩ := covers
    have inside := (List.getElem?_eq_some_iff.mp found).1
    exact ⟨extent c, List.mem_map_of_mem member, by simp [extent], by simp [extent, inside]⟩
  · intro inside
    obtain ⟨_, listed, lower, upper⟩ := inside
    obtain ⟨c, member, rfl⟩ := List.mem_map.mp listed
    simp only [extent] at lower upper
    obtain ⟨i, place⟩ := Int.eq_ofNat_of_zero_le (Int.sub_nonneg_of_le lower)
    have bound : i < c.data.length := by omega
    exact ⟨c.data[i], c, member, i, List.getElem?_eq_getElem bound, by omega⟩

/-- All bytes in one chunk at offset zero. -/
def whole (bytes : Bytes) : List Chunk := [{ offset := 0, data := bytes }]

theorem streamBytes_whole (bytes : Bytes) : streamBytes (whole bytes) = bytes := by
  simp [streamBytes, whole, sortChunks]

theorem whole_gapless (bytes : Bytes) : Gapless (whole bytes) := by
  by_cases empty : bytes = []
  · simp [Gapless, dataChunks, sortChunks, whole, empty, Laid]
  · simp [Gapless, dataChunks, sortChunks, whole, empty, Laid, extent]

/-- Chunks that describe the stream of their digested bytes are gapless: they take up no more
offsets than there are bytes.
Witness: every offset of a nonempty chunk is one of a byte, and they cover as many as there are
bytes.
-/
theorem gapless_of_sameStream {chunks : List Chunk}
    (same : SameStream chunks (whole (streamBytes chunks))) : Gapless chunks := by
  refine laid_of_covered_perm ?_ ?_ (covered_perm ?_)
  · refine List.pairwise_map.mpr ?_
    exact (sortChunks_sorted chunks).sublist List.filter_sublist
  · intro interval member
    obtain ⟨c, listed, rfl⟩ := List.mem_map.mp member
    have nonempty := of_decide_eq_true (List.mem_filter.mp listed).2
    exact List.length_pos_iff.mpr nonempty
  · intro position
    rw [← exists_covers, extentSum_eq, flatMap_dataChunks, Int.zero_add]
    simp only [covers_dataChunks, same position, covers_of_gapless (whole_gapless _),
      streamBytes_whole]
    constructor
    · intro covers
      obtain ⟨byte, i, found, rfl⟩ := covers
      have inside := (List.getElem?_eq_some_iff.mp found).1
      omega
    · intro inside
      obtain ⟨i, rfl⟩ := Int.eq_ofNat_of_zero_le inside.1
      have bound : i < (streamBytes chunks).length := by omega
      exact ⟨_, i, List.getElem?_eq_getElem bound, rfl⟩

/-- Two lists of chunks describe one stream, or their bytes differ and have one digest. -/
def DescribeSame (chunks others : List Chunk) : Prop :=
  SameStream chunks others ∨ DigestsCollide [streamBytes chunks, streamBytes others]

theorem describeSame_of_gapless {commitObj : StreamCommit} {chunks others : List Chunk}
    (accepted : verifyCommit commitObj chunks = .ok ())
    (accepted' : verifyCommit commitObj others = .ok ()) (gapless : Gapless chunks)
    (gapless' : Gapless others) : DescribeSame chunks others := by
  have digest := (verifyCommit_eq_ok.mp accepted).2.symm.trans (verifyCommit_eq_ok.mp accepted').2
  rw [commitDigest_eq, commitDigest_eq] at digest
  by_cases same : streamBytes chunks = streamBytes others
  · refine .inl fun position byte => ?_
    rw [covers_of_gapless gapless, covers_of_gapless gapless', same]
  · exact .inr ⟨_, by simp, _, by simp, same, digest⟩

/-- Whatever is accepted, its bytes in one chunk at offset zero are accepted as well. -/
theorem whole_accepted {commitObj : StreamCommit} {chunks : List Chunk}
    (accepted : verifyCommit commitObj chunks = .ok ())
    : verifyCommit commitObj (whole (streamBytes chunks)) = .ok () := by
  refine verifyCommit_eq_ok.mpr ⟨by simp [whole, maxStreamChunks], ?_⟩
  rw [(verifyCommit_eq_ok.mp accepted).2, commitDigest_eq, commitDigest_eq, streamBytes_whole]

theorem gapless_of_describeSame {chunks : List Chunk}
    (same : DescribeSame chunks (whole (streamBytes chunks))) : Gapless chunks := by
  rcases same with same | collide
  · exact gapless_of_sameStream same
  · obtain ⟨x, left, y, right, different, -⟩ := collide
    simp only [streamBytes_whole, List.mem_cons, List.not_mem_nil, or_false, or_self] at left right
    exact absurd (left.trans right.symm) different

/-- Two accepted lists describe one stream, and neither stands in for another contiguous stream, if
and only if both are gapless; digests of different bytes that are equal apart.
-/
theorem commit_binds_offsets_iff {commitObj : StreamCommit} {chunks others : List Chunk}
    (accepted : verifyCommit commitObj chunks = .ok ())
    (accepted' : verifyCommit commitObj others = .ok ())
    : (DescribeSame chunks others
        ∧ ∀ contiguous, Gapless contiguous → verifyCommit commitObj contiguous = .ok ()
          → DescribeSame chunks contiguous ∧ DescribeSame others contiguous)
      ↔ Gapless chunks ∧ Gapless others := by
  constructor
  · intro bound
    have here := bound.2 _ (whole_gapless _) (whole_accepted accepted)
    have there := bound.2 _ (whole_gapless _) (whole_accepted accepted')
    exact ⟨gapless_of_describeSame here.1, gapless_of_describeSame there.2⟩
  · intro gapless
    obtain ⟨gapless, gapless'⟩ := gapless
    refine ⟨describeSame_of_gapless accepted accepted' gapless gapless', ?_⟩
    intro contiguous laid also
    exact ⟨describeSame_of_gapless accepted also gapless laid,
      describeSame_of_gapless accepted' also gapless' laid⟩

/-- The commitment to some bytes. -/
def commitTo (bytes : Bytes) : StreamCommit := { streamId := [1], digest := Sha2.sha384 bytes }

theorem commitTo_accepts {chunks : List Chunk} {bytes : Bytes}
    (short : chunks.length ≤ maxStreamChunks) (same : streamBytes chunks = bytes)
    : verifyCommit (commitTo bytes) chunks = .ok () :=
  verifyCommit_eq_ok.mpr ⟨short, by rw [commitDigest_eq, same]; rfl⟩

/-- Witness: two chunks that arrive in reverse order, and their bytes in one chunk. -/
theorem commit_binds_offsets_reversed
    : DescribeSame [{ offset := 1, data := [98] }, { offset := 0, data := [97] }]
        (whole [97, 98]) := by
  have accepted : verifyCommit (commitTo [97, 98])
      [{ offset := 1, data := [98] }, { offset := 0, data := [97] }] = .ok () :=
    commitTo_accepts (by simp [maxStreamChunks]) rfl
  have accepted' : verifyCommit (commitTo [97, 98]) (whole [97, 98]) = .ok () :=
    commitTo_accepts (by simp [whole, maxStreamChunks]) rfl
  refine ((commit_binds_offsets_iff accepted accepted').mpr ⟨?_, whole_gapless _⟩).1
  simp [Gapless, dataChunks, sortChunks, Laid, extent]

/-- One commitment accepts a byte at offset zero and the same byte at offset five. -/
theorem moved_byte_accepted
    : verifyCommit (commitTo [97]) [{ offset := 0, data := [97] }] = .ok ()
      ∧ verifyCommit (commitTo [97]) [{ offset := 5, data := [97] }] = .ok ()
      ∧ ¬ DescribeSame [{ offset := 0, data := [97] }] [{ offset := 5, data := [97] }] := by
  refine ⟨commitTo_accepts (by simp [maxStreamChunks]) rfl,
    commitTo_accepts (by simp [maxStreamChunks]) rfl, ?_⟩
  intro same
  rcases same with same | collide
  · have covers : Covers [{ offset := 0, data := [97] }] 0 97 :=
      ⟨_, List.mem_singleton_self _, 0, rfl, rfl⟩
    obtain ⟨c, member, i, -, place⟩ := (same 0 97).mp covers
    obtain rfl := List.mem_singleton.mp member
    simp only at place
    omega
  · obtain ⟨x, left, y, right, different, -⟩ := collide
    simp only [streamBytes, sortChunks] at left right
    simp_all

end Naalp.Streams
