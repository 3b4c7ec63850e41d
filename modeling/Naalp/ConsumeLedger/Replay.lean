import Naalp.CanonicalEncoding.RoundTrip
import Naalp.Python.Approval

/-! Replaying a log of framed entries rebuilds the memory that the entries lead to.
The abstract state of a ledger is the list of its entries; `Chain` says which memory a list of
entries leads to.
-/

namespace Naalp.ConsumeLedger

open Naalp.Foundation
open Naalp.Python
open Naalp.Python.Cbor
open Naalp.Python.Approval

/-- The map whose encoding is an entry's record. -/
def entryValue (e : LedgerEntry) : Value :=
  .m [(.u 1, .u e.seq), (.u 2, .b e.prev), (.u 3, .b e.approvalId), (.u 4, .t e.consumer)]

def record (e : LedgerEntry) : Bytes := encoding (entryValue e)

/-- The length-framed record of an entry, as it stands in the log. -/
def framedRecord (e : LedgerEntry) : Bytes := toBigEndian 4 (record e).length ++ record e

/-- An entry that can be written: it encodes, to fewer than 2^32 octets. -/
structure Writable (e : LedgerEntry) : Prop where
  encodes : e.bytes = .ok (record e)
  short : (record e).length < 2 ^ 32

/-- A record is prepared exactly for a writable entry, framed as in the log. -/
theorem prepare_eq_ok {α : Type} {e : LedgerEntry} {result : α} {prepared : Prepared α}
    : prepare e result = .ok prepared
      ↔ Writable e ∧ prepared = ⟨e, record e, framedRecord e, result⟩ := by
  have bytes : ∀ octets, e.bytes = .ok octets ↔ e.bytes = .ok (record e) ∧ octets = record e :=
    fun octets => encode_eq_ok
  simp only [prepare, bind_eq_ok, pure_eq_ok, Except.ok.injEq]
  constructor
  · intro h
    obtain ⟨octets, encoded, size, sized, rfl⟩ := h
    obtain ⟨encodes, rfl⟩ := (bytes octets).mp encoded
    unfold intToBytes at sized
    split at sized
    · rename_i bound
      have short : (record e).length < 2 ^ 32 := by omega
      obtain rfl := Except.ok.inj sized
      exact ⟨⟨encodes, short⟩, by rw [Int.toNat_natCast]; rfl⟩
    · cases sized
  · intro h
    obtain ⟨writable, rfl⟩ := h
    refine ⟨record e, writable.encodes, toBigEndian 4 (record e).length, ?_, rfl⟩
    exact intToBytes_natCast 4 (by have := writable.short; omega)

/-- The keys of an entry are listed in canonical order, so decoding gives the map back. -/
theorem decode_record {e : LedgerEntry} (writable : Writable e)
    : decode (record e) = .ok (entryValue e) := by
  have within : depth (entryValue e) ≤ unboundedDepth := by
    simp [entryValue, depth, depthPairs, unboundedDepth]
  have ascending : MapsAscending (entryValue e) := by
    refine .m (show [[1], [2], [3], [4]].Pairwise (· < ·) by decide) ?_ ?_
    · simpa using ⟨.u 1, .u 2, .u 3, .u 4⟩
    · simpa using ⟨.u e.seq, .b e.prev, .b e.approvalId, .t e.consumer⟩
  exact decode_eq_ok.mpr ⟨⟨writable.encodes, ascending, within⟩, rfl⟩

theorem parseEntry_record {e : LedgerEntry} (writable : Writable e)
    : parseEntry (record e) = .ok e := by
  simp only [parseEntry, decode_record writable, entryValue]
  rfl

/-- Replay passes over the framed record of the entry that the memory expects. -/
theorem replayFrom_framedRecord {e : LedgerEntry} {mem : LedgerMemory} {rest : Bytes}
    (writable : Writable e) (seq : e.seq = mem.seq) (prev : e.prev = mem.head)
    : replayFrom (framedRecord e ++ rest) mem = replayFrom rest (mem.after e (record e)) := by
  have size : (toBigEndian 4 (record e).length).length = 4 := length_toBigEndian ..
  have read : ofBigEndian (toBigEndian 4 (record e).length) = (record e).length :=
    ofBigEndian_toBigEndian (by have := writable.short; omega)
  rw [replayFrom]
  simp only [framedRecord, List.append_assoc, List.take_left' size, List.drop_left' size, read,
    List.take_left, List.drop_left, parseEntry_record writable, List.append_eq_nil_iff]
  rw [dif_neg (by simp [← List.length_eq_zero_iff]), raiseIf_neg (by simp), raiseIf_neg (by simp)]
  simp [seq, prev]

/-- (Chain mem entries final) says that the entries, appended in turn, lead the ledger from
memory `mem` to memory `final`: each continues the sequence and the hash chain and spends an
id that was unspent.
-/
inductive Chain : LedgerMemory → List LedgerEntry → LedgerMemory → Prop where
  | nil (mem : LedgerMemory) : Chain mem [] mem
  | cons {mem final : LedgerMemory} {e : LedgerEntry} {rest : List LedgerEntry}
      (writable : Writable e) (seq : e.seq = mem.seq) (prev : e.prev = mem.head)
      (unspent : e.approvalId ∉ mem.consumed) (later : Chain (mem.after e (record e)) rest final)
      : Chain mem (e :: rest) final

/-- One more entry extends a chain, by chain induction. -/
theorem Chain.snoc {mem final : LedgerMemory} {entries : List LedgerEntry} {e : LedgerEntry}
    (chain : Chain mem entries final) (writable : Writable e) (seq : e.seq = final.seq)
    (prev : e.prev = final.head) (unspent : e.approvalId ∉ final.consumed)
    : Chain mem (entries ++ [e]) (final.after e (record e)) := by
  induction chain with
  | nil mem => exact .cons writable seq prev unspent (.nil _)
  | cons first firstSeq firstPrev firstUnspent _ ih =>
      exact .cons first firstSeq firstPrev firstUnspent (ih seq prev unspent)

/-- Replay follows a chain and goes on with what stands after it, by chain induction. -/
theorem Chain.replayFrom_append {mem final : LedgerMemory} {entries : List LedgerEntry}
    (chain : Chain mem entries final) (rest : Bytes)
    : replayFrom (entries.flatMap framedRecord ++ rest) mem = replayFrom rest final := by
  induction chain with
  | nil mem => rfl
  | cons writable seq prev _ _ ih =>
      rw [List.flatMap_cons, List.append_assoc, replayFrom_framedRecord writable seq prev, ih]

theorem replayFrom_nil (mem : LedgerMemory) : replayFrom [] mem = .ok mem := by
  rw [replayFrom]
  rfl

theorem Chain.replayFrom_eq {mem final : LedgerMemory} {entries : List LedgerEntry}
    (chain : Chain mem entries final)
    : replayFrom (entries.flatMap framedRecord) mem = .ok final := by
  rw [← List.append_nil (entries.flatMap framedRecord), chain.replayFrom_append,
    replayFrom_nil]

theorem Chain.replay_eq {final : LedgerMemory} {entries : List LedgerEntry}
    (chain : Chain .genesis entries final)
    : replay (entries.flatMap framedRecord) = .ok final :=
  chain.replayFrom_eq

/-- A chain numbers its entries consecutively, by chain induction. -/
theorem Chain.seq_eq {mem final : LedgerMemory} {entries : List LedgerEntry}
    (chain : Chain mem entries final)
    : (∀ (i : Nat) e, entries[i]? = some e → e.seq = mem.seq + i)
      ∧ final.seq = mem.seq + entries.length := by
  induction chain with
  | nil mem => simp
  | @cons mem final first rest _ seq _ _ _ ih =>
      obtain ⟨numbered, last⟩ := ih
      have next : (mem.after first (record first)).seq = mem.seq + 1 := rfl
      refine ⟨?_, by rw [last, next, List.length_cons]; omega⟩
      intro i e found
      cases i with
      | zero =>
          obtain rfl : first = e := by simpa using found
          simpa using seq
      | succ i =>
          have later := numbered i e (by simpa using found)
          rw [next] at later
          omega

/-- A chain links each entry to the digest of the record before it, by chain induction. -/
theorem Chain.prev_eq {mem final : LedgerMemory} {entries : List LedgerEntry}
    (chain : Chain mem entries final)
    : (∀ e, entries[0]? = some e → e.prev = mem.head)
      ∧ (∀ (i : Nat) e before, entries[i]? = some before → entries[i + 1]? = some e
        → e.prev = Sha2.sha384 (record before)) := by
  induction chain with
  | nil mem => simp
  | @cons mem final first rest _ _ prev _ _ ih =>
      obtain ⟨head, linked⟩ := ih
      refine ⟨?_, ?_⟩
      · intro e found
        obtain rfl : first = e := by simpa using found
        exact prev
      · intro i e before foundBefore found
        cases i with
        | zero =>
            obtain rfl : first = before := by simpa using foundBefore
            exact head e (by simpa using found)
        | succ i => exact linked i e before (by simpa using foundBefore) (by simpa using found)

/-- The final consumed ids are the initial ones and those of the entries, each spent once; by
chain induction.
-/
theorem Chain.consumed_eq {mem final : LedgerMemory} {entries : List LedgerEntry}
    (chain : Chain mem entries final)
    : (∀ aid, aid ∈ final.consumed ↔ aid ∈ mem.consumed ∨ aid ∈ entries.map (·.approvalId))
      ∧ (entries.map (·.approvalId)).Nodup
      ∧ ∀ e ∈ entries, e.approvalId ∉ mem.consumed := by
  induction chain with
  | nil mem => simp
  | @cons mem final first rest _ _ _ unspent _ ih =>
      obtain ⟨members, distinct, fresh⟩ := ih
      have inserted : ∀ aid, aid ∈ (mem.after first (record first)).consumed
          ↔ aid = first.approvalId ∨ aid ∈ mem.consumed :=
        fun aid => AList.mem_insert _
      refine ⟨?_, ?_, ?_⟩
      · intro aid
        rw [members, inserted, List.map_cons, List.mem_cons]
        tauto
      · refine List.nodup_cons.mpr ⟨?_, distinct⟩
        intro again
        obtain ⟨e, member, same⟩ := List.mem_map.mp again
        exact fresh e member ((inserted _).mpr (.inl same))
      · intro e member
        rcases List.mem_cons.mp member with rfl | later
        · exact unspent
        · intro spent
          exact fresh e later ((inserted _).mpr (.inr spent))

theorem Chain.writable {mem final : LedgerMemory} {entries : List LedgerEntry}
    (chain : Chain mem entries final)
    : ∀ e ∈ entries, Writable e := by
  induction chain with
  | nil mem => simp
  | cons writable _ _ _ _ ih => exact List.forall_mem_cons.mpr ⟨writable, ih⟩

end Naalp.ConsumeLedger
