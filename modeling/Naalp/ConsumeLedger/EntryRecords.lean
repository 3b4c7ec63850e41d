import Naalp.ConsumeLedger.Replay
import Naalp.Go.Approval
import Naalp.Implementations.Codec

/-! Which records the entry parsers accept.
The Python parser takes exactly the encoded entries; the Go parser also takes a record that lacks
a field.
-/

namespace Naalp.ConsumeLedger

open Naalp.Foundation
open Naalp.Python
open Naalp.Python.Cbor
open Naalp.Python.Approval

/-- The pairs of an entry map in key order, for the fields that are present. -/
def fieldPairs (fields : EntryFields) : List (Value × Value) :=
  (fields.seq.map fun seq => (.u 1, .u seq)).toList
  ++ (fields.prev.map fun prev => (.u 2, .b prev)).toList
  ++ (fields.aid.map fun aid => (.u 3, .b aid)).toList
  ++ (fields.consumer.map fun consumer => (.u 4, .t consumer)).toList

/-- The octets of the entry map with the fields that are present. -/
def fieldRecord (fields : EntryFields) : Bytes := encoding (.m (fieldPairs fields))

/-- What the loop over the pairs of a record can take, by the key of the pair. -/
theorem readEntryField_eq_ok {fields next : EntryFields} {pair : Value × Value}
    : readEntryField fields pair = .ok next
      ↔ (∃ seq, pair = (.u 1, .u seq) ∧ next = { fields with seq := some seq })
        ∨ (∃ prev, pair = (.u 2, .b prev) ∧ next = { fields with prev := some prev })
        ∨ (∃ aid, pair = (.u 3, .b aid) ∧ next = { fields with aid := some aid })
        ∨ (∃ consumer, pair = (.u 4, .t consumer)
          ∧ next = { fields with consumer := some consumer }) := by
  unfold readEntryField
  split
  · simp [eq_comm]
  · simp [eq_comm]
  · simp [eq_comm]
  · simp [eq_comm]
  · simp only [throw_eq_error, reduceCtorEq, Prod.mk.injEq, Value.u.injEq, false_iff]
    grind
  · simp only [throw_eq_error, reduceCtorEq, false_iff]
    grind

/-- The keys of the fields that are present, below a bound, rule out the others. -/
theorem fieldPairs_below {fields : EntryFields} {bound : Bytes}
    (below : ∀ pair ∈ fieldPairs fields, encodedKey pair < bound)
    : (¬ [1] < bound → fields.seq = none) ∧ (¬ [2] < bound → fields.prev = none)
      ∧ (¬ [3] < bound → fields.aid = none) ∧ (¬ [4] < bound → fields.consumer = none) := by
  refine ⟨?_, ?_, ?_, ?_⟩
  all_goals
    intro beyond
    apply Option.eq_none_iff_forall_ne_some.mpr
    intro value present
    apply beyond
  · exact below (.u 1, .u value) (by simp [fieldPairs, present])
  · exact below (.u 2, .b value) (by simp [fieldPairs, present])
  · exact below (.u 3, .b value) (by simp [fieldPairs, present])
  · exact below (.u 4, .t value) (by simp [fieldPairs, present])

/-- Pairs with ascending keys that the loop accepts are the pairs of the fields it read.
Witness: an invariant of the pairs seen; a key above those seen comes after them all.
-/
theorem eq_fieldPairs_of_read {pairs : List (Value × Value)} {fields : EntryFields}
    (ascending : (pairs.map encodedKey).Pairwise (· < ·))
    (read : pairs.foldlM readEntryField {} = .ok fields)
    : pairs = fieldPairs fields := by
  have invariant : ∀ seen pair rest (state next : EntryFields), pairs = seen ++ pair :: rest
      → seen = fieldPairs state → readEntryField state pair = .ok next
      → seen ++ [pair] = fieldPairs next := by
    intro seen pair rest state next split same stepped
    have below : ∀ earlier ∈ fieldPairs state, encodedKey earlier < encodedKey pair := by
      intro earlier member
      rw [split, List.map_append, List.map_cons, List.pairwise_append] at ascending
      exact ascending.2.2 _ (List.mem_map_of_mem (same ▸ member)) _ List.mem_cons_self
    rw [same]
    rcases readEntryField_eq_ok.mp stepped with
      ⟨seq, rfl, rfl⟩ | ⟨prev, rfl, rfl⟩ | ⟨aid, rfl, rfl⟩ | ⟨consumer, rfl, rfl⟩
    · obtain ⟨noSeq, noPrev, noAid, noConsumer⟩ := @fieldPairs_below state [1] below
      simp [fieldPairs, noSeq (by decide), noPrev (by decide), noAid (by decide),
        noConsumer (by decide)]
    · obtain ⟨-, noPrev, noAid, noConsumer⟩ := @fieldPairs_below state [2] below
      simp [fieldPairs, noPrev (by decide), noAid (by decide), noConsumer (by decide)]
    · obtain ⟨-, -, noAid, noConsumer⟩ := @fieldPairs_below state [3] below
      simp [fieldPairs, noAid (by decide), noConsumer (by decide)]
    · obtain ⟨-, -, -, noConsumer⟩ := @fieldPairs_below state [4] below
      simp [fieldPairs, noConsumer (by decide)]
  exact @foldlM_invariant _ _ _ _ _ _ _ (fun seen state => seen = fieldPairs state) invariant rfl
    read

theorem read_fieldPairs (fields : EntryFields)
    : (fieldPairs fields).foldlM readEntryField {} = .ok fields := by
  obtain ⟨seq, prev, aid, consumer⟩ := fields
  cases seq <;> cases prev <;> cases aid <;> cases consumer <;> rfl

theorem ascending_fieldPairs (fields : EntryFields)
    : ((fieldPairs fields).map encodedKey).Pairwise (· < ·) := by
  have keys : ((fieldPairs fields).map encodedKey).Sublist [[1], [2], [3], [4]] := by
    obtain ⟨seq, prev, aid, consumer⟩ := fields
    cases seq <;> cases prev <;> cases aid <;> cases consumer <;> exact of_decide_eq_true rfl
  exact List.Pairwise.sublist keys (by decide)

theorem mem_fieldPairs {fields : EntryFields} {pair : Value × Value}
    : pair ∈ fieldPairs fields
      ↔ (∃ seq, fields.seq = some seq ∧ (.u 1, .u seq) = pair)
        ∨ (∃ prev, fields.prev = some prev ∧ (.u 2, .b prev) = pair)
        ∨ (∃ aid, fields.aid = some aid ∧ (.u 3, .b aid) = pair)
        ∨ (∃ consumer, fields.consumer = some consumer ∧ (.u 4, .t consumer) = pair) := by
  simp only [fieldPairs, List.mem_append, Option.mem_toList, Option.map_eq_some_iff, or_assoc]

/-- An entry map is canonical as soon as its fields can be encoded. -/
theorem canonical_fieldPairs {fields : EntryFields} (encodable : Encodable (.m (fieldPairs fields)))
    : Canonical unboundedDepth (.m (fieldPairs fields)) := by
  refine canonical_of_leaves encodable (ascending_fieldPairs fields) ?_
  intro pair member
  rcases mem_fieldPairs.mp member with
    ⟨seq, -, rfl⟩ | ⟨prev, -, rfl⟩ | ⟨aid, -, rfl⟩ | ⟨consumer, -, rfl⟩
  · exact ⟨trivial, trivial⟩
  · exact ⟨trivial, trivial⟩
  · exact ⟨trivial, trivial⟩
  · exact ⟨trivial, trivial⟩

/-- The records that the loop of an entry parser reads are those of the fields it found. -/
theorem decode_fields_iff {record : Bytes} {fields : EntryFields}
    : (∃ pairs, decode record = .ok (.m pairs) ∧ pairs.foldlM readEntryField {} = .ok fields)
      ↔ Encodable (.m (fieldPairs fields)) ∧ record = fieldRecord fields := by
  constructor
  · intro read
    obtain ⟨pairs, decoded, loop⟩ := read
    obtain ⟨canonical, rfl⟩ := decode_eq_ok.mp decoded
    cases canonical.ascending with
    | m ordered _ _ =>
        obtain rfl := eq_fieldPairs_of_read ordered loop
        exact ⟨canonical.encodable, rfl⟩
  · intro written
    obtain ⟨encodable, rfl⟩ := written
    exact ⟨_, decode_eq_ok.mpr ⟨canonical_fieldPairs encodable, rfl⟩, read_fieldPairs fields⟩

/-- The fields of an entry, all present. -/
def allFields (e : LedgerEntry) : EntryFields :=
  { seq := some e.seq, prev := some e.prev, aid := some e.approvalId, consumer := some e.consumer }

/-- The entry that the fields make, with Go's zero value for an absent one. -/
def zeroFilled (fields : EntryFields) : LedgerEntry :=
  { seq := fields.seq.getD 0, prev := fields.prev.getD [], approvalId := fields.aid.getD [],
    consumer := fields.consumer.getD [] }

theorem fieldRecord_allFields (e : LedgerEntry) : fieldRecord (allFields e) = record e := rfl

theorem encodable_allFields {e : LedgerEntry}
    : Encodable (.m (fieldPairs (allFields e))) ↔ e.bytes = .ok (record e) :=
  Iff.rfl

/-- A field filled with a value that can be encoded is so if it is so where present. -/
theorem encodable_getD {α : Type} {mk : α → Value} {field : Option α} {zero : α}
    (zeroFits : Encodable (mk zero)) (fits : ∀ v, field = some v → Encodable (mk v))
    : Encodable (mk (field.getD zero)) := by
  cases field with
  | none => exact zeroFits
  | some v => exact fits v rfl

/-- An absent field is filled with a value that can be encoded. -/
theorem encodable_zeroFilled {fields : EntryFields}
    (encodable : Encodable (.m (fieldPairs fields)))
    : Encodable (.m (fieldPairs (allFields (zeroFilled fields)))) := by
  obtain ⟨-, members, -⟩ := encodable_m.mp encodable
  have noText : Encodable (.t []) := encodable_t.mpr ⟨[], rfl, by simp⟩
  refine encodable_m.mpr ⟨?_, ?_, nodup_of_ascending (ascending_fieldPairs _)⟩
  · simp [fieldPairs, allFields]
  · intro pair member
    rcases mem_fieldPairs.mp member with
      ⟨seq, found, rfl⟩ | ⟨prev, found, rfl⟩ | ⟨aid, found, rfl⟩ | ⟨consumer, found, rfl⟩
    all_goals
      obtain rfl := Option.some.inj found
      refine ⟨by simp [encodable_u], ?_⟩
    · refine @encodable_getD _ .u _ _ (by simp [encodable_u]) fun seq present => ?_
      exact (members (.u 1, .u seq) (by simp [fieldPairs, present])).2
    · refine @encodable_getD _ .b _ _ (by simp [encodable_b]) fun prev present => ?_
      exact (members (.u 2, .b prev) (by simp [fieldPairs, present])).2
    · refine @encodable_getD _ .b _ _ (by simp [encodable_b]) fun aid present => ?_
      exact (members (.u 3, .b aid) (by simp [fieldPairs, present])).2
    · refine @encodable_getD _ .t _ _ noText fun consumer present => ?_
      exact (members (.u 4, .t consumer) (by simp [fieldPairs, present])).2

theorem encodes_iff {e : LedgerEntry}
    : e.bytes = .ok (record e)
      ↔ (0 ≤ e.seq ∧ e.seq < 2 ^ 64) ∧ e.prev.length < 2 ^ 64 ∧ e.approvalId.length < 2 ^ 64
        ∧ ∃ text, e.consumer.encode = .ok text ∧ text.length < 2 ^ 64 := by
  have keys := nodup_of_ascending (ascending_fieldPairs (allFields e))
  rw [← encodable_allFields, encodable_m]
  simp [fieldPairs, allFields, encodable_u, encodable_b, encodable_t] at keys ⊢
  tauto

/-- A record is little longer than what its entry holds.
Witness: four keys of one octet, five heads of at most nine, and the parts themselves.
-/
theorem length_record_le {e : LedgerEntry} {text : Bytes} (encodes : e.bytes = .ok (record e))
    (consumer : e.consumer.encode = .ok text)
    : (record e).length ≤ 49 + e.prev.length + e.approvalId.length + text.length := by
  have canonical := canonical_fieldPairs (encodable_allFields.mpr encodes)
  obtain ⟨seqBound, prevBound, aidBound, -⟩ := encodes_iff.mp encodes
  have whole : record e
      = headBytes 5 4 ++ (fieldPairs (allFields e)).flatMap encodedPair :=
    @encoding_canonical_m (unboundedDepth - 1) _ canonical
  have keys : encoding (.u 1) = [1] ∧ encoding (.u 2) = [2] ∧ encoding (.u 3) = [3]
      ∧ encoding (.u 4) = [4] :=
    ⟨rfl, rfl, rfl, rfl⟩
  have seq := (encode_u_eq_ok.mp (encodable_u.mpr seqBound)).2.2
  have prev := (encode_b_eq_ok.mp (encodable_b.mpr prevBound)).2
  have aid := (encode_b_eq_ok.mp (encodable_b.mpr aidBound)).2
  obtain ⟨_, encoded, -, named⟩ := encode_t_eq_ok.mp
    (encodable_t.mpr (encodes_iff.mp encodes).2.2.2)
  obtain rfl := Except.ok.inj (consumer.symm.trans encoded)
  have mapHead := length_headBytes_le 5 4
  have seqHead := length_headBytes_le 0 e.seq.toNat
  have prevHead := length_headBytes_le 2 e.prev.length
  have aidHead := length_headBytes_le 2 e.approvalId.length
  have textHead := length_headBytes_le 3 text.length
  simp only [whole, fieldPairs, allFields, Option.map_some, Option.toList_some, List.cons_append,
    List.nil_append, List.flatMap_cons, List.flatMap_nil, encodedPair, keys, seq, prev, aid, named,
    List.length_append, List.length_cons, List.length_nil]
  omega

/-- The Python parser accepts exactly the encoded entries. -/
theorem parseEntry_eq_ok {octets : Bytes} {e : LedgerEntry}
    : parseEntry octets = .ok e ↔ e.bytes = .ok (record e) ∧ octets = record e := by
  rw [← encodable_allFields, ← fieldRecord_allFields, ← decode_fields_iff]
  unfold parseEntry
  constructor
  · intro parsed
    obtain ⟨v, decoded, parsed⟩ := bind_eq_ok.mp parsed
    split at parsed
    · rename_i pairs
      obtain ⟨fields, loop, parsed⟩ := bind_eq_ok.mp parsed
      split at parsed
      · obtain rfl := Except.ok.inj parsed
        exact ⟨pairs, decoded, loop⟩
      · cases parsed
    · cases parsed
  · intro parsed
    obtain ⟨pairs, decoded, loop⟩ := parsed
    simp only [decoded, ok_bind, loop]
    rfl

theorem goReadEntryPair_eq_ok {e next : LedgerEntry} {pair : Value × Value}
    : Go.Approval.readEntryPair e pair = .ok next
      ↔ (∃ seq, pair = (.u 1, .u seq) ∧ next = { e with seq := seq })
        ∨ (∃ prev, pair = (.u 2, .b prev) ∧ next = { e with prev := prev })
        ∨ (∃ aid, pair = (.u 3, .b aid) ∧ next = { e with approvalId := aid })
        ∨ (∃ consumer, pair = (.u 4, .t consumer) ∧ next = { e with consumer := consumer }) := by
  unfold Go.Approval.readEntryPair
  split <;>
    simp only [throw_eq_error, pure_eq_ok, Except.ok.injEq, reduceCtorEq, Prod.mk.injEq,
      Value.u.injEq, Value.b.injEq, Value.t.injEq, false_iff] <;>
    grind

/-- The Go loop assigns what the Python loop records, by induction over the pairs. -/
theorem goRead_eq_ok {pairs : List (Value × Value)} {start : EntryFields} {e : LedgerEntry}
    : pairs.foldlM Go.Approval.readEntryPair (zeroFilled start) = .ok e
      ↔ ∃ fields, pairs.foldlM readEntryField start = .ok fields ∧ e = zeroFilled fields := by
  induction pairs generalizing start with
  | nil => simp [eq_comm]
  | cons pair rest ih =>
      have round : ∀ next, Go.Approval.readEntryPair (zeroFilled start) pair = .ok next
          ↔ ∃ fields, readEntryField start pair = .ok fields ∧ next = zeroFilled fields := by
        intro next
        rw [goReadEntryPair_eq_ok]
        constructor
        · intro assigned
          rcases assigned with ⟨seq, rfl, rfl⟩ | ⟨prev, rfl, rfl⟩ | ⟨aid, rfl, rfl⟩
            | ⟨consumer, rfl, rfl⟩
          · exact ⟨{ start with seq := some seq }, rfl, rfl⟩
          · exact ⟨{ start with prev := some prev }, rfl, rfl⟩
          · exact ⟨{ start with aid := some aid }, rfl, rfl⟩
          · exact ⟨{ start with consumer := some consumer }, rfl, rfl⟩
        · intro recorded
          obtain ⟨fields, recorded, rfl⟩ := recorded
          rcases readEntryField_eq_ok.mp recorded with ⟨seq, rfl, rfl⟩ | ⟨prev, rfl, rfl⟩
            | ⟨aid, rfl, rfl⟩ | ⟨consumer, rfl, rfl⟩
          · exact .inl ⟨seq, rfl, rfl⟩
          · exact .inr (.inl ⟨prev, rfl, rfl⟩)
          · exact .inr (.inr (.inl ⟨aid, rfl, rfl⟩))
          · exact .inr (.inr (.inr ⟨consumer, rfl, rfl⟩))
      simp only [List.foldlM_cons, bind_eq_ok, round]
      constructor
      · intro ran
        obtain ⟨_, ⟨fields, first, rfl⟩, later⟩ := ran
        obtain ⟨last, loop, rfl⟩ := ih.mp later
        exact ⟨last, ⟨fields, first, loop⟩, rfl⟩
      · intro ran
        obtain ⟨last, ⟨fields, first, loop⟩, rfl⟩ := ran
        exact ⟨_, ⟨fields, first, rfl⟩, ih.mpr ⟨last, loop, rfl⟩⟩

/-- A record holds no negative integer that Go or Rust could not read. -/
theorem nintsFit_fieldPairs (fields : EntryFields)
    : Implementations.NintsFit (.m (fieldPairs fields)) := by
  apply Implementations.nintsFit_m.mpr
  intro pair member
  rcases mem_fieldPairs.mp member with
    ⟨seq, -, rfl⟩ | ⟨prev, -, rfl⟩ | ⟨aid, -, rfl⟩ | ⟨consumer, -, rfl⟩
  · exact ⟨.u 1, .u seq⟩
  · exact ⟨.u 2, .b prev⟩
  · exact ⟨.u 3, .b aid⟩
  · exact ⟨.u 4, .t consumer⟩

/-- The Go parser accepts the record of any subset of the fields. -/
theorem goParseEntry_eq_ok {octets : Bytes} {e : LedgerEntry}
    : Go.Approval.parseEntry octets = .ok e
      ↔ ∃ fields, (Encodable (.m (fieldPairs fields)) ∧ octets = fieldRecord fields)
        ∧ e = zeroFilled fields := by
  unfold Go.Approval.parseEntry
  constructor
  · intro parsed
    obtain ⟨v, decoded, parsed⟩ := bind_eq_ok.mp parsed
    split at parsed
    · rename_i pairs
      have accepted := (Implementations.goDecode_eq_ok.mp (mapError_eq_ok.mp decoded)).1
      obtain ⟨fields, loop, rfl⟩ := (@goRead_eq_ok pairs {} e).mp parsed
      exact ⟨fields, decode_fields_iff.mp ⟨pairs, accepted, loop⟩, rfl⟩
    · cases parsed
  · intro parsed
    obtain ⟨fields, ⟨encodable, rfl⟩, rfl⟩ := parsed
    have decoded := decode_eq_ok.mpr ⟨canonical_fieldPairs encodable, rfl⟩
    have accepted := Implementations.goDecode_eq_ok.mpr ⟨decoded, nintsFit_fieldPairs fields⟩
    have loop := (@goRead_eq_ok (fieldPairs fields) {} _).mpr ⟨fields, read_fieldPairs fields, rfl⟩
    unfold fieldRecord
    rw [accepted]
    exact loop

/-- The Go encoder writes an entry as the Python encoder does. -/
theorem goEntryBytes_eq {e : LedgerEntry} (encodes : e.bytes = .ok (record e))
    : Go.Approval.entryBytes e = record e := by
  have written := Implementations.goEncode_of_encodable (encodable_allFields.mpr encodes)
  unfold Go.Approval.entryBytes
  rw [show Go.Cbor.encode (.m [(.u 1, .u e.seq), (.u 2, .b e.prev), (.u 3, .b e.approvalId),
    (.u 4, .t e.consumer)]) = .ok (record e) from written]

/-- The record has none of its four fields missing. -/
def Complete (fields : EntryFields) : Prop :=
  fields.seq ≠ none ∧ fields.prev ≠ none ∧ fields.aid ≠ none ∧ fields.consumer ≠ none

theorem complete_iff {fields : EntryFields}
    : Complete fields ↔ fields = allFields (zeroFilled fields) := by
  obtain ⟨seq, prev, aid, consumer⟩ := fields
  cases seq <;> cases prev <;> cases aid <;> cases consumer <;>
    simp [Complete, allFields, zeroFilled]

/-- A record read by the Go parser is written back exactly when none of its fields is missing.
Witness: the octets of an entry map fix its fields.
-/
theorem goEntryBytes_zeroFilled_iff {fields : EntryFields}
    (encodable : Encodable (.m (fieldPairs fields)))
    : Go.Approval.entryBytes (zeroFilled fields) = fieldRecord fields ↔ Complete fields := by
  have filled := encodable_zeroFilled encodable
  rw [goEntryBytes_eq (encodable_allFields.mp filled), complete_iff, ← fieldRecord_allFields]
  constructor
  · intro same
    obtain ⟨pairs, decoded, loop⟩ := decode_fields_iff.mpr ⟨encodable, rfl⟩
    obtain ⟨others, decodedOther, loopOther⟩ := decode_fields_iff.mpr ⟨filled, same.symm⟩
    obtain ⟨rfl⟩ := Value.m.inj (Except.ok.inj (decoded.symm.trans decodedOther))
    exact Except.ok.inj (loop.symm.trans loopOther)
  · intro same
    rw [← same]

end Naalp.ConsumeLedger
