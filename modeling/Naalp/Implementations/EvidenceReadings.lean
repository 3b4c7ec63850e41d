import Naalp.Bodies.EvidenceKeys
import Naalp.Implementations.Allocation
import Naalp.Stores.TornLogs

/-! The decision records that the Python and Rust implementations accept. Both read what a body
spells out; they differ on optional keys that are there with an empty value.
-/

namespace Naalp.Implementations

open Naalp.Foundation
open Naalp.Python
open Naalp.Python.Cbor
open Naalp.Python.Fields
open Naalp.Bodies
open Naalp.Names
open Naalp.Rust.EvidenceRecord (OrderingDisclosure TermDisposition DecisionRecord)

-----------------------------------------------------------------------------------------
-- Empty keys
-----------------------------------------------------------------------------------------

/-- No optional key of the record is there with an empty value. -/
structure NoEmptyKeys (r : DecisionRecord) : Prop where
  consume : r.consume ≠ some []
  boundary : r.ordering.boundary ≠ some []
  mechanism : r.ordering.mechanism ≠ some []
  relation : r.ordering.relation ≠ some []
  terms : r.terms ≠ some []
  sources : ∀ term ∈ r.terms.getD [], term.2.source ≠ some []
  enforcement : r.enforcement ≠ some 0

/-- The record of the Python reader with its empty fields absent. -/
def spellOut (d : Gateway.DecisionRecord) : DecisionRecord where
  action := d.action
  governing := d.governing
  consume := unlessEmpty (some d.consume)
  outcome := d.outcome
  ordering :=
    ⟨d.ordering.basis, unlessEmpty (some d.ordering.boundary),
      unlessEmpty (some d.ordering.mechanism), unlessEmpty (some d.ordering.relation)⟩
  terms :=
    unlessEmpty (some (d.terms.map
      (Prod.map id fun td => ⟨td.kind, unlessEmpty (some td.source)⟩)))
  enforcement := unlessZero (some d.enforcement)

section EmptyKeys

variable {r : DecisionRecord}

theorem unlessEmpty_flat {α : Type} {spelled : Option (List α)}
    : unlessEmpty (some (spelled.getD [])) = unlessEmpty spelled := by
  cases spelled <;> rfl

theorem unlessZero_flat {spelled : Option Int}
    : unlessZero (some (spelled.getD 0)) = unlessZero spelled := by
  cases spelled <;> rfl

theorem unlessZero_eq_self {spelled : Option Int}
    : unlessZero spelled = spelled ↔ spelled ≠ some 0 := by
  cases spelled with
  | none => simp [unlessZero]
  | some code => by_cases zero : code = 0 <;> simp [zero]

/-- What Python keeps of a record is its plain form. -/
theorem spellOut_flat : spellOut (flatRecord r) = plainRecord r := by
  obtain ⟨action, governing, consume, outcome, ordering, terms, enforcement⟩ := r
  have termsKept : unlessEmpty (some ((flatTerms terms).map
      (Prod.map id fun td => (⟨td.kind, unlessEmpty (some td.source)⟩ : TermDisposition))))
      = plainTerms terms := by
    have each : (Prod.map id fun td => (⟨td.kind, unlessEmpty (some td.source)⟩ : TermDisposition))
        ∘ Prod.map (id : Int → Int) flatTerm = Prod.map id plainTerm := by
      funext ⟨k, td⟩
      simp [flatTerm, plainTerm, unlessEmpty_flat]
    rw [flatTerms, List.map_map, each, plainTerms, ← unlessEmpty_flat]
    cases terms <;> rfl
  simp only [spellOut, flatRecord, plainRecord, flatOrdering, plainOrdering, unlessEmpty_flat,
    unlessZero_flat, termsKept]

/-- Terms are unchanged by leaving out what is empty exactly when nothing in them is. -/
theorem plainTerms_eq_self {terms : Option (List (Int × TermDisposition))}
    : plainTerms terms = terms
      ↔ terms ≠ some [] ∧ ∀ term ∈ terms.getD [], term.2.source ≠ some [] := by
  have plain (td : TermDisposition) : plainTerm td = td ↔ td.source ≠ some [] := by
    obtain ⟨kind, source⟩ := td
    simp [plainTerm, unlessEmpty_eq_self]
  cases terms with
  | none => simp [plainTerms, unlessEmpty]
  | some listed =>
      cases listed with
      | nil => simp [plainTerms, unlessEmpty]
      | cons first rest =>
          have kept : plainTerms (some (first :: rest))
              = some ((first :: rest).map (Prod.map id plainTerm)) := rfl
          have each := @List.map_inj_left _ _ (first :: rest) (Prod.map id plainTerm) id
          rw [List.map_id] at each
          rw [kept, Option.some.injEq, each]
          simp [Prod.ext_iff, plain]

/-- A record is unchanged exactly when it has nothing empty under an optional key. -/
theorem plainRecord_eq_self : plainRecord r = r ↔ NoEmptyKeys r := by
  obtain ⟨action, governing, consume, outcome, ⟨basis, boundary, mechanism, relation⟩, terms,
    enforcement⟩ := r
  simp only [plainRecord, plainOrdering, DecisionRecord.mk.injEq, OrderingDisclosure.mk.injEq,
    true_and, unlessEmpty_eq_self, plainTerms_eq_self, unlessZero_eq_self]
  constructor
  · rintro ⟨consumed, ⟨bounded, sequenced, related⟩, ⟨listed, sourced⟩, enforced⟩
    exact ⟨consumed, bounded, sequenced, related, listed, sourced, enforced⟩
  · intro none
    exact ⟨none.consume, ⟨none.boundary, none.mechanism, none.relation⟩, ⟨none.terms, none.sources⟩,
      none.enforcement⟩

end EmptyKeys

-----------------------------------------------------------------------------------------
-- Accepted records
-----------------------------------------------------------------------------------------

/-- The Python parser and its validation accept the octets as the record. -/
def PythonAccepts (b : Bytes) (d : Gateway.DecisionRecord) : Prop :=
  Gateway.parseDecisionRecord b = .ok d ∧ Gateway.validateDecisionRecord d = .ok ()

section Accepted

variable {valueSize : Nat} {b : Bytes} {m : List (Value × Value)} {r : DecisionRecord}

theorem spelled_once {r' : DecisionRecord} (spelled : SpellsRecord m r)
    (spelled' : SpellsRecord m r')
    : r = r' := by
  rw [spellsRecord_iff] at spelled spelled'
  obtain ⟨action, governing, consume, outcome, ordering, terms, enforcement⟩ := r
  obtain ⟨action', governing', consume', outcome', ordering', terms', enforcement'⟩ := r'
  simp only at spelled spelled'
  grind

theorem pythonAccepts_iff {d : Gateway.DecisionRecord}
    : PythonAccepts b d
      ↔ ∃ m r, decode b = .ok (.m m) ∧ SpellsRecord m r ∧ FitsRecord (plainRecord r)
        ∧ flatRecord r = d := by
  rw [PythonAccepts, parseDecisionRecord_eq_ok]
  constructor
  · rintro ⟨⟨m, r, decoded, spelled, rfl⟩, valid⟩
    exact ⟨m, r, decoded, spelled, validateDecisionRecord_flat.mp valid, rfl⟩
  · rintro ⟨m, r, decoded, spelled, fits, rfl⟩
    exact ⟨⟨m, r, decoded, spelled, rfl⟩, validateDecisionRecord_flat.mpr fits⟩

theorem rustAccepts_iff (memory : valueSize * b.length ≤ Rust.Cbor.isizeMax)
    : Rust.EvidenceRecord.parseDecisionRecord valueSize b = .ok r
      ↔ ∃ m, decode b = .ok (.m m) ∧ NintsFit (.m m) ∧ SpellsRecord m r ∧ FitsRecord r := by
  have decodes (v : Value)
      : Rust.Cbor.decode valueSize b = .ok v ↔ decode b = .ok v ∧ NintsFit v :=
    (Native.Cbor.rustDecodeBounded_eq_ok memory (Nat.le_refl b.length)).trans goDecode_eq_ok
  simp only [rustParseDecisionRecord_eq_ok, decodes, and_assoc]

-----------------------------------------------------------------------------------------
-- Records that are written back
-----------------------------------------------------------------------------------------

theorem encodable_of_decoded {v : Value} (decoded : Decoded v) : Encodable v := by
  obtain ⟨levels, canonical⟩ := decoded
  exact canonical.encodable

/-- The map of filled slots can be encoded when its members can; its keys are different. -/
theorem encodable_filled {slots : List (Int × Option Value)}
    (few : slots.length < 2 ^ 64) (keys : AscendingKeys (slots.map Prod.fst))
    (numbers : ∀ s ∈ slots, Encodable (.u s.1))
    (members : ∀ s ∈ slots, ∀ v, s.2 = some v → Encodable v)
    : Encodable (.m (filled slots)) := by
  have short : (filled slots).length ≤ slots.length := by
    have sublist := (@filled_keys slots).length_le
    simpa using sublist
  refine encodable_m.mpr ⟨by omega, ?_, nodup_of_ascending (filled_ascending keys)⟩
  intro pair member
  obtain ⟨s, inside, v, has, rfl⟩ := mem_filled.mp member
  exact ⟨numbers s inside, members s inside v has⟩

/-- An optional octet string that was read is encodable. -/
theorem encodable_unlessEmpty {k : Int} {spelled : Option Bytes} (decoded : Decoded (.m m))
    (lookup : field k m = spelled.map .b) {v : Value}
    (written : (unlessEmpty spelled).map .b = some v)
    : Encodable v := by
  obtain ⟨octets, kept, rfl⟩ := Option.map_eq_some_iff.mp written
  obtain ⟨rfl, -⟩ := Option.filter_eq_some_iff.mp kept
  exact encodable_of_decoded (decoded_field decoded lookup)

/-- A disclosure that was read can be written back. -/
theorem encodable_ordering {v : Value} {o : OrderingDisclosure} (decoded : Decoded v)
    (spelled : SpellsOrdering v o)
    : Encodable (flatOrdering o).toCbor := by
  cases v with
  | m pairs =>
      obtain ⟨first, second, third, fourth⟩ := spelled
      rw [toCbor_flatOrdering]
      apply encodable_filled (by simp [orderingSlots]) (orderingSlots_ascending _)
        (by simp [orderingSlots, encodable_u])
      simp only [orderingSlots, plainOrdering, List.forall_mem_cons, Option.some.injEq, forall_eq']
      refine ⟨encodable_of_decoded (decoded_field decoded first), ?_, ?_, ?_,
        List.forall_mem_nil _⟩
      · exact fun v => encodable_unlessEmpty decoded second
      · exact fun v => encodable_unlessEmpty decoded third
      · exact fun v => encodable_unlessEmpty decoded fourth
  | _ => exact spelled.elim

/-- So can a term. -/
theorem encodable_term {v : Value} {td : TermDisposition} (decoded : Decoded v)
    (spelled : SpellsTerm v td)
    : Encodable (flatTerm td).toCbor := by
  cases v with
  | m pairs =>
      obtain ⟨first, second⟩ := spelled
      rw [toCbor_flatTerm]
      apply encodable_filled (by simp [termSlots]) (termSlots_ascending _)
        (by simp [termSlots, encodable_u])
      simp only [termSlots, plainTerm, List.forall_mem_cons, Option.some.injEq, forall_eq']
      refine ⟨encodable_of_decoded (decoded_field decoded first), ?_, List.forall_mem_nil _⟩
      exact fun v => encodable_unlessEmpty decoded second
  | _ => exact spelled.elim

/-- So can the terms, under the keys that they were read with.
Witness: the keys and values were decoded, and leaving empty strings out shortens none of them.
-/
theorem encodable_terms {terms : Option (List (Int × TermDisposition))} (decoded : Decoded (.m m))
    (spelled : SpellsTerms (field 6 m) terms) {v : Value} (written : termsSlot terms = some v)
    : Encodable v := by
  have ordered := (termsSlot_inOrder decoded spelled v written).ascending
  obtain ⟨flat, kept, rfl⟩ := Option.map_eq_some_iff.mp written
  obtain ⟨same, nonempty⟩ := Option.filter_eq_some_iff.mp kept
  obtain rfl := Option.some.inj same
  cases present : field 6 m with
  | none =>
      rw [present] at spelled
      obtain rfl : terms = none := spelled
      cases nonempty
  | some v =>
      rw [present] at spelled
      cases v with
      | m entries =>
          obtain ⟨listed, rfl, entriesSpelled⟩ := spelled
          have inside := decoded_field decoded present
          obtain ⟨few, encodable, -⟩ := encodable_m.mp (encodable_of_decoded inside)
          refine encodable_m.mpr ⟨?_, ?_, ?_⟩
          · have sameLength := entriesSpelled.length_eq
            simpa [flatTerms, sameLength] using few
          · intro pair member
            obtain ⟨term, flat, rfl⟩ := List.mem_map.mp member
            obtain ⟨term, listed, rfl⟩ := List.mem_map.mp flat
            obtain ⟨entry, member, keyed, body⟩ := exists_of_mem_right entriesSpelled listed
            refine ⟨keyed ▸ (encodable entry member).1, ?_⟩
            exact encodable_term ((decoded_m inside).2 entry member) body
          · cases ordered with
            | m ascending _ _ => exact nodup_of_ascending ascending
      | _ => exact spelled.elim

/-- A record that was read can be written back, field by field. -/
theorem encodable_record (decoded : Decoded (.m m)) (spelled : SpellsRecord m r)
    : Encodable (flatRecord r).toMap := by
  obtain ⟨disclosure, fifth, embedded⟩ := spelled.ordering
  have ascending : AscendingKeys ((recordSlots r).map Prod.fst) := by
    apply ascendingKeys_of_sublist
    simp [recordSlots]
  rw [record_toMap]
  apply encodable_filled (by simp [recordSlots]) ascending (by simp [recordSlots, encodable_u])
  simp only [recordSlots, List.forall_mem_cons, Option.some.injEq, forall_eq']
  refine ⟨encodable_of_decoded (decoded_field decoded spelled.action),
    encodable_of_decoded (decoded_field decoded spelled.governing), ?_,
    encodable_of_decoded (decoded_field decoded spelled.outcome),
    encodable_ordering (decoded_field decoded fifth) embedded, ?_, ?_, List.forall_mem_nil _⟩
  · exact fun v => encodable_unlessEmpty decoded spelled.consume
  · exact fun v => encodable_terms decoded spelled.terms
  · intro v written
    obtain ⟨code, kept, rfl⟩ := Option.map_eq_some_iff.mp written
    obtain ⟨same, -⟩ := Option.filter_eq_some_iff.mp kept
    have lookup := spelled.enforcement
    rw [same] at lookup
    exact encodable_of_decoded (decoded_field decoded lookup)

theorem somePair_eq {k : Int} {octets : Option Bytes}
    : Rust.EvidenceRecord.somePair k octets = slot k id (octets.map .b) := by
  cases octets <;> rfl

/-- Both implementations write the same map. -/
theorem toValue_plain : (plainRecord r).toValue = (flatRecord r).toMap := by
  have orderings (o : OrderingDisclosure)
      : (plainOrdering o).toValue = (flatOrdering o).toCbor := by
    rw [toCbor_flatOrdering]
    simp [OrderingDisclosure.toValue, somePair_eq, filled, orderingSlots]
  have dispositions (td : TermDisposition) : (plainTerm td).toValue = (flatTerm td).toCbor := by
    rw [toCbor_flatTerm]
    simp [TermDisposition.toValue, somePair_eq, filled, termSlots]
  have sixth : ((plainTerms r.terms).map fun terms =>
        (Value.u 6, Value.m (terms.map fun term => (.u term.1, term.2.toValue)))).toList
      = slot 6 id (termsSlot r.terms) := by
    cases r.terms with
    | none => rfl
    | some terms =>
        cases terms with
        | nil => rfl
        | cons first rest =>
            simp [plainTerms, termsSlot, flatTerms, unlessEmpty, Gateway.termsMap, dispositions,
              Option.filter, slot]
  have seventh : ((unlessZero r.enforcement).map fun e => (Value.u 7, Value.u e)).toList
      = slot 7 id ((unlessZero r.enforcement).map .u) := by
    cases unlessZero r.enforcement <;> rfl
  rw [record_toMap, DecisionRecord.toValue]
  simp only [plainRecord, somePair_eq, sixth, seventh, orderings]
  simp [filled, recordSlots]

theorem written_alike (decoded : Decoded (.m m)) (spelled : SpellsRecord m r)
    : ∃ octets, (plainRecord r).bytes = .ok octets ∧ (flatRecord r).bytes = .ok octets := by
  have encodable := encodable_record decoded spelled
  refine ⟨encoding (flatRecord r).toMap, ?_, encodable⟩
  rw [DecisionRecord.bytes, toValue_plain, Stores.rustEncode_of_encodable encodable]

end Accepted

-----------------------------------------------------------------------------------------
-- Agreement
-----------------------------------------------------------------------------------------

/-- Both implementations accept the octets or both refuse them, as the same record, which they write
back to the same octets.
-/
structure ReadAlike (valueSize : Nat) (b : Bytes) : Prop where
  records (r : DecisionRecord)
    : Rust.EvidenceRecord.parseDecisionRecord valueSize b = .ok r
      ↔ ∃ d, PythonAccepts b d ∧ spellOut d = r
  octets {r : DecisionRecord} {d : Gateway.DecisionRecord}
    : Rust.EvidenceRecord.parseDecisionRecord valueSize b = .ok r → PythonAccepts b d
      → ∃ octets, r.bytes = .ok octets ∧ d.bytes = .ok octets

/-- The implementations agree exactly when the body spells out no record, or one without empty
optional keys and with 64-bit negative integers, or one that breaks the rules in both readings.
Witness: each implementation accepts what spells a fitting record, Python without its empty
strings and Rust within 64 bits; the two accept alike exactly where these conditions do not
differ.
-/
theorem readings_alike_iff {valueSize : Nat} {b : Bytes}
    (memory : valueSize * b.length ≤ Rust.Cbor.isizeMax)
    : ReadAlike valueSize b
      ↔ ∀ m r, decode b = .ok (.m m) → SpellsRecord m r
        → (NintsFit (.m m) ∧ NoEmptyKeys r)
          ∨ (¬ FitsRecord (plainRecord r) ∧ ¬ (NintsFit (.m m) ∧ FitsRecord r)) := by
  constructor
  · intro alike m r decoded spelled
    by_cases fits : FitsRecord (plainRecord r)
    · have accepted : PythonAccepts b (flatRecord r) :=
        pythonAccepts_iff.mpr ⟨m, r, decoded, spelled, fits, rfl⟩
      have rust := (alike.records _).mpr ⟨_, accepted, spellOut_flat⟩
      obtain ⟨m', decoded', nints, spelled', -⟩ := (rustAccepts_iff memory).mp rust
      obtain rfl := Value.m.inj (Except.ok.inj (decoded.symm.trans decoded'))
      exact .inl ⟨nints, plainRecord_eq_self.mp (spelled_once spelled' spelled)⟩
    · refine .inr ⟨fits, ?_⟩
      rintro ⟨nints, rustFits⟩
      have rust := (rustAccepts_iff memory).mpr ⟨m, decoded, nints, spelled, rustFits⟩
      obtain ⟨d, accepted, -⟩ := (alike.records _).mp rust
      obtain ⟨m', r', decoded', spelled', fits', -⟩ := pythonAccepts_iff.mp accepted
      obtain rfl := Value.m.inj (Except.ok.inj (decoded.symm.trans decoded'))
      obtain rfl := spelled_once spelled spelled'
      exact fits fits'
  · intro rules
    have records (r : DecisionRecord)
        : Rust.EvidenceRecord.parseDecisionRecord valueSize b = .ok r
          ↔ ∃ d, PythonAccepts b d ∧ spellOut d = r := by
      rw [rustAccepts_iff memory]
      constructor
      · rintro ⟨m, decoded, nints, spelled, fits⟩
        rcases rules m r decoded spelled with ⟨-, none⟩ | ⟨-, unfit⟩
        · have plain := plainRecord_eq_self.mpr none
          refine ⟨flatRecord r, pythonAccepts_iff.mpr ⟨m, r, decoded, spelled, ?_, rfl⟩, ?_⟩
          · rw [plain]
            exact fits
          · rw [spellOut_flat, plain]
        · exact (unfit ⟨nints, fits⟩).elim
      · rintro ⟨d, accepted, rfl⟩
        obtain ⟨m, r, decoded, spelled, fits, rfl⟩ := pythonAccepts_iff.mp accepted
        rcases rules m r decoded spelled with ⟨nints, none⟩ | ⟨unfit, -⟩
        · rw [spellOut_flat]
          refine ⟨m, decoded, nints, ?_, fits⟩
          rw [plainRecord_eq_self.mpr none]
          exact spelled
        · exact (unfit fits).elim
    refine ⟨records, ?_⟩
    intro r d rust accepted
    obtain ⟨m, spelledRecord, decoded, spelled, fits, rfl⟩ := pythonAccepts_iff.mp accepted
    have again := (records _).mpr ⟨_, accepted, spellOut_flat⟩
    obtain rfl := Except.ok.inj (rust.symm.trans again)
    exact written_alike (decoded_of_decode decoded) spelled

theorem readings_alike_empty_boundary
    : ReadAlike 32 emptyBoundaryRecord
      ↔ ∀ m r, decode emptyBoundaryRecord = .ok (.m m) → SpellsRecord m r
        → (NintsFit (.m m) ∧ NoEmptyKeys r)
          ∨ (¬ FitsRecord (plainRecord r) ∧ ¬ (NintsFit (.m m) ∧ FitsRecord r)) :=
  readings_alike_iff (by decide)

/-- The record whose ordering has an empty boundary is accepted in Python and not in Rust. -/
theorem empty_boundary_divides_readings
    : ¬ ∀ valueSize b, valueSize * b.length ≤ Rust.Cbor.isizeMax → ReadAlike valueSize b := by
  intro alike
  have memory : 32 * emptyBoundaryRecord.length ≤ Rust.Cbor.isizeMax := by decide
  have accepted : PythonAccepts emptyBoundaryRecord ⟨[], [], [], 0, noBoundary, [], 0⟩ := ⟨rfl, rfl⟩
  have rust := ((alike 32 emptyBoundaryRecord memory).records _).mpr ⟨_, accepted, rfl⟩
  obtain ⟨m, decoded, -, spelled, -⟩ := (rustAccepts_iff memory).mp rust
  have body : decode emptyBoundaryRecord
      = .ok (.m [(.u 1, .b []), (.u 2, .a []), (.u 4, .u 0), (.u 5, .m emptyBoundary)]) := rfl
  obtain rfl := Value.m.inj (Except.ok.inj (body.symm.trans decoded))
  obtain ⟨disclosure, fifth, embedded⟩ := spelled.ordering
  obtain rfl : Value.m emptyBoundary = disclosure := Option.some.inj fifth
  obtain ⟨-, second, -⟩ := embedded
  cases second

end Naalp.Implementations
