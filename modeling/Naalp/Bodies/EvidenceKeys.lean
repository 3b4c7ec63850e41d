import Naalp.Bodies.LenientParsers
import Naalp.Bodies.SpelledEvidence

/-! When evidence records are written back as they were read: an unknown key is lost, and a key that
is there with an empty value is taken for an absent one.
-/

namespace Naalp.Bodies

open Naalp.Foundation
open Naalp.Python
open Naalp.Python.Cbor
open Naalp.Python.Fields
open Naalp.Names
open Naalp.Signatures
open Naalp.Rust.EvidenceRecord (OrderingDisclosure TermDisposition DecisionRecord)

-----------------------------------------------------------------------------------------
-- Maps of slots
-----------------------------------------------------------------------------------------

/-- The pairs of the slots that are filled. -/
def filled (slots : List (Int × Option Value)) : List (Value × Value) :=
  slots.flatMap fun s => slot s.1 id s.2

/-- The encodings of the keys ascend. -/
def AscendingKeys (keys : List Int) : Prop := ((keys.map Value.u).map encoding).Pairwise (· < ·)

theorem ascendingKeys_of_sublist {keys : List Int} (few : keys.Sublist [1, 2, 3, 4, 5, 6, 7])
    : AscendingKeys keys := by
  have all : AscendingKeys [1, 2, 3, 4, 5, 6, 7] := by
    unfold AscendingKeys
    decide
  exact all.sublist ((few.map Value.u).map encoding)

section Filled

variable {slots : List (Int × Option Value)} {m : List (Value × Value)}

theorem mem_filled {pair : Value × Value}
    : pair ∈ filled slots ↔ ∃ s ∈ slots, ∃ v, s.2 = some v ∧ pair = (.u s.1, v) := by
  simp [filled]

theorem filled_keys
    : ((filled slots).map Prod.fst).Sublist ((slots.map Prod.fst).map Value.u) := by
  induction slots with
  | nil => exact .slnil
  | cons s rest ih =>
      have first : filled (s :: rest) = slot s.1 id s.2 ++ filled rest := rfl
      rw [first, List.map_append, List.map_cons, List.map_cons]
      exact slot_keys.append ih

theorem filled_ascending (keys : AscendingKeys (slots.map Prod.fst))
    : ((filled slots).map encodedKey).Pairwise (· < ·) :=
  ascending_of_keys filled_keys keys

/-- The slots fill up to a map exactly when it has no other keys and each slot has what the map has
under its key.
Witness: both are maps with ascending keys, so they are equal exactly when they have the same
entries.
-/
theorem filled_eq_iff (keys : AscendingKeys (slots.map Prod.fst))
    (ordered : (m.map encodedKey).Pairwise (· < ·))
    : filled slots = m ↔ KeysWithin (slots.map Prod.fst) m ∧ ∀ s ∈ slots, s.2 = field s.1 m := by
  have once : ∀ s ∈ slots, ∀ s' ∈ slots, s.1 = s'.1 → s = s' := by
    have distinct : (slots.map fun s => encoding (Value.u s.1)).Nodup := by
      have ascending := nodup_of_ascending keys
      rwa [List.map_map, List.map_map] at ascending
    intro s member s' member' same
    exact List.inj_on_of_nodup_map distinct member member' (by rw [same])
  constructor
  · rintro rfl
    constructor
    · intro pair member
      obtain ⟨s, inside, v, -, rfl⟩ := mem_filled.mp member
      exact ⟨s.1, List.mem_map_of_mem inside, rfl⟩
    · intro s inside
      apply Option.ext
      intro v
      rw [field_eq_some (nodup_of_ascending ordered), mem_filled]
      constructor
      · intro has
        exact ⟨s, inside, v, has, rfl⟩
      · rintro ⟨s', inside', v', has, same⟩
        obtain ⟨sameKey, rfl⟩ := Prod.mk.inj same
        rw [once s inside s' inside' (Value.u.inj sameKey)]
        exact has
  · rintro ⟨within, fields⟩
    refine eq_of_ascending (filled_ascending keys) ordered fun pair => ?_
    rw [mem_filled]
    constructor
    · rintro ⟨s, inside, v, has, rfl⟩
      rw [fields s inside] at has
      exact (field_eq_some (nodup_of_ascending ordered)).mp has
    · intro member
      obtain ⟨key, v⟩ := pair
      obtain ⟨k, known, rfl⟩ := within (key, v) member
      obtain ⟨s, inside, rfl⟩ := List.mem_map.mp known
      have has := (field_eq_some (nodup_of_ascending ordered)).mpr member
      exact ⟨s, inside, v, (fields s inside).trans has, rfl⟩

theorem filled_inOrder {levels : Nat} (keys : AscendingKeys (slots.map Prod.fst))
    (positive : 1 ≤ levels) (members : ∀ s ∈ slots, ∀ v, s.2 = some v → InOrder levels v)
    : InOrder (levels + 1) (.m (filled slots)) := by
  refine .m (filled_ascending keys) positive ?_
  intro pair member
  obtain ⟨s, inside, v, has, rfl⟩ := mem_filled.mp member
  exact ⟨trivial, members s inside v has⟩

end Filled

/-- What is in order is encoded to the octets that decode to it, and to no others. -/
theorem encode_iff_eq {levels : Nat} {v w : Value} {b : Bytes} (inOrder : InOrder levels w)
    (shallow : levels ≤ unboundedDepth) (decoded : decode b = .ok v)
    : encode w = .ok b ↔ w = v := by
  constructor
  · intro encoded
    exact Except.ok.inj ((inOrder.decode shallow encoded).symm.trans decoded)
  · rintro rfl
    obtain ⟨canonical, rfl⟩ := decode_eq_ok.mp decoded
    exact canonical.encodable

-----------------------------------------------------------------------------------------
-- Embedded groups
-----------------------------------------------------------------------------------------

section Octets

variable {pairs : List (Value × Value)} {k : Int} {spelled : Option Bytes}

theorem bstrPair_getD
    : Gateway.bstrPair k (spelled.getD []) = slot k id ((unlessEmpty spelled).map .b) := by
  cases spelled with
  | none => rfl
  | some octets => cases octets <;> rfl

/-- An optional octet string is kept unless it is there and empty. -/
theorem octets_kept_iff (lookup : field k pairs = spelled.map .b)
    : (unlessEmpty spelled).map .b = field k pairs ↔ field k pairs ≠ some (.b []) := by
  rw [lookup]
  cases spelled with
  | none => simp [unlessEmpty]
  | some octets => cases octets <;> simp [unlessEmpty]

end Octets

/-- An embedded ordering without unknown keys and without empty octet strings. -/
def ExactOrdering : Value → Prop
  | .m pairs => KeysWithin [1, 2, 3, 4] pairs ∧ ∀ k ∈ [2, 3, 4], field k pairs ≠ some (.b [])
  | _ => False

def ExactTerm : Value → Prop
  | .m pairs => KeysWithin [1, 2] pairs ∧ field 2 pairs ≠ some (.b [])
  | _ => False

/-- A map of such terms that is not empty. -/
def ExactTerms : Value → Prop
  | .m entries => entries ≠ [] ∧ ∀ entry ∈ entries, ExactTerm entry.2
  | _ => False

def orderingSlots (o : OrderingDisclosure) : List (Int × Option Value) :=
  [(1, some (.u o.basis)), (2, o.boundary.map .b), (3, o.mechanism.map .b), (4, o.relation.map .b)]

def termSlots (td : TermDisposition) : List (Int × Option Value) :=
  [(1, some (.u td.kind)), (2, td.source.map .b)]

section Groups

variable {v : Value}

theorem orderingSlots_ascending (o : OrderingDisclosure)
    : AscendingKeys ((orderingSlots o).map Prod.fst) := by
  apply ascendingKeys_of_sublist
  simp [orderingSlots]

theorem termSlots_ascending (td : TermDisposition)
    : AscendingKeys ((termSlots td).map Prod.fst) := by
  apply ascendingKeys_of_sublist
  simp [termSlots]

theorem toCbor_flatOrdering (o : OrderingDisclosure)
    : (flatOrdering o).toCbor = .m (filled (orderingSlots (plainOrdering o))) := by
  simp [Gateway.OrderingDisclosure.toCbor, flatOrdering, bstrPair_getD, filled, orderingSlots,
    plainOrdering]

theorem toCbor_flatTerm (td : TermDisposition)
    : (flatTerm td).toCbor = .m (filled (termSlots (plainTerm td))) := by
  simp [Gateway.TermDisposition.toCbor, flatTerm, bstrPair_getD, filled, termSlots, plainTerm]

/-- A disclosure is written back as it was read exactly when it has no unknown key and nothing
empty under an optional one.
-/
theorem ordering_exact_iff {o : OrderingDisclosure} (decoded : Decoded v)
    (spelled : SpellsOrdering v o)
    : (flatOrdering o).toCbor = v ↔ ExactOrdering v := by
  cases v with
  | m pairs =>
      obtain ⟨first, second, third, fourth⟩ := spelled
      rw [toCbor_flatOrdering, Value.m.injEq,
        filled_eq_iff (orderingSlots_ascending _) (decoded_m decoded).1, ExactOrdering]
      simp [orderingSlots, plainOrdering, octets_kept_iff second, octets_kept_iff third,
        octets_kept_iff fourth, first]
  | _ => exact spelled.elim

/-- The same of one term, whose source is its only optional key. -/
theorem term_exact_iff {td : TermDisposition} (decoded : Decoded v) (spelled : SpellsTerm v td)
    : (flatTerm td).toCbor = v ↔ ExactTerm v := by
  cases v with
  | m pairs =>
      obtain ⟨first, second⟩ := spelled
      rw [toCbor_flatTerm, Value.m.injEq,
        filled_eq_iff (termSlots_ascending _) (decoded_m decoded).1, ExactTerm]
      simp [termSlots, plainTerm, octets_kept_iff second, first]
  | _ => exact spelled.elim

/-- A disclosure is written with its keys in order. -/
theorem flatOrdering_inOrder (o : OrderingDisclosure) : InOrder 2 (flatOrdering o).toCbor := by
  rw [toCbor_flatOrdering]
  refine filled_inOrder (orderingSlots_ascending _) (Nat.le_refl 1) ?_
  simp only [orderingSlots, List.forall_mem_cons, Option.some.injEq, Option.map_eq_some_iff,
    forall_eq', forall_exists_index, and_imp]
  refine ⟨.leaf trivial (Nat.le_refl 1), ?_, ?_, ?_, nofun⟩
  all_goals
    rintro _ octets - rfl
    exact .leaf trivial (Nat.le_refl 1)

/-- So is a term. -/
theorem flatTerm_inOrder (td : TermDisposition) : InOrder 2 (flatTerm td).toCbor := by
  rw [toCbor_flatTerm]
  refine filled_inOrder (termSlots_ascending _) (Nat.le_refl 1) ?_
  simp only [termSlots, List.forall_mem_cons, Option.some.injEq, Option.map_eq_some_iff,
    forall_eq', forall_exists_index, and_imp]
  refine ⟨.leaf trivial (Nat.le_refl 1), ?_, nofun⟩
  rintro _ octets - rfl
  exact .leaf trivial (Nat.le_refl 1)

end Groups

-----------------------------------------------------------------------------------------
-- Gateway decisions
-----------------------------------------------------------------------------------------

section Decisions

variable {b : Bytes} {m : List (Value × Value)} {k : Int} {refused : Exc}

theorem decoded_field {v : Value} (decoded : Decoded (.m m)) (present : field k m = some v)
    : Decoded v := by
  obtain ⟨ordered, members⟩ := decoded_m decoded
  exact members _ ((field_eq_some (nodup_of_ascending ordered)).mp present)

/-- An optional group is absent, or it was read from the value under its key. -/
theorem optionalGroup_eq_ok {α : Type} {fromCbor : Value → Option α} {group : Option α}
    : Gateway.optionalGroup m k fromCbor refused = .ok group
      ↔ (field k m = none ∧ group = none)
        ∨ ∃ v x, field k m = some v ∧ fromCbor v = some x ∧ group = some x := by
  unfold Gateway.optionalGroup
  split
  · rename_i absent
    simp [absent, eq_comm]
  · rename_i v present
    cases read : fromCbor v <;> simp [present, read, eq_comm]

theorem orderingGroup_exact_iff {group : Option Gateway.OrderingDisclosure}
    (decoded : Decoded (.m m))
    (read : Gateway.optionalGroup m k Gateway.orderingFromCbor refused = .ok group)
    : group.map Gateway.OrderingDisclosure.toCbor = field k m
      ↔ ∀ v, field k m = some v → ExactOrdering v := by
  rcases optionalGroup_eq_ok.mp read with ⟨absent, rfl⟩ | ⟨v, d, present, taken, rfl⟩
  · simp [absent]
  · obtain ⟨o, spelled, rfl⟩ := orderingFromCbor_eq_some.mp taken
    rw [present, Option.map_some, Option.some.injEq,
      ordering_exact_iff (decoded_field decoded present) spelled]
    simp

theorem orderingGroup_inOrder {group : Option Gateway.OrderingDisclosure}
    (read : Gateway.optionalGroup m k Gateway.orderingFromCbor refused = .ok group)
    : ∀ v, group.map Gateway.OrderingDisclosure.toCbor = some v → InOrder 2 v := by
  rcases optionalGroup_eq_ok.mp read with ⟨-, rfl⟩ | ⟨v, d, -, taken, rfl⟩
  · nofun
  · obtain ⟨o, -, rfl⟩ := orderingFromCbor_eq_some.mp taken
    rintro _ ⟨rfl⟩
    exact flatOrdering_inOrder o

def pinSlots (pin : Gateway.ForeignProfilePin) : List (Int × Option Value) :=
  [(1, some (.t pin.id)), (2, some (.t pin.revision))]

theorem pinSlots_ascending (pin : Gateway.ForeignProfilePin)
    : AscendingKeys ((pinSlots pin).map Prod.fst) := by
  apply ascendingKeys_of_sublist
  simp [pinSlots]

theorem optionalTstr_nonempty {text : PyStr} (read : Gateway.optionalTstr m k = some text)
    (nonempty : text ≠ [])
    : field k m = some (.t text) := by
  unfold Gateway.optionalTstr at read
  split at read
  · exact (nonempty (Option.some.inj read).symm).elim
  · rename_i present
    rw [present, Option.some.inj read]
  · cases read

/-- A pin that passes its check has both of its keys and no other. -/
theorem pin_exact {v : Value} {pin : Gateway.ForeignProfilePin} (decoded : Decoded v)
    (read : Gateway.foreignProfileFromCbor v = some pin) (valid : pin.validate = .ok ())
    : pin.toCbor = v := by
  cases v with
  | m pairs =>
      simp only [Gateway.foreignProfileFromCbor, Option.bind_eq_bind, Option.bind_eq_some_iff,
        Option.pure_def, Option.some.injEq] at read
      obtain ⟨id, first, revision, second, rfl⟩ := read
      rw [Gateway.ForeignProfilePin.validate, raiseIf_eq_ok] at valid
      simp only [not_or, Bool.not_eq_true, List.any_eq_false] at valid
      obtain ⟨named, revised, known⟩ := valid
      apply congrArg Value.m
      apply (filled_eq_iff (pinSlots_ascending _) (decoded_m decoded).1).mpr
      refine ⟨?_, ?_⟩
      · intro pair member
        have pinKey := known pair member
        obtain ⟨key, val⟩ := pair
        cases key with
        | u n =>
            have one : n = 1 ∨ n = 2 := by
              simp only [Gateway.isPinKey] at pinKey
              grind
            rcases one with rfl | rfl
            · exact ⟨1, by simp [pinSlots], rfl⟩
            · exact ⟨2, by simp [pinSlots], rfl⟩
        | _ => simp [Gateway.isPinKey] at pinKey
      · simp [pinSlots, optionalTstr_nonempty first named, optionalTstr_nonempty second revised]
  | _ => cases read

theorem pin_inOrder (pin : Gateway.ForeignProfilePin) : InOrder 2 pin.toCbor := by
  refine filled_inOrder (pinSlots_ascending pin) (Nat.le_refl 1) ?_
  simp only [pinSlots, List.forall_mem_cons, Option.some.injEq, forall_eq']
  exact ⟨.leaf trivial (Nat.le_refl 1), .leaf trivial (Nat.le_refl 1), nofun⟩

/-- A map of known keys and exact groups is written as it was read. -/
theorem exact_of_slots {levels : Nat} {slots : List (Int × Option Value)}
    (decoded : decode b = .ok (.m m)) (ascending : AscendingKeys (slots.map Prod.fst))
    (bounds : 1 ≤ levels ∧ levels < unboundedDepth)
    (members : ∀ s ∈ slots, ∀ v, s.2 = some v → InOrder levels v)
    : encode (.m (filled slots)) = .ok b
      ↔ KeysWithin (slots.map Prod.fst) m ∧ ∀ s ∈ slots, s.2 = field s.1 m := by
  rw [encode_iff_eq (filled_inOrder ascending bounds.1 members) bounds.2 decoded, Value.m.injEq,
    filled_eq_iff ascending (ascending_of_decode decoded)]

/-- A body that is read as a decision is a map. -/
theorem map_of_parseDecision {d : Gateway.GatewayDecision}
    (parsed : Gateway.parseDecision b = .ok d)
    : ∃ m, decode b = .ok (.m m) := by
  cases decoded : decode b with
  | error err =>
      simp only [Gateway.parseDecision, decoded] at parsed
      split at parsed
      · simp_all
      · cases parsed
      · cases parsed
  | ok v =>
      cases v with
      | m pairs => exact ⟨pairs, rfl⟩
      | _ => simp [Gateway.parseDecision, decoded] at parsed

/-- What the parser finds in the map of a decision. -/
structure ReadsDecision (m : List (Value × Value)) (d : Gateway.GatewayDecision) : Prop where
  decision : field 1 m = some (.u d.decision)
  action : field 2 m = some (.b d.action)
  policy : field 3 m = some (.b d.policy)
  effect : field 4 m = some (.u d.effect)
  ordering : ∃ refused, Gateway.optionalGroup m 5 Gateway.orderingFromCbor refused = .ok d.ordering
  foreignProfile
    : ∃ refused, Gateway.optionalGroup m 6 Gateway.foreignProfileFromCbor refused
        = .ok d.foreignProfile

/-- Each field of the decision is read from its own key. -/
theorem reads_of_parseDecision {d : Gateway.GatewayDecision} (decoded : decode b = .ok (.m m))
    (parsed : Gateway.parseDecision b = .ok d)
    : ReadsDecision m d := by
  simp only [Gateway.parseDecision, decoded, pure_eq_ok, ok_bind] at parsed
  split at parsed
  · rename_i first second third fourth
    simp only [bind_eq_ok] at parsed
    obtain ⟨ordering, fifth, foreignProfile, sixth, built⟩ := parsed
    obtain rfl := Except.ok.inj built
    exact ⟨first, second, third, fourth, ⟨_, fifth⟩, ⟨_, sixth⟩⟩
  · cases parsed

def decisionSlots (d : Gateway.GatewayDecision) : List (Int × Option Value) :=
  [(1, some (.u d.decision)), (2, some (.b d.action)), (3, some (.b d.policy)),
    (4, some (.u d.effect)), (5, d.ordering.map Gateway.OrderingDisclosure.toCbor),
    (6, d.foreignProfile.map Gateway.ForeignProfilePin.toCbor)]

theorem decision_toMap (d : Gateway.GatewayDecision) : d.toMap = .m (filled (decisionSlots d)) := by
  obtain ⟨decision, action, policy, effect, ordering, pin⟩ := d
  cases ordering <;> cases pin <;> rfl

/-- A body of a decision without unknown keys, and with an exact ordering if it has one. -/
def ExactDecision (m : List (Value × Value)) : Prop :=
  KeysWithin [1, 2, 3, 4, 5, 6] m ∧ ∀ v, field 5 m = some v → ExactOrdering v

/-- A decision is written back as its body exactly when the body is exact.
Witness: both are maps in order, so they are equal exactly when they agree at every key.
-/
theorem decision_exact_iff {d : Gateway.GatewayDecision} (decoded : decode b = .ok (.m m))
    (parsed : Gateway.parseDecision b = .ok d) (valid : d.validate = .ok ())
    : d.bytes = .ok b ↔ ExactDecision m := by
  have reads := reads_of_parseDecision decoded parsed
  have inside := decoded_of_decode decoded
  obtain ⟨_, fifth⟩ := reads.ordering
  obtain ⟨_, sixth⟩ := reads.foreignProfile
  have ascending : AscendingKeys ((decisionSlots d).map Prod.fst) := by
    apply ascendingKeys_of_sublist
    simp [decisionSlots]
  have pinned : d.foreignProfile.map Gateway.ForeignProfilePin.toCbor = field 6 m := by
    rcases optionalGroup_eq_ok.mp sixth with ⟨absent, none⟩ | ⟨v, pin, present, taken, some⟩
    · rw [absent, none, Option.map_none]
    · simp only [Gateway.GatewayDecision.validate, unit_bind_eq_ok, some, Option.elim_some] at valid
      rw [present, some, Option.map_some, pin_exact (decoded_field inside present) taken valid.2.2]
  have members : ∀ s ∈ decisionSlots d, ∀ v, s.2 = some v → InOrder 2 v := by
    simp only [decisionSlots, List.forall_mem_cons, Option.some.injEq, forall_eq']
    refine ⟨.leaf trivial (Nat.le_succ 1), .leaf trivial (Nat.le_succ 1),
      .leaf trivial (Nat.le_succ 1), .leaf trivial (Nat.le_succ 1), orderingGroup_inOrder fifth, ?_,
      List.forall_mem_nil _⟩
    intro v written
    obtain ⟨pin, -, rfl⟩ := Option.map_eq_some_iff.mp written
    exact pin_inOrder pin
  rw [Gateway.GatewayDecision.bytes, decision_toMap,
    exact_of_slots decoded ascending ⟨Nat.le_succ 1, by decide⟩ members, ExactDecision,
    ← orderingGroup_exact_iff inside fifth]
  simp [decisionSlots, reads.decision, reads.action, reads.policy, reads.effect, pinned]

-----------------------------------------------------------------------------------------
-- Egress attestations
-----------------------------------------------------------------------------------------

/-- A body that is read as an attestation is a map. -/
theorem map_of_parseEgressAttestation {a : Gateway.EgressAttestation}
    (parsed : Gateway.parseEgressAttestation b = .ok a)
    : ∃ m, decode b = .ok (.m m) := by
  cases decoded : decode b with
  | error err =>
      simp only [Gateway.parseEgressAttestation, decoded] at parsed
      split at parsed
      · simp_all
      · cases parsed
      · cases parsed
  | ok v =>
      cases v with
      | m pairs => exact ⟨pairs, rfl⟩
      | _ => simp [Gateway.parseEgressAttestation, decoded] at parsed

/-- What the parser finds in the map of an attestation. -/
structure ReadsAttestation (m : List (Value × Value)) (a : Gateway.EgressAttestation) : Prop where
  binding : field 1 m = some (.u a.binding)
  digest : field 2 m = some (.b a.digest)
  effect : field 3 m = some (.u a.effect)
  audience : field 4 m = some (.b a.audience)
  crossedAt : field 5 m = some (.u a.crossedAt)
  ordering : ∃ refused, Gateway.optionalGroup m 6 Gateway.orderingFromCbor refused = .ok a.ordering

/-- Each field of the attestation is read from its own key. -/
theorem reads_of_parseEgressAttestation {a : Gateway.EgressAttestation}
    (decoded : decode b = .ok (.m m)) (parsed : Gateway.parseEgressAttestation b = .ok a)
    : ReadsAttestation m a := by
  simp only [Gateway.parseEgressAttestation, decoded, pure_eq_ok, ok_bind] at parsed
  split at parsed
  · rename_i first second third fourth fifth
    rw [bind_eq_ok] at parsed
    obtain ⟨ordering, sixth, built⟩ := parsed
    obtain rfl := Except.ok.inj built
    exact ⟨uintField_eq_some.mp first, bstrField_eq_some.mp second, uintField_eq_some.mp third,
      bstrField_eq_some.mp fourth, uintField_eq_some.mp fifth, ⟨_, sixth⟩⟩
  · cases parsed

def attestationSlots (a : Gateway.EgressAttestation) : List (Int × Option Value) :=
  [(1, some (.u a.binding)), (2, some (.b a.digest)), (3, some (.u a.effect)),
    (4, some (.b a.audience)), (5, some (.u a.crossedAt)),
    (6, a.ordering.map Gateway.OrderingDisclosure.toCbor)]

theorem attestation_toMap (a : Gateway.EgressAttestation)
    : a.toMap = .m (filled (attestationSlots a)) := by
  obtain ⟨binding, digest, effect, audience, crossedAt, ordering⟩ := a
  cases ordering <;> rfl

def ExactAttestation (m : List (Value × Value)) : Prop :=
  KeysWithin [1, 2, 3, 4, 5, 6] m ∧ ∀ v, field 6 m = some v → ExactOrdering v

/-- An attestation is written back as its body exactly when the body is exact, by comparing the
maps at every key.
-/
theorem attestation_exact_iff {a : Gateway.EgressAttestation} (decoded : decode b = .ok (.m m))
    (parsed : Gateway.parseEgressAttestation b = .ok a)
    : a.bytes = .ok b ↔ ExactAttestation m := by
  have reads := reads_of_parseEgressAttestation decoded parsed
  obtain ⟨_, sixth⟩ := reads.ordering
  have ascending : AscendingKeys ((attestationSlots a).map Prod.fst) := by
    apply ascendingKeys_of_sublist
    simp [attestationSlots]
  have members : ∀ s ∈ attestationSlots a, ∀ v, s.2 = some v → InOrder 2 v := by
    simp only [attestationSlots, List.forall_mem_cons, Option.some.injEq, forall_eq']
    exact ⟨.leaf trivial (Nat.le_succ 1), .leaf trivial (Nat.le_succ 1),
      .leaf trivial (Nat.le_succ 1), .leaf trivial (Nat.le_succ 1), .leaf trivial (Nat.le_succ 1),
      orderingGroup_inOrder sixth, nofun⟩
  rw [Gateway.EgressAttestation.bytes, attestation_toMap,
    exact_of_slots decoded ascending ⟨Nat.le_succ 1, by decide⟩ members, ExactAttestation,
    ← orderingGroup_exact_iff (decoded_of_decode decoded) sixth]
  simp [attestationSlots, reads.binding, reads.digest, reads.effect, reads.audience,
    reads.crossedAt]

end Decisions

-----------------------------------------------------------------------------------------
-- Decision records
-----------------------------------------------------------------------------------------

section Records

variable {b : Bytes} {m : List (Value × Value)}

/-- The entries that the terms are written as. -/
def termEntries (terms : Gateway.Terms) : List (Value × Value) :=
  terms.map fun term => (.u term.1, term.2.toCbor)

/-- The terms are written back as they were read exactly when each of them is exact, by
induction on the entries.
-/
theorem termEntries_iff {entries : List (Value × Value)} {spelled : List (Int × TermDisposition)}
    (entriesSpelled : List.Forall₂ SpellsEntry entries spelled)
    (decoded : ∀ entry ∈ entries, Decoded entry.2)
    : termEntries (spelled.map (Prod.map id flatTerm)) = entries
      ↔ ∀ entry ∈ entries, ExactTerm entry.2 := by
  induction entriesSpelled with
  | nil => simp [termEntries]
  | @cons entry term rest others head tail ih =>
      obtain ⟨here, later⟩ := List.forall_mem_cons.mp decoded
      obtain ⟨key, v⟩ := entry
      obtain ⟨rfl, body⟩ := head
      have first := term_exact_iff here body
      have others := ih later
      simp only [termEntries, List.map_cons, List.cons.injEq, List.forall_mem_cons, Prod.mk.injEq,
        Prod.map_fst, Prod.map_snd, id_eq, true_and] at others ⊢
      rw [first, others]

theorem termEntries_keys {entries : List (Value × Value)} {spelled : List (Int × TermDisposition)}
    (entriesSpelled : List.Forall₂ SpellsEntry entries spelled)
    : (termEntries (spelled.map (Prod.map id flatTerm))).map encodedKey
      = entries.map encodedKey := by
  induction entriesSpelled with
  | nil => rfl
  | @cons entry term rest others head tail ih =>
      obtain ⟨key, v⟩ := entry
      obtain ⟨rfl, -⟩ := head
      exact congrArg (encoding (.u term.1) :: ·) ih

def termsSlot (terms : Option (List (Int × TermDisposition))) : Option Value :=
  (unlessEmpty (some (flatTerms terms))).map Gateway.termsMap

/-- The slot of the terms holds what was read exactly when that is exact; an absent map stays
absent.
Witness: cases on the key 6; the entries of a decoded map are spelled one by one.
-/
theorem terms_exact_iff {terms : Option (List (Int × TermDisposition))} (decoded : Decoded (.m m))
    (spelled : SpellsTerms (field 6 m) terms)
    : termsSlot terms = field 6 m ↔ ∀ v, field 6 m = some v → ExactTerms v := by
  cases present : field 6 m with
  | none =>
      rw [present] at spelled
      obtain rfl : terms = none := spelled
      simp [termsSlot, flatTerms, unlessEmpty]
  | some v =>
      rw [present] at spelled
      cases v with
      | m entries =>
          obtain ⟨spelled, rfl, entriesSpelled⟩ := spelled
          have inside := (decoded_m (decoded_field decoded present)).2
          have written := termEntries_iff entriesSpelled inside
          cases entriesSpelled with
          | nil => simp [termsSlot, flatTerms, unlessEmpty, ExactTerms]
          | cons head tail =>
              simp only [Option.some.injEq, forall_eq', ExactTerms, ne_eq, reduceCtorEq,
                not_false_iff, true_and]
              rw [← written]
              exact (Option.some.injEq _ _).to_iff.trans (Value.m.injEq _ _).to_iff
      | _ => exact spelled.elim

/-- The terms are written in order: their keys were ascending when they were read. -/
theorem termsSlot_inOrder {terms : Option (List (Int × TermDisposition))} (decoded : Decoded (.m m))
    (spelled : SpellsTerms (field 6 m) terms)
    : ∀ v, termsSlot terms = some v → InOrder 3 v := by
  intro v written
  obtain ⟨flat, kept, rfl⟩ := Option.map_eq_some_iff.mp written
  obtain ⟨same, nonempty⟩ := Option.filter_eq_some_iff.mp kept
  obtain rfl := Option.some.inj same
  cases present : field 6 m with
  | none =>
      rw [present] at spelled
      obtain rfl : terms = none := spelled
      cases nonempty
  | some v =>
      rw [present] at spelled
      cases v with
      | m entries =>
          obtain ⟨spelled, rfl, entriesSpelled⟩ := spelled
          refine .m ?_ (Nat.le_succ 1) ?_
          · have ordered := (decoded_m (decoded_field decoded present)).1
            exact (termEntries_keys entriesSpelled).symm ▸ ordered
          · intro pair member
            obtain ⟨term, inside, rfl⟩ := List.mem_map.mp member
            obtain ⟨td, -, rfl⟩ := List.mem_map.mp inside
            exact ⟨trivial, flatTerm_inOrder td.2⟩
      | _ => exact spelled.elim

def recordSlots (r : DecisionRecord) : List (Int × Option Value) :=
  [(1, some (.b r.action)), (2, some (.a (r.governing.map .b))),
    (3, (unlessEmpty r.consume).map .b), (4, some (.u r.outcome)),
    (5, some (flatOrdering r.ordering).toCbor), (6, termsSlot r.terms),
    (7, (unlessZero r.enforcement).map .u)]

/-- The map of a record has its filled slots, by cases on which of the optional ones are
filled.
-/
theorem record_toMap (r : DecisionRecord) : (flatRecord r).toMap = .m (filled (recordSlots r)) := by
  have third : Gateway.bstrPair 3 (flatRecord r).consume
      = slot 3 id ((unlessEmpty r.consume).map .b) :=
    bstrPair_getD
  have sixth : (if (flatRecord r).terms ≠ []
        then [(Value.u 6, Gateway.termsMap (flatRecord r).terms)] else [])
      = slot 6 id (termsSlot r.terms) := by
    rw [termsSlot, flatRecord]
    cases flatTerms r.terms <;> rfl
  have seventh : (if (flatRecord r).enforcement ≠ 0
        then [(Value.u 7, Value.u (flatRecord r).enforcement)] else [])
      = slot 7 id ((unlessZero r.enforcement).map .u) := by
    rw [flatRecord]
    cases r.enforcement with
    | none => rfl
    | some code => by_cases zero : code = 0 <;> simp [zero]
  rw [Gateway.DecisionRecord.toMap, third, sixth, seventh]
  simp [filled, recordSlots, flatRecord]

/-- A body of a record without unknown keys, empty values and zeros under its optional keys. -/
structure ExactRecord (m : List (Value × Value)) : Prop where
  keys : KeysWithin [1, 2, 3, 4, 5, 6, 7] m
  consume : field 3 m ≠ some (.b [])
  ordering : ∀ v, field 5 m = some v → ExactOrdering v
  terms : ∀ v, field 6 m = some v → ExactTerms v
  enforcement : field 7 m ≠ some (.u 0)

theorem enforcement_kept_iff {spelled : Option Int} (lookup : field 7 m = spelled.map .u)
    : (unlessZero spelled).map .u = field 7 m ↔ field 7 m ≠ some (.u 0) := by
  rw [lookup]
  cases spelled with
  | none => simp [unlessZero]
  | some code => by_cases zero : code = 0 <;> simp [zero]

/-- A record is written back as its body exactly when the body is exact.
Witness: both are maps in order, so they are compared slot by slot.
-/
theorem record_exact_iff {d : Gateway.DecisionRecord} (decoded : decode b = .ok (.m m))
    (parsed : Gateway.parseDecisionRecord b = .ok d)
    : d.bytes = .ok b ↔ ExactRecord m := by
  obtain ⟨r, spelled, rfl⟩ := spelled_of_parseDecisionRecord decoded parsed
  have inside := decoded_of_decode decoded
  obtain ⟨disclosure, fifth, embedded⟩ := spelled.ordering
  have ascending : AscendingKeys ((recordSlots r).map Prod.fst) := by
    apply ascendingKeys_of_sublist
    simp [recordSlots]
  have members : ∀ s ∈ recordSlots r, ∀ v, s.2 = some v → InOrder 3 v := by
    simp only [recordSlots, List.forall_mem_cons, Option.some.injEq, forall_eq']
    refine ⟨.leaf trivial (by decide), ?_, ?_, .leaf trivial (by decide),
      (flatOrdering_inOrder _).mono (Nat.le_succ 2), termsSlot_inOrder inside spelled.terms, ?_,
        nofun⟩
    · refine InOrder.a ?_
      intro item member
      obtain ⟨octets, -, rfl⟩ := List.mem_map.mp member
      exact .leaf trivial (Nat.le_succ 1)
    · intro v written
      obtain ⟨octets, -, rfl⟩ := Option.map_eq_some_iff.mp written
      exact .leaf trivial (by decide)
    · intro v written
      obtain ⟨code, -, rfl⟩ := Option.map_eq_some_iff.mp written
      exact .leaf trivial (by decide)
  have ordering := ordering_exact_iff (decoded_field inside fifth) embedded
  have terms := terms_exact_iff inside spelled.terms
  have consume := octets_kept_iff spelled.consume
  have enforcement := enforcement_kept_iff spelled.enforcement
  rw [Gateway.DecisionRecord.bytes, record_toMap,
    exact_of_slots decoded ascending ⟨by decide, by decide⟩ members]
  simp only [recordSlots, List.map_cons, List.map_nil, List.forall_mem_cons, spelled.action,
    spelled.governing, spelled.outcome, fifth, Option.some.injEq, consume, ordering, terms,
    enforcement, true_and, List.not_mem_nil, false_imp_iff, implies_true, and_true]
  constructor
  · rintro ⟨keys, third, embeddedExact, sixth, seventh⟩
    exact ⟨keys, third, by simpa [fifth] using embeddedExact, sixth, seventh⟩
  · intro exact
    exact ⟨exact.keys, exact.consume, exact.ordering _ fifth, exact.terms, exact.enforcement⟩

end Records

-----------------------------------------------------------------------------------------
-- Presence
-----------------------------------------------------------------------------------------

/-- The ordering is read from the value and passes its check. -/
def OrderingAccepted (v : Value) : Prop :=
  ∃ d, Gateway.orderingFromCbor v = some d ∧ d.validate = .ok ()

/-- The keys that the map has are those of its basis, each of its type, and it has no others. -/
def OrderingLawful (pairs : List (Value × Value)) : Prop :=
  (∃ o, SpellsOrdering (.m pairs) o ∧ FitsBasis o) ∧ KeysWithin [1, 2, 3, 4] pairs

/-- The map would be lawful without its unknown keys and its empty octet strings. -/
def LawfulOtherwise (pairs : List (Value × Value)) : Prop :=
  ∃ o, SpellsOrdering (.m pairs) o ∧ FitsBasis (plainOrdering o)

/-- The map has neither unknown keys nor an empty octet string under a key that its basis rules. -/
def PlainKeys (pairs : List (Value × Value)) : Prop :=
  KeysWithin [1, 2, 3, 4] pairs ∧ field 2 pairs ≠ some (.b []) ∧ field 3 pairs ≠ some (.b [])
    ∧ (field 1 pairs ≠ some (.u Gateway.orderingExternalMechanism)
      → field 4 pairs ≠ some (.b []))

section Presence

variable {pairs : List (Value × Value)} {o : OrderingDisclosure}

/-- A disclosure is accepted exactly when it is lawful once its empty strings and unknown keys
are left out.
-/
theorem orderingAccepted_iff : OrderingAccepted (.m pairs) ↔ LawfulOtherwise pairs := by
  unfold OrderingAccepted LawfulOtherwise
  constructor
  · rintro ⟨d, read, valid⟩
    obtain ⟨o, spelled, rfl⟩ := orderingFromCbor_eq_some.mp read
    exact ⟨o, spelled, validate_flat.mp valid⟩
  · rintro ⟨o, spelled, fits⟩
    exact ⟨_, orderingFromCbor_eq_some.mpr ⟨o, spelled, rfl⟩, validate_flat.mpr fits⟩

theorem spelled_unique {o' : OrderingDisclosure} (spelled : SpellsOrdering (.m pairs) o)
    (spelled' : SpellsOrdering (.m pairs) o')
    : o = o' := by
  rw [← fromValue_eq_some] at spelled spelled'
  exact Option.some.inj (spelled.symm.trans spelled')

/-- Plain keys are judged by presence. -/
theorem fits_of_plain (plain : PlainKeys pairs) (spelled : SpellsOrdering (.m pairs) o)
    : FitsBasis (plainOrdering o) ↔ FitsBasis o := by
  obtain ⟨basis, boundary, mechanism, relation⟩ := o
  obtain ⟨first, second, third, fourth⟩ := spelled
  obtain ⟨-, noBoundary, noMechanism, noRelation⟩ := plain
  simp only at first second third fourth
  have kept : unlessEmpty boundary = boundary := by
    apply unlessEmpty_eq_self.mpr
    rintro rfl
    exact noBoundary second
  have keptToo : unlessEmpty mechanism = mechanism := by
    apply unlessEmpty_eq_self.mpr
    rintro rfl
    exact noMechanism third
  have relationKept : basis ≠ 2 → unlessEmpty relation = relation := by
    intro ruled
    apply unlessEmpty_eq_self.mpr
    rintro rfl
    refine noRelation ?_ fourth
    simpa [first, Gateway.orderingExternalMechanism] using ruled
  simp only [FitsBasis, plainOrdering, kept, keptToo,
    Rust.EvidenceRecord.orderingCorrespondenceOnly, Rust.EvidenceRecord.orderingSingleBoundary,
    Rust.EvidenceRecord.orderingExternalMechanism]
  grind

/-- A map that is lawful as it is and without its empty strings has plain keys. -/
theorem plain_of_fits (keys : KeysWithin [1, 2, 3, 4] pairs) (spelled : SpellsOrdering (.m pairs) o)
    (fits : FitsBasis o) (fitsOtherwise : FitsBasis (plainOrdering o))
    : PlainKeys pairs := by
  obtain ⟨basis, boundary, mechanism, relation⟩ := o
  obtain ⟨first, second, third, fourth⟩ := spelled
  simp only at first second third fourth
  simp only [FitsBasis, plainOrdering, Rust.EvidenceRecord.orderingCorrespondenceOnly,
    Rust.EvidenceRecord.orderingSingleBoundary, Rust.EvidenceRecord.orderingExternalMechanism]
    at fits fitsOtherwise
  have emptied : unlessEmpty (some ([] : Bytes)) = none := rfl
  refine ⟨keys, ?_, ?_, ?_⟩
  · rw [second]
    rintro present
    obtain ⟨_, rfl, same⟩ := Option.map_eq_some_iff.mp present
    cases same
    grind
  · rw [third]
    rintro present
    obtain ⟨_, rfl, same⟩ := Option.map_eq_some_iff.mp present
    cases same
    grind
  · rw [first, fourth]
    rintro ruled present
    obtain ⟨_, rfl, same⟩ := Option.map_eq_some_iff.mp present
    cases same
    simp only [Gateway.orderingExternalMechanism, ne_eq, Option.some.injEq, Value.u.injEq] at ruled
    grind

/-- The checks judge a disclosure by the law exactly when it has only plain keys, or breaks the
law either way.
-/
theorem ordering_judged_iff
    : (OrderingAccepted (.m pairs) ↔ OrderingLawful pairs)
      ↔ PlainKeys pairs ∨ (¬ OrderingLawful pairs ∧ ¬ LawfulOtherwise pairs) := by
  rw [orderingAccepted_iff]
  constructor
  · intro alike
    by_cases lawful : OrderingLawful pairs
    · obtain ⟨o', spelled', fitsOtherwise⟩ := alike.mpr lawful
      obtain ⟨⟨o, spelled, fits⟩, keys⟩ := lawful
      obtain rfl := spelled_unique spelled spelled'
      exact .inl (plain_of_fits keys spelled fits fitsOtherwise)
    · exact .inr ⟨lawful, fun otherwise => lawful (alike.mp otherwise)⟩
  · rintro (plain | ⟨unlawful, unlawfulOtherwise⟩)
    · constructor
      · rintro ⟨o, spelled, fits⟩
        exact ⟨⟨o, spelled, (fits_of_plain plain spelled).mp fits⟩, plain.1⟩
      · rintro ⟨⟨o, spelled, fits⟩, -⟩
        exact ⟨o, spelled, (fits_of_plain plain spelled).mpr fits⟩
    · exact iff_of_false unlawfulOtherwise unlawful

end Presence

/-- An ordering is judged by the presence of its keys exactly when its keys are plain, or when it
breaks the law both as it is and without its empty strings and unknown keys. A gateway decision, a
decision record and an egress attestation that are accepted are written as the bodies that they were
read from exactly when these have no unknown keys and nothing empty under an optional key.
-/
theorem evidence_keys_iff (pairs : List (Value × Value)) (b : Bytes)
    : ((OrderingAccepted (.m pairs) ↔ OrderingLawful pairs)
        ↔ PlainKeys pairs ∨ (¬ OrderingLawful pairs ∧ ¬ LawfulOtherwise pairs))
      ∧ (∀ d, Gateway.parseDecision b = .ok d → d.validate = .ok ()
        → (d.bytes = .ok b ↔ ExactDecision (entriesOf b)))
      ∧ (∀ d, Gateway.parseDecisionRecord b = .ok d → Gateway.validateDecisionRecord d = .ok ()
        → (d.bytes = .ok b ↔ ExactRecord (entriesOf b)))
      ∧ (∀ a, Gateway.parseEgressAttestation b = .ok a
        → Gateway.validateEgressAttestation a = .ok ()
        → (a.bytes = .ok b ↔ ExactAttestation (entriesOf b))) := by
  refine ⟨ordering_judged_iff, ?_, ?_, ?_⟩
  · intro d parsed valid
    obtain ⟨m, decoded⟩ := map_of_parseDecision parsed
    rw [entriesOf_decode decoded]
    exact decision_exact_iff decoded parsed valid
  · intro d parsed _
    obtain ⟨m, decoded⟩ := map_of_parseDecisionRecord parsed
    rw [entriesOf_decode decoded]
    exact record_exact_iff decoded parsed
  · intro a parsed _
    obtain ⟨m, decoded⟩ := map_of_parseEgressAttestation parsed
    rw [entriesOf_decode decoded]
    exact attestation_exact_iff decoded parsed

-----------------------------------------------------------------------------------------
-- Keys that are there and empty
-----------------------------------------------------------------------------------------

/-- The ordering of no boundary that names an empty one. -/
def emptyBoundary : List (Value × Value) := [(.u 1, .u 0), (.u 2, .b [])]

/-- The flat form of it, in which the boundary is absent. -/
def noBoundary : Gateway.OrderingDisclosure := ⟨0, [], [], []⟩

/-- The body of a decision with this ordering. -/
def emptyBoundaryDecision : Bytes := [0xa5, 1, 0, 2, 0x40, 3, 0x40, 4, 0, 5, 0xa2, 1, 0, 2, 0x40]

def emptyBoundaryRecord : Bytes := [0xa4, 1, 0x40, 2, 0x80, 4, 0, 5, 0xa2, 1, 0, 2, 0x40]

def emptyBoundaryAttestation : Bytes :=
  [0xa6, 1, 0, 2, 0x40, 3, 0, 4, 0x40, 5, 0, 6, 0xa2, 1, 0, 2, 0x40]

/-- What the theorem says of this ordering and of these bodies, which are all accepted. -/
theorem evidence_keys_samples
    : ((OrderingAccepted (.m emptyBoundary) ↔ OrderingLawful emptyBoundary)
        ↔ PlainKeys emptyBoundary
          ∨ (¬ OrderingLawful emptyBoundary ∧ ¬ LawfulOtherwise emptyBoundary))
      ∧ ((⟨0, [], [], 0, some noBoundary, none⟩ : Gateway.GatewayDecision).bytes
          = .ok emptyBoundaryDecision
        ↔ ExactDecision (entriesOf emptyBoundaryDecision))
      ∧ ((⟨[], [], [], 0, noBoundary, [], 0⟩ : Gateway.DecisionRecord).bytes
          = .ok emptyBoundaryRecord
        ↔ ExactRecord (entriesOf emptyBoundaryRecord))
      ∧ ((⟨0, [], 0, [], 0, some noBoundary⟩ : Gateway.EgressAttestation).bytes
          = .ok emptyBoundaryAttestation
        ↔ ExactAttestation (entriesOf emptyBoundaryAttestation)) := by
  refine ⟨(evidence_keys_iff emptyBoundary []).1, ?_, ?_, ?_⟩
  · exact (evidence_keys_iff [] emptyBoundaryDecision).2.1 _ rfl rfl
  · exact (evidence_keys_iff [] emptyBoundaryRecord).2.2.1 _ rfl rfl
  · exact (evidence_keys_iff [] emptyBoundaryAttestation).2.2.2 _ rfl rfl

/-- The empty boundary is accepted where none may be; the same key in three records is lost when
they are written back.
-/
theorem empty_boundary_accepted
    : (¬ ∀ pairs, OrderingAccepted (.m pairs) ↔ OrderingLawful pairs)
      ∧ (¬ ∀ b d, Gateway.parseDecision b = .ok d → d.validate = .ok () → d.bytes = .ok b)
      ∧ (¬ ∀ b d, Gateway.parseDecisionRecord b = .ok d
        → Gateway.validateDecisionRecord d = .ok () → d.bytes = .ok b)
      ∧ (¬ ∀ b a, Gateway.parseEgressAttestation b = .ok a
        → Gateway.validateEgressAttestation a = .ok () → a.bytes = .ok b) := by
  refine ⟨?_, ?_, ?_, ?_⟩
  · intro alike
    obtain ⟨⟨o, ⟨first, second, -⟩, fits⟩, -⟩ := (alike emptyBoundary).mp ⟨noBoundary, rfl, rfl⟩
    obtain ⟨basis, boundary, mechanism, relation⟩ := o
    cases first
    cases boundary with
    | none => cases second
    | some octets => simp [FitsBasis, Rust.EvidenceRecord.orderingSingleBoundary] at fits
  · intro exact
    have same := exact emptyBoundaryDecision _ rfl rfl
    cases same
  · intro exact
    have same := exact emptyBoundaryRecord _ rfl rfl
    cases same
  · intro exact
    have same := exact emptyBoundaryAttestation _ rfl rfl
    cases same

-----------------------------------------------------------------------------------------
-- Closed vocabularies
-----------------------------------------------------------------------------------------

/-- Validation reads the keys of the terms only, never a kind or a source. -/
theorem validateDecisionRecord_terms {d : Gateway.DecisionRecord} {terms : Gateway.Terms}
    (valid : Gateway.validateDecisionRecord d = .ok ())
    (sameKeys : terms.map Prod.fst = d.terms.map Prod.fst)
    : Gateway.validateDecisionRecord { d with terms } = .ok () := by
  have keys : ∀ terms : Gateway.Terms, (∃ term ∈ terms, Gateway.validTermKey term.1 = false)
      ↔ ∃ k ∈ terms.map Prod.fst, Gateway.validTermKey k = false := by
    intro terms
    simp only [List.mem_map, exists_exists_and_eq_and]
  simp only [Gateway.validateDecisionRecord, unit_bind_eq_ok, raiseIf_eq_ok, keys] at valid ⊢
  rw [sameKeys]
  exact valid

/-- A decision record that is accepted has an outcome of the closed set, spends an authority only
when it allows, and has terms only for its own five fields. The kinds of the terms are not closed,
nor are their sources tied to them: with others in their place the record is as valid.
Witness: the first three are conditions of the check; the last holds because no condition looks
at a kind or at a source.
-/
theorem record_vocabulary {b : Bytes} {d : Gateway.DecisionRecord}
    (parsed : Gateway.parseDecisionRecord b = .ok d)
    (valid : Gateway.validateDecisionRecord d = .ok ())
    : (d.outcome = Gateway.decisionAllow ∨ d.outcome = Gateway.decisionDeny
        ∨ d.outcome = Gateway.decisionHold)
      ∧ (d.consume ≠ [] → d.outcome = Gateway.decisionAllow)
      ∧ (∀ term ∈ d.terms, 1 ≤ term.1 ∧ term.1 ≤ 5)
      ∧ (∀ terms : Gateway.Terms, terms.map Prod.fst = d.terms.map Prod.fst
        → Gateway.validateDecisionRecord { d with terms } = .ok ())
      ∧ ∃ m, decode b = .ok (.m m) ∧ field 4 m = some (.u d.outcome)
        ∧ ∀ entries, field 6 m = some (.m entries)
          → ∀ entry ∈ entries, ∃ k, 1 ≤ k ∧ k ≤ 5 ∧ entry.1 = .u k := by
  obtain ⟨m, r, decoded, spelled, rfl⟩ := parseDecisionRecord_eq_ok.mp parsed
  have fits := validateDecisionRecord_flat.mp valid
  have keys : ∀ k ∈ (r.terms.getD []).map Prod.fst, 1 ≤ k ∧ k ≤ 5 := by
    rw [← plainTerms_keys]
    exact fits.terms
  refine ⟨fits.outcome, ?_, ?_, fun _ => validateDecisionRecord_terms valid, m, decoded,
    spelled.outcome, ?_⟩
  · intro spent
    exact fits.consume fun absent => spent (unlessEmpty_eq_none.mp absent)
  · intro term member
    apply keys
    rw [← flatTerms_keys]
    exact List.mem_map_of_mem member
  · intro entries present entry member
    have terms := spelled.terms
    rw [present] at terms
    obtain ⟨listed, same, entriesSpelled⟩ := terms
    obtain ⟨term, inside, keyed, -⟩ := exists_of_mem_left entriesSpelled member
    rw [same] at keys
    obtain ⟨low, high⟩ := keys term.1 (List.mem_map_of_mem inside)
    exact ⟨term.1, low, high, keyed⟩

/-- The body of a record with a term of kind nine, a reported term without a source and an
enforcement of seven.
-/
def unknownKindBody : Bytes :=
  [0xa6, 1, 0x40, 2, 0x80, 4, 0, 5, 0xa1, 1, 0, 6, 0xa2, 1, 0xa1, 1, 9, 2, 0xa1, 1, 2, 7, 7]

def unknownKind : Gateway.DecisionRecord :=
  ⟨[], [], [], 0, noBoundary, [(1, ⟨9, []⟩), (2, ⟨2, []⟩)], 7⟩

theorem record_vocabulary_unknown_kind
    : (unknownKind.outcome = Gateway.decisionAllow ∨ unknownKind.outcome = Gateway.decisionDeny
        ∨ unknownKind.outcome = Gateway.decisionHold)
      ∧ (unknownKind.consume ≠ [] → unknownKind.outcome = Gateway.decisionAllow)
      ∧ (∀ term ∈ unknownKind.terms, 1 ≤ term.1 ∧ term.1 ≤ 5)
      ∧ (∀ terms : Gateway.Terms, terms.map Prod.fst = unknownKind.terms.map Prod.fst
        → Gateway.validateDecisionRecord { unknownKind with terms } = .ok ())
      ∧ ∃ m, decode unknownKindBody = .ok (.m m) ∧ field 4 m = some (.u unknownKind.outcome)
        ∧ ∀ entries, field 6 m = some (.m entries)
          → ∀ entry ∈ entries, ∃ k, 1 ≤ k ∧ k ≤ 5 ∧ entry.1 = .u k :=
  @record_vocabulary unknownKindBody unknownKind rfl rfl

/-- The kinds of terms and the enforcement are not closed sets, and a source is not tied to a kind.
-/
theorem unknown_kind_accepted
    : (¬ ∀ b d, Gateway.parseDecisionRecord b = .ok d → Gateway.validateDecisionRecord d = .ok ()
        → ∀ term ∈ d.terms,
          term.2.kind = Gateway.termObserved ∨ term.2.kind = Gateway.termReported)
      ∧ (¬ ∀ b d, Gateway.parseDecisionRecord b = .ok d → Gateway.validateDecisionRecord d = .ok ()
        → ∀ term ∈ d.terms, term.2.source ≠ [] ↔ term.2.kind = Gateway.termReported)
      ∧ (¬ ∀ b d, Gateway.parseDecisionRecord b = .ok d → Gateway.validateDecisionRecord d = .ok ()
        → d.enforcement = 0 ∨ d.enforcement = Gateway.enforcementEnforced
          ∨ d.enforcement = Gateway.enforcementAdvised) := by
  refine ⟨?_, ?_, ?_⟩
  · intro closed
    rcases closed unknownKindBody unknownKind rfl rfl (1, ⟨9, []⟩) (by simp [unknownKind])
      with observed | reported
    · cases observed
    · cases reported
  · intro tied
    have sourced := (tied unknownKindBody unknownKind rfl rfl (2, ⟨2, []⟩)
      (by simp [unknownKind])).mpr rfl
    exact sourced rfl
  · intro closed
    rcases closed unknownKindBody unknownKind rfl rfl with absent | enforced | advised
    · cases absent
    · cases enforced
    · cases advised

end Naalp.Bodies
