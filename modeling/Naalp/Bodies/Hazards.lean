import Naalp.Bodies.Slots
import Naalp.Python.Hazard

/-! The bodies of hazard claims: a class, and an envelope of spatial bounds, a speed and a window.
-/

namespace Naalp.Bodies

open Naalp.Foundation
open Naalp.Python
open Naalp.Python.Cbor
open Naalp.Python.Hazard

-----------------------------------------------------------------------------------------
-- Axes
-----------------------------------------------------------------------------------------

/-- The reader of integers inverts their encoding, whichever sign they have. -/
theorem int_inverse : InverseOn intFromValue intValue (fun _ => True) where
  written := by
    intro v i decoded parsed
    obtain ⟨levels, canonical⟩ := decoded
    cases v with
    | u n =>
        obtain rfl : n = i := Except.ok.inj parsed
        have positive := (encodable_u.mp canonical.encodable).1
        simp [intValue, positive]
    | n n =>
        obtain rfl : n = i := Except.ok.inj parsed
        have negative := (encodable_n.mp canonical.encodable).2
        simp [intValue, negative]
    | _ => cases parsed
  read := by
    intro i _
    unfold intValue
    split <;> rfl

/-- The reader of an axis inverts the encoding of the axes that do not run backwards. -/
theorem axis_inverse : InverseOn axisFromValue axisValue (fun axis => axis.1 ≤ axis.2) where
  written := by
    intro v axis decoded parsed
    unfold axisFromValue at parsed
    split at parsed
    · simp only [bind_eq_ok, raiseIf_eq_ok, exists_const, pure_eq_ok, not_lt] at parsed
      obtain ⟨mn, least, mx, most, ordered, same⟩ := parsed
      obtain rfl := Except.ok.inj same
      have members := decoded_a decoded
      obtain ⟨rfl, -⟩ := int_inverse.written (members _ (by simp)) least
      obtain ⟨rfl, -⟩ := int_inverse.written (members _ (by simp)) most
      exact ⟨rfl, ordered⟩
    · cases parsed
  read := by
    intro axis ordered
    obtain ⟨mn, mx⟩ := axis
    have least : intFromValue (intValue mn) = .ok mn := int_inverse.read trivial
    have most : intFromValue (intValue mx) = .ok mx := int_inverse.read trivial
    simp_all [axisFromValue, axisValue]

/-- The reader of the axes inverts the encoding of every list that is not empty. -/
theorem axes_inverse
    : InverseOn axesFromValue (fun axes => .a (axes.map axisValue))
        (fun axes => axes ≠ [] ∧ ∀ axis ∈ axes, axis.1 ≤ axis.2) where
  written := by
    intro v axes decoded parsed
    cases v with
    | a items =>
        simp only [axesFromValue, raiseIf_bind_eq_ok] at parsed
        obtain ⟨nonempty, parsed⟩ := parsed
        obtain ⟨rfl, ordered⟩ := axis_inverse.written_of_mapM (decoded_a decoded) parsed
        exact ⟨rfl, by simpa using nonempty, ordered⟩
    | _ => cases parsed
  read := by
    intro axes formed
    have parsed := axis_inverse.mapM_map formed.2
    simp [axesFromValue, formed.1, parsed]

/-- The axes are encoded in order: they hold no maps. -/
theorem axes_inOrder (axes : List (Int × Int)) : InOrder 3 (.a (axes.map axisValue)) := by
  have int (i : Int) : InOrder 1 (intValue i) := by
    unfold intValue
    split <;> exact .leaf trivial (le_refl 1)
  refine .a ?_
  simp only [List.mem_map]
  rintro item ⟨axis, -, rfl⟩
  refine .a ?_
  simp only [List.forall_mem_cons]
  exact ⟨int _, int _, nofun⟩

-----------------------------------------------------------------------------------------
-- Spatial bounds
-----------------------------------------------------------------------------------------

def spatialSlots (fields : SpatialFields) : List (Value × Value) :=
  slot 1 .t fields.frame ++ slot 2 (fun axes => .a (axes.map axisValue)) fields.axes

/-- What the loop over the pairs of the bounds can take, by the key of the pair. -/
theorem readSpatialField_eq_ok {fields next : SpatialFields} {pair : Value × Value}
    (decoded : Decoded pair.2) (taken : readSpatialField fields pair = .ok next)
    : (∃ v, pair = (.u 1, .t v) ∧ next = { fields with frame := some v })
      ∨ (∃ axes, pair = (.u 2, .a (axes.map axisValue))
        ∧ next = { fields with axes := some axes }) := by
  unfold readSpatialField at taken
  split at taken
  · simp_all [eq_comm]
  · simp only [bind_eq_ok, pure_eq_ok] at taken
    obtain ⟨axes, parsed, same⟩ := taken
    obtain rfl := Except.ok.inj same
    obtain ⟨rfl, -⟩ := axes_inverse.written decoded parsed
    exact .inr ⟨axes, rfl, rfl⟩
  · cases taken

theorem spatial_shown
    : ShowsFields Prod.fst readSpatialField spatialSlots (fun pair => Decoded pair.2) := by
  intro fields next pair decoded taken other
  rcases readSpatialField_eq_ok decoded taken with ⟨v, rfl, rfl⟩ | ⟨axes, rfl, rfl⟩
  all_goals
    simp only [spatialSlots, List.mem_append, mem_slot]
    grind

theorem spatial_ordered (fields : SpatialFields)
    : ((spatialSlots fields).map encodedKey).Pairwise (· < ·) :=
  @ascending_of_keys _ [.u 1, .u 2] (slots_keys slot_keys) (by decide)

/-- The reader of spatial bounds inverts the encoding of the well-formed ones. -/
theorem spatial_inverse (nfc : PyStr → PyStr)
    : InverseOn (SpatialBounds.fromValue nfc) SpatialBounds.toValue
        (fun sb => sb.isWellFormed nfc = true) where
  written := by
    intro v sb decoded parsed
    cases v with
    | m pairs =>
        simp only [SpatialBounds.fromValue, bind_eq_ok] at parsed
        obtain ⟨fields, ran, parsed⟩ := parsed
        obtain ⟨ordered, members⟩ := decoded_m decoded
        obtain rfl := pairs_eq_shows spatial_shown ordered (spatial_ordered fields) members rfl ran
        split at parsed
        · simp only [raiseIf_bind_eq_ok, Bool.not_eq_false, pure_eq_ok] at parsed
          obtain ⟨formed, same⟩ := parsed
          obtain rfl := Except.ok.inj same
          exact ⟨rfl, formed⟩
        · cases parsed
    | _ => cases parsed
  read := by
    intro sb formed
    have axes : axesFromValue (.a (sb.axes.map axisValue)) = .ok sb.axes := by
      simp only [SpatialBounds.isWellFormed, decide_eq_true_eq] at formed
      exact axes_inverse.read ⟨formed.1, formed.2.1⟩
    simp [SpatialBounds.fromValue, SpatialBounds.toValue, readSpatialField, axes, formed]

theorem spatial_inOrder (sb : SpatialBounds) : InOrder 4 sb.toValue := by
  refine .m (spatial_ordered ⟨some sb.frame, some sb.axes⟩) (by decide) ?_
  simp only [List.forall_mem_cons]
  exact ⟨⟨trivial, .leaf trivial (by decide)⟩, ⟨trivial, axes_inOrder sb.axes⟩, nofun⟩

-----------------------------------------------------------------------------------------
-- Windows
-----------------------------------------------------------------------------------------

def windowSlots (fields : WindowFields) : List (Value × Value) :=
  slot 1 .u fields.notBefore ++ slot 2 .u fields.notAfter

/-- The reader of a window fills the slot of the pair's key. -/
theorem window_shown
    : ShowsFields Prod.fst readWindowField windowSlots (fun pair => Decoded pair.2) := by
  intro fields next pair _ taken other
  have read : (∃ v, pair = (.u 1, .u v) ∧ next = { fields with notBefore := some v })
      ∨ (∃ v, pair = (.u 2, .u v) ∧ next = { fields with notAfter := some v }) := by
    unfold readWindowField at taken
    split at taken <;> simp_all [eq_comm]
  rcases read with ⟨v, rfl, rfl⟩ | ⟨v, rfl, rfl⟩
  all_goals
    simp only [windowSlots, List.mem_append, mem_slot]
    grind

theorem window_ordered (fields : WindowFields)
    : ((windowSlots fields).map encodedKey).Pairwise (· < ·) :=
  @ascending_of_keys _ [.u 1, .u 2] (slots_keys slot_keys) (by decide)

/-- The reader of a window inverts its encoding. -/
theorem window_inverse
    : InverseOn HazardWindow.fromValue HazardWindow.toValue (fun _ => True) where
  written := by
    intro v w decoded parsed
    cases v with
    | m pairs =>
        simp only [HazardWindow.fromValue, bind_eq_ok] at parsed
        obtain ⟨fields, ran, parsed⟩ := parsed
        obtain ⟨ordered, members⟩ := decoded_m decoded
        obtain rfl := pairs_eq_shows window_shown ordered (window_ordered fields) members rfl ran
        split at parsed
        · obtain rfl := Except.ok.inj parsed
          exact ⟨rfl, trivial⟩
        · cases parsed
    | _ => cases parsed
  read := by
    intro w _
    simp [HazardWindow.fromValue, HazardWindow.toValue, readWindowField]

theorem window_inOrder (w : HazardWindow) : InOrder 2 w.toValue := by
  refine .m (window_ordered ⟨some w.notBefore, some w.notAfter⟩) (le_refl 1) ?_
  simp only [List.forall_mem_cons]
  exact ⟨⟨trivial, .leaf trivial (le_refl 1)⟩, ⟨trivial, .leaf trivial (le_refl 1)⟩, nofun⟩

-----------------------------------------------------------------------------------------
-- Envelopes and claims
-----------------------------------------------------------------------------------------

section Claims

variable (nfc : PyStr → PyStr)

def envelopeSlots (fields : EnvelopeFields) : List (Value × Value) :=
  slot 1 SpatialBounds.toValue fields.spatial ++ slot 2 .u fields.speed
  ++ slot 3 HazardWindow.toValue fields.window

def EnvelopeWellFormed (e : HazardEnvelope) : Prop := e.spatial.isWellFormed nfc = true

/-- What the loop over the pairs of an envelope can take, by the key of the pair. -/
theorem readEnvelopeField_eq_ok {fields next : EnvelopeFields} {pair : Value × Value}
    (decoded : Decoded pair.2) (taken : readEnvelopeField nfc fields pair = .ok next)
    : (∃ sb : SpatialBounds, pair = (.u 1, sb.toValue) ∧ sb.isWellFormed nfc = true
        ∧ next = { fields with spatial := some sb })
      ∨ (∃ v, pair = (.u 2, .u v) ∧ next = { fields with speed := some v })
      ∨ (∃ w : HazardWindow, pair = (.u 3, w.toValue)
        ∧ next = { fields with window := some w }) := by
  unfold readEnvelopeField at taken
  split at taken
  · simp only [bind_eq_ok, pure_eq_ok] at taken
    obtain ⟨sb, parsed, same⟩ := taken
    obtain rfl := Except.ok.inj same
    obtain ⟨rfl, formed⟩ := (spatial_inverse nfc).written decoded parsed
    exact .inl ⟨sb, rfl, formed, rfl⟩
  · exact .inr (.inl ⟨_, rfl, (Except.ok.inj taken).symm⟩)
  · simp only [bind_eq_ok, pure_eq_ok] at taken
    obtain ⟨w, parsed, same⟩ := taken
    obtain rfl := Except.ok.inj same
    obtain ⟨rfl, -⟩ := window_inverse.written decoded parsed
    exact .inr (.inr ⟨w, rfl, rfl⟩)
  · cases taken

theorem envelope_shown
    : ShowsFields Prod.fst (readEnvelopeField nfc) envelopeSlots (fun pair => Decoded pair.2) := by
  intro fields next pair decoded taken other
  rcases readEnvelopeField_eq_ok nfc decoded taken with
    ⟨sb, rfl, -, rfl⟩ | ⟨v, rfl, rfl⟩ | ⟨w, rfl, rfl⟩
  all_goals
    simp only [envelopeSlots, List.mem_append, mem_slot]
    grind

theorem envelope_ordered (fields : EnvelopeFields)
    : ((envelopeSlots fields).map encodedKey).Pairwise (· < ·) :=
  @ascending_of_keys _ [.u 1, .u 2, .u 3] (slots_keys (slots_keys slot_keys)) (by decide)

/-- The spatial bounds that were read are well formed; an invariant of the loop. -/
theorem envelope_formed {pairs : List (Value × Value)} {fields : EnvelopeFields}
    (members : ∀ pair ∈ pairs, Decoded pair.2)
    (ran : pairs.foldlM (readEnvelopeField nfc) {} = .ok fields)
    : ∀ sb, fields.spatial = some sb → sb.isWellFormed nfc = true := by
  refine @foldlM_invariant _ _ _ _ _ _ _ (fun _ state => ∀ sb, state.spatial = some sb
    → sb.isWellFormed nfc = true) ?_ nofun ran
  intro seen pair rest state next split held taken sb present
  rcases readEnvelopeField_eq_ok nfc (members pair (by simp [split])) taken with
    ⟨sb', -, formed, rfl⟩ | ⟨v, -, rfl⟩ | ⟨w, -, rfl⟩
  · obtain rfl := Option.some.inj present
    exact formed
  · exact held sb present
  · exact held sb present

/-- The reader of an envelope inverts the encoding of the well-formed ones.
Witness: its members are inverted first; the three slots are filled once each and in order.
-/
theorem envelope_inverse
    : InverseOn (HazardEnvelope.fromValue nfc) HazardEnvelope.toValue (EnvelopeWellFormed nfc) where
  written := by
    intro v e decoded parsed
    cases v with
    | m pairs =>
        simp only [HazardEnvelope.fromValue, bind_eq_ok] at parsed
        obtain ⟨fields, ran, parsed⟩ := parsed
        obtain ⟨ordered, members⟩ := decoded_m decoded
        have formed := envelope_formed nfc members ran
        obtain rfl :=
          pairs_eq_shows (envelope_shown nfc) ordered (envelope_ordered fields) members rfl ran
        split at parsed
        · obtain rfl := Except.ok.inj parsed
          exact ⟨rfl, formed _ rfl⟩
        · cases parsed
    | _ => cases parsed
  read := by
    intro e formed
    have spatial := (spatial_inverse nfc).read formed
    have window : HazardWindow.fromValue e.window.toValue = .ok e.window :=
      window_inverse.read trivial
    simp [HazardEnvelope.fromValue, HazardEnvelope.toValue, readEnvelopeField, spatial, window]

theorem envelope_inOrder (e : HazardEnvelope) : InOrder 5 e.toValue := by
  refine .m (envelope_ordered ⟨some e.spatial, some e.speedBound, some e.window⟩) (by decide) ?_
  simp only [List.forall_mem_cons]
  exact ⟨⟨trivial, spatial_inOrder e.spatial⟩, ⟨trivial, .leaf trivial (by decide)⟩,
    ⟨trivial, (window_inOrder e.window).mono (by decide)⟩, nofun⟩

def claimSlots (fields : ClaimFields) : List (Value × Value) :=
  slot 1 .u fields.classCode ++ slot 2 HazardEnvelope.toValue fields.envelope

/-- A claim with one of the five classes and well-formed spatial bounds. -/
structure ClaimWellFormed (c : HazardClaim) : Prop where
  known : 0 ≤ c.hazardClass ∧ c.hazardClass ≤ 4
  envelope : EnvelopeWellFormed nfc c.envelope

/-- What the loop over the pairs of a claim can take, by the key of the pair. -/
theorem readClaimField_eq_ok {fields next : ClaimFields} {pair : Value × Value}
    (decoded : Decoded pair.2) (taken : readClaimField nfc fields pair = .ok next)
    : (∃ v, pair = (.u 1, .u v) ∧ (0 ≤ v ∧ v ≤ 4) ∧ next = { fields with classCode := some v })
      ∨ (∃ e : HazardEnvelope, pair = (.u 2, e.toValue) ∧ EnvelopeWellFormed nfc e
        ∧ next = { fields with envelope := some e }) := by
  unfold readClaimField at taken
  split at taken
  · simp only [raiseIf_bind_eq_ok, not_not, pure_eq_ok] at taken
    obtain ⟨known, same⟩ := taken
    obtain rfl := Except.ok.inj same
    exact .inl ⟨_, rfl, known, rfl⟩
  · simp only [bind_eq_ok, pure_eq_ok] at taken
    obtain ⟨e, parsed, same⟩ := taken
    obtain rfl := Except.ok.inj same
    obtain ⟨rfl, formed⟩ := (envelope_inverse nfc).written decoded parsed
    exact .inr ⟨e, rfl, formed, rfl⟩
  · cases taken

theorem claim_shown
    : ShowsFields Prod.fst (readClaimField nfc) claimSlots (fun pair => Decoded pair.2) := by
  intro fields next pair decoded taken other
  rcases readClaimField_eq_ok nfc decoded taken with ⟨v, rfl, -, rfl⟩ | ⟨e, rfl, -, rfl⟩
  all_goals
    simp only [claimSlots, List.mem_append, mem_slot]
    grind

theorem claim_ordered (fields : ClaimFields)
    : ((claimSlots fields).map encodedKey).Pairwise (· < ·) :=
  @ascending_of_keys _ [.u 1, .u 2] (slots_keys slot_keys) (by decide)

/-- The fields that are present are well formed. -/
structure FieldsWellFormed (fields : ClaimFields) : Prop where
  known : ∀ v, fields.classCode = some v → 0 ≤ v ∧ v ≤ 4
  envelope : ∀ e, fields.envelope = some e → EnvelopeWellFormed nfc e

/-- What was read of a claim is well formed; an invariant of the loop. -/
theorem claim_formed {pairs : List (Value × Value)} {fields : ClaimFields}
    (members : ∀ pair ∈ pairs, Decoded pair.2)
    (ran : pairs.foldlM (readClaimField nfc) {} = .ok fields)
    : FieldsWellFormed nfc fields := by
  have initial : FieldsWellFormed nfc {} := ⟨nofun, nofun⟩
  refine @foldlM_invariant _ _ _ _ _ _ _ (fun _ state => FieldsWellFormed nfc state) ?_ initial ran
  intro seen pair rest state next split held taken
  rcases readClaimField_eq_ok nfc (members pair (by simp [split])) taken with
    ⟨v, -, known, rfl⟩ | ⟨e, -, formed, rfl⟩
  · refine ⟨?_, held.envelope⟩
    intro v' present
    obtain rfl := Option.some.inj present
    exact known
  · refine ⟨held.known, ?_⟩
    intro e' present
    obtain rfl := Option.some.inj present
    exact formed

theorem fromCode_known {code : Int} (known : 0 ≤ code ∧ code ≤ 4) : fromCode code = code := by
  simp [fromCode, noHazard, motionInSharedSpace, known]

/-- The reader of a claim inverts the encoding of the well-formed ones, over the envelope that
it holds.
Witness: the keys come in order and once each, and the class that is read back from its code is
the one that was written.
-/
theorem claim_inverse
    : InverseOn (HazardClaim.fromValue nfc) HazardClaim.toValue (ClaimWellFormed nfc) where
  written := by
    intro v c decoded parsed
    cases v with
    | m pairs =>
        simp only [HazardClaim.fromValue, bind_eq_ok] at parsed
        obtain ⟨fields, ran, parsed⟩ := parsed
        obtain ⟨ordered, members⟩ := decoded_m decoded
        obtain ⟨known, formed⟩ := claim_formed nfc members ran
        obtain rfl := pairs_eq_shows (claim_shown nfc) ordered (claim_ordered fields) members
          rfl ran
        split at parsed
        · rename_i code envelope
          obtain rfl := Except.ok.inj parsed
          have same := fromCode_known (known code rfl)
          refine ⟨?_, by rw [same]; exact known code rfl, formed _ rfl⟩
          simp [claimSlots, HazardClaim.toValue, same]
        · cases parsed
    | _ => cases parsed
  read := by
    intro c formed
    have envelope := (envelope_inverse nfc).read formed.envelope
    have same := fromCode_known formed.known
    have inRange : ¬ ¬ (noHazard ≤ c.hazardClass ∧ c.hazardClass ≤ motionInSharedSpace) :=
      not_not.mpr formed.known
    simp only [HazardClaim.fromValue, HazardClaim.toValue, List.foldlM_cons, List.foldlM_nil,
      readClaimField, raiseIf_neg inRange, ok_bind, pure_eq_ok, envelope, same]

theorem claim_inOrder (c : HazardClaim) : InOrder 6 c.toValue := by
  refine .m (claim_ordered ⟨some c.hazardClass, some c.envelope⟩) (by decide) ?_
  simp only [List.forall_mem_cons]
  exact ⟨⟨trivial, .leaf trivial (by decide)⟩, ⟨trivial, envelope_inOrder c.envelope⟩, nofun⟩

theorem hazardClaim_eq_ok {b : Bytes} {c : HazardClaim}
    : (decode b >>= HazardClaim.fromValue nfc) = .ok c
      ↔ c.bytes = .ok b ∧ ClaimWellFormed nfc c :=
  (claim_inverse nfc).parse_iff (show 6 ≤ unboundedDepth by decide) claim_inOrder

end Claims

end Naalp.Bodies
