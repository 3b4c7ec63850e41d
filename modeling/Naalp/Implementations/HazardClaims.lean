import Naalp.Bodies.Hazards
import Naalp.Go.Hazard
import Naalp.Implementations.Codec

/-! Hazard claims as the Python and the Go parsers accept them. They differ on the axis bounds that
are no `int64`.
-/

namespace Naalp.Implementations

open Naalp.Foundation
open Naalp.Python
open Naalp.Python.Cbor
open Naalp.Python.Hazard
open Naalp.Bodies
open Naalp.Go (maxInt64)

-----------------------------------------------------------------------------------------
-- Bounds
-----------------------------------------------------------------------------------------

/-- The bounds of an axis are `int64` numbers. -/
def AxisFits (axis : Int × Int) : Prop :=
  (-2 ^ 63 ≤ axis.1 ∧ axis.1 ≤ maxInt64) ∧ (-2 ^ 63 ≤ axis.2 ∧ axis.2 ≤ maxInt64)

/-- An integer as the encoder writes it is read back in Go when it is an `int64`. -/
theorem goInt_intValue {i j : Int}
    : Go.Hazard.intFromValue (intValue i) = some j ↔ i = j ∧ i ≤ maxInt64 := by
  unfold intValue
  split
  · by_cases wide : i > maxInt64
    · simp [Go.Hazard.intFromValue, wide]
    · simp [Go.Hazard.intFromValue, wide, not_lt.mp wide]
  · rename_i negative
    have below : i ≤ maxInt64 := by
      have positive : (0 : Int) ≤ maxInt64 := by decide
      omega
    simp [Go.Hazard.intFromValue, below]

/-- Go reads an axis back when both of its ends fit in 64 bits. -/
theorem goAxis_axisValue {axis other : Int × Int} (ordered : axis.1 ≤ axis.2)
    : Go.Hazard.axisFromValue (axisValue axis) = .ok other
      ↔ other = axis ∧ axis.1 ≤ maxInt64 ∧ axis.2 ≤ maxInt64 := by
  obtain ⟨least, most⟩ := axis
  simp only [axisValue, Go.Hazard.axisFromValue]
  split
  · rename_i min max read
    simp only [Prod.mk.injEq, goInt_intValue] at read
    obtain ⟨⟨rfl, fits⟩, rfl, fits'⟩ := read
    simp [raiseIf_neg (not_lt.mpr ordered), fits, fits', eq_comm]
  · rename_i unread
    refine iff_of_false (fun read => by cases read) ?_
    rintro ⟨-, fits, fits'⟩
    refine unread least most ?_
    rw [Prod.mk.injEq]
    exact ⟨goInt_intValue.mpr ⟨rfl, fits⟩, goInt_intValue.mpr ⟨rfl, fits'⟩⟩

/-- The axes are read back one by one, by induction over them. -/
theorem goAxes_mapM {axes others : List (Int × Int)} (ordered : ∀ axis ∈ axes, axis.1 ≤ axis.2)
    : (axes.map axisValue).mapM Go.Hazard.axisFromValue = .ok others
      ↔ others = axes ∧ ∀ axis ∈ axes, axis.1 ≤ maxInt64 ∧ axis.2 ≤ maxInt64 := by
  induction axes generalizing others with
  | nil => simp [eq_comm]
  | cons axis rest ih =>
      obtain ⟨first, orderedRest⟩ := List.forall_mem_cons.mp ordered
      simp only [List.map_cons, List.mapM_cons, bind_eq_ok, goAxis_axisValue first, ih orderedRest,
        pure_eq_ok, Except.ok.injEq, List.forall_mem_cons]
      constructor
      · rintro ⟨_, ⟨rfl, fits⟩, _, ⟨rfl, fitsRest⟩, rfl⟩
        exact ⟨rfl, fits, fitsRest⟩
      · rintro ⟨rfl, fits, fitsRest⟩
        exact ⟨axis, ⟨rfl, fits⟩, rest, ⟨rfl, fitsRest⟩, rfl⟩

theorem goAxes_eq_ok {axes others : List (Int × Int)} (nonempty : axes ≠ [])
    (ordered : ∀ axis ∈ axes, axis.1 ≤ axis.2)
    : Go.Hazard.axesFromValue (.a (axes.map axisValue)) = .ok others
      ↔ others = axes ∧ ∀ axis ∈ axes, axis.1 ≤ maxInt64 ∧ axis.2 ≤ maxInt64 := by
  rw [Go.Hazard.axesFromValue, raiseIf_neg (by simpa using nonempty), ok_bind, goAxes_mapM ordered]

-----------------------------------------------------------------------------------------
-- Envelopes and claims, as they are written
-----------------------------------------------------------------------------------------

section Claims

variable {nfc : PyStr → PyStr} {isNormal : PyStr → Bool}

/-- The two normalization packages agree on which texts are in normal form. -/
def SameNormalForm (nfc : PyStr → PyStr) (isNormal : PyStr → Bool) : Prop :=
  ∀ s, isNormal s = true ↔ nfc s = s

theorem goIsWellFormed_iff (normal : SameNormalForm nfc isNormal) (sb : SpatialBounds)
    : Go.Hazard.isWellFormed isNormal sb = sb.isWellFormed nfc := by
  have nonNfc : (Identity.requireNfc nfc sb.frame).isOk = isNormal sb.frame := by
    rw [Bool.eq_iff_iff, normal sb.frame, Identity.requireNfc]
    unfold raiseIf
    split <;> simp_all [Except.isOk, Except.toBool]
  simp only [Go.Hazard.isWellFormed, SpatialBounds.isWellFormed, nonNfc, not_lt]

/-- The bounds of every axis are below 2^63. -/
def BoundsFit (sb : SpatialBounds) : Prop := ∀ axis ∈ sb.axes, axis.1 ≤ maxInt64 ∧ axis.2 ≤ maxInt64

/-- Go reads well-formed bounds back exactly when every axis fits.
Witness: the checks of both readers are the same, so only the range of the integers is left.
-/
theorem goSpatial_eq_ok (normal : SameNormalForm nfc isNormal) {sb other : SpatialBounds}
    (formed : sb.isWellFormed nfc = true)
    : Go.Hazard.spatialBoundsFromValue isNormal sb.toValue = .ok other
      ↔ other = sb ∧ BoundsFit sb := by
  have rules := formed
  simp only [SpatialBounds.isWellFormed, decide_eq_true_eq] at rules
  have goFormed : Go.Hazard.isWellFormed isNormal sb = true := by
    rw [goIsWellFormed_iff normal, formed]
  have axes {others : List (Int × Int)} := @goAxes_eq_ok sb.axes others rules.1 rules.2.1
  cases read : Go.Hazard.axesFromValue (.a (sb.axes.map axisValue)) with
  | error stop =>
      refine iff_of_false ?_ ?_
      · simp [SpatialBounds.toValue, Go.Hazard.spatialBoundsFromValue,
          Go.Hazard.readSpatialField, read]
      · rintro ⟨-, fits⟩
        rw [axes.mpr ⟨rfl, fits⟩] at read
        cases read
  | ok others =>
      obtain ⟨rfl, fits⟩ := axes.mp read
      have returned : Go.Hazard.spatialBoundsFromValue isNormal sb.toValue = .ok sb := by
        simp [SpatialBounds.toValue, Go.Hazard.spatialBoundsFromValue,
          Go.Hazard.readSpatialField, read, goFormed]
      rw [returned, Except.ok.injEq, eq_comm]
      exact ⟨fun same => ⟨same, fits⟩, fun accepted => accepted.1⟩

theorem goWindow_toValue (w : HazardWindow) : Go.Hazard.hazardWindowFromValue w.toValue = .ok w :=
  rfl

/-- Go reads a well-formed envelope back exactly when its bounds fit. -/
theorem goEnvelope_eq_ok (normal : SameNormalForm nfc isNormal) {e other : HazardEnvelope}
    (formed : EnvelopeWellFormed nfc e)
    : Go.Hazard.hazardEnvelopeFromValue isNormal e.toValue = .ok other
      ↔ other = e ∧ BoundsFit e.spatial := by
  have spatial {sb : SpatialBounds} := @goSpatial_eq_ok nfc isNormal normal e.spatial sb formed
  cases read : Go.Hazard.spatialBoundsFromValue isNormal e.spatial.toValue with
  | error stop =>
      refine iff_of_false ?_ ?_
      · simp [HazardEnvelope.toValue, Go.Hazard.hazardEnvelopeFromValue,
          Go.Hazard.readEnvelopeField, read]
      · rintro ⟨-, fits⟩
        rw [spatial.mpr ⟨rfl, fits⟩] at read
        cases read
  | ok sb =>
      obtain ⟨rfl, fits⟩ := spatial.mp read
      have returned : Go.Hazard.hazardEnvelopeFromValue isNormal e.toValue = .ok e := by
        simp [HazardEnvelope.toValue, Go.Hazard.hazardEnvelopeFromValue,
          Go.Hazard.readEnvelopeField, read, goWindow_toValue]
      rw [returned, Except.ok.injEq, eq_comm]
      exact ⟨fun same => ⟨same, fits⟩, fun accepted => accepted.1⟩

/-- Go reads a well-formed claim back exactly when its bounds fit. -/
theorem goClaim_eq_ok (normal : SameNormalForm nfc isNormal) {c other : HazardClaim}
    (formed : ClaimWellFormed nfc c)
    : Go.Hazard.hazardClaimFromValue isNormal c.toValue = .ok other
      ↔ other = c ∧ BoundsFit c.envelope.spatial := by
  have envelope {e : HazardEnvelope} :=
    @goEnvelope_eq_ok nfc isNormal normal c.envelope e formed.envelope
  cases read : Go.Hazard.hazardEnvelopeFromValue isNormal c.envelope.toValue with
  | error stop =>
      refine iff_of_false ?_ ?_
      · simp [HazardClaim.toValue, Go.Hazard.hazardClaimFromValue, Go.Hazard.readClaimField, read,
          raiseIf_neg (not_lt.mpr formed.known.2)]
      · rintro ⟨-, fits⟩
        rw [envelope.mpr ⟨rfl, fits⟩] at read
        cases read
  | ok e =>
      obtain ⟨rfl, fits⟩ := envelope.mp read
      have returned : Go.Hazard.hazardClaimFromValue isNormal c.toValue = .ok c := by
        simp [HazardClaim.toValue, Go.Hazard.hazardClaimFromValue, Go.Hazard.readClaimField, read,
          Go.Hazard.hazardClassFromCode, formed.known]
      rw [returned, Except.ok.injEq, eq_comm]
      exact ⟨fun same => ⟨same, fits⟩, fun accepted => accepted.1⟩

end Claims

-----------------------------------------------------------------------------------------
-- What Go reads, Python reads
-----------------------------------------------------------------------------------------

/-- (Narrows left right) says that the right computation returns whatever the left one returns. -/
def Narrows {ε ε' α : Type} (left : Except ε α) (right : Except ε' α) : Prop :=
  ∀ value, left = .ok value → right = .ok value

section Narrowing

variable {ε ε' α β σ : Type}

theorem narrows_refl (value : α) : Narrows (.ok value : Except ε α) (.ok value : Except ε' α) := by
  intro other same
  exact congrArg Except.ok (Except.ok.inj same)

theorem narrows_error {error : ε} {right : Except ε' α} : Narrows (.error error) right := nofun

theorem narrows_raiseIf {guard guard' : Prop} [Decidable guard] [Decidable guard'] {error : ε}
    {error' : ε'} (weaker : guard' → guard)
    : Narrows (raiseIf guard error) (raiseIf guard' error') := by
  intro done passed
  exact raiseIf_eq_ok.mpr (mt weaker (raiseIf_eq_ok.mp passed))

theorem Narrows.bind {left : Except ε α} {right : Except ε' α} {leftNext : α → Except ε β}
    {rightNext : α → Except ε' β} (first : Narrows left right)
    (next : ∀ value, Narrows (leftNext value) (rightNext value))
    : Narrows (left >>= leftNext) (right >>= rightNext) := by
  intro result ran
  obtain ⟨value, returned, later⟩ := bind_eq_ok.mp ran
  exact bind_eq_ok.mpr ⟨value, first value returned, next value result later⟩

theorem Narrows.mapM {left : α → Except ε β} {right : α → Except ε' β} {xs : List α}
    (items : ∀ x, Narrows (left x) (right x)) : Narrows (xs.mapM left) (xs.mapM right) := by
  induction xs with
  | nil => exact narrows_refl []
  | cons x rest ih =>
      rw [List.mapM_cons, List.mapM_cons]
      exact (items x).bind fun _ => ih.bind fun _ => narrows_refl _

theorem Narrows.foldlM {left : σ → α → Except ε σ} {right : σ → α → Except ε' σ} {xs : List α}
    (rounds : ∀ x ∈ xs, ∀ state, Narrows (left state x) (right state x)) (first : σ)
    : Narrows (xs.foldlM left first) (xs.foldlM right first) := by
  induction xs generalizing first with
  | nil => exact narrows_refl first
  | cons x rest ih =>
      obtain ⟨round, later⟩ := List.forall_mem_cons.mp rounds
      rw [List.foldlM_cons, List.foldlM_cons]
      exact (round first).bind (ih later)

end Narrowing

/-- An axis that Go reads is read by Python as the same one. -/
theorem axis_narrows (v : Value) : Narrows (Go.Hazard.axisFromValue v) (axisFromValue v) := by
  have int {v : Value} {i : Int} (read : Go.Hazard.intFromValue v = some i)
      : intFromValue v = .ok i := by
    unfold Go.Hazard.intFromValue at read
    split at read
    · split at read
      · cases read
      · exact congrArg Except.ok (Option.some.inj read)
    · exact congrArg Except.ok (Option.some.inj read)
    · cases read
  intro axis accepted
  unfold Go.Hazard.axisFromValue at accepted
  split at accepted
  · split at accepted
    · rename_i least most _ min max read
      rw [Prod.mk.injEq] at read
      simp only [axisFromValue, int read.1, int read.2, ok_bind]
      exact (narrows_raiseIf id).bind (fun _ => narrows_refl _) axis accepted
    · cases accepted
  · cases accepted

theorem axes_narrows (v : Value) : Narrows (Go.Hazard.axesFromValue v) (axesFromValue v) := by
  cases v with
  | a items => exact (narrows_raiseIf id).bind fun _ => Narrows.mapM axis_narrows
  | _ => exact narrows_error

theorem spatialField_narrows (fields : SpatialFields) (pair : Value × Value)
    : Narrows (Go.Hazard.readSpatialField fields pair) (readSpatialField fields pair) := by
  unfold Go.Hazard.readSpatialField readSpatialField
  split
  · exact narrows_refl _
  · exact (axes_narrows _).bind fun _ => narrows_refl _
  · exact narrows_error

section Claims

variable {nfc : PyStr → PyStr} {isNormal : PyStr → Bool}

/-- So are bounds that Go reads. -/
theorem spatial_narrows (normal : SameNormalForm nfc isNormal) (v : Value)
    : Narrows (Go.Hazard.spatialBoundsFromValue isNormal v) (SpatialBounds.fromValue nfc v) := by
  cases v with
  | m pairs =>
      refine (Narrows.foldlM (fun pair _ fields => spatialField_narrows fields pair) _).bind
        fun fields => ?_
      split
      · simp only [goIsWellFormed_iff normal]
        exact (narrows_raiseIf id).bind fun _ => narrows_refl _
      · exact narrows_error
  | _ => exact narrows_error

/-- So is a window. -/
theorem window_narrows (v : Value)
    : Narrows (Go.Hazard.hazardWindowFromValue v) (HazardWindow.fromValue v) := by
  cases v with
  | m pairs =>
      refine (Narrows.foldlM ?_ _).bind fun fields => ?_
      · intro pair _ fields
        unfold Go.Hazard.readWindowField readWindowField
        split
        · exact narrows_refl _
        · exact narrows_refl _
        · exact narrows_error
      · split
        · exact narrows_refl _
        · exact narrows_error
  | _ => exact narrows_error

/-- So is an envelope, over its bounds and its window. -/
theorem envelope_narrows (normal : SameNormalForm nfc isNormal) (v : Value)
    : Narrows (Go.Hazard.hazardEnvelopeFromValue isNormal v) (HazardEnvelope.fromValue nfc v) := by
  cases v with
  | m pairs =>
      refine (Narrows.foldlM ?_ _).bind fun fields => ?_
      · intro pair _ fields
        unfold Go.Hazard.readEnvelopeField readEnvelopeField
        split
        · exact (spatial_narrows normal _).bind fun _ => narrows_refl _
        · exact narrows_refl _
        · exact (window_narrows _).bind fun _ => narrows_refl _
        · exact narrows_error
      · split
        · exact narrows_refl _
        · exact narrows_error
  | _ => exact narrows_error

/-- A decoded class code is not negative, which the Go reader has from its type. -/
theorem claim_narrows (normal : SameNormalForm nfc isNormal) {v : Value} (decoded : Decoded v)
    : Narrows (Go.Hazard.hazardClaimFromValue isNormal v) (HazardClaim.fromValue nfc v) := by
  cases v with
  | m pairs =>
      obtain ⟨-, members⟩ := decoded_m decoded
      refine (Narrows.foldlM ?_ _).bind fun fields => ?_
      · intro pair member fields
        have value := members pair member
        unfold Go.Hazard.readClaimField readClaimField
        split
        · rename_i code
          obtain ⟨levels, canonical⟩ := value
          have positive := (encodable_u.mp canonical.encodable).1
          refine (narrows_raiseIf ?_).bind fun _ => narrows_refl _
          intro outside
          by_contra within
          exact outside ⟨positive, not_lt.mp within⟩
        · exact (envelope_narrows normal _).bind fun _ => narrows_refl _
        · exact narrows_error
      · split
        · exact narrows_refl _
        · exact narrows_error
  | _ => exact narrows_error

end Claims

-----------------------------------------------------------------------------------------
-- The two parsers
-----------------------------------------------------------------------------------------

/-- The bounds of every axis are `int64` numbers. -/
def AxesFit (c : HazardClaim) : Prop := ∀ axis ∈ c.envelope.spatial.axes, AxisFits axis

theorem nintsFit_intValue {i : Int} : NintsFit (intValue i) ↔ -2 ^ 63 ≤ i := by
  unfold intValue
  split
  · exact iff_of_true (.u i) (by omega)
  · exact nintsFit_n

theorem nintsFit_axisValue {axis : Int × Int}
    : NintsFit (axisValue axis) ↔ -2 ^ 63 ≤ axis.1 ∧ -2 ^ 63 ≤ axis.2 := by
  simp [axisValue, nintsFit_intValue]

theorem nintsFit_claim {c : HazardClaim}
    : NintsFit c.toValue
      ↔ ∀ axis ∈ c.envelope.spatial.axes, -2 ^ 63 ≤ axis.1 ∧ -2 ^ 63 ≤ axis.2 := by
  have unsigned (n : Int) : NintsFit (.u n) := .u n
  have text (s : PyStr) : NintsFit (.t s) := .t s
  simp [-Prod.forall, -Prod.exists, HazardClaim.toValue, HazardEnvelope.toValue,
    SpatialBounds.toValue, HazardWindow.toValue, nintsFit_axisValue, unsigned, text]

theorem axesFit_iff {c : HazardClaim}
    : AxesFit c ↔ NintsFit c.toValue ∧ BoundsFit c.envelope.spatial := by
  rw [nintsFit_claim, BoundsFit, AxesFit, ← forall₂_and]
  apply forall₂_congr
  intro axis _
  unfold AxisFits
  tauto

/-- Go reads from a body exactly the claim that Python reads, when its axes fit in 64 bits.
Witness: what Go reads Python reads too; a claim that Python reads is the encoding of a
well-formed one.
-/
theorem goHazardClaim_eq_ok {nfc : PyStr → PyStr} {isNormal : PyStr → Bool}
    (normal : SameNormalForm nfc isNormal) {b : Bytes} {c : HazardClaim}
    : (Go.Cbor.decode b >>= Go.Hazard.hazardClaimFromValue isNormal) = .ok c
      ↔ (decode b >>= HazardClaim.fromValue nfc) = .ok c ∧ AxesFit c := by
  simp only [bind_eq_ok, goDecode_eq_ok]
  constructor
  · rintro ⟨v, ⟨decoded, nints⟩, accepted⟩
    have parsed := claim_narrows normal (decoded_of_decode decoded) c accepted
    obtain ⟨rfl, formed⟩ := (claim_inverse nfc).written (decoded_of_decode decoded) parsed
    have bounds := ((goClaim_eq_ok normal formed).mp accepted).2
    exact ⟨⟨c.toValue, decoded, parsed⟩, axesFit_iff.mpr ⟨nints, bounds⟩⟩
  · rintro ⟨⟨v, decoded, parsed⟩, fits⟩
    obtain ⟨rfl, formed⟩ := (claim_inverse nfc).written (decoded_of_decode decoded) parsed
    obtain ⟨nints, bounds⟩ := axesFit_iff.mp fits
    exact ⟨c.toValue, ⟨decoded, nints⟩, (goClaim_eq_ok normal formed).mpr ⟨rfl, bounds⟩⟩

/-- Go accepts a body with a hazard claim exactly when Python accepts it with the same claim and
each of its axis bounds is an `int64`; and it refuses what Python refuses.
-/
theorem hazard_claims_alike (nfc : PyStr → PyStr) (isNormal : PyStr → Bool)
    (normal : SameNormalForm nfc isNormal) (b : Bytes)
    : (∀ c, (Go.Cbor.decode b >>= Go.Hazard.hazardClaimFromValue isNormal) = .ok c
        ↔ (decode b >>= HazardClaim.fromValue nfc) = .ok c ∧ AxesFit c)
      ∧ (∀ e, (decode b >>= HazardClaim.fromValue nfc) = .error e
        → ∃ stop, (Go.Cbor.decode b >>= Go.Hazard.hazardClaimFromValue isNormal)
          = .error stop) := by
  refine ⟨fun c => goHazardClaim_eq_ok normal, ?_⟩
  intro e refused
  cases answered : Go.Cbor.decode b >>= Go.Hazard.hazardClaimFromValue isNormal with
  | error stop => exact ⟨stop, rfl⟩
  | ok c =>
      have accepted := ((goHazardClaim_eq_ok normal).mp answered).1
      rw [refused] at accepted
      cases accepted

/-- A claim with one axis from -1 to the bound. -/
def reaching (bound : Int) : HazardClaim := ⟨1, ⟨⟨.lit ['a'], [(-1, bound)]⟩, 3, ⟨4, 5⟩⟩⟩

theorem reaching_accepted {bound : Int} (positive : 0 ≤ bound) {b : Bytes}
    (written : (reaching bound).bytes = .ok b)
    : (decode b >>= HazardClaim.fromValue id) = .ok (reaching bound) := by
  have known : (0 : Int) ≤ 1 ∧ (1 : Int) ≤ 4 := by decide
  refine (hazardClaim_eq_ok id).mpr ⟨written, known, ?_⟩
  have ordered : -1 ≤ bound := by omega
  simp [EnvelopeWellFormed, SpatialBounds.isWellFormed, reaching, ordered, Identity.requireNfc,
    raiseIf, Except.isOk, Except.toBool, PyStr.lit]

theorem reaching_bytes
    : (∃ b, (reaching (2 ^ 63 - 1)).bytes = .ok b) ∧ ∃ b, (reaching (2 ^ 63)).bytes = .ok b :=
  ⟨⟨_, rfl⟩, ⟨_, rfl⟩⟩

/-- The largest `int64` is a bound in both. -/
theorem hazard_claims_alike_largest
    : ∃ b, (reaching (2 ^ 63 - 1)).bytes = .ok b
      ∧ (Go.Cbor.decode b >>= Go.Hazard.hazardClaimFromValue fun _ => true)
        = .ok (reaching (2 ^ 63 - 1)) := by
  obtain ⟨b, written⟩ := reaching_bytes.1
  have accepted := reaching_accepted (by decide) written
  have normal : SameNormalForm id fun _ => true := fun _ => iff_of_true rfl rfl
  have fits : AxesFit (reaching (2 ^ 63 - 1)) := by
    simp [AxesFit, AxisFits, reaching, maxInt64]
  exact ⟨b, written, ((hazard_claims_alike id (fun _ => true) normal b).1 _).mpr ⟨accepted, fits⟩⟩

/-- The bound 2^63 is accepted in Python and refused in Go. -/
theorem wide_bound_divides_parsers
    : ∃ b, (decode b >>= HazardClaim.fromValue id) = .ok (reaching (2 ^ 63))
      ∧ ¬ ∃ c, (Go.Cbor.decode b >>= Go.Hazard.hazardClaimFromValue fun _ => true) = .ok c := by
  obtain ⟨b, written⟩ := reaching_bytes.2
  have accepted := reaching_accepted (by decide) written
  have normal : SameNormalForm id fun _ => true := fun _ => iff_of_true rfl rfl
  refine ⟨b, accepted, ?_⟩
  rintro ⟨c, goAccepted⟩
  obtain ⟨again, fits⟩ := (goHazardClaim_eq_ok normal).mp goAccepted
  obtain rfl := Except.ok.inj (accepted.symm.trans again)
  have wide := (fits (-1, 2 ^ 63) (by simp [reaching])).2.2
  simp [maxInt64] at wide

end Naalp.Implementations
