import Naalp.Python.RawRecords

/-! The physical-hazard claims of `impl/python/naalp/hazard.py`, and their containment in a grant.
Every malformed body raises the one `HazardMalformed` with its own text.
-/

namespace Naalp.Python.Hazard

open Naalp.Foundation
open Naalp.Python.Cbor

def hazardMalformed : Exc := .hazardError .hazardMalformed
  "hazard body is not the spec/naalp-draft-01.cddl shape, or an axis/frame is invalid"

def noHazard : Int := 0
def motionInSharedSpace : Int := 4

/-- `from_code`: a class outside 0..4 counts as the highest. -/
def fromCode (code : Int) : Int :=
  if noHazard ≤ code ∧ code ≤ motionInSharedSpace then code else motionInSharedSpace

-----------------------------------------------------------------------------------------
-- Spatial bounds
-----------------------------------------------------------------------------------------

/-- `_int_value`. -/
def intValue (v : Int) : Value := if 0 ≤ v then .u v else .n v

/-- `_int_from_value`. -/
def intFromValue : Value → Py Int
  | .u v | .n v => return v
  | _ => throw hazardMalformed

/-- A coordinate frame and the bounds of each of its axes, in millimeters. -/
structure SpatialBounds where
  frame : PyStr
  axes : List (Int × Int)
  deriving DecidableEq

def axisValue (axis : Int × Int) : Value := .a [intValue axis.1, intValue axis.2]

def SpatialBounds.toValue (sb : SpatialBounds) : Value :=
  .m [(.u 1, .t sb.frame), (.u 2, .a (sb.axes.map axisValue))]

/-- One round of the loop over the axes. -/
def axisFromValue : Value → Py (Int × Int)
  | .a [least, most] => do
      let mn ← intFromValue least
      let mx ← intFromValue most
      raiseIf (mn > mx) hazardMalformed
      return (mn, mx)
  | _ => throw hazardMalformed

def axesFromValue : Value → Py (List (Int × Int))
  | .a items => do
      raiseIf (items = []) hazardMalformed
      items.mapM axisFromValue
  | _ => throw hazardMalformed

/-- The fields seen so far by `SpatialBounds.from_value`. -/
structure SpatialFields where
  frame : Option PyStr := none
  axes : Option (List (Int × Int)) := none

def readSpatialField (fields : SpatialFields) : Value × Value → Py SpatialFields
  | (.u 1, .t frame) => return { fields with frame := some frame }
  | (.u 2, val) => return { fields with axes := some (← axesFromValue val) }
  | _ => throw hazardMalformed

section Spatial

-- `nfc` is `unicodedata.normalize("NFC", ·)`.
variable (nfc : PyStr → PyStr)

def SpatialBounds.isWellFormed (sb : SpatialBounds) : Bool :=
  sb.axes ≠ [] ∧ (∀ axis ∈ sb.axes, axis.1 ≤ axis.2) ∧ sb.frame ≠ []
  ∧ (Identity.requireNfc nfc sb.frame).isOk

def SpatialBounds.fromValue : Value → Py SpatialBounds
  | .m pairs => do
      match ← pairs.foldlM readSpatialField {} with
      | ⟨some frame, some axes⟩ => do
          let sb : SpatialBounds := { frame, axes }
          raiseIf (sb.isWellFormed nfc = false) hazardMalformed
          return sb
      | _ => throw hazardMalformed
  | _ => throw hazardMalformed

end Spatial

-----------------------------------------------------------------------------------------
-- Windows
-----------------------------------------------------------------------------------------

structure HazardWindow where
  notBefore : Int
  notAfter : Int
  deriving DecidableEq

def HazardWindow.toValue (w : HazardWindow) : Value :=
  .m [(.u 1, .u w.notBefore), (.u 2, .u w.notAfter)]

/-- The fields seen so far by `HazardWindow.from_value`. -/
structure WindowFields where
  notBefore : Option Int := none
  notAfter : Option Int := none

def readWindowField (fields : WindowFields) : Value × Value → Py WindowFields
  | (.u 1, .u notBefore) => return { fields with notBefore := some notBefore }
  | (.u 2, .u notAfter) => return { fields with notAfter := some notAfter }
  | _ => throw hazardMalformed

def HazardWindow.fromValue : Value → Py HazardWindow
  | .m pairs => do
      match ← pairs.foldlM readWindowField {} with
      | ⟨some notBefore, some notAfter⟩ => return { notBefore, notAfter }
      | _ => throw hazardMalformed
  | _ => throw hazardMalformed

-----------------------------------------------------------------------------------------
-- Envelopes and claims
-----------------------------------------------------------------------------------------

structure HazardEnvelope where
  spatial : SpatialBounds
  speedBound : Int
  window : HazardWindow
  deriving DecidableEq

def HazardEnvelope.toValue (e : HazardEnvelope) : Value :=
  .m [(.u 1, e.spatial.toValue), (.u 2, .u e.speedBound), (.u 3, e.window.toValue)]

/-- The fields seen so far by `HazardEnvelope.from_value`. -/
structure EnvelopeFields where
  spatial : Option SpatialBounds := none
  speed : Option Int := none
  window : Option HazardWindow := none

structure HazardClaim where
  hazardClass : Int
  envelope : HazardEnvelope
  deriving DecidableEq

/-- `_body_to_value`, which claims and authorizations share. -/
def HazardClaim.toValue (c : HazardClaim) : Value :=
  .m [(.u 1, .u c.hazardClass), (.u 2, c.envelope.toValue)]

def HazardClaim.bytes (c : HazardClaim) : Py Bytes := encode c.toValue

/-- The fields seen so far by `_body_from_value`. -/
structure ClaimFields where
  classCode : Option Int := none
  envelope : Option HazardEnvelope := none

section Claims

variable (nfc : PyStr → PyStr)

def readEnvelopeField (fields : EnvelopeFields) : Value × Value → Py EnvelopeFields
  | (.u 1, val) => return { fields with spatial := some (← SpatialBounds.fromValue nfc val) }
  | (.u 2, .u speed) => return { fields with speed := some speed }
  | (.u 3, val) => return { fields with window := some (← HazardWindow.fromValue val) }
  | _ => throw hazardMalformed

def HazardEnvelope.fromValue : Value → Py HazardEnvelope
  | .m pairs => do
      match ← pairs.foldlM (readEnvelopeField nfc) {} with
      | ⟨some spatial, some speedBound, some window⟩ => return { spatial, speedBound, window }
      | _ => throw hazardMalformed
  | _ => throw hazardMalformed

def readClaimField (fields : ClaimFields) : Value × Value → Py ClaimFields
  | (.u 1, .u code) => do
      raiseIf (¬ (noHazard ≤ code ∧ code ≤ motionInSharedSpace)) hazardMalformed
      return { fields with classCode := some code }
  | (.u 2, val) => return { fields with envelope := some (← HazardEnvelope.fromValue nfc val) }
  | _ => throw hazardMalformed

/-- `HazardClaim.from_value`, by `_body_from_value`. -/
def HazardClaim.fromValue : Value → Py HazardClaim
  | .m pairs => do
      match ← pairs.foldlM (readClaimField nfc) {} with
      | ⟨some classCode, some envelope⟩ => return { hazardClass := fromCode classCode, envelope }
      | _ => throw hazardMalformed
  | _ => throw hazardMalformed

end Claims

/-- The body of a grant, which has the shape of a claim's. -/
abbrev HazardAuthorization : Type := HazardClaim

-----------------------------------------------------------------------------------------
-- Containment
-----------------------------------------------------------------------------------------

def spatialContained (claim grant : SpatialBounds) : Bool :=
  claim.frame = grant.frame ∧ claim.axes.length = grant.axes.length
  ∧ ∀ axes ∈ claim.axes.zip grant.axes, axes.2.1 ≤ axes.1.1 ∧ axes.1.2 ≤ axes.2.2

def envelopeContained (claim grant : HazardEnvelope) : Bool :=
  spatialContained claim.spatial grant.spatial ∧ claim.speedBound ≤ grant.speedBound
  ∧ grant.window.notBefore ≤ claim.window.notBefore
  ∧ claim.window.notAfter ≤ grant.window.notAfter

def hazardNotCovered : Exc := .hazardError .hazardNotCovered
  "declared hazard class or envelope is not fully covered by the authorization"

def hazardAuthorized (claim : HazardClaim) (grant : HazardAuthorization) : Py Unit := do
  raiseIf (claim.hazardClass ≠ grant.hazardClass) hazardNotCovered
  raiseIf (envelopeContained claim.envelope grant.envelope = false) hazardNotCovered

end Naalp.Python.Hazard
