import Naalp.Go.Cbor
import Naalp.Python.Hazard

/-! The parser of hazard claims of `impl/go/hazard/hazard.go`. The records are those of the Python
port; an axis bound is an `int64`, so a wider one is refused.
-/

namespace Naalp.Go.Hazard

open Naalp.Foundation
open Naalp.Python (PyStr)
open Naalp.Python.Cbor (Value)
open Naalp.Python.Hazard (SpatialBounds SpatialFields HazardWindow WindowFields HazardEnvelope
  EnvelopeFields HazardClaim ClaimFields)

def errHazardMalformed : Stop := .error .hazardMalformed
  "hazard body is not the spec/naalp-draft-01.cddl shape, or an axis/frame is invalid"

def hazardClassMotionInSharedSpace : Int := 4

/-- `HazardClassFromCode`: a class that is absent or outside 0..4 counts as the highest. -/
def hazardClassFromCode : Option Int → Int
  | some code => if 0 ≤ code ∧ code ≤ 4 then code else hazardClassMotionInSharedSpace
  | none => hazardClassMotionInSharedSpace

/-- `intFromValue`; a `Nint` is an `int64` already. -/
def intFromValue : Value → Option Int
  | .u t => if t > maxInt64 then none else some t
  | .n t => some t
  | _ => none

/-- One round of the loop over the axes. -/
def axisFromValue : Value → Result (Int × Int)
  | .a [least, most] => do
      let (some min, some max) := (intFromValue least, intFromValue most) | throw errHazardMalformed
      raiseIf (min > max) errHazardMalformed
      return (min, max)
  | _ => throw errHazardMalformed

def axesFromValue : Value → Result (List (Int × Int))
  | .a items => do
      raiseIf (items = []) errHazardMalformed
      items.mapM axisFromValue
  | _ => throw errHazardMalformed

def readSpatialField (fields : SpatialFields) : Value × Value → Result SpatialFields
  | (.u 1, .t frame) => return { fields with frame := some frame }
  | (.u 2, val) => return { fields with axes := some (← axesFromValue val) }
  | _ => throw errHazardMalformed

def readWindowField (fields : WindowFields) : Value × Value → Result WindowFields
  | (.u 1, .u notBefore) => return { fields with notBefore := some notBefore }
  | (.u 2, .u notAfter) => return { fields with notAfter := some notAfter }
  | _ => throw errHazardMalformed

def hazardWindowFromValue : Value → Result HazardWindow
  | .m pairs => do
      match ← pairs.foldlM readWindowField {} with
      | ⟨some notBefore, some notAfter⟩ => return { notBefore, notAfter }
      | _ => throw errHazardMalformed
  | _ => throw errHazardMalformed

section Claims

-- `isNormal` is `norm.NFC.IsNormalString`.
variable (isNormal : PyStr → Bool)

def isWellFormed (s : SpatialBounds) : Bool :=
  s.axes ≠ [] ∧ (∀ axis ∈ s.axes, ¬ axis.1 > axis.2) ∧ s.frame ≠ [] ∧ isNormal s.frame

def spatialBoundsFromValue : Value → Result SpatialBounds
  | .m pairs => do
      match ← pairs.foldlM readSpatialField {} with
      | ⟨some frame, some axes⟩ => do
          let sb : SpatialBounds := { frame, axes }
          raiseIf (isWellFormed isNormal sb = false) errHazardMalformed
          return sb
      | _ => throw errHazardMalformed
  | _ => throw errHazardMalformed

def readEnvelopeField (fields : EnvelopeFields) : Value × Value → Result EnvelopeFields
  | (.u 1, val) => return { fields with spatial := some (← spatialBoundsFromValue isNormal val) }
  | (.u 2, .u speed) => return { fields with speed := some speed }
  | (.u 3, val) => return { fields with window := some (← hazardWindowFromValue val) }
  | _ => throw errHazardMalformed

def hazardEnvelopeFromValue : Value → Result HazardEnvelope
  | .m pairs => do
      match ← pairs.foldlM (readEnvelopeField isNormal) {} with
      | ⟨some spatial, some speedBound, some window⟩ => return { spatial, speedBound, window }
      | _ => throw errHazardMalformed
  | _ => throw errHazardMalformed

def readClaimField (fields : ClaimFields) : Value × Value → Result ClaimFields
  | (.u 1, .u code) => do
      raiseIf (code > 4) errHazardMalformed
      return { fields with classCode := some code }
  | (.u 2, val) => return { fields with envelope := some (← hazardEnvelopeFromValue isNormal val) }
  | _ => throw errHazardMalformed

/-- `HazardClaimFromValue`, by `hazardBodyFromValue`. -/
def hazardClaimFromValue : Value → Result HazardClaim
  | .m pairs => do
      match ← pairs.foldlM (readClaimField isNormal) {} with
      | ⟨some classCode, some envelope⟩ =>
          return { hazardClass := hazardClassFromCode (some classCode), envelope }
      | _ => throw errHazardMalformed
  | _ => throw errHazardMalformed

end Claims

end Naalp.Go.Hazard
