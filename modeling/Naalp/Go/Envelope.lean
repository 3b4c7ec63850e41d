import Naalp.Go.Cose
import Naalp.Python.Envelope

/-! The object verifier of `impl/go/envelope/envelope.go`.
The field numbers, bounds and registered ids are generated for both implementations from one
table, so they are those of the Python layer.
-/

namespace Naalp.Go.Envelope

open Naalp.Foundation
open Naalp.Python (Kind PyStr)
open Naalp.Python.Cbor (Value)
open Naalp.Python.Cose (algComposite65Ed25519 profileSovereign)
open Naalp.Python.Envelope (fieldId fieldKind fieldChannel fieldTier fieldSigner fieldCreated
  fieldEffect fieldCauses fieldProfile fieldBody fieldExt fieldCext fieldAudience fieldSuite
  naalpVersion headerLabel maxObjectSize maxCauses maxExt maxCext maxNestingDepth
  suiteMldsa65Ed25519 recheckKey isKnownRecheckProcedure isRotationObject)
open Naalp.Go.Cose (SignatureLibrary Verifier algLevel profileMinLevel)

def errContentIDMismatch : Stop :=
  .error .contentIdMismatch "id does not equal the recomputed content id"
def errHeaderBodyMismatch : Stop :=
  .error .headerBodyMismatch "protected-header signer/profile disagree with the body"
def errUnknownCriticalExt : Stop :=
  .error .unknownCriticalExt "unrecognized critical extension key"
def errUnknownKind : Stop := .error .unknownKind "kind/channel not recognized by any surface"
def errRangeError : Stop := .error .rangeError "field value outside its permitted range"
def errUnsupportedVersion : Stop := .error .unsupportedVersion "unsupported naalp-version"
def errMalformed : Stop := .error .malformed "malformed object"
def errNonCanonical : Stop :=
  .error .nonCanonical
    "non-canonical encoding: empty protected header must be 0x40, not 0x41A0 (§3.1.1, R5)"
def errTooLarge : Stop := .error .tooLarge "object exceeds the maximum octet size (§3.4, R7)"
def errTooManyCauses : Stop :=
  .error .tooManyCauses "causes[] exceeds the maximum count (§3.4, R7)"
def errTooManyExtensions : Stop :=
  .error .tooManyExtensions "ext/cext exceeds the maximum cardinality (§3.4, R7)"

def errRotationUnauthorized : Stop :=
  .error .rotationUnauthorized "rotation object not co-signed by the old key"

/-- A decoded object body. A nil extension map is `none`; an empty audience and a zero suite
stand for absent fields.
-/
structure Object where
  id : Bytes
  kind : Int
  channel : Int
  tier : Int
  signer : Bytes
  created : Int
  effect : Int
  causes : List Bytes
  profile : Int
  body : Value
  ext : Option (List (Value × Value))
  cext : Option (List (Value × Value))
  audience : PyStr
  suite : Int

def asUint : Value → Result Int
  | .u v => return v
  | _ => throw errMalformed

def asBstr : Value → Result Bytes
  | .b v => return v
  | _ => throw errMalformed

def asTstr : Value → Result PyStr
  | .t v => return v
  | _ => throw errMalformed

def asArr : Value → Result (List Value)
  | .a items => return items
  | _ => throw errMalformed

def asMap : Value → Result (List (Value × Value))
  | .m pairs => return pairs
  | _ => throw errMalformed

/-- The object read so far; a required field is `some` once its `have` flag is set. -/
structure BodyFields where
  id : Bytes := []
  kind : Option Int := none
  channel : Option Int := none
  tier : Option Int := none
  signer : Option Bytes := none
  created : Option Int := none
  effect : Option Int := none
  causes : Option (List Bytes) := none
  profile : Option Int := none
  body : Option Value := none
  ext : Option (List (Value × Value)) := none
  cext : Option (List (Value × Value)) := none
  audience : PyStr := []
  suite : Int := 0

/-- An extension map within its cardinality bound. -/
def boundedMap (bound : Nat) (v : Value) : Result (List (Value × Value)) := do
  let mm ← asMap v
  raiseIf (mm.length > bound) errTooManyExtensions
  return mm

/-- The items of the causes array, within the causal fan-in bound. -/
def boundedCauses (v : Value) : Result (List Bytes) := do
  let a ← asArr v
  raiseIf (a.length > maxCauses) errTooManyCauses
  a.mapM asBstr

/-- One round of the loop of `objectFromMap`; an unknown field number is refused. -/
def BodyFields.readPair (o : BodyFields) : Value × Value → Result BodyFields
  | (.u k, v) =>
      if k = fieldId then return { o with id := ← asBstr v }
      else if k = fieldKind then return { o with kind := some (← asUint v) }
      else if k = fieldChannel then return { o with channel := some (← asUint v) }
      else if k = fieldTier then return { o with tier := some (← asUint v) }
      else if k = fieldSigner then return { o with signer := some (← asBstr v) }
      else if k = fieldCreated then return { o with created := some (← asUint v) }
      else if k = fieldEffect then return { o with effect := some (← asUint v) }
      else if k = fieldCauses then
        return { o with causes := some (o.causes.getD [] ++ (← boundedCauses v)) }
      else if k = fieldProfile then return { o with profile := some (← asUint v) }
      else if k = fieldBody then return { o with body := some v }
      else if k = fieldExt then return { o with ext := some (← boundedMap maxExt v) }
      else if k = fieldCext then return { o with cext := some (← boundedMap maxCext v) }
      else if k = fieldAudience then return { o with audience := ← asTstr v }
      else if k = fieldSuite then return { o with suite := ← asUint v }
      else throw errMalformed
  | _ => throw errMalformed

/-- The object, once every required field was seen. -/
def BodyFields.finish : BodyFields → Result Object
  | ⟨id, some kind, some channel, some tier, some signer, some created, some effect, some causes,
      some profile, some body, ext, cext, audience, suite⟩ =>
      return {
        id := id, kind, channel, tier, signer, created, effect, causes, profile, body, ext, cext,
        audience, suite
      }
  | _ => throw errMalformed

def objectFromMap (m : List (Value × Value)) : Result Object := do
  let read ← m.foldlM BodyFields.readPair {}
  read.finish

/-- The header read so far; `alg` is `some` once `haveAlg` is set. -/
structure HeaderFields where
  alg : Option Int := none
  signer : Bytes := []
  profile : Int := 0
  version : Int := 0
  haveNaalp : Bool := false

/-- The inner loop of `parseProtected`; entries of other types are passed over. -/
def HeaderFields.readRouting (h : HeaderFields) : Value × Value → HeaderFields
  | (.u 1, .b signer) => { h with signer }
  | (.u 2, .u profile) => { h with profile }
  | (.u 3, .u version) => { h with version }
  | _ => h

/-- The outer loop of `parseProtected`. -/
def HeaderFields.readEntry (h : HeaderFields) : Value × Value → Result HeaderFields
  | (.u k, v) =>
      if k = 1 then
        match v with
        | .n alg => return { h with alg := some alg }
        | _ => throw errMalformed
      else return h
  | (.t label, v) => do
      if label = headerLabel then
        let nm ← asMap v
        return { nm.foldl readRouting h with haveNaalp := true }
      else return h
  | _ => return h

def parseProtected (prot : Bytes) : Result (Int × Bytes × Int × Int) := do
  raiseIf (prot = [0xA0]) errNonCanonical
  let .ok (.m pairs) := Cbor.decode prot | throw errMalformed
  match ← pairs.foldlM HeaderFields.readEntry {} with
  | ⟨some alg, signer, profile, version, true⟩ => return (alg, signer, profile, version)
  | _ => throw errMalformed

/-- One round of the content-id loop: the claimed id and the pairs other than it. -/
def splitPair (state : Bytes × List (Value × Value))
    : Value × Value → Result (Bytes × List (Value × Value))
  | (.u k, v) => do
      if k = fieldId then return (← asBstr v, state.2)
      else return (state.1, state.2 ++ [(.u k, v)])
  | pair => return (state.1, state.2 ++ [pair])

/-- The content-id check. An empty id is the nil slice, which counts as absent. -/
def checkContentID (bodyMap : List (Value × Value)) : Result Unit := do
  let (claimedID, withoutID) ← bodyMap.foldlM splitPair ([], [])
  raiseIf (claimedID = []) errMalformed
  let recomputed ← Cbor.contentID withoutID
  raiseIf (recomputed ≠ claimedID) errContentIDMismatch

/-- One round of the critical-extension loop. -/
def checkCextEntry (knownCext : Int → Bool) : Value × Value → Result Unit
  | (.u k, v) =>
      if k = recheckKey then do
        let id ← asUint v
        raiseIf (isKnownRecheckProcedure id = false) errUnknownCriticalExt
      else raiseIf (knownCext k = false) errUnknownCriticalExt
  | _ => throw errUnknownCriticalExt

/-- `decodeAndCheck`: the checks that do not depend on the tag; returns the object and the
header's alg.
-/
def decodeAndCheck (prot payload : Bytes) (knownCext : Int → Bool) : Result (Object × Int) := do
  let .m bodyMap ← Cbor.decodeBounded payload maxNestingDepth | throw errMalformed
  checkContentID bodyMap
  let o ← objectFromMap bodyMap
  raiseIf (o.channel > 19 ∨ o.effect > 3 ∨ o.profile < 1 ∨ o.profile > 3) errRangeError
  let (alg, hSigner, hProfile, hVersion) ← parseProtected prot
  raiseIf (hVersion ≠ naalpVersion) errUnsupportedVersion
  raiseIf (hSigner ≠ o.signer ∨ hProfile ≠ o.profile) errHeaderBodyMismatch
  (o.cext.getD []).forM (checkCextEntry knownCext)
  return (o, alg)

section Verifying

variable (lib : SignatureLibrary)

/-- The signature stage of `Verify`: the composite path or the pure one. -/
def checkSignature (profile : Int) (v : Verifier) (alg : Int) (o : Object) (tbs sig : Bytes)
    : Result Unit :=
  if alg = algComposite65Ed25519 then do
    raiseIf (profile = profileSovereign) Cose.errCompositeRefused
    raiseIf (o.suite ≠ suiteMldsa65Ed25519) Cose.errSuiteMismatch
    raiseIf ((algLevel alg).1 < profileMinLevel profile) Cose.errProfileDowngrade
    raiseIf (alg ≠ v.alg) Cose.errKeyAlgMismatch
    let .composite ml65 ed := v | throw Cose.errKeyAlgMismatch
    Cose.verifyComposite lib ml65 ed tbs sig
  else do
    raiseIf (o.suite ≠ 0) Cose.errSuiteMismatch
    raiseIf ((algLevel alg).1 < profileMinLevel profile) Cose.errProfileDowngrade
    raiseIf (alg ≠ v.alg) Cose.errKeyAlgMismatch
    let valid ← v.verifyRaw lib tbs sig
    raiseIf (valid = false) Cose.errBadSignature

/-- `Verify`; a nil kind validator rejects every kind. -/
def verify (profile : Int) (v : Verifier) (kindOK : Option (Int → Int → Bool))
    (knownCext : Int → Bool) (obj : Bytes) : Result Object := do
  raiseIf (obj.length > maxObjectSize) errTooLarge
  let .ok (prot, payload, sig) := Cose.parseSign1Raw obj | throw errMalformed
  let (o, alg) ← decodeAndCheck prot payload knownCext
  raiseIf (isRotationObject o.channel o.kind) errRotationUnauthorized
  raiseIf ((kindOK.map fun accepts => accepts o.channel o.kind) ≠ some true) errUnknownKind
  raiseIf ((algLevel alg).2 = false) Cose.errUnknownAlg
  let tbs ← Cose.toBeSignedRaw prot payload
  checkSignature lib profile v alg o tbs sig
  return o

end Verifying

end Naalp.Go.Envelope

/-! Signing an object in `impl/go/envelope/envelope.go`. -/

namespace Naalp.Go.Envelope

open Naalp.Foundation
open Naalp.Python.Cbor (Value)
open Naalp.Python.Cose (algComposite65Ed25519)
open Naalp.Python.Envelope (fieldId fieldKind fieldChannel fieldTier fieldSigner fieldCreated
  fieldEffect fieldCauses fieldProfile fieldBody fieldExt fieldCext fieldAudience fieldSuite
  naalpVersion headerLabel suiteMldsa65Ed25519)

/-- `cose.Signer`: an alg and what signs a message under it. -/
structure Signer where
  alg : Int
  sign : Bytes → Result Bytes

def compositeSuiteForAlg (alg : Int) : Option Int :=
  if alg = algComposite65Ed25519 then some suiteMldsa65Ed25519 else none

def causesArr (causes : List Bytes) : Value := .a (causes.map .b)

def Object.bodyMap (o : Object) (includeID : Bool) : List (Value × Value) :=
  (if includeID then [(.u fieldId, .b o.id)] else [])
  ++ [(.u fieldKind, .u o.kind), (.u fieldChannel, .u o.channel), (.u fieldTier, .u o.tier),
    (.u fieldSigner, .b o.signer), (.u fieldCreated, .u o.created),
    (.u fieldEffect, .u o.effect), (.u fieldCauses, causesArr o.causes),
    (.u fieldProfile, .u o.profile), (.u fieldBody, o.body)]
  ++ (o.ext.map (fun m => (.u fieldExt, .m m))).toList
  ++ (o.cext.map (fun m => (.u fieldCext, .m m))).toList
  ++ (if o.audience ≠ [] then [(.u fieldAudience, .t o.audience)] else [])
  ++ (if o.suite ≠ 0 then [(.u fieldSuite, .u o.suite)] else [])

def Object.contentID (o : Object) : Result Bytes := Cbor.contentID (o.bodyMap false)

def protectedHeader (alg : Int) (signer : Bytes) (profile : Int) : Result Bytes :=
  let naalp : Value := .m [(.u 1, .b signer), (.u 2, .u profile), (.u 3, .u naalpVersion)]
  Cbor.encode (.m [(.u 1, .n alg), (.t headerLabel, naalp)])

/-- `Sign`: the suite field is set from the signer's alg, or cleared. -/
def sign (o : Object) (signer : Signer) : Result Bytes := do
  let o := { o with suite := (compositeSuiteForAlg signer.alg).getD 0 }
  let id ← o.contentID
  let o := { o with id }
  let payload ← Cbor.encode (.m (o.bodyMap true))
  let prot ← protectedHeader signer.alg o.signer o.profile
  let tbs ← Cose.toBeSignedRaw prot payload
  let sig ← signer.sign tbs
  Cose.assembleSign1Raw prot payload sig

end Naalp.Go.Envelope
