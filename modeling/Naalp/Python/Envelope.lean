import Naalp.Python.Cose

/-! The signed object of `impl/python/naalp/envelope.py`: its body map, signing and the
offline verifier.
-/

namespace Naalp.Python.Envelope

open Naalp.Foundation
open Naalp.Python.Cbor
open Naalp.Python.Cose

def fieldId : Int := 1
def fieldKind : Int := 2
def fieldChannel : Int := 3
def fieldTier : Int := 4
def fieldSigner : Int := 5
def fieldCreated : Int := 6
def fieldEffect : Int := 7
def fieldCauses : Int := 8
def fieldProfile : Int := 9
def fieldBody : Int := 10
def fieldExt : Int := 11
def fieldCext : Int := 12
def fieldAudience : Int := 13
def fieldSuite : Int := 14

def naalpVersion : Int := 2
def headerLabel : PyStr := .lit ['n', 'a', 'a', 'l', 'p']

def maxObjectSize : Nat := 1048576
def maxCauses : Nat := 1024
def maxExt : Nat := 64
def maxCext : Nat := 64
def maxNestingDepth : Nat := 16

def suiteMldsa65Ed25519 : Int := 1

def recheckKey : Int := 13
def recheckRecomputeContentId : Int := 1
def recheckReplayConsumeCheck : Int := 4

def isKnownRecheckProcedure (id : Int) : Bool :=
  recheckRecomputeContentId ≤ id ∧ id ≤ recheckReplayConsumeCheck

/-- An object body. The extension maps are given by their pairs, `none` when absent; an empty
audience and a zero suite stand for absent fields.
-/
structure Object where
  id : Option Bytes
  kind : Int
  channel : Int
  tier : Int
  signer : Bytes
  created : Int
  effect : Int
  causes : List Bytes
  profile : Int
  body : Value
  ext : Option (List (Value × Value))
  cext : Option (List (Value × Value))
  audience : PyStr
  suite : Int

-----------------------------------------------------------------------------------------
-- Building and signing
-----------------------------------------------------------------------------------------

/-- The pairs of `_body_map` other than the id. -/
def Object.fieldPairs (o : Object) : List (Value × Value) :=
  [(.u fieldKind, .u o.kind), (.u fieldChannel, .u o.channel), (.u fieldTier, .u o.tier),
    (.u fieldSigner, .b o.signer), (.u fieldCreated, .u o.created),
    (.u fieldEffect, .u o.effect), (.u fieldCauses, .a (o.causes.map .b)),
    (.u fieldProfile, .u o.profile), (.u fieldBody, o.body)]
  ++ (o.ext.map (fun pairs => (.u fieldExt, .m pairs))).toList
  ++ (o.cext.map (fun pairs => (.u fieldCext, .m pairs))).toList
  ++ (if o.audience ≠ [] then [(.u fieldAudience, .t o.audience)] else [])
  ++ (if o.suite ≠ 0 then [(.u fieldSuite, .u o.suite)] else [])

/-- `_body_map`; with the id included, an object that has none raises a TypeError. -/
def Object.bodyMap (o : Object) : (includeId : Bool) → Py Value
  | false => return .m o.fieldPairs
  | true => do
      let some id := o.id | throw .typeError
      return .m ((.u fieldId, .b id) :: o.fieldPairs)

def Object.contentId (o : Object) : Py Bytes := do
  Cbor.contentId (← o.bodyMap false)

def protectedHeader (alg : Int) (signer : Bytes) (profile : Int) : Py Bytes :=
  let naalp : Value := .m [(.u 1, .b signer), (.u 2, .u profile), (.u 3, .u naalpVersion)]
  encode (.m [(.u 1, .n alg), (.t headerLabel, naalp)])

section Signing

variable (lib : SignatureLibrary)

/-- `sign`: binds the content id, then signs the header and the payload. -/
def sign (o : Object) (alg : Int) (seed : Bytes) : Py Bytes := do
  let id ← o.contentId
  let payload ← encode (← { o with id := some id }.bodyMap true)
  let prot ← protectedHeader alg o.signer o.profile
  let tbs ← toBeSignedRaw prot payload
  let sig ← mldsaSign lib alg seed tbs
  assembleSign1Raw prot payload sig

/-- `sign_composite`: the suite field is set before the content id is computed. -/
def signComposite (o : Object) (mldsaSeed edSeed : Bytes) : Py Bytes := do
  let o := { o with suite := suiteMldsa65Ed25519 }
  let id ← o.contentId
  let payload ← encode (← { o with id := some id }.bodyMap true)
  let prot ← protectedHeader algComposite65Ed25519 o.signer o.profile
  let tbs ← toBeSignedRaw prot payload
  let sig ← compositeSign lib mldsaSeed edSeed tbs
  assembleSign1Raw prot payload sig

end Signing

-----------------------------------------------------------------------------------------
-- Parsing
-----------------------------------------------------------------------------------------

/-- The routing fields seen so far in a protected header. -/
structure HeaderFields where
  alg : Option Int := none
  signer : Option Bytes := none
  profile : Option Int := none
  version : Option Int := none

/-- The inner loop of `_parse_protected`, over the routing map. -/
def HeaderFields.readRouting (h : HeaderFields) : Value × Value → HeaderFields
  | (.u 1, .b signer) => { h with signer := some signer }
  | (.u 2, .u profile) => { h with profile := some profile }
  | (.u 3, .u version) => { h with version := some version }
  | _ => h

/-- The outer loop of `_parse_protected`; other labels are passed over. -/
def HeaderFields.readEntry (h : HeaderFields) : Value × Value → HeaderFields
  | (.u 1, .n alg) => { h with alg := some alg }
  | (.t label, .m routing) => if label = headerLabel then routing.foldl readRouting h else h
  | _ => h

def parseProtected (prot : Bytes) : Py (Int × Bytes × Int × Int) := do
  raiseIf (prot = [0xA0])
    (.nonCanonical "empty protected header must be 0x40, not 0x41A0 (§3.1.1, R5)")
  let .m pairs ← decode prot
    | throw (.envelopeError .malformed "protected header not a map")
  match pairs.foldl HeaderFields.readEntry {} with
  | ⟨some alg, some signer, some profile, some version⟩ => return (alg, signer, profile, version)
  | _ => throw (.envelopeError .malformed "protected header missing routing fields")

/-- `fields.get(fnum)` after the loop that filled `fields`; a later entry wins. -/
def getField (fnum : Int) : List (Value × Value) → Option Value
  | [] => none
  | (k, v) :: rest =>
      match getField fnum rest, k with
      | some later, _ => some later
      | none, .u n => if n = fnum then some v else none
      | none, _ => none

def checkKeys : List (Value × Value) → Py Unit
  | [] => return
  | (.u _, _) :: rest => checkKeys rest
  | _ => throw (.envelopeError .malformed "non-uint body key")

section Fields

variable (fields : List (Value × Value))

def wrongType (fnum : Int) : Exc :=
  .envelopeError .malformed ("field " ++ toString fnum ++ " wrong type/absent")

def needU (fnum : Int) : Py Int :=
  match getField fnum fields with
  | some (.u v) => return v
  | _ => throw (wrongType fnum)

def needB (fnum : Int) : Py Bytes :=
  match getField fnum fields with
  | some (.b v) => return v
  | _ => throw (wrongType fnum)

def needA (fnum : Int) : Py (List Value) :=
  match getField fnum fields with
  | some (.a items) => return items
  | _ => throw (wrongType fnum)

def needAny (fnum : Int) : Py Value :=
  match getField fnum fields with
  | some v => return v
  | none => throw (wrongType fnum)

/-- An optional extension map and its cardinality bound. -/
def extensionMap (fnum : Int) (bound : Nat) (notMap : String)
    : Py (Option (List (Value × Value))) :=
  match getField fnum fields with
  | none => return none
  | some (.m pairs) => do
      raiseIf (pairs.length > bound) (.envelopeError .tooManyExtensions
        "ext/cext exceeds the maximum cardinality (§3.4, R7)")
      return some pairs
  | some _ => throw (.envelopeError .malformed notMap)

def audienceOf : Py PyStr :=
  match getField fieldAudience fields with
  | none => return []
  | some (.t v) => return v
  | some _ => throw (.envelopeError .malformed "audience not a tstr")

def suiteOf : Py Int :=
  match getField fieldSuite fields with
  | none => return 0
  | some (.u v) => return v
  | some _ => throw (.envelopeError .malformed "suite not a uint")

def idOf : Option Bytes :=
  match getField fieldId fields with
  | some (.b v) => some v
  | _ => none

end Fields

def causesOf : List Value → Py (List Bytes)
  | [] => return []
  | .b c :: rest => return c :: (← causesOf rest)
  | _ => throw (.envelopeError .malformed "cause not a bstr")

/-- `_object_from_map`: rebuilds the object from the fields it knows. -/
def objectFromMap (m : List (Value × Value)) : Py Object := do
  checkKeys m
  let signer ← needB m fieldSigner
  let causesV ← needA m fieldCauses
  raiseIf (causesV.length > maxCauses)
    (.envelopeError .tooManyCauses "causes[] exceeds the maximum count (§3.4, R7)")
  let causes ← causesOf causesV
  let ext ← extensionMap m fieldExt maxExt "ext not a map"
  let cext ← extensionMap m fieldCext maxCext "cext not a map"
  let audience ← audienceOf m
  let suite ← suiteOf m
  let kind ← needU m fieldKind
  let channel ← needU m fieldChannel
  let created ← needU m fieldCreated
  let effect ← needU m fieldEffect
  let body ← needAny m fieldBody
  let tier ← needU m fieldTier
  let profile ← needU m fieldProfile
  return {
    id := idOf m, kind, channel, tier, signer, created, effect, causes, profile, body, ext,
    cext, audience, suite
  }

-----------------------------------------------------------------------------------------
-- Verifying
-----------------------------------------------------------------------------------------

/-- The content-id loop of `verify`: the claimed id and the pairs other than it. -/
def splitId : List (Value × Value) → Py (Option Bytes × List (Value × Value))
  | [] => return (none, [])
  | (.u 1, .b id) :: rest => do
      let (claimed, without) ← splitId rest
      return (claimed.or (some id), without)
  | (.u 1, _) :: _ => throw (.envelopeError .malformed "id not a bstr")
  | pair :: rest => do
      let (claimed, without) ← splitId rest
      return (claimed, pair :: without)

def checkContentId (pairs : List (Value × Value)) : Py Unit := do
  let (claimed, without) ← splitId pairs
  let some claimed := claimed | throw (.envelopeError .malformed "no content id")
  let recomputed ← Cbor.contentId (.m without)
  raiseIf (recomputed ≠ claimed) (.envelopeError .contentIdMismatch "recomputed id differs")

/-- The Identity-channel Rotation object, channel 3 and kind 0. -/
def isRotationObject (channel kind : Int) : Bool := channel = 3 ∧ kind = 0

def checkRanges (o : Object) : Py Unit :=
  raiseIf (o.channel > 19 ∨ o.effect > 3 ∨ o.profile < 1 ∨ o.profile > 3)
    (.envelopeError .rangeError "field out of range")

/-- The header's copies of body fields and its version; returns the header's alg. -/
def checkHeader (prot : Bytes) (o : Object) : Py Int := do
  let (halg, hsigner, hprofile, hversion) ← parseProtected prot
  raiseIf (hversion ≠ naalpVersion) (.envelopeError .unsupportedVersion "bad naalp-version")
  raiseIf (hsigner ≠ o.signer ∨ hprofile ≠ o.profile)
    (.envelopeError .headerBodyMismatch "protected header disagrees with body")
  return halg

def unknownCriticalExt : Exc :=
  .envelopeError .unknownCriticalExt "unrecognized critical extension"

/-- One round of the critical-extension loop. -/
def checkCextEntry (knownCext : List Int) : Value × Value → Py Unit
  | (.u k, v) =>
      if k = recheckKey then
        match v with
        | .u id => raiseIf (¬ isKnownRecheckProcedure id) unknownCriticalExt
        | _ => throw (.envelopeError .malformed "recheck procedure id not a uint")
      else raiseIf (k ∉ knownCext) unknownCriticalExt
  | _ => throw unknownCriticalExt

def checkCext (knownCext : List Int) (cext : Option (List (Value × Value))) : Py Unit :=
  (cext.getD []).forM (checkCextEntry knownCext)

def kindAccepted (kindValidator : Option (Int → Int → Bool)) (o : Object) : Bool :=
  match kindValidator with
  | none => false
  | some accepts => accepts o.channel o.kind

section Verifying

variable (lib : SignatureLibrary)

/-- The signature stage: the composite path, or the profile floor and one signature. -/
def checkSignature (profile : Int) (pubkey : Bytes) (halg : Int) (o : Object) (tbs sig : Bytes)
    : Py Unit :=
  if halg = algComposite65Ed25519 then do
    raiseIf (profile = profileSovereign)
      (.envelopeError .compositeRefused "composite refused on the Sovereign profile")
    raiseIf (o.suite ≠ suiteMldsa65Ed25519)
      (.envelopeError .suiteMismatch "field 14 does not declare the composite suite")
    let edPub := pubkey.drop mldsa65PubSize
    raiseIf (edPub.length ≠ 32)
      (.envelopeError .badSignature "composite signature does not verify")
    let valid ← compositeVerify lib (pubkey.take mldsa65PubSize) edPub tbs sig
    raiseIf (valid = false) (.envelopeError .badSignature "composite signature does not verify")
  else do
    raiseIf (o.suite ≠ 0)
      (.envelopeError .suiteMismatch "pure object carries a composite suite field")
    let (level, known) := algLevel halg
    raiseIf (known = false) (.envelopeError .unknownAlg "unregistered alg")
    raiseIf (level < profileMinLevel profile)
      (.envelopeError .profileDowngrade "signature level below the profile minimum")
    let valid ← coseVerify1Raw lib halg pubkey tbs sig
    raiseIf (valid = false) (.envelopeError .badSignature "signature does not verify")

/-- `verify`. The parameter `alg` of the source is not read by its body. -/
def verify (profile _alg : Int) (pubkey : Bytes) (kindValidator : Option (Int → Int → Bool))
    (objBytes : Bytes) (knownCext : List Int) : Py Object := do
  raiseIf (objBytes.length > maxObjectSize)
    (.envelopeError .tooLarge "object exceeds the maximum octet size (§3.4, R7)")
  let (prot, payload, sig) ← parseSign1Raw objBytes
  let .m pairs ← decodeBounded payload maxNestingDepth
    | throw (.envelopeError .malformed "body not a map")
  checkContentId pairs
  let o ← objectFromMap pairs
  raiseIf (isRotationObject o.channel o.kind) (.envelopeError .rotationUnauthorized
    "single-signature rotation missing the old-key co-signature")
  checkRanges o
  let halg ← checkHeader prot o
  checkCext knownCext o.cext
  raiseIf (kindAccepted kindValidator o = false)
    (.envelopeError .unknownKind "kind/channel not a registered surface")
  let tbs ← toBeSignedRaw prot payload
  checkSignature lib profile pubkey halg o tbs sig
  return o

end Verifying

/-- `check_audience`: the consume binding at the point of use. -/
def checkAudience (o : Object) (selfAuthority : PyStr) (consumeOnce : Bool) : Py Unit :=
  if o.audience = [] then
    raiseIf consumeOnce (.envelopeError .wrongAudience "consume-once object has no audience")
  else
    raiseIf (o.audience ≠ selfAuthority)
      (.envelopeError .wrongAudience "object audience is not this consuming authority")

end Naalp.Python.Envelope

/-! What `sign` and `sign_composite` of `impl/python/naalp/envelope.py` leave in the object that
they are called on.
-/

namespace Naalp.Python.Envelope

open Naalp.Foundation
open Naalp.Python.Cbor
open Naalp.Python.Cose

/-- `obj.id = obj.content_id()`; when the id cannot be computed nothing is assigned. -/
def Object.identified (o : Object) : Object :=
  match o.contentId with
  | .ok id => { o with id := some id }
  | .error _ => o

/-- A call of one of the signing functions, with the seeds of its keys. -/
inductive SignCall where
  | sign (alg : Int) (seed : Bytes)
  | signComposite (mldsaSeed edSeed : Bytes)

namespace SignCall

/-- What the call returns on an object. -/
def result (lib : SignatureLibrary) (o : Object) : SignCall → Py Bytes
  | .sign alg seed => Envelope.sign lib o alg seed
  | .signComposite mldsaSeed edSeed => Envelope.signComposite lib o mldsaSeed edSeed

/-- The object after the call, whether or not it raises. -/
def after (o : Object) : SignCall → Object
  | .sign _ _ => o.identified
  | .signComposite _ _ => { o with suite := suiteMldsa65Ed25519 }.identified

def isPure : SignCall → Bool
  | .sign _ _ => true
  | .signComposite _ _ => false

end SignCall

/-- The object after calls one after the other. -/
def Object.afterCalls (o : Object) (calls : List SignCall) : Object := calls.foldl SignCall.after o

end Naalp.Python.Envelope

/-! The co-signed Rotation object of `impl/python/naalp/envelope.py`: its verifier. -/

namespace Naalp.Python.Envelope

open Naalp.Foundation
open Naalp.Python.Cbor
open Naalp.Python.Cose

def isCompositeAlg (alg : Int) : Bool :=
  alg = algComposite65Ed25519 ∨ alg = algComposite44Ed25519

/-- The checks of `verify_rotation_object` on the body and the body header. -/
def checkRotationBody (newAlg : Int) (kindValidator : Option (Int → Int → Bool))
    (knownCext : List Int) (bodyProt payload : Bytes) : Py Object := do
  let .m pairs ← decodeBounded payload maxNestingDepth
    | throw (.envelopeError .malformed "body not a map")
  checkContentId pairs
  let o ← objectFromMap pairs
  checkRanges o
  let halg ← checkHeader bodyProt o
  checkCext knownCext o.cext
  raiseIf (isRotationObject o.channel o.kind = false)
    (.envelopeError .unknownKind "tag-98 permitted only for the Identity Rotation object")
  raiseIf (kindAccepted kindValidator o = false)
    (.envelopeError .unknownKind "kind/channel not a registered surface")
  raiseIf (isCompositeAlg halg)
    (.envelopeError .malformed "composite-inside-rotation is undecided")
  raiseIf (halg ≠ newAlg) (.envelopeError .keyAlgMismatch "body header alg is not the new key alg")
  return o

/-- The profile floor of a leg. -/
def checkLegFloor (profile alg : Int) (below : String) : Py Unit := do
  let (level, known) := algLevel alg
  raiseIf (known = false) (.envelopeError .unknownAlg "unregistered alg")
  raiseIf (level < profileMinLevel profile) (.envelopeError .profileDowngrade below)

/-- The two legs in their order, with the algs that their headers carry. -/
def rotationLegs (profile oldAlg newAlg : Int) (legs : List (Bytes × Bytes))
    : Py ((Int × Bytes) × (Int × Bytes)) := do
  let [(oldProt, oldSig), (newProt, newSig)] := legs
    | throw (.envelopeError .rotationUnauthorized "rotation must carry exactly two legs")
  let oldLegAlg ← algFromProtected oldProt
  let newLegAlg ← algFromProtected newProt
  raiseIf (isCompositeAlg oldLegAlg ∨ isCompositeAlg newLegAlg)
    (.envelopeError .malformed "composite leg in a rotation")
  raiseIf (oldLegAlg ≠ oldAlg ∨ newLegAlg ≠ newAlg)
    (.envelopeError .rotationUnauthorized "legs not in (old, new) order")
  checkLegFloor profile newLegAlg "new-leg level below the profile minimum"
  checkLegFloor profile oldLegAlg "old-leg level below the profile minimum"
  return ((oldLegAlg, oldSig), (newLegAlg, newSig))

section Verifying

variable (lib : SignatureLibrary)

/-- One leg verifies over its signing input. -/
def checkLeg (bodyProt payload pk : Bytes) (leg : Int × Bytes) (refused : String) : Py Unit := do
  let tbs ← signatureToBeSigned bodyProt leg.1 payload
  let valid ← coseVerify1Raw lib leg.1 pk tbs leg.2
  raiseIf (valid = false) (.envelopeError .rotationUnauthorized refused)

def verifyRotationObject (profile oldAlg : Int) (oldPk : Bytes) (newAlg : Int) (newPk : Bytes)
    (kindValidator : Option (Int → Int → Bool)) (objBytes : Bytes) (knownCext : List Int)
    : Py Object := do
  raiseIf (objBytes.length > maxObjectSize)
    (.envelopeError .tooLarge "object exceeds the maximum octet size (§3.4, R7)")
  let (bodyProt, payload, legs) ← parseSignRaw objBytes
  let o ← checkRotationBody newAlg kindValidator knownCext bodyProt payload
  let (oldLeg, newLeg) ← rotationLegs profile oldAlg newAlg legs
  checkLeg lib bodyProt payload oldPk oldLeg "old leg does not verify"
  checkLeg lib bodyProt payload newPk newLeg "new leg does not verify"
  return o

end Verifying

end Naalp.Python.Envelope
