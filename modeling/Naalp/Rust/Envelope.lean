import Naalp.Go.Cose
import Naalp.Go.Envelope
import Naalp.Native.Cbor

/-! The signing layer of `impl/rust/src/cose.rs`, as far as object verification uses it.
The registered numbers, the composite labels and the texts of the errors are those of the Go
layer.
-/

namespace Naalp.Rust.Cose

open Naalp.Foundation
open Naalp.Go (Stop Result)
open Naalp.Go.Cose (PublicKey errMalformed errBadSignature errHybridIncomplete)
open Naalp.Python.Cbor (Value)
open Naalp.Python.Cose (MlDsa algMldsa65 algMldsa87 algEd25519 algComposite65Ed25519 tagSign1
  signature1Label compositePrefix compositeLabelMldsa65Ed25519)

def profileSovereign : UInt32 := 3

def algLevel (alg : Int) : Option Nat :=
  if alg = algMldsa87 then some 5
  else if alg = algMldsa65 then some 3
  else if alg = algComposite65Ed25519 then some 3
  else if alg = algEd25519 then some 0
  else none

def profileMinLevel (profile : UInt32) : Nat := if profile = profileSovereign then 5 else 3

def toBeSignedRaw (prot payload : Bytes) : Result Bytes :=
  expect (Cbor.encode (.a [.t signature1Label, .b prot, .b [], .b payload]))

def assembleSign1Raw (prot payload sig : Bytes) : Result Bytes :=
  expect (Cbor.encode (.tag tagSign1 (.a [.b prot, .m [], .b payload, .b sig])))

def parseSign1Raw (valueSize : Nat) (obj : Bytes) : Result (Bytes × Bytes × Bytes) := do
  let .tag num content ← mapErr errMalformed (Cbor.decode valueSize obj) | throw errMalformed
  raiseIf (num ≠ tagSign1) errMalformed
  match content with
  | .a [.b prot, _, .b payload, .b sig] => return (prot, payload, sig)
  | _ => throw errMalformed

/-- `ed25519_dalek::VerifyingKey`, by its octets. -/
structure VerifyingKey where
  bytes : Bytes
  size : bytes.length = 32

/-- The crates `fips204` and `ed25519_dalek`, which take signatures of the right length. -/
structure SignatureLibrary where
  mldsaVerify : MlDsa → (key message signature context : Bytes) → Bool
  ed25519Verify : (key message signature : Bytes) → Bool

/-- The implementations of `CoseVerifier`. -/
inductive Verifier where
  | mldsa65 (pk : PublicKey .mlDsa65)
  | mldsa87 (pk : PublicKey .mlDsa87)
  | ed25519 (vk : VerifyingKey)
  | composite (ml65 : PublicKey .mlDsa65) (ed : VerifyingKey)

def Verifier.alg : Verifier → Int
  | .mldsa65 _ => algMldsa65
  | .mldsa87 _ => algMldsa87
  | .ed25519 _ => algEd25519
  | .composite _ _ => algComposite65Ed25519

def computeMprime (label ctx m : Bytes) : Bytes :=
  compositePrefix ++ label ++ [UInt8.ofNat ctx.length] ++ ctx ++ Sha2.sha512 m

/-- `try_into` for an array of `size` octets. -/
def tryInto (size : Nat) (data : Bytes) : Option Bytes := if data.length = size then some data
    else none

section Library

variable (lib : SignatureLibrary)

def verifyComposite (ml65 : PublicKey .mlDsa65) (ed : VerifyingKey) (m sig : Bytes)
    : Result Unit := do
  raiseIf (sig.length ≠ MlDsa.signatureSize .mlDsa65 + 64) errMalformed
  let mprime := computeMprime compositeLabelMldsa65Ed25519 [] m
  let some mlArr := tryInto (MlDsa.signatureSize .mlDsa65)
      (sig.take (MlDsa.signatureSize .mlDsa65)) | throw errMalformed
  let mldsaOk := lib.mldsaVerify .mlDsa65 ml65.bytes mprime mlArr compositeLabelMldsa65Ed25519
  let some edArr := tryInto 64 (sig.drop (MlDsa.signatureSize .mlDsa65)) | throw errMalformed
  let edOk := lib.ed25519Verify ed.bytes mprime edArr
  raiseIf (mldsaOk = false ∨ edOk = false) errHybridIncomplete

/-- `verify_raw` of the ML-DSA keys. -/
def mldsaVerifyRaw (set : MlDsa) (pk : PublicKey set) (msg sig : Bytes) : Bool :=
  match tryInto set.signatureSize sig with
  | some arr => lib.mldsaVerify set pk.bytes msg arr []
  | none => false

def Verifier.verifyRaw (v : Verifier) (msg sig : Bytes) : Bool :=
  match v with
  | .mldsa65 pk => mldsaVerifyRaw lib .mlDsa65 pk msg sig
  | .mldsa87 pk => mldsaVerifyRaw lib .mlDsa87 pk msg sig
  | .ed25519 vk =>
      match tryInto 64 sig with
      | some arr => lib.ed25519Verify vk.bytes msg arr
      | none => false
  | .composite ml65 ed => (verifyComposite lib ml65 ed msg sig).isOk

/-- `verify_detailed`, which the composite key overrides. -/
def Verifier.verifyDetailed (v : Verifier) (msg sig : Bytes) : Result Unit :=
  match v with
  | .composite ml65 ed => verifyComposite lib ml65 ed msg sig
  | v => raiseIf (v.verifyRaw lib msg sig = false) errBadSignature

end Library

/-- A library on which the model can be evaluated, with the signatures of the Python one. -/
def digestLibrary : SignatureLibrary where
  mldsaVerify set key message signature context :=
    signature = Python.Cose.fitTo set.signatureSize
      (Sha2.sha384 (key.take 32 ++ context ++ message))
  ed25519Verify key message signature :=
    signature = Python.Cose.fitTo 64 (Sha2.sha384 (key ++ message))

end Naalp.Rust.Cose

/-! The object verifier of `impl/rust/src/envelope.rs`.
The object and the loop variables have the fields of the Go ones, and the errors have their texts
but for that of an empty protected header.
-/

namespace Naalp.Rust.Envelope

open Naalp.Foundation
open Naalp.Go (Stop Result)
open Naalp.Go.Envelope (Object BodyFields HeaderFields errContentIDMismatch errHeaderBodyMismatch
  errUnknownCriticalExt errUnknownKind errRangeError errUnsupportedVersion errMalformed
  errTooLarge errTooManyCauses errTooManyExtensions errRotationUnauthorized)
open Naalp.Go.Cose (errUnknownAlg errProfileDowngrade errBadSignature errKeyAlgMismatch
  errCompositeRefused errSuiteMismatch)
open Naalp.Python.Cbor (Value)
open Naalp.Python.Cose (algComposite65Ed25519)
open Naalp.Python.Envelope (fieldId fieldKind fieldChannel fieldTier fieldSigner fieldCreated
  fieldEffect fieldCauses fieldProfile fieldBody fieldExt fieldCext fieldAudience fieldSuite
  naalpVersion headerLabel maxObjectSize maxCauses maxExt maxCext maxNestingDepth
  suiteMldsa65Ed25519 recheckKey isKnownRecheckProcedure isRotationObject)
open Naalp.Rust.Cose (SignatureLibrary Verifier algLevel profileMinLevel profileSovereign)

def errNonCanonical : Stop :=
  .error .nonCanonical "empty protected header must be 0x40, not 0x41A0 (§3.1.1, R5)"

def asUint : Value → Result Int
  | .u u => return u
  | _ => throw errMalformed

/-- One round of the loop over the items of the causes array. -/
def pushCause (causes : List Bytes) : Value → Result (List Bytes)
  | .b b => return causes ++ [b]
  | _ => throw errMalformed

/-- The arms of `FIELD_EXT` and `FIELD_CEXT`, by their bound. -/
def extensionMap (bound : Nat) : Value → Result (List (Value × Value))
  | .m mm => do
      raiseIf (mm.length > bound) errTooManyExtensions
      return mm
  | _ => throw errMalformed

/-- One round of the loop of `object_from_map`; a required field is `some` once its flag is set. -/
def readField (o : BodyFields) (key : Int) (val : Value) : Result BodyFields :=
  if key = fieldId then
    match val with
    | .b b => return { o with id := b }
    | _ => throw errMalformed
  else if key = fieldKind then return { o with kind := some (← asUint val) }
  else if key = fieldChannel then return { o with channel := some (← asUint val) }
  else if key = fieldTier then return { o with tier := some (← asUint val) }
  else if key = fieldSigner then
    match val with
    | .b b => return { o with signer := some b }
    | _ => throw errMalformed
  else if key = fieldCreated then return { o with created := some (← asUint val) }
  else if key = fieldEffect then return { o with effect := some (← asUint val) }
  else if key = fieldCauses then
    match val with
    | .a a => do
        raiseIf (a.length > maxCauses) errTooManyCauses
        return { o with causes := some (← a.foldlM pushCause (o.causes.getD [])) }
    | _ => throw errMalformed
  else if key = fieldProfile then return { o with profile := some (← asUint val) }
  else if key = fieldBody then return { o with body := some val }
  else if key = fieldExt then return { o with ext := some (← extensionMap maxExt val) }
  else if key = fieldCext then return { o with cext := some (← extensionMap maxCext val) }
  else if key = fieldAudience then
    match val with
    | .t s => return { o with audience := s }
    | _ => throw errMalformed
  else if key = fieldSuite then return { o with suite := ← asUint val }
  else throw errMalformed

def readPair (o : BodyFields) : Value × Value → Result BodyFields
  | (.u key, val) => readField o key val
  | _ => throw errMalformed

def objectFromMap (m : List (Value × Value)) : Result Object := do
  let read ← m.foldlM readPair {}
  read.finish

/-- The inner loop of `parse_protected`: a routing copy of another type is passed over. -/
def readCopy (h : HeaderFields) (entry : Value × Value) : HeaderFields :=
  match entry.1 with
  | .u 1 => if let .b b := entry.2 then { h with signer := b } else h
  | .u 2 => if let .u u := entry.2 then { h with profile := u } else h
  | .u 3 => if let .u u := entry.2 then { h with version := u } else h
  | _ => h

/-- The outer loop of `parse_protected`. -/
def readEntry (h : HeaderFields) : Value × Value → Result HeaderFields
  | (.u 1, val) =>
      match val with
      | .n a => return { h with alg := some a }
      | _ => throw errMalformed
  | (.t s, val) =>
      if s = headerLabel then
        match val with
        | .m nm => return { nm.foldl readCopy h with haveNaalp := true }
        | _ => throw errMalformed
      else return h
  | _ => return h

section Verifying

variable (valueSize : Nat)

def parseProtected (prot : Bytes) : Result (Int × Bytes × Int × Int) := do
  raiseIf (prot = [0xA0]) errNonCanonical
  let .m m ← mapErr errMalformed (Cbor.decode valueSize prot) | throw errMalformed
  match ← m.foldlM readEntry {} with
  | ⟨some alg, signer, profile, version, true⟩ => return (alg, signer, profile, version)
  | _ => throw errMalformed

/-- One round of the content-id loop: the claimed id and the pairs other than it. -/
def splitPair (state : Option Bytes × List (Value × Value))
    : Value × Value → Result (Option Bytes × List (Value × Value))
  | (.u k, val) =>
      if k = fieldId then
        match val with
        | .b b => return (some b, state.2)
        | _ => throw errMalformed
      else return (state.1, state.2 ++ [(.u k, val)])
  | pair => return (state.1, state.2 ++ [pair])

def checkContentId (body : List (Value × Value)) : Result Unit := do
  let (claimed, withoutId) ← body.foldlM splitPair (none, [])
  let some claimed := claimed | throw errMalformed
  let recomputed ← mapErr errMalformed (Cbor.contentId (.m withoutId))
  raiseIf (recomputed ≠ claimed) errContentIDMismatch

/-- One round of the critical-extension loop. -/
def checkCextEntry (knownCext : List Int) : Value × Value → Result Unit
  | (.u u, v) =>
      if u = recheckKey then
        match v with
        | .u id => raiseIf (isKnownRecheckProcedure id = false) errUnknownCriticalExt
        | _ => throw errMalformed
      else raiseIf (u ∉ knownCext) errUnknownCriticalExt
  | _ => throw errUnknownCriticalExt

/-- `decode_and_check`: the checks that do not depend on the tag; returns the object and the
header's alg.
-/
def decodeAndCheck (prot payload : Bytes) (knownCext : List Int) : Result (Object × Int) := do
  let .m body ← Cbor.decodeBounded valueSize payload maxNestingDepth | throw errMalformed
  checkContentId body
  let o ← objectFromMap body
  raiseIf (o.channel > 19 ∨ o.effect > 3 ∨ o.profile < 1 ∨ o.profile > 3) errRangeError
  let (alg, hSigner, hProfile, hVersion) ← parseProtected valueSize prot
  raiseIf (hVersion ≠ naalpVersion) errUnsupportedVersion
  raiseIf (hSigner ≠ o.signer ∨ hProfile ≠ o.profile) errHeaderBodyMismatch
  (o.cext.getD []).forM (checkCextEntry knownCext)
  return (o, alg)

variable (lib : SignatureLibrary)

/-- The signature stage of `verify`: the composite path or the pure one. -/
def checkSignature (profile : UInt32) (v : Verifier) (alg : Int) (level : Nat) (o : Object)
    (tbs sig : Bytes) : Result Unit :=
  if alg = algComposite65Ed25519 then do
    raiseIf (profile = profileSovereign) errCompositeRefused
    raiseIf (o.suite ≠ suiteMldsa65Ed25519) errSuiteMismatch
    raiseIf (level < profileMinLevel profile) errProfileDowngrade
    raiseIf (alg ≠ v.alg) errKeyAlgMismatch
    v.verifyDetailed lib tbs sig
  else do
    raiseIf (o.suite ≠ 0) errSuiteMismatch
    raiseIf (level < profileMinLevel profile) errProfileDowngrade
    raiseIf (alg ≠ v.alg) errKeyAlgMismatch
    raiseIf (v.verifyRaw lib tbs sig = false) errBadSignature

def verify (profile : UInt32) (v : Verifier) (kindOk : Int → Int → Bool) (knownCext : List Int)
    (obj : Bytes) : Result Object := do
  raiseIf (obj.length > maxObjectSize) errTooLarge
  let (prot, payload, sig) ← mapErr errMalformed (Cose.parseSign1Raw valueSize obj)
  let (o, alg) ← decodeAndCheck valueSize prot payload knownCext
  raiseIf (isRotationObject o.channel o.kind) errRotationUnauthorized
  raiseIf (kindOk o.channel o.kind = false) errUnknownKind
  let some level := algLevel alg | throw errUnknownAlg
  let tbs ← Cose.toBeSignedRaw prot payload
  checkSignature lib profile v alg level o tbs sig
  return o

end Verifying

end Naalp.Rust.Envelope
