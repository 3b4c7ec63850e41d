import Naalp.Go.Cbor
import Naalp.Python.Cose

/-! The signing layer of `impl/go/cose/cose.go`, as far as verification uses it.
The registered numbers and the composite labels are those of the Python layer.
-/

namespace Naalp.Go.Cose

open Naalp.Foundation
open Naalp.Python (Kind PyStr)
open Naalp.Python.Cbor (Value)
open Naalp.Python.Cose (MlDsa algMldsa65 algMldsa87 algEd25519 algComposite65Ed25519
  profileSovereign tagSign1 tagSign signature1Label signatureLabel compositePrefix
  compositeLabelMldsa65Ed25519)

def errUnknownAlg : Stop := .error .unknownAlg "algorithm id not in the N-AALP registry"
def errProfileDowngrade : Stop :=
  .error .profileDowngrade "signature level below the profile minimum"
def errHybridIncomplete : Stop :=
  .error .hybridIncomplete "hybrid requires both signatures to verify"
def errBadSignature : Stop := .error .badSignature "signature verification failed"
def errKeyAlgMismatch : Stop :=
  .error .keyAlgMismatch "key algorithm does not match object header"
def errMalformed : Stop := .error .malformed "malformed COSE object"
def errCompositeRefused : Stop :=
  .error .compositeRefused "sovereign profile refuses a composite object"
def errSuiteMismatch : Stop :=
  .error .suiteMismatch "signed suite declaration disagrees with the signature alg"

def algLevel (alg : Int) : Nat × Bool :=
  if alg = algMldsa87 then (5, true)
  else if alg = algMldsa65 then (3, true)
  else if alg = algComposite65Ed25519 then (3, true)
  else if alg = algEd25519 then (0, true)
  else (0, false)

def profileMinLevel (profile : Int) : Nat := if profile = profileSovereign then 5 else 3

def protectedHeader (alg : Int) : Result Bytes := Cbor.encode (.m [(.u 1, .n alg)])

def toBeSignedRaw (prot payload : Bytes) : Result Bytes :=
  Cbor.encode (.a [.t signature1Label, .b prot, .b [], .b payload])

def toBeSigned (alg : Int) (payload : Bytes) : Result Bytes := do
  toBeSignedRaw (← protectedHeader alg) payload

/-- The per-signer signing input, whose leg header is rebuilt from `signerAlg`. -/
def signatureToBeSigned (bodyProt : Bytes) (signerAlg : Int) (payload : Bytes) : Result Bytes := do
  let sprot ← protectedHeader signerAlg
  Cbor.encode (.a [.t signatureLabel, .b bodyProt, .b sprot, .b [], .b payload])

def assembleSign1Raw (prot payload sig : Bytes) : Result Bytes :=
  Cbor.encode (.tag tagSign1 (.a [.b prot, .m [], .b payload, .b sig]))

/-- `int(a)` of a `uint64`, which wraps from 2^63 on. -/
def intOfUint (a : Int) : Int := (a + 2 ^ 63) % 2 ^ 64 - 2 ^ 63

/-- The loop of `algFromProtected`: the first integer under label 1. -/
def findAlg : List (Value × Value) → Option Int
  | [] => none
  | (.u 1, .n a) :: _ => some a
  | (.u 1, .u a) :: _ => some (intOfUint a)
  | _ :: rest => findAlg rest

def algFromProtected (prot : Bytes) : Result Int := do
  raiseIf (prot = [0xA0])
    (.error .nonCanonical "empty protected header must be 0x40, not 0x41A0 (§3.1.1, R5)")
  let .ok (.m pairs) := Cbor.decode prot | throw errMalformed
  let some alg := findAlg pairs | throw errMalformed
  return alg

def parseSign1Raw (obj : Bytes) : Result (Bytes × Bytes × Bytes) := do
  let .ok (.tag number (.a arr)) := Cbor.decode obj | throw errMalformed
  raiseIf (number ≠ tagSign1) errMalformed
  match arr with
  | [.b prot, _, .b payload, .b sig] => return (prot, payload, sig)
  | _ => throw errMalformed

def parseSign1 (obj : Bytes) : Result (Int × Bytes × Bytes) := do
  let (prot, payload, sig) ← parseSign1Raw obj
  return (← algFromProtected prot, payload, sig)

/-- The public-key sizes of FIPS 204, in octets. -/
def publicKeySize : MlDsa → Nat
  | .mlDsa65 => 1952
  | .mlDsa87 => 2592

/-- An unpacked ML-DSA public key, by its octets. -/
structure PublicKey (set : MlDsa) where
  bytes : Bytes
  size : bytes.length = publicKeySize set

/-- The signature packages `circl` and `crypto/ed25519`. -/
structure SignatureLibrary where
  mldsaVerify : MlDsa → (key message context signature : Bytes) → Bool
  ed25519Verify : (key message signature : Bytes) → Bool

/-- The verifying keys of the package. -/
inductive Verifier where
  | mldsa65 (pk : PublicKey .mlDsa65)
  | mldsa87 (pk : PublicKey .mlDsa87)
  | ed25519 (pk : Bytes)
  | composite (ml65 : PublicKey .mlDsa65) (ed : Bytes)

def Verifier.alg : Verifier → Int
  | .mldsa65 _ => algMldsa65
  | .mldsa87 _ => algMldsa87
  | .ed25519 _ => algEd25519
  | .composite _ _ => algComposite65Ed25519

def Verifier.pubKey : Verifier → Bytes
  | .mldsa65 pk => pk.bytes
  | .mldsa87 pk => pk.bytes
  | .ed25519 pk => pk
  | .composite ml65 ed => ml65.bytes ++ ed

def computeMprime (label ctx m : Bytes) : Bytes :=
  compositePrefix ++ label ++ [UInt8.ofNat ctx.length] ++ ctx ++ Sha2.sha512 m

section Library

variable (lib : SignatureLibrary)

/-- `ed25519.Verify`, which panics on a key of the wrong length. -/
def ed25519Verify (pk message sig : Bytes) : Result Bool :=
  if pk.length ≠ 32 then throw .panic else pure (lib.ed25519Verify pk message sig)

def verifyComposite (ml65 : PublicKey .mlDsa65) (ed m sig : Bytes) : Result Unit := do
  raiseIf (sig.length ≠ MlDsa.signatureSize .mlDsa65 + 64) errMalformed
  let mprime := computeMprime compositeLabelMldsa65Ed25519 [] m
  let mldsaOK := lib.mldsaVerify .mlDsa65 ml65.bytes mprime compositeLabelMldsa65Ed25519
    (sig.take (MlDsa.signatureSize .mlDsa65))
  let edOK ← ed25519Verify lib ed mprime (sig.drop (MlDsa.signatureSize .mlDsa65))
  raiseIf (mldsaOK = false ∨ edOK = false) errHybridIncomplete

def Verifier.verifyRaw (v : Verifier) (message sig : Bytes) : Result Bool :=
  match v with
  | .mldsa65 pk => pure (lib.mldsaVerify .mlDsa65 pk.bytes message [] sig)
  | .mldsa87 pk => pure (lib.mldsaVerify .mlDsa87 pk.bytes message [] sig)
  | .ed25519 pk => ed25519Verify lib pk message sig
  | .composite ml65 ed =>
      match verifyComposite lib ml65 ed message sig with
      | .ok () => pure true
      | .error (.error _ _) => pure false
      | .error .panic => throw .panic

/-- `Verify1` up to the signature check: the message and signature that the key is given. -/
def signed1 (profile keyAlg : Int) (obj : Bytes) : Result (Bytes × Bytes) := do
  let (alg, payload, sig) ← parseSign1 obj
  let (level, known) := algLevel alg
  raiseIf (known = false) errUnknownAlg
  raiseIf (alg = algComposite65Ed25519 ∧ profile = profileSovereign) errCompositeRefused
  raiseIf (level < profileMinLevel profile) errProfileDowngrade
  raiseIf (alg ≠ keyAlg) errKeyAlgMismatch
  return (← toBeSigned alg payload, sig)

def verify1 (profile : Int) (v : Verifier) (obj : Bytes) : Result Unit := do
  let (tbs, sig) ← signed1 profile v.alg obj
  let valid ← v.verifyRaw lib tbs sig
  raiseIf (valid = false) errBadSignature

def parseLeg : Value → Result (Bytes × Bytes)
  | .a [.b sprot, _, .b sig] => return (sprot, sig)
  | _ => throw errMalformed

/-- The alg of a hybrid leg, and the message that its signature is checked over. -/
def signedLeg (bodyProt payload sprot : Bytes) : Result (Int × Bytes) := do
  let alg ← algFromProtected sprot
  return (alg, ← signatureToBeSigned bodyProt alg payload)

/-- One round of the loop of `VerifyHybrid` over the legs; the state holds `edOK` and `mlOK`. -/
def hybridLeg (profile : Int) (edV mlV : Verifier) (bodyProt payload : Bytes)
    (state : Bool × Bool) (sv : Value) : Result (Bool × Bool) := do
  let (sprot, sig) ← parseLeg sv
  let (alg, tbs) ← signedLeg bodyProt payload sprot
  if alg = algEd25519 then
    let valid ← edV.verifyRaw lib tbs sig
    return (state.1 || valid, state.2)
  else if alg = mlV.alg then
    raiseIf ((algLevel alg).1 < profileMinLevel profile) errProfileDowngrade
    let valid ← mlV.verifyRaw lib tbs sig
    return (state.1, state.2 || valid)
  else throw errUnknownAlg

/-- The parts of a tagged COSE_Sign object that `VerifyHybrid` reads. -/
def parseHybrid (obj : Bytes) : Result (Bytes × Bytes × List Value) := do
  let .ok (.tag number (.a arr)) := Cbor.decode obj | throw errMalformed
  raiseIf (number ≠ tagSign) errMalformed
  match arr with
  | [.b bodyProt, _, .b payload, .a sigs] => return (bodyProt, payload, sigs)
  | _ => throw errMalformed

def verifyHybrid (profile : Int) (edV mlV : Verifier) (obj : Bytes) : Result Unit := do
  let (bodyProt, payload, sigs) ← parseHybrid obj
  let (edOK, mlOK) ← sigs.foldlM (hybridLeg lib profile edV mlV bodyProt payload) (false, false)
  raiseIf (edOK = false ∨ mlOK = false) errHybridIncomplete

end Library

/-- A library on which the model can be evaluated, with the signatures of the Python one. -/
def digestLibrary : SignatureLibrary where
  mldsaVerify set key message context signature :=
    signature = Python.Cose.fitTo set.signatureSize
      (Sha2.sha384 (key.take 32 ++ context ++ message))
  ed25519Verify key message signature :=
    signature = Python.Cose.fitTo 64 (Sha2.sha384 (key ++ message))

end Naalp.Go.Cose
