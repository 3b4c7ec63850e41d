import Naalp.Foundation.Multibase
import Naalp.Python.Cbor

/-! The signing layer of `impl/python/naalp/cose.py`.
The third-party ML-DSA and Ed25519 packages are a parameter; SHA-512 is computed.
-/

namespace Naalp.Python.Cose

open Naalp.Foundation
open Naalp.Python.Cbor

def algMldsa65 : Int := -49
def algMldsa87 : Int := -50
def algEd25519 : Int := -19
def algComposite65Ed25519 : Int := -65537
def algComposite44Ed25519 : Int := -65538

def profileSovereign : Int := 3

def tagSign1 : Int := 18
def tagSign : Int := 98

/-- The two ML-DSA parameter sets of the `dilithium_py` package. -/
inductive MlDsa where
  | mlDsa65
  | mlDsa87
  deriving DecidableEq, Repr

/-- The signature sizes of FIPS 204, in octets. -/
def MlDsa.signatureSize : MlDsa → Nat
  | .mlDsa65 => 3309
  | .mlDsa87 => 4627

/-- The signature packages: `key_derive` then `sign` or the public key, and `verify`. A call
may raise, on a malformed key for example.
-/
structure SignatureLibrary where
  mldsaPublic : MlDsa → (seed : Bytes) → Py Bytes
  mldsaSign : MlDsa → (seed message context : Bytes) → Py Bytes
  mldsaVerify : MlDsa → (key message signature context : Bytes) → Py Bool
  ed25519Public : (seed : Bytes) → Py Bytes
  ed25519Sign : (seed message : Bytes) → Py Bytes
  ed25519Verify : (key message signature : Bytes) → Py Bool

/-- The security level of an alg and whether it is registered. -/
def algLevel (alg : Int) : Nat × Bool :=
  if alg = algMldsa87 then (5, true)
  else if alg = algMldsa65 then (3, true)
  else if alg = algEd25519 then (0, true)
  else (0, false)

def profileMinLevel (profile : Int) : Nat := if profile = profileSovereign then 5 else 3

def signature1Label : PyStr := .lit ['S', 'i', 'g', 'n', 'a', 't', 'u', 'r', 'e', '1']

def signatureLabel : PyStr := .lit ['S', 'i', 'g', 'n', 'a', 't', 'u', 'r', 'e']

def toBeSignedRaw (prot payload : Bytes) : Py Bytes :=
  encode (.a [.t signature1Label, .b prot, .b [], .b payload])

def assembleSign1Raw (prot payload sig : Bytes) : Py Bytes :=
  encode (.tag tagSign1 (.a [.b prot, .m [], .b payload, .b sig]))

/-- The octets (protected, payload, signature) of a tagged COSE_Sign1 object. -/
def parseSign1Raw (obj : Bytes) : Py (Bytes × Bytes × Bytes) := do
  let .tag number (.a arr) ← decode obj | throw (.valueError "not a tagged COSE_Sign1")
  raiseIf (number ≠ tagSign1) (.valueError "not a tagged COSE_Sign1")
  match arr with
  | [.b prot, _, .b payload, .b sig] => return (prot, payload, sig)
  | _ => throw (.valueError "malformed COSE_Sign1 array")

def legProtected (alg : Int) : Py Bytes := encode (.m [(.u 1, .n alg)])

/-- The per-signer signing input, whose leg header is rebuilt from `signerAlg`. -/
def signatureToBeSigned (bodyProt : Bytes) (signerAlg : Int) (payload : Bytes) : Py Bytes := do
  let signProtected ← legProtected signerAlg
  encode (.a [.t signatureLabel, .b bodyProt, .b signProtected, .b [], .b payload])

def parseLeg : Value → Py (Bytes × Bytes)
  | .a [.b sprot, _, .b sig] => return (sprot, sig)
  | _ => throw (.valueError "malformed COSE_Signature leg")

/-- The octets (body protected, payload, legs) of a tagged COSE_Sign object. -/
def parseSignRaw (obj : Bytes) : Py (Bytes × Bytes × List (Bytes × Bytes)) := do
  let .tag number (.a arr) ← decode obj | throw (.valueError "not a tagged COSE_Sign")
  raiseIf (number ≠ tagSign) (.valueError "not a tagged COSE_Sign")
  match arr with
  | [.b bodyProt, _, .b payload, .a entries] => return (bodyProt, payload, ← entries.mapM parseLeg)
  | _ => throw (.valueError "malformed COSE_Sign array")

/-- The first negative integer that a map holds under label 1. -/
def findAlg : List (Value × Value) → Option Int
  | [] => none
  | (.u 1, .n alg) :: _ => some alg
  | _ :: rest => findAlg rest

/-- The alg that a serialized leg header carries under label 1. -/
def algFromProtected (prot : Bytes) : Py Int := do
  raiseIf (prot = [0xA0])
    (.nonCanonical "empty protected header must be 0x40, not 0x41A0 (§3.1.1, R5)")
  let .m pairs ← decode prot | throw (.valueError "protected header not a map")
  let some alg := findAlg pairs | throw (.valueError "no alg in protected header")
  return alg

def mldsa (alg : Int) : Py MlDsa :=
  if alg = algMldsa65 then pure .mlDsa65
  else if alg = algMldsa87 then pure .mlDsa87
  else throw (.valueError ("alg " ++ toString alg ++ " is not an ML-DSA algorithm"))

def ascii (chars : List Char) : Bytes := chars.map (fun c => UInt8.ofNat c.toNat)

def compositePrefix : Bytes :=
  ascii ['C', 'o', 'm', 'p', 'o', 's', 'i', 't', 'e', 'A', 'l', 'g', 'o', 'r', 'i', 't', 'h',
    'm', 'S', 'i', 'g', 'n', 'a', 't', 'u', 'r', 'e', 's', '2', '0', '2', '5']

def compositeLabelMldsa65Ed25519 : Bytes :=
  ascii ['C', 'O', 'M', 'P', 'S', 'I', 'G', '-', 'M', 'L', 'D', 'S', 'A', '6', '5', '-', 'E',
    'd', '2', '5', '5', '1', '9', '-', 'S', 'H', 'A', '5', '1', '2']

def mldsa65SigSize : Nat := 3309
def mldsa65PubSize : Nat := 1952

/-- The composite message representative over which both legs sign. -/
def computeMprime (label ctx m : Bytes) : Py Bytes := do
  raiseIf (ctx.length > 255) (.valueError "composite context exceeds one length octet")
  return compositePrefix ++ label ++ [UInt8.ofNat ctx.length] ++ ctx ++ Sha2.sha512 m

section Library

variable (lib : SignatureLibrary)

def mldsaSign (alg : Int) (seed tbs : Bytes) : Py Bytes := do
  lib.mldsaSign (← mldsa alg) seed tbs []

/-- `cose_sign1`: a tagged object over a protected header and a payload. -/
def coseSign1 (alg : Int) (seed prot payload : Bytes) : Py Bytes := do
  let tbs ← toBeSignedRaw prot payload
  let sig ← mldsaSign lib alg seed tbs
  assembleSign1Raw prot payload sig

def mldsaVerify (alg : Int) (pk tbs sig : Bytes) : Py Bool := do
  lib.mldsaVerify (← mldsa alg) pk tbs sig []

def ed25519Sign (seed msg : Bytes) : Py Bytes := do
  raiseIf (seed.length ≠ 32) (.valueError "ed25519 secret key must be a 32-byte seed")
  lib.ed25519Sign seed msg

/-- The composite signature value: the ML-DSA-65 leg, then the Ed25519 leg. -/
def compositeSign (mldsaSeed edSeed tbs : Bytes) : Py Bytes := do
  let mprime ← computeMprime compositeLabelMldsa65Ed25519 [] tbs
  let mldsaSig ← lib.mldsaSign .mlDsa65 mldsaSeed mprime compositeLabelMldsa65Ed25519
  let tradSig ← ed25519Sign lib edSeed mprime
  return mldsaSig ++ tradSig

/-- Valid when both legs are; a value of the wrong length is refused without verifying. -/
def compositeVerify (mldsaPk edPk m sig : Bytes) : Py Bool :=
  if sig.length ≠ mldsa65SigSize + 64 then pure false
  else do
    let mprime ← computeMprime compositeLabelMldsa65Ed25519 [] m
    let mldsaOk ← lib.mldsaVerify .mlDsa65 mldsaPk mprime (sig.take mldsa65SigSize)
      compositeLabelMldsa65Ed25519
    let edOk ← lib.ed25519Verify edPk mprime (sig.drop mldsa65SigSize)
    return mldsaOk && edOk

/-- `cose_verify1_raw`: the signature check over assembled octets, dispatched by alg. -/
def coseVerify1Raw (alg : Int) (pk tbs sig : Bytes) : Py Bool :=
  if alg = algMldsa65 ∨ alg = algMldsa87 then mldsaVerify lib alg pk tbs sig
  else if alg = algEd25519 then lib.ed25519Verify pk tbs sig
  else throw (.valueError ("unknown alg " ++ toString alg))

end Library

/-- Octets cut or zero-filled to a fixed size. -/
def fitTo (size : Nat) (data : Bytes) : Bytes := (data ++ List.replicate size 0).take size

theorem length_fitTo (size : Nat) (data : Bytes) : (fitTo size data).length = size := by
  simp [fitTo]

theorem length_sampleKey : (fitTo mldsa65PubSize [9]).length = mldsa65PubSize := length_fitTo _ _

/-- A library on which the model can be evaluated: a public key is its zero-filled seed and a
signature is a digest of the first octets of the key, the context and the message, in the sizes
of the real schemes.
-/
def digestLibrary : SignatureLibrary where
  mldsaPublic _ seed := pure (fitTo mldsa65PubSize seed)
  mldsaSign set seed message context :=
    pure (fitTo set.signatureSize
      (Sha2.sha384 ((fitTo mldsa65PubSize seed).take 32 ++ context ++ message)))
  mldsaVerify set key message signature context :=
    pure (signature = fitTo set.signatureSize (Sha2.sha384 (key.take 32 ++ context ++ message)))
  ed25519Public seed :=
    if seed.length = 32 then pure seed
    else throw (.valueError "An Ed25519 private key is 32 bytes long")
  ed25519Sign seed message := pure (fitTo 64 (Sha2.sha384 (fitTo 32 seed ++ message)))
  ed25519Verify key message signature :=
    pure (signature = fitTo 64 (Sha2.sha384 (key ++ message)))

end Naalp.Python.Cose

/-! The signature gates over a tagged COSE_Sign1 object.
The modules `negotiation.py`, `continuation.py`, `naming.py` and `gateway.py` each have their
own; they differ in what they check of the header and in the errors they raise.
-/

namespace Naalp.Python.Cose

open Naalp.Foundation
open Naalp.Python.Cbor

/-- The header that these modules sign under. -/
def bareProtectedHeader (alg : Int) : Py Bytes := encode (.m [(.u 1, .n alg)])

/-- The first integer that a map holds under label 1, of either sign. -/
def firstAlg : List (Value × Value) → Option Int
  | [] => none
  | (.u 1, .n v) :: _ => some v
  | (.u 1, .u v) :: _ => some v
  | _ :: rest => firstAlg rest

/-- The alg under label 1 of a serialized header. -/
def readAlg (notMap noAlg : Exc) (prot : Bytes) : Py Int := do
  let .m pairs ← decode prot | throw notMap
  let some alg := firstAlg pairs | throw noAlg
  return alg

section Gates

variable (lib : SignatureLibrary)

/-- The gate that checks the signature under the given alg only; returns the payload. -/
def bareGate (refused : Exc) (obj : Bytes) (alg : Int) (pubkey : Bytes) : Py Bytes := do
  let (prot, payload, sig) ← parseSign1Raw obj
  let tbs ← toBeSignedRaw prot payload
  let valid ← coseVerify1Raw lib alg pubkey tbs sig
  raiseIf (valid = false) refused
  return payload

/-- The gate that checks registry, profile floor and key alg before the signature. -/
def floorGate (error : Kind → String → Exc) (algFromProtected : Bytes → Py Int) (obj : Bytes)
    (profile alg : Int) (pubkey : Bytes) : Py Bytes := do
  let (prot, payload, sig) ← parseSign1Raw obj
  let halg ← algFromProtected prot
  let (level, known) := algLevel halg
  raiseIf (known = false) (error .unknownAlg ("unregistered alg " ++ toString halg))
  raiseIf (level < profileMinLevel profile)
    (error .profileDowngrade "signature level below the profile minimum")
  raiseIf (halg ≠ alg) (error .keyAlgMismatch
    ("alg " ++ toString halg ++ " does not match the verifier key alg " ++ toString alg))
  let tbs ← toBeSignedRaw prot payload
  let valid ← coseVerify1Raw lib halg pubkey tbs sig
  raiseIf (valid = false) (error .badSignature "signature does not verify")
  return payload

end Gates

end Naalp.Python.Cose

/-! The self-certifying signer ids of `impl/python/naalp/identity.py`. -/

namespace Naalp.Python.Identity

open Naalp.Foundation
open Naalp.Python.Cose

/-- `_MULTICODEC`: the key-type codes of the multiformats registry. -/
def multicodec (alg : Int) : Option Nat :=
  if alg = algEd25519 then some 0xED
  else if alg = algMldsa65 then some 0x1211
  else if alg = algMldsa87 then some 0x1212
  else none

def signerId (alg : Int) (pubkey : Bytes) : Py PyStr := do
  let some mc := multicodec alg
    | throw (.identityError .unknownAlg ("no multicodec for alg " ++ toString alg))
  return PyStr.lit (multihashId (uvarint mc ++ pubkey))

/-- `composite_signer_id`: both tagged keys are in the digest. -/
def compositeSignerId (mldsaAlg : Int) (mldsaPub edPub : Bytes) : Py PyStr := do
  raiseIf (mldsaAlg ≠ algMldsa65 ∧ mldsaAlg ≠ algMldsa87) (.identityError .unknownAlg
    ("composite signer id requires an ML-DSA alg, got " ++ toString mldsaAlg))
  let some mc := multicodec mldsaAlg
    | throw (.identityError .unknownAlg ("no multicodec for alg " ++ toString mldsaAlg))
  return PyStr.lit (multihashId (uvarint mc ++ mldsaPub ++ uvarint 0xED ++ edPub))

end Naalp.Python.Identity
