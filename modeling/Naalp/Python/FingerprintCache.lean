import Mathlib.Data.List.AList
import Naalp.Foundation.Methods
import Naalp.Python.Cose
import Naalp.Python.Envelope

/-! The pin store of
`ecosystem/naalp-fingerprint-cache/naalp_fingerprint_cache/fingerprint_cache.py`.
-/

namespace Naalp.Python.FingerprintCache

open Naalp.Foundation
open Naalp.Python.Cose

/-- `_is_identity_rotation_kind`. -/
def isIdentityRotationKind (channel kind : Int) : Bool := channel = 3 ∧ kind = 0

structure PinnedIdentity where
  alg : Int
  pubkey : Bytes
  fingerprint : PyStr
  deriving DecidableEq

/-- `_pins`: the pinned identity of each logical id. -/
abbrev Pins := AList (fun _ : PyStr => PinnedIdentity)

/-- The arguments of one `check_and_pin`. -/
structure Presented where
  logicalId : PyStr
  alg : Int
  pubkey : Bytes
  rotationObject : Option Bytes := none

section

-- `repr` is Python's `repr` of a string.
variable (lib : SignatureLibrary) (repr : PyStr → String) (profile : Int)

def keyPinViolation (logicalId pinned presented : PyStr) : Exc :=
  .fingerprintCacheError .keyPinViolation ("fingerprint changed for " ++ repr logicalId
    ++ " with no rotation proof offered (pinned=" ++ String.ofList pinned.chars ++ ", presented="
    ++ String.ofList presented.chars ++ ")")

/-- `self._pins[logical_id] = entry`. -/
def pin (call : Presented) (fingerprint : PyStr) : EStateM Exc Pins PinnedIdentity := do
  let entry : PinnedIdentity := { alg := call.alg, pubkey := call.pubkey, fingerprint }
  modify fun pins => pins.insert call.logicalId entry
  return entry

/-- `check_and_pin`, in a cache of a profile. -/
def checkAndPin (call : Presented) : EStateM Exc Pins PinnedIdentity := do
  let newFingerprint ← check (Identity.signerId call.alg call.pubkey)
  let pins ← get
  match pins.lookup call.logicalId with
  | none => pin call newFingerprint
  | some pinned =>
      if pinned.fingerprint = newFingerprint then return pinned
      else
        match call.rotationObject with
        | none =>
            throw (keyPinViolation repr call.logicalId pinned.fingerprint newFingerprint)
        | some rotationObject =>
            let _ ← check (Envelope.verifyRotationObject lib profile pinned.alg pinned.pubkey
              call.alg call.pubkey (some isIdentityRotationKind) rotationObject [])
            pin call newFingerprint

end

end Naalp.Python.FingerprintCache
