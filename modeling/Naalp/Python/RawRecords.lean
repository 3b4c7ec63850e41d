import Naalp.Python.Approval
import Naalp.Python.Cose

/-! The records that are signed directly over their octets, without a header: key rotation,
revocation and foreign linkage of `impl/python/naalp/identity.py`, the held result and the consume
receipt of `approval.py`, the receipt of `audit.py` and the update of `delivery.py`.
-/

namespace Naalp.Python.Identity

open Naalp.Foundation
open Naalp.Python.Cbor
open Naalp.Python.Cose

structure RotationRecord where
  old : PyStr
  new : PyStr
  notBefore : Int
  deriving DecidableEq

def RotationRecord.bytes (r : RotationRecord) : Py Bytes :=
  encode (.m [(.u 1, .t r.old), (.u 2, .t r.new), (.u 3, .u r.notBefore)])

/-- Both keys derive the ids of the record; an unregistered alg has no id to derive. -/
def checkRotationIds (r : RotationRecord) (oldAlg : Int) (oldPub : Bytes) (newAlg : Int)
    (newPub : Bytes) : Py Unit :=
  let checks := do
    raiseIf ((← signerId oldAlg oldPub) ≠ r.old)
      (.identityError .rotationUnauthorized "old key does not derive the record's old id")
    raiseIf ((← signerId newAlg newPub) ≠ r.new)
      (.identityError .rotationUnauthorized "new key does not derive the record's new id")
  match checks with
  | .error (.identityError .unknownAlg _) => throw
      (.identityError .rotationUnauthorized "rotation names an unregistered algorithm")
  | outcome => outcome

def verifyRotation (lib : SignatureLibrary) (r : RotationRecord) (oldAlg : Int) (oldPub : Bytes)
    (newAlg : Int) (newPub oldSig newSig : Bytes) : Py Unit := do
  checkRotationIds r oldAlg oldPub newAlg newPub
  let m ← r.bytes
  let oldValid ← coseVerify1Raw lib oldAlg oldPub m oldSig
  raiseIf (oldValid = false) (.identityError .rotationUnauthorized
    "a rotation signature does not verify under its key")
  let newValid ← coseVerify1Raw lib newAlg newPub m newSig
  raiseIf (newValid = false) (.identityError .rotationUnauthorized
    "a rotation signature does not verify under its key")

/-- One verified step of a thread: the record, the two keys and their co-signatures. -/
structure RotationEvidence where
  record : RotationRecord
  oldAlg : Int
  newAlg : Int
  oldPub : Bytes
  newPub : Bytes
  oldSig : Bytes
  newSig : Bytes

/-- A root signer id that is continued by rotations. -/
structure Thread where
  root : PyStr
  current : PyStr
  chain : List PyStr
  deriving DecidableEq

/-- The loop of `resolve_thread`, from the id that the rotations before it left: the ids that
follow.
-/
def resolveRotations (lib : SignatureLibrary)
    : (prevNew : PyStr) → List RotationEvidence → Py (List PyStr)
  | _, [] => return []
  | prevNew, e :: rest => do
      raiseIf (e.record.old ≠ prevNew)
        (.identityError .rotationUnauthorized "chain not contiguous")
      verifyRotation lib e.record e.oldAlg e.oldPub e.newAlg e.newPub e.oldSig e.newSig
      let ids ← resolveRotations lib e.record.new rest
      return e.record.new :: ids

def resolveThread (lib : SignatureLibrary) (evs : List RotationEvidence) : Py Thread :=
  match evs with
  | [] => throw (.identityError .rotationUnauthorized "empty rotation chain")
  | first :: _ => do
      let root := first.record.old
      let ids ← resolveRotations lib root evs
      return { root, current := ids.getLastD root, chain := root :: ids }

structure RevocationRecord where
  key : PyStr
  notAfter : Int
  deriving DecidableEq

def RevocationRecord.bytes (r : RevocationRecord) : Py Bytes :=
  encode (.m [(.u 1, .t r.key), (.u 2, .u r.notAfter)])

def verifyRevocation (lib : SignatureLibrary) (r : RevocationRecord) (alg : Int)
    (pub sig : Bytes) (recoveryIds : List PyStr) : Py Unit := do
  let id ← signerId alg pub
  raiseIf (id ≠ r.key ∧ id ∉ recoveryIds) (.identityError .signerMismatch
    "signer is neither the revoked key nor an authorized recovery key")
  let valid ← coseVerify1Raw lib alg pub (← r.bytes) sig
  raiseIf (valid = false)
    (.identityError .badSignature "revocation signature does not verify")

/-- Whether what was fixed at the position is after the revocation. -/
def revokedAt (r : RevocationRecord) (posTime : Int) : Bool := r.notAfter < posTime

structure ForeignLinkRecord where
  controls : PyStr
  foreignId : PyStr
  notAfter : Int
  deriving DecidableEq

def ForeignLinkRecord.bytes (r : ForeignLinkRecord) : Py Bytes :=
  encode (.m [(.u 1, .t r.controls), (.u 2, .t r.foreignId), (.u 3, .u r.notAfter)])

section Normalizing

-- `nfc` is `unicodedata.normalize("NFC", ·)`.
variable (nfc : PyStr → PyStr)

def requireNfc (s : PyStr) : Py Unit :=
  raiseIf (nfc s ≠ s) (.identityError .nonNfc "string is not Unicode NFC")

/-- Whether the link holds; an expired or unsigned one is no error. -/
def verifyForeignLink (lib : SignatureLibrary) (r : ForeignLinkRecord) (alg : Int)
    (foreignPub sig : Bytes) (now : Int) : Py Bool := do
  requireNfc nfc r.foreignId
  if now > r.notAfter then return false
  coseVerify1Raw lib alg foreignPub (← r.bytes) sig

end Normalizing

end Naalp.Python.Identity

namespace Naalp.Python.Approval

open Naalp.Foundation
open Naalp.Python.Cbor
open Naalp.Python.Cose

structure HeldResult where
  approves : Bytes
  reason : PyStr
  deriving DecidableEq

def HeldResult.bytes (h : HeldResult) : Py Bytes :=
  encode (.m [(.u 1, .b h.approves), (.u 2, .t h.reason)])

def verifyConsumeReceipt (lib : SignatureLibrary) (r : ConsumeReceipt) (alg : Int)
    (pubkey sig : Bytes) : Py Unit := do
  raiseIf (r.ledger = []) (.approvalError .consumeReceiptUnsigned
    "an unnamed ordering authority is not evidence")
  let valid ← coseVerify1Raw lib alg pubkey (← r.bytes) sig
  raiseIf (valid = false) (.approvalError .consumeReceiptUnsigned
    "consume receipt signature does not verify")

/-- `verify_fresh_independent`: the approval and the receipt, each on its own, and the authority
that signed the receipt is not the party.
-/
def verifyFreshIndependent (lib : SignatureLibrary) (a : ApprovalRecord) (approverAlg : Int)
    (approverPk aSig argsContentId : Bytes) (posTime : Int) (r : ConsumeReceipt) (ledgerAlg : Int)
    (ledgerPk rSig partyId : Bytes) : Py Unit := do
  verifyApproval lib a approverAlg approverPk aSig argsContentId posTime
  verifyConsumeReceipt lib r ledgerAlg ledgerPk rSig
  raiseIf (r.ledger = partyId) (.approvalError .freshnessSelfAsserted
    "the ordering authority that stamps freshness is the authenticated party itself")

end Naalp.Python.Approval

namespace Naalp.Python.Audit

open Naalp.Foundation
open Naalp.Python.Cbor
open Naalp.Python.Cose

def headSize : Nat := 48

/-- One append to the chain of an ordering authority. -/
structure Receipt where
  prev : Bytes
  obj : Bytes
  seq : Int
  time : Int
  deriving DecidableEq

/-- `Receipt.bytes`; `time` is the field `at` of the source. -/
def Receipt.bytes (r : Receipt) : Py Bytes :=
  encode (.m [(.u 1, .b r.prev), (.u 2, .b r.obj), (.u 3, .u r.seq), (.u 4, .u r.time)])

def Receipt.head (r : Receipt) : Py Bytes := return Sha2.sha384 (← r.bytes)

/-- The loop of `verify_chain`, at index `i` below the head that the receipts before it left. -/
def verifyLinks (lib : SignatureLibrary) (alg : Int) (pubkey : Bytes)
    : (head : Bytes) → (i : Int) → List (Receipt × Bytes) → Py Unit
  | _, _, [] => pure ()
  | head, i, (r, sig) :: rest => do
      raiseIf (r.seq ≠ i ∨ r.prev ≠ head) (.auditError .chainBroken
        "receipt prev/seq does not chain to the previous receipt")
      let valid ← mldsaVerify lib alg pubkey (← r.bytes) sig
      raiseIf (valid = false)
        (.auditError .receiptUnsigned "receipt signature does not verify")
      verifyLinks lib alg pubkey (← r.head) (i + 1) rest

def verifyChain (lib : SignatureLibrary) (receipts : List Receipt) (sigs : List Bytes)
    (alg : Int) (pubkey : Bytes) : Py Unit := do
  raiseIf (receipts.length ≠ sigs.length)
    (.auditError .chainBroken "receipt/signature count mismatch")
  verifyLinks lib alg pubkey (List.replicate headSize 0) 0 (receipts.zip sigs)

end Naalp.Python.Audit

namespace Naalp.Python.Delivery

open Naalp.Foundation
open Naalp.Python.Cbor
open Naalp.Python.Cose

/-- One notification of a delivery stage; `time` is the field `at` of the source. -/
structure DeliveryUpdate where
  obj : Bytes
  stage : Int
  time : Int
  deriving DecidableEq

def DeliveryUpdate.bytes (u : DeliveryUpdate) : Py Bytes :=
  encode (.m [(.u 1, .b u.obj), (.u 2, .u u.stage), (.u 3, .u u.time)])

def verifyUpdate (lib : SignatureLibrary) (update : DeliveryUpdate) (alg : Int)
    (pubkey sig : Bytes) : Py Bool := do
  mldsaVerify lib alg pubkey (← update.bytes) sig

end Naalp.Python.Delivery
