import Naalp.Foundation.Multibase
import Naalp.Python.RawRecords

/-! The proof bundle of `ecosystem/naalp-bundle/naalp_bundle/bundle.py`: its encoding, the trust
anchor and the offline verifier.
-/

namespace Naalp.Python.Bundle

open Naalp.Foundation
open Naalp.Python.Approval
open Naalp.Python.Cbor
open Naalp.Python.Cose

def malformed (msg : String) : Exc := .bundleError .malformed msg

-----------------------------------------------------------------------------------------
-- The records of a bundle
-----------------------------------------------------------------------------------------

/-- The approval fields seen so far by `_parse_approval_body`. -/
structure ApprovalFields where
  approves : Option Bytes := none
  approver : Option PyStr := none
  grant : Option Int := none
  nonce : Option Bytes := none
  notAfter : Option Int := none
  audience : PyStr := []

def readApprovalField (fields : ApprovalFields) : Value × Value → Py ApprovalFields
  | (.u 1, .b v) => return { fields with approves := some v }
  | (.u 2, .t v) => return { fields with approver := some v }
  | (.u 3, .u v) => return { fields with grant := some v }
  | (.u 4, .b v) => return { fields with nonce := some v }
  | (.u 5, .u v) => return { fields with notAfter := some v }
  | (.u 6, .t v) => return { fields with audience := v }
  | (.u k, _) => throw (malformed ("unknown or mistyped approval field " ++ toString k))
  | _ => throw (malformed "non-uint approval field key")

def parseApprovalBody (body : Bytes) : Py ApprovalRecord := do
  let .m pairs ← decode body | throw (malformed "approval body is not a map")
  match ← pairs.foldlM readApprovalField {} with
  | ⟨some approves, some approver, some grant, some nonce, some notAfter, audience⟩ =>
      return { approves, approver, grant, nonce, notAfter, audience }
  | _ => throw (malformed "approval body missing a mandatory field")

/-- The receipt fields seen so far by `_parse_receipt_body`. -/
structure ReceiptFields where
  ledger : Option Bytes := none
  approvalId : Option Bytes := none
  position : Option Int := none

def readReceiptField (fields : ReceiptFields) : Value × Value → Py ReceiptFields
  | (.u 1, .b v) => return { fields with ledger := some v }
  | (.u 2, .b v) => return { fields with approvalId := some v }
  | (.u 3, .u v) => return { fields with position := some v }
  | (.u k, _) => throw (malformed ("unknown or mistyped receipt field " ++ toString k))
  | _ => throw (malformed "non-uint receipt field key")

def parseReceiptBody (body : Bytes) : Py ConsumeReceipt := do
  let .m pairs ← decode body | throw (malformed "receipt body is not a map")
  match ← pairs.foldlM readReceiptField {} with
  | ⟨some ledger, some approvalId, some position⟩ => return { ledger, approvalId, position }
  | _ => throw (malformed "receipt body missing a mandatory field")

-----------------------------------------------------------------------------------------
-- Bundles
-----------------------------------------------------------------------------------------

structure ProofBundle where
  objectBytes : Bytes
  profile : Int
  approval : Option ApprovalRecord
  approvalSig : Bytes
  approvalAlg : Int
  receipt : Option ConsumeReceipt
  receiptSig : Bytes
  receiptAlg : Int
  selfAssertedKeys : List (PyStr × Bytes × Bytes) := []

/-- The first signer field of a body. -/
def findSigner : List (Value × Value) → Option Bytes
  | [] => none
  | (.u 5, .b signer) :: _ => some signer
  | _ :: rest => findSigner rest

def peekObjectSigner (objectBytes : Bytes) : Py Bytes := do
  let (_, payload, _) ← parseSign1Raw objectBytes
  let .m pairs ← decodeBounded payload Envelope.maxNestingDepth
    | throw (malformed "object body is not a map")
  let some signer := findSigner pairs | throw (malformed "object body carries no signer field")
  return signer

def objectAlg (objectBytes : Bytes) : Py Int := do
  let (prot, _, _) ← parseSign1Raw objectBytes
  algFromProtected prot

def objectRole : PyStr := .lit ['o', 'b', 'j', 'e', 'c', 't']

def approvalRole : PyStr := .lit ['a', 'p', 'p', 'r', 'o', 'v', 'a', 'l']

def receiptRole : PyStr := .lit ['r', 'e', 'c', 'e', 'i', 'p', 't']

/-- A verifying key that a bundle needs: its role, the id of its holder and its alg. -/
structure KeyRef where
  role : PyStr
  id : Bytes
  alg : Int
  deriving DecidableEq

/-- A part that is `None`, when one of its attributes is read. -/
def required {α : Type} : Option α → Py α
  | some part => return part
  | none => throw .attributeError

def ProofBundle.keyRefs (bundle : ProofBundle) : Py (KeyRef × KeyRef × KeyRef) := do
  let signer ← peekObjectSigner bundle.objectBytes
  let alg ← objectAlg bundle.objectBytes
  let approver ← (← required bundle.approval).approver.encode
  let receipt ← required bundle.receipt
  return ({ role := objectRole, id := signer, alg },
    { role := approvalRole, id := approver, alg := bundle.approvalAlg },
    { role := receiptRole, id := receipt.ledger, alg := bundle.receiptAlg })

/-- An entry of `self_asserted_keys` on the wire. -/
def keyValue (key : PyStr × Bytes × Bytes) : Value := .a [.t key.1, .b key.2.1, .b key.2.2]

/-- `_body_map`: field 9 is omitted when there are no self-asserted keys. -/
def ProofBundle.bodyMap (bundle : ProofBundle) : Py Value := do
  let approval ← (← required bundle.approval).bytes
  let receipt ← (← required bundle.receipt).bytes
  return .m ([(.u 1, .b bundle.objectBytes), (.u 2, .u bundle.profile), (.u 3, .b approval),
      (.u 4, .b bundle.approvalSig), (.u 5, .n bundle.approvalAlg), (.u 6, .b receipt),
      (.u 7, .b bundle.receiptSig), (.u 8, .n bundle.receiptAlg)]
    ++ (if bundle.selfAssertedKeys ≠ []
      then [(.u 9, .a (bundle.selfAssertedKeys.map keyValue))] else []))

def ProofBundle.toBytes (bundle : ProofBundle) : Py Bytes := do encode (← bundle.bodyMap)

section Reading

variable (fields : List (Value × Value))

def checkBundleKeys : List (Value × Value) → Py Unit
  | [] => return
  | (.u _, _) :: rest => checkBundleKeys rest
  | _ => throw (malformed "non-uint bundle field key")

def wrongField (n : Int) : Exc := malformed ("field " ++ toString n ++ " wrong type or absent")

def needB (n : Int) : Py Bytes :=
  match Envelope.getField n fields with
  | some (.b v) => return v
  | _ => throw (wrongField n)

def needU (n : Int) : Py Int :=
  match Envelope.getField n fields with
  | some (.u v) => return v
  | _ => throw (wrongField n)

def needN (n : Int) : Py Int :=
  match Envelope.getField n fields with
  | some (.n v) => return v
  | _ => throw (wrongField n)

def parseKey : Value → Py (PyStr × Bytes × Bytes)
  | .a [.t role, .b id, .b pubkey] => return (role, id, pubkey)
  | .a [_, _, _] => throw (malformed "self-asserted key entry field types")
  | _ => throw (malformed "self-asserted key entry malformed")

def selfAsserted : Py (List (PyStr × Bytes × Bytes)) :=
  match Envelope.getField 9 fields with
  | none => return []
  | some (.a items) => items.mapM parseKey
  | some _ => throw (malformed "field 9 (self_asserted_keys) not an array")

end Reading

def fromBytes (data : Bytes) : Py ProofBundle := do
  let .m pairs ← decode data | throw (malformed "bundle is not a map")
  checkBundleKeys pairs
  let objectBytes ← needB pairs 1
  let profile ← needU pairs 2
  let approval ← parseApprovalBody (← needB pairs 3)
  let approvalSig ← needB pairs 4
  let approvalAlg ← needN pairs 5
  let receipt ← parseReceiptBody (← needB pairs 6)
  let receiptSig ← needB pairs 7
  let receiptAlg ← needN pairs 8
  let selfAssertedKeys ← selfAsserted pairs
  return {
    objectBytes, profile, approval, approvalSig, approvalAlg, receipt, receiptSig, receiptAlg
    selfAssertedKeys
  }

-----------------------------------------------------------------------------------------
-- Verification
-----------------------------------------------------------------------------------------

/-- The keys by role and id, and whether they were read from the bundle. -/
structure TrustAnchor where
  known : AList (fun _ : PyStr × Bytes => Bytes) := ∅
  selfDerived : Bool := false

def TrustAnchor.resolve (anchor : TrustAnchor) (role : PyStr) (id : Bytes) : Option Bytes :=
  anchor.known.lookup (role, id)

/-- `TrustAnchor.from_bundle_self_asserted`; a later entry replaces an earlier one. -/
def TrustAnchor.fromBundleSelfAsserted (bundle : ProofBundle) : TrustAnchor where
  known := bundle.selfAssertedKeys.foldl
    (fun known key => known.insert (key.1, key.2.1) key.2.2) ∅
  selfDerived := true

/-- `_NAMED_ERROR_TYPES`. -/
def isNamed : Exc → Bool
  | .envelopeError _ _ | .approvalError _ _ | .nonCanonical _ | .depthExceeded _ => true
  | _ => false

section

-- `str` is Python's `str` of an exception.
variable (lib : SignatureLibrary) (str : Exc → String)

/-- `_call_named`, with the name and the outcome of the function that is called. -/
def callNamed {α : Type} (name : String) : Py α → Py α
  | .ok value => return value
  | .error err =>
      if isNamed err then throw err
      else throw (.bundleError .malformedSignatureInput (name ++ ": " ++ str err))

def resolveKey (anchor : TrustAnchor) (holder : String) (ref : KeyRef) : Py Bytes :=
  match anchor.resolve ref.role ref.id with
  | some pubkey => return pubkey
  | none => throw (.bundleError .unresolvedAnchor
      ("no independently-supplied key for " ++ holder ++ " " ++ String.ofList (hex ref.id)))

/-- `verify_bundle`, where `clock` is the local time that stands for a missing `pos_time`. -/
def verifyBundle (bundle : ProofBundle) (anchor : Option TrustAnchor)
    (kindValidator : Option (Int → Int → Bool)) (posTime : Option Int) (clock : Int)
    (knownCext : List Int) : Py Envelope.Object := do
  let some anchor := anchor
    | throw (.bundleError .anchorRequired
        "verification requires an independently-supplied trust anchor")
  raiseIf anchor.selfDerived (.bundleError .circularAnchor
    ("the anchor was derived from key material the bundle itself carries; refused -- F3 "
      ++ "non-circular verification requires a trust anchor from an independent source"))
  let (some approval, some receipt) := (bundle.approval, bundle.receipt)
    | throw (.bundleError .incompleteBundle
        "a proof bundle must carry both an approval and a consume receipt")
  let posTime := posTime.getD clock
  let (objRef, approvalRef, receiptRef) ← bundle.keyRefs
  let objectPk ← resolveKey anchor "object signer" objRef
  let obj ← callNamed str "verify" (Envelope.verify lib bundle.profile objRef.alg objectPk
    kindValidator bundle.objectBytes knownCext)
  let approvalPk ← resolveKey anchor "approver" approvalRef
  let argsContentId ← obj.contentId
  callNamed str "verify_approval" (verifyApproval lib approval approvalRef.alg approvalPk
    bundle.approvalSig argsContentId posTime)
  let approvalId ← approval.id
  raiseIf (receipt.approvalId ≠ approvalId) (.bundleError .receiptApprovalMismatch
    "the consume receipt does not name this bundle's approval")
  let receiptPk ← resolveKey anchor "ledger" receiptRef
  callNamed str "verify_consume_receipt" (verifyConsumeReceipt lib receipt receiptRef.alg receiptPk
    bundle.receiptSig)
  return obj

end

end Naalp.Python.Bundle
