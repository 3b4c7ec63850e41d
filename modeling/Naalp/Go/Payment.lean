import Naalp.Go.Approval
import Naalp.Native.Delegation
import Naalp.Python.Gates

/-! The per-charge approval gate of `impl/go/payment/payment.go`. Imports and charge bindings are
those of the Python module.
-/

namespace Naalp.Go.Payment

open Naalp.Foundation
open Naalp.Go.Approval
open Naalp.Go.Cose
open Naalp.Python (PyStr)
open Naalp.Python.Approval (ApprovalRecord LedgerEntry)
open Naalp.Python.Payment (PaymentImport ChargeBinding isRegisteredFormat)

def errUnknownFormat : Stop := .error .unknownPaymentFormat
  "payment import selects a format outside the closed payment-format registry"
def errApprovalRequired : Stop :=
  .error .approvalRequired "action requires an approval that is not present"

def chargeEffect : UInt8 := 2

/-- `ChargeBinding.Bytes`, which drops the error of the encoder. -/
def bindingBytes (b : ChargeBinding) : Bytes :=
  (Cbor.encode (.m [(.u 1, .u b.format), (.u 2, .u b.amount), (.u 3, .t b.currency),
    (.u 4, .b b.payee), (.u 5, .u b.notAfter), (.u 6, .b b.foreignId)])).toOption.getD []

/-- `ChargeBinding.ContentID`. -/
def bindingId (b : ChargeBinding) : Bytes := Python.Cbor.contentIdBytes (bindingBytes b)

/-- `policy.Effect(appr.Grant)`, which keeps the low octet. -/
def grantOctet (appr : ApprovalRecord) : UInt8 := UInt8.ofNat appr.grant.toNat

def authorizeCharge (lib : SignatureLibrary) (p : PaymentImport) (appr : ApprovalRecord)
    (approverV : Verifier) (apprSig : Bytes) (consumer : PyStr) (now : Int) (ledger : Ledger)
    : Except Failure LedgerEntry × Ledger :=
  let checks : Result Unit := do
    raiseIf (isRegisteredFormat p.format = false) errUnknownFormat
    verifyApproval lib appr approverV apprSig (bindingId p.chargeBinding) now
    raiseIf (Native.Delegation.authorizes (grantOctet appr) chargeEffect = false)
      errApprovalRequired
  match checks with
  | .error stop => (.error (.coded stop), ledger)
  | .ok _ => ledger.consume (approvalId appr) consumer

end Naalp.Go.Payment
