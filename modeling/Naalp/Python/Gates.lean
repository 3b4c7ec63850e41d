import Naalp.Python.Approval
import Naalp.Python.Cbor
import Naalp.Python.Policy

/-! The approval gates of `approval.py`, `mcp.py` and `payment.py`, which end in
one consume on a shared ledger.
-/

namespace Naalp.Python

open Naalp.Foundation
open Naalp.Python.Cbor
open Naalp.Python.Cose
open Naalp.Python.Approval

/-- Checks before a call on the ledger: when one raises, the ledger is not touched. -/
def Approval.Ledger.guarded {α β : Type} (led : Ledger) (checks : Py α)
    (call : α → Py β × Ledger) : Py β × Ledger :=
  match checks with
  | .error err => (.error err, led)
  | .ok value => call value

/-- `consume_approval`: signature, binding, expiry, grant, then the consume. -/
def Approval.consumeApproval (lib : SignatureLibrary) (led : Ledger) (fault : Option Fault)
    (a : ApprovalRecord) (alg : Int) (pubkey sig argsContentId : Bytes)
    (posTime requiredEffect : Int) (consumer : PyStr) : Py LedgerEntry × Ledger :=
  led.guarded (do
      verifyApproval lib a alg pubkey sig argsContentId posTime
      raiseIf (a.grant > Policy.destructive) (.approvalError .approvalRequired
        "grant is outside the closed 0..3 effect vocabulary")
      raiseIf (Policy.authorizes a.grant requiredEffect = false)
        (.approvalError .approvalRequired "approval's granted effect does not cover this action")
      a.id)
    (fun aid => led.consume fault aid consumer)

namespace Mcp

/-- The tool and argument octets of a tool call. -/
structure ToolCall where
  tool : Bytes
  args : Bytes

/-- The parts of a verified tool call that the gate reads. -/
structure Resolved where
  toolCall : ToolCall
  enforced : Int

structure CallBinding where
  toolId : Bytes
  argsId : Bytes

def CallBinding.bytes (b : CallBinding) : Py Bytes :=
  encode (.m [(.u 1, .b b.toolId), (.u 2, .b b.argsId)])

def CallBinding.contentId (b : CallBinding) : Py Bytes := return contentIdBytes (← b.bytes)

def ToolCall.callBinding (tc : ToolCall) : CallBinding :=
  { toolId := contentIdBytes tc.tool, argsId := contentIdBytes tc.args }

/-- A mismatch on the exact call is a held outcome; other errors are raised again. -/
def heldMismatch : Exc → Exc
  | .approvalError .approvalMismatch _ =>
      .mcpError .approvalRequired "approval does not bind this exact call"
  | err => err

def authorizeCall (lib : SignatureLibrary) (led : Ledger) (fault : Option Fault) (r : Resolved)
    (appr : ApprovalRecord) (approverAlg : Int) (approverPubkey apprSig : Bytes)
    (consumer : PyStr) (now : Int) : Py Unit × Ledger :=
  led.guarded (do
      let callCid ← r.toolCall.callBinding.contentId
      (verifyApproval lib appr approverAlg approverPubkey apprSig callCid now).mapError
        heldMismatch
      raiseIf (Policy.authorizes appr.grant r.enforced = false) (.mcpError .approvalRequired
        "the approval's granted effect does not cover the call")
      appr.id)
    (fun aid =>
      let (result, after) := led.consume fault aid consumer
      (result.map (fun _ => ()), after))

end Mcp

namespace Payment

open Naalp.Python.Fields

def chargeEffect : Int := Policy.nonIdempotentWrite

def isRegisteredFormat (code : Int) : Bool := code = 1 ∨ code = 2 ∨ code = 3

structure PaymentImport where
  format : Int
  amount : Int
  currency : PyStr
  payee : Bytes
  notAfter : Int
  foreign : Bytes

def PaymentImport.bytes (p : PaymentImport) : Py Bytes :=
  encode (.m [(.u 1, .u p.format), (.u 2, .u p.amount), (.u 3, .t p.currency), (.u 4, .b p.payee),
    (.u 5, .u p.notAfter), (.u 6, .b p.foreign)])

def payMalformed (msg : String) : Exc := .payError .payMalformed msg

/-- `parse_payment_import`, with the text of the decoder's error in its own. -/
def parsePaymentImport (b : Bytes) : Py PaymentImport := do
  let v ←
    match decode b with
    | .ok v => pure v
    | .error (.nonCanonical msg) =>
        throw (payMalformed ("non-canonical payment-import body: " ++ msg))
    | .error err => throw err
  let .m pairs := v | throw (payMalformed "payment import is not a map")
  match uintField pairs 1, uintField pairs 2, tstrField pairs 3, bstrField pairs 4,
    uintField pairs 5, bstrField pairs 6 with
  | some format, some amount, some currency, some payee, some notAfter, some foreign =>
      return { format, amount, currency, payee, notAfter, foreign }
  | _, _, _, _, _, _ =>
      throw (payMalformed "object is not a well-formed N-AALP payment-import body")

structure ChargeBinding where
  format : Int
  amount : Int
  currency : PyStr
  payee : Bytes
  notAfter : Int
  foreignId : Bytes

def ChargeBinding.bytes (b : ChargeBinding) : Py Bytes :=
  encode (.m [(.u 1, .u b.format), (.u 2, .u b.amount), (.u 3, .t b.currency), (.u 4, .b b.payee),
    (.u 5, .u b.notAfter), (.u 6, .b b.foreignId)])

def ChargeBinding.contentId (b : ChargeBinding) : Py Bytes := return contentIdBytes (← b.bytes)

def PaymentImport.chargeBinding (p : PaymentImport) : ChargeBinding :=
  { format := p.format, amount := p.amount, currency := p.currency, payee := p.payee,
    notAfter := p.notAfter, foreignId := contentIdBytes p.foreign }

def authorizeCharge (lib : SignatureLibrary) (led : Ledger) (fault : Option Fault)
    (p : PaymentImport) (appr : ApprovalRecord) (alg : Int) (approverPk apprSig : Bytes)
    (consumer : PyStr) (now : Int) : Py LedgerEntry × Ledger :=
  led.guarded (do
      raiseIf (isRegisteredFormat p.format = false) (.payError .unknownPaymentFormat
        "payment import selects a format outside the closed payment-format registry")
      let chargeCid ← p.chargeBinding.contentId
      verifyApproval lib appr alg approverPk apprSig chargeCid now
      raiseIf (Policy.authorizes appr.grant chargeEffect = false) (.payError .approvalRequired
        "the approval's granted effect does not cover the charge")
      appr.id)
    (fun aid => led.consume fault aid consumer)

end Payment

end Naalp.Python
