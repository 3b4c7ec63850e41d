import Naalp.Native.Delegation

/-! The approval gates of `payment.rs`, `mcp.rs` and `delegation.rs` under `impl/rust/src`, with
the approvals of `approval.rs`. Each is a sequence of checks that ends in one consume.
-/

namespace Naalp.Rust

open Naalp.Foundation
open Naalp.Go (Stop Result)
open Naalp.Python (PyStr)
open Naalp.Python.Cbor (Value contentIdBytes)
open Naalp.Native.Delegation (authorizes)

/-- A `Vec<u8>`; an allocation holds at most `isize::MAX` octets. -/
structure Octets where
  bytes : Bytes
  size : bytes.length ≤ Cbor.isizeMax

/-- A `String`, by its characters. -/
structure Text where
  chars : List Char
  size : (Channels.asBytes chars).length ≤ Cbor.isizeMax

def Octets.value (v : Octets) : Value := .b v.bytes

def Text.value (s : Text) : Value := .t (.lit s.chars)

namespace Approval

def errApprovalMismatch : Stop :=
  .error .approvalMismatch "approval does not bind these arguments' content id"
def errApprovalExpired : Stop := .error .approvalExpired "approval is past its not_after"
def errApprovalRequired : Stop :=
  .error .approvalRequired "action requires an approval that is not present"
def errLedgerIo : Stop := .error .ledgerIo "consume ledger write failed"

structure ApprovalRecord where
  approves : Octets
  approver : Text
  grant : UInt64
  nonce : Octets
  notAfter : UInt64
  audience : Text

/-- The map that `ApprovalRecord::bytes` encodes. -/
def ApprovalRecord.value (a : ApprovalRecord) : Value :=
  .m ([(.u 1, a.approves.value), (.u 2, a.approver.value), (.u 3, .u a.grant.toNat),
    (.u 4, a.nonce.value), (.u 5, .u a.notAfter.toNat)]
    ++ (if a.audience.chars ≠ [] then [(.u 6, a.audience.value)] else []))

def ApprovalRecord.bytes (a : ApprovalRecord) : Result Bytes := expect (Cbor.encode a.value)

def ApprovalRecord.id (a : ApprovalRecord) : Result Bytes := return contentIdBytes (← a.bytes)

def verifyApproval (lib : Cose.SignatureLibrary) (a : ApprovalRecord) (approverV : Cose.Verifier)
    (sig argsContentId : Bytes) (posTime : UInt64) : Result Unit := do
  let body ← a.bytes
  raiseIf (approverV.verifyRaw lib body sig = false) Go.Cose.errBadSignature
  raiseIf (a.approves.bytes ≠ argsContentId) errApprovalMismatch
  raiseIf (posTime > a.notAfter) errApprovalExpired

/-- `appr.grant as u8`, which keeps the low octet. -/
def ApprovalRecord.grantOctet (a : ApprovalRecord) : UInt8 := a.grant.toUInt8

/-- What the gates make of an error of the ledger. -/
def surfaced : Failure → Stop
  | .cose stop => stop
  | .io => errLedgerIo

/-- The checks of a gate, then the consume of the id that they leave. -/
def Ledger.guarded (l : Ledger) (checks : Result Bytes) (consumer : List Char)
    : Result Unit × Ledger :=
  match checks with
  | .error stop => (.error stop, l)
  | .ok aid =>
      let (outcome, after) := l.consume aid consumer
      ((outcome.map (fun _ => ())).mapError surfaced, after)

end Approval

open Approval

namespace Payment

def chargeEffect : UInt8 := 2

def isRegisteredFormat (code : UInt64) : Bool := code = 1 ∨ code = 2 ∨ code = 3

def errUnknownFormat : Stop := .error .unknownPaymentFormat
  "payment import selects a format outside the closed payment-format registry"

structure PaymentImport where
  format : UInt64
  amount : UInt64
  currency : Text
  payee : Octets
  notAfter : UInt64
  foreign : Octets

/-- The charge binding; `foreignId` is the content id of the carried payload. -/
structure ChargeBinding where
  format : UInt64
  amount : UInt64
  currency : Text
  payee : Octets
  notAfter : UInt64
  foreignId : Bytes

def PaymentImport.chargeBinding (p : PaymentImport) : ChargeBinding :=
  { format := p.format, amount := p.amount, currency := p.currency, payee := p.payee,
    notAfter := p.notAfter, foreignId := contentIdBytes p.foreign.bytes }

def ChargeBinding.value (b : ChargeBinding) : Value :=
  .m [(.u 1, .u b.format.toNat), (.u 2, .u b.amount.toNat), (.u 3, b.currency.value),
    (.u 4, b.payee.value), (.u 5, .u b.notAfter.toNat), (.u 6, .b b.foreignId)]

def ChargeBinding.contentId (b : ChargeBinding) : Result Bytes :=
  return contentIdBytes (← expect (Cbor.encode b.value))

def authorizeCharge (lib : Cose.SignatureLibrary) (p : PaymentImport) (appr : ApprovalRecord)
    (approverV : Cose.Verifier) (apprSig : Bytes) (consumer : List Char) (now : UInt64)
    (ledger : Ledger) : Result Unit × Ledger :=
  ledger.guarded (do
      raiseIf (isRegisteredFormat p.format = false) errUnknownFormat
      let chargeCid ← p.chargeBinding.contentId
      verifyApproval lib appr approverV apprSig chargeCid now
      raiseIf (authorizes appr.grantOctet chargeEffect = false) errApprovalRequired
      appr.id)
    consumer

end Payment

namespace Mcp

structure ToolCall where
  tool : Bytes
  args : Bytes

/-- The parts of a verified tool call that the gate reads. -/
structure Resolved where
  toolCall : ToolCall
  enforced : UInt8

structure CallBinding where
  toolId : Bytes
  argsId : Bytes

def ToolCall.callBinding (tc : ToolCall) : CallBinding :=
  { toolId := contentIdBytes tc.tool, argsId := contentIdBytes tc.args }

def CallBinding.value (b : CallBinding) : Value := .m [(.u 1, .b b.toolId), (.u 2, .b b.argsId)]

def CallBinding.contentId (b : CallBinding) : Result Bytes :=
  return contentIdBytes (← expect (Cbor.encode b.value))

/-- A mismatch on the exact call is a held outcome; other errors are passed on. -/
def heldMismatch (stop : Stop) : Stop :=
  match stop with
  | .error .approvalMismatch _ => errApprovalRequired
  | stop => stop

def authorizeCall (lib : Cose.SignatureLibrary) (r : Resolved) (appr : ApprovalRecord)
    (approverV : Cose.Verifier) (apprSig : Bytes) (consumer : List Char) (now : UInt64)
    (ledger : Ledger) : Result Unit × Ledger :=
  ledger.guarded (do
      let callCid ← r.toolCall.callBinding.contentId
      (verifyApproval lib appr approverV apprSig callCid now).mapError heldMismatch
      raiseIf (authorizes appr.grantOctet r.enforced = false) errApprovalRequired
      appr.id)
    consumer

end Mcp

namespace Delegation

open Naalp.Native.Delegation (Action GrantSet Revocations)

/-- Any error of the approval check is the held outcome; a panic is none. -/
def heldApproval : Stop → Stop
  | .error _ _ => errApprovalRequired
  | .panic => .panic

def authorizeDestructive (lib : Cose.SignatureLibrary) (action : Action Char)
    (grants : GrantSet Char) (anchors : List (List Char)) (revoked : Revocations) (now : UInt64)
    (appr : ApprovalRecord) (approverV : Cose.Verifier) (apprSig argsContentId : Bytes)
    (ledger : Ledger) : Result Unit × Ledger :=
  ledger.guarded (do
      verifyChain action grants anchors revoked now
      (verifyApproval lib appr approverV apprSig argsContentId now).mapError heldApproval
      raiseIf (authorizes appr.grantOctet action.effect = false) errApprovalRequired
      appr.id)
    action.signer

end Delegation

end Naalp.Rust
