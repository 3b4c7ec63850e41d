import Naalp.Go.Approval
import Naalp.Go.MixedMode
import Naalp.Rust.Stores

/-! The consume ledgers of `impl/go/approval/approval.go` and `impl/rust/src/approval.rs` that are
opened with the id of their authority, and the consume of an object that is addressed to it.
-/

namespace Naalp.Native

open Naalp.Foundation
open Naalp.Go (Stop Result)

def errLedgerUnsigned : Stop :=
  .error .ledgerUnsigned "ledger was not opened with a signing key"

/-- `CheckAudience` and `check_audience`, on strings of `α`. -/
def checkAudience {α : Type} [DecidableEq α] (audience selfAuthority : List α)
    (consumeOnce : Bool) : Result Unit :=
  if audience = [] then raiseIf consumeOnce Go.Envelope.errWrongAudience
  else raiseIf (audience ≠ selfAuthority) Go.Envelope.errWrongAudience

end Naalp.Native

namespace Naalp.Go.Approval

open Naalp.Foundation
open Naalp.Python (PyStr)
open Naalp.Python.Approval (LedgerEntry)

/-- A ledger with its `ledgerID`, as `OpenLedgerSigned` opens it. -/
structure NamedLedger extends Ledger where
  ledgerID : Bytes

def NamedLedger.consume (l : NamedLedger) (approvalID : Bytes) (consumer : PyStr)
    : Except Failure LedgerEntry × NamedLedger :=
  let (outcome, after) := l.toLedger.consume approvalID consumer
  (outcome, { after with ledgerID := l.ledgerID })

/-- `ConsumeObject`. The conversion `string(l.ledgerID)` keeps the octets. -/
def NamedLedger.consumeObject (l : NamedLedger) (o : Envelope.Object) (approvalID : Bytes)
    (consumer : PyStr) : Except Failure LedgerEntry × NamedLedger :=
  if l.ledgerID = [] then (.error (.coded Native.errLedgerUnsigned), l)
  else
    match Native.checkAudience o.audience.octets l.ledgerID true with
    | .error stop => (.error (.coded stop), l)
    | .ok _ => l.consume approvalID consumer

end Naalp.Go.Approval

namespace Naalp.Rust.Approval

open Naalp.Foundation
open Naalp.Python.Approval (LedgerEntry)

/-- A ledger with its `ledger_id`, as `open_ledger_signed` opens it. -/
structure NamedLedger extends Ledger where
  ledgerId : Bytes

def NamedLedger.consume (l : NamedLedger) (approvalId : Bytes) (consumer : List Char)
    : Except Failure LedgerEntry × NamedLedger :=
  let (outcome, after) := l.toLedger.consume approvalId consumer
  (outcome, { after with ledgerId := l.ledgerId })

/-- `consume_object`, which decodes the id lossily before it compares. -/
def NamedLedger.consumeObject (l : NamedLedger) (o : Go.Envelope.Object) (approvalId : Bytes)
    (consumer : List Char) : Except Failure LedgerEntry × NamedLedger :=
  if l.ledgerId = [] then (.error (.cose Native.errLedgerUnsigned), l)
  else
    let selfAuthority := Channels.fromUtf8Lossy l.ledgerId
    match Native.checkAudience o.audience.chars selfAuthority true with
    | .error stop => (.error (.cose stop), l)
    | .ok _ => l.consume approvalId consumer

end Naalp.Rust.Approval
