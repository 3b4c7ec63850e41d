import Naalp.Foundation.Journal
import Naalp.Go.Cbor
import Naalp.Go.Cose
import Naalp.Python.Approval

/-! The consume ledger of `impl/go/approval/approval.go`.
Entries and the rebuilt memory are those of the Python ledger; the sequence counter is a
`uint64`.
-/

namespace Naalp.Go.Approval

open Naalp.Foundation
open Naalp.Python (PyStr)
open Naalp.Python.Cbor (Value)
open Naalp.Python.Approval (LedgerEntry LedgerMemory absorbEntry)

/-- An error of the package: one that carries a kind, or a plain one with its text. -/
inductive Failure where
  | coded (stop : Stop)
  | plain (msg : String)
  deriving DecidableEq, Repr

def errAlreadyConsumed : Failure := .coded (.error .alreadyConsumed "approval already consumed")
def errLedgerCorrupt : Failure :=
  .coded (.error .ledgerCorrupt "consume ledger hash chain does not verify")

/-- `LedgerEntry.Bytes`, which drops the error of the encoder and then returns no octets. -/
def entryBytes (e : LedgerEntry) : Bytes :=
  match Cbor.encode (.m [(.u 1, .u e.seq), (.u 2, .b e.prev), (.u 3, .b e.approvalId),
    (.u 4, .t e.consumer)]) with
  | .ok b => b
  | .error _ => []

/-- One round of the loop of `parseEntry`. -/
def readEntryPair (e : LedgerEntry) : Value × Value → Except Failure LedgerEntry
  | (.u 1, .u seq) => return { e with seq }
  | (.u 1, _) => throw (.plain "seq not uint")
  | (.u 2, .b prev) => return { e with prev }
  | (.u 2, _) => throw (.plain "prev not bstr")
  | (.u 3, .b approvalId) => return { e with approvalId }
  | (.u 3, _) => throw (.plain "approval-id not bstr")
  | (.u 4, .t consumer) => return { e with consumer }
  | (.u 4, _) => throw (.plain "by not tstr")
  | (.u k, _) => throw (.plain ("unknown ledger entry key " ++ toString k))
  | _ => throw (.plain "non-uint key")

/-- `parseEntry`, which starts from the zero entry and does not ask for any field. -/
def parseEntry (record : Bytes) : Except Failure LedgerEntry := do
  let .m pairs ← (Cbor.decode record).mapError .coded
    | throw (.plain "ledger entry is not a map")
  pairs.foldlM readEntryPair { seq := 0, prev := [], approvalId := [], consumer := [] }

/-- `seq++` on a `uint64`. -/
def nextSeq (seq : Int) : Int := (seq + 1) % 2 ^ 64

/-- `replay`: `io.ReadFull` reports `io.EOF` only when it read nothing. -/
def ledgerReader : LogReader Failure LedgerMemory where
  absorb := absorbEntry parseEntry errLedgerCorrupt nextSeq
  shortPrefix := some (.plain "unexpected EOF")
  shortRecord body := .plain (if body = [] then "EOF" else "unexpected EOF")

def replay (log : Bytes) : Except Failure LedgerMemory := ledgerReader.replay log .genesis

/-- An open ledger: the octets of its file, with the offset at their end, and its memory. -/
structure Ledger where
  disk : Bytes
  memory : LedgerMemory

def openLedger (disk : Bytes) : Except Failure Ledger := return { disk, memory := ← replay disk }

/-- The entry that a consume appends next. -/
def Ledger.nextEntry (l : Ledger) (approvalID : Bytes) (consumer : PyStr) : LedgerEntry :=
  { seq := l.memory.seq, prev := l.memory.head, approvalId := approvalID, consumer }

/-- `Consume` on a file that takes its writes; the length prefix is `uint32(len(rec))`. -/
def Ledger.consume (l : Ledger) (approvalID : Bytes) (consumer : PyStr)
    : Except Failure LedgerEntry × Ledger :=
  if approvalID ∈ l.memory.consumed then (.error errAlreadyConsumed, l)
  else
    let e := l.nextEntry approvalID consumer
    let record := entryBytes e
    (.ok e, { disk := l.disk ++ frame record, memory := l.memory.advance nextSeq (e, record) })

end Naalp.Go.Approval

/-! The verification of approvals and of consume receipts of `impl/go/approval/approval.go`. The
records are those of the Python module.
-/

namespace Naalp.Go.Approval

open Naalp.Foundation
open Naalp.Go.Cose
open Naalp.Python.Approval (ApprovalRecord ConsumeReceipt)

def errApprovalMismatch : Stop :=
  .error .approvalMismatch "approval does not bind these arguments' content id"
def errApprovalExpired : Stop := .error .approvalExpired "approval is past its not_after"
def errConsumeReceiptUnsigned : Stop := .error .consumeReceiptUnsigned
  "consume receipt is unnamed or its ledger signature does not verify"
def errFreshnessSelfAsserted : Stop := .error .freshnessSelfAsserted
  "the ordering authority that stamps freshness is the authenticated party itself"

/-- `ApprovalRecord.Bytes`, which drops the error of the encoder. -/
def approvalBytes (a : ApprovalRecord) : Bytes :=
  (Cbor.encode (.m ([(.u 1, .b a.approves), (.u 2, .t a.approver), (.u 3, .u a.grant),
    (.u 4, .b a.nonce), (.u 5, .u a.notAfter)]
    ++ (if a.audience ≠ [] then [(.u 6, .t a.audience)] else [])))).toOption.getD []

/-- `ApprovalRecord.ID`. -/
def approvalId (a : ApprovalRecord) : Bytes := Python.Cbor.contentIdBytes (approvalBytes a)

/-- `ConsumeReceipt.Bytes`, which drops the error of the encoder. -/
def receiptBytes (r : ConsumeReceipt) : Bytes :=
  (Cbor.encode (.m [(.u 1, .b r.ledger), (.u 2, .b r.approvalId),
    (.u 3, .u r.position)])).toOption.getD []

section Verifying

variable (lib : SignatureLibrary)

def verifyApproval (a : ApprovalRecord) (approverV : Verifier) (sig argsContentID : Bytes)
    (posTime : Int) : Result Unit := do
  let valid ← approverV.verifyRaw lib (approvalBytes a) sig
  raiseIf (valid = false) errBadSignature
  raiseIf (a.approves ≠ argsContentID) errApprovalMismatch
  raiseIf (posTime > a.notAfter) errApprovalExpired

def verifyConsumeReceipt (r : ConsumeReceipt) (ledgerV : Verifier) (sig : Bytes)
    : Result Unit := do
  raiseIf (r.ledger.length = 0) errConsumeReceiptUnsigned
  let valid ← ledgerV.verifyRaw lib (receiptBytes r) sig
  raiseIf (valid = false) errConsumeReceiptUnsigned

def verifyFreshIndependent (a : ApprovalRecord) (approverV : Verifier) (aSig argsContentID : Bytes)
    (posTime : Int) (r : ConsumeReceipt) (ledgerV : Verifier) (rSig partyID : Bytes)
    : Result Unit := do
  verifyApproval lib a approverV aSig argsContentID posTime
  verifyConsumeReceipt lib r ledgerV rSig
  raiseIf (r.ledger = partyID) errFreshnessSelfAsserted

end Verifying

end Naalp.Go.Approval
