import Mathlib.Data.List.AList
import Naalp.Python.Envelope

/-! Approvals and the consume ledger of `impl/python/naalp/approval.py`.
A call on the ledger returns its outcome together with the ledger after the call, since a
failed call may have changed the log file.
-/

namespace Naalp.Python.Approval

open Naalp.Foundation
open Naalp.Python.Cbor
open Naalp.Python.Cose

def headSize : Nat := 48

/-- The chain head after an entry. -/
def chainNext (entryBytes : Bytes) : Bytes := Sha2.sha384 entryBytes

structure ApprovalRecord where
  approves : Bytes
  approver : PyStr
  grant : Int
  nonce : Bytes
  notAfter : Int
  audience : PyStr := []

/-- `ApprovalRecord.bytes`: field 6 is omitted when the audience is empty. -/
def ApprovalRecord.bytes (a : ApprovalRecord) : Py Bytes :=
  encode (.m ([(.u 1, .b a.approves), (.u 2, .t a.approver), (.u 3, .u a.grant),
    (.u 4, .b a.nonce), (.u 5, .u a.notAfter)]
    ++ (if a.audience ≠ [] then [(.u 6, .t a.audience)] else [])))

def ApprovalRecord.id (a : ApprovalRecord) : Py Bytes := return contentIdBytes (← a.bytes)

def verifyApproval (lib : SignatureLibrary) (a : ApprovalRecord) (alg : Int)
    (pubkey sig argsContentId : Bytes) (posTime : Int) : Py Unit := do
  let valid ← coseVerify1Raw lib alg pubkey (← a.bytes) sig
  raiseIf (valid = false) (.approvalError .badSignature "approval signature does not verify")
  raiseIf (a.approves ≠ argsContentId)
    (.approvalError .approvalMismatch "approval does not bind these arguments' content id")
  raiseIf (posTime > a.notAfter)
    (.approvalError .approvalExpired "approval is past its not_after")

/-- One append to the ledger; `consumer` is the field `by` of the source. -/
structure LedgerEntry where
  seq : Int
  prev : Bytes
  approvalId : Bytes
  consumer : PyStr
  deriving DecidableEq

def LedgerEntry.bytes (e : LedgerEntry) : Py Bytes :=
  encode (.m [(.u 1, .u e.seq), (.u 2, .b e.prev), (.u 3, .b e.approvalId), (.u 4, .t e.consumer)])

/-- The entry fields seen so far by `_parse_entry`. -/
structure EntryFields where
  seq : Option Int := none
  prev : Option Bytes := none
  aid : Option Bytes := none
  consumer : Option PyStr := none

def readEntryField (fields : EntryFields) : Value × Value → Py EntryFields
  | (.u 1, .u seq) => return { fields with seq := some seq }
  | (.u 2, .b prev) => return { fields with prev := some prev }
  | (.u 3, .b aid) => return { fields with aid := some aid }
  | (.u 4, .t consumer) => return { fields with consumer := some consumer }
  | (.u k, _) => throw (.approvalError .ledgerCorrupt
      ("unknown or mistyped ledger entry field " ++ toString k))
  | _ => throw (.approvalError .ledgerCorrupt "non-uint ledger entry key")

def parseEntry (record : Bytes) : Py LedgerEntry := do
  let .m pairs ← decode record
    | throw (.approvalError .ledgerCorrupt "ledger entry is not a map")
  match ← pairs.foldlM readEntryField {} with
  | ⟨some seq, some prev, some aid, some consumer⟩ => return ⟨seq, prev, aid, consumer⟩
  | _ => throw (.approvalError .ledgerCorrupt "ledger entry missing a mandatory field")

/-- The consumed map, from approval id to sequence number. -/
abbrev ConsumedMap := AList (fun _ : Bytes => Int)

/-- What a replay rebuilds. -/
structure LedgerMemory where
  consumed : ConsumedMap
  head : Bytes
  seq : Int

def LedgerMemory.genesis : LedgerMemory :=
  { consumed := ∅, head := List.replicate headSize 0, seq := 0 }

/-- The memory after an entry whose octets are `record`. -/
def LedgerMemory.after (mem : LedgerMemory) (e : LedgerEntry) (record : Bytes) : LedgerMemory :=
  { consumed := mem.consumed.insert e.approvalId e.seq, head := chainNext record,
    seq := mem.seq + 1 }

/-- The loop of `_replay` over the octets of the log that are still to be read. -/
def replayFrom (data : Bytes) (mem : LedgerMemory) : Py LedgerMemory :=
  if _atEnd : data = [] then pure mem
  else do
    raiseIf (data.length < 4) (.approvalError .ledgerCorrupt "truncated length prefix")
    let n := ofBigEndian (data.take 4)
    let body := data.drop 4
    raiseIf (body.length < n) (.approvalError .ledgerCorrupt "truncated record")
    let record := body.take n
    let e ← parseEntry record
    raiseIf (e.seq ≠ mem.seq ∨ e.prev ≠ mem.head)
      (.approvalError .ledgerCorrupt "out-of-order seq or broken chain linkage")
    replayFrom (body.drop n) (mem.after e record)
termination_by data.length
decreasing_by
  have positive := List.length_pos_of_ne_nil _atEnd
  simp only [List.length_drop]
  omega

def replay (log : Bytes) : Py LedgerMemory := replayFrom log .genesis

/-- The memory after an entry, with the step of the sequence counter as a parameter. -/
def LedgerMemory.advance (count : Int → Int) (mem : LedgerMemory) (step : LedgerEntry × Bytes)
    : LedgerMemory :=
  { consumed := mem.consumed.insert step.1.approvalId step.1.seq, head := chainNext step.2,
    seq := count mem.seq }

/-- One round of the replay loop, which the ports share but for the entry parser, the error and
the step of the counter.
-/
def absorbEntry {ε : Type} (parse : Bytes → Except ε LedgerEntry) (corrupt : ε)
    (count : Int → Int) (mem : LedgerMemory) (record : Bytes) : Except ε LedgerMemory := do
  let e ← parse record
  raiseIf (e.seq ≠ mem.seq ∨ e.prev ≠ mem.head) corrupt
  return mem.advance count (e, record)

/-- The log file behind its buffered writer: the octets that reached the file, those that
wait in the write buffer, and whether the file object is closed.
-/
structure LogFile where
  disk : Bytes
  pending : Bytes := []
  closed : Bool := false

/-- The call that raises while a record is persisted. A raising `write` has put a number of
octets of the record in the file and buffered none, a raising `flush` has put a number of them
in the file and keeps the others buffered, and `fsync` raises after all of them.
-/
inductive Fault where
  | write (count : Nat)
  | flush (count : Nat)
  | fsync
  deriving DecidableEq

/-- The octets of the record that are in the file when the fault raises. -/
def Fault.written (framed : Bytes) : Fault → Bytes
  | .write count | .flush count => framed.take count
  | .fsync => framed

/-- The octets of the record that stay in the write buffer. -/
def Fault.buffered (framed : Bytes) : Fault → Bytes
  | .flush count => framed.drop count
  | .write _ | .fsync => []

/-- Seek to the end, write, flush and fsync. Seeking writes out what was buffered before. -/
def LogFile.append (file : LogFile) (framed : Bytes) (fault : Option Fault)
    : Py Unit × LogFile :=
  if file.closed then (.error (.valueError "seek of closed file"), file)
  else
    let start := file.disk ++ file.pending
    match fault with
    | none => (.ok (), { file with disk := start ++ framed, pending := [] })
    | some fault =>
        (.error .osError,
          { file with disk := start ++ fault.written framed, pending := fault.buffered framed })

/-- Closing writes out the buffer. -/
def LogFile.close (file : LogFile) : LogFile :=
  { disk := file.disk ++ file.pending, pending := [], closed := true }

structure Ledger where
  file : LogFile
  memory : LedgerMemory
  ledgerId : PyStr := []
  receiptLedgerId : Bytes := []
  receiptAlg : Option Int := none
  receiptSeed : Option Bytes := none

/-- `open_ledger` on a file holding `disk`. -/
def openLedger (disk : Bytes) (authority : PyStr) : Py Ledger := do
  let memory ← replay disk
  return { file := { disk }, memory, ledgerId := authority }

def openLedgerSigned (disk : Bytes) (ledgerId : Bytes) (alg : Int) (seed : Option Bytes)
    : Py Ledger := do
  raiseIf (ledgerId = [] ∨ seed = none) (.approvalError .ledgerUnsigned
    "ledger requires a named ordering authority and a signing key")
  let memory ← replay disk
  return { file := { disk }, memory, receiptLedgerId := ledgerId, receiptAlg := some alg,
           receiptSeed := seed }

def Ledger.close (led : Ledger) : Ledger := { led with file := led.file.close }

structure ConsumeReceipt where
  ledger : Bytes
  approvalId : Bytes
  position : Int

def ConsumeReceipt.bytes (r : ConsumeReceipt) : Py Bytes :=
  encode (.m [(.u 1, .b r.ledger), (.u 2, .b r.approvalId), (.u 3, .u r.position)])

/-- What a consume holds when it reaches the log: its entry, the entry's octets, the framed
record and the value it will return.
-/
structure Prepared (α : Type) where
  entry : LedgerEntry
  record : Bytes
  framed : Bytes
  result : α

def Ledger.nextEntry (led : Ledger) (aid : Bytes) (consumer : PyStr) : LedgerEntry :=
  { seq := led.memory.seq, prev := led.memory.head, approvalId := aid, consumer }

def Ledger.checkUnspent (led : Ledger) (aid : Bytes) : Py Unit :=
  raiseIf (aid ∈ led.memory.consumed)
    (.approvalError .alreadyConsumed "approval already consumed")

/-- The framed record of an entry: four octets of length, then its octets. -/
def prepare {α : Type} (e : LedgerEntry) (result : α) : Py (Prepared α) := do
  let record ← e.bytes
  let size ← intToBytes 4 record.length
  return { entry := e, record, framed := size ++ record, result }

/-- The persisting tail that `consume` and `consume_with_receipt` share: memory changes only
after the record is written, flushed and synced.
-/
def Ledger.persist {α : Type} (led : Ledger) (fault : Option Fault) (prepared : Py (Prepared α))
    : Py α × Ledger :=
  match prepared with
  | .error err => (.error err, led)
  | .ok p =>
      match led.file.append p.framed fault with
      | (.error err, file) => (.error err, { led with file })
      | (.ok _, file) =>
          (.ok p.result, { led with file, memory := led.memory.after p.entry p.record })

/-- The part of `consume` before the log is touched. -/
def Ledger.prepareConsume (led : Ledger) (aid : Bytes) (consumer : PyStr)
    : Py (Prepared LedgerEntry) := do
  led.checkUnspent aid
  let e := led.nextEntry aid consumer
  prepare e e

def Ledger.consume (led : Ledger) (fault : Option Fault) (aid : Bytes) (consumer : PyStr)
    : Py LedgerEntry × Ledger :=
  led.persist fault (led.prepareConsume aid consumer)

/-- `consume_object`: the audience gate, then `consume`. -/
def Ledger.consumeObject (led : Ledger) (fault : Option Fault) (o : Envelope.Object)
    (aid : Bytes) (consumer : PyStr) : Py LedgerEntry × Ledger :=
  if led.ledgerId = [] then
    (.error (.approvalError .ledgerUnsigned "ledger has no consuming authority"), led)
  else
    match Envelope.checkAudience o led.ledgerId true with
    | .error err => (.error err, led)
    | .ok _ => led.consume fault aid consumer

/-- The part of `consume_with_receipt` before the log is touched; the receipt is signed here. -/
def Ledger.prepareReceipt (lib : SignatureLibrary) (led : Ledger) (aid : Bytes)
    (consumer : PyStr) : Py (Prepared (LedgerEntry × ConsumeReceipt × Bytes)) := do
  raiseIf (led.receiptLedgerId = [])
    (.approvalError .ledgerUnsigned "ledger was not opened with a signing key")
  let some seed := led.receiptSeed
    | throw (.approvalError .ledgerUnsigned "ledger was not opened with a signing key")
  led.checkUnspent aid
  let e := led.nextEntry aid consumer
  let receipt : ConsumeReceipt :=
    { ledger := led.receiptLedgerId, approvalId := aid, position := e.seq }
  let body ← receipt.bytes
  let some alg := led.receiptAlg | throw .typeError
  let sig ← mldsaSign lib alg seed body
  prepare e (e, receipt, sig)

def Ledger.consumeWithReceipt (lib : SignatureLibrary) (led : Ledger) (fault : Option Fault)
    (aid : Bytes) (consumer : PyStr) : Py (LedgerEntry × ConsumeReceipt × Bytes) × Ledger :=
  led.persist fault (led.prepareReceipt lib aid consumer)

end Naalp.Python.Approval

/-! The party-visible refusals of `impl/python/naalp/approval.py`, and the audience of an approval.
-/

namespace Naalp.Python.Approval

open Naalp.Foundation
open Naalp.Python.Cbor

def verifyAudience (a : ApprovalRecord) (useContext : PyStr) : Py Unit :=
  raiseIf (a.audience ≠ [] ∧ a.audience ≠ useContext)
    (.approvalError .audienceMismatch "approval names an audience other than the use context")

def refusalDenied : Int := 0
def refusalHeld : Int := 1
def refusalUnverifiable : Int := 2

def isKnownRefusalOutcome (code : Int) : Bool :=
  code ∈ [refusalDenied, refusalHeld, refusalUnverifiable]

/-- The coarse refusal: an outcome, and the content id of the record with the detail. -/
structure Refusal where
  outcome : Int
  record : Bytes
  deriving DecidableEq

def Refusal.bytes (r : Refusal) : Py Bytes :=
  encode (.m [(.u 1, .u r.outcome), (.u 2, .b r.record)])

def refusalFromRecord (outcome : Int) (fullRecord : Bytes) : Refusal :=
  { outcome, record := contentIdBytes fullRecord }

def detailLeak (msg : String) : Exc := .approvalError .refusalDetailLeak msg

/-- The fields seen so far by `parse_refusal`. -/
structure RefusalFields where
  outcome : Option Int := none
  record : Option Bytes := none

def readRefusalField (fields : RefusalFields) : Value × Value → Py RefusalFields
  | (.u 1, .u outcome) => return { fields with outcome := some outcome }
  | (.u 2, .b record) => return { fields with record := some record }
  | (.u _, _) => throw (detailLeak "field beyond \x7b1,2\x7d is leaked detail")
  | _ => throw (detailLeak "non-uint refusal key")

/-- `parse_refusal`: a body that does not decode, for whatever reason, is a leak too. -/
def parseRefusal (b : Bytes) : Py Refusal := do
  let v ←
    match decode b with
    | .ok v => pure v
    | .error err =>
        throw (if err.isValueError then detailLeak "malformed refusal body" else err)
  let .m pairs := v | throw (detailLeak "refusal body is not a map")
  match ← pairs.foldlM readRefusalField {} with
  | ⟨some outcome, some record⟩ => do
      raiseIf (record = []) (detailLeak "a refusal must carry the full-record content id")
      raiseIf (isKnownRefusalOutcome outcome = false) (.approvalError .unknownRefusalOutcome
        "refusal outcome is outside the closed set denied/held/unverifiable")
      return { outcome, record }
  | _ => throw (detailLeak "a refusal must carry the full-record content id")

end Naalp.Python.Approval
