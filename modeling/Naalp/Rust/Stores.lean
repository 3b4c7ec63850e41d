import Naalp.Foundation.Journal
import Naalp.Python.Approval
import Naalp.Native.Cbor

/-! The stores of the Rust implementation that are backed by a write-ahead log: the consume ledger
of `approval.rs`, the delivery tracker of `delivery.rs` and the workflow gate of `channels.rs`, on
a file that takes its writes.
-/

namespace Naalp.Rust

open Naalp.Foundation
open Naalp.Go (Stop Result)
open Naalp.Python (Kind PyStr)
open Naalp.Python.Cbor (Value)

/-- An error of a store: of the file, which is an unexpected end of it, or one with a kind. -/
inductive Failure where
  | io
  | cose (stop : Stop)
  deriving DecidableEq, Repr

/-- The replay loop that the stores share. `read_exact` reports an unexpected end of the file for
any missing octet of a length prefix, and the loop takes it for the end of the log.
-/
def walReader {μ : Type} (absorb : μ → Bytes → Result μ) : LogReader Failure μ where
  absorb memory record := (absorb memory record).mapError .cose
  shortPrefix := none
  shortRecord _ := .io

namespace Approval

open Naalp.Python.Approval (LedgerEntry EntryFields LedgerMemory absorbEntry)

def errAlreadyConsumed : Stop := .error .alreadyConsumed "approval already consumed"
def errLedgerCorrupt : Stop := .error .ledgerCorrupt "consume ledger hash chain does not verify"

def entryBytes (e : LedgerEntry) : Result Bytes :=
  expect (Cbor.encode (.m [(.u 1, .u e.seq), (.u 2, .b e.prev), (.u 3, .b e.approvalId),
    (.u 4, .t e.consumer)]))

def readEntryPair (fields : EntryFields) : Value × Value → Result EntryFields
  | (.u 1, .u seq) => return { fields with seq := some seq }
  | (.u 2, .b prev) => return { fields with prev := some prev }
  | (.u 3, .b aid) => return { fields with aid := some aid }
  | (.u 4, .t consumer) => return { fields with consumer := some consumer }
  | _ => throw errLedgerCorrupt

section Ledger

variable (valueSize : Nat)

def parseEntry (record : Bytes) : Result LedgerEntry := do
  let .m pairs ← mapErr errLedgerCorrupt (Cbor.decode valueSize record) | throw errLedgerCorrupt
  match ← pairs.foldlM readEntryPair {} with
  | ⟨some seq, some prev, some approvalId, some consumer⟩ =>
      return { seq, prev, approvalId, consumer }
  | _ => throw errLedgerCorrupt

/-- `seq += 1` on a `u64`, as a release build computes it. -/
def nextSeq (seq : Int) : Int := (seq + 1) % 2 ^ 64

def ledgerReader : LogReader Failure LedgerMemory :=
  walReader (absorbEntry (parseEntry valueSize) errLedgerCorrupt nextSeq)

structure Ledger where
  disk : Bytes
  memory : LedgerMemory

def openLedger (disk : Bytes) : Except Failure Ledger :=
  return { disk, memory := ← (ledgerReader valueSize).replay disk .genesis }

def Ledger.nextEntry (l : Ledger) (approvalId : Bytes) (consumer : List Char) : LedgerEntry :=
  { seq := l.memory.seq, prev := l.memory.head, approvalId, consumer := PyStr.lit consumer }

/-- `consume`; the length prefix is `rec.len() as u32`. -/
def Ledger.consume (l : Ledger) (approvalId : Bytes) (consumer : List Char)
    : Except Failure LedgerEntry × Ledger :=
  if approvalId ∈ l.memory.consumed then (.error (.cose errAlreadyConsumed), l)
  else
    let e := l.nextEntry approvalId consumer
    match entryBytes e with
    | .error stop => (.error (.cose stop), l)
    | .ok record =>
        (.ok e, { disk := l.disk ++ frame record, memory := l.memory.advance nextSeq (e, record) })

end Ledger

end Approval

namespace Delivery

def errStageOutOfOrder : Stop :=
  .error .stageOutOfOrder "a delivery stage regressed to an earlier stage"
def errMalformed : Stop := .error .malformed "malformed delivery update"

structure DeliveryUpdate where
  obj : Bytes
  stage : UInt64
  at_ : UInt64
  deriving DecidableEq, Repr

def updateValue (u : DeliveryUpdate) : Value :=
  .m [(.u 1, .b u.obj), (.u 2, .u u.stage.toNat), (.u 3, .u u.at_.toNat)]

def DeliveryUpdate.bytes (u : DeliveryUpdate) : Result Bytes := expect (Cbor.encode (updateValue u))

/-- The fields that the loop of `parse_update` has seen. -/
structure UpdateFields where
  obj : Option Bytes := none
  stage : Option UInt64 := none
  at_ : Option UInt64 := none

def readUpdatePair (fields : UpdateFields) : Value × Value → Result UpdateFields
  | (.u 1, .b obj) => return { fields with obj := some obj }
  | (.u 2, .u stage) => return { fields with stage := some (.ofNat stage.toNat) }
  | (.u 3, .u time) => return { fields with at_ := some (.ofNat time.toNat) }
  | _ => throw errMalformed

abbrev Stages := AList (fun _ : Bytes => UInt64)

section Tracker

variable (valueSize : Nat)

def parseUpdate (record : Bytes) : Result DeliveryUpdate := do
  let .m pairs ← mapErr errMalformed (Cbor.decode valueSize record) | throw errMalformed
  match ← pairs.foldlM readUpdatePair {} with
  | ⟨some obj, some stage, some at_⟩ => return { obj, stage, at_ }
  | _ => throw errMalformed

/-- One round of `replay`: the last durable stage wins. -/
def absorbUpdate (current : Stages) (record : Bytes) : Result Stages := do
  let u ← parseUpdate valueSize record
  return current.insert u.obj u.stage

structure Tracker where
  disk : Bytes
  current : Stages

def openTracker (disk : Bytes) : Except Failure Tracker :=
  return { disk, current := ← (walReader (absorbUpdate valueSize)).replay disk ∅ }

/-- The persisting part of `advance`. -/
def Tracker.persist (t : Tracker) (u : DeliveryUpdate) : Except Failure DeliveryUpdate × Tracker :=
  match u.bytes with
  | .error stop => (.error (.cose stop), t)
  | .ok record =>
      (.ok u, { disk := t.disk ++ frame record, current := t.current.insert u.obj u.stage })

/-- `advance`: an earlier stage is refused, the same stage is acknowledged without a write. -/
def Tracker.advance (t : Tracker) (obj : Bytes) (stage at_ : UInt64)
    : Except Failure DeliveryUpdate × Tracker :=
  let u : DeliveryUpdate := { obj, stage, at_ }
  match t.current.lookup obj with
  | some cur =>
      if stage < cur then (.error (.cose errStageOutOfOrder), t)
      else if stage = cur then (.ok u, t)
      else t.persist u
  | none => t.persist u

end Tracker

end Delivery

namespace Channels

/-- `as_bytes` of a string, which is a sequence of Unicode scalar values. -/
def asBytes (s : List Char) : Bytes := s.flatMap String.utf8EncodeChar

section Lossy

/-- The ranges that the octets after a first octet have to be in. -/
def following (first : UInt8) : List (UInt8 × UInt8) :=
  if 0xC2 ≤ first ∧ first ≤ 0xDF then [(0x80, 0xBF)]
  else if first = 0xE0 then [(0xA0, 0xBF), (0x80, 0xBF)]
  else if first = 0xED then [(0x80, 0x9F), (0x80, 0xBF)]
  else if 0xE1 ≤ first ∧ first ≤ 0xEF then [(0x80, 0xBF), (0x80, 0xBF)]
  else if first = 0xF0 then [(0x90, 0xBF), (0x80, 0xBF), (0x80, 0xBF)]
  else if 0xF1 ≤ first ∧ first ≤ 0xF3 then [(0x80, 0xBF), (0x80, 0xBF), (0x80, 0xBF)]
  else if first = 0xF4 then [(0x80, 0x8F), (0x80, 0xBF), (0x80, 0xBF)]
  else []

/-- How many octets are in the ranges, up to the first that is not. -/
def inRanges : List (UInt8 × UInt8) → Bytes → Nat
  | (low, high) :: ranges, octet :: rest =>
      if low ≤ octet ∧ octet ≤ high then inRanges ranges rest + 1 else 0
  | _, _ => 0

/-- The character of a complete sequence, from the low bits of its octets. -/
def sequenceChar (first : UInt8) (rest : Bytes) : Char :=
  let top := first.toNat % 2 ^ (6 - rest.length)
  Char.ofNat (rest.foldl (fun code octet => code * 64 + octet.toNat % 64) top)

/-- Every longest start of a sequence that is not completed becomes one U+FFFD. -/
def replaceInvalid : Bytes → List Char
  | [] => []
  | first :: rest =>
      if first < 0x80 then Char.ofNat first.toNat :: replaceInvalid rest
      else
        let count := inRanges (following first) rest
        let char :=
          if following first ≠ [] ∧ count = (following first).length then
            sequenceChar first (rest.take count)
          else Char.ofNat 0xFFFD
        char :: replaceInvalid (rest.drop count)
termination_by data => data.length
decreasing_by
  all_goals simp only [List.length_drop, List.length_cons]; omega

/-- `String::from_utf8_lossy`: valid octets are borrowed as they are. -/
def fromUtf8Lossy (data : Bytes) : List Char :=
  match data.toByteArray.utf8Decode? with
  | some chars => chars.toList
  | none => replaceInvalid data

end Lossy

theorem fromUtf8Lossy_asBytes (s : List Char) : fromUtf8Lossy (asBytes s) = s := by
  have round : (asBytes s).toByteArray.utf8Decode? = some s.toArray := List.utf8Decode?_utf8Encode
  simp [fromUtf8Lossy, round]

def errTaskState : Stop := .error .taskStateError "workflow task state transition not permitted"
def errInputGateBypass : Stop :=
  .error .inputGateBypass "a task reached running without passing the input/approval gate"
def errRecord : Stop := .error .malformed "workflow gate record"

def awaitingApproval : List Char := "awaiting-approval".toList
def awaitingInput : List Char := "awaiting-input".toList
def inputSupplied : List Char := "input-supplied".toList
def approved : List Char := "approved".toList
def running : List Char := "running".toList

abbrev Statuses := AList (fun _ : List Char => List Char)

/-- One round of the loop of `open_workflow_gate`: the task ends at the first zero octet. -/
def absorbStatus (status : Statuses) (record : Bytes) : Result Statuses :=
  match record.findIdx? (· == 0) with
  | none => throw errRecord
  | some nul =>
      return status.insert (fromUtf8Lossy (record.take nul)) (fromUtf8Lossy (record.drop (nul + 1)))

structure WorkflowGate where
  disk : Bytes
  status : Statuses

def openWorkflowGate (disk : Bytes) : Except Failure WorkflowGate :=
  return { disk, status := ← (walReader absorbStatus).replay disk ∅ }

def statusRecord (task status : List Char) : Bytes := asBytes task ++ 0 :: asBytes status

def WorkflowGate.persist (g : WorkflowGate) (task status : List Char)
    : Except Failure Unit × WorkflowGate :=
  (.ok (), { disk := g.disk ++ frame (statusRecord task status)
             status := g.status.insert task status })

def WorkflowGate.create (g : WorkflowGate) (task : List Char) (needsApproval : Bool)
    : Except Failure Unit × WorkflowGate :=
  if task ∈ g.status then (.error (.cose errTaskState), g)
  else g.persist task (if needsApproval then awaitingApproval else awaitingInput)

def WorkflowGate.supplyInput (g : WorkflowGate) (task : List Char)
    : Except Failure Unit × WorkflowGate :=
  match g.status.lookup task with
  | some status =>
      if status = awaitingInput then g.persist task inputSupplied
      else if status = awaitingApproval then g.persist task approved
      else (.error (.cose errTaskState), g)
  | none => (.error (.cose errTaskState), g)

def WorkflowGate.run (g : WorkflowGate) (task : List Char) : Except Failure Unit × WorkflowGate :=
  match g.status.lookup task with
  | some status =>
      if status = inputSupplied ∨ status = approved then g.persist task running
      else if status = awaitingInput ∨ status = awaitingApproval then
        (.error (.cose errInputGateBypass), g)
      else (.error (.cose errTaskState), g)
  | none => (.error (.cose errTaskState), g)

end Channels

end Naalp.Rust
