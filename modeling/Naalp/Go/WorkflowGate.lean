import Mathlib.Data.List.AList
import Naalp.Foundation.CheckedLog
import Naalp.Foundation.Bytes
import Naalp.Go.Cbor
import Naalp.Python.Channels

/-! The workflow gate of `impl/go/channels/channels.go`, whose log carries a checksum with each
record and is cut at the first record that does not read, and the check of coordinate frames. A Go
string is the list of its octets.
-/

namespace Naalp.Go.Channels

open Naalp.Foundation

/-- An error of the gate: of the file, or one with a kind. -/
inductive Failure where
  | io
  | coded (stop : Stop)
  deriving DecidableEq

def errTaskStateError : Failure :=
  .coded (.error .taskStateError "workflow task state transition not permitted")
def errInputGateBypass : Failure := .coded (.error .inputGateBypass
  "a task reached running without passing the input/approval gate")

def goString (text : List Char) : Bytes := text.flatMap String.utf8EncodeChar

def awaitingInput : Bytes := goString "awaiting-input".toList
def awaitingApproval : Bytes := goString "awaiting-approval".toList
def inputSupplied : Bytes := goString "input-supplied".toList
def approved : Bytes := goString "approved".toList
def running : Bytes := goString "running".toList

abbrev Statuses := AList (fun _ : Bytes => Bytes)

/-- One round of the loop of `replay`, after the header: the task ends at the first zero octet. -/
def absorbStatus (statuses : Statuses) (record : Bytes) : Option Statuses :=
  (splitZero record).map fun (task, status) => statuses.insert task status

def gateLog : CheckedLog Statuses where
  checksum := crc32
  absorb := absorbStatus

structure WorkflowGate where
  disk : Bytes
  status : Statuses
  closed : Bool := false

/-- `OpenWorkflowGate` on a file that can be read and truncated. -/
def openWorkflowGate (disk : Bytes) : WorkflowGate :=
  let recovered := gateLog.recover disk ∅
  { disk := recovered.2, status := recovered.1 }

def taskRecord (task status : Bytes) : Bytes := task ++ 0 :: status

/-- `persist`. A fault is a number of octets of the framed record: the write, or the sync after it,
fails when so many of them are in the file.
-/
def WorkflowGate.persist (g : WorkflowGate) (fault : Option Nat) (task status : Bytes)
    : Except Failure Unit × WorkflowGate :=
  if g.closed then (.error .io, g)
  else
    let framed := gateLog.frame (taskRecord task status)
    match fault with
    | some count => (.error .io, { g with disk := g.disk ++ framed.take count })
    | none => (.ok (), { g with disk := g.disk ++ framed, status := g.status.insert task status })

def WorkflowGate.create (g : WorkflowGate) (fault : Option Nat) (task : Bytes)
    (needsApproval : Bool) : Except Failure Unit × WorkflowGate :=
  if task ∈ g.status then (.error errTaskStateError, g)
  else g.persist fault task (if needsApproval then awaitingApproval else awaitingInput)

/-- `SupplyInput`; a missing task has the empty status. -/
def WorkflowGate.supplyInput (g : WorkflowGate) (fault : Option Nat) (task : Bytes)
    : Except Failure Unit × WorkflowGate :=
  let status := (g.status.lookup task).getD []
  if status = awaitingInput then g.persist fault task inputSupplied
  else if status = awaitingApproval then g.persist fault task approved
  else (.error errTaskStateError, g)

def WorkflowGate.run (g : WorkflowGate) (fault : Option Nat) (task : Bytes)
    : Except Failure Unit × WorkflowGate :=
  let status := (g.status.lookup task).getD []
  if status = inputSupplied ∨ status = approved then g.persist fault task running
  else if status = awaitingInput ∨ status = awaitingApproval then (.error errInputGateBypass, g)
  else (.error errTaskStateError, g)

def WorkflowGate.close (g : WorkflowGate) : WorkflowGate := { g with closed := true }

-----------------------------------------------------------------------------------------
-- Coordinate frames
-----------------------------------------------------------------------------------------

def errTransformCycle : Stop :=
  .error .transformCycle "coordinate frame tree contains a cycle"

/-- `CheckFrameTree`, with the order in which the map gives its frames. -/
def checkFrameTree (parent : AList fun _ : Bytes => Bytes) (order : List Bytes)
    (listed : ∀ f ∈ order, f ∈ parent.keys) : Result Unit :=
  raiseIf (Python.Channels.frameCycle order listed) errTransformCycle

end Naalp.Go.Channels
