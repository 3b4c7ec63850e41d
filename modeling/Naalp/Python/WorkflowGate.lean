import Naalp.Foundation.Journal
import Naalp.Foundation.Bytes
import Naalp.Python.Approval

/-! The workflow gate of `impl/python/naalp/channels.py`: the status of each task, kept in memory
and in a write-ahead log.
-/

namespace Naalp.Python.Channels

open Naalp.Foundation
open Naalp.Python.Approval (LogFile Fault)

def taskExists : Exc := .channelsError .taskStateError "task already exists"
def taskNotAwaiting : Exc :=
  .channelsError .taskStateError "task not awaiting input or approval"
def taskNotRunnable : Exc := .channelsError .taskStateError "task not in a runnable state"
def inputGateBypass : Exc := .channelsError .inputGateBypass
  "a task reached running without passing the input/approval gate"

def awaitingInput : PyStr := .lit "awaiting-input".toList
def awaitingApproval : PyStr := .lit "awaiting-approval".toList
def inputSupplied : PyStr := .lit "input-supplied".toList
def approved : PyStr := .lit "approved".toList
def running : PyStr := .lit "running".toList

abbrev Statuses := AList (fun _ : PyStr => PyStr)

/-- One round of `_replay`: the task ends at the first zero octet of the record. -/
def absorbStatus (statuses : Statuses) (record : Bytes) : Py Statuses := do
  let some (task, status) := splitZero record
    | throw (.channelsError .malformed "workflow gate record")
  let task ← PyStr.decode task
  let status ← PyStr.decode status
  return statuses.insert task status

def gateReader : LogReader Exc Statuses where
  absorb := absorbStatus
  shortPrefix := some (.channelsError .malformed "truncated length prefix")
  shortRecord _ := .channelsError .malformed "truncated record"

structure WorkflowGate where
  file : LogFile
  status : Statuses

def openWorkflowGate (disk : Bytes) : Py WorkflowGate :=
  return { file := { disk }, status := ← gateReader.replay disk ∅ }

/-- The framed record `task NUL status`. -/
def statusRecord (task status : PyStr) : Py Bytes := do
  let record := (← task.encode) ++ 0 :: (← status.encode)
  return (← intToBytes 4 record.length) ++ record

/-- `_persist`: memory changes only after the record is written, flushed and synced. -/
def WorkflowGate.persist (g : WorkflowGate) (fault : Option Fault) (task status : PyStr)
    : Py Unit × WorkflowGate :=
  match statusRecord task status with
  | .error err => (.error err, g)
  | .ok framed =>
      match g.file.append framed fault with
      | (.error err, file) => (.error err, { g with file })
      | (.ok _, file) => (.ok (), { file, status := g.status.insert task status })

def WorkflowGate.create (g : WorkflowGate) (fault : Option Fault) (task : PyStr)
    (needsApproval : Bool) : Py Unit × WorkflowGate :=
  if task ∈ g.status then (.error taskExists, g)
  else g.persist fault task (if needsApproval then awaitingApproval else awaitingInput)

def WorkflowGate.supplyInput (g : WorkflowGate) (fault : Option Fault) (task : PyStr)
    : Py Unit × WorkflowGate :=
  let s := g.status.lookup task
  if s = some awaitingInput then g.persist fault task inputSupplied
  else if s = some awaitingApproval then g.persist fault task approved
  else (.error taskNotAwaiting, g)

def WorkflowGate.run (g : WorkflowGate) (fault : Option Fault) (task : PyStr)
    : Py Unit × WorkflowGate :=
  let s := g.status.lookup task
  if s = some inputSupplied ∨ s = some approved then g.persist fault task running
  else if s = some awaitingInput ∨ s = some awaitingApproval then (.error inputGateBypass, g)
  else (.error taskNotRunnable, g)

def WorkflowGate.close (g : WorkflowGate) : WorkflowGate := { g with file := g.file.close }

end Naalp.Python.Channels
