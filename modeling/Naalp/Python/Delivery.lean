import Mathlib.Data.List.AList
import Naalp.Foundation.Journal
import Naalp.Foundation.Relays
import Naalp.Python.RawRecords

/-! The delivery-stage tracker and the switchboard of `impl/python/naalp/delivery.py`. The tracker
appends without seeking, so what a failed flush leaves in the write buffer goes into the file before
the next record. The threads of the switchboard meet at its queues only.
-/

namespace Naalp.Python.Delivery

open Naalp.Foundation
open Naalp.Python.Approval (LogFile Fault)
open Naalp.Python.Cbor

/-- The fields seen so far by `_parse_update`. -/
structure UpdateFields where
  obj : Option Bytes := none
  stage : Option Int := none
  time : Option Int := none

def readUpdateField (fields : UpdateFields) : Value × Value → Py UpdateFields
  | (.u 1, .b obj) => return { fields with obj := some obj }
  | (.u 2, .u stage) => return { fields with stage := some stage }
  | (.u 3, .u time) => return { fields with time := some time }
  | (.u k, _) => throw (.deliveryError .malformed
      ("unknown or mistyped delivery-update field " ++ toString k))
  | _ => throw (.deliveryError .malformed "non-uint key")

/-- `_parse_update`: a record that is not canonical gets an error of this module. -/
def parseUpdate (record : Bytes) : Py DeliveryUpdate := do
  let value ← match decode record with
    | .error (.nonCanonical msg) =>
        throw (.deliveryError .malformed ("delivery update is not canonical: " ++ msg))
    | read => read
  let .m pairs := value | throw (.deliveryError .malformed "delivery update is not a map")
  match ← pairs.foldlM readUpdateField {} with
  | ⟨some obj, some stage, some time⟩ => return ⟨obj, stage, time⟩
  | _ => throw (.deliveryError .malformed "delivery update missing a mandatory field")

/-- The highest stage reached by each object. -/
abbrev Stages := AList (fun _ : Bytes => Int)

/-- One round of `_replay`: the last stage in the log wins. -/
def absorbUpdate (current : Stages) (record : Bytes) : Py Stages := do
  let u ← parseUpdate record
  return current.insert u.obj u.stage

def trackerReader : LogReader Exc Stages where
  absorb := absorbUpdate
  shortPrefix := some (.deliveryError .malformed "truncated WAL length prefix")
  shortRecord _ := .deliveryError .malformed "truncated WAL record"

structure Tracker where
  file : LogFile
  current : Stages

def openTracker (disk : Bytes) : Py Tracker :=
  return { file := { disk }, current := ← trackerReader.replay disk ∅ }

/-- Write, flush and fsync, behind what is still buffered. A raising `write` has put a number of
octets of both in the file and keeps what is left of the buffer, a raising `flush` keeps all the
others.
-/
def writeThrough (file : LogFile) (framed : Bytes) (fault : Option Fault) : Py Unit × LogFile :=
  if file.closed then (.error (.valueError "write to closed file"), file)
  else
    let unwritten := file.pending ++ framed
    match fault with
    | none => (.ok (), { file with disk := file.disk ++ unwritten, pending := [] })
    | some (.write count) =>
        (.error .osError, { file with disk := file.disk ++ unwritten.take count
                                      pending := file.pending.drop count })
    | some (.flush count) =>
        (.error .osError, { file with disk := file.disk ++ unwritten.take count
                                      pending := unwritten.drop count })
    | some .fsync => (.error .osError, { file with disk := file.disk ++ unwritten, pending := [] })

/-- The framed record of an update; `struct.pack` refuses a length of more than four octets. -/
def updateRecord (u : DeliveryUpdate) : Py Bytes := do
  let record ← u.bytes
  raiseIf (2 ^ 32 ≤ record.length) .structError
  return frame record

def stageOutOfOrder : Exc :=
  .deliveryError .stageOutOfOrder "a delivery stage regressed to an earlier stage"

def Tracker.advance (t : Tracker) (fault : Option Fault) (obj : Bytes) (stage time : Int)
    : Py DeliveryUpdate × Tracker :=
  let u : DeliveryUpdate := { obj, stage, time }
  let cur := t.current.lookup obj
  if cur.any (stage < ·) then (.error stageOutOfOrder, t)
  else if cur = some stage then (.ok u, t)
  else
    match updateRecord u with
    | .error err => (.error err, t)
    | .ok framed =>
        match writeThrough t.file framed fault with
        | (.error err, file) => (.error err, { t with file })
        | (.ok _, file) => (.ok u, { file, current := t.current.insert obj stage })

-----------------------------------------------------------------------------------------
-- The switchboard
-----------------------------------------------------------------------------------------

inductive Side where
  | left
  | right
deriving DecidableEq

def Side.peer : Side → Side
  | .left => .right
  | .right => .left

/-- For each side the lane from its `send` to the `recv` of its peer: the queue `send` puts into,
the pump thread, and the queue the peer gets from. The end marker is `_SENTINEL`.
-/
structure Switchboard where
  capacity : Int
  lane : Side → Relay Bytes := fun _ => {}

/-- What a thread does at the switchboard. `close` does the last two, a pump one `get` or `put` at a
time.
-/
inductive SwitchboardCall where
  | send (side : Side) (obj : Bytes)
  | recv (side : Side)
  | pump (side : Side)
  | sentinel (side : Side)
  | join (side : Side)

def Switchboard.callLane (s : Switchboard) (side : Side) (call : RelayCall Bytes)
    : Option (Option Bytes) × Switchboard :=
  let result := (s.lane side).step s.capacity call
  (result.1, { s with lane := Function.update s.lane side result.2 })

/-- The answer to a call, `none` while it blocks. -/
def Switchboard.step (s : Switchboard) : SwitchboardCall → Option (Option Bytes) × Switchboard
  | .send side obj => s.callLane side (.put (some obj))
  | .recv side => s.callLane side.peer .get
  | .pump side => s.callLane side .move
  | .sentinel side => s.callLane side (.put none)
  | .join side => (if (s.lane side).worker.isStopped then some none else none, s)

/-- What `close` does, in its order. -/
def closeCalls : List SwitchboardCall :=
  [.sentinel .left, .sentinel .right, .join .left, .join .right]

end Naalp.Python.Delivery
