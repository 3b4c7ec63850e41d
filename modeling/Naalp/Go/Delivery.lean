import Naalp.Foundation.Journal
import Naalp.Go.WorkflowGate

/-! The delivery-stage tracker of `impl/go/delivery/delivery.go`. -/

namespace Naalp.Go.Delivery

open Naalp.Foundation
open Naalp.Go.Channels (Failure)
open Naalp.Python.Cbor (Value)

def errStageOutOfOrder : Failure :=
  .coded (.error .stageOutOfOrder "a delivery stage regressed to an earlier stage")

def malformed (msg : String) : Stop := .error .malformed msg

structure DeliveryUpdate where
  obj : Bytes := []
  stage : UInt64 := 0
  at_ : UInt64 := 0
  deriving DecidableEq

def updateValue (d : DeliveryUpdate) : Value :=
  .m [(.u 1, .b d.obj), (.u 2, .u d.stage.toNat), (.u 3, .u d.at_.toNat)]

/-- `Bytes`, which drops an error of the encoder. -/
def DeliveryUpdate.bytes (d : DeliveryUpdate) : Bytes :=
  (Cbor.encode (updateValue d)).toOption.getD []

/-- One round of the loop of `parseUpdate`. -/
def readUpdatePair (u : DeliveryUpdate) : Value × Value → Result DeliveryUpdate
  | (.u 1, .b obj) => return { u with obj }
  | (.u 1, _) => throw (malformed "obj not bstr")
  | (.u 2, .u stage) => return { u with stage := .ofNat stage.toNat }
  | (.u 2, _) => throw (malformed "stage not uint")
  | (.u 3, .u time) => return { u with at_ := .ofNat time.toNat }
  | (.u 3, _) => throw (malformed "at not uint")
  | (.u _, _) => throw (malformed "unknown delivery-update key")
  | _ => throw (malformed "non-uint key")

/-- `parseUpdate`; a field that is missing keeps its zero value. -/
def parseUpdate (rec : Bytes) : Result DeliveryUpdate := do
  let .m m ← Cbor.decode rec | throw (malformed "delivery update is not a map")
  m.foldlM readUpdatePair {}

abbrev Stages := AList (fun _ : Bytes => UInt64)

/-- One round of `replay`: the last durable stage wins. -/
def absorbUpdate (current : Stages) (rec : Bytes) : Except Failure Stages := do
  let u ← (parseUpdate rec).mapError .coded
  return current.insert u.obj u.stage

/-- `io.ReadFull` ends at once at the end of the file only. -/
def trackerReader : LogReader Failure Stages where
  absorb := absorbUpdate
  shortPrefix := some .io
  shortRecord _ := .io

structure Tracker where
  disk : Bytes
  current : Stages
  closed : Bool := false

def openTracker (disk : Bytes) : Except Failure Tracker :=
  return { disk, current := ← trackerReader.replay disk ∅ }

/-- The persisting part of `Advance`, whose length prefix is `uint32(len(rec))`. A fault is a number
of octets of the framed record: the write, or the sync after it, fails when so many are in the file.
-/
def Tracker.persist (t : Tracker) (fault : Option Nat) (u : DeliveryUpdate)
    : Except Failure DeliveryUpdate × Tracker :=
  if t.closed then (.error .io, t)
  else
    let framed := frame u.bytes
    match fault with
    | some count => (.error .io, { t with disk := t.disk ++ framed.take count })
    | none =>
        (.ok u, { t with disk := t.disk ++ framed, current := t.current.insert u.obj u.stage })

/-- `Advance`: an earlier stage is refused, the same stage is acknowledged without a write. -/
def Tracker.advance (t : Tracker) (fault : Option Nat) (obj : Bytes) (stage at_ : UInt64)
    : Except Failure DeliveryUpdate × Tracker :=
  let u : DeliveryUpdate := { obj, stage, at_ }
  match t.current.lookup obj with
  | some cur =>
      if stage < cur then (.error errStageOutOfOrder, t)
      else if stage = cur then (.ok u, t)
      else t.persist fault u
  | none => t.persist fault u

def Tracker.close (t : Tracker) : Tracker := { t with closed := true }

end Naalp.Go.Delivery
