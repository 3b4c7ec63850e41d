import Naalp.Foundation.Grouping
import Naalp.Python.Envelope

/-! The extension entries of an object that `impl/python/naalp/envelope.py` reads and sets by
itself: the re-check procedure, the signer counter with the duplications it detects, and the
producing boundary.
-/

namespace Naalp.Python.Envelope

open Naalp.Foundation
open Naalp.Python.Cbor

def signerCounterKey : Int := 14
def producingBoundaryKey : Int := 15

def producingBoundaryObserved : Int := 1
def producingBoundaryReported : Int := 2

def pbFieldBoundary : Int := 1
def pbFieldKind : Int := 2
def pbFieldReporting : Int := 3

/-- The key of an entry is the unsigned integer `key`. -/
def hasKey (key : Int) : Value × Value → Bool
  | (.u k, _) => k = key
  | _ => false

/-- `_cext_get_uint`: the first entry under the key decides, and counts only if it is a uint. -/
def cextGetUint (m : Option (List (Value × Value))) (key : Int) : Option Int := do
  let (_, v) ← (← m).find? (hasKey key)
  match v with
  | .u v => some v
  | _ => none

/-- The carrier that the setters leave behind: every entry under the key is replaced in place,
and an entry is appended when there is none. A carrier is made where none is.
-/
def setEntry (key : Int) (v : Value) : Option (List (Value × Value)) → List (Value × Value)
  | none => [(.u key, v)]
  | some pairs =>
      let newPairs := pairs.map fun entry => if hasKey key entry then (.u key, v) else entry
      if pairs.any (hasKey key) then newPairs else newPairs ++ [(.u key, v)]

/-- `recheck`: the procedure and whether it is critical; `cext` takes precedence. -/
def Object.recheck (o : Object) : Option (Int × Bool) :=
  match cextGetUint o.cext recheckKey with
  | some v => some (v, true)
  | none => (cextGetUint o.ext recheckKey).map fun v => (v, false)

def Object.setRecheck (o : Object) (procId : Int) (critical : Bool) : Object :=
  if critical then { o with cext := some (setEntry recheckKey (.u procId) o.cext) }
  else { o with ext := some (setEntry recheckKey (.u procId) o.ext) }

def Object.signerCounter (o : Object) : Option Int :=
  cextGetUint o.ext signerCounterKey

def Object.setSignerCounter (o : Object) (seq : Int) : Object :=
  { o with ext := some (setEntry signerCounterKey (.u seq) o.ext) }

-----------------------------------------------------------------------------------------
-- Duplicated signers
-----------------------------------------------------------------------------------------

structure DuplicationFinding where
  signer : Bytes
  counter : Int
  ids : List Bytes
  deriving DecidableEq, Repr

/-- One round of the first loop of `detect_signer_duplication`. -/
def groupPresented (groups : Groups Bytes Int Bytes) (o : Object)
    : Py (Groups Bytes Int Bytes) :=
  match o.signerCounter with
  | none => return groups
  | some seq =>
      match o.contentId with
      | .ok cid => return groups.file (o.signer, seq, cid)
      -- a body that cannot be encoded cannot have been presented
      | .error (.nonCanonical _) | .error .typeError => return groups
      | .error error => throw error

/-- One round of the second loop. -/
def findingOf (signer : Bytes) (counter : Int) (idset : List Bytes)
    : Option DuplicationFinding :=
  if idset.length < 2 then none
  else some { signer, counter, ids := ascending idset }

def detectSignerDuplication (objs : List Object) : Py (List DuplicationFinding) := do
  let groups ← objs.foldlM groupPresented ∅
  return groups.report findingOf

-----------------------------------------------------------------------------------------
-- The producing boundary
-----------------------------------------------------------------------------------------

structure ProducingBoundary where
  boundary : Bytes
  kind : Int
  reporting : Option Bytes
  deriving DecidableEq, Repr

/-- What the loop of `producing_boundary` has read of the disclosure. -/
structure BoundaryFields where
  boundary : Option Bytes := none
  kind : Option Int := none
  reporting : Option Bytes := none

/-- One round of that loop, `none` where it returns. -/
def BoundaryFields.read (fields : BoundaryFields) : Value × Value → Option BoundaryFields
  | (.u key, v) =>
      if key = pbFieldBoundary then
        match v with
        | .b boundary => some { fields with boundary := some boundary }
        | _ => none
      else if key = pbFieldKind then
        match v with
        | .u kind => some { fields with kind := some kind }
        | _ => none
      else if key = pbFieldReporting then
        match v with
        | .b reporting => some { fields with reporting := some reporting }
        | _ => none
      else some fields
  | _ => none

def BoundaryFields.wellFormed (fields : BoundaryFields) : Option ProducingBoundary := do
  let boundary ← fields.boundary
  guard (boundary ≠ [])
  let kind ← fields.kind
  guard (kind = producingBoundaryObserved ∨ kind = producingBoundaryReported)
  guard (fields.reporting = none ∨ kind = producingBoundaryReported)
  return { boundary, kind, reporting := fields.reporting }

/-- `producing_boundary`, `none` for an absent or a malformed disclosure. -/
def producingBoundary (o : Object) : Py (Option ProducingBoundary) := do
  let some pairs := o.ext | return none
  let some (_, val) := pairs.find? (hasKey producingBoundaryKey) | return none
  let .m val := val | return none
  let some fields := val.foldlM BoundaryFields.read {} | return none
  return fields.wellFormed

def ProducingBoundary.value (pb : ProducingBoundary) : Value :=
  let sub := [(.u pbFieldBoundary, .b pb.boundary), (.u pbFieldKind, .u pb.kind)]
  match pb.reporting with
  | some reporting =>
      if pb.kind = producingBoundaryReported then
        .m (sub ++ [(.u pbFieldReporting, .b reporting)])
      else .m sub
  | none => .m sub

def setProducingBoundary (o : Object) (pb : ProducingBoundary) : Object :=
  { o with ext := some (setEntry producingBoundaryKey pb.value o.ext) }

end Naalp.Python.Envelope
