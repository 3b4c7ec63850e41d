import Naalp.Python.Cbor
import Naalp.Rust.Gates

/-! The decision records of `impl/rust/src/evidence_record.rs`, with the closed decision set of
`gateway.rs`. An optional key is an option, so an empty octet string under it is there.
-/

namespace Naalp.Rust.EvidenceRecord

open Naalp.Foundation
open Naalp.Go (Stop Result)
open Naalp.Python.Cbor (Value)
open Naalp.Python.Fields (field bstrField uintField)

def decisionAllow : Int := 0
def decisionDeny : Int := 1
def decisionHold : Int := 2

def isKnownDecision (code : Int) : Bool := code ∈ [decisionAllow, decisionDeny, decisionHold]

def errUnknownDecision : Stop :=
  .error .unknownGatewayDecision "gateway decision code is outside the closed set allow/deny/hold"
def errDecisionMalformed : Stop :=
  .error .decisionMalformed "object is not a well-formed N-AALP decision-record body"
def errUnknownOrderingBasis : Stop :=
  .error .unknownOrderingBasis "ordering-disclosure basis is outside the closed set \x7b0,1,2\x7d"
def errOrderingDisclosureMalformed : Stop := .error .orderingDisclosureMalformed
  "ordering-disclosure fields are inconsistent with its own basis"
def errTermDispositionMalformed : Stop := .error .termDispositionMalformed
  "terms map carries a key outside the record's own field set, or a malformed value"

def orderingCorrespondenceOnly : Int := 0
def orderingSingleBoundary : Int := 1
def orderingExternalMechanism : Int := 2

def isKnownOrderingBasis (b : Int) : Bool :=
  b ∈ [orderingCorrespondenceOnly, orderingSingleBoundary, orderingExternalMechanism]

structure OrderingDisclosure where
  basis : Int
  boundary : Option Bytes
  mechanism : Option Bytes
  relation : Option Bytes
  deriving DecidableEq

/-- The pair of a field that is written when it is there. -/
def somePair (key : Int) (octets : Option Bytes) : List (Value × Value) :=
  (octets.map fun b => (.u key, .b b)).toList

def OrderingDisclosure.toValue (d : OrderingDisclosure) : Value :=
  .m ([(.u 1, .u d.basis)] ++ somePair 2 d.boundary ++ somePair 3 d.mechanism
    ++ somePair 4 d.relation)

/-- A key that is there with a value of another type. -/
def wrongType (m : List (Value × Value)) (k : Int) : Bool :=
  (field k m).isSome ∧ (bstrField m k).isNone

def OrderingDisclosure.fromValue : Value → Option OrderingDisclosure
  | .m m => do
      let basis ← uintField m 1
      guard (¬ (wrongType m 2 ∨ wrongType m 3 ∨ wrongType m 4))
      return {
        basis
        boundary := bstrField m 2
        mechanism := bstrField m 3
        relation := bstrField m 4
      }
  | _ => none

def OrderingDisclosure.checkWellFormed (d : OrderingDisclosure) : Result Unit := do
  raiseIf (isKnownOrderingBasis d.basis = false) errUnknownOrderingBasis
  let ok : Bool :=
    if d.basis = orderingCorrespondenceOnly then
      d.boundary.isNone ∧ d.mechanism.isNone ∧ d.relation.isNone
    else if d.basis = orderingSingleBoundary then
      d.boundary.isSome ∧ d.mechanism.isNone ∧ d.relation.isNone
    else d.boundary.isNone ∧ d.mechanism.isSome
  raiseIf (ok = false) errOrderingDisclosureMalformed

structure TermDisposition where
  kind : Int
  source : Option Bytes
  deriving DecidableEq

def TermDisposition.toValue (td : TermDisposition) : Value :=
  .m ([(.u 1, .u td.kind)] ++ somePair 2 td.source)

def TermDisposition.fromValue : Value → Option TermDisposition
  | .m m => do
      let kind ← uintField m 1
      guard (¬ wrongType m 2)
      return { kind, source := bstrField m 2 }
  | _ => none

structure DecisionRecord where
  action : Bytes
  governing : List Bytes
  consume : Option Bytes
  outcome : Int
  ordering : OrderingDisclosure
  terms : Option (List (Int × TermDisposition))
  enforcement : Option Int
  deriving DecidableEq

/-- The map that `DecisionRecord::bytes` encodes. -/
def DecisionRecord.toValue (d : DecisionRecord) : Value :=
  .m ([(.u 1, .b d.action), (.u 2, .a (d.governing.map .b))] ++ somePair 3 d.consume
    ++ [(.u 4, .u d.outcome), (.u 5, d.ordering.toValue)]
    ++ (d.terms.map fun terms =>
      (Value.u 6, Value.m (terms.map fun term => (.u term.1, term.2.toValue)))).toList
    ++ (d.enforcement.map fun e => (Value.u 7, Value.u e)).toList)

def DecisionRecord.bytes (d : DecisionRecord) : Result Bytes := expect (Cbor.encode d.toValue)

def validateDecisionRecord (d : DecisionRecord) : Result Unit := do
  raiseIf (isKnownDecision d.outcome = false) errUnknownDecision
  d.ordering.checkWellFormed
  raiseIf (d.outcome ≠ decisionAllow ∧ d.consume.isSome) errDecisionMalformed
  raiseIf (∃ term ∈ d.terms.getD [], ¬ (1 ≤ term.1 ∧ term.1 ≤ 5)) errTermDispositionMalformed

/-- `arr_bstr_field`. -/
def octetsItem : Value → Option Bytes
  | .b b => some b
  | _ => none

def arrBstrField (m : List (Value × Value)) (k : Int) : Option (List Bytes) :=
  match field k m with
  | some (.a items) => items.mapM octetsItem
  | _ => none

/-- One round of the loop over the terms. -/
def readTerm : Value × Value → Result (Int × TermDisposition)
  | (.u key, v) => do
      let some td := TermDisposition.fromValue v | throw errTermDispositionMalformed
      return (key, td)
  | _ => throw errTermDispositionMalformed

def termsField (m : List (Value × Value)) : Result (Option (List (Int × TermDisposition))) :=
  match field 6 m with
  | none => return none
  | some (.m tp) => return some (← tp.mapM readTerm)
  | some _ => throw errTermDispositionMalformed

section Decoding

variable (valueSize : Nat)

/-- `decode_map`, whose error is mapped by the caller; a panic of the decoder is not caught. -/
def decodeMap (b : Bytes) : Result (List (Value × Value)) :=
  match Cbor.decode valueSize b with
  | .ok (.m m) => return m
  | .ok _ => throw errDecisionMalformed
  | .error .panic => throw .panic
  | .error (.error _ _) => throw errDecisionMalformed

/-- `parse_decision_record`, which validates what it has read. -/
def parseDecisionRecord (b : Bytes) : Result DecisionRecord := do
  let m ← decodeMap valueSize b
  let some action := bstrField m 1 | throw errDecisionMalformed
  let some governing := arrBstrField m 2 | throw errDecisionMalformed
  raiseIf (wrongType m 3) errDecisionMalformed
  let some outcome := uintField m 4 | throw errDecisionMalformed
  let some disclosure := field 5 m | throw errDecisionMalformed
  let some ordering := OrderingDisclosure.fromValue disclosure | throw errDecisionMalformed
  let terms ← termsField m
  raiseIf ((field 7 m).isSome ∧ (uintField m 7).isNone) errDecisionMalformed
  let d : DecisionRecord :=
    {
      action, governing, consume := bstrField m 3, outcome, ordering, terms,
      enforcement := uintField m 7
    }
  validateDecisionRecord d
  return d

end Decoding

end Naalp.Rust.EvidenceRecord

/-! The checkpoints of a transparency log, of the same file: the log signs the root of its tree
under the head of the checkpoint before, and a witness signs the id of a checkpoint.
-/

namespace Naalp.Rust.EvidenceRecord

open Naalp.Foundation
open Naalp.Go (Stop Result)
open Naalp.Python.Cbor (Value contentIdBytes)

def errWitnessRootMismatch : Stop := .error .witnessRootMismatch
  "witness-cosign root does not match the content id of the checkpoint it accompanies"
def errChainBroken : Stop :=
  .error .chainBroken "receipt prev/seq does not chain to the previous receipt"
def errCheckpointForkNotProven : Stop :=
  .error .forkProofInvalid "the two checkpoints/cosigns do not prove log equivocation"

def headSize : Nat := 48

def genesis : Bytes := List.replicate headSize 0

structure CheckpointRoot where
  log : Octets
  size : UInt64
  root : Octets
  prev : Octets
  time : UInt64

/-- The map that `CheckpointRoot::bytes` encodes. -/
def CheckpointRoot.value (c : CheckpointRoot) : Value :=
  .m [(.u 1, c.log.value), (.u 2, .u c.size.toNat), (.u 3, c.root.value), (.u 4, c.prev.value),
    (.u 5, .u c.time.toNat)]

def CheckpointRoot.bytes (c : CheckpointRoot) : Result Bytes := expect (Cbor.encode c.value)

def CheckpointRoot.head (c : CheckpointRoot) : Result Bytes := return Sha2.sha384 (← c.bytes)

def CheckpointRoot.id (c : CheckpointRoot) : Result Bytes := return contentIdBytes (← c.bytes)

/-- The loop of `verify_checkpoint_chain`. -/
def verifyCheckpointsFrom (wantPrev : Bytes) : List CheckpointRoot → Result Unit
  | [] => return ()
  | c :: rest => do
      raiseIf (c.prev.bytes ≠ wantPrev) errChainBroken
      verifyCheckpointsFrom (← c.head) rest

def verifyCheckpointChain (checkpoints : List CheckpointRoot) : Result Unit :=
  verifyCheckpointsFrom genesis checkpoints

structure WitnessCosign where
  witness : Octets
  root : Octets
  time : UInt64

def WitnessCosign.value (w : WitnessCosign) : Value :=
  .m [(.u 1, w.witness.value), (.u 2, w.root.value), (.u 3, .u w.time.toNat)]

def WitnessCosign.bytes (w : WitnessCosign) : Result Bytes := expect (Cbor.encode w.value)

/-- `check_witness_root`, and its alias `validate_witness_cosign`. -/
def checkWitnessRoot (cosign : WitnessCosign) (accompanyingCheckpointCid : Bytes) : Result Unit :=
  raiseIf (cosign.root.bytes ≠ accompanyingCheckpointCid) errWitnessRootMismatch

def verifyCheckpointFork (lib : Cose.SignatureLibrary) (a : CheckpointRoot) (sigA : Bytes)
    (cosignA : WitnessCosign) (sigCosignA : Bytes) (b : CheckpointRoot) (sigB : Bytes)
    (cosignB : WitnessCosign) (sigCosignB : Bytes) (logV witnessV : Cose.Verifier)
    : Result Unit := do
  raiseIf (a.log.bytes ≠ b.log.bytes ∨ a.size ≠ b.size) errCheckpointForkNotProven
  raiseIf (a.root.bytes = b.root.bytes) errCheckpointForkNotProven
  raiseIf (logV.verifyRaw lib (← a.bytes) sigA = false) errCheckpointForkNotProven
  raiseIf (logV.verifyRaw lib (← b.bytes) sigB = false) errCheckpointForkNotProven
  let aCid ← a.id
  let bCid ← b.id
  mapErr errCheckpointForkNotProven (checkWitnessRoot cosignA aCid)
  mapErr errCheckpointForkNotProven (checkWitnessRoot cosignB bCid)
  raiseIf (witnessV.verifyRaw lib (← cosignA.bytes) sigCosignA = false) errCheckpointForkNotProven
  raiseIf (witnessV.verifyRaw lib (← cosignB.bytes) sigCosignB = false) errCheckpointForkNotProven

end Naalp.Rust.EvidenceRecord
