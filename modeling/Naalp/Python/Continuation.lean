import Naalp.Python.Cbor
import Naalp.Python.Policy
import Naalp.Python.Cose

/-! Flows of `impl/python/naalp/continuation.py`: the signed open, the hash-chained links, the
checkpoints and the signed commit.
-/

namespace Naalp.Python.Flows

open Naalp.Foundation
open Naalp.Python.Cbor
open Naalp.Python.Cose
open Naalp.Python.Fields

/-- `_in_lattice`: a value of the closed effect set. -/
def inLattice (v : Int) : Bool := 0 ≤ v ∧ v ≤ Policy.destructive

/-- `_decode_map`, whose codec errors are not caught. -/
def decodeMap (b : Bytes) : Py (List (Value × Value)) := do
  let .m pairs ← decode b | throw (.contError .contMalformed "object is not a map")
  return pairs

/-- A flow's identity, effect ceiling and approvals. -/
structure FlowOpen where
  flowId : Bytes
  effectCeiling : Int
  approvals : List Bytes
  deriving DecidableEq

def FlowOpen.bytes (o : FlowOpen) : Py Bytes :=
  encode (.m [(.u 1, .b o.flowId), (.u 2, .u o.effectCeiling),
    (.u 3, .a (o.approvals.map .b))])

def FlowOpen.head (o : FlowOpen) : Py Bytes := return Sha2.sha384 (← o.bytes)

def FlowOpen.id (o : FlowOpen) : Py Bytes := return contentIdBytes (← o.bytes)

/-- The approvals of a flow; any item other than an octet string is refused. -/
def approvalItems : List Value → Py (List Bytes)
  | [] => return []
  | .b v :: rest => return v :: (← approvalItems rest)
  | _ => throw (.contError .contMalformed "approval is not a bstr")

def parseFlowOpen (b : Bytes) : Py FlowOpen := do
  let m ← decodeMap b
  match bstrField m 1, uintField m 2, field 3 m with
  | some flowId, some effectCeiling, some (.a items) => do
      raiseIf (inLattice effectCeiling = false)
        (.contError .rangeError "effect_ceiling is outside the closed 0..3 lattice")
      return { flowId, effectCeiling, approvals := ← approvalItems items }
  | _, _, _ => throw (.contError .contMalformed "object is not a well-formed FlowOpen body")

/-- One link of a flow's chain. -/
structure Continuation where
  flowOpenId : Bytes
  seq : Int
  effect : Int
  payloadId : Bytes
  prev : Bytes

def Continuation.bytes (c : Continuation) : Py Bytes :=
  encode (.m [(.u 1, .b c.flowOpenId), (.u 2, .u c.seq), (.u 3, .u c.effect),
    (.u 4, .b c.payloadId), (.u 5, .b c.prev)])

def Continuation.head (c : Continuation) : Py Bytes := return Sha2.sha384 (← c.bytes)

def verifyContinuation (c : Continuation) (flowOpenId prevHead : Bytes) (expectedSeq ceiling : Int)
    : Py Unit := do
  raiseIf (inLattice ceiling = false)
    (.contError .rangeError "ceiling is outside the closed 0..3 lattice")
  raiseIf (inLattice c.effect = false)
    (.contError .rangeError "effect is outside the closed 0..3 lattice")
  raiseIf (c.flowOpenId ≠ flowOpenId)
    (.contError .wrongFlow "object's flow_open_id does not match the FlowOpen")
  raiseIf (c.seq ≠ expectedSeq)
    (.contError .seqGap "continuation seq is not the next expected value")
  raiseIf (Policy.authorizes ceiling c.effect = false)
    (.contError .aboveCeiling "continuation effect exceeds the FlowOpen effect ceiling")
  raiseIf (c.prev ≠ prevHead)
    (.contError .chainBroken "continuation prev does not chain to the previous head")

/-- The loop of `verify_chain`, from the link at position `i`. -/
def verifyLinks (flowOpenId : Bytes) (ceiling : Int)
    : (i : Int) → (prev : Bytes) → List Continuation → Py Bytes
  | _, prev, [] => return prev
  | i, prev, c :: rest => do
      verifyContinuation c flowOpenId prev i ceiling
      verifyLinks flowOpenId ceiling (i + 1) (← c.head) rest

/-- `verify_chain`: the final head of the links of a flow. -/
def verifyChain (flow : FlowOpen) (conts : List Continuation) : Py Bytes := do
  raiseIf (inLattice flow.effectCeiling = false)
    (.contError .rangeError "effect_ceiling is outside the closed 0..3 lattice")
  let fid ← flow.id
  let prev ← flow.head
  verifyLinks fid flow.effectCeiling 0 prev conts

/-- The head after a prefix of the links of a flow. -/
structure Checkpoint where
  flowOpenId : Bytes
  throughSeq : Int
  head : Bytes

def maxU64 : Int := 2 ^ 64 - 1

/-- `verify_checkpoint`; `conts` is the parameter for the prefix. -/
def verifyCheckpoint (cp : Checkpoint) (flow : FlowOpen) (conts : List Continuation)
    : Py Unit := do
  raiseIf (cp.flowOpenId ≠ (← flow.id))
    (.contError .wrongFlow "checkpoint flow_open_id does not match the FlowOpen")
  raiseIf (cp.throughSeq = maxU64)
    (.contError .gapDetected "through_seq at u64::MAX admits no contiguous prefix")
  raiseIf (conts.length ≠ cp.throughSeq + 1)
    (.contError .gapDetected "wrong count: a link is missing or extra")
  let h ←
    match verifyChain flow conts with
    | .error (.contError _ _) =>
        throw (.contError .gapDetected "a seq/prev break inside the prefix is a gap")
    | outcome => outcome
  raiseIf (cp.head ≠ h)
    (.contError .gapDetected "recomputed prefix head does not match the checkpoint")

/-- The final head of a completed flow. -/
structure FlowCommit where
  flowOpenId : Bytes
  finalHead : Bytes

section Signing

variable (lib : SignatureLibrary)

def signFlowOpen (o : FlowOpen) (alg : Int) (seed : Bytes) : Py Bytes := do
  coseSign1 lib alg seed (← bareProtectedHeader alg) (← o.bytes)

/-- `verify_flow_open`. The parameter `profile` of the source is not read by its body. -/
def verifyFlowOpen (obj : Bytes) (_profile alg : Int) (pubkey : Bytes) : Py FlowOpen := do
  let payload ← bareGate lib
    (.contError .badSignature "flow-open signature does not verify") obj alg pubkey
  parseFlowOpen payload

/-- `verify_flow_commit`. The parameter `profile` of the source is not read by its body. -/
def verifyFlowCommit (obj : Bytes) (_profile alg : Int) (pubkey : Bytes) (flow : FlowOpen)
    (conts : List Continuation) : Py FlowCommit := do
  let payload ← bareGate lib
    (.contError .badSignature "flow-commit signature does not verify") obj alg pubkey
  let m ← decodeMap payload
  match bstrField m 1, bstrField m 2 with
  | some flowOpenId, some finalHead => do
      raiseIf (flowOpenId ≠ (← flow.id))
        (.contError .wrongFlow "flow-commit does not bind this FlowOpen")
      let final ← verifyChain flow conts
      raiseIf (finalHead ≠ final) (.contError .commitMismatch
        "flow commit final_head does not match the recomputed chain")
      return { flowOpenId, finalHead }
  | _, _ => throw (.contError .contMalformed "object is not a well-formed FlowCommit body")

end Signing

end Naalp.Python.Flows
