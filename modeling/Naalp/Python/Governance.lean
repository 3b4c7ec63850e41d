import Naalp.Foundation.Multibase
import Naalp.Foundation.ReadyQueue
import Naalp.Python.Channels
import Naalp.Python.Envelope

/-! The verifier of recorded chains,
`ecosystem/naalp-governance-verify/naalp_governance_verify/verify.py`, with the verifier of
`impl/python/naalp/ez.py` that it calls on each record.
-/

namespace Naalp.Python.Ez

open Naalp.Foundation
open Naalp.Python.Cose

/-- `_registered`: `lookup` raises nothing but an unknown kind. -/
def registered (channel kind : Int) : Bool :=
  match Channels.lookup channel kind with
  | .ok _ => true
  | .error _ => false

def verify (lib : SignatureLibrary) (publicKey envelopeBytes : Bytes) (profile : Int)
    : Py Envelope.Object :=
  Envelope.verify lib profile algMldsa65 publicKey (some registered) envelopeBytes []

end Naalp.Python.Ez

namespace Naalp.Python.Governance

open Naalp.Foundation
open Naalp.Python.Cose

inductive ErrorKind where
  | logMalformed
  | signatureInvalid
  | unresolvedSigner
  | brokenReferent
  | chainOrderBroken
  deriving DecidableEq, Repr

def ErrorKind.name : ErrorKind → String
  | .logMalformed => "E_LOG_MALFORMED"
  | .signatureInvalid => "E_VERIFY"
  | .unresolvedSigner => "E_UNRESOLVED_SIGNER"
  | .brokenReferent => "E_REFERENT"
  | .chainOrderBroken => "E_CHAIN"

/-- A raised `ChainVerifyError`, or another exception that is let through. -/
inductive Failure where
  | chainVerifyError (kind : ErrorKind) (msg : String) (index : Option Nat := none)
    (cause : Option Exc := none)
  | raised (err : Exc)
  deriving DecidableEq

-----------------------------------------------------------------------------------------
-- The log framing
-----------------------------------------------------------------------------------------

/-- A record as `ChainRecorder.record` appends it to the log. -/
def frame (record : Bytes) : Bytes := toBigEndian 4 record.length ++ record

def framing (records : List Bytes) : Bytes := records.flatMap frame

/-- The loop of `read_log` at a record, on what the stream still holds. -/
def readRecords (index : Nat) (stream : Bytes) : Except Failure (List Bytes) :=
  let header := stream.take 4
  if empty : header = [] then return []
  else do
    raiseIf (header.length ≠ 4) (.chainVerifyError .logMalformed
      ("log truncated mid length-prefix at record " ++ toString index ++ " ("
        ++ toString header.length ++ " header bytes, need 4)") index)
    let n := ofBigEndian header
    let payload := (stream.drop 4).take n
    raiseIf (payload.length ≠ n) (.chainVerifyError .logMalformed
      ("log truncated mid-record at record " ++ toString index ++ " ("
        ++ toString payload.length ++ " payload bytes, need " ++ toString n ++ ")") index)
    return payload :: (← readRecords (index + 1) ((stream.drop 4).drop n))
termination_by stream.length
decreasing_by
  have some : stream ≠ [] := by
    rintro rfl
    exact empty rfl
  have := List.length_pos_of_ne_nil some
  simp only [List.length_drop]
  omega

/-- `read_log` of octets. -/
def readLog (source : Bytes) : Except Failure (List Bytes) := readRecords 0 source

-----------------------------------------------------------------------------------------
-- Chains
-----------------------------------------------------------------------------------------

/-- One key for the whole chain, or the `get` of a mapping or a callable, where anything else
raises.
-/
inductive PubkeyResolver where
  | single (pubkey : Bytes)
  | lookup (resolve : Bytes → Py (Option Bytes))

structure VerifiedLink where
  index : Nat
  contentId : Bytes
  channel : Int
  kind : Int
  effect : Int
  signer : Bytes
  created : Int
  body : Cbor.Value
  causes : List Bytes
  raw : Bytes

structure VerifiedChain where
  links : List VerifiedLink
  replayOrder : List Nat

/-- How an exception and octets print under `%r`. -/
structure Printing where
  exc : Exc → String
  octets : Bytes → String

section

variable (lib : SignatureLibrary) (printing : Printing)

/-- The signer that a record claims, read before any check. -/
def claimedSigner (raw : Bytes) : Py Bytes := do
  let (prot, _, _) ← parseSign1Raw raw
  let (_, signer, _, _) ← Envelope.parseProtected prot
  return signer

/-- The key that a record is tried with. -/
def resolvePubkey (index : Nat) (raw : Bytes) : PubkeyResolver → Except Failure Bytes
  | .single pubkey => return pubkey
  | .lookup resolve => do
      let signer ← (claimedSigner raw).mapError fun err => .chainVerifyError .signatureInvalid
        ("record " ++ toString index ++ " does not parse as a signed N-AALP object: "
          ++ printing.exc err) index err
      let some pubkey ← (resolve signer).mapError .raised
        | throw (.chainVerifyError .unresolvedSigner ("record " ++ toString index
            ++ ": no verifying key registered for signer id " ++ printing.octets signer) index)
      return pubkey

/-- `_verify_one`; a verified object has an id. -/
def verifyOne (index : Nat) (raw : Bytes) (resolver : PubkeyResolver) (profile : Int)
    : Except Failure VerifiedLink := do
  let pubkey ← resolvePubkey printing index raw resolver
  let obj ← (Ez.verify lib pubkey raw profile).mapError fun err =>
    .chainVerifyError .signatureInvalid
      ("record " ++ toString index ++ " failed verification: " ++ printing.exc err) index err
  return {
    index, contentId := obj.id.getD [], channel := obj.channel, kind := obj.kind
    effect := obj.effect, signer := obj.signer, created := obj.created, body := obj.body
    causes := obj.causes, raw
  }

/-- `seen_at.get` on the dictionary of the collected links. -/
def seenAt (links : List VerifiedLink) (contentId : Bytes) : Option Nat :=
  (links.find? (·.contentId = contentId)).map (·.index)

/-- The loop over the records, after some links. -/
def collectLinks (resolver : PubkeyResolver) (profile : Int) (links : List VerifiedLink)
    : List Bytes → Except Failure (List VerifiedLink)
  | [] => return links
  | raw :: records => do
      let index := links.length
      let link ← verifyOne lib printing index raw resolver profile
      match seenAt links link.contentId with
      | some earlier => throw (.chainVerifyError .chainOrderBroken ("record " ++ toString index
          ++ " duplicates the content id of record " ++ toString earlier ++ " ("
          ++ String.ofList (hex link.contentId) ++ ") -- a forged or replayed chain entry") index)
      | none => collectLinks resolver profile (links ++ [link]) records

/-- One round of the loop over the causes of a link. -/
def checkCause (links : List VerifiedLink) (link : VerifiedLink) (cause : Bytes)
    : Except Failure Unit :=
  let record := "record " ++ toString link.index ++ " (content id "
    ++ String.ofList (hex link.contentId) ++ ") causes[] names "
  match seenAt links cause with
  | none => throw (.chainVerifyError .brokenReferent (record ++ String.ofList (hex cause)
      ++ ", which is not present anywhere in this chain") link.index)
  | some referentIndex =>
      raiseIf (referentIndex ≥ link.index) (.chainVerifyError .chainOrderBroken (record ++ "record "
        ++ toString referentIndex ++ ", which appears at or after it in the log -- an out-of-order"
        ++ " / reordered / dropped causal link") link.index)

def checkCauses (links : List VerifiedLink) : Except Failure Unit :=
  forM links fun link => forM link.causes (checkCause links link)

/-- The indices of the causes of a link. -/
def parents (links : List VerifiedLink) (i : Nat) : List Nat :=
  ((links[i]?.map (·.causes)).getD []).filterMap (seenAt links)

def createdAt (links : List VerifiedLink) (i : Nat) : Int := (links[i]?.map (·.created)).getD 0

def contentIdAt (links : List VerifiedLink) (i : Nat) : Bytes :=
  (links[i]?.map (·.contentId)).getD []

/-- The order of the sort keys: the creation time, then the content id. -/
def SortsBefore (links : List VerifiedLink) (i j : Nat) : Prop :=
  createdAt links i < createdAt links j
  ∨ createdAt links i = createdAt links j ∧ contentIdAt links i ≤ contentIdAt links j

instance (links : List VerifiedLink) : DecidableRel (SortsBefore links) := fun i j =>
  inferInstanceAs (Decidable (createdAt links i < createdAt links j
    ∨ createdAt links i = createdAt links j ∧ contentIdAt links i ≤ contentIdAt links j))

/-- The error of an order that leaves links out. -/
def cycleError : Failure :=
  .chainVerifyError .chainOrderBroken "the causal graph contains a cycle -- chain rejected whole"

/-- `_topological_order`, where a cause without an index is a KeyError. -/
def topologicalOrder (links : List VerifiedLink) : Except Failure (List Nat) := do
  let n := links.length
  forM links fun link => forM link.causes fun cause =>
    raiseIf (seenAt links cause = none) (.raised .keyError)
  let counters := countEdges (edgesOf (parents links) (List.range n))
  let ready := (List.range n).filter fun i => counters.indegree i = 0
  let (order, _) := drain (SortsBefore links) counters.dependents n
    { indegree := counters.indegree, ready }
  raiseIf (order.length ≠ n) cycleError
  return order

def verifyChain (records : List Bytes) (resolver : PubkeyResolver) (profile : Int)
    : Except Failure VerifiedChain := do
  let links ← collectLinks lib printing resolver profile [] records
  checkCauses links
  let replayOrder ← topologicalOrder links
  return { links, replayOrder }

end

end Naalp.Python.Governance
