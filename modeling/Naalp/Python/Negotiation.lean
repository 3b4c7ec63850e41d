import Mathlib.Data.List.AList
import Naalp.Foundation.Reachability
import Naalp.Python.Cbor
import Naalp.Python.Cose

/-! Negotiation messages, labelled objects and trust references of
`impl/python/naalp/negotiation.py`: their parsers and verifiers, and the check of an accept.
-/

namespace Naalp.Python.Negotiation

open Naalp.Foundation
open Naalp.Python.Cbor
open Naalp.Python.Cose
open Naalp.Python.Fields

/-- `_verify_body`. -/
def verifyBody (lib : SignatureLibrary) (obj : Bytes) (alg : Int) (pubkey : Bytes) : Py Bytes :=
  bareGate lib (.negotiationError .badSignature "signature does not verify") obj alg pubkey

/-- The octet strings of an array; any other item is refused. -/
def bstrItems (refused : Exc) : List Value → Py (List Bytes)
  | [] => return []
  | .b v :: rest => return v :: (← bstrItems refused rest)
  | _ => throw refused

def roleOffer : Int := 0
def roleCounter : Int := 1
def roleAccept : Int := 2

def knownRole (r : Int) : Bool := r ∈ [roleOffer, roleCounter, roleAccept]

def profileBaseline : Int := 0
def profileStreaming : Int := 1
def profileBatch : Int := 2

def isRegisteredProfile (p : Int) : Bool := p ∈ [profileBaseline, profileStreaming, profileBatch]

/-- One step of a negotiation, linked to its predecessors by content id. -/
structure Message where
  negotiation : Bytes
  role : Int
  profile : Int
  causes : List Bytes

def Message.bytes (m : Message) : Py Bytes :=
  encode (.m [(.u 1, .b m.negotiation), (.u 2, .u m.role), (.u 3, .u m.profile),
    (.u 4, .a (m.causes.map .b))])

def Message.id (m : Message) : Py Bytes := return contentIdBytes (← m.bytes)

def parseMessage (b : Bytes) : Py Message := do
  let malformed := .negotiationError .negMalformed "object is not a well-formed negotiation body"
  let some m ← decodeMap b | throw malformed
  match bstrField m 1, uintField m 2, uintField m 3, field 4 m with
  | some negotiation, some role, some profile, some (.a items) => do
      let causes ← bstrItems (.negotiationError .negMalformed "cause is not a bstr") items
      return { negotiation, role, profile, causes }
  | _, _, _, _ => throw malformed

/-- `verify_message`. The parameter `profile` of the source is not read by its body. -/
def verifyMessage (lib : SignatureLibrary) (obj : Bytes) (_profile alg : Int) (pubkey : Bytes)
    : Py Message := do
  let m ← verifyBody lib obj alg pubkey
  let msg ← parseMessage m
  raiseIf (knownRole msg.role = false) (.negotiationError .unknownRole
    "negotiation message role is not offer/counter/accept")
  raiseIf (isRegisteredProfile msg.profile = false) (.negotiationError .unknownProfile
    "negotiation selects a profile outside the closed set")
  return msg

/-- The messages under their content ids. -/
abbrev Index := AList fun _ : Bytes => Message

/-- `index_by_id`. -/
def indexById (msgs : List Message) : Py Index :=
  msgs.foldlM (fun byId m => return byId.insert (← m.id) m) ∅

/-- The causes of the message that the index resolves an id to. -/
def Index.causes (byId : Index) (cid : Bytes) : Option (List Bytes) :=
  (byId.lookup cid).map Message.causes

/-- The walk of `descends`, which resolves no id twice. -/
def descends (fromMsg : Message) (targetId : Bytes) (byId : Index) : Bool :=
  reaches byId.causes targetId byId.keys fromMsg.causes

def descendsMsg (accept offer : Message) (byId : Index) : Py Bool :=
  return descends accept (← offer.id) byId

/-- `verify_accept`: the profile that was agreed. -/
def verifyAccept (accept offer : Message) (byId : Index) : Py Int := do
  raiseIf (offer.role ≠ roleOffer) (.negotiationError .notOffer
    "the object presented as the offer is not an offer role")
  raiseIf (isRegisteredProfile offer.profile = false) (.negotiationError .unknownProfile
    "offer selects a profile outside the closed set")
  raiseIf (accept.role ≠ roleAccept) (.negotiationError .notAccept
    "the object presented as the accept is not an accept role")
  raiseIf (isRegisteredProfile accept.profile = false) (.negotiationError .unknownProfile
    "accept selects a profile outside the closed set")
  let descended ← descendsMsg accept offer byId
  raiseIf (descended = false) (.negotiationError .notDescended
    "accept does not descend from its offer along the causes chain")
  return accept.profile

def riskSensitive : Int := 1
def riskEgress : Int := 2
def riskReversible : Int := 3

def isRegisteredRisk (code : Int) : Bool := code ∈ [riskSensitive, riskEgress, riskReversible]

/-- A risk label and its must-understand flag. -/
structure RiskLabel where
  code : Int
  critical : Int

def RiskLabel.isCritical (l : RiskLabel) : Bool := l.critical = 1

def malformedCriticalFlag : Exc :=
  .negotiationError .malformedCriticalFlag "risk-label critical flag is outside \x7b0,1\x7d"

/-- `_risk_label_from_value`. -/
def riskLabelFromValue : Value → Py RiskLabel
  | .m pairs =>
      match uintField pairs 1, uintField pairs 2 with
      | some code, some critical => do
          raiseIf (critical > 1) malformedCriticalFlag
          return { code, critical }
      | _, _ => throw (.negotiationError .negMalformed "risk label missing a field")
  | _ => throw (.negotiationError .negMalformed "risk label is not a map")

/-- The labels of the vocabulary; an unknown critical label is refused. -/
def validateLabels : List RiskLabel → Py (List RiskLabel)
  | [] => return []
  | l :: rest => do
      raiseIf (l.critical > 1) malformedCriticalFlag
      if isRegisteredRisk l.code then return l :: (← validateLabels rest)
      else
        raiseIf l.isCritical (.negotiationError .unknownCriticalRisk
          "an unknown critical risk label is rejected (R-2.5)")
        validateLabels rest

/-- An effect and the risk labels carried with it. -/
structure LabeledObject where
  effect : Int
  labels : List RiskLabel

def parseLabeledObject (b : Bytes) : Py LabeledObject := do
  let malformed :=
    .negotiationError .negMalformed "object is not a well-formed labeled-object body"
  let some m ← decodeMap b | throw malformed
  match uintField m 1, field 2 m with
  | some effect, some (.a items) => return { effect, labels := ← items.mapM riskLabelFromValue }
  | _, _ => throw malformed

/-- `verify_labeled_object`: the object and its recognized labels. -/
def verifyLabeledObject (lib : SignatureLibrary) (obj : Bytes) (_profile alg : Int)
    (pubkey : Bytes) : Py (LabeledObject × List RiskLabel) := do
  let payload ← verifyBody lib obj alg pubkey
  let o ← parseLabeledObject payload
  let recognized ← validateLabels o.labels
  return (o, recognized)

/-- A third-party statement, by registry, content id and subject. -/
structure TrustRef where
  registry : Bytes
  reference : Bytes
  subject : Bytes

def parseTrustRef (b : Bytes) : Py TrustRef := do
  let malformed := .negotiationError .negMalformed "object is not a well-formed trust-ref body"
  let some m ← decodeMap b | throw malformed
  match bstrField m 1, bstrField m 2, bstrField m 3 with
  | some registry, some reference, some subject => return { registry, reference, subject }
  | _, _, _ => throw malformed

/-- The reference is the content id of the record. -/
def TrustRef.bindsRecord (r : TrustRef) (record : Bytes) : Bool :=
  r.reference = contentIdBytes record

/-- `verify_trust_ref`, whose resolved reference has the fields of the trust reference. -/
def verifyTrustRef (lib : SignatureLibrary) (obj : Bytes) (_profile alg : Int)
    (pubkey externalRecord : Bytes) : Py TrustRef := do
  let payload ← verifyBody lib obj alg pubkey
  let r ← parseTrustRef payload
  raiseIf (r.bindsRecord externalRecord = false) (.negotiationError .referenceMismatch
    "trust-ref reference does not recompute over the record")
  return r

end Naalp.Python.Negotiation
