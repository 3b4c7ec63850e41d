import Naalp.Python.Cbor
import Naalp.Python.Policy
import Naalp.Python.Cose

/-! The evidence records of `impl/python/naalp/gateway.py`: gateway decisions, decision records and
egress attestations, with their parsers and verifiers.
-/

namespace Naalp.Python.Gateway

open Naalp.Foundation
open Naalp.Python.Cbor
open Naalp.Python.Cose
open Naalp.Python.Fields

def decisionAllow : Int := 0
def decisionDeny : Int := 1
def decisionHold : Int := 2

def isKnownDecision (code : Int) : Bool := code ∈ [decisionAllow, decisionDeny, decisionHold]

def gwMalformed (msg : String) : Exc := .gatewayError .gwMalformed msg

def orderingCorrespondenceOnly : Int := 0
def orderingSingleBoundary : Int := 1
def orderingExternalMechanism : Int := 2

def isKnownOrderingBasis (code : Int) : Bool :=
  code ∈ [orderingCorrespondenceOnly, orderingSingleBoundary, orderingExternalMechanism]

/-- An ordering claim; an empty field is absent. -/
structure OrderingDisclosure where
  basis : Int
  boundary : Bytes
  mechanism : Bytes
  relation : Bytes

/-- The pair of a field that is written unless it is empty. -/
def bstrPair (key : Int) (field : Bytes) : List (Value × Value) :=
  if field ≠ [] then [(.u key, .b field)] else []

def OrderingDisclosure.toCbor (d : OrderingDisclosure) : Value :=
  .m ([(.u 1, .u d.basis)] ++ bstrPair 2 d.boundary ++ bstrPair 3 d.mechanism
    ++ bstrPair 4 d.relation)

def OrderingDisclosure.validate (d : OrderingDisclosure) : Py Unit := do
  raiseIf (isKnownOrderingBasis d.basis = false) (.gatewayError .unknownOrderingBasis
    "ordering-disclosure basis is outside the closed set correspondence-only/single-boundary/external-mechanism")
  if d.basis = orderingCorrespondenceOnly then
    raiseIf (d.boundary ≠ [] ∨ d.mechanism ≠ [] ∨ d.relation ≠ [])
      (.gatewayError .orderingDisclosureMalformed
        "correspondence-only requires keys 2/3/4 absent")
  else if d.basis = orderingSingleBoundary then
    raiseIf (d.boundary = [] ∨ d.mechanism ≠ [] ∨ d.relation ≠ [])
      (.gatewayError .orderingDisclosureMalformed
        "single-boundary requires key 2 present, keys 3/4 absent")
  else
    raiseIf (d.boundary ≠ [] ∨ d.mechanism = [])
      (.gatewayError .orderingDisclosureMalformed
        "external-mechanism requires key 2 absent, key 3 present")

/-- An optional octet string: empty when absent, `none` when of another type. -/
def optionalBstr (pairs : List (Value × Value)) (k : Int) : Option Bytes :=
  match field k pairs with
  | none => some []
  | some (.b v) => some v
  | some _ => none

/-- An optional text: empty when absent, `none` when of another type. -/
def optionalTstr (pairs : List (Value × Value)) (k : Int) : Option PyStr :=
  match field k pairs with
  | none => some []
  | some (.t v) => some v
  | some _ => none

/-- `_ordering_from_cbor`. -/
def orderingFromCbor : Value → Option OrderingDisclosure
  | .m pairs => do
      let basis ← uintField pairs 1
      let boundary ← optionalBstr pairs 2
      let mechanism ← optionalBstr pairs 3
      let relation ← optionalBstr pairs 4
      return { basis, boundary, mechanism, relation }
  | _ => none

/-- A foreign evidence profile and its pinned revision. -/
structure ForeignProfilePin where
  id : PyStr
  revision : PyStr
  unknownField : Bool

def ForeignProfilePin.toCbor (p : ForeignProfilePin) : Value :=
  .m [(.u 1, .t p.id), (.u 2, .t p.revision)]

def ForeignProfilePin.validate (p : ForeignProfilePin) : Py Unit :=
  raiseIf (p.id = [] ∨ p.revision = [] ∨ p.unknownField) (.gatewayError .foreignProfileMalformed
    "foreign-profile-pin is not well-formed (id and revision are mandatory tstr, no other keys)")

/-- The keys that a pin may have. -/
def isPinKey : Value → Bool
  | .u k => k = 1 ∨ k = 2
  | _ => false

/-- `_foreign_profile_from_cbor`. -/
def foreignProfileFromCbor : Value → Option ForeignProfilePin
  | .m pairs => do
      let id ← optionalTstr pairs 1
      let revision ← optionalTstr pairs 2
      return { id, revision, unknownField := pairs.any fun pair => !isPinKey pair.1 }
  | _ => none

structure GatewayDecision where
  decision : Int
  action : Bytes
  policy : Bytes
  effect : Int
  ordering : Option OrderingDisclosure
  foreignProfile : Option ForeignProfilePin

def GatewayDecision.toMap (d : GatewayDecision) : Value :=
  .m ([(.u 1, .u d.decision), (.u 2, .b d.action), (.u 3, .b d.policy), (.u 4, .u d.effect)]
    ++ (d.ordering.map fun ordering => (.u 5, ordering.toCbor)).toList
    ++ (d.foreignProfile.map fun pin => (.u 6, pin.toCbor)).toList)

def GatewayDecision.bytes (d : GatewayDecision) : Py Bytes := encode d.toMap

/-- An optional embedded group: absent, or decoded, or refused. -/
def optionalGroup {α : Type} (pairs : List (Value × Value)) (k : Int) (fromCbor : Value → Option α)
    (refused : Exc) : Py (Option α) :=
  match field k pairs with
  | none => return none
  | some v => do
      let some group := fromCbor v | throw refused
      return some group

def parseDecision (b : Bytes) : Py GatewayDecision := do
  let v ←
    match decode b with
    | .ok v => pure v
    | .error (.nonCanonical _) =>
        throw (gwMalformed "decision body is not well-formed deterministic CBOR")
    | .error err => throw err
  let .m pairs := v | throw (gwMalformed "decision body is not a map")
  match field 1 pairs, field 2 pairs, field 3 pairs, field 4 pairs with
  | some (.u decision), some (.b action), some (.b policy), some (.u effect) => do
      let ordering ← optionalGroup pairs 5 orderingFromCbor
        (gwMalformed "field 5 (ordering) is present but malformed")
      let foreignProfile ← optionalGroup pairs 6 foreignProfileFromCbor
        (gwMalformed "field 6 (foreign-profile) is present but malformed")
      return { decision, action, policy, effect, ordering, foreignProfile }
  | _, _, _, _ => throw (gwMalformed "decision body missing or wrong-typed field 1-4")

/-- `alg_from_protected`. -/
def algFromProtected (prot : Bytes) : Py Int :=
  readAlg (gwMalformed "protected header is not a map")
    (gwMalformed "protected header has no alg") prot

/-- The evidence of a verified decision. -/
structure ResolvedDecision where
  decision : Int
  action : Bytes
  policy : Bytes
  effect : Int

def verifyDecision (lib : SignatureLibrary) (obj : Bytes) (profile alg : Int) (pubkey : Bytes)
    : Py ResolvedDecision := do
  let payload ← floorGate lib .gatewayError algFromProtected obj profile alg pubkey
  let d ← parseDecision payload
  raiseIf (isKnownDecision d.decision = false) (.gatewayError .unknownGatewayDecision
    ("decision code " ++ toString d.decision ++ " outside the closed set"))
  (d.ordering.elim (return ()) OrderingDisclosure.validate : Py Unit)
  (d.foreignProfile.elim (return ()) ForeignProfilePin.validate : Py Unit)
  return {
    decision := d.decision, action := d.action, policy := d.policy,
    effect := Policy.normalizeEffect d.effect
  }

/-- The checks of `verify_decision` after the signature. -/
def GatewayDecision.validate (d : GatewayDecision) : Py Unit := do
  raiseIf (isKnownDecision d.decision = false) (.gatewayError .unknownGatewayDecision
    ("decision code " ++ toString d.decision ++ " outside the closed set"))
  (d.ordering.elim (return ()) OrderingDisclosure.validate : Py Unit)
  (d.foreignProfile.elim (return ()) ForeignProfilePin.validate : Py Unit)

/-- The signature, the parser, and then these checks. -/
theorem verifyDecision_eq {lib : SignatureLibrary} {obj pubkey : Bytes} {profile alg : Int}
    : verifyDecision lib obj profile alg pubkey = (do
        let payload ← floorGate lib .gatewayError algFromProtected obj profile alg pubkey
        let d ← parseDecision payload
        d.validate
        return ⟨d.decision, d.action, d.policy, Policy.normalizeEffect d.effect⟩) := by
  simp only [verifyDecision, GatewayDecision.validate, bind_assoc]

-----------------------------------------------------------------------------------------
-- Decision records
-----------------------------------------------------------------------------------------

def termObserved : Int := 1
def termReported : Int := 2

def enforcementEnforced : Int := 1
def enforcementAdvised : Int := 2

/-- Whether a term was observed or reported; an empty source is absent. -/
structure TermDisposition where
  kind : Int
  source : Bytes

def TermDisposition.toCbor (td : TermDisposition) : Value :=
  .m ([(.u 1, .u td.kind)] ++ bstrPair 2 td.source)

/-- `_term_disposition_from_cbor`. -/
def termDispositionFromCbor : Value → Option TermDisposition
  | .m pairs => do
      let kind ← uintField pairs 1
      let source ← optionalBstr pairs 2
      return { kind, source }
  | _ => none

/-- The dispositions of a record's terms, a dict by field number. -/
abbrev Terms : Type := List (Int × TermDisposition)

/-- A governed decision; an empty consume reference, no terms and a zero enforcement are absent. -/
structure DecisionRecord where
  action : Bytes
  governing : List Bytes
  consume : Bytes
  outcome : Int
  ordering : OrderingDisclosure
  terms : Terms
  enforcement : Int

def termsMap (terms : Terms) : Value := .m (terms.map fun term => (.u term.1, term.2.toCbor))

def DecisionRecord.toMap (d : DecisionRecord) : Value :=
  .m ([(.u 1, .b d.action), (.u 2, .a (d.governing.map .b))] ++ bstrPair 3 d.consume
    ++ [(.u 4, .u d.outcome), (.u 5, d.ordering.toCbor)]
    ++ (if d.terms ≠ [] then [(.u 6, termsMap d.terms)] else [])
    ++ (if d.enforcement ≠ 0 then [(.u 7, .u d.enforcement)] else []))

def DecisionRecord.bytes (d : DecisionRecord) : Py Bytes := encode d.toMap

def decisionMalformed (msg : String) : Exc := .gatewayError .decisionMalformed msg

/-- One round of the loop over the governing set. -/
def governingItem : Value → Py Bytes
  | .b v => return v
  | _ => throw (decisionMalformed "governing array element not a bstr")

/-- `terms[k] = td`. -/
def Terms.set (terms : Terms) (k : Int) (td : TermDisposition) : Terms :=
  terms.filter (fun term => term.1 ≠ k) ++ [(k, td)]

/-- One round of the loop over the terms. -/
def readTerm (terms : Terms) : Value × Value → Py Terms
  | (.u k, val) => do
      let some td := termDispositionFromCbor
        val | throw (decisionMalformed "terms map value malformed")
      return terms.set k td
  | _ => throw (decisionMalformed "terms map key not a uint")

def termsField (pairs : List (Value × Value)) : Py Terms :=
  match field 6 pairs with
  | none => return []
  | some (.m entries) => entries.foldlM readTerm []
  | some _ => throw (decisionMalformed "field 6 (terms) wrong type")

def enforcementField (pairs : List (Value × Value)) : Py Int :=
  match field 7 pairs with
  | none => return 0
  | some (.u enforcement) => return enforcement
  | some _ => throw (decisionMalformed "field 7 (enforcement) wrong type")

def parseDecisionRecord (b : Bytes) : Py DecisionRecord := do
  let v ←
    match decode b with
    | .ok v => pure v
    | .error (.nonCanonical _) =>
        throw (decisionMalformed "decision-record body is not well-formed deterministic CBOR")
    | .error err => throw err
  let .m pairs := v | throw (decisionMalformed "decision-record body is not a map")
  let (some (.b action), some (.a items)) := (field 1 pairs, field 2 pairs)
    | throw (decisionMalformed "missing or wrong-typed field 1/2")
  let governing ← items.mapM governingItem
  let some consume := optionalBstr pairs 3
    | throw (decisionMalformed "field 3 (consume) wrong type")
  let some outcome := uintField pairs 4
    | throw (decisionMalformed "missing or wrong-typed field 4 (outcome)")
  let some disclosure := field 5 pairs
    | throw (decisionMalformed "missing mandatory field 5 (ordering)")
  let some ordering := orderingFromCbor disclosure
    | throw (decisionMalformed "field 5 (ordering) malformed")
  let terms ← termsField pairs
  let enforcement ← enforcementField pairs
  return { action, governing, consume, outcome, ordering, terms, enforcement }

/-- `_valid_decision_record_term_key`. -/
def validTermKey (k : Int) : Bool := 1 ≤ k ∧ k ≤ 5

def validateDecisionRecord (d : DecisionRecord) : Py Unit := do
  raiseIf (isKnownDecision d.outcome = false) (.gatewayError .unknownGatewayDecision
    ("decision-record outcome " ++ toString d.outcome ++ " outside the closed set"))
  d.ordering.validate
  raiseIf (d.outcome ≠ decisionAllow ∧ d.consume ≠ [])
    (decisionMalformed "a deny/hold outcome must not carry a field-3 consume reference")
  raiseIf (∃ term ∈ d.terms, validTermKey term.1 = false)
    (.gatewayError .termDispositionMalformed
      "a terms map key is outside the record's own field set 1..5")

def verifyDecisionRecord (lib : SignatureLibrary) (obj : Bytes) (profile alg : Int)
    (pubkey : Bytes) : Py DecisionRecord := do
  let payload ← floorGate lib .gatewayError algFromProtected obj profile alg pubkey
  let d ← parseDecisionRecord payload
  validateDecisionRecord d
  return d

-----------------------------------------------------------------------------------------
-- Egress attestations
-----------------------------------------------------------------------------------------

def bindingContentBound : Int := 0
def bindingContentFree : Int := 1

def isKnownBinding (code : Int) : Bool := code ∈ [bindingContentBound, bindingContentFree]

structure EgressAttestation where
  binding : Int
  digest : Bytes
  effect : Int
  audience : Bytes
  crossedAt : Int
  ordering : Option OrderingDisclosure

def EgressAttestation.toMap (a : EgressAttestation) : Value :=
  .m ([(.u 1, .u a.binding), (.u 2, .b a.digest), (.u 3, .u a.effect), (.u 4, .b a.audience),
      (.u 5, .u a.crossedAt)]
    ++ (a.ordering.map fun ordering => (.u 6, ordering.toCbor)).toList)

def EgressAttestation.bytes (a : EgressAttestation) : Py Bytes := encode a.toMap

def egMalformed (msg : String) : Exc := .gatewayError .egMalformed msg

def parseEgressAttestation (b : Bytes) : Py EgressAttestation := do
  let v ←
    match decode b with
    | .ok v => pure v
    | .error (.nonCanonical _) =>
        throw (egMalformed "egress-attestation body is not well-formed deterministic CBOR")
    | .error err => throw err
  let .m pairs := v | throw (egMalformed "egress-attestation body is not a map")
  match uintField pairs 1, bstrField pairs 2, uintField pairs 3, bstrField pairs 4,
    uintField pairs 5 with
  | some binding, some digest, some effect, some audience, some crossedAt => do
      let ordering ← optionalGroup pairs 6 orderingFromCbor
        (egMalformed "field 6 (ordering) is present but malformed")
      return { binding, digest, effect, audience, crossedAt, ordering }
  | _, _, _, _, _ => throw (egMalformed "missing or wrong-typed field 1-5")

def validateEgressAttestation (a : EgressAttestation) : Py Unit := do
  raiseIf (isKnownBinding a.binding = false) (.gatewayError .unknownEgressBinding
    "egress attestation binding code is outside the closed set content_bound/content_free")
  (a.ordering.elim (return ()) OrderingDisclosure.validate : Py Unit)

def verifyEgressAttestation (lib : SignatureLibrary) (obj : Bytes) (profile alg : Int)
    (pubkey : Bytes) : Py EgressAttestation := do
  let payload ← floorGate lib .gatewayError algFromProtected obj profile alg pubkey
  let a ← parseEgressAttestation payload
  validateEgressAttestation a
  return { a with effect := Policy.normalizeEffect a.effect }

end Naalp.Python.Gateway
