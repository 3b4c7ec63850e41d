import Naalp.Envelope.Acceptance
import Naalp.Python.Envelope

/-! Rotation objects and all others. The verifier of each form refuses the objects of the other;
what both check of a body header and a payload does not depend on the form.
-/

namespace Naalp.Python.Envelope

open Naalp.Foundation
open Naalp.Python.Cbor
open Naalp.Python.Cose

-----------------------------------------------------------------------------------------
-- The body checks
-----------------------------------------------------------------------------------------

/-- The object that a payload carries, with its content id and the types and bounds of its fields
checked.
-/
def readBody (payload : Bytes) : Py Object := do
  let .m pairs ← decodeBounded payload maxNestingDepth
    | throw (.envelopeError .malformed "body not a map")
  checkContentId pairs
  objectFromMap pairs

/-- The ranges, the copies and the version in the header, and the critical extensions; returns the
header's alg.
-/
def checkBody (knownCext : List Int) (prot : Bytes) (o : Object) : Py Int := do
  checkRanges o
  let halg ← checkHeader prot o
  checkCext knownCext o.cext
  return halg

/-- The checks of a body header and a payload that both verifiers make, without the dispatch on the
kind.
-/
def bodyChecks (knownCext : List Int) (prot payload : Bytes) : Py (Object × Int) := do
  let o ← readBody payload
  return (o, ← checkBody knownCext prot o)

/-- The payload reads as a rotation object, whatever its header and ranges. -/
def ReadsRotation (payload : Bytes) : Prop :=
  ∃ o, readBody payload = .ok o ∧ isRotationObject o.channel o.kind = true

def singleSignature : Exc :=
  .envelopeError .rotationUnauthorized "single-signature rotation missing the old-key co-signature"

def notARotation : Exc :=
  .envelopeError .unknownKind "tag-98 permitted only for the Identity Rotation object"

def unregisteredKind : Exc := .envelopeError .unknownKind "kind/channel not a registered surface"

section Verifying

variable (lib : SignatureLibrary) (profile : Int) (kindValidator : Option (Int → Int → Bool))
  (prot payload : Bytes)

/-- What `verify` does after the body checks and the dispatch. -/
def finishSingle (pubkey sig : Bytes) (o : Object) (halg : Int) : Py Object := do
  raiseIf (kindAccepted kindValidator o = false) unregisteredKind
  let tbs ← toBeSignedRaw prot payload
  checkSignature lib profile pubkey halg o tbs sig
  return o

/-- What `verify_rotation_object` does after the body checks and the dispatch. -/
def finishRotation (oldAlg : Int) (oldPk : Bytes) (newAlg : Int) (newPk : Bytes)
    (legs : List (Bytes × Bytes)) (o : Object) (halg : Int) : Py Object := do
  raiseIf (kindAccepted kindValidator o = false) unregisteredKind
  raiseIf (isCompositeAlg halg) (.envelopeError .malformed "composite-inside-rotation is undecided")
  raiseIf (halg ≠ newAlg) (.envelopeError .keyAlgMismatch "body header alg is not the new key alg")
  let (oldLeg, newLeg) ← rotationLegs profile oldAlg newAlg legs
  checkLeg lib prot payload oldPk oldLeg "old leg does not verify"
  checkLeg lib prot payload newPk newLeg "new leg does not verify"
  return o

end Verifying

/-- One verdict on a header and a payload decides the outcomes of both verifiers: refused, it is the
error of both, unless `verify` saw before it that the object is a rotation; passed, each verifier
goes on with the objects of its own form and refuses those of the other.
-/
structure DecidedByBody (payload : Bytes) (verdict : Py (Object × Int))
    (single rotation : Py Object) (single' rotation' : Object → Int → Py Object) : Prop where
  refused {e : Exc} : verdict = .error e → rotation = .error e
    ∧ (single = .error e ∨ single = .error singleSignature ∧ ReadsRotation payload)
  plain {o : Object} {halg : Int} : verdict = .ok (o, halg)
    → isRotationObject o.channel o.kind = false
    → single = single' o halg ∧ rotation = .error notARotation
  rotating {o : Object} {halg : Int} : verdict = .ok (o, halg)
    → isRotationObject o.channel o.kind = true
    → single = .error singleSignature ∧ rotation = rotation' o halg

section Bodies

variable {lib : SignatureLibrary} {profile alg oldAlg newAlg : Int} {pubkey oldPk newPk : Bytes}
  {kindValidator : Option (Int → Int → Bool)} {knownCext : List Int} {prot payload sig obj : Bytes}
  {legs : List (Bytes × Bytes)}

/-- The rotation verifier makes the body checks first. -/
theorem verifyRotationObject_eq (size : obj.length ≤ maxObjectSize)
    (parsed : parseSignRaw obj = .ok (prot, payload, legs))
    : verifyRotationObject lib profile oldAlg oldPk newAlg newPk kindValidator obj knownCext = (do
        let (o, halg) ← bodyChecks knownCext prot payload
        raiseIf (isRotationObject o.channel o.kind = false) notARotation
        finishRotation lib profile kindValidator prot payload oldAlg oldPk newAlg newPk legs o halg)
      := by
  simp only [verifyRotationObject, raiseIf_neg (Nat.not_lt.mpr size), parsed, ok_bind,
    checkRotationBody, bodyChecks, readBody, checkBody, finishRotation, notARotation,
      unregisteredKind]
  cases decodeBounded payload maxNestingDepth with
  | error e => rfl
  | ok v =>
      cases v with
      | m pairs => simp only [ok_bind, bind_assoc, pure_bind]
      | _ => rfl

/-- The verifier of single signatures dispatches between its two groups of body checks. -/
theorem verify_eq (size : obj.length ≤ maxObjectSize)
    (parsed : parseSign1Raw obj = .ok (prot, payload, sig))
    : verify lib profile alg pubkey kindValidator obj knownCext = (do
        let o ← readBody payload
        raiseIf (isRotationObject o.channel o.kind) singleSignature
        let halg ← checkBody knownCext prot o
        finishSingle lib profile kindValidator prot payload pubkey sig o halg) := by
  simp only [verify, raiseIf_neg (Nat.not_lt.mpr size), parsed, ok_bind, readBody, checkBody,
    finishSingle, singleSignature, unregisteredKind]
  cases decodeBounded payload maxNestingDepth with
  | error e => rfl
  | ok v =>
      cases v with
      | m pairs => simp only [ok_bind, bind_assoc, pure_bind]
      | _ => rfl

/-- For every header and payload, in whatever objects of the two forms they come.
Witness: both verifiers make the body checks and then dispatch on the kind; only `verify` looks
at the kind before them.
-/
theorem decidedByBody {obj' : Bytes} (size : obj.length ≤ maxObjectSize)
    (parsed : parseSign1Raw obj = .ok (prot, payload, sig)) (size' : obj'.length ≤ maxObjectSize)
    (parsed' : parseSignRaw obj' = .ok (prot, payload, legs))
    : DecidedByBody payload (bodyChecks knownCext prot payload)
        (verify lib profile alg pubkey kindValidator obj knownCext)
        (verifyRotationObject lib profile oldAlg oldPk newAlg newPk kindValidator obj' knownCext)
        (finishSingle lib profile kindValidator prot payload pubkey sig)
        (finishRotation lib profile kindValidator prot payload oldAlg oldPk newAlg newPk legs) := by
  rw [verify_eq size parsed, verifyRotationObject_eq size' parsed']
  constructor
  case refused =>
    intro e failed
    refine ⟨by rw [failed, error_bind], ?_⟩
    rcases bind_eq_error.mp failed with unread | ⟨o, read, failed⟩
    · exact .inl (by rw [unread, error_bind])
    rw [read, ok_bind]
    by_cases rotation : isRotationObject o.channel o.kind = true
    · refine .inr ⟨?_, o, read, rotation⟩
      rw [raiseIf_pos rotation, error_bind]
    · refine .inl ?_
      rcases bind_eq_error.mp failed with unchecked | ⟨halg, -, passed⟩
      · rw [raiseIf_neg rotation, ok_bind, unchecked, error_bind]
      · cases passed
  case plain =>
    intro o halg passed other
    obtain ⟨o', read, rest⟩ := bind_eq_ok.mp passed
    obtain ⟨halg', checked, same⟩ := bind_eq_ok.mp rest
    obtain ⟨rfl, rfl⟩ := Prod.mk.inj (Except.ok.inj same)
    constructor
    · rw [read, ok_bind, raiseIf_neg (by simp [other]), ok_bind, checked, ok_bind]
    · simp only [passed, ok_bind, raiseIf_pos other, error_bind]
  case rotating =>
    intro o halg passed rotation
    obtain ⟨o', read, rest⟩ := bind_eq_ok.mp passed
    obtain ⟨halg', checked, same⟩ := bind_eq_ok.mp rest
    obtain ⟨rfl, rfl⟩ := Prod.mk.inj (Except.ok.inj same)
    constructor
    · rw [read, ok_bind, raiseIf_pos rotation, error_bind]
    · have dispatched : ¬ isRotationObject o'.channel o'.kind = false := by simp [rotation]
      simp only [passed, ok_bind, raiseIf_neg dispatched]

end Bodies

-----------------------------------------------------------------------------------------
-- Both keys
-----------------------------------------------------------------------------------------

/-- A leg verifies under a trusted key and alg, at the level of the profile. -/
structure LegVerifies (lib : SignatureLibrary) (profile : Int) (prot payload : Bytes) (alg : Int)
    (pk : Bytes) (leg : Bytes × Bytes) : Prop where
  header : algFromProtected leg.1 = .ok alg
  signature : ∃ tbs, signatureToBeSigned prot alg payload = .ok tbs
    ∧ coseVerify1Raw lib alg pk tbs leg.2 = .ok true
  registered : (algLevel alg).2 = true
  floor : profileMinLevel profile ≤ (algLevel alg).1
  notComposite : isCompositeAlg alg = false

/-- Two legs, the first under the old key and the second under the new one, over the header and
payload that the object comes from; the header names the alg of the new key.
-/
def CoSigned (lib : SignatureLibrary) (profile oldAlg : Int) (oldPk : Bytes) (newAlg : Int)
    (newPk : Bytes) (knownCext : List Int) (obj : Bytes) (o : Object) : Prop :=
  ∃ prot payload old new, parseSignRaw obj = .ok (prot, payload, [old, new])
    ∧ bodyChecks knownCext prot payload = .ok (o, newAlg)
    ∧ LegVerifies lib profile prot payload oldAlg oldPk old
    ∧ LegVerifies lib profile prot payload newAlg newPk new

theorem isRotationObject_iff {channel kind : Int}
    : isRotationObject channel kind = true ↔ channel = 3 ∧ kind = 0 := by
  simp [isRotationObject]

section Accepting

variable {lib : SignatureLibrary} {profile alg oldAlg newAlg : Int} {pubkey oldPk newPk : Bytes}
  {kindValidator : Option (Int → Int → Bool)} {knownCext : List Int} {obj : Bytes} {o : Object}

theorem checkLeg_eq_ok {prot payload pk : Bytes} {leg : Int × Bytes} {refused : String}
    {done : Unit}
    : checkLeg lib prot payload pk leg refused = .ok done
      ↔ ∃ tbs, signatureToBeSigned prot leg.1 payload = .ok tbs
        ∧ coseVerify1Raw lib leg.1 pk tbs leg.2 = .ok true := by
  simp only [checkLeg, bind_eq_ok, raiseIf_eq_ok, Bool.not_eq_false]
  grind

/-- The legs of a rotation are two, in the order of the keys, with the algs of their headers
and none of them composite.
-/
theorem rotationLegs_eq_ok {legs : List (Bytes × Bytes)} {oldLeg newLeg : Int × Bytes}
    (ordered : rotationLegs profile oldAlg newAlg legs = .ok (oldLeg, newLeg))
    : ∃ old new, legs = [old, new] ∧ oldLeg = (oldAlg, old.2) ∧ newLeg = (newAlg, new.2)
      ∧ (algFromProtected old.1 = .ok oldAlg ∧ algFromProtected new.1 = .ok newAlg)
      ∧ (isCompositeAlg oldAlg = false ∧ isCompositeAlg newAlg = false)
      ∧ ((algLevel oldAlg).2 = true ∧ profileMinLevel profile ≤ (algLevel oldAlg).1)
      ∧ (algLevel newAlg).2 = true ∧ profileMinLevel profile ≤ (algLevel newAlg).1 := by
  unfold rotationLegs at ordered
  split at ordered
  · simp only [bind_eq_ok, raiseIf_eq_ok, exists_const, pure_eq_ok, Except.ok.injEq, Prod.mk.injEq,
      checkLegFloor, not_or, not_not, Bool.not_eq_false, Bool.not_eq_true, not_lt] at ordered
    obtain ⟨_, oldRead, _, newRead, pure, ⟨rfl, rfl⟩, newLevel, oldLevel, rfl, rfl⟩ := ordered
    exact ⟨_, _, rfl, rfl, rfl, ⟨oldRead, newRead⟩, pure, oldLevel, newLevel⟩
  · cases ordered

/-- An accepted rotation is co-signed by both keys, and has the kind of a rotation.
Witness: the checks of the verifier are read off in order.
-/
theorem coSigned_of_accepted
    (accepted : verifyRotationObject lib profile oldAlg oldPk newAlg newPk kindValidator obj
      knownCext = .ok o)
    : CoSigned lib profile oldAlg oldPk newAlg newPk knownCext obj o
      ∧ isRotationObject o.channel o.kind = true := by
  have whole := accepted
  simp only [verifyRotationObject, bind_eq_ok, raiseIf_eq_ok, exists_const, Prod.exists, not_lt]
    at whole
  obtain ⟨size, prot, payload, legs, parsed, -⟩ := whole
  rw [verifyRotationObject_eq size parsed] at accepted
  simp only [finishRotation, bind_eq_ok, raiseIf_eq_ok, exists_const, Prod.exists, pure_eq_ok,
    Except.ok.injEq, not_not, Bool.not_eq_false] at accepted
  obtain ⟨o, halg, passed, rotation, -, -, rfl, oldAlg', oldSig, newAlg', newSig, ordered, _,
    oldPassed, _, newPassed, rfl⟩ := accepted
  obtain ⟨old, new, rfl, same, same', ⟨oldRead, newRead⟩, ⟨oldPure, newPure⟩, oldLevel, newLevel⟩ :=
    rotationLegs_eq_ok ordered
  obtain ⟨rfl, rfl⟩ := Prod.mk.inj same
  obtain ⟨rfl, rfl⟩ := Prod.mk.inj same'
  have oldSigned := checkLeg_eq_ok.mp oldPassed
  have newSigned := checkLeg_eq_ok.mp newPassed
  refine ⟨⟨prot, payload, old, new, parsed, passed, ?_, ?_⟩, rotation⟩
  · exact ⟨oldRead, oldSigned, oldLevel.1, oldLevel.2, oldPure⟩
  · exact ⟨newRead, newSigned, newLevel.1, newLevel.2, newPure⟩

end Accepting

/-- Rotation objects are accepted with both keys and in their own form only, and the body checks of
the two verifiers give one verdict: for every octet string, and for every header and payload in
objects of the two forms.
-/
theorem rotation_objects_apart (lib : SignatureLibrary) (profile alg oldAlg newAlg : Int)
    (pubkey oldPk newPk : Bytes) (kindValidator : Option (Int → Int → Bool)) (knownCext : List Int)
    : let single := fun obj => verify lib profile alg pubkey kindValidator obj knownCext
      let rotation := fun obj =>
        verifyRotationObject lib profile oldAlg oldPk newAlg newPk kindValidator obj knownCext
      (∀ obj o, single obj = .ok o → ¬ (o.channel = 3 ∧ o.kind = 0))
        ∧ (∀ obj o, rotation obj = .ok o → o.channel = 3 ∧ o.kind = 0)
        ∧ (∀ obj o, rotation obj = .ok o
          → CoSigned lib profile oldAlg oldPk newAlg newPk knownCext obj o)
        ∧ (∀ prot payload obj sig obj' legs, obj.length ≤ maxObjectSize
          → parseSign1Raw obj = .ok (prot, payload, sig) → obj'.length ≤ maxObjectSize
          → parseSignRaw obj' = .ok (prot, payload, legs)
          → DecidedByBody payload (bodyChecks knownCext prot payload) (single obj) (rotation obj')
            (finishSingle lib profile kindValidator prot payload pubkey sig)
            (finishRotation lib profile kindValidator prot payload oldAlg oldPk newAlg newPk legs))
      := by
  refine ⟨?_, ?_, ?_, ?_⟩
  · intro obj o accepted isRotation
    obtain ⟨parts, stages⟩ := (verify_eq_ok ..).mp accepted
    have refused := stages.notRotation.symm.trans (isRotationObject_iff.mpr isRotation)
    cases refused
  · intro obj o accepted
    exact isRotationObject_iff.mp (coSigned_of_accepted accepted).2
  · intro obj o accepted
    exact (coSigned_of_accepted accepted).1
  · intro prot payload obj sig obj' legs size parsed size' parsed'
    exact decidedByBody size parsed size' parsed'

end Naalp.Python.Envelope
