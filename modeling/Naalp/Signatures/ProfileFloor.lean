import Naalp.Envelope.SignVerify
import Naalp.Python.Continuation
import Naalp.Python.Gateway
import Naalp.Python.Naming
import Naalp.Python.Negotiation
import Naalp.Signatures.Parsing

/-! The profile floor in the verifiers of signed objects that take a profile. -/

namespace Naalp.Signatures

open Naalp.Foundation
open Naalp.Python
open Naalp.Python.Cbor
open Naalp.Python.Cose

/-- The header of the object names `alg`, and `alg` is registered at or above the floor of the
profile.
-/
structure MeetsFloor (obj : Bytes) (profile alg : Int) : Prop where
  header : HeaderAlg alg obj
  registered : (algLevel alg).2 = true
  level : profileMinLevel profile ≤ (algLevel alg).1

/-- The header of the object names `alg`, which is not Ed25519 alone, nor ML-DSA-65 on the
Sovereign profile.
-/
structure Suited (obj : Bytes) (profile alg : Int) : Prop where
  header : HeaderAlg alg obj
  notEd25519 : alg ≠ algEd25519
  notBelow : profile = profileSovereign → alg ≠ algMldsa65

section Gates

variable {lib : SignatureLibrary} {obj : Bytes} {profile alg : Int} {pubkey payload : Bytes}

/-- The bare gate passes exactly what the key signed, with no look at the header's alg. -/
theorem bareGate_eq_ok {refused : Exc}
    : bareGate lib refused obj alg pubkey = .ok payload
      ↔ ∃ prot sig tbs, parseSign1Raw obj = .ok (prot, payload, sig)
        ∧ toBeSignedRaw prot payload = .ok tbs
        ∧ coseVerify1Raw lib alg pubkey tbs sig = .ok true := by
  simp only [bareGate, bind_eq_ok, Prod.exists, raiseIf_eq_ok, exists_const, pure_eq_ok,
    Except.ok.injEq, Bool.not_eq_false]
  constructor
  · intro passed
    obtain ⟨prot, _, sig, parsed, tbs, signed, _, verified, rfl, rfl⟩ := passed
    exact ⟨prot, sig, tbs, parsed, signed, verified⟩
  · intro passed
    obtain ⟨prot, sig, tbs, parsed, signed, verified⟩ := passed
    exact ⟨prot, payload, sig, parsed, tbs, signed, true, verified, rfl, rfl⟩

/-- The other gate passes exactly what the key signed under a header with the alg, at a level
above the floor.
-/
theorem floorGate_eq_ok {error : Kind → String → Exc} {algFromProtected : Bytes → Py Int}
    : floorGate lib error algFromProtected obj profile alg pubkey = .ok payload
      ↔ ∃ prot sig tbs, parseSign1Raw obj = .ok (prot, payload, sig)
        ∧ algFromProtected prot = .ok alg ∧ (algLevel alg).2 = true
        ∧ profileMinLevel profile ≤ (algLevel alg).1 ∧ toBeSignedRaw prot payload = .ok tbs
        ∧ coseVerify1Raw lib alg pubkey tbs sig = .ok true := by
  simp only [floorGate, bind_eq_ok, Prod.exists, raiseIf_eq_ok, exists_const, pure_eq_ok,
    Except.ok.injEq, Bool.not_eq_false, not_not, not_lt, ne_eq]
  constructor
  · intro passed
    obtain ⟨prot, _, sig, parsed, _, named, registered, level, rfl, tbs, signed, _, verified, rfl,
      rfl⟩ := passed
    exact ⟨prot, sig, tbs, parsed, named, registered, level, signed, verified⟩
  · intro passed
    obtain ⟨prot, sig, tbs, parsed, named, registered, level, signed, verified⟩ := passed
    exact ⟨prot, payload, sig, parsed, alg, named, registered, level, rfl, tbs, signed, true,
      verified, rfl, rfl⟩

/-- The algs that a signature is checked under. -/
theorem alg_of_coseVerify1Raw {tbs sig : Bytes} {valid : Bool}
    (checked : coseVerify1Raw lib alg pubkey tbs sig = .ok valid)
    : alg = algMldsa65 ∨ alg = algMldsa87 ∨ alg = algEd25519 := by
  unfold coseVerify1Raw at checked
  split_ifs at checked with isMldsa isEd
  · rcases isMldsa with is65 | is87
    · exact .inl is65
    · exact .inr (.inl is87)
  · exact .inr (.inr isEd)

theorem negative_of_coseVerify1Raw {tbs sig : Bytes} {valid : Bool}
    (checked : coseVerify1Raw lib alg pubkey tbs sig = .ok valid)
    : alg < 0 := by
  rcases alg_of_coseVerify1Raw checked with rfl | rfl | rfl
  all_goals decide

/-- An alg that is found is in the header, by induction on the pairs. -/
theorem mem_of_firstAlg {pairs : List (Value × Value)} (found : firstAlg pairs = some alg)
    : (.u 1, .n alg) ∈ pairs ∨ (.u 1, .u alg) ∈ pairs := by
  induction pairs with
  | nil => cases found
  | cons pair rest ih =>
      unfold firstAlg at found
      split at found
      · cases found
      · rename_i same
        obtain ⟨rfl, rfl⟩ := List.cons.inj same
        obtain rfl := Option.some.inj found
        exact .inl List.mem_cons_self
      · rename_i same
        obtain ⟨rfl, rfl⟩ := List.cons.inj same
        obtain rfl := Option.some.inj found
        exact .inr List.mem_cons_self
      · rename_i same
        obtain ⟨rfl, rfl⟩ := List.cons.inj same
        rcases ih found with negative | unsigned
        · exact .inl (List.mem_cons_of_mem _ negative)
        · exact .inr (List.mem_cons_of_mem _ unsigned)

/-- An alg that is in the header is found, as no other entry has its key. -/
theorem firstAlg_of_mem {pairs : List (Value × Value)} (distinct : (pairs.map encodedKey).Nodup)
    (member : (.u 1, .n alg) ∈ pairs)
    : firstAlg pairs = some alg := by
  induction pairs with
  | nil => cases member
  | cons pair rest ih =>
      have unique : ∀ v, pair = (.u 1, v) → v = .n alg := by
        intro v same
        exact Envelope.value_unique distinct (same ▸ List.mem_cons_self) member
      have later : pair ≠ (.u 1, .n alg) → (.u 1, .n alg) ∈ rest := by
        intro other
        exact (List.mem_cons.mp member).resolve_left fun same => other same.symm
      unfold firstAlg
      split
      · rename_i none
        cases none
      · rename_i same
        obtain ⟨rfl, rfl⟩ := List.cons.inj same
        rw [Value.n.inj (unique _ rfl)]
      · rename_i same
        obtain ⟨rfl, rfl⟩ := List.cons.inj same
        cases unique _ rfl
      · rename_i notNegative _ same
        obtain ⟨rfl, rfl⟩ := List.cons.inj same
        exact ih (List.nodup_cons.mp distinct).2
          (later (notNegative alg))

/-- Both readers search the decoded map for the first integer under label 1. -/
theorem firstAlg_of_decode {prot : Bytes} {pairs : List (Value × Value)}
    (decoded : decode prot = .ok (.m pairs)) (negative : alg < 0)
    : firstAlg pairs = some alg ↔ (.u 1, .n alg) ∈ pairs := by
  obtain ⟨-, members, distinct⟩ := encodable_m.mp (decode_eq_ok.mp decoded).1.encodable
  constructor
  · intro found
    rcases mem_of_firstAlg found with standing | unsigned
    · exact standing
    · have atLeast := (encodable_u.mp (members _ unsigned).2).1
      omega
  · exact firstAlg_of_mem distinct

/-- A negative alg is read exactly from a map with it. -/
theorem readAlg_eq_ok {notMap noAlg : Exc} {prot : Bytes} (negative : alg < 0)
    : readAlg notMap noAlg prot = .ok alg
      ↔ ∃ pairs, decode prot = .ok (.m pairs) ∧ (.u 1, .n alg) ∈ pairs := by
  rw [readAlg, bind_eq_ok]
  constructor
  · intro read
    obtain ⟨v, decoded, rest⟩ := read
    cases v with
    | m pairs =>
        dsimp only at rest
        split at rest
        · rename_i found
          obtain rfl := Except.ok.inj rest
          exact ⟨pairs, decoded, (firstAlg_of_decode decoded negative).mp found⟩
        · cases rest
    | _ => cases rest
  · intro standing
    obtain ⟨pairs, decoded, member⟩ := standing
    refine ⟨_, decoded, ?_⟩
    simp only [(firstAlg_of_decode decoded negative).mpr member, pure_eq_ok]

theorem meetsFloor_of_floorGate {error : Kind → String → Exc} {notMap noAlg : Exc}
    (passed : floorGate lib error (readAlg notMap noAlg) obj profile alg pubkey = .ok payload)
    : MeetsFloor obj profile alg := by
  obtain ⟨prot, sig, tbs, parsed, named, registered, level, signed, verified⟩ :=
    floorGate_eq_ok.mp passed
  obtain ⟨pairs, decoded, member⟩ := (readAlg_eq_ok (negative_of_coseVerify1Raw verified)).mp named
  exact ⟨⟨prot, payload, sig, pairs, parsed, decoded, member⟩, registered, level⟩

/-- What passes the bare gate and meets the floor passes the gate with the floor. -/
theorem floorGate_of_meetsFloor {error : Kind → String → Exc} {notMap noAlg refused : Exc}
    (passed : bareGate lib refused obj alg pubkey = .ok payload)
    (meets : MeetsFloor obj profile alg)
    : floorGate lib error (readAlg notMap noAlg) obj profile alg pubkey = .ok payload := by
  obtain ⟨prot, sig, tbs, parsed, signed, verified⟩ := bareGate_eq_ok.mp passed
  obtain ⟨⟨_, _, _, pairs, again, decoded, member⟩, registered, level⟩ := meets
  obtain ⟨rfl, rfl, rfl⟩ := Except.ok.inj (parsed.symm.trans again)
  have negative := negative_of_coseVerify1Raw verified
  exact floorGate_eq_ok.mpr ⟨prot, sig, tbs, parsed,
    (readAlg_eq_ok negative).mpr ⟨pairs, decoded, member⟩, registered, level, signed, verified⟩

/-- Past the bare gate, the floor is met exactly by the suited objects.
Witness: a signature is checked under one of three algs, each with its own level.
-/
theorem meetsFloor_iff_suited {refused : Exc}
    (passed : bareGate lib refused obj alg pubkey = .ok payload)
    : MeetsFloor obj profile alg ↔ Suited obj profile alg := by
  obtain ⟨_, _, _, -, -, verified⟩ := bareGate_eq_ok.mp passed
  have floor : ∀ bound, profileMinLevel profile ≤ bound
      ↔ if profile = profileSovereign then 5 ≤ bound else 3 ≤ bound := by
    intro bound
    rw [profileMinLevel]
    split <;> rfl
  constructor
  · intro meets
    obtain ⟨header, -, level⟩ := meets
    refine ⟨header, ?_, ?_⟩
    · intro isEd
      rw [floor, isEd] at level
      split at level
      all_goals cases level
    · intro sovereign is65
      rw [floor, if_pos sovereign, is65] at level
      exact absurd level (by decide)
  · intro suited
    obtain ⟨header, notEd25519, notBelow⟩ := suited
    rcases alg_of_coseVerify1Raw verified with rfl | rfl | rfl
    · have notSovereign : profile ≠ profileSovereign := fun sovereign => notBelow sovereign rfl
      exact ⟨header, rfl, (floor _).mpr (by rw [if_neg notSovereign]; decide)⟩
    · exact ⟨header, rfl, (floor _).mpr (by split <;> decide)⟩
    · exact (notEd25519 rfl).elim

end Gates

section Verifiers

variable (lib : SignatureLibrary) (obj : Bytes) (profile alg : Int) (pubkey : Bytes)

/-- The object is accepted by one of the verifiers of `negotiation.py` and `continuation.py`. -/
inductive AcceptedBare : Prop where
  | message (msg : Negotiation.Message)
      (accepted : Negotiation.verifyMessage lib obj profile alg pubkey = .ok msg)
  | labeledObject (labeled : Negotiation.LabeledObject × List Negotiation.RiskLabel)
      (accepted : Negotiation.verifyLabeledObject lib obj profile alg pubkey = .ok labeled)
  | trustRef (record : Bytes) (ref : Negotiation.TrustRef)
      (accepted : Negotiation.verifyTrustRef lib obj profile alg pubkey record = .ok ref)
  | flowOpen (flow : Flows.FlowOpen)
      (accepted : Flows.verifyFlowOpen lib obj profile alg pubkey = .ok flow)
  | flowCommit (flow : Flows.FlowOpen) (conts : List Flows.Continuation)
      (commit : Flows.FlowCommit)
      (accepted : Flows.verifyFlowCommit lib obj profile alg pubkey flow conts = .ok commit)

variable {lib obj profile alg pubkey}

/-- These verifiers pass the bare gate first, whatever their profile. -/
theorem AcceptedBare.bareGate (accepted : AcceptedBare lib obj profile alg pubkey)
    : ∃ refused payload, Cose.bareGate lib refused obj alg pubkey = .ok payload := by
  cases accepted with
  | message msg accepted =>
      obtain ⟨payload, passed, -⟩ := bind_eq_ok.mp accepted
      exact ⟨_, payload, passed⟩
  | labeledObject labeled accepted =>
      obtain ⟨payload, passed, -⟩ := bind_eq_ok.mp accepted
      exact ⟨_, payload, passed⟩
  | trustRef record ref accepted =>
      obtain ⟨payload, passed, -⟩ := bind_eq_ok.mp accepted
      exact ⟨_, payload, passed⟩
  | flowOpen flow accepted =>
      obtain ⟨payload, passed, -⟩ := bind_eq_ok.mp accepted
      exact ⟨_, payload, passed⟩
  | flowCommit flow conts commit accepted =>
      obtain ⟨payload, passed, -⟩ := bind_eq_ok.mp accepted
      exact ⟨_, payload, passed⟩

end Verifiers

/-- Of the objects that the verifiers of `negotiation.py` and `continuation.py` accept, exactly
the suited ones meet the profile floor, and exactly these pass the gate of `naming.py`. Every
object that the verifiers of `naming.py` and `gateway.py` accept meets it.
-/
theorem accepted_meets_floor_iff (lib : SignatureLibrary)
    : (∀ obj profile alg pubkey, AcceptedBare lib obj profile alg pubkey
        → (MeetsFloor obj profile alg ↔ Suited obj profile alg)
          ∧ ((∃ payload, Naming.verifySign1 lib obj profile alg pubkey = .ok payload)
            ↔ Suited obj profile alg))
      ∧ (∀ obj profile alg pubkey payload,
        Naming.verifySign1 lib obj profile alg pubkey = .ok payload
        → MeetsFloor obj profile alg)
      ∧ (∀ obj profile alg pubkey decision,
        Gateway.verifyDecision lib obj profile alg pubkey = .ok decision
        → MeetsFloor obj profile alg)
      ∧ (∀ obj profile alg pubkey record,
        Gateway.verifyDecisionRecord lib obj profile alg pubkey = .ok record
        → MeetsFloor obj profile alg)
      ∧ (∀ obj profile alg pubkey attestation,
        Gateway.verifyEgressAttestation lib obj profile alg pubkey = .ok attestation
        → MeetsFloor obj profile alg) := by
  refine ⟨?_, ?_, ?_, ?_, ?_⟩
  · intro obj profile alg pubkey accepted
    obtain ⟨refused, payload, passed⟩ := accepted.bareGate
    have suited := @meetsFloor_iff_suited _ _ profile _ _ _ _ passed
    refine ⟨suited, ?_⟩
    rw [← suited]
    constructor
    · intro gate
      obtain ⟨_, gate⟩ := gate
      exact meetsFloor_of_floorGate gate
    · intro meets
      exact ⟨payload, floorGate_of_meetsFloor passed meets⟩
  · intro obj profile alg pubkey payload accepted
    exact meetsFloor_of_floorGate accepted
  all_goals
    intro obj profile alg pubkey decision accepted
    obtain ⟨payload, gate, -⟩ := bind_eq_ok.mp accepted
    exact meetsFloor_of_floorGate gate

-----------------------------------------------------------------------------------------
-- What is signed under a bare header
-----------------------------------------------------------------------------------------

section Signing

variable {lib : SignatureLibrary} {alg : Int} {set : MlDsa} {seed pubkey prot payload : Bytes}

/-- An ML-DSA signature over a payload of any octets makes an object. -/
theorem coseSign1_ok (signs : Envelope.SignsVerifiably lib) (isMldsa : mldsa alg = .ok set)
    (key : lib.mldsaPublic set seed = .ok pubkey) (protBound : prot.length < 2 ^ 64)
    (payloadBound : payload.length < 2 ^ 64)
    : ∃ obj, coseSign1 lib alg seed prot payload = .ok obj := by
  obtain ⟨tbs, message⟩ := Envelope.toBeSignedRaw_ok protBound payloadBound
  obtain ⟨sig, signature, size, -⟩ := signs.mldsa key tbs [] (Nat.zero_le _)
  have sigBound : sig.length < 2 ^ 64 := by
    rw [size]
    cases set <;> decide
  obtain ⟨obj, assembled⟩ := Envelope.assembleSign1Raw_ok protBound payloadBound sigBound
  exact ⟨obj, by simp [coseSign1, message, mldsaSign, isMldsa, signature, assembled]⟩

/-- The object passes the bare gate under the key, and its header is the one that was written. -/
theorem bareGate_coseSign1 (signs : Envelope.SignsVerifiably lib) (isMldsa : mldsa alg = .ok set)
    (key : lib.mldsaPublic set seed = .ok pubkey) {obj : Bytes}
    (signed : coseSign1 lib alg seed prot payload = .ok obj)
    : (∃ sig, parseSign1Raw obj = .ok (prot, payload, sig))
      ∧ ∀ refused, bareGate lib refused obj alg pubkey = .ok payload := by
  obtain ⟨-, -, verifies⟩ := @Envelope.coseVerify1Raw_mldsa lib alg set isMldsa
  simp only [coseSign1, mldsaSign, isMldsa, ok_bind, bind_eq_ok] at signed
  obtain ⟨tbs, message, sig, signature, assembled⟩ := signed
  obtain ⟨sig', signature', -, valid⟩ := signs.mldsa key tbs [] (Nat.zero_le _)
  obtain rfl : sig = sig' := Except.ok.inj (signature.symm.trans signature')
  have parsed := Envelope.parseSign1Raw_assembled assembled
  exact ⟨⟨sig, parsed⟩, fun refused =>
    bareGate_eq_ok.mpr ⟨prot, sig, tbs, parsed, message, (verifies pubkey tbs sig).trans valid⟩⟩

end Signing

/-- The header with ML-DSA-65 alone. -/
def sampleHeader : Bytes := [0xa1, 0x01, 0x38, 0x30]

/-- What the sample key signs under the bare header passes the bare gate, and its header names the
alg.
-/
theorem sample_signed {payload : Bytes} (short : payload.length < 2 ^ 64)
    : ∃ obj, coseSign1 digestLibrary algMldsa65 [9] sampleHeader payload = .ok obj
      ∧ HeaderAlg algMldsa65 obj
      ∧ ∀ refused, bareGate digestLibrary refused obj algMldsa65 (fitTo mldsa65PubSize [9])
        = .ok payload := by
  have signs := Envelope.digestLibrary_signsVerifiably
  obtain ⟨obj, signed⟩ := @coseSign1_ok digestLibrary algMldsa65 .mlDsa65 [9] _ sampleHeader _ signs
    rfl rfl (by decide) short
  obtain ⟨⟨sig, parsed⟩, passes⟩ := bareGate_coseSign1 signs rfl rfl signed
  exact ⟨obj, signed, ⟨_, _, sig, [(.u 1, .n algMldsa65)], parsed, rfl, List.mem_singleton_self _⟩,
    passes⟩

def sampleFlow : Flows.FlowOpen := { flowId := [1], effectCeiling := 0, approvals := [] }

/-- A flow opened with an ML-DSA-65 signature is accepted on every profile. -/
theorem sampleFlow_accepted
    : ∃ obj, Flows.signFlowOpen digestLibrary sampleFlow algMldsa65 [9] = .ok obj
      ∧ HeaderAlg algMldsa65 obj
      ∧ ∀ profile, Flows.verifyFlowOpen digestLibrary obj profile algMldsa65
        (fitTo mldsa65PubSize [9])
        = .ok sampleFlow := by
  have header : bareProtectedHeader algMldsa65 = .ok sampleHeader := by rfl
  have body : sampleFlow.bytes = .ok [0xa3, 1, 0x41, 1, 2, 0, 3, 0x80] := by rfl
  obtain ⟨obj, signed, named, passes⟩ :=
    @sample_signed [0xa3, 1, 0x41, 1, 2, 0, 3, 0x80] (by decide)
  refine ⟨obj, ?_, named, fun profile => ?_⟩
  · rw [Flows.signFlowOpen, header, ok_bind, body]
    exact signed
  · rw [Flows.verifyFlowOpen, passes, ok_bind]
    rfl

/-- A decision, signed and accepted on the Public profile. -/
theorem sampleDecision_accepted
    : ∃ obj decision, Gateway.verifyDecision digestLibrary obj 1 algMldsa65
      (fitTo mldsa65PubSize [9])
      = .ok decision := by
  obtain ⟨obj, -, named, passes⟩ :=
    @sample_signed [0xa4, 1, 0, 2, 0x41, 1, 3, 0x41, 2, 4, 0] (by decide)
  have meets : MeetsFloor obj 1 algMldsa65 := ⟨named, rfl, by decide⟩
  have gate : floorGate digestLibrary .gatewayError Gateway.algFromProtected obj 1 algMldsa65
      (fitTo mldsa65PubSize [9]) = .ok _ := floorGate_of_meetsFloor (passes .typeError) meets
  obtain ⟨d, parsed, valid⟩ : ∃ d, Gateway.parseDecision [0xa4, 1, 0, 2, 0x41, 1, 3, 0x41, 2, 4, 0]
      = .ok d ∧ d.validate = .ok () := ⟨_, rfl, rfl⟩
  refine ⟨obj, ⟨d.decision, d.action, d.policy, Policy.normalizeEffect d.effect⟩, ?_⟩
  rw [Gateway.verifyDecision_eq, gate, ok_bind, parsed, ok_bind, valid]
  rfl

/-- The sample flow meets the floor of the Public profile and passes the gate of `naming.py` there;
on the Sovereign profile it does neither. The sample decision meets it.
-/
theorem accepted_meets_floor_samples
    : (∃ obj, Flows.signFlowOpen digestLibrary sampleFlow algMldsa65 [9] = .ok obj
        ∧ MeetsFloor obj 1 algMldsa65
        ∧ (∃ payload, Naming.verifySign1 digestLibrary obj 1 algMldsa65 (fitTo mldsa65PubSize [9])
          = .ok payload)
        ∧ ¬ MeetsFloor obj profileSovereign algMldsa65)
      ∧ ∃ obj decision, Gateway.verifyDecision digestLibrary obj 1 algMldsa65
        (fitTo mldsa65PubSize [9])
          = .ok decision ∧ MeetsFloor obj 1 algMldsa65 := by
  obtain ⟨bare, -, decisions, -⟩ := accepted_meets_floor_iff digestLibrary
  constructor
  · obtain ⟨obj, signed, named, accepted⟩ := sampleFlow_accepted
    have suited : Suited obj 1 algMldsa65 := ⟨named, by decide, by decide⟩
    obtain ⟨meets, gated⟩ := bare obj 1 algMldsa65 _ (.flowOpen sampleFlow (accepted 1))
    obtain ⟨sovereign, -⟩ := bare obj profileSovereign algMldsa65 _
      (.flowOpen sampleFlow (accepted _))
    exact ⟨obj, signed, meets.mpr suited, gated.mpr suited,
      fun above => (sovereign.mp above).notBelow rfl rfl⟩
  · obtain ⟨obj, decision, verified⟩ := sampleDecision_accepted
    exact ⟨obj, decision, verified, decisions _ _ _ _ _ verified⟩

/-- A flow opened with an ML-DSA-65 signature is accepted on the Sovereign profile. -/
theorem sovereign_flow_below_floor
    : ∃ obj, Flows.signFlowOpen digestLibrary sampleFlow algMldsa65 [9] = .ok obj
      ∧ Flows.verifyFlowOpen digestLibrary obj profileSovereign algMldsa65
        (fitTo mldsa65PubSize [9]) = .ok sampleFlow
      ∧ ¬ MeetsFloor obj profileSovereign algMldsa65 := by
  obtain ⟨obj, signed, -, accepted⟩ := sampleFlow_accepted
  refine ⟨obj, signed, accepted profileSovereign, ?_⟩
  intro meets
  exact absurd meets.level (by decide)

end Naalp.Signatures
