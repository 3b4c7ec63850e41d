import Naalp.Python.Description
import Naalp.Signatures.ProfileFloor

/-! Which signed objects are taken for which production.
The verifiers of directories, flows and negotiation objects sign under a header that names an
algorithm and no production, so only the shapes of the bodies tell the productions apart.
-/

namespace Naalp.Signatures

open Naalp.Foundation
open Naalp.Python
open Naalp.Python.Cbor
open Naalp.Python.Cose
open Naalp.Python.Fields

-----------------------------------------------------------------------------------------
-- Typed fields
-----------------------------------------------------------------------------------------

/-- A byte string is read from a key exactly when the key holds one. -/
theorem bstrField_eq_some {m : List (Value × Value)} {k : Int} {v : Bytes}
    : bstrField m k = some v ↔ field k m = some (.b v) := by
  unfold bstrField
  split
  · rename_i found
    simp [found]
  · rename_i other
    constructor
    · intro absent
      cases absent
    · intro found
      exact (other v found).elim

/-- An unsigned integer is read from a key exactly when the key holds one. -/
theorem uintField_eq_some {m : List (Value × Value)} {k v : Int}
    : uintField m k = some v ↔ field k m = some (.u v) := by
  unfold uintField
  split
  · rename_i found
    simp [found]
  · rename_i other
    constructor
    · intro absent
      cases absent
    · intro found
      exact (other v found).elim

/-- A text is read from a key exactly when the key holds one. -/
theorem tstrField_eq_some {m : List (Value × Value)} {k : Int} {v : PyStr}
    : tstrField m k = some v ↔ field k m = some (.t v) := by
  unfold tstrField
  split
  · rename_i found
    simp [found]
  · rename_i other
    constructor
    · intro absent
      cases absent
    · intro found
      exact (other v found).elim

/-- The members are read exactly from a list of byte strings, by induction on the list. -/
theorem memberItems_eq_ok {items : List Value} {members : List Bytes}
    : Description.memberItems items = .ok members ↔ items = members.map .b := by
  induction items generalizing members with
  | nil => cases members <;> simp [Description.memberItems]
  | cons item rest ih =>
      cases item with
      | b v =>
          simp only [Description.memberItems, bind_eq_ok, ih, pure_eq_ok, Except.ok.injEq]
          constructor
          · intro read
            obtain ⟨later, rfl, rfl⟩ := read
            rfl
          · intro same
            cases members with
            | nil => cases same
            | cons first later =>
                obtain ⟨head, tail⟩ := List.cons.inj same
                exact ⟨later, tail, by rw [Value.b.inj head]⟩
      | _ => cases members <;> simp [Description.memberItems]

/-- The items of a flow's approvals are read as those of a directory's members. -/
theorem approvalItems_eq_ok {items : List Value} {approvals : List Bytes}
    : Flows.approvalItems items = .ok approvals ↔ items = approvals.map .b := by
  rw [← memberItems_eq_ok]
  induction items generalizing approvals with
  | nil => rfl
  | cons item rest ih =>
      cases item with
      | b v => simp only [Flows.approvalItems, Description.memberItems, bind_eq_ok, ih]
      | _ => simp [Flows.approvalItems, Description.memberItems]

-----------------------------------------------------------------------------------------
-- What an accepted object signs
-----------------------------------------------------------------------------------------

/-- The object signs the body map. -/
def SignsMap (obj : Bytes) (m : List (Value × Value)) : Prop :=
  ∃ prot payload sig, parseSign1Raw obj = .ok (prot, payload, sig) ∧ decode payload = .ok (.m m)

theorem SignsMap.unique {obj : Bytes} {m m' : List (Value × Value)} (signs : SignsMap obj m)
    (again : SignsMap obj m') : m = m' := by
  obtain ⟨prot, payload, sig, parsed, decoded⟩ := signs
  obtain ⟨_, _, _, parsed', decoded'⟩ := again
  obtain ⟨-, rfl, -⟩ := Except.ok.inj (parsed.symm.trans parsed')
  exact Value.m.inj (Except.ok.inj (decoded.symm.trans decoded'))

section Bodies

variable {b : Bytes} {m : List (Value × Value)}

theorem descriptionDecodeMap_eq_ok
    : Description.decodeMap b = .ok m ↔ decode b = .ok (.m m) := by
  unfold Description.decodeMap
  split <;> simp_all

/-- The reading of a map adds no condition to the decoder. -/
theorem flowsDecodeMap_eq_ok : Flows.decodeMap b = .ok m ↔ decode b = .ok (.m m) := by
  rw [Flows.decodeMap, bind_eq_ok]
  constructor
  · intro decoded
    obtain ⟨v, decoded, rest⟩ := decoded
    cases v with
    | m pairs =>
        obtain rfl := Except.ok.inj rest
        exact decoded
    | _ => cases rest
  · intro decoded
    exact ⟨_, decoded, rfl⟩

theorem decodeMap_eq_ok : decodeMap b = .ok (some m) ↔ decode b = .ok (.m m) := by
  unfold decodeMap
  split <;> simp_all

end Bodies

section Verifiers

variable {lib : SignatureLibrary} {obj : Bytes} {profile alg : Int} {pubkey : Bytes}

/-- A directory is parsed exactly from a map with its three fields, whatever else is in it. -/
theorem parseDirectory_eq_ok {b : Bytes} {d : Description.Directory}
    : Description.parseDirectory b = .ok d
      ↔ ∃ m, decode b = .ok (.m m) ∧ field 1 m = some (.b d.directory)
        ∧ field 2 m = some (.u d.version) ∧ field 3 m = some (.a (d.members.map .b)) := by
  simp only [Description.parseDirectory, bind_eq_ok, descriptionDecodeMap_eq_ok]
  constructor
  · intro parsed
    obtain ⟨m, decoded, rest⟩ := parsed
    split at rest
    · rename_i first second third
      simp only [bind_eq_ok, memberItems_eq_ok, pure_eq_ok, Except.ok.injEq] at rest
      obtain ⟨members, rfl, rfl⟩ := rest
      exact ⟨m, decoded, bstrField_eq_some.mp first, uintField_eq_some.mp second, third⟩
    · cases rest
  · intro shaped
    obtain ⟨m, decoded, first, second, third⟩ := shaped
    refine ⟨m, decoded, ?_⟩
    simp only [bstrField_eq_some.mpr first, uintField_eq_some.mpr second, third,
      memberItems_eq_ok.mpr rfl, ok_bind, pure_eq_ok]

/-- A flow is parsed exactly from a map with its three fields and a ceiling of the lattice. -/
theorem parseFlowOpen_eq_ok {b : Bytes} {o : Flows.FlowOpen}
    : Flows.parseFlowOpen b = .ok o
      ↔ ∃ m, decode b = .ok (.m m) ∧ field 1 m = some (.b o.flowId)
        ∧ field 2 m = some (.u o.effectCeiling) ∧ field 3 m = some (.a (o.approvals.map .b))
        ∧ Flows.inLattice o.effectCeiling = true := by
  simp only [Flows.parseFlowOpen, bind_eq_ok, flowsDecodeMap_eq_ok]
  constructor
  · intro parsed
    obtain ⟨m, decoded, rest⟩ := parsed
    split at rest
    · rename_i first second third
      simp only [bind_eq_ok, raiseIf_eq_ok, exists_const, approvalItems_eq_ok, pure_eq_ok,
        Except.ok.injEq, Bool.not_eq_false] at rest
      obtain ⟨inside, approvals, rfl, rfl⟩ := rest
      exact ⟨m, decoded, bstrField_eq_some.mp first, uintField_eq_some.mp second, third, inside⟩
    · cases rest
  · intro shaped
    obtain ⟨m, decoded, first, second, third, inside⟩ := shaped
    refine ⟨m, decoded, ?_⟩
    simp only [bstrField_eq_some.mpr first, uintField_eq_some.mpr second, third, inside,
      approvalItems_eq_ok.mpr rfl, ok_bind, pure_eq_ok]
    rfl

/-- A directory body is the body of a flow exactly when its version is an effect. -/
theorem parseFlowOpen_iff_directory {b : Bytes} {o : Flows.FlowOpen}
    : Flows.parseFlowOpen b = .ok o
      ↔ Description.parseDirectory b = .ok ⟨o.flowId, o.effectCeiling, o.approvals⟩
        ∧ Flows.inLattice o.effectCeiling = true := by
  simp only [parseFlowOpen_eq_ok, parseDirectory_eq_ok]
  constructor
  · intro shaped
    obtain ⟨m, decoded, first, second, third, inside⟩ := shaped
    exact ⟨⟨m, decoded, first, second, third⟩, inside⟩
  · intro shaped
    obtain ⟨⟨m, decoded, first, second, third⟩, inside⟩ := shaped
    exact ⟨m, decoded, first, second, third, inside⟩

/-- What passes the gate with the floor passes the bare one. -/
theorem bareGate_of_floorGate {error : Kind → String → Exc} {refused : Exc}
    {algFromProtected : Bytes → Py Int} {payload : Bytes}
    (passed : floorGate lib error algFromProtected obj profile alg pubkey = .ok payload)
    : bareGate lib refused obj alg pubkey = .ok payload := by
  obtain ⟨prot, sig, tbs, parsed, -, -, -, signed, verified⟩ := floorGate_eq_ok.mp passed
  exact bareGate_eq_ok.mpr ⟨prot, sig, tbs, parsed, signed, verified⟩

theorem signsMap_of_bareGate {refused : Exc} {payload : Bytes} {m : List (Value × Value)}
    (passed : bareGate lib refused obj alg pubkey = .ok payload)
    (decoded : decode payload = .ok (.m m)) : SignsMap obj m := by
  obtain ⟨prot, sig, -, parsed, -, -⟩ := bareGate_eq_ok.mp passed
  exact ⟨prot, payload, sig, parsed, decoded⟩

-----------------------------------------------------------------------------------------
-- The productions and their shapes
-----------------------------------------------------------------------------------------

/-- The productions that are signed under the bare header. -/
inductive Production where
  | directory
  | flowOpen
  | flowCommit
  | message
  | labeledObject
  | trustRef
  deriving DecidableEq, Repr

/-- The verifier of a production accepts the object, for some flow or record where it takes one. -/
def AcceptedAs (lib : SignatureLibrary) (obj : Bytes) (profile alg : Int) (pubkey : Bytes)
    : Production → Prop
  | .directory => ∃ d, Description.verifyDirectory lib obj profile alg pubkey = .ok d
  | .flowOpen => ∃ o, Flows.verifyFlowOpen lib obj profile alg pubkey = .ok o
  | .flowCommit => ∃ flow conts c,
      Flows.verifyFlowCommit lib obj profile alg pubkey flow conts = .ok c
  | .message => ∃ m, Negotiation.verifyMessage lib obj profile alg pubkey = .ok m
  | .labeledObject => ∃ r, Negotiation.verifyLabeledObject lib obj profile alg pubkey = .ok r
  | .trustRef => ∃ record r,
      Negotiation.verifyTrustRef lib obj profile alg pubkey record = .ok r

/-- The fields that tell the body of a production from others: chain heads have 48 octets and
content ids 50.
-/
def Shape (m : List (Value × Value)) : Production → Prop
  | .directory | .flowOpen => (∃ id, field 1 m = some (.b id)) ∧ (∃ n, field 2 m = some (.u n))
      ∧ ∃ items, field 3 m = some (.a items)
  | .flowCommit => (∃ id, field 1 m = some (.b id))
      ∧ ∃ head, field 2 m = some (.b head) ∧ head.length = 48
  | .message => (∃ id, field 1 m = some (.b id)) ∧ (∃ n, field 2 m = some (.u n))
      ∧ ∃ n, field 3 m = some (.u n)
  | .labeledObject => ∃ n, field 1 m = some (.u n)
  | .trustRef => (∃ id, field 1 m = some (.b id))
      ∧ ∃ reference, field 2 m = some (.b reference) ∧ reference.length = 50

/-- The final head of a chain is a digest, by induction over its links. -/
theorem length_verifyLinks {fid prev final : Bytes} {ceiling i : Int}
    {conts : List Flows.Continuation} (start : prev.length = 48)
    (walked : Flows.verifyLinks fid ceiling i prev conts = .ok final) : final.length = 48 := by
  induction conts generalizing i prev with
  | nil =>
      obtain rfl := Except.ok.inj walked
      exact start
  | cons c rest ih =>
      simp only [Flows.verifyLinks, Flows.Continuation.head, bind_eq_ok, pure_eq_ok,
        Except.ok.injEq] at walked
      obtain ⟨_, -, head, ⟨body, -, rfl⟩, walked⟩ := walked
      exact ih (Sha2.length_sha384 body) walked

theorem length_verifyChain {flow : Flows.FlowOpen} {conts : List Flows.Continuation} {final : Bytes}
    (walked : Flows.verifyChain flow conts = .ok final) : final.length = 48 := by
  simp only [Flows.verifyChain, Flows.FlowOpen.head, bind_eq_ok, pure_eq_ok,
    Except.ok.injEq] at walked
  obtain ⟨_, -, fid, -, prev, ⟨body, -, rfl⟩, walked⟩ := walked
  exact length_verifyLinks (Sha2.length_sha384 body) walked

/-- An accepted commit has the shape of one. -/
theorem shape_flowCommit {flow : Flows.FlowOpen} {conts : List Flows.Continuation}
    {c : Flows.FlowCommit}
    (accepted : Flows.verifyFlowCommit lib obj profile alg pubkey flow conts = .ok c)
    : ∃ m, SignsMap obj m ∧ Shape m .flowCommit := by
  simp only [Flows.verifyFlowCommit, bind_eq_ok, flowsDecodeMap_eq_ok] at accepted
  obtain ⟨payload, passed, m, decoded, rest⟩ := accepted
  refine ⟨m, signsMap_of_bareGate passed decoded, ?_⟩
  split at rest
  · rename_i id head first second
    simp only [bind_eq_ok, raiseIf_eq_ok, exists_const, not_not, ne_eq] at rest
    obtain ⟨_, -, -, final, walked, rfl, -⟩ := rest
    exact ⟨⟨_, bstrField_eq_some.mp first⟩, _, bstrField_eq_some.mp second,
      length_verifyChain walked⟩
  · cases rest

/-- An accepted message has the shape of one. -/
theorem shape_message {msg : Negotiation.Message}
    (accepted : Negotiation.verifyMessage lib obj profile alg pubkey = .ok msg)
    : ∃ m, SignsMap obj m ∧ Shape m .message := by
  simp only [Negotiation.verifyMessage, Negotiation.verifyBody, Negotiation.parseMessage,
    bind_eq_ok] at accepted
  obtain ⟨payload, passed, parsed, ⟨decoded?, decoded, rest⟩, -⟩ := accepted
  cases decoded? with
  | none => cases rest
  | some m =>
      refine ⟨m, signsMap_of_bareGate passed (decodeMap_eq_ok.mp decoded), ?_⟩
      dsimp only at rest
      split at rest
      · rename_i first second third _
        exact ⟨⟨_, bstrField_eq_some.mp first⟩, ⟨_, uintField_eq_some.mp second⟩,
          _, uintField_eq_some.mp third⟩
      · cases rest

/-- An accepted labelled object has the shape of one. -/
theorem shape_labeledObject {r : Negotiation.LabeledObject × List Negotiation.RiskLabel}
    (accepted : Negotiation.verifyLabeledObject lib obj profile alg pubkey = .ok r)
    : ∃ m, SignsMap obj m ∧ Shape m .labeledObject := by
  simp only [Negotiation.verifyLabeledObject, Negotiation.verifyBody,
    Negotiation.parseLabeledObject, bind_eq_ok] at accepted
  obtain ⟨payload, passed, parsed, ⟨decoded?, decoded, rest⟩, -⟩ := accepted
  cases decoded? with
  | none => cases rest
  | some m =>
      refine ⟨m, signsMap_of_bareGate passed (decodeMap_eq_ok.mp decoded), ?_⟩
      dsimp only at rest
      split at rest
      · rename_i first _
        exact ⟨_, uintField_eq_some.mp first⟩
      · cases rest

/-- An accepted trust reference has the shape of one. -/
theorem shape_trustRef {record : Bytes} {r : Negotiation.TrustRef}
    (accepted : Negotiation.verifyTrustRef lib obj profile alg pubkey record = .ok r)
    : ∃ m, SignsMap obj m ∧ Shape m .trustRef := by
  simp only [Negotiation.verifyTrustRef, Negotiation.verifyBody, Negotiation.parseTrustRef,
    bind_eq_ok, raiseIf_eq_ok, exists_const, Bool.not_eq_false] at accepted
  obtain ⟨payload, passed, parsed, ⟨decoded?, decoded, rest⟩, binds, -⟩ := accepted
  cases decoded? with
  | none => cases rest
  | some m =>
      refine ⟨m, signsMap_of_bareGate passed (decodeMap_eq_ok.mp decoded), ?_⟩
      dsimp only at rest
      split at rest
      · rename_i first second third
        obtain rfl := Except.ok.inj rest
        simp only [Negotiation.TrustRef.bindsRecord, decide_eq_true_eq] at binds
        refine ⟨⟨_, bstrField_eq_some.mp first⟩, _, bstrField_eq_some.mp second, ?_⟩
        rw [binds]
        exact length_contentIdBytes record
      · cases rest

theorem shape_flowOpen {o : Flows.FlowOpen}
    (accepted : Flows.verifyFlowOpen lib obj profile alg pubkey = .ok o)
    : ∃ m, SignsMap obj m ∧ Shape m .flowOpen := by
  simp only [Flows.verifyFlowOpen, bind_eq_ok, parseFlowOpen_eq_ok] at accepted
  obtain ⟨payload, passed, m, decoded, first, second, third, -⟩ := accepted
  exact ⟨m, signsMap_of_bareGate passed decoded, ⟨_, first⟩, ⟨_, second⟩, _, third⟩

theorem shape_directory {d : Description.Directory}
    (accepted : Description.verifyDirectory lib obj profile alg pubkey = .ok d)
    : ∃ m, SignsMap obj m ∧ Shape m .directory := by
  simp only [Description.verifyDirectory, Description.verifySign1, bind_eq_ok,
    parseDirectory_eq_ok] at accepted
  obtain ⟨payload, passed, m, decoded, first, second, third⟩ := accepted
  have bare := @bareGate_of_floorGate _ _ _ _ _ _ .typeError _ _ passed
  exact ⟨m, signsMap_of_bareGate bare decoded, ⟨_, first⟩, ⟨_, second⟩, _, third⟩

/-- An accepted object signs a body of the shape of its production, by its verifier. -/
theorem shape_of_acceptedAs {p : Production} (accepted : AcceptedAs lib obj profile alg pubkey p)
    : ∃ m, SignsMap obj m ∧ Shape m p := by
  cases p with
  | directory =>
      obtain ⟨d, accepted⟩ := accepted
      exact shape_directory accepted
  | flowOpen =>
      obtain ⟨o, accepted⟩ := accepted
      exact shape_flowOpen accepted
  | flowCommit =>
      obtain ⟨flow, conts, c, accepted⟩ := accepted
      exact shape_flowCommit accepted
  | message =>
      obtain ⟨msg, accepted⟩ := accepted
      exact shape_message accepted
  | labeledObject =>
      obtain ⟨r, accepted⟩ := accepted
      exact shape_labeledObject accepted
  | trustRef =>
      obtain ⟨record, r, accepted⟩ := accepted
      exact shape_trustRef accepted

/-- Two productions share a body shape. -/
def SameShape (p q : Production) : Prop :=
  p = q ∨ (p = .directory ∧ q = .flowOpen) ∨ (p = .flowOpen ∧ q = .directory)

/-- One body has the shapes of two productions only when these are the same: a field has one type,
and a chain head has fewer octets than a content id.
-/
theorem sameShape_of_shapes {m : List (Value × Value)} {p q : Production} (left : Shape m p)
    (right : Shape m q) : SameShape p q := by
  cases p <;> cases q <;> simp only [Shape] at left right <;> grind [SameShape]

end Verifiers

-----------------------------------------------------------------------------------------
-- One production for each object
-----------------------------------------------------------------------------------------

/-- An object that two verifiers accept under a key is a directory and a flow: a directory is
accepted as a flow exactly when its version is an effect, and a flow as a directory exactly when
its header meets the profile floor.
Witness: every production has a shape of its own, up to the two whose maps have the same keys;
each verifier is a gate with a parser of that shape.
-/
theorem accepted_as_one_production (lib : SignatureLibrary) (obj : Bytes) (profile alg : Int)
    (pubkey : Bytes)
    : (∀ p q, AcceptedAs lib obj profile alg pubkey p → AcceptedAs lib obj profile alg pubkey q
        → SameShape p q)
      ∧ (∀ d, Description.verifyDirectory lib obj profile alg pubkey = .ok d
        → (AcceptedAs lib obj profile alg pubkey .flowOpen ↔ Flows.inLattice d.version = true))
      ∧ ∀ o, Flows.verifyFlowOpen lib obj profile alg pubkey = .ok o
        → (AcceptedAs lib obj profile alg pubkey .directory ↔ MeetsFloor obj profile alg) := by
  refine ⟨?_, ?_, ?_⟩
  · intro p q left right
    obtain ⟨m, signs, shape⟩ := shape_of_acceptedAs left
    obtain ⟨m', again, shape'⟩ := shape_of_acceptedAs right
    obtain rfl := signs.unique again
    exact sameShape_of_shapes shape shape'
  · intro d accepted
    simp only [Description.verifyDirectory, Description.verifySign1, bind_eq_ok] at accepted
    obtain ⟨payload, passed, parsed⟩ := accepted
    have bare := @bareGate_of_floorGate _ _ _ _ _ _
      (.contError .badSignature "flow-open signature does not verify") _ _ passed
    simp only [AcceptedAs, Flows.verifyFlowOpen, bare, ok_bind, parseFlowOpen_iff_directory]
    constructor
    · intro opened
      obtain ⟨o, again, inside⟩ := opened
      obtain rfl := Except.ok.inj (parsed.symm.trans again)
      exact inside
    · intro inside
      exact ⟨⟨d.directory, d.version, d.members⟩, parsed, inside⟩
  · intro o accepted
    simp only [Flows.verifyFlowOpen, bind_eq_ok, parseFlowOpen_iff_directory] at accepted
    obtain ⟨payload, passed, parsed, -⟩ := accepted
    constructor
    · intro listed
      obtain ⟨d, listed⟩ := listed
      simp only [Description.verifyDirectory, Description.verifySign1, bind_eq_ok] at listed
      obtain ⟨payload', floor, -⟩ := listed
      exact meetsFloor_of_floorGate floor
    · intro meets
      refine ⟨⟨o.flowId, o.effectCeiling, o.approvals⟩, ?_⟩
      have floor := @floorGate_of_meetsFloor _ _ _ _ _ _ .descriptionError
        (Description.malformed "protected header has no alg")
        (Description.malformed "protected header has no alg") _ passed meets
      have gate : Description.verifySign1 lib obj profile alg pubkey = .ok payload := floor
      rw [Description.verifyDirectory, gate, ok_bind]
      exact parsed

/-- A directory of one member in its second version. -/
def sampleDirectory : Description.Directory := ⟨[1], 2, [[5]]⟩

/-- A directory is signed, accepted as one, and accepted as the opening of a flow. -/
theorem sampleDirectory_accepted
    : ∃ obj, Description.signDirectory digestLibrary sampleDirectory algMldsa65 [9] = .ok obj
      ∧ Description.verifyDirectory digestLibrary obj 1 algMldsa65 (fitTo mldsa65PubSize [9])
        = .ok sampleDirectory
      ∧ Flows.verifyFlowOpen digestLibrary obj 1 algMldsa65 (fitTo mldsa65PubSize [9])
        = .ok ⟨[1], 2, [[5]]⟩ := by
  have header : bareProtectedHeader algMldsa65 = .ok sampleHeader := rfl
  have body : sampleDirectory.bytes = .ok [0xa3, 1, 0x41, 1, 2, 2, 3, 0x81, 0x41, 5] := rfl
  obtain ⟨obj, signed, named, passes⟩ :=
    @sample_signed [0xa3, 1, 0x41, 1, 2, 2, 3, 0x81, 0x41, 5] (by decide)
  have meets : MeetsFloor obj 1 algMldsa65 := ⟨named, rfl, by decide⟩
  have gate : Description.verifySign1 digestLibrary obj 1 algMldsa65 (fitTo mldsa65PubSize [9])
      = .ok _ := floorGate_of_meetsFloor (passes .typeError) meets
  refine ⟨obj, ?_, ?_, ?_⟩
  · rw [Description.signDirectory, header, ok_bind, body]
    exact signed
  · rw [Description.verifyDirectory, gate, ok_bind]
    rfl
  · rw [Flows.verifyFlowOpen, passes, ok_bind]
    rfl

/-- The signed sample directory is also accepted as a flow, since its version is an effect. -/
theorem accepted_as_one_production_sample
    : ∃ obj, Description.signDirectory digestLibrary sampleDirectory algMldsa65 [9] = .ok obj
      ∧ SameShape .directory .flowOpen
      ∧ (AcceptedAs digestLibrary obj 1 algMldsa65 (fitTo mldsa65PubSize [9]) .flowOpen
        ↔ Flows.inLattice sampleDirectory.version = true)
      ∧ (AcceptedAs digestLibrary obj 1 algMldsa65 (fitTo mldsa65PubSize [9]) .directory
        ↔ MeetsFloor obj 1 algMldsa65) := by
  obtain ⟨obj, signed, listed, opened⟩ := sampleDirectory_accepted
  obtain ⟨exclusive, asFlow, asDirectory⟩ := accepted_as_one_production digestLibrary obj 1
    algMldsa65 (fitTo mldsa65PubSize [9])
  exact ⟨obj, signed, exclusive _ _ ⟨_, listed⟩ ⟨_, opened⟩, asFlow _ listed,
    asDirectory _ opened⟩

/-- One object is accepted as two productions under one key. -/
theorem directory_accepted_as_flow
    : ∃ obj, Description.signDirectory digestLibrary sampleDirectory algMldsa65 [9] = .ok obj
      ∧ AcceptedAs digestLibrary obj 1 algMldsa65 (fitTo mldsa65PubSize [9]) .directory
      ∧ AcceptedAs digestLibrary obj 1 algMldsa65 (fitTo mldsa65PubSize [9]) .flowOpen
      ∧ Production.directory ≠ Production.flowOpen := by
  obtain ⟨obj, signed, listed, opened⟩ := sampleDirectory_accepted
  exact ⟨obj, signed, ⟨_, listed⟩, ⟨_, opened⟩, by decide⟩

end Naalp.Signatures
