import Naalp.Implementations.Verifiers
import Naalp.Signatures.ProfileFloor

/-! Which protected headers a checked signature covers, for the verifiers that rebuild the
header from the alg they parsed.
-/

namespace Naalp.Signatures

open Naalp.Foundation
open Naalp.Python
open Naalp.Python.Cbor
open Naalp.Python.Cose
open Naalp.Implementations

def bareHeader (alg : Int) : Value := .m [(.u 1, .n alg)]

/-- The octets are exactly the encoding of a one-entry header with a negative alg. -/
def Bare (prot : Bytes) : Prop := ∃ alg, encode (bareHeader alg) = .ok prot

/-- The header carries the integer `alg` under label 1. -/
def Carries (prot : Bytes) (alg : Int) : Prop :=
  ∃ m, decode prot = .ok (.m m) ∧ ((.u 1, .n alg) ∈ m ∨ (.u 1, .u alg) ∈ m)

/-- (Covers message prot alg tbs) says that the checked octets `tbs` are the message over the
protected octets `prot`, and that `alg` is the integer which these carry.
-/
def Covers (message : Bytes → Value) (prot : Bytes) (alg : Int) (tbs : Bytes) : Prop :=
  encode (message prot) = .ok tbs ∧ Carries prot alg

def sign1Message (payload prot : Bytes) : Value :=
  .a [.t signature1Label, .b prot, .b [], .b payload]

def legMessage (bodyProt payload sprot : Bytes) : Value :=
  .a [.t signatureLabel, .b bodyProt, .b sprot, .b [], .b payload]

theorem decode_bareHeader {alg : Int} {prot : Bytes} (written : encode (bareHeader alg) = .ok prot)
    : decode prot = .ok (bareHeader alg) := by
  have within : depth (bareHeader alg) ≤ unboundedDepth := by
    simp [bareHeader, depth, depthPairs, unboundedDepth]
  exact decodeBounded_encode written within

theorem canonical_b {v : Bytes} (bound : v.length < 2 ^ 64) : Canonical 1 (.b v) :=
  ⟨encodable_b.mpr bound, .b v, Nat.le_refl 1⟩

theorem sign1Message_canonical {payload prot : Bytes} (payloadBound : payload.length < 2 ^ 64)
    (protBound : prot.length < 2 ^ 64)
    : Canonical 2 (sign1Message payload prot) := by
  have label : Canonical 1 (.t signature1Label) := ⟨rfl, .t _, Nat.le_refl 1⟩
  refine canonical_a.mpr ⟨by simp, ?_⟩
  simpa using ⟨label, canonical_b protBound, canonical_b (by simp), canonical_b payloadBound⟩

theorem legMessage_canonical {bodyProt payload sprot : Bytes}
    (bodyBound : bodyProt.length < 2 ^ 64) (payloadBound : payload.length < 2 ^ 64)
    (protBound : sprot.length < 2 ^ 64)
    : Canonical 2 (legMessage bodyProt payload sprot) := by
  have label : Canonical 1 (.t signatureLabel) := ⟨rfl, .t _, Nat.le_refl 1⟩
  refine canonical_a.mpr ⟨by simp, ?_⟩
  simpa using ⟨label, canonical_b bodyBound, canonical_b protBound, canonical_b (by simp),
    canonical_b payloadBound⟩

theorem sign1Message_injective (payload : Bytes) : Function.Injective (sign1Message payload) := by
  intro left right same
  simpa [sign1Message] using same

theorem legMessage_injective (bodyProt payload : Bytes)
    : Function.Injective (legMessage bodyProt payload) := by
  intro left right same
  simpa [legMessage] using same

/-- A message over a rebuilt header covers the carried header exactly when that is bare. -/
theorem covers_iff_bare {message : Bytes → Value} {prot tbs : Bytes} {alg : Int}
    (canonical : ∀ p : Bytes, p.length < 2 ^ 64 → Canonical 2 (message p))
    (injective : Function.Injective message) (bound : prot.length < 2 ^ 64)
    (found : ∀ carried, decode prot = .ok (bareHeader carried) → carried = alg)
    {rebuilt : Bytes} (header : encode (bareHeader alg) = .ok rebuilt)
    (rebuiltBound : rebuilt.length < 2 ^ 64) (signed : encode (message rebuilt) = .ok tbs)
    : Covers message prot alg tbs ↔ Bare prot := by
  constructor
  · intro covers
    have octets := (encode_eq_ok.mp covers.1).2.symm.trans (encode_eq_ok.mp signed).2
    have sameMessage := (dec_readsExactly 2).injective (canonical prot bound)
      (canonical rebuilt rebuiltBound) octets
    exact ⟨alg, injective sameMessage ▸ header⟩
  · intro bare
    obtain ⟨carried, written⟩ := bare
    obtain rfl := found carried (decode_bareHeader written)
    obtain rfl := Except.ok.inj (written.symm.trans header)
    exact ⟨signed, _, decode_bareHeader written, .inl List.mem_cons_self⟩

/-- The algs of the verifying keys. -/
def registered : List Int := [algMldsa65, algMldsa87, algEd25519, algComposite65Ed25519]

theorem header_of_registered {alg : Int} (known : alg ∈ registered)
    : ∃ rebuilt, encode (bareHeader alg) = .ok rebuilt ∧ rebuilt.length < 2 ^ 64 := by
  simp only [registered, List.mem_cons, List.not_mem_nil, or_false] at known
  rcases known with rfl | rfl | rfl | rfl
  · exact ⟨_, rfl, by decide⟩
  · exact ⟨_, rfl, by decide⟩
  · exact ⟨_, rfl, by decide⟩
  · exact ⟨_, rfl, by decide⟩

theorem verifier_alg_registered (v : Go.Cose.Verifier) : v.alg ∈ registered := by
  cases v <;> simp [Go.Cose.Verifier.alg, registered]

theorem encodable_of_decoded {obj : Bytes} {number : Int} {items : List Value}
    (decoded : decode obj = .ok (.tag number (.a items)))
    : ∀ item ∈ items, Encodable item := by
  obtain ⟨-, -, array⟩ := encodable_tag.mp (decode_eq_ok.mp decoded).1.encodable
  exact (encodable_a.mp array).2

/-- The alg that Go reads from a bare header is the one it carries. -/
theorem goAlg_of_bareHeader {prot : Bytes} {alg : Int}
    (read : Go.Cose.algFromProtected prot = .ok alg)
    : ∀ carried, decode prot = .ok (bareHeader carried) → carried = alg := by
  intro carried decoded
  simp only [Go.Cose.algFromProtected, bind_eq_ok, raiseIf_eq_ok, exists_const] at read
  obtain ⟨-, read⟩ := read
  split at read
  · rename_i pairs goDecoded
    rw [(goDecode_eq_ok.mp goDecoded).1] at decoded
    obtain rfl := Value.m.inj (Except.ok.inj decoded)
    exact Except.ok.inj read
  · cases read

theorem alg_of_bareHeader {prot : Bytes} {alg : Int} (read : algFromProtected prot = .ok alg)
    : ∀ carried, decode prot = .ok (bareHeader carried) → carried = alg := by
  intro carried decoded
  simp only [algFromProtected, bind_eq_ok, raiseIf_eq_ok, exists_const] at read
  obtain ⟨-, v, pythonDecoded, read⟩ := read
  obtain rfl := Except.ok.inj (decoded.symm.trans pythonDecoded)
  exact Except.ok.inj read

section Written

variable {alg : Int} {prot : Bytes} (written : encode (bareHeader alg) = .ok prot)

include written

theorem written_ne_empty : prot ≠ [0xA0] := by
  rintro rfl
  cases decode_bareHeader written

/-- A bare header is read with the alg that it was written for, in both implementations. -/
theorem alg_of_written : algFromProtected prot = .ok alg := by
  rw [algFromProtected, raiseIf_neg (written_ne_empty written), ok_bind,
    decode_bareHeader written]
  rfl

theorem goAlg_of_written (fits : -2 ^ 63 ≤ alg) : Go.Cose.algFromProtected prot = .ok alg := by
  have decoded : Go.Cbor.decode prot = .ok (bareHeader alg) := by
    refine goDecode_eq_ok.mpr ⟨decode_bareHeader written, .m ?_ ?_⟩
    · exact List.forall_mem_singleton.mpr (.u 1)
    · exact List.forall_mem_singleton.mpr (.n fits)
  rw [Go.Cose.algFromProtected, raiseIf_neg (written_ne_empty written), ok_bind, decoded]
  rfl

/-- It is what Go writes for the alg. -/
theorem goHeader_of_written : Go.Cose.protectedHeader alg = .ok prot := by
  obtain ⟨encodable, rfl⟩ := encode_eq_ok.mp written
  exact goEncode_of_encodable encodable

end Written

section Rebuilding

variable {message : Bytes → Value} {prot tbs : Bytes} {alg : Int}
  (canonical : ∀ p : Bytes, p.length < 2 ^ 64 → Canonical 2 (message p))
  (injective : Function.Injective message) (bound : prot.length < 2 ^ 64)
  (known : alg ∈ registered)

include canonical injective bound known

/-- In Go the message over the rebuilt header covers the carried one exactly when that is bare.
-/
theorem goCovers_iff_bare (read : Go.Cose.algFromProtected prot = .ok alg)
    (signed : (Go.Cose.protectedHeader alg >>= fun rebuilt => Go.Cbor.encode (message rebuilt))
      = .ok tbs)
    : Covers message prot alg tbs ↔ Bare prot := by
  obtain ⟨rebuilt, header, rebuiltBound⟩ := header_of_registered known
  obtain ⟨encodable, rfl⟩ := encode_eq_ok.mp header
  have encodableMessage := (canonical _ rebuiltBound).encodable
  have goHeader : Go.Cose.protectedHeader alg = .ok (encoding (bareHeader alg)) :=
    goEncode_of_encodable encodable
  rw [goHeader, ok_bind, goEncode_of_encodable encodableMessage] at signed
  obtain rfl := Except.ok.inj signed
  exact covers_iff_bare canonical injective bound (goAlg_of_bareHeader read) header rebuiltBound
    encodableMessage

theorem pyCovers_iff_bare (read : algFromProtected prot = .ok alg)
    (signed : (legProtected alg >>= fun rebuilt => encode (message rebuilt)) = .ok tbs)
    : Covers message prot alg tbs ↔ Bare prot := by
  obtain ⟨rebuilt, header, rebuiltBound⟩ := header_of_registered known
  have written : legProtected alg = .ok rebuilt := header
  rw [written, ok_bind] at signed
  exact covers_iff_bare canonical injective bound (alg_of_bareHeader read) header rebuiltBound
    signed

end Rebuilding

/-- For every object that `Verify1` accepts, the checked message covers the protected header
exactly when this is bare.
-/
theorem verify1_covers_iff {lib : Go.Cose.SignatureLibrary} {profile : Int} {v : Go.Cose.Verifier}
    {obj : Bytes} (accepted : Go.Cose.verify1 lib profile v obj = .ok ())
    : ∃ prot payload sig tbs, Go.Cose.parseSign1Raw obj = .ok (prot, payload, sig)
      ∧ Go.Cose.signed1 profile v.alg obj = .ok (tbs, sig) ∧ v.verifyRaw lib tbs sig = .ok true
      ∧ (Covers (sign1Message payload) prot v.alg tbs ↔ Bare prot) := by
  simp only [Go.Cose.verify1, bind_eq_ok, Prod.exists, raiseIf_eq_ok, Bool.not_eq_false] at accepted
  obtain ⟨tbs, sig, signed, _, verified, rfl⟩ := accepted
  have checked := signed
  simp only [Go.Cose.signed1, Go.Cose.parseSign1, bind_eq_ok, Prod.exists, raiseIf_eq_ok,
    exists_const, pure_eq_ok, Except.ok.injEq, Prod.mk.injEq, not_not] at checked
  obtain ⟨_, _, _, ⟨prot, payload, _, parsed, _, read, rfl, rfl, rfl⟩, -, -, -, rfl, _, message,
    rfl, rfl⟩ := checked
  obtain ⟨unprotected, goDecoded⟩ := goParseSign1Raw_eq_ok.mp parsed
  have members := encodable_of_decoded (goDecode_eq_ok.mp goDecoded).1
  simp only [List.forall_mem_cons, encodable_b] at members
  exact ⟨prot, payload, _, _, parsed, signed, verified,
    goCovers_iff_bare (fun p => sign1Message_canonical members.2.2.1) (sign1Message_injective _)
      members.1 (verifier_alg_registered v) read message⟩

/-- One round of the hybrid loop that ends without an error: the leg's message covers its
protected header exactly when this is bare.
-/
theorem hybridLeg_covers_iff {lib : Go.Cose.SignatureLibrary} {profile : Int}
    {edV mlV : Go.Cose.Verifier} {bodyProt payload : Bytes} {before after : Bool × Bool}
    {sv : Value}
    (bodyBound : bodyProt.length < 2 ^ 64) (payloadBound : payload.length < 2 ^ 64)
    (encodable : Encodable sv)
    (passed : Go.Cose.hybridLeg lib profile edV mlV bodyProt payload before sv = .ok after)
    : ∃ sprot sig alg tbs, Go.Cose.parseLeg sv = .ok (sprot, sig)
      ∧ Go.Cose.signedLeg bodyProt payload sprot = .ok (alg, tbs)
      ∧ (Covers (legMessage bodyProt payload) sprot alg tbs ↔ Bare sprot) := by
  simp only [Go.Cose.hybridLeg, bind_eq_ok, Prod.exists] at passed
  obtain ⟨sprot, sig, parsed, alg, tbs, signed, rest⟩ := passed
  have known : alg ∈ registered := by
    split at rest
    · rename_i isEd
      exact isEd ▸ by decide
    · split at rest
      · rename_i isMl
        exact isMl ▸ verifier_alg_registered mlV
      · cases rest
  have checked := signed
  simp only [Go.Cose.signedLeg, bind_eq_ok, pure_eq_ok, Except.ok.injEq, Prod.mk.injEq] at checked
  obtain ⟨_, read, _, message, rfl, rfl⟩ := checked
  obtain ⟨unprotected, rfl⟩ := goParseLeg_eq_ok.mp parsed
  have members := (encodable_a.mp encodable).2
  simp only [List.forall_mem_cons, encodable_b] at members
  exact ⟨sprot, sig, _, _, parsed, signed,
    goCovers_iff_bare (fun p => legMessage_canonical bodyBound payloadBound)
      (legMessage_injective _ _) members.1 known read message⟩

/-- The hybrid loop reaches every leg, by induction over the legs. -/
theorem hybridLegs_covers_iff {lib : Go.Cose.SignatureLibrary} {profile : Int}
    {edV mlV : Go.Cose.Verifier} {bodyProt payload : Bytes} {sigs : List Value}
    (bodyBound : bodyProt.length < 2 ^ 64) (payloadBound : payload.length < 2 ^ 64)
    (encodable : ∀ sv ∈ sigs, Encodable sv) {before after : Bool × Bool}
    (passed : sigs.foldlM (Go.Cose.hybridLeg lib profile edV mlV bodyProt payload) before
      = .ok after)
    : ∀ sv ∈ sigs, ∃ sprot sig alg tbs, Go.Cose.parseLeg sv = .ok (sprot, sig)
      ∧ Go.Cose.signedLeg bodyProt payload sprot = .ok (alg, tbs)
      ∧ (Covers (legMessage bodyProt payload) sprot alg tbs ↔ Bare sprot) := by
  induction sigs generalizing before with
  | nil => exact fun sv member => nomatch member
  | cons first rest ih =>
      obtain ⟨encodableFirst, encodableRest⟩ := List.forall_mem_cons.mp encodable
      rw [List.foldlM_cons, bind_eq_ok] at passed
      obtain ⟨middle, passedFirst, passedRest⟩ := passed
      refine List.forall_mem_cons.mpr ⟨?_, ih encodableRest passedRest⟩
      exact hybridLeg_covers_iff bodyBound payloadBound encodableFirst passedFirst

/-- For every object that `VerifyHybrid` accepts, the message of each leg covers its header
exactly when this is bare.
-/
theorem verifyHybrid_covers_iff {lib : Go.Cose.SignatureLibrary} {profile : Int}
    {edV mlV : Go.Cose.Verifier} {obj : Bytes}
    (accepted : Go.Cose.verifyHybrid lib profile edV mlV obj = .ok ())
    : ∃ bodyProt payload sigs, Go.Cose.parseHybrid obj = .ok (bodyProt, payload, sigs)
      ∧ ∀ sv ∈ sigs, ∃ sprot sig alg tbs, Go.Cose.parseLeg sv = .ok (sprot, sig)
        ∧ Go.Cose.signedLeg bodyProt payload sprot = .ok (alg, tbs)
        ∧ (Covers (legMessage bodyProt payload) sprot alg tbs ↔ Bare sprot) := by
  simp only [Go.Cose.verifyHybrid, bind_eq_ok, Prod.exists] at accepted
  obtain ⟨bodyProt, payload, sigs, parsed, edOK, mlOK, passed, -⟩ := accepted
  obtain ⟨unprotected, goDecoded⟩ := goParseHybrid_eq_ok.mp parsed
  have members := encodable_of_decoded (goDecode_eq_ok.mp goDecoded).1
  simp only [List.forall_mem_cons, encodable_b, encodable_a] at members
  exact ⟨bodyProt, payload, sigs, parsed,
    hybridLegs_covers_iff members.1 members.2.2.1 members.2.2.2.1.2 passed⟩

/-- A rotation leg that passed its check: its message covers its protected header exactly
when this is bare.
-/
theorem checkLeg_covers_iff {lib : SignatureLibrary} {bodyProt payload pk prot sig : Bytes}
    {alg : Int} {refused : String} {done : Unit}
    (bodyBound : bodyProt.length < 2 ^ 64) (payloadBound : payload.length < 2 ^ 64)
    (bound : prot.length < 2 ^ 64) (known : alg ∈ registered)
    (read : algFromProtected prot = .ok alg)
    (passed : Envelope.checkLeg lib bodyProt payload pk (alg, sig) refused = .ok done)
    : ∃ tbs, signatureToBeSigned bodyProt alg payload = .ok tbs
      ∧ coseVerify1Raw lib alg pk tbs sig = .ok true
      ∧ (Covers (legMessage bodyProt payload) prot alg tbs ↔ Bare prot) := by
  simp only [Envelope.checkLeg, bind_eq_ok, raiseIf_eq_ok, Bool.not_eq_false] at passed
  obtain ⟨tbs, message, _, verified, rfl⟩ := passed
  exact ⟨tbs, message, verified,
    pyCovers_iff_bare (fun p => legMessage_canonical bodyBound payloadBound)
      (legMessage_injective _ _) bound known read message⟩

theorem registered_of_known {alg : Int} (known : (algLevel alg).2 = true) : alg ∈ registered := by
  unfold algLevel at known
  simp only [registered, List.mem_cons]
  split_ifs at known
  · exact .inr (.inl ‹_›)
  · exact .inl ‹_›
  · exact .inr (.inr (.inl ‹_›))

/-- The headers of parsed legs have lengths of 64 bits, by induction on the legs. -/
theorem bound_of_parseLegs {entries : List Value} {legs : List (Bytes × Bytes)}
    (encodable : ∀ entry ∈ entries, Encodable entry) (parsed : entries.mapM parseLeg = .ok legs)
    : ∀ leg ∈ legs, leg.1.length < 2 ^ 64 := by
  induction entries generalizing legs with
  | nil =>
      obtain rfl := Except.ok.inj parsed
      exact fun leg member => nomatch member
  | cons entry rest ih =>
      obtain ⟨first, later⟩ := List.forall_mem_cons.mp encodable
      simp only [List.mapM_cons, bind_eq_ok, pure_eq_ok, Except.ok.injEq] at parsed
      obtain ⟨leg, read, others, readOthers, rfl⟩ := parsed
      refine List.forall_mem_cons.mpr ⟨?_, ih later readOthers⟩
      unfold parseLeg at read
      split at read
      · obtain rfl := Except.ok.inj read
        have members := (encodable_a.mp first).2
        exact encodable_b.mp (members _ List.mem_cons_self)
      · cases read

/-- For every rotation that is accepted, the message of each leg covers its header exactly when
this is bare.
Witness: both legs were parsed from one object and checked over its rebuilt headers.
-/
theorem verifyRotationObject_covers_iff {lib : SignatureLibrary} {profile oldAlg newAlg : Int}
    {oldPk newPk objBytes : Bytes} {kindValidator : Option (Int → Int → Bool)}
    {knownCext : List Int} {o : Envelope.Object}
    (accepted : Envelope.verifyRotationObject lib profile oldAlg oldPk newAlg newPk kindValidator
      objBytes knownCext = .ok o)
    : ∃ bodyProt payload oldProt oldSig newProt newSig oldTbs newTbs,
      parseSignRaw objBytes = .ok (bodyProt, payload, [(oldProt, oldSig), (newProt, newSig)])
      ∧ signatureToBeSigned bodyProt oldAlg payload = .ok oldTbs
      ∧ coseVerify1Raw lib oldAlg oldPk oldTbs oldSig = .ok true
      ∧ (Covers (legMessage bodyProt payload) oldProt oldAlg oldTbs ↔ Bare oldProt)
      ∧ signatureToBeSigned bodyProt newAlg payload = .ok newTbs
      ∧ coseVerify1Raw lib newAlg newPk newTbs newSig = .ok true
      ∧ (Covers (legMessage bodyProt payload) newProt newAlg newTbs ↔ Bare newProt) := by
  simp only [Envelope.verifyRotationObject, bind_eq_ok, Prod.exists, raiseIf_eq_ok, exists_const]
    at accepted
  obtain ⟨-, bodyProt, payload, legs, parsed, body, -, _, _, _, _, ordered, _, oldPassed, _,
    newPassed, -⟩ := accepted
  unfold Envelope.rotationLegs at ordered
  split at ordered
  · rename_i oldProt oldSig newProt newSig
    simp only [bind_eq_ok, raiseIf_eq_ok, exists_const, pure_eq_ok, Except.ok.injEq,
      Prod.mk.injEq, Envelope.checkLegFloor, not_or, not_not, Bool.not_eq_false] at ordered
    obtain ⟨_, oldRead, _, newRead, -, ⟨rfl, rfl⟩, ⟨newKnown, -⟩, ⟨oldKnown, -⟩, ⟨rfl, rfl⟩, rfl,
      rfl⟩ := ordered
    obtain ⟨_, entries, decoded, read⟩ := parseSignRaw_eq_ok parsed
    have members := encodable_of_decoded decoded
    simp only [List.forall_mem_cons, encodable_b, encodable_a] at members
    have bounds := bound_of_parseLegs members.2.2.2.1.2 read
    simp only [List.forall_mem_cons] at bounds
    obtain ⟨oldTbs, oldSigned, oldVerified, oldCovers⟩ := checkLeg_covers_iff members.1
      members.2.2.1 bounds.1 (registered_of_known oldKnown) oldRead oldPassed
    obtain ⟨newTbs, newSigned, newVerified, newCovers⟩ := checkLeg_covers_iff members.1
      members.2.2.1 bounds.2.1 (registered_of_known newKnown) newRead newPassed
    exact ⟨bodyProt, payload, oldProt, _, newProt, _, oldTbs, newTbs, parsed, oldSigned,
      oldVerified, oldCovers, newSigned, newVerified, newCovers⟩
  · cases ordered

-----------------------------------------------------------------------------------------
-- Objects with two signatures
-----------------------------------------------------------------------------------------

/-- A leg of a COSE_Sign object, by its protected header and its signature. -/
def legValue (leg : Bytes × Bytes) : Value := .a [.b leg.1, .m [], .b leg.2]

/-- A tagged COSE_Sign object with two legs. -/
def twoLegs (bodyProt payload : Bytes) (first second : Bytes × Bytes) : Value :=
  .tag tagSign (.a [.b bodyProt, .m [], .b payload, .a [legValue first, legValue second]])

section TwoLegs

variable {bodyProt payload : Bytes} {first second : Bytes × Bytes}

theorem encodable_leg {leg : Bytes × Bytes} (protBound : leg.1.length < 2 ^ 64)
    (sigBound : leg.2.length < 2 ^ 64)
    : Encodable (legValue leg) := by
  have empty : Encodable (.m []) := rfl
  refine encodable_a.mpr ⟨by simp, ?_⟩
  simpa only [List.forall_mem_cons, encodable_b] using ⟨protBound, empty, sigBound, by simp⟩

/-- A leg of short parts. -/
theorem leg_size {leg : Bytes × Bytes} (fits : Encodable (legValue leg))
    (protShort : leg.1.length ≤ 300) (sigShort : leg.2.length ≤ 4000)
    : (encoding (legValue leg)).length ≤ 4400 := by
  obtain ⟨-, members⟩ := encodable_a.mp fits
  simp only [List.forall_mem_cons] at members
  have parts := length_encoding_a_le fits
  have empty : (encoding (.m [])).length = 1 := rfl
  have prot := length_encoding_b_le members.1
  have sig := length_encoding_b_le members.2.2.1
  simp only [List.map_cons, List.map_nil, List.sum_cons, List.sum_nil] at parts
  rw [legValue]
  omega

variable (bodyBound : bodyProt.length < 2 ^ 64) (payloadBound : payload.length < 2 ^ 64)
  (firstLeg : Encodable (legValue first)) (secondLeg : Encodable (legValue second))

include bodyBound payloadBound firstLeg secondLeg

/-- The object can be encoded when its parts can be. -/
theorem encodable_twoLegs : Encodable (twoLegs bodyProt payload first second) := by
  have empty : Encodable (.m []) := rfl
  have legs : Encodable (.a [legValue first, legValue second]) := by
    refine encodable_a.mpr ⟨by simp, ?_⟩
    simpa only [List.forall_mem_cons] using ⟨firstLeg, secondLeg, by simp⟩
  refine encodable_tag.mpr ⟨by decide, by decide, encodable_a.mpr ⟨by simp, ?_⟩⟩
  simpa only [List.forall_mem_cons, encodable_b] using
    ⟨bodyBound, empty, payloadBound, legs, by simp⟩

/-- The octets of the object are read back, and by the Go decoder too. -/
theorem decode_twoLegs
    : decode (encoding (twoLegs bodyProt payload first second))
      = .ok (twoLegs bodyProt payload first second) := by
  refine decodeBounded_encode (encodable_twoLegs bodyBound payloadBound firstLeg secondLeg) ?_
  simp [twoLegs, legValue, depth, depthItems, depthPairs, unboundedDepth]

theorem goDecode_twoLegs
    : Go.Cbor.decode (encoding (twoLegs bodyProt payload first second))
      = .ok (twoLegs bodyProt payload first second) := by
  refine goDecode_eq_ok.mpr ⟨decode_twoLegs bodyBound payloadBound firstLeg secondLeg, ?_⟩
  simpa [twoLegs, legValue] using ⟨.b _, .b _, ⟨.b _, .b _⟩, .b _, .b _⟩

omit bodyBound payloadBound

/-- An object of short parts and short legs is within the size limit.
Witness: the lengths of the parts are added up, level by level.
-/
theorem twoLegs_size (bodyShort : bodyProt.length ≤ 300) (payloadShort : payload.length ≤ 300)
    (firstShort : (encoding (legValue first)).length ≤ 4400)
    (secondShort : (encoding (legValue second)).length ≤ 4400)
    : (encoding (twoLegs bodyProt payload first second)).length ≤ Envelope.maxObjectSize := by
  have whole := @encodable_twoLegs bodyProt payload _ _ (by omega) (by omega) firstLeg secondLeg
  obtain ⟨-, -, array⟩ := encodable_tag.mp whole
  have members := (encodable_a.mp array).2
  simp only [List.forall_mem_cons] at members
  have tagged := length_encoding_tag_le whole
  have listed := length_encoding_a_le array
  have legs := length_encoding_a_le members.2.2.2.1
  have empty : (encoding (.m [])).length = 1 := rfl
  have body := length_encoding_b_le members.1
  have content := length_encoding_b_le members.2.2.1
  simp only [List.map_cons, List.map_nil, List.sum_cons, List.sum_nil] at listed legs
  rw [twoLegs, Envelope.maxObjectSize]
  omega

end TwoLegs

/-- The key that the objects are signed with. -/
abbrev objectKey : Go.Cose.Verifier := Implementations.sampleKey

/-- The signature of the key over a message. -/
def digestSignature (message : Bytes) : Bytes :=
  fitTo mldsa65SigSize (Sha2.sha384 (objectKey.pubKey.take 32 ++ message))

theorem digestSignature_verifies (message : Bytes)
    : coseVerify1Raw digestLibrary algMldsa65 objectKey.pubKey message (digestSignature message)
      = .ok true := by
  have same
      : mldsaVerify digestLibrary algMldsa65 objectKey.pubKey message (digestSignature message)
      = .ok (decide (digestSignature message = digestSignature message)) := by
    simp [mldsaVerify, mldsa, digestLibrary, digestSignature, MlDsa.signatureSize, mldsa65SigSize]
  simpa [coseVerify1Raw] using same

theorem goDigestSignature_verifies (message : Bytes)
    : objectKey.verifyRaw Go.Cose.digestLibrary message (digestSignature message) = .ok true := by
  have same : objectKey.verifyRaw Go.Cose.digestLibrary message (digestSignature message)
      = .ok (decide (digestSignature message = digestSignature message)) := by
    simp [Implementations.sampleKey, Go.Cose.Verifier.verifyRaw, Go.Cose.digestLibrary,
      digestSignature, Go.Cose.Verifier.pubKey, MlDsa.signatureSize, mldsa65SigSize]
  simpa using same

/-- The header with Ed25519 alone. -/
def edHeader : Bytes := [0xa1, 0x01, 0x32]

def edVerifier : Go.Cose.Verifier := .ed25519 (List.replicate 32 3)

/-- The signature of that key on the library on which the model can be evaluated. -/
def edSignature (message : Bytes) : Bytes :=
  fitTo 64 (Sha2.sha384 (List.replicate 32 3 ++ message))

theorem goEdSignature_verifies (message : Bytes)
    : edVerifier.verifyRaw Go.Cose.digestLibrary message (edSignature message) = .ok true := by
  have key : ¬ (List.replicate 32 (3 : UInt8)).length ≠ 32 := by decide
  simp only [edVerifier, Go.Cose.Verifier.verifyRaw, Go.Cose.ed25519Verify, if_neg key]
  exact congrArg Except.ok (decide_eq_true rfl)

theorem encodable_sampleLeg (message : Bytes)
    : Encodable (legValue (sampleHeader, digestSignature message)) := by
  have short : sampleHeader.length < 2 ^ 64 := by decide
  refine encodable_leg short ?_
  rw [digestSignature, length_fitTo]
  decide

theorem encodable_edLeg (message : Bytes)
    : Encodable (legValue (edHeader, edSignature message)) := by
  have short : edHeader.length < 2 ^ 64 := by decide
  refine encodable_leg short ?_
  rw [edSignature, length_fitTo]
  decide

/-- The message of a leg over an empty payload and an empty body header. -/
def sampleLegMessage (sprot : Bytes) : Bytes := encoding (legMessage [] [] sprot)

/-- An object signed with both keys. -/
def hybridObject : Bytes :=
  encoding (twoLegs [] [] (edHeader, edSignature (sampleLegMessage edHeader))
    (sampleHeader, digestSignature (sampleLegMessage sampleHeader)))

theorem hybridObject_parsed
    : Go.Cose.parseHybrid hybridObject
      = .ok ([], [], [legValue (edHeader, edSignature (sampleLegMessage edHeader)),
          legValue (sampleHeader, digestSignature (sampleLegMessage sampleHeader))]) :=
  goParseHybrid_eq_ok.mpr
    ⟨_, goDecode_twoLegs (by decide) (by decide) (encodable_edLeg _) (encodable_sampleLeg _)⟩

theorem sampleHeader_written : encode (bareHeader algMldsa65) = .ok sampleHeader := rfl

theorem edHeader_written : encode (bareHeader algEd25519) = .ok edHeader := rfl

/-- The message of a leg whose header is bare is the one over this header. -/
theorem signedLeg_bare {alg : Int} {sprot : Bytes} (bound : sprot.length < 2 ^ 64)
    (written : encode (bareHeader alg) = .ok sprot) (fits : -2 ^ 63 ≤ alg)
    : Go.Cose.signedLeg [] [] sprot = .ok (alg, sampleLegMessage sprot) := by
  have message : Go.Cose.signatureToBeSigned [] alg [] = .ok (sampleLegMessage sprot) := by
    rw [Go.Cose.signatureToBeSigned, goHeader_of_written written, ok_bind]
    exact goEncode_of_encodable (legMessage_canonical (by decide) (by decide) bound).encodable
  rw [Go.Cose.signedLeg, goAlg_of_written written fits, ok_bind, message, ok_bind, pure_eq_ok]

theorem signedLeg_ed
    : Go.Cose.signedLeg [] [] edHeader = .ok (algEd25519, sampleLegMessage edHeader) :=
  signedLeg_bare (by decide) edHeader_written (by decide)

theorem signedLeg_sample
    : Go.Cose.signedLeg [] [] sampleHeader = .ok (algMldsa65, sampleLegMessage sampleHeader) :=
  signedLeg_bare (by decide) sampleHeader_written (by decide)

/-- Both legs verify. -/
theorem hybridObject_accepted
    : Go.Cose.verifyHybrid Go.Cose.digestLibrary 1 edVerifier objectKey hybridObject
      = .ok () := by
  have other : algMldsa65 ≠ algEd25519 := by decide
  have registered : objectKey.alg = algMldsa65 := rfl
  have floor : ¬ (Go.Cose.algLevel algMldsa65).1 < Go.Cose.profileMinLevel 1 := by decide
  have ed (state : Bool × Bool)
      : Go.Cose.hybridLeg Go.Cose.digestLibrary 1 edVerifier objectKey [] [] state
      (legValue (edHeader, edSignature (sampleLegMessage edHeader))) = .ok (true, state.2) := by
    simp only [Go.Cose.hybridLeg, legValue, Go.Cose.parseLeg, pure_eq_ok, ok_bind, signedLeg_ed,
      if_pos, goEdSignature_verifies, Bool.or_true]
  have ml (state : Bool × Bool)
      : Go.Cose.hybridLeg Go.Cose.digestLibrary 1 edVerifier objectKey [] [] state
      (legValue (sampleHeader, digestSignature (sampleLegMessage sampleHeader)))
          = .ok (state.1, true) := by
    simp only [Go.Cose.hybridLeg, legValue, Go.Cose.parseLeg, pure_eq_ok, ok_bind, signedLeg_sample,
      if_neg other, registered, if_pos, raiseIf_neg floor, goDigestSignature_verifies, Bool.or_true]
  rw [Go.Cose.verifyHybrid, hybridObject_parsed, ok_bind]
  dsimp only
  rw [List.foldlM_cons, ed, ok_bind, List.foldlM_cons, ml, ok_bind, List.foldlM_nil, pure_eq_ok,
    ok_bind]
  exact raiseIf_neg (by simp)

-----------------------------------------------------------------------------------------
-- A rotation
-----------------------------------------------------------------------------------------

/-- The object of a rotation to a key of the same kind. -/
def rotationObject : Envelope.Object where
  id := none
  kind := 0
  channel := 3
  tier := 0
  signer := [7]
  created := 5
  effect := 1
  causes := []
  profile := 1
  body := .m []
  ext := none
  cext := none
  audience := .lit []
  suite := 0

/-- The body and its header pass their checks.
Witness: they are what signing writes, and no part of the object is long.
-/
theorem rotationObject_checked
    : ∃ bodyProt payload o, bodyProt.length ≤ 300 ∧ payload.length ≤ 300
      ∧ Envelope.checkRotationBody algMldsa65 (some fun _ _ => true) [] bodyProt payload
        = .ok o := by
  have plain : Envelope.Object.Plain rotationObject :=
    ⟨rfl, rfl, rfl, rfl, rfl, by decide, rfl⟩
  have signer : rotationObject.signer.length < 2 ^ 64 := by decide
  obtain ⟨fields, whole⟩ := plain.encodable signer
  obtain ⟨id, identified, idSize⟩
      : ∃ id, rotationObject.contentId = .ok id ∧ id.length = 50 :=
    ⟨_, congrArg (· >>= fun body => pure (contentIdBytes body)) fields, length_contentIdBytes _⟩
  have encodable := whole id (idSize.trans_lt (by decide))
  have payload := plain.length_payload_le idSize encodable
  obtain ⟨header, prot⟩ := @Envelope.headerValue_size algMldsa65 1 [7] rfl rfl (by decide)
  have nesting : depth (.m rotationObject.fieldPairs) ≤ Envelope.maxNestingDepth := by decide
  have decoded := Envelope.decodeBounded_payload nesting encodable
  have read := Envelope.objectFromMap_eq_ok.mpr
    (@Envelope.readFrom_sorted rotationObject (by decide) nofun nofun id)
  have checked : Envelope.checkContentId (rotationObject.sorted.pairs id) = .ok () :=
    Envelope.checkContentId_pairs.mpr (Envelope.contentId_sorted identified)
  have agrees : Envelope.checkHeader (encoding (Envelope.headerValue algMldsa65 [7] 1))
      { rotationObject.sorted with id := some id } = .ok algMldsa65 :=
    Envelope.checkHeader_eq_ok.mpr (Envelope.parseProtected_protectedHeader header)
  refine ⟨_, _, { rotationObject.sorted with id := some id }, prot.trans (by decide),
    payload.trans (by decide), ?_⟩
  simp only [Envelope.checkRotationBody, decoded, checked, read, agrees, ok_bind]
  rfl

/-- The leg of the sample key over a body. -/
def rotationLeg (bodyProt payload : Bytes) : Bytes × Bytes :=
  (sampleHeader, digestSignature (encoding (legMessage bodyProt payload sampleHeader)))

section Rotation

variable {bodyProt payload : Bytes} (bodyShort : bodyProt.length ≤ 300)
  (payloadShort : payload.length ≤ 300)

include bodyShort payloadShort

theorem rotation_parsed
    : parseSignRaw (encoding (twoLegs bodyProt payload (rotationLeg bodyProt payload)
        (rotationLeg bodyProt payload)))
      = .ok (bodyProt, payload, [rotationLeg bodyProt payload, rotationLeg bodyProt payload]) := by
  have leg := encodable_sampleLeg (encoding (legMessage bodyProt payload sampleHeader))
  have decoded := @decode_twoLegs bodyProt payload _ _ (by omega) (by omega) leg leg
  rw [parseSignRaw, rotationLeg, decoded, ok_bind]
  rfl

/-- The object is within the size limit. -/
theorem rotation_size
    : (encoding (twoLegs bodyProt payload (rotationLeg bodyProt payload)
        (rotationLeg bodyProt payload))).length ≤ Envelope.maxObjectSize := by
  have leg := encodable_sampleLeg (encoding (legMessage bodyProt payload sampleHeader))
  have header : sampleHeader.length ≤ 300 := by decide
  have signature (message : Bytes) : (digestSignature message).length ≤ 4000 := by
    rw [digestSignature, length_fitTo]
    decide
  have short := leg_size leg header (signature _)
  rw [rotationLeg]
  exact twoLegs_size leg leg bodyShort payloadShort short short

/-- One leg passes. -/
theorem rotation_leg_checked (refused : String)
    : Envelope.checkLeg digestLibrary bodyProt payload objectKey.pubKey
        (algMldsa65, (rotationLeg bodyProt payload).2) refused = .ok () := by
  have rebuilt : legProtected algMldsa65 = .ok sampleHeader := sampleHeader_written
  have message : signatureToBeSigned bodyProt algMldsa65 payload
      = .ok (encoding (legMessage bodyProt payload sampleHeader)) := by
    rw [signatureToBeSigned, rebuilt, ok_bind]
    exact (legMessage_canonical (by omega) (by omega) (by decide)).encodable
  rw [Envelope.checkLeg, message, ok_bind, rotationLeg, digestSignature_verifies, ok_bind]
  exact raiseIf_neg (by simp)

/-- The rotation is accepted, with the sample key for both legs. -/
theorem rotation_accepted {o : Envelope.Object}
    (checked : Envelope.checkRotationBody algMldsa65 (some fun _ _ => true)
      [] bodyProt payload = .ok o)
    : Envelope.verifyRotationObject digestLibrary 1 algMldsa65 objectKey.pubKey algMldsa65
        objectKey.pubKey (some fun _ _ => true)
        (encoding (twoLegs bodyProt payload (rotationLeg bodyProt payload)
          (rotationLeg bodyProt payload))) [] = .ok o := by
  have legs : Envelope.rotationLegs 1 algMldsa65 algMldsa65
      [rotationLeg bodyProt payload, rotationLeg bodyProt payload]
      = .ok ((algMldsa65, (rotationLeg bodyProt payload).2),
        (algMldsa65, (rotationLeg bodyProt payload).2)) := by
    simp only [Envelope.rotationLegs, rotationLeg, alg_of_written sampleHeader_written, ok_bind]
    rfl
  have size := rotation_size bodyShort payloadShort
  simp only [Envelope.verifyRotationObject, raiseIf_neg (Nat.not_lt.mpr size), ok_bind,
    rotation_parsed bodyShort payloadShort, checked, legs,
    rotation_leg_checked bodyShort payloadShort, pure_eq_ok]

end Rotation

theorem sampleHeader_bare : Bare sampleHeader := ⟨algMldsa65, sampleHeader_written⟩

theorem edHeader_bare : Bare edHeader := ⟨algEd25519, edHeader_written⟩

-----------------------------------------------------------------------------------------
-- Covered headers
-----------------------------------------------------------------------------------------

def sampleVerifier : Go.Cose.Verifier := .mldsa65 ⟨fitTo mldsa65PubSize [9], length_sampleKey⟩

/-- The signature of the key over a payload under its bare header. -/
def sampleSignature (payload : Bytes) : Bytes :=
  digestSignature (encoding (sign1Message payload sampleHeader))

/-- A tagged COSE_Sign1 object of a payload, with an empty unprotected map and that signature. -/
def signedUnderBare (prot payload : Bytes) : Value :=
  .tag tagSign1 (.a [.b prot, .m [], .b payload, .b (sampleSignature payload)])

section OneSignature

variable {prot payload : Bytes} (bound : prot.length < 2 ^ 64) (short : payload.length < 2 ^ 64)

include bound short

/-- The object is canonical: its members are strings of octets and an empty map. -/
theorem canonical_signedUnderBare : Canonical unboundedDepth (signedUnderBare prot payload) := by
  have signed : (sampleSignature payload).length < 2 ^ 64 := by
    rw [sampleSignature, digestSignature, length_fitTo]
    decide
  have empty : Encodable (.m []) := rfl
  have members : ∀ item ∈ [Value.b prot, .m [], .b payload, .b (sampleSignature payload)],
      Encodable item := by
    simp only [List.forall_mem_cons, encodable_b]
    exact ⟨bound, empty, short, signed, by simp⟩
  refine ⟨encodable_tag.mpr ⟨by decide, by decide, encodable_a.mpr ⟨by simp, members⟩⟩, ?_, ?_⟩
  · refine .tag (.a ?_)
    simpa using ⟨.b _, .m .nil nofun nofun, .b _, .b _⟩
  · simp [signedUnderBare, depth, depthItems, depthPairs, unboundedDepth]

theorem decode_signedUnderBare
    : decode (encoding (signedUnderBare prot payload)) = .ok (signedUnderBare prot payload) :=
  decode_eq_ok.mpr ⟨canonical_signedUnderBare bound short, rfl⟩

theorem goParse_signedUnderBare
    : Go.Cose.parseSign1Raw (encoding (signedUnderBare prot payload))
      = .ok (prot, payload, sampleSignature payload) := by
  refine goParseSign1Raw_eq_ok.mpr ⟨.m [], goDecode_eq_ok.mpr
    ⟨decode_signedUnderBare bound short, ?_⟩⟩
  simpa [signedUnderBare] using ⟨.b _, .b _, .b _⟩

/-- Whatever header carries the alg, Go checks the signature over the bare one, and it passes. -/
theorem verify1_signedUnderBare (read : Go.Cose.algFromProtected prot = .ok algMldsa65)
    : Go.Cose.signed1 1 objectKey.alg (encoding (signedUnderBare prot payload))
        = .ok (encoding (sign1Message payload sampleHeader), sampleSignature payload)
      ∧ Go.Cose.verify1 Go.Cose.digestLibrary 1 objectKey
          (encoding (signedUnderBare prot payload)) = .ok () := by
  have message : Go.Cose.toBeSigned algMldsa65 payload
      = .ok (encoding (sign1Message payload sampleHeader)) := by
    rw [Go.Cose.toBeSigned, goHeader_of_written sampleHeader_written, ok_bind]
    exact goEncode_of_encodable (sign1Message_canonical short (by decide)).encodable
  have signed : Go.Cose.signed1 1 objectKey.alg (encoding (signedUnderBare prot payload))
      = .ok (encoding (sign1Message payload sampleHeader), sampleSignature payload) := by
    simp only [Go.Cose.signed1, Go.Cose.parseSign1, goParse_signedUnderBare bound short, read,
      ok_bind, pure_eq_ok, message]
    rfl
  have verified := goDigestSignature_verifies (encoding (sign1Message payload sampleHeader))
  refine ⟨signed, ?_⟩
  rw [Go.Cose.verify1, signed, ok_bind]
  simp only [sampleSignature, verified, ok_bind]
  rfl

end OneSignature

/-- The bare header with one more entry. -/
def headerWithEntry : Value := .m [(.u 1, .n algMldsa65), (.u 2, .u 0)]

def widerHeader : Bytes := [0xa2, 0x01, 0x38, 0x30, 0x02, 0x00]

theorem goAlg_widerHeader : Go.Cose.algFromProtected widerHeader = .ok algMldsa65 := by
  have within : depth headerWithEntry ≤ unboundedDepth := by decide
  have written : encode headerWithEntry = .ok widerHeader := rfl
  have decoded : Go.Cbor.decode widerHeader = .ok headerWithEntry := by
    refine goDecode_eq_ok.mpr ⟨decodeBounded_encode written within, .m ?_ ?_⟩
    · simpa using ⟨.u 1, .u 2⟩
    · have fits : -2 ^ 63 ≤ algMldsa65 := by decide
      simpa using ⟨fits, .u 0⟩
  rw [Go.Cose.algFromProtected, raiseIf_neg (by decide), ok_bind, decoded]
  rfl

/-- Both objects are accepted, with one signature over one message. -/
theorem samples_accepted
    : ∃ bareObj obj bareProt prot sig tbs message, Bare bareProt ∧ bareProt ≠ prot
      ∧ Go.Cose.parseSign1Raw bareObj = .ok (bareProt, [], sig)
      ∧ Go.Cose.parseSign1Raw obj = .ok (prot, [], sig)
      ∧ Go.Cose.verify1 Go.Cose.digestLibrary 1 sampleVerifier bareObj = .ok ()
      ∧ Go.Cose.verify1 Go.Cose.digestLibrary 1 sampleVerifier obj = .ok ()
      ∧ Go.Cose.signed1 1 sampleVerifier.alg obj = .ok (tbs, sig)
      ∧ encode (sign1Message [] prot) = .ok message ∧ message ≠ tbs := by
  have bare := goAlg_of_written sampleHeader_written (by decide)
  have empty : ([] : Bytes).length < 2 ^ 64 := by decide
  have header : sampleHeader.length < 2 ^ 64 := by decide
  have wider : widerHeader.length < 2 ^ 64 := by decide
  obtain ⟨signed, accepted⟩ := verify1_signedUnderBare wider empty goAlg_widerHeader
  have canonical (prot : Bytes) (bound : prot.length < 2 ^ 64) := sign1Message_canonical empty bound
  have differs : sampleHeader ≠ widerHeader := by decide
  refine ⟨_, _, sampleHeader, widerHeader, _, _, _, ⟨_, sampleHeader_written⟩, differs,
    goParse_signedUnderBare header empty, goParse_signedUnderBare wider empty,
    (verify1_signedUnderBare header empty bare).2, accepted, signed,
    (canonical widerHeader wider).encodable, ?_⟩
  intro same
  exact differs (sign1Message_injective [] ((dec_readsExactly 2).injective
    (canonical widerHeader wider) (canonical sampleHeader header) same)).symm

/-- For every object accepted by Go `Verify1`, by Go `VerifyHybrid` or by Python
`verify_rotation_object`: the message whose signature was checked is the one over the protected
octets found in the object (in each leg), under the alg that these carry, exactly when they
are the encoding of a one-entry header.
-/
theorem checked_message_covers_header_iff (goLib : Go.Cose.SignatureLibrary)
    (lib : SignatureLibrary) (profile : Int) (obj : Bytes)
    : (∀ v, Go.Cose.verify1 goLib profile v obj = .ok ()
        → ∃ prot payload sig tbs, Go.Cose.parseSign1Raw obj = .ok (prot, payload, sig)
          ∧ Go.Cose.signed1 profile v.alg obj = .ok (tbs, sig)
          ∧ v.verifyRaw goLib tbs sig = .ok true
          ∧ (Covers (sign1Message payload) prot v.alg tbs ↔ Bare prot))
      ∧ (∀ edV mlV, Go.Cose.verifyHybrid goLib profile edV mlV obj = .ok ()
        → ∃ bodyProt payload sigs, Go.Cose.parseHybrid obj = .ok (bodyProt, payload, sigs)
          ∧ ∀ sv ∈ sigs, ∃ sprot sig alg tbs, Go.Cose.parseLeg sv = .ok (sprot, sig)
            ∧ Go.Cose.signedLeg bodyProt payload sprot = .ok (alg, tbs)
            ∧ (Covers (legMessage bodyProt payload) sprot alg tbs ↔ Bare sprot))
      ∧ (∀ oldAlg oldPk newAlg newPk kindValidator knownCext o,
        Envelope.verifyRotationObject lib profile oldAlg oldPk newAlg newPk kindValidator obj
          knownCext = .ok o
        → ∃ bodyProt payload oldProt oldSig newProt newSig oldTbs newTbs,
          parseSignRaw obj = .ok (bodyProt, payload, [(oldProt, oldSig), (newProt, newSig)])
          ∧ signatureToBeSigned bodyProt oldAlg payload = .ok oldTbs
          ∧ coseVerify1Raw lib oldAlg oldPk oldTbs oldSig = .ok true
          ∧ (Covers (legMessage bodyProt payload) oldProt oldAlg oldTbs ↔ Bare oldProt)
          ∧ signatureToBeSigned bodyProt newAlg payload = .ok newTbs
          ∧ coseVerify1Raw lib newAlg newPk newTbs newSig = .ok true
          ∧ (Covers (legMessage bodyProt payload) newProt newAlg newTbs ↔ Bare newProt)) := by
  refine ⟨?_, ?_, ?_⟩
  · intro v accepted
    exact verify1_covers_iff accepted
  · intro edV mlV accepted
    exact verifyHybrid_covers_iff accepted
  · intro oldAlg oldPk newAlg newPk kindValidator knownCext o accepted
    exact verifyRotationObject_covers_iff accepted

/-- Witness: an object that is accepted under each verifier, all with bare headers. -/
theorem checked_message_covers_header_samples
    : (∃ obj prot tbs sig, Go.Cose.verify1 Go.Cose.digestLibrary 1 sampleVerifier obj = .ok ()
        ∧ Go.Cose.parseSign1Raw obj = .ok (prot, [], sig)
        ∧ Covers (sign1Message []) prot sampleVerifier.alg tbs)
      ∧ (Go.Cose.verifyHybrid Go.Cose.digestLibrary 1 edVerifier objectKey hybridObject
          = .ok ()
        ∧ ∀ sprot ∈ [edHeader, sampleHeader], ∃ alg tbs, Covers (legMessage [] []) sprot alg tbs)
      ∧ ∃ obj o bodyProt payload legs tbs, Envelope.verifyRotationObject digestLibrary 1 algMldsa65
          objectKey.pubKey algMldsa65 objectKey.pubKey (some fun _ _ => true) obj [] = .ok o
        ∧ parseSignRaw obj = .ok (bodyProt, payload, legs)
        ∧ ∀ leg ∈ legs, Covers (legMessage bodyProt payload) leg.1 algMldsa65 tbs := by
  have covered := checked_message_covers_header_iff Go.Cose.digestLibrary digestLibrary 1
  refine ⟨?_, ?_, ?_⟩
  · obtain ⟨obj, -, prot, -, sig, -, -, bare, -, parsed, -, accepted, -⟩ := samples_accepted
    obtain ⟨prot', payload, sig', tbs, parsed', -, -, iff⟩ :=
      (covered obj).1 sampleVerifier accepted
    obtain ⟨rfl, rfl, rfl⟩ : prot = prot' ∧ [] = payload ∧ sig = sig' := by
      simpa using parsed.symm.trans parsed'
    exact ⟨obj, prot, tbs, sig, accepted, parsed, iff.mpr bare⟩
  · obtain ⟨bodyProt, payload, sigs, parsed, each⟩ :=
      (covered hybridObject).2.1 edVerifier objectKey hybridObject_accepted
    obtain ⟨rfl, rfl, rfl⟩ : [] = bodyProt ∧ [] = payload ∧ _ = sigs := by
      simpa only [Except.ok.injEq, Prod.mk.injEq] using hybridObject_parsed.symm.trans parsed
    simp only [List.forall_mem_cons] at each
    obtain ⟨⟨_, _, alg, tbs, edParsed, -, edIff⟩, ⟨_, _, alg', tbs', mlParsed, -, mlIff⟩, -⟩ := each
    obtain ⟨rfl, -⟩ := Prod.mk.inj (Except.ok.inj edParsed)
    obtain ⟨rfl, -⟩ := Prod.mk.inj (Except.ok.inj mlParsed)
    refine ⟨hybridObject_accepted, List.forall_mem_cons.mpr
      ⟨⟨alg, tbs, edIff.mpr edHeader_bare⟩, List.forall_mem_singleton.mpr ?_⟩⟩
    exact ⟨alg', tbs', mlIff.mpr sampleHeader_bare⟩
  · obtain ⟨bodyProt, payload, o, bodyShort, payloadShort, checked⟩ := rotationObject_checked
    have accepted := rotation_accepted bodyShort payloadShort checked
    have parsed := rotation_parsed bodyShort payloadShort
    obtain ⟨_, _, _, _, _, _, tbs, tbs', parsed', -, -, iff, -⟩ :=
      (covered _).2.2 _ _ _ _ _ _ o accepted
    obtain ⟨rfl, rfl, ⟨rfl, -⟩, -⟩ := by
      simpa only [Except.ok.injEq, Prod.mk.injEq, List.cons.injEq, and_true]
        using parsed.symm.trans parsed'
    refine ⟨_, o, bodyProt, payload, _, tbs, accepted, parsed, ?_⟩
    simpa [rotationLeg] using iff.mpr sampleHeader_bare

/-- Two accepted objects with the same payload and signature and different protected octets:
both are checked over one message, which the header with an extra entry is not part of.
-/
theorem extra_header_entry_not_covered
    : ∃ bareObj obj bareProt prot sig tbs, bareProt ≠ prot
      ∧ Go.Cose.parseSign1Raw bareObj = .ok (bareProt, [], sig)
      ∧ Go.Cose.parseSign1Raw obj = .ok (prot, [], sig)
      ∧ Go.Cose.verify1 Go.Cose.digestLibrary 1 sampleVerifier bareObj = .ok ()
      ∧ Go.Cose.verify1 Go.Cose.digestLibrary 1 sampleVerifier obj = .ok ()
      ∧ Go.Cose.signed1 1 sampleVerifier.alg obj = .ok (tbs, sig)
      ∧ ¬ Covers (sign1Message []) prot sampleVerifier.alg tbs := by
  obtain ⟨bareObj, obj, bareProt, prot, sig, tbs, message, -, differs, bareParsed, parsed,
    bareAccepted, accepted, signed, overHeader, notChecked⟩ := samples_accepted
  refine ⟨bareObj, obj, bareProt, prot, sig, tbs, differs, bareParsed, parsed, bareAccepted,
    accepted, signed, ?_⟩
  intro covers
  exact notChecked (Except.ok.inj (overHeader.symm.trans covers.1))

end Naalp.Signatures
