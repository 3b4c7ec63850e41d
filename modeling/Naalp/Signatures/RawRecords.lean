import Naalp.CanonicalEncoding.Decoding
import Naalp.Envelope.SignVerify
import Naalp.Python.RawRecords

/-! Which signed octets are taken for which record.
The records that are signed without a header are told apart by the keys and the types of their
fields alone.
-/

namespace Naalp.Signatures

open Naalp.Foundation
open Naalp.Python
open Naalp.Python.Cbor
open Naalp.Python.Cose

-----------------------------------------------------------------------------------------
-- The record types
-----------------------------------------------------------------------------------------

inductive RecordType where
  | rotation
  | revocation
  | foreignLink
  | approval
  | held
  | consumeReceipt
  | receipt
  | update
  deriving DecidableEq, Repr

/-- A value of one of the types. -/
inductive Record where
  | rotation (r : Identity.RotationRecord)
  | revocation (r : Identity.RevocationRecord)
  | foreignLink (r : Identity.ForeignLinkRecord)
  | approval (r : Approval.ApprovalRecord)
  | held (r : Approval.HeldResult)
  | consumeReceipt (r : Approval.ConsumeReceipt)
  | receipt (r : Audit.Receipt)
  | update (r : Delivery.DeliveryUpdate)

def Record.type : Record → RecordType
  | .rotation _ => .rotation
  | .revocation _ => .revocation
  | .foreignLink _ => .foreignLink
  | .approval _ => .approval
  | .held _ => .held
  | .consumeReceipt _ => .consumeReceipt
  | .receipt _ => .receipt
  | .update _ => .update

/-- The octets that are signed. -/
def Record.bytes : Record → Py Bytes
  | .rotation r => r.bytes
  | .revocation r => r.bytes
  | .foreignLink r => r.bytes
  | .approval r => r.bytes
  | .held r => r.bytes
  | .consumeReceipt r => r.bytes
  | .receipt r => r.bytes
  | .update r => r.bytes

/-- The pairs of the body map. -/
def Record.pairs : Record → List (Value × Value)
  | .rotation r => [(.u 1, .t r.old), (.u 2, .t r.new), (.u 3, .u r.notBefore)]
  | .revocation r => [(.u 1, .t r.key), (.u 2, .u r.notAfter)]
  | .foreignLink r => [(.u 1, .t r.controls), (.u 2, .t r.foreignId), (.u 3, .u r.notAfter)]
  | .approval r => [(.u 1, .b r.approves), (.u 2, .t r.approver), (.u 3, .u r.grant),
      (.u 4, .b r.nonce), (.u 5, .u r.notAfter)]
      ++ (if r.audience ≠ [] then [(.u 6, .t r.audience)] else [])
  | .held r => [(.u 1, .b r.approves), (.u 2, .t r.reason)]
  | .consumeReceipt r => [(.u 1, .b r.ledger), (.u 2, .b r.approvalId), (.u 3, .u r.position)]
  | .receipt r => [(.u 1, .b r.prev), (.u 2, .b r.obj), (.u 3, .u r.seq), (.u 4, .u r.time)]
  | .update r => [(.u 1, .b r.obj), (.u 2, .u r.stage), (.u 3, .u r.time)]

theorem Record.bytes_eq_encode (r : Record) : r.bytes = encode (.m r.pairs) := by
  cases r <;> rfl

/-- The keys of a record ascend. -/
theorem Record.ascending_pairs (r : Record) : (r.pairs.map encodedKey).Pairwise (· < ·) := by
  have keys : (r.pairs.map encodedKey).Sublist [[1], [2], [3], [4], [5], [6]] := by
    cases r with
    | approval r =>
        by_cases named : r.audience = []
        · simp only [Record.pairs, named]
          exact of_decide_eq_true rfl
        · simp only [Record.pairs, ne_eq, named, not_false_eq_true, if_true]
          exact of_decide_eq_true rfl
    | _ => exact of_decide_eq_true rfl
  exact List.Pairwise.sublist keys (by decide)

theorem Record.leaf_pairs (r : Record) : ∀ pair ∈ r.pairs, Leaf pair.1 ∧ Leaf pair.2 := by
  cases r with
  | approval r => by_cases named : r.audience = [] <;> simp [Record.pairs, named, Leaf]
  | _ => simp [Record.pairs, Leaf]

/-- A record is read back from its octets, since its map is canonical. -/
theorem Record.decode_bytes {r : Record} {m : Bytes} (encoded : r.bytes = .ok m)
    : decode m = .ok (.m r.pairs) := by
  rw [r.bytes_eq_encode] at encoded
  exact decode_of_leaves r.ascending_pairs r.leaf_pairs encoded

/-- A rotation and a foreign link with equal fields, in either order. -/
def Twins (r s : Record) : Prop :=
  ∃ first second position,
    (r = .rotation ⟨first, second, position⟩ ∧ s = .foreignLink ⟨first, second, position⟩)
    ∨ (r = .foreignLink ⟨first, second, position⟩ ∧ s = .rotation ⟨first, second, position⟩)

theorem Twins.same_pairs {r s : Record} (twins : Twins r s) : r.pairs = s.pairs := by
  obtain ⟨first, second, position, ⟨rfl, rfl⟩ | ⟨rfl, rfl⟩⟩ := twins
  · rfl
  · rfl

/-- Records of two types with the same pairs are twins: in every other case the number of the
fields or the type of one of them differs.
Witness: cases on both types, by the number of fields and the kind of the values in them.
-/
theorem twins_of_same_pairs {r s : Record} (different : r.type ≠ s.type)
    (same : r.pairs = s.pairs) : Twins r s := by
  cases r with
  | rotation r =>
      cases s with
      | foreignLink s =>
          simp only [Record.pairs, List.cons.injEq, Prod.mk.injEq, Value.t.injEq, Value.u.injEq,
            true_and, and_true] at same
          obtain ⟨first, second, position⟩ := same
          refine ⟨r.old, r.new, r.notBefore, .inl ⟨rfl, ?_⟩⟩
          rw [first, second, position]
      | _ => simp_all [Record.pairs, Record.type]
  | foreignLink r =>
      cases s with
      | rotation s =>
          simp only [Record.pairs, List.cons.injEq, Prod.mk.injEq, Value.t.injEq, Value.u.injEq,
            true_and, and_true] at same
          obtain ⟨first, second, position⟩ := same
          refine ⟨r.controls, r.foreignId, r.notAfter, .inr ⟨rfl, ?_⟩⟩
          rw [first, second, position]
      | _ => simp_all [Record.pairs, Record.type]
  | _ => cases s <;> simp_all [Record.pairs, Record.type]

/-- The octets of a record are those of a record of another type exactly when they are twins. -/
theorem same_bytes_iff {r s : Record} {m : Bytes} (different : r.type ≠ s.type)
    (encoded : r.bytes = .ok m) : s.bytes = .ok m ↔ Twins r s := by
  constructor
  · intro again
    have same := (Record.decode_bytes encoded).symm.trans (Record.decode_bytes again)
    exact twins_of_same_pairs different (Value.m.inj (Except.ok.inj same))
  · intro twins
    rw [s.bytes_eq_encode, ← twins.same_pairs, ← r.bytes_eq_encode]
    exact encoded

-----------------------------------------------------------------------------------------
-- What a signature is verified for
-----------------------------------------------------------------------------------------

section Verifying

variable (lib : SignatureLibrary) (nfc : PyStr → PyStr) (alg : Int) (pk sig : Bytes)

/-- The signature passes the verifier of the record, at some state of what the verifier takes
besides. No verifier of a held result is given, so its signature is checked raw.
-/
inductive VerifiedAs : Record → Prop where
  | oldLeg {r newAlg newPub newSig}
    (accepted : Identity.verifyRotation lib r alg pk newAlg newPub sig newSig = .ok ())
    : VerifiedAs (.rotation r)
  | newLeg {r oldAlg oldPub oldSig}
    (accepted : Identity.verifyRotation lib r oldAlg oldPub alg pk oldSig sig = .ok ())
    : VerifiedAs (.rotation r)
  | revocation {r recoveryIds}
    (accepted : Identity.verifyRevocation lib r alg pk sig recoveryIds = .ok ())
    : VerifiedAs (.revocation r)
  | foreignLink {r now} (accepted : Identity.verifyForeignLink nfc lib r alg pk sig now = .ok true)
    : VerifiedAs (.foreignLink r)
  | approval {r cid posTime}
    (accepted : Approval.verifyApproval lib r alg pk sig cid posTime = .ok ())
    : VerifiedAs (.approval r)
  | held {r m} (encoded : Approval.HeldResult.bytes r = .ok m)
    (valid : coseVerify1Raw lib alg pk m sig = .ok true)
    : VerifiedAs (.held r)
  | consumeReceipt {r} (accepted : Approval.verifyConsumeReceipt lib r alg pk sig = .ok ())
    : VerifiedAs (.consumeReceipt r)
  | receipt {receipts sigs r} (accepted : Audit.verifyChain lib receipts sigs alg pk = .ok ())
    (listed : (r, sig) ∈ receipts.zip sigs)
    : VerifiedAs (.receipt r)
  | update {r} (accepted : Delivery.verifyUpdate lib r alg pk sig = .ok true)
    : VerifiedAs (.update r)

/-- The signature package accepts the signature for the octets of the record. -/
def Signed (r : Record) : Prop :=
  ∃ m, r.bytes = .ok m ∧ coseVerify1Raw lib alg pk m sig = .ok true

end Verifying

section Acceptance

variable {lib : SignatureLibrary} {nfc : PyStr → PyStr} {alg : Int} {pk sig : Bytes}

/-- Where the ML-DSA check answers, the general one gives its answer. -/
theorem coseVerify1Raw_of_mldsaVerify {m : Bytes} {valid : Bool}
    (verified : mldsaVerify lib alg pk m sig = .ok valid)
    : coseVerify1Raw lib alg pk m sig = .ok valid := by
  have registered : alg = algMldsa65 ∨ alg = algMldsa87 := by
    simp only [mldsaVerify, mldsa, bind_eq_ok] at verified
    obtain ⟨set, named, -⟩ := verified
    by_contra other
    rw [not_or] at other
    rw [if_neg other.1, if_neg other.2] at named
    cases named
  rw [coseVerify1Raw, if_pos registered]
  exact verified

/-- Both signatures of an accepted rotation are over its octets. -/
theorem verifyRotation_signed {r : Identity.RotationRecord} {oldAlg newAlg : Int}
    {oldPub newPub oldSig newSig : Bytes}
    (accepted : Identity.verifyRotation lib r oldAlg oldPub newAlg newPub oldSig newSig = .ok ())
    : ∃ m, r.bytes = .ok m ∧ coseVerify1Raw lib oldAlg oldPub m oldSig = .ok true
      ∧ coseVerify1Raw lib newAlg newPub m newSig = .ok true := by
  simp only [Identity.verifyRotation, bind_eq_ok, raiseIf_eq_ok, exists_const,
    Bool.not_eq_false] at accepted
  obtain ⟨_, -, m, encoded, _, oldLeg, rfl, _, newLeg, rfl⟩ := accepted
  exact ⟨m, encoded, oldLeg, newLeg⟩

/-- The check passes exactly when both keys derive the ids of the record. -/
theorem checkRotationIds_eq_ok {r : Identity.RotationRecord} {oldAlg newAlg : Int}
    {oldPub newPub : Bytes}
    : Identity.checkRotationIds r oldAlg oldPub newAlg newPub = .ok ()
      ↔ Identity.signerId oldAlg oldPub = .ok r.old ∧ Identity.signerId newAlg newPub
        = .ok r.new := by
  constructor
  · intro checked
    simp only [Identity.checkRotationIds] at checked
    split at checked
    · cases checked
    · simp only [bind_eq_ok, raiseIf_eq_ok, exists_const, not_not, ne_eq] at checked
      obtain ⟨old, oldKey, rfl, new, newKey, rfl⟩ := checked
      exact ⟨oldKey, newKey⟩
  · rintro ⟨oldKey, newKey⟩
    simp [Identity.checkRotationIds, oldKey, newKey, raiseIf]

/-- The signatures of an accepted chain are over its receipts, by induction over the links. -/
theorem verifyLinks_signed {links : List (Audit.Receipt × Bytes)} {head : Bytes} {i : Int}
    (accepted : Audit.verifyLinks lib alg pk head i links = .ok ())
    : ∀ link ∈ links, Signed lib alg pk link.2 (.receipt link.1) := by
  induction links generalizing head i with
  | nil => simp
  | cons link rest ih =>
      obtain ⟨r, sig⟩ := link
      simp only [Audit.verifyLinks, bind_eq_ok, raiseIf_eq_ok, exists_const,
        Bool.not_eq_false] at accepted
      obtain ⟨-, m, encoded, _, valid, rfl, next, -, accepted⟩ := accepted
      rw [List.forall_mem_cons]
      exact ⟨⟨m, encoded, coseVerify1Raw_of_mldsaVerify valid⟩, ih accepted⟩

/-- A value that was verified as a record is signed over the record's octets, by cases on the
record type.
-/
theorem VerifiedAs.signed {r : Record} (verified : VerifiedAs lib nfc alg pk sig r)
    : Signed lib alg pk sig r := by
  cases verified with
  | oldLeg accepted =>
      obtain ⟨m, encoded, valid, -⟩ := verifyRotation_signed accepted
      exact ⟨m, encoded, valid⟩
  | newLeg accepted =>
      obtain ⟨m, encoded, -, valid⟩ := verifyRotation_signed accepted
      exact ⟨m, encoded, valid⟩
  | revocation accepted =>
      simp only [Identity.verifyRevocation, bind_eq_ok, raiseIf_eq_ok, exists_const,
        Bool.not_eq_false] at accepted
      obtain ⟨_, -, -, m, encoded, _, valid, rfl⟩ := accepted
      exact ⟨m, encoded, valid⟩
  | foreignLink accepted =>
      simp only [Identity.verifyForeignLink, bind_eq_ok] at accepted
      obtain ⟨_, -, accepted⟩ := accepted
      split at accepted
      · cases accepted
      · obtain ⟨m, encoded, valid⟩ := bind_eq_ok.mp accepted
        exact ⟨m, encoded, valid⟩
  | approval accepted =>
      simp only [Approval.verifyApproval, bind_eq_ok, raiseIf_eq_ok, exists_const,
        Bool.not_eq_false] at accepted
      obtain ⟨m, encoded, _, valid, rfl, -⟩ := accepted
      exact ⟨m, encoded, valid⟩
  | held encoded valid => exact ⟨_, encoded, valid⟩
  | consumeReceipt accepted =>
      simp only [Approval.verifyConsumeReceipt, bind_eq_ok, raiseIf_eq_ok, exists_const,
        Bool.not_eq_false] at accepted
      obtain ⟨-, m, encoded, _, valid, rfl⟩ := accepted
      exact ⟨m, encoded, valid⟩
  | @receipt receipts sigs r accepted listed =>
      simp only [Audit.verifyChain, bind_eq_ok, raiseIf_eq_ok, exists_const] at accepted
      obtain ⟨-, links⟩ := accepted
      have each := verifyLinks_signed links (r, sig) listed
      exact each
  | update accepted =>
      obtain ⟨m, encoded, valid⟩ := bind_eq_ok.mp accepted
      exact ⟨m, encoded, coseVerify1Raw_of_mldsaVerify valid⟩

/-- A signature over the octets of a link makes the link hold until it expires. -/
theorem verifyForeignLink_of_signed {r : Identity.ForeignLinkRecord} {now : Int}
    (signed : Signed lib alg pk sig (.foreignLink r)) (normal : nfc r.foreignId = r.foreignId)
    (fresh : now ≤ r.notAfter)
    : Identity.verifyForeignLink nfc lib r alg pk sig now = .ok true := by
  obtain ⟨m, encoded, valid⟩ := signed
  have requires : Identity.requireNfc nfc r.foreignId = .ok () :=
    raiseIf_eq_ok.mpr (not_not_intro normal)
  have encodes : r.bytes = .ok m := encoded
  simp only [Identity.verifyForeignLink, requires, ok_bind, not_lt.mpr fresh, if_false, encodes]
  exact valid

end Acceptance

-----------------------------------------------------------------------------------------
-- One type for each signature
-----------------------------------------------------------------------------------------

/-- Records of two types have the same octets exactly when they are a rotation and a foreign link
of equal fields. A signature verified for records of two types that are no such twins was accepted
by the signature package for two messages. Both signatures of an accepted rotation make the
foreign link of its fields hold until it expires.
-/
theorem records_signed_apart (lib : SignatureLibrary) (nfc : PyStr → PyStr)
    : (∀ r s m, r.type ≠ s.type → r.bytes = .ok m → (s.bytes = .ok m ↔ Twins r s))
      ∧ (∀ r s alg pk sig, r.type ≠ s.type → VerifiedAs lib nfc alg pk sig r
        → VerifiedAs lib nfc alg pk sig s
        → Twins r s ∨ ∃ m m', m ≠ m' ∧ coseVerify1Raw lib alg pk m sig = .ok true
          ∧ coseVerify1Raw lib alg pk m' sig = .ok true)
      ∧ ∀ r oldAlg oldPub newAlg newPub oldSig newSig now,
        Identity.verifyRotation lib r oldAlg oldPub newAlg newPub oldSig newSig = .ok ()
        → nfc r.new = r.new → now ≤ r.notBefore
        → Identity.verifyForeignLink nfc lib ⟨r.old, r.new, r.notBefore⟩ oldAlg oldPub oldSig now
            = .ok true
          ∧ Identity.verifyForeignLink nfc lib ⟨r.old, r.new, r.notBefore⟩ newAlg newPub newSig now
            = .ok true := by
  refine ⟨?_, ?_, ?_⟩
  · intro r s m different encoded
    exact same_bytes_iff different encoded
  · intro r s alg pk sig different left right
    obtain ⟨m, encoded, valid⟩ := left.signed
    obtain ⟨m', encoded', valid'⟩ := right.signed
    by_cases same : m = m'
    · subst same
      exact .inl ((same_bytes_iff different encoded).mp encoded')
    · exact .inr ⟨m, m', same, valid, valid'⟩
  · intro r oldAlg oldPub newAlg newPub oldSig newSig now accepted normal fresh
    obtain ⟨m, encoded, oldLeg, newLeg⟩ := verifyRotation_signed accepted
    exact ⟨verifyForeignLink_of_signed ⟨m, encoded, oldLeg⟩ normal fresh,
      verifyForeignLink_of_signed ⟨m, encoded, newLeg⟩ normal fresh⟩

/-- The key of a sample signer. -/
def sampleKey (tag : UInt8) : Bytes := List.replicate 32 tag

/-- A rotation between two keys, with the signatures of both. -/
def sampleRotation : Py (Identity.RotationRecord × Bytes × Bytes) := do
  let old ← Identity.signerId algEd25519 (sampleKey 1)
  let new ← Identity.signerId algEd25519 (sampleKey 2)
  let r : Identity.RotationRecord := ⟨old, new, 100⟩
  let m ← r.bytes
  return (r, ← ed25519Sign digestLibrary (sampleKey 1) m,
    ← ed25519Sign digestLibrary (sampleKey 2) m)

/-- A key of 32 octets signs every message, and the signature verifies under it. -/
theorem sampleKey_signs (tag : UInt8) (m : Bytes)
    : ∃ sig, ed25519Sign digestLibrary (sampleKey tag) m = .ok sig
      ∧ coseVerify1Raw digestLibrary algEd25519 (sampleKey tag) m sig = .ok true := by
  have size : (sampleKey tag).length = 32 := List.length_replicate
  have key : digestLibrary.ed25519Public (sampleKey tag) = .ok (sampleKey tag) := by
    simp [digestLibrary, size]
  obtain ⟨sig, signed, -, valid⟩ := Envelope.digestLibrary_signsVerifiably.ed25519 key m
  refine ⟨sig, ?_, ?_⟩
  · rw [ed25519Sign, raiseIf_neg (not_not.mpr size), ok_bind, signed]
  · exact valid

/-- The sample rotation is accepted under its two keys.
Witness: the ids are those that the keys derive, and both keys sign its octets.
-/
theorem sampleRotation_accepted
    : ∃ r oldSig newSig, sampleRotation = .ok (r, oldSig, newSig) ∧ (50 : Int) ≤ r.notBefore
      ∧ Identity.verifyRotation digestLibrary r algEd25519 (sampleKey 1) algEd25519 (sampleKey 2)
        oldSig newSig = .ok () := by
  have computed : (do
      let old ← Identity.signerId algEd25519 (sampleKey 1)
      let new ← Identity.signerId algEd25519 (sampleKey 2)
      let _ ← (Identity.RotationRecord.mk old new 100).bytes
      return ()) = (.ok () : Py Unit) := by
    decide +kernel
  simp only [bind_eq_ok] at computed
  obtain ⟨old, oldKey, new, newKey, m, encoded, -⟩ := computed
  obtain ⟨oldSig, oldSigned, oldValid⟩ := sampleKey_signs 1 m
  obtain ⟨newSig, newSigned, newValid⟩ := sampleKey_signs 2 m
  have fresh : (50 : Int) ≤ 100 := by decide
  refine ⟨⟨old, new, 100⟩, oldSig, newSig, ?_, fresh, ?_⟩
  · simp only [sampleRotation, oldKey, newKey, encoded, oldSigned, newSigned, ok_bind, pure_eq_ok]
  · rw [Identity.verifyRotation, checkRotationIds_eq_ok.mpr ⟨oldKey, newKey⟩, ok_bind, encoded,
      ok_bind, oldValid, ok_bind, raiseIf_neg (by simp), ok_bind, newValid, ok_bind]
    exact raiseIf_neg (by simp)

/-- The signatures of the sample rotation make its foreign link hold, and its octets are those of
the link.
-/
theorem records_signed_apart_sample
    : ∃ r oldSig newSig m, sampleRotation = .ok (r, oldSig, newSig) ∧ r.bytes = .ok m
      ∧ ((Record.foreignLink ⟨r.old, r.new, r.notBefore⟩).bytes = .ok m
        ↔ Twins (.rotation r) (.foreignLink ⟨r.old, r.new, r.notBefore⟩))
      ∧ (Twins (.rotation r) (.foreignLink ⟨r.old, r.new, r.notBefore⟩)
        ∨ ∃ m m', m ≠ m'
          ∧ coseVerify1Raw digestLibrary algEd25519 (sampleKey 1) m oldSig = .ok true
          ∧ coseVerify1Raw digestLibrary algEd25519 (sampleKey 1) m' oldSig = .ok true)
      ∧ Identity.verifyForeignLink id digestLibrary ⟨r.old, r.new, r.notBefore⟩ algEd25519
        (sampleKey 1) oldSig 50 = .ok true := by
  obtain ⟨r, oldSig, newSig, made, fresh, accepted⟩ := sampleRotation_accepted
  obtain ⟨m, encoded, -, -⟩ := verifyRotation_signed accepted
  obtain ⟨apart, once, links⟩ := records_signed_apart digestLibrary id
  have linked := (links _ _ _ _ _ _ _ _ accepted rfl fresh).1
  have different : (Record.rotation r).type
      ≠ (Record.foreignLink ⟨r.old, r.new, r.notBefore⟩).type := by
    intro same
    cases same
  exact ⟨r, oldSig, newSig, m, made, encoded, apart _ _ m different encoded,
    once _ _ _ _ _ different (.oldLeg accepted) (.foreignLink linked), linked⟩

/-- A signature made for a rotation verifies for a foreign link of the same octets. -/
theorem rotation_verified_as_link
    : ∃ r s m sig, sampleRotation.map (fun made => made.2.1) = .ok sig
      ∧ Record.type r = .rotation ∧ Record.type s = .foreignLink
      ∧ r.bytes = .ok m ∧ s.bytes = .ok m
      ∧ VerifiedAs digestLibrary id algEd25519 (sampleKey 1) sig r
      ∧ VerifiedAs digestLibrary id algEd25519 (sampleKey 1) sig s := by
  obtain ⟨r, oldSig, newSig, made, fresh, accepted⟩ := sampleRotation_accepted
  obtain ⟨m, encoded, valid, -⟩ := verifyRotation_signed accepted
  have linked := @verifyForeignLink_of_signed _ id _ _ _ ⟨r.old, r.new, r.notBefore⟩ _
    ⟨m, encoded, valid⟩ rfl fresh
  refine ⟨.rotation r, .foreignLink ⟨r.old, r.new, r.notBefore⟩, m, oldSig, ?_, rfl, rfl, encoded,
    encoded, .oldLeg accepted, .foreignLink linked⟩
  rw [made]
  rfl

end Naalp.Signatures
