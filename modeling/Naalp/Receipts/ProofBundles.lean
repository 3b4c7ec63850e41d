import Naalp.Authorization.Freshness
import Naalp.Authorization.GateAgreement
import Naalp.ConsumeLedger.AcceptedLogs
import Naalp.Envelope.Fidelity
import Naalp.Python.Bundle
import Naalp.Receipts.DoubleSpends

/-! What an accepted proof bundle proves offline: an object, the approval of its content id and the
receipt of that approval, each signed under a key of an anchor that does not come from the bundle.
-/

namespace Naalp.Receipts

open Naalp.Foundation
open Naalp.Foundation.Sha2 (DigestsCollide)
open Naalp.ConsumeLedger
open Naalp.Python
open Naalp.Python.Approval
open Naalp.Python.Bundle
open Naalp.Python.Cbor
open Naalp.Python.Cose
open Naalp.Signatures (digestSignature objectKey)

/-- A call of the offline verifier. -/
structure OfflineCall where
  bundle : ProofBundle
  anchor : Option TrustAnchor
  kindValidator : Option (Int → Int → Bool)
  posTime : Option Int
  clock : Int
  knownCext : List Int

/-- The time that the call is judged at. -/
def OfflineCall.now (call : OfflineCall) : Int := call.posTime.getD call.clock

def OfflineCall.run (lib : SignatureLibrary) (str : Exc → String) (call : OfflineCall)
    : Py Envelope.Object :=
  verifyBundle lib str call.bundle call.anchor call.kindValidator call.posTime call.clock
    call.knownCext

/-- The signed chain of a bundle: the object under the anchor's key for its signer, the approval of
its content id under the key for the approver and in time, and the receipt for exactly this approval
under the key for its ledger.
-/
structure Chained (lib : SignatureLibrary) (call : OfflineCall) (anchor : TrustAnchor)
    (approval : ApprovalRecord) (receipt : ConsumeReceipt) (o : Envelope.Object) : Prop where
  independent : ∀ bundle, anchor ≠ .fromBundleSelfAsserted bundle
  object : ∃ alg pk, anchor.resolve objectRole o.signer = some pk
    ∧ Envelope.verify lib call.bundle.profile alg pk call.kindValidator call.bundle.objectBytes
      call.knownCext = .ok o
  approved : ∃ approver pk body, approval.approver.encode = .ok approver
    ∧ anchor.resolve approvalRole approver = some pk ∧ approval.bytes = .ok body
    ∧ coseVerify1Raw lib call.bundle.approvalAlg pk body call.bundle.approvalSig = .ok true
  binds : o.contentId = .ok approval.approves
  unexpired : call.now ≤ approval.notAfter
  names : approval.id = .ok receipt.approvalId
  authority : receipt.ledger ≠ []
  consumed : ∃ pk, anchor.resolve receiptRole receipt.ledger = some pk
    ∧ Authorization.ReceiptSigned lib receipt call.bundle.receiptSig (call.bundle.receiptAlg, pk)

-----------------------------------------------------------------------------------------
-- The parts of a verification
-----------------------------------------------------------------------------------------

section Parts

variable {lib : SignatureLibrary} {str : Exc → String}

theorem callNamed_eq_ok {α : Type} {name : String} {outcome : Py α} {value : α}
    : callNamed str name outcome = .ok value ↔ outcome = .ok value := by
  cases outcome with
  | ok other => rfl
  | error err =>
      by_cases named : isNamed err = true
      · simp [callNamed, named]
      · simp [callNamed, named]

theorem resolveKey_eq_ok {anchor : TrustAnchor} {holder : String} {ref : KeyRef} {pk : Bytes}
    : resolveKey anchor holder ref = .ok pk ↔ anchor.resolve ref.role ref.id = some pk := by
  unfold resolveKey
  cases anchor.resolve ref.role ref.id <;> simp

theorem required_eq_ok {α : Type} {field : Option α} {part : α}
    : required field = .ok part ↔ field = some part := by
  cases field <;> simp [required]

/-- The signer that is found stands in the body. -/
theorem mem_of_findSigner {pairs : List (Value × Value)} {signer : Bytes}
    (found : findSigner pairs = some signer)
    : (.u Envelope.fieldSigner, .b signer) ∈ pairs := by
  induction pairs with
  | nil => cases found
  | cons pair rest ih =>
      unfold findSigner at found
      split at found
      · cases found
      · rename_i first _ same
        obtain ⟨rfl, rfl⟩ := List.cons.inj same
        obtain rfl := Option.some.inj found
        exact List.mem_cons_self
      · rename_i same
        obtain ⟨rfl, rfl⟩ := List.cons.inj same
        exact List.mem_cons_of_mem _ (ih found)

/-- The loop finds a signer exactly when one stands in the body. -/
theorem exists_findSigner {pairs : List (Value × Value)}
    : (∃ signer, findSigner pairs = some signer)
      ↔ ∃ signer, (.u Envelope.fieldSigner, .b signer) ∈ pairs := by
  constructor
  · intro found
    obtain ⟨signer, found⟩ := found
    exact ⟨signer, mem_of_findSigner found⟩
  · intro stands
    obtain ⟨signer, member⟩ := stands
    induction pairs with
    | nil => cases member
    | cons pair rest ih =>
        unfold findSigner
        split
        · rename_i same
          cases same
        · exact ⟨_, rfl⟩
        · rename_i other same
          obtain ⟨rfl, rfl⟩ := List.cons.inj same
          refine ih ((List.mem_cons.mp member).resolve_left ?_)
          rintro rfl
          exact other _ rfl

/-- The same of the alg in a header. -/
theorem exists_findAlg {pairs : List (Value × Value)}
    : (∃ alg, findAlg pairs = some alg) ↔ ∃ alg, (.u 1, .n alg) ∈ pairs := by
  induction pairs with
  | nil => simp [findAlg]
  | cons pair rest ih =>
      unfold findAlg
      split
      · rename_i same
        cases same
      · rename_i alg _ same
        obtain ⟨rfl, rfl⟩ := List.cons.inj same
        exact ⟨fun _ => ⟨alg, List.mem_cons_self⟩, fun _ => ⟨alg, rfl⟩⟩
      · rename_i other same
        obtain ⟨rfl, rfl⟩ := List.cons.inj same
        rw [ih]
        refine exists_congr fun alg => ?_
        rw [List.mem_cons]
        refine ⟨.inr, fun member => member.resolve_left ?_⟩
        rintro rfl
        exact other _ rfl

/-- The signer is peeked at exactly when the object parses and its payload is a map with a
signer.
-/
theorem peekObjectSigner_eq_ok {objectBytes signer : Bytes}
    : peekObjectSigner objectBytes = .ok signer
      ↔ ∃ prot payload sig pairs, parseSign1Raw objectBytes = .ok (prot, payload, sig)
        ∧ decodeBounded payload Envelope.maxNestingDepth = .ok (.m pairs)
        ∧ findSigner pairs = some signer := by
  simp only [peekObjectSigner, bind_eq_ok, Prod.exists]
  constructor
  · intro peeked
    obtain ⟨prot, payload, sig, parsed, v, decoded, rest⟩ := peeked
    cases v with
    | m pairs =>
        dsimp only at rest
        split at rest
        · rename_i found
          obtain rfl := Except.ok.inj rest
          exact ⟨prot, payload, sig, pairs, parsed, decoded, found⟩
        · cases rest
    | _ => cases rest
  · intro peeked
    obtain ⟨prot, payload, sig, pairs, parsed, decoded, found⟩ := peeked
    exact ⟨prot, payload, sig, parsed, .m pairs, decoded, by simp [found]⟩

/-- An object that verifies is signed by the signer that was peeked at, since both are read from the
same canonical payload.
-/
theorem peekedSigner_eq {profile alg : Int} {pubkey : Bytes}
    {kindValidator : Option (Int → Int → Bool)} {objectBytes signer : Bytes} {knownCext : List Int}
    {o : Envelope.Object} (peeked : peekObjectSigner objectBytes = .ok signer)
    (accepted : Envelope.verify lib profile alg pubkey kindValidator objectBytes knownCext = .ok o)
    : signer = o.signer := by
  obtain ⟨parts, stages⟩ :=
    (Envelope.verify_eq_ok lib profile pubkey kindValidator knownCext).mp accepted
  obtain ⟨prot, payload, sig, pairs, parsed, decoded, found⟩ := peekObjectSigner_eq_ok.mp peeked
  have sameParts := Except.ok.inj (parsed.symm.trans stages.parsed)
  obtain ⟨-, rfl, -⟩ := sameParts
  obtain rfl := Value.m.inj (Except.ok.inj (decoded.symm.trans stages.body))
  obtain ⟨canonical, -⟩ := decodeBounded_eq_ok.mp stages.body
  have distinct := nodup_of_ascending (canonical_m.mp canonical).2.1
  have read := (Envelope.getField_eq_some distinct).mp stages.read.signer
  exact Value.b.inj (Envelope.value_unique distinct (mem_of_findSigner found) read)

/-- The references of a bundle, each to the holder of one of its parts. -/
theorem keyRefs_eq_ok {bundle : ProofBundle} {refs : KeyRef × KeyRef × KeyRef}
    : bundle.keyRefs = .ok refs
      ↔ ∃ signer alg approval approver receipt, peekObjectSigner bundle.objectBytes = .ok signer
        ∧ objectAlg bundle.objectBytes = .ok alg ∧ bundle.approval = some approval
        ∧ approval.approver.encode = .ok approver ∧ bundle.receipt = some receipt
        ∧ refs = (⟨objectRole, signer, alg⟩, ⟨approvalRole, approver, bundle.approvalAlg⟩,
          ⟨receiptRole, receipt.ledger, bundle.receiptAlg⟩) := by
  simp only [ProofBundle.keyRefs, bind_eq_ok, required_eq_ok, pure_eq_ok, Except.ok.injEq]
  constructor
  · rintro ⟨signer, peeked, alg, read, approval, present, approver, encoded, receipt, carried, rfl⟩
    exact ⟨signer, alg, approval, approver, receipt, peeked, read, present, encoded, carried, rfl⟩
  · rintro ⟨signer, alg, approval, approver, receipt, peeked, read, present, encoded, carried, rfl⟩
    exact ⟨signer, peeked, alg, read, approval, present, approver, encoded, receipt, carried, rfl⟩

/-- The header of an object that verifies carries an alg, and its payload a signer. -/
theorem keyRefs_of_verified {alg : Int} {pubkey approver : Bytes} {bundle : ProofBundle}
    {kindValidator : Option (Int → Int → Bool)} {knownCext : List Int} {o : Envelope.Object}
    {approval : ApprovalRecord} {receipt : ConsumeReceipt}
    (accepted : Envelope.verify lib bundle.profile alg pubkey kindValidator bundle.objectBytes
      knownCext
      = .ok o)
    (hasApproval : bundle.approval = some approval)
    (encoded : approval.approver.encode = .ok approver)
    (hasReceipt : bundle.receipt = some receipt)
    : ∃ alg, bundle.keyRefs = .ok (⟨objectRole, o.signer, alg⟩,
        ⟨approvalRole, approver, bundle.approvalAlg⟩,
            ⟨receiptRole, receipt.ledger, bundle.receiptAlg⟩) := by
  obtain ⟨parts, stages⟩ := (Envelope.verify_eq_ok ..).mp accepted
  have distinct := (Implementations.distinct_of_decodeBounded stages.body).2
  obtain ⟨signer, found⟩ := exists_findSigner.mpr
    ⟨_, (Envelope.getField_eq_some distinct).mp stages.read.signer⟩
  have peeked := peekObjectSigner_eq_ok.mpr
    ⟨parts.prot, parts.payload, parts.sig, parts.pairs, stages.parsed, stages.body, found⟩
  obtain rfl := peekedSigner_eq peeked accepted
  have header := Envelope.checkHeader_eq_ok.mp stages.header
  obtain ⟨notEmpty, entries, decoded, -⟩ := Implementations.parseProtected_eq_ok.mp header
  obtain ⟨halg, read⟩ := exists_findAlg.mpr
    ⟨_, (Implementations.headerAlg_of_parseProtected header decoded).1⟩
  have algRead : objectAlg bundle.objectBytes = .ok halg := by
    rw [objectAlg, stages.parsed, ok_bind]
    simp [algFromProtected, notEmpty, decoded, read]
  exact ⟨halg, keyRefs_eq_ok.mpr
    ⟨_, halg, approval, approver, receipt, peeked, algRead, hasApproval, encoded, hasReceipt, rfl⟩⟩

end Parts

-----------------------------------------------------------------------------------------
-- Accepted bundles
-----------------------------------------------------------------------------------------

section Accepted

variable {lib : SignatureLibrary} {str : Exc → String} {call : OfflineCall} {o : Envelope.Object}

/-- An accepted bundle carries the whole chain.
Witness: the checks are read off in the order of the code, each with the key that the anchor
holds for it.
-/
theorem chained_of_run (accepted : call.run lib str = .ok o)
    : ∃ anchor approval receipt, call.anchor = some anchor ∧ call.bundle.approval = some approval
      ∧ call.bundle.receipt = some receipt ∧ Chained lib call anchor approval receipt o := by
  unfold OfflineCall.run verifyBundle at accepted
  split at accepted
  · rename_i anchor supplied
    simp only [raiseIf_bind_eq_ok] at accepted
    obtain ⟨independent, accepted⟩ := accepted
    split at accepted
    · rename_i approval receipt complete
      obtain ⟨hasApproval, hasReceipt⟩ := Prod.mk.inj complete
      simp only [bind_eq_ok, raiseIf_eq_ok, exists_const, callNamed_eq_ok, resolveKey_eq_ok,
        Prod.exists, keyRefs_eq_ok, pure_eq_ok, Except.ok.injEq, not_not, ne_eq] at accepted
      obtain ⟨_, _, _, ⟨signer, alg, approval', approver, receipt', peeked, -, present, encoded,
        carried, refs⟩, objectPk, objectKey, obj, verified, approvalPk, approvalKey, cid, bound, _,
        approved, approvalId, identified, named, receiptPk, receiptKey, _, receipted, rfl⟩ :=
          accepted
      obtain ⟨rfl, rfl, rfl⟩ := refs
      obtain rfl := Option.some.inj (hasApproval.symm.trans present)
      obtain rfl := Option.some.inj (hasReceipt.symm.trans carried)
      obtain rfl := peekedSigner_eq peeked verified
      obtain ⟨⟨body, written, signed⟩, rfl, unexpired⟩ :=
        Authorization.verifyApproval_eq_ok.mp approved
      obtain ⟨authority, receiptSigned⟩ := Authorization.verifyConsumeReceipt_eq_ok.mp receipted
      refine ⟨anchor, approval, receipt, supplied, hasApproval, hasReceipt, ?_⟩
      exact {
        independent := fun bundle same => independent (same ▸ rfl)
        object := ⟨alg, objectPk, objectKey, verified⟩
        approved := ⟨approver, approvalPk, body, encoded, approvalKey, written, signed⟩
        binds := bound
        unexpired
        names := named ▸ identified
        authority
        consumed := ⟨receiptPk, receiptKey, receiptSigned⟩
      }
    · cases accepted
  · cases accepted

/-- A bundle that carries the chain is accepted.
Witness: the references that the call peeks at are those of the object that verifies, so each
check gets the key that the chain names.
-/
theorem run_of_chained {anchor : TrustAnchor} {approval : ApprovalRecord} {receipt : ConsumeReceipt}
    (supplied : call.anchor = some anchor) (independent : anchor.selfDerived = false)
    (hasApproval : call.bundle.approval = some approval)
    (hasReceipt : call.bundle.receipt = some receipt)
    (chain : Chained lib call anchor approval receipt o)
    : call.run lib str = .ok o := by
  obtain ⟨alg, objectPk, objectKey, verified⟩ := chain.object
  obtain ⟨approver, approvalPk, body, encoded, approvalKey, written, signed⟩ := chain.approved
  obtain ⟨receiptPk, receiptKey, receiptSigned⟩ := chain.consumed
  obtain ⟨halg, refs⟩ := keyRefs_of_verified verified hasApproval encoded hasReceipt
  -- the alg that `verify` is given is not read
  have verifiedAgain : Envelope.verify lib call.bundle.profile halg objectPk call.kindValidator
      call.bundle.objectBytes call.knownCext = .ok o := verified
  have approved : verifyApproval lib approval call.bundle.approvalAlg approvalPk
      call.bundle.approvalSig approval.approves (call.posTime.getD call.clock) = .ok () :=
    Authorization.verifyApproval_eq_ok.mpr ⟨⟨body, written, signed⟩, rfl, chain.unexpired⟩
  have receipted := Authorization.verifyConsumeReceipt_eq_ok.mpr ⟨chain.authority, receiptSigned⟩
  unfold OfflineCall.run verifyBundle
  rw [supplied, hasApproval, hasReceipt]
  dsimp only
  rw [raiseIf_neg (by simp [independent]), ok_bind, refs, ok_bind]
  dsimp only
  rw [resolveKey_eq_ok.mpr objectKey, ok_bind, callNamed_eq_ok.mpr verifiedAgain, ok_bind,
    resolveKey_eq_ok.mpr approvalKey, ok_bind, chain.binds, ok_bind]
  rw [callNamed_eq_ok.mpr approved, ok_bind, chain.names, ok_bind, raiseIf_neg (by simp), ok_bind,
    resolveKey_eq_ok.mpr receiptKey, ok_bind, callNamed_eq_ok.mpr receipted, ok_bind]
  rfl

/-- The body of an approval gives what it approves back. -/
theorem approves_of_bytes {a a' : ApprovalRecord} {body : Bytes}
    (encoded : a.bytes = .ok body) (encoded' : a'.bytes = .ok body) : a.approves = a'.approves := by
  have read := Signatures.Record.decode_bytes (r := .approval a) encoded
  have read' := Signatures.Record.decode_bytes (r := .approval a') encoded'
  have pairs := Value.m.inj (Except.ok.inj (read.symm.trans read'))
  exact Value.b.inj (Prod.mk.inj (List.cons.inj pairs).1).2

/-- Approvals with one id approve one content id, unless their bodies collide. -/
theorem approves_eq_of_id {a a' : ApprovalRecord} {aid body body' : Bytes}
    (encoded : a.bytes = .ok body) (encoded' : a'.bytes = .ok body') (id : a.id = .ok aid)
    (id' : a'.id = .ok aid)
    : a.approves = a'.approves ∨ DigestsCollide [body, body'] := by
  obtain ⟨_, written, rfl⟩ := Authorization.approval_id_eq_ok.mp id
  obtain rfl := Except.ok.inj (encoded.symm.trans written)
  obtain ⟨_, written', sameId⟩ := Authorization.approval_id_eq_ok.mp id'
  obtain rfl := Except.ok.inj (encoded'.symm.trans written')
  rcases @Envelope.eq_or_collide_of_contentId body body' [body, body'] (by simp)
    (by simp) sameId with same | collide
  · exact .inl (approves_of_bytes encoded (same ▸ encoded'))
  · exact .inr collide

end Accepted

-----------------------------------------------------------------------------------------
-- Sample bundles
-----------------------------------------------------------------------------------------

/-- The anchor with one key for the signer, the approver and the ledger of the sample bundles. -/
def sampleAnchor : TrustAnchor where
  known := ((AList.insert (objectRole, [7]) objectKey.pubKey ∅).insert (approvalRole, [])
    objectKey.pubKey).insert (receiptRole, [5]) objectKey.pubKey

def grantedApproval (cid : Bytes) (grant : Int) : ApprovalRecord :=
  { approves := cid, approver := [], grant, nonce := [], notAfter := 1000 }

def grantedBody (cid : Bytes) (grant : Int) : Bytes :=
  encoding (.m [(.u 1, .b cid), (.u 2, .t []), (.u 3, .u grant), (.u 4, .b []), (.u 5, .u 1000)])

def grantReceipt (aid : Bytes) : ConsumeReceipt :=
  { ledger := [5], approvalId := aid, position := 0 }

def receiptBody (aid : Bytes) : Bytes :=
  encoding (.m [(.u 1, .b [5]), (.u 2, .b aid), (.u 3, .u 0)])

/-- A bundle of an object, an approval of a content id and its receipt, all signed with one key. -/
def sampleBundle (objectBytes cid : Bytes) (grant : Int) : ProofBundle where
  objectBytes
  profile := 1
  approval := some (grantedApproval cid grant)
  approvalSig := digestSignature (grantedBody cid grant)
  approvalAlg := algMldsa65
  receipt := some (grantReceipt (contentIdBytes (grantedBody cid grant)))
  receiptSig := digestSignature (receiptBody (contentIdBytes (grantedBody cid grant)))
  receiptAlg := algMldsa65

/-- Verified at the time 0. -/
def sampleCall (objectBytes cid : Bytes) (grant : Int) : OfflineCall where
  bundle := sampleBundle objectBytes cid grant
  anchor := some sampleAnchor
  kindValidator := some fun _ _ => true
  posTime := some 0
  clock := 0
  knownCext := []

/-- What is made of an object of the key that verifies and of its content id is accepted.
Witness: the approval and the receipt are encoded, and the sample key signs both.
-/
theorem sampleCall_accepted {data cid : Bytes} {grant : Int} {o : Envelope.Object}
    (range : 0 ≤ grant ∧ grant < 2 ^ 64)
    (verified : Envelope.verify digestLibrary 1 algMldsa65 objectKey.pubKey
      (some fun _ _ => true) data []
      = .ok o)
    (signer : o.signer = [7]) (identified : o.contentId = .ok cid)
    : (sampleCall data cid grant).run digestLibrary (fun _ => "") = .ok o := by
  have size : cid.length = 50 := length_contentId identified
  have empty : Encodable (.t []) := rfl
  have fits : ∀ v ∈ [Value.b cid, .t [], .u grant, .b [], .u 1000], Encodable v := by
    simp only [List.forall_mem_cons, encodable_u, encodable_b, size]
    exact ⟨by decide, empty, range, by decide, by decide, nofun⟩
  have written : (grantedApproval cid grant).bytes = .ok (grantedBody cid grant) :=
    (@encodable_numbered 1 _ (by simp)).mpr fits
  have receiptFits : ∀ v ∈ [Value.b [5], .b (contentIdBytes (grantedBody cid grant)), .u 0],
      Encodable v := by
    simp only [List.forall_mem_cons, encodable_u, encodable_b]
    exact ⟨by decide, by simp, by decide, nofun⟩
  have receipted : (grantReceipt (contentIdBytes (grantedBody cid grant))).bytes
      = .ok (receiptBody (contentIdBytes (grantedBody cid grant))) :=
    (@encodable_numbered 1 _ (by simp)).mpr receiptFits
  have objectHeld : sampleAnchor.resolve objectRole o.signer = some objectKey.pubKey := by
    rw [signer]
    rfl
  refine @run_of_chained _ _ _ _ sampleAnchor (grantedApproval cid grant) _ rfl rfl rfl rfl {
    independent := fun bundle same => ?_
    object := ⟨algMldsa65, objectKey.pubKey, objectHeld, verified⟩
    approved := ⟨[], objectKey.pubKey, _, rfl, rfl, written, Signatures.digestSignature_verifies _⟩
    binds := identified
    unexpired := show (0 : Int) ≤ 1000 by decide
    names := Authorization.approval_id_eq_ok.mpr ⟨_, written, rfl⟩
    authority := List.cons_ne_nil _ _
    consumed := ⟨objectKey.pubKey, rfl, _, receipted, Signatures.digestSignature_verifies _⟩
  }
  have derived : sampleAnchor.selfDerived = true := congrArg TrustAnchor.selfDerived same
  cases derived

/-- The bundle of the sample object, which has the effect 1, is accepted with any grant. -/
theorem any_grant_accepted {grant : Int} (range : 0 ≤ grant ∧ grant < 2 ^ 64)
    : ∃ data cid o, (sampleCall data cid grant).run digestLibrary (fun _ => "") = .ok o
      ∧ o.effect = 1 := by
  obtain ⟨data, cid, -, -, identified, verified⟩ := Envelope.sampleObject_verified
  exact ⟨data, cid, _, sampleCall_accepted range verified rfl
    (Envelope.contentId_sorted identified), rfl⟩

/-- So is that of the sample object with a field 15, whose payload carries another id than the one
that the approval binds.
-/
theorem unknown_field_accepted
    : ∃ data cid o, (sampleCall data cid 1).run digestLibrary (fun _ => "") = .ok o
      ∧ o.id ≠ some cid := by
  obtain ⟨data, parts, o, -, cid, -, stages, -, -, -, signer, identified, other⟩ :=
    Envelope.unknownField_accepted
  have verified : Envelope.verify digestLibrary 1 algMldsa65 objectKey.pubKey
      (some fun _ _ => true) data [] = .ok o :=
    (Envelope.verify_eq_ok ..).mpr ⟨parts, stages⟩
  have range : (0 : Int) ≤ 1 ∧ (1 : Int) < 2 ^ 64 := by decide
  exact ⟨data, cid, o, sampleCall_accepted range verified signer identified, other⟩

-----------------------------------------------------------------------------------------
-- Chains
-----------------------------------------------------------------------------------------

/-- For every bundle that is accepted, at whatever anchor and time, the whole chain is signed under
keys of an anchor that was not built from a bundle. Two accepted bundles with one approval id return
objects with one content id, unless the bodies of the approvals are different strings with the same
SHA-384 digest.
-/
theorem verified_bundles_chained (lib : SignatureLibrary) (str : Exc → String)
    : (∀ call o, OfflineCall.run lib str call = .ok o
        → ∃ anchor approval receipt, call.anchor = some anchor
          ∧ call.bundle.approval = some approval ∧ call.bundle.receipt = some receipt
          ∧ Chained lib call anchor approval receipt o)
      ∧ ∀ call call' o o' approval approval', OfflineCall.run lib str call = .ok o
        → OfflineCall.run lib str call' = .ok o'
        → call.bundle.approval = some approval → call'.bundle.approval = some approval'
        → approval.id = approval'.id
        → o.contentId = o'.contentId
          ∨ ∃ body body', approval.bytes = .ok body ∧ approval'.bytes = .ok body'
            ∧ DigestsCollide [body, body'] := by
  refine ⟨fun call o accepted => chained_of_run accepted, ?_⟩
  intro call call' o o' approval approval' accepted accepted' present present' sameId
  obtain ⟨_, found, receipt, -, carried, -, chain⟩ := chained_of_run accepted
  obtain ⟨_, found', receipt', -, carried', -, chain'⟩ := chained_of_run accepted'
  obtain rfl := Option.some.inj (present.symm.trans carried)
  obtain rfl := Option.some.inj (present'.symm.trans carried')
  obtain ⟨_, _, body, -, -, written, -⟩ := chain.approved
  obtain ⟨_, _, body', -, -, written', -⟩ := chain'.approved
  rcases approves_eq_of_id written written' chain.names (sameId ▸ chain.names) with same | collide
  · exact .inl (chain.binds.trans (same ▸ chain'.binds.symm))
  · exact .inr ⟨body, body', written, written', collide⟩

/-- The bundle of the sample object with the grant 1 is chained. -/
theorem verified_bundles_chained_sample
    : ∃ data cid o approval receipt, (sampleCall data cid 1).run digestLibrary (fun _ => "") = .ok o
      ∧ Chained digestLibrary (sampleCall data cid 1) sampleAnchor approval receipt o := by
  have range : (0 : Int) ≤ 1 ∧ (1 : Int) < 2 ^ 64 := by decide
  obtain ⟨data, cid, o, accepted, -⟩ := any_grant_accepted range
  obtain ⟨anchor, approval, receipt, supplied, -, -, chain⟩ :=
    (verified_bundles_chained digestLibrary fun _ => "").1 _ _ accepted
  obtain rfl := Option.some.inj supplied
  exact ⟨data, cid, o, approval, receipt, accepted, chain⟩

-----------------------------------------------------------------------------------------
-- Against the online gate
-----------------------------------------------------------------------------------------

/-- The online gate takes the approval of a bundle for an id and an effect, at the time of the call:
it returns on every open ledger that has not seen the approval and can write the next entry.
-/
def GateTakes (lib : SignatureLibrary) (call : OfflineCall) (approval : ApprovalRecord)
    (pk id : Bytes) (effect : Int) : Prop :=
  ∀ led consumer aid, approval.id = .ok aid → aid ∉ led.memory.consumed → led.file.closed = false
    → Writable (led.nextEntry aid consumer)
    → ∃ e after, consumeApproval lib led none approval call.bundle.approvalAlg pk
        call.bundle.approvalSig id call.now effect consumer = (.ok e, after)

/-- It takes the approval for the object that the offline verifier returned. -/
def Taken (lib : SignatureLibrary) (call : OfflineCall) (approval : ApprovalRecord) (pk : Bytes)
    (o : Envelope.Object) : Prop :=
  ∃ id, o.id = some id ∧ GateTakes lib call approval pk id o.effect

/-- An approval that is taken has an effect class as grant, which covers the effect of the object,
and approves the id that the signed payload carries.
-/
structure AsStrict (lib : SignatureLibrary) (call : OfflineCall) (approval : ApprovalRecord)
    (pk : Bytes) (pairs : List (Value × Value)) (o : Envelope.Object) : Prop where
  taken : Taken lib call approval pk o
  carried : Envelope.getField Envelope.fieldId pairs = some (.b approval.approves)
  grant : 0 ≤ approval.grant ∧ approval.grant ≤ Policy.destructive
  covers : o.effect ≤ approval.grant

/-- The payload of an object as both verifiers read it. -/
def PayloadOf (objectBytes : Bytes) (pairs : List (Value × Value)) : Prop :=
  ∃ prot payload sig, parseSign1Raw objectBytes = .ok (prot, payload, sig)
    ∧ decodeBounded payload Envelope.maxNestingDepth = .ok (.m pairs)

/-- What the offline verifier leaves open: that the grant is a class that covers the effect in the
payload, and that the payload has no field that the object does not have.
-/
structure Covered (approval : ApprovalRecord) (pairs : List (Value × Value)) : Prop where
  grant : approval.grant ≤ Policy.destructive
  covers : ∀ effect, Envelope.getField Envelope.fieldEffect pairs = some (.u effect)
    → effect ≤ approval.grant
  expressible : Envelope.Expressible pairs

/-- A grant that can be encoded is not negative. -/
theorem grant_nonneg {a : ApprovalRecord} {body : Bytes} (encoded : a.bytes = .ok body)
    : 0 ≤ a.grant := by
  obtain ⟨encodable, -⟩ := encode_eq_ok.mp encoded
  have member := (encodable_m.mp encodable).2.1 (.u 3, .u a.grant) (by simp)
  exact (encodable_u.mp member.2).1

section Strictness

variable {lib : SignatureLibrary} {str : Exc → String} {call : OfflineCall} {anchor : TrustAnchor}
  {approval : ApprovalRecord} {receipt : ConsumeReceipt} {o : Envelope.Object}

/-- The gate takes no other approval: it is asked on the empty ledger. -/
theorem covered_of_taken {pk id : Bytes} {effect : Int}
    (names : approval.id = .ok receipt.approvalId)
    (taken : GateTakes lib call approval pk id effect)
    : approval.grant ≤ Policy.destructive ∧ approval.approves = id ∧ effect ≤ approval.grant := by
  obtain ⟨_, _, same⟩ := Authorization.approval_id_eq_ok.mp names
  have short : receipt.approvalId.length < 100 := by simp [same, contentIdBytes]
  have first : (0 : Int) ≤ 0 ∧ (0 : Int) < 2 ^ 64 := by decide
  have writable := @writable_of_digest
    (Authorization.emptyLedger.nextEntry receipt.approvalId []) first rfl short rfl
  obtain ⟨e, after, consumed⟩ :=
    taken Authorization.emptyLedger [] receipt.approvalId names
      (by simp [Authorization.emptyLedger, LedgerMemory.genesis]) rfl writable
  obtain ⟨small, _, ⟨verified, covers, -⟩, -⟩ :=
    (Authorization.consumeApproval_eq_ok ..).mp consumed
  exact ⟨small, (Authorization.verifyApproval_eq_ok.mp verified).2.1, covers⟩

/-- Of a chain, the online gate takes what is covered and nothing else, unless the payload without
its id and the fields of the object are different strings with one digest.
Witness: the gate compares the content id with that of the approval, and the id of the object
is of the payload without its id.
-/
theorem Chained.asStrict_iff (chain : Chained lib call anchor approval receipt o)
    : ∃ approver pk pairs without, approval.approver.encode = .ok approver
      ∧ anchor.resolve approvalRole approver = some pk ∧ PayloadOf call.bundle.objectBytes pairs
      ∧ Envelope.splitId pairs = .ok (o.id, without)
      ∧ ((Taken lib call approval pk o ↔ Covered approval pairs)
          ∧ (AsStrict lib call approval pk pairs o ↔ Covered approval pairs)
        ∨ DigestsCollide [encoding (.m without), encoding (.m o.fieldPairs)]) := by
  obtain ⟨alg, objectPk, -, verified⟩ := chain.object
  obtain ⟨approver, pk, body, named, resolved, encoded, signed⟩ := chain.approved
  obtain ⟨parts, stages⟩ := (Envelope.verify_eq_ok ..).mp verified
  obtain ⟨claimed, without, split, present, claims⟩ := stages.claimed_iff chain.binds
  refine ⟨approver, pk, parts.pairs, without, named, resolved,
    ⟨_, _, _, stages.parsed, stages.body⟩, present ▸ split, claims.imp_left fun claims => ?_⟩
  have covered : Taken lib call approval pk o → Covered approval parts.pairs := by
    rintro ⟨id, returned, taken⟩
    obtain rfl := Option.some.inj (present.symm.trans returned)
    obtain ⟨small, same, covers⟩ := covered_of_taken chain.names taken
    refine ⟨small, fun effect read => ?_, claims.mp same.symm⟩
    obtain rfl := Value.u.inj (Option.some.inj (read.symm.trans stages.read.effect))
    exact covers
  have strict : Covered approval parts.pairs → AsStrict lib call approval pk parts.pairs o := by
    intro covered
    obtain rfl := claims.mpr covered.expressible
    have covers := covered.covers _ stages.read.effect
    refine ⟨⟨_, present, ?_⟩, Envelope.getField_id stages.read present,
      ⟨grant_nonneg encoded, covered.grant⟩, covers⟩
    intro led consumer aid identified unspent isOpen writable
    have verifiedNow
        : verifyApproval lib approval call.bundle.approvalAlg pk call.bundle.approvalSig
        approval.approves call.now = .ok () :=
      Authorization.verifyApproval_eq_ok.mpr ⟨⟨body, encoded, signed⟩, rfl, chain.unexpired⟩
    exact ⟨_, _, (Authorization.consumeApproval_eq_ok ..).mpr ⟨covered.grant, aid,
      ⟨verifiedNow, covers, identified⟩, consume_unspent unspent isOpen writable⟩⟩
  exact ⟨⟨covered, fun met => (strict met).taken⟩, fun met => covered met.taken, strict⟩

end Strictness

/-- For every bundle that is accepted: the online gate takes its approval for the object, with a
grant in range that covers the effect and an approval of the id that the payload carries, exactly
when the grant is a class that covers the effect in the payload and the payload has no field beside
those of an object. Otherwise the payload without its id and the fields of the returned object, the
two maps that are hashed, are different strings with one digest.
-/
theorem offline_strict_iff (lib : SignatureLibrary) (str : Exc → String) (call : OfflineCall)
    (o : Envelope.Object) (accepted : call.run lib str = .ok o)
    : ∃ anchor approval approver pk pairs without, call.anchor = some anchor
      ∧ call.bundle.approval = some approval ∧ approval.approver.encode = .ok approver
      ∧ anchor.resolve approvalRole approver = some pk ∧ PayloadOf call.bundle.objectBytes pairs
      ∧ Envelope.splitId pairs = .ok (o.id, without)
      ∧ ((Taken lib call approval pk o ↔ Covered approval pairs)
          ∧ (AsStrict lib call approval pk pairs o ↔ Covered approval pairs)
        ∨ DigestsCollide [encoding (.m without), encoding (.m o.fieldPairs)]) := by
  obtain ⟨anchor, approval, receipt, supplied, carried, -, chain⟩ := chained_of_run accepted
  obtain ⟨approver, pk, pairs, without, rest⟩ := chain.asStrict_iff
  exact ⟨anchor, approval, approver, pk, pairs, without, supplied, carried, rest⟩

/-- The theorem at the bundle of the sample object with the grant 1. -/
theorem offline_strict_iff_sample
    : ∃ data cid o pk pairs without, (sampleCall data cid 1).run digestLibrary (fun _ => "") = .ok o
      ∧ PayloadOf data pairs ∧ Envelope.splitId pairs = .ok (o.id, without)
      ∧ ((Taken digestLibrary (sampleCall data cid 1) (grantedApproval cid 1) pk o
            ↔ Covered (grantedApproval cid 1) pairs)
          ∧ (AsStrict digestLibrary (sampleCall data cid 1) (grantedApproval cid 1) pk pairs o
            ↔ Covered (grantedApproval cid 1) pairs)
        ∨ DigestsCollide [encoding (.m without), encoding (.m o.fieldPairs)]) := by
  have range : (0 : Int) ≤ 1 ∧ (1 : Int) < 2 ^ 64 := by decide
  obtain ⟨data, cid, o, accepted, -⟩ := any_grant_accepted range
  obtain ⟨_, approval, _, pk, pairs, without, -, present, -, -, payload, split, strict⟩ :=
    offline_strict_iff digestLibrary (fun _ => "") (sampleCall data cid 1) o accepted
  obtain rfl := Option.some.inj present
  exact ⟨data, cid, o, pk, pairs, without, accepted, payload, split, strict⟩

/-- What the online gate refuses although the offline verifier accepts it. -/
def Laxer (call : OfflineCall) (approval : ApprovalRecord) : Prop :=
  call.bundle.approval = some approval ∧ ∃ o, call.run digestLibrary (fun _ => "") = .ok o
    ∧ ∀ pk, ¬ Taken digestLibrary call approval pk o

/-- An approval whose grant 4 is no effect class, one whose grant 0 is below the effect of the
object, and one that binds another id than the payload carries.
-/
theorem offline_laxer
    : (∃ data cid, Laxer (sampleCall data cid 4) (grantedApproval cid 4))
      ∧ (∃ data cid, Laxer (sampleCall data cid 0) (grantedApproval cid 0))
      ∧ ∃ data cid, Laxer (sampleCall data cid 1) (grantedApproval cid 1) := by
  refine ⟨?_, ?_, ?_⟩
  · have range : (0 : Int) ≤ 4 ∧ (4 : Int) < 2 ^ 64 := by decide
    obtain ⟨data, cid, o, accepted, -⟩ := any_grant_accepted range
    refine ⟨data, cid, rfl, o, accepted, ?_⟩
    rintro pk ⟨id, -, taken⟩
    obtain ⟨_, _, receipt, -, present, -, chain⟩ := chained_of_run accepted
    obtain rfl := Option.some.inj present
    have small : (4 : Int) ≤ Policy.destructive := (covered_of_taken chain.names taken).1
    exact absurd small (by decide)
  · have range : (0 : Int) ≤ 0 ∧ (0 : Int) < 2 ^ 64 := by decide
    obtain ⟨data, cid, o, accepted, effect⟩ := any_grant_accepted range
    refine ⟨data, cid, rfl, o, accepted, ?_⟩
    rintro pk ⟨id, -, taken⟩
    obtain ⟨_, _, receipt, -, present, -, chain⟩ := chained_of_run accepted
    obtain rfl := Option.some.inj present
    have covers : o.effect ≤ 0 := (covered_of_taken chain.names taken).2.2
    omega
  · obtain ⟨data, cid, o, accepted, other⟩ := unknown_field_accepted
    refine ⟨data, cid, rfl, o, accepted, ?_⟩
    rintro pk ⟨id, returned, taken⟩
    obtain ⟨_, _, receipt, -, present, -, chain⟩ := chained_of_run accepted
    obtain rfl := Option.some.inj present
    have same : cid = id := (covered_of_taken chain.names taken).2.1
    exact other (same ▸ returned)

end Naalp.Receipts
