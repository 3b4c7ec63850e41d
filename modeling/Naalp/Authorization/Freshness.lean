import Naalp.Go.Approval
import Naalp.Python.RawRecords
import Naalp.Signatures.SampleObjects

/-! Freshness judged by an ordering authority. The approval and the receipt of the authority are
checked each on its own, against a time that comes from neither.
-/

namespace Naalp.Authorization

open Naalp.Foundation
open Naalp.Python
open Naalp.Python.Approval
open Naalp.Python.Cbor
open Naalp.Python.Cose
open Naalp.Implementations
open Naalp.Signatures

/-- The receipt is evidence about this approval: the authority that its ledger resolves to signed
the approval's id at the position at which the expiry was judged, and is not the party.
-/
structure Evidence {κ : Type} (resolve : Bytes → Option κ) (valid : κ → Prop) (approvalId : Bytes)
    (posTime : Int) (r : ConsumeReceipt) (partyId : Bytes) : Prop where
  named : r.approvalId = approvalId
  judged : r.position = posTime
  signed : ∃ key, resolve r.ledger = some key ∧ valid key
  independent : r.ledger ≠ partyId

/-- What is missing from two checked records whose key was resolved: that they are about one
approval and one position.
-/
theorem evidence_iff {κ : Type} {resolve : Bytes → Option κ} {valid : κ → Prop} {approvalId : Bytes}
    {posTime : Int} {r : ConsumeReceipt} {partyId : Bytes} {key : κ}
    (resolved : resolve r.ledger = some key) (signed : valid key) (independent : r.ledger ≠ partyId)
    : Evidence resolve valid approvalId posTime r partyId
      ↔ r.approvalId = approvalId ∧ r.position = posTime := by
  constructor
  · intro evidence
    exact ⟨evidence.named, evidence.judged⟩
  · rintro ⟨named, judged⟩
    exact ⟨named, judged, ⟨key, resolved, signed⟩, independent⟩

section Python

variable {lib : SignatureLibrary} {a : ApprovalRecord} {approverAlg ledgerAlg posTime : Int}
  {approverPk aSig argsContentId ledgerPk rSig partyId : Bytes} {r : ConsumeReceipt}

/-- The signature of the receipt is one of the key. -/
def ReceiptSigned (lib : SignatureLibrary) (r : ConsumeReceipt) (rSig : Bytes) (key : Int × Bytes)
    : Prop :=
  ∃ body, r.bytes = .ok body ∧ coseVerify1Raw lib key.1 key.2 body rSig = .ok true

/-- A receipt is accepted exactly when it names an authority and is signed with the key that is
given for it.
-/
theorem verifyConsumeReceipt_eq_ok
    : verifyConsumeReceipt lib r ledgerAlg ledgerPk rSig = .ok ()
      ↔ r.ledger ≠ [] ∧ ReceiptSigned lib r rSig (ledgerAlg, ledgerPk) := by
  simp only [verifyConsumeReceipt, ReceiptSigned, bind_eq_ok, raiseIf_eq_ok, exists_const,
    Bool.not_eq_false, ne_eq]
  constructor
  · rintro ⟨present, body, encoded, _, checked, rfl⟩
    exact ⟨present, body, encoded, checked⟩
  · rintro ⟨present, body, encoded, checked⟩
    exact ⟨present, body, encoded, _, checked, rfl⟩

theorem verifyFreshIndependent_eq_ok
    : verifyFreshIndependent lib a approverAlg approverPk aSig argsContentId posTime r ledgerAlg
          ledgerPk rSig partyId = .ok ()
      ↔ verifyApproval lib a approverAlg approverPk aSig argsContentId posTime = .ok ()
        ∧ r.ledger ≠ [] ∧ ReceiptSigned lib r rSig (ledgerAlg, ledgerPk) ∧ r.ledger ≠ partyId := by
  simp only [verifyFreshIndependent, unit_bind_eq_ok, verifyConsumeReceipt_eq_ok, raiseIf_eq_ok,
    and_assoc, ne_eq]

/-- An accepted approval was encoded and has an id. -/
theorem id_of_verifyApproval
    (verified : verifyApproval lib a approverAlg approverPk aSig argsContentId posTime = .ok ())
    : ∃ body, a.bytes = .ok body ∧ a.id = .ok (contentIdBytes body) := by
  simp only [verifyApproval, bind_eq_ok] at verified
  obtain ⟨body, encoded, -⟩ := verified
  refine ⟨body, encoded, ?_⟩
  rw [ApprovalRecord.id, encoded]
  rfl

/-- With the key that was resolved for the ledger, accepted evidence is about the approval and the
time that it was presented for exactly when the receipt names the id of the approval and the time is
the position of the receipt.
-/
theorem evidence_of_verifyFreshIndependent {resolve : Bytes → Option (Int × Bytes)}
    (resolved : resolve r.ledger = some (ledgerAlg, ledgerPk))
    (accepted : verifyFreshIndependent lib a approverAlg approverPk aSig argsContentId posTime r
      ledgerAlg ledgerPk rSig partyId = .ok ())
    : ∃ approvalId, a.id = .ok approvalId
      ∧ (Evidence resolve (ReceiptSigned lib r rSig) approvalId posTime r partyId
        ↔ r.approvalId = approvalId ∧ r.position = posTime) := by
  obtain ⟨verified, -, signed, independent⟩ := verifyFreshIndependent_eq_ok.mp accepted
  obtain ⟨body, -, identified⟩ := id_of_verifyApproval verified
  exact ⟨_, identified, evidence_iff resolved signed independent⟩

end Python

section Go

variable {lib : Go.Cose.SignatureLibrary} {a : ApprovalRecord}
  {approverV ledgerV : Go.Cose.Verifier} {posTime : Int} {aSig argsContentID rSig partyID : Bytes}
  {r : ConsumeReceipt}

/-- The same of the Go verifier. -/
theorem goEvidence_of_verifyFreshIndependent {resolve : Bytes → Option Go.Cose.Verifier}
    (resolved : resolve r.ledger = some ledgerV)
    (accepted : Go.Approval.verifyFreshIndependent lib a approverV aSig argsContentID posTime r
      ledgerV rSig partyID = .ok ())
    : Evidence resolve (fun v => v.verifyRaw lib (Go.Approval.receiptBytes r) rSig = .ok true)
        (Go.Approval.approvalId a) posTime r partyID
      ↔ r.approvalId = Go.Approval.approvalId a ∧ r.position = posTime := by
  obtain ⟨-, receipt, independent⟩ := by
    simpa only [Go.Approval.verifyFreshIndependent, unit_bind_eq_ok, raiseIf_eq_ok] using accepted
  simp only [Go.Approval.verifyConsumeReceipt, bind_eq_ok, raiseIf_eq_ok, exists_const,
    Bool.not_eq_false] at receipt
  obtain ⟨-, _, signed, rfl⟩ := receipt
  exact evidence_iff resolved signed independent

end Go

/-- In both implementations, with the key that was resolved for the ledger: accepted evidence is
about the approval and the time that it was presented for exactly when the receipt names the id of
the approval and the time is the position of the receipt.
-/
theorem fresh_evidence_iff (lib : SignatureLibrary) (goLib : Go.Cose.SignatureLibrary)
    (a : ApprovalRecord) (aSig argsContentId rSig partyId : Bytes) (posTime : Int)
    (r : ConsumeReceipt)
    : (∀ resolve approverAlg approverPk ledgerAlg ledgerPk,
        resolve r.ledger = some (ledgerAlg, ledgerPk)
        → verifyFreshIndependent lib a approverAlg approverPk aSig argsContentId posTime r ledgerAlg
            ledgerPk rSig partyId = .ok ()
        → ∃ approvalId, a.id = .ok approvalId
          ∧ (Evidence resolve (ReceiptSigned lib r rSig) approvalId posTime r partyId
            ↔ r.approvalId = approvalId ∧ r.position = posTime))
      ∧ ∀ resolve approverV ledgerV,
        resolve r.ledger = some ledgerV
        → Go.Approval.verifyFreshIndependent goLib a approverV aSig argsContentId posTime r
          ledgerV rSig
            partyId = .ok ()
        → (Evidence resolve (fun v => v.verifyRaw goLib (Go.Approval.receiptBytes r) rSig
          = .ok true)
            (Go.Approval.approvalId a) posTime r partyId
          ↔ r.approvalId = Go.Approval.approvalId a ∧ r.position = posTime) := by
  constructor
  · intro resolve approverAlg approverPk ledgerAlg ledgerPk resolved accepted
    exact evidence_of_verifyFreshIndependent resolved accepted
  · intro resolve approverV ledgerV resolved accepted
    exact goEvidence_of_verifyFreshIndependent resolved accepted

-----------------------------------------------------------------------------------------
-- Evidence about another approval
-----------------------------------------------------------------------------------------

/-- A receipt of the ledger 7 for an approval at position 7. -/
def sampleReceipt (approvalId : Bytes) : ConsumeReceipt where
  ledger := [7]
  approvalId
  position := 7

def receiptBody (approvalId : Bytes) : Bytes :=
  encoding (.m [(.u 1, .b [7]), (.u 2, .b approvalId), (.u 3, .u 7)])

def sampleResolve (_ : Bytes) : Option (Int × Bytes) := some (algMldsa65, objectKey.pubKey)

theorem bytes_sampleReceipt {approvalId : Bytes} (short : approvalId.length < 2 ^ 64)
    : (sampleReceipt approvalId).bytes = .ok (receiptBody approvalId) := by
  have fits : ∀ v ∈ [Value.b [7], .b approvalId, .u 7], Encodable v := by
    simp only [List.forall_mem_cons, encodable_u, encodable_b]
    exact ⟨by decide, short, by decide, nofun⟩
  exact (@encodable_numbered 1 _ (by simp)).mpr fits

/-- The sample approval of an action, at any time before its end, passes with any sample receipt. -/
theorem accepted_samples {approvalId : Bytes} {posTime : Int} (short : approvalId.length < 2 ^ 64)
    (inTime : posTime ≤ 1000)
    : verifyFreshIndependent digestLibrary (sampleApproval []) algMldsa65 objectKey.pubKey
        (digestSignature (approvalBody [])) [] posTime (sampleReceipt approvalId) algMldsa65
        objectKey.pubKey (digestSignature (receiptBody approvalId)) [8] = .ok () := by
  have empty : ([] : Bytes).length < 2 ^ 64 := by decide
  refine verifyFreshIndependent_eq_ok.mpr ⟨verifyApproval_sample empty inTime, ?_, ?_, ?_⟩
  · simp [sampleReceipt]
  · exact ⟨_, bytes_sampleReceipt short, digestSignature_verifies _⟩
  · simp [sampleReceipt]

theorem id_sampleApproval
    : (sampleApproval []).id = .ok (contentIdBytes (approvalBody [])) := by
  have empty : ([] : Bytes).length < 2 ^ 64 := by decide
  rw [ApprovalRecord.id, bytes_sampleApproval empty]
  rfl

/-- The Go verifier takes the sample records in the same way. -/
theorem goAccepted_samples {approvalId : Bytes} {posTime : Int} (inTime : posTime ≤ 1000)
    : Go.Approval.verifyFreshIndependent Go.Cose.digestLibrary (sampleApproval []) objectKey
        (digestSignature (Go.Approval.approvalBytes (sampleApproval []))) [] posTime
        (sampleReceipt approvalId) objectKey
        (digestSignature (Go.Approval.receiptBytes (sampleReceipt approvalId))) [8] = .ok () := by
  simp only [Go.Approval.verifyFreshIndependent, Go.Approval.verifyApproval,
    Go.Approval.verifyConsumeReceipt, goDigestSignature_verifies, ok_bind]
  simpa [sampleApproval, sampleReceipt, raiseIf_bind_eq_ok] using inTime

/-- The receipt of the approval, at the position at which its expiry is judged, is evidence about
it, in Python and in Go.
-/
theorem fresh_evidence_sample
    : Evidence sampleResolve
        (ReceiptSigned digestLibrary (sampleReceipt (contentIdBytes (approvalBody [])))
          (digestSignature (receiptBody (contentIdBytes (approvalBody [])))))
        (contentIdBytes (approvalBody [])) 7
        (sampleReceipt (contentIdBytes (approvalBody []))) [8]
      ∧ Evidence (fun _ => some objectKey)
        (fun v => v.verifyRaw Go.Cose.digestLibrary
          (Go.Approval.receiptBytes (sampleReceipt (Go.Approval.approvalId (sampleApproval []))))
          (digestSignature (Go.Approval.receiptBytes
            (sampleReceipt (Go.Approval.approvalId (sampleApproval []))))) = .ok true)
        (Go.Approval.approvalId (sampleApproval [])) 7
        (sampleReceipt (Go.Approval.approvalId (sampleApproval []))) [8] := by
  constructor
  · have short : (contentIdBytes (approvalBody [])).length < 2 ^ 64 := by
      simp
    have resolved : sampleResolve (sampleReceipt (contentIdBytes (approvalBody []))).ledger
        = some (algMldsa65, objectKey.pubKey) := rfl
    obtain ⟨approvalId, identified, evidence⟩ := (fresh_evidence_iff digestLibrary
      Go.Cose.digestLibrary _ _ _ _ _ _ _).1 _ _ _ _ _ resolved
      (accepted_samples short (by decide : (7 : Int) ≤ 1000))
    obtain rfl := Except.ok.inj (identified.symm.trans id_sampleApproval)
    exact evidence.mpr ⟨rfl, rfl⟩
  · exact ((fresh_evidence_iff digestLibrary Go.Cose.digestLibrary _ _ _ _ _ _ _).2
      (fun _ => some objectKey) _ _ rfl (goAccepted_samples (by decide : (7 : Int) ≤ 1000))).mpr
      ⟨rfl, rfl⟩

/-- A receipt about something else, at position 7, is taken for the approval at the time 500. -/
theorem foreign_receipt_accepted
    : verifyFreshIndependent digestLibrary (sampleApproval []) algMldsa65 objectKey.pubKey
          (digestSignature (approvalBody [])) [] 500 (sampleReceipt [0xff]) algMldsa65
          objectKey.pubKey (digestSignature (receiptBody [0xff])) [8] = .ok ()
      ∧ (sampleApproval []).id ≠ .ok (sampleReceipt [0xff]).approvalId
      ∧ (sampleReceipt [0xff]).position ≠ 500 := by
  refine ⟨accepted_samples (by decide) (by decide), ?_, by decide⟩
  rw [id_sampleApproval]
  intro same
  have sizes := congrArg List.length (Except.ok.inj same)
  simp [sampleReceipt] at sizes

end Naalp.Authorization
