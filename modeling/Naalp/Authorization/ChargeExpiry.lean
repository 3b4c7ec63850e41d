import Naalp.Authorization.GrantNarrowing
import Naalp.Foundation.HighWater
import Naalp.Go.Payment
import Naalp.Signatures.SampleObjects

/-! When a charge is authorized: the charge's own expiry is bound by the approval and compared by
no gate, so a charge can be authorized until its approval expires.
-/

namespace Naalp.Authorization

open Naalp.Foundation
open Naalp.ConsumeLedger
open Naalp.Python
open Naalp.Python.Approval
open Naalp.Python.Cbor
open Naalp.Python.Cose
open Naalp.Python.Payment (PaymentImport chargeEffect isRegisteredFormat)
open Naalp.Signatures (digestSignature objectKey)

attribute [local instance] wordOrder

/-- An answer to a time that is given up to a bound and only when allowed never comes after
another bound exactly when it is not allowed or the bounds are in order.
-/
theorem answered_within_iff {Time : Type} [Preorder Time] {answered : Time → Prop}
    {allowed : Prop} {bound other : Time}
    (answers : ∀ now, answered now ↔ allowed ∧ now ≤ bound)
    : (∀ now, answered now → now ≤ other ∧ now ≤ bound) ↔ (allowed → bound ≤ other) := by
  constructor
  · intro kept permitted
    have last : answered bound := (answers bound).mpr ⟨permitted, le_refl bound⟩
    exact (kept bound last).1
  · intro ordered now given
    obtain ⟨permitted, within⟩ := (answers now).mp given
    exact ⟨within.trans (ordered permitted), within⟩

-----------------------------------------------------------------------------------------
-- Python
-----------------------------------------------------------------------------------------

section Python

variable (lib : SignatureLibrary) (p : PaymentImport) (appr : ApprovalRecord) (alg : Int)
  (pubkey sig : Bytes)

/-- The charge has a registered format, and the approval is validly signed, names the charge's
binding, verifies until its own expiry and grants the effect of charges.
-/
structure ChargeApproved : Prop where
  registered : isRegisteredFormat p.format = true
  verified : ∃ cid, p.chargeBinding.contentId = .ok cid
    ∧ verifyApproval lib appr alg pubkey sig cid appr.notAfter = .ok ()
  granted : chargeEffect ≤ appr.grant

/-- Verification at a time is verification at the approval's expiry, and the time before it. -/
theorem verifyApproval_at_iff {cid : Bytes} {now : Int}
    : verifyApproval lib appr alg pubkey sig cid now = .ok ()
      ↔ verifyApproval lib appr alg pubkey sig cid appr.notAfter = .ok ()
        ∧ now ≤ appr.notAfter := by
  simp only [verifyApproval_eq_ok, le_refl, and_true, and_assoc]

/-- The gate answers with an entry on some ledger. -/
def ChargeAuthorized (now : Int) : Prop :=
  ∃ led fault consumer e after,
    Payment.authorizeCharge lib led fault p appr alg pubkey sig consumer now = (.ok e, after)

/-- A new ledger records any approval id of the usual size.
Witness: the id is fresh, and the record of the entry has fewer octets than its prefix can
count.
-/
theorem consume_emptyLedger {aid : Bytes} (short : aid.length = 50)
    : ∃ e after, emptyLedger.consume none aid [] = (.ok e, after) := by
  have encodes
      : (emptyLedger.nextEntry aid []).bytes = .ok (record (emptyLedger.nextEntry aid [])) := by
    have seq : (0 : Int) ≤ 0 ∧ (0 : Int) < 2 ^ 64 := by decide
    have head : (List.replicate headSize (0 : UInt8)).length < 2 ^ 64 := by decide
    have id : aid.length < 2 ^ 64 := by omega
    exact encodes_iff.mpr ⟨seq, head, id, [], rfl, by decide⟩
  have small : (record (emptyLedger.nextEntry aid [])).length < 2 ^ 32 := by
    have size := length_record_le encodes (show PyStr.encode [] = .ok [] from rfl)
    have head : (emptyLedger.nextEntry aid []).prev.length = 48 := rfl
    have id : (emptyLedger.nextEntry aid []).approvalId.length = 50 := short
    simp only [List.length_nil] at size
    omega
  have unspent : emptyLedger.checkUnspent aid = .ok () := raiseIf_neg (by
    simp [emptyLedger, LedgerMemory.genesis])
  have prepared : emptyLedger.prepareConsume aid [] = .ok ⟨emptyLedger.nextEntry aid [],
      record (emptyLedger.nextEntry aid []), framedRecord (emptyLedger.nextEntry aid []),
      emptyLedger.nextEntry aid []⟩ := by
    rw [Ledger.prepareConsume, unspent, ok_bind]
    exact prepare_eq_ok.mpr ⟨⟨encodes, small⟩, rfl⟩
  refine ⟨emptyLedger.nextEntry aid [], appendEntry emptyLedger (emptyLedger.nextEntry aid []), ?_⟩
  rw [Ledger.consume, prepared]
  simp [Ledger.persist, LogFile.append, emptyLedger, appendEntry]

/-- Some ledger answers exactly for approved charges before the approval expires. -/
theorem chargeAuthorized_iff {now : Int}
    : ChargeAuthorized lib p appr alg pubkey sig now
      ↔ ChargeApproved lib p appr alg pubkey sig ∧ now ≤ appr.notAfter := by
  constructor
  · intro authorized
    obtain ⟨led, fault, consumer, e, after, answered⟩ := authorized
    simp only [Payment.authorizeCharge, guarded_eq_ok, bind_eq_ok, raiseIf_eq_ok, exists_const,
      authorizes_iff] at answered
    obtain ⟨aid, ⟨registered, cid, bound, _, verified, granted, -⟩, -⟩ := answered
    obtain ⟨verified, inTime⟩ := (verifyApproval_at_iff ..).mp verified
    exact ⟨⟨by simpa using registered, ⟨cid, bound, verified⟩, granted⟩, inTime⟩
  · intro approved
    obtain ⟨⟨registered, ⟨cid, bound, verified⟩, granted⟩, inTime⟩ := approved
    have verifiedNow := (verifyApproval_at_iff ..).mpr ⟨verified, inTime⟩
    obtain ⟨⟨body, encoded, -⟩, -⟩ := verifyApproval_eq_ok.mp verified
    have short : (contentIdBytes body).length = 50 := by simp
    obtain ⟨e, after, consumed⟩ := consume_emptyLedger short
    refine ⟨emptyLedger, none, [], e, after, ?_⟩
    rw [authorizeCharge_eq_ok _ _ _ _ _ _ _ _ registered bound]
    exact ⟨_, ⟨verifiedNow, granted, approval_id_eq_ok.mpr ⟨body, encoded, rfl⟩⟩, consumed⟩

end Python

-----------------------------------------------------------------------------------------
-- Go
-----------------------------------------------------------------------------------------

section Go

variable (lib : Go.Cose.SignatureLibrary) (p : PaymentImport) (appr : ApprovalRecord)
  (v : Go.Cose.Verifier) (sig : Bytes)

structure GoChargeApproved : Prop where
  registered : isRegisteredFormat p.format = true
  verified : Go.Approval.verifyApproval lib appr v sig (Go.Payment.bindingId p.chargeBinding)
    appr.notAfter = .ok ()
  granted : Go.Payment.chargeEffect ≤ Go.Payment.grantOctet appr

def GoChargeAuthorized (now : Int) : Prop :=
  ∃ ledger consumer e after,
    Go.Payment.authorizeCharge lib p appr v sig consumer now ledger = (.ok e, after)

/-- The time is compared with the expiry and with nothing else: an approval passes at a time
exactly when it passes at its expiry and that is not before the time.
-/
theorem goVerifyApproval_at_iff {cid : Bytes} {now : Int}
    : Go.Approval.verifyApproval lib appr v sig cid now = .ok ()
      ↔ Go.Approval.verifyApproval lib appr v sig cid appr.notAfter = .ok ()
        ∧ now ≤ appr.notAfter := by
  simp only [Go.Approval.verifyApproval, bind_eq_ok, raiseIf_eq_ok, exists_const, not_lt, le_refl,
    and_true]
  constructor
  · intro verified
    obtain ⟨valid, checked, signed, same, inTime⟩ := verified
    exact ⟨⟨valid, checked, signed, same⟩, inTime⟩
  · intro verified
    obtain ⟨⟨valid, checked, signed, same⟩, inTime⟩ := verified
    exact ⟨valid, checked, signed, same, inTime⟩

/-- A charge is authorized in Go by its approval and the approval's expiry; the expiry of the
charge itself plays no part.
Witness: take the gate apart, and put the time of the approval for the time of the call.
-/
theorem goChargeAuthorized_iff {now : Int}
    : GoChargeAuthorized lib p appr v sig now
      ↔ GoChargeApproved lib p appr v sig ∧ now ≤ appr.notAfter := by
  have checks : ∀ done : Unit, (do
      raiseIf (isRegisteredFormat p.format = false) Go.Payment.errUnknownFormat
      Go.Approval.verifyApproval lib appr v sig (Go.Payment.bindingId p.chargeBinding) now
      raiseIf (Native.Delegation.authorizes (Go.Payment.grantOctet appr) Go.Payment.chargeEffect
        = false) Go.Payment.errApprovalRequired) = .ok done
      ↔ GoChargeApproved lib p appr v sig ∧ now ≤ appr.notAfter := by
    intro done
    simp only [bind_eq_ok, raiseIf_eq_ok, exists_const, Bool.not_eq_false]
    constructor
    · intro passed
      obtain ⟨registered, _, verified, granted⟩ := passed
      obtain ⟨verified, inTime⟩ := (goVerifyApproval_at_iff ..).mp verified
      exact ⟨⟨registered, verified, by simpa [Native.Delegation.authorizes] using granted⟩, inTime⟩
    · intro approved
      obtain ⟨⟨registered, verified, granted⟩, inTime⟩ := approved
      exact ⟨registered, (), (goVerifyApproval_at_iff ..).mpr ⟨verified, inTime⟩,
        by simpa [Native.Delegation.authorizes] using granted⟩
  constructor
  · intro authorized
    obtain ⟨ledger, consumer, e, after, answered⟩ := authorized
    rw [Go.Payment.authorizeCharge] at answered
    split at answered
    · cases (Prod.mk.inj answered).1
    · rename_i done passed
      exact (checks done).mp passed
  · intro approved
    refine ⟨⟨[], .genesis⟩, [], ⟨0, LedgerMemory.genesis.head, Go.Approval.approvalId appr, []⟩, ?_⟩
    rw [Go.Payment.authorizeCharge]
    simp only [(checks ()).mpr approved]
    exact ⟨_, rfl⟩

end Go

-----------------------------------------------------------------------------------------
-- Rust
-----------------------------------------------------------------------------------------

section Rust

variable (lib : Rust.Cose.SignatureLibrary) (p : Rust.Payment.PaymentImport)
  (appr : Rust.Approval.ApprovalRecord) (v : Rust.Cose.Verifier) (sig : Bytes)

structure RustChargeApproved : Prop where
  registered : Rust.Payment.isRegisteredFormat p.format = true
  verified : ∃ cid, p.chargeBinding.contentId = .ok cid
    ∧ Rust.Approval.verifyApproval lib appr v sig cid appr.notAfter = .ok ()
  granted : Rust.Payment.chargeEffect ≤ appr.grantOctet

def RustChargeAuthorized (now : UInt64) : Prop :=
  ∃ ledger consumer after,
    Rust.Payment.authorizeCharge lib p appr v sig consumer now ledger = (.ok (), after)

theorem rustVerifyApproval_at_iff {cid : Bytes} {now : UInt64}
    : Rust.Approval.verifyApproval lib appr v sig cid now = .ok ()
      ↔ Rust.Approval.verifyApproval lib appr v sig cid appr.notAfter = .ok ()
        ∧ now ≤ appr.notAfter := by
  simp only [rustVerifyApproval_eq_ok, UInt64.le_refl, and_true, and_assoc]

/-- The same of the Rust gate, whose approval is narrowed to an effect. -/
theorem rustChargeAuthorized_iff {now : UInt64}
    : RustChargeAuthorized lib p appr v sig now
      ↔ RustChargeApproved lib p appr v sig ∧ now ≤ appr.notAfter := by
  have checks : ∀ aid, (do
      raiseIf (Rust.Payment.isRegisteredFormat p.format = false) Rust.Payment.errUnknownFormat
      let chargeCid ← p.chargeBinding.contentId
      Rust.Approval.verifyApproval lib appr v sig chargeCid now
      raiseIf (Native.Delegation.authorizes appr.grantOctet Rust.Payment.chargeEffect = false)
        Rust.Approval.errApprovalRequired
      appr.id) = .ok aid
      ↔ (RustChargeApproved lib p appr v sig ∧ now ≤ appr.notAfter) ∧ aid = approvalId appr := by
    intro aid
    simp only [bind_eq_ok, raiseIf_eq_ok, exists_const, Bool.not_eq_false, rustApproval_id,
      Except.ok.injEq]
    constructor
    · intro passed
      obtain ⟨registered, cid, bound, _, verified, granted, same⟩ := passed
      obtain ⟨verified, inTime⟩ := (rustVerifyApproval_at_iff ..).mp verified
      exact ⟨⟨⟨registered, ⟨cid, bound, verified⟩,
        by simpa [Native.Delegation.authorizes] using granted⟩, inTime⟩, same.symm⟩
    · intro approved
      obtain ⟨⟨⟨registered, ⟨cid, bound, verified⟩, granted⟩, inTime⟩, rfl⟩ := approved
      exact ⟨registered, cid, bound, (), (rustVerifyApproval_at_iff ..).mpr ⟨verified, inTime⟩,
        by simpa [Native.Delegation.authorizes] using granted, rfl⟩
  have leaves : ∀ aid, _ → aid = approvalId appr := fun aid passed => ((checks aid).mp passed).2
  constructor
  · intro authorized
    obtain ⟨ledger, consumer, after, answered⟩ := authorized
    rcases rustGuarded_cases ledger (approvalId appr) consumer leaves with
      ⟨stop, refused, -⟩ | ⟨octets, -, -, passed, -⟩
    · rw [Rust.Payment.authorizeCharge, refused] at answered
      cases (Prod.mk.inj answered).1
    · exact ((checks _).mp passed).1
  · intro approved
    have passed := (checks _).mpr ⟨approved, rfl⟩
    rcases rustGuarded_cases ⟨[], .genesis⟩ (approvalId appr) [] leaves with
      ⟨stop, -, stuck⟩ | ⟨octets, -, answered, -, -⟩
    · exact (stuck ⟨passed, by simp [LedgerMemory.genesis]⟩).elim
    · exact ⟨_, [], _, answered⟩

end Rust

/-- In each implementation, for every charge, approval, key and signature: no time and ledger get
the charge authorized after its own expiry or after the approval's, exactly when the approval is
none of the charge or does not outlast it.
Witness: a gate that authorizes exactly up to the expiry of the approval does so within both
expiries exactly when that one comes first.
-/
theorem charges_expire_iff
    (lib : SignatureLibrary) (goLib : Go.Cose.SignatureLibrary)
    (rustLib : Rust.Cose.SignatureLibrary) (p : PaymentImport) (appr : ApprovalRecord) (alg : Int)
    (pubkey sig : Bytes) (goV : Go.Cose.Verifier) (rustP : Rust.Payment.PaymentImport)
    (rustAppr : Rust.Approval.ApprovalRecord) (rustV : Rust.Cose.Verifier)
    : ((∀ led fault consumer now e after,
          Payment.authorizeCharge lib led fault p appr alg pubkey sig consumer now = (.ok e, after)
          → now ≤ p.notAfter ∧ now ≤ appr.notAfter)
        ↔ (ChargeApproved lib p appr alg pubkey sig → appr.notAfter ≤ p.notAfter))
      ∧ ((∀ ledger consumer now e after,
          Go.Payment.authorizeCharge goLib p appr goV sig consumer now ledger = (.ok e, after)
          → now ≤ p.notAfter ∧ now ≤ appr.notAfter)
        ↔ (GoChargeApproved goLib p appr goV sig → appr.notAfter ≤ p.notAfter))
      ∧ ((∀ ledger consumer now after,
          Rust.Payment.authorizeCharge rustLib rustP rustAppr rustV sig consumer now ledger
            = (.ok (), after)
          → now ≤ rustP.notAfter ∧ now ≤ rustAppr.notAfter)
        ↔ (RustChargeApproved rustLib rustP rustAppr rustV sig
            → rustAppr.notAfter ≤ rustP.notAfter)) := by
  refine ⟨?_, ?_, ?_⟩
  · rw [← answered_within_iff fun now => chargeAuthorized_iff lib p appr alg pubkey sig]
    constructor
    · intro kept now authorized
      obtain ⟨led, fault, consumer, e, after, answered⟩ := authorized
      exact kept led fault consumer now e after answered
    · intro kept led fault consumer now e after answered
      exact kept now ⟨led, fault, consumer, e, after, answered⟩
  · rw [← answered_within_iff fun now => goChargeAuthorized_iff goLib p appr goV sig]
    constructor
    · intro kept now authorized
      obtain ⟨ledger, consumer, e, after, answered⟩ := authorized
      exact kept ledger consumer now e after answered
    · intro kept ledger consumer now e after answered
      exact kept now ⟨ledger, consumer, e, after, answered⟩
  · rw [← answered_within_iff fun now => rustChargeAuthorized_iff rustLib rustP rustAppr rustV sig]
    constructor
    · intro kept now authorized
      obtain ⟨ledger, consumer, after, answered⟩ := authorized
      exact kept ledger consumer now after answered
    · intro kept ledger consumer now after answered
      exact kept now ⟨ledger, consumer, after, answered⟩

/-- The octets of the sample charge's binding. -/
def sampleBinding : Bytes :=
  encoding (.m [(.u 1, .u 1), (.u 2, .u 5), (.u 3, .t []), (.u 4, .b [7]), (.u 5, .u 10),
    (.u 6, .b (contentIdBytes []))])

/-- The id of the sample charge, by the octets of its binding. -/
theorem contentId_sampleCharge
    : sampleCharge.chargeBinding.contentId = .ok (contentIdBytes sampleBinding) := by
  have empty : Encodable (.t []) := rfl
  have size : (contentIdBytes []).length < 2 ^ 64 := by simp
  have fits : ∀ v ∈ [Value.u 1, .u 5, .t [], .b [7], .u 10, .b (contentIdBytes [])],
      Encodable v := by
    simp only [List.forall_mem_cons, encodable_u, encodable_b]
    exact ⟨by decide, by decide, empty, by decide, by decide, size, nofun⟩
  have encoded : sampleCharge.chargeBinding.bytes = .ok sampleBinding :=
    (@encodable_numbered 1 _ (by simp)).mpr fits
  rw [Payment.ChargeBinding.contentId, encoded]
  rfl

/-- An approval of charges that expires at the time 1000. -/
def outlasting (cid : Bytes) : ApprovalRecord :=
  { approves := cid, approver := [], grant := 2, nonce := [], notAfter := 1000 }

def outlastingBody (cid : Bytes) : Bytes :=
  encoding (.m [(.u 1, .b cid), (.u 2, .t []), (.u 3, .u 2), (.u 4, .b []), (.u 5, .u 1000)])

theorem bytes_outlasting {cid : Bytes} (short : cid.length < 2 ^ 64)
    : (outlasting cid).bytes = .ok (outlastingBody cid) := by
  have empty : Encodable (.t []) := rfl
  have fits : ∀ v ∈ [Value.b cid, .t [], .u 2, .b [], .u 1000], Encodable v := by
    simp only [List.forall_mem_cons, encodable_u, encodable_b]
    exact ⟨short, empty, by decide, by decide, by decide, nofun⟩
  exact (@encodable_numbered 1 _ (by simp)).mpr fits

/-- A charge that expires at the time 10 is authorized at the time 1000. -/
theorem charge_authorized_after_expiry
    : let appr := outlasting (contentIdBytes sampleBinding)
      let sig := digestSignature (outlastingBody (contentIdBytes sampleBinding))
      sampleCharge.notAfter = 10
      ∧ ∃ led fault consumer e after,
        Payment.authorizeCharge digestLibrary led fault sampleCharge appr algMldsa65
          objectKey.pubKey sig consumer 1000 = (.ok e, after) := by
  have size : (contentIdBytes sampleBinding).length < 2 ^ 64 := by
    simp
  have verified : verifyApproval digestLibrary (outlasting (contentIdBytes sampleBinding))
      algMldsa65 objectKey.pubKey (digestSignature (outlastingBody (contentIdBytes sampleBinding)))
      (contentIdBytes sampleBinding) 1000 = .ok () :=
    verifyApproval_eq_ok.mpr ⟨⟨_, bytes_outlasting size, Signatures.digestSignature_verifies _⟩,
      rfl, le_refl _⟩
  have approved : ChargeApproved digestLibrary sampleCharge
      (outlasting (contentIdBytes sampleBinding)) algMldsa65 objectKey.pubKey
      (digestSignature (outlastingBody (contentIdBytes sampleBinding))) :=
    ⟨rfl, ⟨_, contentId_sampleCharge, verified⟩, le_refl _⟩
  exact ⟨rfl, (chargeAuthorized_iff ..).mpr ⟨approved, le_refl _⟩⟩

end Naalp.Authorization
