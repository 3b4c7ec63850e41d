import Naalp.Go.Naming
import Naalp.Python.Approval
import Naalp.Signatures.HeaderCoverage

/-! Objects signed with the library on which the model can be evaluated. Every payload has one that
both implementations accept under one key.
-/

namespace Naalp.Signatures

open Naalp.Foundation
open Naalp.Python
open Naalp.Python.Cbor
open Naalp.Python.Cose
open Naalp.Implementations

/-- The tagged COSE_Sign1 value of a payload with an empty unprotected map. -/
def sampleValue (payload : Bytes) : Value :=
  .tag tagSign1 (.a [.b sampleHeader, .m [], .b payload, .b (sampleSignature payload)])

def sampleSigned (payload : Bytes) : Bytes := encoding (sampleValue payload)

variable {payload : Bytes}

theorem decode_sampleSigned (short : payload.length < 2 ^ 64)
    : decode (sampleSigned payload) = .ok (sampleValue payload) :=
  decode_signedUnderBare (by decide) short

theorem parse_sampleSigned (short : payload.length < 2 ^ 64)
    : parseSign1Raw (sampleSigned payload) = .ok (sampleHeader, payload, sampleSignature payload) :=
  parseSign1Raw_eq_ok.mpr ⟨.m [], decode_sampleSigned short⟩

theorem goParse_sampleSigned (short : payload.length < 2 ^ 64)
    : Go.Cose.parseSign1Raw (sampleSigned payload)
      = .ok (sampleHeader, payload, sampleSignature payload) :=
  goParse_signedUnderBare (by decide) short

theorem encodable_sampleMessage (short : payload.length < 2 ^ 64)
    : Encodable (sign1Message payload sampleHeader) :=
  (sign1Message_canonical short (by decide)).encodable

/-- The naming gate returns the payload of a sample object. -/
theorem verifySign1_sampleSigned (short : payload.length < 2 ^ 64)
    : Naming.verifySign1 digestLibrary (sampleSigned payload) 1 algMldsa65 objectKey.pubKey
      = .ok payload :=
  floorGate_eq_ok.mpr ⟨sampleHeader, sampleSignature payload, _, parse_sampleSigned short,
    alg_of_written sampleHeader_written, by decide, by decide, encodable_sampleMessage short,
    digestSignature_verifies _⟩

/-- So does the gate of the Go modules. -/
theorem signedPayload_sampleSigned (short : payload.length < 2 ^ 64)
    : Go.Naming.signedPayload Go.Cose.digestLibrary (sampleSigned payload) 1 objectKey
      = .ok payload := by
  have header := goAlg_of_written sampleHeader_written (by decide)
  have accepted : Go.Cose.verify1 Go.Cose.digestLibrary 1 objectKey (sampleSigned payload)
      = .ok () :=
    (verify1_signedUnderBare (by decide) short header).2
  rw [Go.Naming.signedPayload, accepted, ok_bind, goParse_sampleSigned short]
  rfl

-----------------------------------------------------------------------------------------
-- Approvals
-----------------------------------------------------------------------------------------

/-- The approval of an action until the time 1000. -/
def sampleApproval (cid : Bytes) : Approval.ApprovalRecord where
  approves := cid
  approver := []
  grant := 1
  nonce := []
  notAfter := 1000

def approvalBody (cid : Bytes) : Bytes :=
  encoding (.m [(.u 1, .b cid), (.u 2, .t []), (.u 3, .u 1), (.u 4, .b []), (.u 5, .u 1000)])

theorem bytes_sampleApproval {cid : Bytes} (short : cid.length < 2 ^ 64)
    : (sampleApproval cid).bytes = .ok (approvalBody cid) := by
  have empty : Encodable (.t []) := rfl
  have fits : ∀ v ∈ [Value.b cid, .t [], .u 1, .b [], .u 1000], Encodable v := by
    simp only [List.forall_mem_cons, encodable_u, encodable_b]
    exact ⟨short, empty, by decide, by decide, by decide, nofun⟩
  exact (@encodable_numbered 1 _ (by simp)).mpr fits

/-- Signed with the key, it is valid for the action and in time. -/
theorem verifyApproval_sample {cid : Bytes} (short : cid.length < 2 ^ 64) {now : Int}
    (inTime : now ≤ 1000)
    : Approval.verifyApproval digestLibrary (sampleApproval cid) algMldsa65 objectKey.pubKey
        (digestSignature (approvalBody cid)) cid now = .ok () := by
  rw [Approval.verifyApproval, bytes_sampleApproval short, ok_bind, digestSignature_verifies,
    ok_bind, raiseIf_neg (by simp), ok_bind, raiseIf_neg (by simp [sampleApproval]), ok_bind]
  exact raiseIf_neg (by simpa [sampleApproval] using inTime)

end Naalp.Signatures
