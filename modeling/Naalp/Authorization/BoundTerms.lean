import Naalp.Authorization.ChargeExpiry

/-! What an approval binds: the terms of one charge, or the octets of one tool call, and never both.
The terms reach the approval through an encoding and two hashes, so a second thing under the same
approval exhibits two octet strings with one digest.
-/

namespace Naalp.Authorization

open Naalp.Foundation
open Naalp.Foundation.Sha2 (DigestsCollide)
open Naalp.Python
open Naalp.Python.Approval
open Naalp.Python.Cbor
open Naalp.Python.Cose
open Naalp.Python.Envelope (eq_or_collide_of_contentId)
open Naalp.Python.Payment (PaymentImport)
open Naalp.Signatures (digestSignature objectKey)

-----------------------------------------------------------------------------------------
-- The two bindings
-----------------------------------------------------------------------------------------

/-- The values of a charge binding, in the order of their keys. -/
def chargeTerms (b : Payment.ChargeBinding) : List Value :=
  [.u b.format, .u b.amount, .t b.currency, .b b.payee, .u b.notAfter, .b b.foreignId]

def callTerms (b : Mcp.CallBinding) : List Value := [.b b.toolId, .b b.argsId]

theorem chargeTerms_leaves (b : Payment.ChargeBinding) : ∀ v ∈ chargeTerms b, Leaf v := by
  simp [chargeTerms, Leaf]

theorem callTerms_leaves (b : Mcp.CallBinding) : ∀ v ∈ callTerms b, Leaf v := by
  simp [callTerms, Leaf]

theorem chargeBinding_eq_of_bytes {b b' : Payment.ChargeBinding} {body : Bytes}
    (encoded : b.bytes = .ok body) (encoded' : b'.bytes = .ok body) : b = b' := by
  have terms : chargeTerms b = chargeTerms b' :=
    values_eq_of_encode (by simp [chargeTerms]) (by simp [chargeTerms]) (chargeTerms_leaves b)
      (chargeTerms_leaves b') encoded encoded'
  obtain ⟨format, amount, currency, payee, notAfter, foreignId⟩ := b
  obtain ⟨format', amount', currency', payee', notAfter', foreignId'⟩ := b'
  simpa [chargeTerms] using terms

theorem callBinding_eq_of_bytes {b b' : Mcp.CallBinding} {body : Bytes}
    (encoded : b.bytes = .ok body) (encoded' : b'.bytes = .ok body) : b = b' := by
  have terms : callTerms b = callTerms b' :=
    values_eq_of_encode (by simp [callTerms]) (by simp [callTerms]) (callTerms_leaves b)
      (callTerms_leaves b') encoded encoded'
  obtain ⟨toolId, argsId⟩ := b
  obtain ⟨toolId', argsId'⟩ := b'
  simpa [callTerms] using terms

/-- A charge has six terms and a call two, so their bindings have different octets. -/
theorem bindings_apart {b : Payment.ChargeBinding} {c : Mcp.CallBinding} {body : Bytes}
    (encoded : b.bytes = .ok body) (encoded' : c.bytes = .ok body) : False := by
  have terms : chargeTerms b = callTerms c :=
    values_eq_of_encode (by simp [chargeTerms]) (by simp [callTerms]) (chargeTerms_leaves b)
      (callTerms_leaves c) encoded encoded'
  have lengths := congrArg List.length terms
  simp [chargeTerms, callTerms] at lengths

-----------------------------------------------------------------------------------------
-- What is hashed
-----------------------------------------------------------------------------------------

/-- The octets that the digests of a charge are taken of. -/
def chargeInputs (p : PaymentImport) : List Bytes :=
  p.foreign :: p.chargeBinding.bytes.toOption.toList

/-- The octets that the digests of a tool call are taken of. -/
def callInputs (tc : Mcp.ToolCall) : List Bytes :=
  tc.tool :: tc.args :: tc.callBinding.bytes.toOption.toList

/-- The id of a charge is the hash of octets that are listed among its inputs. -/
theorem contentId_charge_eq_ok {p : PaymentImport} {cid : Bytes}
    : p.chargeBinding.contentId = .ok cid
      ↔ ∃ body, p.chargeBinding.bytes = .ok body ∧ body ∈ chargeInputs p
        ∧ contentIdBytes body = cid := by
  simp only [Payment.ChargeBinding.contentId, bind_eq_ok, pure_eq_ok, Except.ok.injEq]
  constructor
  · intro bound
    obtain ⟨body, encoded, same⟩ := bound
    exact ⟨body, encoded, by simp [chargeInputs, encoded, Except.toOption], same⟩
  · intro bound
    obtain ⟨body, encoded, -, same⟩ := bound
    exact ⟨body, encoded, same⟩

/-- The id of a call is the hash of octets that are listed among its inputs. -/
theorem contentId_call_eq_ok {tc : Mcp.ToolCall} {cid : Bytes}
    : tc.callBinding.contentId = .ok cid
      ↔ ∃ body, tc.callBinding.bytes = .ok body ∧ body ∈ callInputs tc
        ∧ contentIdBytes body = cid := by
  simp only [Mcp.CallBinding.contentId, bind_eq_ok, pure_eq_ok, Except.ok.injEq]
  constructor
  · intro bound
    obtain ⟨body, encoded, same⟩ := bound
    exact ⟨body, encoded, by simp [callInputs, encoded, Except.toOption], same⟩
  · intro bound
    obtain ⟨body, encoded, -, same⟩ := bound
    exact ⟨body, encoded, same⟩

/-- Charges with one id have the same fields, or two strings that were hashed for them collide.
Witness: equal octets are read back as equal fields, first of the binding and then of the
reference that it hashes.
-/
theorem charge_eq_of_contentId {p p' : PaymentImport} {cid : Bytes}
    (bound : p.chargeBinding.contentId = .ok cid) (bound' : p'.chargeBinding.contentId = .ok cid)
    : p = p' ∨ DigestsCollide (chargeInputs p ++ chargeInputs p') := by
  obtain ⟨body, encoded, member, same⟩ := contentId_charge_eq_ok.mp bound
  obtain ⟨body', encoded', member', same'⟩ := contentId_charge_eq_ok.mp bound'
  rcases eq_or_collide_of_contentId (List.mem_append_left _ member)
    (List.mem_append_right _ member') (same.trans same'.symm) with rfl | collide
  · have terms := chargeBinding_eq_of_bytes encoded encoded'
    simp only [PaymentImport.chargeBinding, Payment.ChargeBinding.mk.injEq] at terms
    obtain ⟨format, amount, currency, payee, notAfter, foreignId⟩ := terms
    have carried : p.foreign ∈ chargeInputs p ++ chargeInputs p' := by simp [chargeInputs]
    have carried' : p'.foreign ∈ chargeInputs p ++ chargeInputs p' := by simp [chargeInputs]
    rcases eq_or_collide_of_contentId carried carried' foreignId with foreign | collide
    · cases p
      cases p'
      simp_all
    · exact .inr collide
  · exact .inr collide

/-- Calls with one id name the same tool and arguments, or two strings that were hashed for
them collide.
Witness: the binding is read back from its octets; what is left are the hashes of the
definition and of the arguments.
-/
theorem call_eq_of_contentId {tc tc' : Mcp.ToolCall} {cid : Bytes}
    (bound : tc.callBinding.contentId = .ok cid) (bound' : tc'.callBinding.contentId = .ok cid)
    : tc = tc' ∨ DigestsCollide (callInputs tc ++ callInputs tc') := by
  obtain ⟨body, encoded, member, same⟩ := contentId_call_eq_ok.mp bound
  obtain ⟨body', encoded', member', same'⟩ := contentId_call_eq_ok.mp bound'
  rcases eq_or_collide_of_contentId (List.mem_append_left _ member)
    (List.mem_append_right _ member') (same.trans same'.symm) with rfl | collide
  · have terms := callBinding_eq_of_bytes encoded encoded'
    simp only [Mcp.ToolCall.callBinding, Mcp.CallBinding.mk.injEq] at terms
    obtain ⟨toolId, argsId⟩ := terms
    rcases @eq_or_collide_of_contentId _ _ (callInputs tc ++ callInputs tc') (by simp [callInputs])
      (by simp [callInputs]) toolId with tool | collide
    · rcases @eq_or_collide_of_contentId _ _ (callInputs tc ++ callInputs tc')
        (by simp [callInputs]) (by simp [callInputs]) argsId with args | collide
      · cases tc
        cases tc'
        simp_all
      · exact .inr collide
    · exact .inr collide
  · exact .inr collide

theorem charge_call_collide {p : PaymentImport} {tc : Mcp.ToolCall} {cid : Bytes}
    (bound : p.chargeBinding.contentId = .ok cid) (bound' : tc.callBinding.contentId = .ok cid)
    : DigestsCollide (chargeInputs p ++ callInputs tc) := by
  obtain ⟨body, encoded, member, same⟩ := contentId_charge_eq_ok.mp bound
  obtain ⟨body', encoded', member', same'⟩ := contentId_call_eq_ok.mp bound'
  rcases eq_or_collide_of_contentId (List.mem_append_left _ member)
    (List.mem_append_right _ member') (same.trans same'.symm) with rfl | collide
  · exact (bindings_apart encoded encoded').elim
  · exact collide

-----------------------------------------------------------------------------------------
-- The approval
-----------------------------------------------------------------------------------------

section Bound

variable (lib : SignatureLibrary) (appr : ApprovalRecord)

/-- The approval verifies for the content id, under some key and signature and at some time. -/
def VerifiesFor (cid : Bytes) : Prop :=
  ∃ alg pubkey sig now, verifyApproval lib appr alg pubkey sig cid now = .ok ()

/-- The verification step of `authorize_charge` accepts the approval for the charge. -/
def VerifiesCharge (p : PaymentImport) : Prop :=
  ∃ cid, p.chargeBinding.contentId = .ok cid ∧ VerifiesFor lib appr cid

/-- The verification step of `authorize_call` accepts the approval for the call. -/
def VerifiesCall (tc : Mcp.ToolCall) : Prop :=
  ∃ cid, tc.callBinding.contentId = .ok cid ∧ VerifiesFor lib appr cid

variable {lib appr}

theorem VerifiesFor.approves_eq {cid : Bytes} (verifies : VerifiesFor lib appr cid)
    : cid = appr.approves := by
  obtain ⟨alg, pubkey, sig, now, verified⟩ := verifies
  exact (verifyApproval_eq_ok.mp verified).2.1.symm

/-- An authorized charge was verified. -/
theorem verifiesCharge_of_authorizeCharge {led after : Ledger} {fault : Option Fault}
    {p : PaymentImport} {alg : Int} {pubkey sig : Bytes} {consumer : PyStr} {now : Int}
    {e : LedgerEntry}
    (authorized : Payment.authorizeCharge lib led fault p appr alg pubkey sig consumer now
      = (.ok e, after))
    : VerifiesCharge lib appr p := by
  obtain ⟨approved, inTime⟩ :=
    (chargeAuthorized_iff ..).mp ⟨led, fault, consumer, e, after, authorized⟩
  obtain ⟨cid, bound, verified⟩ := approved.verified
  exact ⟨cid, bound, alg, pubkey, sig, _, verified⟩

/-- An authorized call was verified. -/
theorem verifiesCall_of_authorizeCall {led after : Ledger} {fault : Option Fault}
    {r : Mcp.Resolved} {alg : Int} {pubkey sig : Bytes} {consumer : PyStr} {now : Int}
    (authorized : Mcp.authorizeCall lib led fault r appr alg pubkey sig consumer now
      = (.ok (), after))
    : VerifiesCall lib appr r.toolCall := by
  simp only [Mcp.authorizeCall, guarded_eq_ok, bind_eq_ok, mapError_eq_ok] at authorized
  obtain ⟨aid, ⟨cid, bound, _, verified, -⟩, -⟩ := authorized
  exact ⟨cid, bound, alg, pubkey, sig, now, verified⟩

end Bound

/-- An approval that verifies for two charges verifies for one charge, in every term; one that
verifies for two tool calls verifies for one, in the octets of tool and arguments; and none verifies
for a charge and a tool call. Otherwise two of the hashed octet strings have one digest.
Witness: an approval names one content id; equal ids are read back to equal terms, and the ids
of a charge and of a call are of maps with different keys.
-/
theorem approval_binds_one_action (lib : SignatureLibrary) (appr : ApprovalRecord)
    : (∀ p p', VerifiesCharge lib appr p → VerifiesCharge lib appr p'
        → (p.format = p'.format ∧ p.amount = p'.amount ∧ p.currency = p'.currency
            ∧ p.payee = p'.payee ∧ p.notAfter = p'.notAfter ∧ p.foreign = p'.foreign)
          ∨ DigestsCollide (chargeInputs p ++ chargeInputs p'))
      ∧ (∀ tc tc', VerifiesCall lib appr tc → VerifiesCall lib appr tc'
        → (tc.tool = tc'.tool ∧ tc.args = tc'.args)
          ∨ DigestsCollide (callInputs tc ++ callInputs tc'))
      ∧ (∀ p tc, VerifiesCharge lib appr p → VerifiesCall lib appr tc
        → DigestsCollide (chargeInputs p ++ callInputs tc)) := by
  refine ⟨?_, ?_, ?_⟩
  · intro p p' verifies verifies'
    obtain ⟨cid, bound, approved⟩ := verifies
    obtain ⟨cid', bound', approved'⟩ := verifies'
    obtain rfl := approved.approves_eq
    obtain rfl := approved'.approves_eq
    rcases charge_eq_of_contentId bound bound' with rfl | collide
    · exact .inl ⟨rfl, rfl, rfl, rfl, rfl, rfl⟩
    · exact .inr collide
  · intro tc tc' verifies verifies'
    obtain ⟨cid, bound, approved⟩ := verifies
    obtain ⟨cid', bound', approved'⟩ := verifies'
    obtain rfl := approved.approves_eq
    obtain rfl := approved'.approves_eq
    rcases call_eq_of_contentId bound bound' with rfl | collide
    · exact .inl ⟨rfl, rfl⟩
    · exact .inr collide
  · intro p tc verifies verifies'
    obtain ⟨cid, bound, approved⟩ := verifies
    obtain ⟨cid', bound', approved'⟩ := verifies'
    obtain rfl := approved.approves_eq
    obtain rfl := approved'.approves_eq
    exact charge_call_collide bound bound'

/-- The theorem at the sample charge under its approval, and at what it says of other charges. -/
theorem approval_binds_sample_charge
    : VerifiesCharge digestLibrary (outlasting (contentIdBytes sampleBinding)) sampleCharge
      ∧ ∀ p, VerifiesCharge digestLibrary (outlasting (contentIdBytes sampleBinding)) p
        → p.amount = 5 ∨ DigestsCollide (chargeInputs sampleCharge ++ chargeInputs p) := by
  have size : (contentIdBytes sampleBinding).length < 2 ^ 64 := by
    simp
  have verifies : VerifiesCharge digestLibrary (outlasting (contentIdBytes sampleBinding))
      sampleCharge := by
    refine ⟨_, contentId_sampleCharge, algMldsa65, objectKey.pubKey,
      digestSignature (outlastingBody (contentIdBytes sampleBinding)), 0, ?_⟩
    exact verifyApproval_eq_ok.mpr
      ⟨⟨_, bytes_outlasting size, Signatures.digestSignature_verifies _⟩,
      rfl, by decide⟩
  refine ⟨verifies, ?_⟩
  intro p verifies'
  rcases (approval_binds_one_action _ _).1 sampleCharge p verifies verifies' with same | collide
  · exact .inl same.2.1.symm
  · exact .inr collide

end Naalp.Authorization
