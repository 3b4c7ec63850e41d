import Naalp.Authorization.ApprovalGates
import Naalp.Envelope.SignVerify

/-! The three hand-assembled gates against the composed one.
Each makes the checks of `consume_approval` in its own order, except for the bound on the grant.
-/

namespace Naalp.Authorization

open Naalp.Foundation
open Naalp.Python
open Naalp.Python.Approval
open Naalp.Python.Cose

theorem guarded_eq_ok {α β : Type} {led after : Ledger} {checks : Py α}
    {call : α → Py β × Ledger} {result : β}
    : led.guarded checks call = (.ok result, after)
      ↔ ∃ value, checks = .ok value ∧ call value = (.ok result, after) := by
  cases checks <;> simp [Ledger.guarded]

/-- Dropping the entry keeps whether a consume returned. -/
theorem dropEntry_eq_ok {answered : Py LedgerEntry × Ledger} {after : Ledger}
    : (answered.1.map (fun _ => ()), answered.2) = (.ok (), after)
      ↔ ∃ e, answered = (.ok e, after) := by
  obtain ⟨outcome, led⟩ := answered
  cases outcome <;> simp [Except.map]

section Agreement

variable (lib : SignatureLibrary) (led : Ledger) (fault : Option Fault) (appr : ApprovalRecord)
  (alg : Int) (pubkey sig : Bytes) (now : Int)

/-- The checks that all gates make, for what the approval has to bind and the effect that it has
to cover; `aid` is the id that is then consumed.
-/
def Passes (cid : Bytes) (effect : Int) (aid : Bytes) : Prop :=
  verifyApproval lib appr alg pubkey sig cid now = .ok () ∧ effect ≤ appr.grant
  ∧ appr.id = .ok aid

/-- `consume_approval` returns when the shared checks pass, the grant is a known class, and the
consume of the approval's id returns.
-/
theorem consumeApproval_eq_ok {cid : Bytes} {effect : Int} {consumer : PyStr} {e : LedgerEntry}
    {after : Ledger}
    : consumeApproval lib led fault appr alg pubkey sig cid now effect consumer = (.ok e, after)
      ↔ appr.grant ≤ Policy.destructive
        ∧ ∃ aid, Passes lib appr alg pubkey sig now cid effect aid
          ∧ led.consume fault aid consumer = (.ok e, after) := by
  simp only [consumeApproval, guarded_eq_ok, bind_eq_ok, raiseIf_eq_ok, exists_const, not_lt,
    authorizes_iff]
  constructor
  · intro ran
    obtain ⟨aid, ⟨_, verified, small, covered, id⟩, consumed⟩ := ran
    exact ⟨small, aid, ⟨verified, covered, id⟩, consumed⟩
  · intro ran
    obtain ⟨small, aid, ⟨verified, covered, id⟩, consumed⟩ := ran
    exact ⟨aid, ⟨(), verified, small, covered, id⟩, consumed⟩

/-- A charge is authorized exactly when the approval passes for the id of its binding and the
ledger takes the approval's id.
-/
theorem authorizeCharge_eq_ok {p : Payment.PaymentImport} {cid : Bytes} {consumer : PyStr}
    {e : LedgerEntry} {after : Ledger} (registered : Payment.isRegisteredFormat p.format = true)
    (bound : p.chargeBinding.contentId = .ok cid)
    : Payment.authorizeCharge lib led fault p appr alg pubkey sig consumer now = (.ok e, after)
      ↔ ∃ aid, Passes lib appr alg pubkey sig now cid Payment.chargeEffect aid
        ∧ led.consume fault aid consumer = (.ok e, after) := by
  simp only [Payment.authorizeCharge, guarded_eq_ok, bind_eq_ok, raiseIf_eq_ok, exists_const,
    registered, bound, authorizes_iff]
  constructor
  · intro ran
    obtain ⟨aid, ⟨-, _, same, _, verified, covered, id⟩, consumed⟩ := ran
    obtain rfl := Except.ok.inj same
    exact ⟨aid, ⟨verified, covered, id⟩, consumed⟩
  · intro ran
    obtain ⟨aid, ⟨verified, covered, id⟩, consumed⟩ := ran
    exact ⟨aid, ⟨by decide, cid, rfl, (), verified, covered, id⟩, consumed⟩

/-- A call is authorized exactly when the approval passes for the id of its binding at the
enforced effect and the ledger takes the approval's id.
-/
theorem authorizeCall_eq_ok {r : Mcp.Resolved} {cid : Bytes} {consumer : PyStr} {after : Ledger}
    (bound : r.toolCall.callBinding.contentId = .ok cid)
    : Mcp.authorizeCall lib led fault r appr alg pubkey sig consumer now = (.ok (), after)
      ↔ ∃ aid, Passes lib appr alg pubkey sig now cid r.enforced aid
        ∧ ∃ e, led.consume fault aid consumer = (.ok e, after) := by
  simp only [Mcp.authorizeCall, guarded_eq_ok, bind_eq_ok, raiseIf_eq_ok, exists_const, bound,
    authorizes_iff, mapError_eq_ok, dropEntry_eq_ok]
  constructor
  · intro ran
    obtain ⟨aid, ⟨_, same, _, verified, covered, id⟩, consumed⟩ := ran
    obtain rfl := Except.ok.inj same
    exact ⟨aid, ⟨verified, covered, id⟩, consumed⟩
  · intro ran
    obtain ⟨aid, ⟨verified, covered, id⟩, consumed⟩ := ran
    exact ⟨aid, ⟨cid, rfl, (), verified, covered, id⟩, consumed⟩

/-- With an accepted chain, an action is authorized exactly when the approval passes for the id
of its arguments and the ledger takes the approval's id.
-/
theorem authorizeDestructive_eq_ok {action : Delegation.Action} {grants : Delegation.GrantSet}
    {anchors : List PyStr} {revoked : Delegation.Revocations} {cid : Bytes} {after : Ledger}
    (chained : Delegation.verifyChain action grants anchors revoked now = .ok ())
    : Delegation.authorizeDestructive lib led fault action grants anchors revoked now appr alg
          pubkey sig cid = (.ok (), after)
      ↔ ∃ aid, Passes lib appr alg pubkey sig now cid action.effect aid
        ∧ ∃ e, led.consume fault aid action.signer = (.ok e, after) := by
  simp only [Delegation.authorizeDestructive, guarded_eq_ok, bind_eq_ok, raiseIf_eq_ok,
    exists_const, chained, authorizes_iff, mapError_eq_ok, Prod.mk.injEq]
  constructor
  · intro ran
    obtain ⟨aid, ⟨-, _, verified, covered, id⟩, consumed⟩ := ran
    exact ⟨aid, ⟨verified, covered, id⟩, dropEntry_eq_ok.mp (Prod.ext consumed.1 consumed.2)⟩
  · intro ran
    obtain ⟨aid, ⟨verified, covered, id⟩, consumed⟩ := ran
    obtain ⟨returned, same⟩ := Prod.mk.inj (dropEntry_eq_ok.mpr consumed)
    exact ⟨aid, ⟨trivial, (), verified, covered, id⟩, returned, same⟩

/-- For every approval, key, time, ledger, fault and consumer, and with the same entry and ledger
afterwards: `consume_approval` succeeds for what a gate binds and enforces exactly when the gate
succeeds and the grant is at most 3. The charge has a registered format and the chain of the
destructive action verifies.
Witness: both sides make the same checks and one consume; only the bound on the grant is left
over.
-/
theorem consumeApproval_iff_gate_and_known_grant (consumer : PyStr)
    : (∀ (p : Payment.PaymentImport) (cid : Bytes),
        Payment.isRegisteredFormat p.format = true → p.chargeBinding.contentId = .ok cid
        → ∀ e after, consumeApproval lib led fault appr alg pubkey sig cid now
              Payment.chargeEffect consumer = (.ok e, after)
            ↔ appr.grant ≤ 3
              ∧ Payment.authorizeCharge lib led fault p appr alg pubkey sig consumer now
                = (.ok e, after))
      ∧ (∀ (r : Mcp.Resolved) (cid : Bytes), r.toolCall.callBinding.contentId = .ok cid
        → ∀ after, (∃ e, consumeApproval lib led fault appr alg pubkey sig cid now r.enforced
              consumer = (.ok e, after))
            ↔ appr.grant ≤ 3
              ∧ Mcp.authorizeCall lib led fault r appr alg pubkey sig consumer now
                = (.ok (), after))
      ∧ (∀ (action : Delegation.Action) (grants : Delegation.GrantSet) (anchors : List PyStr)
          (revoked : Delegation.Revocations) (cid : Bytes),
        Delegation.verifyChain action grants anchors revoked now = .ok ()
        → ∀ after, (∃ e, consumeApproval lib led fault appr alg pubkey sig cid now action.effect
              action.signer = (.ok e, after))
            ↔ appr.grant ≤ 3
              ∧ Delegation.authorizeDestructive lib led fault action grants anchors revoked now
                  appr alg pubkey sig cid = (.ok (), after)) := by
  refine ⟨?_, ?_, ?_⟩
  · intro p cid registered bound e after
    rw [consumeApproval_eq_ok, authorizeCharge_eq_ok _ _ _ _ _ _ _ _ registered bound]
    rfl
  · intro r cid bound after
    simp only [consumeApproval_eq_ok]
    rw [authorizeCall_eq_ok _ _ _ _ _ _ _ _ bound]
    constructor
    · intro succeeded
      obtain ⟨e, small, aid, passes, consumed⟩ := succeeded
      exact ⟨small, aid, passes, e, consumed⟩
    · intro succeeded
      obtain ⟨small, aid, passes, e, consumed⟩ := succeeded
      exact ⟨e, small, aid, passes, consumed⟩
  · intro action grants anchors revoked cid chained after
    simp only [consumeApproval_eq_ok]
    rw [authorizeDestructive_eq_ok _ _ _ _ _ _ _ _ chained]
    constructor
    · intro succeeded
      obtain ⟨e, small, aid, passes, consumed⟩ := succeeded
      exact ⟨small, aid, passes, e, consumed⟩
    · intro succeeded
      obtain ⟨small, aid, passes, e, consumed⟩ := succeeded
      exact ⟨e, small, aid, passes, consumed⟩

end Agreement

def sampleCharge : Payment.PaymentImport :=
  { format := 1, amount := 5, currency := [], payee := [7], notAfter := 10, foreign := [] }

/-- An approval of the sample charge whose grant 4 is no effect class. -/
def unknownGrant (cid : Bytes) : ApprovalRecord :=
  { approves := cid, approver := [], grant := 4, nonce := [], notAfter := 10 }

def emptyLedger : Ledger := { file := { disk := [] }, memory := .genesis }

/-- The charge gate accepts a signed approval with grant 4, which `consume_approval` refuses for
the same binding, effect, key, time and ledger.
Witness: the signature verifies and the empty ledger takes the approval's id; the other side is
refused by its bound.
-/
theorem unknown_grant_authorizes_charge
    : ∃ cid body sig, sampleCharge.chargeBinding.contentId = .ok cid
      ∧ (unknownGrant cid).bytes = .ok body
      ∧ mldsaSign digestLibrary algMldsa65 [9] body = .ok sig
      ∧ (∃ e after, Payment.authorizeCharge digestLibrary emptyLedger none sampleCharge
          (unknownGrant cid) algMldsa65 (fitTo mldsa65PubSize [9]) sig [] 0 = (.ok e, after))
      ∧ ¬ ∃ e after, consumeApproval digestLibrary emptyLedger none (unknownGrant cid) algMldsa65
          (fitTo mldsa65PubSize [9]) sig cid 0 Payment.chargeEffect [] = (.ok e, after) := by
  have computed : (do
      let cid ← sampleCharge.chargeBinding.contentId
      let _ ← (unknownGrant cid).bytes
      let aid ← (unknownGrant cid).id
      return (emptyLedger.consume none aid []).1.isOk) = (.ok true : Py Bool) := by
    decide +kernel
  simp only [bind_eq_ok, pure_eq_ok, Except.ok.injEq] at computed
  obtain ⟨cid, bound, body, encoded, aid, named, consumes⟩ := computed
  have key : digestLibrary.mldsaPublic .mlDsa65 [9] = .ok (fitTo mldsa65PubSize [9]) := rfl
  obtain ⟨sig, signed, -, valid⟩ :=
    Envelope.digestLibrary_signsVerifiably.mldsa key body [] (Nat.zero_le _)
  have verified : verifyApproval digestLibrary (unknownGrant cid) algMldsa65
      (fitTo mldsa65PubSize [9]) sig cid 0 = .ok () := by
    rw [verifyApproval, encoded, ok_bind,
      (@Envelope.coseVerify1Raw_mldsa digestLibrary algMldsa65 _ rfl).2.2, valid, ok_bind,
      raiseIf_neg (by simp), ok_bind, raiseIf_neg (by simp [unknownGrant]), ok_bind]
    exact raiseIf_neg (by simp [unknownGrant])
  refine ⟨cid, body, sig, bound, encoded, signed, ?_, ?_⟩
  · generalize answered : emptyLedger.consume none aid [] = answer at consumes
    obtain ⟨outcome, after⟩ := answer
    cases outcome with
    | error err => cases consumes
    | ok e =>
        have covered : Payment.chargeEffect ≤ (unknownGrant cid).grant :=
          show Payment.chargeEffect ≤ 4 by decide
        exact ⟨e, after, (authorizeCharge_eq_ok _ _ _ _ _ _ _ _ rfl bound).mpr
          ⟨aid, ⟨verified, covered, named⟩, answered⟩⟩
  · intro consumed
    obtain ⟨e, after, consumed⟩ := consumed
    have small : (4 : Int) ≤ Policy.destructive := ((consumeApproval_eq_ok ..).mp consumed).1
    exact absurd small (by decide)

end Naalp.Authorization
