import Naalp.ConsumeLedger.Runs
import Naalp.Python.Delegation

/-! Approvals over runs of the four gates on one ledger.
Each gate is a sequence of checks followed by one consume, so a successful call had a valid
approval for exactly what it presented, and spent it.
-/

namespace Naalp.Authorization

open Naalp.Foundation
open Naalp.ConsumeLedger
open Naalp.Python
open Naalp.Python.Approval
open Naalp.Python.Cbor
open Naalp.Python.Cose

/-- The approval and key that a caller presents, at a position time. -/
structure Presented where
  appr : ApprovalRecord
  alg : Int
  pubkey : Bytes
  sig : Bytes
  now : Int

/-- The four gates, each with what it is asked to authorize. -/
inductive Gate where
  | consumeApproval (argsContentId : Bytes) (requiredEffect : Int) (consumer : PyStr)
  | authorizeCall (r : Mcp.Resolved) (consumer : PyStr)
  | authorizeCharge (p : Payment.PaymentImport) (consumer : PyStr)
  | authorizeDestructive (action : Delegation.Action) (grants : Delegation.GrantSet)
      (anchors : List PyStr) (revoked : Delegation.Revocations) (argsContentId : Bytes)

/-- A call at a gate, with the fault that its write meets if any. -/
structure GateCall where
  gate : Gate
  presented : Presented
  fault : Option Fault

/-- The content id of exactly what is presented: arguments, call binding or charge binding. -/
def Gate.boundId : Gate → Py Bytes
  | .consumeApproval argsContentId _ _ => return argsContentId
  | .authorizeCall r _ => r.toolCall.callBinding.contentId
  | .authorizeCharge p _ => p.chargeBinding.contentId
  | .authorizeDestructive _ _ _ _ argsContentId => return argsContentId

/-- The effect that the approval's grant has to cover. -/
def Gate.effect : Gate → Int
  | .consumeApproval _ requiredEffect _ => requiredEffect
  | .authorizeCall r _ => r.enforced
  | .authorizeCharge _ _ => Payment.chargeEffect
  | .authorizeDestructive action _ _ _ _ => action.effect

def Gate.consumer : Gate → PyStr
  | .consumeApproval _ _ consumer | .authorizeCall _ consumer | .authorizeCharge _ consumer =>
      consumer
  | .authorizeDestructive action _ _ _ _ => action.signer

/-- What a gate checks before it looks at the approval. -/
def Gate.Admits (now : Int) : Gate → Prop
  | .consumeApproval _ _ _ | .authorizeCall _ _ => True
  | .authorizeCharge p _ => Payment.isRegisteredFormat p.format
  | .authorizeDestructive action grants anchors revoked _ =>
      Delegation.verifyChain action grants anchors revoked now = .ok ()

/-- Dispatch to the functions of the source, keeping whether they returned. -/
def gateStep (lib : SignatureLibrary) (led : Ledger) (call : GateCall) : Py Unit × Ledger :=
  let ⟨appr, alg, pubkey, sig, now⟩ := call.presented
  match call.gate with
  | .consumeApproval argsContentId requiredEffect consumer =>
      let (result, after) := consumeApproval lib led call.fault appr alg pubkey sig argsContentId
        now requiredEffect consumer
      (result.map (fun _ => ()), after)
  | .authorizeCall r consumer =>
      Mcp.authorizeCall lib led call.fault r appr alg pubkey sig consumer now
  | .authorizeCharge p consumer =>
      let (result, after) := Payment.authorizeCharge lib led call.fault p appr alg pubkey sig
        consumer now
      (result.map (fun _ => ()), after)
  | .authorizeDestructive action grants anchors revoked argsContentId =>
      Delegation.authorizeDestructive lib led call.fault action grants anchors revoked now appr
        alg pubkey sig argsContentId

/-- The approval is validly signed over its octets, names exactly what is presented, is not
expired and grants at least the enforced effect; `aid` is its id.
-/
structure Cleared (lib : SignatureLibrary) (call : GateCall) (aid : Bytes) : Prop where
  signed : ∃ body, call.presented.appr.bytes = .ok body ∧ aid = contentIdBytes body
    ∧ coseVerify1Raw lib call.presented.alg call.presented.pubkey body call.presented.sig
      = .ok true
  bound : call.gate.boundId = .ok call.presented.appr.approves
  unexpired : call.presented.now ≤ call.presented.appr.notAfter
  granted : call.gate.effect ≤ call.presented.appr.grant

-----------------------------------------------------------------------------------------
-- The checks of the gates
-----------------------------------------------------------------------------------------

/-- An approval is accepted exactly when its octets are signed by the key, it binds the
arguments, and the time is not after its expiry.
-/
theorem verifyApproval_eq_ok {lib : SignatureLibrary} {a : ApprovalRecord} {alg : Int}
    {pubkey sig argsContentId : Bytes} {posTime : Int} {done : Unit}
    : verifyApproval lib a alg pubkey sig argsContentId posTime = .ok done
      ↔ (∃ body, a.bytes = .ok body ∧ coseVerify1Raw lib alg pubkey body sig = .ok true)
        ∧ a.approves = argsContentId ∧ posTime ≤ a.notAfter := by
  simp only [verifyApproval, bind_eq_ok, raiseIf_eq_ok, exists_const, not_lt, Bool.not_eq_false,
    ne_eq, not_not]
  constructor
  · intro verified
    obtain ⟨body, encoded, valid, checked, rfl, same, unexpired⟩ := verified
    exact ⟨⟨body, encoded, checked⟩, same, unexpired⟩
  · intro verified
    obtain ⟨⟨body, encoded, checked⟩, same, unexpired⟩ := verified
    exact ⟨body, encoded, true, checked, rfl, same, unexpired⟩

theorem approval_id_eq_ok {a : ApprovalRecord} {aid : Bytes}
    : a.id = .ok aid ↔ ∃ body, a.bytes = .ok body ∧ aid = contentIdBytes body := by
  simp only [ApprovalRecord.id, bind_eq_ok, pure_eq_ok, Except.ok.injEq]
  exact ⟨fun ⟨body, encoded, same⟩ => ⟨body, encoded, same.symm⟩,
    fun ⟨body, encoded, same⟩ => ⟨body, encoded, same.symm⟩⟩

theorem authorizes_iff {ceiling action : Int}
    : ¬ Policy.authorizes ceiling action = false ↔ action ≤ ceiling := by
  simp [Policy.authorizes]

/-- The checks that all gates share leave a cleared approval. -/
theorem cleared_of_checks {lib : SignatureLibrary} {call : GateCall} {aid cid : Bytes}
    {done : Unit} (bound : call.gate.boundId = .ok cid)
    (verified : verifyApproval lib call.presented.appr call.presented.alg call.presented.pubkey
      call.presented.sig cid call.presented.now = .ok done)
    (granted : ¬ Policy.authorizes call.presented.appr.grant call.gate.effect = false)
    (id : call.presented.appr.id = .ok aid)
    : Cleared lib call aid := by
  obtain ⟨⟨body, encoded, signed⟩, rfl, unexpired⟩ := verifyApproval_eq_ok.mp verified
  obtain ⟨body', encoded', rfl⟩ := approval_id_eq_ok.mp id
  obtain rfl := Except.ok.inj (encoded.symm.trans encoded')
  exact ⟨⟨body, encoded, rfl, signed⟩, bound, unexpired, authorizes_iff.mp granted⟩

/-- (GateAnswered lib led call outcome after) lists every way in which a gate can answer. -/
inductive GateAnswered (lib : SignatureLibrary) (led : Ledger) (call : GateCall)
    : Py Unit → Ledger → Prop where
  | refused {err : Exc} : GateAnswered lib led call (.error err) led
  | authorized {aid : Bytes} (cleared : Cleared lib call aid)
      (unspent : aid ∉ led.memory.consumed)
      (writable : Writable (led.nextEntry aid call.gate.consumer))
      : GateAnswered lib led call (.ok ())
          (appendEntry led (led.nextEntry aid call.gate.consumer))
  | faulted {err : Exc} {e : LedgerEntry} {fault : Fault} (failing : call.fault = some fault)
      : GateAnswered lib led call (.error err) (failEntry led e fault)

/-- One consume of a cleared approval's id answers in one of the listed ways, however the gate
translates the ledger's errors.
-/
theorem consume_answered {lib : SignatureLibrary} {led : Ledger} {call : GateCall} {aid : Bytes}
    (cleared : Cleared lib call aid) {convert : Py LedgerEntry → Py Unit}
    (returns : ∀ e, convert (.ok e) = .ok ())
    (raises : ∀ err, ∃ translated, convert (.error err) = .error translated)
    : GateAnswered lib led call
        (convert (led.consume call.fault aid call.gate.consumer).1)
        (led.consume call.fault aid call.gate.consumer).2 := by
  rw [Ledger.consume]
  rcases persist_cases call.fault (prepareConsume_preparedFor led aid call.gate.consumer) with
    ⟨err, reply⟩ | ⟨result, -, unspent, writable, reply⟩ | ⟨fault, failing, reply⟩
  · obtain ⟨translated, same⟩ := raises err
    rw [reply, same]
    exact .refused
  · rw [reply, returns]
    exact .authorized cleared unspent writable
  · obtain ⟨translated, same⟩ := raises .osError
    rw [reply, same]
    exact .faulted failing

/-- The shape of a gate that returns the ledger entry. -/
theorem guarded_entry_answered {lib : SignatureLibrary} {led : Ledger} {call : GateCall}
    {checks : Py Bytes} (clears : ∀ aid, checks = .ok aid → Cleared lib call aid)
    : GateAnswered lib led call
        ((led.guarded checks (fun aid => led.consume call.fault aid call.gate.consumer)).1.map
          (fun _ => ()))
        (led.guarded checks (fun aid => led.consume call.fault aid call.gate.consumer)).2 := by
  cases checks with
  | error err => exact .refused
  | ok aid => exact consume_answered (clears aid rfl) (fun _ => rfl) (fun err => ⟨err, rfl⟩)

/-- The shape of a gate that returns nothing and may translate the ledger's errors. -/
theorem guarded_unit_answered {lib : SignatureLibrary} {led : Ledger} {call : GateCall}
    {checks : Py Bytes} (convert : Py LedgerEntry → Py Unit)
    (clears : ∀ aid, checks = .ok aid → Cleared lib call aid)
    (returns : ∀ e, convert (.ok e) = .ok ())
    (raises : ∀ err, ∃ translated, convert (.error err) = .error translated)
    : GateAnswered lib led call
        (led.guarded checks (fun aid =>
          (convert (led.consume call.fault aid call.gate.consumer).1,
            (led.consume call.fault aid call.gate.consumer).2))).1
        (led.guarded checks (fun aid =>
          (convert (led.consume call.fault aid call.gate.consumer).1,
            (led.consume call.fault aid call.gate.consumer).2))).2 := by
  cases checks with
  | error err => exact .refused
  | ok aid => exact consume_answered (clears aid rfl) returns raises

/-- Every gate answers in one of the listed ways. Witness: each gate's checks include those of
the approval, in the gate's own order.
-/
theorem gateStep_answered (lib : SignatureLibrary) (led : Ledger) (call : GateCall)
    : GateAnswered lib led call (gateStep lib led call).1 (gateStep lib led call).2 := by
  obtain ⟨gate, ⟨appr, alg, pubkey, sig, now⟩, fault⟩ := call
  cases gate with
  | consumeApproval argsContentId requiredEffect consumer =>
      refine guarded_entry_answered ?_
      intro aid checked
      simp only [bind_eq_ok, raiseIf_eq_ok, exists_const] at checked
      obtain ⟨_, verified, -, granted, id⟩ := checked
      exact cleared_of_checks rfl verified granted id
  | authorizeCall r consumer =>
      refine guarded_unit_answered (·.map (fun _ => ())) ?_ (fun _ => rfl)
        (fun err => ⟨err, rfl⟩)
      intro aid checked
      simp only [bind_eq_ok, raiseIf_eq_ok, exists_const, mapError_eq_ok] at checked
      obtain ⟨cid, bound, _, verified, granted, id⟩ := checked
      exact cleared_of_checks bound verified granted id
  | authorizeCharge p consumer =>
      refine guarded_entry_answered ?_
      intro aid checked
      simp only [bind_eq_ok, raiseIf_eq_ok, exists_const] at checked
      obtain ⟨-, cid, bound, _, verified, granted, id⟩ := checked
      exact cleared_of_checks bound verified granted id
  | authorizeDestructive action grants anchors revoked argsContentId =>
      refine guarded_unit_answered
        (fun result => (result.map (fun _ => ())).mapError Delegation.ledgerDenial) ?_
        (fun _ => rfl) (fun err => ⟨Delegation.ledgerDenial err, rfl⟩)
      intro aid checked
      simp only [bind_eq_ok, raiseIf_eq_ok, exists_const, mapError_eq_ok] at checked
      obtain ⟨_, -, _, verified, granted, id⟩ := checked
      exact cleared_of_checks rfl verified granted id

-----------------------------------------------------------------------------------------
-- Expired approvals
-----------------------------------------------------------------------------------------

/-- The approval passes every check that a gate makes before the expiry check. -/
structure PassesUntilExpiry (lib : SignatureLibrary) (call : GateCall) : Prop where
  admitted : call.gate.Admits call.presented.now
  signed : ∃ body, call.presented.appr.bytes = .ok body
    ∧ coseVerify1Raw lib call.presented.alg call.presented.pubkey body call.presented.sig
      = .ok true
  bound : call.gate.boundId = .ok call.presented.appr.approves

theorem verifyApproval_expired {lib : SignatureLibrary} {a : ApprovalRecord} {alg : Int}
    {pubkey sig body : Bytes} {posTime : Int} (encoded : a.bytes = .ok body)
    (signed : coseVerify1Raw lib alg pubkey body sig = .ok true) (expired : posTime > a.notAfter)
    : verifyApproval lib a alg pubkey sig a.approves posTime
      = .error (.approvalError .approvalExpired "approval is past its not_after") := by
  simp [verifyApproval, encoded, signed, expired]

/-- An expired approval that passes the checks before is refused as expired, or as required,
whether or not its id is spent; by the four gates.
Witness: cases on the gate; the check of the expiry comes before the consume in each.
-/
theorem gateStep_expired {lib : SignatureLibrary} {call : GateCall} (led : Ledger)
    (passes : PassesUntilExpiry lib call)
    (expired : call.presented.now > call.presented.appr.notAfter)
    : ∃ err, gateStep lib led call = (.error err, led)
      ∧ (err.kind? = some .approvalExpired ∨ err.kind? = some .approvalRequired) := by
  obtain ⟨gate, ⟨appr, alg, pubkey, sig, now⟩, fault⟩ := call
  obtain ⟨admitted, ⟨body, encoded, signed⟩, bound⟩ := passes
  have refused := verifyApproval_expired encoded signed expired
  simp only at refused bound
  cases gate with
  | consumeApproval argsContentId requiredEffect consumer =>
      obtain rfl : argsContentId = appr.approves := Except.ok.inj bound
      refine ⟨.approvalError .approvalExpired "approval is past its not_after", ?_, .inl rfl⟩
      simp [gateStep, consumeApproval, Ledger.guarded, refused, Except.map]
  | authorizeCall r consumer =>
      refine ⟨.approvalError .approvalExpired "approval is past its not_after", ?_, .inl rfl⟩
      simp only [Gate.boundId] at bound
      simp [gateStep, Mcp.authorizeCall, Ledger.guarded, bound, refused, Except.mapError,
        Mcp.heldMismatch]
  | authorizeCharge p consumer =>
      refine ⟨.approvalError .approvalExpired "approval is past its not_after", ?_, .inl rfl⟩
      simp only [Gate.boundId] at bound
      simp only [Gate.Admits] at admitted
      simp [gateStep, Payment.authorizeCharge, Ledger.guarded, admitted, bound, refused, Except.map]
  | authorizeDestructive action grants anchors revoked argsContentId =>
      obtain rfl : argsContentId = appr.approves := Except.ok.inj bound
      simp only [Gate.Admits] at admitted
      refine ⟨.delegationError .approvalRequired
        "no valid approval on a destructive action (held §7.3)", ?_, .inr rfl⟩
      simp [gateStep, Delegation.authorizeDestructive, Ledger.guarded, admitted, refused,
        Except.mapError, Delegation.heldApproval]

-----------------------------------------------------------------------------------------
-- Whole runs
-----------------------------------------------------------------------------------------

/-- The approval id that the event authorized an action with, if its call returned. -/
def authorizedId (event : Event Ledger GateCall (Py Unit)) : Option Bytes :=
  match event.outcome with
  | .ok _ => event.call.presented.appr.id.toOption
  | .error _ => none

theorem GateAnswered.spentIds_subset {lib : SignatureLibrary} {led after : Ledger}
    {call : GateCall} {outcome : Py Unit} (answered : GateAnswered lib led call outcome after)
    : spentIds led ⊆ spentIds after := by
  intro aid spent
  cases answered with
  | refused => exact spent
  | authorized => exact (AList.mem_insert _).mpr (.inr spent)
  | faulted => exact spent

/-- An authorizing call spends the id of the presented approval, which was unspent. -/
theorem GateAnswered.spends {lib : SignatureLibrary} {led after : Ledger} {call : GateCall}
    {outcome : Py Unit} {aid : Bytes} (answered : GateAnswered lib led call outcome after)
    (won : authorizedId ⟨led, call, outcome, after⟩ = some aid)
    : aid ∉ spentIds led ∧ aid ∈ spentIds after := by
  cases answered with
  | refused => cases won
  | authorized cleared unspent _ =>
      obtain ⟨body, encoded, rfl, -⟩ := cleared.signed
      have id := approval_id_eq_ok.mpr ⟨body, encoded, rfl⟩
      simp only [authorizedId, id] at won
      obtain rfl := Option.some.inj won
      exact ⟨unspent, (AList.mem_insert _).mpr (.inl rfl)⟩
  | faulted => cases won

/-- A returning call had a cleared approval and appended exactly one entry, for its id. -/
theorem GateAnswered.appends {lib : SignatureLibrary} {led after : Ledger} {call : GateCall}
    {outcome : Py Unit} (answered : GateAnswered lib led call outcome after)
    (returned : outcome = .ok ())
    : ∃ aid, Cleared lib call aid
      ∧ after = appendEntry led (led.nextEntry aid call.gate.consumer) := by
  cases answered with
  | refused => cases returned
  | authorized cleared _ _ => exact ⟨_, cleared, rfl⟩
  | faulted => cases returned

/-- A raising call leaves the memory, and without a failing write the whole ledger. -/
theorem GateAnswered.unchanged {lib : SignatureLibrary} {led after : Ledger} {call : GateCall}
    {outcome : Py Unit} {err : Exc} (answered : GateAnswered lib led call outcome after)
    (raised : outcome = .error err)
    : after.memory = led.memory ∧ (call.fault = none → after = led) := by
  cases answered with
  | refused => exact ⟨rfl, fun _ => rfl⟩
  | authorized => cases raised
  | faulted failing =>
      refine ⟨rfl, ?_⟩
      intro working
      rw [working] at failing
      cases failing

/-- Over every run of the four gates on one ledger: a call that returns had a cleared approval
and appended exactly one entry, for its id; no approval id authorizes two calls; a call that
raises leaves the ledger unchanged, or only its file when the raise is that of a failing write;
and an expired approval is refused as expired or required, spent or not.
Witness: what one call answers, lifted to runs; the ids of the calls that return are ids the
ledger spends once.
-/
theorem run_authorizes_once (lib : SignatureLibrary) (start : Ledger) (calls : List GateCall)
    : (∀ event ∈ trace (gateStep lib) start calls, event.outcome = .ok ()
        → ∃ aid, Cleared lib event.call aid
          ∧ event.after
            = appendEntry event.before (event.before.nextEntry aid event.call.gate.consumer))
      ∧ ((trace (gateStep lib) start calls).filterMap authorizedId).Nodup
      ∧ (∀ event ∈ trace (gateStep lib) start calls, ∀ err, event.outcome = .error err
        → event.after.memory = event.before.memory
          ∧ (event.call.fault = none → event.after = event.before))
      ∧ (∀ event ∈ trace (gateStep lib) start calls, PassesUntilExpiry lib event.call
        → event.call.presented.now > event.call.presented.appr.notAfter
        → ∃ err, event.outcome = .error err ∧ event.after = event.before
          ∧ (err.kind? = some .approvalExpired ∨ err.kind? = some .approvalRequired)) := by
  have keeps : ∀ (led : Ledger) (call : GateCall), True → True → True := fun _ _ _ _ => trivial
  have events : ∀ event ∈ trace (gateStep lib) start calls,
      event = answer (gateStep lib) event.before event.call :=
    fun event member => (mem_trace keeps trivial (fun _ _ => trivial) member).2.2
  have grows : ∀ (led : Ledger) (call : GateCall), True → True
      → spentIds led ⊆ spentIds (gateStep lib led call).2 :=
    fun led call _ _ => (gateStep_answered lib led call).spentIds_subset
  refine ⟨?_, ?_, ?_, ?_⟩
  · intro event member returned
    rw [events event member] at returned ⊢
    exact (gateStep_answered lib event.before event.call).appends returned
  · refine (wins_nodup keeps grows ?_ trivial (fun _ _ => trivial)).1
    exact fun led call aid _ _ won => (gateStep_answered lib led call).spends won
  · intro event member err raised
    rw [events event member] at raised ⊢
    exact (gateStep_answered lib event.before event.call).unchanged raised
  · intro event member passes expired
    obtain ⟨err, reply, kind⟩ := gateStep_expired event.before passes expired
    rw [events event member]
    exact ⟨err, by rw [answer, reply], by rw [answer, reply], kind⟩

end Naalp.Authorization
