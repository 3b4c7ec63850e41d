import Naalp.Authorization.ReceiptFiles

/-! The receipts of the MCP guard. A gated call leaves one signed receipt that says whether the call
was forwarded, as long as nothing but an approval error is raised before it is, and nothing at all
after.
-/

namespace Naalp.Authorization

open Naalp.Foundation
open Naalp.ConsumeLedger
open Naalp.Python
open Naalp.Python.Approval
open Naalp.Python.Cbor
open Naalp.Python.Cose
open Naalp.Python.Hitl
open Naalp.Python.Mcp
open Naalp.Python.McpGuard

/-- What `except approval.ApprovalError` catches. -/
def IsApprovalError : Exc → Prop
  | .approvalError _ _ => True
  | _ => False

theorem not_approvalError {err : Exc} (encoding : EncodingError err) : ¬ IsApprovalError err := by
  cases encoding <;> exact id

-----------------------------------------------------------------------------------------
-- Approvals that are judged
-----------------------------------------------------------------------------------------

section Attempts

variable {lib : SignatureLibrary} {self : HITLInterceptor} {led : Ledger} {posTime : Int}
  {record : ApprovalRecord} {sig argsId aid : Bytes} {effect : Int} {consumer : PyStr}

/-- The next entry, for an approval id, can be written to the log. -/
structure Appendable (led : Ledger) (aid : Bytes) (consumer : PyStr) : Prop where
  writable : Writable (led.nextEntry aid consumer)
  isOpen : led.file.closed = false

/-- The outcome of a consume that no write fault meets, without the ledger it leaves. -/
theorem consume_fst
    : (led.consume none aid consumer).1
      = (do
        led.checkUnspent aid
        let prepared ← prepare (led.nextEntry aid consumer) (led.nextEntry aid consumer)
        raiseIf (led.file.closed = true) (.valueError "seek of closed file")
        return prepared.result) := by
  unfold Ledger.consume Ledger.persist LogFile.append Ledger.prepareConsume
  cases led.checkUnspent aid with
  | error err => rfl
  | ok done =>
      cases prepare (led.nextEntry aid consumer) (led.nextEntry aid consumer) with
      | error err => rfl
      | ok prepared => cases led.file.closed <;> rfl

/-- A consume returns an entry exactly when the id is unspent and its record can be appended.
-/
theorem consume_returns
    : (∃ entry, (led.consume none aid consumer).1 = .ok entry)
      ↔ aid ∉ led.memory.consumed ∧ Appendable led aid consumer := by
  constructor
  · intro returned
    obtain ⟨entry, returned⟩ := returned
    simp only [consume_fst, Ledger.checkUnspent, bind_eq_ok, raiseIf_eq_ok, exists_const,
      prepare_eq_ok, Bool.not_eq_true] at returned
    obtain ⟨unspent, _, ⟨writable, -⟩, isOpen, -⟩ := returned
    exact ⟨unspent, writable, isOpen⟩
  · intro spends
    obtain ⟨unspent, writable, isOpen⟩ := spends
    exact ⟨_, congrArg Prod.fst (consume_unspent unspent isOpen writable)⟩

theorem failsOnly_prepare {α : Type} {e : LedgerEntry} {result : α}
    : FailsOnly IsApprovalError (prepare e result) ↔ Writable e := by
  have failures : FailsOnly EncodingError (prepare e result) :=
    (failsOnly_encode _).bind fun _ => failsOnly_intToBytes.bind fun _ => failsOnly_pure _
  rw [failsOnly_iff_ok fun err failed => not_approvalError (failures err failed)]
  simp [prepare_eq_ok]

/-- A consume fails with an approval error only, unless the id is unspent and its record cannot
be appended.
Witness: an id that is spent is refused by name; the later steps raise what the encoder and the
file raise.
-/
theorem failsOnly_consume
    : FailsOnly IsApprovalError (led.consume none aid consumer).1
      ↔ (aid ∉ led.memory.consumed → Appendable led aid consumer) := by
  have closes : FailsOnly IsApprovalError
      (raiseIf (led.file.closed = true) (.valueError "seek of closed file"))
      ↔ led.file.closed = false := by
    rw [failsOnly_iff_ok]
    · simp [raiseIf_eq_ok]
    · have only : FailsOnly (· = Exc.valueError "seek of closed file")
          (raiseIf (led.file.closed = true) (.valueError "seek of closed file")) :=
        failsOnly_raiseIf rfl
      intro err failed
      obtain rfl := only err failed
      exact id
  have spent : FailsOnly IsApprovalError (raiseIf (aid ∈ led.memory.consumed)
      (.approvalError .alreadyConsumed "approval already consumed")) :=
    failsOnly_raiseIf trivial
  have returned (e : LedgerEntry) : FailsOnly IsApprovalError (pure e : Py LedgerEntry) :=
    failsOnly_pure e
  rw [consume_fst]
  simp only [failsOnly_bind_iff, spent, true_and, Ledger.checkUnspent, raiseIf_eq_ok, forall_const,
    failsOnly_prepare, closes, returned, implies_true, and_true, prepare_eq_ok]
  refine imp_congr_right fun unspent => ?_
  constructor
  · intro each
    exact ⟨each.1, each.2 _ ⟨each.1, rfl⟩⟩
  · intro appends
    exact ⟨appends.writable, fun _ _ => appends.isOpen⟩

/-- The approval authorizes the call, grants an effect of the vocabulary and is not spent. -/
structure Clears (lib : SignatureLibrary) (hitl : HITLInterceptor) (led : Ledger) (posTime : Int)
    (record : ApprovalRecord) (sig argsId : Bytes) (effect : Int) (body : Bytes) : Prop where
  authorizes : Authorizes lib hitl posTime record sig argsId effect body
  inRange : record.grant ≤ Policy.destructive
  unspent : contentIdBytes body ∉ led.memory.consumed

/-- The approval can be judged: it is for another audience, or it can be encoded, its signature can
be checked and, if it clears the call, its id can be written to the log.
-/
def Judged (lib : SignatureLibrary) (self : HITLInterceptor) (led : Ledger) (posTime : Int)
    (record : ApprovalRecord) (sig argsId : Bytes) (effect : Int) : Prop :=
  record.audience = [] ∨ record.audience = self.audience
    → ∃ body, record.bytes = .ok body
      ∧ FailsOnly IsApprovalError (coseVerify1Raw lib self.approverAlg self.approverPubkey body sig)
      ∧ (Clears lib self led posTime record sig argsId effect body
        → Appendable led (contentIdBytes body) self.identity)

theorem guarded_fst {α β : Type} {checks : Py α} {call : α → Py β × Ledger}
    : (led.guarded checks call).1 = checks >>= fun value => (call value).1 := by
  cases checks <;> rfl

/-- The checks of an approval, of which its id is left. -/
def approvalChecks (lib : SignatureLibrary) (self : HITLInterceptor) (posTime : Int)
    (record : ApprovalRecord) (sig argsId : Bytes) (effect : Int) : Py Bytes := do
  verifyApproval lib record self.approverAlg self.approverPubkey sig argsId posTime
  raiseIf (record.grant > Policy.destructive) (.approvalError .approvalRequired
    "grant is outside the closed 0..3 effect vocabulary")
  raiseIf (Policy.authorizes record.grant effect = false)
    (.approvalError .approvalRequired "approval's granted effect does not cover this action")
  record.id

theorem attempt_fst
    : (self.attempt lib led posTime record sig argsId effect).1
      = (do
        verifyAudience record self.audience
        let aid ← approvalChecks lib self posTime record sig argsId effect
        (led.consume none aid self.identity).1) := by
  rw [HITLInterceptor.attempt, guarded_fst]
  refine bind_congr fun _ => ?_
  rw [consumeApproval, guarded_fst]
  rfl

/-- The checks before the consume pass exactly when the approval is encoded, signed, bound,
unexpired, in range and grants the effect; its id is the hash of its octets.
-/
theorem approvalChecks_eq_ok
    : approvalChecks lib self posTime record sig argsId effect = .ok aid
      ↔ ∃ body, record.bytes = .ok body ∧ aid = contentIdBytes body
        ∧ coseVerify1Raw lib self.approverAlg self.approverPubkey body sig = .ok true
        ∧ record.approves = argsId ∧ posTime ≤ record.notAfter
        ∧ record.grant ≤ Policy.destructive ∧ effect ≤ record.grant := by
  simp only [approvalChecks, bind_eq_ok, raiseIf_eq_ok, exists_const, verifyApproval_eq_ok,
    authorizes_iff, approval_id_eq_ok, not_lt]
  constructor
  · intro passed
    obtain ⟨⟨⟨body, encoded, signed⟩, bound, unexpired⟩, inRange, granted, body', again, rfl⟩ :=
      passed
    obtain rfl := Except.ok.inj (encoded.symm.trans again)
    exact ⟨body, encoded, rfl, signed, bound, unexpired, inRange, granted⟩
  · intro passed
    obtain ⟨body, encoded, rfl, signed, bound, unexpired, inRange, granted⟩ := passed
    exact ⟨⟨⟨body, encoded, signed⟩, bound, unexpired⟩, inRange, granted, body, encoded, rfl⟩

/-- The checks fail by name once the approval can be encoded and the signature check does not
raise anything else.
-/
theorem failsOnly_approvalChecks
    : FailsOnly IsApprovalError (approvalChecks lib self posTime record sig argsId effect)
      ↔ ∃ body, record.bytes = .ok body
        ∧ FailsOnly IsApprovalError
          (coseVerify1Raw lib self.approverAlg self.approverPubkey body sig) := by
  have encodes : FailsOnly IsApprovalError record.bytes ↔ ∃ body, record.bytes = .ok body :=
    failsOnly_iff_ok fun err failed => not_approvalError (failsOnly_encode _ err failed)
  constructor
  · intro known
    rw [approvalChecks, verifyApproval, bind_assoc, failsOnly_bind_iff, encodes] at known
    obtain ⟨⟨body, encoded⟩, later⟩ := known
    have checks := later body encoded
    rw [bind_assoc, failsOnly_bind_iff] at checks
    exact ⟨body, encoded, checks.1⟩
  · intro known
    obtain ⟨body, encoded, checks⟩ := known
    have identified : record.id = .ok (contentIdBytes body) :=
      approval_id_eq_ok.mpr ⟨body, encoded, rfl⟩
    rw [approvalChecks, verifyApproval, identified, encoded]
    exact FailsOnly.bind (checks.bind fun _ => (failsOnly_raiseIf trivial).bind fun _ =>
      (failsOnly_raiseIf trivial).bind fun _ => failsOnly_raiseIf trivial) fun _ =>
      (failsOnly_raiseIf trivial).bind fun _ => (failsOnly_raiseIf trivial).bind fun _ =>
        failsOnly_ok

/-- An attempt returns an entry exactly when an approval clears the action and its id can be
written.
-/
theorem attempt_returns
    : (∃ entry, (self.attempt lib led posTime record sig argsId effect).1 = .ok entry)
      ↔ ∃ body, Clears lib self led posTime record sig argsId effect body
        ∧ Appendable led (contentIdBytes body) self.identity := by
  simp only [attempt_fst, bind_eq_ok, verifyAudience_eq_ok, approvalChecks_eq_ok]
  constructor
  · intro returned
    obtain ⟨entry, _, audience, _, ⟨body, encoded, rfl, signed, bound, unexpired, inRange, granted⟩,
      consumed⟩ := returned
    obtain ⟨unspent, appends⟩ := consume_returns.mp ⟨entry, consumed⟩
    exact ⟨body, ⟨⟨encoded, signed, audience, bound, unexpired, granted⟩, inRange, unspent⟩,
      appends⟩
  · intro clears
    obtain ⟨body, ⟨authorizes, inRange, unspent⟩, appends⟩ := clears
    obtain ⟨entry, consumed⟩ := consume_returns.mpr ⟨unspent, appends⟩
    exact ⟨entry, (), authorizes.audience, _, ⟨body, authorizes.encoded, rfl, authorizes.signed,
      authorizes.bound, authorizes.unexpired, inRange, authorizes.granted⟩, consumed⟩

/-- An attempt fails by name exactly when its approval can be judged.
Witness: the checks come first; where they pass, what the consume raises is left.
-/
theorem failsOnly_attempt
    : FailsOnly IsApprovalError (self.attempt lib led posTime record sig argsId effect).1
      ↔ Judged lib self led posTime record sig argsId effect := by
  have audience : FailsOnly IsApprovalError (verifyAudience record self.audience) :=
    failsOnly_raiseIf trivial
  rw [attempt_fst, failsOnly_bind_iff, Judged]
  simp only [audience, true_and, verifyAudience_eq_ok, forall_const, failsOnly_bind_iff,
    failsOnly_approvalChecks, failsOnly_consume, approvalChecks_eq_ok]
  refine imp_congr_right fun named => ?_
  constructor
  · intro known
    obtain ⟨⟨body, encoded, checks⟩, later⟩ := known
    refine ⟨body, encoded, checks, fun clears => ?_⟩
    have authorizes := clears.authorizes
    exact later _ ⟨body, encoded, rfl, authorizes.signed, authorizes.bound, authorizes.unexpired,
      clears.inRange, authorizes.granted⟩ clears.unspent
  · intro known
    obtain ⟨body, encoded, checks, appends⟩ := known
    refine ⟨⟨body, encoded, checks⟩, ?_⟩
    intro aid passed unspent
    obtain ⟨body', again, rfl, signed, bound, unexpired, inRange, granted⟩ := passed
    obtain rfl := Except.ok.inj (encoded.symm.trans again)
    exact appends ⟨⟨encoded, signed, named, bound, unexpired, granted⟩, inRange, unspent⟩

end Attempts

-----------------------------------------------------------------------------------------
-- What an interception raises
-----------------------------------------------------------------------------------------

section Clearances

variable {α : Type} (lib : SignatureLibrary) (repr : PyStr → String) (world : World α)
  (i : Interception α)

/-- What the human's answer for the content id of the arguments raises. -/
def answerChecks (argsId : Bytes) : Option (ApprovalRecord × Bytes) → Py Unit
  | none => throw (.approvalError .approvalDenied (declined repr i.action))
  | some (record, sig) => do
      let _ ← (i.self.attempt lib world.ledger i.clock.verified record sig argsId i.action.effect).1
      return ()

/-- What is raised before the action is executed, by an interception without a signing key. -/
def clearance : Py Unit :=
  if i.self.requiresApproval i.action.effect = false then return ()
  else asked i >>= fun (argsId, answer) => answerChecks lib repr world i argsId answer

/-- What an interception makes of its clearance: it executes its action and keeps what that returns
or raises, or executes nothing and raises what its clearance does.
-/
inductive Settles : Py Unit → Except Raised α → World α → Prop where
  | ran {done : Unit} {outcome : Except Raised α} {after : World α} (same : outcome = executed i)
    (appended : after.executed = world.executed ++ [i.action]) : Settles (.ok done) outcome after
  | withheld {err : Exc} {d6 : Option RefusalOutcome} {after : World α}
    (kept : after.executed = world.executed) : Settles (.error err) (.error ⟨err, d6⟩) after

variable {lib repr world i}

/-- Without a signing key a refusal is logged, and raised with its log entry. -/
theorem onRefusal_unsigned {β : Type} {self : HITLInterceptor} (unsigned : self.signingAlg = none)
    (whenMs : Int) (reason : Kind) (msg : String) (context : RefusalContext)
    : ∃ d6, (self.onRefusal lib whenMs reason msg context >>= throw : Method α β) world
      = .error ⟨.approvalError reason msg, d6⟩
        { world with refusals := world.refusals ++ [self.refusalEntry whenMs reason context] } := by
  have minted : self.mintRefusal lib whenMs reason context (self.refusalEntry whenMs reason context)
      = .ok { logEntry := self.refusalEntry whenMs reason context } := by
    rw [HITLInterceptor.mintRefusal, unsigned]
    rfl
  have raises : self.onRefusal lib whenMs reason msg context world
      = .ok ⟨.approvalError reason msg,
        some { logEntry := self.refusalEntry whenMs reason context }⟩
        { world with refusals := world.refusals ++ [self.refusalEntry whenMs reason context] } := by
    rw [HITLInterceptor.onRefusal, modify_bind, outcomeOf, minted]
    rfl
  exact ⟨_, bind_of_ok raises⟩

/-- An answered call settles as its checks say: it executes and returns, or refuses.
Witness: the attempt either returned an entry or failed, and without a signing key a refusal is
logged with no signed record.
-/
theorem settles_answer (unsigned : i.self.signingAlg = none) {argsId sig : Bytes}
    {record : ApprovalRecord}
    : Settles world i (answerChecks lib repr world i argsId (some (record, sig)))
        (settle ((do
          let _ ← i.self.verifyAndConsume lib i.clock record sig argsId i.action.effect none
            i.action.kind i.action.principal
          i.action.run : Method α α) world)).1
        (settle ((do
          let _ ← i.self.verifyAndConsume lib i.clock record sig argsId i.action.effect none
            i.action.kind i.action.principal
          i.action.run : Method α α) world)).2 := by
  have went := @verifyAndConsume_eq α lib world i.self i.clock record sig argsId i.action.effect
    i.action.kind i.action.principal
  rw [answerChecks]
  cases attempt : (i.self.attempt lib world.ledger i.clock.verified record sig argsId
      i.action.effect).1 with
  | ok entry =>
      rw [attempt] at went
      rw [bind_of_ok went, run_eq]
      exact .ran rfl rfl
  | error err =>
      rw [attempt] at went
      by_cases approval : ∃ reason msg, err = .approvalError reason msg
      · obtain ⟨reason, msg, rfl⟩ := approval
        obtain ⟨d6, same⟩ := @onRefusal_unsigned α lib _ LedgerEntry i.self unsigned
          i.clock.refused reason msg
          ⟨i.action.kind, argsId, i.action.effect, record.approver, i.action.principal⟩
        rw [bind_of_error (went.trans same)]
        exact .withheld rfl
      · have other : ∀ reason msg, err ≠ .approvalError reason msg :=
          fun reason msg same => approval ⟨reason, msg, same⟩
        rw [bind_of_error (went.trans (settleAttempt_of_error other))]
        exact .withheld rfl

/-- The interceptor settles every call as its clearance says.
Witness: an action below the threshold executes at once; the others are answered by the human
or refused.
-/
theorem settles (unsigned : i.self.signingAlg = none)
    : Settles world i (clearance lib repr world i) (respond (intercept lib repr) world i).1
        (respond (intercept lib repr) world i).2 := by
  unfold respond intercept clearance
  split
  · rw [run_eq]
    exact .ran rfl rfl
  · cases computed : contentId i.action.args with
    | error err =>
        rw [outcomeOf_bind_of_error rfl, asked_of_error computed]
        exact .withheld rfl
    | ok argsId =>
        rw [outcomeOf_bind_of_ok rfl, asked_of_answer computed]
        cases i.human (i.request argsId) with
        | error err =>
            rw [outcomeOf_bind_of_error rfl]
            exact .withheld rfl
        | ok answer =>
            rw [outcomeOf_bind_of_ok rfl]
            cases answer with
            | none =>
                obtain ⟨d6, same⟩ := @onRefusal_unsigned α lib world α i.self unsigned
                  i.clock.refused .approvalDenied (declined repr i.action)
                  ⟨i.action.kind, argsId, i.action.effect, [], i.action.principal⟩
                simp only
                rw [same]
                exact .withheld rfl
            | some given => exact @settles_answer _ _ repr _ _ unsigned _ _ _

variable (lib world i)

/-- The interception is cleared: its effect is below the threshold, or the human answers with an
approval that clears it and whose id can be written to the log.
-/
def Permitted : Prop :=
  i.action.effect < i.self.approvalThreshold
  ∨ ∃ argsId record sig body, asked i = .ok (argsId, some (record, sig))
    ∧ Clears lib i.self world.ledger i.clock.verified record sig argsId i.action.effect body
    ∧ Appendable world.ledger (contentIdBytes body) i.self.identity

/-- The interception is answered: the human raises nothing but an approval error, and gives no
approval that cannot be judged.
-/
def Answerable : Prop :=
  FailsOnly IsApprovalError (asked i)
  ∧ ∀ argsId record sig, asked i = .ok (argsId, some (record, sig))
    → Judged lib i.self world.ledger i.clock.verified record sig argsId i.action.effect

variable {lib world i}

theorem requiresApproval_eq_false
    : i.self.requiresApproval i.action.effect = false
      ↔ i.action.effect < i.self.approvalThreshold := by
  simp [HITLInterceptor.requiresApproval]

/-- A call is cleared exactly when it is permitted. -/
theorem clearance_returns : (∃ done, clearance lib repr world i = .ok done)
    ↔ Permitted lib world i := by
  unfold clearance Permitted
  split
  · rename_i free
    exact iff_of_true ⟨(), rfl⟩ (.inl (requiresApproval_eq_false.mp free))
  · rename_i needs
    rw [or_iff_right (mt requiresApproval_eq_false.mpr needs)]
    simp only [bind_eq_ok, Prod.exists]
    constructor
    · intro returned
      obtain ⟨done, argsId, answer, answered, passed⟩ := returned
      rcases answer with _ | ⟨record, sig⟩
      · cases passed
      · obtain ⟨entry, spent, -⟩ := bind_eq_ok.mp passed
        obtain ⟨body, clears⟩ := attempt_returns.mp ⟨entry, spent⟩
        exact ⟨argsId, record, sig, body, answered, clears⟩
    · intro clears
      obtain ⟨argsId, record, sig, body, answered, clears⟩ := clears
      obtain ⟨entry, spent⟩ := attempt_returns.mpr ⟨body, clears⟩
      exact ⟨(), argsId, _, answered, bind_eq_ok.mpr ⟨entry, spent, rfl⟩⟩

/-- A gated call is refused by name exactly when its answer can be judged. -/
theorem failsOnly_clearance (gated : ¬ i.action.effect < i.self.approvalThreshold)
    : FailsOnly IsApprovalError (clearance lib repr world i) ↔ Answerable lib world i := by
  unfold clearance Answerable
  rw [if_neg (mt requiresApproval_eq_false.mp gated), failsOnly_bind_iff]
  refine and_congr_right fun _ => ?_
  constructor
  · intro known argsId record sig answered
    exact failsOnly_attempt.mp (failsOnly_bind_iff.mp (known _ answered)).1
  · intro judged asked answered
    obtain ⟨argsId, answer⟩ := asked
    rcases answer with _ | ⟨record, sig⟩
    · exact failsOnly_throw trivial
    · exact (failsOnly_attempt.mpr (judged argsId record sig answered)).bind fun _ => failsOnly_ok

end Clearances

-----------------------------------------------------------------------------------------
-- Receipts
-----------------------------------------------------------------------------------------

section Receipts

variable {α : Type} {lib : SignatureLibrary} (std : StandardLibrary α) (gate : EffectGate lib)
  (decision : GateDecision) (principal : PyStr) (createdMs : Int)

/-- What a receipt of the decision is made of can be encoded. -/
structure Recordable : Prop where
  toolId : Encodable (.b decision.callBinding.toolId)
  argsId : Encodable (.b decision.callBinding.argsId)
  effect : 0 ≤ decision.bridged.enforcedEffect ∧ decision.bridged.enforcedEffect ≤ 3
  principal : Encodable (.t principal)
  toolName : Encodable (.t decision.toolName)
  guardIdentity : Encodable (.t gate.guardIdentity)
  created : Encodable (.u createdMs)

variable {gate decision principal createdMs}

/-- A call binding has an id exactly when both of its ids can be encoded. -/
theorem callBinding_returns {cb : CallBinding}
    : (∃ id, cb.contentId = .ok id) ↔ Encodable (.b cb.toolId) ∧ Encodable (.b cb.argsId) := by
  have members : Encodable (.m (numbered 1 [.b cb.toolId, .b cb.argsId])) ↔ _ :=
    encodable_numbered (by simp)
  have written : (∃ id, cb.contentId = .ok id) ↔ ∃ body, cb.bytes = .ok body := by
    simp [CallBinding.contentId, bind_eq_ok]
  rw [written]
  refine (encodable_iff.symm.trans members).trans ?_
  simp

/-- The receipt is of the outcome, and its signature verifies under the gate's receipt key. -/
structure Signed (gate : EffectGate lib) (verdict : PyStr) (receipt : EffectReceipt) (sig : Bytes)
    : Prop where
  verdict : receipt.decision = verdict
  verifies : ∃ body, receipt.bytes = .ok body
    ∧ coseVerify1Raw lib gate.receiptAlg gate.receiptPubkey body sig = .ok true

theorem mldsaSign_returns (signs : Envelope.SignsVerifiably lib) (body : Bytes)
    : ∃ sig, mldsaSign lib gate.receiptAlg gate.receiptSeed body = .ok sig
      ∧ coseVerify1Raw lib gate.receiptAlg gate.receiptPubkey body sig = .ok true := by
  obtain ⟨sig, signed, -, verified⟩ := signs.mldsa gate.receiptDerived body [] (by simp)
  refine ⟨sig, ?_, ?_⟩
  · rw [mldsaSign, gate.receiptRegistered]
    exact signed
  · rw [(Envelope.coseVerify1Raw_mldsa gate.receiptRegistered).2.2]
    exact verified

theorem signedReceipt_signed (signs : Envelope.SignsVerifiably lib) {verdict reason : PyStr}
    {resultHash sig : Bytes} {receipt : EffectReceipt}
    (minted : gate.signedReceipt decision principal verdict reason resultHash createdMs
      = .ok (receipt, sig))
    : Signed gate verdict receipt sig := by
  simp only [EffectGate.signedReceipt, EffectGate.mintReceipt, signEffectReceipt, bind_eq_ok,
    pure_eq_ok, Except.ok.injEq, Prod.mk.injEq] at minted
  obtain ⟨_, ⟨callId, -, same⟩, _, ⟨body, encoded, signed⟩, rfl, rfl⟩ := minted
  obtain ⟨sig', again, verifies⟩ := @mldsaSign_returns lib gate signs body
  obtain rfl := Except.ok.inj (again.symm.trans signed)
  exact ⟨congrArg EffectReceipt.decision same.symm, body, encoded, verifies⟩

/-- By induction over the characters. -/
theorem length_utf8_le (chars : List Char)
    : (chars.flatMap String.utf8EncodeChar).length ≤ 4 * chars.length := by
  induction chars with
  | nil => simp
  | cons c rest ih =>
      have size : (String.utf8EncodeChar c).length ≤ 4 := by
        rw [String.length_utf8EncodeChar]
        exact c.utf8Size_le_four
      simp only [List.flatMap_cons, List.length_append, List.length_cons]
      omega

theorem encodable_lit {chars : List Char} (short : chars.length ≤ 32)
    : Encodable (.t (.lit chars)) := by
  have size := length_utf8_le chars
  exact encodable_t.mpr ⟨_, PyStr.encode_eq_ok.mpr ⟨chars, rfl, rfl⟩, by omega⟩

theorem length_literal_le {literal : String} {chars : List Char}
    (same : literal = String.ofList chars) (short : chars.length ≤ 32)
    : literal.toList.length ≤ 32 := by
  rw [same, String.toList_ofList]
  exact short

theorem length_name (kind : Kind) : kind.name.toList.length ≤ 32 := by
  cases kind <;> exact length_literal_le rfl (by decide)

/-- A receipt is minted for a known verdict exactly when the key signs and the parts that come
from the call can be encoded.
Witness: the parts that the gate adds itself can always be encoded.
-/
theorem signedReceipt_returns (signs : Envelope.SignsVerifiably lib) {verdict reason : PyStr}
    {resultHash : Bytes} (known : verdict = decisionExecuted ∨ verdict = decisionDenied)
    (encodable : Encodable (.t verdict) ∧ Encodable (.t reason) ∧ Encodable (.b resultHash))
    : (∃ receipt sig, gate.signedReceipt decision principal verdict reason resultHash createdMs
        = .ok (receipt, sig))
      ↔ Recordable gate decision principal createdMs := by
  constructor
  · intro returned
    obtain ⟨receipt, sig, returned⟩ := returned
    simp only [EffectGate.signedReceipt, EffectGate.mintReceipt, signEffectReceipt, bind_eq_ok,
      pure_eq_ok, Except.ok.injEq, Prod.mk.injEq] at returned
    obtain ⟨_, ⟨callId, computed, rfl⟩, _, ⟨body, encoded, -⟩, -, -⟩ := returned
    obtain ⟨⟨-, effect⟩, members⟩ := receipt_returns.mp ⟨body, encoded⟩
    obtain ⟨toolId, argsId⟩ := callBinding_returns.mp ⟨callId, computed⟩
    exact {
      toolId, argsId, effect
      principal := members _ (by simp [receiptTerms])
      toolName := members _ (by simp [receiptTerms])
      guardIdentity := members _ (by simp [receiptTerms])
      created := members _ (by simp [receiptTerms])
    }
  · intro recordable
    obtain ⟨callId, computed⟩ := callBinding_returns.mpr ⟨recordable.toolId, recordable.argsId⟩
    obtain ⟨octets, -, identified⟩ := bind_eq_ok.mp computed
    obtain rfl := Except.ok.inj identified
    obtain ⟨lower, upper⟩ := recordable.effect
    obtain ⟨receipt, minted, same⟩ : ∃ receipt, gate.mintReceipt decision.callBinding
        decision.bridged.enforcedEffect verdict reason resultHash principal decision.toolName
          createdMs
          = .ok receipt
        ∧ receipt = ⟨decision.callBinding.toolId, decision.callBinding.argsId,
          contentIdBytes octets, decision.bridged.enforcedEffect, verdict, reason, resultHash,
          principal, decision.toolName, gate.guardIdentity, createdMs⟩ :=
      ⟨_, bind_eq_ok.mpr ⟨_, computed, rfl⟩, rfl⟩
    have callId := encodable_contentIdBytes octets
    have written : ∃ body, receipt.bytes = .ok body := by
      subst same
      refine receipt_returns.mpr ⟨⟨known, recordable.effect⟩, ?_⟩
      simp only [receiptTerms, List.forall_mem_cons, List.not_mem_nil, false_imp_iff, implies_true,
        and_true]
      exact ⟨recordable.toolId, recordable.argsId, callId,
        encodable_u.mpr ⟨lower, by omega⟩, encodable.1, encodable.2.1, encodable.2.2,
        recordable.principal, recordable.toolName, recordable.guardIdentity, recordable.created⟩
    obtain ⟨body, encoded⟩ := written
    obtain ⟨sig, signed, -⟩ := @mldsaSign_returns lib gate signs body
    refine ⟨receipt, sig, bind_eq_ok.mpr ⟨receipt, minted, bind_eq_ok.mpr ⟨sig, ?_, rfl⟩⟩⟩
    exact bind_eq_ok.mpr ⟨body, encoded, signed⟩

-----------------------------------------------------------------------------------------
-- Gated calls
-----------------------------------------------------------------------------------------

/-- The receipt that a call of `authorize_and_execute` ends with: the one it returns, or the one
attached to what it raises.
-/
def receiptOf : Except Escaped (Option α × EffectReceipt × Bytes) → Option (EffectReceipt × Bytes)
  | .ok (_, receipt, sig) => some (receipt, sig)
  | .error escaped => escaped.receipt

/-- The receipt of a call that returned says that it was executed, with the hash of its result.
-/
theorem receiptOf_returned {result : Option α} {receipt : EffectReceipt} {sig : Bytes}
    : receiptOf (gate.concluded std decision principal createdMs (.ok result)) = some (receipt, sig)
      ↔ ∃ hash, EffectGate.resultHash std result = .ok hash
        ∧ gate.signedReceipt decision principal decisionExecuted [] hash createdMs
          = .ok (receipt, sig) := by
  simp only [EffectGate.concluded]
  cases hashed : EffectGate.resultHash std result with
  | error err => simp [receiptOf, Except.mapError]
  | ok hash =>
      cases minted : gate.signedReceipt decision principal decisionExecuted [] hash createdMs with
      | error err => simp [receiptOf, Except.mapError, minted]
      | ok minted' => simp [receiptOf, Except.mapError, minted, Prod.ext_iff]

/-- A call that raised has a receipt exactly when it raised an approval error, and then the
receipt says that it was denied and why.
Witness: only for an approval error the gate goes on to mint a receipt.
-/
theorem receiptOf_raised {err : Exc} {d6 : Option RefusalOutcome} {receipt : EffectReceipt}
    {sig : Bytes}
    : receiptOf (gate.concluded std decision principal createdMs (.error ⟨err, d6⟩))
      = some (receipt, sig)
      ↔ ∃ kind msg, err = .approvalError kind msg
        ∧ gate.signedReceipt decision principal decisionDenied (.lit kind.name.toList) [] createdMs
          = .ok (receipt, sig) := by
  by_cases approval : ∃ kind msg, err = .approvalError kind msg
  · obtain ⟨kind, msg, rfl⟩ := approval
    simp only [EffectGate.concluded]
    cases minted : gate.signedReceipt decision principal decisionDenied (.lit kind.name.toList) []
        createdMs with
    | error err => simp [receiptOf, Except.mapError, minted]
    | ok minted' => simp [receiptOf, Except.mapError, minted]
  · have other : gate.concluded std decision principal createdMs (.error ⟨err, d6⟩)
        = .error { err } := by
      unfold EffectGate.concluded
      split
      · rename_i same
        cases same
        exact absurd ⟨_, _, rfl⟩ approval
      · rename_i same
        cases same
        rfl
      · rename_i same
        cases same
    rw [other]
    refine iff_of_false nofun ?_
    intro named
    obtain ⟨kind, msg, same, -⟩ := named
    exact approval ⟨kind, msg, same⟩

/-- What a call ends with, and the world after it, hold one receipt: its signature verifies under
the gate's receipt key, and it says that the call was executed exactly when its action was, and that
it was denied exactly when its action was not.
-/
def LeavesReceipt (gate : EffectGate lib) (before : World (Option α))
    (action : PendingAction (Option α))
    (ended : Except Escaped (Option α × EffectReceipt × Bytes) × World (Option α)) : Prop :=
  ∃ receipt sig, receiptOf ended.1 = some (receipt, sig)
    ∧ (∃ body, receipt.bytes = .ok body
      ∧ coseVerify1Raw lib gate.receiptAlg gate.receiptPubkey body sig = .ok true)
    ∧ (receipt.decision = decisionExecuted ↔ ended.2.executed = before.executed ++ [action])
    ∧ (receipt.decision = decisionDenied ↔ ended.2.executed = before.executed)

/-- When a call leaves its receipt: a call that is forwarded returns what can be written as JSON, a
call that is not is answered, and the parts of its receipt can be encoded.
-/
structure Receipted (forward : Py (Option α)) (world : World (Option α))
    (i : Interception (Option α)) (recordable : Prop) : Prop where
  returns : Permitted lib world i → ∃ result, forward = .ok result
    ∧ ∀ value ∈ result, ∃ octets, canonicalJsonBytes std.dumpsResult value = .ok octets
  refuses : ¬ Permitted lib world i → Answerable lib world i
  recordable : recordable

variable {std}

theorem resultHash_returns {result : Option α}
    : (∃ hash, EffectGate.resultHash std result = .ok hash)
      ↔ ∀ value ∈ result, ∃ octets, canonicalJsonBytes std.dumpsResult value = .ok octets := by
  cases result with
  | none => exact iff_of_true ⟨[], rfl⟩ nofun
  | some value => simp [EffectGate.resultHash, bind_eq_ok]

/-- The hash of a result can be encoded, also the empty one of a call without a result. -/
theorem encodable_resultHash {result : Option α} {hash : Bytes}
    (hashed : EffectGate.resultHash std result = .ok hash) : Encodable (.b hash) := by
  cases result with
  | none =>
      obtain rfl := Except.ok.inj hashed
      exact encodable_b.mpr (by simp)
  | some value =>
      obtain ⟨octets, -, same⟩ := bind_eq_ok.mp hashed
      obtain rfl := Except.ok.inj same
      exact encodable_contentIdBytes octets

theorem decisions_differ : decisionExecuted ≠ decisionDenied := by decide

section Ends

variable {before after : World (Option α)} {action : PendingAction (Option α)}

/-- A call that was executed and returns leaves its receipt when its result can be hashed and the
receipt recorded.
-/
theorem leaves_executed (signs : Envelope.SignsVerifiably lib) {result : Option α}
    (appended : after.executed = before.executed ++ [action])
    : LeavesReceipt gate before action
        (gate.concluded std decision principal createdMs (.ok result), after)
      ↔ (∃ hash, EffectGate.resultHash std result = .ok hash)
        ∧ Recordable gate decision principal createdMs := by
  constructor
  · intro leaves
    obtain ⟨receipt, sig, carried, -⟩ := leaves
    obtain ⟨hash, hashed, minted⟩ := (receiptOf_returned std).mp carried
    refine ⟨⟨hash, hashed⟩, (signedReceipt_returns signs (.inl rfl) ?_).mp ⟨receipt, sig, minted⟩⟩
    exact ⟨encodable_lit (by decide), @encodable_lit [] (by simp), encodable_resultHash hashed⟩
  · intro records
    obtain ⟨⟨hash, hashed⟩, recordable⟩ := records
    obtain ⟨receipt, sig, minted⟩ :=
      (@signedReceipt_returns lib gate decision principal createdMs signs decisionExecuted [] hash
        (.inl rfl) ⟨encodable_lit (by decide), @encodable_lit [] (by simp),
          encodable_resultHash hashed⟩).mpr recordable
    have signed := signedReceipt_signed signs minted
    refine ⟨receipt, sig, (receiptOf_returned std).mpr ⟨hash, hashed, minted⟩, signed.verifies,
      ?_, ?_⟩
    · exact iff_of_true signed.verdict appended
    · refine iff_of_false (fun denied => decisions_differ (signed.verdict.symm.trans denied)) ?_
      rw [appended]
      exact (not_executed _ _).symm

/-- A call that raises leaves its receipt when it was not executed, raises an approval error and the
receipt can be recorded.
Witness: the receipt that is carried says denied, which is true exactly when nothing was
executed.
-/
theorem leaves_raised (signs : Envelope.SignsVerifiably lib) {err : Exc}
    {d6 : Option RefusalOutcome}
    : LeavesReceipt gate before action
        (gate.concluded std decision principal createdMs (.error ⟨err, d6⟩), after)
      ↔ after.executed = before.executed ∧ IsApprovalError err
        ∧ Recordable gate decision principal createdMs := by
  have encodable (kind : Kind) : Encodable (.t decisionDenied)
      ∧ Encodable (.t (.lit kind.name.toList)) ∧ Encodable (.b []) :=
    ⟨encodable_lit (by decide), encodable_lit (length_name kind), encodable_b.mpr (by simp)⟩
  constructor
  · intro leaves
    obtain ⟨receipt, sig, carried, -, -, denied⟩ := leaves
    obtain ⟨kind, msg, rfl, minted⟩ := (receiptOf_raised std).mp carried
    refine ⟨denied.mp (signedReceipt_signed signs minted).verdict, trivial, ?_⟩
    exact (signedReceipt_returns signs (.inr rfl) (encodable kind)).mp ⟨receipt, sig, minted⟩
  · intro records
    obtain ⟨kept, approval, recordable⟩ := records
    cases err with
    | approvalError kind msg =>
        obtain ⟨receipt, sig, minted⟩ :=
          (signedReceipt_returns signs (.inr rfl) (encodable kind)).mpr
          recordable
        have signed := signedReceipt_signed signs minted
        have carried : receiptOf (gate.concluded std decision principal createdMs
            (.error ⟨.approvalError kind msg, d6⟩)) = some (receipt, sig) :=
          (receiptOf_raised std).mpr ⟨kind, msg, rfl, minted⟩
        refine ⟨receipt, sig, carried, signed.verifies, ?_, ?_⟩
        · refine iff_of_false (fun ran => decisions_differ (ran.symm.trans signed.verdict)) ?_
          rw [kept]
          exact not_executed _ _
        · exact iff_of_true signed.verdict kept
    | _ => exact approval.elim

end Ends

section Calls

variable {forward : Py (Option α)} {around : EffectGate.Surroundings} {world : World (Option α)}

/-- A permitted call is forwarded, and what that returns or raises is concluded. -/
theorem authorize_of_permitted (std : StandardLibrary α)
    (permitted : Permitted lib world (gate.interception decision forward principal around))
    : ∃ after : World (Option α),
      after.executed = world.executed ++ [EffectGate.pendingAction decision forward principal]
      ∧ settle (gate.authorizeAndExecute std decision forward principal around world)
        = (gate.concluded std decision principal around.clock.minted
          (forward.mapError fun err => { err }), after) := by
  obtain ⟨done, cleared⟩ := (@clearance_returns _ lib std.reprStr _ _).mpr permitted
  have settled := @settles _ lib std.reprStr world
    (gate.interception decision forward principal around) rfl
  rw [authorizeAndExecute_eq]
  generalize respond (intercept lib std.reprStr) world
    (gate.interception decision forward principal around) = ended at settled ⊢
  obtain ⟨outcome, after⟩ := ended
  rw [cleared] at settled
  cases settled with
  | ran same appended =>
      have forwarded : outcome = forward.mapError fun err => { err } := same
      exact ⟨after, appended, by rw [forwarded]⟩

/-- A call that is not permitted is not forwarded, and raises an approval error exactly when it is
answered.
-/
theorem authorize_of_withheld (std : StandardLibrary α)
    (withheld : ¬ Permitted lib world (gate.interception decision forward principal around))
    : ∃ err d6, ∃ after : World (Option α), after.executed = world.executed
      ∧ (IsApprovalError err
        ↔ Answerable lib world (gate.interception decision forward principal around))
      ∧ settle (gate.authorizeAndExecute std decision forward principal around world)
        = (gate.concluded std decision principal around.clock.minted (.error ⟨err, d6⟩),
          after) := by
  have settled := @settles _ lib std.reprStr world
    (gate.interception decision forward principal around) rfl
  rw [authorizeAndExecute_eq]
  generalize respond (intercept lib std.reprStr) world
    (gate.interception decision forward principal around) = ended at settled ⊢
  obtain ⟨outcome, after⟩ := ended
  cases cleared : clearance lib std.reprStr world
    (gate.interception decision forward principal around) with
  | ok done => exact absurd ((@clearance_returns _ lib std.reprStr _ _).mp ⟨done, cleared⟩) withheld
  | error err =>
      have gated := fun below => withheld (.inl below)
      have known : IsApprovalError err
          ↔ Answerable lib world (gate.interception decision forward principal around) := by
        rw [← @failsOnly_clearance _ lib std.reprStr _ _ gated, cleared]
        simp [FailsOnly]
      rw [cleared] at settled
      cases settled with
      | withheld kept => exact ⟨err, _, after, kept, known, rfl⟩

/-- A call that is forwarded and raises leaves no receipt that says so. -/
theorem not_leavesReceipt_of_raised (signs : Envelope.SignsVerifiably lib) {err : Exc}
    (permitted : Permitted lib world (gate.interception decision (.error err) principal around))
    : ¬ LeavesReceipt gate world (EffectGate.pendingAction decision (.error err) principal)
        (settle (gate.authorizeAndExecute std decision (.error err) principal around world)) := by
  obtain ⟨after, appended, same⟩ := authorize_of_permitted std permitted
  rw [same]
  intro leaves
  exact not_executed _ _ (((leaves_raised signs).mp leaves).1.symm.trans appended)

end Calls

/-- For every decision of a gate, and whatever its forward callable returns or raises: the call
leaves its receipt exactly under the condition, where a seed signs verifiably.
Witness: a permitted decision reaches the forward callable and leaves the receipt of its
outcome; one that is withheld raises before it.
-/
theorem leaves_receipt_iff (signs : Envelope.SignsVerifiably lib) (std : StandardLibrary α)
    (gate : EffectGate lib) (decision : GateDecision) (forward : Py (Option α)) (principal : PyStr)
    (around : EffectGate.Surroundings) (world : World (Option α))
    : LeavesReceipt gate world (EffectGate.pendingAction decision forward principal)
        (settle (gate.authorizeAndExecute std decision forward principal around world))
      ↔ @Receipted _ lib std forward world (gate.interception decision forward principal around)
        (Recordable gate decision principal around.clock.minted) := by
  by_cases permitted : Permitted lib world (gate.interception decision forward principal around)
  · cases forward with
    | ok result =>
        obtain ⟨after, appended, same⟩ := authorize_of_permitted std permitted
        rw [same]
        refine (leaves_executed signs appended).trans ?_
        rw [resultHash_returns]
        constructor
        · intro records
          exact ⟨fun _ => ⟨result, rfl, records.1⟩, absurd permitted, records.2⟩
        · intro receipted
          obtain ⟨_, same, hashes⟩ := receipted.returns permitted
          obtain rfl := Except.ok.inj same
          exact ⟨hashes, receipted.recordable⟩
    | error err =>
        refine iff_of_false (not_leavesReceipt_of_raised signs permitted) ?_
        intro receipted
        obtain ⟨_, same, -⟩ := receipted.returns permitted
        cases same
  · obtain ⟨err, d6, after, kept, known, same⟩ := authorize_of_withheld std permitted
    rw [same]
    refine (leaves_raised signs).trans ?_
    rw [known]
    constructor
    · intro records
      exact ⟨fun given => absurd given permitted, fun _ => records.2.1, records.2.2⟩
    · intro receipted
      exact ⟨kept, receipted.refuses permitted, receipted.recordable⟩

end Receipts

-----------------------------------------------------------------------------------------
-- Sample calls
-----------------------------------------------------------------------------------------

/-- A read-only call, below the threshold of the sample gate. -/
def readDecision : GateDecision where
  carried := {
    signedObject := [], toolBytes := [], argsBytes := [], annotationMappedEffect := 0
    declaredEffect := 0, callBindingContentId := []
  }
  bridged := {
    signer := [], contentId := none, toolBytes := [], argsBytes := [], toolDefinition := []
    arguments := .null, annotationMappedEffect := 0, declaredEffect := 0, enforcedEffect := 0
    mismatch := false, callBindingContentId := []
    resolved := {
      toolCall := { tool := [], args := [] }, enforced := 0, contentId := none, signer := []
      annotations := {}, annotationMapped := 0, declared := 0, mismatch := false
    }
  }
  callBinding := { toolId := [], argsId := [] }
  requiresApproval := false
  toolName := sampleName

def sampleWorld : World (Option Unit) := { ledger := emptyLedger }

theorem readDecision_permitted (forward : Py (Option Unit))
    : Permitted digestLibrary sampleWorld
        (sampleGate.interception readDecision forward [] sampleCall.around) :=
  .inl (show (0 : Int) < Policy.nonIdempotentWrite by decide)

/-- A call that returns nothing leaves its receipt. -/
theorem leaves_receipt_read
    : LeavesReceipt sampleGate sampleWorld (EffectGate.pendingAction readDecision (.ok none) [])
        (settle (sampleGate.authorizeAndExecute sampleStd readDecision (.ok none)
          [] sampleCall.around sampleWorld)) := by
  have permitted := readDecision_permitted (.ok none)
  refine (leaves_receipt_iff Envelope.digestLibrary_signsVerifiably sampleStd sampleGate
    readDecision (.ok none) [] sampleCall.around sampleWorld).mpr
      ⟨fun _ => ⟨none, rfl, nofun⟩, absurd permitted, ?_⟩
  exact {
    toolId := encodable_b.mpr (by decide)
    argsId := encodable_b.mpr (by decide)
    effect := by decide
    principal := @encodable_lit [] (by decide)
    toolName := encodable_lit (by decide)
    guardIdentity := encodable_lit (by decide)
    created := encodable_u.mpr (by decide)
  }

/-- A call that is forwarded and times out leaves none. -/
theorem timeout_leaves_no_receipt
    : ¬ LeavesReceipt sampleGate sampleWorld
        (EffectGate.pendingAction readDecision (.error (.other "TimeoutError")) [])
        (settle (sampleGate.authorizeAndExecute sampleStd readDecision
          (.error (.other "TimeoutError")) [] sampleCall.around sampleWorld)) :=
  not_leavesReceipt_of_raised Envelope.digestLibrary_signsVerifiably (readDecision_permitted _)

end Naalp.Authorization
