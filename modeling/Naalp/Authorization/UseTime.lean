import Naalp.Authorization.GateAgreement
import Naalp.Python.VerifyAtUse

/-! Guards that check an authorization when it is used, over runs on one ledger: when an action runs
is told from the calls before it, and what does not run has spent nothing.
-/

namespace Naalp.Authorization.UseTime

open Naalp.Foundation
open Naalp.ConsumeLedger
open Naalp.Python
open Naalp.Python.Approval
open Naalp.Python.Cbor
open Naalp.Python.Cose
open Naalp.Python.VerifyAtUse

-----------------------------------------------------------------------------------------
-- One check
-----------------------------------------------------------------------------------------

/-- The key of the guard's approver has an id, and no revocation of it lies before the position. -/
def Live (guard : VerifyAtUseGuard) (revoked : PyStr → Option Identity.RevocationRecord) (now : Int)
    : Prop :=
  ∃ id, Identity.signerId guard.approverAlg guard.approverPubkey = .ok id
    ∧ ∀ r, revoked id = some r → now ≤ r.notAfter

/-- The approval is signed by the guard's approver for its audience, binds the arguments, is not
expired and grants the effect within the known classes; `body` is what its id is computed from.
-/
structure Covers (lib : SignatureLibrary) (guard : VerifyAtUseGuard) (now : Int)
    (record : ApprovalRecord) (sig argsId : Bytes) (effect : Int) (body : Bytes) : Prop where
  encoded : record.bytes = .ok body
  signed : coseVerify1Raw lib guard.approverAlg guard.approverPubkey body sig = .ok true
  audience : record.audience = [] ∨ record.audience = guard.audience
  bound : record.approves = argsId
  unexpired : now ≤ record.notAfter
  granted : effect ≤ record.grant
  known : record.grant ≤ Policy.destructive

/-- The ledger takes an entry for the id. -/
structure Takes (led : Ledger) (fault : Option Fault) (aid : Bytes) (consumer : PyStr) : Prop where
  faultless : fault = none
  isOpen : led.file.closed = false
  writable : Writable (led.nextEntry aid consumer)

section Checks

variable {lib : SignatureLibrary} {guard : VerifyAtUseGuard} {led after : Ledger}
  {fault : Option Fault} {record : ApprovalRecord} {sig argsId aid : Bytes} {effect now : Int}
  {consumer : PyStr}
  {e : LedgerEntry}

/-- The check of liveness passes exactly when the approval is live and meant for the guard's
audience or for none.
-/
theorem checkLive_eq_ok
    : guard.checkLive record now = .ok ()
      ↔ Live guard guard.revocations.lookup now
        ∧ (record.audience = [] ∨ record.audience = guard.audience) := by
  have live : ∀ id, ¬ (guard.revocations.lookup id).any (Identity.revokedAt · now) = true
      ↔ ∀ r, guard.revocations.lookup id = some r → now ≤ r.notAfter := by
    simp [Option.any_eq_true, Identity.revokedAt]
  simp only [VerifyAtUseGuard.checkLive, bind_eq_ok, raiseIf_eq_ok, exists_const,
    mapError_eq_ok, live, verifyAudience, not_and_or, not_not, Live]
  constructor
  · rintro ⟨id, derived, live, audience⟩
    exact ⟨⟨id, derived, live⟩, audience⟩
  · rintro ⟨⟨id, derived, live⟩, audience⟩
    exact ⟨id, derived, live, audience⟩

/-- What is persisted is persisted without a fault, on an open log. -/
theorem faultless_of_persist {α : Type} {prepared : Py (Prepared α)} {result : α}
    (persisted : led.persist fault prepared = (.ok result, after))
    : fault = none ∧ led.file.closed = false := by
  cases prepared with
  | error err => cases persisted
  | ok p =>
      unfold Ledger.persist LogFile.append at persisted
      cases closed : led.file.closed with
      | true => simp [closed] at persisted
      | false =>
          cases fault with
          | none => exact ⟨rfl, rfl⟩
          | some failing => simp [closed] at persisted

/-- A consume succeeds exactly when the id is fresh and the ledger takes it, and it appends the
next entry.
-/
theorem consume_eq_ok
    : led.consume fault aid consumer = (.ok e, after)
      ↔ aid ∉ led.memory.consumed ∧ Takes led fault aid consumer
        ∧ e = led.nextEntry aid consumer
        ∧ after = appendEntry led (led.nextEntry aid consumer) := by
  constructor
  · intro consumed
    rw [Ledger.consume] at consumed
    obtain ⟨faultless, isOpen⟩ := faultless_of_persist consumed
    rcases persist_cases fault (prepareConsume_preparedFor led aid consumer) with
      ⟨err, reply⟩ | ⟨entry, same, unspent, writable, reply⟩ | ⟨failing, -, reply⟩
    · rw [reply] at consumed
      cases consumed
    · obtain ⟨returned, rfl⟩ := Prod.mk.inj (reply.symm.trans consumed)
      obtain rfl := Except.ok.inj returned
      exact ⟨unspent, ⟨faultless, isOpen, writable⟩, same, rfl⟩
    · rw [reply] at consumed
      cases consumed
  · rintro ⟨unspent, ⟨rfl, isOpen, writable⟩, rfl, rfl⟩
    exact consume_unspent unspent isOpen writable

/-- A use is consumed when the approver is live, an approval covers it, and the ledger takes its id.
Witness: the checks are read off in the order of the code, the consume last.
-/
theorem verifyAndConsume_eq_ok
    : guard.verifyAndConsume lib led fault record sig argsId effect now = (.ok e, after)
      ↔ Live guard guard.revocations.lookup now
        ∧ ∃ body, Covers lib guard now record sig argsId effect body
          ∧ contentIdBytes body ∉ led.memory.consumed
          ∧ Takes led fault (contentIdBytes body) guard.identity
          ∧ e = led.nextEntry (contentIdBytes body) guard.identity
          ∧ after = appendEntry led (led.nextEntry (contentIdBytes body) guard.identity) := by
  unfold VerifyAtUseGuard.verifyAndConsume
  cases checked : guard.checkLive record now with
  | error err =>
      constructor
      · rintro ⟨⟩
      · rintro ⟨live, body, covers, -⟩
        rw [checkLive_eq_ok.mpr ⟨live, covers.audience⟩] at checked
        cases checked
  | ok done =>
      obtain ⟨live, audience⟩ := checkLive_eq_ok.mp checked
      have consumed
          : ((consumeApproval lib led fault record guard.approverAlg guard.approverPubkey sig
            argsId now effect guard.identity).1.mapError UseError.raised,
          (consumeApproval lib led fault record guard.approverAlg guard.approverPubkey sig argsId
            now effect guard.identity).2) = (.ok e, after)
          ↔ consumeApproval lib led fault record guard.approverAlg guard.approverPubkey sig argsId
            now effect guard.identity = (.ok e, after) := by
        rw [Prod.mk.injEq, mapError_eq_ok, ← Prod.mk.injEq]
      simp only [consumed, consumeApproval_eq_ok, Passes, verifyApproval_eq_ok, approval_id_eq_ok,
        consume_eq_ok]
      constructor
      · rintro ⟨known, _, ⟨⟨⟨body, encoded, signed⟩, bound, unexpired⟩, granted, body', again, rfl⟩,
          unspent, takes, rfl, rfl⟩
        obtain rfl := Except.ok.inj (encoded.symm.trans again)
        exact ⟨live, body, ⟨encoded, signed, audience, bound, unexpired, granted, known⟩, unspent,
          takes, rfl, rfl⟩
      · rintro ⟨-, body, covers, unspent, takes, rfl, rfl⟩
        exact ⟨covers.known, _,
          ⟨⟨⟨body, covers.encoded, covers.signed⟩, covers.bound, covers.unexpired⟩,
          covers.granted, body, covers.encoded, rfl⟩, unspent, takes, rfl, rfl⟩

/-- The guard consumes exactly when the approval is live and covers the action, its id is fresh
and the ledger takes it.
-/
theorem consumed_iff
    : (∃ e, (guard.verifyAndConsume lib led fault record sig argsId effect now).1 = .ok e)
      ↔ Live guard guard.revocations.lookup now
        ∧ ∃ body, Covers lib guard now record sig argsId effect body
          ∧ contentIdBytes body ∉ spentIds led
          ∧ Takes led fault (contentIdBytes body) guard.identity := by
  constructor
  · rintro ⟨e, returned⟩
    have consumed : guard.verifyAndConsume lib led fault record sig argsId effect now
        = (.ok e, (guard.verifyAndConsume lib led fault record sig argsId effect now).2) :=
      Prod.ext returned rfl
    obtain ⟨live, body, covers, unspent, takes, -⟩ := verifyAndConsume_eq_ok.mp consumed
    exact ⟨live, body, covers, unspent, takes⟩
  · rintro ⟨live, body, covers, unspent, takes⟩
    exact ⟨_, congrArg Prod.fst
      (verifyAndConsume_eq_ok.mpr ⟨live, body, covers, unspent, takes, rfl, rfl⟩)⟩

/-- A use that raises leaves the memory of the ledger, and without a failing write the whole ledger.
-/
theorem unchanged_of_error {err : UseError}
    (raised : (guard.verifyAndConsume lib led fault record sig argsId effect now).1 = .error err)
    : (guard.verifyAndConsume lib led fault record sig argsId effect now).2.memory = led.memory
      ∧ (fault = none
        → (guard.verifyAndConsume lib led fault record sig argsId effect now).2 = led) := by
  unfold VerifyAtUseGuard.verifyAndConsume at raised ⊢
  cases checked : guard.checkLive record now with
  | error _ => exact ⟨rfl, fun _ => rfl⟩
  | ok _ =>
      simp only [checked] at raised ⊢
      let call : GateCall := ⟨.consumeApproval argsId effect guard.identity,
        ⟨record, guard.approverAlg, guard.approverPubkey, sig, now⟩, fault⟩
      have answered := gateStep_answered lib led call
      cases outcome : (consumeApproval lib led fault record guard.approverAlg
        guard.approverPubkey sig
          argsId now effect guard.identity).1 with
      | ok entry =>
          rw [outcome] at raised
          cases raised
      | error inner =>
          have failed : (gateStep lib led call).1 = .error inner := by
            simp only [call, gateStep, outcome]
            rfl
          exact answered.unchanged failed

/-- A use spends the id of its record exactly when it is consumed. -/
theorem mem_spentIds_iff
    : aid ∈ spentIds (guard.verifyAndConsume lib led fault record sig argsId effect now).2
      ↔ aid ∈ spentIds led
        ∨ (∃ e, (guard.verifyAndConsume lib led fault record sig argsId effect now).1 = .ok e)
          ∧ record.id = .ok aid := by
  cases outcome : (guard.verifyAndConsume lib led fault record sig argsId effect now).1 with
  | error err =>
      simp [spentIds, (unchanged_of_error outcome).1]
  | ok e =>
      have consumed : guard.verifyAndConsume lib led fault record sig argsId effect now
          = (.ok e, (guard.verifyAndConsume lib led fault record sig argsId effect now).2) :=
        Prod.ext outcome rfl
      obtain ⟨-, body, covers, -, -, -, appended⟩ := verifyAndConsume_eq_ok.mp consumed
      have id := approval_id_eq_ok.mpr ⟨body, covers.encoded, rfl⟩
      have inserts
          : aid ∈ spentIds (appendEntry led (led.nextEntry (contentIdBytes body) guard.identity))
          ↔ aid = contentIdBytes body ∨ aid ∈ spentIds led := AList.mem_insert _
      rw [appended, id, inserts, or_comm]
      simp [eq_comm]

end Checks

-----------------------------------------------------------------------------------------
-- Whole runs
-----------------------------------------------------------------------------------------

section Runs

variable {γ α : Type}

/-- The approval id that the event spent. -/
def spentId (event : Event (World γ) (GuardCall γ α) (Except UseError (GuardAnswer α)))
    : Option Bytes :=
  match event.call, event.outcome with
  | .execute _ p, .ok _ => p.record.id.toOption
  | .verifyAndConsume _ _ p, .ok _ => p.record.id.toOption
  | _, _ => none

variable [DecidableEq γ]

/-- The record that the call registers at the guard for the id. -/
def registers (guard : γ) (id : PyStr) : GuardCall γ α → Option Identity.RevocationRecord
  | .registerRevocation other key record => if other = guard ∧ key = id then some record else none
  | _ => none

/-- What the guard honors for the id: the record last registered in the calls, or that of the start.
-/
def honored (start : World γ) (calls : List (GuardCall γ α)) (guard : γ) (id : PyStr)
    : Option Identity.RevocationRecord :=
  (calls.reverse.findSome? (registers guard id)).or ((start.guards guard).revocations.lookup id)

variable {lib : SignatureLibrary} {start world : World γ} {calls : List (GuardCall γ α)}
  {call : GuardCall γ α} {guard : γ} {id : PyStr} {aid : Bytes}

theorem honored_snoc
    : honored start (calls ++ [call]) guard id
      = (registers guard id call).or (honored start calls guard id) := by
  simp only [honored, List.reverse_append, List.reverse_singleton, List.singleton_append,
    List.findSome?_cons]
  cases registers guard id call <;> simp

/-- After every run a guard is the one of the start with the revocations that the calls registered,
by induction from the end of the calls.
-/
theorem guards_follow (start : World γ) (calls : List (GuardCall γ α)) (guard : γ)
    : ∃ revocations,
        (finalState (guardStep lib) start calls).guards guard
          = { start.guards guard with revocations }
        ∧ revocations.lookup = honored start calls guard := by
  let holds (calls : List (GuardCall γ α)) (world : World γ) : Prop := ∀ guard, ∃ revocations,
    world.guards guard = { start.guards guard with revocations }
      ∧ revocations.lookup = honored start calls guard
  refine @finalState_history _ _ _ (guardStep lib) holds start ?_ ?_ calls guard
  · intro guard
    exact ⟨_, rfl, funext fun id => by simp [honored]⟩
  · intro before world call follows guard
    obtain ⟨revocations, same, honors⟩ := follows guard
    cases call with
    | execute action p =>
        exact ⟨revocations, same, honors.trans (funext fun id => by simp [honored_snoc, registers])⟩
    | verifyAndConsume argsContentId requiredEffect p =>
        exact ⟨revocations, same, honors.trans (funext fun id => by simp [honored_snoc, registers])⟩
    | registerRevocation other key record =>
        by_cases here : other = guard
        · subst here
          refine ⟨revocations.insert key record, ?_, funext fun id => ?_⟩
          · simp [guardStep, VerifyAtUseGuard.registerRevocation, same]
          · rw [honored_snoc, registers, ← honors]
            by_cases named : key = id
            · subst named
              simp
            · simp [named, AList.lookup_insert_ne (Ne.symm named)]
        · refine ⟨revocations, ?_, honors.trans (funext fun id => ?_)⟩
          · simp [guardStep, Function.update_of_ne (Ne.symm here), same]
          · simp [honored_snoc, registers, here]

/-- A call spends the id that its event spent, and no other. -/
theorem mem_spentIds_step
    : aid ∈ spentIds (guardStep lib world call).2.ledger
      ↔ aid ∈ spentIds world.ledger ∨ spentId (answer (guardStep lib) world call) = some aid := by
  cases call with
  | execute action p =>
      cases encoded : contentId action.args with
      | error err => simp [guardStep, VerifyAtUseGuard.execute, encoded, spentId, answer,
          Except.map]
      | ok argsId =>
          simp only [guardStep, VerifyAtUseGuard.execute, encoded, mem_spentIds_iff, spentId,
            answer]
          cases (VerifyAtUseGuard.verifyAndConsume lib (world.guards p.guard) world.ledger p.fault
            p.record p.sig argsId action.effect p.now).1 <;> simp [Except.map, toOption_eq_some]
  | verifyAndConsume argsContentId requiredEffect p =>
      simp only [guardStep, mem_spentIds_iff, spentId, answer]
      cases (VerifyAtUseGuard.verifyAndConsume lib (world.guards p.guard) world.ledger p.fault
        p.record p.sig argsContentId requiredEffect p.now).1 <;> simp [Except.map, toOption_eq_some]
  | registerRevocation guard key record => simp [guardStep, spentId, answer]

/-- The spent ids are those of the start and of the events, by induction from the end of the calls.
-/
theorem mem_spentIds_run
    : aid ∈ spentIds (finalState (guardStep lib) start calls).ledger
      ↔ aid ∈ spentIds start.ledger
        ∨ ∃ event ∈ trace (guardStep lib) start calls, spentId event = some aid := by
  induction calls using List.reverseRecOn with
  | nil => simp [finalState, trace]
  | append_singleton calls call ih =>
      rw [finalState_snoc, mem_spentIds_step, ih, trace_snoc]
      simp [or_and_right, exists_or, or_assoc]

/-- What a call has to find to run its action: the approver is live by the revocations, an approval
of the arguments covers the action, its id is fresh, and the ledger takes the id.
-/
def RunsWhen (lib : SignatureLibrary) (led : Ledger) (guard : VerifyAtUseGuard)
    (revoked : PyStr → Option Identity.RevocationRecord) (fresh : Bytes → Prop)
    (action : GuardedAction α)
    (p : Presentation γ) : Prop :=
  Live guard revoked p.now
  ∧ ∃ argsId body, contentId action.args = .ok argsId
    ∧ Covers lib guard p.now p.record p.sig argsId action.effect body
    ∧ fresh (contentIdBytes body) ∧ Takes led p.fault (contentIdBytes body) guard.identity

variable {action : GuardedAction α} {p : Presentation γ}

/-- An action runs exactly when an approval covers it at the time of its use. -/
theorem execute_runs_iff
    : (guardStep lib world (.execute action p)).1 = .ok (.ran action.run)
      ↔ RunsWhen lib world.ledger (world.guards p.guard) (world.guards p.guard).revocations.lookup
        (· ∉ spentIds world.ledger) action p := by
  cases encoded : contentId action.args with
  | error err => simp [RunsWhen, guardStep, VerifyAtUseGuard.execute, encoded, Except.map]
  | ok argsId =>
      have runs : ∀ outcome : Except UseError LedgerEntry,
          (outcome.map fun _ => action.run).map GuardAnswer.ran = .ok (.ran action.run)
            ↔ ∃ e, outcome = .ok e := by
        intro outcome
        cases outcome <;> simp [Except.map]
      simp only [RunsWhen, guardStep, VerifyAtUseGuard.execute, encoded, runs, consumed_iff,
        Except.ok.injEq]
      simp

/-- A use that raises leaves the guards and what is spent, and without a failing write the whole
world.
-/
theorem execute_raises {err : UseError}
    (raised : (guardStep lib world (.execute action p)).1 = .error err)
    : let after := (guardStep lib world (.execute action p)).2
      after.guards = world.guards ∧ spentIds after.ledger = spentIds world.ledger
        ∧ (p.fault = none → after = world) := by
  cases encoded : contentId action.args with
  | error _ => simp [guardStep, VerifyAtUseGuard.execute, encoded]
  | ok argsId =>
      simp only [guardStep, VerifyAtUseGuard.execute, encoded] at raised ⊢
      cases outcome : (VerifyAtUseGuard.verifyAndConsume lib (world.guards p.guard) world.ledger
        p.fault
          p.record p.sig argsId action.effect p.now).1 with
      | ok e =>
          rw [outcome] at raised
          cases raised
      | error _ =>
          obtain ⟨memory, whole⟩ := unchanged_of_error outcome
          refine ⟨trivial, by rw [spentIds, memory, ← spentIds], fun faultless => ?_⟩
          rw [whole faultless]

omit [DecidableEq γ] in
/-- What does not differ in the parts that a call reads decides alike. -/
theorem RunsWhen.congr {led : Ledger} {guard : VerifyAtUseGuard} {revocations : Revocations}
    {revoked : PyStr → Option Identity.RevocationRecord} {fresh fresh' : Bytes → Prop}
    (same : ∀ aid, fresh aid ↔ fresh' aid)
    : RunsWhen lib led { guard with revocations } revoked fresh action p
      ↔ RunsWhen lib led guard revoked fresh' action p := by
  refine and_congr_right fun _ => exists_congr fun argsId => exists_congr fun body => ?_
  refine and_congr_right fun _ => and_congr ?_ (and_congr_left fun _ => same _)
  exact ⟨fun ⟨encoded, signed, audience, bound, unexpired, granted, known⟩ =>
      ⟨encoded, signed, audience, bound, unexpired, granted, known⟩,
    fun ⟨encoded, signed, audience, bound, unexpired, granted, known⟩ =>
      ⟨encoded, signed, audience, bound, unexpired, granted, known⟩⟩

/-- After every run of calls a use runs its action exactly when no record last registered for the
approver at its guard revokes it, the approval covers the action now, and neither the start nor an
earlier call spent the id; and a use that raises leaves the guards and what is spent, and without a
failing write the whole world.
-/
theorem use_runs_iff (lib : SignatureLibrary) (start : World γ) (calls : List (GuardCall γ α))
    (action : GuardedAction α) (p : Presentation γ)
    : let world := finalState (guardStep lib) start calls
      let answered := guardStep lib world (.execute action p)
      (answered.1 = .ok (.ran action.run)
        ↔ RunsWhen lib world.ledger (start.guards p.guard) (honored start calls p.guard)
          (fun aid => aid ∉ spentIds start.ledger
            ∧ ∀ event ∈ trace (guardStep lib) start calls, spentId event ≠ some aid) action p)
      ∧ ∀ err, answered.1 = .error err
        → answered.2.guards = world.guards ∧ spentIds answered.2.ledger = spentIds world.ledger
          ∧ (p.fault = none → answered.2 = world) := by
  refine ⟨?_, fun err raised => execute_raises raised⟩
  obtain ⟨revocations, same, honors⟩ := @guards_follow _ _ _ lib start calls p.guard
  rw [execute_runs_iff, same, ← honors]
  refine RunsWhen.congr fun aid => ?_
  rw [mem_spentIds_run, not_or, not_exists]
  simp only [not_and, ne_eq]

end Runs

end Naalp.Authorization.UseTime
