import Naalp.Authorization.ApprovalGates
import Naalp.Python.Hitl

/-! The human-approval interceptor over runs on one ledger: an action that needs an approval is
executed only when its call spends one, and every refusal is logged before it is raised.
-/

namespace Naalp.Authorization

open Naalp.Foundation
open Naalp.ConsumeLedger
open Naalp.Python
open Naalp.Python.Approval
open Naalp.Python.Cbor
open Naalp.Python.Cose
open Naalp.Python.Hitl

-----------------------------------------------------------------------------------------
-- One approval
-----------------------------------------------------------------------------------------

/-- The approval is signed by the approver's key, names no other audience, binds the arguments, is
not expired and grants the effect; `body` is what its id is computed from.
-/
structure Authorizes (lib : SignatureLibrary) (hitl : HITLInterceptor) (posTime : Int)
    (record : ApprovalRecord) (sig argsId : Bytes) (effect : Int) (body : Bytes) : Prop where
  encoded : record.bytes = .ok body
  signed : coseVerify1Raw lib hitl.approverAlg hitl.approverPubkey body sig = .ok true
  audience : record.audience = [] ∨ record.audience = hitl.audience
  bound : record.approves = argsId
  unexpired : posTime ≤ record.notAfter
  granted : effect ≤ record.grant

/-- An attempt raises and leaves the ledger, or spends the id of an approval that authorizes. -/
inductive Attempted (lib : SignatureLibrary) (self : HITLInterceptor) (led : Ledger) (posTime : Int)
    (record : ApprovalRecord) (sig argsId : Bytes) (effect : Int)
    : Py LedgerEntry → Ledger → Prop where
  | refused (err : Exc) : Attempted lib self led posTime record sig argsId effect (.error err) led
  | consumed {body : Bytes} (authorizes : Authorizes lib self posTime record sig argsId effect body)
    (unspent : contentIdBytes body ∉ led.memory.consumed)
    : Attempted lib self led posTime record sig argsId effect
        (.ok (led.nextEntry (contentIdBytes body) self.identity))
        (appendEntry led (led.nextEntry (contentIdBytes body) self.identity))

theorem verifyAudience_eq_ok {record : ApprovalRecord} {audience : PyStr} {done : Unit}
    : verifyAudience record audience = .ok done
      ↔ record.audience = [] ∨ record.audience = audience := by
  rw [verifyAudience, raiseIf_eq_ok, not_and_or, not_not, not_not]

section Attempts

variable {lib : SignatureLibrary} {self : HITLInterceptor} {led : Ledger} {posTime : Int}
  {record : ApprovalRecord} {sig argsId : Bytes} {effect : Int}

/-- What an attempt can do, by its outcome.
Witness: the checks name every failure; after them the ledger is changed by the consume alone.
-/
theorem attempted
    : Attempted lib self led posTime record sig argsId effect
        (self.attempt lib led posTime record sig argsId effect).1
        (self.attempt lib led posTime record sig argsId effect).2 := by
  unfold HITLInterceptor.attempt
  cases audience : verifyAudience record self.audience with
  | error err => exact .refused err
  | ok done =>
      simp only [Ledger.guarded, consumeApproval]
      split
      · exact .refused _
      · rename_i aid checked
        simp only [bind_eq_ok, raiseIf_eq_ok, exists_const, verifyApproval_eq_ok, authorizes_iff,
          approval_id_eq_ok] at checked
        obtain ⟨⟨⟨body, encoded, signed⟩, bound, unexpired⟩, -, granted, body', again, rfl⟩ :=
          checked
        obtain rfl := Except.ok.inj (encoded.symm.trans again)
        rw [Ledger.consume]
        rcases persist_cases none
            (prepareConsume_preparedFor led (contentIdBytes body) self.identity) with
          ⟨err, reply⟩ | ⟨entry, same, unspent, -, reply⟩ | ⟨fault, failing, -⟩
        · rw [reply]
          exact .refused err
        · obtain rfl : entry = led.nextEntry (contentIdBytes body) self.identity := same
          rw [reply]
          exact .consumed ⟨encoded, signed, verifyAudience_eq_ok.mp audience, bound, unexpired,
            granted⟩ unspent
        · cases failing

end Attempts

-----------------------------------------------------------------------------------------
-- One call
-----------------------------------------------------------------------------------------

section Calls

variable {α : Type}

/-- The content id of the arguments, and the human's answer for it. -/
def asked (i : Interception α) : Py (Bytes × Option (ApprovalRecord × Bytes)) := do
  let argsId ← contentId i.action.args
  return (argsId, ← i.human (i.request argsId))

variable (lib : SignatureLibrary) (repr : PyStr → String)

/-- The human declines, or the approval that is given raises an approval error. -/
inductive Refused (world : World α) (i : Interception α) : Kind → Prop where
  | declined {argsId : Bytes} (gated : i.self.approvalThreshold ≤ i.action.effect)
    (answer : asked i = .ok (argsId, none))
    : Refused world i .approvalDenied
  | rejected {argsId sig : Bytes} {record : ApprovalRecord} {reason : Kind} {msg : String}
    (gated : i.self.approvalThreshold ≤ i.action.effect)
    (answer : asked i = .ok (argsId, some (record, sig)))
    (raised : (i.self.attempt lib world.ledger i.clock.verified record sig argsId i.action.effect).1
      = .error (.approvalError reason msg))
    : Refused world i reason

/-- The signed record, its signature and the coarse refusal are all absent, or all there and made of
each other.
-/
def Complete (d6 : RefusalOutcome) : Prop :=
  d6.record = none ∧ d6.recordSig = none ∧ d6.refusal = none
  ∨ ∃ record body sig outcome alg seed, d6.record = some record ∧ record.bytes = .ok body
    ∧ d6.recordSig = some sig ∧ mldsaSign lib alg seed body = .ok sig
    ∧ d6.refusal = some (refusalFromRecord outcome body)

/-- What a refusal raises: itself with a complete outcome, or an error of its signed record with
none.
-/
def RaisedFor (reason : Kind) (raised : Raised) : Prop :=
  (∃ msg d6, raised = { err := .approvalError reason msg, d6 := some d6 } ∧ Complete lib d6)
  ∨ ∃ err, raised = { err }

/-- What executing the action returns or raises. -/
def executed (i : Interception α) : Except Raised α := i.action.execute.mapError fun err => { err }

/-- What a call can do. -/
inductive Intercepted (world : World α) (i : Interception α)
    : Except Raised α → World α → Prop where
  | free (below : i.action.effect < i.self.approvalThreshold)
    : Intercepted world i (executed i) { world with executed := world.executed ++ [i.action] }
  | stopped (err : Exc) (gated : i.self.approvalThreshold ≤ i.action.effect)
    (calm : ∀ reason, ¬ Refused lib world i reason)
    : Intercepted world i (.error { err }) world
  | refused {reason : Kind} {raised : Raised} {entry : RefusalLogEntry}
    (refused : Refused lib world i reason)
    (names : entry.whatKind = i.action.kind ∧ entry.outcomeReason = PyStr.lit reason.name.toList)
    (raises : RaisedFor lib reason raised)
    : Intercepted world i (.error raised) { world with refusals := world.refusals ++ [entry] }
  | approved {argsId sig body : Bytes} {record : ApprovalRecord}
    (gated : i.self.approvalThreshold ≤ i.action.effect)
    (answer : asked i = .ok (argsId, some (record, sig)))
    (authorizes : Authorizes lib i.self i.clock.verified record sig argsId i.action.effect body)
    (unspent : contentIdBytes body ∉ world.ledger.memory.consumed)
    (calm : ∀ reason, ¬ Refused lib world i reason)
    : Intercepted world i (executed i)
        { world with
          ledger := appendEntry world.ledger
            (world.ledger.nextEntry (contentIdBytes body) i.self.identity)
          executed := world.executed ++ [i.action] }

variable {lib repr} {world : World α} {i : Interception α}

theorem Refused.gated {reason : Kind} (refused : Refused lib world i reason)
    : i.self.approvalThreshold ≤ i.action.effect := by
  cases refused <;> assumption

/-- A call is refused for one reason: each reason comes with the checks before it passed. -/
theorem Refused.unique {reason other : Kind} (refused : Refused lib world i reason)
    (again : Refused lib world i other) : reason = other := by
  cases refused with
  | declined _ answer =>
      cases again with
      | declined _ _ => rfl
      | rejected _ answer' _ => simp [answer] at answer'
  | rejected _ answer raised =>
      cases again with
      | declined _ answer' => simp [answer] at answer'
      | rejected _ answer' raised' =>
          obtain ⟨rfl, rfl, rfl⟩ : _ = _ ∧ _ = _ ∧ _ = _ := by simpa [answer] using answer'
          have same := raised.symm.trans raised'
          simp only [Except.error.injEq, Exc.approvalError.injEq] at same
          exact same.1

/-- A refusal that is minted with a signed record has the octets of that record and its
signature.
-/
theorem complete_mintRefusal {self : HITLInterceptor} {whenMs : Int} {reason : Kind}
    {context : RefusalContext} {entry : RefusalLogEntry} {d6 : RefusalOutcome}
    (minted : self.mintRefusal lib whenMs reason context entry = .ok d6)
    : Complete lib d6 := by
  unfold HITLInterceptor.mintRefusal at minted
  split at minted
  · split at minted
    · simp only [signRefusalRecord, bind_eq_ok, pure_eq_ok, Except.ok.injEq] at minted
      obtain ⟨sig, ⟨body, encoded, signed⟩, body', again, rfl⟩ := minted
      obtain rfl := Except.ok.inj (encoded.symm.trans again)
      exact .inr ⟨_, body, sig, _, _, _, rfl, encoded, rfl, signed, rfl⟩
    · obtain rfl := Except.ok.inj minted
      exact .inl ⟨rfl, rfl, rfl⟩
  · obtain rfl := Except.ok.inj minted
    exact .inl ⟨rfl, rfl, rfl⟩

/-- A refusal is logged and then raised, or an error of its signed record is. -/
theorem onRefusal_cases {β : Type} (self : HITLInterceptor) (whenMs : Int) (reason : Kind)
    (msg : String) (context : RefusalContext) (world : World α)
    : ∃ raised, RaisedFor lib reason raised
      ∧ (self.onRefusal lib whenMs reason msg context >>= throw : Method α β) world
        = .error raised
          { world with refusals := world.refusals
              ++ [self.refusalEntry whenMs reason context] } := by
  cases minted : self.mintRefusal lib whenMs reason context
    (self.refusalEntry whenMs reason context) with
  | error err =>
      refine ⟨{ err }, .inr ⟨err, rfl⟩, bind_of_error ?_⟩
      rw [HITLInterceptor.onRefusal, modify_bind, outcomeOf, minted]
      rfl
  | ok d6 =>
      have raises : self.onRefusal lib whenMs reason msg context world
          = .ok { err := .approvalError reason msg, d6 }
            { world with refusals := world.refusals
                ++ [self.refusalEntry whenMs reason context] } := by
        rw [HITLInterceptor.onRefusal, modify_bind, outcomeOf, minted]
        rfl
      exact ⟨_, .inl ⟨msg, d6, rfl, complete_mintRefusal minted⟩, bind_of_ok raises⟩

theorem outcomeOf_bind_of_ok {β γ : Type} {outcome : Py β} {value : β} {next : β → Method α γ}
    (returned : outcome = .ok value)
    : (outcomeOf outcome >>= next) world = next value world :=
  check_bind_of_ok (by rw [returned]; rfl)

theorem outcomeOf_bind_of_error {β γ : Type} {outcome : Py β} {err : Exc} {next : β → Method α γ}
    (raised : outcome = .error err)
    : (outcomeOf outcome >>= next) world = .error { err } world :=
  check_bind_of_error (by rw [raised]; rfl)

/-- Executing appends the action, whatever it returns or raises. -/
theorem run_eq (world : World α)
    : settle (i.action.run world)
      = (executed i, { world with executed := world.executed ++ [i.action] }) := by
  rw [PendingAction.run, modify_bind, executed, outcomeOf]
  cases i.action.execute <;> rfl

theorem asked_of_error {err : Exc} (raised : contentId i.action.args = .error err)
    : asked i = .error err := by
  rw [asked, raised]
  rfl

theorem asked_of_answer {argsId : Bytes} (computed : contentId i.action.args = .ok argsId)
    : asked i = (i.human (i.request argsId)).map fun answer => (argsId, answer) := by
  rw [asked, computed, ok_bind]
  cases i.human (i.request argsId) <;> rfl

/-- No answer at all is no refusal. -/
theorem calm_of_error {err : Exc} (raised : asked i = .error err) (reason : Kind)
    : ¬ Refused lib world i reason := by
  intro refused
  cases refused with
  | declined _ answer => simp [raised] at answer
  | rejected _ answer _ => simp [raised] at answer

/-- Nor is an approval whose attempt raises no approval error. -/
theorem calm_of_attempt {argsId sig : Bytes} {record : ApprovalRecord}
    (answer : asked i = .ok (argsId, some (record, sig)))
    (calm : ∀ reason msg,
      (i.self.attempt lib world.ledger i.clock.verified record sig argsId i.action.effect).1
        ≠ .error (.approvalError reason msg)) (reason : Kind)
    : ¬ Refused lib world i reason := by
  intro refused
  cases refused with
  | declined _ answer' => simp [answer] at answer'
  | rejected _ answer' raised =>
      obtain ⟨rfl, rfl, rfl⟩ : _ = _ ∧ _ = _ ∧ _ = _ := by simpa [answer] using answer'
      exact calm _ _ raised

/-- What is made of the outcome of an attempt. -/
def settleAttempt (lib : SignatureLibrary) (self : HITLInterceptor) (whenMs : Int)
    (context : RefusalContext) : Py LedgerEntry → Method α LedgerEntry
  | .error (.approvalError reason msg) => self.onRefusal lib whenMs reason msg context >>= throw
  | .error err => throw { err }
  | .ok entry => return entry

theorem settleAttempt_of_error {self : HITLInterceptor} {whenMs : Int} {context : RefusalContext}
    {err : Exc} (other : ∀ reason msg, err ≠ .approvalError reason msg)
    : settleAttempt lib self whenMs context (.error err) world = .error { err } world := by
  cases err with
  | approvalError reason msg => exact absurd rfl (other reason msg)
  | _ => rfl

theorem verifyAndConsume_eq {self : HITLInterceptor} {clock : Clock} {record : ApprovalRecord}
    {sig argsId : Bytes} {effect : Int} {kind principal : PyStr}
    : self.verifyAndConsume lib clock record sig argsId effect none kind principal world
      = settleAttempt lib self clock.refused ⟨kind, argsId, effect, record.approver, principal⟩
        (self.attempt lib world.ledger clock.verified record sig argsId effect).1
        { world with
          ledger := (self.attempt lib world.ledger clock.verified record sig argsId
              effect).2 } := by
  rw [HITLInterceptor.verifyAndConsume, get_bind, Option.getD_none]
  rcases self.attempt lib world.ledger clock.verified record sig argsId effect with
    ⟨outcome, ledger⟩
  cases outcome with
  | error err => cases err <;> rfl
  | ok entry => rfl

/-- What the interceptor does with an approval that the human gave.
Witness: cases on what was attempted; a failure is logged before it is raised.
-/
theorem intercepted_approval {argsId sig : Bytes} {record : ApprovalRecord}
    (gated : i.self.approvalThreshold ≤ i.action.effect)
    (answer : asked i = .ok (argsId, some (record, sig)))
    : Intercepted lib world i
        (settle ((do
          let _ ← i.self.verifyAndConsume lib i.clock record sig argsId i.action.effect none
            i.action.kind i.action.principal
          i.action.run : Method α α) world)).1
        (settle ((do
          let _ ← i.self.verifyAndConsume lib i.clock record sig argsId i.action.effect none
            i.action.kind i.action.principal
          i.action.run : Method α α) world)).2 := by
  have consumed := @attempted lib i.self world.ledger i.clock.verified record sig argsId
    i.action.effect
  have went := @verifyAndConsume_eq α lib world i.self i.clock record sig argsId i.action.effect
    i.action.kind i.action.principal
  cases attempt : i.self.attempt lib world.ledger i.clock.verified record sig argsId
      i.action.effect with
  | mk outcome ledger =>
      rw [attempt] at consumed went
      cases consumed with
      | consumed authorizes unspent =>
          rw [bind_of_ok went, run_eq]
          refine .approved gated answer authorizes unspent (calm_of_attempt answer ?_)
          intro reason msg raised
          rw [attempt] at raised
          cases raised
      | refused err =>
          by_cases approval : ∃ reason msg, err = .approvalError reason msg
          · obtain ⟨reason, msg, rfl⟩ := approval
            obtain ⟨raised, raises, same⟩ := @onRefusal_cases α lib LedgerEntry i.self
              i.clock.refused reason msg
              ⟨i.action.kind, argsId, i.action.effect, record.approver, i.action.principal⟩ world
            rw [bind_of_error (went.trans same)]
            exact .refused (.rejected gated answer (congrArg Prod.fst attempt)) ⟨rfl, rfl⟩ raises
          · have other : ∀ reason msg, err ≠ .approvalError reason msg :=
              fun reason msg same => approval ⟨reason, msg, same⟩
            rw [bind_of_error (went.trans (settleAttempt_of_error other))]
            refine .stopped err gated (calm_of_attempt answer ?_)
            intro reason msg raised
            rw [attempt] at raised
            exact other reason msg (Except.error.inj raised)

/-- What the interceptor does with any call.
Witness: split at the threshold, and then on the human's answer; only the last case reaches the
ledger.
-/
theorem intercepted
    : Intercepted lib world i (respond (intercept lib repr) world i).1
        (respond (intercept lib repr) world i).2 := by
  unfold respond intercept
  split
  · rename_i free
    have below : i.action.effect < i.self.approvalThreshold := by
      simpa [HITLInterceptor.requiresApproval] using free
    rw [run_eq]
    exact .free below
  · rename_i needs
    have gated : i.self.approvalThreshold ≤ i.action.effect := by
      simpa [HITLInterceptor.requiresApproval] using needs
    cases computed : contentId i.action.args with
    | error err =>
        rw [outcomeOf_bind_of_error rfl]
        exact .stopped err gated (calm_of_error (asked_of_error computed))
    | ok argsId =>
        rw [outcomeOf_bind_of_ok rfl]
        have answered := asked_of_answer computed
        cases human : i.human (i.request argsId) with
        | error err =>
            rw [human] at answered
            rw [outcomeOf_bind_of_error rfl]
            exact .stopped err gated (calm_of_error answered)
        | ok answer =>
            rw [human] at answered
            rw [outcomeOf_bind_of_ok rfl]
            cases answer with
            | none =>
                obtain ⟨raised, raises, same⟩ := @onRefusal_cases α lib α i.self i.clock.refused
                  .approvalDenied (declined repr i.action)
                    ⟨i.action.kind, argsId, i.action.effect, [], i.action.principal⟩ world
                simp only
                rw [same]
                exact .refused (.declined gated answered) ⟨rfl, rfl⟩ raises
            | some given => exact intercepted_approval gated answered

-----------------------------------------------------------------------------------------
-- Whole runs
-----------------------------------------------------------------------------------------

variable (lib repr)

/-- The call spends the id of an approval that authorizes its action. -/
structure Consumes (event : Event (World α) (Interception α) (Except Raised α)) (aid : Bytes)
    : Prop where
  approved : ∃ argsId record sig body, asked event.call = .ok (argsId, some (record, sig))
    ∧ Authorizes lib event.call.self event.call.clock.verified record sig argsId
      event.call.action.effect body
    ∧ aid = contentIdBytes body
  unspent : aid ∉ event.before.ledger.memory.consumed
  spent : event.after.ledger
    = appendEntry event.before.ledger
      (event.before.ledger.nextEntry aid event.call.self.identity)

/-- What an intercepted call has to be: it executes its action at most once, and exactly when that
needs no approval or the call spends one; a refusal raises, and adds one entry to the log and
nothing else.
-/
structure Guarded (event : Event (World α) (Interception α) (Except Raised α)) : Prop where
  once : event.after.executed = event.before.executed
    ∨ event.after.executed = event.before.executed ++ [event.call.action]
  exactly : event.after.executed = event.before.executed ++ [event.call.action]
    ↔ event.call.action.effect < event.call.self.approvalThreshold
      ∨ ∃ aid, Consumes lib event aid
  ledger : event.after.ledger = event.before.ledger ∨ ∃ aid, Consumes lib event aid
  refuses : ∀ reason, Refused lib event.before event.call reason
    → ∃ entry raised, event.outcome = .error raised ∧ RaisedFor lib reason raised
      ∧ entry.whatKind = event.call.action.kind
      ∧ entry.outcomeReason = PyStr.lit reason.name.toList
      ∧ event.after = { event.before with refusals := event.before.refusals ++ [entry] }
  silent : (∀ reason, ¬ Refused lib event.before event.call reason)
    → event.after.refusals = event.before.refusals
  attached : ∀ raised d6, event.outcome = .error raised → raised.d6 = some d6 → Complete lib d6

variable {lib repr}

theorem Consumes.changes {event : Event (World α) (Interception α) (Except Raised α)} {aid : Bytes}
    (consumes : Consumes lib event aid) : event.after.ledger ≠ event.before.ledger := by
  intro same
  have spent := same.symm.trans consumes.spent
  refine consumes.unspent ?_
  rw [spent]
  exact (AList.mem_insert _).mpr (.inl rfl)

theorem not_executed (before : List (PendingAction α)) (action : PendingAction α)
    : before ≠ before ++ [action] := by
  intro same
  have length := congrArg List.length same
  simp at length

/-- An execution that raises attaches nothing. -/
theorem executed_plain {raised : Raised} (failed : executed i = .error raised)
    : raised.d6 = none := by
  unfold executed at failed
  cases ran : i.action.execute with
  | ok value => simp [ran, Except.mapError] at failed
  | error err =>
      obtain rfl : { err } = raised := by simpa [ran, Except.mapError] using failed
      rfl

theorem RaisedFor.complete {reason : Kind} {raised : Raised} {d6 : RefusalOutcome}
    (raises : RaisedFor lib reason raised) (attached : raised.d6 = some d6) : Complete lib d6 := by
  rcases raises with ⟨msg, d6', rfl, complete⟩ | ⟨err, rfl⟩
  · obtain rfl := Option.some.inj attached
    exact complete
  · cases attached

/-- What the interceptor can do is guarded: it executes only what needs no approval or what
spends one.
Witness: cases on what happened; below the threshold nothing is spent, and above it only an
answered call runs.
-/
theorem Intercepted.guarded {outcome : Except Raised α} {after : World α}
    (intercepted : Intercepted lib world i outcome after)
    : Guarded lib ⟨world, i, outcome, after⟩ := by
  cases intercepted with
  | free below =>
      refine ⟨.inr rfl, ⟨fun _ => .inl below, fun _ => rfl⟩, .inl rfl, ?_, fun _ => rfl, ?_⟩
      · intro reason refused
        exact absurd refused.gated (not_le.mpr below)
      · intro raised d6 failed attached
        exact absurd ((executed_plain failed).symm.trans attached) nofun
  | stopped err gated calm =>
      refine ⟨.inl rfl, ⟨?_, ?_⟩, .inl rfl, ?_, fun _ => rfl, ?_⟩
      · exact fun ran => absurd ran (not_executed _ _)
      · intro cause
        rcases cause with below | ⟨aid, consumes⟩
        · exact absurd gated (not_le.mpr below)
        · exact absurd rfl consumes.changes
      · exact fun reason refused => absurd refused (calm reason)
      · intro raised d6 failed attached
        obtain rfl := Except.error.inj failed
        cases attached
  | @refused reason raised entry refused names raises =>
      refine ⟨.inl rfl, ⟨?_, ?_⟩, .inl rfl, ?_, ?_, ?_⟩
      · exact fun ran => absurd ran (not_executed _ _)
      · intro cause
        rcases cause with below | ⟨aid, consumes⟩
        · exact absurd refused.gated (not_le.mpr below)
        · exact absurd rfl consumes.changes
      · intro other again
        obtain rfl := refused.unique again
        exact ⟨entry, raised, rfl, raises, names.1, names.2, rfl⟩
      · exact fun calm => absurd refused (calm reason)
      · intro raised' d6 failed attached
        obtain rfl := Except.error.inj failed
        exact raises.complete attached
  | @approved argsId sig body record gated answer authorizes unspent calm =>
      have consumes : Consumes lib
          ⟨world, i, executed i, { world with
            ledger := appendEntry world.ledger
              (world.ledger.nextEntry (contentIdBytes body) i.self.identity)
            executed := world.executed ++ [i.action] }⟩ (contentIdBytes body) :=
        ⟨⟨argsId, record, sig, body, answer, authorizes, rfl⟩, unspent, rfl⟩
      refine ⟨.inr rfl, ⟨fun _ => .inr ⟨_, consumes⟩, fun _ => rfl⟩, .inr ⟨_, consumes⟩, ?_,
        fun _ => rfl, ?_⟩
      · exact fun reason refused => absurd refused (calm reason)
      · intro raised d6 failed attached
        exact absurd ((executed_plain failed).symm.trans attached) nofun

/-- The id of the approval that the call was given, if it executed an action that needs one. -/
def approvalUsed (event : Event (World α) (Interception α) (Except Raised α)) : Option Bytes :=
  if event.call.self.requiresApproval event.call.action.effect
      ∧ event.before.executed.length < event.after.executed.length then
    match asked event.call with
    | .ok (_, some (record, _)) => record.id.toOption
    | _ => none
  else none

theorem Intercepted.grows {outcome : Except Raised α} {after : World α}
    (intercepted : Intercepted lib world i outcome after)
    : spentIds world.ledger ⊆ spentIds after.ledger := by
  intro aid spent
  cases intercepted with
  | free _ | stopped _ _ _ | refused _ _ _ => exact spent
  | approved _ _ _ _ _ => exact (AList.mem_insert _).mpr (.inr spent)

/-- The approval that a call used was fresh, and is spent after it. -/
theorem Intercepted.spends {outcome : Except Raised α} {after : World α} {aid : Bytes}
    (intercepted : Intercepted lib world i outcome after)
    (used : approvalUsed ⟨world, i, outcome, after⟩ = some aid)
    : aid ∉ spentIds world.ledger ∧ aid ∈ spentIds after.ledger := by
  unfold approvalUsed at used
  split at used
  · rename_i needed
    obtain ⟨needs, ran⟩ := needed
    cases intercepted with
    | free below =>
        have gated : i.self.approvalThreshold ≤ i.action.effect := by
          simpa [HITLInterceptor.requiresApproval] using needs
        exact absurd gated (not_le.mpr below)
    | stopped _ _ _ | refused _ _ _ => exact absurd ran (lt_irrefl _)
    | approved _ answer authorizes unspent _ =>
        simp only [answer] at used
        rw [approval_id_eq_ok.mpr ⟨_, authorizes.encoded, rfl⟩] at used
        obtain rfl := Option.some.inj used
        exact ⟨unspent, (AList.mem_insert _).mpr (.inl rfl)⟩
  · cases used

/-- Over every run of intercepted calls on one ledger, each with its own interceptor, human answer
and clock: every call is guarded, and no approval id lets two of them execute.
-/
theorem intercepted_runs_guarded (lib : SignatureLibrary) (repr : PyStr → String) (start : World α)
    (calls : List (Interception α))
    : (∀ event ∈ trace (respond (intercept lib repr)) start calls, Guarded lib event)
      ∧ ((trace (respond (intercept lib repr)) start calls).filterMap approvalUsed).Nodup := by
  have keeps : ∀ (world : World α) (i : Interception α), True → True → True :=
    fun _ _ _ _ => trivial
  constructor
  · intro event member
    obtain ⟨-, -, same⟩ := mem_trace keeps trivial (fun _ _ => trivial) member
    rw [same]
    exact intercepted.guarded
  · have grows : ∀ (world : World α) (i : Interception α), True → True
        → spentIds world.ledger ⊆ spentIds (respond (intercept lib repr) world i).2.ledger :=
      fun _ _ _ _ => intercepted.grows
    refine (wins_nodup keeps grows ?_ trivial (fun _ _ => trivial)).1
    exact fun _ _ _ _ _ used => intercepted.spends used

end Calls

end Naalp.Authorization
