import Naalp.Foundation.Methods
import Naalp.Foundation.Multibase
import Naalp.Python.Gates
import Naalp.Python.Approval

/-! The human-approval interceptor of `ecosystem/naalp-hitl/naalp_hitl`: `interceptor.py`, its
refusal log and its signed refusal records.
-/

namespace Naalp.Python.Hitl

open Naalp.Foundation
open Naalp.Python.Approval
open Naalp.Python.Cbor
open Naalp.Python.Cose

structure ApprovalRequest where
  contentId : Bytes
  effect : Int
  kind : PyStr
  argsSummary : PyStr
  audience : PyStr

/-- A paused action; `execute` is what its side effect returns or raises. -/
structure PendingAction (α : Type) where
  kind : PyStr
  effect : Int
  args : Value
  execute : Py α
  argsSummary : PyStr := []
  principal : PyStr := []

structure RefusalLogEntry where
  whatKind : PyStr
  whatContentId : PyStr
  whenMs : Int
  whereIdentity : PyStr
  whereAudience : PyStr
  sourcePrincipal : PyStr
  outcomeReason : PyStr
  approverIdentity : PyStr
  deriving DecidableEq

structure RefusalDecisionRecord where
  whatKind : PyStr
  whatContentId : Bytes
  whenMs : Int
  whereIdentity : PyStr
  whereAudience : PyStr
  sourcePrincipal : PyStr
  outcomeReason : PyStr
  approverIdentity : PyStr
  deriving DecidableEq

def RefusalDecisionRecord.bytes (r : RefusalDecisionRecord) : Py Bytes :=
  encode (.m [(.u 1, .t r.whatKind), (.u 2, .b r.whatContentId), (.u 3, .u r.whenMs),
    (.u 4, .t r.whereIdentity), (.u 5, .t r.whereAudience), (.u 6, .t r.sourcePrincipal),
    (.u 7, .t r.outcomeReason), (.u 8, .t r.approverIdentity)])

def signRefusalRecord (lib : SignatureLibrary) (rec : RefusalDecisionRecord) (alg : Int)
    (seed : Bytes) : Py Bytes := do
  mldsaSign lib alg seed (← rec.bytes)

def refusalOutcomeForReason : Kind → Int
  | .approvalRequired => refusalHeld
  | .badSignature => refusalUnverifiable
  | _ => refusalDenied

/-- What is attached to a raised refusal. -/
structure RefusalOutcome where
  logEntry : RefusalLogEntry
  record : Option RefusalDecisionRecord := none
  recordSig : Option Bytes := none
  refusal : Option Refusal := none

/-- A raised exception, with the attribute `d6` that a refusal is given. -/
structure Raised where
  err : Exc
  d6 : Option RefusalOutcome := none

structure HITLInterceptor where
  approverAlg : Int
  approverPubkey : Bytes
  audience : PyStr
  identity : PyStr
  approvalThreshold : Int := Policy.nonIdempotentWrite
  signingAlg : Option Int := none
  signingSeed : Option Bytes := none
  nonRepudiationThreshold : Int := Policy.destructive

def HITLInterceptor.requiresApproval (self : HITLInterceptor) (effect : Int) : Bool :=
  self.approvalThreshold ≤ effect

def HITLInterceptor.requiresNonRepudiation (self : HITLInterceptor) (effect : Int) : Bool :=
  self.nonRepudiationThreshold ≤ effect

/-- The two readings of the clock: when an approval is verified, and when a refusal is recorded. -/
structure Clock where
  verified : Int
  refused : Int

/-- What the calls change: the ledger, the refusal log and the actions that were executed. -/
structure World (α : Type) where
  ledger : Ledger
  refusals : List RefusalLogEntry := []
  executed : List (PendingAction α) := []

variable {α β : Type}

abbrev Method (α β : Type) : Type := EStateM Raised (World α) β

def outcomeOf (outcome : Py β) : Method α β := check (outcome.mapError fun err => { err })

/-- What a refusal is about: the action's kind, content id and effect, who asked and who approves.
-/
structure RefusalContext where
  kind : PyStr
  argsContentId : Bytes
  requiredEffect : Int
  approverIdentity : PyStr
  sourcePrincipal : PyStr

section

variable (lib : SignatureLibrary)

/-- The entry of the refusal log. -/
def HITLInterceptor.refusalEntry (self : HITLInterceptor) (whenMs : Int) (reason : Kind)
    (context : RefusalContext) : RefusalLogEntry where
  whatKind := context.kind
  whatContentId := PyStr.lit (hex context.argsContentId)
  whenMs := whenMs
  whereIdentity := self.identity
  whereAudience := self.audience
  sourcePrincipal := context.sourcePrincipal
  outcomeReason := PyStr.lit reason.name.toList
  approverIdentity := context.approverIdentity

def HITLInterceptor.refusalRecord (self : HITLInterceptor) (whenMs : Int) (reason : Kind)
    (context : RefusalContext) : RefusalDecisionRecord where
  whatKind := context.kind
  whatContentId := context.argsContentId
  whenMs := whenMs
  whereIdentity := self.identity
  whereAudience := self.audience
  sourcePrincipal := context.sourcePrincipal
  outcomeReason := PyStr.lit reason.name.toList
  approverIdentity := context.approverIdentity

/-- The second layer of `_on_refusal`: nothing without a signing key or below the threshold. -/
def HITLInterceptor.mintRefusal (self : HITLInterceptor) (whenMs : Int) (reason : Kind)
    (context : RefusalContext) (entry : RefusalLogEntry) : Py RefusalOutcome := do
  match self.signingAlg, self.signingSeed with
  | some alg, some seed =>
      if self.requiresNonRepudiation context.requiredEffect then
        let record := self.refusalRecord whenMs reason context
        let sig ← signRefusalRecord lib record alg seed
        let refusal := refusalFromRecord (refusalOutcomeForReason reason) (← record.bytes)
        return { logEntry := entry, record, recordSig := sig, refusal }
      else return { logEntry := entry }
  | _, _ => return { logEntry := entry }

/-- `_on_refusal` of an approval error, on a refusal log that takes its writes. -/
def HITLInterceptor.onRefusal (self : HITLInterceptor) (whenMs : Int) (reason : Kind) (msg : String)
    (context : RefusalContext) : Method α Raised := do
  let entry := self.refusalEntry whenMs reason context
  modify fun world => { world with refusals := world.refusals ++ [entry] }
  let d6 ← outcomeOf (self.mintRefusal lib whenMs reason context entry)
  return { err := .approvalError reason msg, d6 }

/-- The body of the `try` of `verify_and_consume`, on a ledger that takes its writes. -/
def HITLInterceptor.attempt (self : HITLInterceptor) (led : Ledger) (posTime : Int)
    (record : ApprovalRecord) (sig argsContentId : Bytes) (requiredEffect : Int)
    : Py LedgerEntry × Ledger :=
  led.guarded (verifyAudience record self.audience) fun _ =>
    consumeApproval lib led none record self.approverAlg self.approverPubkey sig argsContentId
      posTime requiredEffect self.identity

def HITLInterceptor.verifyAndConsume (self : HITLInterceptor) (clock : Clock)
    (record : ApprovalRecord) (sig argsContentId : Bytes) (requiredEffect : Int)
    (posTime : Option Int) (kind principal : PyStr) : Method α LedgerEntry := do
  let posTime := posTime.getD clock.verified
  let world ← get
  let (outcome, ledger) :=
    self.attempt lib world.ledger posTime record sig argsContentId requiredEffect
  set { world with ledger }
  match outcome with
  | .error (.approvalError reason msg) =>
      throw (← self.onRefusal lib clock.refused reason msg
        { kind, argsContentId, requiredEffect, approverIdentity := record.approver,
          sourcePrincipal := principal })
  | .error err => throw { err }
  | .ok entry => return entry

def PendingAction.run (action : PendingAction α) : Method α α := do
  modify fun world => { world with executed := world.executed ++ [action] }
  outcomeOf action.execute

/-- One call of `intercept`, with the interceptor, the human's answer to its request and the clock.
-/
structure Interception (α : Type) where
  self : HITLInterceptor
  action : PendingAction α
  human : ApprovalRequest → Py (Option (ApprovalRecord × Bytes))
  clock : Clock

def Interception.request (i : Interception α) (argsId : Bytes) : ApprovalRequest where
  contentId := argsId
  effect := i.action.effect
  kind := i.action.kind
  argsSummary := if i.action.argsSummary = [] then i.action.kind else i.action.argsSummary
  audience := i.self.audience

-- `repr` is Python's `repr` of a string.
variable (repr : PyStr → String)

def declined (action : PendingAction α) : String :=
  "the human operator declined to approve " ++ repr action.kind

def intercept (i : Interception α) : Method α α := do
  if i.self.requiresApproval i.action.effect = false then i.action.run
  else
    let argsId ← outcomeOf (contentId i.action.args)
    match ← outcomeOf (i.human (i.request argsId)) with
    | none =>
        throw (← i.self.onRefusal lib i.clock.refused .approvalDenied (declined repr i.action)
          { kind := i.action.kind, argsContentId := argsId, requiredEffect := i.action.effect,
            approverIdentity := [], sourcePrincipal := i.action.principal })
    | some (record, sig) =>
        let _ ← i.self.verifyAndConsume lib i.clock record sig argsId i.action.effect none
          i.action.kind i.action.principal
        i.action.run

end

end Naalp.Python.Hitl
