import Mathlib.Data.List.AList
import Naalp.Python.Gates
import Naalp.Python.RawRecords

/-! The guard of `ecosystem/naalp-verify-at-use/naalp_verify_at_use/verify_at_use.py`: an
authorization is checked again when it is used. Guards spend approvals on one ledger, and each
honors its own revocations.
-/

namespace Naalp.Python.VerifyAtUse

open Naalp.Foundation
open Naalp.Python.Approval
open Naalp.Python.Cbor
open Naalp.Python.Cose
open Naalp.Python.Identity

/-- `ApprovalError("KeyRevoked", ..)`, of a kind that no other function raises, or another error. -/
inductive UseError where
  | keyRevoked (msg : String)
  | raised (err : Exc)

/-- An effecting action; `run` is what its side effect returns or raises. -/
structure GuardedAction (α : Type) where
  args : Value
  effect : Int
  run : Py α
  kind : PyStr := []

/-- The revocation records that a guard trusts, by the revoked signer id. -/
abbrev Revocations := AList fun _ : PyStr => RevocationRecord

structure VerifyAtUseGuard where
  approverAlg : Int
  approverPubkey : Bytes
  audience : PyStr
  identity : PyStr
  revocations : Revocations := ∅

def VerifyAtUseGuard.registerRevocation (self : VerifyAtUseGuard) (revokedSignerId : PyStr)
    (record : RevocationRecord) : VerifyAtUseGuard :=
  { self with revocations := self.revocations.insert revokedSignerId record }

/-- What `verify_and_consume` checks before the approval layer: key liveness, then the audience. -/
def VerifyAtUseGuard.checkLive (self : VerifyAtUseGuard) (record : ApprovalRecord) (posTime : Int)
    : Except UseError Unit := do
  let approverId ← (signerId self.approverAlg self.approverPubkey).mapError .raised
  raiseIf ((self.revocations.lookup approverId).any (revokedAt · posTime))
    (.keyRevoked "approver key is revoked as of use-time")
  (verifyAudience record self.audience).mapError .raised

section

variable {γ α : Type} (lib : SignatureLibrary)

def VerifyAtUseGuard.verifyAndConsume (self : VerifyAtUseGuard) (led : Ledger)
    (fault : Option Fault) (record : ApprovalRecord) (sig argsContentId : Bytes)
    (requiredEffect posTime : Int)
    : Except UseError LedgerEntry × Ledger :=
  match self.checkLive record posTime with
  | .error err => (.error err, led)
  | .ok _ =>
      let (outcome, after) := consumeApproval lib led fault record self.approverAlg
        self.approverPubkey sig argsContentId posTime requiredEffect self.identity
      (outcome.mapError .raised, after)

/-- `execute`, with what the action's run returns or raises as the inner outcome. -/
def VerifyAtUseGuard.execute (self : VerifyAtUseGuard) (led : Ledger) (fault : Option Fault)
    (action : GuardedAction α) (record : ApprovalRecord) (sig : Bytes) (posTime : Int)
    : Except UseError (Py α) × Ledger :=
  match contentId action.args with
  | .error err => (.error (.raised err), led)
  | .ok argsId =>
      let (outcome, after) :=
        self.verifyAndConsume lib led fault record sig argsId action.effect posTime
      (outcome.map fun _ => action.run, after)

/-- What a caller presents to a guard: the position time, if it gives one, else the guard's clock
reads `clock`; `fault` is what the write of the ledger meets, if any.
-/
structure Presentation (γ : Type) where
  guard : γ
  record : ApprovalRecord
  sig : Bytes
  posTime : Option Int
  clock : Int
  fault : Option Fault

def Presentation.now (p : Presentation γ) : Int := p.posTime.getD p.clock

inductive GuardCall (γ α : Type) where
  | execute (action : GuardedAction α) (p : Presentation γ)
  | verifyAndConsume (argsContentId : Bytes) (requiredEffect : Int) (p : Presentation γ)
  | registerRevocation (guard : γ) (revokedSignerId : PyStr) (record : RevocationRecord)

/-- What a call returns; `ran` is of an action whose run was called. -/
inductive GuardAnswer (α : Type) where
  | ran (outcome : Py α)
  | consumed (entry : LedgerEntry)
  | registered

/-- Guards that share a ledger. -/
structure World (γ : Type) where
  ledger : Ledger
  guards : γ → VerifyAtUseGuard

variable [DecidableEq γ]

def guardStep (world : World γ) : GuardCall γ α → Except UseError (GuardAnswer α) × World γ
  | .execute action p =>
      let (outcome, ledger) := (world.guards p.guard).execute lib world.ledger p.fault action
        p.record p.sig p.now
      (outcome.map .ran, { world with ledger })
  | .verifyAndConsume argsContentId requiredEffect p =>
      let (outcome, ledger) := (world.guards p.guard).verifyAndConsume lib world.ledger p.fault
        p.record p.sig argsContentId requiredEffect p.now
      (outcome.map .consumed, { world with ledger })
  | .registerRevocation guard revokedSignerId record =>
      (.ok .registered, { world with
        guards := Function.update world.guards guard
          ((world.guards guard).registerRevocation revokedSignerId record) })

end

end Naalp.Python.VerifyAtUse
