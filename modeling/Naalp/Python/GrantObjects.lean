import Naalp.Python.Channels
import Naalp.Python.Delegation
import Naalp.Python.Envelope
import Naalp.Python.Cose

/-! The delegation grant objects of `impl/python/naalp/delegation.py`: a grant is the body of a
signed object, and its issuer is the signer of that object.
-/

namespace Naalp.Python.Delegation

open Naalp.Foundation
open Naalp.Python.Cbor
open Naalp.Python.Cose (SignatureLibrary)

def channelCapability : Int := 0x0002
def kindDelegationGrant : Int := 4
def tier : Int := 1

/-- The effect of issuing a grant, which is not the ceiling that the grant confers. -/
def grantEffect : Int := Policy.nonIdempotentWrite

def chainBroken (msg : String) : Exc := .delegationError .chainBroken msg

/-- The grant read so far; a mandatory field is `some` once its number was seen. -/
structure GrantFields where
  subject : Option PyStr := none
  effectCap : Option Int := none
  maxDepth : Option Int := none
  notBefore : Option Int := none
  notAfter : Option Int := none
  scope : PyStr := []

def asTstr (msg : String) : Value → Py PyStr
  | .t s => return s
  | _ => throw (chainBroken msg)

def asUint (msg : String) : Value → Py Int
  | .u n => return n
  | _ => throw (chainBroken msg)

/-- The ceiling field, which is never normalized. -/
def asEffectCap : Value → Py Int
  | .u n => do
      raiseIf (n > Policy.destructive) (chainBroken "effect_cap absent or out of range")
      return n
  | _ => throw (chainBroken "effect_cap absent or out of range")

/-- One round of the loop of `grant_from_body`. -/
def GrantFields.readPair (g : GrantFields) : Value × Value → Py GrantFields
  | (.u 1, v) => return { g with subject := some (← asTstr "subject is not a tstr" v) }
  | (.u 2, v) => return { g with effectCap := some (← asEffectCap v) }
  | (.u 3, v) => return { g with maxDepth := some (← asUint "max_depth is not a uint" v) }
  | (.u 4, v) => return { g with notBefore := some (← asUint "not_before is not a uint" v) }
  | (.u 5, v) => return { g with notAfter := some (← asUint "not_after is not a uint" v) }
  | (.u 6, v) => return { g with scope := ← asTstr "scope is not a tstr" v }
  | _ => throw (chainBroken "grant body has an out-of-range field")

def GrantFields.finish : GrantFields → Py Grant
  | ⟨some subject, some effectCap, some maxDepth, some notBefore, some notAfter, scope⟩ =>
      return { subject, effectCap, maxDepth, notBefore, notAfter, scope }
  | _ => throw (chainBroken "grant body is missing a mandatory field")

def grantFromBody : Value → Py Grant
  | .m pairs => do
      let read ← pairs.foldlM GrantFields.readPair {}
      read.finish
  | _ => throw (chainBroken "grant body is not a map")

/-- `Grant._to_map`: an empty scope is left out. -/
def Grant.toMap (g : Grant) : Value :=
  .m ([(.u 1, .t g.subject), (.u 2, .u g.effectCap), (.u 3, .u g.maxDepth), (.u 4, .u g.notBefore),
    (.u 5, .u g.notAfter)] ++ (if g.scope ≠ [] then [(.u 6, .t g.scope)] else []))

def Grant.bytes (g : Grant) : Py Bytes := encode g.toMap

def kindValidator (channel kind : Int) : Bool :=
  channel = channelCapability ∧ kind = kindDelegationGrant

def baselineKindValidator (channel kind : Int) : Bool := (Channels.lookup channel kind).isOk

/-- The kinds of the channel registry, and the grant kind. -/
def composedKindValidator (channel kind : Int) : Bool :=
  baselineKindValidator channel kind || kindValidator channel kind

/-- `verify_grant_object`. The id of an accepted object is never `None`. -/
def verifyGrantObject (lib : SignatureLibrary) (profile alg : Int) (pubkey signedObj : Bytes)
    : Py Resolved := do
  let o ← Envelope.verify lib profile alg pubkey (some composedKindValidator) signedObj []
  raiseIf (o.channel ≠ channelCapability ∨ o.kind ≠ kindDelegationGrant ∨ o.tier ≠ tier)
    (chainBroken "not a tier-1 Capability DelegationGrant")
  raiseIf (o.effect ≠ grantEffect)
    (chainBroken "a DelegationGrant's own effect must be non_idempotent_write")
  let issuer ← Identity.signerId alg pubkey
  let octets ← issuer.encode
  raiseIf (o.signer ≠ octets)
    (.delegationError .signerMismatch "issuer id does not derive from the verifying key")
  let g ← grantFromBody o.body
  return { contentId := o.id.getD [], issuer, grant := g, causes := o.causes }

end Naalp.Python.Delegation
