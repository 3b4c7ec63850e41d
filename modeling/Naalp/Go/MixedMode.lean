import Naalp.Foundation.Multibase
import Naalp.Go.Envelope
import Naalp.Python.Channels

/-! The mixed-mode endpoint of `ecosystem/naalp-agent-go/mixedmode`, with the gates that it calls
in `impl/go`. A Go string is the list of its octets, so a principal is any octet string.
-/

namespace Naalp.Go

open Naalp.Foundation
open Naalp.Python (PyStr)

namespace Policy

abbrev Effect := UInt8

def readOnly : Effect := 0
def destructive : Effect := 3

/-- A value outside the closed set is destructive. -/
def normalizeEffect (v : Int) : Effect := if v ≤ 3 then UInt8.ofNat v.toNat else destructive

def Effect.authorizes (ceiling action : Effect) : Bool := action ≤ ceiling

def errEffectNotAuthorized : Stop :=
  .error .effectNotAuthorized "object effect exceeds the granted capability"
def errUnauthenticatedPrincipal : Stop :=
  .error .unauthenticatedPrincipal
    "an authorization identity must be signature-derived, not transport/foreign/client-asserted"

inductive PrincipalSource where
  | signature
  | transportMetadata
  | foreignHeader
  | clientName
  deriving DecidableEq, Repr

def resolveAuthPrincipal (src : PrincipalSource) (id : Bytes) : Result Bytes := do
  raiseIf (src ≠ .signature ∨ id = []) errUnauthenticatedPrincipal
  return id

structure Grant where
  principal : Bytes
  maxEffect : Effect := readOnly

def Grant.authorizeObject (g : Grant) (src : PrincipalSource) (presented : Bytes)
    (objectEffect : Int) : Result Unit := do
  let who ← resolveAuthPrincipal src presented
  raiseIf (who ≠ g.principal) errEffectNotAuthorized
  raiseIf (g.maxEffect.authorizes (normalizeEffect objectEffect) = false) errEffectNotAuthorized

/-- What a grant authorizes: its own principal, up to its ceiling. -/
theorem Grant.authorizeObject_eq_ok {g : Grant} {src : PrincipalSource} {presented : Bytes}
    {objectEffect : Int} {done : Unit}
    : g.authorizeObject src presented objectEffect = .ok done
      ↔ src = .signature ∧ presented ≠ [] ∧ presented = g.principal
        ∧ normalizeEffect objectEffect ≤ g.maxEffect := by
  simp [authorizeObject, resolveAuthPrincipal, bind_eq_ok, raiseIf_eq_ok, Effect.authorizes,
    not_or, and_assoc]

end Policy

namespace Channels

open Naalp.Python.Channels (KindSpec table)

def lookup (channel kind : Int) : Option KindSpec := do
  let kinds ← table.lookup channel
  kinds.find? (fun spec => spec.code = kind)

/-- `KindValidator`: the kinds of the channel registry. -/
def kindValidator (channel kind : Int) : Bool := (lookup channel kind).isSome

def errEffectDeclarationMismatch : Stop :=
  .error .effectDeclarationMismatch "object effect does not match the kind's declared effect"

def checkEffect (channel kind effect : Int) : Result Unit := do
  let some spec := lookup channel kind
    | throw (.error .unknownKind "kind/channel not in the baseline registry")
  if spec.variable_ then raiseIf (effect > 3) errEffectDeclarationMismatch
  else raiseIf (effect ≠ spec.effect) errEffectDeclarationMismatch

end Channels

namespace Envelope

def errWrongAudience : Stop :=
  .error .wrongAudience "consume-once object audience is not this consuming authority (or absent)"

/-- `CheckAudience`: the consume binding at the point of use. -/
def checkAudience (audience selfAuthority : PyStr) (consumeOnce : Bool) : Result Unit :=
  if audience = [] then raiseIf consumeOnce errWrongAudience
  else raiseIf (audience ≠ selfAuthority) errWrongAudience

end Envelope

namespace Carriage

def classHTTP : Int := 1
def classOPAQUE : Int := 5

structure CarriageBody where
  protocolID : Int
  class_ : Int
  contentType : Int
  correlation : Bytes
  method : Bytes
  foreign : Bytes

def errMappingUnrepresentable : Stop :=
  .error .mappingError "an N-AALP semantic cannot be represented by this carriage class"

/-- `Carry`, which validates the class and nothing else. -/
def carry (protocolID class_ contentType : Int) (correlation method foreign : Bytes)
    : Result CarriageBody := do
  raiseIf (class_ > classOPAQUE) errMappingUnrepresentable
  return { protocolID, class_, contentType, correlation, method, foreign }

end Carriage

namespace MixedMode

def contentTypeJSON : Int := 0
def protocolIDHTTP : Int := 0x03

def errLegacyDisabled : Stop :=
  .error .legacyDisabled ("endpoint is strict-only; AllowLegacy was not explicitly enabled, so a "
    ++ "strict-parse failure is refused rather than silently retried as legacy")
def errLegacyEffectNotAuthorized : Stop :=
  .error .legacyEffectNotAuthorized ("a legacy-origin record MUST NOT gain effecting authority "
    ++ "above read_only; upgrade to a signed strict N-AALP object to request a higher effect "
    ++ "(design.md Sec.13.8(b), D15)")

/-- A discriminated request: a verified object, or a legacy body in carriage. -/
inductive Record where
  | strict (object : Envelope.Object)
  | legacy (carriage : Carriage.CarriageBody)

structure ConsumeOnceKey where
  channel : Int
  kind : Int
  deriving DecidableEq, Repr

structure Endpoint where
  profile : Int
  verifier : Cose.Verifier
  kindValidator : Option (Int → Int → Bool)
  knownCext : Int → Bool
  allowLegacy : Bool := false
  protocolID : Int := 0
  selfAuthority : PyStr := []
  consumeOnceKinds : ConsumeOnceKey → Bool := fun _ => false

/-- `Handle`: the strict parse first; a panic of it is not caught. -/
def Endpoint.handle (lib : Cose.SignatureLibrary) (e : Endpoint) (rawBody : Bytes)
    : Result Record :=
  match Envelope.verify lib e.profile e.verifier e.kindValidator e.knownCext rawBody with
  | .ok obj => return .strict obj
  | .error .panic => throw .panic
  | .error (.error _ _) => do
      raiseIf (e.allowLegacy = false) errLegacyDisabled
      let protocolID := if e.protocolID = 0 then protocolIDHTTP else e.protocolID
      return .legacy (← Carriage.carry protocolID Carriage.classHTTP contentTypeJSON [] [] rawBody)

/-- The string that is presented for a verified object, `string(r.Object.Signer)`. -/
def presentedBy (obj : Envelope.Object) : Bytes := obj.signer

/-- The audience binding of a consume-once channel and kind. -/
def Endpoint.checkConsumeOnce (e : Endpoint) (key : ConsumeOnceKey) (audience : PyStr)
    : Result Unit :=
  if e.consumeOnceKinds key then Envelope.checkAudience audience e.selfAuthority true else return

/-- `Authorize`; the legacy target is read on the legacy leg only. -/
def Endpoint.authorize (e : Endpoint) (r : Record) (grant : Policy.Grant)
    (requestedEffect : Policy.Effect) (legacyTarget : Option ConsumeOnceKey) : Result Unit :=
  match r with
  | .legacy _ => do
      raiseIf (requestedEffect > Policy.readOnly) errLegacyEffectNotAuthorized
      match legacyTarget with
      | some target => e.checkConsumeOnce target []
      | none => return
  | .strict obj => do
      Channels.checkEffect obj.channel obj.kind obj.effect
      grant.authorizeObject .signature (presentedBy obj) requestedEffect.toNat
      e.checkConsumeOnce ⟨obj.channel, obj.kind⟩ obj.audience

end MixedMode

end Naalp.Go
