import Mathlib.Data.List.AList
import Naalp.Foundation.Multibase
import Naalp.Python.Cbor
import Naalp.Python.Channels
import Naalp.Python.Envelope

/-! The carriage bodies of `impl/python/naalp/carriage.py`. -/

namespace Naalp.Python.Carriage

open Naalp.Foundation
open Naalp.Python.Cbor

def classHttp : Int := 1
def classOpaque : Int := 5

/-- The body of a carriage object; the foreign message is carried octet for octet. -/
structure CarriageBody where
  protocolId : Int
  klass : Int
  contentType : Int
  correlation : Bytes
  method : PyStr
  foreign : Bytes

def CarriageBody.toValue (c : CarriageBody) : Value :=
  .m [(.u 1, .u c.protocolId), (.u 2, .u c.klass), (.u 3, .u c.contentType),
    (.u 4, .b c.correlation), (.u 5, .t c.method), (.u 6, .b c.foreign)]

def CarriageBody.bytes (c : CarriageBody) : Py Bytes := encode c.toValue

def validateClass (klass : Int) : Py Unit :=
  raiseIf (klass > classOpaque ∨ klass < 0) (.carriageError .mappingError
    "an N-AALP semantic cannot be represented by this carriage class")

def carry (protocolId klass contentType : Int) (correlation : Bytes) (method : PyStr)
    (foreign : Bytes) : Py CarriageBody := do
  validateClass klass
  return { protocolId, klass, contentType, correlation, method, foreign }

def carriageMalformed (msg : String) : Exc := .carriageError .malformed msg

/-- The fields seen so far by `carriage_from_value`, which starts from zero values. -/
structure CarriageFields where
  protocolId : Int := 0
  klass : Int := 0
  contentType : Int := 0
  correlation : Bytes := []
  method : PyStr := []
  foreign : Option Bytes := none

def readCarriageField (fields : CarriageFields) : Value × Value → Py CarriageFields
  | (.u 1, .u protocolId) => return { fields with protocolId }
  | (.u 1, _) => throw (carriageMalformed "protocol_id not a uint")
  | (.u 2, .u klass) => return { fields with klass }
  | (.u 2, _) => throw (carriageMalformed "class not a uint")
  | (.u 3, .u contentType) => return { fields with contentType }
  | (.u 3, _) => throw (carriageMalformed "content_type not a uint")
  | (.u 4, .b correlation) => return { fields with correlation }
  | (.u 4, _) => throw (carriageMalformed "correlation not a bstr")
  | (.u 5, .t method) => return { fields with method }
  | (.u 5, _) => throw (carriageMalformed "method not a tstr")
  | (.u 6, .b foreign) => return { fields with foreign := some foreign }
  | (.u 6, _) => throw (carriageMalformed "foreign not a bstr")
  | (.u k, _) => throw (carriageMalformed ("unknown carriage field " ++ toString k))
  | _ => throw (carriageMalformed "non-uint carriage key")

def carriageFromValue : Value → Py CarriageBody
  | .m pairs => do
      let read ← pairs.foldlM readCarriageField {}
      let some foreign := read.foreign
        | throw (carriageMalformed "carriage body missing the mandatory foreign field")
      validateClass read.klass
      return { protocolId := read.protocolId, klass := read.klass,
               contentType := read.contentType, correlation := read.correlation,
               method := read.method, foreign }
  | _ => throw (carriageMalformed "carriage body is not a map")

end Naalp.Python.Carriage

/-! The mixed-mode endpoint of `ecosystem/naalp-mixed-mode`: a request body is a strict signed
object, or else a legacy JSON body that is carried without authority.
-/

namespace Naalp.Python

open Naalp.Foundation

namespace MixedMode

/-- A float: a dyadic number, an infinity or no number. -/
inductive PyFloat where
  | finite (numerator : Int) (scale : Nat)
  | infinite (negative : Bool)
  | nan

/-- What `json.loads` returns. -/
inductive Json where
  | null
  | bool (b : Bool)
  | int (n : Int)
  | float (f : PyFloat)
  | str (s : PyStr)
  | list (items : List Json)
  | dict (entries : List (PyStr × Json))

/-- The functions of the standard library that the endpoint calls: the JSON parser, `int` of a
string, `str` of a JSON value, the text of an exception, and the date of a response header.
-/
structure StandardLibrary where
  loads : PyStr → Py Json
  intOfStr : PyStr → Py Int
  strOf : Json → PyStr
  excText : Exc → String
  httpDate : Int → Py PyStr

/-- `int(value)`, which truncates a float. -/
def StandardLibrary.intOf (std : StandardLibrary) : Json → Py Int
  | .bool b => return b.toNat
  | .int n => return n
  | .float (.finite numerator scale) => return numerator.tdiv (2 ^ scale)
  | .float (.infinite _) => throw .overflowError
  | .float .nan => throw (.valueError "cannot convert float NaN to integer")
  | .str s => std.intOfStr s
  | .null | .list _ | .dict _ => throw .typeError

inductive MigrationState where
  | mixed
  | strict
  deriving DecidableEq, Repr

/-- The announced retirement of the legacy path; an inverted pair of times cannot be built. -/
structure MigrationPolicy where
  state : MigrationState
  deprecatedSince : Int
  sunset : Int
  ordered : deprecatedSince ≤ sunset

def MigrationPolicy.deprecationHeaders (std : StandardLibrary) (m : MigrationPolicy)
    : Py (List (String × PyStr)) :=
  match m.state with
  | .strict => return []
  | .mixed => do
      let token := PyStr.lit ('@' :: (toString m.deprecatedSince).toList)
      return [("Deprecation", token), ("Sunset", ← std.httpDate m.sunset)]

def defaultLegacyProtocolId : Int := 0x03

/-- `default_kind_validator`: the kinds of the channel registry. -/
def defaultKindValidator (channelId kind : Int) : Bool :=
  (Channels.lookup channelId kind).toOption.isSome

/-- An endpoint, with its verification context and its grants by principal. -/
structure MixedModeEndpoint where
  profile : Int
  alg : Int
  pubkey : Bytes
  selfAuthority : PyStr
  grants : AList (fun _ : PyStr => Policy.Grant)
  kindValidator : Option (Int → Int → Bool) := some defaultKindValidator
  consumeOnceKinds : List (Int × Int) := []
  legacyProtocolId : Int := defaultLegacyProtocolId
  migrationPolicy : Option MigrationPolicy := none
  allowLegacy : Bool := false

inductive Mode where
  | strict
  | legacy
  deriving DecidableEq, Repr

structure MixedModeResult where
  mode : Mode
  effect : Int
  object : Option Envelope.Object := none
  carriageBody : Option Carriage.CarriageBody := none
  headers : List (String × PyStr)

/-- The principal that a verified object is authorized as, the hexadecimal text of its signer
field.
-/
def principalOf (obj : Envelope.Object) : PyStr := PyStr.lit (hex obj.signer)

namespace MixedModeEndpoint

variable (lib : Cose.SignatureLibrary) (std : StandardLibrary) (e : MixedModeEndpoint)

def headers : Py (List (String × PyStr)) :=
  match e.migrationPolicy with
  | none => return []
  | some policy => policy.deprecationHeaders std

local instance : LawfulBEq (Int × Int) := Prod.instLawfulBEq

/-- The audience binding of an object whose channel and kind are registered as consume-once. -/
def checkConsumeOnce (obj : Envelope.Object) : Py Unit :=
  if (obj.channel, obj.kind) ∈ e.consumeOnceKinds then
    Envelope.checkAudience obj e.selfAuthority true
  else return

/-- `_authorize_strict`: the declared effect, the signer's grant, then the audience. -/
def authorizeStrict (obj : Envelope.Object) : Py MixedModeResult := do
  Channels.checkEffect obj.channel obj.kind obj.effect
  let some grant := e.grants.lookup (principalOf obj)
    | throw (.policyError .effectNotAuthorized
        ("no grant registered for signer " ++ String.ofList (hex obj.signer)))
  grant.authorizeObject .signature (principalOf obj) obj.effect
  e.checkConsumeOnce obj
  let headers ← e.headers std
  return { mode := .strict, effect := obj.effect, object := some obj, headers }

/-- The JSON object of a legacy body. -/
def legacyPayload (body : Bytes) : Py (List (PyStr × Json)) :=
  let malformed (err : Exc) : Exc := .mixedModeError .legacyMalformed
    ("legacy body is not a strict envelope and is not valid UTF-8 JSON (" ++ std.excText err
      ++ ")")
  match PyStr.decode body >>= std.loads with
  | .ok (.dict entries) => return entries
  | .ok _ => throw (.mixedModeError .legacyMalformed
      "legacy NPAMP-CC-HTTP body must be a JSON object")
  | .error (.jsonDecodeError msg) => throw (malformed (.jsonDecodeError msg))
  | .error .unicodeDecodeError => throw (malformed .unicodeDecodeError)
  | .error err => throw err

/-- `payload.get(key)` as an integer, when it is there and not null. -/
def claimedInt (payload : List (PyStr × Json)) (key : PyStr) : Py (Option Int) :=
  match payload.lookup key with
  | none | some .null => return none
  | some value => return some (← std.intOf value)

/-- The effect, channel and kind that a legacy body claims. -/
def legacyClaims (payload : List (PyStr × Json)) : Py (Int × Option Int × Option Int) := do
  let effect ←
    match payload.lookup (.lit ['e', 'f', 'f', 'e', 'c', 't']) with
    | none => pure Policy.readOnly
    | some value => std.intOf value
  let channel ← claimedInt std payload (.lit ['c', 'h', 'a', 'n', 'n', 'e', 'l'])
  let kind ← claimedInt std payload (.lit ['k', 'i', 'n', 'd'])
  return (Policy.normalizeEffect effect, channel, kind)

/-- The error that a type or value error in the claims is raised as. -/
def claimError (err : Exc) : Exc :=
  if err = .typeError ∨ err.isValueError then
    .mixedModeError .legacyMalformed
      ("legacy body's effect/channel/kind fields are not integers (" ++ std.excText err ++ ")")
  else err

/-- The object that stands for a legacy claim at the audience gate: it has no audience. -/
def surrogate (channel kind effect : Int) : Envelope.Object :=
  {
    id := none, kind, channel, tier := 0, signer := [], created := 0, effect, causes := []
    profile := 1, body := .m [], ext := none, cext := none, audience := [], suite := 0
  }

/-- The gates that a legacy claim is refused at: the principal for an effect above read-only, and
the audience for a consume-once kind.
-/
def refuseClaims : Int × Option Int × Option Int → Py Unit
  | (effect, channel, kind) => do
      if effect > Policy.readOnly then
        let _ ← Policy.resolveAuthPrincipal .foreignHeader []
      match channel, kind with
      | some channel, some kind => e.checkConsumeOnce (surrogate channel kind effect)
      | _, _ => return

/-- `_handle_legacy`: the claims of the body are read only to refuse it. -/
def handleLegacy (body correlation : Bytes) (method : PyStr) : Py MixedModeResult := do
  raiseIf (e.migrationPolicy.any (fun policy => policy.state = .strict))
    (.mixedModeError .legacyRefused ("the migration policy has tightened to strict-only; "
      ++ "legacy carriage is no longer accepted on this endpoint"))
  let payload ← legacyPayload std body
  let claims ← (legacyClaims std payload).mapError (claimError std)
  let claimedMethod :=
    match payload.lookup (.lit ['m', 'e', 't', 'h', 'o', 'd']) with
    | none => method
    | some value => std.strOf value
  let carriageBody ← Carriage.carry e.legacyProtocolId Carriage.classHttp 0 correlation
    claimedMethod body
  e.refuseClaims claims
  let headers ← e.headers std
  return { mode := .legacy, effect := Policy.readOnly, carriageBody := some carriageBody, headers }

/-- `handle`: the strict parse first, and the legacy one only when it fails and was opted into. -/
def handle (body correlation : Bytes) (method : PyStr) : Py MixedModeResult :=
  match Envelope.verify lib e.profile e.alg e.pubkey e.kindValidator body [] with
  | .ok obj => e.authorizeStrict std obj
  | .error err =>
      if err.isValueError = false then throw err
      else if e.allowLegacy = false then
        throw (.mixedModeError .legacyDisabled
          ("endpoint is strict-only; allow_legacy was not explicitly enabled, so a "
            ++ "strict-parse failure is refused rather than silently retried as legacy"))
      else e.handleLegacy std body correlation method

end MixedModeEndpoint

end MixedMode

end Naalp.Python
