import Naalp.Go.Cbor
import Naalp.Python.Negotiation

/-! The check of an accept of `impl/go/negotiation/negotiation.go`. The messages, their roles and
the registered profiles are those of the Python module.
-/

namespace Naalp.Go.Negotiation

open Naalp.Foundation
open Naalp.Python.Cbor (contentIdBytes)
open Naalp.Python.Negotiation (Index Message isRegisteredProfile roleAccept roleOffer)

def errUnknownProfile : Stop := .error .unknownProfile
  ("negotiation selects a profile outside the closed pre-registered set — no free-form "
    ++ "or runtime capability is negotiable")
def errNotDescended : Stop := .error .notDescended
  "accept does not descend from its offer along the causes chain"
def errNotOffer : Stop := .error .notOffer
  "the object presented as the offer is not an offer role"
def errNotAccept : Stop := .error .notAccept
  "the object presented as the accept is not an accept role"

/-- `Message.Bytes`, which drops the error of the encoder. -/
def messageBytes (m : Message) : Bytes :=
  (Cbor.encode (.m [(.u 1, .b m.negotiation), (.u 2, .u m.role), (.u 3, .u m.profile),
    (.u 4, .a (m.causes.map .b))])).toOption.getD []

/-- `Message.ID`. -/
def messageId (m : Message) : Bytes := contentIdBytes (messageBytes m)

def indexById (msgs : List Message) : Index :=
  msgs.foldl (fun byId m => byId.insert (messageId m) m) ∅

/-- The walk of `descends`, which resolves no id twice. -/
def walk (fromMsg : Message) (targetId : Bytes) (byId : Index) : Bool :=
  reaches byId.causes targetId byId.keys fromMsg.causes

/-- `Descends`. -/
def descends (accept offer : Message) (byId : Index) : Bool := walk accept (messageId offer) byId

def verifyAccept (accept offer : Message) (byId : Index) : Result Int := do
  raiseIf (offer.role ≠ roleOffer) errNotOffer
  raiseIf (isRegisteredProfile offer.profile = false) errUnknownProfile
  raiseIf (accept.role ≠ roleAccept) errNotAccept
  raiseIf (isRegisteredProfile accept.profile = false) errUnknownProfile
  raiseIf (descends accept offer byId = false) errNotDescended
  return accept.profile

end Naalp.Go.Negotiation
