import Naalp.Foundation.HashChain
import Naalp.Python.Approval

/-! The user-interface events of `impl/python/naalp/agui.py`: the parser of their bodies, the walk
of a shown chain and the binding of a consent to it.
-/

namespace Naalp.Python.Agui

open Naalp.Foundation
open Naalp.Python.Cbor

open Naalp.Python.Cose
open Naalp.Python.Approval (ApprovalRecord verifyApproval)

def headSize : Nat := 48

def kindShown : Int := 0
def kindArgsShown : Int := 1
def kindApproved : Int := 2
def kindRejected : Int := 3

def isKnownKind (code : Int) : Bool :=
  code ∈ [kindShown, kindArgsShown, kindApproved, kindRejected]

def genesis : Bytes := List.replicate headSize 0

structure UIEvent where
  session : Bytes
  kind : Int
  action : Bytes
  seq : Int
  prev : Bytes

def UIEvent.bytes (e : UIEvent) : Py Bytes :=
  encode (.m [(.u 1, .b e.session), (.u 2, .u e.kind), (.u 3, .b e.action), (.u 4, .u e.seq),
    (.u 5, .b e.prev)])

def UIEvent.head (e : UIEvent) : Py Bytes := return Sha2.sha384 (← e.bytes)

/-- An event names the digest of the body of the event before it. -/
def UIEvent.chain : ChainHash UIEvent Bytes Bytes Exc where
  encode := UIEvent.bytes
  hash := Sha2.sha384
  prev := UIEvent.prev
  position := UIEvent.seq

def uiMalformed (msg : String) : Exc := .aguiError .uiMalformed msg

/-- The fields seen so far by `parse_ui_event`. -/
structure EventFields where
  sess : Option Bytes := none
  kind : Option Int := none
  action : Option Bytes := none
  seq : Option Int := none
  prev : Option Bytes := none

def readEventField (fields : EventFields) : Value × Value → Py EventFields
  | (.u 1, .b sess) => return { fields with sess := some sess }
  | (.u 2, .u kind) => return { fields with kind := some kind }
  | (.u 3, .b action) => return { fields with action := some action }
  | (.u 4, .u seq) => return { fields with seq := some seq }
  | (.u 5, .b prev) => return { fields with prev := some prev }
  | (.u _, _) => throw (uiMalformed "unknown or mistyped ui-event field")
  | _ => throw (uiMalformed "non-uint ui-event key")

def parseUiEvent (b : Bytes) : Py UIEvent := do
  let v ←
    match decode b with
    | .ok v => pure v
    | .error (.nonCanonical _) =>
        throw (uiMalformed "ui-event body is not well-formed deterministic CBOR")
    | .error err => throw err
  let .m pairs := v | throw (uiMalformed "ui-event body is not a map")
  match ← pairs.foldlM readEventField {} with
  | ⟨some session, some kind, some action, some seq, some prev⟩ =>
      return { session, kind, action, seq, prev }
  | _ => throw (uiMalformed "ui-event body missing a mandatory field")

/-- One step of a walked chain. -/
structure ShownEvent where
  seq : Int
  kind : Int
  action : Bytes
  head : Bytes

/-- The check of `walk_shown` on the session at index `i`. -/
def checkSession (i : Int) (session : Option Bytes) (e : UIEvent) : Py Unit :=
  if i = 0 then pure ()
  else raiseIf (some e.session ≠ session)
    (.aguiError .uiChainBroken "a chain is for exactly one session")

/-- The loop of `walk_shown`, at index `i` below the head that the events before it left. -/
def walkFrom : (i : Int) → (h : Bytes) → (session : Option Bytes) → List UIEvent
    → Py (List ShownEvent)
  | _, _, _, [] => return []
  | i, h, session, e :: rest => do
      checkSession i session e
      let session := if i = 0 then some e.session else session
      raiseIf (isKnownKind e.kind = false)
        (.aguiError .unknownUIEventKind "ui-event kind is outside the closed set")
      raiseIf (e.seq ≠ i ∨ e.prev ≠ h)
        (.aguiError .uiChainBroken "ui-event prev/seq does not chain to the previous event")
      let h ← e.head
      return ⟨e.seq, e.kind, e.action, h⟩ :: (← walkFrom (i + 1) h session rest)

def walkShown (events : List UIEvent) : Py (List ShownEvent) := walkFrom 0 genesis none events

/-- `detect_hole`: the first broken position. -/
def detectHole (events : List UIEvent) : Py (Int × Bool) :=
  UIEvent.chain.findHole 0 genesis events

def noAlg : Exc := .aguiError .uiMalformed "protected header has no alg"

/-- `_alg_from_protected`. -/
def algFromProtected (prot : Bytes) : Py Int := readAlg noAlg noAlg prot

section Verifying

variable (lib : SignatureLibrary)

/-- `_verify_sign1`. -/
def verifySign1 (obj : Bytes) (profile alg : Int) (pubkey : Bytes) : Py Bytes :=
  floorGate lib .aguiError algFromProtected obj profile alg pubkey

def verifyUiEvent (obj : Bytes) (profile alg : Int) (pubkey : Bytes) : Py UIEvent := do
  let payload ← verifySign1 lib obj profile alg pubkey
  let e ← parseUiEvent payload
  raiseIf (isKnownKind e.kind = false)
    (.aguiError .unknownUIEventKind "ui-event kind is outside the closed set")
  return e

/-- The check of `verify_shown_chain` on the session at index `i`, and the session for the checks
after it.
-/
def keepSession (i : Int) (session : Option Bytes) (e : UIEvent) : Py (Option Bytes) := do
  checkSession i session e
  return if i = 0 then some e.session else session

def verifyShownChain (objs : List Bytes) (profile alg : Int) (pubkey : Bytes) : Py (List UIEvent) :=
  UIEvent.chain.walk (fun obj => verifyUiEvent lib obj profile alg pubkey) keepSession
    (.aguiError .uiChainBroken "ui-event prev/seq does not chain to the previous event")
    (fun e _ => e) 0 genesis none objs

end Verifying

/-- `approved_action_cid`: the action of the first approved event. -/
def approvedActionCid : List ShownEvent → Option Bytes
  | [] => none
  | ev :: rest => if ev.kind = kindApproved then some ev.action else approvedActionCid rest

def verifyConsent (lib : SignatureLibrary) (chain : List UIEvent) (actionBytes : Bytes)
    (appr : ApprovalRecord) (approverAlg : Int) (approverPubkey apprSig : Bytes) (now : Int)
    : Py Unit := do
  let shown ← walkShown chain
  let some shownCid := approvedActionCid shown
    | throw (.aguiError .uiNoConsent "the shown chain carries no approved event")
  verifyApproval lib appr approverAlg approverPubkey apprSig shownCid now
  raiseIf (contentIdBytes actionBytes ≠ shownCid) (.aguiError .actionSubstituted
    "the executed action is not the exact action shown+approved")

end Naalp.Python.Agui
