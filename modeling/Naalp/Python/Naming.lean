import Naalp.Foundation.HashChain
import Naalp.Foundation.Methods
import Naalp.Python.Cbor
import Naalp.Python.Cose

/-! The signature gate of `impl/python/naalp/naming.py`, the name bindings and task transitions that
it admits, and the chains and fork proofs over them.
-/

namespace Naalp.Python.Naming

open Naalp.Foundation
open Naalp.Python.Cbor
open Naalp.Python.Cose
open Naalp.Python.Fields

def noAlg : Exc := .namingError .malformed "protected header has no alg"

/-- `_alg_from_protected`. -/
def algFromProtected (prot : Bytes) : Py Int := readAlg noAlg noAlg prot

def genesis : Bytes := List.replicate 48 0

/-- A name mapped to a signer at a chain position. -/
structure NameBinding where
  name : PyStr
  signer : Bytes
  seq : Int
  prev : Bytes

def parseNameBinding (b : Bytes) : Py NameBinding := do
  let malformed := .namingError .nameMalformed "body is not a well-formed name binding"
  let some m ← decodeMap b | throw malformed
  match tstrField m 1, bstrField m 2, uintField m 3, bstrField m 4 with
  | some name, some signer, some seq, some prev => return { name, signer, seq, prev }
  | _, _, _, _ => throw malformed

def NameBinding.bytes (nb : NameBinding) : Py Bytes :=
  encode (.m [(.u 1, .t nb.name), (.u 2, .b nb.signer), (.u 3, .u nb.seq), (.u 4, .b nb.prev)])

def NameBinding.head (nb : NameBinding) : Py Bytes := return Sha2.sha384 (← nb.bytes)

/-- A binding names the digest of the body of the binding before it. -/
def NameBinding.chain : ChainHash NameBinding Bytes Bytes Exc where
  encode := NameBinding.bytes
  hash := Sha2.sha384
  prev := NameBinding.prev
  position := NameBinding.seq

/-- `detect_fork`: the position of a fork. -/
def detectFork (a b : NameBinding) : Py (Int × Bool) := do
  if a.name ≠ b.name ∨ a.seq ≠ b.seq then return (0, false)
  if (← a.bytes) = (← b.bytes) then return (0, false)
  return (a.seq, true)

/-- One step of a walked history. -/
structure NameEvent where
  seq : Int
  signer : Bytes
  head : Bytes

def nameChanged : Exc := .namingError .nameChainBroken "a chain is for exactly one name"
def nameUnlinked : Exc :=
  .namingError .nameChainBroken "prev/seq does not chain to the previous binding"

/-- The check of the walks on the name at index `i`, and the name for the checks after it. -/
def checkName (i : Int) (name : Option PyStr) (nb : NameBinding) : Py (Option PyStr) :=
  if i = 0 then return some nb.name
  else do
    raiseIf (some nb.name ≠ name) nameChanged
    return name

def walkHistory (bindings : List NameBinding) : Py (List NameEvent) :=
  NameBinding.chain.walk pure checkName nameUnlinked
    (fun nb head => { seq := nb.seq, signer := nb.signer, head }) 0 genesis none bindings

/-- `detect_hole`: the first broken position. -/
def detectHole (bindings : List NameBinding) : Py (Int × Bool) :=
  NameBinding.chain.findHole 0 genesis bindings

/-- A task moved from one state to the next at a chain position. -/
structure Transition where
  task : Bytes
  card : Bytes
  frm : Int
  to_ : Int
  seq : Int
  prev : Bytes

def parseTransition (b : Bytes) : Py Transition := do
  let malformed := .namingError .nameMalformed "body is not a well-formed task transition"
  let some m ← decodeMap b | throw malformed
  match bstrField m 1, bstrField m 2, uintField m 3, uintField m 4, uintField m 5,
    bstrField m 6 with
  | some task, some card, some frm, some to_, some seq, some prev =>
      return { task, card, frm, to_, seq, prev }
  | _, _, _, _, _, _ => throw malformed

def Transition.bytes (t : Transition) : Py Bytes :=
  encode (.m [(.u 1, .b t.task), (.u 2, .b t.card), (.u 3, .u t.frm), (.u 4, .u t.to_),
    (.u 5, .u t.seq), (.u 6, .b t.prev)])

def Transition.head (t : Transition) : Py Bytes := return Sha2.sha384 (← t.bytes)

def stateSubmitted : Int := 0
def stateWorking : Int := 1
def stateInputRequired : Int := 2
def stateAuthRequired : Int := 3
def stateCompleted : Int := 4
def stateCanceled : Int := 5
def stateFailed : Int := 6
def stateRejected : Int := 7

def startState : Int := stateSubmitted

/-- `_STATE_NAMES`. -/
def stateNames : List (Int × PyStr) :=
  [(stateSubmitted, .lit ['s', 'u', 'b', 'm', 'i', 't', 't', 'e', 'd']),
    (stateWorking, .lit ['w', 'o', 'r', 'k', 'i', 'n', 'g']),
    (stateInputRequired, .lit
      ['i', 'n', 'p', 'u', 't', '-', 'r', 'e', 'q', 'u', 'i', 'r', 'e', 'd']),
    (stateAuthRequired, .lit ['a', 'u', 't', 'h', '-', 'r', 'e', 'q', 'u', 'i', 'r', 'e', 'd']),
    (stateCompleted, .lit ['c', 'o', 'm', 'p', 'l', 'e', 't', 'e', 'd']),
    (stateCanceled, .lit ['c', 'a', 'n', 'c', 'e', 'l', 'e', 'd']),
    (stateFailed, .lit ['f', 'a', 'i', 'l', 'e', 'd']),
    (stateRejected, .lit ['r', 'e', 'j', 'e', 'c', 't', 'e', 'd'])]

def stateName (state : Int) : PyStr :=
  (stateNames.lookup state).getD (.lit ['u', 'n', 'k', 'n', 'o', 'w', 'n'])

def states : List Int :=
  [stateSubmitted, stateWorking, stateInputRequired, stateAuthRequired, stateCompleted,
    stateCanceled, stateFailed, stateRejected]
def terminal : List Int := [stateCompleted, stateCanceled, stateFailed, stateRejected]
def interrupted : List Int := [stateInputRequired, stateAuthRequired]

/-- `_build_legal_edges`, in the order in which they are added. -/
def legalEdges : List (Int × Int) :=
  let active := [stateSubmitted, stateWorking]
  (stateSubmitted, stateWorking) :: active.product interrupted ++ active.product terminal
    ++ interrupted.map (·, stateWorking) ++ interrupted.product terminal

def legalEdge (frm to_ : Int) : Bool := frm ∈ states ∧ to_ ∈ states ∧ (frm, to_) ∈ legalEdges

def verifyTransition (frm to_ : Int) : Py Unit :=
  raiseIf (legalEdge frm to_ = false)
    (.namingError .illegalTransition "not a legal A2A transition edge")

/-- The check of `verify_task_chain` on the source state at index `i`. -/
def checkSource (i : Int) (prevTo : Option Int) (frm : Int) : Py Unit :=
  if i = 0 then
    raiseIf (frm ≠ startState) (.namingError .illegalTransition
      "the first transition must leave the start state")
  else
    raiseIf (some frm ≠ prevTo) (.namingError .illegalTransition
      "non-contiguous: this from must equal the prior to")

section Verifying

variable (lib : SignatureLibrary)

/-- `_verify_sign1`. -/
def verifySign1 (obj : Bytes) (profile alg : Int) (pubkey : Bytes) : Py Bytes :=
  floorGate lib .namingError algFromProtected obj profile alg pubkey

def verifyBinding (obj : Bytes) (profile alg : Int) (pubkey : Bytes) : Py NameBinding := do
  let payload ← verifySign1 lib obj profile alg pubkey
  parseNameBinding payload

def verifyChain (objs : List Bytes) (profile alg : Int) (pubkey : Bytes) : Py (List NameBinding) :=
  NameBinding.chain.walk (fun obj => verifyBinding lib obj profile alg pubkey) checkName
    nameUnlinked (fun nb _ => nb) 0 genesis none objs

def signBinding (nb : NameBinding) (alg : Int) (seed : Bytes) : Py Bytes := do
  coseSign1 lib alg seed (← bareProtectedHeader alg) (← nb.bytes)

/-- A naming authority for one name. -/
structure Registrar where
  name : PyStr
  alg : Int
  seed : Bytes
  head : Bytes := genesis
  seq : Int := 0

def Registrar.append (subject : Bytes) : EStateM Exc Registrar (NameBinding × Bytes) := do
  let r ← get
  let nb : NameBinding := { name := r.name, signer := subject, seq := r.seq, prev := r.head }
  let obj ← check (signBinding lib nb r.alg r.seed)
  let head ← check nb.head
  modify fun r => { r with head }
  modify fun r => { r with seq := r.seq + 1 }
  return (nb, obj)

def signTransition (t : Transition) (alg : Int) (seed : Bytes) : Py Bytes := do
  coseSign1 lib alg seed (← bareProtectedHeader alg) (← t.bytes)

/-- The loop of `verify_task_chain`, at index `i` below the head and the target state that the
transitions before it left.
-/
def verifyTransitions (card : Bytes) (profile alg : Int) (pubkey : Bytes)
    : (i : Int) → (h : Bytes) → (prevTo : Option Int) → List Bytes → Py (List Transition)
  | _, _, _, [] => return []
  | i, h, prevTo, obj :: rest => do
      let payload ← verifySign1 lib obj profile alg pubkey
      let t ← parseTransition payload
      raiseIf (t.seq ≠ i ∨ t.prev ≠ h) (.namingError .taskChainBroken
        "prev/seq does not chain to the previous transition")
      raiseIf (t.card ≠ card) (.namingError .foreignCard
        "transition binds a card other than the profile's bound card")
      checkSource i prevTo t.frm
      verifyTransition t.frm t.to_
      return t :: (← verifyTransitions card profile alg pubkey (i + 1) (← t.head) (some t.to_) rest)

def verifyTaskChain (objs : List Bytes) (card : Bytes) (profile alg : Int) (pubkey : Bytes)
    : Py (List Transition) :=
  verifyTransitions lib card profile alg pubkey 0 genesis none objs

/-- Two signed bindings of one authority that bind one name at one position. -/
structure NameForkProof where
  signer : Bytes
  signedA : Bytes
  signedB : Bytes

def NameForkProof.verify (fp : NameForkProof) (profile alg : Int) (pubkey : Bytes) : Py Int := do
  raiseIf (fp.signer = []) (.namingError .nameForkProofInvalid
    "an unnamed accused is not evidence")
  let a ← verifyBinding lib fp.signedA profile alg pubkey
  let b ← verifyBinding lib fp.signedB profile alg pubkey
  let (pos, fork) ← detectFork a b
  raiseIf (fork = false) (.namingError .nameForkProofInvalid
    "not the same (name, seq) or identical bodies")
  return pos

end Verifying

end Naalp.Python.Naming
