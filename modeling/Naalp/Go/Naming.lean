import Naalp.Go.Cose
import Naalp.Python.Naming

/-! Name bindings and task transitions of `impl/go/naming/naming.go`. The records, the task states
and the table of edges are those of the Python module.
-/

namespace Naalp.Go.Fields

open Naalp.Foundation
open Naalp.Python.Cbor (Value)

/-- `decodeMap`: octets that do not decode, or not to a map, give none. -/
def decodeMap (b : Bytes) : Option (List (Value × Value)) :=
  match Cbor.decode b with
  | .ok (.m pairs) => some pairs
  | _ => none

end Naalp.Go.Fields

namespace Naalp.Go.Naming

open Naalp.Foundation
open Naalp.Go.Cose
open Naalp.Go.Fields
open Naalp.Python.Fields (bstrField tstrField uintField)
open Naalp.Python.Naming (NameBinding Transition NameForkProof genesis startState legalEdge)

def errNameMalformed : Stop := .error .nameMalformed
  "object is not a well-formed N-AALP name-binding or task-transition body"
def errNameForkProofInvalid : Stop := .error .nameForkProofInvalid
  ("name fork proof does not prove equivocation (not one signer, not the same name+seq, "
    ++ "or the same signer)")
def errIllegalTransition : Stop := .error .illegalTransition
  ("A2A task transition is not a legal edge (unknown edge, self-loop, from a terminal state, "
    ++ "or a non-contiguous from)")
def errTaskChainBroken : Stop := .error .taskChainBroken
  ("task-transition prev/seq does not chain to the previous transition (a gap, reorder, "
    ++ "or omitted transition)")
def errForeignCard : Stop := .error .foreignCard
  "task transition binds a card attestation other than the profile's bound A2A Agent Card"

/-- `NameBinding.Bytes`, which drops the error of the encoder. -/
def bindingBytes (nb : NameBinding) : Bytes :=
  (Cbor.encode (.m [(.u 1, .t nb.name), (.u 2, .b nb.signer), (.u 3, .u nb.seq),
    (.u 4, .b nb.prev)])).toOption.getD []

def parseNameBinding (b : Bytes) : Result NameBinding := do
  let some m := decodeMap b | throw errNameMalformed
  match tstrField m 1, bstrField m 2, uintField m 3, bstrField m 4 with
  | some name, some signer, some seq, some prev => return { name, signer, seq, prev }
  | _, _, _, _ => throw errNameMalformed

/-- `DetectFork`: the position of a fork. -/
def detectFork (a b : NameBinding) : Int × Bool :=
  if a.name ≠ b.name ∨ a.seq ≠ b.seq then (0, false)
  else if bindingBytes a = bindingBytes b then (0, false)
  else (intOfUint a.seq, true)

/-- `Transition.Bytes`, which drops the error of the encoder. -/
def transitionBytes (t : Transition) : Bytes :=
  (Cbor.encode (.m [(.u 1, .b t.task), (.u 2, .b t.card), (.u 3, .u t.frm), (.u 4, .u t.to_),
    (.u 5, .u t.seq), (.u 6, .b t.prev)])).toOption.getD []

def transitionHead (t : Transition) : Bytes := Sha2.sha384 (transitionBytes t)

def parseTransition (b : Bytes) : Result Transition := do
  let some m := decodeMap b | throw errNameMalformed
  match bstrField m 1, bstrField m 2, uintField m 3, uintField m 4, uintField m 5,
    bstrField m 6 with
  | some task, some card, some frm, some to_, some seq, some prev =>
      return { task, card, frm, to_, seq, prev }
  | _, _, _, _, _, _ => throw errNameMalformed

def verifyTransition (frm to_ : Int) : Result Unit :=
  raiseIf (legalEdge frm to_ = false) errIllegalTransition

/-- The check of `VerifyTaskChain` on the source state at index `i`. -/
def checkSource (i prevTo frm : Int) : Result Unit :=
  if i = 0 then raiseIf (frm ≠ startState) errIllegalTransition
  else raiseIf (frm ≠ prevTo) errIllegalTransition

section Verifying

variable (lib : SignatureLibrary)

/-- `Verify1`, then the payload that `ParseSign1Raw` finds. -/
def signedPayload (obj : Bytes) (profile : Int) (v : Verifier) : Result Bytes := do
  verify1 lib profile v obj
  let (_, payload, _) ← parseSign1Raw obj
  return payload

def verifyBinding (obj : Bytes) (profile : Int) (v : Verifier) : Result NameBinding := do
  parseNameBinding (← signedPayload lib obj profile v)

/-- `NameForkProof.Verify`. -/
def verifyFork (fp : NameForkProof) (profile : Int) (v : Verifier) : Result Int := do
  raiseIf (fp.signer = []) errNameForkProofInvalid
  let a ← verifyBinding lib fp.signedA profile v
  let b ← verifyBinding lib fp.signedB profile v
  let (pos, fork) := detectFork a b
  raiseIf (fork = false) errNameForkProofInvalid
  return pos

/-- The loop of `VerifyTaskChain`, at index `i`; a slice is too short for `uint64(i)` to wrap. -/
def verifyTransitions (card : Bytes) (profile : Int) (v : Verifier)
    : (i : Int) → (h : Bytes) → (prevTo : Int) → List Bytes → Result (List Transition)
  | _, _, _, [] => return []
  | i, h, prevTo, obj :: rest => do
      let payload ← signedPayload lib obj profile v
      let t ← parseTransition payload
      raiseIf (t.seq ≠ i ∨ t.prev ≠ h) errTaskChainBroken
      raiseIf (t.card ≠ card) errForeignCard
      checkSource i prevTo t.frm
      verifyTransition t.frm t.to_
      return t :: (← verifyTransitions card profile v (i + 1) (transitionHead t) t.to_ rest)

def verifyTaskChain (objs : List Bytes) (card : Bytes) (profile : Int) (v : Verifier)
    : Result (List Transition) :=
  verifyTransitions lib card profile v 0 genesis 0 objs

end Verifying

end Naalp.Go.Naming
