import Mathlib.Data.List.AList
import Naalp.Foundation.Methods
import Naalp.Python.RawRecords

/-! The ordering authority and the auditor of `impl/python/naalp/audit.py`, and the relay of
`impl/python/naalp/delivery.py`.
-/

namespace Naalp.Python.Audit

open Naalp.Foundation
open Naalp.Python.Cose

variable (lib : SignatureLibrary)

structure Authority where
  alg : Int
  seed : Bytes
  head : Bytes := List.replicate headSize 0
  seq : Int := 0

/-- `Authority.append`; `time` is the parameter `at` of the source. -/
def Authority.append (obj : Bytes) (time : Int) : EStateM Exc Authority (Receipt × Bytes) := do
  let a ← get
  let r : Receipt := { prev := a.head, obj, seq := a.seq, time }
  let sig ← check (do mldsaSign lib a.alg a.seed (← r.bytes))
  let head ← check r.head
  modify fun a => { a with head }
  modify fun a => { a with seq := a.seq + 1 }
  return (r, sig)

/-- Two receipts of one authority at one position, with the signatures of the accused. -/
structure ForkProof where
  signer : Bytes
  extCounter : Int
  a : Receipt
  sigA : Bytes
  b : Receipt
  sigB : Bytes

def forkProofInvalid (msg : String) : Exc := .auditError .forkProofInvalid msg

def ForkProof.verify (proof : ForkProof) (alg : Int) (pubkey : Bytes) : Py Unit := do
  raiseIf (proof.signer.length = 0) (forkProofInvalid "an unnamed accused is not evidence")
  raiseIf (proof.a.seq ≠ proof.b.seq)
    (forkProofInvalid "receipts at different sequence positions")
  raiseIf (proof.a.obj = proof.b.obj)
    (forkProofInvalid "same object named twice -- no equivocation")
  let validA ← mldsaVerify lib alg pubkey (← proof.a.bytes) proof.sigA
  raiseIf (validA = false)
    (.auditError .receiptUnsigned "a signature does not verify under the accused key")
  let validB ← mldsaVerify lib alg pubkey (← proof.b.bytes) proof.sigB
  raiseIf (validB = false)
    (.auditError .receiptUnsigned "a signature does not verify under the accused key")

structure Auditor where
  alg : Int
  pk : Bytes
  signer : Bytes
  ext : Int
  seen : AList (fun _ : Int => Receipt × Bytes) := ∅

def Auditor.observe (r : Receipt) (sig : Bytes) : EStateM Exc Auditor (Option ForkProof) := do
  let s ← get
  let valid ← check (do mldsaVerify lib s.alg s.pk (← r.bytes) sig)
  check (raiseIf (valid = false)
    (.auditError .receiptUnsigned "receipt signature does not verify"))
  match s.seen.lookup r.seq with
  | some (prevR, prevSig) =>
      if prevR.obj ≠ r.obj then
        let fp := { signer := s.signer, extCounter := s.ext, a := prevR, sigA := prevSig, b := r,
                    sigB := sig }
        modify fun s => { s with ext := s.ext + 1 }
        return some fp
      else return none
  | none =>
      modify fun s => { s with seen := s.seen.insert r.seq (r, sig) }
      return none

end Naalp.Python.Audit

namespace Naalp.Python.Delivery

open Naalp.Foundation
open Naalp.Python.Cbor
open Naalp.Python.Cose
open Naalp.Python.Audit (Authority Receipt)

structure ContentFreeRelay where
  auth : Authority
  receipts : List Receipt := []
  sigs : List Bytes := []

/-- `ContentFreeRelay.route`; `time` is the parameter `at` of the source. -/
def ContentFreeRelay.route (lib : SignatureLibrary) (obj : Bytes) (time : Int)
    : EStateM Exc ContentFreeRelay Bytes := do
  let (rec, sig) ← within auth (fun relay auth => { relay with auth })
    (Authority.append lib (contentIdBytes obj) time)
  modify fun relay => { relay with receipts := relay.receipts ++ [rec] }
  modify fun relay => { relay with sigs := relay.sigs ++ [sig] }
  return obj

end Naalp.Python.Delivery

/-! The detector of double spends in `impl/python/naalp/approval.py`, which compares the consume
receipts of ledgers.
-/

namespace Naalp.Python.Approval

open Naalp.Foundation
open Naalp.Python.Cose

variable (lib : SignatureLibrary)

/-- The alg and the key of a ledger id, or nothing for an unknown ledger. -/
abbrev Resolver := Bytes → Option (Int × Bytes)

/-- Two receipts for one approval id, with the signatures of the ledgers that they name. -/
structure ConsumeForkEvidence where
  approvalId : Bytes
  a : ConsumeReceipt
  sigA : Bytes
  b : ConsumeReceipt
  sigB : Bytes

def consumeForkInvalid (msg : String) : Exc := .approvalError .consumeForkInvalid msg

def consumeReceiptUnsigned (msg : String) : Exc := .approvalError .consumeReceiptUnsigned msg

def ConsumeForkEvidence.verify (e : ConsumeForkEvidence) (resolve : Resolver) : Py Unit := do
  raiseIf (e.approvalId = []) (consumeForkInvalid "no disputed approval id")
  raiseIf (e.a.approvalId ≠ e.approvalId ∨ e.b.approvalId ≠ e.approvalId)
    (consumeForkInvalid "both receipts must name the one disputed approval id")
  let bodyA ← e.a.bytes
  let bodyB ← e.b.bytes
  raiseIf (bodyA = bodyB)
    (consumeForkInvalid "byte-identical receipts are a benign duplicate, not a fork")
  raiseIf (e.a.ledger = []) (consumeReceiptUnsigned "receipt A names no ledger")
  let some (algA, pkA) := resolve e.a.ledger
    | throw (consumeReceiptUnsigned "receipt A's ledger does not resolve")
  raiseIf (e.b.ledger = []) (consumeReceiptUnsigned "receipt B names no ledger")
  let some (algB, pkB) := resolve e.b.ledger
    | throw (consumeReceiptUnsigned "receipt B's ledger does not resolve")
  let validA ← coseVerify1Raw lib algA pkA bodyA e.sigA
  raiseIf (validA = false) (consumeReceiptUnsigned "a ledger signature does not verify")
  let validB ← coseVerify1Raw lib algB pkB bodyB e.sigB
  raiseIf (validB = false) (consumeReceiptUnsigned "a ledger signature does not verify")

structure ReceiptSet where
  resolve : Resolver
  seen : AList (fun _ : Bytes => ConsumeReceipt × Bytes) := ∅

def ReceiptSet.observe (r : ConsumeReceipt) (sig : Bytes)
    : EStateM Exc ReceiptSet (Option ConsumeForkEvidence) := do
  let s ← get
  match if r.ledger = [] then none else s.resolve r.ledger with
  | none => throw (consumeReceiptUnsigned "ledger unnamed or unresolvable")
  | some (alg, pk) =>
      let valid ← check (do coseVerify1Raw lib alg pk (← r.bytes) sig)
      check (raiseIf (valid = false) (consumeReceiptUnsigned "receipt signature does not verify"))
      match s.seen.lookup r.approvalId with
      | some (prevR, prevSig) =>
          let prevBody ← check prevR.bytes
          let body ← check r.bytes
          if prevBody = body then return none
          else
            return some
              { approvalId := r.approvalId, a := prevR, sigA := prevSig, b := r, sigB := sig }
      | none =>
          modify fun s => { s with seen := s.seen.insert r.approvalId (r, sig) }
          return none

end Naalp.Python.Approval
