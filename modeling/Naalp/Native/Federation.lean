import Naalp.Foundation.CausalGraph
import Naalp.Foundation.CausalOrder
import Naalp.Go.Cbor

/-! The causal graph of `impl/go/audit/audit.go`, which `impl/rust/src/audit.rs` checks in the same
way, its topological order, and the reconcile of `impl/go/federation/federation.go` and of
`impl/rust/src/federation.rs`.
-/

namespace Naalp.Native.Audit

open Naalp.Foundation
open Naalp.Go (Stop Result)

def errCausalViolation : Stop :=
  .error .causalViolation "causal graph has a cycle or a future cause"

/-- `VerifyCausal` and `verify_causal`. -/
def verifyCausal (nodes : List (CausalNode Bytes UInt64)) : Result Unit :=
  Foundation.verifyCausal errCausalViolation errCausalViolation nodes

end Naalp.Native.Audit

namespace Naalp.Go.Audit

open Naalp.Foundation
open Naalp.Native.Audit

/-- `TopoOrder`. -/
def topoOrder (nodes : List (CausalNode Bytes UInt64)) : Result (List Bytes) := do
  verifyCausal nodes
  linearizeByPosition errCausalViolation nodes

end Naalp.Go.Audit

namespace Naalp.Go.Federation

open Naalp.Foundation
open Naalp.Native.Audit

/-- `Reconcile`. The in-degrees count the presented causes with their repetitions, and a placed id
is taken off once for every cause that is equal to it.
-/
def reconcile (nodes : List (CausalNode Bytes UInt64)) : Result (List Bytes) := do
  verifyCausal nodes
  kahn (subtract perOccurrence) errCausalViolation nodes.length (startSlots id nodes)

end Naalp.Go.Federation

/-! In Rust the in-degrees are `usize`. The pick is replaced unless its id is at most the next one,
which is when the next id is less.
-/

namespace Naalp.Rust.Federation

open Naalp.Foundation
open Naalp.Go (Result)
open Naalp.Native.Audit

def usizeMax : ℕ := 2 ^ 64 - 1

/-- `indeg[j] -= 1` where `causes` has the placed id. At zero it panics in a build with overflow
checks and wraps in one without.
-/
def release (overflowChecks : Bool) (x : Bytes) (s : Slot Bytes ℕ) : Result ℕ :=
  if x ∈ s.causes then
    match s.waiting with
    | 0 => if overflowChecks then throw .panic else pure usizeMax
    | waiting + 1 => pure waiting
  else pure s.waiting

def reconcile (overflowChecks : Bool) (nodes : List (CausalNode Bytes UInt64))
    : Result (List Bytes) := do
  verifyCausal nodes
  kahn (release overflowChecks) errCausalViolation nodes.length (startSlots id nodes)

end Naalp.Rust.Federation
