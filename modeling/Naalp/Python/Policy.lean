import Naalp.Python.Exceptions

/-! The effect classes of `impl/python/naalp/policy.py`, and the grants that are issued to
principals.
-/

namespace Naalp.Python.Policy

open Naalp.Foundation

def readOnly : Int := 0
def idempotentWrite : Int := 1
def nonIdempotentWrite : Int := 2
def destructive : Int := 3

/-- A value outside the closed set is destructive. -/
def normalizeEffect (v : Int) : Int := if 0 ≤ v ∧ v ≤ 3 then v else destructive

def safetyLabelName (e : Int) : PyStr :=
  match normalizeEffect e with
  | 0 => .lit ['r', 'e', 'a', 'd', '_', 'o', 'n', 'l', 'y']
  | 1 => .lit ['i', 'd', 'e', 'm', 'p', 'o', 't', 'e', 'n', 't', '_', 'w', 'r', 'i', 't', 'e']
  | 2 => .lit ['n', 'o', 'n', '_', 'i', 'd', 'e', 'm', 'p', 'o', 't', 'e', 'n', 't', '_', 'w', 'r',
      'i', 't', 'e']
  | _ => .lit ['d', 'e', 's', 't', 'r', 'u', 'c', 't', 'i', 'v', 'e']

/-- An action is permitted under a ceiling exactly when it is not above it. -/
def authorizes (ceiling action : Int) : Bool := action ≤ ceiling

/-- Where a claimed identity came from. -/
inductive PrincipalSource where
  | signature
  | transportMetadata
  | foreignHeader
  | clientName
  deriving DecidableEq, Repr

/-- `resolve_auth_principal`: only a signature-derived, non-empty identity is a principal. -/
def resolveAuthPrincipal (src : PrincipalSource) (presented : PyStr) : Py PyStr := do
  raiseIf (src ≠ .signature ∨ presented = []) (.policyError .unauthenticatedPrincipal
    "an authorization identity must be signature-derived, not transport/foreign/client-asserted")
  return presented

/-- The most dangerous effect that a principal is permitted to carry. -/
structure Grant where
  principal : PyStr
  maxEffect : Int := readOnly
  deriving DecidableEq, Repr

def Grant.authorizeObject (g : Grant) (src : PrincipalSource) (presented : PyStr)
    (objectEffect : Int) : Py Unit := do
  let who ← resolveAuthPrincipal src presented
  raiseIf (who ≠ g.principal)
    (.policyError .effectNotAuthorized "object effect exceeds the granted capability")
  raiseIf (authorizes g.maxEffect (normalizeEffect objectEffect) = false)
    (.policyError .effectNotAuthorized "object effect exceeds the granted capability")

/-- What a grant authorizes: its own principal, up to its ceiling. -/
theorem Grant.authorizeObject_eq_ok {g : Grant} {src : PrincipalSource} {presented : PyStr}
    {objectEffect : Int} {done : Unit}
    : g.authorizeObject src presented objectEffect = .ok done
      ↔ src = .signature ∧ presented ≠ [] ∧ presented = g.principal
        ∧ normalizeEffect objectEffect ≤ g.maxEffect := by
  simp [authorizeObject, resolveAuthPrincipal, bind_eq_ok, raiseIf_eq_ok, authorizes, not_or,
    and_assoc]

end Naalp.Python.Policy
