import Naalp.Foundation.Loops
import Naalp.Python.Gates

/-! Delegation chains of `impl/python/naalp/delegation.py` and their composition with an
approval.
-/

namespace Naalp.Python.Delegation

open Naalp.Foundation
open Naalp.Python.Cose
open Naalp.Python.Approval

/-- The grant body; an empty scope is unconstrained. -/
structure Grant where
  subject : PyStr
  effectCap : Int
  maxDepth : Int
  notBefore : Int
  notAfter : Int
  scope : PyStr

/-- A verified grant: its envelope content id, its issuer, its body and its causes. -/
structure Resolved where
  contentId : Bytes
  issuer : PyStr
  grant : Grant
  causes : List Bytes

/-- Verified grants by content id. -/
abbrev GrantSet := AList (fun _ : Bytes => Resolved)

/-- Revoke positions by grant content id. -/
abbrev Revocations := AList (fun _ : Bytes => Int)

structure Action where
  signer : PyStr
  effect : Int
  scope : PyStr
  causes : List Bytes

def revokedAt (revocations : Revocations) (cid : Bytes) (now : Int) : Bool :=
  match revocations.lookup cid with
  | some p => p ≤ now
  | none => false

/-- The path-prefix rule: an empty parent scope contains everything, and an empty child scope
is contained in no other.
-/
def scopeContained (child parent : PyStr) : Bool :=
  if parent = [] then true
  else if child = [] then false
  else if child = parent then true
  else (parent ++ [PyChar.scalar '/']).isPrefixOf child

/-- The loop of `_matching_causes`, with the ids that were already matched. -/
def matchingFrom (subject : PyStr) (grants : GrantSet) : (seen : List Bytes) → List Bytes
    → List Resolved
  | _, [] => []
  | seen, c :: rest =>
      if c ∈ seen then matchingFrom subject grants seen rest
      else
        match grants.lookup c with
        | some r =>
            if r.grant.subject = subject then r :: matchingFrom subject grants (c :: seen) rest
            else matchingFrom subject grants seen rest
        | none => matchingFrom subject grants seen rest

def matchingCauses (causes : List Bytes) (subject : PyStr) (grants : GrantSet) : List Resolved :=
  matchingFrom subject grants [] causes

/-- The loop variables of `verify_chain`. -/
structure Walk where
  g : Resolved
  childEffect : Int
  childScope : PyStr
  pos : Int
  visited : List Bytes

section Chain

variable (grants : GrantSet) (anchors : List PyStr) (revoked : Revocations) (now : Int)

/-- The checks on the current grant, before its parent is resolved. -/
def checkGrant (w : Walk) : Py Unit := do
  raiseIf (w.g.contentId ∈ w.visited)
    (.delegationError .chainBroken "content-id cycle in the delegation chain")
  raiseIf (now < w.g.grant.notBefore)
    (.delegationError .grantNotYetValid "grant is before its not_before at this position")
  raiseIf (now > w.g.grant.notAfter)
    (.delegationError .grantExpired "grant is past its not_after at this position")
  raiseIf (revokedAt revoked w.g.contentId now)
    (.delegationError .grantRevoked "grant is revoked at or before this position")
  raiseIf (Policy.authorizes w.g.grant.effectCap w.childEffect = false)
    (.delegationError .capExceedsParent "child effect exceeds this grant's effect_cap")
  raiseIf (scopeContained w.childScope w.g.grant.scope = false)
    (.delegationError .capExceedsParent "child scope is not contained in this grant's scope")
  raiseIf (w.pos > w.g.grant.maxDepth) (.delegationError .delegationDepthExceeded
    "realized delegation depth exceeds max_depth")

/-- One round of the loop of `verify_chain`: `none` when the walk ends at a trusted root, and
the loop variables of the next round otherwise.
-/
def walkStep (w : Walk) : Py (Option Walk) := do
  checkGrant revoked now w
  match matchingCauses w.g.causes w.g.issuer grants with
  | [] => do
      raiseIf (w.g.issuer ∉ anchors) (.delegationError .untrustedChainRoot
        "the chain root's issuer is not a trust anchor")
      return none
  | [p] => do
      raiseIf (p.grant.maxDepth = 0 ∨ w.g.grant.maxDepth ≥ p.grant.maxDepth)
        (.delegationError .delegationDepthExceeded "declared delegation depth exceeds parent")
      return some {
        g := p, childEffect := w.g.grant.effectCap, childScope := w.g.grant.scope,
        pos := w.pos + 1, visited := w.g.contentId :: w.visited
      }
  | _ => throw (.delegationError .chainBroken "ambiguous delegation parent")

/-- The loop of `verify_chain` for at most `rounds` rounds; `none` when it has not ended. -/
def walkFor : (rounds : Nat) → Walk → Option (Py Unit)
  | 0, _ => none
  | rounds + 1, w =>
      match walkStep grants anchors revoked now w with
      | .error err => some (.error err)
      | .ok none => some (.ok ())
      | .ok (some next) => walkFor rounds next

end Chain

/-- The loop variables at the leaf grant. -/
def Walk.start (action : Action) (leaf : Resolved) : Walk :=
  { g := leaf, childEffect := action.effect, childScope := action.scope, pos := 0,
    visited := [] }

/-- The unique leaf grant among the action's causes. -/
def locateLeaf (action : Action) (grants : GrantSet) : Py Resolved :=
  match matchingCauses action.causes action.signer grants with
  | [] => throw (.delegationError .effectNotAuthorized "no delegation authorizes this action")
  | [leaf] => return leaf
  | _ => throw (.delegationError .chainBroken "more than one authorizing grant is ambiguous")

/-- The content ids of the grants of a set. -/
def GrantSet.ids (grants : GrantSet) : List Bytes := grants.entries.map (·.2.contentId)

theorem lookup_mem_ids {grants : GrantSet} {key : Bytes} {r : Resolved}
    (found : grants.lookup key = some r)
    : r.contentId ∈ grants.ids :=
  List.mem_map.mpr ⟨⟨key, r⟩, List.of_mem_dlookup found, rfl⟩

/-- Every match was found in the set under one of the causes and has the subject, by induction
over the causes.
-/
theorem mem_matchingFrom {subject : PyStr} {grants : GrantSet} {seen causes : List Bytes}
    {r : Resolved} (member : r ∈ matchingFrom subject grants seen causes)
    : ∃ c ∈ causes, grants.lookup c = some r ∧ r.grant.subject = subject := by
  induction causes generalizing seen with
  | nil => cases member
  | cons c rest ih =>
      have later : ∀ seen', r ∈ matchingFrom subject grants seen' rest
          → ∃ c' ∈ c :: rest, grants.lookup c' = some r ∧ r.grant.subject = subject := by
        intro seen' inRest
        obtain ⟨c', inCauses, found⟩ := ih inRest
        exact ⟨c', List.mem_cons_of_mem _ inCauses, found⟩
      rw [matchingFrom] at member
      split at member
      · exact later _ member
      · split at member
        · rename_i g found
          split at member
          · rename_i same
            rcases List.mem_cons.mp member with rfl | inRest
            · exact ⟨c, List.mem_cons_self, found, same⟩
            · exact later _ inRest
          · exact later _ member
        · exact later _ member

section Rounds

variable {grants : GrantSet} {anchors : List PyStr} {revoked : Revocations} {now : Int}

/-- A further round starts at a matching parent of a grant that was not visited before and
passed its checks.
-/
theorem walkStep_eq_some {w next : Walk}
    (walked : walkStep grants anchors revoked now w = .ok (some next))
    : checkGrant revoked now w = .ok ()
      ∧ ∃ p, matchingCauses w.g.causes w.g.issuer grants = [p]
        ∧ ¬ (p.grant.maxDepth = 0 ∨ w.g.grant.maxDepth ≥ p.grant.maxDepth)
        ∧ next = { g := p, childEffect := w.g.grant.effectCap, childScope := w.g.grant.scope,
                   pos := w.pos + 1, visited := w.g.contentId :: w.visited } := by
  simp only [walkStep, bind_eq_ok] at walked
  obtain ⟨_, checked, walked⟩ := walked
  refine ⟨checked, ?_⟩
  split at walked
  · simp [bind_eq_ok] at walked
  · rename_i p parents
    simp only [bind_eq_ok, raiseIf_eq_ok, exists_const, pure_eq_ok, Except.ok.injEq,
      Option.some.injEq] at walked
    exact ⟨p, parents, walked.1, walked.2.symm⟩
  · cases walked

/-- The walk is the general loop over its rounds, by induction on these. -/
theorem walkFor_eq_loopFor (rounds : Nat) (w : Walk)
    : walkFor grants anchors revoked now rounds w
      = loopFor (walkStep grants anchors revoked now) rounds w := by
  induction rounds generalizing w with
  | zero => rfl
  | succ rounds ih =>
      rw [walkFor, loopFor]
      cases walkStep grants anchors revoked now w with
      | error err => rfl
      | ok next =>
          cases next with
          | none => rfl
          | some next => exact ih next

/-- A located leaf is among the grants that match the action. -/
theorem locateLeaf_eq_ok {action : Action} {leaf : Resolved}
    (located : locateLeaf action grants = .ok leaf)
    : leaf ∈ matchingCauses action.causes action.signer grants := by
  unfold locateLeaf at located
  split at located
  · cases located
  · rename_i leaf' matched
    obtain rfl := Except.ok.inj located
    simp [matched]
  · cases located

/-- The walk ends within one round more than there are grants: each round visits another one.
-/
theorem walkFor_start_isSome {action : Action} {leaf : Resolved}
    (located : locateLeaf action grants = .ok leaf)
    : (walkFor grants anchors revoked now (grants.entries.length + 1)
        (.start action leaf)).isSome := by
  rw [walkFor_eq_loopFor]
  apply @loopFor_isSome _ _ _ _ (fun w => w.g.contentId) (fun w => w.visited) grants.ids
  · intro w next walked
    obtain ⟨checked, p, parents, -, rfl⟩ := walkStep_eq_some walked
    simp only [checkGrant, bind_eq_ok, raiseIf_eq_ok, exists_const] at checked
    have found : p ∈ matchingCauses w.g.causes w.g.issuer grants := by simp [parents]
    obtain ⟨c, -, inSet, -⟩ := mem_matchingFrom found
    exact ⟨checked.1, rfl, lookup_mem_ids inSet⟩
  · obtain ⟨c, -, inSet, -⟩ := mem_matchingFrom (locateLeaf_eq_ok located)
    exact lookup_mem_ids inSet
  · exact List.nodup_nil
  · exact List.nil_subset _
  · rw [GrantSet.ids, List.length_map]
    omega

end Rounds

/-- `verify_chain`. One round more than there are grants always reaches a verdict. -/
def verifyChain (action : Action) (grants : GrantSet) (anchors : List PyStr)
    (revoked : Revocations) (now : Int) : Py Unit :=
  match located : locateLeaf action grants with
  | .error err => .error err
  | .ok leaf =>
      (walkFor grants anchors revoked now (grants.entries.length + 1)
        (.start action leaf)).get (walkFor_start_isSome located)

/-- `except approval.ApprovalError` around the approval check. -/
def heldApproval : Exc → Exc
  | .approvalError _ _ => .delegationError .approvalRequired
      "no valid approval on a destructive action (held §7.3)"
  | err => err

/-- `except approval.ApprovalError` around the consume; the message is `str(e)`. -/
def ledgerDenial : Exc → Exc
  | .approvalError kind msg =>
      .delegationError kind (if msg = "" then kind.name else kind.name ++ ": " ++ msg)
  | err => err

def authorizeDestructive (lib : SignatureLibrary) (led : Ledger) (fault : Option Fault)
    (action : Action) (grants : GrantSet) (anchors : List PyStr) (revoked : Revocations)
    (now : Int) (appr : ApprovalRecord) (approverAlg : Int)
    (approverPubkey apprSig argsContentId : Bytes) : Py Unit × Ledger :=
  led.guarded (do
      verifyChain action grants anchors revoked now
      (verifyApproval lib appr approverAlg approverPubkey apprSig argsContentId now).mapError
        heldApproval
      raiseIf (Policy.authorizes appr.grant action.effect = false)
        (.delegationError .approvalRequired
          "the approval's granted effect does not cover the action")
      appr.id)
    (fun aid =>
      let (result, after) := led.consume fault aid action.signer
      ((result.map (fun _ => ())).mapError ledgerDenial, after))

end Naalp.Python.Delegation
