import Naalp.Foundation.Loops
import Naalp.Go.Cbor
import Naalp.Go.MixedMode
import Naalp.Python.Cose
import Naalp.Rust.Envelope
import Naalp.Rust.Stores

/-! Delegation chains of `impl/go/delegation/delegation.go` and `impl/rust/src/delegation.rs`.
The two walk a chain in the same order of checks and with the same errors. A string is a list of
octets in Go and of scalar values in Rust, so the model is over the elements of a string.
-/

namespace Naalp.Native.Delegation

open Naalp.Foundation
open Naalp.Go (Stop Result)

def errChainBroken : Stop :=
  .error .chainBroken "a delegation-chain link is missing, ambiguous, or unverifiable"
def errGrantExpired : Stop :=
  .error .grantExpired "grant is past its not_after at the action's ordering position"
def errGrantNotYetValid : Stop :=
  .error .grantNotYetValid "grant is before its not_before at the action's ordering position"
def errGrantRevoked : Stop :=
  .error .grantRevoked "grant is revoked at or before the action's ordering position"
def errUntrustedChainRoot : Stop :=
  .error .untrustedChainRoot "the chain root's issuer is not in the trust-anchor set"
def errDelegationDepthExceeded : Stop :=
  .error .delegationDepthExceeded "declared or realized delegation depth exceeds max_depth"
def errCapExceedsParent : Stop :=
  .error .capExceedsParent "a delegation may not grant more than its parent"
def errEffectNotAuthorized : Stop :=
  .error .effectNotAuthorized "object effect exceeds the granted capability"
def errSignerMismatch : Stop :=
  .error .signerMismatch "signer id does not equal the recomputed id"
def errUnknownAlg : Stop := .error .unknownAlg "no multicodec for the algorithm"

def channelCapability : Int := 0x0002
def kindDelegationGrant : Int := 4
def tier : Int := 1

/-- The effect of issuing a grant, which is not the ceiling that the grant confers. -/
def grantEffect : Int := 2

def kindValidator (channel kind : Int) : Bool :=
  channel = channelCapability ∧ kind = kindDelegationGrant

variable {α : Type}

/-- The grant body, with strings of `α`; an empty scope is unconstrained. -/
structure Grant (α : Type) where
  subject : List α
  effectCap : UInt8
  maxDepth : UInt64
  notBefore : UInt64
  notAfter : UInt64
  scope : List α

/-- A verified grant: its envelope content id, its issuer, its body and its causes. -/
structure Resolved (α : Type) where
  contentId : Bytes
  issuer : List α
  grant : Grant α
  causes : List Bytes

/-- Verified grants by content id. -/
abbrev GrantSet (α : Type) := AList (fun _ : Bytes => Resolved α)

/-- Revoke positions by grant content id. -/
abbrev Revocations := AList (fun _ : Bytes => UInt64)

structure Action (α : Type) where
  signer : List α
  effect : UInt8
  scope : List α
  causes : List Bytes

def revokedAt (revoked : Revocations) (cid : Bytes) (now : UInt64) : Bool :=
  match revoked.lookup cid with
  | some p => p ≤ now
  | none => false

def authorizes (ceiling action : UInt8) : Bool := action ≤ ceiling

section Strings

variable [DecidableEq α] (slash : α)

def scopeContained (child parent : List α) : Bool :=
  if parent = [] then true
  else if child = [] then false
  else if child = parent then true
  else (parent ++ [slash]).isPrefixOf child

/-- The loop of the cause resolution, with the ids that were already matched. -/
def matchingFrom (subject : List α) (grants : GrantSet α) : (seen : List Bytes) → List Bytes
    → List (Resolved α)
  | _, [] => []
  | seen, c :: rest =>
      if c ∈ seen then matchingFrom subject grants seen rest
      else
        match grants.lookup c with
        | some r =>
            if r.grant.subject = subject then r :: matchingFrom subject grants (c :: seen) rest
            else matchingFrom subject grants seen rest
        | none => matchingFrom subject grants seen rest

def matchingCauses (causes : List Bytes) (subject : List α) (grants : GrantSet α)
    : List (Resolved α) :=
  matchingFrom subject grants [] causes

/-- The loop variables of the chain walk. -/
structure Walk (α : Type) where
  g : Resolved α
  childEffect : UInt8
  childScope : List α
  pos : UInt64
  visited : List Bytes

variable (grants : GrantSet α) (anchors : List (List α)) (revoked : Revocations) (now : UInt64)

/-- The checks on the current grant, before its parent is resolved. -/
def checkGrant (w : Walk α) : Result Unit := do
  raiseIf (w.g.contentId ∈ w.visited) errChainBroken
  raiseIf (now < w.g.grant.notBefore) errGrantNotYetValid
  raiseIf (now > w.g.grant.notAfter) errGrantExpired
  raiseIf (revokedAt revoked w.g.contentId now) errGrantRevoked
  raiseIf (authorizes w.g.grant.effectCap w.childEffect = false) errCapExceedsParent
  raiseIf (scopeContained slash w.childScope w.g.grant.scope = false) errCapExceedsParent
  raiseIf (w.pos > w.g.grant.maxDepth) errDelegationDepthExceeded

/-- One round of the walk: `none` when it ends at a trusted root, and the loop variables of the
next round otherwise.
-/
def walkStep (w : Walk α) : Result (Option (Walk α)) := do
  checkGrant slash revoked now w
  match matchingCauses w.g.causes w.g.issuer grants with
  | [] => do
      raiseIf (w.g.issuer ∉ anchors) errUntrustedChainRoot
      return none
  | [p] => do
      raiseIf (p.grant.maxDepth = 0 ∨ w.g.grant.maxDepth ≥ p.grant.maxDepth)
        errDelegationDepthExceeded
      return some {
        g := p, childEffect := w.g.grant.effectCap, childScope := w.g.grant.scope,
        pos := w.pos + 1, visited := w.g.contentId :: w.visited
      }
  | _ => throw errChainBroken

/-- The unique leaf grant among the action's causes. -/
def locateLeaf (action : Action α) (grants : GrantSet α) : Result (Resolved α) :=
  match matchingCauses action.causes action.signer grants with
  | [] => throw errEffectNotAuthorized
  | [leaf] => return leaf
  | _ => throw errChainBroken

end Strings

/-- The loop variables at the leaf grant. -/
def Walk.start (action : Action α) (leaf : Resolved α) : Walk α :=
  { g := leaf, childEffect := action.effect, childScope := action.scope, pos := 0,
    visited := [] }

/-- The content ids of the grants of a set. -/
def GrantSet.ids (grants : GrantSet α) : List Bytes := grants.entries.map (·.2.contentId)

section Ending

variable [DecidableEq α] {slash : α} {grants : GrantSet α} {anchors : List (List α)}
  {revoked : Revocations} {now : UInt64}

/-- Every match is a grant of the set, by induction over the causes. -/
theorem mem_ids_of_mem_matchingFrom {subject : List α} {seen causes : List Bytes} {r : Resolved α}
    (member : r ∈ matchingFrom subject grants seen causes) : r.contentId ∈ grants.ids := by
  induction causes generalizing seen with
  | nil => cases member
  | cons c rest ih =>
      rw [matchingFrom] at member
      split at member
      · exact ih member
      · split at member
        · rename_i g found
          split at member
          · rcases List.mem_cons.mp member with rfl | later
            · exact List.mem_map.mpr ⟨⟨c, r⟩, List.of_mem_dlookup found, rfl⟩
            · exact ih later
          · exact ih member
        · exact ih member

/-- A further round starts at a matching parent of a grant that passed its checks, and the parent
admits more hops below it.
-/
theorem walkStep_eq_some {w next : Walk α}
    (walked : walkStep slash grants anchors revoked now w = .ok (some next))
    : checkGrant slash revoked now w = .ok ()
      ∧ ∃ p, matchingCauses w.g.causes w.g.issuer grants = [p]
        ∧ w.g.grant.maxDepth < p.grant.maxDepth
        ∧ next = { g := p, childEffect := w.g.grant.effectCap, childScope := w.g.grant.scope,
                   pos := w.pos + 1, visited := w.g.contentId :: w.visited } := by
  simp only [walkStep, bind_eq_ok] at walked
  obtain ⟨_, checked, walked⟩ := walked
  refine ⟨checked, ?_⟩
  split at walked
  · simp [bind_eq_ok] at walked
  · rename_i p parents
    simp only [bind_eq_ok, raiseIf_eq_ok, exists_const, pure_eq_ok, Except.ok.injEq,
      Option.some.injEq, not_or, ge_iff_le, UInt64.not_le] at walked
    exact ⟨p, parents, walked.1.2, walked.2.symm⟩
  · cases walked

/-- A located leaf is among the grants that match the action. -/
theorem locateLeaf_eq_ok {action : Action α} {leaf : Resolved α}
    (located : locateLeaf action grants = .ok leaf)
    : leaf ∈ matchingCauses action.causes action.signer grants := by
  unfold locateLeaf at located
  split at located
  · cases located
  · rename_i leaf' matched
    obtain rfl := Except.ok.inj located
    simp [matched]
  · cases located

/-- From a leaf grant the walk ends, since each round visits another grant of the set. -/
theorem loopFor_start_isSome {action : Action α} {leaf : Resolved α}
    (located : locateLeaf action grants = .ok leaf)
    : (loopFor (walkStep slash grants anchors revoked now) (grants.entries.length + 1)
        (.start action leaf)).isSome := by
  apply @loopFor_isSome _ _ _ _ (fun w => w.g.contentId) (fun w => w.visited) grants.ids
  · intro w next walked
    obtain ⟨checked, p, parents, -, rfl⟩ := walkStep_eq_some walked
    simp only [checkGrant, bind_eq_ok, raiseIf_eq_ok, exists_const] at checked
    have found : p ∈ matchingCauses w.g.causes w.g.issuer grants := by simp [parents]
    exact ⟨checked.1, rfl, mem_ids_of_mem_matchingFrom found⟩
  · exact mem_ids_of_mem_matchingFrom (locateLeaf_eq_ok located)
  · exact List.nodup_nil
  · exact List.nil_subset _
  · rw [GrantSet.ids, List.length_map]
    omega

end Ending

/-- `VerifyChain` and `verify_chain`. One round more than there are grants always reaches a
verdict.
-/
def verifyChain [DecidableEq α] (slash : α) (action : Action α) (grants : GrantSet α)
    (anchors : List (List α)) (revoked : Revocations) (now : UInt64) : Result Unit :=
  match located : locateLeaf action grants with
  | .error stop => .error stop
  | .ok leaf =>
      (loopFor (walkStep slash grants anchors revoked now) (grants.entries.length + 1)
        (.start action leaf)).get (loopFor_start_isSome located)

end Naalp.Native.Delegation

/-! The delegation grant objects of `impl/go/delegation/delegation.go`. A Go string is the list
of its octets.
-/

namespace Naalp.Go

open Naalp.Foundation
open Naalp.Python.Cbor (Value)

namespace Identity

/-- `SignerID`; the text has ASCII characters only. -/
def signerID (alg : Int) (pubkey : Bytes) : Result Bytes := do
  let some mc := Python.Identity.multicodec alg | throw Native.Delegation.errUnknownAlg
  return (multihashId (uvarint mc ++ pubkey)).flatMap String.utf8EncodeChar

end Identity

namespace Delegation

open Naalp.Native.Delegation

/-- The loop variables of `GrantFromBody`: the grant, zero at first, and the fields seen. -/
structure GrantRead where
  g : Grant UInt8 := ⟨[], 0, 0, 0, 0, []⟩
  seen : List Int := []

def GrantRead.readPair (state : GrantRead) : Value × Value → Result GrantRead
  | (.u k, v) => do
      raiseIf (k < 1 ∨ k > 6) errChainBroken
      let g ← readField state.g k v
      return { g, seen := k :: state.seen }
  | _ => throw errChainBroken
where
  /-- The `switch` on the field number. -/
  readField (g : Grant UInt8) : Int → Value → Result (Grant UInt8)
    | 1, .t s => return { g with subject := s.octets }
    | 2, .u u => do
        raiseIf (u > 3) errChainBroken
        return { g with effectCap := UInt8.ofNat u.toNat }
    | 3, .u u => return { g with maxDepth := UInt64.ofNat u.toNat }
    | 4, .u u => return { g with notBefore := UInt64.ofNat u.toNat }
    | 5, .u u => return { g with notAfter := UInt64.ofNat u.toNat }
    | 6, .t s => return { g with scope := s.octets }
    | _, _ => throw errChainBroken

def grantFromBody : Value → Result (Grant UInt8)
  | .m pairs => do
      let read ← pairs.foldlM GrantRead.readPair {}
      raiseIf (¬ (1 ∈ read.seen ∧ 2 ∈ read.seen ∧ 3 ∈ read.seen ∧ 4 ∈ read.seen ∧ 5 ∈ read.seen))
        errChainBroken
      return read.g
  | _ => throw errChainBroken

def composedKindValidator (channel kind : Int) : Bool :=
  Channels.kindValidator channel kind || kindValidator channel kind

def verifyGrantObject (lib : Cose.SignatureLibrary) (profile : Int) (v : Cose.Verifier)
    (pubkey signedObj : Bytes) : Result (Resolved UInt8) := do
  let o ← Envelope.verify lib profile v (some composedKindValidator) (fun _ => false) signedObj
  raiseIf (o.channel ≠ channelCapability ∨ o.kind ≠ kindDelegationGrant ∨ o.tier ≠ tier)
    errChainBroken
  raiseIf (o.effect ≠ grantEffect) errChainBroken
  let issuer ← Identity.signerID v.alg pubkey
  raiseIf (o.signer ≠ issuer) errSignerMismatch
  let g ← grantFromBody o.body
  return { contentId := o.id, issuer, grant := g, causes := o.causes }

def slash : UInt8 := 0x2F

def verifyChain : Action UInt8 → GrantSet UInt8 → (anchors : List Bytes) → Revocations → UInt64
    → Result Unit :=
  Native.Delegation.verifyChain slash

end Delegation

end Naalp.Go

/-! The delegation grant objects of `impl/rust/src/delegation.rs`. The channel registry lists
the kinds of the Go one.
-/

namespace Naalp.Rust

open Naalp.Foundation
open Naalp.Go (Stop Result)
open Naalp.Python.Cbor (Value)

namespace Identity

/-- `signer_id`. -/
def signerId (alg : Int) (pubkey : Bytes) : Result (List Char) := do
  let some mc := Python.Identity.multicodec alg | throw Native.Delegation.errUnknownAlg
  return multihashId (uvarint mc ++ pubkey)

end Identity

/-- `pub_key`: the octets of the verifying key. -/
def Cose.Verifier.pubKey : Cose.Verifier → Bytes
  | .mldsa65 pk => pk.bytes
  | .mldsa87 pk => pk.bytes
  | .ed25519 vk => vk.bytes
  | .composite ml65 ed => ml65.bytes ++ ed.bytes

namespace Delegation

open Naalp.Native.Delegation

/-- The loop variables of `grant_from_body`. -/
structure GrantFields where
  subject : Option (List Char) := none
  effectCap : Option UInt8 := none
  maxDepth : Option UInt64 := none
  notBefore : Option UInt64 := none
  notAfter : Option UInt64 := none
  scope : List Char := []

def GrantFields.readPair (g : GrantFields) : Value × Value → Result GrantFields
  | (.u 1, .t s) => return { g with subject := some s.chars }
  | (.u 2, .u u) =>
      if u ≤ 3 then return { g with effectCap := some (UInt8.ofNat u.toNat) }
      else throw errChainBroken
  | (.u 3, .u u) => return { g with maxDepth := some (UInt64.ofNat u.toNat) }
  | (.u 4, .u u) => return { g with notBefore := some (UInt64.ofNat u.toNat) }
  | (.u 5, .u u) => return { g with notAfter := some (UInt64.ofNat u.toNat) }
  | (.u 6, .t s) => return { g with scope := s.chars }
  | _ => throw errChainBroken

def GrantFields.finish : GrantFields → Result (Grant Char)
  | ⟨some subject, some effectCap, some maxDepth, some notBefore, some notAfter, scope⟩ =>
      return { subject, effectCap, maxDepth, notBefore, notAfter, scope }
  | _ => throw errChainBroken

def grantFromBody : Value → Result (Grant Char)
  | .m pairs => do
      let read ← pairs.foldlM GrantFields.readPair {}
      read.finish
  | _ => throw errChainBroken

def composedKindValidator (channel kind : Int) : Bool :=
  Go.Channels.kindValidator channel kind || kindValidator channel kind

def verifyGrantObject (valueSize : Nat) (lib : Cose.SignatureLibrary) (profile : UInt32)
    (v : Cose.Verifier) (pubkey signedObj : Bytes) : Result (Resolved Char) := do
  let o ← Envelope.verify valueSize lib profile v composedKindValidator [] signedObj
  raiseIf (o.channel ≠ channelCapability ∨ o.kind ≠ kindDelegationGrant ∨ o.tier ≠ tier)
    errChainBroken
  raiseIf (o.effect ≠ grantEffect) errChainBroken
  let issuer ← Identity.signerId v.alg pubkey
  raiseIf (o.signer ≠ Channels.asBytes issuer) errSignerMismatch
  let g ← grantFromBody o.body
  return { contentId := o.id, issuer, grant := g, causes := o.causes }

def verifyChain : Action Char → GrantSet Char → (anchors : List (List Char)) → Revocations
    → UInt64 → Result Unit :=
  Native.Delegation.verifyChain '/'

end Delegation

end Naalp.Rust
