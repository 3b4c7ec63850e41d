import Naalp.Python.Delegation

/-! Soundness of delegation-chain verification.
Each round compares a grant with its neighbour only; the bounds hold end to end because the
effect order and the scope rule are transitive.
-/

namespace Naalp.Python.Delegation

open Naalp.Foundation

/-- The path-prefix rule without its order of tests. -/
theorem scopeContained_iff {child parent : PyStr}
    : scopeContained child parent
      ↔ parent = [] ∨ child = parent ∨ parent ++ [PyChar.scalar '/'] <+: child := by
  unfold scopeContained
  split_ifs with noParent noChild same
  · simp [noParent]
  · subst noChild
    simp [noParent, Ne.symm noParent]
  · simp [same]
  · simp [noParent, same]

/-- The path-prefix rule is transitive, also through empty scopes. -/
theorem scopeContained_trans {child middle parent : PyStr}
    (lower : scopeContained child middle) (upper : scopeContained middle parent)
    : scopeContained child parent := by
  rw [scopeContained_iff] at lower upper ⊢
  rcases upper with unconstrained | rfl | upper
  · exact .inl unconstrained
  · exact lower
  · rcases lower with rfl | rfl | lower
    · simp at upper
    · exact .inr (.inr upper)
    · exact .inr (.inr (upper.trans ((List.prefix_append _ _).trans lower)))

/-- What the checks of one round establish about the current grant. -/
structure GrantHolds (revoked : Revocations) (now : Int) (w : Walk) : Prop where
  unvisited : w.g.contentId ∉ w.visited
  started : w.g.grant.notBefore ≤ now
  unexpired : now ≤ w.g.grant.notAfter
  unrevoked : revokedAt revoked w.g.contentId now = false
  capped : w.childEffect ≤ w.g.grant.effectCap
  contained : scopeContained w.childScope w.g.grant.scope
  shallow : w.pos ≤ w.g.grant.maxDepth

theorem checkGrant_eq_ok {revoked : Revocations} {now : Int} {w : Walk} {done : Unit}
    (checked : checkGrant revoked now w = .ok done)
    : GrantHolds revoked now w := by
  simp only [checkGrant, bind_eq_ok, raiseIf_eq_ok, exists_const, not_lt, Bool.not_eq_true,
    Bool.not_eq_false] at checked
  obtain ⟨unvisited, started, unexpired, unrevoked, authorized, contained, shallow⟩ := checked
  have capped : w.childEffect ≤ w.g.grant.effectCap := by
    simpa [Policy.authorizes] using authorized
  exact ⟨unvisited, started, unexpired, unrevoked, capped, contained, shallow⟩

section Walks

variable {grants : GrantSet} {anchors : List PyStr} {revoked : Revocations} {now : Int}

/-- A round that ends the walk passed its checks at a grant of a trusted issuer. -/
theorem walkStep_eq_none {w : Walk}
    (walked : walkStep grants anchors revoked now w = .ok none)
    : GrantHolds revoked now w ∧ w.g.issuer ∈ anchors := by
  simp only [walkStep, bind_eq_ok] at walked
  obtain ⟨_, checked, walked⟩ := walked
  refine ⟨checkGrant_eq_ok checked, ?_⟩
  split at walked
  · simp only [bind_eq_ok, raiseIf_eq_ok, exists_const, not_not] at walked
    exact walked.1
  · simp [bind_eq_ok] at walked
  · cases walked

/-- The parent of a grant: named in its causes, held by its issuer, and of larger depth. -/
def Delegates (parent child : Resolved) : Prop :=
  parent.contentId ∈ child.causes ∧ parent.grant.subject = child.issuer
  ∧ child.grant.maxDepth < parent.grant.maxDepth

/-- The grants from the current one of a walk up to its root, with what holds of all of them.
-/
structure WalkedChain (grants : GrantSet) (anchors : List PyStr) (revoked : Revocations)
    (now : Int) (w : Walk) (rest : List Resolved) : Prop where
  linked : (w.g :: rest).IsChain (fun child parent => Delegates parent child)
  root : ∃ root, (w.g :: rest).getLast? = some root ∧ root.issuer ∈ anchors
    ∧ w.pos + rest.length ≤ root.grant.maxDepth
  members : ∀ g ∈ rest, grants.lookup g.contentId = some g
  distinct : ((w.g :: rest).map (·.contentId)).Nodup
  unvisited : ∀ g ∈ w.g :: rest, g.contentId ∉ w.visited
  valid : ∀ g ∈ w.g :: rest, g.grant.notBefore ≤ now ∧ now ≤ g.grant.notAfter
    ∧ revokedAt revoked g.contentId now = false
  capped : ∀ g ∈ w.g :: rest, w.childEffect ≤ g.grant.effectCap
  contained : ∀ g ∈ w.g :: rest, scopeContained w.childScope g.grant.scope

/-- A walk that ends here is a chain of one grant. -/
theorem GrantHolds.walkedChain {w : Walk} (holds : GrantHolds revoked now w)
    (anchored : w.g.issuer ∈ anchors)
    : WalkedChain grants anchors revoked now w [] where
  linked := .singleton _
  root := ⟨w.g, rfl, anchored, by simpa using holds.shallow⟩
  members := by simp
  distinct := by simp
  unvisited := by simpa using holds.unvisited
  valid := by simpa using ⟨holds.started, holds.unexpired, holds.unrevoked⟩
  capped := by simpa using holds.capped
  contained := by simpa using holds.contained

/-- One round in front of a walked chain. The bounds of the later rounds are relative to the
current grant and reach the round's own child by transitivity.
-/
theorem WalkedChain.cons {w : Walk} {p : Resolved} {rest : List Resolved}
    (holds : GrantHolds revoked now w) (delegates : Delegates p w.g)
    (found : grants.lookup p.contentId = some p)
    (chain : WalkedChain grants anchors revoked now
      { g := p, childEffect := w.g.grant.effectCap, childScope := w.g.grant.scope,
        pos := w.pos + 1, visited := w.g.contentId :: w.visited } rest)
    : WalkedChain grants anchors revoked now w (p :: rest) where
  linked := List.isChain_cons_cons.mpr ⟨delegates, chain.linked⟩
  root := by
    obtain ⟨root, last, anchored, bound⟩ := chain.root
    have depth : w.pos + 1 + rest.length ≤ root.grant.maxDepth := bound
    refine ⟨root, by simpa using last, anchored, ?_⟩
    rw [List.length_cons, Nat.cast_succ]
    omega
  members := List.forall_mem_cons.mpr ⟨found, chain.members⟩
  distinct := by
    refine List.nodup_cons.mpr ⟨?_, chain.distinct⟩
    intro again
    obtain ⟨g, member, same⟩ := List.mem_map.mp again
    exact chain.unvisited g member (List.mem_cons.mpr (.inl same))
  unvisited := by
    refine List.forall_mem_cons.mpr ⟨holds.unvisited, ?_⟩
    intro g member visited
    exact chain.unvisited g member (List.mem_cons_of_mem _ visited)
  valid := List.forall_mem_cons.mpr
    ⟨⟨holds.started, holds.unexpired, holds.unrevoked⟩, chain.valid⟩
  capped := List.forall_mem_cons.mpr
    ⟨holds.capped, fun g member => holds.capped.trans (chain.capped g member)⟩
  contained := List.forall_mem_cons.mpr
    ⟨holds.contained,
      fun g member => scopeContained_trans holds.contained (chain.contained g member)⟩

/-- An accepting walk leaves a walked chain, by induction on the rounds. -/
theorem walkFor_accepts {rounds : Nat} {w : Walk}
    (ownId : ∀ key r, grants.lookup key = some r → r.contentId = key)
    (accepted : walkFor grants anchors revoked now rounds w = some (.ok ()))
    : ∃ rest, WalkedChain grants anchors revoked now w rest := by
  induction rounds generalizing w with
  | zero => cases accepted
  | succ rounds ih =>
      rw [walkFor] at accepted
      split at accepted
      · cases Option.some.inj accepted
      · rename_i ended
        obtain ⟨holds, anchored⟩ := walkStep_eq_none ended
        exact ⟨[], holds.walkedChain anchored⟩
      · rename_i next walked
        obtain ⟨checked, p, parents, deeper, rfl⟩ := walkStep_eq_some walked
        obtain ⟨rest, chain⟩ := ih accepted
        have member : p ∈ matchingCauses w.g.causes w.g.issuer grants := by simp [parents]
        obtain ⟨c, named, found, subject⟩ := mem_matchingFrom member
        obtain rfl := ownId c p found
        have delegates : Delegates p w.g := ⟨named, subject, by omega⟩
        exact ⟨p :: rest, chain.cons (checkGrant_eq_ok checked) delegates found⟩

end Walks

/-- (AuthorizingChain action grants anchors revoked now chain) says that the grants, from leaf
to root, authorize the action end to end.
-/
structure AuthorizingChain (action : Action) (grants : GrantSet) (anchors : List PyStr)
    (revoked : Revocations) (now : Int) (chain : List Resolved) : Prop where
  leaf : ∃ leaf, chain.head? = some leaf ∧ leaf.contentId ∈ action.causes
    ∧ leaf.grant.subject = action.signer
  linked : chain.IsChain (fun child parent =>
    parent.contentId ∈ child.causes ∧ parent.grant.subject = child.issuer
    ∧ child.grant.maxDepth < parent.grant.maxDepth)
  root : ∃ root, chain.getLast? = some root ∧ root.issuer ∈ anchors
    ∧ (chain.length : Int) - 1 ≤ root.grant.maxDepth
  members : ∀ g ∈ chain, grants.lookup g.contentId = some g
  distinct : (chain.map (·.contentId)).Nodup
  valid : ∀ g ∈ chain, g.grant.notBefore ≤ now ∧ now ≤ g.grant.notAfter
    ∧ revokedAt revoked g.contentId now = false
  capped : ∀ g ∈ chain, action.effect ≤ g.grant.effectCap
  contained : ∀ g ∈ chain, scopeContained action.scope g.grant.scope

/-- For every grant set that stores each grant under its own content id, whatever its causes:
the walk from a located leaf ends within one round more than there are grants, and acceptance
means that a chain of distinct grants of the set authorizes the action.
Witness: no grant is visited twice, so the walk ends; a walk that accepts leaves behind the
grants that it visited, round by round.
-/
theorem verifyChain_sound {grants : GrantSet}
    (ownId : ∀ key r, grants.lookup key = some r → r.contentId = key)
    (action : Action) (anchors : List PyStr) (revoked : Revocations) (now : Int)
    : (∀ leaf, locateLeaf action grants = .ok leaf
        → ∃ verdict, walkFor grants anchors revoked now (grants.entries.length + 1)
            (.start action leaf) = some verdict
          ∧ verifyChain action grants anchors revoked now = verdict)
      ∧ (verifyChain action grants anchors revoked now = .ok ()
        → ∃ chain, AuthorizingChain action grants anchors revoked now chain) := by
  have verdict : ∀ leaf, locateLeaf action grants = .ok leaf
      → walkFor grants anchors revoked now (grants.entries.length + 1) (.start action leaf)
        = some (verifyChain action grants anchors revoked now) := by
    intro leaf located
    unfold verifyChain
    split
    · rename_i err refused
      rw [located] at refused
      cases refused
    · rename_i leaf' located'
      obtain rfl := Except.ok.inj (located.symm.trans located')
      exact (Option.some_get _).symm
  refine ⟨fun leaf located => ⟨_, verdict leaf located, rfl⟩, ?_⟩
  intro accepted
  cases located : locateLeaf action grants with
  | error err =>
      unfold verifyChain at accepted
      split at accepted
      · cases accepted
      · rename_i leaf' located'
        rw [located] at located'
        cases located'
  | ok leaf =>
      have walked := verdict leaf located
      rw [accepted] at walked
      obtain ⟨rest, chain⟩ := walkFor_accepts ownId walked
      obtain ⟨c, named, found, subject⟩ := mem_matchingFrom (locateLeaf_eq_ok located)
      obtain rfl := ownId c leaf found
      refine ⟨leaf :: rest, ?_⟩
      exact {
        leaf := ⟨leaf, rfl, named, subject⟩
        linked := chain.linked
        root := by
          obtain ⟨root, last, anchored, bound⟩ := chain.root
          have depth : (0 : Int) + rest.length ≤ root.grant.maxDepth := bound
          exact ⟨root, last, anchored, by rw [List.length_cons, Nat.cast_succ]; omega⟩
        members := List.forall_mem_cons.mpr ⟨found, chain.members⟩
        distinct := chain.distinct
        valid := chain.valid
        capped := chain.capped
        contained := chain.contained
      }

/-- A two-hop chain: the anchor `r` delegates to `b`, and `b` to `a`. -/
def sampleGrants : GrantSet :=
  ((∅ : GrantSet).insert [2] {
      contentId := [2], issuer := .lit ['r'], causes := []
      grant := { subject := .lit ['b'], effectCap := 3, maxDepth := 1, notBefore := 0,
                 notAfter := 9, scope := [] } }).insert [1] {
      contentId := [1], issuer := .lit ['b'], causes := [[2]]
      grant := { subject := .lit ['a'], effectCap := 2, maxDepth := 0, notBefore := 0,
                 notAfter := 9, scope := .lit ['x'] } }

def sampleAction : Action :=
  { signer := .lit ['a'], effect := 1, scope := .lit ['x', '/', 'y'], causes := [[1]] }

/-- Both sample grants are listed under their own content ids. -/
theorem sampleGrants_ownId (key : Bytes) (r : Resolved) (found : sampleGrants.lookup key = some r)
    : r.contentId = key := by
  have member : (⟨key, r⟩ : Sigma fun _ => Resolved) ∈ sampleGrants.entries :=
    List.of_mem_dlookup found
  rcases List.mem_cons.mp member with first | member
  · cases first
    rfl
  · obtain second := List.mem_singleton.mp member
    cases second
    rfl

/-- The theorem at a two-hop chain. -/
theorem verifyChain_sound_two_hops
    : ∃ chain, AuthorizingChain sampleAction sampleGrants [.lit ['r']] ∅ 5 chain :=
  (verifyChain_sound sampleGrants_ownId sampleAction [.lit ['r']] ∅ 5).2 rfl

end Naalp.Python.Delegation
