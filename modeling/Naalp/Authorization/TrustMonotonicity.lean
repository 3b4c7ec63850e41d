import Naalp.Authorization.DelegationChains
import Naalp.Authorization.WalkerAgreement

/-! Delegation verdicts are monotone in what is trusted. The parents of a walk are resolved among
the causes of the grants that it visits, so a grant set that has the same grants under those causes
leads it along the same chain.
-/

namespace Naalp.Python.Delegation

open Naalp.Foundation

-----------------------------------------------------------------------------------------
-- The chain of an action
-----------------------------------------------------------------------------------------

/-- The grants that a walk from the action can visit: the only leaf, and the only parent of a grant
that it visits.
-/
inductive OnChain (action : Action) (grants : GrantSet) : Resolved → Prop
  | leaf {g : Resolved} (located : matchingCauses action.causes action.signer grants = [g])
    : OnChain action grants g
  | parent {g p : Resolved} (below : OnChain action grants g)
    (resolved : matchingCauses g.causes g.issuer grants = [p])
    : OnChain action grants p

/-- The sets have the same grants under every cause of the action and of the grants on its chain. -/
structure SameNamed (action : Action) (grants grants' : GrantSet) : Prop where
  own : ∀ c ∈ action.causes, grants'.lookup c = grants.lookup c
  chain : ∀ g, OnChain action grants g → ∀ c ∈ g.causes, grants'.lookup c = grants.lookup c

/-- Every revocation of the second map is one of the first, at the same position or an earlier one.
-/
def Laxer (revoked revoked' : Revocations) : Prop :=
  ∀ cid p', revoked'.lookup cid = some p' → ∃ p, revoked.lookup cid = some p ∧ p ≤ p'

section Chain

variable {action : Action} {grants grants' : GrantSet} {anchors anchors' : List PyStr}
  {revoked revoked' : Revocations} {now : Int}

/-- A leaf is located exactly when one grant alone matches the action. -/
theorem locateLeaf_eq_ok_iff {leaf : Resolved}
    : locateLeaf action grants = .ok leaf
      ↔ matchingCauses action.causes action.signer grants = [leaf] := by
  unfold locateLeaf
  split
  · rename_i none
    simp [none]
  · rename_i only
    simp [only]
  · rename_i several
    constructor
    · intro located
      cases located
    · intro only
      exact (several leaf only).elim

/-- A verdict is reached after some number of rounds from the leaf.
Witness: the loop of the code is given enough rounds, and its verdict does not depend on how
many it has.
-/
theorem verifyChain_eq_ok
    : verifyChain action grants anchors revoked now = .ok ()
      ↔ ∃ leaf rounds, matchingCauses action.causes action.signer grants = [leaf]
        ∧ loopFor (walkStep grants anchors revoked now) rounds (.start action leaf)
          = some (.ok ()) := by
  have verdict := some_verifyChain action grants anchors revoked now
  cases located : locateLeaf action grants with
  | error err =>
      rw [located] at verdict
      rw [Option.some.inj verdict]
      constructor
      · intro accepted
        cases accepted
      · rintro ⟨leaf, rounds, only, -⟩
        rw [locateLeaf_eq_ok_iff.mpr only] at located
        cases located
  | ok leaf =>
      rw [located] at verdict
      have only := locateLeaf_eq_ok_iff.mp located
      constructor
      · intro accepted
        rw [accepted] at verdict
        exact ⟨leaf, _, only, verdict.symm⟩
      · rintro ⟨leaf', rounds, only', through⟩
        obtain rfl := List.head_eq_of_cons_eq (only.symm.trans only')
        exact loopFor_unique verdict.symm through

theorem matchingFrom_congr {subject : PyStr} {seen causes : List Bytes}
    (same : ∀ c ∈ causes, grants'.lookup c = grants.lookup c)
    : matchingFrom subject grants' seen causes = matchingFrom subject grants seen causes := by
  induction causes generalizing seen with
  | nil => rfl
  | cons c rest ih =>
      obtain ⟨here, later⟩ := List.forall_mem_cons.mp same
      simp only [matchingFrom, here, ih later]

theorem SameNamed.parents {g : Resolved} (same : SameNamed action grants grants')
    (visited : OnChain action grants g)
    : matchingCauses g.causes g.issuer grants' = matchingCauses g.causes g.issuer grants :=
  matchingFrom_congr (same.chain g visited)

/-- What is not revoked under some revocations is not revoked under laxer ones. -/
theorem Laxer.revokedAt {cid : Bytes} (laxer : Laxer revoked revoked')
    (unrevoked : revokedAt revoked cid now = false)
    : revokedAt revoked' cid now = false := by
  unfold Delegation.revokedAt at unrevoked ⊢
  split
  · rename_i p' found'
    obtain ⟨p, found, earlier⟩ := laxer cid p' found'
    simp only [found, decide_eq_false_iff_not, not_le] at unrevoked ⊢
    omega
  · rfl

theorem Laxer.checkGrant {w : Walk} (laxer : Laxer revoked revoked')
    (checked : checkGrant revoked now w = .ok ())
    : checkGrant revoked' now w = .ok () := by
  simp only [Delegation.checkGrant, bind_eq_ok, raiseIf_eq_ok, exists_const,
    Bool.not_eq_true] at checked ⊢
  obtain ⟨unvisited, started, unexpired, unrevoked, rest⟩ := checked
  exact ⟨unvisited, started, unexpired, laxer.revokedAt unrevoked, rest⟩

/-- A round of the walk goes through under more anchors and fewer revocations. -/
theorem walkStep_laxer {w : Walk} {next : Option Walk} (same : SameNamed action grants grants')
    (more : anchors ⊆ anchors') (laxer : Laxer revoked revoked')
    (visited : OnChain action grants w.g)
    (walked : walkStep grants anchors revoked now w = .ok next)
    : walkStep grants' anchors' revoked' now w = .ok next := by
  simp only [walkStep, bind_eq_ok] at walked ⊢
  obtain ⟨_, checked, walked⟩ := walked
  refine ⟨_, laxer.checkGrant checked, ?_⟩
  rw [same.parents visited]
  split at walked
  · simp only [bind_eq_ok, raiseIf_eq_ok, exists_const, not_not] at walked ⊢
    exact ⟨more walked.1, walked.2⟩
  · exact walked
  · exact walked

/-- What is trusted more is accepted still: the walk takes the same rounds. -/
theorem verifyChain_laxer (same : SameNamed action grants grants') (more : anchors ⊆ anchors')
    (laxer : Laxer revoked revoked')
    (accepted : verifyChain action grants anchors revoked now = .ok ())
    : verifyChain action grants' anchors' revoked' now = .ok () := by
  obtain ⟨leaf, rounds, only, through⟩ := verifyChain_eq_ok.mp accepted
  refine verifyChain_eq_ok.mpr ⟨leaf, rounds, (matchingFrom_congr same.own).trans only, ?_⟩
  refine @loopFor_simulates _ _ _ _ _ (fun w => OnChain action grants w.g) ?_ ?_ _ _
    (.leaf only) through
  · intro w next visited walked
    exact walkStep_laxer same more laxer visited walked
  · intro w later visited walked
    obtain ⟨-, p, parents, -, rfl⟩ := walkStep_eq_some walked
    exact .parent visited parents

end Chain

-----------------------------------------------------------------------------------------
-- Changes of the trust inputs
-----------------------------------------------------------------------------------------

section Changes

variable {action : Action} {grants : GrantSet} {revoked : Revocations} {cid : Bytes} {p : Int}

theorem SameNamed.rfl : SameNamed action grants grants :=
  ⟨fun _ _ => .refl _, fun _ _ _ _ => .refl _⟩

/-- A grant that no cause names may be added. -/
theorem sameNamed_insert {key : Bytes} {r : Resolved} (unnamed : key ∉ action.causes)
    (unnamedAbove : ∀ g, OnChain action grants g → key ∉ g.causes)
    : SameNamed action grants (grants.insert key r) where
  own _ named := AList.lookup_insert_ne fun same => unnamed (same ▸ named)
  chain g visited _ named := AList.lookup_insert_ne fun same =>
    unnamedAbove g visited (same ▸ named)

theorem Laxer.rfl : Laxer revoked revoked := fun _ p' found => ⟨p', found, Int.le_refl p'⟩

theorem laxer_erase : Laxer revoked (revoked.erase cid) := by
  intro other p' found
  by_cases same : other = cid
  · rw [same, AList.lookup_erase] at found
    cases found
  · rw [AList.lookup_erase_ne same] at found
    exact ⟨p', found, Int.le_refl p'⟩

/-- A revocation may be moved to a later position. -/
theorem laxer_raise {earlier : Int} (present : revoked.lookup cid = some earlier)
    (later : earlier ≤ p)
    : Laxer revoked (revoked.insert cid p) := by
  intro other p' found
  by_cases same : other = cid
  · rw [same, AList.lookup_insert] at found
    obtain rfl := Option.some.inj found
    exact ⟨earlier, same ▸ present, later⟩
  · rw [AList.lookup_insert_ne same] at found
    exact ⟨p', found, Int.le_refl p'⟩

/-- Conversely a revocation is added, or moved to an earlier position. -/
theorem laxer_of_insert (later : ∀ p', revoked.lookup cid = some p' → p ≤ p')
    : Laxer (revoked.insert cid p) revoked := by
  intro other p' found
  by_cases same : other = cid
  · exact ⟨p, same ▸ AList.lookup_insert revoked, later p' (same ▸ found)⟩
  · exact ⟨p', (AList.lookup_insert_ne same).trans found, Int.le_refl p'⟩

end Changes

/-- A chain that is accepted is accepted still with more anchors, with fewer or later revocations
and with other grants under causes that neither the action nor a grant of its chain names. One that
is refused is refused still with fewer anchors and with more or earlier revocations.
-/
theorem verifyChain_monotone (action : Action) (grants : GrantSet) (anchors : List PyStr)
    (revoked : Revocations) (now : Int)
    : (verifyChain action grants anchors revoked now = .ok ()
        → ∀ grants' anchors' revoked', SameNamed action grants grants' → anchors ⊆ anchors'
          → Laxer revoked revoked'
          → verifyChain action grants' anchors' revoked' now = .ok ())
      ∧ (verifyChain action grants anchors revoked now ≠ .ok ()
        → ∀ anchors' revoked', anchors' ⊆ anchors → Laxer revoked' revoked
          → verifyChain action grants anchors' revoked' now ≠ .ok ()) := by
  constructor
  · intro accepted grants' anchors' revoked' same more laxer
    exact verifyChain_laxer same more laxer accepted
  · intro refused anchors' revoked' fewer laxer accepted
    exact refused (verifyChain_laxer .rfl fewer laxer accepted)

/-- The leaf of the sample is revoked later on, and a grant besides it already now. -/
def sampleRevocations : Revocations := ((∅ : Revocations).insert [1] 7).insert [3] 4

/-- The walk from the sample action visits its two grants only, by induction on how a grant is
visited.
-/
theorem onChain_sample {g : Resolved} (visited : OnChain sampleAction sampleGrants g)
    : g.contentId = [1] ∧ g.causes = [[2]] ∨ g.contentId = [2] ∧ g.causes = [] := by
  induction visited with
  | leaf located =>
      obtain rfl := List.head_eq_of_cons_eq located
      exact .inl ⟨rfl, rfl⟩
  | @parent g p below resolved ih =>
      have member : p ∈ matchingCauses g.causes g.issuer sampleGrants := by simp [resolved]
      obtain ⟨c, named, found, -⟩ := mem_matchingFrom member
      rcases ih with ⟨-, causes⟩ | ⟨-, causes⟩
      · rw [causes, List.mem_singleton] at named
        subst named
        obtain rfl := Option.some.inj found
        exact .inr ⟨rfl, rfl⟩
      · rw [causes] at named
        cases named

/-- The two hops are accepted before the leaf is revoked, and still with another anchor, another
grant, a revocation less and one later; after it they are refused, and still without anchors and
with the revocation earlier.
-/
theorem verifyChain_monotone_two_hops
    : (verifyChain sampleAction
        (sampleGrants.insert [9] ⟨[9], .lit ['q'], ⟨.lit ['a'], 4, 9, 0, 9, []⟩, []⟩)
        [.lit ['q'], .lit ['r']] ((sampleRevocations.erase [3]).insert [1] 8) 5 = .ok ())
      ∧ verifyChain sampleAction sampleGrants [] (sampleRevocations.insert [1] 6) 7 ≠ .ok () := by
  constructor
  · refine (verifyChain_monotone sampleAction sampleGrants [.lit ['r']] sampleRevocations 5).1 rfl
      _ _ _ ?_ ?_ ?_
    · apply sameNamed_insert
      · simp [sampleAction]
      · intro g visited
        rcases onChain_sample visited with ⟨-, causes⟩ | ⟨-, causes⟩ <;> simp [causes]
    · simp
    · intro cid p' found
      obtain ⟨middle, kept, earlier⟩ := @laxer_raise _ _ _ 7 rfl (by decide) cid p' found
      obtain ⟨p, present, earliest⟩ := laxer_erase cid middle kept
      exact ⟨p, present, earliest.trans earlier⟩
  · refine (verifyChain_monotone sampleAction sampleGrants [.lit ['r']] sampleRevocations 7).2 ?_
      _ _ (List.nil_subset _) (laxer_of_insert ?_)
    · intro accepted
      cases accepted
    · intro p' found
      obtain rfl := Option.some.inj found
      decide

end Naalp.Python.Delegation
