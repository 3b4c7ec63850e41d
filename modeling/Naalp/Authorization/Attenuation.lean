import Mathlib.Algebra.BigOperators.Associated
import Mathlib.Data.Finset.Insert
import Mathlib.Logic.Encodable.Basic
import Mathlib.Logic.Equiv.List
import Mathlib.Logic.Relation
import Mathlib.NumberTheory.PrimeCounting
import Mathlib.Order.Interval.Finset.Nat
import Naalp.Authorization.DelegationChains
import Naalp.Foundation.Runs

/-! The model of attenuation in `formal/monotone_attenuation.tla`, over delegation forests of every
size, and the accepted delegation chains as runs of it. The model checks neighbours only; every
grant is bounded by all of its ancestors.
-/

namespace Naalp.Authorization.Attenuation

open Naalp.Foundation

/-- A grant of the forest, with its ghost fields. The scopes may be of any type. -/
structure GrantRecord (σ : Type) where
  effectCap : Int
  scope : σ
  maxDepth : ℕ
  parent : ℕ
  ancestors : Finset ℕ
  depth : ℕ

structure ActionRecord (σ : Type) where
  effect : Int
  scope : σ
  leafGrant : ℕ

structure State (σ : Type) where
  grants : List (GrantRecord σ)
  actions : List (ActionRecord σ)

variable {σ : Type}

def init : State σ := { grants := [], actions := [] }

/-- Grant positions start from one. -/
def noGrant : ℕ := 0

def State.grant (s : State σ) : ℕ → Option (GrantRecord σ)
  | 0 => none
  | d + 1 => s.grants[d]?

def State.append (s : State σ) (g : GrantRecord σ) : State σ := { s with grants := s.grants ++ [g] }

/-- A grant without a parent; the effect classes are integers. -/
def addRootGrant (s : State σ) (cap : Int) (scope : σ) (depth : ℕ) : State σ :=
  s.append {
    effectCap := cap, scope, maxDepth := depth, parent := noGrant,
    ancestors := {s.grants.length + 1}, depth := 0 }

section Actions

variable (contained : σ → σ → Prop) [DecidableRel contained]

/-- A grant under an existing one: its effect and scope within the parent's, its declared depth
less.
-/
def addChildGrant (s : State σ) (cap : Int) (scope : σ) (depth pid : ℕ) : Option (State σ) :=
  match s.grant pid with
  | none => none
  | some p =>
      if cap ≤ p.effectCap ∧ contained scope p.scope ∧ depth < p.maxDepth then
        some (s.append {
          effectCap := cap, scope, maxDepth := depth, parent := pid,
          ancestors := insert (s.grants.length + 1) p.ancestors, depth := p.depth + 1 })
      else none

def addAction (s : State σ) (eff : Int) (scope : σ) (lg : ℕ) : Option (State σ) :=
  match s.grant lg with
  | none => none
  | some g =>
      if eff ≤ g.effectCap ∧ contained scope g.scope then
        some { s with actions := s.actions ++ [{ effect := eff, scope, leafGrant := lg }] }
      else none

/-- `Init` and `Next`. -/
def specification : Specification (State σ) where
  init s := s = init
  next s s' :=
    (∃ cap scope depth, s' = addRootGrant s cap scope depth)
    ∨ (∃ cap scope depth pid, addChildGrant contained s cap scope depth pid = some s')
    ∨ ∃ eff scope lg, addAction contained s eff scope lg = some s'

end Actions

/-- The grants and actions refer to grants that exist, declared depths fall at every hop, and the
ghost fields are those of the parent with the grant itself.
-/
structure GhostConsistency (s : State σ) : Prop where
  parents : ∀ {d g}, s.grant d = some g → g.parent = noGrant ∨ ∃ p, s.grant g.parent = some p
  leaves : ∀ act ∈ s.actions, ∃ g, s.grant act.leafGrant = some g
  perHopDeclaredDepth : ∀ {d g p}, s.grant d = some g → s.grant g.parent = some p
    → g.maxDepth < p.maxDepth
  ancestors : ∀ {d g}, s.grant d = some g
    → g.ancestors = insert d (((s.grant g.parent).map (·.ancestors)).getD ∅)
  depth : ∀ {d g}, s.grant d = some g
    → g.depth = ((s.grant g.parent).map (·.depth + 1)).getD 0

/-- What a grant or an action is held to by an ancestor. -/
structure Bounded (contained : σ → σ → Prop) (effect : Int) (scope : σ) (depth : ℕ)
    (anc : GrantRecord σ) : Prop where
  effect : effect ≤ anc.effectCap
  scope : contained scope anc.scope
  realizedDepth : (depth : Int) - anc.depth ≤ anc.maxDepth

/-- `Inv`: the ghost fields are consistent, and every grant and every action is bounded by all its
ancestors.
-/
structure Inv (contained : σ → σ → Prop) (s : State σ) : Prop where
  ghosts : GhostConsistency s
  grants : ∀ {d g anc a}, s.grant d = some g → anc ∈ g.ancestors → s.grant anc = some a
    → Bounded contained g.effectCap g.scope g.depth a
  actions : ∀ act ∈ s.actions, ∀ {g anc a}, s.grant act.leafGrant = some g → anc ∈ g.ancestors
    → s.grant anc = some a → Bounded contained act.effect act.scope g.depth a

-----------------------------------------------------------------------------------------
-- Ancestors
-----------------------------------------------------------------------------------------

section Ancestors

variable {s : State σ} {d anc : ℕ} {g a p : GrantRecord σ}

/-- A position is the parent of another. -/
def Parent (s : State σ) (d pid : ℕ) : Prop :=
  ∃ g, s.grant d = some g ∧ g.parent = pid ∧ ∃ p, s.grant pid = some p

/-- The ghost fields of a grant are those of a root, or follow from its parent's. -/
theorem GhostConsistency.cases (ghosts : GhostConsistency s) (found : s.grant d = some g)
    : (g.parent = noGrant ∧ g.ancestors = {d} ∧ g.depth = 0)
      ∨ ∃ p, s.grant g.parent = some p ∧ g.ancestors = insert d p.ancestors ∧ g.depth = p.depth + 1
        ∧ g.maxDepth < p.maxDepth := by
  have ancestors := ghosts.ancestors found
  have depth := ghosts.depth found
  rcases ghosts.parents found with root | ⟨p, held⟩
  · rw [root] at ancestors depth
    exact .inl ⟨root, ancestors, depth⟩
  · rw [held] at ancestors depth
    exact .inr ⟨p, held, ancestors, depth, ghosts.perHopDeclaredDepth found held⟩

/-- The ancestors are the positions that the parents lead to, by induction over the depth. -/
theorem GhostConsistency.mem_ancestors_iff (ghosts : GhostConsistency s)
    (found : s.grant d = some g)
    : anc ∈ g.ancestors ↔ Relation.ReflTransGen (Parent s) d anc := by
  induction depth : g.depth generalizing d g with
  | zero =>
      rcases ghosts.cases found with ⟨root, ancestors, -⟩ | ⟨p, -, -, deeper, -⟩
      · rw [ancestors, Finset.mem_singleton, Relation.ReflTransGen.cases_head_iff]
        refine ⟨fun same => .inl same.symm, ?_⟩
        rintro (same | ⟨pid, ⟨g', found', rfl, p, held⟩, -⟩)
        · exact same.symm
        · obtain rfl := Option.some.inj (found.symm.trans found')
          rw [root] at held
          cases held
      · omega
  | succ n ih =>
      rcases ghosts.cases found with ⟨-, -, shallow⟩ | ⟨p, held, ancestors, deeper, -⟩
      · omega
      · rw [ancestors, Finset.mem_insert, Relation.ReflTransGen.cases_head_iff, ih held (by omega)]
        constructor
        · rintro (same | above)
          · exact .inl same.symm
          · exact .inr ⟨g.parent, ⟨g, found, rfl, p, held⟩, above⟩
        · rintro (same | ⟨pid, ⟨g', found', rfl, -⟩, above⟩)
          · exact .inl same.symm
          · obtain rfl := Option.some.inj (found.symm.trans found')
            exact .inr above

/-- On the way down from an ancestor the depth grows by no more than the declared depth falls, by
induction over the way.
-/
theorem GhostConsistency.depth_le (ghosts : GhostConsistency s) (found : s.grant d = some g)
    (above : anc ∈ g.ancestors) (held : s.grant anc = some a)
    : g.depth + g.maxDepth ≤ a.depth + a.maxDepth := by
  have way := (ghosts.mem_ancestors_iff found).mp above
  induction way using Relation.ReflTransGen.head_induction_on generalizing g with
  | refl =>
      obtain rfl := Option.some.inj (found.symm.trans held)
      exact le_rfl
  | head parent way ih =>
      obtain ⟨g', found', rfl, p, parentHeld⟩ := parent
      obtain rfl := Option.some.inj (found.symm.trans found')
      have rest := ih parentHeld ((ghosts.mem_ancestors_iff parentHeld).mpr way)
      rcases ghosts.cases found with ⟨root, -⟩ | ⟨p', held', -, deeper, falls⟩
      · rw [root] at parentHeld
        cases parentHeld
      · obtain rfl := Option.some.inj (held'.symm.trans parentHeld)
        omega

end Ancestors

-----------------------------------------------------------------------------------------
-- What a step keeps
-----------------------------------------------------------------------------------------

section Steps

variable {contained : σ → σ → Prop} {s s' : State σ} {d : ℕ} {g : GrantRecord σ}

/-- Appending a grant adds one position and leaves the earlier ones as they are.
Witness: positions count from one, so the new grant stands one past the old length.
-/
theorem grant_append (s : State σ) (r : GrantRecord σ) (d : ℕ)
    : (s.append r).grant d = if d = s.grants.length + 1 then some r else s.grant d := by
  cases d with
  | zero => rfl
  | succ d =>
      simp only [State.append, State.grant, Nat.add_right_cancel_iff]
      by_cases last : d = s.grants.length
      · simp [last]
      · rw [if_neg last, List.getElem?_append]
        split
        · rfl
        · rw [List.getElem?_eq_none (by simp; omega), List.getElem?_eq_none (by omega)]

/-- The position of the next grant is free, and no grant has it for a parent. -/
theorem grant_length (s : State σ) : s.grant (s.grants.length + 1) = none :=
  List.getElem?_eq_none le_rfl

theorem ne_length_of_grant (found : s.grant d = some g) : d ≠ s.grants.length + 1 := by
  rintro rfl
  rw [grant_length] at found
  cases found

/-- A new grant that is a root, or fits under its parent. -/
def Fits (contained : σ → σ → Prop) (s : State σ) (r : GrantRecord σ) : Prop :=
  (r.parent = noGrant ∧ r.ancestors = {s.grants.length + 1} ∧ r.depth = 0)
  ∨ ∃ p, s.grant r.parent = some p ∧ r.ancestors = insert (s.grants.length + 1) p.ancestors
    ∧ r.depth = p.depth + 1 ∧ r.effectCap ≤ p.effectCap ∧ contained r.scope p.scope
    ∧ r.maxDepth < p.maxDepth

variable {r : GrantRecord σ}

/-- A grant in the forest after a new one: the new grant, or one from before. -/
theorem grant_append_cases (found : (s.append r).grant d = some g)
    : (d = s.grants.length + 1 ∧ g = r) ∨ s.grant d = some g := by
  rw [grant_append] at found
  split at found
  · rename_i last
    exact .inl ⟨last, (Option.some.inj found).symm⟩
  · exact .inr found

theorem grant_append_of_grant (found : s.grant d = some g) : (s.append r).grant d = some g := by
  rw [grant_append, if_neg (ne_length_of_grant found), found]

/-- The parent of an old grant is the same after a new one. -/
theorem GhostConsistency.parent_append (ghosts : GhostConsistency s) (found : s.grant d = some g)
    : (s.append r).grant g.parent = s.grant g.parent := by
  rcases ghosts.parents found with root | ⟨p, held⟩
  · rw [root]
    rfl
  · rw [held, grant_append_of_grant held]

theorem Fits.parent_append (fits : Fits contained s r)
    : (s.append r).grant r.parent = s.grant r.parent := by
  rcases fits with ⟨root, -⟩ | ⟨p, held, -⟩
  · rw [root]
    rfl
  · rw [held, grant_append_of_grant held]

/-- A grant that fits keeps the ghost fields consistent.
Witness: its ancestors are those of its parent and the parent itself, all of which stand before
it; the earlier grants are looked up as before.
-/
theorem Fits.ghosts (fits : Fits contained s r) (ghosts : GhostConsistency s)
    : GhostConsistency (s.append r) where
  parents := by
    intro d g found
    rcases grant_append_cases found with ⟨rfl, rfl⟩ | old
    · rcases fits with ⟨root, -⟩ | ⟨p, held, -⟩
      · exact .inl root
      · exact .inr ⟨p, grant_append_of_grant held⟩
    · rcases ghosts.parents old with root | ⟨p, held⟩
      · exact .inl root
      · exact .inr ⟨p, grant_append_of_grant held⟩
  leaves := by
    intro act member
    obtain ⟨g, found⟩ := ghosts.leaves act member
    exact ⟨g, grant_append_of_grant found⟩
  perHopDeclaredDepth := by
    intro d g p found held
    rcases grant_append_cases found with ⟨rfl, rfl⟩ | old
    · rw [fits.parent_append] at held
      rcases fits with ⟨root, -⟩ | ⟨p', held', -, -, -, -, falls⟩
      · rw [root] at held
        cases held
      · exact Option.some.inj (held'.symm.trans held) ▸ falls
    · rw [ghosts.parent_append old] at held
      exact ghosts.perHopDeclaredDepth old held
  ancestors := by
    intro d g found
    rcases grant_append_cases found with ⟨rfl, rfl⟩ | old
    · rw [fits.parent_append]
      rcases fits with ⟨root, ancestors, -⟩ | ⟨p, held, ancestors, -⟩
      · rw [root, ancestors]
        rfl
      · rw [held, ancestors]
        rfl
    · rw [ghosts.parent_append old]
      exact ghosts.ancestors old
  depth := by
    intro d g found
    rcases grant_append_cases found with ⟨rfl, rfl⟩ | old
    · rw [fits.parent_append]
      rcases fits with ⟨root, -, depth⟩ | ⟨p, held, -, depth, -⟩
      · rw [root, depth]
        rfl
      · rw [held, depth]
        rfl
    · rw [ghosts.parent_append old]
      exact ghosts.depth old

/-- An old grant has old ancestors, which are the positions of grants. -/
theorem GhostConsistency.ancestor_held (ghosts : GhostConsistency s) (found : s.grant d = some g)
    {anc : ℕ} (above : anc ∈ g.ancestors) : ∃ a, s.grant anc = some a := by
  have way := (ghosts.mem_ancestors_iff found).mp above
  rcases Relation.ReflTransGen.cases_tail way with same | ⟨_, -, _, -, -, held⟩
  · exact ⟨g, same ▸ found⟩
  · exact held

theorem GhostConsistency.old_ancestor (ghosts : GhostConsistency s) (found : s.grant d = some g)
    {anc : ℕ} {a : GrantRecord σ} (above : anc ∈ g.ancestors)
    (held : (s.append r).grant anc = some a) : s.grant anc = some a := by
  obtain ⟨a', held'⟩ := ghosts.ancestor_held found above
  rw [grant_append_of_grant held'] at held
  rw [held', held]

/-- What is bounded by its own grant is bounded by the grants that bound that one. -/
theorem Bounded.below [IsTrans σ contained] {effect : Int} {scope : σ} {depth : ℕ}
    {g a : GrantRecord σ}
    (bounded : Bounded contained g.effectCap g.scope g.depth a)
    (effects : effect ≤ g.effectCap) (scopes : contained scope g.scope)
    (depths : (depth : Int) - a.depth ≤ a.maxDepth) : Bounded contained effect scope depth a :=
  ⟨effects.trans bounded.effect, trans_of contained scopes bounded.scope, depths⟩

/-- A grant that fits keeps the invariant: it is compared with its parent only, and the parent's
ancestors bound the parent.
-/
theorem Fits.inv [IsPreorder σ contained] (fits : Fits contained s r) (inv : Inv contained s)
    : Inv contained (s.append r) := by
  have ghosts := fits.ghosts inv.ghosts
  refine ⟨ghosts, ?_, ?_⟩
  · intro d g anc a found above held
    have depths : (g.depth : Int) - a.depth ≤ a.maxDepth := by
      have below := ghosts.depth_le found above held
      omega
    rcases grant_append_cases found with ⟨rfl, rfl⟩ | old
    · by_cases self : anc = s.grants.length + 1
      · subst self
        obtain rfl := Option.some.inj (found.symm.trans held)
        exact ⟨le_rfl, refl_of contained _, depths⟩
      · rcases fits with ⟨-, ancestors, -⟩ | ⟨p, parent, ancestors, -, effects, scopes, -⟩
        · rw [ancestors, Finset.mem_singleton] at above
          exact absurd above self
        · rw [ancestors, Finset.mem_insert] at above
          have inside := above.resolve_left self
          have bounded := inv.grants parent inside (inv.ghosts.old_ancestor parent inside held)
          exact bounded.below effects scopes depths
    · exact inv.grants old above (inv.ghosts.old_ancestor old above held)
  · intro act member g anc a found above held
    obtain ⟨g', old⟩ := inv.ghosts.leaves act member
    rw [grant_append_of_grant old] at found
    obtain rfl := Option.some.inj found
    exact inv.actions act member old above (inv.ghosts.old_ancestor old above held)

/-- An action within its leaf grant keeps the invariant.
Witness: the grants are looked up as before, so only the new action is to be bounded, by its
leaf and through it by the ancestors.
-/
theorem inv_action [IsTrans σ contained] {act : ActionRecord σ} (inv : Inv contained s)
    (found : s.grant act.leafGrant = some g) (effects : act.effect ≤ g.effectCap)
    (scopes : contained act.scope g.scope)
    : Inv contained { s with actions := s.actions ++ [act] } := by
  have same : ∀ d, State.grant { s with actions := s.actions ++ [act] } d = s.grant d := by
    intro d
    cases d <;> rfl
  have ghosts : GhostConsistency { s with actions := s.actions ++ [act] } := by
    refine ⟨?_, ?_, ?_, ?_, ?_⟩
    · intro d g found
      rw [same] at found ⊢
      exact inv.ghosts.parents found
    · intro other member
      rw [same]
      rcases List.mem_append.mp member with old | last
      · exact inv.ghosts.leaves other old
      · exact ⟨g, List.mem_singleton.mp last ▸ found⟩
    · intro d g p found held
      rw [same] at found held
      exact inv.ghosts.perHopDeclaredDepth found held
    · intro d g found
      rw [same] at found ⊢
      exact inv.ghosts.ancestors found
    · intro d g found
      rw [same] at found ⊢
      exact inv.ghosts.depth found
  refine ⟨ghosts, ?_, ?_⟩
  · intro d g anc a found above held
    rw [same] at found held
    exact inv.grants found above held
  · intro other member g' anc a found' above held
    rw [same] at found' held
    rcases List.mem_append.mp member with old | last
    · exact inv.actions other old found' above held
    · obtain rfl := List.mem_singleton.mp last
      obtain rfl := Option.some.inj (found.symm.trans found')
      have bounded := inv.grants found above held
      exact bounded.below effects scopes bounded.realizedDepth

end Steps

-----------------------------------------------------------------------------------------
-- Every reachable forest
-----------------------------------------------------------------------------------------

section Runs

variable {contained : σ → σ → Prop} {s s' : State σ} {cap eff : Int} {scope : σ} {depth pid lg : ℕ}

/-- The invariant holds of the empty forest, which has nothing to be bounded. -/
theorem init_inv : Inv contained (init : State σ) := by
  have none : ∀ {d g}, (init : State σ).grant d = some g → False := by
    intro d g found
    cases d <;> cases found
  refine ⟨⟨?_, ?_, ?_, ?_, ?_⟩, ?_, ?_⟩
  · exact fun found => (none found).elim
  · exact fun act member => by cases member
  · exact fun found => (none found).elim
  · exact fun found => (none found).elim
  · exact fun found => (none found).elim
  · exact fun found => (none found).elim
  · exact fun act member => by cases member

variable [DecidableRel contained]

/-- What the step for a child grant does: it appends a grant that fits. -/
theorem addChildGrant_eq_some (added : addChildGrant contained s cap scope depth pid = some s')
    : ∃ r, s' = s.append r ∧ Fits contained s r := by
  unfold addChildGrant at added
  split at added
  · cases added
  · rename_i p held
    split at added
    · rename_i allowed
      exact ⟨_, (Option.some.inj added).symm,
        .inr ⟨p, held, rfl, rfl, allowed.1, allowed.2.1, allowed.2.2⟩⟩
    · cases added

/-- What the step for an action does: the action is bounded by the grant it names, and is
appended.
-/
theorem addAction_eq_some (added : addAction contained s eff scope lg = some s')
    : ∃ g, s.grant lg = some g ∧ eff ≤ g.effectCap ∧ contained scope g.scope
      ∧ s' = { s with actions := s.actions ++ [{ effect := eff, scope, leafGrant := lg }] } := by
  unfold addAction at added
  split at added
  · cases added
  · rename_i g found
    split at added
    · rename_i allowed
      exact ⟨g, found, allowed.1, allowed.2, (Option.some.inj added).symm⟩
    · cases added

variable [IsPreorder σ contained]

/-- A step keeps the invariant, from any forest that has it. -/
theorem next_inv (next : (specification contained).next s s') (inv : Inv contained s)
    : Inv contained s' := by
  rcases next with ⟨cap, scope, depth, rfl⟩ | ⟨cap, scope, depth, pid, added⟩ | ⟨eff, scope, lg,
    added⟩
  · exact Fits.inv (.inl ⟨rfl, rfl, rfl⟩) inv
  · obtain ⟨r, rfl, fits⟩ := addChildGrant_eq_some added
    exact fits.inv inv
  · obtain ⟨g, found, effects, scopes, rfl⟩ := addAction_eq_some added
    exact inv_action inv found effects scopes

/-- In every reachable forest, however large and deep: the ancestors of a grant are the positions
that its parents lead to, and grants and actions are bounded by all ancestors.
-/
theorem reachable_attenuates (reachable : (specification contained).Reachable s)
    : Inv contained s
      ∧ ∀ d g anc, s.grant d = some g
        → (anc ∈ g.ancestors ↔ Relation.ReflTransGen (Parent s) d anc) := by
  have inv : Inv contained s :=
    reachable.invariant (fun _ starts => starts ▸ init_inv) next_inv
  exact ⟨inv, fun d g anc found => inv.ghosts.mem_ancestors_iff found⟩

end Runs

-----------------------------------------------------------------------------------------
-- Scopes as multiples
-----------------------------------------------------------------------------------------

def noScope : Int := -1

/-- `ScopeContained`: a scope contains its multiples, and a missing one is contained in no other. -/
def scopeContained (child par : Int) : Bool :=
  if par = noScope then true
  else if child = noScope then false
  else child % par = 0

def ScopeContained (child par : Int) : Prop := scopeContained child par = true

instance : DecidableRel ScopeContained := fun child par =>
  inferInstanceAs (Decidable (scopeContained child par = true))

theorem scopeContained_iff {child par : Int}
    : ScopeContained child par ↔ par = noScope ∨ child ≠ noScope ∧ par ∣ child := by
  unfold ScopeContained scopeContained
  split_ifs with missing absent
  · simp [missing]
  · simp [missing, absent]
  · simp only [decide_eq_true_eq, missing, absent, ne_eq, not_false_eq_true, true_and, false_or]
    exact Int.dvd_iff_emod_eq_zero.symm

instance : IsPreorder Int ScopeContained where
  refl scope := by
    rw [scopeContained_iff]
    by_cases missing : scope = noScope
    · exact .inl missing
    · exact .inr ⟨missing, dvd_rfl⟩
  trans child middle par lower upper := by
    rw [scopeContained_iff] at lower upper ⊢
    rcases upper with missing | ⟨present, divides⟩
    · exact .inl missing
    · rcases lower with missing | ⟨present', divides'⟩
      · exact absurd missing present
      · exact .inr ⟨present', divides.trans divides'⟩

/-- The theorem at a chain of three grants and an action, with the scopes 2 and 6 below no scope. -/
theorem reachable_attenuates_three
    : ∃ s : State Int, s.grants.length = 3 ∧ s.actions.length = 1 ∧ Inv ScopeContained s := by
  have first : (specification ScopeContained).Reachable (addRootGrant init 3 noScope 5) :=
    ⟨init, rfl, .single (.inl ⟨3, noScope, 5, rfl⟩)⟩
  have second := first.steps (.single (.inr (.inl ⟨2, 2, 3, 1, rfl⟩)))
  have third := second.steps (.single (.inr (.inl ⟨1, 6, 0, 2, rfl⟩)))
  have acted := third.steps (.single (.inr (.inr ⟨1, 12, 3, rfl⟩)))
  exact ⟨_, rfl, rfl, (reachable_attenuates acted).1⟩

-----------------------------------------------------------------------------------------
-- Path scopes
-----------------------------------------------------------------------------------------

section Paths

open Naalp.Python (PyStr PyChar)

/-- The product of the primes numbered by the codes of a set. -/
noncomputable def primeProduct {α : Type} (code : α → ℕ) (members : Finset α) : ℕ :=
  ∏ x ∈ members, Nat.nth Nat.Prime (code x)

/-- Sets are included exactly when the products of their primes divide. -/
theorem primeProduct_dvd_iff {α : Type} {code : α → ℕ} (injective : Function.Injective code)
    {members members' : Finset α}
    : primeProduct code members ∣ primeProduct code members' ↔ members ⊆ members' := by
  constructor
  · intro divides x member
    have prime := Nat.prime_nth_prime (code x)
    have factor := (Finset.dvd_prod_of_mem (fun x => Nat.nth Nat.Prime (code x)) member).trans
      divides
    obtain ⟨y, member', divides'⟩ := (prime.prime.dvd_finsetProd_iff _).mp factor
    have same := (Nat.prime_dvd_prime_iff_eq prime (Nat.prime_nth_prime (code y))).mp divides'
    obtain rfl := injective (Nat.nth_injective Nat.infinite_setOfPred_prime same)
    exact member'
  · exact Finset.prod_dvd_prod_of_subset members members' _

/-- The scopes that contain a scope: itself, and its prefixes that end before a slash. -/
def containers (scope : PyStr) : Finset PyStr :=
  scope.inits.toFinset.filter fun q => q ≠ [] ∧ Python.Delegation.scopeContained scope q

theorem mem_containers {scope q : PyStr}
    : q ∈ containers scope ↔ q ≠ [] ∧ Python.Delegation.scopeContained scope q := by
  rw [containers, Finset.mem_filter, List.mem_toFinset, List.mem_inits]
  refine ⟨fun member => member.2, fun contains => ⟨?_, contains⟩⟩
  rcases Python.Delegation.scopeContained_iff.mp contains.2 with empty | rfl | path
  · exact absurd empty contains.1
  · exact List.prefix_rfl
  · exact (List.prefix_append q _).trans path

def codePoint : PyChar → ℕ
  | .scalar c => c.toNat
  | .surrogate i => 0x110000 + i

/-- No two characters of a path share a code point, surrogates included.
Witness: a scalar value is never in the range of the surrogates.
-/
theorem codePoint_injective : Function.Injective codePoint := by
  have below : ∀ c : Char, c.toNat < 0x110000 := by
    intro c
    rcases c.valid with low | ⟨-, high⟩
    · exact low.trans (by decide)
    · exact high
  intro x y same
  cases x with
  | scalar c =>
      cases y with
      | scalar d => rw [Char.toNat_inj.mp same]
      | surrogate i =>
          have bound := below c
          simp only [codePoint] at same
          omega
  | surrogate i =>
      cases y with
      | scalar d =>
          have bound := below d
          simp only [codePoint] at same
          omega
      | surrogate j => rw [Fin.ext (Nat.add_left_cancel same)]

def pathCode (scope : PyStr) : ℕ := Encodable.encode (scope.map codePoint)

theorem pathCode_injective : Function.Injective pathCode :=
  Encodable.encode_injective.comp (List.map_injective_iff.mpr codePoint_injective)

/-- A scope as an integer of the model. -/
noncomputable def scopeAtom (scope : PyStr) : Int :=
  if scope = [] then noScope else primeProduct pathCode (containers scope)

/-- Only the empty scope is encoded as the unconstrained one.
Witness: any other scope has itself among its containers, so its product exceeds one.
-/
theorem scopeAtom_eq_noScope {scope : PyStr} : scopeAtom scope = noScope ↔ scope = [] := by
  unfold scopeAtom
  by_cases empty : scope = []
  · simp [empty]
  · rw [if_neg empty]
    refine iff_of_false (fun same => ?_) empty
    have natural := Int.natCast_nonneg (primeProduct pathCode (containers scope))
    rw [same] at natural
    exact absurd natural (by decide)

/-- The path-prefix rule is divisibility of the integers: a scope is contained in another exactly
when all that contains the other contains it.
-/
theorem scopeAtom_contained {child parent : PyStr}
    : ScopeContained (scopeAtom child) (scopeAtom parent)
      ↔ Python.Delegation.scopeContained child parent := by
  rw [scopeContained_iff, scopeAtom_eq_noScope, ne_eq, scopeAtom_eq_noScope]
  by_cases unconstrained : parent = []
  · simp [unconstrained, Python.Delegation.scopeContained]
  · by_cases missing : child = []
    · simp [unconstrained, missing, Python.Delegation.scopeContained]
    · rw [scopeAtom, if_neg unconstrained, scopeAtom, if_neg missing, Int.natCast_dvd_natCast,
        primeProduct_dvd_iff pathCode_injective]
      constructor
      · intro included
        have self : parent ∈ containers parent :=
          mem_containers.mpr ⟨unconstrained,
            Python.Delegation.scopeContained_iff.mpr (.inr (.inl rfl))⟩
        exact (mem_containers.mp (included.resolve_left unconstrained |>.2 self)).2
      · intro contained
        refine .inr ⟨missing, fun q member => ?_⟩
        obtain ⟨named, contains⟩ := mem_containers.mp member
        exact mem_containers.mpr ⟨named, Python.Delegation.scopeContained_trans contained contains⟩

end Paths

-----------------------------------------------------------------------------------------
-- Accepted chains
-----------------------------------------------------------------------------------------

section Chains

open Naalp.Python (PyStr)
open Naalp.Python.Delegation

/-- The limits of one grant of a chain. -/
structure Hop where
  effectCap : Int
  scope : Int
  maxDepth : ℕ

/-- A hop fits under the hop above it. -/
def Hop.Under (child parent : Hop) : Prop :=
  child.effectCap ≤ parent.effectCap ∧ ScopeContained child.scope parent.scope
  ∧ child.maxDepth < parent.maxDepth

/-- The record of a hop above which there are `n` hops. -/
def Hop.record (h : Hop) (n : ℕ) : GrantRecord Int :=
  { effectCap := h.effectCap, scope := h.scope, maxDepth := h.maxDepth, parent := n,
    ancestors := Finset.Icc 1 (n + 1), depth := n }

/-- The forest of a chain, from its leaf to its root. -/
def forest : List Hop → State Int
  | [] => init
  | h :: above => (forest above).append (h.record above.length)

theorem length_forest (hops : List Hop) : (forest hops).grants.length = hops.length := by
  induction hops with
  | nil => rfl
  | cons h above ih => simp [forest, State.append, ih]

theorem actions_forest (hops : List Hop) : (forest hops).actions = [] := by
  induction hops with
  | nil => rfl
  | cons h above ih => exact ih

/-- The grants of a forest, counted from the root; by induction over the chain. -/
theorem grant_forest {hops : List Hop} {i : ℕ} {h : Hop} (found : hops[i]? = some h)
    : (forest hops).grant (hops.length - i) = some (h.record (hops.length - i - 1)) := by
  induction hops generalizing i with
  | nil => cases found
  | cons first above ih =>
      rw [forest, grant_append, length_forest]
      cases i with
      | zero =>
          obtain rfl := Option.some.inj found
          simp
      | succ i =>
          have inside : above[i]? = some h := found
          have bound : i < above.length := (List.getElem?_eq_some_iff.mp inside).1
          rw [if_neg (by simp only [List.length_cons]; omega), List.length_cons,
            Nat.add_sub_add_right, ih inside]

/-- A chain whose hops fit under each other is built by the model, by induction over the chain. -/
theorem reachable_forest {hops : List Hop} (chain : hops.IsChain Hop.Under)
    : (specification ScopeContained).Reachable (forest hops) := by
  induction hops with
  | nil => exact ⟨init, rfl, .refl⟩
  | cons h above ih =>
      refine (ih chain.tail).steps (.single ?_)
      cases above with
      | nil => exact .inl ⟨h.effectCap, h.scope, h.maxDepth, rfl⟩
      | cons parent rest =>
          obtain ⟨effects, scopes, depths⟩ := (List.isChain_cons_cons.mp chain).1
          refine .inr (.inl ⟨h.effectCap, h.scope, h.maxDepth, rest.length + 1, ?_⟩)
          have held : (forest (parent :: rest)).grant (rest.length + 1)
              = some (parent.record rest.length) :=
            @grant_forest (parent :: rest) 0 parent rfl
          have ancestors : insert (rest.length + 1 + 1) (Finset.Icc 1 (rest.length + 1))
              = Finset.Icc 1 (rest.length + 1 + 1) := by
            ext position
            simp only [Finset.mem_insert, Finset.mem_Icc]
            omega
          rw [addChildGrant, held]
          dsimp only
          rw [if_pos ⟨effects, scopes, depths⟩, length_forest, List.length_cons]
          simp only [Hop.record, ancestors]
          rfl

variable {grants : GrantSet} {anchors : List PyStr} {revoked : Revocations} {now : Int}

/-- What the checks at a parent have compared with the child. -/
structure Narrows (child parent : Resolved) : Prop where
  effect : child.grant.effectCap ≤ parent.grant.effectCap
  scope : Python.Delegation.scopeContained child.grant.scope parent.grant.scope
  natural : 0 ≤ child.grant.maxDepth
  depth : child.grant.maxDepth < parent.grant.maxDepth

/-- Grants that are listed under their own content ids, as `verify_chain` is given them. -/
structure IdentifiedGrants where
  set : GrantSet
  ownId : ∀ key r, set.lookup key = some r → r.contentId = key

/-- An accepting walk leaves a walked chain in which every grant narrows the one above, by induction
on the rounds.
-/
theorem walkFor_narrows {grants : IdentifiedGrants} {rounds : ℕ} {w : Walk} (natural : 0 ≤ w.pos)
    (accepted : walkFor grants.set anchors revoked now rounds w = some (.ok ()))
    : ∃ rest, WalkedChain grants.set anchors revoked now w rest ∧ (w.g :: rest).IsChain Narrows
      ∧ GrantHolds revoked now w := by
  induction rounds generalizing w with
  | zero => cases accepted
  | succ rounds ih =>
      rw [walkFor] at accepted
      split at accepted
      · cases Option.some.inj accepted
      · rename_i ended
        obtain ⟨holds, anchored⟩ := walkStep_eq_none ended
        exact ⟨[], holds.walkedChain anchored, .singleton _, holds⟩
      · rename_i next walked
        obtain ⟨checked, p, parents, deeper, rfl⟩ := walkStep_eq_some walked
        have holds := checkGrant_eq_ok checked
        obtain ⟨rest, chain, narrows, above⟩ := ih (by simp only; omega) accepted
        have member : p ∈ matchingCauses w.g.causes w.g.issuer grants.set := by simp [parents]
        obtain ⟨c, named, found, subject⟩ := mem_matchingFrom member
        obtain rfl := grants.ownId c p found
        have delegates : Delegates p w.g := ⟨named, subject, by omega⟩
        refine ⟨p :: rest, chain.cons holds delegates found, ?_, holds⟩
        refine List.isChain_cons_cons.mpr
          ⟨⟨above.capped, above.contained, ?_, delegates.2.2⟩, narrows⟩
        exact natural.trans holds.shallow

/-- An accepted action has a leaf from which the walk accepts. -/
theorem walk_of_verifyChain {action : Action}
    (accepted : verifyChain action grants anchors revoked now = .ok ())
    : ∃ leaf, locateLeaf action grants = .ok leaf
      ∧ walkFor grants anchors revoked now (grants.entries.length + 1) (.start action leaf)
        = some (.ok ()) := by
  unfold verifyChain at accepted
  split at accepted
  · cases accepted
  · rename_i leaf located
    refine ⟨leaf, located, ?_⟩
    rw [← accepted]
    exact (Option.some_get _).symm

noncomputable def hopOf (g : Resolved) : Hop :=
  { effectCap := g.grant.effectCap, scope := scopeAtom g.grant.scope,
    maxDepth := g.grant.maxDepth.toNat }

/-- The forest of a chain, with the action at its leaf. -/
noncomputable def chainState (action : Action) (chain : List Resolved) : State Int :=
  { forest (chain.map hopOf) with
    actions := [{
      effect := action.effect, scope := scopeAtom action.scope, leafGrant := chain.length }] }

/-- The model builds the chain and its action, and every grant is bounded by all above it. -/
structure Attenuates (action : Action) (chain : List Resolved) : Prop where
  reached : (specification ScopeContained).Reachable (chainState action chain)
  bounded : ∀ (i j : ℕ) g a, i ≤ j → chain[i]? = some g → chain[j]? = some a
    → g.grant.effectCap ≤ a.grant.effectCap
      ∧ Python.Delegation.scopeContained g.grant.scope a.grant.scope
      ∧ (j : Int) - i ≤ a.grant.maxDepth

/-- A chain that narrows at every hop fits together in the model. -/
theorem isChain_hopOf {chain : List Resolved} (narrows : chain.IsChain Narrows)
    : (chain.map hopOf).IsChain Hop.Under := by
  rw [List.isChain_map]
  refine narrows.imp ?_
  intro child parent narrow
  refine ⟨narrow.effect, scopeAtom_contained.mpr narrow.scope, ?_⟩
  exact (Int.toNat_lt_toNat (narrow.natural.trans_lt narrow.depth)).mpr narrow.depth

/-- The bounds of the model, read as bounds of the grants. -/
theorem bounded_of_narrows {chain : List Resolved} (narrows : chain.IsChain Narrows)
    (natural : ∀ g ∈ chain, 0 ≤ g.grant.maxDepth) {i j : ℕ} {g a : Resolved} (order : i ≤ j)
    (found : chain[i]? = some g) (found' : chain[j]? = some a)
    : g.grant.effectCap ≤ a.grant.effectCap
      ∧ Python.Delegation.scopeContained g.grant.scope a.grant.scope
      ∧ (j : Int) - i ≤ a.grant.maxDepth := by
  have inv := (reachable_attenuates (reachable_forest (isChain_hopOf narrows))).1
  have held : (chain.map hopOf)[i]? = some (hopOf g) := by simp [found]
  have held' : (chain.map hopOf)[j]? = some (hopOf a) := by simp [found']
  have inside := (List.getElem?_eq_some_iff.mp held').1
  have above : (chain.map hopOf).length - j
      ∈ ((hopOf g).record ((chain.map hopOf).length - i - 1)).ancestors := by
    simp only [Hop.record, Finset.mem_Icc]
    omega
  have bounded := inv.grants (grant_forest held) above (grant_forest held')
  have declared : ((hopOf a).maxDepth : Int) = a.grant.maxDepth :=
    Int.toNat_of_nonneg (natural a (List.mem_of_getElem? found'))
  have depth := bounded.realizedDepth
  simp only [Hop.record, declared] at depth
  exact ⟨bounded.effect, scopeAtom_contained.mp bounded.scope, by omega⟩

/-- The declared depths of a chain that narrows are natural numbers when that of its leaf is, by
induction over the chain.
-/
theorem natural_of_narrows {leaf : Resolved} {rest : List Resolved}
    (narrows : (leaf :: rest).IsChain Narrows) (natural : 0 ≤ leaf.grant.maxDepth)
    : ∀ g ∈ leaf :: rest, 0 ≤ g.grant.maxDepth := by
  induction rest generalizing leaf with
  | nil => simpa using natural
  | cons parent rest ih =>
      obtain ⟨narrow, above⟩ := List.isChain_cons_cons.mp narrows
      exact List.forall_mem_cons.mpr ⟨natural, ih above (natural.trans narrow.depth.le)⟩

/-- Whenever `verify_chain` accepts, the model of attenuation builds the chain it walked and the
action, and every grant of the chain is bounded by all the grants above it.
-/
theorem verifyChain_attenuates {action : Action} (grants : IdentifiedGrants)
    (accepted : verifyChain action grants.set anchors revoked now = .ok ())
    : ∃ leaf rest, locateLeaf action grants.set = .ok leaf
      ∧ WalkedChain grants.set anchors revoked now (.start action leaf) rest
      ∧ Attenuates action (leaf :: rest) := by
  obtain ⟨leaf, located, walked⟩ := walk_of_verifyChain accepted
  obtain ⟨rest, chain, narrows, holds⟩ := walkFor_narrows (le_refl 0) walked
  replace narrows : (leaf :: rest).IsChain Narrows := narrows
  have natural := natural_of_narrows narrows holds.shallow
  refine ⟨leaf, rest, located, chain, ?_, fun i j g a => bounded_of_narrows narrows natural⟩
  refine (reachable_forest (isChain_hopOf narrows)).steps (.single (.inr (.inr ?_)))
  refine ⟨action.effect, scopeAtom action.scope, (leaf :: rest).length, ?_⟩
  have held : (forest ((leaf :: rest).map hopOf)).grant (leaf :: rest).length
      = some ((hopOf leaf).record rest.length) := by
    have first := @grant_forest ((leaf :: rest).map hopOf) 0 (hopOf leaf) rfl
    simpa using first
  rw [addAction, held]
  refine (if_pos ⟨holds.capped, scopeAtom_contained.mpr holds.contained⟩).trans ?_
  rw [actions_forest, List.nil_append, chainState]

def sampleIdentified : IdentifiedGrants := ⟨sampleGrants, sampleGrants_ownId⟩

/-- The theorem at a chain of two hops. -/
theorem verifyChain_attenuates_two_hops
    : ∃ leaf rest, locateLeaf sampleAction sampleGrants = .ok leaf
      ∧ WalkedChain sampleGrants [.lit ['r']] ∅ 5 (.start sampleAction leaf) rest
      ∧ Attenuates sampleAction (leaf :: rest) :=
  verifyChain_attenuates sampleIdentified rfl

end Chains

end Naalp.Authorization.Attenuation
