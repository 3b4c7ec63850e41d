import Naalp.Native.Delegation
import Naalp.Python.GrantObjects

/-! The delegation walkers of the three implementations reach one verdict.
The inputs that the three share are those of Rust: the strings are sequences of Unicode scalar
values, which Go holds by their UTF-8 octets and Python by their code points, and the numbers are
unsigned, which Python holds as integers.
-/

-----------------------------------------------------------------------------------------
-- The native walk under a map of strings
-----------------------------------------------------------------------------------------

namespace Naalp.Native.Delegation

open Naalp.Foundation
open Naalp.Go (Stop Result)

variable {α β : Type}

section Images

variable (f : List α → List β)

def Grant.mapStrings (g : Grant α) : Grant β :=
  { g with subject := f g.subject, scope := f g.scope }

def Resolved.mapStrings (r : Resolved α) : Resolved β :=
  { r with issuer := f r.issuer, grant := r.grant.mapStrings f }

def GrantSet.mapStrings (grants : GrantSet α) : GrantSet β :=
  grants.mapValues (Resolved.mapStrings f)

def Action.mapStrings (action : Action α) : Action β :=
  { action with signer := f action.signer, scope := f action.scope }

def Walk.mapStrings (w : Walk α) : Walk β :=
  { w with g := w.g.mapStrings f, childScope := f w.childScope }

end Images

/-- A map of strings that keeps what the walk looks at: equality, emptiness and path prefixes. -/
structure StringMap (f : List α → List β) (slash : α) (slash' : β) : Prop where
  injective : Function.Injective f
  empty : f [] = []
  prefixes : ∀ parent child, f parent ++ [slash'] <+: f child ↔ parent ++ [slash] <+: child

section Mapped

variable [DecidableEq α] [DecidableEq β] {f : List α → List β} {slash : α} {slash' : β}
  (strings : StringMap f slash slash') (grants : GrantSet α) (anchors : List (List α))
  (revoked : Revocations) (now : UInt64)

include strings

omit [DecidableEq α] [DecidableEq β] in
theorem StringMap.eq_nil_iff {s : List α} : f s = [] ↔ s = [] := by
  rw [← strings.empty, strings.injective.eq_iff]

theorem scopeContained_map (child parent : List α)
    : scopeContained slash' (f child) (f parent) = scopeContained slash child parent := by
  have prefixes := strings.prefixes parent child
  rw [← List.isPrefixOf_iff_prefix, ← List.isPrefixOf_iff_prefix, ← Bool.eq_iff_iff] at prefixes
  simp only [scopeContained, strings.eq_nil_iff, strings.injective.eq_iff, prefixes]

/-- The matches are found at the same causes, by induction over them. -/
theorem matchingFrom_map (subject : List α) (seen causes : List Bytes)
    : matchingFrom (f subject) (grants.mapStrings f) seen causes
      = (matchingFrom subject grants seen causes).map (Resolved.mapStrings f) := by
  induction causes generalizing seen with
  | nil => rfl
  | cons c rest ih =>
      simp only [matchingFrom, GrantSet.mapStrings, AList.lookup_mapValues] at ih ⊢
      by_cases again : c ∈ seen
      · rw [if_pos again, if_pos again, ih]
      · rw [if_neg again, if_neg again]
        cases grants.lookup c with
        | none => exact ih seen
        | some r =>
            simp only [Option.map_some, Resolved.mapStrings, Grant.mapStrings,
              strings.injective.eq_iff]
            by_cases same : r.grant.subject = subject
            · rw [if_pos same, if_pos same, List.map_cons, ih]
              rfl
            · rw [if_neg same, if_neg same, ih]

/-- The check of a grant depends on the strings only through what the map keeps. -/
theorem checkGrant_map (w : Walk α)
    : checkGrant slash' revoked now (w.mapStrings f) = checkGrant slash revoked now w := by
  refine raiseIf_bind_congr Iff.rfl fun _ => ?_
  refine raiseIf_bind_congr Iff.rfl fun _ => ?_
  refine raiseIf_bind_congr Iff.rfl fun _ => ?_
  refine raiseIf_bind_congr Iff.rfl fun _ => ?_
  refine raiseIf_bind_congr Iff.rfl fun _ => ?_
  refine raiseIf_bind_congr ?_ fun _ => raiseIf_congr Iff.rfl
  have contained := scopeContained_map strings w.childScope w.g.grant.scope
  exact contained ▸ Iff.rfl

/-- A round of the walk commutes with the map of the strings.
Witness: the check, the anchors and the parents are the same on both sides.
-/
theorem walkStep_map (w : Walk α)
    : walkStep slash' (grants.mapStrings f) (anchors.map f) revoked now (w.mapStrings f)
      = (walkStep slash grants anchors revoked now w).map (Option.map (Walk.mapStrings f)) := by
  have parents : matchingCauses (w.mapStrings f).g.causes (w.mapStrings f).g.issuer
        (grants.mapStrings f)
      = (matchingCauses w.g.causes w.g.issuer grants).map (Resolved.mapStrings f) :=
    matchingFrom_map strings grants w.g.issuer [] w.g.causes
  rw [walkStep, walkStep, checkGrant_map strings, exceptMap_bind, parents]
  refine bind_congr fun _ => ?_
  cases matchingCauses w.g.causes w.g.issuer grants with
  | nil =>
      have trusted : f w.g.issuer ∈ anchors.map f ↔ w.g.issuer ∈ anchors :=
        List.mem_map_of_injective strings.injective
      dsimp only [List.map]
      rw [exceptMap_bind]
      exact raiseIf_bind_congr (not_congr trusted) fun _ => rfl
  | cons p others =>
      cases others with
      | nil =>
          dsimp only [List.map]
          rw [exceptMap_bind]
          exact raiseIf_bind_congr Iff.rfl fun _ => rfl
      | cons _ _ => rfl

/-- So does the choice of the leaf. -/
theorem locateLeaf_map (action : Action α)
    : locateLeaf (action.mapStrings f) (grants.mapStrings f)
      = (locateLeaf action grants).map (Resolved.mapStrings f) := by
  have matched := matchingFrom_map strings grants action.signer [] action.causes
  rw [locateLeaf, locateLeaf, matchingCauses, matchingCauses]
  simp only [Action.mapStrings] at matched ⊢
  rw [matched]
  cases matchingFrom action.signer grants [] action.causes with
  | nil => rfl
  | cons leaf others => cases others <;> rfl

end Mapped

/-- The verdict, without the proof that there is one. -/
theorem some_verifyChain [DecidableEq α] (slash : α) (action : Action α) (grants : GrantSet α)
    (anchors : List (List α)) (revoked : Revocations) (now : UInt64)
    : some (verifyChain slash action grants anchors revoked now)
      = match locateLeaf action grants with
        | .error stop => some (.error stop)
        | .ok leaf => loopFor (walkStep slash grants anchors revoked now)
            (grants.entries.length + 1) (.start action leaf) := by
  unfold verifyChain
  split
  · rename_i stop located
    rw [located]
  · rename_i leaf located
    simp only [located, Option.some_get]

/-- The walk does not depend on how the strings are held. -/
theorem verifyChain_map [DecidableEq α] [DecidableEq β] {f : List α → List β} {slash : α}
    {slash' : β} (strings : StringMap f slash slash') (action : Action α) (grants : GrantSet α)
    (anchors : List (List α)) (revoked : Revocations) (now : UInt64)
    : verifyChain slash' (action.mapStrings f) (grants.mapStrings f) (anchors.map f) revoked now
      = verifyChain slash action grants anchors revoked now := by
  apply Option.some.inj
  rw [some_verifyChain, some_verifyChain, locateLeaf_map strings]
  cases locateLeaf action grants with
  | error stop => rfl
  | ok leaf =>
      have walks := loopFor_image (walkStep_map strings grants anchors revoked now)
        (grants.entries.length + 1) (.start action leaf)
      have size : (grants.mapStrings f).entries.length = grants.entries.length :=
        AList.length_entries_mapValues _ _
      dsimp only [Except.map]
      rw [size]
      exact walks

end Naalp.Native.Delegation

-----------------------------------------------------------------------------------------
-- The Python walk on native inputs
-----------------------------------------------------------------------------------------

/-- The stable kind of an error. -/
def Naalp.Go.Stop.kind? : Naalp.Go.Stop → Option Naalp.Python.Kind
  | .error kind _ => some kind
  | .panic => none

namespace Naalp.Python.Delegation

open Naalp.Foundation
open Naalp.Go (Stop Result)
open Naalp.Native

def Grant.ofNative (g : Native.Delegation.Grant Char) : Grant :=
  { subject := .lit g.subject, effectCap := g.effectCap.toNat, maxDepth := g.maxDepth.toNat,
    notBefore := g.notBefore.toNat, notAfter := g.notAfter.toNat, scope := .lit g.scope }

def Resolved.ofNative (r : Native.Delegation.Resolved Char) : Resolved :=
  { contentId := r.contentId, issuer := .lit r.issuer, grant := .ofNative r.grant,
    causes := r.causes }

def GrantSet.ofNative (grants : Native.Delegation.GrantSet Char) : GrantSet :=
  grants.mapValues Resolved.ofNative

def Action.ofNative (action : Native.Delegation.Action Char) : Action :=
  { signer := .lit action.signer, effect := action.effect.toNat, scope := .lit action.scope,
    causes := action.causes }

def Revocations.ofNative (revoked : Native.Delegation.Revocations) : Revocations :=
  revoked.mapValues fun p => (p.toNat : Int)

def Walk.ofNative (w : Native.Delegation.Walk Char) : Walk :=
  { g := .ofNative w.g, childEffect := w.childEffect.toNat, childScope := .lit w.childScope,
    pos := w.pos.toNat, visited := w.visited }

/-- Text without surrogates keeps what the walk looks at: equality, order and path separators.
-/
theorem lit_strings : Native.Delegation.StringMap PyStr.lit '/' (PyChar.scalar '/') where
  injective := PyStr.lit_injective
  empty := rfl
  prefixes parent child := by
    have mapped : PyStr.lit parent ++ [PyChar.scalar '/'] = PyStr.lit (parent ++ ['/']) := by
      simp [PyStr.lit]
    rw [mapped]
    constructor
    · intro found
      obtain ⟨rest, same⟩ := found
      refine ⟨PyStr.chars rest, ?_⟩
      have chars := congrArg PyStr.chars same
      rw [PyStr.chars_append, PyStr.chars_lit, PyStr.chars_lit] at chars
      exact chars
    · intro found
      exact found.map _

section Walking

variable (grants : Native.Delegation.GrantSet Char) (anchors : List (List Char))
  (revoked : Native.Delegation.Revocations) (now : UInt64)

/-- The grants that match a list of causes are the same in Python, by induction on the causes.
-/
theorem matchingFrom_ofNative (subject : List Char) (seen causes : List Bytes)
    : matchingFrom (.lit subject) (.ofNative grants) seen causes
      = (Native.Delegation.matchingFrom subject grants seen causes).map Resolved.ofNative := by
  induction causes generalizing seen with
  | nil => rfl
  | cons c rest ih =>
      simp only [matchingFrom, Native.Delegation.matchingFrom, GrantSet.ofNative,
        AList.lookup_mapValues] at ih ⊢
      by_cases again : c ∈ seen
      · rw [if_pos again, if_pos again, ih]
      · rw [if_neg again, if_neg again]
        cases grants.lookup c with
        | none => exact ih seen
        | some r =>
            simp only [Option.map_some, Resolved.ofNative, Grant.ofNative,
              PyStr.lit_injective.eq_iff]
            by_cases same : r.grant.subject = subject
            · rw [if_pos same, if_pos same, List.map_cons, ih]
              rfl
            · rw [if_neg same, if_neg same, ih]

theorem revokedAt_ofNative (cid : Bytes)
    : revokedAt (.ofNative revoked) cid now.toNat
      = Native.Delegation.revokedAt revoked cid now := by
  simp only [revokedAt, Native.Delegation.revokedAt, Revocations.ofNative, AList.lookup_mapValues]
  cases revoked.lookup cid with
  | none => rfl
  | some p => simp [UInt64.le_iff_toNat_le]

/-- The checks on a grant fail alike, check by check. -/
theorem checkGrant_ofNative (w : Native.Delegation.Walk Char)
    : (checkGrant (.ofNative revoked) now.toNat (.ofNative w)).mapError Exc.kind?
      = (Native.Delegation.checkGrant '/' revoked now w).mapError Stop.kind? := by
  simp only [checkGrant, Native.Delegation.checkGrant, mapError_bind, mapError_raiseIf]
  refine raiseIf_bind_congr Iff.rfl fun _ => ?_
  refine raiseIf_bind_congr ?_ fun _ => ?_
  · simp [Walk.ofNative, Resolved.ofNative, Grant.ofNative, UInt64.lt_iff_toNat_lt]
  refine raiseIf_bind_congr ?_ fun _ => ?_
  · simp [Walk.ofNative, Resolved.ofNative, Grant.ofNative, UInt64.lt_iff_toNat_lt]
  refine raiseIf_bind_congr ?_ fun _ => ?_
  · rw [← revokedAt_ofNative]
    rfl
  refine raiseIf_bind_congr ?_ fun _ => ?_
  · simp [Walk.ofNative, Resolved.ofNative, Grant.ofNative, Policy.authorizes,
      Native.Delegation.authorizes, UInt8.lt_iff_toNat_lt]
  refine raiseIf_bind_congr ?_ fun _ => ?_
  · rw [← Native.Delegation.scopeContained_map lit_strings]
    rfl
  refine raiseIf_congr ?_
  simp [Walk.ofNative, Resolved.ofNative, Grant.ofNative, UInt64.lt_iff_toNat_lt]

/-- A counter below a depth counts on without wrapping. -/
theorem toNat_add_one {pos depth parentDepth : UInt64} (bounded : ¬ pos > depth)
    (attenuated : ¬ depth ≥ parentDepth) : (pos + 1).toNat = pos.toNat + 1 := by
  have below : pos < parentDepth :=
    UInt64.lt_of_le_of_lt (UInt64.not_lt.mp bounded) (UInt64.not_le.mp attenuated)
  have room := UInt64.toNat_lt parentDepth
  rw [UInt64.lt_iff_toNat_lt] at below
  rw [UInt64.toNat_add, UInt64.toNat_one]
  omega

theorem checkGrant_bounds {w : Native.Delegation.Walk Char}
    (checked : Native.Delegation.checkGrant '/' revoked now w = .ok ())
    : ¬ w.pos > w.g.grant.maxDepth := by
  simp only [Native.Delegation.checkGrant, bind_eq_ok, raiseIf_eq_ok, exists_const] at checked
  exact checked.2.2.2.2.2.2

/-- A round of the walk goes alike; its counter has not reached the depth of the parent.
Witness: the checks and the parents agree; the native counter cannot overflow below the depth
of the parent.
-/
theorem walkStep_ofNative (w : Native.Delegation.Walk Char)
    : (walkStep (.ofNative grants) (anchors.map .lit) (.ofNative revoked) now.toNat
        (.ofNative w)).mapError Exc.kind?
      = ((Native.Delegation.walkStep '/' grants anchors revoked now w).map
        (Option.map Walk.ofNative)).mapError Stop.kind? := by
  have parents : matchingCauses (Walk.ofNative w).g.causes (Walk.ofNative w).g.issuer
        (.ofNative grants)
      = (Native.Delegation.matchingCauses w.g.causes w.g.issuer grants).map Resolved.ofNative :=
    matchingFrom_ofNative grants w.g.issuer [] w.g.causes
  rw [walkStep, Native.Delegation.walkStep, mapError_bind, checkGrant_ofNative, parents,
    exceptMap_bind, mapError_bind]
  cases checked : Native.Delegation.checkGrant '/' revoked now w with
  | error stop => rfl
  | ok done =>
      have bounded := checkGrant_bounds revoked now checked
      simp only [mapError_ok, ok_bind]
      cases Native.Delegation.matchingCauses w.g.causes w.g.issuer grants with
      | nil =>
          have trusted : PyStr.lit w.g.issuer ∈ anchors.map PyStr.lit ↔ w.g.issuer ∈ anchors :=
            List.mem_map_of_injective PyStr.lit_injective
          dsimp only [List.map, ok_bind]
          simp only [exceptMap_bind, mapError_bind, mapError_raiseIf]
          exact raiseIf_bind_congr (not_congr trusted) fun _ => rfl
      | cons p others =>
          cases others with
          | nil =>
              dsimp only [List.map, ok_bind]
              simp only [exceptMap_bind, mapError_bind, mapError_raiseIf]
              have depths : ((Resolved.ofNative p).grant.maxDepth = 0
                    ∨ (Walk.ofNative w).g.grant.maxDepth ≥ (Resolved.ofNative p).grant.maxDepth)
                  ↔ (p.grant.maxDepth = 0 ∨ w.g.grant.maxDepth ≥ p.grant.maxDepth) := by
                simp [Walk.ofNative, Resolved.ofNative, Grant.ofNative, UInt64.le_iff_toNat_le,
                  ← UInt64.toNat_inj]
              refine raiseIf_bind_congr depths fun shallow => ?_
              have attenuated := (not_or.mp (mt depths.mpr shallow)).2
              have counted := toNat_add_one bounded attenuated
              simp [Except.map, Walk.ofNative, Resolved.ofNative, Grant.ofNative, counted]
          | cons _ _ => rfl

/-- Both implementations locate the same leaf, or refuse by errors of one kind. -/
theorem locateLeaf_ofNative (action : Native.Delegation.Action Char)
    : (locateLeaf (.ofNative action) (.ofNative grants)).mapError Exc.kind?
      = ((Native.Delegation.locateLeaf action grants).map Resolved.ofNative).mapError
        Stop.kind? := by
  have matched : matchingCauses (Action.ofNative action).causes (Action.ofNative action).signer
        (.ofNative grants)
      = (Native.Delegation.matchingCauses action.causes action.signer grants).map
        Resolved.ofNative :=
    matchingFrom_ofNative grants action.signer [] action.causes
  rw [locateLeaf, Native.Delegation.locateLeaf, matched]
  cases Native.Delegation.matchingCauses action.causes action.signer grants with
  | nil => rfl
  | cons leaf others => cases others <;> rfl

/-- The verdict, without the proof that there is one. -/
theorem some_verifyChain (action : Action) (grants : GrantSet) (anchors : List PyStr)
    (revoked : Revocations) (now : Int)
    : some (verifyChain action grants anchors revoked now)
      = match locateLeaf action grants with
        | .error err => some (.error err)
        | .ok leaf => loopFor (walkStep grants anchors revoked now) (grants.entries.length + 1)
            (.start action leaf) := by
  unfold verifyChain
  split
  · rename_i err located
    rw [located]
  · rename_i leaf located
    simp only [located, Option.some_get, walkFor_eq_loopFor]

/-- The Python walk and the native one reach the same verdict with an error of the same kind.
Witness: the leaves agree, the rounds agree, and the loop is run equally often.
-/
theorem verifyChain_ofNative (action : Native.Delegation.Action Char)
    : (verifyChain (.ofNative action) (.ofNative grants) (anchors.map .lit) (.ofNative revoked)
        now.toNat).mapError Exc.kind?
      = (Native.Delegation.verifyChain '/' action grants anchors revoked now).mapError
        Stop.kind? := by
  have left := congrArg (Option.map (Except.mapError Exc.kind?))
    (some_verifyChain (.ofNative action) (.ofNative grants) (anchors.map .lit)
      (.ofNative revoked) now.toNat)
  have right := congrArg (Option.map (Except.mapError Stop.kind?))
    (Native.Delegation.some_verifyChain '/' action grants anchors revoked now)
  have leaves := locateLeaf_ofNative grants action
  apply Option.some.inj
  refine left.trans (Eq.trans ?_ right.symm)
  cases native : Native.Delegation.locateLeaf action grants with
  | error stop =>
      rw [native] at leaves
      cases python : locateLeaf (.ofNative action) (.ofNative grants) with
      | error err =>
          rw [python] at leaves
          have kept : err.kind? = stop.kind? := Except.error.inj leaves
          simp [Except.mapError, kept]
      | ok leaf =>
          rw [python] at leaves
          cases leaves
  | ok leaf =>
      rw [native] at leaves
      cases python : locateLeaf (.ofNative action) (.ofNative grants) with
      | error err =>
          rw [python] at leaves
          cases leaves
      | ok leaf' =>
          rw [python] at leaves
          obtain rfl := Except.ok.inj leaves
          have walks := loopFor_map (walkStep_ofNative grants anchors revoked now)
            (grants.entries.length + 1) (.start action leaf)
          have size : (GrantSet.ofNative grants).entries.length = grants.entries.length :=
            AList.length_entries_mapValues _ _
          dsimp only
          rw [size]
          exact walks

end Walking

end Naalp.Python.Delegation
