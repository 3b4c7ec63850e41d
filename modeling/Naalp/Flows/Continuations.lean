import Naalp.CanonicalEncoding.Decoding
import Naalp.Foundation.HashChain
import Naalp.Python.Continuation
import Naalp.Signatures.Productions

/-! The unsigned links of a flow. A chain of links that is accepted stays within what its open
fixed; its final head pins the links, and its links pin the open, unless two hashed bodies have one
digest.
-/

namespace Naalp.Flows

open Naalp.Foundation
open Naalp.Foundation.Sha2 (DigestsCollide)
open Naalp.Python
open Naalp.Python.Cbor
open Naalp.Python.Flows

/-- A link names the digest of the body of the link before it. -/
def flowChain : ChainHash Continuation Bytes Bytes Exc where
  encode := Continuation.bytes
  hash := Sha2.sha384
  prev := Continuation.prev
  position := Continuation.seq

/-- The pairs of the body of a link. -/
def linkPairs (c : Continuation) : List (Value × Value) :=
  [(.u 1, .b c.flowOpenId), (.u 2, .u c.seq), (.u 3, .u c.effect), (.u 4, .b c.payloadId),
    (.u 5, .b c.prev)]

theorem linkPairs_ascending (c : Continuation)
    : ((linkPairs c).map encodedKey).Pairwise (· < ·) :=
  @numbered_ascending 1 [.b c.flowOpenId, .u c.seq, .u c.effect, .b c.payloadId, .b c.prev]
    (by simp)

theorem linkPairs_leaves (c : Continuation) : ∀ pair ∈ linkPairs c, Leaf pair.1 ∧ Leaf pair.2 := by
  simp [linkPairs, Leaf]

theorem flowChain_faithful : flowChain.Faithful := by
  intro c c' body encoded encoded'
  have pairs := pairs_eq_of_leaves (linkPairs_ascending c) (linkPairs_leaves c)
    (linkPairs_ascending c') (linkPairs_leaves c') encoded encoded'
  obtain ⟨flowOpenId, seq, effect, payloadId, prev⟩ := c
  obtain ⟨flowOpenId', seq', effect', payloadId', prev'⟩ := c'
  simp_all [linkPairs]

/-- What an accepted link satisfies apart from its place in the chain. -/
structure Permitted (fid : Bytes) (ceiling : Int) (c : Continuation) : Prop where
  flow : c.flowOpenId = fid
  inside : inLattice c.effect = true
  below : c.effect ≤ ceiling

/-- A continuation is accepted exactly when it is permitted under the ceiling and stands at its
place in the chain.
-/
theorem verifyContinuation_eq_ok {c : Continuation} {fid prevHead : Bytes} {i ceiling : Int}
    : verifyContinuation c fid prevHead i ceiling = .ok ()
      ↔ inLattice ceiling = true ∧ Permitted fid ceiling c ∧ c.seq = i ∧ c.prev = prevHead := by
  have lattice : Policy.authorizes ceiling c.effect = true ↔ c.effect ≤ ceiling :=
    decide_eq_true_iff
  simp only [verifyContinuation, raiseIf_bind_eq_ok, raiseIf_eq_ok, Bool.not_eq_false, not_not,
    ne_eq, lattice]
  constructor
  · intro accepted
    obtain ⟨closed, inside, flow, seq, below, prev⟩ := accepted
    exact ⟨closed, ⟨flow, inside, below⟩, seq, prev⟩
  · intro accepted
    obtain ⟨closed, ⟨flow, inside, below⟩, seq, prev⟩ := accepted
    exact ⟨closed, inside, flow, seq, below, prev⟩

/-- The loop accepts exactly the chains of permitted links, by induction on the links. -/
theorem verifyLinks_eq_ok {fid prev final : Bytes} {i ceiling : Int} {conts : List Continuation}
    (closed : inLattice ceiling = true)
    : verifyLinks fid ceiling i prev conts = .ok final
      ↔ flowChain.Linked i prev conts final ∧ ∀ c ∈ conts, Permitted fid ceiling c := by
  induction conts generalizing i prev with
  | nil =>
      rw [verifyLinks, pure_eq_ok, Except.ok.injEq]
      constructor
      · rintro rfl
        exact ⟨.nil _ _, by simp⟩
      · intro linked
        cases linked.1
        rfl
  | cons c rest ih =>
      rw [verifyLinks, unit_bind_eq_ok, verifyContinuation_eq_ok]
      simp only [Continuation.head, bind_eq_ok, pure_eq_ok, Except.ok.injEq, ih,
        List.forall_mem_cons]
      constructor
      · intro accepted
        obtain ⟨⟨-, permitted, seq, same⟩, _, ⟨body, encoded, rfl⟩, linked, later⟩ := accepted
        exact ⟨.cons seq same encoded linked, permitted, later⟩
      · intro accepted
        obtain ⟨linked, permitted, later⟩ := accepted
        cases linked with
        | cons seq same encoded linked =>
            exact ⟨⟨closed, permitted, seq, same⟩, _, ⟨_, encoded, rfl⟩, linked, later⟩

/-- A list of links is accepted exactly when it is a chain of permitted links from the head of the
open on.
-/
theorem verifyChain_eq_ok {flow : FlowOpen} {conts : List Continuation} {final : Bytes}
    : verifyChain flow conts = .ok final
      ↔ inLattice flow.effectCeiling = true
        ∧ ∃ body, flow.bytes = .ok body ∧ flowChain.Linked 0 (Sha2.sha384 body) conts final
          ∧ ∀ c ∈ conts, Permitted (contentIdBytes body) flow.effectCeiling c := by
  rw [verifyChain, raiseIf_bind_eq_ok, Bool.not_eq_false]
  refine and_congr_right fun closed => ?_
  simp only [FlowOpen.id, FlowOpen.head, bind_eq_ok, pure_eq_ok, Except.ok.injEq,
    verifyLinks_eq_ok closed]
  constructor
  · intro accepted
    obtain ⟨_, ⟨body, encoded, rfl⟩, _, ⟨_, again, rfl⟩, accepted⟩ := accepted
    obtain rfl := Except.ok.inj (encoded.symm.trans again)
    exact ⟨body, encoded, accepted⟩
  · intro accepted
    obtain ⟨body, encoded, accepted⟩ := accepted
    exact ⟨_, ⟨body, encoded, rfl⟩, _, ⟨body, encoded, rfl⟩, accepted⟩

/-- A checkpoint is accepted exactly when it names the flow, the number of the links and the
head of the accepted chain.
-/
theorem verifyCheckpoint_eq_ok {cp : Checkpoint} {flow : FlowOpen} {conts : List Continuation}
    : verifyCheckpoint cp flow conts = .ok ()
      ↔ flow.id = .ok cp.flowOpenId ∧ cp.throughSeq ≠ maxU64
        ∧ (conts.length : Int) = cp.throughSeq + 1 ∧ verifyChain flow conts = .ok cp.head := by
  rw [verifyCheckpoint, bind_eq_ok]
  simp only [raiseIf_bind_eq_ok, not_not, ne_eq]
  constructor
  · intro accepted
    obtain ⟨id, identified, rfl, inside, length, accepted⟩ := accepted
    refine ⟨identified, inside, length, ?_⟩
    split at accepted
    · exact nomatch accepted
    · obtain ⟨h, walked, same⟩ := bind_eq_ok.mp accepted
      rw [walked, of_not_not (raiseIf_eq_ok.mp same)]
  · intro accepted
    obtain ⟨identified, inside, length, walked⟩ := accepted
    refine ⟨_, identified, rfl, inside, length, ?_⟩
    simp [walked]

/-- The bodies that the digests of an open and of its links are taken of. -/
def hashedBodies (flow : FlowOpen) (conts : List Continuation) : List Bytes :=
  flow.bytes.toOption.toList ++ conts.filterMap fun c => c.bytes.toOption

theorem open_mem_hashedBodies {flow : FlowOpen} {conts : List Continuation} {body : Bytes}
    (encoded : flow.bytes = .ok body) : body ∈ hashedBodies flow conts := by
  simp [hashedBodies, encoded, Except.toOption]

theorem link_mem_hashedBodies {flow : FlowOpen} {conts : List Continuation} {c : Continuation}
    {body : Bytes} (member : c ∈ conts) (encoded : c.bytes = .ok body)
    : body ∈ hashedBodies flow conts :=
  List.mem_append_right _ (List.mem_filterMap.mpr ⟨c, member, by rw [encoded]; rfl⟩)

/-- An open has three fields. -/
theorem head_flowOpen {flow : FlowOpen} {body : Bytes} (encoded : flow.bytes = .ok body)
    : body.head? = some 0xa3 := by
  obtain ⟨-, -, -, rfl⟩ := encode_m_eq_ok.mp encoded
  rfl

/-- A link has five fields. -/
theorem head_continuation {c : Continuation} {body : Bytes} (encoded : c.bytes = .ok body)
    : body.head? = some 0xa5 := by
  obtain ⟨-, -, -, rfl⟩ := encode_m_eq_ok.mp encoded
  rfl

/-- A chain with links does not end at the head of its open, since the two bodies differ. -/
theorem digestsCollide_of_open_head {flow : FlowOpen} {conts : List Continuation}
    {openBody start : Bytes} (encoded : flow.bytes = .ok openBody) (nonempty : conts ≠ [])
    (linked : flowChain.Linked 0 start conts (Sha2.sha384 openBody))
    : DigestsCollide (hashedBodies flow conts) := by
  cases conts using List.reverseRecOn with
  | nil => exact absurd rfl nonempty
  | append_singleton earlier c =>
      obtain ⟨body, -, -, encoded', same⟩ := linked.exists_snoc
      refine ⟨openBody, open_mem_hashedBodies encoded, body,
        link_mem_hashedBodies (by simp) encoded', ?_, same⟩
      intro equal
      have heads := (head_flowOpen encoded).symm.trans (equal ▸ head_continuation encoded')
      exact absurd heads (by decide)

/-- The final head pins the links of a flow.
Witness: the final head is the digest of the last link, and each link has the digest of the one
before; only no links at all end in the digest of the open.
-/
theorem eq_of_final_head {flow : FlowOpen} {conts conts' : List Continuation} {final : Bytes}
    (accepted : verifyChain flow conts = .ok final)
    (accepted' : verifyChain flow conts' = .ok final)
    : conts = conts' ∨ DigestsCollide (hashedBodies flow conts ++ hashedBodies flow conts') := by
  obtain ⟨-, openBody, encoded, linked, -⟩ := verifyChain_eq_ok.mp accepted
  obtain ⟨-, _, again, linked', -⟩ := verifyChain_eq_ok.mp accepted'
  obtain rfl := Except.ok.inj (encoded.symm.trans again)
  by_cases empty : conts = []
  · subst empty
    cases linked
    by_cases empty' : conts' = []
    · exact .inl empty'.symm
    · exact .inr ((digestsCollide_of_open_head encoded empty' linked').mono
        (List.subset_append_right _ _))
  by_cases empty' : conts' = []
  · subst empty'
    cases linked'
    exact .inr ((digestsCollide_of_open_head encoded empty linked).mono
      (List.subset_append_left _ _))
  rcases linked.eq_of_final flowChain_faithful linked' empty empty' with same | collide
  · exact .inl same
  · obtain ⟨c, member, c', member', body, body', written, written', different, same⟩ := collide
    exact .inr ⟨body, List.mem_append_left _ (link_mem_hashedBodies member written), body',
      List.mem_append_right _ (link_mem_hashedBodies member' written'), different, same⟩

/-- Each link pins the body of the open, since it names the content id of that body. -/
theorem open_eq_of_link {flow flow' : FlowOpen} {conts : List Continuation} {final final' : Bytes}
    (nonempty : conts ≠ []) (accepted : verifyChain flow conts = .ok final)
    (accepted' : verifyChain flow' conts = .ok final')
    : flow.bytes = flow'.bytes
      ∨ DigestsCollide (hashedBodies flow conts ++ hashedBodies flow' conts) := by
  obtain ⟨-, body, encoded, -, permitted⟩ := verifyChain_eq_ok.mp accepted
  obtain ⟨-, body', encoded', -, permitted'⟩ := verifyChain_eq_ok.mp accepted'
  obtain ⟨c, member⟩ := List.exists_mem_of_ne_nil _ nonempty
  have named := (permitted c member).flow.symm.trans (permitted' c member).flow
  simp only [contentIdBytes, List.cons.injEq, true_and] at named
  by_cases same : body = body'
  · exact .inl (by rw [encoded, encoded', same])
  · exact .inr ⟨body, List.mem_append_left _ (open_mem_hashedBodies encoded), body',
      List.mem_append_right _ (open_mem_hashedBodies encoded'), same, named⟩

/-- Accepted links are numbered from zero, stay below the ceiling and name their open; final heads
pin the links and links pin the open, unless two hashed bodies collide; and a checkpoint confirms
exactly the prefixes of its flow that have its length and end at its head, and none at the largest
position.
-/
theorem continuations_bounded
    : (∀ flow conts final, verifyChain flow conts = .ok final
        → (∀ n (inside : n < conts.length), conts[n].seq = n)
          ∧ ∀ c ∈ conts, c.effect ≤ flow.effectCeiling ∧ flow.id = .ok c.flowOpenId)
      ∧ (∀ flow conts conts' final, verifyChain flow conts = .ok final
        → verifyChain flow conts' = .ok final
        → conts = conts' ∨ DigestsCollide (hashedBodies flow conts ++ hashedBodies flow conts'))
      ∧ (∀ flow flow' conts final final', conts ≠ [] → verifyChain flow conts = .ok final
        → verifyChain flow' conts = .ok final'
        → flow.bytes = flow'.bytes
          ∨ DigestsCollide (hashedBodies flow conts ++ hashedBodies flow' conts))
      ∧ (∀ cp flow conts, 0 ≤ cp.throughSeq → cp.throughSeq < 2 ^ 64
        → (verifyCheckpoint cp flow conts = .ok ()
          ↔ flow.id = .ok cp.flowOpenId ∧ cp.throughSeq ≠ 2 ^ 64 - 1
            ∧ (conts.length : Int) = cp.throughSeq + 1
            ∧ verifyChain flow conts = .ok cp.head)) := by
  refine ⟨?_, fun _ _ _ _ => eq_of_final_head, fun _ _ _ _ _ => open_eq_of_link,
    fun _ _ _ _ _ => verifyCheckpoint_eq_ok⟩
  intro flow conts final accepted
  obtain ⟨-, body, encoded, linked, permitted⟩ := verifyChain_eq_ok.mp accepted
  constructor
  · intro n inside
    have position := linked.positions n inside
    rwa [Int.zero_add] at position
  · intro c member
    refine ⟨(permitted c member).below, ?_⟩
    rw [FlowOpen.id, encoded, (permitted c member).flow]
    rfl

def sampleFlow : FlowOpen := { flowId := [1], effectCeiling := 3, approvals := [] }

def sampleFlowBody : Bytes := [0xa3, 1, 0x41, 1, 2, 3, 3, 0x80]

/-- The first link of the sample flow. -/
def sampleLink : Continuation where
  flowOpenId := contentIdBytes sampleFlowBody
  seq := 0
  effect := 2
  payloadId := [9]
  prev := Sha2.sha384 sampleFlowBody

/-- The link after it, at the ceiling. -/
def followingLink : Continuation where
  flowOpenId := contentIdBytes sampleFlowBody
  seq := 1
  effect := 3
  payloadId := [8]
  prev := Sha2.sha384 (encoding (.m (linkPairs sampleLink)))

theorem sampleLink_bytes : sampleLink.bytes = .ok (encoding (.m (linkPairs sampleLink))) := by
  have encodable : Encodable (.m (linkPairs sampleLink)) := by
    refine (@encodable_numbered 1 [.b _, .u _, .u _, .b _, .b _] (by simp)).mpr ?_
    simp [sampleLink, encodable_u, encodable_b, length_contentIdBytes,
      Sha2.length_sha384]
  exact encode_eq_ok.mpr ⟨encodable, rfl⟩

theorem followingLink_bytes
    : followingLink.bytes = .ok (encoding (.m (linkPairs followingLink))) := by
  have encodable : Encodable (.m (linkPairs followingLink)) := by
    refine (@encodable_numbered 1 [.b _, .u _, .u _, .b _, .b _] (by simp)).mpr ?_
    simp [followingLink, encodable_u, encodable_b, length_contentIdBytes, Sha2.length_sha384]
  exact encode_eq_ok.mpr ⟨encodable, rfl⟩

theorem sampleLink_accepted
    : verifyChain sampleFlow [sampleLink]
      = .ok (Sha2.sha384 (encoding (.m (linkPairs sampleLink)))) := by
  refine verifyChain_eq_ok.mpr ⟨rfl, sampleFlowBody, rfl, ?_, ?_⟩
  · exact .cons rfl rfl sampleLink_bytes (.nil _ _)
  · simpa using ⟨rfl, rfl, by decide⟩

theorem sampleLinks_accepted
    : verifyChain sampleFlow [sampleLink, followingLink]
      = .ok (Sha2.sha384 (encoding (.m (linkPairs followingLink)))) := by
  refine verifyChain_eq_ok.mpr ⟨rfl, sampleFlowBody, rfl, ?_, ?_⟩
  · exact .cons rfl rfl sampleLink_bytes (.cons rfl rfl followingLink_bytes (.nil _ _))
  · simp only [List.forall_mem_cons]
    exact ⟨⟨rfl, rfl, by decide⟩, ⟨rfl, rfl, by decide⟩, nofun⟩

/-- The two links of the sample flow are numbered and bounded, pinned by their last head, and
confirmed by a checkpoint of this length and head.
-/
theorem continuations_bounded_sample
    : (∀ n (inside : n < [sampleLink, followingLink].length),
        [sampleLink, followingLink][n].seq = n)
      ∧ (∀ c ∈ [sampleLink, followingLink], c.effect ≤ sampleFlow.effectCeiling)
      ∧ (∀ conts, verifyChain sampleFlow conts
          = .ok (Sha2.sha384 (encoding (.m (linkPairs followingLink))))
        → [sampleLink, followingLink] = conts
          ∨ DigestsCollide (hashedBodies sampleFlow [sampleLink, followingLink]
            ++ hashedBodies sampleFlow conts))
      ∧ verifyCheckpoint
        { flowOpenId := contentIdBytes sampleFlowBody, throughSeq := 1,
          head := Sha2.sha384 (encoding (.m (linkPairs followingLink))) }
        sampleFlow [sampleLink, followingLink] = .ok () := by
  obtain ⟨bounded, pinned, -, confirmed⟩ := continuations_bounded
  obtain ⟨numbered, below⟩ := bounded _ _ _ sampleLinks_accepted
  refine ⟨numbered, fun c member => (below c member).1,
    fun conts same => pinned _ _ _ _ sampleLinks_accepted same, ?_⟩
  exact (confirmed _ _ _ (by decide) (by decide)).mpr ⟨rfl, by decide, rfl, sampleLinks_accepted⟩

/-- A checkpoint with the length and the head of the sample chain that names another open. -/
def strayCheckpoint : Checkpoint where
  flowOpenId := []
  throughSeq := 0
  head := Sha2.sha384 (encoding (.m (linkPairs sampleLink)))

/-- The prefix has the length of the checkpoint, verifies and ends in its head, but the checkpoint
names another open.
-/
theorem strayCheckpoint_refused
    : ([sampleLink].length : Int) = strayCheckpoint.throughSeq + 1
      ∧ verifyChain sampleFlow [sampleLink] = .ok strayCheckpoint.head
      ∧ verifyCheckpoint strayCheckpoint sampleFlow [sampleLink] ≠ .ok () := by
  refine ⟨rfl, sampleLink_accepted, ?_⟩
  intro accepted
  have named := (verifyCheckpoint_eq_ok.mp accepted).1
  exact absurd (Except.ok.inj named) (List.cons_ne_nil _ _)

end Naalp.Flows
