import Naalp.Envelope.Fidelity
import Naalp.Python.Governance

/-! Recorded chains: a log is read back to the records that were framed, and a verified chain is
replayed in one causal order.
-/

namespace Naalp.Transparency

open Naalp.Foundation
open Naalp.Python
open Naalp.Python.Cose
open Naalp.Python.Governance

-----------------------------------------------------------------------------------------
-- The log framing
-----------------------------------------------------------------------------------------

/-- The lengths that the framing can express. -/
def Framed (records : List Bytes) : Prop := ∀ record ∈ records, record.length < 2 ^ 32

theorem ofBigEndian_header {record : Bytes} (short : record.length < 2 ^ 32)
    : ofBigEndian (toBigEndian 4 record.length) = record.length :=
  ofBigEndian_toBigEndian (by omega)

/-- The reader accepts exactly the framings; by induction on the records that are read. -/
theorem readRecords_eq_ok {index : Nat} {stream : Bytes} {records : List Bytes}
    : readRecords index stream = .ok records ↔ Framed records ∧ stream = framing records := by
  induction records generalizing index stream with
  | nil =>
      rw [readRecords]
      constructor
      · intro read
        split at read
        · rename_i empty
          have nothing : stream = [] := by simpa using empty
          exact ⟨nofun, nothing⟩
        · simp only [bind_eq_ok, pure_eq_ok, Except.ok.injEq, reduceCtorEq, and_false,
            exists_false] at read
      · intro read
        obtain ⟨-, rfl⟩ := read
        rfl
  | cons record records ih =>
      rw [readRecords]
      constructor
      · intro read
        split at read
        · exact absurd (Except.ok.inj read) (List.cons_ne_nil _ _).symm
        · simp only [bind_eq_ok, raiseIf_eq_ok, exists_const, not_not, pure_eq_ok, Except.ok.injEq,
            List.cons.injEq] at read
          obtain ⟨header, payload, _, later, rfl, rfl⟩ := read
          obtain ⟨framed, rest⟩ := ih.mp later
          have bound := ofBigEndian_lt (stream.take 4)
          rw [header] at bound
          have width : toBigEndian 4 (ofBigEndian (stream.take 4)) = stream.take 4 := by
            have back := toBigEndian_ofBigEndian (stream.take 4)
            rwa [header] at back
          refine ⟨List.forall_mem_cons.mpr ⟨by omega, framed⟩, ?_⟩
          rw [framing, List.flatMap_cons, Governance.frame, payload, width, List.append_assoc,
            ← framing, ← rest, List.take_append_drop, List.take_append_drop]
      · intro read
        obtain ⟨framed, rfl⟩ := read
        obtain ⟨short, framed⟩ := List.forall_mem_cons.mp framed
        have header : (framing (record :: records)).take 4 = toBigEndian 4 record.length := by
          rw [framing, List.flatMap_cons, Governance.frame, List.append_assoc,
            List.take_left' (by simp)]
        have rest : (framing (record :: records)).drop 4 = record ++ framing records := by
          rw [framing, List.flatMap_cons, Governance.frame, List.append_assoc,
            List.drop_left' (by simp), framing]
        rw [dif_neg (by simp [header, toBigEndian])]
        simp only [header, rest, ofBigEndian_header short, List.take_left', List.drop_left']
        rw [raiseIf_neg (by simp), ok_bind, raiseIf_neg (by simp), ok_bind,
          ih.mpr ⟨framed, rfl⟩]
        rfl

/-- A framing that is a prefix of another ends at a boundary between its records. -/
theorem framing_start {left right : List Bytes} (framedLeft : Framed left)
    (framedRight : Framed right) (start : framing left <+: framing right)
    : left = right.take left.length := by
  induction left generalizing right with
  | nil => rfl
  | cons first left ih =>
      obtain ⟨short, framedLeft⟩ := List.forall_mem_cons.mp framedLeft
      obtain ⟨rest, whole⟩ := start
      cases right with
      | nil => simp [framing, Governance.frame, toBigEndian] at whole
      | cons record right =>
          obtain ⟨shortRecord, framedRest⟩ := List.forall_mem_cons.mp framedRight
          simp only [framing, List.flatMap_cons, Governance.frame, List.append_assoc] at whole
          obtain ⟨header, whole⟩ := List.append_inj whole (by simp)
          have length : first.length = record.length := by
            rw [← ofBigEndian_header short, header, ofBigEndian_header shortRecord]
          obtain ⟨rfl, tails⟩ := List.append_inj whole length
          have same : left = right.take left.length := ih framedLeft framedRest ⟨rest, tails⟩
          rw [List.length_cons, List.take_succ_cons, ← same]

/-- What is cut within a record is refused. -/
theorem readLog_cut {records : List Bytes} {cut : Bytes} (framed : Framed records)
    (start : cut <+: framing records) (inside : ∀ k, cut ≠ framing (records.take k))
    : ∃ failure, readLog cut = .error failure := by
  cases read : readLog cut with
  | error failure => exact ⟨failure, rfl⟩
  | ok left =>
      obtain ⟨framedLeft, rfl⟩ := readRecords_eq_ok.mp read
      exact absurd (congrArg framing (framing_start framedLeft framed start)) (inside _)

-----------------------------------------------------------------------------------------
-- The records of a chain
-----------------------------------------------------------------------------------------

section Collecting

variable {lib : SignatureLibrary} {printing : Printing} {resolver : PubkeyResolver} {profile : Int}

/-- A link holds what the verifier returned for its record. -/
def FromRecord (lib : SignatureLibrary) (profile : Int) (link : VerifiedLink) : Prop :=
  ∃ pubkey obj, Ez.verify lib pubkey link.raw profile = .ok obj ∧ obj.id = some link.contentId
    ∧ obj.created = link.created ∧ obj.causes = link.causes

/-- The links of some records: verified, numbered, with distinct content ids. -/
structure Collected (lib : SignatureLibrary) (profile : Int) (records : List Bytes)
    (links : List VerifiedLink) : Prop where
  records : links.map (·.raw) = records
  fromRecords : ∀ link ∈ links, FromRecord lib profile link
  indexed : ∀ (i : Nat) (link : VerifiedLink), links[i]? = some link → link.index = i
  distinct : (links.map (·.contentId)).Nodup

theorem id_of_verify {pubkey raw : Bytes} {obj : Envelope.Object}
    (verified : Ez.verify lib pubkey raw profile = .ok obj) : ∃ id, obj.id = some id := by
  obtain ⟨parts, accepted⟩ := (Envelope.verify_eq_ok ..).mp verified
  obtain ⟨-, ascending, -⟩ := Cbor.canonical_m.mp (Cbor.decodeBounded_eq_ok.mp accepted.body).1
  exact accepted.id_eq_some (Cbor.nodup_of_ascending ascending)

theorem verifyOne_eq_ok {index : Nat} {raw : Bytes} {link : VerifiedLink}
    (verified : verifyOne lib printing index raw resolver profile = .ok link)
    : link.index = index ∧ link.raw = raw ∧ FromRecord lib profile link := by
  simp only [verifyOne, bind_eq_ok, mapError_eq_ok, pure_eq_ok, Except.ok.injEq] at verified
  obtain ⟨pubkey, -, obj, verified, rfl⟩ := verified
  obtain ⟨id, identified⟩ := id_of_verify verified
  exact ⟨rfl, rfl, pubkey, obj, verified, by rw [identified]; rfl, rfl, rfl⟩

theorem collected_nil : Collected lib profile [] [] := ⟨rfl, nofun, nofun, .nil⟩

theorem seenAt_eq_none {links : List VerifiedLink} {id : Bytes}
    : seenAt links id = none ↔ id ∉ links.map (·.contentId) := by
  simp [seenAt]

/-- A record that verifies and was not seen is collected behind the others. -/
theorem Collected.concat {done : List Bytes} {links : List VerifiedLink} {raw : Bytes}
    {link : VerifiedLink} (collected : Collected lib profile done links)
    (verified : verifyOne lib printing links.length raw resolver profile = .ok link)
    (unseen : seenAt links link.contentId = none)
    : Collected lib profile (done ++ [raw]) (links ++ [link]) := by
  obtain ⟨index, rfl, fromRecord⟩ := verifyOne_eq_ok verified
  refine ⟨by rw [List.map_append, collected.records, List.map_singleton], ?_, ?_, ?_⟩
  · intro other member
    rcases List.mem_append.mp member with earlier | last
    · exact collected.fromRecords other earlier
    · exact List.mem_singleton.mp last ▸ fromRecord
  · intro i other found
    rcases lt_or_ge i links.length with inside | after
    · rw [List.getElem?_append_left inside] at found
      exact collected.indexed i other found
    · rw [List.getElem?_append_right after, List.getElem?_singleton] at found
      split at found
      · obtain rfl := Option.some.inj found
        omega
      · cases found
  · rw [List.map_append, List.nodup_append]
    refine ⟨collected.distinct, by simp, ?_⟩
    intro a earlier b last same
    rw [List.map_singleton, List.mem_singleton] at last
    exact seenAt_eq_none.mp unseen (last ▸ same ▸ earlier)

/-- By induction on the records to come. -/
theorem collectLinks_collected {done records : List Bytes} {links result : List VerifiedLink}
    (collected : Collected lib profile done links)
    (returned : collectLinks lib printing resolver profile links records = .ok result)
    : Collected lib profile (done ++ records) result := by
  induction records generalizing done links with
  | nil =>
      obtain rfl := Except.ok.inj returned
      rwa [List.append_nil]
  | cons raw records ih =>
      rw [collectLinks] at returned
      obtain ⟨link, verified, returned⟩ := bind_eq_ok.mp returned
      cases unseen : seenAt links link.contentId with
      | some earlier =>
          rw [unseen] at returned
          cases returned
      | none =>
          rw [unseen] at returned
          have all := ih (collected.concat verified unseen) returned
          rwa [List.append_assoc, List.singleton_append] at all

variable {records : List Bytes} {links : List VerifiedLink}

/-- An id was seen exactly at the link that has it. -/
theorem Collected.seenAt_eq_some (collected : Collected lib profile records links) {id : Bytes}
    {i : Nat} : seenAt links id = some i ↔ ∃ link, links[i]? = some link ∧ link.contentId = id := by
  constructor
  · intro seen
    obtain ⟨link, found, rfl⟩ := Option.map_eq_some_iff.mp seen
    obtain ⟨j, place⟩ := List.mem_iff_getElem?.mp (List.mem_of_find?_eq_some found)
    rw [collected.indexed j link place]
    exact ⟨link, place, by simpa using List.find?_some found⟩
  · intro placed
    obtain ⟨link, place, rfl⟩ := placed
    have member := List.mem_of_getElem? place
    cases seen : seenAt links link.contentId with
    | none => exact absurd (List.mem_map_of_mem member) (seenAt_eq_none.mp seen)
    | some j =>
        obtain ⟨other, found, rfl⟩ := Option.map_eq_some_iff.mp seen
        have same := List.inj_on_of_nodup_map collected.distinct (List.mem_of_find?_eq_some found)
          member (by simpa using List.find?_some found)
        rw [same, collected.indexed i link place]

/-- The record at an index names that at another for a cause. -/
def Names (links : List VerifiedLink) (i j : Nat) : Prop :=
  ∃ link : VerifiedLink, links[i]? = some link ∧ ∃ cause ∈ link.causes,
    ∃ other : VerifiedLink, links[j]? = some other ∧ other.contentId = cause

/-- Every cause of a record is an earlier record. -/
def Earlier (links : List VerifiedLink) : Prop :=
  ∀ (i : Nat) (link : VerifiedLink), links[i]? = some link → ∀ cause ∈ link.causes,
    ∃ j < i, ∃ other : VerifiedLink, links[j]? = some other ∧ other.contentId = cause

/-- The check passes exactly when every cause is the id of an earlier link. -/
theorem Collected.checkCauses_eq_ok (collected : Collected lib profile records links) {done : Unit}
    : Governance.checkCauses links = .ok done ↔ Earlier links := by
  have checks : ∀ (i : Nat) (link : VerifiedLink), links[i]? = some link → ∀ cause,
      Governance.checkCause links link cause = .ok ()
        ↔ ∃ j < i, ∃ other : VerifiedLink, links[j]? = some other ∧ other.contentId = cause := by
    intro i link place cause
    simp only [Governance.checkCause, ← collected.seenAt_eq_some]
    cases seen : seenAt links cause with
    | none => simp
    | some j => simp [raiseIf_eq_ok, collected.indexed i link place]
  simp only [Governance.checkCauses, forM_eq_ok]
  constructor
  · intro checked i link place cause named
    exact (checks i link place cause).mp (checked link (List.mem_of_getElem? place) cause named)
  · intro earlier link member cause named
    obtain ⟨i, place⟩ := List.mem_iff_getElem?.mp member
    exact (checks i link place cause).mpr (earlier i link place cause named)

/-- What the scan waits for are the causes that are named. -/
theorem Collected.requires_eq (collected : Collected lib profile records links)
    : Requires (List.range links.length) (parents links) = Names links := by
  funext i j
  refine propext ?_
  simp only [Requires, List.mem_range, parents, List.mem_filterMap, collected.seenAt_eq_some, Names]
  constructor
  · intro requires
    obtain ⟨inside, cause, named, referent⟩ := requires
    rw [List.getElem?_eq_getElem inside] at named
    exact ⟨links[i], List.getElem?_eq_getElem inside, cause, named, referent⟩
  · intro names
    obtain ⟨link, place, cause, named, referent⟩ := names
    refine ⟨(List.getElem?_eq_some_iff.mp place).1, cause, ?_, referent⟩
    rw [place]
    exact named

end Collecting

-----------------------------------------------------------------------------------------
-- The replay order
-----------------------------------------------------------------------------------------

section Replaying

variable {lib : SignatureLibrary} {printing : Printing} {resolver : PubkeyResolver} {profile : Int}
  {records : List Bytes} {links : List VerifiedLink}

instance : Std.Total (SortsBefore links) where
  total i j := by
    rcases lt_trichotomy (createdAt links i) (createdAt links j) with before | same | after
    · exact .inl (.inl before)
    · rcases List.le_total (contentIdAt links i) (contentIdAt links j) with before | after
      · exact .inl (.inr ⟨same, before⟩)
      · exact .inr (.inr ⟨same.symm, after⟩)
    · exact .inr (.inl after)

instance : IsTrans Nat (SortsBefore links) where
  trans i j k := by
    intro first second
    rcases first with before | ⟨same, least⟩
    · rcases second with later | ⟨same, -⟩
      · exact .inl (before.trans later)
      · exact .inl (same ▸ before)
    · rcases second with later | ⟨same', least'⟩
      · exact .inl (same ▸ later)
      · exact .inr ⟨same.trans same', List.le_trans least least'⟩

/-- In a chain where causes come earlier the order is complete: every path of causes leads to an
earlier record.
Witness: an edge leads to an earlier record, so there is no cycle, and the queue is drained of
all records.
-/
theorem Collected.topologicalOrder_eq_ok (collected : Collected lib profile records links)
    (earlier : Earlier links)
    : ∃ order, topologicalOrder links = .ok order
      ∧ Linearizes (Names links) (List.range links.length) order
      ∧ Greedy (Names links) (SortsBefore links) (List.range links.length) [] order := by
  have back : ∀ i j, Names links i j → j < i := by
    intro i j names
    obtain ⟨link, place, cause, named, other, found, same⟩ := names
    obtain ⟨k, before, referent⟩ := earlier i link place cause named
    have first := collected.seenAt_eq_some.mpr ⟨other, found, same⟩
    obtain rfl := Option.some.inj (first.symm.trans (collected.seenAt_eq_some.mpr referent))
    exact before
  have acyclic : ∀ v, ¬ Relation.TransGen (Names links) v v := by
    intro v cycle
    have descends : ∀ {v w}, Relation.TransGen (Names links) v w → w < v := by
      intro v w path
      induction path with
      | single names => exact back _ _ names
      | tail _ names ih => exact (back _ _ names).trans ih
    exact lt_irrefl v (descends cycle)
  have known : (forM links fun link => forM link.causes fun cause =>
      raiseIf (seenAt links cause = none) (Failure.raised .keyError)) = .ok () := by
    simp only [forM_eq_ok, raiseIf_eq_ok]
    intro link member cause named
    obtain ⟨i, place⟩ := List.mem_iff_getElem?.mp member
    obtain ⟨j, -, referent⟩ := earlier i link place cause named
    rw [collected.seenAt_eq_some.mpr referent]
    nofun
  obtain ⟨order, ran, drained⟩ := @drain_edgesOf _ _ (parents links) (List.range links.length)
    (SortsBefore links) _ _ _ links.length _ List.nodup_range (by simp) .rfl
  have closed : ∀ i ∈ List.range links.length, parents links i ⊆ List.range links.length := by
    intro i inside j named
    have names : Names links i j := collected.requires_eq ▸ ⟨inside, named⟩
    exact List.mem_range.mpr ((back i j names).trans (List.mem_range.mp inside))
  have complete := (drained.complete_iff closed).mpr (collected.requires_eq ▸ acyclic)
  have perm := drained.perm List.nodup_range complete
  have greedy := drained.greedy
  rw [collected.requires_eq] at greedy
  refine ⟨order, ?_, ⟨perm, greedy.causal⟩, greedy⟩
  simp only [topologicalOrder, known, ok_bind, ran]
  exact raiseIf_bind_eq_ok.mpr ⟨not_not.mpr (by simpa using perm.length_eq), rfl⟩

/-- What a verified chain holds: verified records with distinct ids, each after its causes, and the
order that at every position takes the least ready record.
-/
structure Replayed (lib : SignatureLibrary) (profile : Int) (records : List Bytes)
    (chain : VerifiedChain) : Prop where
  collected : Collected lib profile records chain.links
  earlier : Earlier chain.links
  linear : Linearizes (Names chain.links) (List.range chain.links.length) chain.replayOrder
  greedy : Greedy (Names chain.links) (SortsBefore chain.links) (List.range chain.links.length) []
    chain.replayOrder

/-- An accepted log is replayed: its records verify, and the order is the least one with causes
first.
-/
theorem verifyChain_replayed {chain : VerifiedChain}
    (verified : verifyChain lib printing records resolver profile = .ok chain)
    : Replayed lib profile records chain := by
  simp only [verifyChain, bind_eq_ok, pure_eq_ok, Except.ok.injEq] at verified
  obtain ⟨links, links_ok, _, checked, order, ordered, rfl⟩ := verified
  have collected : Collected lib profile records links :=
    collectLinks_collected collected_nil links_ok
  have earlier := collected.checkCauses_eq_ok.mp checked
  obtain ⟨order', ordered', linear, greedy⟩ := collected.topologicalOrder_eq_ok earlier
  obtain rfl := Except.ok.inj (ordered.symm.trans ordered')
  exact ⟨collected, earlier, linear, greedy⟩

/-- The checks before the order have other errors than that of a cycle. -/
theorem collectLinks_fails {links : List VerifiedLink}
    : FailsOnly (· ≠ cycleError) (collectLinks lib printing resolver profile links records) := by
  have resolves : ∀ index raw,
      FailsOnly (· ≠ cycleError) (resolvePubkey printing index raw resolver) := by
    intro index raw
    cases resolver with
    | single pubkey => exact failsOnly_pure _
    | lookup resolve =>
        refine .bind (failsOnly_mapError fun err => by simp [cycleError]) fun signer => ?_
        refine .bind (failsOnly_mapError fun err => by simp [cycleError]) fun found => ?_
        cases found with
        | none => exact failsOnly_throw (by simp [cycleError])
        | some pubkey => exact failsOnly_pure _
  induction records generalizing links with
  | nil => exact failsOnly_pure _
  | cons raw records ih =>
      refine .bind ?_ fun link => ?_
      · refine (resolves _ _).bind fun pubkey => .bind ?_ fun obj => failsOnly_pure _
        exact failsOnly_mapError fun err => by simp [cycleError]
      · cases seenAt links link.contentId with
        | none => exact ih
        | some earlier => exact failsOnly_throw (by simp [cycleError])

/-- After the checks the loop leaves nothing out. -/
theorem verifyChain_no_cycle
    : verifyChain lib printing records resolver profile ≠ .error cycleError := by
  intro failed
  rcases bind_eq_error.mp failed with failed | ⟨links, links_ok, failed⟩
  · exact collectLinks_fails _ failed rfl
  have collected : Collected lib profile records links :=
    collectLinks_collected collected_nil links_ok
  rcases bind_eq_error.mp failed with failed | ⟨_, checked, failed⟩
  · have checks : FailsOnly (· ≠ cycleError) (Governance.checkCauses links) := by
      refine failsOnly_forM fun link => failsOnly_forM fun cause => ?_
      unfold Governance.checkCause
      dsimp only
      split
      · exact failsOnly_throw (by simp [cycleError])
      · exact failsOnly_raiseIf (by simp [cycleError])
    exact checks _ failed rfl
  · obtain ⟨order, ordered, -⟩ :=
      collected.topologicalOrder_eq_ok (collected.checkCauses_eq_ok.mp checked)
    rw [ordered] at failed
    cases failed

end Replaying

/-- Verified chains are replayed in one causal order, and the log framing is inverted. -/
theorem governance_chains (lib : SignatureLibrary) (printing : Printing) (resolver : PubkeyResolver)
    (profile : Int)
    : (∀ records chain, verifyChain lib printing records resolver profile = .ok chain
        → Replayed lib profile records chain)
      ∧ (∀ records, verifyChain lib printing records resolver profile ≠ .error cycleError)
      ∧ (∀ records, Framed records → readLog (framing records) = .ok records)
      ∧ ∀ records cut, Framed records → cut <+: framing records
        → (∀ k, cut ≠ framing (records.take k)) → ∃ failure, readLog cut = .error failure :=
  ⟨fun _ _ => verifyChain_replayed, fun _ => verifyChain_no_cycle,
    fun _ framed => readRecords_eq_ok.mpr ⟨framed, rfl⟩, fun _ _ => readLog_cut⟩

/-- An object on a registered surface, after some causes. -/
def chainObject (created : Int) (causes : List Bytes) : Envelope.Object :=
  { Envelope.sampleObject with created, causes }

/-- The id of the first object. -/
def firstId : Bytes := ((chainObject 5 []).contentId.toOption).getD []

/-- The sample objects verify under their key. -/
theorem verify_chainObject {created : Int} {causes : List Bytes} {id : Bytes}
    (identified : (chainObject created causes).contentId = .ok id) (few : causes.length ≤ 1)
    (nesting : Cbor.depth (.m (chainObject created causes).fieldPairs) ≤ Envelope.maxNestingDepth)
    (size : ∃ octets, (chainObject created causes).signedSize algMldsa65 mldsa65SigSize = .ok octets
      ∧ octets ≤ Envelope.maxObjectSize)
    : ∃ data obj, Ez.verify digestLibrary (fitTo mldsa65PubSize [9]) data 1 = .ok obj
      ∧ obj.id = some id ∧ obj.causes = causes := by
  have base := @Envelope.sampleObject_signable 0 (.inl rfl)
  have signable : Envelope.Signable (some Ez.registered) [] (chainObject created causes) :=
    { base with
      surface := rfl
      causes := few.trans (by decide)
      nesting }
  have isMldsa : mldsa algMldsa65 = .ok .mlDsa65 := rfl
  have key : digestLibrary.mldsaPublic .mlDsa65 [9] = .ok (fitTo mldsa65PubSize [9]) := rfl
  have floor : profileMinLevel 1 ≤ (algLevel algMldsa65).1 := by decide
  obtain ⟨data, id', -, identified', verified⟩ := Envelope.verify_sign
    Envelope.digestLibrary_signsVerifiably signable algMldsa65 isMldsa key floor rfl size
  obtain rfl := Except.ok.inj (identified.symm.trans identified')
  exact ⟨data, _, verified, rfl, rfl⟩

/-- The id of the second object. -/
def secondId : Bytes := ((chainObject 4 [firstId]).contentId.toOption).getD []

def samplePrinting : Printing where
  exc _ := "error"
  octets _ := "octets"

/-- A chain of two records, of which the second names the first.
Witness: both records verify and are collected; their order is the one that the causes leave.
-/
theorem governance_chains_sample
    : ∃ records chain, records.length = 2
      ∧ verifyChain digestLibrary samplePrinting records (.single (fitTo mldsa65PubSize [9])) 1
        = .ok chain
      ∧ Replayed digestLibrary 1 records chain := by
  obtain ⟨first, obj, verified, id, causes⟩ := @verify_chainObject 5 [] firstId (by decide +kernel)
    (by decide) (by decide) ⟨3420, by decide +kernel, by decide⟩
  obtain ⟨second, obj', verified', id', causes'⟩ := @verify_chainObject 4 [firstId] secondId
    (by decide +kernel) (by decide) (by decide) ⟨3472, by decide +kernel, by decide⟩
  have apart : firstId ≠ secondId := by decide +kernel
  obtain ⟨links, links_ok, ids⟩ : ∃ links,
      collectLinks digestLibrary samplePrinting (.single (fitTo mldsa65PubSize [9])) 1 []
        [first, second]
        = .ok links
      ∧ links.map (fun link => (link.contentId, link.causes))
        = [(firstId, []), (secondId, [firstId])] := by
    simp [collectLinks, verifyOne, resolvePubkey, verified, verified', seenAt, id, id', causes,
      causes', apart, Except.mapError]
  have collected := collectLinks_collected collected_nil links_ok
  have earlier : Earlier links := by
    obtain ⟨l, rest, rfl, same, later⟩ := List.map_eq_cons_iff.mp ids
    obtain ⟨l', rest, rfl, same', later⟩ := List.map_eq_cons_iff.mp later
    obtain rfl := List.map_eq_nil_iff.mp later
    obtain ⟨zero, none⟩ := Prod.mk.inj same
    obtain ⟨-, one⟩ := Prod.mk.inj same'
    intro i link place cause named
    match i, place with
    | 0, place =>
        obtain rfl := Option.some.inj place
        simp [none] at named
    | 1, place =>
        obtain rfl := Option.some.inj place
        exact ⟨0, by decide, l, rfl, by simpa [one, zero, eq_comm] using named⟩
  obtain ⟨order, ordered, -⟩ := collected.topologicalOrder_eq_ok earlier
  have chained : verifyChain digestLibrary samplePrinting [first, second]
      (.single (fitTo mldsa65PubSize [9])) 1 = .ok { links, replayOrder := order } := by
    have checked : Governance.checkCauses links = .ok () := collected.checkCauses_eq_ok.mpr earlier
    simp only [verifyChain, links_ok, ok_bind, checked, ordered, pure_eq_ok]
  exact ⟨_, _, rfl, chained, (governance_chains digestLibrary samplePrinting _ 1).1 _ _ chained⟩

end Naalp.Transparency
