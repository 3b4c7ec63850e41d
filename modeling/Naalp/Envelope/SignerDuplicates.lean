import Naalp.Python.Extensions
import Naalp.Envelope.SignVerify

/-! The signer duplications that are detected among presented objects: exactly the positions that
one signer has given to two different objects, whatever the order of the objects.
-/

namespace Naalp.Python.Envelope

open Naalp.Foundation
open Naalp.Python.Cbor

/-- The object's signer has put it at the position `counter`, under the content id `id`. -/
def Presents (signer : Bytes) (counter : Int) (id : Bytes) (o : Object) : Prop :=
  o.signer = signer ∧ o.signerCounter = some counter ∧ o.contentId = .ok id

/-- One finding stands for each signer and position that two different objects share, with the
ids of all of them.
-/
structure FindsDuplicates (objs : List Object) (findings : List DuplicationFinding) : Prop where
  places : ∀ signer counter,
    (∃ f ∈ findings, f.signer = signer ∧ f.counter = counter)
    ↔ ∃ o ∈ objs, ∃ o' ∈ objs, ∃ id id',
        Presents signer counter id o ∧ Presents signer counter id' o' ∧ id ≠ id'
  ids : ∀ f ∈ findings, ∀ id, id ∈ f.ids ↔ ∃ o ∈ objs, Presents f.signer f.counter id o
  idsAscend : ∀ f ∈ findings, f.ids.Pairwise (· < ·)
  ordered : findings.Pairwise fun f g =>
    f.signer < g.signer ∨ f.signer = g.signer ∧ f.counter < g.counter

variable {objs others : List Object} {findings findings' : List DuplicationFinding}

/-- What an object is filed as. -/
def Object.presented (o : Object) : Option (Bytes × Int × Bytes) := do
  let seq ← o.signerCounter
  let id ← o.contentId.toOption
  return (o.signer, seq, id)

theorem presented_eq_some {o : Object} {signer id : Bytes} {counter : Int}
    : o.presented = some (signer, counter, id) ↔ Presents signer counter id o := by
  unfold Object.presented Presents
  cases o.signerCounter <;> cases o.contentId <;> simp [Except.toOption, and_comm]

/-- The first loop files what the objects present, by induction on the objects. -/
theorem foldlM_groupPresented (encodable : ∀ o ∈ objs, ∃ id, o.contentId = .ok id)
    (groups : Groups Bytes Int Bytes)
    : objs.foldlM groupPresented groups
      = .ok ((objs.filterMap Object.presented).foldl Groups.file groups) := by
  induction objs generalizing groups with
  | nil => rfl
  | cons o objs ih =>
      obtain ⟨⟨id, identified⟩, rest⟩ := List.forall_mem_cons.mp encodable
      rw [List.foldlM_cons]
      cases counted : o.signerCounter with
      | none =>
          have absent : o.presented = none := by simp [Object.presented, counted]
          rw [List.filterMap_cons_none absent, groupPresented, counted]
          exact ih rest groups
      | some seq =>
          have filed : o.presented = some (o.signer, seq, id) :=
            presented_eq_some.mpr ⟨rfl, counted, identified⟩
          rw [List.filterMap_cons_some filed, groupPresented, counted]
          simp only [identified]
          exact ih rest _

theorem findingOf_eq_some {signer : Bytes} {counter : Int} {idset : List Bytes}
    {f : DuplicationFinding}
    : findingOf signer counter idset = some f
      ↔ 2 ≤ idset.length ∧ f = ⟨signer, counter, ascending idset⟩ := by
  unfold findingOf
  split
  case isTrue few => simp [Nat.not_le.mpr few]
  case isFalse many => simp [Nat.not_lt.mp many, eq_comm]

/-- A duplicate-free list has two members exactly when it has two different ones. -/
theorem two_le_length_iff {l : List Bytes} (distinct : l.Nodup)
    : 2 ≤ l.length ↔ ∃ id ∈ l, ∃ id' ∈ l, id ≠ id' := by
  constructor
  · intro long
    refine ⟨l[0], List.getElem_mem _, l[1], List.getElem_mem _, ?_⟩
    intro same
    have collapsed := (List.Nodup.getElem_inj_iff distinct).mp same
    omega
  · intro different
    obtain ⟨id, member, id', member', apart⟩ := different
    match l with
    | [] => cases member
    | [only] =>
        have first := List.mem_singleton.mp member
        have second := List.mem_singleton.mp member'
        exact (apart (first.trans second.symm)).elim
    | _ :: _ :: _ => simp

/-- The report of groups that hold the presented ids lists exactly the duplicates, in their
order.
Witness: a group is reported when it has two ids; the groups are sorted by signer and counter,
and hold each id once.
-/
theorem findsDuplicates_report {groups : Groups Bytes Int Bytes}
    (holds : ∀ signer counter id,
      id ∈ groups.entries signer counter ↔ ∃ o ∈ objs, Presents signer counter id o)
    (distinct : ∀ signer counter, (groups.entries signer counter).Nodup)
    : FindsDuplicates objs (groups.report findingOf) := by
  have found {f : DuplicationFinding} : f ∈ groups.report findingOf
      ↔ 2 ≤ (groups.entries f.signer f.counter).length
        ∧ f.ids = ascending (groups.entries f.signer f.counter) := by
    rw [Groups.mem_report fun _ _ => rfl]
    constructor
    · intro reported
      obtain ⟨signer, counter, reported⟩ := reported
      obtain ⟨several, rfl⟩ := findingOf_eq_some.mp reported
      exact ⟨several, rfl⟩
    · intro reported
      obtain ⟨several, ids⟩ := reported
      refine ⟨f.signer, f.counter, findingOf_eq_some.mpr ⟨several, ?_⟩⟩
      rw [← ids]
  refine ⟨?_, ?_, ?_, ?_⟩
  · intro signer counter
    have several := two_le_length_iff (distinct signer counter)
    constructor
    · intro reported
      obtain ⟨f, member, rfl, rfl⟩ := reported
      obtain ⟨id, present, id', present', apart⟩ := several.mp (found.mp member).1
      obtain ⟨o, member, presents⟩ := (holds _ _ _).mp present
      obtain ⟨o', member', presents'⟩ := (holds _ _ _).mp present'
      exact ⟨o, member, o', member', id, id', presents, presents', apart⟩
    · intro shared
      obtain ⟨o, member, o', member', id, id', presents, presents', apart⟩ := shared
      refine ⟨⟨signer, counter, ascending (groups.entries signer counter)⟩,
        found.mpr ⟨several.mpr ?_, rfl⟩, rfl, rfl⟩
      exact ⟨id, (holds _ _ _).mpr ⟨o, member, presents⟩,
        id', (holds _ _ _).mpr ⟨o', member', presents'⟩, apart⟩
  · intro f member id
    rw [(found.mp member).2, mem_ascending, holds]
  · intro f member
    rw [(found.mp member).2]
    exact pairwise_ascending (distinct _ _)
  · refine Groups.pairwise_report ?_
    intro signer counter signer' counter' f f' reported reported' before
    obtain ⟨-, rfl⟩ := findingOf_eq_some.mp reported
    obtain ⟨-, rfl⟩ := findingOf_eq_some.mp reported'
    exact before

/-- The findings are determined by the objects.
Witness: the findings have the same places, the same ids at each place, and one order.
-/
theorem FindsDuplicates.unique (finds : FindsDuplicates objs findings)
    (finds' : FindsDuplicates objs findings') : findings = findings' := by
  have carried {xs ys : List DuplicationFinding} (findsXs : FindsDuplicates objs xs)
      (findsYs : FindsDuplicates objs ys) {f : DuplicationFinding} (member : f ∈ xs)
      : f ∈ ys := by
    have shared := (findsXs.places f.signer f.counter).mp ⟨f, member, rfl, rfl⟩
    obtain ⟨g, member', sameSigner, sameCounter⟩ := (findsYs.places _ _).mpr shared
    have sameIds : g.ids = f.ids := by
      refine List.Pairwise.eq_of_mem_iff (findsYs.idsAscend g member')
        (findsXs.idsAscend f member) fun id => ?_
      rw [findsYs.ids g member', findsXs.ids f member, sameSigner, sameCounter]
    have same : g = f := by
      cases f
      cases g
      simp_all
    rwa [same] at member'
  have irreflexive : Std.Irrefl fun f g : DuplicationFinding =>
      f.signer < g.signer ∨ f.signer = g.signer ∧ f.counter < g.counter :=
    ⟨fun f before => by
      rcases before with before | ⟨-, before⟩
      · exact List.lt_irrefl _ before
      · exact lt_irrefl _ before⟩
  have antisymmetric : Std.Antisymm fun f g : DuplicationFinding =>
      f.signer < g.signer ∨ f.signer = g.signer ∧ f.counter < g.counter :=
    ⟨fun f g before after => by
      rcases before with before | ⟨same, before⟩ <;> rcases after with after | ⟨same', after⟩
      · exact (List.lt_asymm before after).elim
      · exact (List.lt_irrefl _ (same' ▸ before)).elim
      · exact (List.lt_irrefl _ (same ▸ after)).elim
      · exact (lt_asymm before after).elim⟩
  exact List.Pairwise.eq_of_mem_iff finds.ordered finds'.ordered fun f =>
    ⟨carried finds finds', carried finds' finds⟩

theorem FindsDuplicates.of_mem_iff (finds : FindsDuplicates objs findings)
    (same : ∀ o, o ∈ others ↔ o ∈ objs) : FindsDuplicates others findings := by
  obtain ⟨places, ids, idsAscend, ordered⟩ := finds
  refine ⟨?_, ?_, idsAscend, ordered⟩
  · simpa only [same] using places
  · simpa only [same] using ids

/-- Objects with content ids are reported on: the loop files each of them in its group. -/
theorem detectSignerDuplication_eq_ok (encodable : ∀ o ∈ objs, ∃ id, o.contentId = .ok id)
    : ∃ findings, detectSignerDuplication objs = .ok findings ∧ FindsDuplicates objs findings := by
  obtain ⟨holds, distinct⟩ := Groups.filed (objs.filterMap Object.presented)
  refine ⟨_, ?_, findsDuplicates_report ?_ distinct⟩
  · rw [detectSignerDuplication, foldlM_groupPresented encodable]
    rfl
  · intro signer counter id
    rw [holds, List.mem_filterMap]
    simp only [presented_eq_some]

/-- The findings name every position shared by different objects of one signer, and are the same
for any other list of the same objects.
-/
theorem signer_duplicates_exact (encodable : ∀ o ∈ objs, ∃ id, o.contentId = .ok id)
    : ∃ findings, detectSignerDuplication objs = .ok findings ∧ FindsDuplicates objs findings
        ∧ ∀ others, (∀ o, o ∈ others ↔ o ∈ objs) →
            detectSignerDuplication others = .ok findings := by
  obtain ⟨findings, ran, finds⟩ := detectSignerDuplication_eq_ok encodable
  refine ⟨findings, ran, finds, ?_⟩
  intro others same
  obtain ⟨findings', ran', finds'⟩ :=
    detectSignerDuplication_eq_ok fun o member => encodable o ((same o).mp member)
  have back := finds'.of_mem_iff fun o => (same o).symm
  rw [ran', back.unique finds]

/-- Two objects of one signer at the position 3, the first presented twice. -/
def presentedSample : List Object :=
  [sampleObject.setSignerCounter 3, { sampleObject with created := 6 }.setSignerCounter 3,
    sampleObject.setSignerCounter 3]

/-- Three objects, of which two have one signer and one counter; every order of them gives the
same findings.
-/
theorem signer_duplicates_exact_sample
    : ∃ findings, detectSignerDuplication presentedSample = .ok findings
        ∧ FindsDuplicates presentedSample findings
        ∧ ∀ others, (∀ o, o ∈ others ↔ o ∈ presentedSample) →
            detectSignerDuplication others = .ok findings := by
  have encoded : ∀ o ∈ presentedSample, o.contentId.isOk := by decide +kernel
  refine signer_duplicates_exact fun o member => ?_
  cases identified : o.contentId with
  | ok id => exact ⟨id, rfl⟩
  | error error =>
      have contrary := encoded o member
      rw [identified] at contrary
      cases contrary

end Naalp.Python.Envelope
