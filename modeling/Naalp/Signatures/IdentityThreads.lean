import Naalp.Signatures.CompositeIds
import Naalp.Signatures.RawRecords

/-! Durable identities: a thread resolves from rotations that continue each other, threads are glued
together, and a thread is handed over from key to key.
-/

namespace Naalp.Signatures

open Naalp.Foundation
open Naalp.Python
open Naalp.Python.Cose
open Naalp.Python.Identity

/-- The two keys derive the ids of the record, and both have signed it. -/
structure HandsOver (lib : SignatureLibrary) (e : RotationEvidence) : Prop where
  old : signerId e.oldAlg e.oldPub = .ok e.record.old
  new : signerId e.newAlg e.newPub = .ok e.record.new
  signed : ∃ m, e.record.bytes = .ok m ∧ coseVerify1Raw lib e.oldAlg e.oldPub m e.oldSig = .ok true
    ∧ coseVerify1Raw lib e.newAlg e.newPub m e.newSig = .ok true

/-- Every rotation starts at the id that the one before it ends in, the first one at `source`. -/
def Continues (source : PyStr) : List RotationEvidence → Prop
  | [] => True
  | e :: rest => e.record.old = source ∧ Continues e.record.new rest

/-- The rotation hands over from one id to the other. -/
def Links (lib : SignatureLibrary) (e : RotationEvidence) (link : PyStr × PyStr) : Prop :=
  HandsOver lib e ∧ e.record.old = link.1 ∧ e.record.new = link.2

/-- The thread from the root over the ids. -/
def threadOver (root : PyStr) (ids : List PyStr) : Thread :=
  { root, current := ids.getLastD root, chain := root :: ids }

/-- The key that the first rotation hands over to is the one that hands over in the next, unless two
keys have one digest.
-/
def SameHolder (e next : RotationEvidence) : Prop :=
  (e.newAlg = next.oldAlg ∧ e.newPub = next.oldPub)
  ∨ DigestsMeet (taggedKey e.newAlg e.newPub) (taggedKey next.oldAlg next.oldPub)

section Threads

variable {lib : SignatureLibrary} {e next : RotationEvidence} {evs more : List RotationEvidence}
  {source : PyStr} {ids : List PyStr} {thread : Thread}

theorem verifyRotation_eq_ok
    : verifyRotation lib e.record e.oldAlg e.oldPub e.newAlg e.newPub e.oldSig e.newSig = .ok ()
      ↔ HandsOver lib e := by
  constructor
  · intro verified
    obtain ⟨oldKey, newKey⟩ := checkRotationIds_eq_ok.mp (unit_bind_eq_ok.mp verified).1
    exact ⟨oldKey, newKey, verifyRotation_signed verified⟩
  · rintro ⟨oldKey, newKey, m, encoded, oldLeg, newLeg⟩
    simp [verifyRotation, checkRotationIds_eq_ok.mpr ⟨oldKey, newKey⟩, encoded, oldLeg, newLeg,
      raiseIf]

/-- The loop resolves to the new ids of rotations that continue each other, by induction over them.
-/
theorem resolveRotations_eq_ok
    : resolveRotations lib source evs = .ok ids
      ↔ (∀ e ∈ evs, HandsOver lib e) ∧ Continues source evs ∧ ids = evs.map (·.record.new) := by
  induction evs generalizing source ids with
  | nil => simp [resolveRotations, Continues, pure_eq_ok, eq_comm]
  | cons e evs ih =>
      rw [resolveRotations, raiseIf_bind_eq_ok, unit_bind_eq_ok, verifyRotation_eq_ok, not_not]
      simp only [bind_eq_ok, ih, pure_eq_ok, Except.ok.injEq, Continues, List.forall_mem_cons,
        List.map_cons]
      constructor
      · rintro ⟨same, hands, later, ⟨all, continues, rfl⟩, rfl⟩
        exact ⟨⟨hands, all⟩, ⟨same, continues⟩, rfl⟩
      · rintro ⟨⟨hands, all⟩, ⟨same, continues⟩, rfl⟩
        exact ⟨same, hands, _, ⟨all, continues, rfl⟩, rfl⟩

/-- A thread is resolved exactly when every rotation hands over and each continues the one
before; it runs over their new ids.
-/
theorem resolveThread_eq_ok
    : resolveThread lib evs = .ok thread
      ↔ evs ≠ [] ∧ (∀ e ∈ evs, HandsOver lib e) ∧ Continues thread.root evs
        ∧ thread = threadOver thread.root (evs.map (·.record.new)) := by
  cases evs with
  | nil => simp [resolveThread]
  | cons first rest =>
      simp only [resolveThread, bind_eq_ok, resolveRotations_eq_ok, pure_eq_ok, Except.ok.injEq]
      constructor
      · rintro ⟨_, ⟨all, continues, rfl⟩, rfl⟩
        exact ⟨List.cons_ne_nil _ _, all, continues, rfl⟩
      · rintro ⟨-, all, continues, same⟩
        have root := continues.1
        rw [← root] at continues same
        exact ⟨_, ⟨all, continues, rfl⟩, same.symm⟩

/-- Rotations link the ids of a chain one after the other, by induction over the rotations. -/
theorem forall_links
    : List.Forall₂ (Links lib) evs ((source :: ids).zip ids)
      ↔ (∀ e ∈ evs, HandsOver lib e) ∧ Continues source evs ∧ ids = evs.map (·.record.new) := by
  induction evs generalizing source ids with
  | nil =>
      cases ids <;> simp [Continues]
  | cons e evs ih =>
      cases ids with
      | nil => simp
      | cons id ids =>
          rw [List.zip_cons_cons, List.forall₂_cons, ih, Links, Continues, List.forall_mem_cons,
            List.map_cons, List.cons.injEq]
          constructor
          · rintro ⟨⟨hands, old, rfl⟩, all, continues, same⟩
            exact ⟨⟨hands, all⟩, ⟨old, continues⟩, rfl, same⟩
          · rintro ⟨⟨hands, all⟩, ⟨old, continues⟩, rfl, same⟩
            exact ⟨⟨hands, old, rfl⟩, all, continues, same⟩

/-- A resolved thread is a chain from its root to its current id, with one rotation for every
step.
-/
theorem resolveThread_links
    : resolveThread lib evs = .ok thread
      ↔ evs ≠ [] ∧ thread.chain.head? = some thread.root
        ∧ thread.chain.getLast? = some thread.current
        ∧ List.Forall₂ (Links lib) evs (thread.chain.zip thread.chain.tail) := by
  obtain ⟨root, current, chain⟩ := thread
  rw [resolveThread_eq_ok]
  refine and_congr_right fun _ => ?_
  cases chain with
  | nil => simp [threadOver]
  | cons first ids =>
      simp only [threadOver, Thread.mk.injEq, List.cons.injEq, true_and, List.head?_cons,
        Option.some.injEq, List.getLast?_cons, ← List.getLastD_eq_getLast?, List.tail_cons,
          forall_links]
      constructor
      · rintro ⟨all, continues, rfl, rfl, rfl⟩
        exact ⟨rfl, rfl, all, continues, rfl⟩
      · rintro ⟨rfl, rfl, all, continues, rfl⟩
        exact ⟨all, continues, rfl, rfl, rfl⟩

/-- Rotations continue each other in parts when the second part starts where the first one ends, by
induction over the first part.
-/
theorem continues_append
    : Continues source (evs ++ more)
      ↔ Continues source evs ∧ Continues ((evs.map (·.record.new)).getLastD source) more := by
  induction evs generalizing source with
  | nil => simp [Continues]
  | cons e evs ih =>
      rw [List.cons_append, Continues, ih, Continues, List.map_cons, List.getLastD_cons, and_assoc]

/-- Threads that meet are resolved as one, and the other way round.
Witness: the walk goes on from the current key of the first thread.
-/
theorem resolveThread_append (some_ : evs ≠ []) (more_ : more ≠ [])
    : resolveThread lib (evs ++ more) = .ok thread
      ↔ ∃ first second, resolveThread lib evs = .ok first ∧ resolveThread lib more = .ok second
        ∧ second.root = first.current
        ∧ thread = ⟨first.root, second.current, first.chain ++ second.chain.tail⟩ := by
  have last : ∀ (left right : List PyStr) (root : PyStr),
      (left ++ right).getLastD root = right.getLastD (left.getLastD root) := by
    intro left right root
    cases right <;> simp [List.getLast?_cons]
  simp only [resolveThread_eq_ok, List.forall_mem_append, continues_append]
  constructor
  · rintro ⟨-, ⟨all, all'⟩, ⟨continues, continues'⟩, same⟩
    let stands := (evs.map (·.record.new)).getLastD thread.root
    refine ⟨threadOver thread.root (evs.map (·.record.new)),
      threadOver stands (more.map (·.record.new)), ⟨some_, all, continues, rfl⟩,
        ⟨more_, all', continues', rfl⟩, rfl, ?_⟩
    rw [same, List.map_append]
    simp only [threadOver, last, stands, List.cons_append, List.tail_cons]
  · rintro ⟨first, second, ⟨-, all, continues, same⟩, ⟨-, all', continues', same'⟩, meets, rfl⟩
    have stands : first.current = (evs.map (·.record.new)).getLastD first.root :=
      congrArg (·.current) same
    refine ⟨by simp [some_], ⟨all, all'⟩, ⟨continues, ?_⟩, ?_⟩
    · rw [← stands, ← meets]
      exact continues'
    · rw [same', meets, stands, same, List.map_append]
      simp only [threadOver, last, List.cons_append, List.tail_cons]

/-- Both ids are of one string, so the keys are one or their digests meet. -/
theorem sameHolder (hands : HandsOver lib e) (takes : HandsOver lib next)
    (continues : next.record.old = e.record.new) : SameHolder e next := by
  obtain ⟨registered, id⟩ := signerId_eq_ok.mp hands.new
  obtain ⟨registered', id'⟩ := signerId_eq_ok.mp takes.old
  rcases same_of_ids (id.symm.trans (continues.symm.trans id')) with same | meet
  · exact .inl (taggedKey_inj registered registered' same)
  · exact .inr meet

/-- The rotations of a thread are handed over from one to the next, by induction over them. -/
theorem isChain_sameHolder (all : ∀ e ∈ evs, HandsOver lib e) (continues : Continues source evs)
    : evs.IsChain SameHolder := by
  induction evs generalizing source with
  | nil => exact .nil
  | cons e evs ih =>
      obtain ⟨hands, later⟩ := List.forall_mem_cons.mp all
      cases evs with
      | nil => exact List.isChain_singleton e
      | cons next evs =>
          have takes := later next List.mem_cons_self
          exact List.isChain_cons_cons.mpr
            ⟨sameHolder hands takes continues.2.1, ih later continues.2⟩

end Threads

/-- A thread resolves exactly when each of its rotations, with the signatures of both keys, hands
over from one id of the chain to the next. Two runs of rotations resolve together exactly when each
resolves and the second thread is rooted where the first one stands, to the first chain gone on by
the second. And in a resolved thread the key that a rotation hands over to is the key that hands
over in the next one, unless two keys have one digest.
-/
theorem durable_threads (lib : SignatureLibrary)
    : (∀ evs thread, resolveThread lib evs = .ok thread
        ↔ evs ≠ [] ∧ thread.chain.head? = some thread.root
          ∧ thread.chain.getLast? = some thread.current
          ∧ List.Forall₂ (Links lib) evs (thread.chain.zip thread.chain.tail))
      ∧ (∀ evs more thread, evs ≠ [] → more ≠ []
        → (resolveThread lib (evs ++ more) = .ok thread
          ↔ ∃ first second, resolveThread lib evs = .ok first ∧ resolveThread lib more = .ok second
            ∧ second.root = first.current
            ∧ thread = ⟨first.root, second.current, first.chain ++ second.chain.tail⟩))
      ∧ ∀ evs thread, resolveThread lib evs = .ok thread → evs.IsChain SameHolder := by
  refine ⟨fun evs thread => resolveThread_links, fun evs more thread some_ more_ => ?_, ?_⟩
  · exact resolveThread_append some_ more_
  · intro evs thread resolved
    obtain ⟨-, all, continues, -⟩ := resolveThread_eq_ok.mp resolved
    exact isChain_sameHolder all continues

end Naalp.Signatures
