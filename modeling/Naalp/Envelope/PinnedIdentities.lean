import Mathlib.Logic.Relation
import Naalp.Envelope.RotationObjects
import Naalp.Python.FingerprintCache

/-! The pin store: the pin of a logical id changes only along rotation objects that both keys sign.
-/

namespace Naalp.Python.FingerprintCache

open Naalp.Foundation
open Naalp.Python.Cose
open Naalp.Python.Envelope

section Pinning

variable (lib : SignatureLibrary) (repr : PyStr → String) (profile : Int)

/-- The call offers a rotation object whose first leg verifies under the pinned key and whose second
leg verifies under the presented one.
-/
def OffersRotation (call : Presented) (pinned : PinnedIdentity) : Prop :=
  ∃ obj o, call.rotationObject = some obj
    ∧ CoSigned lib profile pinned.alg pinned.pubkey call.alg call.pubkey [] obj o
    ∧ isRotationObject o.channel o.kind = true

/-- The pin of the presented key. -/
def Presented.entry (call : Presented) (fingerprint : PyStr) : PinnedIdentity :=
  { alg := call.alg, pubkey := call.pubkey, fingerprint }

/-- What a call can do: it is refused, it finds the presented key pinned, it pins the key of a new
id, or it replaces a pin.
-/
inductive Answered (pins : Pins) (call : Presented) : Py PinnedIdentity → Pins → Prop where
  | refused (err : Exc) : Answered pins call (.error err) pins
  | known {pinned} (found : pins.lookup call.logicalId = some pinned)
    : Answered pins call (.ok pinned) pins
  | first {fingerprint} (derived : Identity.signerId call.alg call.pubkey = .ok fingerprint)
    (absent : pins.lookup call.logicalId = none)
    : Answered pins call (.ok (Presented.entry call fingerprint))
        (pins.insert call.logicalId (Presented.entry call fingerprint))
  | rotated {fingerprint pinned}
    (derived : Identity.signerId call.alg call.pubkey = .ok fingerprint)
    (found : pins.lookup call.logicalId = some pinned)
    (proven : OffersRotation lib profile call pinned)
    : Answered pins call (.ok (Presented.entry call fingerprint))
        (pins.insert call.logicalId (Presented.entry call fingerprint))

variable {lib repr profile}

/-- What a call of `check_and_pin` can do.
Witness: split on whether the id is pinned, and on whether the key is the pinned one; only an
accepted rotation changes a pin.
-/
theorem answered (pins : Pins) (call : Presented)
    : Answered lib profile pins call (respond (checkAndPin lib repr profile) pins call).1
        (respond (checkAndPin lib repr profile) pins call).2 := by
  rw [respond, checkAndPin]
  cases derived : Identity.signerId call.alg call.pubkey with
  | error err => exact .refused err
  | ok fingerprint =>
      rw [check_bind_of_ok rfl, get_bind]
      cases found : pins.lookup call.logicalId with
      | none => exact .first derived found
      | some pinned =>
          dsimp only
          split
          · exact .known found
          · cases offered : call.rotationObject with
            | none => exact .refused _
            | some obj =>
                dsimp only
                cases verified : verifyRotationObject lib profile pinned.alg pinned.pubkey call.alg
                    call.pubkey (some isIdentityRotationKind) obj [] with
                | error err => exact .refused err
                | ok o =>
                    obtain ⟨signed, rotation⟩ := coSigned_of_accepted verified
                    exact .rotated derived found ⟨obj, o, offered, signed, rotation⟩

-----------------------------------------------------------------------------------------
-- One call
-----------------------------------------------------------------------------------------

/-- What every call keeps to. -/
structure Proper (lib : SignatureLibrary) (profile : Int)
    (event : Event Pins Presented (Py PinnedIdentity)) : Prop where
  refused : ∀ err, event.outcome = .error err → event.after = event.before
  others : ∀ id, id ≠ event.call.logicalId → event.after.lookup id = event.before.lookup id
  changes : event.after.lookup event.call.logicalId ≠ event.before.lookup event.call.logicalId
    → event.before.lookup event.call.logicalId = none
      ∨ ∃ pinned, event.before.lookup event.call.logicalId = some pinned
        ∧ OffersRotation lib profile event.call pinned
  returned : ∀ pinned, event.outcome = .ok pinned
    → event.after.lookup event.call.logicalId = some pinned

/-- What a call can do is proper: a pin is made once, and changed by a rotation only.
Witness: cases on what the call can answer; a pin is inserted in two of them.
-/
theorem proper_of_answered {pins after : Pins} {call : Presented} {outcome : Py PinnedIdentity}
    (answered : Answered lib profile pins call outcome after)
    : Proper lib profile { before := pins, call, outcome, after } := by
  have inserted : ∀ {fingerprint}, outcome = .ok (Presented.entry call fingerprint)
      → after = pins.insert call.logicalId (Presented.entry call fingerprint)
      → pins.lookup call.logicalId = none
        ∨ (∃ pinned, pins.lookup call.logicalId = some pinned
          ∧ OffersRotation lib profile call pinned)
      → Proper lib profile { before := pins, call, outcome, after } := by
    intro fingerprint returned assigned allowed
    refine { refused := ?_, others := ?_, changes := fun _ => allowed, returned := ?_ }
    · intro err failed
      cases returned.symm.trans failed
    · intro id other
      show after.lookup id = pins.lookup id
      rw [assigned, AList.lookup_insert_ne other]
    · intro pinned same
      show after.lookup call.logicalId = some pinned
      rw [assigned, AList.lookup_insert, Except.ok.inj (returned.symm.trans same)]
  cases answered with
  | refused err =>
      exact ⟨fun _ _ => rfl, fun _ _ => rfl, fun changed => absurd rfl changed, nofun⟩
  | @known pinned found =>
      have succeeded : ∀ err, (Except.ok pinned : Py PinnedIdentity) ≠ .error err := by
        intro err failed
        cases failed
      refine ⟨fun err failed => absurd failed (succeeded err), fun _ _ => rfl,
        fun changed => absurd rfl changed, ?_⟩
      intro pinned same
      obtain rfl := Except.ok.inj same
      exact found
  | first derived absent => exact inserted rfl rfl (.inl absent)
  | rotated derived found proven => exact inserted rfl rfl (.inr ⟨_, found, proven⟩)

-----------------------------------------------------------------------------------------
-- Runs
-----------------------------------------------------------------------------------------

/-- The fingerprint of every pin is the signer id of its key. -/
def Derived (pins : Pins) : Prop :=
  ∀ id pinned, pins.lookup id = some pinned
    → Identity.signerId pinned.alg pinned.pubkey = .ok pinned.fingerprint

/-- Every pin still derives its id after a call. -/
theorem Answered.derived {pins after : Pins} {call : Presented} {outcome : Py PinnedIdentity}
    (answered : Answered lib profile pins call outcome after) (derived : Derived pins)
    : Derived after := by
  have inserted : ∀ {fingerprint}, Identity.signerId call.alg call.pubkey = .ok fingerprint
      → Derived (pins.insert call.logicalId (Presented.entry call fingerprint)) := by
    intro fingerprint presented id pinned found
    by_cases same : id = call.logicalId
    · subst same
      rw [AList.lookup_insert] at found
      obtain rfl := Option.some.inj found
      exact presented
    · rw [AList.lookup_insert_ne same] at found
      exact derived id pinned found
  cases answered with
  | refused | known => exact derived
  | first presented => exact inserted presented
  | rotated presented => exact inserted presented

/-- One of the calls replaces a pin of the id by another, with a rotation from the first key to the
second.
-/
def RotatedBy (lib : SignatureLibrary) (profile : Int) (calls : List Presented) (id : PyStr)
    (pinned next : PinnedIdentity) : Prop :=
  ∃ call ∈ calls, call.logicalId = id ∧ (call.alg = next.alg ∧ call.pubkey = next.pubkey)
    ∧ OffersRotation lib profile call pinned

/-- A call leaves an id pinned, to the same key or to one that the pinned key rotated to. -/
theorem Answered.rotation {pins after : Pins} {call : Presented} {outcome : Py PinnedIdentity}
    (answered : Answered lib profile pins call outcome after) {id : PyStr} {pinned : PinnedIdentity}
    (found : pins.lookup id = some pinned)
    : ∃ next, after.lookup id = some next
      ∧ (next = pinned ∨ RotatedBy lib profile [call] id pinned next) := by
  cases answered with
  | refused | known => exact ⟨pinned, found, .inl rfl⟩
  | first derived absent =>
      have other : id ≠ call.logicalId := by
        rintro rfl
        cases absent.symm.trans found
      exact ⟨pinned, by rw [AList.lookup_insert_ne other, found], .inl rfl⟩
  | rotated derived found' proven =>
      by_cases same : id = call.logicalId
      · subst same
        obtain rfl := Option.some.inj (found'.symm.trans found)
        exact ⟨_, AList.lookup_insert _, .inr ⟨call, List.mem_cons_self, rfl, ⟨rfl, rfl⟩, proven⟩⟩
      · exact ⟨pinned, by rw [AList.lookup_insert_ne same, found], .inl rfl⟩

theorem RotatedBy.mono {calls more : List Presented} {id : PyStr} {pinned next : PinnedIdentity}
    (inside : calls ⊆ more) (rotated : RotatedBy lib profile calls id pinned next)
    : RotatedBy lib profile more id pinned next := by
  obtain ⟨call, member, rotates⟩ := rotated
  exact ⟨call, inside member, rotates⟩

/-- From a pin a run leads along rotations; by induction over its calls. -/
theorem rotations_of_run {pins : Pins} {calls : List Presented} {id : PyStr}
    {pinned : PinnedIdentity} (found : pins.lookup id = some pinned)
    : ∃ next, (finalState (respond (checkAndPin lib repr profile)) pins calls).lookup id = some next
      ∧ Relation.ReflTransGen (RotatedBy lib profile calls id) pinned next := by
  induction calls generalizing pins pinned with
  | nil => exact ⟨pinned, found, .refl⟩
  | cons call calls ih =>
      obtain ⟨between, kept, rotates⟩ := (answered pins call).rotation found
      obtain ⟨next, final, chain⟩ := ih kept
      have inside : RotatedBy lib profile calls id ≤ RotatedBy lib profile (call :: calls) id :=
        fun _ _ => RotatedBy.mono (List.subset_cons_self call calls)
      have chain := Relation.ReflTransGen.mono inside _ _ chain
      refine ⟨next, final, ?_⟩
      rcases rotates with rfl | rotated
      · exact chain
      · exact .head (rotated.mono (by simp)) chain

/-- In every run the calls are proper, every pin has the fingerprint of its key, and every pin is
reached from each earlier one of its id by rotations.
-/
theorem pins_follow_rotations (lib : SignatureLibrary) (repr : PyStr → String) (profile : Int)
    (calls : List Presented)
    : (∀ event ∈ trace (respond (checkAndPin lib repr profile)) ∅ calls, Proper lib profile event)
      ∧ Derived (finalState (respond (checkAndPin lib repr profile)) ∅ calls)
      ∧ ∀ before after, calls = before ++ after → ∀ id pinned,
        (finalState (respond (checkAndPin lib repr profile)) ∅ before).lookup id = some pinned
        → ∃ next, (finalState (respond (checkAndPin lib repr profile)) ∅ calls).lookup id
          = some next
          ∧ Relation.ReflTransGen (RotatedBy lib profile after id) pinned next := by
  refine ⟨?_, ?_, ?_⟩
  · intro event member
    obtain ⟨before, call, after, -, rfl⟩ := mem_trace_iff.mp member
    exact proper_of_answered (answered _ call)
  · refine finalState_keeps (fun pins call derived => (answered pins call).derived derived) ?_ calls
    intro id pinned found
    cases found
  · intro before after same id pinned found
    rw [same, finalState, List.foldl_append]
    exact rotations_of_run found

end Pinning

end Naalp.Python.FingerprintCache
