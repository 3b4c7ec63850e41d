import Naalp.Foundation.HashChain
import Naalp.Python.Agui
import Naalp.Signatures.SampleObjects

/-! Consent to an action that was shown in a chain of user-interface events. The verifier binds the
approval to the first approved event of the chain. It does not look for the event that showed the
action, for a later rejection, or for a later approved event of another action.
-/

namespace Naalp.Consent

open Naalp.Foundation
open Naalp.Python
open Naalp.Python.Agui
open Naalp.Python.Approval (ApprovalRecord verifyApproval)
open Naalp.Python.Cbor
open Naalp.Python.Cose
open Naalp.Implementations
open Naalp.Signatures

-----------------------------------------------------------------------------------------
-- Consent in a chain of events
-----------------------------------------------------------------------------------------

/-- The event is one of the kind for the action. -/
def Marks (kind : Int) (cid : Bytes) (e : UIEvent) : Prop := e.kind = kind ∧ e.action = cid

/-- The action was shown. -/
def ShownIn (cid : Bytes) (events : List UIEvent) : Prop := ∃ e ∈ events, Marks kindShown cid e

/-- The action was approved after it was shown, and not rejected since. -/
def ConsentedIn (cid : Bytes) (events : List UIEvent) : Prop :=
  ∃ before e after, events = before ++ e :: after ∧ Marks kindApproved cid e ∧ ShownIn cid before
    ∧ ∀ r ∈ after, ¬ Marks kindRejected cid r

/-- Where an action stands after some events. -/
inductive Standing where
  | unseen
  | shown
  | consented
  deriving DecidableEq, Repr

/-- What one event does to the standing of the action. -/
def advance (cid : Bytes) (standing : Standing) (e : UIEvent) : Standing :=
  if e.action = cid then
    match standing with
    | .unseen => if e.kind = kindShown then .shown else .unseen
    | .shown => if e.kind = kindApproved then .consented else .shown
    | .consented => if e.kind = kindRejected then .shown else .consented
  else standing

def standingOf (cid : Bytes) (events : List UIEvent) : Standing :=
  events.foldl (advance cid) .unseen

section Standings

variable {cid : Bytes} {events : List UIEvent} {e : UIEvent}

theorem shownIn_concat
    : ShownIn cid (events ++ [e]) ↔ ShownIn cid events ∨ Marks kindShown cid e := by
  simp [ShownIn, or_and_right, exists_or]

/-- The last event gives consent to a shown action, or leaves one that it does not reject.
Witness: the approval that counts is the last event or stands before it, where the last must
not be the rejection.
-/
theorem consentedIn_concat
    : ConsentedIn cid (events ++ [e])
      ↔ (Marks kindApproved cid e ∧ ShownIn cid events)
        ∨ (ConsentedIn cid events ∧ ¬ Marks kindRejected cid e) := by
  constructor
  · rintro ⟨before, approved, after, split, marks, shown, standing⟩
    cases after using List.reverseRecOn with
    | nil =>
        obtain ⟨rfl, last⟩ := List.append_inj' split rfl
        obtain rfl := (List.cons.inj last).1
        exact .inl ⟨marks, shown⟩
    | append_singleton after last =>
        have split' : events ++ [e] = (before ++ approved :: after) ++ [last] := by
          simpa using split
        obtain ⟨rfl, same⟩ := List.append_inj' split' rfl
        obtain rfl := (List.cons.inj same).1
        refine .inr ⟨⟨before, approved, after, rfl, marks, shown, ?_⟩, standing e (by simp)⟩
        exact fun r member => standing r (List.mem_append_left _ member)
  · rintro (⟨marks, shown⟩ | ⟨⟨before, approved, after, rfl, marks, shown, standing⟩, kept⟩)
    · exact ⟨events, e, [], rfl, marks, shown, nofun⟩
    · refine ⟨before, approved, after ++ [e], by simp, marks, shown, fun r member => ?_⟩
      rcases List.mem_append.mp member with earlier | last
      · exact standing r earlier
      · obtain rfl := List.mem_singleton.mp last
        exact kept

theorem ConsentedIn.shownIn (consented : ConsentedIn cid events) : ShownIn cid events := by
  obtain ⟨before, _, _, rfl, -, ⟨e, member, marks⟩, -⟩ := consented
  exact ⟨e, List.mem_append_left _ member, marks⟩

/-- The scan of a chain tells whether the action was shown and whether consent to it stands, by
induction on the chain from its end.
-/
theorem standingOf_iff (cid : Bytes) (events : List UIEvent)
    : (standingOf cid events ≠ .unseen ↔ ShownIn cid events)
      ∧ (standingOf cid events = .consented ↔ ConsentedIn cid events) := by
  induction events using List.reverseRecOn with
  | nil => simp [standingOf, ShownIn, ConsentedIn]
  | append_singleton events e ih =>
      obtain ⟨shown, consented⟩ := ih
      have earlier : ConsentedIn cid events → ShownIn cid events := ConsentedIn.shownIn
      have next : standingOf cid (events ++ [e]) = advance cid (standingOf cid events) e := by
        simp [standingOf]
      have kinds : kindShown ≠ kindApproved ∧ kindShown ≠ kindRejected
          ∧ kindApproved ≠ kindRejected := by decide
      rw [next, shownIn_concat, consentedIn_concat, ← shown, ← consented]
      rw [← shown, ← consented] at earlier
      by_cases named : e.action = cid
      · simp only [advance, named, if_true, Marks, and_true]
        cases standing : standingOf cid events with
        | unseen => grind
        | shown => grind
        | consented => grind
      · simp only [advance, named, if_false, Marks, and_false, not_false_eq_true, and_true,
          or_false, false_and, false_or, and_self]

end Standings

-----------------------------------------------------------------------------------------
-- The walk
-----------------------------------------------------------------------------------------

/-- An event names the digest of the body of the event before it. -/
def uiChain : ChainHash UIEvent Bytes Bytes Exc where
  encode := UIEvent.bytes
  hash := Sha2.sha384
  prev := UIEvent.prev
  position := UIEvent.seq

/-- The events of one session, of known kinds and contiguous from the genesis head on. -/
structure ShownChain (events : List UIEvent) : Prop where
  linked : ∃ final, uiChain.Linked 0 genesis events final
  session : ∃ s, ∀ e ∈ events, e.session = s
  known : ∀ e ∈ events, isKnownKind e.kind = true

/-- The action of the first approved event. -/
def firstApproved (events : List UIEvent) : Option Bytes :=
  (events.find? fun e => e.kind = kindApproved).map UIEvent.action

section Walk

variable {i : Int} {h s : Bytes} {session : Option Bytes} {events : List UIEvent}
  {out : List ShownEvent}

/-- The loop takes on a later index what is linked, of the session and of known kinds, by induction
over the events.
-/
theorem walkFrom_isOk (later : 0 < i)
    : (∃ out, walkFrom i h (some s) events = .ok out)
      ↔ (∃ final, uiChain.Linked i h events final) ∧ (∀ e ∈ events, e.session = s)
        ∧ ∀ e ∈ events, isKnownKind e.kind = true := by
  induction events generalizing i h with
  | nil =>
      simp only [walkFrom, pure_eq_ok, List.not_mem_nil, false_implies, implies_true, and_true]
      exact iff_of_true ⟨[], rfl⟩ ⟨h, .nil _ _⟩
  | cons e rest ih =>
      have notFirst : i ≠ 0 := by omega
      simp only [walkFrom, checkSession, notFirst, if_false, bind_eq_ok, raiseIf_eq_ok,
        exists_const, UIEvent.head, pure_eq_ok, Except.ok.injEq, not_not, ne_eq, Option.some.injEq,
        not_or, Bool.not_eq_false, List.forall_mem_cons]
      constructor
      · rintro ⟨_, same, known, ⟨position, prev⟩, _, ⟨body, encoded, rfl⟩, out, walked, rfl⟩
        obtain ⟨⟨final, linked⟩, sessions, kinds⟩ := (ih (by omega)).mp ⟨out, walked⟩
        exact ⟨⟨final, .cons position prev encoded linked⟩, ⟨same, sessions⟩, known, kinds⟩
      · rintro ⟨⟨final, linked⟩, ⟨same, sessions⟩, known, kinds⟩
        cases linked with
        | cons position prev encoded linked =>
            obtain ⟨out, walked⟩ := (ih (by omega)).mpr ⟨⟨final, linked⟩, sessions, kinds⟩
            exact ⟨_, same, known, ⟨position, prev⟩, _, ⟨_, encoded, rfl⟩, out, walked, rfl⟩

/-- A chain is walked exactly when it is contiguous for one session.
Witness: the first event fixes the session that the walk compares the others with.
-/
theorem walkShown_isOk : (∃ out, walkShown events = .ok out) ↔ ShownChain events := by
  cases events with
  | nil =>
      refine iff_of_true ⟨[], rfl⟩ ⟨⟨_, .nil _ _⟩, ⟨[], ?_⟩, ?_⟩
      · simp
      · simp
  | cons e rest =>
      simp only [walkShown, walkFrom, checkSession, if_true, bind_eq_ok, raiseIf_eq_ok,
        exists_const, UIEvent.head, pure_eq_ok, Except.ok.injEq, not_not, ne_eq, not_or,
          Bool.not_eq_false]
      constructor
      · rintro ⟨_, -, known, ⟨position, prev⟩, _, ⟨body, encoded, rfl⟩, out, walked, rfl⟩
        obtain ⟨⟨final, linked⟩, sessions, kinds⟩ := (walkFrom_isOk (by omega)).mp ⟨out, walked⟩
        exact ⟨⟨final, .cons position prev encoded linked⟩,
          ⟨e.session, List.forall_mem_cons.mpr ⟨rfl, sessions⟩⟩,
          List.forall_mem_cons.mpr ⟨known, kinds⟩⟩
      · rintro ⟨⟨final, linked⟩, ⟨s, sessions⟩, kinds⟩
        obtain ⟨rfl, sessions⟩ := List.forall_mem_cons.mp sessions
        obtain ⟨known, kinds⟩ := List.forall_mem_cons.mp kinds
        cases linked with
        | cons position prev encoded linked =>
            obtain ⟨out, walked⟩ := (walkFrom_isOk (by omega)).mpr
              ⟨⟨final, linked⟩, sessions, kinds⟩
            exact ⟨_, trivial, known, ⟨position, prev⟩, _, ⟨_, encoded, rfl⟩, out, walked, rfl⟩

/-- The walk keeps the kinds and the actions, so the first approved event is the same. -/
theorem approvedActionCid_walkFrom (walked : walkFrom i h session events = .ok out)
    : approvedActionCid out = firstApproved events := by
  induction events generalizing i h session out with
  | nil =>
      obtain rfl := Except.ok.inj walked
      rfl
  | cons e rest ih =>
      simp only [walkFrom, bind_eq_ok, pure_eq_ok, Except.ok.injEq] at walked
      obtain ⟨_, -, _, -, _, -, head, -, later, walked, rfl⟩ := walked
      rw [approvedActionCid, ih walked, firstApproved, firstApproved, List.find?_cons]
      by_cases approved : e.kind = kindApproved
      · simp [approved]
      · simp [approved]

end Walk

-----------------------------------------------------------------------------------------
-- What the verifier accepts
-----------------------------------------------------------------------------------------

section Verifier

variable (lib : SignatureLibrary) (chain : List UIEvent) (actionBytes : Bytes)
  (appr : ApprovalRecord) (approverAlg : Int) (approverPubkey apprSig : Bytes) (now : Int)

/-- The approval is valid for the action at the time. -/
def ApprovalValid : Prop :=
  verifyApproval lib appr approverAlg approverPubkey apprSig (contentIdBytes actionBytes) now
    = .ok ()

/-- The verifier accepts the consent. -/
def Accepted : Prop :=
  verifyConsent lib chain actionBytes appr approverAlg approverPubkey apprSig now = .ok ()

/-- A chain is accepted for an action exactly when it is walked through, the first approved
event names the action, and the approval is valid for it.
-/
theorem accepted_iff
    : Accepted lib chain actionBytes appr approverAlg approverPubkey apprSig now
      ↔ ShownChain chain ∧ firstApproved chain = some (contentIdBytes actionBytes)
        ∧ ApprovalValid lib actionBytes appr approverAlg approverPubkey apprSig now := by
  rw [Accepted, verifyConsent, bind_eq_ok, ← walkShown_isOk]
  constructor
  · rintro ⟨shown, walked, rest⟩
    rw [approvedActionCid_walkFrom walked] at rest
    cases first : firstApproved chain with
    | none =>
        rw [first] at rest
        cases rest
    | some cid =>
        simp only [first, unit_bind_eq_ok, raiseIf_eq_ok, not_not, ne_eq] at rest
        obtain ⟨valid, rfl⟩ := rest
        exact ⟨⟨shown, walked⟩, rfl, valid⟩
  · rintro ⟨⟨shown, walked⟩, first, valid⟩
    refine ⟨shown, walked, ?_⟩
    rw [approvedActionCid_walkFrom walked]
    simp only [first, unit_bind_eq_ok, raiseIf_eq_ok, not_not, ne_eq]
    exact ⟨valid, trivial⟩

/-- What is accepted is a consent to an action that was shown, approved and not rejected, and every
such consent is accepted, exactly when the chain is broken, the approval is not valid for the
action, or the scan of the chain leaves consent to the action just when its first approved event
names the action.
-/
theorem consent_covers_iff
    : (Accepted lib chain actionBytes appr approverAlg approverPubkey apprSig now
        ↔ ShownChain chain ∧ ConsentedIn (contentIdBytes actionBytes) chain
          ∧ ApprovalValid lib actionBytes appr approverAlg approverPubkey apprSig now)
      ↔ (ShownChain chain
        → ApprovalValid lib actionBytes appr approverAlg approverPubkey apprSig now
        → (firstApproved chain = some (contentIdBytes actionBytes)
          ↔ standingOf (contentIdBytes actionBytes) chain = .consented)) := by
  rw [accepted_iff, (standingOf_iff _ chain).2]
  tauto

end Verifier

-----------------------------------------------------------------------------------------
-- Chains of one session
-----------------------------------------------------------------------------------------

def eventBody (e : UIEvent) : Bytes :=
  encoding (.m [(.u 1, .b e.session), (.u 2, .u e.kind), (.u 3, .b e.action), (.u 4, .u e.seq),
    (.u 5, .b e.prev)])

/-- The chain of the kinds and actions from index `i` on, below the head. -/
def chainOf : (i : Nat) → (h : Bytes) → List (Int × Bytes) → List UIEvent
  | _, _, [] => []
  | i, h, (kind, action) :: rest =>
      let e : UIEvent := { session := [], kind, action, seq := i, prev := h }
      e :: chainOf (i + 1) (Sha2.sha384 (eventBody e)) rest

section Chains

variable {i : Nat} {h : Bytes} {steps : List (Int × Bytes)}

/-- The octets of an event whose fields fit. -/
theorem encoded_event {e : UIEvent} (session : e.session.length < 2 ^ 64)
    (known : isKnownKind e.kind = true) (action : e.action.length < 2 ^ 64)
    (place : 0 ≤ e.seq ∧ e.seq < 2 ^ 64) (head : e.prev.length < 2 ^ 64)
    : e.bytes = .ok (eventBody e) := by
  have kinds : ∀ kind ∈ [kindShown, kindArgsShown, kindApproved, kindRejected],
      0 ≤ kind ∧ kind < 2 ^ 64 := by decide
  have kind := kinds e.kind (of_decide_eq_true known)
  have fits : ∀ v ∈ [Value.b e.session, .u e.kind, .b e.action, .u e.seq, .b e.prev],
      Encodable v := by
    simp only [List.forall_mem_cons, encodable_u, encodable_b]
    exact ⟨session, kind, action, place, head, nofun⟩
  exact (@encodable_numbered 1 _ (by simp)).mpr fits

/-- The chain that is built from steps is linked, by induction on the steps. -/
theorem linked_chainOf
    (fits : ∀ step ∈ steps, isKnownKind step.1 = true ∧ step.2.length < 2 ^ 64)
    (head : h.length = 48) (places : i + steps.length ≤ 2 ^ 64)
    : ∃ final, uiChain.Linked i h (chainOf i h steps) final := by
  induction steps generalizing i h with
  | nil => exact ⟨h, .nil _ _⟩
  | cons step rest ih =>
      obtain ⟨kind, action⟩ := step
      obtain ⟨⟨known, short⟩, fits⟩ := List.forall_mem_cons.mp fits
      rw [List.length_cons] at places
      obtain ⟨final, linked⟩ := @ih (i + 1) (Sha2.sha384 (eventBody ⟨[], kind, action, i, h⟩)) fits
        (Sha2.length_sha384 _) (by omega)
      have encoded : (⟨[], kind, action, i, h⟩ : UIEvent).bytes
          = .ok (eventBody ⟨[], kind, action, i, h⟩) :=
        encoded_event (by simp) known short ⟨by simp, by simp; omega⟩ (by simp [head])
      exact ⟨final, .cons rfl rfl encoded linked⟩

/-- Every event of it carries one of the steps, in the one session. -/
theorem mem_chainOf {e : UIEvent} (member : e ∈ chainOf i h steps)
    : e.session = [] ∧ (e.kind, e.action) ∈ steps := by
  induction steps generalizing i h with
  | nil => cases member
  | cons step rest ih =>
      obtain ⟨kind, action⟩ := step
      rcases List.mem_cons.mp member with rfl | later
      · exact ⟨rfl, List.mem_cons_self⟩
      · obtain ⟨session, named⟩ := ih later
        exact ⟨session, List.mem_cons_of_mem _ named⟩

theorem shownChain_chainOf
    (fits : ∀ step ∈ steps, isKnownKind step.1 = true ∧ step.2.length < 2 ^ 64)
    (places : steps.length ≤ 2 ^ 64) : ShownChain (chainOf 0 genesis steps) := by
  refine ⟨linked_chainOf fits List.length_replicate (by rwa [Nat.zero_add]), ⟨[], ?_⟩, ?_⟩
  · exact fun e member => (mem_chainOf member).1
  · exact fun e member => (fits _ (mem_chainOf member).2).1

end Chains

/-- The content ids of two actions. -/
def firstAction : Bytes := contentIdBytes [0]
def secondAction : Bytes := contentIdBytes [1]

/-- An action that was approved and never shown is accepted. Of two actions that were each shown and
approved, the second is refused with a valid approval of its own.
Witness: the sample chains have a standing action that is computed, and every action has a
valid sample approval.
-/
theorem unshown_accepted_and_second_refused
    : let unshown := chainOf 0 genesis [(kindApproved, firstAction)]
      let both := chainOf 0 genesis [(kindShown, firstAction), (kindApproved, firstAction),
        (kindShown, secondAction), (kindApproved, secondAction)]
      (Accepted digestLibrary unshown [0] (sampleApproval firstAction) algMldsa65 objectKey.pubKey
          (digestSignature (approvalBody firstAction)) 500
        ∧ ¬ ConsentedIn firstAction unshown)
      ∧ ShownChain both ∧ ConsentedIn secondAction both
        ∧ ApprovalValid digestLibrary [1] (sampleApproval secondAction) algMldsa65 objectKey.pubKey
          (digestSignature (approvalBody secondAction)) 500
        ∧ ¬ Accepted digestLibrary both [1] (sampleApproval secondAction) algMldsa65
          objectKey.pubKey (digestSignature (approvalBody secondAction)) 500 := by
  have distinct : firstAction ≠ secondAction := by decide +kernel
  have size (action : Bytes) : (contentIdBytes action).length < 2 ^ 64 := by
    simp
  have approved : isKnownKind kindApproved = true := by decide
  have shown : isKnownKind kindShown = true := by decide
  refine ⟨⟨(accepted_iff ..).mpr ⟨shownChain_chainOf ?_ (by simp), ?_, ?_⟩, ?_⟩,
    shownChain_chainOf ?_ (by simp), ?_, ?_, ?_⟩
  · simpa using ⟨approved, size _⟩
  · simp [chainOf, firstApproved, firstAction]
  · exact verifyApproval_sample (size _) (by decide)
  · rw [← (standingOf_iff _ _).2]
    simp [standingOf, chainOf, advance, kindApproved, kindShown]
  · simpa using ⟨⟨shown, size _⟩, ⟨approved, size _⟩, ⟨shown, size _⟩, approved, size _⟩
  · rw [← (standingOf_iff _ _).2]
    simp [standingOf, chainOf, advance, kindApproved, kindShown, distinct]
  · exact verifyApproval_sample (size _) (by decide)
  · rw [accepted_iff]
    rintro ⟨-, first, -⟩
    refine distinct ?_
    simpa [chainOf, firstApproved, kindApproved, kindShown, secondAction] using first

end Naalp.Consent
