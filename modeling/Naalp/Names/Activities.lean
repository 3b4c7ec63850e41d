import Naalp.Envelope.SignVerify
import Naalp.Foundation.KahnLoop
import Naalp.Names.TaskRuns
import Naalp.Python.A2aBridge

/-! The bridge between task activities in the words of A2A and signed chains. What the bridge makes
of an activity is verified as that activity; and an accepted chain is what the bridge makes of the
activity read from it exactly when it is of one task.
-/

namespace Naalp.Names

open Naalp.Foundation
open Naalp.Python
open Naalp.Python.Cose
open Naalp.Python.Naming
open Naalp.Python.A2aBridge
open Naalp.Signatures

/-- The bridge writes down the event as the transition. -/
def Bridges (taskId : PyStr) (task : Bytes) (ev : ForeignTaskEvent) (t : Transition) : Prop :=
  ev.taskId = taskId ∧ stateByName.lookup ev.state = some t.to_ ∧ t.task = task

section Bridging

variable {repr : PyStr → String} {card task : Bytes} {taskId : PyStr}

@[simp]
theorem lift_eq_ok {α : Type} {outcome : Py α} {value : α}
    : lift outcome = .ok value ↔ outcome = .ok value := by
  cases outcome <;> simp [lift]

/-- A state has a code exactly when its name is in the table. -/
theorem stateCode_eq_ok {name : PyStr} {code : Int}
    : stateCode repr name = .ok code ↔ stateByName.lookup name = some code := by
  unfold stateCode
  split
  · rename_i found known
    rw [known, pure_eq_ok, Except.ok.injEq, Option.some.injEq]
  · rename_i unknown
    rw [unknown]
    exact ⟨fun raised => (by cases raised), fun found => (by cases found)⟩

/-- The loop makes of the events the linked and legal transitions that it bridges them to, by
induction over the events.
-/
theorem bridgeEvents_eq_ok {i : Int} {prev : Bytes} {frm : Int} {events : List ForeignTaskEvent}
    {ts : List Transition}
    : bridgeEvents repr card taskId task i prev frm events = .ok ts
      ↔ List.Forall₂ (Bridges taskId task) events ts
        ∧ (∃ final, (taskChain Transition.bytes).Linked i prev ts final) ∧ Steps card frm ts := by
  induction events generalizing i prev frm ts with
  | nil =>
      rw [bridgeEvents, pure_eq_ok, Except.ok.injEq]
      constructor
      · rintro rfl
        exact ⟨.nil, ⟨prev, .nil _ _⟩, .nil _⟩
      · rintro ⟨bridged, -, -⟩
        cases bridged
        rfl
  | cons ev events ih =>
      simp only [bridgeEvents, bind_eq_ok, raiseIf_eq_ok, exists_const, not_not, ne_eq,
        stateCode_eq_ok, lift_eq_ok, verifyTransition, Bool.not_eq_false, pure_eq_ok,
        Except.ok.injEq, ih, Transition.head]
      constructor
      · rintro ⟨same, to_, named, legal, _, ⟨body, encoded, rfl⟩, rest, below, rfl⟩
        obtain ⟨bridged, ⟨final, linked⟩, steps⟩ := below
        exact ⟨.cons ⟨same, named, rfl⟩ bridged, ⟨final, .cons rfl rfl encoded linked⟩,
          @Steps.cons card ⟨task, card, frm, to_, i, prev⟩ rest rfl legal steps⟩
      · rintro ⟨bridged, ⟨final, linked⟩, steps⟩
        cases bridged with
        | @cons _ t _ rest first bridged =>
            obtain ⟨same, named, rfl⟩ := first
            cases linked with
            | cons position prev encoded linked =>
                cases steps with
                | cons bound legal steps =>
                    subst position prev bound
                    exact ⟨same, t.to_, named, legal, _, ⟨_, encoded, rfl⟩, rest,
                      ⟨bridged, ⟨final, linked⟩, steps⟩, rfl⟩

/-- The bridge makes transitions exactly of the activities that are legal walks of one task,
and the transitions are chained.
Witness: by the loop over the events, which keeps the state and the head that were reached.
-/
theorem bridgeTransitions_eq_ok {events : List ForeignTaskEvent} {ts : List Transition}
    : bridgeTransitions repr events card = .ok ts
      ↔ events ≠ [] ∧ ∃ taskId task, taskId.encode = .ok task
        ∧ List.Forall₂ (Bridges taskId task) events ts
        ∧ (∃ final, (taskChain Transition.bytes).Linked 0 genesis ts final)
        ∧ Steps card startState ts := by
  cases events with
  | nil => exact ⟨fun raised => (by cases raised), fun bridged => absurd rfl bridged.1⟩
  | cons first events =>
      simp only [bridgeTransitions, bind_eq_ok, lift_eq_ok, bridgeEvents_eq_ok]
      constructor
      · rintro ⟨task, encoded, bridged⟩
        exact ⟨List.cons_ne_nil _ _, first.taskId, task, encoded, bridged⟩
      · rintro ⟨-, taskId, task, encoded, bridged, linked⟩
        cases bridged with
        | cons here bridged =>
            obtain ⟨rfl, named⟩ := here
            exact ⟨task, encoded, .cons ⟨rfl, named⟩ bridged, linked⟩

end Bridging

-----------------------------------------------------------------------------------------
-- The words of A2A
-----------------------------------------------------------------------------------------

/-- The table of the bridge is the reverse of the names of the states. -/
theorem lookup_stateName {code : Int} (known : code ∈ states)
    : stateByName.lookup (stateName code) = some code := by
  have all : ∀ code ∈ states, stateByName.lookup (stateName code) = some code := by decide
  exact all code known

theorem stateName_of_lookup {name : PyStr} {code : Int}
    (found : stateByName.lookup name = some code)
    : stateName code = name := by
  have all : ∀ entry ∈ stateByName, stateName entry.2 = entry.1 := by decide
  obtain ⟨before, after, split, -⟩ := List.lookup_eq_some_iff.mp found
  exact all (name, code) (split ▸ List.mem_append_right _ List.mem_cons_self)

theorem mem_states_of_legalEdge {frm to_ : Int} (legal : legalEdge frm to_ = true) : to_ ∈ states :=
  (of_decide_eq_true legal).2.1

/-- The events that are read from transitions of a task are bridged to them. -/
theorem forall_bridges {taskId : PyStr} {task card : Bytes} {frm : Int} {ts : List Transition}
    (steps : Steps card frm ts) (one : ∀ t ∈ ts, t.task = task)
    : List.Forall₂ (Bridges taskId task)
        (ts.map fun t => { taskId, state := stateName t.to_ }) ts := by
  refine List.forall₂_map_left_iff.mpr (List.forall₂_same.mpr fun t at_ => ?_)
  exact ⟨rfl, lookup_stateName (mem_states_of_legalEdge (steps.legal t at_)), one t at_⟩

theorem tasks_of_bridges {taskId : PyStr} {task : Bytes} {events : List ForeignTaskEvent}
    {ts : List Transition} (bridged : List.Forall₂ (Bridges taskId task) events ts)
    : ∀ t ∈ ts, t.task = task := by
  induction bridged with
  | nil => simp
  | cons here _ ih => exact List.forall_mem_cons.mpr ⟨here.2.2, ih⟩

theorem events_of_bridges {taskId : PyStr} {task : Bytes} {events : List ForeignTaskEvent}
    {ts : List Transition} (bridged : List.Forall₂ (Bridges taskId task) events ts)
    : (ts.map fun t => { taskId, state := stateName t.to_ }) = events := by
  induction bridged with
  | nil => rfl
  | @cons ev t _ _ here _ ih =>
      obtain ⟨rfl, named, -⟩ := here
      rw [List.map_cons, ih, stateName_of_lookup named]

-----------------------------------------------------------------------------------------
-- Bridging and verifying
-----------------------------------------------------------------------------------------

section Verifying

variable {lib : SignatureLibrary} {profile alg : Int} {set : MlDsa} {seed pubkey card : Bytes}

/-- The bare header of an ML-DSA alg is written and read back as the alg. -/
theorem header_of_mldsa (isMldsa : mldsa alg = .ok set)
    : ∃ prot, bareProtectedHeader alg = .ok prot ∧ Naming.algFromProtected prot = .ok alg
      ∧ prot.length < 2 ^ 64 := by
  have known : alg = algMldsa65 ∨ alg = algMldsa87 := by
    unfold mldsa at isMldsa
    split_ifs at isMldsa with is65 is87
    · exact .inl is65
    · exact .inr is87
  rcases known with rfl | rfl
  · exact ⟨[0xa1, 0x01, 0x38, 0x30], by decide +kernel, by decide +kernel, by decide⟩
  · exact ⟨[0xa1, 0x01, 0x38, 0x31], by decide +kernel, by decide +kernel, by decide⟩

/-- A signed transition is read back. -/
theorem pyRead_signed (signs : Envelope.SignsVerifiably lib) (isMldsa : mldsa alg = .ok set)
    (key : lib.mldsaPublic set seed = .ok pubkey)
    (floor : profileMinLevel profile ≤ (algLevel alg).1)
    {t : Transition} {obj : Bytes} (signed : Naming.signTransition lib t alg seed = .ok obj)
    : pyRead lib profile alg pubkey obj = .ok t := by
  obtain ⟨prot, header, named, -⟩ := header_of_mldsa isMldsa
  obtain ⟨-, known, verifies⟩ := @Envelope.coseVerify1Raw_mldsa lib alg set isMldsa
  simp only [Naming.signTransition, coseSign1, mldsaSign, isMldsa, header, ok_bind, bind_eq_ok]
    at signed
  obtain ⟨body, encoded, tbs, message, sig, signature, assembled⟩ := signed
  obtain ⟨sig', signature', -, valid⟩ := signs.mldsa key tbs [] (Nat.zero_le _)
  obtain rfl : sig = sig' := Except.ok.inj (signature.symm.trans signature')
  have gate : verifySign1 lib obj profile alg pubkey = .ok body :=
    floorGate_eq_ok.mpr ⟨prot, sig, tbs, Envelope.parseSign1Raw_assembled assembled, named, known,
      floor, message, (verifies pubkey tbs sig).trans valid⟩
  obtain ⟨encodable, rfl⟩ := Cbor.encode_eq_ok.mp encoded
  rw [pyRead, gate, ok_bind]
  exact parseTransition_encoding encodable

/-- An activity that the bridge accepts is verified as the chain that it is bridged to, and is read
from it again word for word.
-/
theorem bridged_activity_verified {repr : PyStr → String} {events : List ForeignTaskEvent}
    {ts : List Transition} {objs : List Bytes} (signs : Envelope.SignsVerifiably lib)
    (isMldsa : mldsa alg = .ok set) (key : lib.mldsaPublic set seed = .ok pubkey)
    (floor : profileMinLevel profile ≤ (algLevel alg).1)
    (bridged : bridgeActivity repr lib events card seed alg = .ok (ts, objs))
    : verifyActivity lib objs card pubkey alg profile = .ok (ts, events) := by
  simp only [bridgeActivity, bind_eq_ok, lift_eq_ok, pure_eq_ok, Except.ok.injEq, Prod.mk.injEq]
    at bridged
  obtain ⟨ts, built, objs, signed, rfl, rfl⟩ := bridged
  obtain ⟨some_, taskId, task, encoded, bridges, linked, steps⟩ := bridgeTransitions_eq_ok.mp built
  have read : List.Forall₂ (fun obj t => pyRead lib profile alg pubkey obj = .ok t) objs ts :=
    (mapM_eq_ok.mp signed).flip.imp fun _ _ signed => pyRead_signed signs isMldsa key floor signed
  have verified := verifyTaskChain_eq_ok.mpr ⟨read, linked, steps⟩
  have words := events_of_bridges bridges
  cases bridges with
  | nil => exact absurd rfl some_
  | @cons ev t events ts here bridges =>
      obtain ⟨-, -, rfl⟩ := here
      simp only [verifyActivity, verified, ok_bind, List.head?_cons, PyStr.decode_of_encode encoded,
        pure_eq_ok, words]

/-- A task that is worked on and then completed. -/
def sampleActivity : List ForeignTaskEvent :=
  [{ taskId := .lit ['t'], state := stateName stateWorking },
    { taskId := .lit ['t'], state := stateName stateCompleted }]

/-- Witness: an activity of two events, signed by a stand-in. -/
theorem sampleActivity_verified
    : ∃ ts objs, bridgeActivity (fun _ => "") digestLibrary sampleActivity [] [7] algMldsa65
      = .ok (ts, objs)
      ∧ verifyActivity digestLibrary objs [] (fitTo mldsa65PubSize [7]) algMldsa65 1
        = .ok (ts, sampleActivity) := by
  have some_ : (bridgeActivity (fun _ => "") digestLibrary sampleActivity [] [7]
      algMldsa65).toOption.isSome = true := by decide +kernel
  obtain ⟨⟨ts, objs⟩, found⟩ := Option.isSome_iff_exists.mp some_
  have bridged := toOption_eq_some.mp found
  refine ⟨ts, objs, bridged, ?_⟩
  exact bridged_activity_verified Envelope.digestLibrary_signsVerifiably rfl rfl (by decide) bridged

/-- An activity is accepted exactly when its objects are a task chain, and is read off from the
transitions.
-/
theorem verifyActivity_eq_ok {objs : List Bytes} {ts : List Transition}
    {events : List ForeignTaskEvent}
    : verifyActivity lib objs card pubkey alg profile = .ok (ts, events)
      ↔ verifyTaskChain lib objs card profile alg pubkey = .ok ts
        ∧ ∃ first rest taskId, ts = first :: rest ∧ PyStr.decode first.task = .ok taskId
        ∧ events = ts.map fun t => { taskId, state := stateName t.to_ } := by
  constructor
  · intro verified
    obtain ⟨ts, chain, read⟩ := bind_eq_ok.mp verified
    cases ts with
    | nil => cases read
    | cons first rest =>
        obtain ⟨taskId, decoded, same⟩ := bind_eq_ok.mp read
        obtain ⟨rfl, rfl⟩ := Prod.mk.inj (Except.ok.inj same)
        exact ⟨chain, first, rest, taskId, rfl, decoded, rfl⟩
  · rintro ⟨chain, first, rest, taskId, rfl, decoded, rfl⟩
    simp only [verifyActivity, chain, ok_bind, List.head?_cons, decoded, pure_eq_ok]

/-- An accepted chain is what the bridge makes of the activity that is read from it exactly when all
its transitions are of one task, as which its first one is read.
-/
theorem verified_activity_bridged_iff {repr : PyStr → String} {objs : List Bytes}
    {ts : List Transition} {events : List ForeignTaskEvent}
    (verified : verifyActivity lib objs card pubkey alg profile = .ok (ts, events))
    : bridgeTransitions repr events card = .ok ts ↔ OneTask ts := by
  obtain ⟨chain, first, rest, taskId, rfl, decoded, rfl⟩ := verifyActivity_eq_ok.mp verified
  obtain ⟨-, linked, steps⟩ := verifyTaskChain_eq_ok.mp chain
  constructor
  · intro bridged
    obtain ⟨-, _, task, -, bridges, -⟩ := bridgeTransitions_eq_ok.mp bridged
    intro t at_ u at_'
    rw [tasks_of_bridges bridges t at_, tasks_of_bridges bridges u at_']
  · intro one
    refine bridgeTransitions_eq_ok.mpr ⟨List.cons_ne_nil _ _, taskId, first.task,
      PyStr.encode_of_decode decoded, forall_bridges steps fun t at_ => ?_, linked, steps⟩
    exact one t at_ first List.mem_cons_self

theorem verifyActivity_signedChain {task : Nat → Bytes} {taskId : PyStr}
    (short : ∀ i, (task i).length < 2 ^ 32) (named : PyStr.decode (task 0) = .ok taskId)
    : verifyActivity digestLibrary (signedChain task 2) [] objectKey.pubKey algMldsa65 1
      = .ok (sampleChain task 2 0 genesis,
        (sampleChain task 2 0 genesis).map fun t => { taskId, state := stateName t.to_ }) :=
  verifyActivity_eq_ok.mpr ⟨verifyTaskChain_signedChain short (by decide), _, _, taskId, rfl,
    named, rfl⟩

/-- Witness: a chain of one task is what the bridge makes of its activity, and a spliced one is not.
-/
theorem spliced_activity_not_bridged
    : (∃ ts events, verifyActivity digestLibrary (signedChain (fun _ => [1]) 2) [] objectKey.pubKey
          algMldsa65 1 = .ok (ts, events)
        ∧ bridgeTransitions (fun _ => "") events [] = .ok ts)
      ∧ ∃ ts events, verifyActivity digestLibrary (signedChain splicedTask 2) [] objectKey.pubKey
          algMldsa65 1 = .ok (ts, events)
        ∧ bridgeTransitions (fun _ => "") events [] ≠ .ok ts := by
  have first : PyStr.decode [1] = .ok (.lit ['\x01']) := by decide +kernel
  have one := @verifyActivity_signedChain (fun _ => [1]) _ (fun _ => by decide) first
  have spliced := verifyActivity_signedChain splicedTask_short first
  refine ⟨⟨_, _, one, (verified_activity_bridged_iff one).mpr ?_⟩, _, _, spliced, ?_⟩
  · simp [OneTask, sampleChain, sampleTransition]
  · intro bridged
    exact not_oneTask_spliced (Nat.le_refl 2) ((verified_activity_bridged_iff spliced).mp bridged)

end Verifying

-----------------------------------------------------------------------------------------
-- The activities that can be bridged
-----------------------------------------------------------------------------------------

/-- A history of one task that A2A allows: from the submission on, state by state along the legal
edges.
-/
structure LegalActivity (events : List ForeignTaskEvent) : Prop where
  observed : events ≠ []
  one : ∀ e ∈ events, ∀ f ∈ events, e.taskId = f.taskId
  legal : ∃ codes, List.Forall₂ (fun e code => stateByName.lookup e.state = some code) events codes
    ∧ (startState :: codes).IsChain fun frm to_ => legalEdge frm to_ = true

/-- The octets of an activity fit on the wire. -/
structure FitsWire (events : List ForeignTaskEvent) (card : Bytes) : Prop where
  task : ∀ e ∈ events, ∃ task, e.taskId.encode = .ok task ∧ task.length < 2 ^ 64
  card : card.length < 2 ^ 64
  count : events.length ≤ 2 ^ 64

theorem encodable_state {code : Int} (known : code ∈ states) : Cbor.Encodable (.u code) := by
  have all : ∀ code ∈ states, 0 ≤ code ∧ code < 2 ^ 64 := by decide
  exact Cbor.encodable_u.mpr (all code known)

/-- The states of an activity of one task are carried by linked transitions, by induction over the
events.
-/
theorem exists_linked {taskId : PyStr} {task card prev : Bytes} {i frm : Int}
    {events : List ForeignTaskEvent} {codes : List Int} (same : ∀ e ∈ events, e.taskId = taskId)
    (named : List.Forall₂ (fun e code => stateByName.lookup e.state = some code) events codes)
    (legal : (frm :: codes).IsChain fun frm to_ => legalEdge frm to_ = true)
    (taskFits : task.length < 2 ^ 64) (cardFits : card.length < 2 ^ 64) (head : prev.length = 48)
    (positive : 0 ≤ i) (count : i + events.length ≤ 2 ^ 64)
    : ∃ ts, List.Forall₂ (Bridges taskId task) events ts
      ∧ (∃ final, (taskChain Transition.bytes).Linked i prev ts final) ∧ Steps card frm ts := by
  induction named generalizing i frm prev with
  | nil => exact ⟨[], .nil, ⟨prev, .nil _ _⟩, .nil _⟩
  | @cons e code events codes here named ih =>
      obtain ⟨edge, legal⟩ := List.isChain_cons_cons.mp legal
      obtain ⟨first, same⟩ := List.forall_mem_cons.mp same
      have states := (of_decide_eq_true edge : _ ∧ _ ∧ _)
      let t : Transition := { task, card, frm, to_ := code, seq := i, prev }
      have encodable : Cbor.Encodable (.m (transitionPairs t)) := by
        refine encodable_transition.mpr
          ⟨Cbor.encodable_b.mpr taskFits, Cbor.encodable_b.mpr cardFits,
          encodable_state states.1, encodable_state states.2.1, Cbor.encodable_u.mpr ⟨positive, ?_⟩,
          Cbor.encodable_b.mpr (by rw [head]; decide)⟩
        show i < 2 ^ 64
        rw [List.length_cons] at count
        omega
      obtain ⟨ts, bridges, ⟨final, linked⟩, steps⟩ := ih same legal
        (Sha2.length_sha384 (Cbor.encoding (.m (transitionPairs t)))) (show 0 ≤ i + 1 by omega)
        (by rw [List.length_cons] at count; omega)
      have encoded : t.bytes = .ok (Cbor.encoding (.m (transitionPairs t))) := encodable
      exact ⟨t :: ts, .cons ⟨first, here, rfl⟩ bridges, ⟨final, .cons rfl rfl encoded linked⟩,
        @Steps.cons card t ts rfl edge steps⟩

theorem isChain_of_steps {card : Bytes} {frm : Int} {ts : List Transition}
    (steps : Steps card frm ts)
    : (frm :: ts.map (·.to_)).IsChain fun frm to_ => legalEdge frm to_ = true := by
  induction steps with
  | nil => exact List.isChain_singleton _
  | cons _ legal _ ih => exact List.isChain_cons_cons.mpr ⟨legal, ih⟩

theorem encodable_of_linked {i : Int} {prev final : Bytes} {ts : List Transition}
    (linked : (taskChain Transition.bytes).Linked i prev ts final)
    : ∀ t ∈ ts, Cbor.Encodable (.m (transitionPairs t)) := by
  induction linked with
  | nil => simp
  | cons _ _ encoded _ ih =>
      exact List.forall_mem_cons.mpr ⟨Cbor.encodable_iff.mpr ⟨_, encoded⟩, ih⟩

/-- The bridge makes a chain of exactly the activities that A2A allows, as far as they fit on the
wire.
Witness: the bridge walks the events with the state so far; an edge that is legal in A2A is one
of the bridge's table, and what does not fit cannot be encoded.
-/
theorem bridges_legal_activities {repr : PyStr → String} {events : List ForeignTaskEvent}
    {card : Bytes}
    : (∃ ts, bridgeTransitions repr events card = .ok ts)
      ↔ LegalActivity events ∧ FitsWire events card := by
  simp only [bridgeTransitions_eq_ok]
  constructor
  · rintro ⟨ts, observed, taskId, task, encoded, bridges, ⟨final, linked⟩, steps⟩
    have encodable := encodable_of_linked linked
    have length := bridges.length_eq
    have same : ∀ e ∈ events, e.taskId = taskId := by
      intro e at_
      rw [← events_of_bridges bridges] at at_
      obtain ⟨t, -, rfl⟩ := List.mem_map.mp at_
      rfl
    have count : ts.length ≤ 2 ^ 64 := by
      by_contra long
      have inside : 2 ^ 64 < ts.length := by omega
      have place := linked.positions (2 ^ 64) inside
      have fits := Cbor.encodable_u.mp
        (encodable_transition.mp (encodable _ (List.getElem_mem inside))).2.2.2.2.1
      simp only [taskChain] at place
      omega
    obtain ⟨t, rest, rfl⟩ : ∃ t rest, ts = t :: rest := by
      refine List.exists_cons_of_ne_nil fun none_ => observed ?_
      rw [none_] at length
      exact List.eq_nil_of_length_eq_zero length
    obtain ⟨taskFits, cardFits, -⟩ := encodable_transition.mp (encodable t List.mem_cons_self)
    rw [tasks_of_bridges bridges t List.mem_cons_self] at taskFits
    rw [steps.bound t List.mem_cons_self] at cardFits
    refine ⟨⟨observed, fun e at_ f at_' => (same e at_).trans (same f at_').symm, _, ?_,
      isChain_of_steps steps⟩, ?_, Cbor.encodable_b.mp cardFits, length ▸ count⟩
    · exact List.forall₂_map_right_iff.mpr (bridges.imp fun _ _ here => here.2.1)
    · intro e at_
      rw [same e at_]
      exact ⟨task, encoded, Cbor.encodable_b.mp taskFits⟩
  · rintro ⟨⟨observed, one, codes, named, legal⟩, taskFits, cardFits, count⟩
    obtain ⟨first, events, rfl⟩ := List.exists_cons_of_ne_nil observed
    obtain ⟨task, encoded, short⟩ := taskFits first List.mem_cons_self
    obtain ⟨ts, bridged⟩ := exists_linked (fun e at_ => one e at_ first List.mem_cons_self)
      named legal short cardFits List.length_replicate (Int.le_refl 0) (by omega)
    exact ⟨ts, observed, first.taskId, task, encoded, bridged⟩

end Naalp.Names
