import Naalp.Names.TaskChains
import Naalp.Signatures.SampleObjects

/-! Task chains signed with the library on which the model can be evaluated. They have any length
that a number of the wire allows, and their transitions name whatever tasks are chosen for their
places.
-/

namespace Naalp.Names

open Naalp.Foundation
open Naalp.Python
open Naalp.Python.Cbor
open Naalp.Python.Cose
open Naalp.Python.Naming
open Naalp.Implementations
open Naalp.Signatures

/-- The state that the first `i` transitions lead to: work and input take turns. -/
def sampleState : Nat → Int
  | 0 => stateSubmitted
  | i + 1 => if i % 2 = 0 then stateWorking else stateInputRequired

def sampleTransition (task : Nat → Bytes) (i : Nat) (h : Bytes) : Transition where
  task := task i
  card := []
  frm := sampleState i
  to_ := sampleState (i + 1)
  seq := i
  prev := h

def transitionBody (t : Transition) : Bytes := encoding (.m (transitionPairs t))

/-- The transitions at `count` places from `i` on, below the head. -/
def sampleChain (task : Nat → Bytes) : (count i : Nat) → (h : Bytes) → List Transition
  | 0, _, _ => []
  | count + 1, i, h =>
      let t := sampleTransition task i h
      t :: sampleChain task count (i + 1) (Sha2.sha384 (transitionBody t))

def signTransition (t : Transition) : Bytes := sampleSigned (transitionBody t)

/-- The signed chain of a number of transitions. -/
def signedChain (task : Nat → Bytes) (count : Nat) : List Bytes :=
  (sampleChain task count 0 genesis).map signTransition

theorem length_sampleChain (task : Nat → Bytes) (count i : Nat) (h : Bytes)
    : (sampleChain task count i h).length = count := by
  induction count generalizing i h with
  | zero => rfl
  | succ count ih => rw [sampleChain, List.length_cons, ih]

/-- The sample states walk along legal edges for ever. -/
theorem legalEdge_sampleState (i : Nat)
    : legalEdge (sampleState i) (sampleState (i + 1)) = true := by
  have edges : legalEdge stateSubmitted stateWorking = true
      ∧ legalEdge stateWorking stateInputRequired = true
      ∧ legalEdge stateInputRequired stateWorking = true := by decide
  obtain ⟨first, leave, resume⟩ := edges
  cases i with
  | zero => exact first
  | succ i =>
      rcases Nat.mod_two_eq_zero_or_one i with even | odd
      · have next : (i + 1) % 2 = 1 := by omega
        simpa [sampleState, even, next] using leave
      · have next : (i + 1) % 2 = 0 := by omega
        simpa [sampleState, odd, next] using resume

/-- Their codes can be encoded. -/
theorem encodable_sampleState (i : Nat) : Encodable (.u (sampleState i)) := by
  rw [encodable_u]
  cases i with
  | zero => decide
  | succ i =>
      rcases Nat.mod_two_eq_zero_or_one i with even | odd
      · simp [sampleState, even, stateWorking]
      · simp [sampleState, odd, stateInputRequired]

section Samples

variable {task : Nat → Bytes} {i count : Nat} {h : Bytes}

/-- A transition of a sample chain fits on the wire. -/
theorem encodable_sampleTransition (short : (task i).length < 2 ^ 32) (head : h.length = 48)
    (place : i < 2 ^ 64) : Encodable (.m (transitionPairs (sampleTransition task i h))) := by
  refine encodable_transition.mpr
    ⟨?_, ?_, encodable_sampleState i, encodable_sampleState (i + 1), ?_, ?_⟩
  · exact encodable_b.mpr (short.trans (by decide))
  · exact encodable_b.mpr (by simp [sampleTransition])
  · exact encodable_u.mpr ⟨by simp [sampleTransition], by simp [sampleTransition]; omega⟩
  · exact encodable_b.mpr (by simp [sampleTransition, head])

theorem length_transitionBody (short : (task i).length < 2 ^ 32) (head : h.length = 48)
    (place : i < 2 ^ 64) : (transitionBody (sampleTransition task i h)).length < 2 ^ 64 := by
  have size := length_encoding_transition (encodable_sampleTransition short head place)
  simp only [sampleTransition, List.length_nil] at size
  simp only [transitionBody, sampleTransition]
  omega

theorem pyRead_signTransition (short : (task i).length < 2 ^ 32) (head : h.length = 48)
    (place : i < 2 ^ 64)
    : pyRead digestLibrary 1 algMldsa65 objectKey.pubKey
      (signTransition (sampleTransition task i h))
      = .ok (sampleTransition task i h) := by
  rw [pyRead, signTransition, verifySign1_sampleSigned (length_transitionBody short head place),
    ok_bind]
  exact parseTransition_encoding (encodable_sampleTransition short head place)

theorem goRead_signTransition (short : (task i).length < 2 ^ 32) (head : h.length = 48)
    (place : i < 2 ^ 64)
    : goRead Go.Cose.digestLibrary 1 objectKey (signTransition (sampleTransition task i h))
      = .ok (sampleTransition task i h) := by
  rw [goRead, signTransition, signedPayload_sampleSigned (length_transitionBody short head place),
    ok_bind]
  exact goParseTransition_encoding (encodable_sampleTransition short head place)

/-- A reader and an encoder that take the sample transitions accept the chain, by induction over its
length.
-/
theorem accepted_sampleChain {ε : Type} {read : Bytes → Except ε Transition}
    {encode : Transition → Except ε Bytes}
    (reads : ∀ {i h}, h.length = 48 → i < 2 ^ 64
      → read (signTransition (sampleTransition task i h)) = .ok (sampleTransition task i h))
    (encodes : ∀ {i h}, h.length = 48 → i < 2 ^ 64
      → encode (sampleTransition task i h) = .ok (transitionBody (sampleTransition task i h)))
    (head : h.length = 48) (places : i + count ≤ 2 ^ 64)
    : Accepted read encode [] i h (sampleState i) ((sampleChain task count i h).map signTransition)
        (sampleChain task count i h) := by
  induction count generalizing i h with
  | zero => exact accepted_nil.mpr rfl
  | succ count ih =>
      have place : i < 2 ^ 64 := by omega
      have later := @ih (i + 1) _ (Sha2.length_sha384 (transitionBody (sampleTransition task i h)))
        (by omega)
      refine accepted_cons.mpr ⟨_, _, _, reads head place, rfl, rfl, rfl, rfl,
        legalEdge_sampleState i, encodes head place, later, rfl⟩

theorem verifyTaskChain_signedChain (short : ∀ i, (task i).length < 2 ^ 32)
    (places : count ≤ 2 ^ 64)
    : verifyTaskChain digestLibrary (signedChain task count) [] 1 algMldsa65 objectKey.pubKey
      = .ok (sampleChain task count 0 genesis) := by
  refine verifyTaskChain_eq_ok.mpr (accepted_sampleChain (pyRead_signTransition (short _)) ?_
    (List.length_replicate) (by rwa [Nat.zero_add]))
  exact fun head place => encodable_sampleTransition (short _) head place

theorem goVerifyTaskChain_signedChain (short : ∀ i, (task i).length < 2 ^ 32)
    (places : count ≤ 2 ^ 64)
    : Go.Naming.verifyTaskChain Go.Cose.digestLibrary (signedChain task count) [] 1 objectKey
      = .ok (sampleChain task count 0 genesis) := by
  refine goVerifyTaskChain_eq_ok.mpr (accepted_sampleChain (goRead_signTransition (short _)) ?_
    (List.length_replicate) (by rwa [Nat.zero_add]))
  intro i h head place
  rw [goEncode, transitionBytes_eq (encodable_sampleTransition (short _) head place)]
  rfl

end Samples

end Naalp.Names

/-! What a verified task chain is. It is a legal run of the task states under its card, of whose
rearrangements only the beginnings are accepted; but neither implementation compares the tasks that
its transitions name.
-/

namespace Naalp.Names

open Naalp.Foundation
open Naalp.Python
open Naalp.Python.Cbor
open Naalp.Python.Cose
open Naalp.Python.Fields
open Naalp.Python.Naming
open Naalp.Implementations
open Naalp.Signatures

-----------------------------------------------------------------------------------------
-- What the objects of a chain carry
-----------------------------------------------------------------------------------------

/-- The object signs the pairs of the transition. -/
def SignsTransition (obj : Bytes) (t : Transition) : Prop :=
  ∃ m, SignsMap obj m ∧ Shows (transitionPairs t) m

/-- An object signs one transition. -/
theorem SignsTransition.unique {obj : Bytes} {t t' : Transition} (signs : SignsTransition obj t)
    (again : SignsTransition obj t') : t = t' := by
  obtain ⟨m, signed, shown⟩ := signs
  obtain ⟨m', signed', shown'⟩ := again
  obtain rfl := signed.unique signed'
  simp only [shows_transitionPairs] at shown shown'
  cases t
  cases t'
  simp_all

section Readers

variable {obj : Bytes} {t : Transition}

theorem signsTransition_of_pyRead {lib : SignatureLibrary} {profile alg : Int} {pubkey : Bytes}
    (carried : pyRead lib profile alg pubkey obj = .ok t) : SignsTransition obj t := by
  obtain ⟨payload, gate, parsed⟩ := bind_eq_ok.mp carried
  obtain ⟨prot, sig, -, split, -⟩ := floorGate_eq_ok.mp gate
  obtain ⟨m, decoded, shown⟩ := parseTransition_eq_ok.mp parsed
  exact ⟨m, ⟨prot, payload, sig, split, decoded⟩, shown⟩

theorem signsTransition_of_goRead {lib : Go.Cose.SignatureLibrary} {profile : Int}
    {v : Go.Cose.Verifier} (carried : goRead lib profile v obj = .ok t)
    : SignsTransition obj t := by
  obtain ⟨payload, gate, parsed⟩ := bind_eq_ok.mp carried
  obtain ⟨-, -, gate⟩ := bind_eq_ok.mp gate
  obtain ⟨⟨prot, found, sig⟩, split, same⟩ := bind_eq_ok.mp gate
  obtain rfl := Except.ok.inj same
  obtain ⟨m, ⟨decoded, -⟩, shown⟩ := goParseTransition_eq_ok.mp parsed
  exact ⟨m, ⟨prot, found, sig, (parseSign1Raw_of_go split).1, decoded⟩, shown⟩

/-- The numbers that a signed body carries are those of the wire. -/
theorem SignsTransition.seq_lt (signs : SignsTransition obj t) : t.seq < 2 ^ 64 := by
  obtain ⟨m, ⟨prot, payload, sig, -, decoded⟩, shown⟩ := signs
  have found : field 5 m = some (.u t.seq) := shown _ _ (by simp [transitionPairs])
  have distinct := nodup_of_ascending (ascending_of_decode decoded)
  have encodable := (decode_eq_ok.mp decoded).1.encodable
  have member := (encodable_m.mp encodable).2.1 _ ((field_eq_some distinct).mp found)
  exact (encodable_u.mp member.2).2

end Readers

/-- The object signs a transition of the task. -/
def SignsTask (obj task : Bytes) : Prop := ∃ t, SignsTransition obj t ∧ t.task = task

-----------------------------------------------------------------------------------------
-- One task
-----------------------------------------------------------------------------------------

/-- The transitions are of one task. -/
def OneTask (ts : List Transition) : Prop := ∀ t ∈ ts, ∀ u ∈ ts, t.task = u.task

/-- The Python verifier accepts the objects as these transitions, for some card and key. -/
def PyAccepts (objs : List Bytes) (out : List Transition) : Prop :=
  ∃ lib card profile alg pubkey, verifyTaskChain lib objs card profile alg pubkey = .ok out

def GoAccepts (objs : List Bytes) (out : List Transition) : Prop :=
  ∃ lib card profile v, Go.Naming.verifyTaskChain lib objs card profile v = .ok out

/-- When what is accepted is of one task: as far as the signed bodies name one task, which only the
shortest chains cannot help.
-/
structure OneTaskExactly (accepts : List Bytes → List Transition → Prop) (count : Nat) : Prop where
  named : ∀ objs out, accepts objs out
    → (OneTask out ↔ ∃ task, ∀ obj ∈ objs, SignsTask obj task)
  counted : (∀ objs out, accepts objs out → objs.length = count → OneTask out)
    ↔ count ≤ 1 ∨ 2 ^ 64 < count

section Tasks

variable {ε : Type} {read : Bytes → Except ε Transition} {encode : Transition → Except ε Bytes}
  {card h : Bytes} {i source : Int} {objs : List Bytes} {out : List Transition}

theorem oneTask_of_named {task : Bytes} (signs : List.Forall₂ SignsTransition objs out)
    (named : ∀ obj ∈ objs, SignsTask obj task) : ∀ t ∈ out, t.task = task := by
  induction signs with
  | nil => simp
  | cons here _ ih =>
      obtain ⟨⟨t, again, rfl⟩, later⟩ := List.forall_mem_cons.mp named
      exact List.forall_mem_cons.mpr ⟨congrArg Transition.task (here.unique again), ih later⟩

theorem named_of_oneTask {task : Bytes} (signs : List.Forall₂ SignsTransition objs out)
    (one : ∀ t ∈ out, t.task = task) : ∀ obj ∈ objs, SignsTask obj task := by
  induction signs with
  | nil => simp
  | cons here _ ih =>
      obtain ⟨same, later⟩ := List.forall_mem_cons.mp one
      exact List.forall_mem_cons.mpr ⟨⟨_, here, same⟩, ih later⟩

/-- The transitions are of one task exactly when all objects sign one task. -/
theorem oneTask_iff_named (signs : List.Forall₂ SignsTransition objs out)
    : OneTask out ↔ ∃ task, ∀ obj ∈ objs, SignsTask obj task := by
  constructor
  · intro one
    cases out with
    | nil => exact ⟨[], named_of_oneTask signs nofun⟩
    | cons t rest => exact ⟨t.task, named_of_oneTask signs fun u member => one u member t (by simp)⟩
  · rintro ⟨task, named⟩ t member u member'
    have all := oneTask_of_named signs named
    rw [all t member, all u member']

/-- A chain is no longer than the numbers of the wire reach. -/
theorem Accepted.length_le (accepted : Accepted read encode card 0 h source objs out)
    (signs : List.Forall₂ SignsTransition objs out) : objs.length ≤ 2 ^ 64 := by
  have same := accepted.signed.length_eq
  by_contra long
  have inside : 2 ^ 64 < objs.length := by omega
  have seq := accepted.seq_eq inside
    ((List.forall₂_iff_get.mp accepted.signed).2 _ inside (same ▸ inside))
  have wire := ((List.forall₂_iff_get.mp signs).2 _ inside (same ▸ inside)).seq_lt
  rw [seq] at wire
  omega

end Tasks

/-- One task is submitted, and another is worked on. -/
def splicedTask (i : Nat) : Bytes := if i = 0 then [1] else [2]

theorem splicedTask_short (i : Nat) : (splicedTask i).length < 2 ^ 32 := by
  unfold splicedTask
  split <;> decide

theorem not_oneTask_spliced {count : Nat} (long : 2 ≤ count)
    : ¬ OneTask (sampleChain splicedTask count 0 genesis) := by
  obtain ⟨count, rfl⟩ := Nat.exists_eq_add_of_le' long
  intro one
  have same := one (sampleTransition splicedTask 0 genesis) (by simp [sampleChain])
    (sampleTransition splicedTask 1
      (Sha2.sha384 (transitionBody (sampleTransition splicedTask 0 genesis))))
        (by simp [sampleChain])
  simp [sampleTransition, splicedTask] at same

/-- A verifier that accepts chains of signed transitions, and the spliced chains of every length
among them, accepts chains of one task only where they have no two transitions.
-/
theorem oneTaskExactly_of_spliced {accepts : List Bytes → List Transition → Prop} {count : Nat}
    (signs : ∀ objs out, accepts objs out → List.Forall₂ SignsTransition objs out)
    (reaches : ∀ objs out, accepts objs out → objs.length ≤ 2 ^ 64)
    (spliced : ∀ count ≤ 2 ^ 64,
      accepts (signedChain splicedTask count) (sampleChain splicedTask count 0 genesis))
    : OneTaskExactly accepts count := by
  refine ⟨fun objs out accepted => oneTask_iff_named (signs objs out accepted), ?_⟩
  constructor
  · intro one
    by_contra long
    obtain ⟨lower, upper⟩ : 2 ≤ count ∧ count ≤ 2 ^ 64 := by omega
    refine not_oneTask_spliced lower (one _ _ (spliced count upper) ?_)
    rw [(signs _ _ (spliced count upper)).length_eq]
    exact length_sampleChain _ _ _ _
  · intro short objs out accepted length t member u member'
    rcases short with short | long
    · have same := (signs objs out accepted).length_eq
      obtain ⟨n, inside, rfl⟩ := List.mem_iff_getElem.mp member
      obtain ⟨n', inside', rfl⟩ := List.mem_iff_getElem.mp member'
      obtain ⟨rfl, rfl⟩ : n = 0 ∧ n' = 0 := by omega
      rfl
    · have reach := reaches objs out accepted
      omega

theorem signs_of_accepted {ε : Type} {read : Bytes → Except ε Transition}
    {encode : Transition → Except ε Bytes} {card h : Bytes} {i source : Int} {objs : List Bytes}
    {out : List Transition} (accepted : Accepted read encode card i h source objs out)
    (signs : ∀ {obj t}, read obj = .ok t → SignsTransition obj t)
    : List.Forall₂ SignsTransition objs out :=
  accepted.signed.imp fun _ _ carried => signs carried

theorem signs_of_pyAccepts {objs : List Bytes} {out : List Transition}
    (accepts : PyAccepts objs out)
    : List.Forall₂ SignsTransition objs out ∧ objs.length ≤ 2 ^ 64 := by
  obtain ⟨lib, card, profile, alg, pubkey, verified⟩ := accepts
  have accepted := verifyTaskChain_eq_ok.mp verified
  have signs := signs_of_accepted accepted signsTransition_of_pyRead
  exact ⟨signs, accepted.length_le signs⟩

theorem signs_of_goAccepts {objs : List Bytes} {out : List Transition}
    (accepts : GoAccepts objs out)
    : List.Forall₂ SignsTransition objs out ∧ objs.length ≤ 2 ^ 64 := by
  obtain ⟨lib, card, profile, v, verified⟩ := accepts
  have accepted := goVerifyTaskChain_eq_ok.mp verified
  have signs := signs_of_accepted accepted signsTransition_of_goRead
  exact ⟨signs, accepted.length_le signs⟩

/-- Both implementations accept chains of one task exactly as far as the signed bodies happen to
name one. Of every length from two on that the numbers of the wire reach, they accept a chain of two
tasks.
-/
theorem task_chains_of_one_task_iff (count : Nat)
    : OneTaskExactly PyAccepts count ∧ OneTaskExactly GoAccepts count := by
  constructor
  · refine oneTaskExactly_of_spliced (fun _ _ accepts => (signs_of_pyAccepts accepts).1)
      (fun _ _ accepts => (signs_of_pyAccepts accepts).2) ?_
    intro count places
    exact ⟨_, _, _, _, _, verifyTaskChain_signedChain splicedTask_short places⟩
  · refine oneTaskExactly_of_spliced (fun _ _ accepts => (signs_of_goAccepts accepts).1)
      (fun _ _ accepts => (signs_of_goAccepts accepts).2) ?_
    intro count places
    exact ⟨_, _, _, _, goVerifyTaskChain_signedChain splicedTask_short places⟩

/-- Task 1 is submitted and moved to work, and the next transition of the chain is one of task 2. -/
theorem two_tasks_spliced
    : ∃ out, verifyTaskChain digestLibrary (signedChain splicedTask 2) [] 1 algMldsa65
          objectKey.pubKey = .ok out
        ∧ Go.Naming.verifyTaskChain Go.Cose.digestLibrary (signedChain splicedTask 2) [] 1 objectKey
          = .ok out
        ∧ out.map Transition.task = [[1], [2]] :=
  ⟨_, verifyTaskChain_signedChain splicedTask_short (by decide),
    goVerifyTaskChain_signedChain splicedTask_short (by decide), rfl⟩

-----------------------------------------------------------------------------------------
-- Legal runs that cannot be edited
-----------------------------------------------------------------------------------------

/-- A list of objects that is accepted is a legal run under its card, and of all lists of its
objects only its beginnings are accepted, under whatever card, profile and key.
-/
theorem accepted_task_chain {lib : SignatureLibrary} {objs : List Bytes} {card : Bytes}
    {profile alg : Int} {pubkey : Bytes} {out : List Transition}
    (accepted : verifyTaskChain lib objs card profile alg pubkey = .ok out)
    : List.Forall₂ SignsTransition objs out ∧ LegalRun card out
      ∧ ∀ edited ⊆ objs, ∀ card' profile' alg' pubkey' out',
          verifyTaskChain lib edited card' profile' alg' pubkey' = .ok out' → edited <+: objs := by
  have chain := verifyTaskChain_eq_ok.mp accepted
  refine ⟨signs_of_accepted chain signsTransition_of_pyRead, chain.legalRun, ?_⟩
  intro edited members card' profile' alg' pubkey' out' again
  refine chain.prefix_of_subset (verifyTaskChain_eq_ok.mp again) members ?_
  intro obj t t' carried carried'
  exact (signsTransition_of_pyRead carried).unique (signsTransition_of_pyRead carried')

theorem taskChain_faithful : (taskChain Transition.bytes).Faithful := by
  intro t t' body encoded encoded'
  have pairs := pairs_eq_of_leaves (transitionPairs_ascending t) (transitionPairs_leaves t)
    (transitionPairs_ascending t') (transitionPairs_leaves t') encoded encoded'
  obtain ⟨task, card, frm, to_, seq, prev⟩ := t
  obtain ⟨task', card', frm', to', seq', prev'⟩ := t'
  simp_all [transitionPairs]

/-- The last transition pins the chain: two accepted chains that end in it are the same transitions,
unless two different bodies have one digest.
-/
theorem last_transition_pins_chain {lib : SignatureLibrary} {objs objs' : List Bytes}
    {card card' : Bytes} {profile profile' alg alg' : Int} {pubkey pubkey' : Bytes}
    {out out' : List Transition}
    (accepted : verifyTaskChain lib objs card profile alg pubkey = .ok out)
    (again : verifyTaskChain lib objs' card' profile' alg' pubkey' = .ok out')
    (last : out.getLast? = out'.getLast?)
    : out = out' ∨ (taskChain Transition.bytes).Collide out out' := by
  obtain ⟨final, linked⟩ := (verifyTaskChain_eq_ok.mp accepted).linked
  obtain ⟨final', linked'⟩ := (verifyTaskChain_eq_ok.mp again).linked
  exact linked.eq_of_last taskChain_faithful linked' last

/-- Two transitions of one task. -/
theorem accepted_task_chain_two
    : verifyTaskChain digestLibrary (signedChain (fun _ => [1]) 2) [] 1 algMldsa65 objectKey.pubKey
        = .ok (sampleChain (fun _ => [1]) 2 0 genesis)
      ∧ LegalRun [] (sampleChain (fun _ => [1]) 2 0 genesis) := by
  have accepted := @verifyTaskChain_signedChain (fun _ => [1]) 2 (fun _ => by decide) (by decide)
  exact ⟨accepted, (accepted_task_chain accepted).2.1⟩

end Naalp.Names
