import Naalp.Foundation.HashChain
import Naalp.Names.Bodies

/-! What the two verifiers of task chains accept: signed transitions that are linked from the
genesis head on and take the task state machine from its start state on, under one card.
-/

namespace Naalp.Names

open Naalp.Foundation
open Naalp.Python
open Naalp.Python.Cbor
open Naalp.Python.Cose
open Naalp.Python.Naming
open Naalp.Implementations
open Naalp.Signatures

/-- A transition names the digest of the body of the one before it. -/
def taskChain {ε : Type} (encode : Transition → Except ε Bytes)
    : ChainHash Transition Bytes Bytes ε where
  encode
  hash := Sha2.sha384
  prev := Transition.prev
  position := Transition.seq

/-- (Steps card source transitions) says that the transitions leave the source state in turn, each
by a legal edge and under the card.
-/
inductive Steps (card : Bytes) : Int → List Transition → Prop where
  | nil (source : Int) : Steps card source []
  | cons {t : Transition} {rest : List Transition} (bound : t.card = card)
    (legal : legalEdge t.frm t.to_ = true) (later : Steps card t.to_ rest)
    : Steps card t.frm (t :: rest)

/-- What an accepted chain is, for the reader and the encoder of an implementation: the signed
transitions in turn, linked from the genesis head on, and a run from the start state on.
-/
structure Accepted {ε : Type} (read : Bytes → Except ε Transition)
    (encode : Transition → Except ε Bytes) (card : Bytes) (i : Int) (h : Bytes) (source : Int)
    (objs : List Bytes) (out : List Transition) : Prop where
  signed : List.Forall₂ (fun obj t => read obj = .ok t) objs out
  linked : ∃ final, (taskChain encode).Linked i h out final
  steps : Steps card source out

section Cons

variable {ε : Type} {read : Bytes → Except ε Transition} {encode : Transition → Except ε Bytes}
  {card h : Bytes} {i source : Int} {obj : Bytes} {objs : List Bytes} {out : List Transition}

theorem accepted_nil : Accepted read encode card i h source [] out ↔ out = [] := by
  constructor
  · rintro ⟨signed, -, -⟩
    cases signed
    rfl
  · rintro rfl
    exact ⟨.nil, ⟨h, .nil _ _⟩, .nil _⟩

/-- One round of the loop: the first transition, and the chain after it. -/
theorem accepted_cons
    : Accepted read encode card i h source (obj :: objs) out
      ↔ ∃ t rest body, read obj = .ok t ∧ t.seq = i ∧ t.prev = h ∧ t.card = card ∧ t.frm = source
        ∧ legalEdge t.frm t.to_ = true ∧ encode t = .ok body
        ∧ Accepted read encode card (i + 1) (Sha2.sha384 body) t.to_ objs rest
        ∧ out = t :: rest := by
  constructor
  · rintro ⟨signed, ⟨final, linked⟩, steps⟩
    cases signed with
    | cons first later =>
        cases linked with
        | cons position prev encoded linked =>
            cases steps with
            | cons bound legal steps =>
                exact ⟨_, _, _, first, position, prev, bound, rfl, legal, encoded,
                  ⟨later, ⟨final, linked⟩, steps⟩, rfl⟩
  · rintro ⟨t, rest, body, first, position, prev, bound, rfl, legal, encoded,
      ⟨later, ⟨final, linked⟩, steps⟩, rfl⟩
    exact ⟨.cons first later, ⟨final, .cons position prev encoded linked⟩,
      .cons bound legal steps⟩

end Cons

section Loops

variable {card h : Bytes} {profile alg : Int} {pubkey : Bytes} {i source : Int} {objs : List Bytes}
  {out : List Transition}

/-- The transition that an object carries. -/
def pyRead (lib : SignatureLibrary) (profile alg : Int) (pubkey obj : Bytes) : Py Transition :=
  verifySign1 lib obj profile alg pubkey >>= parseTransition

theorem checkSource_eq_ok {prevTo : Option Int} {frm : Int}
    (here : if i = 0 then source = startState else prevTo = some source)
    : checkSource i prevTo frm = .ok () ↔ frm = source := by
  unfold checkSource
  split_ifs at here ⊢ with first
  · rw [here, raiseIf_eq_ok, not_not]
  · rw [here, raiseIf_eq_ok, not_not, Option.some.injEq]

/-- The Python loop accepts exactly the chains from its head and source state on, by induction over
the objects.
-/
theorem verifyTransitions_eq_ok {lib : SignatureLibrary} {prevTo : Option Int} (index : 0 ≤ i)
    (here : if i = 0 then source = startState else prevTo = some source)
    : verifyTransitions lib card profile alg pubkey i h prevTo objs = .ok out
      ↔ Accepted (pyRead lib profile alg pubkey) Transition.bytes card i h source objs out := by
  induction objs generalizing i h source prevTo out with
  | nil => rw [verifyTransitions, pure_eq_ok, Except.ok.injEq, accepted_nil, eq_comm]
  | cons obj objs ih =>
      have later {body : Bytes} {t : Transition} {rest : List Transition}
          : verifyTransitions lib card profile alg pubkey (i + 1) (Sha2.sha384 body)
            (some t.to_) objs
              = .ok rest
            ↔ Accepted (pyRead lib profile alg pubkey) Transition.bytes card (i + 1)
              (Sha2.sha384 body) t.to_ objs rest :=
        ih (by omega) (by rw [if_neg (by omega)])
      simp only [verifyTransitions, accepted_cons, pyRead, bind_eq_ok,
        raiseIf_eq_ok, checkSource_eq_ok here, verifyTransition,
        Transition.head, pure_eq_ok, Except.ok.injEq, not_or, not_not, ne_eq,
        Bool.not_eq_false, exists_const]
      constructor
      · rintro ⟨payload, gate, t, parsed, ⟨position, prev⟩, bound, leaves, legal, _,
          ⟨body, encoded, rfl⟩, rest, walked, rfl⟩
        exact ⟨t, rest, body, ⟨payload, gate, parsed⟩, position, prev, bound, leaves, legal,
          encoded, later.mp walked, rfl⟩
      · rintro ⟨t, rest, body, ⟨payload, gate, parsed⟩, position, prev, bound, leaves, legal,
          encoded, walked, rfl⟩
        exact ⟨payload, gate, t, parsed, ⟨position, prev⟩, bound, leaves, legal, _,
          ⟨body, encoded, rfl⟩, rest, later.mpr walked, rfl⟩

theorem verifyTaskChain_eq_ok {lib : SignatureLibrary}
    : verifyTaskChain lib objs card profile alg pubkey = .ok out
      ↔ Accepted (pyRead lib profile alg pubkey) Transition.bytes card 0 genesis startState objs
        out :=
  verifyTransitions_eq_ok (Int.le_refl 0) (by rw [if_pos rfl])

def goRead (lib : Go.Cose.SignatureLibrary) (profile : Int) (v : Go.Cose.Verifier) (obj : Bytes)
    : Go.Result Transition :=
  Go.Naming.signedPayload lib obj profile v >>= Go.Naming.parseTransition

def goEncode (t : Transition) : Go.Result Bytes := .ok (Go.Naming.transitionBytes t)

theorem goCheckSource_eq_ok {prevTo frm : Int}
    (here : if i = 0 then source = startState else prevTo = source)
    : Go.Naming.checkSource i prevTo frm = .ok () ↔ frm = source := by
  unfold Go.Naming.checkSource
  split_ifs at here ⊢ with first
  · rw [here, raiseIf_eq_ok, not_not]
  · rw [here, raiseIf_eq_ok, not_not]

/-- The Go walk accepts exactly the task chains, by induction on the objects. -/
theorem goVerifyTransitions_eq_ok {lib : Go.Cose.SignatureLibrary} {v : Go.Cose.Verifier}
    {prevTo : Int} (index : 0 ≤ i) (here : if i = 0 then source = startState else prevTo = source)
    : Go.Naming.verifyTransitions lib card profile v i h prevTo objs = .ok out
      ↔ Accepted (goRead lib profile v) goEncode card i h source objs out := by
  induction objs generalizing i h source prevTo out with
  | nil => rw [Go.Naming.verifyTransitions, pure_eq_ok, Except.ok.injEq, accepted_nil, eq_comm]
  | cons obj objs ih =>
      have later {body : Bytes} {t : Transition} {rest : List Transition}
          : Go.Naming.verifyTransitions lib card profile v (i + 1) (Sha2.sha384 body) t.to_ objs
              = .ok rest
            ↔ Accepted (goRead lib profile v) goEncode card (i + 1) (Sha2.sha384 body) t.to_ objs
              rest :=
        ih (by omega) (by rw [if_neg (by omega)])
      simp only [Go.Naming.verifyTransitions, accepted_cons, goRead, goEncode, bind_eq_ok,
        raiseIf_eq_ok, goCheckSource_eq_ok here,
        Go.Naming.verifyTransition, Go.Naming.transitionHead, pure_eq_ok, Except.ok.injEq, not_or,
        not_not, ne_eq, Bool.not_eq_false, exists_const]
      constructor
      · rintro ⟨payload, gate, t, parsed, ⟨position, prev⟩, bound, leaves, legal, rest, walked, rfl⟩
        exact ⟨t, rest, _, ⟨payload, gate, parsed⟩, position, prev, bound, leaves, legal, rfl,
          later.mp walked, rfl⟩
      · rintro ⟨t, rest, body, ⟨payload, gate, parsed⟩, position, prev, bound, leaves, legal, rfl,
          walked, rfl⟩
        exact ⟨payload, gate, t, parsed, ⟨position, prev⟩, bound, leaves, legal, rest,
          later.mpr walked, rfl⟩

theorem goVerifyTaskChain_eq_ok {lib : Go.Cose.SignatureLibrary} {v : Go.Cose.Verifier}
    : Go.Naming.verifyTaskChain lib objs card profile v = .ok out
      ↔ Accepted (goRead lib profile v) goEncode card 0 genesis startState objs out :=
  goVerifyTransitions_eq_ok (Int.le_refl 0) (by rw [if_pos rfl])

end Loops

-----------------------------------------------------------------------------------------
-- Runs of the task states
-----------------------------------------------------------------------------------------

/-- A run of the task states under a card: from the start state, each transition by a legal edge
from where the one before it led, never on from a terminal state, and numbered in turn.
-/
structure LegalRun (card : Bytes) (ts : List Transition) : Prop where
  bound : ∀ t ∈ ts, t.card = card
  start : ∀ t ∈ ts.head?, t.frm = startState
  contiguous : ∀ i (inside : i + 1 < ts.length), ts[i + 1].frm = ts[i].to_
  legal : ∀ t ∈ ts, (t.frm, t.to_) ∈ legalEdges
  unfinished : ∀ i (inside : i + 1 < ts.length), ts[i].to_ ∉ terminal
  numbered : ∀ i (inside : i < ts.length), ts[i].seq = i

section Runs

variable {card : Bytes} {source : Int} {ts : List Transition}

theorem Steps.bound (steps : Steps card source ts) : ∀ t ∈ ts, t.card = card := by
  induction steps with
  | nil => simp
  | cons bound _ _ ih => exact List.forall_mem_cons.mpr ⟨bound, ih⟩

theorem Steps.legal (steps : Steps card source ts) : ∀ t ∈ ts, legalEdge t.frm t.to_ = true := by
  induction steps with
  | nil => simp
  | cons _ legal _ ih => exact List.forall_mem_cons.mpr ⟨legal, ih⟩

theorem Steps.start (steps : Steps card source ts) : ∀ t ∈ ts.head?, t.frm = source := by
  cases steps with
  | nil => simp
  | cons => simp

/-- Each step of a walk starts where the one before it ended, by induction on the steps. -/
theorem Steps.contiguous (steps : Steps card source ts)
    : ∀ i (inside : i + 1 < ts.length), ts[i + 1].frm = ts[i].to_ := by
  induction steps with
  | nil => simp
  | @cons t rest _ _ later ih =>
      intro i inside
      cases i with
      | zero =>
          have inside' : 0 < rest.length := by simpa using inside
          refine later.start _ ?_
          rw [List.head?_eq_getElem?, List.getElem?_eq_getElem inside']
          rfl
      | succ i => exact ih i (by simpa using inside)

/-- No legal edge leaves a terminal state. -/
theorem not_terminal_of_legalEdge {frm to_ : Int} (legal : legalEdge frm to_ = true)
    : frm ∉ terminal := by
  have edges : ∀ edge ∈ legalEdges, edge.1 ∉ terminal := by decide
  exact edges _ (of_decide_eq_true legal).2.2

/-- An accepted chain is a legal run. -/
theorem Accepted.legalRun {ε : Type} {read : Bytes → Except ε Transition}
    {encode : Transition → Except ε Bytes} {h : Bytes} {objs : List Bytes}
    (accepted : Accepted read encode card 0 h startState objs ts) : LegalRun card ts := by
  obtain ⟨final, linked⟩ := accepted.linked
  have contiguous := accepted.steps.contiguous
  have legal := accepted.steps.legal
  refine ⟨accepted.steps.bound, accepted.steps.start, contiguous, ?_, ?_, ?_⟩
  · intro t member
    exact (of_decide_eq_true (legal t member)).2.2
  · intro i inside
    rw [← contiguous i inside]
    exact not_terminal_of_legalEdge (legal _ (List.getElem_mem inside))
  · intro i inside
    simpa [taskChain] using linked.positions i inside

end Runs

section Edits

variable {ε : Type} {read read' : Bytes → Except ε Transition}
  {encode : Transition → Except ε Bytes} {card card' h h' : Bytes} {i source source' : Int}
  {objs edited : List Bytes} {out out' : List Transition}

/-- The transition of an object in an accepted chain has the number of its place. -/
theorem Accepted.seq_eq (accepted : Accepted read encode card 0 h source objs out) {n : Nat}
    (inside : n < objs.length) {t : Transition} (carried : read objs[n] = .ok t) : t.seq = n := by
  obtain ⟨final, linked⟩ := accepted.linked
  have same := accepted.signed.length_eq
  have here := List.forall₂_iff_get.mp accepted.signed |>.2 n inside (same ▸ inside)
  obtain rfl := Except.ok.inj (carried.symm.trans here)
  simpa [taskChain] using linked.positions n (same ▸ inside)

theorem Accepted.carried (accepted : Accepted read encode card i h source objs out) {n : Nat}
    (inside : n < objs.length) : ∃ t, read objs[n] = .ok t :=
  ⟨_, (List.forall₂_iff_get.mp accepted.signed).2 n inside (accepted.signed.length_eq ▸ inside)⟩

/-- Of all lists of the objects of a chain only its beginnings are accepted, whatever the order and
the repetitions, and whatever card, profile and key they are checked under: the signed number of a
transition is its place.
-/
theorem Accepted.prefix_of_subset (accepted : Accepted read encode card 0 h source objs out)
    (again : Accepted read' encode card' 0 h' source' edited out') (members : edited ⊆ objs)
    (same : ∀ obj t t', read obj = .ok t → read' obj = .ok t' → t = t')
    : edited <+: objs := by
  have placed : ∀ n (inside : n < edited.length), objs[n]? = some edited[n] := by
    intro n inside
    obtain ⟨place, inside', here⟩ := List.mem_iff_getElem.mp (members (List.getElem_mem inside))
    obtain ⟨t', carried'⟩ := again.carried inside
    obtain ⟨t, carried⟩ := accepted.carried inside'
    have seq := accepted.seq_eq inside' carried
    have seq' := again.seq_eq inside carried'
    obtain rfl := same _ _ _ carried (here ▸ carried')
    obtain rfl : place = n := by omega
    rw [List.getElem?_eq_getElem inside', here]
  exact List.prefix_iff_getElem?.mpr placed

end Edits

end Naalp.Names
