import Mathlib.Data.List.Induction
import Mathlib.Data.Set.Basic
import Mathlib.Logic.Function.Basic
import Mathlib.Logic.Relation

/-! Runs of a system that answers one call at a time. A call yields an outcome and the next state.
Interleaved callers whose calls are atomic make one such sequence, so a result about all sequences
covers every interleaving. A run may also follow a specification by an initial predicate and a step
relation.
-/

namespace Naalp.Foundation

variable {σ ι ο κ : Type}

/-- One answered call of a run, with the states around it. -/
structure Event (σ ι ο : Type) where
  before : σ
  call : ι
  outcome : ο
  after : σ

variable (step : σ → ι → ο × σ)

/-- The event of answering `call` in `state`. -/
def answer (state : σ) (call : ι) : Event σ ι ο :=
  { before := state, call, outcome := (step state call).1, after := (step state call).2 }

/-- The events of a run, in order. -/
def trace : σ → List ι → List (Event σ ι ο)
  | _, [] => []
  | state, call :: calls => answer step state call :: trace (step state call).2 calls

/-- The state that a run ends in. -/
def finalState (start : σ) (calls : List ι) : σ :=
  calls.foldl (fun state call => (step state call).2) start

variable {step} {allowed : ι → Prop} {inv : σ → Prop}

/-- An invariant that every allowed call keeps holds at the end of every allowed run, by
induction over the calls.
-/
theorem finalState_invariant
    (keeps : ∀ state call, allowed call → inv state → inv (step state call).2)
    {start : σ} {calls : List ι} (initial : inv start) (all : ∀ call ∈ calls, allowed call)
    : inv (finalState step start calls) := by
  induction calls generalizing start with
  | nil => exact initial
  | cons call calls ih =>
      obtain ⟨first, later⟩ := List.forall_mem_cons.mp all
      exact ih (keeps start call first initial) later

/-- So does an invariant that every call keeps. -/
theorem finalState_keeps (keeps : ∀ state call, inv state → inv (step state call).2) {start : σ}
    (initial : inv start) (calls : List ι) : inv (finalState step start calls) :=
  @finalState_invariant _ _ _ step (fun _ => True) inv (fun state call _ => keeps state call) start
    calls initial (fun _ _ => trivial)

/-- The events of a run that goes on for one call. -/
theorem trace_snoc {start : σ} {calls : List ι} {call : ι}
    : trace step start (calls ++ [call])
      = trace step start calls ++ [answer step (finalState step start calls) call] := by
  induction calls generalizing start with
  | nil => rfl
  | cons first calls ih =>
      rw [List.cons_append, trace, trace, ih]
      rfl

theorem finalState_snoc {start : σ} {calls : List ι} {call : ι}
    : finalState step start (calls ++ [call])
      = (step (finalState step start calls) call).2 := by
  simp [finalState]

/-- What relates a state to the calls before it holds at the end of every run of good calls, by
induction from the end of the calls.
-/
theorem finalState_history_of_good {good : σ → ι → Prop} {holds : List ι → σ → Prop} {start : σ}
    (initial : holds [] start)
    (keeps : ∀ before state call, holds before state → good state call
      → holds (before ++ [call]) (step state call).2)
    {calls : List ι} (all : ∀ event ∈ trace step start calls, good event.before event.call)
    : holds calls (finalState step start calls) := by
  induction calls using List.reverseRecOn with
  | nil => exact initial
  | append_singleton before call ih =>
      rw [trace_snoc, List.forall_mem_append, List.forall_mem_singleton] at all
      rw [finalState_snoc]
      exact keeps before _ call (ih all.1) all.2

/-- What relates a state to the calls before it holds before every event of a run of good calls, by
induction from the end of the calls.
-/
theorem mem_trace_history_of_good {good : σ → ι → Prop} {holds : List ι → σ → Prop} {start : σ}
    (initial : holds [] start)
    (keeps : ∀ before state call, holds before state → good state call
      → holds (before ++ [call]) (step state call).2)
    {calls : List ι} (all : ∀ event ∈ trace step start calls, good event.before event.call)
    {event : Event σ ι ο} (member : event ∈ trace step start calls)
    : ∃ before, holds before event.before ∧ event = answer step event.before event.call := by
  induction calls using List.reverseRecOn with
  | nil => cases member
  | append_singleton before call ih =>
      rw [trace_snoc, List.forall_mem_append] at all
      rw [trace_snoc, List.mem_append, List.mem_singleton] at member
      rcases member with earlier | rfl
      · exact ih all.1 earlier
      · exact ⟨before, finalState_history_of_good initial keeps all.1, rfl⟩

/-- It holds at the end of every run when every call keeps it. -/
theorem finalState_history {holds : List ι → σ → Prop} {start : σ} (initial : holds [] start)
    (keeps : ∀ before state call, holds before state
      → holds (before ++ [call]) (step state call).2) (calls : List ι)
    : holds calls (finalState step start calls) :=
  @finalState_history_of_good _ _ _ _ (fun _ _ => True) _ _ initial
    (fun before state call held _ => keeps before state call held) _ (fun _ _ => trivial)

/-- The events of a run are its calls, each answered in the state that the calls before it left. -/
theorem mem_trace_iff {start : σ} {calls : List ι} {event : Event σ ι ο}
    : event ∈ trace step start calls
      ↔ ∃ before call after, calls = before ++ call :: after
        ∧ event = answer step (finalState step start before) call := by
  induction calls generalizing start with
  | nil => simp [trace]
  | cons first calls ih =>
      rw [trace, List.mem_cons, ih]
      constructor
      · intro member
        rcases member with rfl | ⟨before, call, after, rfl, rfl⟩
        · exact ⟨[], first, calls, rfl, rfl⟩
        · exact ⟨first :: before, call, after, rfl, rfl⟩
      · intro split
        obtain ⟨before, call, after, same, rfl⟩ := split
        cases before with
        | nil =>
            obtain ⟨rfl, rfl⟩ := List.cons.inj same
            exact .inl rfl
        | cons other before =>
            obtain ⟨rfl, rfl⟩ := List.cons.inj same
            exact .inr ⟨before, call, after, rfl, rfl⟩

/-- Every event of an allowed run answers an allowed call in a state of the invariant, by
induction over the calls.
-/
theorem mem_trace
    (keeps : ∀ state call, allowed call → inv state → inv (step state call).2)
    {start : σ} {calls : List ι} (initial : inv start) (all : ∀ call ∈ calls, allowed call)
    {event : Event σ ι ο} (member : event ∈ trace step start calls)
    : inv event.before ∧ allowed event.call ∧ event = answer step event.before event.call := by
  induction calls generalizing start with
  | nil => cases member
  | cons call calls ih =>
      obtain ⟨first, later⟩ := List.forall_mem_cons.mp all
      rcases List.mem_cons.mp member with rfl | rest
      · exact ⟨initial, first, rfl⟩
      · exact ih (keeps start call first initial) later rest

/-- A run of good calls keeps what each of them keeps, and its end is later than the states after
its events when each of them moves its state on; by induction over the calls.
-/
theorem trace_later {good : σ → ι → Prop} {later : σ → σ → Prop} (refl : ∀ state, later state state)
    (trans : ∀ {first second third}, later first second → later second third → later first third)
    (keeps : ∀ state call, good state call → inv state
      → inv (step state call).2 ∧ later state (step state call).2)
    {start : σ} {calls : List ι} (initial : inv start)
    (all : ∀ event ∈ trace step start calls, good event.before event.call)
    : inv (finalState step start calls) ∧ later start (finalState step start calls)
      ∧ ∀ event ∈ trace step start calls, inv event.before
        ∧ event = answer step event.before event.call
        ∧ later event.after (finalState step start calls) := by
  induction calls generalizing start with
  | nil => exact ⟨initial, refl start, fun event member => by cases member⟩
  | cons call calls ih =>
      obtain ⟨first, rest⟩ := List.forall_mem_cons.mp all
      obtain ⟨kept, moved⟩ := keeps start call first initial
      obtain ⟨final, moves, each⟩ := ih kept rest
      refine ⟨final, trans moved moves, List.forall_mem_cons.mpr ⟨?_, each⟩⟩
      exact ⟨initial, rfl, moves⟩

/-- No key is won twice in a run when winning needs the key to be free, takes it, and nothing
frees a key. Witness: induction over the calls, with the keys won later free of the set taken
so far.
-/
theorem wins_nodup {win : Event σ ι ο → Option κ} {taken : σ → Set κ}
    (keeps : ∀ state call, allowed call → inv state → inv (step state call).2)
    (grows : ∀ state call, allowed call → inv state → taken state ⊆ taken (step state call).2)
    (takes : ∀ state call key, allowed call → inv state → win (answer step state call) = some key
      → key ∉ taken state ∧ key ∈ taken (step state call).2)
    {start : σ} {calls : List ι} (initial : inv start) (all : ∀ call ∈ calls, allowed call)
    : ((trace step start calls).filterMap win).Nodup
      ∧ ∀ key ∈ (trace step start calls).filterMap win, key ∉ taken start := by
  induction calls generalizing start with
  | nil => simp [trace]
  | cons call calls ih =>
      obtain ⟨first, later⟩ := List.forall_mem_cons.mp all
      obtain ⟨distinct, free⟩ := ih (keeps start call first initial) later
      have grown := grows start call first initial
      rw [trace, List.filterMap_cons]
      cases won : win (answer step start call) with
      | none => exact ⟨distinct, fun key member held => free key member (grown held)⟩
      | some key =>
          obtain ⟨wasFree, nowTaken⟩ := takes start call key first initial won
          refine ⟨List.nodup_cons.mpr ⟨fun again => free key again nowTaken, distinct⟩, ?_⟩
          intro other member
          rcases List.mem_cons.mp member with rfl | rest
          · exact wasFree
          · exact fun held => free other rest (grown held)

section Family

variable {μ ν : Type} [DecidableEq μ]

/-- Answers a call at the member of a family that it is addressed to; the others stay as they
are. The order of the calls of a run is any interleaving of the members' calls.
-/
def answerAt (step : σ → ι → ο × σ) (states : μ → σ) (call : μ × ι) : ο × (μ → σ) :=
  ((step (states call.1) call.2).1,
    Function.update states call.1 (step (states call.1) call.2).2)

/-- What no allowed call changes at its member is the same at every member throughout a run. -/
theorem mem_trace_answerAt {name : σ → ν} {step : σ → ι → ο × σ} {allowed : ι → Prop}
    (keeps : ∀ state call, allowed call → name (step state call).2 = name state)
    {start : μ → σ} {calls : List (μ × ι)} (all : ∀ call ∈ calls, allowed call.2)
    {event : Event (μ → σ) (μ × ι) ο} (member : event ∈ trace (answerAt step) start calls)
    : (∀ i, name (event.before i) = name (start i))
      ∧ allowed event.call.2
      ∧ event.outcome = (step (event.before event.call.1) event.call.2).1 := by
  let allowedAt (call : μ × ι) : Prop := allowed call.2
  have kept : ∀ states call, allowedAt call
      → (∀ i, name (states i) = name (start i))
      → ∀ i, name ((answerAt step states call).2 i) = name (start i) := by
    intro states call permitted same i
    rw [← same i]
    show name (Function.update states call.1 (step (states call.1) call.2).2 i) = name (states i)
    by_cases here : i = call.1
    · rw [here, Function.update_self]
      exact keeps _ _ permitted
    · rw [Function.update_of_ne here]
  obtain ⟨same, permitted, answered⟩ := mem_trace kept (fun _ => rfl) all member
  refine ⟨same, permitted, ?_⟩
  rw [answered]
  rfl

end Family

-----------------------------------------------------------------------------------------
-- Specifications
-----------------------------------------------------------------------------------------

section Specifications

variable {τ : Type}

/-- An initial predicate and a step relation. -/
structure Specification (τ : Type) where
  init : τ → Prop
  next : τ → τ → Prop

/-- A state at the end of some steps from an initial state. -/
def Specification.Reachable (spec : Specification τ) (t : τ) : Prop :=
  ∃ start, spec.init start ∧ Relation.ReflTransGen spec.next start t

variable {spec : Specification τ} {inv : τ → Prop} {t t' : τ}

/-- What holds initially and is kept by every step holds of every reachable state, by induction over
the steps.
-/
theorem Specification.Reachable.invariant (reachable : spec.Reachable t)
    (initial : ∀ start, spec.init start → inv start)
    (keeps : ∀ {before after}, spec.next before after → inv before → inv after)
    : inv t := by
  obtain ⟨start, starts, steps⟩ := reachable
  induction steps with
  | refl => exact initial start starts
  | tail _ next ih => exact keeps next ih

theorem Specification.Reachable.steps (reachable : spec.Reachable t)
    (steps : Relation.ReflTransGen spec.next t t') : spec.Reachable t' := by
  obtain ⟨start, starts, before⟩ := reachable
  exact ⟨start, starts, before.trans steps⟩

/-- Every allowed call is some steps of the specification, none when it is refused. -/
def Simulates (step : σ → ι → ο × σ) (allowed : ι → Prop) (spec : Specification τ)
    (related : σ → τ → Prop) : Prop :=
  ∀ state call t, allowed call → related state t
    → ∃ t', Relation.ReflTransGen spec.next t t' ∧ related (step state call).2 t'

/-- A system that simulates a specification ends every run in a state related to a reachable one, by
induction over the calls.
-/
theorem Simulates.run {step : σ → ι → ο × σ} {allowed : ι → Prop} {related : σ → τ → Prop}
    (simulates : Simulates step allowed spec related) {start : σ} {calls : List ι}
    (reachable : spec.Reachable t) (initial : related start t) (all : ∀ call ∈ calls, allowed call)
    : ∃ t', spec.Reachable t' ∧ related (finalState step start calls) t' := by
  induction calls generalizing start t with
  | nil => exact ⟨t, reachable, initial⟩
  | cons call calls ih =>
      obtain ⟨first, later⟩ := List.forall_mem_cons.mp all
      obtain ⟨_, steps, follows⟩ := simulates start call t first initial
      exact ih (reachable.steps steps) follows later

end Specifications

-----------------------------------------------------------------------------------------
-- Inevitable goals
-----------------------------------------------------------------------------------------

section Goals

variable {τ : Type} {next : τ → τ → Prop} {goal inv : τ → Prop} {t : τ}

/-- The goal is reached whichever steps are taken: it is met, or there is a step and after every
step the goal is still inevitable.
-/
inductive Inevitable (next : τ → τ → Prop) (goal : τ → Prop) : τ → Prop where
  | met {t : τ} (reached : goal t) : Inevitable next goal t
  | step {t : τ} (goes : ∃ t', next t t') (all : ∀ t', next t t' → Inevitable next goal t')
    : Inevitable next goal t

/-- An inevitable goal can be reached, by induction on why it is inevitable. -/
theorem Inevitable.reaches (inevitable : Inevitable next goal t)
    : ∃ last, Relation.ReflTransGen next t last ∧ goal last := by
  induction inevitable with
  | met reached => exact ⟨_, .refl, reached⟩
  | step goes all ih =>
      obtain ⟨t', goes⟩ := goes
      obtain ⟨last, steps, reached⟩ := ih t' goes
      exact ⟨last, .head goes steps, reached⟩

/-- A goal is inevitable where an invariant gives a step as long as the goal is not met, and every
step keeps the invariant and lowers a measure. The induction is on the measure.
-/
theorem inevitable_of_measure (measure : τ → ℕ)
    (goes : ∀ t, inv t → goal t ∨ ∃ t', next t t')
    (keeps : ∀ t t', inv t → next t t' → inv t' ∧ measure t' < measure t) (holds : inv t)
    : Inevitable next goal t := by
  induction bound : measure t using Nat.strong_induction_on generalizing t with
  | _ n ih =>
      rcases goes t holds with reached | goes
      · exact .met reached
      refine .step goes fun t' stepped => ?_
      obtain ⟨holds', smaller⟩ := keeps t t' holds stepped
      exact ih (measure t') (bound ▸ smaller) holds' rfl

end Goals

end Naalp.Foundation
