import Naalp.Foundation.Checks
import Naalp.Foundation.Runs

/-! Methods of an object with a state. A method that raises leaves the state as it stood there, so
what it changed before is kept; an atomic method is one that changed nothing before it raises.
-/

namespace Naalp.Foundation

variable {ε ε' σ τ α β ι : Type}

/-- A computation that neither reads nor changes the state. -/
def check (outcome : Except ε α) : EStateM ε σ α := fun state =>
  match outcome with
  | .ok value => .ok value state
  | .error error => .error error state

/-- A method of a part of the object. -/
def within (get : σ → τ) (set : σ → τ → σ) (method : EStateM ε τ α) : EStateM ε σ α := fun state =>
  match method (get state) with
  | .ok value part => .ok value (set state part)
  | .error error part => .error error (set state part)

/-- The outcome of a method, and the state after it. -/
def settle : EStateM.Result ε σ α → Except ε α × σ
  | .ok value after => (.ok value, after)
  | .error error after => (.error error, after)

/-- A method whose outcome its caller handles. -/
def tried (method : EStateM ε σ α) : EStateM ε' σ (Except ε α) := fun state =>
  .ok (settle (method state)).1 (settle (method state)).2

theorem settle_within {get : σ → τ} {set : σ → τ → σ} {method : EStateM ε τ α} {state : σ}
    : settle (within get set method state)
      = ((settle (method (get state))).1, set state (settle (method (get state))).2) := by
  unfold within
  cases method (get state) <;> rfl

/-- The answer to a call. -/
def respond (method : ι → EStateM ε σ α) (state : σ) (call : ι) : Except ε α × σ :=
  settle (method call state)

theorem respond_eq_ok {method : ι → EStateM ε σ α} {state after : σ} {call : ι} {value : α}
    : respond method state call = (.ok value, after) ↔ method call state = .ok value after := by
  unfold respond settle
  cases method call state <;> simp

theorem respond_eq_error {method : ι → EStateM ε σ α} {state after : σ} {call : ι} {error : ε}
    : respond method state call = (.error error, after)
      ↔ method call state = .error error after := by
  unfold respond settle
  cases method call state <;> simp

section Running

variable {state between : σ} {value : α} {error : ε} {first : EStateM ε σ α}
  {next : α → EStateM ε σ β}

theorem bind_of_ok (returned : first state = .ok value between)
    : (first >>= next) state = next value between := by
  show EStateM.bind first next state = _
  rw [EStateM.bind, returned]

theorem bind_of_error (raised : first state = .error error between)
    : (first >>= next) state = .error error between := by
  show EStateM.bind first next state = _
  rw [EStateM.bind, raised]

theorem get_bind {next : σ → EStateM ε σ β} : (get >>= next) state = next state state := rfl

theorem modify_bind {f : σ → σ} {next : Unit → EStateM ε σ β}
    : (modify f >>= next) state = next () (f state) :=
  rfl

theorem tried_bind {method : EStateM ε σ α} {next : Except ε α → EStateM ε' σ β}
    : (tried method >>= next) state
      = next (settle (method state)).1 (settle (method state)).2 :=
  rfl

theorem check_bind_of_ok {outcome : Except ε α} (returned : outcome = .ok value)
    : (check outcome >>= next) state = next value state :=
  bind_of_ok (by rw [returned]; rfl)

theorem check_bind_of_error {outcome : Except ε α} (raised : outcome = .error error)
    : (check outcome >>= next) state = .error error state :=
  bind_of_error (by rw [raised]; rfl)

end Running

section Inversion

variable {state after : σ} {value : α} {error : ε}

theorem method_bind_eq_ok {first : EStateM ε σ α} {next : α → EStateM ε σ β} {result : β}
    : (first >>= next) state = .ok result after
      ↔ ∃ value between, first state = .ok value between
        ∧ next value between = .ok result after := by
  show EStateM.bind first next state = _ ↔ _
  unfold EStateM.bind
  cases first state with
  | ok value between => simp [and_assoc]
  | error error after => simp

theorem method_bind_eq_error {first : EStateM ε σ α} {next : α → EStateM ε σ β}
    : (first >>= next) state = .error error after
      ↔ first state = .error error after
        ∨ ∃ value between, first state = .ok value between
          ∧ next value between = .error error after := by
  show EStateM.bind first next state = _ ↔ _
  unfold EStateM.bind
  cases first state with
  | ok value between => simp [and_assoc]
  | error error after => simp

theorem check_eq_ok {outcome : Except ε α}
    : (check outcome : EStateM ε σ α) state = .ok value after
      ↔ outcome = .ok value ∧ after = state := by
  cases outcome <;> simp [check, eq_comm]

theorem check_eq_error {outcome : Except ε α}
    : (check outcome : EStateM ε σ α) state = .error error after
      ↔ outcome = .error error ∧ after = state := by
  cases outcome <;> simp [check, eq_comm]

theorem get_eq_ok {value : σ}
    : (get : EStateM ε σ σ) state = .ok value after ↔ value = state ∧ after = state := by
  show EStateM.Result.ok state state = _ ↔ _
  simp [eq_comm]

theorem modify_eq_ok {f : σ → σ} {done : Unit}
    : (modify f : EStateM ε σ Unit) state = .ok done after ↔ after = f state := by
  show EStateM.Result.ok PUnit.unit (f state) = _ ↔ _
  simp [eq_comm]

theorem method_pure_eq_ok {result : α}
    : (pure result : EStateM ε σ α) state = .ok value after ↔ value = result ∧ after = state := by
  show EStateM.pure _ state = _ ↔ _
  simp [EStateM.pure, eq_comm]

theorem within_eq_ok {get : σ → τ} {set : σ → τ → σ} {method : EStateM ε τ α}
    : within get set method state = .ok value after
      ↔ ∃ part, method (get state) = .ok value part ∧ after = set state part := by
  unfold within
  cases method (get state) with
  | ok value part => simp [and_assoc, eq_comm]
  | error error part => simp

end Inversion

/-- A method that raises leaves the state as it was before the call. -/
def Atomic (method : EStateM ε σ α) : Prop :=
  ∀ state error after, method state = .error error after → after = state

/-- A method that does not raise. -/
def Total (method : EStateM ε σ α) : Prop :=
  ∀ state error after, method state ≠ .error error after

/-- A method that does not change the state. -/
def Reads (method : EStateM ε σ α) : Prop :=
  (∀ state value after, method state = .ok value after → after = state) ∧ Atomic method

theorem reads_check (outcome : Except ε α) : Reads (check outcome : EStateM ε σ α) := by
  refine ⟨?_, ?_⟩
  · intro state value after returned
    exact (check_eq_ok.mp returned).2
  · intro state error after raised
    exact (check_eq_error.mp raised).2

theorem reads_get : Reads (get : EStateM ε σ σ) := by
  refine ⟨?_, ?_⟩
  · intro state value after returned
    exact (get_eq_ok.mp returned).2
  · intro state error after raised
    cases raised

theorem total_pure (value : α) : Total (pure value : EStateM ε σ α) := by
  intro state error after raised
  cases raised

theorem total_modify (f : σ → σ) : Total (modify f : EStateM ε σ Unit) := by
  intro state error after raised
  cases raised

theorem Total.bind {first : EStateM ε σ α} {next : α → EStateM ε σ β} (total : Total first)
    (later : ∀ value, Total (next value)) : Total (first >>= next) := by
  intro state error after raised
  rcases method_bind_eq_error.mp raised with failed | ⟨value, between, -, failed⟩
  · exact total state error after failed
  · exact later value between error after failed

theorem Total.atomic {method : EStateM ε σ α} (total : Total method) : Atomic method := by
  intro state error after raised
  exact absurd raised (total state error after)

/-- What only reads may come before an atomic method. -/
theorem Reads.bind {first : EStateM ε σ α} {next : α → EStateM ε σ β} (reads : Reads first)
    (later : ∀ value, Atomic (next value)) : Atomic (first >>= next) := by
  intro state error after raised
  rcases method_bind_eq_error.mp raised with failed | ⟨value, between, returned, failed⟩
  · exact reads.2 state error after failed
  · obtain rfl := reads.1 state value between returned
    exact later value between error after failed

/-- What does not raise may come after an atomic method. -/
theorem Atomic.bind {first : EStateM ε σ α} {next : α → EStateM ε σ β} (atomic : Atomic first)
    (later : ∀ value, Total (next value)) : Atomic (first >>= next) := by
  intro state error after raised
  rcases method_bind_eq_error.mp raised with failed | ⟨value, between, -, failed⟩
  · exact atomic state error after failed
  · exact absurd failed (later value between error after)

/-- A method that is atomic on a part is atomic on the whole. -/
theorem Atomic.within {get : σ → τ} {set : σ → τ → σ} {method : EStateM ε τ α}
    (atomic : Atomic method) (same : ∀ state, set state (get state) = state)
    : Atomic (within get set method) := by
  intro state error after raised
  unfold Foundation.within at raised
  cases called : method (get state) with
  | ok value part => simp [called] at raised
  | error failed part =>
      obtain ⟨-, rfl⟩ : failed = error ∧ set state part = after := by simpa [called] using raised
      rw [atomic _ _ _ called, same]

/-- A raising call of an atomic method changes nothing. -/
theorem Atomic.respond {method : ι → EStateM ε σ α} {call : ι} {state : σ} {error : ε}
    (atomic : Atomic (method call)) (raised : (respond method state call).1 = .error error)
    : (respond method state call).2 = state := by
  cases called : method call state with
  | ok value after => simp [Foundation.respond, settle, called] at raised
  | error failed after =>
      simp only [Foundation.respond, settle, called]
      exact atomic state failed after called

section Accepted

variable {method : ι → EStateM ε σ α}

/-- The calls of a run that return, in order. -/
def accepted (method : ι → EStateM ε σ α) (state : σ) (calls : List ι) : List ι :=
  (trace (respond method) state calls).filterMap fun event =>
    event.outcome.toOption.map fun _ => event.call

theorem accepted_cons_of_ok {state after : σ} {call : ι} {calls : List ι} {value : α}
    (returned : method call state = .ok value after)
    : accepted method state (call :: calls) = call :: accepted method after calls := by
  simp [accepted, trace, answer, respond_eq_ok.mpr returned, Except.toOption]

theorem accepted_cons_of_error {state : σ} {call : ι} {calls : List ι} {error : ε}
    (atomic : ∀ call, Atomic (method call)) (raised : (respond method state call).1 = .error error)
    : accepted method state (call :: calls) = accepted method state calls := by
  simp [accepted, trace, answer, raised, Except.toOption, (atomic call).respond raised]

/-- What relates a state to the calls that returned before it holds at the end of every run of
atomic methods when every call that returns keeps it, by induction over the calls.
-/
theorem finalState_accepted {holds : List ι → σ → Prop} {before : List ι} {start : σ}
    (atomic : ∀ call, Atomic (method call)) (initial : holds before start)
    (keeps : ∀ before state call value after, holds before state
      → method call state = .ok value after → holds (before ++ [call]) after) (calls : List ι)
    : holds (before ++ accepted method start calls) (finalState (respond method) start calls) := by
  induction calls generalizing before start with
  | nil => simpa [accepted, trace, finalState] using initial
  | cons call calls ih =>
      cases called : method call start with
      | ok value after =>
          have later := ih (keeps before start call value after initial called)
          rw [accepted_cons_of_ok called, finalState, List.foldl_cons, respond_eq_ok.mpr called]
          rwa [List.append_assoc, List.singleton_append] at later
      | error error after =>
          have raised : (respond method start call).1 = .error error := by
            rw [respond_eq_error.mpr called]
          rw [accepted_cons_of_error atomic raised, finalState, List.foldl_cons,
            (atomic call).respond raised]
          exact ih initial

end Accepted

end Naalp.Foundation
