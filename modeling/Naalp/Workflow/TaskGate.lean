import Mathlib.Data.List.AList
import Naalp.Foundation.LoggedStore
import Naalp.Foundation.Runs

/-! What a workflow gate is for: a task runs only after it was created and then given its input, or
its approval when it was created to need one. An implementation whose accepted calls move their task
along the gate, and whose other steps move none, keeps that over every run.
-/

namespace Naalp.Workflow

open Naalp.Foundation

inductive Status where
  | awaitingInput
  | awaitingApproval
  | inputSupplied
  | approved
  | running
  deriving DecidableEq, Repr

inductive Call (κ : Type) where
  | create (task : κ) (needsApproval : Bool)
  | supplyInput (task : κ)
  | run (task : κ)
  deriving DecidableEq

variable {κ : Type}

def Call.task : Call κ → κ
  | .create task _ | .supplyInput task | .run task => task

/-- The status of a new task. -/
def initial (needsApproval : Bool) : Status :=
  if needsApproval then .awaitingApproval else .awaitingInput

/-- The status after the input or the approval. -/
def passed (needsApproval : Bool) : Status :=
  if needsApproval then .approved else .inputSupplied

/-- The status that the gate moves the task of a call to, if it lets the call pass. -/
def Call.next : Call κ → Option Status → Option Status
  | .create _ needsApproval, none => some (initial needsApproval)
  | .supplyInput _, some .awaitingInput => some .inputSupplied
  | .supplyInput _, some .awaitingApproval => some .approved
  | .run _, some .inputSupplied | .run _, some .approved => some .running
  | _, _ => none

/-- The calls that passed for a task, and the status that they left it in. -/
inductive History (task : κ) : Option Status → List (Call κ) → Prop where
  | absent : History task none []
  | created (needsApproval : Bool)
    : History task (some (initial needsApproval)) [.create task needsApproval]
  | supplied (needsApproval : Bool)
    : History task (some (passed needsApproval))
        [.create task needsApproval, .supplyInput task]
  | running (needsApproval : Bool)
    : History task (some .running)
        [.create task needsApproval, .supplyInput task, .run task]

/-- A call that passes extends the history, by the status that it finds. -/
theorem History.next {call : Call κ} {current : Option Status} {after : Status}
    {calls : List (Call κ)} (history : History call.task current calls)
    (passes : call.next current = some after)
    : History call.task (some after) (calls ++ [call]) := by
  cases call with
  | create task needsApproval =>
      cases history with
      | absent =>
          obtain rfl := Option.some.inj passes
          exact .created needsApproval
      | created _ | supplied _ | running _ => cases passes
  | supplyInput task =>
      cases history with
      | created needsApproval =>
          cases needsApproval
          · obtain rfl := Option.some.inj passes
            exact .supplied false
          · obtain rfl := Option.some.inj passes
            exact .supplied true
      | absent | running _ => cases passes
      | supplied needsApproval => cases needsApproval <;> cases passes
  | run task =>
      cases history with
      | supplied needsApproval =>
          cases needsApproval
          · obtain rfl := Option.some.inj passes
            exact .running false
          · obtain rfl := Option.some.inj passes
            exact .running true
      | absent | running _ => cases passes
      | created needsApproval => cases needsApproval <;> cases passes

theorem History.calls_of_running {task : κ} {calls : List (Call κ)}
    (history : History task (some .running) calls)
    : ∃ needsApproval, calls = [.create task needsApproval, .supplyInput task, .run task] := by
  generalize now : some Status.running = current at history
  cases history with
  | absent => cases now
  | created needsApproval => cases needsApproval <;> cases now
  | supplied needsApproval => cases needsApproval <;> cases now
  | running needsApproval => exact ⟨needsApproval, rfl⟩

/-- A task that was created to need an approval runs from its approval. -/
theorem History.approved_of_runs {call : Call κ} {current : Option Status}
    {calls : List (Call κ)} (history : History call.task current calls)
    (created : .create call.task true ∈ calls ++ [call])
    (runs : call.next current = some .running)
    : current = some .approved := by
  cases call with
  | create task needsApproval =>
      cases history with
      | absent => cases needsApproval <;> cases runs
      | created _ | supplied _ | running _ => cases runs
  | supplyInput task =>
      cases history with
      | created needsApproval => cases needsApproval <;> cases runs
      | supplied needsApproval => cases needsApproval <;> cases runs
      | absent | running _ => cases runs
  | run task =>
      cases history with
      | supplied needsApproval =>
          have asked : needsApproval = true := by simpa [eq_comm, Call.task] using created
          rw [asked]
          rfl
      | created needsApproval => cases needsApproval <;> cases runs
      | absent | running _ => cases runs

/-- (Leads before after) says that a task may come from one status to the other. -/
def Leads : Status → Status → Prop :=
  Relation.ReflTransGen fun before after => ∃ call : Call Unit, call.next (some before) = some after

theorem Call.leads {call : Call κ} {before after : Status}
    (passes : call.next (some before) = some after) : Leads before after := by
  cases call with
  | create task needsApproval => cases passes
  | supplyInput task => exact .single ⟨.supplyInput (), by cases before <;> exact passes⟩
  | run task => exact .single ⟨.run (), by cases before <;> exact passes⟩

/-- A map with one more entry, as a function. -/
theorem lookup_insert_eq_update {τ : Type} [DecidableEq κ] (entries : AList fun _ : κ => τ)
    (key : κ) (value : τ)
    : (fun other => (entries.insert key value).lookup other)
      = Function.update (fun other => entries.lookup other) key (some value) := by
  funext other
  by_cases same : other = key
  · rw [same, AList.lookup_insert, Function.update_self]
  · rw [AList.lookup_insert_ne same, Function.update_of_ne same]

-----------------------------------------------------------------------------------------
-- Implementations
-----------------------------------------------------------------------------------------

variable {σ ι ο τ : Type} (step : σ → ι → ο × σ) (status : σ → κ → Option τ) (text : Status → τ)
  (took : Event σ ι ο → Option (Call κ))

/-- The calls that passed in a run, in order. -/
def passedCalls (start : σ) (events : List ι) : List (Call κ) :=
  (trace step start events).filterMap took

/-- No task bypasses the gate: it runs only after its create, its input or approval and its run
passed in this order; one that was created to need an approval has had no other status than those
of the approval, and was approved before it runs; and what passes no call moves no task.
-/
structure Gated (start : σ) (events : List ι) : Prop where
  running : ∀ task, status (finalState step start events) task = some (text .running)
    → ∃ needsApproval, [.create task needsApproval, .supplyInput task, .run task].Sublist
      (passedCalls step took start events)
  approval : ∀ task, .create task true ∈ passedCalls step took start events
    → (∃ current ∈ [Status.awaitingApproval, .approved, .running],
        status (finalState step start events) task = some (text current))
      ∧ (status (finalState step start events) task = some (text .running)
        → ∃ before, before <+: events
          ∧ status (finalState step start before) task = some (text .approved))
  still : ∀ event ∈ trace step start events, took event = none
    → ∀ task, status event.after task = status event.before task

variable [DecidableEq κ]

/-- A step lets one call pass and moves its task, or lets none pass and moves no task. -/
inductive Effect (before : σ) (event : ι) : Prop where
  | passes (call : Call κ) (current : Option Status) (next : Status)
    (passed : took (answer step before event) = some call)
    (allowed : call.next current = some next)
    (found : status before call.task = current.map text)
    (moved : status (step before event).2
      = Function.update (status before) call.task (some (text next)))
  | still (none_passed : took (answer step before event) = none)
    (same : status (step before event).2 = status before)

/-- An implementation keeps an invariant, from which every allowed step has such an effect. -/
structure Follows (inv : σ → Prop) (allowed : ι → Prop) : Prop where
  keeps : ∀ {state event}, allowed event → inv state → inv (step state event).2
  effect : ∀ {state event}, allowed event → inv state
    → Effect step status text took state event

/-- The calls of one task. -/
def ofTask (task : κ) (calls : List (Call κ)) : List (Call κ) :=
  calls.filter fun call => call.task = task

/-- The history of a task explains its status, and holds the approval of a task that runs with
one.
-/
structure Explained (start : σ) (events : List ι) (state : σ) (task : κ) : Prop where
  history : ∃ current, status state task = current.map text
    ∧ History task current (ofTask task (passedCalls step took start events))
  approved : .create task true ∈ passedCalls step took start events
    → status state task = some (text .running)
    → ∃ before, before <+: events
      ∧ status (finalState step start before) task = some (text .approved)

section Runs

variable {step status text took} {inv : σ → Prop} {allowed : ι → Prop} {start : σ}

omit [DecidableEq κ] in
theorem passedCalls_snoc {events : List ι} {event : ι}
    : passedCalls step took start (events ++ [event])
      = passedCalls step took start events
        ++ (took (answer step (finalState step start events) event)).toList := by
  rw [passedCalls, trace_snoc, List.filterMap_append]
  cases found : took (answer step (finalState step start events) event) <;>
    simp [passedCalls, found]

theorem create_mem_ofTask {task : κ} {calls : List (Call κ)} {needsApproval : Bool}
    : .create task needsApproval ∈ ofTask task calls ↔ .create task needsApproval ∈ calls := by
  simp [ofTask, Call.task]

section Explanations

variable {events : List ι} {event : ι} {state state' : σ} {task : κ}

/-- A step that neither moves a task nor adds a call of it keeps it explained. -/
theorem Explained.unmoved (explained : Explained step status text took start events state task)
    (same : status state' task = status state task)
    (calls : ofTask task (passedCalls step took start (events ++ [event]))
      = ofTask task (passedCalls step took start events))
    : Explained step status text took start (events ++ [event]) state' task := by
  obtain ⟨⟨current, found, history⟩, approved⟩ := explained
  refine ⟨⟨current, same.trans found, by rwa [calls]⟩, ?_⟩
  intro created runs
  rw [← create_mem_ofTask, calls, create_mem_ofTask] at created
  rw [same] at runs
  obtain ⟨before, earlier, was⟩ := approved created runs
  exact ⟨before, earlier.trans (List.prefix_append _ _), was⟩

/-- A step that moves a task by one more call of it keeps it explained. -/
theorem Explained.moved {call : Call κ} {current : Option Status} {next : Status}
    (explained : Explained step status text took start events
      (finalState step start events) call.task)
    (distinct : Function.Injective text) (allowed : call.next current = some next)
    (found : status (finalState step start events) call.task = current.map text)
    (now : status state' call.task = some (text next))
    (calls : ofTask call.task (passedCalls step took start (events ++ [event]))
      = ofTask call.task (passedCalls step took start events) ++ [call])
    : Explained step status text took start (events ++ [event]) state' call.task := by
  obtain ⟨⟨current', found', history⟩, -⟩ := explained
  obtain rfl : current' = current := Option.map_injective distinct (found'.symm.trans found)
  refine ⟨⟨some next, now, by simpa only [calls] using history.next allowed⟩, ?_⟩
  intro created runs
  rw [now, Option.some.injEq] at runs
  obtain rfl := distinct runs
  rw [← create_mem_ofTask, calls] at created
  refine ⟨events, List.prefix_append _ _, ?_⟩
  rw [found, history.approved_of_runs created allowed]
  rfl

end Explanations

/-- A step keeps every task explained: only the task of the call that passes moves, by that call. -/
theorem Follows.explained_step (follows : Follows step status text took inv allowed)
    {events : List ι} {event : ι} (permitted : allowed event)
    (holds : inv (finalState step start events)) (distinct : Function.Injective text)
    (explained : ∀ task, Explained step status text took start events
      (finalState step start events) task) (task : κ)
    : Explained step status text took start (events ++ [event])
        (finalState step start (events ++ [event])) task := by
  rw [finalState_snoc]
  cases follows.effect permitted holds with
  | still none_passed same =>
      refine (explained task).unmoved (congrFun same task) ?_
      rw [passedCalls_snoc, none_passed, Option.toList_none, List.append_nil]
  | passes call current next passed allowed found moved =>
      by_cases here : call.task = task
      · subst here
        refine (explained call.task).moved distinct allowed found ?_ ?_
        · rw [moved, Function.update_self]
        · rw [passedCalls_snoc, passed]
          simp [ofTask]
      · refine (explained task).unmoved ?_ ?_
        · rw [moved, Function.update_of_ne (Ne.symm here)]
        · rw [passedCalls_snoc, passed]
          simp [ofTask, here]

/-- In every run that follows the automaton each status is explained by the calls before it, by
induction from the end of the run.
-/
theorem Follows.explained (follows : Follows step status text took inv allowed)
    (distinct : Function.Injective text) (initially : inv start)
    (empty : ∀ task, status start task = none) {events : List ι}
    (permitted : ∀ event ∈ events, allowed event)
    : inv (finalState step start events)
      ∧ ∀ task, Explained step status text took start events (finalState step start events)
        task := by
  induction events using List.reverseRecOn with
  | nil =>
      refine ⟨initially, fun task => ⟨⟨none, empty task, .absent⟩, ?_⟩⟩
      intro created
      cases created
  | append_singleton events event ih =>
      obtain ⟨earlier, last⟩ := List.forall_mem_append.mp permitted
      obtain ⟨holds, explained⟩ := ih earlier
      have allows := last event (List.mem_singleton_self event)
      refine ⟨?_, fun task => follows.explained_step allows holds distinct explained task⟩
      rw [finalState_snoc]
      exact follows.keeps allows holds

/-- An implementation that follows the gate lets no task bypass it.
Witness: the status of a task is what its passed calls lead to, and only an approval leads from
the awaited one to a run.
-/
theorem Follows.gated (follows : Follows step status text took inv allowed)
    (distinct : Function.Injective text) (initially : inv start)
    (empty : ∀ task, status start task = none) {events : List ι}
    (permitted : ∀ event ∈ events, allowed event)
    : Gated step status text took start events where
  running := by
    intro task runs
    obtain ⟨⟨current, found, history⟩, -⟩ :=
      (follows.explained distinct initially empty permitted).2 task
    rw [runs] at found
    obtain ⟨now, rfl, same⟩ := Option.map_eq_some_iff.mp found.symm
    obtain rfl := distinct same
    generalize whole : ofTask task (passedCalls step took start events) = calls at history
    have within : calls.Sublist (passedCalls step took start events) := by
      rw [← whole]
      exact List.filter_sublist
    obtain ⟨needsApproval, rfl⟩ := history.calls_of_running
    exact ⟨needsApproval, within⟩
  approval := by
    intro task created
    obtain ⟨⟨current, found, history⟩, approved⟩ :=
      (follows.explained distinct initially empty permitted).2 task
    refine ⟨?_, approved created⟩
    have member : .create task true ∈ ofTask task (passedCalls step took start events) :=
      create_mem_ofTask.mpr created
    generalize ofTask task (passedCalls step took start events) = calls at history member
    cases history with
    | absent => cases member
    | created needsApproval =>
        obtain rfl : needsApproval = true := by simpa [eq_comm] using member
        exact ⟨.awaitingApproval, by simp, found⟩
    | supplied needsApproval =>
        obtain rfl : needsApproval = true := by simpa [eq_comm] using member
        exact ⟨.approved, by simp, found⟩
    | running needsApproval => exact ⟨.running, by simp, found⟩
  still := by
    intro event member none_passed task
    obtain ⟨before, call, later, rfl, rfl⟩ := mem_trace_iff.mp member
    obtain ⟨earlier, last⟩ := List.forall_mem_append.mp permitted
    have holds := (follows.explained distinct initially empty earlier).1
    cases follows.effect (last call List.mem_cons_self) holds with
    | passes _ _ _ passed => rw [passed] at none_passed; cases none_passed
    | still _ same => exact congrFun same task

end Runs

-----------------------------------------------------------------------------------------
-- Reopening
-----------------------------------------------------------------------------------------

/-- Opening the file that the store leaves finds the statuses that it held. -/
def Restores {ε σ ι ο κ τ : Type} [DecidableEq κ]
    (store : LoggedStore ε σ ι ο (AList fun _ : κ => τ)) (state : σ) : Prop :=
  ∃ again, store.opens (store.disk state) = .ok again
    ∧ ∀ task, (store.memory again).lookup task = (store.memory state).lookup task

end Naalp.Workflow
