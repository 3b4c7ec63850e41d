import Naalp.Foundation.Loops
import Naalp.Go.Orchestrators

/-! Runs of the plan orchestrators. A malformed plan is refused before any call; a well-formed one
is run in its least order, where what comes of a task follows from the answers given for it and its
ancestors.
-/

namespace Naalp.Workflow

open Naalp.Foundation
open Naalp.Python
open Naalp.Python.Plan hiding Task

-----------------------------------------------------------------------------------------
-- The order of a plan
-----------------------------------------------------------------------------------------

section Ordering

variable {ι ε : Type}

def taskIds (tasks : List (Plan.Task ι)) : List ι := tasks.map (·.id)

/-- A task with the first id has the second for a prerequisite. -/
def Prereq (tasks : List (Plan.Task ι)) (id p : ι) : Prop :=
  ∃ task ∈ tasks, task.id = id ∧ p ∈ task.prereqs

/-- Two tasks share an id, a prerequisite is unknown, or the prerequisites have a cycle. -/
def Malformed (tasks : List (Plan.Task ι)) : Prop :=
  ¬ (taskIds tasks).Nodup
  ∨ (∃ task ∈ tasks, ∃ p ∈ task.prereqs, p ∉ taskIds tasks)
  ∨ ∃ id, Relation.TransGen (Prereq tasks) id id

variable [LinearOrder ι] (printing : Printing ι ε)

/-- What the first phase of a run returns. -/
structure Validates (tasks : List (Plan.Task ι))
    (validated : Except PlanError (List (Plan.Task ι) × List ι)) : Prop where
  malformed : (∃ error, validated = .error error) ↔ Malformed tasks
  ordered : ∀ known order, validated = .ok (known, order)
    → known = tasks ∧ LeastLinearization (Prereq tasks) (taskIds tasks) order

variable {printing} {tasks known : List (Plan.Task ι)}

/-- The loop fails at the first repeated id. -/
theorem tasksById_cases (printing : Printing ι ε) (tasks : List (Plan.Task ι))
    : ((taskIds tasks).Nodup ∧ tasksById printing tasks = .ok tasks)
      ∨ ¬ (taskIds tasks).Nodup ∧ ∃ error, tasksById printing tasks = .error error := by
  rcases @foldlM_keepDistinct _ _ _ _ (·.id)
    (fun t : Plan.Task ι => (⟨.duplicateTaskId,
      "task id " ++ printing.repr t.id ++ " appears more than once in the plan"⟩ : PlanError))
    [] tasks List.nodup_nil with kept | failed
  · exact .inl kept
  · obtain ⟨repeated, t, -, stopped⟩ := failed
    exact .inr ⟨repeated, _, stopped⟩

/-- With different ids a task is found under its own. -/
theorem find_eq_some (distinct : (taskIds tasks).Nodup) {task : Plan.Task ι} (member : task ∈ tasks)
    : tasks.find? (·.id = task.id) = some task := by
  induction tasks with
  | nil => cases member
  | cons first rest ih =>
      obtain ⟨absent, later⟩ := List.nodup_cons.mp distinct
      rcases List.mem_cons.mp member with rfl | inside
      · simp
      · have other : first.id ≠ task.id := by
          intro same
          exact absent (List.mem_map.mpr ⟨task, inside, same.symm⟩)
        rw [List.find?_cons_of_neg (by simpa using other)]
        exact ih later inside

/-- With different ids, what the scheduler waits for are the prerequisites of the task. -/
theorem requires_iff (distinct : (taskIds tasks).Nodup) {id p : ι}
    : Requires (taskIds tasks) (prereqsOf tasks) id p ↔ Prereq tasks id p := by
  constructor
  · intro requires
    obtain ⟨task, member, rfl⟩ := List.mem_map.mp requires.1
    have named := requires.2
    rw [prereqsOf, find_eq_some distinct member] at named
    exact ⟨task, member, rfl, named⟩
  · intro prereq
    obtain ⟨task, member, rfl, named⟩ := prereq
    refine ⟨List.mem_map_of_mem member, ?_⟩
    rw [prereqsOf, find_eq_some distinct member]
    exact named

/-- The loop and its check, on counters of the nodes in any order.
Witness: the queue is drained completely exactly when there is no cycle, and then in the least
order, which does not depend on how the nodes were counted.
-/
theorem drain_cases {ids counted started : List ι} {prereqs : ι → List ι} (distinct : ids.Nodup)
    (closed : ∀ id ∈ ids, prereqs id ⊆ ids) (sameCounted : counted.Perm ids)
    (sameStarted : started.Perm ids)
    : let counters := countEdges (edgesOf prereqs counted)
      let ready := (started.filter fun id => counters.indegree id = 0).insertionSort (· ≤ ·)
      let order := (drain (· ≤ ·) counters.dependents ids.length
        { indegree := counters.indegree, ready }).1
      ((∀ id, ¬ Relation.TransGen (Requires ids prereqs) id id) ∧ order.length = ids.length
          ∧ LeastLinearization (Requires ids prereqs) ids order)
      ∨ (∃ id, Relation.TransGen (Requires ids prereqs) id id) ∧ order.length ≠ ids.length := by
  intro counters ready order
  have countedOnce := sameCounted.nodup_iff.mpr distinct
  have perm : ready.Perm (counted.filter fun id => counters.indegree id = 0) :=
    (List.perm_insertionSort _ _).trans ((sameStarted.trans sameCounted.symm).filter _)
  obtain ⟨order', ran, drained⟩ : ∃ order', drain (· ≤ ·) counters.dependents ids.length
        { indegree := counters.indegree, ready } = (order', [])
      ∧ Drained (· ≤ ·) prereqs counted [] order' :=
    drain_edgesOf countedOnce sameCounted.length_eq.le perm
  have same : order = order' := congrArg Prod.fst ran
  have requires : Requires counted prereqs = Requires ids prereqs := by
    funext id p
    rw [Requires, sameCounted.mem_iff, Requires]
  have complete_iff := drained.complete_iff (fun id member c named =>
    sameCounted.mem_iff.mpr (closed id (sameCounted.mem_iff.mp member) named))
  rw [requires] at complete_iff
  rw [same]
  by_cases complete : counted ⊆ order'
  · have perm := drained.perm countedOnce complete
    have least := drained.least (fun x y below => not_lt.mpr below) countedOnce complete
    rw [requires] at least
    exact .inl ⟨complete_iff.mp complete, (perm.trans sameCounted).length_eq,
      least.of_perm sameCounted⟩
  · refine .inr ⟨not_forall_not.mp (mt complete_iff.mpr complete), ?_⟩
    intro length
    have once : order'.Nodup := by simpa using drained.once
    have subperm := List.subperm_of_subset once drained.inside
    have perm := subperm.perm_of_length_le (by rw [length, sameCounted.length_eq])
    exact complete fun id member => perm.mem_iff.mpr member

/-- The three checks of a plan, in their order.
Witness: a failed check leaves the later ones out, and each error belongs to a check of its
own.
-/
theorem validates_of_cases {indexed : Except PlanError (List (Plan.Task ι))}
    {check : List (Plan.Task ι) → Except PlanError Unit}
    {place : List (Plan.Task ι) → Except PlanError (List ι)}
    (indexes : (taskIds tasks).Nodup ∧ indexed = .ok tasks
      ∨ ¬ (taskIds tasks).Nodup ∧ ∃ error, indexed = .error error)
    (checks : check tasks = .ok () ↔ ∀ task ∈ tasks, ∀ p ∈ task.prereqs, p ∈ taskIds tasks)
    (places : (taskIds tasks).Nodup → (∀ task ∈ tasks, ∀ p ∈ task.prereqs, p ∈ taskIds tasks)
      → ((∀ id, ¬ Relation.TransGen (Prereq tasks) id id)
          ∧ ∃ order, place tasks = .ok order
            ∧ LeastLinearization (Prereq tasks) (taskIds tasks) order)
        ∨ (∃ id, Relation.TransGen (Prereq tasks) id id) ∧ ∃ error, place tasks = .error error)
    : Validates tasks (do
        let known ← indexed
        check known
        return (known, ← place known)) := by
  rcases indexes with ⟨distinct, rfl⟩ | ⟨repeated, error, rfl⟩
  · rw [ok_bind]
    cases checked : check tasks with
    | error error =>
        have unknown : ∃ task ∈ tasks, ∃ p ∈ task.prereqs, p ∉ taskIds tasks := by
          by_contra all
          push Not at all
          rw [checks.mpr all] at checked
          cases checked
        exact ⟨iff_of_true ⟨error, rfl⟩ (.inr (.inl unknown)), nofun⟩
    | ok done =>
        have inside := checks.mp checked
        rcases places distinct inside with ⟨acyclic, order, placed, least⟩ | ⟨cycle, error, placed⟩
        · simp only [placed, ok_bind, pure_eq_ok]
          refine ⟨iff_of_false (by simp) ?_, ?_⟩
          · intro malformed
            rcases malformed with repeated | ⟨task, member, p, named, unknown⟩ | ⟨id, cycle⟩
            · exact repeated distinct
            · exact unknown (inside task member p named)
            · exact acyclic id cycle
          · intro known order' same
            obtain ⟨rfl, rfl⟩ := Prod.mk.inj (Except.ok.inj same)
            exact ⟨rfl, least⟩
        · simp only [placed, error_bind, ok_bind]
          exact ⟨iff_of_true ⟨error, rfl⟩ (.inr (.inr cycle)), nofun⟩
  · rw [error_bind]
    exact ⟨iff_of_true ⟨error, rfl⟩ (.inl repeated), nofun⟩

theorem forM_prereqs {checked : List (Plan.Task ι)} (printing : Printing ι ε)
    (perm : checked.Perm tasks)
    : (forM checked fun t => forM t.prereqs fun p =>
        raiseIf (p ∉ tasks.map (·.id)) (⟨.unknownPrerequisite,
          "task " ++ printing.repr t.id ++ " names unknown prerequisite " ++ printing.repr p⟩
          : PlanError)) = .ok ()
      ↔ ∀ task ∈ tasks, ∀ p ∈ task.prereqs, p ∈ taskIds tasks := by
  simp only [forM_eq_ok, raiseIf_eq_ok, not_not, perm.mem_iff]
  rfl

/-- What is placed in a plan without unknown prerequisites. -/
theorem place_cases {counted started : List ι} (distinct : (taskIds tasks).Nodup)
    (inside : ∀ task ∈ tasks, ∀ p ∈ task.prereqs, p ∈ taskIds tasks)
    (sameCounted : counted.Perm (taskIds tasks)) (sameStarted : started.Perm (taskIds tasks))
    (error : List ι → PlanError)
    : let counters := countEdges (edgesOf (prereqsOf tasks) counted)
      let ready := (started.filter fun id => counters.indegree id = 0).insertionSort (· ≤ ·)
      let order := (drain (· ≤ ·) counters.dependents (taskIds tasks).length
        { indegree := counters.indegree, ready }).1
      let placed : Except PlanError (List ι) := do
        raiseIf (order.length ≠ (taskIds tasks).length) (error order)
        return order
      ((∀ id, ¬ Relation.TransGen (Prereq tasks) id id)
          ∧ ∃ order, placed = .ok order
            ∧ LeastLinearization (Prereq tasks) (taskIds tasks) order)
        ∨ (∃ id, Relation.TransGen (Prereq tasks) id id) ∧ ∃ error, placed = .error error := by
  intro counters ready order placed
  have requires : Requires (taskIds tasks) (prereqsOf tasks) = Prereq tasks := by
    funext id p
    exact propext (requires_iff distinct)
  have closed : ∀ id ∈ taskIds tasks, prereqsOf tasks id ⊆ taskIds tasks := by
    intro id member p named
    obtain ⟨task, listed, -, named⟩ := (requires_iff distinct).mp ⟨member, named⟩
    exact inside task listed p named
  have cases := drain_cases distinct closed sameCounted sameStarted
  rw [requires] at cases
  rcases cases with ⟨acyclic, complete, least⟩ | ⟨cycle, incomplete⟩
  · refine .inl ⟨acyclic, order, ?_, least⟩
    exact raiseIf_bind_eq_ok.mpr ⟨not_not.mpr complete, rfl⟩
  · refine .inr ⟨cycle, error order, ?_⟩
    exact bind_eq_error.mpr (.inl (raiseIf_pos incomplete))

theorem validates (printing : Printing ι ε) (tasks : List (Plan.Task ι))
    : Validates tasks (validateAndOrder printing tasks) :=
  validates_of_cases (tasksById_cases printing tasks) (forM_prereqs printing .rfl)
    fun distinct inside => place_cases distinct inside .rfl .rfl
      (cyclicPlan printing (taskIds tasks))

theorem goValidates (printing : Printing ι ε) (orders : Go.Plan.MapOrders ι)
    (tasks : List (Plan.Task ι))
    : Validates tasks (Go.Plan.validateAndOrder printing orders tasks) :=
  validates_of_cases (tasksById_cases printing tasks)
    (forM_prereqs printing (orders.checked_perm tasks))
    fun distinct inside => place_cases distinct inside (orders.counted_perm _)
      (orders.started_perm _) (cyclicPlan printing (taskIds tasks))

end Ordering

-----------------------------------------------------------------------------------------
-- One task
-----------------------------------------------------------------------------------------

section Running

variable {σ ι ε : Type} [LinearOrder ι]

/-- What comes of a task, with the prerequisites that were not executed: its result, and the calls
that were made for it.
-/
inductive Outcome (printing : Printing ι ε) (task : Plan.Task ι) (action : Action)
    : (unresolved : List ι) → NodeResult ι → List (Call ι ε) → Prop where
  | blocked {unresolved : List ι} (waits : unresolved ≠ [])
    : Outcome printing task action unresolved
        { taskId := task.id, status := .blocked,
          detail := "blocked on unresolved prerequisite(s): "
            ++ ", ".intercalate ((unresolved.insertionSort (· ≤ ·)).map printing.str) }
        []
  | unsigned (failure : ε)
    : Outcome printing task action []
        { taskId := task.id, status := .refused,
          detail := "request signing/validation refused: " ++ printing.failure failure }
        [.asked task.id action (.error failure)]
  | unsent (request : Request) (failure : ε)
    : Outcome printing task action []
        { taskId := task.id, status := .refused, request,
          detail := "executor failed: " ++ printing.failure failure }
        [.asked task.id action (.ok request), .sent task.id request (.error failure)]
  | unverified (request : Request) (response : Bytes) (observation : Observation)
    (failed : observation.ok = false)
    : Outcome printing task action []
        { taskId := task.id, status := .refused, request, observation,
          detail := "response verification refused: " ++ observation.error.getD printing.noError }
        [.asked task.id action (.ok request), .sent task.id request (.ok response),
          .observed task.id response request observation]
  | executed (request : Request) (response : Bytes) (observation : Observation)
    (verified : observation.ok = true)
    : Outcome printing task action []
        { taskId := task.id, status := .executed, request, observation }
        [.asked task.id action (.ok request), .sent task.id request (.ok response),
          .observed task.id response request observation]

variable {printing : Printing ι ε} {task : Plan.Task ι} {action : Action} {unresolved : List ι}
  {result : NodeResult ι} {calls : List (Call ι ε)}

theorem Outcome.taskId (outcome : Outcome printing task action unresolved result calls)
    : result.taskId = task.id := by
  cases outcome <;> rfl

theorem Outcome.callers (outcome : Outcome printing task action unresolved result calls)
    : ∀ call ∈ calls, call.id = task.id := by
  cases outcome <;> simp [Call.id]

theorem Outcome.blocked_iff (outcome : Outcome printing task action unresolved result calls)
    : result.status = .blocked ↔ unresolved ≠ [] := by
  cases outcome with
  | blocked waits => exact iff_of_true rfl waits
  | _ => exact iff_of_false nofun (not_not.mpr rfl)

theorem Outcome.uncalled (outcome : Outcome printing task action unresolved result calls)
    (blocked : result.status = .blocked) : calls = [] := by
  cases outcome with
  | blocked _ => rfl
  | _ => cases blocked

theorem Outcome.asked (outcome : Outcome printing task action unresolved result calls)
    {other : Action} {answer : Except ε Request} (asked : .asked task.id other answer ∈ calls)
    : other = action ∧ unresolved = [] := by
  cases outcome <;> simp_all

theorem Outcome.executed_cases (outcome : Outcome printing task action unresolved result calls)
    (executed : result.status = .executed)
    : unresolved = [] ∧ ∃ request, result.request = some request
        ∧ .asked task.id action (.ok request) ∈ calls := by
  cases outcome with
  | executed request response observation verified => exact ⟨rfl, request, rfl, List.mem_cons_self⟩
  | _ => cases executed

/-- Both runs gave the same answers for a task, wherever both were asked. -/
structure SameAnswers (id : ι) (calls calls' : List (Call ι ε)) : Prop where
  asked : ∀ action action' answer answer', .asked id action answer ∈ calls
    → .asked id action' answer' ∈ calls' → answer = answer'
  sent : ∀ request request' answer answer', .sent id request answer ∈ calls
    → .sent id request' answer' ∈ calls' → answer = answer'
  observed : ∀ response response' request request' observation observation',
    .observed id response request observation ∈ calls
    → .observed id response' request' observation' ∈ calls' → observation = observation'

/-- The result follows from the unresolved prerequisites and the answers.
Witness: cases on both outcomes; the first answer in which they differ would be asked for
twice.
-/
theorem Outcome.unique {action' : Action} {result' : NodeResult ι} {calls' : List (Call ι ε)}
    (outcome : Outcome printing task action unresolved result calls)
    (outcome' : Outcome printing task action' unresolved result' calls')
    (same : SameAnswers task.id calls calls') : result = result' := by
  have second {a b : Call ι ε} {rest : List (Call ι ε)} : b ∈ a :: b :: rest := by simp
  have third {a b c : Call ι ε} : c ∈ [a, b, c] := by simp
  cases outcome with
  | blocked waits =>
      cases outcome' with
      | blocked => rfl
      | _ => exact absurd rfl waits
  | unsigned failure =>
      cases outcome' with
      | blocked waits => exact absurd rfl waits
      | unsigned failure' =>
          obtain rfl := Except.error.inj
            (same.asked _ _ _ _ List.mem_cons_self List.mem_cons_self)
          rfl
      | _ => cases same.asked _ _ _ _ List.mem_cons_self List.mem_cons_self
  | unsent request failure =>
      cases outcome' with
      | blocked waits => exact absurd rfl waits
      | unsigned => cases same.asked _ _ _ _ List.mem_cons_self List.mem_cons_self
      | unsent request' failure' =>
          obtain rfl := Except.ok.inj (same.asked _ _ _ _ List.mem_cons_self List.mem_cons_self)
          obtain rfl := Except.error.inj (same.sent _ _ _ _ second second)
          rfl
      | _ => cases same.sent _ _ _ _ second second
  | unverified request response observation failed =>
      cases outcome' with
      | blocked waits => exact absurd rfl waits
      | unsigned => cases same.asked _ _ _ _ List.mem_cons_self List.mem_cons_self
      | unsent => cases same.sent _ _ _ _ second second
      | unverified request' response' observation' failed' =>
          obtain rfl := Except.ok.inj (same.asked _ _ _ _ List.mem_cons_self List.mem_cons_self)
          obtain rfl := same.observed _ _ _ _ _ _ third third
          rfl
      | executed request' response' observation' verified =>
          obtain rfl := same.observed _ _ _ _ _ _ third third
          cases failed.symm.trans verified
  | executed request response observation verified =>
      cases outcome' with
      | blocked waits => exact absurd rfl waits
      | unsigned => cases same.asked _ _ _ _ List.mem_cons_self List.mem_cons_self
      | unsent => cases same.sent _ _ _ _ second second
      | unverified request' response' observation' failed =>
          obtain rfl := same.observed _ _ _ _ _ _ third third
          cases verified.symm.trans failed
      | executed request' response' observation' verified' =>
          obtain rfl := Except.ok.inj (same.asked _ _ _ _ List.mem_cons_self List.mem_cons_self)
          obtain rfl := same.observed _ _ _ _ _ _ third third
          rfl

/-- What running one task does: its outcome is put in the results, and its calls at the end of
the log.
Witness: the steps of the task in order, each of which may end it.
-/
theorem runTask_outcome (injected : Injected σ ι ε) (state : Progress σ ι ε) (task : Plan.Task ι)
    : ∃ result calls,
        Outcome printing task (state.linkedAction task) (state.unresolved task) result calls
        ∧ (runTask printing injected state task).results = state.results.insert task.id result
        ∧ (runTask printing injected state task).requestIds
          = (result.request.elim state.requestIds fun request =>
              state.requestIds.insert task.id request.id)
        ∧ (runTask printing injected state task).calls = state.calls ++ calls := by
  unfold runTask
  split
  · rename_i waits
    exact ⟨_, _, .blocked waits, rfl, rfl, by simp [Progress.finish]⟩
  · rename_i resolved
    rw [not_not.mp resolved]
    dsimp only
    split
    · rename_i failure unsigned
      exact ⟨_, _, .unsigned failure, rfl, rfl, by simp [Progress.finish, unsigned]⟩
    · rename_i request signed
      unfold sendRequest
      dsimp only
      split
      · rename_i failure unsent
        exact ⟨_, _, .unsent request failure, rfl, rfl, by simp [Progress.finish, signed, unsent]⟩
      · rename_i response sent
        unfold settleResponse
        dsimp only
        split
        · rename_i failed
          exact ⟨_, _, .unverified request response _ failed, rfl, rfl,
            by simp [Progress.finish, signed, sent]⟩
        · rename_i verified
          exact ⟨_, _, .executed request response _ (Bool.of_not_eq_false verified), rfl, rfl,
            by simp [Progress.finish, signed, sent]⟩

-----------------------------------------------------------------------------------------
-- The loop over the tasks
-----------------------------------------------------------------------------------------

/-- What holds of the state after the rounds of some ids. -/
structure Settled (printing : Printing ι ε) (tasks : List (Plan.Task ι)) (done : List ι)
    (state : Progress σ ι ε) : Prop where
  listed : ∀ id, id ∈ state.results ↔ id ∈ done
  requested : ∀ id, state.requestIds.lookup id
    = (state.results.lookup id).bind fun result => result.request.map (·.id)
  callers : ∀ call ∈ state.calls, call.id ∈ done
  closed : ∀ task ∈ tasks, task.id ∈ done → task.prereqs ⊆ done
  outcomes : ∀ task ∈ tasks, task.id ∈ done → ∃ result, state.results.lookup task.id = some result
    ∧ Outcome printing task (state.linkedAction task) (state.unresolved task) result
        (state.calls.filter (·.id = task.id))

theorem settled_nil (printing : Printing ι ε) (tasks : List (Plan.Task ι)) (world : σ)
    : Settled printing tasks [] ({ world } : Progress σ ι ε) where
  listed _ := iff_of_false (AList.notMem_empty _) List.not_mem_nil
  requested _ := rfl
  callers := nofun
  closed := nofun
  outcomes := nofun

variable {σ' : Type} {state : Progress σ ι ε} {state' : Progress σ' ι ε}
  {tasks : List (Plan.Task ι)} {done : List ι}

/-- What a round reads of the earlier rounds: the results and request ids of the prerequisites. -/
theorem linkedAction_congr
    (same : ∀ p ∈ task.prereqs, state'.requestIds.lookup p = state.requestIds.lookup p)
    : state'.linkedAction task = state.linkedAction task := by
  have causes : task.prereqs.map (fun p => (state'.requestIds.lookup p).getD [])
      = task.prereqs.map fun p => (state.requestIds.lookup p).getD [] :=
    List.map_congr_left fun p named => by rw [same p named]
  rw [Progress.linkedAction, causes, Progress.linkedAction]

theorem unresolved_congr
    (same : ∀ p ∈ task.prereqs, state'.results.lookup p = state.results.lookup p)
    : state'.unresolved task = state.unresolved task := by
  apply List.filter_congr
  intro p named
  rw [Progress.executed, same p named, Progress.executed]

/-- A round settles its task and leaves the settled tasks as they are.
Witness: the results and the calls of the other tasks are unchanged, and the new outcome reads
settled prerequisites only.
-/
theorem Settled.runTask (distinct : (taskIds tasks).Nodup)
    (settled : Settled printing tasks done state) (injected : Injected σ ι ε)
    (member : task ∈ tasks)
    (new : task.id ∉ done) (ready : task.prereqs ⊆ done)
    : Settled printing tasks (task.id :: done) (Plan.runTask printing injected state task) := by
  obtain ⟨result, calls, outcome, results, requestIds, recorded⟩ :=
    @runTask_outcome _ _ _ _ printing injected state task
  generalize Plan.runTask printing injected state task = after at *
  have unchanged : ∀ id, id ≠ task.id → after.results.lookup id = state.results.lookup id
      ∧ after.requestIds.lookup id = state.requestIds.lookup id := by
    intro id other
    refine ⟨by rw [results, AList.lookup_insert_ne other], ?_⟩
    rw [requestIds]
    cases result.request with
    | none => rfl
    | some request => exact AList.lookup_insert_ne other
  have apart : ∀ id ∈ done, id ≠ task.id := fun id earlier same => new (same ▸ earlier)
  have frame : ∀ t : Plan.Task ι, t.prereqs ⊆ done → after.linkedAction t = state.linkedAction t
      ∧ after.unresolved t = state.unresolved t := by
    intro t inside
    exact ⟨linkedAction_congr fun p named => (unchanged p (apart p (inside named))).2,
      unresolved_congr fun p named => (unchanged p (apart p (inside named))).1⟩
  have silent : state.calls.filter (·.id = task.id) = [] := by
    rw [List.filter_eq_nil_iff]
    intro call made same
    exact new (of_decide_eq_true same ▸ settled.callers call made)
  have own : calls.filter (·.id = task.id) = calls :=
    List.filter_eq_self.mpr fun call made => decide_eq_true (outcome.callers call made)
  refine { listed := ?_, requested := ?_, callers := ?_, closed := ?_, outcomes := ?_ }
  · intro id
    rw [results, AList.mem_insert, settled.listed, List.mem_cons]
  · intro id
    by_cases same : id = task.id
    · subst same
      have unsettled : state.results.lookup task.id = none :=
        AList.lookup_eq_none.mpr (mt (settled.listed _).mp new)
      rw [results, AList.lookup_insert, requestIds]
      cases built : result.request with
      | none =>
          rw [Option.elim_none, settled.requested, unsettled, Option.bind_some, built]
          rfl
      | some request => simp [built]
    · rw [(unchanged id same).1, (unchanged id same).2, settled.requested]
  · intro call made
    rw [recorded, List.mem_append] at made
    rcases made with earlier | made
    · exact List.mem_cons_of_mem _ (settled.callers call earlier)
    · exact outcome.callers call made ▸ List.mem_cons_self
  · intro t listed inside
    refine List.Subset.trans ?_ (List.subset_cons_self _ _)
    rcases List.mem_cons.mp inside with same | earlier
    · rwa [List.inj_on_of_nodup_map distinct listed member same]
    · exact settled.closed t listed earlier
  · intro t listed inside
    rcases List.mem_cons.mp inside with same | earlier
    · obtain rfl := List.inj_on_of_nodup_map distinct listed member same
      refine ⟨result, by rw [results, AList.lookup_insert], ?_⟩
      rw [(frame t ready).1, (frame t ready).2, recorded, List.filter_append, silent, own]
      exact outcome
    · obtain ⟨earlierResult, found, settledSo⟩ := settled.outcomes t listed earlier
      have prereqs := settled.closed t listed earlier
      have quiet : calls.filter (·.id = t.id) = [] := by
        rw [List.filter_eq_nil_iff]
        intro call made same
        exact apart _ earlier ((of_decide_eq_true same).symm.trans (outcome.callers call made))
      refine ⟨earlierResult, by rw [(unchanged _ (apart _ earlier)).1, found], ?_⟩
      rw [(frame t prereqs).1, (frame t prereqs).2, recorded, List.filter_append, quiet,
        List.append_nil]
      exact settledSo

/-- The rounds settle the tasks of an order in which prerequisites come first. -/
theorem Settled.runOrder (distinct : (taskIds tasks).Nodup) (injected : Injected σ ι ε)
    {order : List ι} (settled : Settled printing tasks done state)
    (inside : order ⊆ taskIds tasks) (once : (done.reverse ++ order).Nodup)
    (causal : Causal (Prereq tasks) done order)
    : Settled printing tasks (order.reverse ++ done)
        (Plan.runOrder printing injected tasks order state) := by
  induction order generalizing done state with
  | nil => exact settled
  | cons id order ih =>
      obtain ⟨named, later⟩ := causal
      obtain ⟨task, member, rfl⟩ := List.mem_map.mp (inside List.mem_cons_self)
      have new : task.id ∉ done := fun earlier =>
        (List.nodup_append.mp once).2.2 _ (List.mem_reverse.mpr earlier) _ List.mem_cons_self rfl
      have round := settled.runTask distinct injected member new fun p prereq =>
        named p ⟨task, member, rfl, prereq⟩
      have rest := ih round (fun _ listed => inside (List.mem_cons_of_mem _ listed))
        (by simpa using once) later
      rw [List.reverse_cons, List.append_assoc, List.singleton_append]
      simpa only [Plan.runOrder, List.foldl_cons, find_eq_some distinct member] using rest

-----------------------------------------------------------------------------------------
-- Whole runs
-----------------------------------------------------------------------------------------

def HasStatus (results : AList (fun _ : ι => NodeResult ι)) (id : ι) (status : Status) : Prop :=
  ∃ result, results.lookup id = some result ∧ result.status = status

/-- The action is that of the task, caused by the requests of its prerequisites, in their order. -/
def LinkedTo (planRun : PlanRun ι) (task : Plan.Task ι) (action : Action) : Prop :=
  ∃ causes, task.prereqs.map planRun.requestIdFor = causes.map some
    ∧ action = { task.action with causes }

/-- What a run of a well-formed plan gives. -/
structure Completed (tasks : List (Plan.Task ι)) (planRun : PlanRun ι) (calls : List (Call ι ε))
    : Prop where
  order : LeastLinearization (Prereq tasks) (taskIds tasks) planRun.order
  entries : planRun.results.keys.Perm (taskIds tasks)
  blocked : ∀ task ∈ tasks, HasStatus planRun.results task.id .blocked
    ↔ ∃ p ∈ task.prereqs, ¬ HasStatus planRun.results p .executed
  uncalled : ∀ id, HasStatus planRun.results id .blocked → ∀ call ∈ calls, call.id ≠ id
  ancestors : ∀ id p, HasStatus planRun.results id .executed → Relation.TransGen (Prereq tasks) id p
    → HasStatus planRun.results p .executed
  built : ∀ task ∈ tasks, HasStatus planRun.results task.id .executed → ∃ request action,
    planRun.requestIdFor task.id = some request.id ∧ .asked task.id action (.ok request) ∈ calls
    ∧ LinkedTo planRun task action
  linked : ∀ task ∈ tasks, ∀ action answer, .asked task.id action answer ∈ calls
    → LinkedTo planRun task action

/-- Runs that `κ` chooses among (the orders in which Go walks its maps): a malformed plan is refused
before any call, a well-formed one is completed, and what comes of a task follows from the answers
for it and its ancestors, whatever else differs between two runs.
-/
structure FailClosed {κ : Type} (run : κ → ∀ σ : Type, Injected σ ι ε → List (Plan.Task ι) → σ
    → Except PlanError (PlanRun ι) × σ × List (Call ι ε)) : Prop where
  refused : ∀ (k : κ) (σ : Type) (injected : Injected σ ι ε) (tasks : List (Plan.Task ι))
    (world : σ), (∃ error, run k σ injected tasks world = (.error error, world, []))
      ↔ Malformed tasks
  completed : ∀ (k : κ) (σ : Type) (injected : Injected σ ι ε) (tasks : List (Plan.Task ι))
    (world : σ), ¬ Malformed tasks → ∃ planRun world' calls,
      run k σ injected tasks world = (.ok planRun, world', calls) ∧ Completed tasks planRun calls
  separate : ∀ (k k' : κ) (σ σ' : Type) (injected : Injected σ ι ε) (injected' : Injected σ' ι ε)
    (tasks : List (Plan.Task ι)) (world world₁ : σ) (world' world₁' : σ')
    (planRun planRun' : PlanRun ι)
    (calls calls' : List (Call ι ε)), run k σ injected tasks world = (.ok planRun, world₁, calls)
    → run k' σ' injected' tasks world' = (.ok planRun', world₁', calls')
    → ∀ id, (∀ a, a = id ∨ Relation.TransGen (Prereq tasks) id a → SameAnswers a calls calls')
    → planRun.results.lookup id = planRun'.results.lookup id

section Finished

variable {order : List ι} {startedAt finishedAt : Int}

/-- The status of a task with a result is that of the result. -/
theorem hasStatus_iff {results : AList (fun _ : ι => NodeResult ι)} {status : Status}
    {id : ι} (found : results.lookup id = some result)
    : HasStatus results id status ↔ result.status = status := by
  constructor
  · intro has
    obtain ⟨result', found', same⟩ := has
    obtain rfl := Option.some.inj (found.symm.trans found')
    exact same
  · intro same
    exact ⟨result, found, same⟩

/-- The run that the loop leaves. -/
def finishedRun (order : List ι) (state : Progress σ ι ε) (startedAt finishedAt : Int)
    : PlanRun ι :=
  { order, results := state.results, startedAt, finishedAt }

theorem executed_iff {id : ι}
    : HasStatus state.results id .executed ↔ state.executed id = true := by
  rw [HasStatus, Progress.executed, decide_eq_true_iff, Option.map_eq_some_iff]

theorem unresolved_eq_nil_iff
    : state.unresolved task = [] ↔ ∀ p ∈ task.prereqs, HasStatus state.results p .executed := by
  simp only [Progress.unresolved, List.filter_eq_nil_iff, decide_eq_true_eq, Bool.not_eq_false,
    executed_iff]

/-- What the rounds say of a settled task. -/
theorem Settled.outcome (settled : Settled printing tasks done state) {id : ι}
    (settledId : id ∈ done) (known : id ∈ taskIds tasks)
    : ∃ task ∈ tasks, task.id = id ∧ ∃ result, state.results.lookup id = some result
      ∧ Outcome printing task (state.linkedAction task) (state.unresolved task) result
          (state.calls.filter (·.id = id)) := by
  obtain ⟨task, member, rfl⟩ := List.mem_map.mp known
  exact ⟨task, member, rfl, settled.outcomes task member settledId⟩

/-- A settled task whose prerequisites executed is linked to them. -/
theorem Settled.linkedTo (settled : Settled printing tasks done state)
    (known : done ⊆ taskIds tasks) (member : task ∈ tasks) (settledId : task.id ∈ done)
    (resolved : state.unresolved task = [])
    : LinkedTo (finishedRun order state startedAt finishedAt) task (state.linkedAction task) := by
  refine ⟨_, ?_, rfl⟩
  rw [List.map_map]
  apply List.map_congr_left
  intro p named
  have earlier := settled.closed task member settledId named
  obtain ⟨t, -, -, result, found, outcome⟩ := settled.outcome earlier (known earlier)
  have executed := unresolved_eq_nil_iff.mp resolved p named
  obtain ⟨-, request, built, -⟩ := outcome.executed_cases ((hasStatus_iff found).mp executed)
  simp [PlanRun.requestIdFor, finishedRun, settled.requested, found, built]

/-- A run that settled all tasks is completed.
Witness: each part is read off the settled tasks; ancestors by induction on the path to them.
-/
theorem Settled.completed (settled : Settled printing tasks order.reverse state)
    (distinct : (taskIds tasks).Nodup)
    (least : LeastLinearization (Prereq tasks) (taskIds tasks) order)
    : Completed tasks (finishedRun order state startedAt finishedAt) state.calls := by
  have mem_iff : ∀ id, id ∈ order.reverse ↔ id ∈ taskIds tasks := fun id => by
    rw [List.mem_reverse, least.perm.mem_iff]
  have member : ∀ task ∈ tasks, task.id ∈ order.reverse := fun task listed =>
    (mem_iff _).mpr (List.mem_map_of_mem listed)
  have known : ∀ {id status}, HasStatus state.results id status
      → id ∈ order.reverse := by
    intro id status has
    obtain ⟨result, found, -⟩ := has
    exact (settled.listed id).mp (AList.lookup_isSome.mp (Option.isSome_of_eq_some found))
  have asked_mem : ∀ {id action} {answer : Except ε Request}, .asked id action answer ∈ state.calls
      → .asked id action answer ∈ state.calls.filter (·.id = id) := fun made =>
    List.mem_filter.mpr ⟨made, decide_eq_true rfl⟩
  have resolved : ∀ {id p}, HasStatus state.results id .executed
      → Prereq tasks id p → HasStatus state.results p .executed := by
    intro id p executed prereq
    obtain ⟨task, listed, rfl, named⟩ := prereq
    obtain ⟨result, found, outcome⟩ := settled.outcomes task listed (member task listed)
    obtain ⟨resolved, -⟩ := outcome.executed_cases ((hasStatus_iff found).mp executed)
    exact unresolved_eq_nil_iff.mp resolved p named
  refine {
    order := least, entries := ?_, blocked := ?_, uncalled := ?_, ancestors := ?_, built := ?_
    linked := ?_ }
  · refine (List.perm_ext_iff_of_nodup state.results.keys_nodup distinct).mpr fun id => ?_
    rw [← AList.mem_keys, settled.listed, mem_iff]
  · intro task listed
    obtain ⟨result, found, outcome⟩ := settled.outcomes task listed (member task listed)
    change HasStatus state.results _ _ ↔ ∃ p ∈ _, ¬ HasStatus state.results p _
    rw [hasStatus_iff found, outcome.blocked_iff, Ne, unresolved_eq_nil_iff]
    push Not
    rfl
  · intro id blocked call made same
    obtain ⟨task, listed, rfl, result, found, outcome⟩ :=
      settled.outcome (known blocked) ((mem_iff id).mp (known blocked))
    have silent := outcome.uncalled ((hasStatus_iff found).mp blocked)
    exact List.filter_eq_nil_iff.mp silent call made (decide_eq_true same)
  · intro id p executed path
    induction path with
    | single prereq => exact resolved executed prereq
    | tail _ prereq ih => exact resolved ih prereq
  · intro task listed executed
    obtain ⟨result, found, outcome⟩ := settled.outcomes task listed (member task listed)
    obtain ⟨resolved, request, built, asked⟩ :=
      outcome.executed_cases ((hasStatus_iff found).mp executed)
    refine ⟨request, state.linkedAction task, ?_, (List.mem_filter.mp asked).1,
      settled.linkedTo (fun id inside => (mem_iff id).mp inside) listed
        (member task listed) resolved⟩
    simp [PlanRun.requestIdFor, finishedRun, found, built]
  · intro task listed action answer asked
    obtain ⟨result, found, outcome⟩ := settled.outcomes task listed (member task listed)
    obtain ⟨rfl, resolved⟩ := outcome.asked (asked_mem asked)
    exact settled.linkedTo (fun id inside => (mem_iff id).mp inside) listed
      (member task listed) resolved

omit [LinearOrder ι] in
theorem SameAnswers.filter {id : ι} {calls calls' : List (Call ι ε)}
    (same : SameAnswers id calls calls') (p : Call ι ε → Bool)
    : SameAnswers id (calls.filter p) (calls'.filter p) where
  asked _ _ _ _ made made' :=
    same.asked _ _ _ _ (List.mem_filter.mp made).1 (List.mem_filter.mp made').1
  sent _ _ _ _ made made' :=
    same.sent _ _ _ _ (List.mem_filter.mp made).1 (List.mem_filter.mp made').1
  observed _ _ _ _ _ _ made made' :=
    same.observed _ _ _ _ _ _ (List.mem_filter.mp made).1 (List.mem_filter.mp made').1

/-- By induction on the place of the task: its prerequisites come earlier. -/
theorem Settled.lookup_eq (settled : Settled printing tasks order.reverse state)
    (settled' : Settled printing tasks order.reverse state')
    (linear : Linearizes (Prereq tasks) (taskIds tasks) order) (id : ι)
    (same : ∀ a, a = id ∨ Relation.TransGen (Prereq tasks) id a
      → SameAnswers a state.calls state'.calls)
    : state.results.lookup id = state'.results.lookup id := by
  induction place : order.idxOf id using Nat.strongRecOn generalizing id with
  | ind n ih =>
    by_cases placed : id ∈ order
    · obtain ⟨task, member, rfl⟩ := List.mem_map.mp (linear.perm.mem_iff.mp placed)
      have settledId : task.id ∈ order.reverse := List.mem_reverse.mpr placed
      obtain ⟨result, found, outcome⟩ := settled.outcomes task member settledId
      obtain ⟨result', found', outcome'⟩ := settled'.outcomes task member settledId
      have earlier : ∀ p ∈ task.prereqs, state'.results.lookup p = state.results.lookup p := by
        intro p named
        have prereq : Prereq tasks task.id p := ⟨task, member, rfl, named⟩
        have before := linear.causal.idxOf_lt placed prereq
        refine (ih _ (place ▸ before) p ?_ rfl).symm
        intro a ancestor
        refine same a (.inr ?_)
        rcases ancestor with rfl | further
        · exact .single prereq
        · exact .head prereq further
      rw [unresolved_congr earlier] at outcome'
      rw [found, found', outcome.unique outcome' ((same task.id (.inl rfl)).filter _)]
    · have absent : ∀ {σ : Type} {state : Progress σ ι ε},
          Settled printing tasks order.reverse state → state.results.lookup id = none := by
        intro σ state settled
        refine AList.lookup_eq_none.mpr fun listed => placed ?_
        exact List.mem_reverse.mp ((settled.listed id).mp listed)
      rw [absent settled, absent settled']

end Finished

variable (printing) in
/-- A run that validates a plan and then executes it.
Witness: a valid plan is run in its one order, where the rounds settle every task; two runs
with the same answers have the same outcomes, task by task.
-/
theorem failClosed_of_validates {κ : Type}
    {run : κ → ∀ σ : Type, Injected σ ι ε → List (Plan.Task ι) → σ
      → Except PlanError (PlanRun ι) × σ × List (Call ι ε)}
    {validate : κ → List (Plan.Task ι) → Except PlanError (List (Plan.Task ι) × List ι)}
    (valid : ∀ k tasks, Validates tasks (validate k tasks))
    (refuses : ∀ k (σ : Type) (injected : Injected σ ι ε) tasks (world : σ) error,
      validate k tasks = .error error → run k σ injected tasks world = (.error error, world, []))
    (executes : ∀ k (σ : Type) (injected : Injected σ ι ε) tasks (world : σ) known order,
      validate k tasks = .ok (known, order)
      → run k σ injected tasks world = ((execute printing injected known order world).map .ok id))
    : FailClosed run := by
  have settles : ∀ (k : κ) (σ : Type) (injected : Injected σ ι ε) (tasks : List (Plan.Task ι))
      (world : σ), ¬ Malformed tasks → ∃ order startedAt finishedAt world' state,
        LeastLinearization (Prereq tasks) (taskIds tasks) order
        ∧ Settled (σ := σ) printing tasks order.reverse state
        ∧ run k σ injected tasks world
          = (.ok (finishedRun order state startedAt finishedAt), world', state.calls) := by
    intro k σ injected tasks world wellFormed
    cases validated : validate k tasks with
    | error error => exact absurd ((valid k tasks).malformed.mp ⟨error, validated⟩) wellFormed
    | ok found =>
        obtain ⟨known, order⟩ := found
        obtain ⟨rfl, least⟩ := (valid k tasks).ordered known order validated
        have distinct : (taskIds known).Nodup := not_not.mp fun repeated =>
          wellFormed (.inl repeated)
        have settled := (settled_nil printing known (injected.clock world).2).runOrder distinct
          injected least.perm.subset (by simpa using least.perm.nodup_iff.mpr distinct) least.causal
        rw [List.append_nil] at settled
        exact ⟨order, _, _, _, _, least, settled,
          executes k σ injected known world known order validated⟩
  refine { refused := ?_, completed := ?_, separate := ?_ }
  · intro k σ injected tasks world
    constructor
    · intro refused
      by_contra wellFormed
      obtain ⟨error, failed⟩ := refused
      obtain ⟨_, _, _, _, _, -, -, ran⟩ := settles k σ injected tasks world wellFormed
      cases ran.symm.trans failed
    · intro malformed
      obtain ⟨error, validated⟩ := (valid k tasks).malformed.mpr malformed
      exact ⟨error, refuses k σ injected tasks world error validated⟩
  · intro k σ injected tasks world wellFormed
    obtain ⟨order, _, _, world', state, least, settled, ran⟩ :=
      settles k σ injected tasks world wellFormed
    have distinct : (taskIds tasks).Nodup := not_not.mp fun repeated => wellFormed (.inl repeated)
    exact ⟨_, _, _, ran, settled.completed distinct least⟩
  · intro k k' σ σ' injected injected' tasks world world₁ world' world₁' planRun planRun' calls
      calls' ran ran' id same
    have wellFormed : ¬ Malformed tasks := by
      intro malformed
      obtain ⟨error, validated⟩ := (valid k tasks).malformed.mpr malformed
      cases (refuses k σ injected tasks world error validated).symm.trans ran
    obtain ⟨order, _, _, _, state, least, settled, found⟩ :=
      settles k σ injected tasks world wellFormed
    obtain ⟨order', _, _, _, state', least', settled', found'⟩ :=
      settles k' σ' injected' tasks world' wellFormed
    obtain rfl := least.unique least'
    obtain ⟨rfl, -, rfl⟩ := by simpa using found.symm.trans ran
    obtain ⟨rfl, -, rfl⟩ := by simpa using found'.symm.trans ran'
    exact settled.lookup_eq settled' least.toLinearizes id same

end Running

end Naalp.Workflow
