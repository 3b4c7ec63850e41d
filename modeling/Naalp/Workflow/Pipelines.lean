import Naalp.Python.MultiAgent

/-! The sequential pipeline stops at its first failure. Every round appends one result and makes its
calls at its own position, so what was settled of the earlier stages stays, and each executed stage
takes over what the stage before it left.
-/

namespace Naalp.Workflow

open Naalp.Foundation
open Naalp.Python
open Naalp.Python.Pipeline
open Naalp.Python.Plan (Action Request Observation Printing)

variable {σ ι ε : Type}

-----------------------------------------------------------------------------------------
-- What a run leaves
-----------------------------------------------------------------------------------------

/-- The stage at a position was executed from the observation and the causes: these are all its
calls, and the result carries their request and observation.
-/
def Performed (calls : List (Call ε)) (k : ℕ) (previous : Option Observation) (causes : List Bytes)
    (result : StageResult ι) : Prop :=
  ∃ action request response observation,
    calls.filter (·.stage = k)
      = [.built k previous (.ok action), .asked k { action with causes } (.ok request),
          .sent k request (.ok response), .observed k response request observation]
    ∧ result.request = some request ∧ result.observation = some observation

/-- The results are those of the stages in order: executed ones, then at most one refused, then
blocked ones that were never called. Each executed stage follows the executed one before it.
-/
structure StopsAtFailure (stages : List (Stage σ ι ε)) (results : List (StageResult ι))
    (calls : List (Call ε)) : Prop where
  inOrder : results.map (·.agentId) = stages.map (·.agentId)
  shape : ∃ n, results.map (·.status) = List.replicate n .executed
    ∨ ∃ m, results.map (·.status) = List.replicate n .executed ++ .refused
      :: List.replicate m .blocked
  untouched : ∀ k result, results[k]? = some result → result.status = .blocked →
    ∀ call ∈ calls, call.stage ≠ k
  first : ∀ result, results[0]? = some result → result.status = .executed →
    Performed calls 0 none [] result
  linked : ∀ k result, results[k + 1]? = some result → result.status = .executed →
    ∃ before request observation, results[k]? = some before ∧ before.status = .executed
      ∧ before.request = some request ∧ before.observation = some observation
      ∧ Performed calls (k + 1) (some observation) [request.id] result

-----------------------------------------------------------------------------------------
-- One round
-----------------------------------------------------------------------------------------

/-- What the round of a stage that is not blocked does at its position. -/
inductive StageOutcome (stage : Stage σ ι ε) (k : ℕ) (previous : Option Observation)
    (causes : List Bytes) : StageResult ι → List (Call ε) → Prop
  | unbuilt (failure : ε) (detail : String)
      : StageOutcome stage k previous causes
        { agentId := stage.agentId, status := .refused, detail }
          [.built k previous (.error failure)]
  | unsigned (action : Action) (failure : ε) (detail : String)
      : StageOutcome stage k previous causes
        { agentId := stage.agentId, status := .refused, detail }
          [.built k previous (.ok action), .asked k { action with causes } (.error failure)]
  | unsent (action : Action) (request : Request) (failure : ε) (detail : String)
      : StageOutcome stage k previous causes
          { agentId := stage.agentId, status := .refused, request, detail }
          [.built k previous (.ok action), .asked k { action with causes } (.ok request),
            .sent k request (.error failure)]
  | unverified (action : Action) (request : Request) (response : Bytes)
      (observation : Observation) (detail : String)
      : StageOutcome stage k previous causes
          { agentId := stage.agentId, status := .refused, request, observation, detail }
          [.built k previous (.ok action), .asked k { action with causes } (.ok request),
            .sent k request (.ok response), .observed k response request observation]
  | executed (action : Action) (request : Request) (response : Bytes) (observation : Observation)
      : StageOutcome stage k previous causes
          { agentId := stage.agentId, status := .executed, request, observation }
          [.built k previous (.ok action), .asked k { action with causes } (.ok request),
            .sent k request (.ok response), .observed k response request observation]

section Rounds

variable {printing : Printing ι ε} {stage : Stage σ ι ε} {state : Progress σ ι ε} {k : ℕ}
  {previous : Option Observation} {causes : List Bytes} {result : StageResult ι}
  {calls : List (Call ε)}

theorem StageOutcome.agentId (outcome : StageOutcome stage k previous causes result calls)
    : result.agentId = stage.agentId := by
  cases outcome <;> rfl

theorem StageOutcome.callers (outcome : StageOutcome stage k previous causes result calls)
    : ∀ call ∈ calls, call.stage = k := by
  cases outcome <;> simp [Call.stage]

theorem StageOutcome.status (outcome : StageOutcome stage k previous causes result calls)
    : result.status = .executed ∨ result.status = .refused := by
  cases outcome <;> simp

/-- A blocked round calls nothing. -/
theorem runStage_broken (broken : state.chainBroken = true)
    : ∃ result : StageResult ι, result.agentId = stage.agentId ∧ result.status = .blocked
      ∧ runStage printing state stage = { state with results := state.results ++ [result] } := by
  rw [runStage, if_pos broken]
  exact ⟨_, rfl, rfl, rfl⟩

/-- Any other round has an outcome, and goes on exactly when the stage was executed.
Witness: cases on what is built, signed, sent and verified, in this order; only the last goes
on.
-/
theorem runStage_outcome (whole : state.chainBroken = false)
    : ∃ result calls,
        StageOutcome stage state.results.length state.prevObservation state.prevRequestId.toList
          result calls
        ∧ (runStage printing state stage).results = state.results ++ [result]
        ∧ (runStage printing state stage).calls = state.calls ++ calls
        ∧ (result.status = .refused ∧ (runStage printing state stage).chainBroken = true
          ∨ result.status = .executed ∧ (runStage printing state stage).chainBroken = false
            ∧ (runStage printing state stage).prevObservation = result.observation
            ∧ (runStage printing state stage).prevRequestId = result.request.map (·.id)) := by
  rw [runStage, if_neg (Bool.eq_false_iff.mp whole)]
  dsimp only
  split
  · rename_i failure unbuilt
    exact ⟨_, _, .unbuilt failure _, rfl, by rw [← unbuilt]; rfl, .inl ⟨rfl, rfl⟩⟩
  · rename_i action built
    unfold askRequest
    dsimp only
    split
    · rename_i failure unsigned
      refine ⟨_, _, .unsigned action failure _, rfl, ?_, .inl ⟨rfl, rfl⟩⟩
      simpa [refuseRequest, Progress.refuse, Progress.called, Progress.position, built]
        using unsigned
    · rename_i request signed
      unfold sendRequest
      dsimp only
      split
      · rename_i failure unsent
        refine ⟨_, _, .unsent action request failure _, rfl, ?_, .inl ⟨rfl, rfl⟩⟩
        simpa [Progress.refuse, Progress.called, Progress.position, built]
          using And.intro signed unsent
      · rename_i response sent
        unfold settleResponse
        dsimp only
        split
        · rename_i failed
          refine ⟨_, _, .unverified action request response _ _, rfl, ?_, .inl ⟨rfl, rfl⟩⟩
          simpa [Progress.refuse, Progress.called, Progress.position, built]
            using And.intro signed sent
        · rename_i verified
          refine ⟨_, _, .executed action request response _, rfl, ?_,
            .inr ⟨rfl, whole, rfl, rfl⟩⟩
          simpa [Progress.called, Progress.position, built] using And.intro signed sent

end Rounds

-----------------------------------------------------------------------------------------
-- All rounds
-----------------------------------------------------------------------------------------

/-- The observation and the request id that the stage at a position takes over. -/
def observationBefore (results : List (StageResult ι)) : ℕ → Option Observation
  | 0 => none
  | j + 1 => results[j]?.bind (·.observation)

def idBefore (results : List (StageResult ι)) : ℕ → Option Bytes
  | 0 => none
  | j + 1 => results[j]?.bind fun result => result.request.map (·.id)

/-- What holds of the state after the rounds of some stages. -/
structure Chained (done : List (Stage σ ι ε)) (state : Progress σ ι ε) : Prop where
  inOrder : state.results.map (·.agentId) = done.map (·.agentId)
  callers : ∀ call ∈ state.calls, call.stage < state.results.length
  whole : state.chainBroken = false → (∀ result ∈ state.results, result.status = .executed)
    ∧ state.prevObservation = observationBefore state.results state.results.length
    ∧ state.prevRequestId = idBefore state.results state.results.length
  broken : state.chainBroken = true → ∃ n m, state.results.map (·.status)
    = List.replicate n .executed ++ .refused :: List.replicate m .blocked
  untouched : ∀ k result, state.results[k]? = some result → result.status = .blocked →
    ∀ call ∈ state.calls, call.stage ≠ k
  performed : ∀ k result, state.results[k]? = some result → result.status = .executed →
    Performed state.calls k (observationBefore state.results k) (idBefore state.results k).toList
      result

section Runs

variable {printing : Printing ι ε} {done : List (Stage σ ι ε)} {state state' : Progress σ ι ε}
  {stage : Stage σ ι ε} {results : List (StageResult ι)} {result : StageResult ι} {k : ℕ}

theorem observationBefore_append (le : k ≤ results.length)
    : observationBefore (results ++ [result]) k = observationBefore results k := by
  cases k with
  | zero => rfl
  | succ j => rw [observationBefore, observationBefore, List.getElem?_append_left le]

theorem idBefore_append (le : k ≤ results.length)
    : idBefore (results ++ [result]) k = idBefore results k := by
  cases k with
  | zero => rfl
  | succ j => rw [idBefore, idBefore, List.getElem?_append_left le]

/-- Calls at a later position are not among those at an earlier one. -/
theorem filter_append_calls {calls later : List (Call ε)}
    (beyond : ∀ call ∈ later, call.stage = results.length) (lt : k < results.length)
    : (calls ++ later).filter (·.stage = k) = calls.filter (·.stage = k) := by
  have none : later.filter (·.stage = k) = [] := by
    rw [List.filter_eq_nil_iff]
    intro call member
    have position := beyond call member
    simp only [decide_eq_true_eq]
    omega
  rw [List.filter_append, none, List.append_nil]

/-- A round keeps what is settled: a blocked one adds a result, any other one its outcome.
Witness: a blocked round changes nothing else; another one has an outcome, and each clause is
shown of it and of the rounds before.
-/
theorem Chained.runStage (chained : Chained done state)
    : Chained (done ++ [stage]) (runStage printing state stage) := by
  cases broken : state.chainBroken with
  | true =>
      obtain ⟨result, named, blocked, after⟩ := @runStage_broken _ _ _ printing stage state broken
      obtain ⟨n, m, statuses⟩ := chained.broken broken
      rw [after]
      refine ⟨?_, ?_, ?_, ?_, ?_, ?_⟩
      · simp [chained.inOrder, named]
      · intro call member
        have earlier := chained.callers call member
        simp only [List.length_append, List.length_singleton]
        omega
      · intro whole
        cases whole.symm.trans broken
      · intro _
        refine ⟨n, m + 1, ?_⟩
        simp [statuses, blocked, List.replicate_succ']
      · intro k r present isBlocked call member
        have earlier := chained.callers call member
        rcases Nat.lt_or_ge k state.results.length with lt | ge
        · rw [List.getElem?_append_left lt] at present
          exact chained.untouched k r present isBlocked call member
        · omega
      · intro k r present executed
        rcases Nat.lt_or_ge k state.results.length with lt | ge
        · simp only [List.getElem?_append_left lt] at present
          rw [observationBefore_append lt.le, idBefore_append lt.le]
          exact chained.performed k r present executed
        · simp only [List.getElem?_append_right ge, List.getElem?_singleton] at present
          split at present
          · obtain rfl := Option.some.inj present
            cases blocked.symm.trans executed
          · cases present
  | false =>
      obtain ⟨result, calls, outcome, results, called, next⟩ :=
        @runStage_outcome _ _ _ printing stage state broken
      obtain ⟨allExecuted, observation, id⟩ := chained.whole broken
      have beyond := outcome.callers
      refine ⟨?_, ?_, ?_, ?_, ?_, ?_⟩
      · rw [results]
        simp [chained.inOrder, outcome.agentId]
      · rw [called, results]
        intro call member
        simp only [List.length_append, List.length_singleton]
        rcases List.mem_append.mp member with earlier | now
        · have before := chained.callers call earlier
          omega
        · have here := beyond call now
          omega
      · intro whole
        rcases next with ⟨-, isBroken⟩ | ⟨executed, -, observed, named⟩
        · cases whole.symm.trans isBroken
        · rw [results, observed, named]
          refine ⟨?_, ?_, ?_⟩
          · intro r member
            rcases List.mem_append.mp member with earlier | now
            · exact allExecuted r earlier
            · exact List.mem_singleton.mp now ▸ executed
          · simp [observationBefore]
          · simp [idBefore]
      · intro isBroken
        rcases next with ⟨refused, -⟩ | ⟨-, whole, -⟩
        · refine ⟨state.results.length, 0, ?_⟩
          have same : state.results.map (·.status)
              = List.replicate state.results.length Plan.Status.executed := by
            refine List.eq_replicate_iff.mpr ⟨List.length_map .., ?_⟩
            intro status member
            obtain ⟨r, present, rfl⟩ := List.mem_map.mp member
            exact allExecuted r present
          rw [results]
          simp [same, refused]
        · cases isBroken.symm.trans whole
      · rw [results, called]
        intro k r present blocked call member
        rcases Nat.lt_or_ge k state.results.length with lt | ge
        · rw [List.getElem?_append_left lt] at present
          have executed := allExecuted r (List.mem_of_getElem? present)
          cases executed.symm.trans blocked
        · simp only [List.getElem?_append_right ge, List.getElem?_singleton] at present
          split at present
          · obtain rfl := Option.some.inj present
            rcases outcome.status with executed | refused
            · cases executed.symm.trans blocked
            · cases refused.symm.trans blocked
          · cases present
      · rw [results, called]
        intro k r present executed
        rcases Nat.lt_or_ge k state.results.length with lt | ge
        · rw [List.getElem?_append_left lt] at present
          obtain ⟨action, request, response, seen, made, carried⟩ :=
            chained.performed k r present executed
          refine ⟨action, request, response, seen, ?_, carried⟩
          rw [filter_append_calls beyond lt, made, observationBefore_append lt.le,
            idBefore_append lt.le]
        · simp only [List.getElem?_append_right ge, List.getElem?_singleton] at present
          split at present
          · rename_i here
            obtain rfl := Option.some.inj present
            obtain rfl : k = state.results.length := by omega
            have none : state.calls.filter (·.stage = state.results.length) = [] := by
              rw [List.filter_eq_nil_iff]
              intro call member
              have before := chained.callers call member
              simp only [decide_eq_true_eq]
              omega
            have all : calls.filter (·.stage = state.results.length) = calls := by
              rw [List.filter_eq_self]
              intro call member
              simpa using beyond call member
            rw [observationBefore_append (Nat.le_refl _), idBefore_append (Nat.le_refl _),
              ← observation, ← id]
            cases outcome with
            | executed action request response seen =>
                refine ⟨action, request, response, seen, ?_, rfl, rfl⟩
                rw [List.filter_append, none, all, List.nil_append]
            | _ => cases executed
          · cases present

/-- After a run the stages are chained, by induction on the stages that are done. -/
theorem chained_run (printing : Printing ι ε) (stages : List (Stage σ ι ε)) (world : σ)
    : Chained stages (run printing stages world) := by
  have start : Chained ([] : List (Stage σ ι ε)) ({ world } : Progress σ ι ε) :=
    ⟨rfl, nofun, fun _ => ⟨nofun, rfl, rfl⟩, nofun,
      fun _ _ present => absurd present (Option.some_ne_none _).symm,
      fun _ _ present => absurd present (Option.some_ne_none _).symm⟩
  have general (done rest : List (Stage σ ι ε)) (state : Progress σ ι ε)
    (chained : Chained done state)
      : Chained (done ++ rest) (rest.foldl (Pipeline.runStage printing) state) := by
    induction rest generalizing done state with
    | nil => simpa using chained
    | cons stage rest ih =>
        have after := ih (done ++ [stage]) _
          (@Chained.runStage _ _ _ printing done state stage chained)
        simpa using after
  exact general [] stages _ start

/-- Rounds only append results. -/
theorem results_prefix (printing : Printing ι ε) (stages : List (Stage σ ι ε))
    (state : Progress σ ι ε)
    : state.results <+: (stages.foldl (Pipeline.runStage printing) state).results := by
  induction stages generalizing state with
  | nil => exact List.prefix_rfl
  | cons stage stages ih =>
      refine List.IsPrefix.trans ?_ (ih _)
      cases broken : state.chainBroken with
      | true =>
          obtain ⟨result, -, -, after⟩ := @runStage_broken _ _ _ printing stage state broken
          rw [after]
          exact List.prefix_append _ _
      | false =>
          obtain ⟨result, calls, -, results, -⟩ :=
            @runStage_outcome _ _ _ printing stage state broken
          rw [results]
          exact List.prefix_append _ _

/-- Before an executed stage stands an executed one. -/
theorem Chained.executed_before (chained : Chained done state)
    (present : state.results[k + 1]? = some result) (executed : result.status = .executed)
    : ∃ before, state.results[k]? = some before ∧ before.status = .executed := by
  have inside := (List.getElem?_eq_some_iff.mp present).1
  refine ⟨state.results[k], List.getElem?_eq_getElem (by omega), ?_⟩
  cases broken : state.chainBroken with
  | false => exact (chained.whole broken).1 _ (List.getElem_mem _)
  | true =>
      obtain ⟨n, m, statuses⟩ := chained.broken broken
      have here : (state.results.map (·.status))[k + 1]? = some .executed := by
        rw [List.getElem?_map, present, Option.map_some, executed]
      have earlier : (state.results.map (·.status))[k]? = some state.results[k].status := by
        rw [List.getElem?_map, List.getElem?_eq_getElem (by omega), Option.map_some]
      rw [statuses] at here earlier
      rcases Nat.lt_or_ge (k + 1) n with lt | ge
      · rw [List.getElem?_append_left (by simp; omega), List.getElem?_replicate_of_lt (by omega)]
          at earlier
        exact (Option.some.inj earlier).symm
      · rw [List.getElem?_append_right (by simpa using ge), List.length_replicate] at here
        cases position : k + 1 - n with
        | zero => simp [position] at here
        | succ j => simp [position, List.getElem?_replicate] at here

/-- A chained run stops at its first failure: the later stages are blocked and none of their
calls is made.
-/
theorem Chained.stopsAtFailure (chained : Chained done state)
    : StopsAtFailure done state.results state.calls := by
  refine ⟨chained.inOrder, ?_, chained.untouched, fun result present executed =>
    chained.performed 0 result present executed, ?_⟩
  · cases broken : state.chainBroken with
    | true =>
        obtain ⟨n, m, statuses⟩ := chained.broken broken
        exact ⟨n, .inr ⟨m, statuses⟩⟩
    | false =>
        refine ⟨state.results.length, .inl (List.eq_replicate_iff.mpr ⟨List.length_map .., ?_⟩)⟩
        intro status member
        obtain ⟨r, present, rfl⟩ := List.mem_map.mp member
        exact (chained.whole broken).1 r present
  · intro k result present executed
    obtain ⟨before, earlier, ranBefore⟩ := chained.executed_before present executed
    have performed := chained.performed (k + 1) result present executed
    obtain ⟨action, request, response, observation, -, asked, seen⟩ :=
      chained.performed k before earlier ranBefore
    refine ⟨before, request, observation, earlier, ranBefore, asked, seen, ?_⟩
    simpa [observationBefore, idBefore, earlier, asked, seen] using performed

end Runs

end Naalp.Workflow
