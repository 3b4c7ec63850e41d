import Naalp.Python.WorkflowGate
import Naalp.Workflow.TaskGate

/-! The Python workflow gate over its runs. Its records read back when their task has no zero
character, so that opening its log again finds the statuses that it held.
-/

namespace Naalp.Workflow

open Naalp.Foundation
open Naalp.Python
open Naalp.Python.Channels

def pyText : Status → PyStr
  | .awaitingInput => awaitingInput
  | .awaitingApproval => awaitingApproval
  | .inputSupplied => inputSupplied
  | .approved => approved
  | .running => running

theorem pyText_injective : Function.Injective pyText := by
  intro left right same
  cases left <;> cases right <;> first | rfl | exact absurd same (by decide)

def pyCall (fault : Option Approval.Fault) (g : WorkflowGate) : Call PyStr → Py Unit × WorkflowGate
  | .create task needsApproval => g.create fault task needsApproval
  | .supplyInput task => g.supplyInput fault task
  | .run task => g.run fault task

/-- A call persists the next status of its task, or raises and changes nothing. -/
theorem pyCall_cases (fault : Option Approval.Fault) (g : WorkflowGate) (call : Call PyStr)
    : (∃ current after, g.status.lookup call.task = current.map pyText
        ∧ call.next current = some after
        ∧ pyCall fault g call = g.persist fault call.task (pyText after))
      ∨ ∃ err, pyCall fault g call = (.error err, g) := by
  cases call with
  | create task needsApproval =>
      by_cases known : task ∈ g.status
      · exact .inr ⟨taskExists, by simp [pyCall, WorkflowGate.create, known]⟩
      · refine .inl ⟨none, initial needsApproval, AList.lookup_eq_none.mpr known, rfl, ?_⟩
        simp only [pyCall, WorkflowGate.create, if_neg known, Call.task]
        cases needsApproval <;> rfl
  | supplyInput task =>
      simp only [pyCall, WorkflowGate.supplyInput]
      split_ifs with input approval
      · exact .inl ⟨some .awaitingInput, _, input, rfl, rfl⟩
      · exact .inl ⟨some .awaitingApproval, _, approval, rfl, rfl⟩
      · exact .inr ⟨_, rfl⟩
  | run task =>
      simp only [pyCall, WorkflowGate.run]
      split_ifs with runnable waiting
      · rcases runnable with input | approval
        · exact .inl ⟨some .inputSupplied, _, input, rfl, rfl⟩
        · exact .inl ⟨some .approved, _, approval, rfl, rfl⟩
      · exact .inr ⟨_, rfl⟩
      · exact .inr ⟨_, rfl⟩

/-- A call whose transition the gate has persists it.
Witness: cases on the call, as each method looks for the status that it asks for.
-/
theorem pyCall_of_next {fault : Option Approval.Fault} {g : WorkflowGate} {call : Call PyStr}
    {current : Option Status} {after : Status}
    (found : g.status.lookup call.task = current.map pyText)
    (passes : call.next current = some after)
    : pyCall fault g call = g.persist fault call.task (pyText after) := by
  have distinct : awaitingApproval ≠ awaitingInput := by decide
  cases call with
  | create task needsApproval =>
      cases current with
      | some now => cases passes
      | none =>
          have fresh : task ∉ g.status := AList.lookup_eq_none.mp found
          obtain rfl := Option.some.inj passes
          simp only [pyCall, WorkflowGate.create, if_neg fresh, Call.task]
          cases needsApproval <;> rfl
  | supplyInput task =>
      cases current with
      | none => cases passes
      | some now =>
          have looked : g.status.lookup task = some (pyText now) := found
          cases now <;> cases passes <;>
            simp [pyCall, WorkflowGate.supplyInput, looked, pyText, Call.task, distinct]
  | run task =>
      cases current with
      | none => cases passes
      | some now =>
          have looked : g.status.lookup task = some (pyText now) := found
          cases now <;> cases passes <;>
            simp [pyCall, WorkflowGate.run, looked, pyText, Call.task]

/-- A number is written in so many octets exactly when it fits in them. -/
theorem intToBytes_eq_ok {width n : Nat} {octets : Bytes}
    : intToBytes width n = .ok octets ↔ n < 256 ^ width ∧ octets = toBigEndian width n := by
  unfold intToBytes
  by_cases fits : n < 256 ^ width
  · have within : (0 : Int) ≤ n ∧ (n : Int) < 256 ^ width := ⟨by omega, by exact_mod_cast fits⟩
    rw [if_pos within]
    simp [fits, eq_comm]
  · have outside : ¬ ((0 : Int) ≤ n ∧ (n : Int) < 256 ^ width) := by
      rintro ⟨-, small⟩
      exact fits (by exact_mod_cast small)
    rw [if_neg outside]
    simp [fits]

/-- A record is framed when its texts can be encoded and its length fits in four octets. -/
theorem statusRecord_eq_ok {task status : PyStr} {framed : Bytes}
    : statusRecord task status = .ok framed
      ↔ ∃ t s, task.encode = .ok t ∧ status.encode = .ok s ∧ (t ++ 0 :: s).length < 2 ^ 32
        ∧ framed = frame (t ++ 0 :: s) := by
  simp only [statusRecord, bind_eq_ok, intToBytes_eq_ok, pure_eq_ok, Except.ok.injEq, frame]
  constructor
  · rintro ⟨t, encodedTask, s, encodedStatus, size, ⟨short, rfl⟩, rfl⟩
    exact ⟨t, s, encodedTask, encodedStatus, short, rfl⟩
  · rintro ⟨t, s, encodedTask, encodedStatus, short, rfl⟩
    exact ⟨t, encodedTask, s, encodedStatus, _, ⟨short, rfl⟩, rfl⟩

/-- A status is written exactly when the file is open and the record can be encoded and framed;
what waited in the buffer goes first.
-/
theorem persist_eq_ok {g next : WorkflowGate} {task status : PyStr}
    : g.persist none task status = (.ok (), next)
      ↔ g.file.closed = false ∧ ∃ t s, task.encode = .ok t ∧ status.encode = .ok s
        ∧ (t ++ 0 :: s).length < 2 ^ 32
        ∧ next = {
          file := {
            g.file with
            disk := g.file.disk ++ g.file.pending ++ frame (t ++ 0 :: s)
            pending := []
          }
          status := g.status.insert task status
        } := by
  cases framed : statusRecord task status with
  | error err =>
      simp only [WorkflowGate.persist, framed, Prod.mk.injEq, reduceCtorEq, false_and, false_iff]
      rintro ⟨-, t, s, encodedTask, encodedStatus, short, -⟩
      rw [statusRecord_eq_ok.mpr ⟨t, s, encodedTask, encodedStatus, short, rfl⟩] at framed
      cases framed
  | ok octets =>
      obtain ⟨t, s, encodedTask, encodedStatus, short, rfl⟩ := statusRecord_eq_ok.mp framed
      simp only [WorkflowGate.persist, framed, Approval.LogFile.append]
      cases g.file.closed with
      | true => simp
      | false =>
          have fits : t.length + (s.length + 1) < 4294967296 := by simpa using short
          simp [encodedTask, encodedStatus, fits, eq_comm]

/-- A call whose transition the gate has is accepted, when its record can be made. -/
theorem pyCall_accepted {g : WorkflowGate} {call : Call PyStr} {current : Option Status}
    {after : Status} {t s : Bytes} (isOpen : g.file.closed = false)
    (encodedTask : call.task.encode = .ok t) (encodedStatus : (pyText after).encode = .ok s)
    (short : (t ++ 0 :: s).length < 2 ^ 32)
    (found : g.status.lookup call.task = current.map pyText)
    (passes : call.next current = some after)
    : pyCall none g call = (.ok (),
        { file := { g.file with disk := g.file.disk ++ g.file.pending ++ frame (t ++ 0 :: s)
                                pending := [] }
          status := g.status.insert call.task (pyText after) }) := by
  rw [pyCall_of_next found passes]
  exact persist_eq_ok.mpr ⟨isOpen, t, s, encodedTask, encodedStatus, short, rfl⟩

/-- Without a fault of the file, a call that raises changes nothing. -/
theorem persist_eq_error {g next : WorkflowGate} {task status : PyStr} {err : Exc}
    (raised : g.persist none task status = (.error err, next)) : next = g := by
  simp only [WorkflowGate.persist] at raised
  cases framed : statusRecord task status with
  | error err => simpa [framed, eq_comm] using (Prod.mk.inj (framed ▸ raised)).2
  | ok octets =>
      simp only [framed, Approval.LogFile.append] at raised
      cases closed : g.file.closed with
      | true =>
          simp only [closed, if_true, Prod.mk.injEq] at raised
          exact raised.2.symm
      | false => simp [closed] at raised

theorem zero_notMem_octets {task : PyStr} {t : Bytes} (encoded : task.encode = .ok t)
    : (0 : UInt8) ∈ t ↔ .scalar (Char.ofNat 0) ∈ task := by
  obtain ⟨chars, rfl, rfl⟩ := PyStr.encode_eq_ok.mp encoded
  rw [zero_mem_utf8]
  simp [PyStr.lit]

/-- Replay finds the task and the status of a record of a task without a zero character. -/
theorem pyAbsorb_record {statuses : Statuses} {task status : PyStr} {t s : Bytes}
    (encodedTask : task.encode = .ok t) (encodedStatus : status.encode = .ok s)
    (nonzero : .scalar (Char.ofNat 0) ∉ task)
    : absorbStatus statuses (t ++ 0 :: s) = .ok (statuses.insert task status) := by
  have split : splitZero (t ++ 0 :: s) = some (t, s) :=
    splitZero_eq_some.mpr ⟨mt (zero_notMem_octets encodedTask).mp nonzero, rfl⟩
  simp only [absorbStatus, split, PyStr.decode_of_encode encodedTask,
    PyStr.decode_of_encode encodedStatus, ok_bind, pure_eq_ok]

/-- The task that one round of replay adds has no zero character. -/
theorem pyAbsorb_nonzero {statuses next : Statuses} {record : Bytes}
    (absorbed : absorbStatus statuses record = .ok next) {task : PyStr} (known : task ∈ next)
    : .scalar (Char.ofNat 0) ∉ task ∨ task ∈ statuses := by
  unfold absorbStatus at absorbed
  cases split : splitZero record with
  | none => simp [split] at absorbed
  | some parts =>
      obtain ⟨t, s⟩ := parts
      simp only [split, bind_eq_ok, pure_eq_ok, Except.ok.injEq] at absorbed
      obtain ⟨decoded, readTask, status, -, rfl⟩ := absorbed
      rcases AList.mem_insert _ |>.mp known with rfl | earlier
      · refine .inl (mt (zero_notMem_octets (PyStr.encode_of_decode readTask)).mpr ?_)
        exact (splitZero_eq_some.mp split).1
      · exact .inr earlier

def NoZero (statuses : Statuses) : Prop := ∀ task ∈ statuses, .scalar (Char.ofNat 0) ∉ task

/-- No task of a replayed memory has a zero character, by induction over the records. -/
theorem replay_noZero {disk : Bytes} {statuses : Statuses}
    (replayed : gateReader.replay disk ∅ = .ok statuses) : NoZero statuses := by
  obtain ⟨records, -, -, -, -, fold⟩ := LogReader.replay_eq_ok.mp replayed
  refine @foldlM_invariant _ _ _ _ _ _ _ (fun _ statuses => NoZero statuses) ?_ ?_ fold
  · intro seen record rest before next _ holds absorbed task known
    exact (pyAbsorb_nonzero absorbed known).elim id (holds task)
  · intro task known
    exact absurd known (AList.notMem_empty task)

-----------------------------------------------------------------------------------------
-- Runs
-----------------------------------------------------------------------------------------

/-- Opening the log of the gate finds its memory. -/
structure PyKept (g : WorkflowGate) : Prop where
  written : g.file.pending = []
  replays : gateReader.replay g.file.disk ∅ = .ok g.status

/-- A task that is created has no zero character. -/
def PyFits : Call PyStr → Prop
  | .create task _ => .scalar (Char.ofNat 0) ∉ task
  | .supplyInput _ | .run _ => True

theorem pyKept_of_opens {disk : Bytes} {g : WorkflowGate}
    (opened : openWorkflowGate disk = .ok g) : g.file = { disk } ∧ PyKept g := by
  obtain ⟨statuses, replayed, same⟩ := bind_eq_ok.mp opened
  obtain rfl := Except.ok.inj same
  exact ⟨rfl, rfl, replayed⟩

theorem PyKept.opens {g : WorkflowGate} (kept : PyKept g)
    : openWorkflowGate g.close.file.disk = .ok { file := { disk := g.file.disk }
                                                 status := g.status } := by
  have disk : g.close.file.disk = g.file.disk := by
    simp [WorkflowGate.close, Approval.LogFile.close, kept.written]
  rw [disk, openWorkflowGate, kept.replays]
  rfl

/-- The task of a call that passes has no zero character: it is new, or in the memory. -/
theorem PyKept.nonzero {g : WorkflowGate} (kept : PyKept g) {call : Call PyStr} (fits : PyFits call)
    {current : Option Status} {after : Status}
    (found : g.status.lookup call.task = current.map pyText)
    (passes : call.next current = some after)
    : .scalar (Char.ofNat 0) ∉ call.task := by
  cases call with
  | create task needsApproval => exact fits
  | supplyInput task | run task =>
      cases current with
      | none => cases passes
      | some now =>
          refine replay_noZero kept.replays task (AList.lookup_isSome.mp ?_)
          rw [show g.status.lookup task = _ from found]
          rfl

/-- What a call does that passes. -/
theorem PyKept.call {g next : WorkflowGate} (kept : PyKept g) {call : Call PyStr}
    (fits : PyFits call) (passed : pyCall none g call = (.ok (), next))
    : ∃ current after, call.next current = some after
      ∧ g.status.lookup call.task = current.map pyText
      ∧ next.status = g.status.insert call.task (pyText after) ∧ PyKept next := by
  rcases pyCall_cases none g call with ⟨current, after, found, passes, persisted⟩ | ⟨err, raised⟩
  · rw [persisted] at passed
    obtain ⟨-, t, s, encodedTask, encodedStatus, short, rfl⟩ := persist_eq_ok.mp passed
    refine ⟨current, after, passes, found, rfl, rfl, ?_⟩
    have absorbed := @pyAbsorb_record g.status _ _ _ _ encodedTask encodedStatus
      (kept.nonzero fits found passes)
    have strict : gateReader.shortPrefix ≠ none := by simp [gateReader]
    simp only [kept.written, List.append_nil]
    rw [LogReader.replay_append strict kept.replays, ← List.append_nil (frame _),
      LogReader.replay_frame short]
    simp only [gateReader, absorbed, ok_bind]
    exact LogReader.replay_nil
  · rw [raised] at passed
    cases passed

theorem pyCall_error {g next : WorkflowGate} {call : Call PyStr} {err : Exc}
    (raised : pyCall none g call = (.error err, next)) : next = g := by
  rcases pyCall_cases none g call with ⟨_, _, -, -, persisted⟩ | ⟨_, refused⟩
  · exact persist_eq_error (persisted ▸ raised)
  · rw [refused] at raised
    exact (Prod.mk.inj raised).2.symm

/-- What happens to a gate: a call, its closing, or opening its log again. -/
inductive PyEvent where
  | call (call : Call PyStr)
  | close
  | reopen

def pyStep (g : WorkflowGate) : PyEvent → Py Unit × WorkflowGate
  | .call call => pyCall none g call
  | .close => (.ok (), g.close)
  | .reopen =>
      match openWorkflowGate g.close.file.disk with
      | .ok again => (.ok (), again)
      | .error err => (.error err, g.close)

/-- The call that was accepted. -/
def pyTook (event : Event WorkflowGate PyEvent (Py Unit)) : Option (Call PyStr) :=
  match event.call, event.outcome with
  | .call call, .ok _ => some call
  | _, _ => none

def pyStatus (g : WorkflowGate) (task : PyStr) : Option PyStr := g.status.lookup task

def PyAllowed : PyEvent → Prop
  | .call call => PyFits call
  | .close | .reopen => True

/-- Every step of the Python gate follows the task automaton.
Witness: cases on the call and on the status of its task.
-/
theorem pyStep_follows : Follows pyStep pyStatus pyText pyTook PyKept PyAllowed where
  keeps := by
    intro g event fits kept
    cases event with
    | call call =>
        cases outcome : pyCall none g call with
        | mk result next =>
            rw [pyStep, outcome]
            cases result with
            | ok _ =>
                obtain ⟨_, _, -, -, -, keptNext⟩ := kept.call fits outcome
                exact keptNext
            | error err => rwa [pyCall_error outcome]
    | close =>
        refine ⟨rfl, ?_⟩
        simpa [pyStep, WorkflowGate.close, Approval.LogFile.close, kept.written] using kept.replays
    | reopen =>
        rw [pyStep, kept.opens]
        exact ⟨rfl, kept.replays⟩
  effect := by
    intro g event fits kept
    cases event with
    | call call =>
        cases outcome : pyCall none g call with
        | mk result next =>
            cases result with
            | ok _ =>
                obtain ⟨current, after, passes, found, moved, -⟩ := kept.call fits outcome
                refine .passes call current after ?_ passes found ?_
                · simp [pyTook, answer, pyStep, outcome]
                · show (fun task => (pyStep g (.call call)).2.status.lookup task) = _
                  rw [pyStep, outcome, moved]
                  exact lookup_insert_eq_update g.status call.task (pyText after)
            | error err =>
                refine .still ?_ ?_
                · simp [pyTook, answer, pyStep, outcome]
                · rw [pyStep, outcome, pyCall_error outcome]
    | close => exact .still rfl rfl
    | reopen =>
        refine .still rfl ?_
        rw [pyStep, kept.opens]
        rfl

/-- No task bypasses the Python gate, when no task is created with a zero character. -/
theorem pyGate_gated {disk : Bytes} {start : WorkflowGate}
    (opened : openWorkflowGate disk = .ok start) (empty : start.status = ∅) {events : List PyEvent}
    (fits : ∀ event ∈ events, PyAllowed event)
    : Gated pyStep pyStatus pyText pyTook start events := by
  refine pyStep_follows.gated pyText_injective (pyKept_of_opens opened).2 ?_ fits
  intro task
  rw [pyStatus, empty]
  rfl

-----------------------------------------------------------------------------------------
-- Reopening
-----------------------------------------------------------------------------------------

/-- The gate as a store; its file is what closing leaves. -/
def pyGate : LoggedStore Exc WorkflowGate (Call PyStr) Unit Statuses where
  opens disk := openWorkflowGate disk
  call g call := pyCall none g call
  disk g := g.close.file.disk
  memory g := g.status

theorem PyKept.run {first last : WorkflowGate} {calls : List (Call PyStr)} (kept : PyKept first)
    (run : Acknowledged pyGate (fun _ _ => True) first calls last)
    (fits : ∀ call ∈ calls, PyFits call) : PyKept last := by
  induction run with
  | nil state => exact kept
  | cons _ answered _ ih =>
      obtain ⟨here, later⟩ := List.forall_mem_cons.mp fits
      obtain ⟨_, _, -, -, -, keptNext⟩ := kept.call here answered
      exact ih keptNext later

/-- An accepted call leaves its task in the memory, and those that were there. -/
theorem pyCall_known {g next : WorkflowGate} {call : Call PyStr}
    (passed : pyCall none g call = (.ok (), next))
    : call.task ∈ next.status ∧ ∀ task ∈ g.status, task ∈ next.status := by
  rcases pyCall_cases none g call with ⟨_, _, -, -, persisted⟩ | ⟨_, raised⟩
  · rw [persisted] at passed
    obtain ⟨-, _, _, -, -, -, rfl⟩ := persist_eq_ok.mp passed
    exact ⟨(AList.mem_insert _).mpr (.inl rfl), fun task known =>
      (AList.mem_insert _).mpr (.inr known)⟩
  · rw [raised] at passed
    cases passed

/-- No task is forgotten in an acknowledged run, by induction on the run. -/
theorem pyGate_known {first last : WorkflowGate} {calls : List (Call PyStr)}
    (run : Acknowledged pyGate (fun _ _ => True) first calls last)
    : (∀ task ∈ first.status, task ∈ last.status) ∧ ∀ call ∈ calls, call.task ∈ last.status := by
  induction run with
  | nil state => exact ⟨fun _ known => known, by simp⟩
  | cons _ answered _ ih =>
      obtain ⟨here, kept⟩ := pyCall_known answered
      obtain ⟨later, all⟩ := ih
      exact ⟨fun task known => later task (kept task known),
        List.forall_mem_cons.mpr ⟨later _ here, all⟩⟩

/-- After accepted calls on an opened gate, opening it again restores its statuses exactly when no
task was created with a zero character.
-/
theorem pyGate_restores_iff {disk : Bytes} {first last : WorkflowGate} {calls : List (Call PyStr)}
    (opened : openWorkflowGate disk = .ok first)
    (run : Acknowledged pyGate (fun _ _ => True) first calls last)
    : Restores pyGate last ↔ ∀ call ∈ calls, PyFits call := by
  constructor
  · rintro ⟨again, reopened, same⟩ call member
    cases call with
    | create task needsApproval =>
        have known := (pyGate_known run).2 _ member
        refine replay_noZero (pyKept_of_opens reopened).2.replays task (AList.lookup_isSome.mp ?_)
        rw [show again.status.lookup task = last.status.lookup task from same task]
        exact AList.lookup_isSome.mpr known
    | supplyInput task | run task => trivial
  · intro fits
    have kept := (pyKept_of_opens opened).2.run run fits
    exact ⟨_, kept.opens, fun task => rfl⟩

end Naalp.Workflow
