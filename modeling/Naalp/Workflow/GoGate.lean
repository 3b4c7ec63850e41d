import Naalp.Go.WorkflowGate
import Naalp.Workflow.TaskGate

/-! The Go workflow gate over its runs and crashes. A record reads back when its task has no zero
octet and its length fits in the header; at the first that does not, the log is cut.
-/

namespace Naalp.Workflow

open Naalp.Foundation
open Naalp.Go.Channels

def goText : Status → Bytes
  | .awaitingInput => awaitingInput
  | .awaitingApproval => awaitingApproval
  | .inputSupplied => inputSupplied
  | .approved => approved
  | .running => running

theorem goText_injective : Function.Injective goText := by
  intro left right same
  cases left <;> cases right <;> first | rfl | exact absurd same (by decide)

theorem goText_length (status : Status)
    : (goText status).length = match status with
      | .awaitingInput | .inputSupplied => 14
      | .awaitingApproval => 17
      | .approved => 8
      | .running => 7 := by
  cases status <;> decide

/-- The gate never moves a task to a longer status. -/
theorem goText_next_le {call : Call Bytes} {current after : Status}
    (passes : call.next (some current) = some after)
    : (goText after).length ≤ (goText current).length := by
  cases call with
  | create task needsApproval => cases passes
  | supplyInput task | run task =>
      cases current <;> cases passes <;> simp [goText_length]

def goCall (fault : Option Nat) (g : WorkflowGate)
    : Call Bytes → Except Failure Unit × WorkflowGate
  | .create task needsApproval => g.create fault task needsApproval
  | .supplyInput task => g.supplyInput fault task
  | .run task => g.run fault task

theorem lookup_getD_eq {statuses : Statuses} {task status : Bytes} (nonempty : status ≠ [])
    : (statuses.lookup task).getD [] = status ↔ statuses.lookup task = some status := by
  cases found : statuses.lookup task with
  | none => simp [nonempty.symm]
  | some now => simp

/-- A call persists the next status of its task, or fails and changes nothing. -/
theorem goCall_cases (g : WorkflowGate) (call : Call Bytes)
    : (∃ current after, g.status.lookup call.task = current.map goText
        ∧ call.next current = some after
        ∧ ∀ fault, goCall fault g call = g.persist fault call.task (goText after))
      ∨ ∃ err, ∀ fault, goCall fault g call = (.error err, g) := by
  have found (status : Status) (task : Bytes) := @lookup_getD_eq g.status task (goText status)
    (by cases status <;> decide)
  cases call with
  | create task needsApproval =>
      by_cases known : task ∈ g.status
      · exact .inr ⟨errTaskStateError, by simp [goCall, WorkflowGate.create, known]⟩
      · refine .inl ⟨none, initial needsApproval, AList.lookup_eq_none.mpr known, rfl, ?_⟩
        intro fault
        simp only [goCall, WorkflowGate.create, if_neg known, Call.task]
        cases needsApproval <;> rfl
  | supplyInput task =>
      simp only [goCall, WorkflowGate.supplyInput]
      split_ifs with input approval
      · exact .inl ⟨some .awaitingInput, _, (found .awaitingInput task).mp input, rfl, fun _ => rfl⟩
      · exact .inl ⟨some .awaitingApproval, _, (found .awaitingApproval task).mp approval, rfl,
          fun _ => rfl⟩
      · exact .inr ⟨_, fun _ => rfl⟩
  | run task =>
      simp only [goCall, WorkflowGate.run]
      split_ifs with runnable waiting
      · rcases runnable with input | approval
        · exact .inl ⟨some .inputSupplied, _, (found .inputSupplied task).mp input, rfl,
            fun _ => rfl⟩
        · exact .inl ⟨some .approved, _, (found .approved task).mp approval, rfl, fun _ => rfl⟩
      · exact .inr ⟨_, fun _ => rfl⟩
      · exact .inr ⟨_, fun _ => rfl⟩

/-- A call whose transition the gate has persists it.
Witness: cases on the call, as each method looks for the status that it asks for.
-/
theorem goCall_of_next {fault : Option Nat} {g : WorkflowGate} {call : Call Bytes}
    {current : Option Status} {after : Status}
    (found : g.status.lookup call.task = current.map goText)
    (passes : call.next current = some after)
    : goCall fault g call = g.persist fault call.task (goText after) := by
  have distinct : awaitingApproval ≠ awaitingInput := by decide
  cases call with
  | create task needsApproval =>
      cases current with
      | some now => cases passes
      | none =>
          have fresh : task ∉ g.status := AList.lookup_eq_none.mp found
          obtain rfl := Option.some.inj passes
          simp only [goCall, WorkflowGate.create, if_neg fresh, Call.task]
          cases needsApproval <;> rfl
  | supplyInput task =>
      cases current with
      | none => cases passes
      | some now =>
          have looked : g.status.lookup task = some (goText now) := found
          cases now <;> cases passes <;>
            simp [goCall, WorkflowGate.supplyInput, looked, goText, Call.task, distinct]
  | run task =>
      cases current with
      | none => cases passes
      | some now =>
          have looked : g.status.lookup task = some (goText now) := found
          cases now <;> cases passes <;>
            simp [goCall, WorkflowGate.run, looked, goText, Call.task]

/-- On an open gate it is accepted. -/
theorem goCall_accepted {g : WorkflowGate} {call : Call Bytes} {current : Option Status}
    {after : Status} (isOpen : g.closed = false)
    (found : g.status.lookup call.task = current.map goText)
    (passes : call.next current = some after)
    : goCall none g call = (.ok (),
        { g with disk := g.disk ++ gateLog.frame (taskRecord call.task (goText after))
                 status := g.status.insert call.task (goText after) }) := by
  rw [goCall_of_next found passes, WorkflowGate.persist, isOpen]
  rfl

-----------------------------------------------------------------------------------------
-- Records
-----------------------------------------------------------------------------------------

/-- A record that reads back: the task has no zero octet and the length fits in the header. -/
structure ReadsBack (task status : Bytes) : Prop where
  nonzero : 0 ∉ task
  short : (taskRecord task status).length < 2 ^ 32

/-- A record is absorbed exactly when it is a task and a status with a separator in between. -/
theorem goAbsorb_eq_some {statuses next : Statuses} {record : Bytes}
    : absorbStatus statuses record = some next
      ↔ ∃ task status, 0 ∉ task ∧ record = taskRecord task status
        ∧ next = statuses.insert task status := by
  simp only [absorbStatus, Option.map_eq_some_iff, Prod.exists, splitZero_eq_some, taskRecord,
    and_assoc]
  constructor
  · rintro ⟨task, status, nonzero, split, rfl⟩
    exact ⟨task, status, nonzero, split, rfl⟩
  · rintro ⟨task, status, nonzero, split, rfl⟩
    exact ⟨task, status, nonzero, split, rfl⟩

theorem goAbsorb_record {statuses : Statuses} {task status : Bytes} (nonzero : 0 ∉ task)
    : absorbStatus statuses (taskRecord task status) = some (statuses.insert task status) :=
  goAbsorb_eq_some.mpr ⟨task, status, nonzero, rfl, rfl⟩

/-- Every task and status of the memory come from a record that reads back. -/
def AllReadBack (statuses : Statuses) : Prop :=
  ∀ task status, statuses.lookup task = some status → ReadsBack task status

/-- Setting a task that reads back keeps all of them reading back. -/
theorem AllReadBack.insert {statuses : Statuses} {task status : Bytes} (all : AllReadBack statuses)
    (reads : ReadsBack task status) : AllReadBack (statuses.insert task status) := by
  intro other value found
  by_cases same : other = task
  · subst same
    rw [AList.lookup_insert, Option.some.injEq] at found
    exact found ▸ reads
  · rw [AList.lookup_insert_ne same] at found
    exact all other value found

/-- What was absorbed from short records reads back, by induction on the records. -/
theorem allReadBack_foldlM {records : List Bytes} {start final : Statuses}
    (all : AllReadBack start) (short : ∀ record ∈ records, record.length < 2 ^ 32)
    (fold : records.foldlM gateLog.absorb start = some final) : AllReadBack final := by
  induction records generalizing start with
  | nil =>
      obtain rfl := Option.some.inj fold
      exact all
  | cons record records ih =>
      obtain ⟨first, later⟩ := List.forall_mem_cons.mp short
      rw [List.foldlM_cons] at fold
      obtain ⟨next, absorbed, fold⟩ := Option.bind_eq_some_iff.mp fold
      obtain ⟨task, status, nonzero, rfl, rfl⟩ := goAbsorb_eq_some.mp absorbed
      exact ih (all.insert ⟨nonzero, first⟩) later fold

/-- Opening the log of the gate finds its memory and cuts nothing. -/
structure GoKept (g : WorkflowGate) : Prop where
  recovers : gateLog.recover g.disk ∅ = (g.status, g.disk)
  readBack : AllReadBack g.status

theorem allReadBack_empty : AllReadBack ∅ := by
  intro task status found
  rw [AList.lookup_empty] at found
  cases found

/-- An opened gate is in this state, whatever the file held. -/
theorem goKept_of_opens (disk : Bytes) : GoKept (openWorkflowGate disk) := by
  obtain ⟨records, kept, short, fold, -⟩ := gateLog.recover_records disk ∅
  refine ⟨?_, allReadBack_foldlM allReadBack_empty short fold⟩
  have again := @CheckedLog.recover_frames _ gateLog _ _ [] _ short fold
  rw [List.append_nil, ← kept] at again
  simpa [openWorkflowGate] using again

/-- A gate in this state goes on reading after its log. -/
theorem GoKept.recover_append {g : WorkflowGate} (kept : GoKept g) (rest : Bytes)
    : gateLog.recover (g.disk ++ rest) ∅
      = ((gateLog.recover rest g.status).1, g.disk ++ (gateLog.recover rest g.status).2) := by
  obtain ⟨records, whole, short, fold, -⟩ := gateLog.recover_records g.disk ∅
  rw [kept.recovers] at whole fold
  have read := @CheckedLog.recover_frames _ gateLog _ _ rest _ short fold
  rwa [← whole] at read

theorem GoKept.append {g : WorkflowGate} (kept : GoKept g) {task status : Bytes}
    (reads : ReadsBack task status)
    : GoKept { g with disk := g.disk ++ gateLog.frame (taskRecord task status)
                      status := g.status.insert task status } where
  recovers := by
    have taken := @CheckedLog.recover_frame _ gateLog g.status _ _ [] reads.short
      (goAbsorb_record reads.nonzero)
    rw [List.append_nil] at taken
    simp [kept.recover_append, taken]
  readBack := kept.readBack.insert reads

/-- What a task is created with reads back. -/
def GoFits : Call Bytes → Prop
  | .create task needsApproval => ReadsBack task (goText (initial needsApproval))
  | .supplyInput _ | .run _ => True

/-- Then so do its later records, which are not longer. -/
theorem AllReadBack.next {statuses : Statuses} (all : AllReadBack statuses) {call : Call Bytes}
    (fits : GoFits call) {current : Option Status} {after : Status}
    (found : statuses.lookup call.task = current.map goText)
    (passes : call.next current = some after)
    : ReadsBack call.task (goText after) := by
  cases current with
  | none =>
      cases call with
      | create task needsApproval =>
          obtain rfl := Option.some.inj passes
          exact fits
      | supplyInput task | run task => cases passes
  | some now =>
      obtain ⟨nonzero, short⟩ := all call.task (goText now) found
      refine ⟨nonzero, ?_⟩
      have shorter := goText_next_le passes
      simp only [taskRecord, List.length_append, List.length_cons] at short ⊢
      omega

theorem GoKept.opens {g : WorkflowGate} (kept : GoKept g)
    : openWorkflowGate g.disk = { disk := g.disk, status := g.status } := by
  simp [openWorkflowGate, kept.recovers]

theorem GoKept.open {g : WorkflowGate} (kept : GoKept g) (closed : Bool)
    : GoKept { g with closed } :=
  ⟨kept.recovers, kept.readBack⟩

/-- What an accepted call does. -/
theorem goCall_ok {g next : WorkflowGate} {call : Call Bytes}
    (accepted : goCall none g call = (.ok (), next))
    : g.closed = false ∧ ∃ current after, call.next current = some after
      ∧ g.status.lookup call.task = current.map goText
      ∧ next = { g with disk := g.disk ++ gateLog.frame (taskRecord call.task (goText after))
                        status := g.status.insert call.task (goText after) } := by
  rcases goCall_cases g call with ⟨current, after, found, passes, persists⟩ | ⟨err, refused⟩
  · rw [persists] at accepted
    unfold WorkflowGate.persist at accepted
    cases closed : g.closed with
    | true => simp [closed] at accepted
    | false =>
        refine ⟨rfl, current, after, passes, found, ?_⟩
        simpa [closed, eq_comm] using accepted
  · rw [refused] at accepted
    cases accepted

/-- A call that fails leaves the gate as it is. -/
theorem goCall_error {g next : WorkflowGate} {call : Call Bytes} {err : Failure}
    (failed : goCall none g call = (.error err, next)) : next = g := by
  rcases goCall_cases g call with ⟨_, after, -, -, persists⟩ | ⟨_, refused⟩
  · rw [persists] at failed
    unfold WorkflowGate.persist at failed
    cases closed : g.closed with
    | true =>
        simp only [closed, if_true, Prod.mk.injEq] at failed
        exact failed.2.symm
    | false => simp [closed] at failed
  · rw [refused] at failed
    exact (Prod.mk.inj failed).2.symm

/-- A call whose write fails is never accepted. -/
theorem goCall_fault_ne_ok {g : WorkflowGate} {call : Call Bytes} {count : Nat}
    : (goCall (some count) g call).1 ≠ .ok () := by
  rcases goCall_cases g call with ⟨_, after, -, -, persists⟩ | ⟨err, refused⟩
  · rw [persists]
    unfold WorkflowGate.persist
    cases closed : g.closed <;> simp
  · rw [refused]
    simp

/-- What it leaves in the file. -/
theorem goCall_faulted {g : WorkflowGate} {call : Call Bytes} (count : Nat)
    : (goCall (some count) g call).2 = g
      ∨ ∃ current after, call.next current = some after
        ∧ g.status.lookup call.task = current.map goText ∧ g.closed = false
        ∧ (goCall (some count) g call).2 = { g with
            disk := g.disk ++ (gateLog.frame (taskRecord call.task (goText after))).take
                count } := by
  rcases goCall_cases g call with ⟨current, after, found, passes, persists⟩ | ⟨err, refused⟩
  · rw [persists]
    unfold WorkflowGate.persist
    cases closed : g.closed with
    | true => exact .inl (by simp)
    | false => exact .inr ⟨current, after, passes, found, rfl, by simp⟩
  · rw [refused]
    exact .inl rfl

theorem GoKept.call {g next : WorkflowGate} (kept : GoKept g) {call : Call Bytes}
    (fits : GoFits call) (accepted : goCall none g call = (.ok (), next)) : GoKept next := by
  obtain ⟨-, current, after, passes, found, rfl⟩ := goCall_ok accepted
  exact kept.append (kept.readBack.next fits found passes)

-----------------------------------------------------------------------------------------
-- Runs
-----------------------------------------------------------------------------------------

/-- What happens to a gate: a call, its closing, opening its log again, or a crash in a call with so
many octets of its record in the file, after which the log is opened again.
-/
inductive GoEvent where
  | call (call : Call Bytes)
  | close
  | reopen
  | crash (call : Call Bytes) (count : Nat)

def goStep (g : WorkflowGate) : GoEvent → Except Failure Unit × WorkflowGate
  | .call call => goCall none g call
  | .close => (.ok (), g.close)
  | .reopen => (.ok (), openWorkflowGate g.disk)
  | .crash call count =>
      let (result, crashed) := goCall (some count) g call
      (result, openWorkflowGate crashed.disk)

/-- The call that was accepted, or had its whole record in the file at the crash. -/
def goTook (event : Event WorkflowGate GoEvent (Except Failure Unit)) : Option (Call Bytes) :=
  match event.call with
  | .call call => if event.outcome = .ok () then some call else none
  | .crash call count =>
      let accepted := goCall none event.before call
      if accepted.1 = .ok () ∧ (goCall (some count) event.before call).2.disk = accepted.2.disk
      then some call else none
  | .close | .reopen => none

def goStatus (g : WorkflowGate) (task : Bytes) : Option Bytes := g.status.lookup task

def GoAllowed : GoEvent → Prop
  | .call call | .crash call _ => GoFits call
  | .close | .reopen => True

/-- A crash in a call loses its record, or leaves the whole of it.
Witness: a count below the length of the frame leaves a torn record, which the recovery cuts
off; any other leaves all of it.
-/
theorem GoKept.crash {g : WorkflowGate} (kept : GoKept g) {call : Call Bytes} (fits : GoFits call)
    (count : Nat)
    : (goTook (answer goStep g (.crash call count)) = none
        ∧ (goStep g (.crash call count)).2 = { disk := g.disk, status := g.status })
      ∨ ∃ next, goTook (answer goStep g (.crash call count)) = some call
        ∧ goCall none g call = (.ok (), next)
        ∧ (goStep g (.crash call count)).2 = { disk := next.disk, status := next.status } := by
  rcases goCall_cases g call with ⟨current, after, found, passes, persists⟩ | ⟨err, refused⟩
  · have reads := kept.readBack.next fits found passes
    generalize framed : gateLog.frame (taskRecord call.task (goText after)) = octets at *
    cases closed : g.closed with
    | true =>
        refine .inl ⟨?_, ?_⟩
        · simp [goTook, answer, persists, WorkflowGate.persist, closed]
        · simp [goStep, persists, WorkflowGate.persist, closed, kept.opens]
    | false =>
        by_cases torn : count < octets.length
        · refine .inl ⟨?_, ?_⟩
          · have shorter : octets.take count ≠ octets := by
              intro same
              have sizes := congrArg List.length same
              rw [List.length_take] at sizes
              omega
            simp [goTook, answer, persists, WorkflowGate.persist, closed, framed, shorter]
          · subst framed
            have lost := @CheckedLog.recover_torn _ gateLog g.status _ _ reads.short torn
            simp [goStep, persists, WorkflowGate.persist, closed, openWorkflowGate,
              kept.recover_append, lost]
        · have whole : octets.take count = octets := List.take_of_length_le (by omega)
          have later := (kept.append reads).opens
          rw [framed] at later
          refine .inr ⟨_, ?_, by rw [persists, WorkflowGate.persist, closed]; rfl, ?_⟩
          · simp [goTook, answer, persists, WorkflowGate.persist, closed, framed, whole]
          · simpa [goStep, persists, WorkflowGate.persist, closed, framed, whole] using later
  · refine .inl ⟨?_, ?_⟩
    · simp [goTook, answer, refused]
    · simp [goStep, refused, kept.opens]

/-- Every step of the Go gate follows the task automaton.
Witness: cases on the call and on the status of its task.
-/
theorem goStep_follows : Follows goStep goStatus goText goTook GoKept GoAllowed where
  keeps := by
    intro g event fits kept
    cases event with
    | call call =>
        cases outcome : goCall none g call with
        | mk result next =>
            rw [goStep, outcome]
            cases result with
            | ok _ => exact kept.call fits outcome
            | error err => rwa [goCall_error outcome]
    | close => exact kept.open true
    | reopen => exact goKept_of_opens g.disk
    | crash call count => exact goKept_of_opens _
  effect := by
    intro g event fits kept
    cases event with
    | call call =>
        cases outcome : goCall none g call with
        | mk result next =>
            cases result with
            | ok _ =>
                obtain ⟨-, current, after, passes, found, rfl⟩ := goCall_ok outcome
                refine .passes call current after ?_ passes found ?_
                · simp [goTook, answer, goStep, outcome]
                · rw [goStep, outcome]
                  exact lookup_insert_eq_update g.status call.task (goText after)
            | error err =>
                refine .still ?_ ?_
                · simp [goTook, answer, goStep, outcome]
                · rw [goStep, outcome, goCall_error outcome]
    | close => exact .still rfl rfl
    | reopen =>
        refine .still rfl ?_
        rw [goStep, kept.opens]
        rfl
    | crash call count =>
        rcases kept.crash fits count with ⟨none_passed, same⟩ | ⟨next, passed, accepted, moved⟩
        · refine .still none_passed ?_
          rw [same]
          rfl
        · obtain ⟨-, current, after, passes, found, rfl⟩ := goCall_ok accepted
          refine .passes call current after passed passes found ?_
          rw [moved]
          exact lookup_insert_eq_update g.status call.task (goText after)

/-- No task bypasses the Go gate, when every task is created with a record that reads back. -/
theorem goGate_gated {disk : Bytes} (empty : (openWorkflowGate disk).status = ∅)
    {events : List GoEvent} (fits : ∀ event ∈ events, GoAllowed event)
    : Gated goStep goStatus goText goTook (openWorkflowGate disk) events := by
  refine goStep_follows.gated goText_injective (goKept_of_opens disk) ?_ fits
  intro task
  rw [goStatus, empty]
  rfl

-----------------------------------------------------------------------------------------
-- Reopening
-----------------------------------------------------------------------------------------

/-- The gate as a store; opening it always succeeds. -/
def goGate : LoggedStore Failure WorkflowGate (Call Bytes) Unit Statuses where
  opens disk := .ok (openWorkflowGate disk)
  call g call := goCall none g call
  disk g := g.close.disk
  memory g := g.status

/-- A task of the memory is not in the log, whatever is appended to it. -/
def GoLost (g : WorkflowGate) : Prop :=
  ∃ task ∈ g.status, ∀ rest, task ∉ (gateLog.recover (g.disk ++ rest) ∅).1

theorem GoLost.call {g next : WorkflowGate} (lost : GoLost g) {call : Call Bytes}
    (accepted : goCall none g call = (.ok (), next)) : GoLost next := by
  obtain ⟨task, known, never⟩ := lost
  obtain ⟨-, current, after, -, -, rfl⟩ := goCall_ok accepted
  refine ⟨task, (AList.mem_insert _).mpr (.inr known), ?_⟩
  intro rest
  rw [List.append_assoc]
  exact never _

/-- A gate that lost a record is not restored. -/
theorem GoLost.not_restores {g : WorkflowGate} (lost : GoLost g) : ¬ Restores goGate g := by
  intro restores
  obtain ⟨task, known, never⟩ := lost
  obtain ⟨again, opened, same⟩ := restores
  obtain rfl := Except.ok.inj opened
  have absent := never []
  rw [List.append_nil] at absent
  refine absent (AList.lookup_isSome.mp ?_)
  rw [show (gateLog.recover g.disk ∅).1.lookup task = g.status.lookup task from same task]
  exact AList.lookup_isSome.mpr known

/-- No task of a recovered memory has a zero octet. -/
theorem recover_nonzero {disk task : Bytes} (known : task ∈ (gateLog.recover disk ∅).1)
    : 0 ∉ task := by
  obtain ⟨records, -, short, fold, -⟩ := gateLog.recover_records disk ∅
  obtain ⟨status, found⟩ := Option.isSome_iff_exists.mp (AList.lookup_isSome.mpr known)
  exact (allReadBack_foldlM allReadBack_empty short fold task status found).nonzero

/-- A record too long for its header announces only octets of its task. -/
theorem take_long {task : Bytes} {status : Status}
    (long : ¬ (taskRecord task (goText status)).length < 2 ^ 32)
    : (taskRecord task (goText status)).take
        ((taskRecord task (goText status)).length % 2 ^ 32)
      = task.take ((taskRecord task (goText status)).length % 2 ^ 32) := by
  have small : (goText status).length ≤ 17 := by cases status <;> simp [goText_length]
  have size : (taskRecord task (goText status)).length
      = task.length + ((goText status).length + 1) := by simp [taskRecord]
  rw [taskRecord, List.take_append_of_le_length]
  rw [taskRecord] at size long
  omega

/-- A task whose first record does not read back is lost.
Witness: only a create can be of a task that does not read back, and its record is refused or
announces another length.
-/
theorem GoKept.lost {g next : WorkflowGate} (kept : GoKept g) {call : Call Bytes}
    (unfit : ¬ GoFits call) (accepted : goCall none g call = (.ok (), next)) : GoLost next := by
  cases call with
  | supplyInput task | run task => exact absurd trivial unfit
  | create task needsApproval =>
      obtain ⟨-, current, after, passes, found, rfl⟩ := goCall_ok accepted
      cases current with
      | some now => cases passes
      | none =>
          obtain rfl := Option.some.inj passes
          refine ⟨task, (AList.mem_insert _).mpr (.inl rfl), ?_⟩
          intro rest known
          have nonzero := recover_nonzero known
          have long : ¬ (taskRecord task (goText (initial needsApproval))).length < 2 ^ 32 :=
            fun short => unfit ⟨nonzero, short⟩
          have refused : absorbStatus g.status
              ((taskRecord task (goText (initial needsApproval))).take
                ((taskRecord task (goText (initial needsApproval))).length % 2 ^ 32)) = none := by
            rw [take_long long, absorbStatus, Option.map_eq_none_iff, splitZero_eq_none]
            exact fun zero => nonzero (List.mem_of_mem_take zero)
          simp only [Call.task, List.append_assoc, kept.recover_append,
            @CheckedLog.recover_refused _ gateLog g.status _ rest refused] at known
          exact AList.lookup_eq_none.mp found known

theorem GoLost.run {first last : WorkflowGate} {calls : List (Call Bytes)} (lost : GoLost first)
    (run : Acknowledged goGate (fun _ _ => True) first calls last) : GoLost last := by
  induction run with
  | nil state => exact lost
  | cons _ answered _ ih => exact ih (lost.call answered)

/-- A run keeps its log when all its calls fit, and loses a task when one does not. -/
theorem GoKept.run {first last : WorkflowGate} {calls : List (Call Bytes)} (kept : GoKept first)
    (run : Acknowledged goGate (fun _ _ => True) first calls last)
    : GoKept last ∧ (∀ call ∈ calls, GoFits call) ∨ GoLost last ∧ ∃ call ∈ calls,
      ¬ GoFits call := by
  induction run with
  | nil state => exact .inl ⟨kept, by simp⟩
  | @cons first next last call calls _ _ answered later ih =>
      by_cases fits : GoFits call
      · rcases ih (kept.call fits answered) with ⟨keptLast, all⟩ | ⟨lost, other, member, unfit⟩
        · exact .inl ⟨keptLast, List.forall_mem_cons.mpr ⟨fits, all⟩⟩
        · exact .inr ⟨lost, other, List.mem_cons_of_mem _ member, unfit⟩
      · exact .inr ⟨(kept.lost fits answered).run later, call, List.mem_cons_self, fits⟩

/-- After accepted calls on an opened gate, opening it again restores its statuses exactly when
every task was created with a record that reads back.
-/
theorem goGate_restores_iff {disk : Bytes} {last : WorkflowGate} {calls : List (Call Bytes)}
    (run : Acknowledged goGate (fun _ _ => True) (openWorkflowGate disk) calls last)
    : Restores goGate last ↔ ∀ call ∈ calls, GoFits call := by
  rcases (goKept_of_opens disk).run run with ⟨kept, fits⟩ | ⟨lost, call, member, unfit⟩
  · refine iff_of_true ⟨_, rfl, ?_⟩ fits
    intro task
    show (openWorkflowGate last.disk).status.lookup task = _
    rw [kept.opens]
    rfl
  · exact iff_of_false lost.not_restores (fun all => unfit (all call member))

end Naalp.Workflow
