import Naalp.Workflow.GoGate

/-! The Go workflow gate when writes fail. What a failed write leaves of its record hides everything
that is written after it; as long as nothing is, every acknowledged call stays in the log.
-/

namespace Naalp.Workflow

open Naalp.Foundation
open Naalp.Go.Channels

/-- What happens to a gate: a call whose write may fail, its closing, or opening its log again. -/
inductive GoWrite where
  | call (fault : Option Nat) (call : Call Bytes)
  | close
  | reopen

def goWrite (g : WorkflowGate) : GoWrite → Except Failure Unit × WorkflowGate
  | .call fault call => goCall fault g call
  | .close => (.ok (), g.close)
  | .reopen => (.ok (), openWorkflowGate g.disk)

/-- The file has no octets that opening it would cut. -/
def GoWhole (g : WorkflowGate) : Prop := (gateLog.recover g.disk ∅).2 = g.disk

/-- A call puts octets in the file: the gate is open, has its transition, and the write does not
fail at once.
-/
def GoWrites (g : WorkflowGate) (fault : Option Nat) (call : Call Bytes) : Prop :=
  g.closed = false ∧ fault ≠ some 0
    ∧ ∃ current after, g.status.lookup call.task = current.map goText
      ∧ call.next current = some after

/-- Octets are put only after whole records, and a new task has a record that reads back. -/
def GoSound (g : WorkflowGate) : GoWrite → Prop
  | .call fault call => GoWrites g fault call → GoWhole g ∧ GoFits call
  | .close | .reopen => True

/-- A status text that another may become. -/
def GoAdvances : Bytes → Bytes → Prop :=
  Relation.ReflTransGen fun before after =>
    ∃ current next, before = goText current ∧ after = goText next ∧ Leads current next

/-- Every task of the first memory is in the second, with a status that its own may become. -/
def GoLater (first second : Statuses) : Prop :=
  ∀ task status, first.lookup task = some status
    → ∃ now, second.lookup task = some now ∧ GoAdvances status now

theorem GoLater.refl (statuses : Statuses) : GoLater statuses statuses :=
  fun _ status found => ⟨status, found, .refl⟩

theorem GoLater.trans {first second third : Statuses} (left : GoLater first second)
    (right : GoLater second third) : GoLater first third := by
  intro task status found
  obtain ⟨middle, foundMiddle, advances⟩ := left task status found
  obtain ⟨last, foundLast, further⟩ := right task middle foundMiddle
  exact ⟨last, foundLast, advances.trans further⟩

/-- A passing call moves its task on, in any memory that is later than the one it read. -/
theorem GoLater.insert {first second : Statuses} (later : GoLater first second) {call : Call Bytes}
    {current : Option Status} {after : Status}
    (found : first.lookup call.task = current.map goText) (passes : call.next current = some after)
    : GoLater first (second.insert call.task (goText after)) := by
  intro task status known
  by_cases same : task = call.task
  · subst same
    cases current with
    | none => rw [found] at known; cases known
    | some now =>
        rw [found, Option.map_some, Option.some.injEq] at known
        refine ⟨goText after, AList.lookup_insert _, ?_⟩
        exact .single ⟨now, after, known.symm, rfl, call.leads passes⟩
  · rw [AList.lookup_insert_ne same]
    exact later task status known

/-- Setting one task in both tables keeps them in order. -/
theorem GoLater.insert_both {first second : Statuses} (later : GoLater first second)
    (task status : Bytes) : GoLater (first.insert task status) (second.insert task status) := by
  intro other text known
  by_cases same : other = task
  · subst same
    rw [AList.lookup_insert] at known ⊢
    exact ⟨text, known, .refl⟩
  · rw [AList.lookup_insert_ne same] at known ⊢
    exact later other text known

/-- The log holds the memory, or what it became in records that were not acknowledged. -/
structure GoHolds (g : WorkflowGate) : Prop where
  readBack : AllReadBack g.status
  durable : GoLater g.status (openWorkflowGate g.disk).status

theorem goHolds_of_opens (disk : Bytes) : GoHolds (openWorkflowGate disk) where
  readBack := (goKept_of_opens disk).readBack
  durable := by
    rw [(goKept_of_opens disk).opens]
    exact .refl _

/-- What opening finds after a whole log and another record. -/
theorem opens_whole {g : WorkflowGate} (whole : GoWhole g) {task status : Bytes}
    (reads : ReadsBack task status)
    : (openWorkflowGate (g.disk ++ gateLog.frame (taskRecord task status))).status
      = (openWorkflowGate g.disk).status.insert task status := by
  have kept := (goKept_of_opens g.disk).append reads
  have same : (openWorkflowGate g.disk).disk = g.disk := whole
  rw [same] at kept
  exact congrArg WorkflowGate.status kept.opens

theorem opens_torn {g : WorkflowGate} (whole : GoWhole g) {task status : Bytes} {count : Nat}
    (reads : ReadsBack task status)
    (torn : count < (gateLog.frame (taskRecord task status)).length)
    : (openWorkflowGate (g.disk ++ (gateLog.frame (taskRecord task status)).take count)).status
      = (openWorkflowGate g.disk).status := by
  have read := (goKept_of_opens g.disk).recover_append
    ((gateLog.frame (taskRecord task status)).take count)
  have same : (openWorkflowGate g.disk).disk = g.disk := whole
  rw [same, CheckedLog.recover_torn reads.short torn] at read
  simp only [openWorkflowGate, read]

/-- A failed write changes no memory, and leaves in the file no record, a part of one, or a whole
one.
-/
theorem GoHolds.faulted {g : WorkflowGate} (holds : GoHolds g) {call : Call Bytes} {count : Nat}
    (sound : GoSound g (.call (some count) call))
    : (goCall (some count) g call).2.status = g.status
      ∧ GoHolds (goCall (some count) g call).2 := by
  rcases goCall_faulted count with same | ⟨current, after, passes, found, isOpen, left⟩
  · rw [same]
    exact ⟨rfl, holds⟩
  · rw [left]
    refine ⟨rfl, holds.readBack, ?_⟩
    by_cases nothing : count = 0
    · rw [nothing, List.take_zero, List.append_nil]
      exact holds.durable
    · have puts : GoWrites g (some count) call :=
        ⟨isOpen, by simpa using nothing, current, after, found, passes⟩
      obtain ⟨whole, fits⟩ := sound puts
      have reads := holds.readBack.next fits found passes
      by_cases torn : count < (gateLog.frame (taskRecord call.task (goText after))).length
      · show GoLater g.status _
        rw [opens_torn whole reads torn]
        exact holds.durable
      · show GoLater g.status _
        rw [List.take_of_length_le (by omega), opens_whole whole reads]
        exact holds.durable.insert found passes

/-- Every sound step keeps the log, and moves no task back.
Witness: a fault leaves the memory, and in the log a part that the next recovery cuts off; a
call that passes appends its record.
-/
theorem GoHolds.step {g : WorkflowGate} {event : GoWrite} (sound : GoSound g event)
    (holds : GoHolds g)
    : GoHolds (goWrite g event).2 ∧ GoLater g.status (goWrite g event).2.status := by
  cases event with
  | close => exact ⟨⟨holds.readBack, holds.durable⟩, .refl _⟩
  | reopen => exact ⟨goHolds_of_opens g.disk, holds.durable⟩
  | call fault call =>
      cases fault with
      | some count =>
          obtain ⟨same, kept⟩ := holds.faulted sound
          refine ⟨kept, ?_⟩
          rw [goWrite, same]
          exact .refl _
      | none =>
          cases outcome : goCall none g call with
          | mk result next =>
              rw [goWrite, outcome]
              cases result with
              | error err =>
                  rw [goCall_error outcome]
                  exact ⟨holds, .refl _⟩
              | ok _ =>
                  obtain ⟨isOpen, current, after, passes, found, rfl⟩ := goCall_ok outcome
                  obtain ⟨whole, fits⟩ := sound ⟨isOpen, by simp, current, after, found, passes⟩
                  have reads := holds.readBack.next fits found passes
                  refine ⟨⟨holds.readBack.insert reads, ?_⟩, (GoLater.refl _).insert found passes⟩
                  show GoLater (g.status.insert _ _) _
                  rw [opens_whole whole reads]
                  exact holds.durable.insert_both _ _

/-- An acknowledged call is found after reopening: its task has the status that the call left it in,
or one that this may become.
-/
def GoReflected (event : Event WorkflowGate GoWrite (Except Failure Unit)) (reopened : WorkflowGate)
    : Prop :=
  ∀ fault call, event.call = .call fault call → event.outcome = .ok ()
    → ∃ status now, event.after.status.lookup call.task = some status
      ∧ reopened.status.lookup call.task = some now ∧ GoAdvances status now

/-- In a run of sound steps every acknowledged call is found when the log is opened again.
Witness: the invariant holds after every step, and no step moves a task back from the status
that was acknowledged.
-/
theorem goGate_reflects {disk : Bytes} {events : List GoWrite}
    (sound : ∀ event ∈ trace goWrite (openWorkflowGate disk) events,
      GoSound event.before event.call)
    : ∀ event ∈ trace goWrite (openWorkflowGate disk) events,
      GoReflected event
        (openWorkflowGate (finalState goWrite (openWorkflowGate disk) events).disk) := by
  obtain ⟨holds, -, each⟩ := @trace_later _ _ _ goWrite GoHolds GoSound
    (fun first second => GoLater first.status second.status) (fun g => .refl g.status)
    (fun left right => GoLater.trans left right) (fun g event good kept => kept.step good) _ _
    (goHolds_of_opens disk) sound
  intro event member fault call called acknowledged
  obtain ⟨-, answered, later⟩ := each event member
  have outcome : (goCall fault event.before call).1 = .ok () := by
    rw [answered, called] at acknowledged
    exact acknowledged
  have left : event.after = (goCall fault event.before call).2 := by
    rw [answered, called]
    rfl
  cases fault with
  | some count => exact absurd outcome goCall_fault_ne_ok
  | none =>
      have accepted : goCall none event.before call = (.ok (), event.after) :=
        Prod.ext outcome left.symm
      obtain ⟨-, current, after, -, -, next⟩ := goCall_ok accepted
      have status : event.after.status.lookup call.task = some (goText after) := by
        rw [next]
        exact AList.lookup_insert _
      obtain ⟨now, found, advances⟩ := (later.trans holds.durable) _ _ status
      exact ⟨goText after, now, status, found, advances⟩

end Naalp.Workflow
