import Naalp.Workflow.GoGate
import Naalp.Workflow.PythonGate

/-! The workflow gates across reopenings. Both keep their tasks when no task is created with a name
that its record does not give back; a name with a zero character runs without its approval.
-/

namespace Naalp.Workflow

open Naalp.Foundation
open Naalp.Python

/-- No task bypasses either gate in a run that creates no task with a zero character, nor, in Go,
with a record of 2^32 octets or more.
-/
theorem gates_hold (disk : Bytes) (start : Channels.WorkflowGate) (events : List PyEvent)
    (goEvents : List GoEvent)
    : (Channels.openWorkflowGate disk = .ok start → start.status = ∅
        → (∀ event ∈ events, PyAllowed event)
        → Gated pyStep pyStatus pyText pyTook start events)
      ∧ ((Go.Channels.openWorkflowGate disk).status = ∅
        → (∀ event ∈ goEvents, GoAllowed event)
        → Gated goStep goStatus goText goTook (Go.Channels.openWorkflowGate disk) goEvents) := by
  refine ⟨?_, ?_⟩
  · intro opened empty fits
    exact pyGate_gated opened empty fits
  · intro empty fits
    exact goGate_gated empty fits

theorem pyStep_accepted {g : Channels.WorkflowGate} {call : Call PyStr} {current : Option Status}
    {after : Status} {t : Bytes} (isOpen : g.file.closed = false)
    (encoded : call.task.encode = .ok t) (small : t.length < 2 ^ 31)
    (found : g.status.lookup call.task = current.map pyText)
    (passes : call.next current = some after)
    : ∃ next, pyStep g (.call call) = (.ok (), next) ∧ next.file.closed = false
      ∧ next.status = g.status.insert call.task (pyText after) := by
  obtain ⟨s, encodedStatus, short⟩ : ∃ s, (pyText after).encode = .ok s ∧ s.length ≤ 17 := by
    cases after <;> exact ⟨_, rfl, by decide⟩
  refine ⟨_, pyCall_accepted isOpen encoded encodedStatus ?_ found passes, isOpen, rfl⟩
  rw [List.length_append, List.length_cons]
  omega

def zeroName : PyStr := .lit ['a', Char.ofNat 0]

/-- The task is created to need an approval, forgotten by a reopening, and created again without. -/
def unapprovedRun : List PyEvent :=
  [.call (.create zeroName true), .reopen, .call (.create zeroName false),
    .call (.supplyInput zeroName), .call (.run zeroName)]

def freshGate : Channels.WorkflowGate := { file := { disk := [] }, status := ∅ }

/-- The record of the first create. -/
def createdRecord : Bytes :=
  [97, 0] ++ 0 :: "awaiting-approval".toList.flatMap String.utf8EncodeChar

/-- What replay makes of it. -/
def otherStatuses : Channels.Statuses :=
  (∅ : Channels.Statuses).insert (.lit ['a']) (.lit (Char.ofNat 0 :: "awaiting-approval".toList))

theorem zeroName_encode : zeroName.encode = .ok [97, 0] := by decide

/-- A gate that created the task reads its record as that of another. -/
theorem zeroName_forgotten
    : ∃ created reopened, pyStep freshGate (.call (.create zeroName true)) = (.ok (), created)
      ∧ created.status = (∅ : Channels.Statuses).insert zeroName Channels.awaitingApproval
      ∧ pyStep created .reopen = (.ok (), reopened) ∧ reopened.file.closed = false
      ∧ reopened.status = otherStatuses := by
  have asked := @pyCall_accepted freshGate (.create zeroName true) none _ [97, 0]
    ("awaiting-approval".toList.flatMap String.utf8EncodeChar) rfl zeroName_encode (by decide)
    (by decide) rfl rfl
  have absorbed := @pyAbsorb_record ∅ (.lit ['a'])
    (.lit (Char.ofNat 0 :: "awaiting-approval".toList))
    [97] (0 :: "awaiting-approval".toList.flatMap String.utf8EncodeChar) (by decide) (by decide)
    (by decide)
  have replayed : Channels.gateReader.replay (frame createdRecord) ∅ = .ok otherStatuses := by
    rw [← List.append_nil (frame _), LogReader.replay_frame (by decide)]
    refine (congrArg (· >>= _) absorbed).trans ?_
    exact LogReader.replay_nil
  refine ⟨_, { file := { disk := frame createdRecord }, status := otherStatuses }, asked, rfl, ?_,
    rfl, rfl⟩
  show pyStep { file := { disk := frame createdRecord }, status := _ } .reopen = _
  simp only [pyStep, Channels.WorkflowGate.close, Approval.LogFile.close, List.append_nil,
    Channels.openWorkflowGate, replayed, ok_bind, pure_eq_ok]

/-- The task runs without its approval: the reopening has forgotten it.
Witness: the record of the name is split at its own zero character, so the reopened gate knows
another task and lets this one be created again, without approval.
-/
theorem unapproved_runs
    : .create zeroName true ∈ passedCalls pyStep pyTook freshGate unapprovedRun
      ∧ pyStatus (finalState pyStep freshGate unapprovedRun) zeroName = some Channels.running
      ∧ ∀ before, before <+: unapprovedRun
        → pyStatus (finalState pyStep freshGate before) zeroName ≠ some Channels.approved := by
  have small : ([97, 0] : Bytes).length < 2 ^ 31 := by decide
  obtain ⟨created, reopened, asked, held, forgotten, isOpen, other⟩ := zeroName_forgotten
  have unknown : reopened.status.lookup zeroName = none := by
    rw [other]
    decide
  obtain ⟨first, unasked, firstOpen, firstStatus⟩ :=
    @pyStep_accepted reopened (.create zeroName false)
    none _ _ isOpen zeroName_encode small unknown rfl
  have waits : first.status.lookup zeroName = some (pyText .awaitingInput) := by
    rw [firstStatus]
    exact AList.lookup_insert _
  obtain ⟨second, supplied, secondOpen, secondStatus⟩ :=
    @pyStep_accepted first (.supplyInput zeroName)
    (some .awaitingInput) _ _ firstOpen zeroName_encode small waits rfl
  have ready : second.status.lookup zeroName = some (pyText .inputSupplied) := by
    rw [secondStatus]
    exact AList.lookup_insert _
  obtain ⟨third, runs, -, thirdStatus⟩ := @pyStep_accepted second (.run zeroName)
    (some .inputSupplied) _ _ secondOpen zeroName_encode small ready rfl
  have final : third.status.lookup zeroName = some (pyText .running) := by
    rw [thirdStatus]
    exact AList.lookup_insert _
  refine ⟨?_, ?_, ?_⟩
  · simp [passedCalls, unapprovedRun, trace, pyTook, answer, asked]
  · simp only [unapprovedRun, finalState, List.foldl_cons, asked, forgotten, unasked,
      supplied, runs]
    exact final
  · intro before earlier
    rw [unapprovedRun] at earlier
    simp only [List.prefix_cons_iff, List.prefix_nil] at earlier
    rcases earlier with rfl | ⟨_, rfl,
      rfl | ⟨_, rfl, rfl | ⟨_, rfl, rfl | ⟨_, rfl, rfl | ⟨_, rfl, rfl⟩⟩⟩⟩⟩
    all_goals
      simp only [finalState, List.foldl_cons, List.foldl_nil, asked, forgotten, unasked,
        supplied, runs, pyStatus, unknown, waits, ready, final, held, AList.lookup_insert]
      decide

theorem zeroName_bypasses_gate : ¬ Gated pyStep pyStatus pyText pyTook freshGate unapprovedRun := by
  intro gated
  obtain ⟨created, runs, never⟩ := unapproved_runs
  obtain ⟨before, earlier, was⟩ := (gated.approval zeroName created).2 runs
  exact never before earlier was

def plainName : PyStr := .lit ['a']

theorem freshGate_opens : Channels.openWorkflowGate [] = .ok freshGate := by
  rw [Channels.openWorkflowGate, LogReader.replay_nil]
  rfl

/-- Both gates hold over runs of a task with a plain name, with reopenings and a crash in Go. -/
theorem gates_hold_plainName
    : Gated pyStep pyStatus pyText pyTook freshGate
        [.call (.create plainName true), .reopen, .call (.supplyInput plainName), .close, .reopen,
          .call (.run plainName)]
      ∧ Gated goStep goStatus goText goTook (Go.Channels.openWorkflowGate [])
        [.call (.create [97] true), .crash (.supplyInput [97]) 9, .call (.supplyInput [97]),
          .reopen, .call (.run [97])] := by
  refine ⟨(gates_hold [] freshGate _ []).1 freshGate_opens rfl ?_,
    (gates_hold [] freshGate [] _).2 ?_ ?_⟩
  · simp [PyAllowed, PyFits, plainName, PyStr.lit]
  · simp [Go.Channels.openWorkflowGate]
  · have fits : ReadsBack [97] (goText (initial true)) := ⟨by decide, by decide⟩
    simp [GoAllowed, GoFits, fits]

-----------------------------------------------------------------------------------------
-- Restored statuses
-----------------------------------------------------------------------------------------

/-- After accepted calls on an opened gate, opening it again restores its statuses exactly when no
task was created with a zero character, nor, in Go, with a record of 2^32 octets or more.
-/
theorem gates_restore_iff (disk : Bytes) (first last : Channels.WorkflowGate)
    (calls : List (Call PyStr)) (goLast : Go.Channels.WorkflowGate) (goCalls : List (Call Bytes))
    : (Channels.openWorkflowGate disk = .ok first
        → Acknowledged pyGate (fun _ _ => True) first calls last
        → (Restores pyGate last ↔ ∀ call ∈ calls, PyFits call))
      ∧ (Acknowledged goGate (fun _ _ => True) (Go.Channels.openWorkflowGate disk) goCalls goLast
        → (Restores goGate goLast ↔ ∀ call ∈ goCalls, GoFits call)) := by
  refine ⟨?_, ?_⟩
  · intro opened run
    exact pyGate_restores_iff opened run
  · intro run
    exact goGate_restores_iff run

theorem pyCreated {name : PyStr} {t : Bytes} (encoded : name.encode = .ok t)
    (small : t.length < 2 ^ 31)
    : ∃ last, Acknowledged pyGate (fun _ _ => True) freshGate [.create name true] last := by
  obtain ⟨last, created, -⟩ := @pyStep_accepted freshGate (.create name true) none _ t rfl encoded
    small rfl rfl
  exact ⟨last, .cons trivial created (.nil _)⟩

theorem goCreated (name : Bytes)
    : ∃ last, Acknowledged goGate (fun _ _ => True) (Go.Channels.openWorkflowGate [])
      [.create name true] last := by
  have unknown : (Go.Channels.openWorkflowGate []).status.lookup name = none := by
    simp [Go.Channels.openWorkflowGate]
  have accepted := @goCall_accepted _ (.create name true) none _ rfl unknown rfl
  exact ⟨_, .cons trivial accepted (.nil _)⟩

/-- The statuses of a task with a zero character are not restored. -/
theorem zeroName_not_restored
    : (∃ last, Acknowledged pyGate (fun _ _ => True) freshGate [.create zeroName true] last
        ∧ ¬ Restores pyGate last)
      ∧ ∃ last, Acknowledged goGate (fun _ _ => True) (Go.Channels.openWorkflowGate [])
          [.create [97, 0] true] last
        ∧ ¬ Restores goGate last := by
  obtain ⟨pyLast, pyRun⟩ := pyCreated zeroName_encode (by decide)
  obtain ⟨goLast, goRun⟩ := goCreated [97, 0]
  refine ⟨⟨pyLast, pyRun, ?_⟩, ⟨goLast, goRun, ?_⟩⟩
  · rw [pyGate_restores_iff freshGate_opens pyRun]
    simp [PyFits, zeroName, PyStr.lit]
  · rw [goGate_restores_iff goRun]
    intro fits
    exact (fits _ (List.mem_singleton_self _)).nonzero (by decide)

/-- A task is created, supplied with its approval and run, and another one is created between. -/
def plainCalls {κ : Type} (task other : κ) : List (Call κ) :=
  [.create task true, .create other false, .supplyInput task, .run task]

/-- The four calls of one task are acknowledged by the Python gate. -/
theorem pyPlainCalls_acknowledged
    : ∃ last, Acknowledged pyGate (fun _ _ => True) freshGate (plainCalls plainName (.lit ['b']))
      last := by
  have named : plainName.encode = .ok [97] := by decide
  have small : ([97] : Bytes).length < 2 ^ 31 := by decide
  have distinct : plainName ≠ .lit ['b'] := by decide
  obtain ⟨first, asked, isOpen, status⟩ :=
    @pyStep_accepted freshGate (.create plainName true) none _ _
    rfl named small rfl rfl
  have unknown : first.status.lookup (.lit ['b']) = none := by
    rw [status]
    decide
  obtain ⟨second, created, isOpen, status'⟩ :=
    @pyStep_accepted first (.create (.lit ['b']) false) none _
    [98] isOpen (by decide) (by decide) unknown rfl
  have waits : second.status.lookup plainName = some (pyText .awaitingApproval) := by
    rw [status', status]
    exact (AList.lookup_insert_ne distinct).trans (AList.lookup_insert _)
  obtain ⟨third, supplied, isOpen, status''⟩ := @pyStep_accepted second (.supplyInput plainName)
    (some .awaitingApproval) _ _ isOpen named small waits rfl
  have ready : third.status.lookup plainName = some (pyText .approved) := by
    rw [status'']
    exact AList.lookup_insert _
  obtain ⟨last, ran, -⟩ := @pyStep_accepted third (.run plainName) (some .approved) _ _ isOpen named
    small ready rfl
  exact ⟨last, .cons trivial asked (.cons trivial created (.cons trivial supplied
    (.cons trivial ran (.nil _))))⟩

theorem goStep_accepted {g : Go.Channels.WorkflowGate} {call : Call Bytes} {current : Option Status}
    {after : Status} (isOpen : g.closed = false)
    (found : g.status.lookup call.task = current.map goText)
    (passes : call.next current = some after)
    : ∃ next, goCall none g call = (.ok (), next) ∧ next.closed = false
      ∧ next.status = g.status.insert call.task (goText after) :=
  ⟨_, goCall_accepted isOpen found passes, isOpen, rfl⟩

/-- The same of the Go gate. -/
theorem goPlainCalls_acknowledged
    : ∃ last, Acknowledged goGate (fun _ _ => True) (Go.Channels.openWorkflowGate [])
      (plainCalls [97] [98]) last := by
  have distinct : ([97] : Bytes) ≠ [98] := by decide
  have empty : (Go.Channels.openWorkflowGate []).status = ∅ := by
    simp [Go.Channels.openWorkflowGate]
  obtain ⟨first, asked, isOpen, status⟩ := @goStep_accepted (Go.Channels.openWorkflowGate [])
    (.create [97] true) none _ rfl (by rw [empty]; rfl) rfl
  have unknown : first.status.lookup [98] = none := by
    rw [status, empty]
    decide
  obtain ⟨second, created, isOpen, status'⟩ :=
    @goStep_accepted first (.create [98] false) none _ isOpen
    unknown rfl
  have waits : second.status.lookup [97] = some (goText .awaitingApproval) := by
    rw [status', status]
    exact (AList.lookup_insert_ne distinct).trans (AList.lookup_insert _)
  obtain ⟨third, supplied, isOpen, status''⟩ := @goStep_accepted second (.supplyInput [97])
    (some .awaitingApproval) _ isOpen waits rfl
  have ready : third.status.lookup [97] = some (goText .approved) := by
    rw [status'']
    exact AList.lookup_insert _
  obtain ⟨last, ran, -⟩ := @goStep_accepted third (.run [97]) (some .approved) _ isOpen ready rfl
  exact ⟨last, .cons trivial asked (.cons trivial created (.cons trivial supplied
    (.cons trivial ran (.nil _))))⟩

/-- Both gates restore the statuses that four accepted calls on two plain names leave. -/
theorem gates_restore_plainName
    : (∃ last, Acknowledged pyGate (fun _ _ => True) freshGate
      (plainCalls plainName (.lit ['b'])) last
        ∧ Restores pyGate last)
      ∧ ∃ last, Acknowledged goGate (fun _ _ => True) (Go.Channels.openWorkflowGate [])
          (plainCalls [97] [98]) last
        ∧ Restores goGate last := by
  obtain ⟨pyLast, pyRun⟩ := pyPlainCalls_acknowledged
  obtain ⟨goLast, goRun⟩ := goPlainCalls_acknowledged
  obtain ⟨python, go⟩ := gates_restore_iff [] freshGate pyLast (plainCalls plainName (.lit ['b']))
    goLast (plainCalls [97] [98])
  refine ⟨⟨pyLast, pyRun, ?_⟩, ⟨goLast, goRun, ?_⟩⟩
  · rw [python freshGate_opens pyRun]
    simp [plainCalls, PyFits, plainName, PyStr.lit]
  · rw [go goRun]
    have fits : ReadsBack [97] (goText (initial true)) := ⟨by decide, by decide⟩
    have otherFits : ReadsBack [98] (goText (initial false)) := ⟨by decide, by decide⟩
    simp [plainCalls, GoFits, fits, otherFits]

end Naalp.Workflow
