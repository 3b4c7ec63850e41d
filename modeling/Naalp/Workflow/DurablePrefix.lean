import Naalp.Workflow.GoGate

/-! The log of the Go workflow gate under truncation. However the file is cut, opening it keeps the
records that lie wholly before the cut and cuts the rest, as long as every length fits in its
header.
-/

namespace Naalp.Workflow

open Naalp.Foundation
open Naalp.Go.Channels

/-- The gate as a store of persisted records. -/
def goLog : LoggedStore Failure WorkflowGate (Bytes × Status) Unit Statuses where
  opens disk := .ok (openWorkflowGate disk)
  call g record := g.persist none record.1 (goText record.2)
  disk g := g.disk
  memory g := g.status

def NulFree (_ : WorkflowGate) (record : Bytes × Status) : Prop := 0 ∉ record.1

def Short (record : Bytes × Status) : Prop :=
  (taskRecord record.1 (goText record.2)).length < 2 ^ 32

/-- What truncating a log to its first `cut` octets must leave: opening it keeps the records wholly
inside and ends the file there, and at every moment of further persists, opening the file again
finds the statuses with the new records.
-/
structure KeepsPrefix (calls : List (Bytes × Status)) (final : WorkflowGate) (cut : Nat)
    (more : List (Bytes × Status)) : Prop where
  restored : ∃ inside, WhollyInside goLog NulFree (openWorkflowGate []) calls cut inside
    ∧ (openWorkflowGate (final.disk.take cut)).disk = inside.disk
    ∧ ∀ task, (openWorkflowGate (final.disk.take cut)).status.lookup task
      = inside.status.lookup task
  continues : ∀ now last, now <+: more
    → Acknowledged goLog NulFree (openWorkflowGate (final.disk.take cut)) now last
    → ∀ task, (openWorkflowGate last.disk).status.lookup task = last.status.lookup task

theorem persist_ok {g next : WorkflowGate} {record : Bytes × Status}
    (persisted : goLog.call g record = (.ok (), next))
    : next = { g with disk := g.disk ++ gateLog.frame (taskRecord record.1 (goText record.2))
                      status := g.status.insert record.1 (goText record.2) } := by
  simp only [goLog, WorkflowGate.persist] at persisted
  cases closed : g.closed with
  | true => simp [closed] at persisted
  | false => simpa [closed, eq_comm] using persisted

/-- A persist on an open gate succeeds, and leaves it open. -/
theorem persist_accepted {g : WorkflowGate} (isOpen : g.closed = false) (record : Bytes × Status)
    : ∃ next, goLog.call g record = (.ok (), next) ∧ next.closed = false := by
  simp [goLog, WorkflowGate.persist, isOpen]

/-- A run of records without a separator in their task names is acknowledged, by induction on
the records.
-/
theorem persists_accepted {g : WorkflowGate} (isOpen : g.closed = false)
    {records : List (Bytes × Status)} (nulFree : ∀ record ∈ records, 0 ∉ record.1)
    : ∃ last, Acknowledged goLog NulFree g records last := by
  induction records generalizing g with
  | nil => exact ⟨g, .nil g⟩
  | cons record records ih =>
      obtain ⟨first, later⟩ := List.forall_mem_cons.mp nulFree
      obtain ⟨next, persisted, stillOpen⟩ := persist_accepted isOpen record
      obtain ⟨last, run⟩ := ih stillOpen later
      exact ⟨last, .cons first persisted run⟩

theorem GoKept.persist {g next : WorkflowGate} (kept : GoKept g) {record : Bytes × Status}
    (nulFree : 0 ∉ record.1) (short : Short record)
    (persisted : goLog.call g record = (.ok (), next)) : GoKept next := by
  obtain rfl := persist_ok persisted
  exact kept.append ⟨nulFree, short⟩

theorem GoKept.persists {first last : WorkflowGate} {records : List (Bytes × Status)}
    (kept : GoKept first) (run : Acknowledged goLog NulFree first records last)
    (short : ∀ record ∈ records, Short record) : GoKept last := by
  induction run with
  | nil state => exact kept
  | cons nulFree persisted _ ih =>
      obtain ⟨here, later⟩ := List.forall_mem_cons.mp short
      exact ih (kept.persist nulFree here persisted) later

/-- Persists only append to the file. -/
theorem persists_append {first last : WorkflowGate} {records : List (Bytes × Status)}
    (run : Acknowledged goLog NulFree first records last)
    : ∃ written, last.disk = first.disk ++ written := by
  induction run with
  | nil state => exact ⟨[], (List.append_nil _).symm⟩
  | cons _ persisted _ ih =>
      obtain rfl := persist_ok persisted
      obtain ⟨written, extended⟩ := ih
      exact ⟨_, by rw [extended, List.append_assoc]⟩

/-- A cut inside a record loses it. -/
theorem GoKept.opens_torn {g : WorkflowGate} (kept : GoKept g) {record : Bytes × Status}
    (short : Short record) {count : Nat}
    (torn : count < (gateLog.frame (taskRecord record.1 (goText record.2))).length)
    : openWorkflowGate
        (g.disk ++ (gateLog.frame (taskRecord record.1 (goText record.2))).take count)
      = { disk := g.disk, status := g.status } := by
  have lost := @CheckedLog.recover_torn _ gateLog g.status _ _ short torn
  simp [openWorkflowGate, kept.recover_append, lost]

/-- A record too long for its header loses itself and what comes after it. -/
theorem GoKept.opens_long {g : WorkflowGate} (kept : GoKept g) {record : Bytes × Status}
    (nulFree : 0 ∉ record.1) (long : ¬ Short record) (rest : Bytes)
    : openWorkflowGate
        (g.disk ++ (gateLog.frame (taskRecord record.1 (goText record.2)) ++ rest))
      = { disk := g.disk, status := g.status } := by
  have refused : absorbStatus g.status ((taskRecord record.1 (goText record.2)).take
      ((taskRecord record.1 (goText record.2)).length % 2 ^ 32)) = none := by
    rw [take_long long, absorbStatus, Option.map_eq_none_iff, splitZero_eq_none]
    exact fun zero => nulFree (List.mem_of_mem_take zero)
  have lost := @CheckedLog.recover_refused _ gateLog g.status _ rest refused
  simp [openWorkflowGate, kept.recover_append, lost]

/-- What is left of a log of short records that is cut: the wholly kept ones, by induction over the
records.
-/
theorem GoKept.opens_cut {first final : WorkflowGate} {records : List (Bytes × Status)} {cut : Nat}
    (kept : GoKept first) (run : Acknowledged goLog NulFree first records final)
    (short : ∀ record ∈ records, Short record) (enough : first.disk.length ≤ cut)
    : ∃ inside, WhollyInside goLog NulFree first records cut inside ∧ GoKept inside
      ∧ openWorkflowGate (final.disk.take cut)
        = { disk := inside.disk, status := inside.status } := by
  induction run with
  | nil state =>
      refine ⟨state, ⟨⟨[], [], rfl, .nil state, ?_⟩, enough⟩, kept, ?_⟩
      · intro call later answer next none
        cases none
      · rw [List.take_of_length_le enough, kept.opens]
  | @cons first next final record records _ nulFree persisted later ih =>
      obtain ⟨here, shortLater⟩ := List.forall_mem_cons.mp short
      have keptNext := kept.persist nulFree here persisted
      by_cases fits : next.disk.length ≤ cut
      · obtain ⟨inside, ⟨⟨before, lost, rfl, before_run, beyond⟩, within⟩, keptInside, opens⟩ :=
          ih keptNext shortLater fits
        exact ⟨inside, ⟨⟨record :: before, lost, rfl, .cons nulFree persisted before_run, beyond⟩,
          within⟩, keptInside, opens⟩
      · refine ⟨first, ⟨⟨[], record :: records, rfl, .nil first, ?_⟩, enough⟩, kept, ?_⟩
        · intro other more otherAnswer otherNext same otherPersisted
          obtain ⟨rfl, -⟩ := List.cons.inj same
          rw [persisted] at otherPersisted
          obtain ⟨-, rfl⟩ := Prod.mk.inj otherPersisted
          exact Nat.lt_of_not_le fits
        · obtain ⟨written, extended⟩ := persists_append later
          obtain rfl := persist_ok persisted
          simp only [List.length_append, not_le] at fits
          rw [extended, List.append_assoc, List.take_append, List.take_of_length_le enough,
            List.take_append_of_le_length (by omega)]
          exact kept.opens_torn here (by omega)

/-- Two runs of the same records agree. -/
theorem persists_unique {first left right : WorkflowGate} {records : List (Bytes × Status)}
    (leftRun : Acknowledged goLog NulFree first records left)
    (rightRun : Acknowledged goLog NulFree first records right) : left = right := by
  induction leftRun with
  | nil state =>
      cases rightRun
      rfl
  | cons _ persisted _ ih =>
      cases rightRun with
      | cons _ again later =>
          rw [persisted] at again
          obtain ⟨-, rfl⟩ := Prod.mk.inj again
          exact ih later

/-- A run of records splits anywhere, by induction on the first part. -/
theorem persists_split {first last : WorkflowGate} {before after : List (Bytes × Status)}
    (run : Acknowledged goLog NulFree first (before ++ after) last)
    : ∃ middle, Acknowledged goLog NulFree first before middle
      ∧ Acknowledged goLog NulFree middle after last := by
  induction before generalizing first with
  | nil => exact ⟨first, .nil first, run⟩
  | cons record before ih =>
      cases run with
      | cons nulFree persisted later =>
          obtain ⟨middle, front, back⟩ := ih later
          exact ⟨middle, .cons nulFree persisted front, back⟩

/-- The records of a log that is not cut lie all inside. -/
theorem inside_of_whole {first final inside : WorkflowGate} {records : List (Bytes × Status)}
    (run : Acknowledged goLog NulFree first records final)
    (wholly : WhollyInside goLog NulFree first records final.disk.length inside)
    : inside = final := by
  obtain ⟨⟨kept, lost, rfl, kept_run, beyond⟩, -⟩ := wholly
  obtain ⟨middle, front, back⟩ := persists_split run
  obtain rfl := persists_unique kept_run front
  cases back with
  | nil => rfl
  | cons nulFree persisted later =>
      have reach := beyond _ _ _ _ rfl persisted
      obtain ⟨written, extended⟩ := persists_append later
      rw [extended, List.length_append] at reach
      exact absurd reach (by simp only [goLog]; omega)

/-- A list with a long record splits at its first one, by induction on the records. -/
theorem first_long {records : List (Bytes × Status)} (long : ∃ record ∈ records, ¬ Short record)
    : ∃ before record after, records = before ++ record :: after ∧ ¬ Short record
      ∧ ∀ earlier ∈ before, Short earlier := by
  induction records with
  | nil => simp at long
  | cons record records ih =>
      by_cases short : Short record
      · obtain ⟨other, member, otherLong⟩ := long
        rcases List.mem_cons.mp member with rfl | later
        · exact absurd short otherLong
        · obtain ⟨before, found, after, rfl, foundLong, earlier⟩ := ih ⟨other, later, otherLong⟩
          exact ⟨record :: before, found, after, rfl, foundLong,
            List.forall_mem_cons.mpr ⟨short, earlier⟩⟩
      · exact ⟨[], record, records, rfl, short, by simp⟩

/-- A long record in the log is missing when the whole log is read. -/
theorem not_keepsPrefix {calls more : List (Bytes × Status)} {final : WorkflowGate}
    (run : Acknowledged goLog NulFree (openWorkflowGate []) calls final)
    (long : ∃ record ∈ calls, ¬ Short record)
    : ¬ KeepsPrefix calls final final.disk.length more := by
  intro keeps
  obtain ⟨inside, wholly, whole, -⟩ := keeps.restored
  obtain rfl := inside_of_whole run wholly
  obtain ⟨before, record, after, rfl, recordLong, earlier⟩ := first_long long
  obtain ⟨middle, front, back⟩ := persists_split run
  have kept := (goKept_of_opens []).persists front earlier
  cases back with
  | cons nulFree persisted later =>
      obtain ⟨written, extended⟩ := persists_append later
      obtain rfl := persist_ok persisted
      rw [List.take_length, extended, List.append_assoc, kept.opens_long nulFree recordLong written]
        at whole
      have sizes := congrArg List.length whole
      simp only [List.length_append, CheckedLog.length_frame] at sizes
      omega

/-- A long record that is persisted later is missing when the log is read again. -/
theorem GoKept.not_continues {g : WorkflowGate} (kept : GoKept g) (isOpen : g.closed = false)
    {more : List (Bytes × Status)} (nulFree : ∀ record ∈ more, 0 ∉ record.1)
    (long : ∃ record ∈ more, ¬ Short record)
    : ∃ now last task, now <+: more ∧ Acknowledged goLog NulFree g now last
      ∧ (openWorkflowGate last.disk).status.lookup task ≠ last.status.lookup task := by
  obtain ⟨before, record, after, rfl, recordLong, earlier⟩ := first_long long
  have durable : before ++ [record] <+: before ++ record :: after := ⟨after, by simp⟩
  obtain ⟨last, run⟩ := @persists_accepted g isOpen (before ++ [record])
    (fun other member => nulFree other (durable.subset member))
  obtain ⟨middle, front, back⟩ := persists_split run
  have keptMiddle := kept.persists front earlier
  refine ⟨before ++ [record], last, record.1, durable, run, ?_⟩
  cases back with
  | cons free persisted later =>
      cases later
      obtain rfl := persist_ok persisted
      have lost := keptMiddle.opens_long free recordLong []
      rw [List.append_nil] at lost
      rw [lost, AList.lookup_insert]
      intro known
      exact recordLong (keptMiddle.readBack record.1 _ known).short

/-- A truncated log of NUL-free tasks keeps its wholly written records, and later ones, at every cut
exactly when all the records are shorter than 2^32 octets.
Witness: a record that is too long announces its length modulo 2^32 and is not read back; all
others are, up to the one that the cut is in.
-/
theorem durable_prefix_iff {calls more : List (Bytes × Status)} {final : WorkflowGate}
    (run : Acknowledged goLog NulFree (openWorkflowGate []) calls final)
    (nulFree : ∀ record ∈ more, 0 ∉ record.1)
    : (∀ cut, KeepsPrefix calls final cut more) ↔ ∀ record ∈ calls ++ more, Short record := by
  have cut (short : ∀ record ∈ calls, Short record) (at_ : Nat) :=
    @GoKept.opens_cut (openWorkflowGate []) final calls at_ (goKept_of_opens []) run short
      (by simp [openWorkflowGate])
  constructor
  · intro keeps
    by_contra long
    rw [List.forall_mem_append, not_and_or] at long
    by_cases short : ∀ record ∈ calls, Short record
    · obtain ⟨inside, -, kept, opens⟩ := cut short final.disk.length
      have longMore : ∃ record ∈ more, ¬ Short record := by
        by_contra none
        push Not at none
        exact long.elim (· short) (· none)
      obtain ⟨now, last, task, earlier, later, differs⟩ :=
        (kept.open false).not_continues rfl nulFree longMore
      refine differs ((keeps final.disk.length).continues now last earlier ?_ task)
      rwa [opens]
    · push Not at short
      exact not_keepsPrefix run short (keeps _)
  · intro short at_
    obtain ⟨shortCalls, shortMore⟩ := List.forall_mem_append.mp short
    obtain ⟨inside, wholly, kept, opens⟩ := cut shortCalls at_
    refine ⟨⟨inside, wholly, ?_, ?_⟩, ?_⟩
    · rw [opens]
    · intro task
      rw [opens]
    · intro now last earlier later task
      rw [opens] at later
      have keptLast := (kept.open false).persists later
        (fun record member => shortMore record (earlier.subset member))
      rw [keptLast.opens]

theorem durable_prefix_two_records
    : ∃ final, Acknowledged goLog NulFree (openWorkflowGate []) [([97], .awaitingInput)] final
      ∧ ∀ cut, KeepsPrefix [([97], .awaitingInput)] final cut [([97], .inputSupplied)] := by
  obtain ⟨final, run⟩ := @persists_accepted (openWorkflowGate []) rfl [([97], .awaitingInput)]
    (by simp)
  refine ⟨final, run, (durable_prefix_iff run (by simp)).mpr ?_⟩
  simp [Short, taskRecord, goText_length]

/-- A record of exactly 2^32 octets announces none. -/
def longName : Bytes := List.replicate (2 ^ 32 - 15) 97

/-- A record of 2^32 octets is acknowledged and not found again. -/
theorem longName_lost
    : ∃ final, Acknowledged goLog NulFree (openWorkflowGate []) [(longName, .awaitingInput)] final
      ∧ ¬ KeepsPrefix [(longName, .awaitingInput)] final final.disk.length [] := by
  have nulFree : (0 : UInt8) ∉ longName :=
    fun zero => absurd (List.eq_of_mem_replicate zero) (by decide)
  have size : longName.length = 2 ^ 32 - 15 := List.length_replicate
  generalize longName = name at nulFree size ⊢
  have long : ¬ Short (name, .awaitingInput) := by
    simp only [Short, taskRecord, List.length_append, List.length_cons, size, goText_length]
    omega
  obtain ⟨final, run⟩ := @persists_accepted (openWorkflowGate []) rfl [(name, .awaitingInput)]
    (by simpa using nulFree)
  exact ⟨final, run, not_keepsPrefix run ⟨_, List.mem_singleton_self _, long⟩⟩

end Naalp.Workflow
