import Naalp.Foundation.Runs
import Naalp.Python.Delivery
import Naalp.Signatures.RawRecords
import Naalp.Workflow.GateFaults

/-! The delivery tracker when writes fail. A flush that fails keeps the rest of its record in the
buffer and so does no harm; a write that fails inside its record leaves a part of it in the log for
good.
-/

namespace Naalp.Stores

open Naalp.Foundation
open Naalp.Python
open Naalp.Python.Approval (LogFile Fault)
open Naalp.Python.Cbor
open Naalp.Python.Delivery

-----------------------------------------------------------------------------------------
-- Records
-----------------------------------------------------------------------------------------

theorem parseUpdate_bytes {u : DeliveryUpdate} {record : Bytes} (encoded : u.bytes = .ok record)
    : parseUpdate record = .ok u := by
  have decoded := @Signatures.Record.decode_bytes (.update u) record encoded
  simp only [parseUpdate, decoded]
  rfl

/-- An update makes a record exactly when it encodes to fewer octets than a length prefix can
count, and the record is these octets with their length before them.
-/
theorem updateRecord_eq_ok {u : DeliveryUpdate} {framed : Bytes}
    : updateRecord u = .ok framed
      ↔ ∃ record, u.bytes = .ok record ∧ record.length < 2 ^ 32 ∧ framed = frame record := by
  simp only [updateRecord, bind_eq_ok, raiseIf_eq_ok, exists_const, pure_eq_ok, Except.ok.injEq,
    not_le]
  constructor
  · rintro ⟨record, encoded, short, rfl⟩
    exact ⟨record, encoded, short, rfl⟩
  · rintro ⟨record, encoded, short, rfl⟩
    exact ⟨record, encoded, short, rfl⟩

theorem absorbUpdate_bytes {current : Stages} {u : DeliveryUpdate} {record : Bytes}
    (encoded : u.bytes = .ok record)
    : absorbUpdate current record = .ok (current.insert u.obj u.stage) := by
  simp only [absorbUpdate, parseUpdate_bytes encoded, ok_bind]
  rfl

theorem trackerReader_strict : trackerReader.shortPrefix ≠ none := by simp [trackerReader]

-----------------------------------------------------------------------------------------
-- Steps
-----------------------------------------------------------------------------------------

/-- What happens to a tracker: an advance, or the opening of its log again after so many octets of
its write buffer reached the file (all of them when it was closed, none when the process died).
-/
inductive TrackerEvent where
  | advance (fault : Option Fault) (obj : Bytes) (stage time : Int)
  | reopen (kept : Nat)

/-- What is in the file when the tracker is gone. -/
def leftBehind (t : Tracker) (kept : Nat) : Bytes := t.file.disk ++ t.file.pending.take kept

def trackerStep (t : Tracker) : TrackerEvent → Py (Option DeliveryUpdate) × Tracker
  | .advance fault obj stage time =>
      let (answer, next) := t.advance fault obj stage time
      (answer.map some, next)
  | .reopen kept =>
      match openTracker (leftBehind t kept) with
      | .ok again => (.ok none, again)
      | .error err => (.error err, { t with file := { disk := leftBehind t kept, closed := true } })

/-- A write fails with a part of the record in the file. -/
def Tears (t : Tracker) (framed : Bytes) : Option Fault → Prop
  | some (.write count) =>
      t.file.pending.length < count ∧ count < t.file.pending.length + framed.length
  | _ => False

/-- An advance does not leave a part of its record in the file, and the log is opened again when it
holds whole records.
-/
def TrackerSound (t : Tracker) : TrackerEvent → Prop
  | .advance fault obj stage time =>
      ∀ framed, updateRecord { obj, stage, time } = .ok framed → ¬ Tears t framed fault
  | .reopen kept => WholeRecords (leftBehind t kept)

/-- Every object of the first memory is in the second, at its stage or beyond. -/
def StagesLater (first second : Stages) : Prop :=
  ∀ obj stage, first.lookup obj = some stage → ∃ now, second.lookup obj = some now ∧ stage ≤ now

theorem StagesLater.refl (stages : Stages) : StagesLater stages stages :=
  fun _ stage found => ⟨stage, found, le_refl stage⟩

theorem StagesLater.trans {first second third : Stages} (left : StagesLater first second)
    (right : StagesLater second third) : StagesLater first third := by
  intro obj stage found
  obtain ⟨middle, foundMiddle, below⟩ := left obj stage found
  obtain ⟨last, foundLast, further⟩ := right obj middle foundMiddle
  exact ⟨last, foundLast, below.trans further⟩

/-- No stage that the object has is above the new one. -/
def Advances (stages : Stages) (obj : Bytes) (stage : Int) : Prop :=
  ∀ cur, stages.lookup obj = some cur → cur ≤ stage

theorem StagesLater.insert {first second : Stages} (later : StagesLater first second) {obj : Bytes}
    {stage : Int} (advances : Advances first obj stage)
    : StagesLater first (second.insert obj stage) := by
  intro other cur found
  by_cases same : other = obj
  · subst same
    exact ⟨stage, AList.lookup_insert _, advances cur found⟩
  · rw [AList.lookup_insert_ne same]
    exact later other cur found

/-- The same stage set in both memories keeps the second at the stages of the first or beyond.
-/
theorem StagesLater.insert_both {first second : Stages} (later : StagesLater first second)
    (obj : Bytes) (stage : Int)
    : StagesLater (first.insert obj stage) (second.insert obj stage) := by
  intro other cur found
  by_cases same : other = obj
  · subst same
    rw [AList.lookup_insert] at found ⊢
    exact ⟨cur, found, le_refl cur⟩
  · rw [AList.lookup_insert_ne same] at found ⊢
    exact later other cur found

/-- The log and the buffer hold a log, then records of advances that failed; cut after any of these,
reading them finds every object at its stage or beyond.
-/
structure Outlives (current held : Stages) (base : Bytes) (failed : List Bytes) : Prop where
  replays : trackerReader.replay base ∅ = .ok held
  short : ∀ record ∈ failed, record.length < 2 ^ 32
  later : ∀ kept, kept <+: failed
    → ∃ stages, kept.foldlM absorbUpdate held = .ok stages ∧ StagesLater current stages

structure TrackerHolds (t : Tracker) : Prop where
  outlives : ∃ held base failed, Outlives t.current held base failed
    ∧ t.file.disk ++ t.file.pending = base ++ failed.flatMap frame
    ∧ t.file.pending.length ≤ (failed.flatMap frame).length

/-- A record that is written whole can be read after any log. -/
theorem replay_record {base : Bytes} {held : Stages} {u : DeliveryUpdate} {record : Bytes}
    (replays : trackerReader.replay base ∅ = .ok held) (encoded : u.bytes = .ok record)
    (short : record.length < 2 ^ 32)
    : trackerReader.replay (base ++ frame record) ∅ = .ok (held.insert u.obj u.stage) := by
  rw [LogReader.replay_append trackerReader_strict replays, ← List.append_nil (frame record),
    LogReader.replay_frame short]
  refine (congrArg (· >>= _) (absorbUpdate_bytes encoded)).trans ?_
  exact LogReader.replay_nil

/-- All the records of failed advances can be read. -/
theorem Outlives.whole {current held : Stages} {base : Bytes} {failed : List Bytes}
    (outlives : Outlives current held base failed)
    : ∃ stages, trackerReader.replay (base ++ failed.flatMap frame) ∅ = .ok stages
      ∧ StagesLater current stages := by
  obtain ⟨stages, fold, later⟩ := outlives.later failed List.prefix_rfl
  refine ⟨stages, ?_, later⟩
  rw [LogReader.replay_append trackerReader_strict outlives.replays,
    ← List.append_nil (failed.flatMap frame), LogReader.replay_frames outlives.short]
  refine (congrArg (· >>= _) fold).trans ?_
  exact LogReader.replay_nil

/-- Nothing failed since the octets were written. -/
theorem outlives_nil {current held : Stages} {base : Bytes}
    (replays : trackerReader.replay base ∅ = .ok held) (later : StagesLater current held)
    : Outlives current held base [] := by
  refine ⟨replays, by simp, ?_⟩
  intro kept nothing
  obtain rfl := List.prefix_nil.mp nothing
  exact ⟨held, rfl, later⟩

/-- Another failed advance. -/
theorem Outlives.snoc {current held : Stages} {base : Bytes} {failed : List Bytes}
    (outlives : Outlives current held base failed) {u : DeliveryUpdate} {record : Bytes}
    (encoded : u.bytes = .ok record) (short : record.length < 2 ^ 32)
    (advances : Advances current u.obj u.stage)
    : Outlives current held base (failed ++ [record]) where
  replays := outlives.replays
  short := by
    intro other member
    rcases List.mem_append.mp member with earlier | last
    · exact outlives.short other earlier
    · rwa [List.mem_singleton.mp last]
  later := by
    intro kept earlier
    rcases List.prefix_concat_iff.mp earlier with rfl | before
    · obtain ⟨stages, fold, later⟩ := outlives.later failed List.prefix_rfl
      refine ⟨stages.insert u.obj u.stage, ?_, later.insert advances⟩
      rw [List.foldlM_append, fold, ok_bind, List.foldlM_cons, absorbUpdate_bytes encoded]
      rfl
    · exact outlives.later kept before

/-- A fault that tears no record leaves none of it, or all of it, in the file and the buffer.
Witness: cases on the fault; a failed flush or fsync leaves the rest in the buffer, and a
failed write is within the old buffer or past the record.
-/
theorem writeThrough_faulted {t : Tracker} {framed : Bytes} {fault : Fault}
    (isOpen : t.file.closed = false) (sound : ¬ Tears t framed (some fault))
    : ∃ file, writeThrough t.file framed (some fault) = (.error .osError, file)
      ∧ (file.disk ++ file.pending = t.file.disk ++ t.file.pending
          ∧ file.pending.length ≤ t.file.pending.length
        ∨ file.disk ++ file.pending = t.file.disk ++ t.file.pending ++ framed
          ∧ file.pending.length ≤ t.file.pending.length + framed.length) := by
  simp only [writeThrough, isOpen]
  cases fault with
  | fsync => exact ⟨_, rfl, .inr ⟨by simp, by simp⟩⟩
  | flush count =>
      refine ⟨_, rfl, .inr ⟨?_, ?_⟩⟩
      · simp only [List.append_assoc, List.take_append_drop]
      · simp only [List.length_drop, List.length_append]
        omega
  | write count =>
      refine ⟨_, rfl, ?_⟩
      simp only [Tears, not_and, not_lt] at sound
      by_cases inside : count ≤ t.file.pending.length
      · refine .inl ⟨?_, ?_⟩
        · rw [List.take_append_of_le_length inside, List.append_assoc, List.take_append_drop]
        · simp
      · have whole := sound (by omega)
        refine .inr ⟨?_, ?_⟩
        · rw [List.take_of_length_le (by simpa using whole), List.drop_of_length_le (by omega)]
          simp
        · simp only [List.length_drop]
          omega

/-- An advance is refused or repeats the stage, and then writes nothing; or it writes its record. -/
theorem advance_cases (t : Tracker) (fault : Option Fault) (obj : Bytes) (stage time : Int)
    : (∃ err, t.advance fault obj stage time = (.error err, t))
      ∨ t.current.lookup obj = some stage
        ∧ t.advance fault obj stage time = (.ok { obj, stage, time }, t)
      ∨ ∃ framed, updateRecord { obj, stage, time } = .ok framed ∧ t.file.closed = false
        ∧ Advances t.current obj stage
        ∧ t.advance fault obj stage time
          = match writeThrough t.file framed fault with
            | (.error err, file) => (.error err, { t with file })
            | (.ok _, file) =>
                (.ok { obj, stage, time }, { file, current := t.current.insert obj stage }) := by
  unfold Tracker.advance
  dsimp only
  split_ifs with regressed same
  · exact .inl ⟨_, rfl⟩
  · exact .inr (.inl ⟨same, rfl⟩)
  · cases packed : updateRecord { obj, stage, time } with
    | error err => exact .inl ⟨err, rfl⟩
    | ok framed =>
        cases closed : t.file.closed with
        | true => exact .inl ⟨.valueError "write to closed file", by simp [writeThrough, closed]⟩
        | false =>
            refine .inr (.inr ⟨framed, rfl, rfl, ?_, rfl⟩)
            intro cur found
            rw [found] at regressed
            simpa using regressed

theorem trackerHolds_of_opens {disk : Bytes} {t : Tracker} (opened : openTracker disk = .ok t)
    : TrackerHolds t := by
  obtain ⟨stages, replayed, same⟩ := bind_eq_ok.mp opened
  obtain rfl := Except.ok.inj same
  exact ⟨stages, disk, [], outlives_nil replayed (.refl _), by simp, by simp⟩

theorem openTracker_eq_ok {disk : Bytes} {stages : Stages}
    (replayed : trackerReader.replay disk ∅ = .ok stages)
    : openTracker disk = .ok { file := { disk }, current := stages } := by
  simp only [openTracker, replayed, ok_bind, pure_eq_ok]

/-- A file of whole records opens, with every object at its stage or beyond.
Witness: the octets that are lost are a suffix of the failed records; what whole records are
left is a prefix of these.
-/
theorem TrackerHolds.opens {t : Tracker} (holds : TrackerHolds t) {kept : Nat}
    (whole : WholeRecords (leftBehind t kept))
    : ∃ again, openTracker (leftBehind t kept) = .ok again
      ∧ StagesLater t.current again.current := by
  obtain ⟨held, base, failed, outlives, octets, within⟩ := holds
  have reach : base.length ≤ t.file.disk.length := by
    have sizes := congrArg List.length octets
    simp only [List.length_append] at sizes
    omega
  -- the octets that are lost are the last of the failed records
  have cut : leftBehind t kept
      = base ++ (failed.flatMap frame).take (t.file.disk.length + kept - base.length) := by
    have front : (t.file.disk ++ t.file.pending).take (t.file.disk.length + kept)
        = leftBehind t kept := by
      rw [leftBehind, List.take_append, List.take_of_length_le (by omega), Nat.add_sub_cancel_left]
    rw [← front, octets, List.take_append, List.take_of_length_le (by omega)]
  have wholeBase := LogReader.wholeRecords trackerReader_strict outlives.replays
  rw [cut] at whole ⊢
  obtain ⟨records, earlier, same⟩ := wholeBase.cut outlives.short whole
  obtain ⟨stages, fold, later⟩ := outlives.later records earlier
  rw [same]
  refine ⟨_, openTracker_eq_ok ?_, later⟩
  rw [LogReader.replay_append trackerReader_strict outlives.replays,
    ← List.append_nil (records.flatMap frame),
    LogReader.replay_frames (fun record member => outlives.short record (earlier.subset member))]
  refine (congrArg (· >>= _) fold).trans ?_
  exact LogReader.replay_nil

/-- A log with one more record, of the stage that is now current. -/
theorem TrackerHolds.acknowledged {t : Tracker} {u : DeliveryUpdate} {record : Bytes}
    {file : LogFile} (holds : TrackerHolds t) (encoded : u.bytes = .ok record)
    (short : record.length < 2 ^ 32)
    (written : file.disk = t.file.disk ++ t.file.pending ++ frame record)
    (flushed : file.pending = [])
    : TrackerHolds { file, current := t.current.insert u.obj u.stage } := by
  obtain ⟨held, base, failed, outlives, octets, -⟩ := holds
  obtain ⟨stages, replays, later⟩ := outlives.whole
  have read := replay_record replays encoded short
  rw [← octets, ← written] at read
  refine ⟨_, _, [], outlives_nil read (later.insert_both u.obj u.stage), ?_, ?_⟩
  · simp [flushed]
  · simp [flushed]

/-- Every sound step keeps the log, and moves no object back.
Witness: cases on what the advance does; a failed one is one more record that may be found,
whose stage is not below the current one.
-/
theorem TrackerHolds.step {t : Tracker} {event : TrackerEvent} (sound : TrackerSound t event)
    (holds : TrackerHolds t)
    : TrackerHolds (trackerStep t event).2
      ∧ StagesLater t.current (trackerStep t event).2.current := by
  cases event with
  | reopen kept =>
      obtain ⟨again, opened, later⟩ := holds.opens sound
      rw [trackerStep, opened]
      exact ⟨trackerHolds_of_opens opened, later⟩
  | advance fault obj stage time =>
      simp only [trackerStep]
      rcases advance_cases t fault obj stage time with
        ⟨err, refused⟩ | ⟨-, repeats⟩ | ⟨framed, packed, isOpen, advances, written⟩
      · rw [refused]
        exact ⟨holds, .refl _⟩
      · rw [repeats]
        exact ⟨holds, .refl _⟩
      · obtain ⟨record, encoded, short, rfl⟩ := updateRecord_eq_ok.mp packed
        cases fault with
        | none =>
            rw [written]
            simp only [writeThrough, isOpen]
            exact ⟨holds.acknowledged encoded short (by simp) rfl,
              (StagesLater.refl _).insert advances⟩
        | some fault =>
            obtain ⟨held, base, failed, outlives, octets, within⟩ := holds
            obtain ⟨file, faulted, same | ⟨whole, most⟩⟩ :=
              writeThrough_faulted isOpen (sound _ packed)
            · rw [written, faulted]
              exact ⟨⟨held, base, failed, outlives, same.1.trans octets, same.2.trans within⟩,
                .refl _⟩
            · rw [written, faulted]
              refine ⟨⟨held, base, failed ++ [record], outlives.snoc encoded short advances,
                ?_, ?_⟩, .refl _⟩
              · rw [whole, octets]
                simp
              · simp only [List.flatMap_append, List.length_append, List.flatMap_cons,
                  List.flatMap_nil, List.append_nil] at most ⊢
                omega

/-- An acknowledged advance leaves its object at its stage. -/
theorem trackerStep_acknowledged {t : Tracker} {event : TrackerEvent} {u : DeliveryUpdate}
    (acknowledged : (trackerStep t event).1 = .ok (some u))
    : (trackerStep t event).2.current.lookup u.obj = some u.stage := by
  cases event with
  | reopen kept =>
      simp only [trackerStep] at acknowledged
      cases opened : openTracker (leftBehind t kept) <;> simp [opened] at acknowledged
  | advance fault obj stage time =>
      simp only [trackerStep] at acknowledged ⊢
      rcases advance_cases t fault obj stage time with
        ⟨err, refused⟩ | ⟨same, repeats⟩ | ⟨framed, -, -, -, written⟩
      · simp [refused, Except.map] at acknowledged
      · rw [repeats] at acknowledged ⊢
        obtain rfl : { obj, stage, time } = u := by simpa [Except.map] using acknowledged
        exact same
      · rw [written] at acknowledged ⊢
        cases outcome : writeThrough t.file framed fault with
        | mk result file =>
            rw [outcome] at acknowledged
            cases result with
            | error err => simp [Except.map] at acknowledged
            | ok _ =>
                obtain rfl : { obj, stage, time } = u := by simpa [Except.map] using acknowledged
                exact AList.lookup_insert _

/-- In a run of sound steps every acknowledged stage is found when the log is opened again on whole
records, and such a log opens.
-/
theorem tracker_reflects {disk : Bytes} {start : Tracker} (opened : openTracker disk = .ok start)
    {events : List TrackerEvent}
    (sound : ∀ event ∈ trace trackerStep start events, TrackerSound event.before event.call)
    {kept : Nat} (whole : WholeRecords (leftBehind (finalState trackerStep start events) kept))
    : ∃ again, openTracker (leftBehind (finalState trackerStep start events) kept) = .ok again
      ∧ ∀ event ∈ trace trackerStep start events, ∀ u, event.outcome = .ok (some u)
        → ∃ now, again.current.lookup u.obj = some now ∧ u.stage ≤ now := by
  obtain ⟨holds, -, each⟩ := @trace_later _ _ _ trackerStep TrackerHolds TrackerSound
    (fun first second => StagesLater first.current second.current) (fun t => .refl t.current)
    (fun left right => StagesLater.trans left right) (fun t event good kept => kept.step good) _ _
    (trackerHolds_of_opens opened) sound
  obtain ⟨again, reopened, later⟩ := holds.opens whole
  refine ⟨again, reopened, ?_⟩
  intro event member u acknowledged
  obtain ⟨-, answered, moves⟩ := each event member
  have known : event.after.current.lookup u.obj = some u.stage := by
    rw [answered] at acknowledged ⊢
    exact trackerStep_acknowledged acknowledged
  exact (moves.trans later) u.obj u.stage known

-----------------------------------------------------------------------------------------
-- Both stores
-----------------------------------------------------------------------------------------

open Naalp.Workflow
open Naalp.Go.Channels (openWorkflowGate)

/-- What both stores acknowledged is found again, in every run in which nothing is written behind a
part of a record: for the Go gate no octets after a torn record, for the tracker no torn record at
all.
-/
theorem acknowledged_found_again (disk : Bytes) (writes : List GoWrite) (start : Tracker)
    (events : List TrackerEvent) (kept : Nat)
    : ((∀ event ∈ trace goWrite (openWorkflowGate disk) writes, GoSound event.before event.call)
        → ∀ event ∈ trace goWrite (openWorkflowGate disk) writes,
          GoReflected event
            (openWorkflowGate (finalState goWrite (openWorkflowGate disk) writes).disk))
      ∧ (openTracker disk = .ok start
        → (∀ event ∈ trace trackerStep start events, TrackerSound event.before event.call)
        → WholeRecords (leftBehind (finalState trackerStep start events) kept)
        → ∃ again, openTracker (leftBehind (finalState trackerStep start events) kept) = .ok again
          ∧ ∀ event ∈ trace trackerStep start events, ∀ u, event.outcome = .ok (some u)
            → ∃ now, again.current.lookup u.obj = some now ∧ u.stage ≤ now) := by
  refine ⟨?_, ?_⟩
  · intro sound
    exact goGate_reflects sound
  · intro opened sound whole
    exact tracker_reflects opened sound whole

theorem openWorkflowGate_nil : openWorkflowGate [] = { disk := [], status := ∅ } := by
  simp [openWorkflowGate]

def freshTracker : Tracker := { file := { disk := [] }, current := ∅ }

/-- The first create fails with one octet of its record in the file, the second is acknowledged. -/
def tornGateRun : List GoWrite :=
  [.call (some 1) (.create [97] true), .call none (.create [98] true)]

/-- The same with two advances. -/
def tornTrackerRun : List TrackerEvent :=
  [.advance (some (.write 1)) [97] 0 0, .advance none [98] 0 0]

theorem recover_empty {σ : Type} {log : CheckedLog σ} {state : σ} {rest : Bytes}
    (refused : log.absorb state [] = none)
    : log.recover ([0, 0, 0, 0] ++ rest) state = (state, []) := by
  by_cases short : ([0, 0, 0, 0] ++ rest).length < 8
  · exact CheckedLog.recover_short short
  · have announced : ofBigEndian (([0, 0, 0, 0] ++ rest).take 4) = 0 := rfl
    rw [CheckedLog.recover, dif_neg short]
    simp only [announced, List.take_zero, refused]
    split <;> rfl

/-- The create that is acknowledged behind the torn record is lost.
Witness: the octet left behind and the length of the next record together announce an empty
record, which is none of the log, so the recovery stops there.
-/
theorem tornGateRun_loses
    : ∃ event ∈ trace goWrite (openWorkflowGate []) tornGateRun,
      ¬ GoReflected event
        (openWorkflowGate (finalState goWrite (openWorkflowGate []) tornGateRun).disk) := by
  rw [openWorkflowGate_nil]
  have torn : (goWrite { disk := [], status := ∅ } (.call (some 1) (.create [97] true))).2
      = { disk := [0], status := ∅ } := rfl
  have created := @goCall_accepted { disk := [0], status := ∅ } (.create [98] true) none _ rfl
    rfl rfl
  have lost : ∀ rest, Go.Channels.gateLog.recover ([0] ++ ([0, 0, 0, 19] ++ rest)) ∅ = (∅, []) :=
    fun rest => @recover_empty _ Go.Channels.gateLog ∅ ([19] ++ rest) rfl
  refine ⟨answer goWrite { disk := [0], status := ∅ } (.call none (.create [98] true)), ?_, ?_⟩
  · simp [tornGateRun, trace, torn]
  · intro reflected
    obtain ⟨status, now, -, found, -⟩ := reflected none _ rfl (congrArg Prod.fst created)
    have disk : (finalState goWrite { disk := [], status := ∅ } tornGateRun).disk
        = [0] ++ Go.Channels.gateLog.frame
          (Go.Channels.taskRecord [98] (goText (initial true))) := by
      simp only [tornGateRun, finalState, List.foldl_cons, torn]
      exact congrArg (fun pair => pair.2.disk) created
    have size : toBigEndian 4 (Go.Channels.taskRecord [98] (goText (initial true))).length
        = [0, 0, 0, 19] := by decide
    simp only [disk, openWorkflowGate, CheckedLog.frame, size, lost, AList.lookup_empty,
      reduceCtorEq] at found

/-- The advance behind the torn record is acknowledged, and the log does not open again.
Witness: the octet left behind shifts the length prefix, and the empty record it then announces
is no update.
-/
theorem tornTrackerRun_fails
    : (∃ event ∈ trace trackerStep freshTracker tornTrackerRun,
        event.outcome = .ok (some { obj := [98], stage := 0, time := 0 }))
      ∧ ∃ err, openTracker (leftBehind (finalState trackerStep freshTracker tornTrackerRun) 0)
        = .error err := by
  have torn : (trackerStep freshTracker (.advance (some (.write 1)) [97] 0 0)).2
      = { file := { disk := [0] }, current := ∅ } := rfl
  have advanced : trackerStep { file := { disk := [0] }, current := ∅ } (.advance none [98] 0 0)
      = (.ok (some { obj := [98], stage := 0, time := 0 }),
        { file := { disk := [0, 0, 0, 0, 8, 163, 1, 65, 98, 2, 0, 3, 0] }
          current := (∅ : Stages).insert [98] 0 }) := rfl
  refine ⟨⟨answer trackerStep { file := { disk := [0] }, current := ∅ } (.advance none [98] 0 0),
    ?_, congrArg Prod.fst advanced⟩, ?_⟩
  · simp [tornTrackerRun, trace, torn]
  · simp only [tornTrackerRun, finalState, List.foldl_cons, List.foldl_nil, torn, advanced,
      leftBehind]
    have empty : ([] : Bytes).length < 2 ^ 32 := by decide
    have read := @LogReader.replay_frame _ _ trackerReader ∅ []
      [8, 163, 1, 65, 98, 2, 0, 3, 0] empty
    have refused : ∃ err, trackerReader.absorb ∅ [] = .error err := ⟨_, rfl⟩
    obtain ⟨err, refused⟩ := refused
    rw [refused, error_bind] at read
    refine ⟨err, ?_⟩
    rw [openTracker, show ([0, 0, 0, 0, 8, 163, 1, 65, 98, 2, 0, 3, 0] ++ List.take 0 [] : Bytes)
      = frame [] ++ [8, 163, 1, 65, 98, 2, 0, 3, 0] from rfl, read]
    rfl

/-- A failed write loses what both stores acknowledge after it. -/
theorem torn_record_loses
    : (∃ event ∈ trace goWrite (openWorkflowGate []) tornGateRun,
        ¬ GoReflected event
          (openWorkflowGate (finalState goWrite (openWorkflowGate []) tornGateRun).disk))
      ∧ (∃ event ∈ trace trackerStep freshTracker tornTrackerRun,
          event.outcome = .ok (some { obj := [98], stage := 0, time := 0 }))
      ∧ ∃ err, openTracker (leftBehind (finalState trackerStep freshTracker tornTrackerRun) 0)
        = .error err :=
  ⟨tornGateRun_loses, tornTrackerRun_fails⟩

/-- The torn record is cut by a reopening before the next create. -/
def mendedGateRun : List GoWrite :=
  [.call (some 1) (.create [97] true), .reopen, .call none (.create [98] true)]

/-- The flush of the first advance fails, and the next writes out its rest. -/
def mendedTrackerRun : List TrackerEvent :=
  [.advance (some (.flush 1)) [97] 0 0, .advance none [98] 0 0]

/-- Two runs with faults whose steps all meet the condition: the torn record of the gate is cut
off, the flush of the tracker tears none.
-/
theorem mended_runs_found_again
    : (∀ event ∈ trace goWrite (openWorkflowGate []) mendedGateRun,
        GoReflected event
          (openWorkflowGate (finalState goWrite (openWorkflowGate []) mendedGateRun).disk))
      ∧ ∃ again,
        openTracker (leftBehind (finalState trackerStep freshTracker mendedTrackerRun) 0)
          = .ok again
        ∧ ∀ event ∈ trace trackerStep freshTracker mendedTrackerRun, ∀ u,
          event.outcome = .ok (some u)
          → ∃ now, again.current.lookup u.obj = some now ∧ u.stage ≤ now := by
  obtain ⟨gate, tracker⟩ :=
    acknowledged_found_again [] mendedGateRun freshTracker mendedTrackerRun 0
  refine ⟨gate ?_, tracker ?_ ?_ ?_⟩
  · have fits : ∀ task : Bytes, task = [97] ∨ task = [98]
        → ReadsBack task (goText (initial true)) := by
      rintro task (rfl | rfl)
      · exact ⟨by decide, by decide⟩
      · exact ⟨by decide, by decide⟩
    have torn : (goWrite { disk := [], status := ∅ } (.call (some 1) (.create [97] true))).2
        = { disk := [0], status := ∅ } := rfl
    have mended
        : (goWrite { disk := [0], status := ∅ } .reopen).2 = { disk := [], status := ∅ } := by
      simp [goWrite, openWorkflowGate, CheckedLog.recover_short]
    have whole : GoWhole { disk := [], status := ∅ } := by simp [GoWhole]
    rw [openWorkflowGate_nil]
    simp only [mendedGateRun, trace, torn, mended, answer, List.forall_mem_cons, GoSound]
    exact ⟨fun _ => ⟨whole, fits _ (.inl rfl)⟩, trivial, fun _ => ⟨whole, fits _ (.inr rfl)⟩,
      by simp⟩
  · exact openTracker_eq_ok LogReader.replay_nil
  · simp only [mendedTrackerRun, trace, answer, List.forall_mem_cons, TrackerSound, Tears]
    exact ⟨fun _ _ => id, fun _ _ => id, by simp⟩
  · refine ⟨[[163, 1, 65, 97, 2, 0, 3, 0], [163, 1, 65, 98, 2, 0, 3, 0]], rfl, by simp⟩

end Naalp.Stores
