import Naalp.Stores.StageRuns

/-! Which stages the delivery trackers come to hold. No implementation compares a stage with the
four that are defined, neither in an advance nor in a record of the log.
-/

namespace Naalp.Stores

open Naalp.Foundation
open Naalp.Python
open Naalp.Python.Approval (Fault)
open Naalp.Python.Cbor
open Naalp.Python.Delivery

attribute [local instance] wordOrder

-----------------------------------------------------------------------------------------
-- Defined stages
-----------------------------------------------------------------------------------------

section Vocabulary

variable {σ α ν ε ο : Type} [LinearOrder ν] [OfNat ν 0] [OfNat ν 3]

/-- The stages from `persisted_origin` to `presented`. -/
def Defined (stage : ν) : Prop := 0 ≤ stage ∧ stage ≤ 3

/-- Every tracked stage is defined, and every tracked object still takes a defined stage. -/
structure InVocabulary (marks : σ → Bytes → Option ν) (advance : σ → Bytes → ν → ν → Except ε ο)
    (state : σ) : Prop where
  defined : Within marks Defined state
  unblocked : ∀ obj cur, marks state obj = some cur
    → ∃ stage, Defined stage ∧ ∀ time, ∃ u, advance state obj stage time = .ok u

/-- The last record of each object in the log is of a defined stage. -/
def LogDefined (reads : Bytes → α → Prop) (pair : α → Bytes × ν) (disk : Bytes) : Prop :=
  ∀ updates, LogHolds reads disk updates → ∀ obj stage, LastFor (updates.map pair) obj stage
    → Defined stage

variable {marks : σ → Bytes → Option ν} {advance : σ → Bytes → ν → ν → Except ε ο} {state : σ}

theorem inVocabulary_iff
    (repeats : ∀ obj cur, marks state obj = some cur → ∀ time, ∃ u,
      advance state obj cur time = .ok u)
    : InVocabulary marks advance state ↔ Within marks Defined state :=
  ⟨fun vocabulary => vocabulary.defined, fun within =>
    ⟨within, fun obj cur held => ⟨cur, within obj cur held, repeats obj cur held⟩⟩⟩

variable {reads : Bytes → α → Prop} {pair : α → Bytes × ν}
  {reader : LogReader ε (AList fun _ : Bytes => ν)}

/-- The stages that opening a log leaves are defined exactly when the last one of each object is. -/
theorem within_opened_iff
    (absorbs : ∀ marks record after, reader.absorb marks record = .ok after
      ↔ ∃ u, reads record u ∧ after = keepMark marks (pair u))
    {disk : Bytes} {current : AList fun _ : Bytes => ν} (read : reader.replay disk ∅ = .ok current)
    (same : ∀ obj, marks state obj = current.lookup obj)
    : Within marks Defined state ↔ LogDefined reads pair disk := by
  obtain ⟨⟨updates, holds⟩, last⟩ := marks_of_log absorbs read
  constructor
  · intro within updates holds obj stage lastFor
    exact within obj stage ((same obj).trans ((last updates holds obj stage).mpr lastFor))
  · intro defined obj stage held
    exact defined updates holds obj stage
      ((last updates holds obj stage).mp ((same obj).symm.trans held))

end Vocabulary

/-- An advance of a tracker, whose write may meet a fault. -/
structure Advance (φ ν : Type) where
  fault : Option φ
  obj : Bytes
  stage : ν
  time : ν

theorem beyond_defined {stage : UInt64} (undefined : ¬ Defined stage) {cur : UInt64}
    (defined : Defined cur) : cur < stage := by
  have above : ¬ stage ≤ 3 := fun below => undefined ⟨UInt64.zero_le, below⟩
  exact defined.2.trans_lt (not_le.mp above)

-----------------------------------------------------------------------------------------
-- Python
-----------------------------------------------------------------------------------------

def pythonAdvance (t : Tracker) (call : Advance Fault Int) : Py DeliveryUpdate × Tracker :=
  t.advance call.fault call.obj call.stage call.time

def pythonReport (t : Tracker) (obj : Bytes) (stage time : Int) : Py DeliveryUpdate :=
  (t.advance none obj stage time).1

/-- The advance can be written: it meets no fault, and its record can be made. -/
def PythonWritten (call : Advance Fault Int) : Prop :=
  PythonRecords call.fault { obj := call.obj, stage := call.stage, time := call.time }

def PythonOpen (t : Tracker) : Prop := t.file.closed = false

/-- An advance leaves the Python tracker open. -/
theorem pythonAdvance_open {t : Tracker} (isOpen : PythonOpen t) (call : Advance Fault Int)
    : PythonOpen (pythonAdvance t call).2 := by
  rcases advance_cases t call.fault call.obj call.stage call.time with
    ⟨err, refused⟩ | ⟨-, repeats⟩ | ⟨framed, -, -, -, written⟩
  · rw [pythonAdvance, refused]
    exact isOpen
  · rw [pythonAdvance, repeats]
    exact isOpen
  · have still : (writeThrough t.file framed call.fault).2.closed = false := by
      simp only [writeThrough, show t.file.closed = false from isOpen, Bool.false_eq_true, if_false]
      cases call.fault with
      | none => rfl
      | some fault => cases fault <;> rfl
    rw [pythonAdvance, written]
    cases outcome : writeThrough t.file framed call.fault with
    | mk result file =>
        rw [outcome] at still
        cases result <;> exact still

theorem python_reports
    : Reports pythonAdvance pythonMarks stageOutOfOrder Advance.obj Advance.stage PythonWritten
        PythonOpen where
  stays _ call isOpen := pythonAdvance_open isOpen call
  reported _ call isOpen := pythonAdvance_reported isOpen call.fault call.obj call.stage call.time

theorem pythonWritten_nonneg {call : Advance Fault Int} (written : PythonWritten call)
    : 0 ≤ call.stage := by
  obtain ⟨-, framed, recorded⟩ := written
  obtain ⟨record, encoded, -, -⟩ := updateRecord_eq_ok.mp recorded
  have members : Encodable (.m (numbered 1 [.b call.obj, .u call.stage, .u call.time])) ↔ _ :=
    encodable_numbered (by simp)
  exact (encodable_u.mp (members.mp (encode_eq_ok.mp encoded).1 _ (by simp))).1

def pythonAbsorbs (record : Bytes) (u : DeliveryUpdate) : Prop := parseUpdate record = .ok u

/-- A tracker that was opened holds defined stages exactly when its log does. -/
theorem python_opened_iff {disk : Bytes} {start : Tracker} (opened : openTracker disk = .ok start)
    : Within pythonMarks Defined start
      ↔ LogDefined pythonAbsorbs (fun u => (u.obj, u.stage)) disk := by
  obtain ⟨current, read, same⟩ := bind_eq_ok.mp opened
  obtain rfl := Except.ok.inj same
  refine within_opened_iff ?_ read (fun _ => rfl)
  intro marks record after
  simp only [trackerReader, absorbUpdate, bind_eq_ok, pure_eq_ok, Except.ok.injEq, pythonAbsorbs,
    keepMark]
  exact exists_congr fun u => and_congr_right fun _ => eq_comm

theorem python_vocabulary_iff {t : Tracker} (isOpen : PythonOpen t)
    : InVocabulary pythonMarks pythonReport t
      ↔ Within pythonMarks Defined t :=
  inVocabulary_iff fun obj cur held time =>
    ((pythonAdvance_reported isOpen none obj cur time).again held).1

/-- In Python the tracked stages are defined throughout a run exactly when the last record of each
object in the log and every advance that is written are of a defined stage.
-/
theorem python_run_iff {disk : Bytes} {start : Tracker} (opened : openTracker disk = .ok start)
    (calls : List (Advance Fault Int))
    : (Within pythonMarks Defined start
        ∧ ∀ event ∈ trace pythonAdvance start calls, Within pythonMarks Defined event.after)
      ↔ LogDefined pythonAbsorbs (fun u => (u.obj, u.stage)) disk
        ∧ ∀ call ∈ calls, PythonWritten call → Defined call.stage := by
  have isOpen : PythonOpen start := by
    rw [PythonOpen, pythonDurable_file (pythonDurable_of_opens opened)]
  have beyond : ∀ call, PythonWritten call → ¬ Defined call.stage
      → ∀ cur : Int, Defined cur → cur < call.stage := by
    intro call written undefined cur defined
    have above : ¬ call.stage ≤ 3 := fun below => undefined ⟨pythonWritten_nonneg written, below⟩
    exact defined.2.trans_lt (not_le.mp above)
  rw [← python_opened_iff opened]
  exact and_congr_right fun within => python_reports.within_iff beyond isOpen within calls

-----------------------------------------------------------------------------------------
-- Go
-----------------------------------------------------------------------------------------

def goAdvance (t : Go.Delivery.Tracker) (call : Advance Nat UInt64)
    : Except Go.Channels.Failure Go.Delivery.DeliveryUpdate × Go.Delivery.Tracker :=
  t.advance call.fault call.obj call.stage call.time

def goReport (t : Go.Delivery.Tracker) (obj : Bytes) (stage time : UInt64)
    : Except Go.Channels.Failure Go.Delivery.DeliveryUpdate :=
  (t.advance none obj stage time).1

def GoOpen (t : Go.Delivery.Tracker) : Prop := t.closed = false

theorem goPersist_open {t : Go.Delivery.Tracker} (isOpen : GoOpen t) (fault : Option Nat)
    (u : Go.Delivery.DeliveryUpdate) : GoOpen (t.persist fault u).2 := by
  simp only [Go.Delivery.Tracker.persist, show t.closed = false from isOpen]
  cases fault <;> rfl

/-- An advance leaves the Go tracker open. -/
theorem goAdvance_open {t : Go.Delivery.Tracker} (isOpen : GoOpen t) (call : Advance Nat UInt64)
    : GoOpen (goAdvance t call).2 := by
  unfold goAdvance Go.Delivery.Tracker.advance
  split
  · split_ifs
    · exact isOpen
    · exact isOpen
    · exact goPersist_open isOpen _ _
  · exact goPersist_open isOpen _ _

theorem go_reports
    : Reports goAdvance goMarks Go.Delivery.errStageOutOfOrder Advance.obj Advance.stage
        (fun call => call.fault = none) GoOpen where
  stays _ call isOpen := goAdvance_open isOpen call
  reported _ call isOpen := goAdvance_reported isOpen call.fault call.obj call.stage call.time

def goAbsorbs (record : Bytes) (u : Go.Delivery.DeliveryUpdate) : Prop :=
  Go.Delivery.parseUpdate record = .ok u

/-- The same of a Go tracker that was opened. -/
theorem go_opened_iff {disk : Bytes} {start : Go.Delivery.Tracker}
    (opened : Go.Delivery.openTracker disk = .ok start)
    : Within goMarks Defined start ↔ LogDefined goAbsorbs (fun u => (u.obj, u.stage)) disk := by
  obtain ⟨current, read, same⟩ := bind_eq_ok.mp opened
  obtain rfl := Except.ok.inj same
  refine within_opened_iff ?_ read (fun _ => rfl)
  intro marks record after
  simp only [Go.Delivery.trackerReader, Go.Delivery.absorbUpdate, bind_eq_ok, mapError_eq_ok,
    pure_eq_ok, Except.ok.injEq, goAbsorbs, keepMark]
  exact exists_congr fun u => and_congr_right fun _ => eq_comm

theorem go_vocabulary_iff {t : Go.Delivery.Tracker} (isOpen : GoOpen t)
    : InVocabulary goMarks goReport t
      ↔ Within goMarks Defined t :=
  inVocabulary_iff fun obj cur held time =>
    ((goAdvance_reported isOpen none obj cur time).again held).1

theorem go_run_iff {disk : Bytes} {start : Go.Delivery.Tracker}
    (opened : Go.Delivery.openTracker disk = .ok start) (calls : List (Advance Nat UInt64))
    : (Within goMarks Defined start
        ∧ ∀ event ∈ trace goAdvance start calls, Within goMarks Defined event.after)
      ↔ LogDefined goAbsorbs (fun u => (u.obj, u.stage)) disk
        ∧ ∀ call ∈ calls, call.fault = none → Defined call.stage := by
  rw [← go_opened_iff opened]
  refine and_congr_right fun within => ?_
  exact go_reports.within_iff (fun _ _ undefined _ => beyond_defined undefined)
    (goDurable_open (goDurable_of_opens opened)) within calls

-----------------------------------------------------------------------------------------
-- Rust
-----------------------------------------------------------------------------------------

def rustMarks (t : Rust.Delivery.Tracker) (obj : Bytes) : Option UInt64 := t.current.lookup obj

def rustAdvance (t : Rust.Delivery.Tracker) (u : Rust.Delivery.DeliveryUpdate)
    : Except Rust.Failure Rust.Delivery.DeliveryUpdate × Rust.Delivery.Tracker :=
  t.advance u.obj u.stage u.at_

def rustReport (t : Rust.Delivery.Tracker) (obj : Bytes) (stage time : UInt64)
    : Except Rust.Failure Rust.Delivery.DeliveryUpdate :=
  (t.advance obj stage time).1

def rustOutOfOrder : Rust.Failure := .cose Rust.Delivery.errStageOutOfOrder

/-- Writing an update in Rust appends its frame and sets the stage. -/
theorem rustPersist (t : Rust.Delivery.Tracker) (u : Rust.Delivery.DeliveryUpdate)
    : ∃ record, t.persist u
      = (.ok u, { disk := t.disk ++ frame record, current := t.current.insert u.obj u.stage }) := by
  obtain ⟨record, encoded⟩ : ∃ record, Go.Cbor.encode
      (Go.Delivery.updateValue ⟨u.obj, u.stage, u.at_⟩) = .ok record :=
    ⟨_, goEncode_updateValue _⟩
  refine ⟨record, ?_⟩
  rw [Rust.Delivery.Tracker.persist, Rust.Delivery.DeliveryUpdate.bytes, Rust.Cbor.encode,
    show Rust.Delivery.updateValue u = Go.Delivery.updateValue ⟨u.obj, u.stage, u.at_⟩ from rfl,
    encoded]
  rfl

theorem rustPersist_reported {t : Rust.Delivery.Tracker} {u : Rust.Delivery.DeliveryUpdate}
    (higher : ∀ cur, rustMarks t u.obj = some cur → cur < u.stage)
    : Reported rustMarks rustOutOfOrder True t u.obj u.stage (t.persist u).1 (t.persist u).2 := by
  obtain ⟨record, persisted⟩ := rustPersist t u
  rw [persisted]
  exact .raised u higher trivial (lookup_insert_update t.current u.obj u.stage)

/-- What an advance reports and leaves in Rust. -/
theorem rustAdvance_reported (t : Rust.Delivery.Tracker) (u : Rust.Delivery.DeliveryUpdate)
    : Reported rustMarks rustOutOfOrder True t u.obj u.stage (rustAdvance t u).1
        (rustAdvance t u).2 := by
  unfold rustAdvance Rust.Delivery.Tracker.advance
  cases held : t.current.lookup u.obj with
  | none =>
      refine rustPersist_reported ?_
      intro cur found
      exact absurd (held.symm.trans found) nofun
  | some cur =>
      dsimp only
      split_ifs with lower same
      · exact .refused held lower
      · exact .repeated _ (same ▸ held)
      · refine rustPersist_reported ?_
        intro other found
        obtain rfl : cur = other := Option.some.inj (held.symm.trans found)
        exact lt_of_le_of_ne (not_lt.mp lower) (Ne.symm same)

theorem rust_reports
    : Reports rustAdvance rustMarks rustOutOfOrder (·.obj) (·.stage) (fun _ => True)
        (fun _ => True) where
  stays _ _ _ := trivial
  reported t u _ := rustAdvance_reported t u

section Rust

variable (valueSize : Nat)

def rustAbsorbs (record : Bytes) (u : Rust.Delivery.DeliveryUpdate) : Prop :=
  Rust.Delivery.parseUpdate valueSize record = .ok u

variable {valueSize}

/-- The same of a Rust tracker that was opened. -/
theorem rust_opened_iff {disk : Bytes} {start : Rust.Delivery.Tracker}
    (opened : Rust.Delivery.openTracker valueSize disk = .ok start)
    : Within rustMarks Defined start
      ↔ LogDefined (rustAbsorbs valueSize) (fun u => (u.obj, u.stage)) disk := by
  obtain ⟨current, read, same⟩ := bind_eq_ok.mp opened
  obtain rfl := Except.ok.inj same
  refine within_opened_iff ?_ read (fun _ => rfl)
  intro marks record after
  simp only [Rust.walReader, Rust.Delivery.absorbUpdate, mapError_eq_ok, bind_eq_ok, pure_eq_ok,
    Except.ok.injEq, rustAbsorbs, keepMark]
  exact exists_congr fun u => and_congr_right fun _ => eq_comm

theorem rust_run_iff {disk : Bytes} {start : Rust.Delivery.Tracker}
    (opened : Rust.Delivery.openTracker valueSize disk = .ok start)
    (calls : List Rust.Delivery.DeliveryUpdate)
    : (Within rustMarks Defined start
        ∧ ∀ event ∈ trace rustAdvance start calls, Within rustMarks Defined event.after)
      ↔ LogDefined (rustAbsorbs valueSize) (fun u => (u.obj, u.stage)) disk
        ∧ ∀ call ∈ calls, Defined call.stage := by
  rw [← rust_opened_iff opened]
  refine and_congr_right fun within => ?_
  rw [rust_reports.within_iff (fun _ _ undefined _ => beyond_defined undefined) trivial within
    calls]
  simp

end Rust

-----------------------------------------------------------------------------------------
-- The three implementations
-----------------------------------------------------------------------------------------

/-- In all states of a run that keeps what the statement assumes, one predicate holds when the other
does.
-/
theorem run_congr {σ ι ο : Type} {step : σ → ι → ο × σ} {ready left right : σ → Prop}
    (same : ∀ state, ready state → (left state ↔ right state))
    (stays : ∀ state call, ready state → ready (step state call).2) {start : σ}
    (isReady : ready start) (calls : List ι)
    : (left start ∧ ∀ event ∈ trace step start calls, left event.after)
      ↔ right start ∧ ∀ event ∈ trace step start calls, right event.after := by
  have after : ∀ event ∈ trace step start calls, left event.after ↔ right event.after := by
    intro event member
    obtain ⟨before, -, answered⟩ := mem_trace (fun state call (_ : True) => stays state call)
      isReady (fun _ _ => trivial) member
    refine same _ ?_
    rw [answered]
    exact stays _ _ before
  exact and_congr (same start isReady) (forall₂_congr after)

/-- In each implementation the tracked stages stay in the vocabulary throughout a run, from any log
that opens, exactly when the last record of each object in the log and every advance that is written
are of a defined stage.
Witness: the three trackers keep the highest stage of each object, so the general result about
high-water marks decides, from the stages that the log is replayed to.
-/
theorem stages_in_vocabulary_iff (valueSize : Nat) (disk : Bytes)
    (pythonCalls : List (Advance Fault Int)) (goCalls : List (Advance Nat UInt64))
    (rustCalls : List Rust.Delivery.DeliveryUpdate)
    : (∀ start, openTracker disk = .ok start
        → ((InVocabulary pythonMarks pythonReport start
            ∧ ∀ event ∈ trace pythonAdvance start pythonCalls,
              InVocabulary pythonMarks pythonReport
                event.after)
          ↔ LogDefined pythonAbsorbs (fun u => (u.obj, u.stage)) disk
            ∧ ∀ call ∈ pythonCalls, PythonWritten call → Defined call.stage))
      ∧ (∀ start, Go.Delivery.openTracker disk = .ok start
        → ((InVocabulary goMarks goReport start
            ∧ ∀ event ∈ trace goAdvance start goCalls,
              InVocabulary goMarks goReport
                event.after)
          ↔ LogDefined goAbsorbs (fun u => (u.obj, u.stage)) disk
            ∧ ∀ call ∈ goCalls, call.fault = none → Defined call.stage))
      ∧ ∀ start, Rust.Delivery.openTracker valueSize disk = .ok start
        → ((InVocabulary rustMarks rustReport start
            ∧ ∀ event ∈ trace rustAdvance start rustCalls,
              InVocabulary rustMarks rustReport event.after)
          ↔ LogDefined (rustAbsorbs valueSize) (fun u => (u.obj, u.stage)) disk
            ∧ ∀ call ∈ rustCalls, Defined call.stage) := by
  refine ⟨?_, ?_, ?_⟩
  · intro start opened
    have isOpen : PythonOpen start := by
      rw [PythonOpen, pythonDurable_file (pythonDurable_of_opens opened)]
    have same : ∀ t, PythonOpen t
        → (InVocabulary pythonMarks pythonReport t ↔ Within pythonMarks Defined t) :=
      fun _ isOpen => python_vocabulary_iff isOpen
    exact (run_congr same (fun _ call isOpen => pythonAdvance_open isOpen call) isOpen
      pythonCalls).trans (python_run_iff opened pythonCalls)
  · intro start opened
    have isOpen : GoOpen start := goDurable_open (goDurable_of_opens opened)
    have same : ∀ t, GoOpen t → (InVocabulary goMarks goReport t ↔ Within goMarks Defined t) :=
      fun _ isOpen => go_vocabulary_iff isOpen
    exact (run_congr same (fun _ call isOpen => goAdvance_open isOpen call) isOpen goCalls).trans
      (go_run_iff opened goCalls)
  · intro start opened
    have same : ∀ t, True → (InVocabulary rustMarks rustReport t ↔ Within rustMarks Defined t) :=
      fun t _ => inVocabulary_iff fun obj cur held time =>
        ((rustAdvance_reported t ⟨obj, cur, time⟩).again held).1
    exact (run_congr same (fun _ _ _ => trivial) trivial rustCalls).trans
      (rust_run_iff opened rustCalls)

theorem rustOpens_nil (valueSize : Nat)
    : Rust.Delivery.openTracker valueSize [] = .ok { disk := [], current := ∅ } := by
  rw [Rust.Delivery.openTracker, LogReader.replay_nil]
  rfl

/-- Nothing is read from an empty log. -/
theorem logDefined_nil {α ν : Type} [LinearOrder ν] [OfNat ν 0] [OfNat ν 3]
    (reads : Bytes → α → Prop) (pair : α → Bytes × ν)
    : LogDefined reads pair [] := by
  intro updates holds obj stage lastFor
  obtain ⟨records, tail, split, -, -, reads⟩ := holds
  obtain ⟨framed, -⟩ := List.append_eq_nil_iff.mp split.symm
  cases reads with
  | nil =>
      obtain ⟨before, after, none, -⟩ := lastFor
      exact absurd none.symm (List.append_ne_nil_of_right_ne_nil _ (List.cons_ne_nil _ _))
  | @cons record _ records _ _ _ =>
      have length := congrArg List.length framed
      rw [List.flatMap_cons, List.length_append, length_frame] at length
      simp at length

/-- A stage of the vocabulary, advanced to in all three implementations. -/
theorem stages_in_vocabulary_iff_sample
    : (InVocabulary pythonMarks pythonReport freshTracker
        ∧ ∀ event ∈ trace pythonAdvance freshTracker [⟨none, [1], 3, 0⟩],
          InVocabulary pythonMarks pythonReport event.after)
      ∧ (InVocabulary goMarks goReport { disk := [], current := ∅ }
        ∧ ∀ event ∈ trace goAdvance { disk := [], current := ∅ } [⟨none, [1], 3, 0⟩],
          InVocabulary goMarks goReport event.after)
      ∧ InVocabulary rustMarks rustReport { disk := [], current := ∅ }
        ∧ ∀ event ∈ trace rustAdvance { disk := [], current := ∅ } [⟨[1], 3, 0⟩],
          InVocabulary rustMarks rustReport event.after := by
  obtain ⟨python, go, rust⟩ := stages_in_vocabulary_iff 40 [] [⟨none, [1], 3, 0⟩]
    [⟨none, [1], 3, 0⟩] [⟨[1], 3, 0⟩]
  have last : Defined (3 : Int) ∧ Defined (3 : UInt64) := by
    simp only [Defined]
    decide
  refine ⟨(python _ (openTracker_eq_ok LogReader.replay_nil)).mpr ⟨logDefined_nil _ _, ?_⟩,
    (go _ goOpens_nil).mpr ⟨logDefined_nil _ _, ?_⟩,
    (rust _ (rustOpens_nil 40)).mpr ⟨logDefined_nil _ _, ?_⟩⟩
  · rw [List.forall_mem_singleton]
    exact fun _ => last.1
  · rw [List.forall_mem_singleton]
    exact fun _ => last.2
  · rw [List.forall_mem_singleton]
    exact last.2

theorem lower_than_four {stage : UInt64} (defined : Defined stage) : stage < 4 :=
  defined.2.trans_lt (by decide)

/-- The trackers take the stage four, and then refuse every defined stage. -/
theorem undefined_stage_tracked
    : (∃ event ∈ trace pythonAdvance freshTracker [⟨none, [1], 4, 0⟩],
        pythonMarks event.after [1] = some 4
          ∧ ∀ stage, Defined stage → ∀ time,
            pythonReport event.after [1] stage time = .error stageOutOfOrder)
      ∧ (∃ event ∈ trace goAdvance { disk := [], current := ∅ } [⟨none, [1], 4, 0⟩],
        goMarks event.after [1] = some 4
          ∧ ∀ stage, Defined stage → ∀ time,
            goReport event.after [1] stage time = .error Go.Delivery.errStageOutOfOrder)
      ∧ ∃ event ∈ trace rustAdvance { disk := [], current := ∅ } [⟨[1], 4, 0⟩],
        rustMarks event.after [1] = some 4
          ∧ ∀ stage, Defined stage → ∀ time,
            rustReport event.after [1] stage time = .error rustOutOfOrder := by
  refine ⟨⟨_, List.mem_singleton_self _, rfl, ?_⟩, ⟨_, List.mem_singleton_self _, rfl, ?_⟩,
    ⟨_, List.mem_singleton_self _, ?_⟩⟩
  · intro stage defined time
    have lower : stage < 4 := defined.2.trans_lt (by decide)
    exact ((pythonAdvance_reported rfl none [1] stage time).lower rfl lower).1
  · intro stage defined time
    exact ((goAdvance_reported rfl none [1] stage time).lower rfl (lower_than_four defined)).1
  · obtain ⟨record, persisted⟩ := rustPersist { disk := [], current := ∅ } ⟨[1], 4, 0⟩
    have answered : (rustAdvance { disk := [], current := ∅ } ⟨[1], 4, 0⟩).2
        = { disk := [] ++ frame record, current := (∅ : Rust.Delivery.Stages).insert [1] 4 } :=
      congrArg Prod.snd persisted
    simp only [answer, answered]
    refine ⟨rfl, fun stage defined time => ?_⟩
    exact ((rustAdvance_reported _ ⟨[1], stage, time⟩).lower rfl (lower_than_four defined)).1

end Naalp.Stores
