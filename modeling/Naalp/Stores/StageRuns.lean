import Naalp.Foundation.HighWater
import Naalp.Go.Delivery
import Naalp.Stores.FailedWrites
import Naalp.Stores.TornLogs

/-! The delivery trackers over calls that are written and over reopenings: stages only rise, and the
log gives back the stages of the memory.
-/

namespace Naalp.Stores

open Naalp.Foundation
open Naalp.Python
open Naalp.Python.Approval (Fault)
open Naalp.Python.Cbor
open Naalp.Python.Delivery

attribute [local instance] wordOrder

-----------------------------------------------------------------------------------------
-- Advances
-----------------------------------------------------------------------------------------

def pythonMarks (t : Tracker) (obj : Bytes) : Option Int := t.current.lookup obj

def goMarks (t : Go.Delivery.Tracker) (obj : Bytes) : Option UInt64 := t.current.lookup obj

/-- An update that an advance without a fault can write. -/
def PythonRecords (fault : Option Fault) (u : DeliveryUpdate) : Prop :=
  fault = none ∧ ∃ framed, updateRecord u = .ok framed

/-- What an advance reports and leaves in Python, for an open tracker.
Witness: the stage is lower, the same or higher; only a higher one is written, and then the
write decides.
-/
theorem pythonAdvance_reported {t : Tracker} (isOpen : t.file.closed = false)
    (fault : Option Fault) (obj : Bytes) (stage time : Int)
    : Reported pythonMarks stageOutOfOrder (PythonRecords fault { obj, stage, time }) t obj stage
        (t.advance fault obj stage time).1 (t.advance fault obj stage time).2 := by
  unfold Tracker.advance
  dsimp only
  split_ifs with regressed same
  · cases held : t.current.lookup obj with
    | none => simp [held] at regressed
    | some cur => exact .refused held (by simpa [held] using regressed)
  · exact .repeated _ same
  · have higher : ∀ cur, pythonMarks t obj = some cur → cur < stage := by
      intro cur held
      have lookup : t.current.lookup obj = some cur := held
      simp only [lookup, Option.any_some, decide_eq_true_eq, not_lt] at regressed
      simp only [lookup, Option.some.injEq] at same
      omega
    cases packed : updateRecord { obj, stage, time } with
    | error err =>
        refine .failed err higher ?_ rfl
        intro able
        obtain ⟨-, framed, recorded⟩ := able
        cases packed.symm.trans recorded
    | ok framed =>
        simp only [writeThrough, isOpen]
        cases fault with
        | none =>
            exact .raised _ higher ⟨rfl, framed, packed⟩ (lookup_insert_update t.current obj stage)
        | some fault =>
            have unable : ¬ PythonRecords (some fault) { obj, stage, time } :=
              fun able => by cases able.1
            cases fault <;> exact .failed _ higher unable rfl

/-- What both branches of an advance come to that writes. -/
theorem goPersist_reported {t : Go.Delivery.Tracker} (isOpen : t.closed = false)
    (fault : Option Nat) (u : Go.Delivery.DeliveryUpdate)
    (higher : ∀ cur, goMarks t u.obj = some cur → cur < u.stage)
    : Reported goMarks Go.Delivery.errStageOutOfOrder (fault = none) t u.obj u.stage
        (t.persist fault u).1 (t.persist fault u).2 := by
  simp only [Go.Delivery.Tracker.persist, isOpen]
  cases fault with
  | none => exact .raised u higher rfl (lookup_insert_update t.current u.obj u.stage)
  | some count => exact .failed _ higher nofun rfl

/-- What an advance reports and leaves in Go, for an open tracker. -/
theorem goAdvance_reported {t : Go.Delivery.Tracker} (isOpen : t.closed = false)
    (fault : Option Nat) (obj : Bytes) (stage time : UInt64)
    : Reported goMarks Go.Delivery.errStageOutOfOrder (fault = none) t obj stage
        (t.advance fault obj stage time).1 (t.advance fault obj stage time).2 := by
  have persists := goPersist_reported isOpen fault { obj, stage, at_ := time }
  unfold Go.Delivery.Tracker.advance
  cases held : t.current.lookup obj with
  | none =>
      refine persists ?_
      intro cur found
      exact absurd (held.symm.trans found) nofun
  | some cur =>
      dsimp only
      split_ifs with lower same
      · exact .refused held lower
      · exact .repeated _ (same ▸ held)
      · refine persists ?_
        intro other found
        obtain rfl : cur = other := Option.some.inj (held.symm.trans found)
        exact lt_of_le_of_ne (not_lt.mp lower) (Ne.symm same)

-----------------------------------------------------------------------------------------
-- Runs with reopenings
-----------------------------------------------------------------------------------------

/-- A call of a tracker that is written, or its closing and the opening of its log again. -/
inductive StageCall (ν : Type) where
  | advance (obj : Bytes) (stage time : ν)
  | reopen

def pythonStages (t : Tracker) : StageCall Int → Py (Option DeliveryUpdate) × Tracker
  | .advance obj stage time => trackerStep t (.advance none obj stage time)
  | .reopen => trackerStep t (.reopen t.file.pending.length)

def goStages (t : Go.Delivery.Tracker)
    : StageCall UInt64
      → Except Go.Channels.Failure (Option Go.Delivery.DeliveryUpdate) × Go.Delivery.Tracker
  | .advance obj stage time =>
      let (answer, next) := t.advance none obj stage time
      (answer.map some, next)
  | .reopen =>
      match Go.Delivery.openTracker t.close.disk with
      | .ok again => (.ok none, again)
      | .error err => (.error err, t.close)

section Monotone

variable {σ ν ε υ : Type} [LinearOrder ν]

/-- What an event has to be: no stage goes back, a lower one is refused and a repeated one writes
nothing, only the object of the call changes, and the log gives back the stages.
-/
structure DurablyMonotone (marks : σ → Bytes → Option ν) (tooLow : ε)
    (event : Event σ (StageCall ν) (Except ε (Option υ))) : Prop where
  rises : ∀ obj cur, marks event.before obj = some cur
    → ∃ now, marks event.after obj = some now ∧ cur ≤ now
  refuses : ∀ obj stage time cur, event.call = .advance obj stage time
    → marks event.before obj = some cur → stage < cur
    → event.outcome = .error tooLow ∧ event.after = event.before
  repeats : ∀ obj stage time, event.call = .advance obj stage time
    → marks event.before obj = some stage
    → (∃ u, event.outcome = .ok u) ∧ event.after = event.before
  acknowledges : ∀ obj stage time u, event.call = .advance obj stage time
    → event.outcome = .ok u → marks event.after obj = some stage
  others : ∀ obj stage time other, event.call = .advance obj stage time → other ≠ obj
    → marks event.after other = marks event.before other
  reopens : event.call = .reopen
    → (∃ u, event.outcome = .ok u) ∧ marks event.after = marks event.before

variable {marks : σ → Bytes → Option ν} {tooLow : ε} {before after : σ}

/-- An advance that is reported so is durably monotone. -/
theorem DurablyMonotone.of_reported {recordable : Prop} {obj : Bytes} {stage time : ν}
    {outcome : Except ε (Option υ)}
    (reported : Reported marks tooLow recordable before obj stage outcome after)
    : DurablyMonotone marks tooLow { before, call := .advance obj stage time, outcome, after } where
  rises := fun _ _ held => reported.rises held
  refuses := by
    intro obj' stage' time' cur same held lower
    cases same
    exact reported.lower held lower
  repeats := by
    intro obj' stage' time' same held
    cases same
    exact reported.again held
  acknowledges := by
    intro obj' stage' time' u same answered
    cases same
    have answered : outcome = .ok u := answered
    subst answered
    exact reported.answered
  others := by
    intro obj' stage' time' other same different
    cases same
    exact reported.others different
  reopens := nofun

theorem DurablyMonotone.of_reopened (u : Option υ)
    : DurablyMonotone marks tooLow
      { before, call := .reopen, outcome := .ok u, after := before } where
  rises := fun _ cur held => ⟨cur, held, le_refl cur⟩
  refuses := nofun
  repeats := nofun
  acknowledges := nofun
  others := nofun
  reopens := fun _ => ⟨⟨u, rfl⟩, rfl⟩

end Monotone

/-- The log of the tracker opens as the tracker. -/
def PythonDurable (t : Tracker) : Prop := openTracker t.file.disk = .ok t

theorem pythonDurable_file {t : Tracker} (durable : PythonDurable t)
    : t.file = { disk := t.file.disk } := by
  obtain ⟨current, -, same⟩ := bind_eq_ok.mp durable
  rw [← Except.ok.inj same]

theorem pythonDurable_of_opens {disk : Bytes} {t : Tracker} (opened : openTracker disk = .ok t)
    : PythonDurable t := by
  obtain ⟨current, -, same⟩ := bind_eq_ok.mp opened
  obtain rfl := Except.ok.inj same
  exact opened

/-- An advance keeps the tracker in step with its file. -/
theorem pythonDurable_advance {t : Tracker} (durable : PythonDurable t) (obj : Bytes)
    (stage time : Int) : PythonDurable (t.advance none obj stage time).2 := by
  rcases advance_cases t none obj stage time with
    ⟨err, refused⟩ | ⟨-, repeats⟩ | ⟨framed, packed, isOpen, -, written⟩
  · rw [refused]
    exact durable
  · rw [repeats]
    exact durable
  · obtain ⟨record, encoded, short, rfl⟩ := updateRecord_eq_ok.mp packed
    obtain ⟨current, replays, same⟩ := bind_eq_ok.mp durable
    have held : current = t.current := congrArg Tracker.current (Except.ok.inj same)
    have nothing : t.file.pending = [] := by rw [pythonDurable_file durable]
    have through : t.advance none obj stage time = (.ok { obj, stage, time },
        { file := { disk := t.file.disk ++ frame record }
          current := t.current.insert obj stage }) := by
      rw [written]
      simp [writeThrough, isOpen, nothing]
    rw [through, PythonDurable, openTracker, replay_record (held ▸ replays) encoded short]
    rfl

/-- So does every call, and what it reports is durably monotone. -/
theorem pythonStages_durable {t : Tracker} (durable : PythonDurable t) (call : StageCall Int)
    : PythonDurable (pythonStages t call).2
      ∧ DurablyMonotone pythonMarks stageOutOfOrder (answer pythonStages t call) := by
  cases call with
  | advance obj stage time =>
      refine ⟨pythonDurable_advance durable obj stage time, ?_⟩
      have isOpen : t.file.closed = false := by rw [pythonDurable_file durable]
      exact .of_reported ((pythonAdvance_reported isOpen none obj stage time).map some)
  | reopen =>
      have whole : leftBehind t t.file.pending.length = t.file.disk := by
        have nothing : t.file.pending = [] := by rw [pythonDurable_file durable]
        rw [leftBehind, nothing]
        simp
      have opened : pythonStages t .reopen = (.ok none, t) := by
        rw [pythonStages, trackerStep, whole, show openTracker t.file.disk = .ok t from durable]
      rw [answer, opened]
      exact ⟨durable, .of_reopened none⟩

-----------------------------------------------------------------------------------------
-- The Go log
-----------------------------------------------------------------------------------------

open Naalp.Go.Delivery (updateValue)

/-- The octets that Go writes for an update, head by head. -/
theorem goEncode_updateValue (u : Go.Delivery.DeliveryUpdate)
    : Go.Cbor.encode (updateValue u)
      = .ok ([163, 1] ++ (Go.Cbor.encHead 2 u.obj.length ++ u.obj)
        ++ ([2] ++ Go.Cbor.encHead 0 u.stage.toNat) ++ ([3] ++ Go.Cbor.encHead 0 u.at_.toNat)) := by
  have pairs : Go.Cbor.encodePairs [] [(.u 1, .b u.obj), (.u 2, .u u.stage.toNat),
      (.u 3, .u u.at_.toNat)]
      = .ok [([1], Go.Cbor.encHead 2 u.obj.length ++ u.obj),
        ([2], Go.Cbor.encHead 0 u.stage.toNat), ([3], Go.Cbor.encHead 0 u.at_.toNat)] := by
    rfl
  have sorted : ∀ first second third : Bytes,
      Go.Cbor.sortByKey [([1], first), ([2], second), ([3], third)]
        = [([1], first), ([2], second), ([3], third)] := by
    intro first second third
    have ascending : ([1] : Bytes) ≤ [2] ∧ ([2] : Bytes) ≤ [3] := by decide
    simp [Go.Cbor.sortByKey, List.insertionSort, ascending]
  have head : Go.Cbor.encHead 5 3 = [163] := by decide
  rw [updateValue, Go.Cbor.encode, pairs, ok_bind]
  simp only [sorted, List.flatMap_cons, List.flatMap_nil, List.append_nil, List.append_assoc,
    List.length_cons, List.length_nil, Nat.zero_add, Nat.reduceAdd, head, List.cons_append,
    List.nil_append]
  rfl

theorem length_updateBytes (u : Go.Delivery.DeliveryUpdate)
    : u.bytes.length = u.obj.length + (Go.Cbor.encHead 2 u.obj.length).length
      + (Go.Cbor.encHead 0 u.stage.toNat).length + (Go.Cbor.encHead 0 u.at_.toNat).length + 4 := by
  rw [Go.Delivery.DeliveryUpdate.bytes, goEncode_updateValue]
  simp only [Except.toOption, Option.getD_some, List.length_append, List.length_cons,
    List.length_nil]
  omega

/-- An update whose octets are short can be encoded; the Go encoder drops the error of one that
cannot.
-/
theorem goUpdate_encodable {u : Go.Delivery.DeliveryUpdate} (short : u.bytes.length < 2 ^ 32)
    : Encodable (updateValue u) := by
  have objShort := length_updateBytes u
  have members : Encodable (.m (numbered 1 [.b u.obj, .u u.stage.toNat, .u u.at_.toNat])) ↔ _ :=
    encodable_numbered (by simp)
  refine members.mpr ?_
  intro v member
  simp only [List.mem_cons, List.not_mem_nil, or_false] at member
  rcases member with rfl | rfl | rfl
  · exact encodable_b.mpr (by omega)
  · exact encodable_u.mpr (by have := u.stage.toNat_lt; omega)
  · exact encodable_u.mpr (by have := u.at_.toNat_lt; omega)

/-- A record whose length fits its prefix is read back. -/
theorem goParseUpdate_bytes {u : Go.Delivery.DeliveryUpdate} (short : u.bytes.length < 2 ^ 32)
    : Go.Delivery.parseUpdate u.bytes = .ok u := by
  have encodable := goUpdate_encodable short
  have octets : u.bytes = encoding (updateValue u) := by
    rw [Go.Delivery.DeliveryUpdate.bytes, Implementations.goEncode_of_encodable encodable]
    rfl
  have canonical : Canonical unboundedDepth (updateValue u) :=
    @canonical_updateValue ⟨u.obj, u.stage, u.at_⟩ encodable
  have fits : Implementations.NintsFit (updateValue u) := by
    refine .m ?_ ?_
    · simpa using ⟨.u 1, .u 2, .u 3⟩
    · simpa using ⟨.b u.obj, .u u.stage.toNat, .u u.at_.toNat⟩
  have decoded : Go.Cbor.decode (encoding (updateValue u)) = .ok (updateValue u) :=
    Implementations.goDecode_eq_ok.mpr ⟨decode_eq_ok.mpr ⟨canonical, rfl⟩, fits⟩
  rw [octets, Go.Delivery.parseUpdate, decoded]
  simp [updateValue, Go.Delivery.readUpdatePair]

theorem goAbsorb_bytes {current : Go.Delivery.Stages} {u : Go.Delivery.DeliveryUpdate}
    (short : u.bytes.length < 2 ^ 32)
    : Go.Delivery.absorbUpdate current u.bytes = .ok (current.insert u.obj u.stage) := by
  rw [Go.Delivery.absorbUpdate, goParseUpdate_bytes short]
  rfl

theorem goReader_strict : Go.Delivery.trackerReader.shortPrefix ≠ none := by
  simp [Go.Delivery.trackerReader]

/-- The log of the tracker opens as the tracker. -/
def GoDurable (t : Go.Delivery.Tracker) : Prop := Go.Delivery.openTracker t.disk = .ok t

theorem goDurable_of_opens {disk : Bytes} {t : Go.Delivery.Tracker}
    (opened : Go.Delivery.openTracker disk = .ok t)
    : GoDurable t := by
  obtain ⟨current, -, same⟩ := bind_eq_ok.mp opened
  obtain rfl := Except.ok.inj same
  exact opened

theorem goDurable_open {t : Go.Delivery.Tracker} (durable : GoDurable t) : t.closed = false := by
  obtain ⟨current, -, same⟩ := bind_eq_ok.mp durable
  rw [← Except.ok.inj same]

/-- Writing a short record keeps the Go tracker in step with its file. -/
theorem goDurable_persist {t : Go.Delivery.Tracker} (durable : GoDurable t)
    {u : Go.Delivery.DeliveryUpdate} (short : u.bytes.length < 2 ^ 32)
    : GoDurable (t.persist none u).2 := by
  obtain ⟨current, replays, same⟩ := bind_eq_ok.mp durable
  have held : current = t.current := congrArg Go.Delivery.Tracker.current (Except.ok.inj same)
  have isOpen := goDurable_open durable
  have read : Go.Delivery.trackerReader.replay (t.disk ++ frame u.bytes) ∅
      = .ok (t.current.insert u.obj u.stage) := by
    rw [LogReader.replay_append goReader_strict replays, ← List.append_nil (frame u.bytes),
      LogReader.replay_frame short]
    refine (congrArg (· >>= _) (goAbsorb_bytes short)).trans ?_
    rw [held]
    exact LogReader.replay_nil
  simp only [GoDurable, Go.Delivery.Tracker.persist, isOpen]
  rw [if_neg Bool.false_ne_true, Go.Delivery.openTracker, read]
  rfl

/-- The condition on a call: the record of an advance that is written has fewer than 2^32 octets. -/
def RecordFits (t : Go.Delivery.Tracker) : StageCall UInt64 → Prop
  | .advance obj stage time => (∀ cur, goMarks t obj = some cur → cur < stage)
      → ({ obj, stage, at_ := time } : Go.Delivery.DeliveryUpdate).bytes.length < 2 ^ 32
  | .reopen => True

/-- An advance whose record is short keeps it in step. -/
theorem goDurable_advance {t : Go.Delivery.Tracker} (durable : GoDurable t) {obj : Bytes}
    {stage time : UInt64} (fits : RecordFits t (.advance obj stage time))
    : GoDurable (t.advance none obj stage time).2 := by
  unfold Go.Delivery.Tracker.advance
  cases held : t.current.lookup obj with
  | none =>
      refine goDurable_persist durable (fits ?_)
      intro cur found
      exact absurd (held.symm.trans found) nofun
  | some cur =>
      dsimp only
      split_ifs with lower same
      · exact durable
      · exact durable
      · refine goDurable_persist durable (fits ?_)
        intro other found
        obtain rfl : cur = other := Option.some.inj (held.symm.trans found)
        exact lt_of_le_of_ne (not_lt.mp lower) (Ne.symm same)

/-- So does every call whose record is short, and what it reports is durably monotone. -/
theorem goStages_durable {t : Go.Delivery.Tracker} (durable : GoDurable t)
    {call : StageCall UInt64} (fits : RecordFits t call)
    : GoDurable (goStages t call).2
      ∧ DurablyMonotone goMarks Go.Delivery.errStageOutOfOrder (answer goStages t call) := by
  cases call with
  | advance obj stage time =>
      refine ⟨goDurable_advance durable fits, ?_⟩
      exact .of_reported
        ((goAdvance_reported (goDurable_open durable) none obj stage time).map some)
  | reopen =>
      have opened : goStages t .reopen = (.ok none, t) := by
        rw [goStages, Go.Delivery.Tracker.close,
          show Go.Delivery.openTracker t.disk = .ok t from durable]
      rw [answer, opened]
      exact ⟨durable, .of_reopened none⟩

-----------------------------------------------------------------------------------------
-- Every run
-----------------------------------------------------------------------------------------

/-- In every run of written advances and reopenings, from any log that opens, the stages are
monotone and durable: in Python, and in Go when each record that is written fits its length prefix.
-/
theorem stages_durably_monotone (disk : Bytes) (pythonCalls : List (StageCall Int))
    (goCalls : List (StageCall UInt64))
    : (∀ start, openTracker disk = .ok start
        → ∀ event ∈ trace pythonStages start pythonCalls,
          DurablyMonotone pythonMarks stageOutOfOrder event)
      ∧ ∀ start, Go.Delivery.openTracker disk = .ok start
        → (∀ event ∈ trace goStages start goCalls, RecordFits event.before event.call)
        → ∀ event ∈ trace goStages start goCalls,
          DurablyMonotone goMarks Go.Delivery.errStageOutOfOrder event := by
  constructor
  · intro start opened event member
    have keeps : ∀ t call, True → PythonDurable t → PythonDurable (pythonStages t call).2 :=
      fun t call _ durable => (pythonStages_durable durable call).1
    obtain ⟨durable, -, same⟩ :=
      mem_trace keeps (pythonDurable_of_opens opened) (fun _ _ => trivial) member
    rw [same]
    exact (pythonStages_durable durable event.call).2
  · intro start opened fits event member
    have keeps : ∀ (before : List (StageCall UInt64)) t call, GoDurable t → RecordFits t call
        → GoDurable (goStages t call).2 :=
      fun _ t call durable fits => (goStages_durable durable fits).1
    obtain ⟨-, durable, same⟩ := @mem_trace_history_of_good _ _ _ goStages RecordFits
      (fun _ t => GoDurable t) start (goDurable_of_opens opened) keeps goCalls fits event member
    rw [same]
    exact (goStages_durable durable (fits event member)).2

theorem goOpens_nil : Go.Delivery.openTracker [] = .ok { disk := [], current := ∅ } := by
  rw [Go.Delivery.openTracker, LogReader.replay_nil]
  rfl

def sampleStageCalls (ν : Type) [OfNat ν 0] [OfNat ν 1] : List (StageCall ν) :=
  [.advance [1] 1 0, .advance [1] 0 0, .reopen, .advance [1] 1 0]

/-- A run of advances of one object with a reopening in between, in both implementations. -/
theorem stages_durably_monotone_sample
    : (∀ event ∈ trace pythonStages freshTracker (sampleStageCalls Int),
        DurablyMonotone pythonMarks stageOutOfOrder event)
      ∧ ∀ event ∈ trace goStages { disk := [], current := ∅ } (sampleStageCalls UInt64),
        DurablyMonotone goMarks Go.Delivery.errStageOutOfOrder event := by
  obtain ⟨python, go⟩ :=
    stages_durably_monotone [] (sampleStageCalls Int) (sampleStageCalls UInt64)
  refine ⟨python _ (openTracker_eq_ok LogReader.replay_nil), go _ goOpens_nil ?_⟩
  have short : ∀ stage : UInt64, stage = 0 ∨ stage = 1
      → ({ obj := [1], stage, at_ := 0 } : Go.Delivery.DeliveryUpdate).bytes.length < 2 ^ 32 := by
    intro stage small
    rw [length_updateBytes]
    rcases small with rfl | rfl <;> decide
  intro event member
  simp only [sampleStageCalls, trace, List.mem_cons, List.not_mem_nil, or_false] at member
  rcases member with rfl | rfl | rfl | rfl
  · exact fun _ => short 1 (.inr rfl)
  · exact fun _ => short 0 (.inl rfl)
  · trivial
  · exact fun _ => short 1 (.inr rfl)

/-- A Go record of exactly 2^32 octets has the length prefix zero, and its log does not open. -/
theorem goOpens_of_overlong {u : Go.Delivery.DeliveryUpdate} (size : u.bytes.length = 2 ^ 32)
    : ∃ err, Go.Delivery.openTracker (frame u.bytes) = .error err := by
  have empty : ([] : Bytes).length < 2 ^ 32 := by decide
  have framed : frame u.bytes = frame [] ++ u.bytes := by
    rw [frame, size]
    rfl
  have refused : ∃ err, Go.Delivery.trackerReader.absorb ∅ [] = .error err := ⟨_, rfl⟩
  obtain ⟨err, refused⟩ := refused
  refine ⟨err, ?_⟩
  rw [Go.Delivery.openTracker, framed, LogReader.replay_frame empty, refused]
  rfl

/-- An object of as many octets as make a record of 2^32 is lost when the log is opened again. -/
theorem overlong_lost {obj : Bytes} (length : obj.length = 2 ^ 32 - 11)
    : ∃ event ∈ trace goStages { disk := [], current := ∅ } [.advance obj 0 0, .reopen],
      event.call = .reopen ∧ goMarks event.before obj = some 0
        ∧ ∃ err, event.outcome = .error err := by
  let u : Go.Delivery.DeliveryUpdate := { obj, stage := 0, at_ := 0 }
  let after : Go.Delivery.Tracker :=
    { disk := frame u.bytes, current := (∅ : Go.Delivery.Stages).insert obj 0 }
  have written
      : goStages { disk := [], current := ∅ } (.advance obj 0 0) = (.ok (some u), after) := by
    simp [goStages, Go.Delivery.Tracker.advance, Go.Delivery.Tracker.persist, Except.map, after, u]
  have size : u.bytes.length = 2 ^ 32 := by
    have zero : u.stage.toNat = 0 := rfl
    rw [length_updateBytes, show u.obj = obj from rfl, length, zero]
    decide
  obtain ⟨err, refused⟩ := goOpens_of_overlong size
  have reopened : (goStages after .reopen).1 = .error err := by
    rw [goStages, Go.Delivery.Tracker.close, show after.disk = frame u.bytes from rfl, refused]
  refine ⟨answer goStages after .reopen, ?_, rfl, AList.lookup_insert _, err, reopened⟩
  simp [trace, written]

def hugeObject : Bytes := List.replicate (2 ^ 32 - 11) 0

theorem overlong_record_lost
    : ∃ event ∈ trace goStages { disk := [], current := ∅ } [.advance hugeObject 0 0, .reopen],
      event.call = .reopen ∧ goMarks event.before hugeObject = some 0
        ∧ ∃ err, event.outcome = .error err :=
  overlong_lost List.length_replicate

end Naalp.Stores
