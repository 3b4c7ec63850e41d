import Naalp.ConsumeLedger.EntryRecords
import Naalp.ConsumeLedger.Runs

/-! Which logs the replay of the Python and the Go ledger accepts.
Replay checks each entry against the one before, so a log that spends an id twice passes; Go also
takes a record that lacks a field.
-/

namespace Naalp.ConsumeLedger

open Naalp.Foundation
open Naalp.Python
open Naalp.Python.Cbor
open Naalp.Python.Approval

/-- (Linked count seq head steps) numbers the entries from `seq` on and links each of them to
the record before it, the first to `head`.
-/
def Linked (count : Int → Int) : Int → Bytes → List (LedgerEntry × Bytes) → Prop
  | _, _, [] => True
  | seq, head, step :: rest =>
      step.1.seq = seq ∧ step.1.prev = head
      ∧ Linked count (count seq) (chainNext step.2) rest

section Linking

variable {ε : Type} {parse : Bytes → Except ε LedgerEntry} {corrupt : ε} {count : Int → Int}

/-- The loop gets through the records that parse to linked entries, by induction over them. -/
theorem foldlM_absorbEntry_eq_ok {mem final : LedgerMemory} {records : List Bytes}
    : records.foldlM (absorbEntry parse corrupt count) mem = .ok final
      ↔ ∃ steps : List (LedgerEntry × Bytes), steps.map Prod.snd = records
        ∧ (∀ step ∈ steps, parse step.2 = .ok step.1) ∧ Linked count mem.seq mem.head steps
        ∧ final = steps.foldl (LedgerMemory.advance count) mem := by
  induction records generalizing mem with
  | nil =>
      constructor
      · intro ended
        exact ⟨[], rfl, by simp, trivial, (Except.ok.inj ended).symm⟩
      · intro ended
        obtain ⟨steps, empty, -, -, rfl⟩ := ended
        obtain rfl := List.map_eq_nil_iff.mp empty
        rfl
  | cons record rest ih =>
      simp only [List.foldlM_cons, bind_eq_ok, absorbEntry, raiseIf_eq_ok, exists_const, not_or,
        ne_eq, not_not, pure_eq_ok, Except.ok.injEq]
      constructor
      · intro ran
        obtain ⟨_, ⟨e, parsed, ⟨seq, prev⟩, rfl⟩, later⟩ := ran
        obtain ⟨steps, rfl, parses, linked, rfl⟩ := ih.mp later
        exact ⟨(e, record) :: steps, rfl, List.forall_mem_cons.mpr ⟨parsed, parses⟩,
          ⟨seq, prev, linked⟩, rfl⟩
      · intro ran
        obtain ⟨steps, same, parses, linked, rfl⟩ := ran
        cases steps with
        | nil => cases same
        | cons step later =>
            obtain ⟨rfl, rfl⟩ := List.cons.inj same
            obtain ⟨parsed, parsesLater⟩ := List.forall_mem_cons.mp parses
            obtain ⟨seq, prev, linkedLater⟩ := linked
            exact ⟨_, ⟨step.1, parsed, ⟨seq, prev⟩, rfl⟩,
              ih.mpr ⟨later, rfl, parsesLater, linkedLater, rfl⟩⟩

/-- The approval ids of the entries, in order. -/
def idsOf (steps : List (LedgerEntry × Bytes)) : List Bytes := steps.map (·.1.approvalId)

/-- Distinct ids that were unspent are all counted, by induction over the entries. -/
theorem consumed_length {steps : List (LedgerEntry × Bytes)} {mem : LedgerMemory}
    (distinct : (idsOf steps).Nodup) (fresh : ∀ aid ∈ idsOf steps, aid ∉ mem.consumed)
    : (steps.foldl (LedgerMemory.advance count) mem).consumed.entries.length
      = mem.consumed.entries.length + steps.length := by
  induction steps generalizing mem with
  | nil => rfl
  | cons step rest ih =>
      obtain ⟨notLater, distinctLater⟩ := List.nodup_cons.mp distinct
      obtain ⟨unspent, freshLater⟩ := List.forall_mem_cons.mp fresh
      have stillFresh : ∀ aid ∈ idsOf rest, aid ∉ (mem.advance count step).consumed := by
        intro aid member spent
        rcases (AList.mem_insert _).mp spent with same | before
        · rw [same] at member
          exact notLater member
        · exact freshLater aid member before
      have inserted : (mem.advance count step).consumed.entries.length
          = mem.consumed.entries.length + 1 := by
        simp [LedgerMemory.advance, AList.insert_of_notMem unspent]
      rw [List.foldl_cons, ih distinctLater stillFresh, inserted, List.length_cons]
      omega

theorem seq_foldl_advance (steps : List (LedgerEntry × Bytes)) (mem : LedgerMemory)
    : (steps.foldl (LedgerMemory.advance count) mem).seq = count^[steps.length] mem.seq := by
  induction steps generalizing mem with
  | nil => rfl
  | cons step rest ih =>
      rw [List.foldl_cons, ih, List.length_cons, Function.iterate_succ_apply]
      rfl

/-- The records determine the entries that they parse to, by induction over them. -/
theorem steps_eq_of_records {left right : List (LedgerEntry × Bytes)}
    (parsesLeft : ∀ step ∈ left, parse step.2 = .ok step.1)
    (parsesRight : ∀ step ∈ right, parse step.2 = .ok step.1)
    (same : left.map Prod.snd = right.map Prod.snd)
    : left = right := by
  induction left generalizing right with
  | nil => exact (List.map_eq_nil_iff.mp same.symm).symm
  | cons step rest ih =>
      cases right with
      | nil => cases same
      | cons other later =>
          obtain ⟨record, records⟩ := List.cons.inj same
          obtain ⟨first, parsesRest⟩ := List.forall_mem_cons.mp parsesLeft
          obtain ⟨firstOther, parsesLater⟩ := List.forall_mem_cons.mp parsesRight
          rw [record] at first
          have entry := Except.ok.inj (first.symm.trans firstOther)
          rw [Prod.ext entry record, ih parsesRest parsesLater records]

/-- The octets of a log of these steps. -/
def logOf (steps : List (LedgerEntry × Bytes)) : Bytes := steps.flatMap (fun step => frame step.2)

theorem logOf_eq (steps : List (LedgerEntry × Bytes))
    : logOf steps = (steps.map Prod.snd).flatMap frame := by
  rw [logOf, List.flatMap_map]

/-- A log that parses to linked entries, each record shorter than 2^32 octets. -/
structure LinkedLog (parse : Bytes → Except ε LedgerEntry) (count : Int → Int) (log : Bytes)
    (steps : List (LedgerEntry × Bytes)) : Prop where
  octets : log = logOf steps
  short : ∀ step ∈ steps, step.2.length < 2 ^ 32
  parses : ∀ step ∈ steps, parse step.2 = .ok step.1
  linked : Linked count 0 LedgerMemory.genesis.head steps

/-- A log has at most one list of entries. -/
theorem LinkedLog.unique {log : Bytes} {steps others : List (LedgerEntry × Bytes)}
    (left : LinkedLog parse count log steps) (octets : log = logOf others)
    (short : ∀ step ∈ others, step.2.length < 2 ^ 32)
    (parses : ∀ step ∈ others, parse step.2 = .ok step.1)
    : steps = others := by
  refine steps_eq_of_records left.parses parses (frames_injective ?_ ?_ ?_)
  · exact List.forall_mem_map.mpr left.short
  · exact List.forall_mem_map.mpr short
  · rw [← logOf_eq, ← logOf_eq, ← left.octets, octets]

/-- A reader without a lenient end that absorbs entries accepts exactly the linked logs. -/
theorem replay_linked_iff {reader : LogReader ε LedgerMemory} {error : ε} {log : Bytes}
    {mem : LedgerMemory} (absorbs : reader.absorb = absorbEntry parse corrupt count)
    (strict : reader.shortPrefix = some error)
    : reader.replay log .genesis = .ok mem
      ↔ ∃ steps, LinkedLog parse count log steps
        ∧ mem = steps.foldl (LedgerMemory.advance count) .genesis := by
  rw [LogReader.replay_eq_ok, absorbs]
  simp only [foldlM_absorbEntry_eq_ok]
  constructor
  · intro read
    obtain ⟨_, tail, rfl, short, ends, steps, rfl, parses, linked, rfl⟩ := read
    rcases ends with rfl | ⟨-, lenient⟩
    · refine ⟨steps, ⟨?_, List.forall_mem_map.mp short, parses, linked⟩, rfl⟩
      rw [logOf_eq, List.append_nil]
    · rw [strict] at lenient
      cases lenient
  · intro read
    obtain ⟨steps, ⟨rfl, short, parses, linked⟩, rfl⟩ := read
    refine ⟨steps.map Prod.snd, [], ?_, List.forall_mem_map.mpr short, .inl rfl, steps, rfl, parses,
      linked, rfl⟩
    rw [logOf_eq, List.append_nil]

/-- The log is one of distinct approval ids, the ids are as many as the next sequence number
says, and every entry is written back to the record it was read from.
-/
structure SpendsOnce (parse : Bytes → Except ε LedgerEntry)
    (rewrites : LedgerEntry → Bytes → Prop) (log : Bytes) (mem : LedgerMemory) : Prop where
  entries : ∃ steps, log = logOf steps ∧ (∀ step ∈ steps, step.2.length < 2 ^ 32)
    ∧ (∀ step ∈ steps, parse step.2 = .ok step.1) ∧ (idsOf steps).Nodup
    ∧ ∀ step ∈ steps, rewrites step.1 step.2
  counted : (mem.consumed.entries.length : Int) = mem.seq

end Linking

section Writing

variable {σ ο : Type} {write : σ → Bytes × PyStr → ο × σ} {disk : σ → Bytes}
  {memory : σ → LedgerMemory} {ready : σ → Prop} {count : Int → Int}
  {writable : LedgerEntry × Bytes → Prop}

/-- Linked entries of distinct unspent ids are written by consuming the ids in turn, when one
consume appends one entry; by induction over the entries.
-/
theorem finalState_consumes
    (appends : ∀ led step, ready led → writable step → step.1.seq = (memory led).seq
      → step.1.prev = (memory led).head → step.1.approvalId ∉ (memory led).consumed
      → ready (write led (step.1.approvalId, step.1.consumer)).2
        ∧ disk (write led (step.1.approvalId, step.1.consumer)).2 = disk led ++ frame step.2
        ∧ memory (write led (step.1.approvalId, step.1.consumer)).2
          = (memory led).advance count step)
    {led : σ} {steps : List (LedgerEntry × Bytes)} (isReady : ready led)
    (allWritable : ∀ step ∈ steps, writable step)
    (linked : Linked count (memory led).seq (memory led).head steps)
    (distinct : (idsOf steps).Nodup) (fresh : ∀ aid ∈ idsOf steps, aid ∉ (memory led).consumed)
    : disk (finalState write led (steps.map fun step => (step.1.approvalId, step.1.consumer)))
        = disk led ++ logOf steps
      ∧ memory (finalState write led (steps.map fun step => (step.1.approvalId, step.1.consumer)))
        = steps.foldl (LedgerMemory.advance count) (memory led) := by
  induction steps generalizing led with
  | nil => simp [finalState, logOf]
  | cons step rest ih =>
      obtain ⟨seq, prev, linkedRest⟩ := linked
      obtain ⟨first, writableRest⟩ := List.forall_mem_cons.mp allWritable
      obtain ⟨notLater, distinctRest⟩ := List.nodup_cons.mp distinct
      obtain ⟨unspent, freshRest⟩ := List.forall_mem_cons.mp fresh
      obtain ⟨readyNext, written, remembered⟩ := appends led step isReady first seq prev unspent
      have linkedNext : Linked count
          (memory (write led (step.1.approvalId, step.1.consumer)).2).seq
          (memory (write led (step.1.approvalId, step.1.consumer)).2).head rest := by
        rw [remembered]
        exact linkedRest
      have freshNext : ∀ aid ∈ idsOf rest,
          aid ∉ (memory (write led (step.1.approvalId, step.1.consumer)).2).consumed := by
        intro aid member spent
        rw [remembered] at spent
        rcases (AList.mem_insert _).mp spent with same | before
        · rw [same] at member
          exact notLater member
        · exact freshRest aid member before
      obtain ⟨log, last⟩ := ih readyNext writableRest linkedNext distinctRest freshNext
      rw [List.map_cons, finalState, List.foldl_cons]
      refine ⟨?_, ?_⟩
      · rw [← finalState, log, written, logOf, logOf, List.flatMap_cons, List.append_assoc]
      · rw [← finalState, last, remembered, List.foldl_cons]

end Writing

-----------------------------------------------------------------------------------------
-- The Python ledger
-----------------------------------------------------------------------------------------

/-- The replay loop of the Python ledger as a reader of logs. -/
def ledgerReader : LogReader Exc LedgerMemory where
  absorb := absorbEntry parseEntry
    (.approvalError .ledgerCorrupt "out-of-order seq or broken chain linkage") (· + 1)
  shortPrefix := some (.approvalError .ledgerCorrupt "truncated length prefix")
  shortRecord _ := .approvalError .ledgerCorrupt "truncated record"

/-- The loop of the replay is the replay of the log's records, by induction on its rounds. -/
theorem replayFrom_eq_replay (data : Bytes) (mem : LedgerMemory)
    : replayFrom data mem = ledgerReader.replay data mem := by
  induction data, mem using replayFrom.induct with
  | case1 mem => rw [replayFrom_nil, LogReader.replay_nil]
  | case2 data mem nonempty ih =>
      rw [replayFrom, dif_neg nonempty, LogReader.replay]
      by_cases short : data.length < 4
      · rw [dif_pos short, raiseIf_pos short, LogReader.finish, if_neg nonempty]
        rfl
      · rw [dif_neg short, raiseIf_neg short]
        simp only [ok_bind]
        by_cases enough : (data.drop 4).length < ofBigEndian (data.take 4)
        · rw [raiseIf_pos enough, raiseIf_pos enough]
          rfl
        · rw [raiseIf_neg enough, raiseIf_neg enough]
          simp only [ok_bind, ledgerReader, absorbEntry]
          cases parsed : parseEntry ((data.drop 4).take (ofBigEndian (data.take 4))) with
          | error err => rfl
          | ok e =>
              simp only [ok_bind]
              by_cases broken : e.seq ≠ mem.seq ∨ e.prev ≠ mem.head
              · rw [raiseIf_pos broken]
                rfl
              · rw [raiseIf_neg broken]
                exact ih e

theorem replay_eq_ok {log : Bytes} {mem : LedgerMemory}
    : replay log = .ok mem
      ↔ ∃ steps, LinkedLog parseEntry (· + 1) log steps
        ∧ mem = steps.foldl (LedgerMemory.advance (· + 1)) .genesis := by
  rw [replay, replayFrom_eq_replay]
  exact replay_linked_iff rfl rfl

/-- Consumes of a run, by approval id and consumer, on a file that takes its writes. -/
def consumes (calls : List (Bytes × PyStr)) : Ledger :=
  finalState (fun led call => led.consume none call.1 call.2)
    { file := { disk := [] }, memory := .genesis } calls

theorem consume_nextEntry {led : Ledger} {aid : Bytes} {consumer : PyStr}
    (working : led.file.closed = false) (unspent : aid ∉ led.memory.consumed)
    (writable : Writable (led.nextEntry aid consumer))
    : led.consume none aid consumer
      = (.ok (led.nextEntry aid consumer), appendEntry led (led.nextEntry aid consumer)) := by
  have prepared : led.prepareConsume aid consumer
      = .ok ⟨led.nextEntry aid consumer, record (led.nextEntry aid consumer),
          framedRecord (led.nextEntry aid consumer), led.nextEntry aid consumer⟩ := by
    rw [Ledger.prepareConsume, Ledger.checkUnspent, raiseIf_neg unspent]
    exact prepare_eq_ok.mpr ⟨writable, rfl⟩
  simp [Ledger.consume, Ledger.persist, prepared, LogFile.append, working, appendEntry]

/-- A linked log of distinct ids is written by consuming them.
Witness: every consume of a fresh id appends the record of the next entry, and the linked
entries are these.
-/
theorem LinkedLog.consumes {log : Bytes} {steps : List (LedgerEntry × Bytes)}
    (linkedLog : LinkedLog parseEntry (· + 1) log steps) (distinct : (idsOf steps).Nodup)
    : ∃ calls, (consumes calls).file.disk = log
      ∧ (consumes calls).memory = steps.foldl (LedgerMemory.advance (· + 1)) .genesis := by
  have appends : ∀ (led : Ledger) (step : LedgerEntry × Bytes),
      led.file = { disk := led.file.disk } → (Writable step.1 ∧ step.2 = record step.1)
      → step.1.seq = led.memory.seq → step.1.prev = led.memory.head
      → step.1.approvalId ∉ led.memory.consumed
      → (led.consume none step.1.approvalId step.1.consumer).2.file
          = { disk := (led.consume none step.1.approvalId step.1.consumer).2.file.disk }
        ∧ (led.consume none step.1.approvalId step.1.consumer).2.file.disk
          = led.file.disk ++ frame step.2
        ∧ (led.consume none step.1.approvalId step.1.consumer).2.memory
          = led.memory.advance (· + 1) step := by
    intro led step file written seq prev unspent
    obtain ⟨⟨entrySeq, entryPrev, aid, consumer⟩, octets⟩ := step
    simp only at written seq prev unspent
    obtain ⟨writable, rfl⟩ := written
    subst seq prev
    rw [consume_nextEntry (by rw [file]) unspent writable]
    refine ⟨rfl, ?_, rfl⟩
    simp only [appendEntry]
    rw [file, List.append_nil]
    rfl
  have writable : ∀ step ∈ steps, Writable step.1 ∧ step.2 = record step.1 := by
    intro step member
    obtain ⟨encodes, same⟩ := parseEntry_eq_ok.mp (linkedLog.parses step member)
    have short := linkedLog.short step member
    rw [same] at short
    exact ⟨⟨encodes, short⟩, same⟩
  obtain ⟨disk, memory⟩ := @finalState_consumes Ledger _
    (fun led call => led.consume none call.1 call.2) (·.file.disk) (·.memory)
    (fun led => led.file = { disk := led.file.disk }) (· + 1) _ appends
    { file := { disk := [] }, memory := .genesis } steps rfl writable linkedLog.linked distinct
    (by intro aid _; exact AList.notMem_empty _)
  refine ⟨_, ?_, memory⟩
  rw [linkedLog.octets]
  exact disk

/-- An entry with the octets of its record. -/
def recorded (e : LedgerEntry) : LedgerEntry × Bytes := (e, record e)

/-- The entries are written as the log, numbered from zero and linked. -/
structure ChainedLog (log : Bytes) (entries : List LedgerEntry) : Prop where
  octets : log = entries.flatMap framedRecord
  writable : ∀ e ∈ entries, Writable e
  linked : Linked (· + 1) 0 LedgerMemory.genesis.head (entries.map recorded)

/-- The linked logs of the Python parser are those of writable entries.
Witness: a parsed record is the encoding of its entry, so a log determines the entries and they
the log.
-/
theorem linkedLog_iff_chained {log : Bytes} {steps : List (LedgerEntry × Bytes)}
    : LinkedLog parseEntry (· + 1) log steps
      ↔ ∃ entries, ChainedLog log entries ∧ steps = entries.map recorded := by
  constructor
  · intro linkedLog
    have parsed := fun step member => parseEntry_eq_ok.mp (linkedLog.parses step member)
    have same : steps = (steps.map Prod.fst).map recorded := by
      rw [List.map_map]
      refine (List.map_id steps).symm.trans (List.map_congr_left ?_)
      intro step member
      exact Prod.ext rfl (parsed step member).2
    refine ⟨steps.map Prod.fst, ⟨?_, ?_, same ▸ linkedLog.linked⟩, same⟩
    · rw [linkedLog.octets, logOf, List.flatMap_map]
      refine List.flatMap_congr ?_
      intro step member
      rw [(parsed step member).2]
      rfl
    · intro e member
      obtain ⟨step, inside, rfl⟩ := List.mem_map.mp member
      have short := linkedLog.short step inside
      rw [(parsed step inside).2] at short
      exact ⟨(parsed step inside).1, short⟩
  · intro chained
    obtain ⟨entries, chainedLog, rfl⟩ := chained
    refine ⟨?_, ?_, ?_, chainedLog.linked⟩
    · rw [chainedLog.octets, logOf, List.flatMap_map]
      rfl
    · exact List.forall_mem_map.mpr fun e member => (chainedLog.writable e member).short
    · exact List.forall_mem_map.mpr fun e member =>
        parseEntry_eq_ok.mpr ⟨(chainedLog.writable e member).encodes, rfl⟩

theorem idsOf_recorded (entries : List LedgerEntry)
    : idsOf (entries.map recorded) = entries.map (·.approvalId) := by
  rw [idsOf, List.map_map]
  rfl

/-- What the Python replay accepts is a log that the ledger writes, exactly when the log is not
a chain that spends an id twice.
Witness: an accepted log is linked; the one thing the replay does not ask is that no id occurs
twice.
-/
theorem replay_spendsOnce_iff (log : Bytes)
    : (∀ mem, replay log = .ok mem
        → SpendsOnce parseEntry (fun e octets => e.bytes = .ok octets) log mem
          ∧ ∃ calls, (consumes calls).file.disk = log ∧ (consumes calls).memory = mem)
      ↔ ∀ entries, ChainedLog log entries → (entries.map (·.approvalId)).Nodup := by
  constructor
  · intro written entries chained
    have linkedLog := linkedLog_iff_chained.mpr ⟨entries, chained, rfl⟩
    obtain ⟨⟨⟨steps, octets, short, parses, distinct, -⟩, -⟩, -⟩ :=
      written _ (replay_eq_ok.mpr ⟨_, linkedLog, rfl⟩)
    rw [← linkedLog.unique octets short parses, idsOf_recorded] at distinct
    exact distinct
  · intro once mem replayed
    obtain ⟨steps, linkedLog, rfl⟩ := replay_eq_ok.mp replayed
    obtain ⟨entries, chained, rfl⟩ := linkedLog_iff_chained.mp linkedLog
    have distinct : (idsOf (entries.map recorded)).Nodup := by
      rw [idsOf_recorded]
      exact once entries chained
    have rewritten : ∀ step ∈ entries.map recorded, step.1.bytes = .ok step.2 :=
      List.forall_mem_map.mpr fun e member => (chained.writable e member).encodes
    refine ⟨⟨⟨_, linkedLog.octets, linkedLog.short, linkedLog.parses, distinct, rewritten⟩, ?_⟩,
      linkedLog.consumes distinct⟩
    have counted : ∀ n : Nat, (· + 1)^[n] (0 : Int) = n := by
      intro n
      induction n with
      | zero => rfl
      | succ n ih => rw [Function.iterate_succ_apply', ih, Nat.cast_succ]
    rw [consumed_length distinct fun aid _ => AList.notMem_empty _, seq_foldl_advance]
    simp [LedgerMemory.genesis, counted]

-----------------------------------------------------------------------------------------
-- The Go ledger
-----------------------------------------------------------------------------------------

theorem goReplay_eq_ok {log : Bytes} {mem : LedgerMemory}
    : Go.Approval.replay log = .ok mem
      ↔ ∃ steps, LinkedLog Go.Approval.parseEntry Go.Approval.nextSeq log steps
        ∧ mem = steps.foldl (LedgerMemory.advance Go.Approval.nextSeq) .genesis :=
  replay_linked_iff rfl rfl

/-- Consumes of a run on the Go ledger, from an empty file. -/
def goConsumes (calls : List (Bytes × PyStr)) : Go.Approval.Ledger :=
  finalState (fun led call => led.consume call.1 call.2) { disk := [], memory := .genesis } calls

/-- A linked log of distinct ids and complete records is written by consuming the ids.
Witness: as for Python, where a complete record is the one that Go writes.
-/
theorem LinkedLog.goConsumes {log : Bytes} {steps : List (LedgerEntry × Bytes)}
    (linkedLog : LinkedLog Go.Approval.parseEntry Go.Approval.nextSeq log steps)
    (distinct : (idsOf steps).Nodup)
    (rewritten : ∀ step ∈ steps, Go.Approval.entryBytes step.1 = step.2)
    : ∃ calls, (goConsumes calls).disk = log
      ∧ (goConsumes calls).memory
        = steps.foldl (LedgerMemory.advance Go.Approval.nextSeq) .genesis := by
  have appends : ∀ (led : Go.Approval.Ledger) (step : LedgerEntry × Bytes), True
      → Go.Approval.entryBytes step.1 = step.2 → step.1.seq = led.memory.seq
      → step.1.prev = led.memory.head → step.1.approvalId ∉ led.memory.consumed
      → True
        ∧ (led.consume step.1.approvalId step.1.consumer).2.disk = led.disk ++ frame step.2
        ∧ (led.consume step.1.approvalId step.1.consumer).2.memory
          = led.memory.advance Go.Approval.nextSeq step := by
    intro led step _ written seq prev unspent
    obtain ⟨⟨entrySeq, entryPrev, aid, consumer⟩, octets⟩ := step
    simp only at written seq prev unspent
    subst seq prev written
    refine ⟨trivial, ?_⟩
    rw [Go.Approval.Ledger.consume, if_neg unspent]
    exact ⟨rfl, rfl⟩
  obtain ⟨disk, memory⟩ := @finalState_consumes Go.Approval.Ledger _
    (fun led call => led.consume call.1 call.2) (·.disk) (·.memory) (fun _ => True)
    Go.Approval.nextSeq _ appends { disk := [], memory := .genesis } steps trivial rewritten
    linkedLog.linked distinct (fun aid _ => AList.notMem_empty _)
  refine ⟨_, ?_, memory⟩
  rw [linkedLog.octets]
  exact disk

/-- The entry that Go reads from the fields of a record, with the octets of the record. -/
def zeroRecorded (fields : EntryFields) : LedgerEntry × Bytes :=
  (zeroFilled fields, fieldRecord fields)

/-- The records of the fields are the log, numbered from zero and linked. -/
structure GoChainedLog (log : Bytes) (records : List EntryFields) : Prop where
  octets : log = records.flatMap (fun fields => frame (fieldRecord fields))
  writable : ∀ fields ∈ records,
    Encodable (.m (fieldPairs fields)) ∧ (fieldRecord fields).length < 2 ^ 32
  linked : Linked Go.Approval.nextSeq 0 LedgerMemory.genesis.head (records.map zeroRecorded)

/-- The linked logs of the Go parser are those of records of any fields.
Witness: the Go parser fills missing fields with zeros, so a record is read from any fields.
-/
theorem goLinkedLog_iff_chained {log : Bytes} {steps : List (LedgerEntry × Bytes)}
    : LinkedLog Go.Approval.parseEntry Go.Approval.nextSeq log steps
      ↔ ∃ records, GoChainedLog log records ∧ steps = records.map zeroRecorded := by
  constructor
  · intro linkedLog
    have parsed : ∀ step ∈ steps,
        ∃ fields, Encodable (.m (fieldPairs fields)) ∧ zeroRecorded fields = step := by
      intro step member
      obtain ⟨fields, ⟨encodable, octets⟩, entry⟩ :=
        goParseEntry_eq_ok.mp (linkedLog.parses step member)
      exact ⟨fields, encodable, Prod.ext entry.symm octets.symm⟩
    obtain ⟨records, members, rfl⟩ : ∃ records : List EntryFields,
        (∀ fields ∈ records, Encodable (.m (fieldPairs fields)))
        ∧ steps = records.map zeroRecorded := by
      clear linkedLog
      induction steps with
      | nil => exact ⟨[], by simp, rfl⟩
      | cons step rest ih =>
          obtain ⟨⟨fields, encodable, rfl⟩, later⟩ := List.forall_mem_cons.mp parsed
          obtain ⟨records, members, rfl⟩ := ih later
          exact ⟨fields :: records, List.forall_mem_cons.mpr ⟨encodable, members⟩, rfl⟩
    refine ⟨records, ⟨?_, ?_, linkedLog.linked⟩, rfl⟩
    · rw [linkedLog.octets, logOf, List.flatMap_map]
      rfl
    · intro fields member
      exact ⟨members fields member, List.forall_mem_map.mp linkedLog.short fields member⟩
  · intro chained
    obtain ⟨records, chainedLog, rfl⟩ := chained
    refine ⟨?_, ?_, ?_, chainedLog.linked⟩
    · rw [chainedLog.octets, logOf, List.flatMap_map]
      rfl
    · exact List.forall_mem_map.mpr fun fields member => (chainedLog.writable fields member).2
    · exact List.forall_mem_map.mpr fun fields member => goParseEntry_eq_ok.mpr
        ⟨fields, ⟨(chainedLog.writable fields member).1, rfl⟩, rfl⟩

theorem iterate_nextSeq (n : Nat) : Go.Approval.nextSeq^[n] 0 = (n : Int) % 2 ^ 64 := by
  induction n with
  | zero => rfl
  | succ n ih =>
      rw [Function.iterate_succ_apply', ih, Go.Approval.nextSeq]
      omega

/-- What the Go replay accepts is a log that the ledger writes, exactly when the log is not a
chain that spends an id twice, has a record without one of its fields, or wraps the counter.
Witness: as for Python; besides, records are to be written as they were read and the counter is
to count them.
-/
theorem goReplay_spendsOnce_iff (log : Bytes)
    : (∀ mem, Go.Approval.replay log = .ok mem
        → SpendsOnce Go.Approval.parseEntry (fun e octets => Go.Approval.entryBytes e = octets) log
            mem
          ∧ ∃ calls, (goConsumes calls).disk = log ∧ (goConsumes calls).memory = mem)
      ↔ ∀ records, GoChainedLog log records
        → (records.map fun fields => (zeroFilled fields).approvalId).Nodup
          ∧ (∀ fields ∈ records, Complete fields) ∧ records.length < 2 ^ 64 := by
  have ids : ∀ records : List EntryFields, idsOf (records.map zeroRecorded)
      = records.map fun fields => (zeroFilled fields).approvalId := by
    intro records
    rw [idsOf, List.map_map]
    rfl
  have rewrites : ∀ records, GoChainedLog log records
      → ((∀ step ∈ records.map zeroRecorded, Go.Approval.entryBytes step.1 = step.2)
        ↔ ∀ fields ∈ records, Complete fields) := by
    intro records chained
    rw [List.forall_mem_map]
    exact forall₂_congr fun fields member =>
      goEntryBytes_zeroFilled_iff (chained.writable fields member).1
  have counted : ∀ records : List EntryFields, (idsOf (records.map zeroRecorded)).Nodup
      → let mem := (records.map zeroRecorded).foldl (LedgerMemory.advance Go.Approval.nextSeq)
          LedgerMemory.genesis
        ((mem.consumed.entries.length : Int) = mem.seq ↔ records.length < 2 ^ 64) := by
    intro records distinct
    simp only
    rw [consumed_length distinct fun aid _ => AList.notMem_empty _, seq_foldl_advance,
      List.length_map]
    have start : LedgerMemory.genesis.seq = 0 := rfl
    have empty : LedgerMemory.genesis.consumed.entries.length = 0 := rfl
    rw [start, empty, iterate_nextSeq]
    omega
  constructor
  · intro written records chained
    have linkedLog := goLinkedLog_iff_chained.mpr ⟨records, chained, rfl⟩
    obtain ⟨⟨⟨steps, octets, short, parses, distinct, rewritten⟩, count⟩, -⟩ :=
      written _ (goReplay_eq_ok.mpr ⟨_, linkedLog, rfl⟩)
    obtain rfl := linkedLog.unique octets short parses
    exact ⟨ids records ▸ distinct, (rewrites records chained).mp rewritten,
      (counted records distinct).mp count⟩
  · intro once mem replayed
    obtain ⟨steps, linkedLog, rfl⟩ := goReplay_eq_ok.mp replayed
    obtain ⟨records, chained, rfl⟩ := goLinkedLog_iff_chained.mp linkedLog
    obtain ⟨distinct, complete, few⟩ := once records chained
    rw [← ids] at distinct
    have rewritten := (rewrites records chained).mpr complete
    exact ⟨⟨⟨_, linkedLog.octets, linkedLog.short, linkedLog.parses, distinct, rewritten⟩,
      (counted records distinct).mpr few⟩, linkedLog.goConsumes distinct rewritten⟩

/-- The two replays accept only logs that their ledgers write, each exactly when the log is not
one of its chains that spends an id twice; for Go the records must also be complete, and fewer
than the counter holds.
-/
theorem accepted_log_written_iff (log : Bytes)
    : ((∀ mem, replay log = .ok mem
          → SpendsOnce parseEntry (fun e octets => e.bytes = .ok octets) log mem
            ∧ ∃ calls, (consumes calls).file.disk = log ∧ (consumes calls).memory = mem)
        ↔ ∀ entries, ChainedLog log entries → (entries.map (·.approvalId)).Nodup)
      ∧ ((∀ mem, Go.Approval.replay log = .ok mem
          → SpendsOnce Go.Approval.parseEntry
              (fun e octets => Go.Approval.entryBytes e = octets) log mem
            ∧ ∃ calls, (goConsumes calls).disk = log ∧ (goConsumes calls).memory = mem)
        ↔ ∀ records, GoChainedLog log records
          → (records.map fun fields => (zeroFilled fields).approvalId).Nodup
            ∧ (∀ fields ∈ records, Complete fields) ∧ records.length < 2 ^ 64) :=
  ⟨replay_spendsOnce_iff log, goReplay_spendsOnce_iff log⟩

-----------------------------------------------------------------------------------------
-- A log that spends one id twice
-----------------------------------------------------------------------------------------

/-- A log whose entries repeat an id is not one of distinct ids. -/
theorem LinkedLog.not_spendsOnce {ε : Type} {parse : Bytes → Except ε LedgerEntry}
    {count : Int → Int} {rewrites : LedgerEntry → Bytes → Prop} {log : Bytes}
    {steps : List (LedgerEntry × Bytes)} {mem : LedgerMemory}
    (linkedLog : LinkedLog parse count log steps) (repeated : ¬ (idsOf steps).Nodup)
    : ¬ SpendsOnce parse rewrites log mem := by
  intro once
  obtain ⟨others, octets, short, parses, distinct, -⟩ := once.entries
  rw [← linkedLog.unique octets short parses] at distinct
  exact repeated distinct

def firstSpend : LedgerEntry :=
  { seq := 0, prev := List.replicate 48 0, approvalId := [1], consumer := [] }

def secondSpend : LedgerEntry :=
  { seq := 1, prev := chainNext (record firstSpend), approvalId := [1], consumer := [] }

/-- An entry with a digest as its link, a short id and no consumer name is writable. -/
theorem writable_of_digest {e : LedgerEntry} (seq : 0 ≤ e.seq ∧ e.seq < 2 ^ 64)
    (prev : e.prev.length = 48) (aid : e.approvalId.length < 100) (consumer : e.consumer = [])
    : Writable e := by
  have named : e.consumer.encode = .ok [] := by rw [consumer]; rfl
  have encodes : e.bytes = .ok (record e) :=
    encodes_iff.mpr ⟨seq, by omega, by omega, [], named, by simp⟩
  have size := length_record_le encodes named
  refine ⟨encodes, ?_⟩
  rw [List.length_nil] at size
  omega

theorem doubleSpend_chained
    : ChainedLog ([firstSpend, secondSpend].flatMap framedRecord) [firstSpend, secondSpend] := by
  refine ⟨rfl, ?_, rfl, rfl, rfl, rfl, trivial⟩
  have first := @writable_of_digest firstSpend ⟨by decide, by decide⟩ rfl (by decide) rfl
  have second := @writable_of_digest secondSpend ⟨by decide, by decide⟩ (Sha2.length_sha384 _)
    (by decide) rfl
  simp [first, second]

/-- The log of two spends of one id is a chain of records for the Go replay. -/
theorem doubleSpend_goChained
    : GoChainedLog ([firstSpend, secondSpend].flatMap framedRecord)
        [allFields firstSpend, allFields secondSpend] := by
  refine ⟨rfl, ?_, rfl, rfl, rfl, rfl, trivial⟩
  have chained := doubleSpend_chained.writable
  have first := chained firstSpend (by simp)
  have second := chained secondSpend (by simp)
  intro fields member
  simp only [List.mem_cons, List.not_mem_nil, or_false] at member
  rcases member with rfl | rfl
  · exact ⟨encodable_allFields.mpr first.encodes, first.short⟩
  · exact ⟨encodable_allFields.mpr second.encodes, second.short⟩

/-- Both replays accept the chained log of two entries that spend the id `01`. -/
theorem double_spend_log_accepted
    : (∃ mem, replay ([firstSpend, secondSpend].flatMap framedRecord) = .ok mem
        ∧ ¬ SpendsOnce parseEntry (fun e octets => e.bytes = .ok octets)
          ([firstSpend, secondSpend].flatMap framedRecord) mem)
      ∧ ∃ mem, Go.Approval.replay ([firstSpend, secondSpend].flatMap framedRecord) = .ok mem
        ∧ ¬ SpendsOnce Go.Approval.parseEntry
          (fun e octets => Go.Approval.entryBytes e = octets)
          ([firstSpend, secondSpend].flatMap framedRecord) mem := by
  have linkedLog := linkedLog_iff_chained.mpr ⟨_, doubleSpend_chained, rfl⟩
  have goLinkedLog := goLinkedLog_iff_chained.mpr ⟨_, doubleSpend_goChained, rfl⟩
  refine ⟨⟨_, replay_eq_ok.mpr ⟨_, linkedLog, rfl⟩, linkedLog.not_spendsOnce ?_⟩,
    ⟨_, goReplay_eq_ok.mpr ⟨_, goLinkedLog, rfl⟩, goLinkedLog.not_spendsOnce ?_⟩⟩
  · rw [idsOf_recorded]
    decide
  · exact show ¬ [[1], [1]].Nodup by decide

end Naalp.ConsumeLedger
