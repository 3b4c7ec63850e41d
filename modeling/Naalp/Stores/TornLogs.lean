import Naalp.ConsumeLedger.AcceptedLogs
import Naalp.Foundation.LoggedStore
import Naalp.Foundation.Bytes
import Naalp.Implementations.Allocation
import Naalp.Rust.Stores

/-! Logs that a crash has cut: the ledgers of the three implementations, and the delivery tracker
and the workflow gate of the Rust one.
-/

namespace Naalp.Stores

open Naalp.Foundation
open Naalp.Python
open Naalp.Python.Cbor
open Naalp.Python.Approval (LedgerEntry LedgerMemory)
open Naalp.ConsumeLedger

/-- Every call is allowed. -/
def anyCall {σ ι : Type} (_ : σ) (_ : ι) : Prop := True

/-- Every cut is admitted. -/
def anyCut {σ ι : Type} (_ : σ) (_ : List ι) (_ : σ) (_ : Nat) : Prop := True

/-- The cuts that leave no part of a length prefix. -/
def wholePrefixes {ε σ ι ο μ : Type} (store : LoggedStore ε σ ι ο μ) (allowed : σ → ι → Prop)
    (fresh : σ) (calls : List ι) (final : σ) (cut : Nat) : Prop :=
  ¬ CutsPrefix store allowed fresh calls final cut

-----------------------------------------------------------------------------------------
-- The Python ledger
-----------------------------------------------------------------------------------------

/-- How a ledger is opened: with a name, or with a receipt-signing identity. -/
inductive Opening where
  | plain (authority : PyStr)
  | signed (ledgerId : Bytes) (alg : Int) (seed : Option Bytes)

def Opening.opens (disk : Bytes) : Opening → Py Approval.Ledger
  | .plain authority => Approval.openLedger disk authority
  | .signed ledgerId alg seed => Approval.openLedgerSigned disk ledgerId alg seed

/-- A consume on a file that takes its writes. -/
inductive Consume where
  | consume (aid : Bytes) (consumer : PyStr)
  | object (o : Envelope.Object) (aid : Bytes) (consumer : PyStr)
  | withReceipt (aid : Bytes) (consumer : PyStr)

def Consume.call : Consume → Call
  | .consume aid consumer => .consume none aid consumer
  | .object o aid consumer => .consumeObject none o aid consumer
  | .withReceipt aid consumer => .consumeWithReceipt none aid consumer

def pythonLedger (lib : Cose.SignatureLibrary) (opening : Opening)
    : LoggedStore Exc Approval.Ledger Consume (Option LedgerEntry) LedgerMemory where
  opens disk := opening.opens disk
  call led consume := step lib led consume.call
  disk led := led.file.disk
  memory led := led.memory

/-- Nothing waits in the write buffer and the file is open. -/
def Settled (led : Approval.Ledger) : Prop := led.file = { disk := led.file.disk }

/-- Opening takes the disk as it is and remembers what its replay says. -/
theorem opens_eq_ok {opening : Opening} {disk : Bytes} {led : Approval.Ledger}
    (opened : opening.opens disk = .ok led)
    : led.file = { disk } ∧ Approval.replay disk = .ok led.memory := by
  cases opening with
  | plain authority =>
      simp only [Opening.opens, Approval.openLedger, bind_eq_ok, pure_eq_ok,
        Except.ok.injEq] at opened
      obtain ⟨memory, replayed, rfl⟩ := opened
      exact ⟨rfl, replayed⟩
  | signed ledgerId alg seed =>
      simp only [Opening.opens, Approval.openLedgerSigned, bind_eq_ok, raiseIf_eq_ok, exists_const,
        pure_eq_ok, Except.ok.injEq] at opened
      obtain ⟨-, memory, replayed, rfl⟩ := opened
      exact ⟨rfl, replayed⟩

/-- Replay absorbs the record of the entry that the memory expects. -/
theorem absorb_record {ε : Type} {parse : Bytes → Except ε LedgerEntry} {corrupt : ε}
    {count : Int → Int} {mem : LedgerMemory} {e : LedgerEntry} {octets : Bytes}
    (parsed : parse octets = .ok e) (seq : e.seq = mem.seq) (prev : e.prev = mem.head)
    : Approval.absorbEntry parse corrupt count mem octets
      = .ok (mem.advance count (e, octets)) := by
  rw [Approval.absorbEntry, parsed, ok_bind, raiseIf_neg (by simp [seq, prev])]
  rfl

/-- A Python ledger keeps its log: each call appends the frames of what it acknowledges. -/
theorem pythonLedger_keepsLog (lib : Cose.SignatureLibrary) (opening : Opening)
    (accepted : ∀ disk mem, Approval.replay disk = .ok mem
      → ∃ led, opening.opens disk = .ok led ∧ led.memory = mem)
    : KeepsLog (pythonLedger lib opening) anyCall ConsumeLedger.ledgerReader .genesis Settled where
  opened := by
    intro disk led opened
    obtain ⟨file, replayed⟩ := opens_eq_ok opened
    refine ⟨?_, congrArg Approval.LogFile.disk file, ?_⟩
    · rw [Settled, file]
    · rw [← replayFrom_eq_replay]
      exact replayed
  reopens := by
    intro disk mem replayed
    rw [← replayFrom_eq_replay] at replayed
    exact accepted disk mem replayed
  appends := by
    intro led consume answer next settled _ answered
    have how := step_answered lib led consume.call
    rw [show step lib led consume.call = (.ok answer, next) from answered] at how
    have pending : led.file.pending = [] := by rw [settled]
    cases how with
    | @appended aid consumer _ _ writable =>
        refine ⟨rfl, .inr ⟨record (led.nextEntry aid consumer), writable.short, ?_, ?_⟩⟩
        · change led.file.disk ++ led.file.pending ++ _ = _
          rw [pending, List.append_nil]
          rfl
        · exact absorb_record (parseEntry_record writable) rfl rfl
    | reopened unnamed _ _ => cases consume <;> cases unnamed

/-- A Python ledger survives every cut: a torn frame is refused, and a cut between frames loses
only the later ones.
Witness: its reader refuses a part of a length prefix, so the general result for such readers
holds.
-/
theorem pythonLedger_survivesCuts (lib : Cose.SignatureLibrary) (opening : Opening)
    : SurvivesCuts (pythonLedger lib opening) anyCall anyCut := by
  intro fresh calls final cut reopened openedFresh run admitted openedCut
  have accepted : ∀ disk mem, Approval.replay disk = .ok mem
      → ∃ led, opening.opens disk = .ok led ∧ led.memory = mem := by
    intro disk mem replayed
    cases opening with
    | plain authority =>
        refine ⟨{ file := { disk }, memory := mem, ledgerId := authority }, ?_, rfl⟩
        simp only [Opening.opens, Approval.openLedger, replayed, ok_bind]
        rfl
    | signed ledgerId alg seed =>
        have named := openedFresh
        simp only [pythonLedger, Opening.opens, Approval.openLedgerSigned, bind_eq_ok,
          raiseIf_eq_ok, exists_const] at named
        let led : Approval.Ledger := {
          file := { disk }, memory := mem, receiptLedgerId := ledgerId, receiptAlg := some alg
          receiptSeed := seed }
        refine ⟨led, ?_, rfl⟩
        simp only [Opening.opens, Approval.openLedgerSigned, raiseIf_neg named.1, replayed, ok_bind]
        rfl
  refine (pythonLedger_keepsLog lib opening accepted).survivesCuts ?_ fresh calls final cut reopened
    openedFresh run admitted openedCut
  intro _ _ _ _ _ lenient
  cases lenient

-----------------------------------------------------------------------------------------
-- The Go ledger
-----------------------------------------------------------------------------------------

def goLedger : LoggedStore Go.Approval.Failure Go.Approval.Ledger (Bytes × PyStr) LedgerEntry
    LedgerMemory where
  opens disk := Go.Approval.openLedger disk
  call led consume := led.consume consume.1 consume.2
  disk led := led.disk
  memory led := led.memory

/-- The entry of the consume can be encoded, to fewer than 2^32 octets. -/
def GoFits (led : Go.Approval.Ledger) (consume : Bytes × PyStr) : Prop :=
  Writable (led.nextEntry consume.1 consume.2)

theorem goParseEntry_record {e : LedgerEntry} (writable : Writable e)
    : Go.Approval.parseEntry (record e) = .ok e :=
  goParseEntry_eq_ok.mpr ⟨allFields e, ⟨encodable_allFields.mpr writable.encodes, rfl⟩, rfl⟩

/-- A Go ledger keeps its log while its records fit. -/
theorem goLedger_keepsLog
    : KeepsLog goLedger GoFits Go.Approval.ledgerReader .genesis (fun _ => True) := by
  refine .of_opens (fun _ => rfl) (fun _ _ => rfl) (fun _ _ => rfl) ?_
  intro led consume answer next fits answered
  simp only [goLedger, Go.Approval.Ledger.consume] at answered
  split at answered
  · cases answered
  · obtain ⟨-, rfl⟩ := Prod.mk.inj answered
    rw [goEntryBytes_eq fits.encodes]
    exact .inr ⟨_, fits.short, rfl, absorb_record (goParseEntry_record fits) rfl rfl⟩

theorem goLedger_survivesCuts : SurvivesCuts goLedger GoFits anyCut := by
  apply goLedger_keepsLog.survivesCuts
  intro _ _ _ _ _ lenient
  cases lenient

-----------------------------------------------------------------------------------------
-- The Rust ledger
-----------------------------------------------------------------------------------------

section Rust

variable {valueSize : Nat} (layout : valueSize * 2 ^ 32 ≤ Rust.Cbor.isizeMax)

theorem rustEncode_of_encodable {v : Value} (encodable : Encodable v)
    : Rust.expect (Rust.Cbor.encode v) = .ok (encoding v) := by
  rw [Rust.Cbor.encode, Implementations.goEncode_of_encodable encodable]
  rfl

include layout

/-- The Rust decoder reads the records that fit a log. -/
theorem rustDecode_encoding {v : Value} (canonical : Canonical unboundedDepth v)
    (fits : Implementations.NintsFit v) (short : (encoding v).length < 2 ^ 32)
    : Rust.Cbor.decode valueSize (encoding v) = .ok v := by
  refine (Native.Cbor.rustDecodeBounded_eq_ok layout (Nat.le_of_lt short)).mpr ?_
  exact Implementations.goDecode_eq_ok.mpr ⟨decode_eq_ok.mpr ⟨canonical, rfl⟩, fits⟩

omit layout in
def rustLedger (valueSize : Nat)
    : LoggedStore Rust.Failure Rust.Approval.Ledger (Bytes × List Char) LedgerEntry
      LedgerMemory where
  opens disk := Rust.Approval.openLedger valueSize disk
  call led consume := led.consume consume.1 consume.2
  disk led := led.disk
  memory led := led.memory

omit layout in
/-- The entry of the consume is encoded to fewer than 2^32 octets. -/
def RustFits (led : Rust.Approval.Ledger) (consume : Bytes × List Char) : Prop :=
  Writable (led.nextEntry consume.1 consume.2)

theorem rustParseEntry_record {e : LedgerEntry} (writable : Writable e)
    : Rust.Approval.parseEntry valueSize (record e) = .ok e := by
  have canonical := canonical_fieldPairs (encodable_allFields.mpr writable.encodes)
  have decoded : Rust.Cbor.decode valueSize (record e) = .ok (.m (fieldPairs (allFields e))) :=
    rustDecode_encoding layout canonical (nintsFit_fieldPairs (allFields e)) writable.short
  rw [Rust.Approval.parseEntry, decoded]
  rfl

/-- A Rust ledger keeps its log while its records fit. -/
theorem rustLedger_keepsLog
    : KeepsLog (rustLedger valueSize) RustFits (Rust.Approval.ledgerReader valueSize) .genesis
        (fun _ => True) := by
  refine .of_opens (fun _ => rfl) (fun _ _ => rfl) (fun _ _ => rfl) ?_
  intro led consume answer next fits answered
  have encoded : Rust.Approval.entryBytes (led.nextEntry consume.1 consume.2)
      = .ok (record (led.nextEntry consume.1 consume.2)) :=
    rustEncode_of_encodable (encodable_allFields.mpr fits.encodes)
  simp only [rustLedger, Rust.Approval.Ledger.consume, encoded] at answered
  split at answered
  · cases answered
  · obtain ⟨-, rfl⟩ := Prod.mk.inj answered
    refine .inr ⟨_, fits.short, rfl, ?_⟩
    have absorbed := @absorb_record _ _ Rust.Approval.errLedgerCorrupt Rust.Approval.nextSeq
      led.memory _ _ (rustParseEntry_record layout fits) rfl rfl
    simp only [Rust.Approval.ledgerReader, Rust.walReader, rustLedger, absorbed]
    rfl

theorem rustLedger_survivesCuts
    : SurvivesCuts (rustLedger valueSize) RustFits
        (wholePrefixes (rustLedger valueSize) RustFits) := by
  apply (rustLedger_keepsLog layout).survivesCuts
  intro _ _ _ _ clean _
  exact clean

-----------------------------------------------------------------------------------------
-- The delivery tracker
-----------------------------------------------------------------------------------------

open Naalp.Rust.Delivery in
omit layout in
def tracker (valueSize : Nat)
    : LoggedStore Rust.Failure Tracker DeliveryUpdate DeliveryUpdate Stages where
  opens disk := openTracker valueSize disk
  call t u := t.advance u.obj u.stage u.at_
  disk t := t.disk
  memory t := t.current

open Naalp.Rust.Delivery in
omit layout in
/-- The update is encoded to fewer than 2^32 octets. -/
def UpdateFits (_ : Tracker) (u : DeliveryUpdate) : Prop :=
  Encodable (updateValue u) ∧ (encoding (updateValue u)).length < 2 ^ 32

omit layout in
theorem canonical_updateValue {u : Rust.Delivery.DeliveryUpdate}
    (encodable : Encodable (Rust.Delivery.updateValue u))
    : Canonical unboundedDepth (Rust.Delivery.updateValue u) := by
  have within : depth (Rust.Delivery.updateValue u) ≤ unboundedDepth := by
    simp [Rust.Delivery.updateValue, depth, depthPairs, unboundedDepth]
  refine ⟨encodable, .m (show [[1], [2], [3]].Pairwise (· < ·) by decide) ?_ ?_, within⟩
  · simpa using ⟨.u 1, .u 2, .u 3⟩
  · simpa using ⟨.b u.obj, .u u.stage.toNat, .u u.at_.toNat⟩

/-- A short update is read back from its octets. -/
theorem parseUpdate_encoding {u : Rust.Delivery.DeliveryUpdate}
    (encodable : Encodable (Rust.Delivery.updateValue u))
    (short : (encoding (Rust.Delivery.updateValue u)).length < 2 ^ 32)
    : Rust.Delivery.parseUpdate valueSize (encoding (Rust.Delivery.updateValue u)) = .ok u := by
  have fits : Implementations.NintsFit (Rust.Delivery.updateValue u) := by
    refine .m ?_ ?_
    · simpa using ⟨.u 1, .u 2, .u 3⟩
    · simpa using ⟨.b u.obj, .u u.stage.toNat, .u u.at_.toNat⟩
  have decoded := rustDecode_encoding layout (canonical_updateValue encodable) fits short
  rw [Rust.Delivery.parseUpdate, decoded]
  simp [Rust.mapErr, Rust.Delivery.updateValue, Rust.Delivery.readUpdatePair]

/-- The Rust tracker keeps its log while its records fit. -/
theorem tracker_keepsLog
    : KeepsLog (tracker valueSize) UpdateFits
        (Rust.walReader (Rust.Delivery.absorbUpdate valueSize)) ∅ (fun _ => True) := by
  refine .of_opens (fun _ => rfl) (fun _ _ => rfl) (fun _ _ => rfl) ?_
  intro t u answer next fits answered
  obtain ⟨encodable, short⟩ := fits
  have persisted : t.persist u = (.ok answer, next)
      → next.disk = t.disk ++ frame (encoding (Rust.Delivery.updateValue u))
        ∧ next.current = t.current.insert u.obj u.stage := by
    intro persisted
    rw [Rust.Delivery.Tracker.persist, Rust.Delivery.DeliveryUpdate.bytes,
      rustEncode_of_encodable encodable] at persisted
    obtain ⟨-, rfl⟩ := Prod.mk.inj persisted
    exact ⟨rfl, rfl⟩
  have recorded : t.persist u = (.ok answer, next)
      → ∃ record, record.length < 2 ^ 32 ∧ next.disk = t.disk ++ frame record
        ∧ (Rust.walReader (Rust.Delivery.absorbUpdate valueSize)).absorb t.current record
          = .ok next.current := by
    intro written
    obtain ⟨disk, current⟩ := persisted written
    refine ⟨_, short, disk, ?_⟩
    simp only [Rust.walReader, Rust.Delivery.absorbUpdate,
      parseUpdate_encoding layout encodable short, ok_bind, current]
    rfl
  simp only [tracker, Rust.Delivery.Tracker.advance] at answered ⊢
  split at answered
  · split at answered
    · cases answered
    split at answered
    · obtain ⟨-, rfl⟩ := Prod.mk.inj answered
      exact .inl ⟨rfl, rfl⟩
    · exact .inr (recorded answered)
  · exact .inr (recorded answered)

theorem tracker_survivesCuts
    : SurvivesCuts (tracker valueSize) UpdateFits
      (wholePrefixes (tracker valueSize) UpdateFits) := by
  apply (tracker_keepsLog layout).survivesCuts
  intro _ _ _ _ clean _
  exact clean

end Rust

-----------------------------------------------------------------------------------------
-- The workflow gate
-----------------------------------------------------------------------------------------

section Gate

open Naalp.Rust.Channels

/-- A call on the workflow gate. -/
inductive GateCall where
  | create (task : List Char) (needsApproval : Bool)
  | supplyInput (task : List Char)
  | run (task : List Char)

def GateCall.task : GateCall → List Char
  | .create task _ | .supplyInput task | .run task => task

def workflowGate : LoggedStore Rust.Failure WorkflowGate GateCall Unit Statuses where
  opens disk := openWorkflowGate disk
  call g
    | .create task needsApproval => g.create task needsApproval
    | .supplyInput task => g.supplyInput task
    | .run task => g.run task
  disk g := g.disk
  memory g := g.status

/-- The task has no zero character, and every record of it is shorter than 2^32 octets. -/
def TaskFits (_ : WorkflowGate) (call : GateCall) : Prop :=
  Char.ofNat 0 ∉ call.task
  ∧ ∀ status ∈ [awaitingApproval, awaitingInput, inputSupplied, approved, running],
    (statusRecord call.task status).length < 2 ^ 32

/-- Replay finds the task and the status of a record of a task without a zero character. -/
theorem absorbStatus_statusRecord {statuses : Statuses} {task status : List Char}
    (nonzero : Char.ofNat 0 ∉ task)
    : absorbStatus statuses (statusRecord task status) = .ok (statuses.insert task status) := by
  have noZero : ∀ octet ∈ asBytes task, octet ≠ 0 := by
    intro octet member zero
    exact nonzero (zero_mem_utf8.mp (zero ▸ member))
  have found : (statusRecord task status).findIdx? (· == 0) = some (asBytes task).length := by
    rw [statusRecord, List.findIdx?_append,
      List.findIdx?_eq_none_iff.mpr (fun octet member => by simpa using noZero octet member)]
    simp [List.findIdx?_cons]
  have front : (statusRecord task status).take (asBytes task).length = asBytes task :=
    List.take_left
  have back : (statusRecord task status).drop ((asBytes task).length + 1) = asBytes status := by
    rw [statusRecord, List.drop_append]
    simp
  simp only [absorbStatus, found, front, back, fromUtf8Lossy_asBytes]
  rfl

/-- An acknowledged call persists one of the five statuses for its task. -/
theorem workflowGate_persists {g next : WorkflowGate} {call : GateCall} {answer : Unit}
    (answered : workflowGate.call g call = (.ok answer, next))
    : ∃ status ∈ [awaitingApproval, awaitingInput, inputSupplied, approved, running],
      next = (g.persist call.task status).2 := by
  cases call with
  | create task needsApproval =>
      simp only [workflowGate, WorkflowGate.create] at answered
      split at answered
      · cases answered
      · obtain ⟨-, rfl⟩ := Prod.mk.inj answered
        cases needsApproval
        · exact ⟨awaitingInput, by simp, rfl⟩
        · exact ⟨awaitingApproval, by simp, rfl⟩
  | supplyInput task =>
      simp only [workflowGate, WorkflowGate.supplyInput] at answered
      split at answered
      · split at answered
        · exact ⟨inputSupplied, by simp, (Prod.mk.inj answered).2.symm⟩
        split at answered
        · exact ⟨approved, by simp, (Prod.mk.inj answered).2.symm⟩
        · cases answered
      · cases answered
  | run task =>
      simp only [workflowGate, WorkflowGate.run] at answered
      split at answered
      · split at answered
        · exact ⟨running, by simp, (Prod.mk.inj answered).2.symm⟩
        split at answered
        · cases answered
        · cases answered
      · cases answered

theorem workflowGate_keepsLog
    : KeepsLog workflowGate TaskFits (Rust.walReader absorbStatus) ∅ (fun _ => True) := by
  refine .of_opens (fun _ => rfl) (fun _ _ => rfl) (fun _ _ => rfl) ?_
  intro g call answer next fits answered
  obtain ⟨status, known, rfl⟩ := workflowGate_persists answered
  refine .inr ⟨_, fits.2 status known, rfl, ?_⟩
  simp only [Rust.walReader, workflowGate, absorbStatus_statusRecord fits.1]
  rfl

theorem workflowGate_survivesCuts
    : SurvivesCuts workflowGate TaskFits (wholePrefixes workflowGate TaskFits) := by
  apply workflowGate_keepsLog.survivesCuts
  intro _ _ _ _ clean _
  exact clean

end Gate

-----------------------------------------------------------------------------------------
-- All stores
-----------------------------------------------------------------------------------------

/-- In every run of acknowledged calls, however the log is then cut, opening fails or recovers:
for the Python ledger without a condition; for the Go ledger when each entry can be encoded to
fewer than 2^32 octets; for the Rust stores when the same holds of each record, no task name has a
zero character, and the cut leaves no part of a length prefix.
-/
theorem stores_survive_cuts (lib : Cose.SignatureLibrary) (opening : Opening) {valueSize : Nat}
    (layout : valueSize * 2 ^ 32 ≤ Rust.Cbor.isizeMax)
    : SurvivesCuts (pythonLedger lib opening) anyCall anyCut
      ∧ SurvivesCuts goLedger GoFits anyCut
      ∧ SurvivesCuts (rustLedger valueSize) RustFits
        (wholePrefixes (rustLedger valueSize) RustFits)
      ∧ SurvivesCuts (tracker valueSize) UpdateFits (wholePrefixes (tracker valueSize) UpdateFits)
      ∧ SurvivesCuts workflowGate TaskFits (wholePrefixes workflowGate TaskFits) :=
  ⟨pythonLedger_survivesCuts lib opening, goLedger_survivesCuts, rustLedger_survivesCuts layout,
    tracker_survivesCuts layout, workflowGate_survivesCuts⟩

/-- Witness: values of 32 octets; the gate is opened again on the log of one created task. -/
theorem created_task_recovered
    : ∃ reopened, workflowGate.opens
      (({ disk := [], status := ∅ } : Rust.Channels.WorkflowGate).create
        ['t'] false).2.disk = .ok reopened
      ∧ Recovered workflowGate TaskFits { disk := [], status := ∅ } [.create ['t'] false] 20
        reopened := by
  obtain ⟨-, -, -, -, survives⟩ :=
    @stores_survive_cuts Cose.digestLibrary (.plain []) 32 (by decide)
  have opened : workflowGate.opens [] = .ok { disk := [], status := ∅ } := by
    simp [workflowGate, Rust.Channels.openWorkflowGate]
  have fits : TaskFits { disk := [], status := ∅ } (.create ['t'] false) := by
    refine ⟨by decide, ?_⟩
    decide
  have run : Acknowledged workflowGate TaskFits { disk := [], status := ∅ } [.create ['t'] false]
      (({ disk := [], status := ∅ } : Rust.Channels.WorkflowGate).create ['t'] false).2 :=
    .cons fits rfl (.nil _)
  have start : Replayable workflowGate (Rust.walReader Rust.Channels.absorbStatus) ∅
      { disk := [], status := ∅ } := fun _ => rfl
  obtain ⟨reopened, found, -⟩ := workflowGate_keepsLog.found_again
    (workflowGate_keepsLog.run run trivial start).1
  refine ⟨reopened, found, survives _ _ _ 20 reopened opened run ?_ found⟩
  intro torn
  obtain ⟨-, -, -, -, partly⟩ := torn
  exact absurd partly (by decide)

/-- One consume, its log cut to two octets of the length prefix: the Rust ledger opens on it as
on an empty log, acknowledges the consume again, and then cannot be opened.
Witness: the second consume is written behind the two octets, which then announce another
length.
-/
theorem torn_prefix_taken_for_end
    : ¬ SurvivesCuts (rustLedger 32) anyCall anyCut := by
  intro survives
  have writable : Writable firstSpend := doubleSpend_chained.writable firstSpend (by simp)
  have encoded : Rust.Approval.entryBytes firstSpend = .ok (record firstSpend) :=
    rustEncode_of_encodable (encodable_allFields.mpr writable.encodes)
  have framed : frame (record firstSpend) = [0, 0, 0, 59] ++ record firstSpend := rfl
  have consumed : ∀ disk, (rustLedger 32).call { disk, memory := .genesis } ([1], [])
      = (.ok firstSpend, { disk := disk ++ ([0, 0, 0, 59] ++ record firstSpend)
                           memory := LedgerMemory.genesis.advance Rust.Approval.nextSeq
                             (firstSpend, record firstSpend) }) := by
    intro disk
    have unspent : ([1] : Bytes) ∉ LedgerMemory.genesis.consumed := AList.notMem_empty _
    simp only [rustLedger, Rust.Approval.Ledger.consume, if_neg unspent]
    rw [show Rust.Approval.Ledger.nextEntry { disk, memory := .genesis } [1] []
      = firstSpend from rfl, encoded]
    rfl
  have opened : ∀ disk : Bytes, disk.length < 4
      → (rustLedger 32).opens disk = .ok { disk, memory := .genesis } := by
    intro disk short
    simp only [rustLedger, Rust.Approval.openLedger, LogReader.replay_short short]
    rw [(LogReader.finish_eq_ok short).mpr ⟨rfl, ?_⟩]
    · rfl
    · exact .inr ⟨short, rfl⟩
  obtain ⟨-, continues⟩ := survives { disk := [], memory := .genesis } [([1], [])] _ 2
    { disk := [0, 0], memory := .genesis } (opened [] (by decide))
    (.cons trivial (consumed []) (.nil _)) trivial (opened [0, 0] (by decide))
  obtain ⟨again, opens, -⟩ := continues [([1], [])] _ (.cons trivial (consumed [0, 0]) (.nil _))
  -- the two octets that were left make the prefix of the new record read as zero
  have misread : (rustLedger 32).opens (frame [] ++ (0 :: 59 :: record firstSpend)) = .ok again :=
    opens
  have refused : ∃ stop, Rust.Approval.parseEntry 32 [] = .error stop := ⟨_, rfl⟩
  obtain ⟨stop, refused⟩ := refused
  simp only [rustLedger, Rust.Approval.openLedger] at misread
  rw [LogReader.replay_frame (by simp)] at misread
  simp only [Rust.Approval.ledgerReader, Rust.walReader, Approval.absorbEntry, refused,
    error_bind] at misread
  cases misread

end Naalp.Stores
