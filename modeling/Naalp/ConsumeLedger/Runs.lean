import Naalp.ConsumeLedger.Replay
import Naalp.Foundation.Runs

/-! The consume ledger over whole runs: the log stays a chain of framed entries, replay
rebuilds the memory, and no approval id is consumed twice.
-/

namespace Naalp.ConsumeLedger

open Naalp.Foundation
open Naalp.Python
open Naalp.Python.Approval
open Naalp.Python.Cose

/-- A call on the ledger, with the fault that its writes meet if any. Reopening closes the
ledger object and opens the file again, plainly or with a receipt-signing identity.
-/
inductive Call where
  | consume (fault : Option Fault) (aid : Bytes) (consumer : PyStr)
  | consumeObject (fault : Option Fault) (o : Envelope.Object) (aid : Bytes) (consumer : PyStr)
  | consumeWithReceipt (fault : Option Fault) (aid : Bytes) (consumer : PyStr)
  | reopen (authority : PyStr)
  | reopenSigned (ledgerId : Bytes) (alg : Int) (seed : Option Bytes)

def Call.fault : Call → Option Fault
  | .consume fault _ _ | .consumeObject fault _ _ _ | .consumeWithReceipt fault _ _ => fault
  | .reopen _ | .reopenSigned _ _ _ => none

/-- The approval id that a call tries to consume. -/
def Call.aid : Call → Option Bytes
  | .consume _ aid _ | .consumeObject _ _ aid _ | .consumeWithReceipt _ aid _ => some aid
  | .reopen _ | .reopenSigned _ _ _ => none

/-- The outcome of a call: the entry it appended, `none` for reopening. -/
abbrev Outcome := Py (Option LedgerEntry)

/-- The new ledger object, or the closed old one when opening is refused. -/
def reopenAs (led : Ledger) (opened : Py Ledger) : Outcome × Ledger :=
  match opened with
  | .ok new => (.ok none, new)
  | .error err => (.error err, led.close)

def step (lib : SignatureLibrary) (led : Ledger) : Call → Outcome × Ledger
  | .consume fault aid consumer =>
      let (result, after) := led.consume fault aid consumer
      (result.map some, after)
  | .consumeObject fault o aid consumer =>
      let (result, after) := led.consumeObject fault o aid consumer
      (result.map some, after)
  | .consumeWithReceipt fault aid consumer =>
      let (result, after) := led.consumeWithReceipt lib fault aid consumer
      (result.map (fun r => some r.1), after)
  | .reopen authority => reopenAs led (openLedger led.close.file.disk authority)
  | .reopenSigned ledgerId alg seed =>
      reopenAs led (openLedgerSigned led.close.file.disk ledgerId alg seed)

-----------------------------------------------------------------------------------------
-- What one call can do
-----------------------------------------------------------------------------------------

/-- The ledger after the entry was written, flushed and synced. -/
def appendEntry (led : Ledger) (e : LedgerEntry) : Ledger :=
  { led with
    file := { disk := led.file.disk ++ led.file.pending ++ framedRecord e }
    memory := led.memory.after e (record e) }

/-- The ledger after a fault while the entry was persisted. -/
def failEntry (led : Ledger) (e : LedgerEntry) (fault : Fault) : Ledger :=
  { led with
    file := {
      disk := led.file.disk ++ led.file.pending ++ fault.written (framedRecord e)
      pending := fault.buffered (framedRecord e) } }

/-- (Answered led call outcome after) lists every way in which a call can be answered. -/
inductive Answered (led : Ledger) : Call → Outcome → Ledger → Prop where
  | refused {call : Call} {err : Exc} : Answered led call (.error err) led
  | appended {call : Call} {aid : Bytes} {consumer : PyStr} (id : call.aid = some aid)
      (unspent : aid ∉ led.memory.consumed) (writable : Writable (led.nextEntry aid consumer))
      : Answered led call (.ok (some (led.nextEntry aid consumer)))
          (appendEntry led (led.nextEntry aid consumer))
  | faulted {call : Call} {aid : Bytes} {consumer : PyStr} {fault : Fault}
      (id : call.aid = some aid) (failing : call.fault = some fault)
      : Answered led call (.error .osError) (failEntry led (led.nextEntry aid consumer) fault)
  | reopened {call : Call} {new : Ledger} (id : call.aid = none)
      (file : new.file = { disk := led.file.disk ++ led.file.pending })
      (replayed : replay (led.file.disk ++ led.file.pending) = .ok new.memory)
      : Answered led call (.ok none) new
  | closed {call : Call} {err : Exc} (id : call.aid = none)
      : Answered led call (.error err) led.close

/-- What a consume has prepared when it reaches the log. -/
def PreparedFor {α : Type} (led : Ledger) (aid : Bytes) (consumer : PyStr)
    (entry : α → LedgerEntry) (prepared : Py (Prepared α)) : Prop :=
  ∀ p, prepared = .ok p →
    let e := led.nextEntry aid consumer
    aid ∉ led.memory.consumed ∧ Writable e ∧ entry p.result = e
    ∧ p.entry = e ∧ p.record = record e ∧ p.framed = framedRecord e

theorem prepareConsume_preparedFor (led : Ledger) (aid : Bytes) (consumer : PyStr)
    : PreparedFor led aid consumer id (led.prepareConsume aid consumer) := by
  intro p prepared
  simp only [Ledger.prepareConsume, Ledger.checkUnspent, bind_eq_ok, raiseIf_eq_ok, exists_const,
    prepare_eq_ok] at prepared
  obtain ⟨unspent, writable, rfl⟩ := prepared
  exact ⟨unspent, writable, rfl, rfl, rfl, rfl⟩

/-- A consume with a receipt is prepared for the next entry, and the receipt is signed before
anything is written.
-/
theorem prepareReceipt_preparedFor (lib : SignatureLibrary) (led : Ledger) (aid : Bytes)
    (consumer : PyStr)
    : PreparedFor led aid consumer (·.1) (led.prepareReceipt lib aid consumer) := by
  intro p prepared
  simp only [Ledger.prepareReceipt, Ledger.checkUnspent, bind_eq_ok, raiseIf_eq_ok,
    exists_const] at prepared
  obtain ⟨-, prepared⟩ := prepared
  split at prepared
  · simp only [bind_eq_ok, raiseIf_eq_ok, exists_const] at prepared
    obtain ⟨unspent, body, -, prepared⟩ := prepared
    split at prepared
    · simp only [bind_eq_ok, prepare_eq_ok] at prepared
      obtain ⟨sig, -, writable, rfl⟩ := prepared
      exact ⟨unspent, writable, rfl, rfl, rfl, rfl⟩
    · cases prepared
  · cases prepared

/-- The persisting tail of a prepared consume refuses, appends the next entry, or meets the
fault; by the outcome of the append.
-/
theorem persist_cases {α : Type} {led : Ledger} {aid : Bytes} {consumer : PyStr}
    {entry : α → LedgerEntry} {prepared : Py (Prepared α)} (fault : Option Fault)
    (preparedFor : PreparedFor led aid consumer entry prepared)
    : (∃ err, led.persist fault prepared = (.error err, led))
      ∨ (∃ result, entry result = led.nextEntry aid consumer ∧ aid ∉ led.memory.consumed
        ∧ Writable (led.nextEntry aid consumer)
        ∧ led.persist fault prepared
          = (.ok result, appendEntry led (led.nextEntry aid consumer)))
      ∨ ∃ failing, fault = some failing ∧ led.persist fault prepared
          = (.error .osError, failEntry led (led.nextEntry aid consumer) failing) := by
  cases prepared with
  | error err => exact .inl ⟨err, rfl⟩
  | ok p =>
      obtain ⟨unspent, writable, result, entryEq, recordEq, framedEq⟩ := preparedFor p rfl
      cases closed : led.file.closed with
      | true =>
          exact .inl ⟨.valueError "seek of closed file", by
            simp [Ledger.persist, LogFile.append, closed]⟩
      | false =>
          cases fault with
          | none =>
              refine .inr (.inl ⟨p.result, result, unspent, writable, ?_⟩)
              simp [Ledger.persist, LogFile.append, closed, entryEq, recordEq, framedEq,
                appendEntry]
          | some failing =>
              refine .inr (.inr ⟨failing, rfl, ?_⟩)
              simp [Ledger.persist, LogFile.append, closed, framedEq, failEntry]

/-- An unspent id is consumed on an open ledger. -/
theorem consume_unspent {led : Ledger} {aid : Bytes} {consumer : PyStr}
    (unspent : aid ∉ led.memory.consumed) (isOpen : led.file.closed = false)
    (writable : Writable (led.nextEntry aid consumer))
    : led.consume none aid consumer
      = (.ok (led.nextEntry aid consumer), appendEntry led (led.nextEntry aid consumer)) := by
  have prepared : led.prepareConsume aid consumer
      = .ok ⟨led.nextEntry aid consumer, record (led.nextEntry aid consumer),
        framedRecord (led.nextEntry aid consumer), led.nextEntry aid consumer⟩ := by
    simp only [Ledger.prepareConsume, Ledger.checkUnspent, raiseIf_neg unspent, ok_bind]
    exact prepare_eq_ok.mpr ⟨writable, rfl⟩
  rw [Ledger.consume, prepared]
  simp [Ledger.persist, LogFile.append, isOpen, appendEntry]

/-- What was prepared is answered with the entry once the record is on the disk. -/
theorem persist_answered {α : Type} {led : Ledger} {aid : Bytes} {consumer : PyStr}
    {entry : α → LedgerEntry} {prepared : Py (Prepared α)} (call : Call)
    (id : call.aid = some aid) (preparedFor : PreparedFor led aid consumer entry prepared)
    : Answered led call
        ((led.persist call.fault prepared).1.map (fun result => some (entry result)))
        (led.persist call.fault prepared).2 := by
  rcases persist_cases call.fault preparedFor with
    ⟨err, reply⟩ | ⟨result, entryEq, unspent, writable, reply⟩ | ⟨fault, failing, reply⟩
  · rw [reply]
    exact .refused
  · rw [reply]
    simp only [Except.map, entryEq]
    exact .appended id unspent writable
  · rw [reply]
    exact .faulted id failing

theorem reopenAs_answered {led : Ledger} {call : Call} {opened : Py Ledger}
    (id : call.aid = none)
    (sound : ∀ new, opened = .ok new → new.file = { disk := led.file.disk ++ led.file.pending }
      ∧ replay (led.file.disk ++ led.file.pending) = .ok new.memory)
    : Answered led call (reopenAs led opened).1 (reopenAs led opened).2 := by
  unfold reopenAs
  cases opened with
  | error err => exact .closed id
  | ok new => exact .reopened id (sound new rfl).1 (sound new rfl).2

/-- Every call is answered in one of the listed ways, by the five kinds of call. -/
theorem step_answered (lib : SignatureLibrary) (led : Ledger) (call : Call)
    : Answered led call (step lib led call).1 (step lib led call).2 := by
  cases call with
  | consume fault aid consumer =>
      exact persist_answered (.consume fault aid consumer) rfl
        (prepareConsume_preparedFor led aid consumer)
  | consumeObject fault o aid consumer =>
      simp only [step, Ledger.consumeObject]
      split
      · exact .refused
      · split
        · exact .refused
        · exact persist_answered (.consumeObject fault o aid consumer) rfl
            (prepareConsume_preparedFor led aid consumer)
  | consumeWithReceipt fault aid consumer =>
      exact persist_answered (.consumeWithReceipt fault aid consumer) rfl
        (prepareReceipt_preparedFor lib led aid consumer)
  | reopen authority =>
      refine reopenAs_answered rfl ?_
      intro new opened
      simp only [openLedger, bind_eq_ok, pure_eq_ok, Except.ok.injEq] at opened
      obtain ⟨memory, replayed, rfl⟩ := opened
      exact ⟨rfl, replayed⟩
  | reopenSigned ledgerId alg seed =>
      refine reopenAs_answered rfl ?_
      intro new opened
      simp only [openLedgerSigned, bind_eq_ok, raiseIf_eq_ok, exists_const, pure_eq_ok,
        Except.ok.injEq] at opened
      obtain ⟨-, memory, replayed, rfl⟩ := opened
      exact ⟨rfl, replayed⟩

-----------------------------------------------------------------------------------------
-- What whole runs keep
-----------------------------------------------------------------------------------------

/-- Memory and log agree: some entries lead from the genesis memory to the ledger's memory,
their framed records are the whole log, and nothing waits in the write buffer.
-/
structure Consistent (led : Ledger) : Prop where
  flushed : led.file.pending = []
  logged : ∃ entries, Chain .genesis entries led.memory
    ∧ led.file.disk = entries.flatMap framedRecord

/-- The call's writes succeed, or its first write fails before an octet is written. -/
def Call.Clean (call : Call) : Prop := call.fault = none ∨ call.fault = some (.write 0)

theorem Consistent.replay_eq {led : Ledger} (consistent : Consistent led)
    : replay led.file.disk = .ok led.memory := by
  obtain ⟨entries, chain, log⟩ := consistent.logged
  rw [log]
  exact chain.replay_eq

theorem Consistent.whole {led : Ledger} (consistent : Consistent led)
    : led.file.disk ++ led.file.pending = led.file.disk := by
  rw [consistent.flushed, List.append_nil]

/-- A clean call keeps memory and log in agreement. Witness: the ways to answer it; an
appended entry extends the chain, and replay gives a reopened ledger the same memory.
-/
theorem Answered.consistent {led after : Ledger} {call : Call} {outcome : Outcome}
    (answered : Answered led call outcome after) (clean : call.Clean)
    (consistent : Consistent led)
    : Consistent after := by
  cases answered with
  | refused => exact consistent
  | @appended aid consumer _ unspent writable =>
      obtain ⟨entries, chain, log⟩ := consistent.logged
      refine ⟨rfl, entries ++ [led.nextEntry aid consumer],
        chain.snoc writable rfl rfl unspent, ?_⟩
      rw [appendEntry, consistent.whole, log, List.flatMap_append, List.flatMap_singleton]
  | @faulted aid consumer fault _ failing =>
      obtain ⟨entries, chain, log⟩ := consistent.logged
      rcases clean with working | atOnce
      · rw [failing] at working
        cases working
      · obtain rfl : fault = .write 0 := by
          rw [failing] at atOnce
          exact Option.some.inj atOnce
        refine ⟨rfl, entries, chain, ?_⟩
        rw [failEntry, consistent.whole, Fault.written, List.take_zero, List.append_nil, log]
  | @reopened new _ file replayed =>
      obtain ⟨entries, chain, log⟩ := consistent.logged
      rw [consistent.whole] at file replayed
      have same := consistent.replay_eq
      rw [replayed] at same
      refine ⟨by rw [file], entries, ?_, by rw [file, log]⟩
      rw [Except.ok.inj same]
      exact chain
  | closed =>
      obtain ⟨entries, chain, log⟩ := consistent.logged
      exact ⟨rfl, entries, chain, consistent.whole.trans log⟩

/-- The approval ids that a ledger holds as consumed. -/
def spentIds (led : Ledger) : Set Bytes := { aid | aid ∈ led.memory.consumed }

/-- No call forgets a consumed id, by the ways to answer it. -/
theorem Answered.spentIds_subset {led after : Ledger} {call : Call} {outcome : Outcome}
    (answered : Answered led call outcome after) (consistent : Consistent led)
    : spentIds led ⊆ spentIds after := by
  intro aid spent
  cases answered with
  | refused => exact spent
  | appended => exact (AList.mem_insert _).mpr (.inr spent)
  | faulted => exact spent
  | reopened _ _ replayed =>
      rw [consistent.whole, consistent.replay_eq] at replayed
      have same := Except.ok.inj replayed
      unfold spentIds at spent ⊢
      rwa [← same]
  | closed => exact spent

/-- The approval id that the event consumed, if its call succeeded. -/
def consumedId (event : Event Ledger Call Outcome) : Option Bytes :=
  match event.outcome with
  | .ok _ => event.call.aid
  | .error _ => none

/-- A successful consume spends an id that was unspent, by the ways to answer it. -/
theorem Answered.spends {led after : Ledger} {call : Call} {outcome : Outcome} {aid : Bytes}
    (answered : Answered led call outcome after)
    (won : consumedId ⟨led, call, outcome, after⟩ = some aid)
    : aid ∉ spentIds led ∧ aid ∈ spentIds after := by
  cases answered with
  | refused => cases won
  | appended id unspent _ =>
      obtain rfl := Option.some.inj (id.symm.trans won)
      exact ⟨unspent, (AList.mem_insert _).mpr (.inl rfl)⟩
  | faulted => cases won
  | reopened id => cases id.symm.trans won
  | closed => cases won

/-- A call that raises leaves log and memory as they were, unless a write of it failed. -/
theorem Answered.unchanged {led after : Ledger} {call : Call} {outcome : Outcome} {err : Exc}
    (answered : Answered led call outcome after) (working : call.fault = none)
    (consistent : Consistent led) (raised : outcome = .error err)
    : after.file.disk = led.file.disk ∧ after.memory = led.memory := by
  cases answered with
  | refused => exact ⟨rfl, rfl⟩
  | appended => cases raised
  | faulted _ failing =>
      rw [working] at failing
      cases failing
  | reopened => cases raised
  | closed => exact ⟨consistent.whole, rfl⟩

/-- A ledger freshly opened on an empty log, plainly or with a signing identity. -/
def Started (led : Ledger) : Prop :=
  (∃ authority, openLedger [] authority = .ok led)
  ∨ ∃ ledgerId alg seed, openLedgerSigned [] ledgerId alg seed = .ok led

/-- A ledger that was just opened remembers what its log says. -/
theorem Started.consistent {led : Ledger} (started : Started led) : Consistent led := by
  have empty : replay [] = .ok .genesis := replayFrom_nil _
  rcases started with ⟨authority, opened⟩ | ⟨ledgerId, alg, seed, opened⟩
  · simp only [openLedger, empty, ok_bind, pure_eq_ok, Except.ok.injEq] at opened
    subst opened
    exact ⟨rfl, [], .nil _, rfl⟩
  · simp only [openLedgerSigned, empty, bind_eq_ok, raiseIf_eq_ok, exists_const, pure_eq_ok,
      Except.ok.injEq, exists_eq_left'] at opened
    obtain ⟨-, rfl⟩ := opened
    exact ⟨rfl, [], .nil _, rfl⟩

/-- The log is the concatenation of the framed canonical records of the entries, numbered from
zero, hash-chained from 48 zero octets, and with pairwise distinct approval ids.
-/
structure LogOf (entries : List LedgerEntry) (log : Bytes) : Prop where
  framed : log = entries.flatMap framedRecord
  canonical : ∀ e ∈ entries, Writable e
  numbered : ∀ (i : Nat) e, entries[i]? = some e → e.seq = i
  genesis : ∀ e, entries[0]? = some e → e.prev = List.replicate 48 0
  linked : ∀ (i : Nat) e before, entries[i]? = some before → entries[i + 1]? = some e
    → e.prev = Sha2.sha384 (record before)
  distinct : (entries.map (·.approvalId)).Nodup

/-- The disk of a consistent ledger is a log of entries. -/
theorem Consistent.logOf {led : Ledger} (consistent : Consistent led)
    : ∃ entries, LogOf entries led.file.disk := by
  obtain ⟨entries, chain, log⟩ := consistent.logged
  refine ⟨entries, log, chain.writable, ?_, chain.prev_eq.1, chain.prev_eq.2,
    chain.consumed_eq.2.1⟩
  intro i e found
  have numbered := chain.seq_eq.1 i e found
  rw [numbered]
  exact Int.zero_add _

/-- Over every run from an empty log whose writes succeed: the log is a well-formed chain of
framed entries, replaying it rebuilds the memory, no approval id is consumed by two calls, and
a call that raises changes neither log nor memory.
-/
theorem run_keeps_ledger (lib : SignatureLibrary) {start : Ledger} {calls : List Call}
    (started : Started start) (working : ∀ call ∈ calls, call.fault = none)
    : (∃ entries, LogOf entries (finalState (step lib) start calls).file.disk)
      ∧ (finalState (step lib) start calls).file.pending = []
      ∧ replay (finalState (step lib) start calls).file.disk
        = .ok (finalState (step lib) start calls).memory
      ∧ ((trace (step lib) start calls).filterMap consumedId).Nodup
      ∧ ∀ event ∈ trace (step lib) start calls, ∀ err, event.outcome = .error err
        → event.after.file.disk = event.before.file.disk
          ∧ event.after.memory = event.before.memory := by
  have keeps : ∀ led (call : Call), call.fault = none → Consistent led
      → Consistent (step lib led call).2 :=
    fun led call none => (step_answered lib led call).consistent (.inl none)
  have grows : ∀ led (call : Call), call.fault = none → Consistent led
      → spentIds led ⊆ spentIds (step lib led call).2 :=
    fun led call _ => (step_answered lib led call).spentIds_subset
  have final := finalState_invariant keeps started.consistent working
  refine ⟨final.logOf, final.flushed, final.replay_eq, ?_, ?_⟩
  · refine (wins_nodup keeps grows ?_ started.consistent working).1
    exact fun led call aid _ _ won => (step_answered lib led call).spends won
  · intro event member err raised
    obtain ⟨consistent, none, same⟩ := mem_trace keeps started.consistent working member
    rw [same] at raised ⊢
    exact (step_answered lib _ _).unchanged none consistent raised

theorem openLedger_nil (authority : PyStr)
    : openLedger [] authority
      = .ok { file := { disk := [] }, memory := .genesis, ledgerId := authority } := by
  simp [openLedger, replay, replayFrom_nil]

/-- The theorem at a run that consumes, reopens, tries again and consumes with a receipt. -/
theorem run_keeps_ledger_across_reopen
    : ∃ start, openLedger [] [] = .ok start
      ∧ ((trace (step digestLibrary) start
          [.consume none [1] [], .reopen [], .consume none [1] [],
            .reopenSigned [7] algMldsa65 (some [0]), .consumeWithReceipt none [2] []]).filterMap
          consumedId).Nodup := by
  refine ⟨_, openLedger_nil [], ?_⟩
  exact (run_keeps_ledger digestLibrary (.inl ⟨[], openLedger_nil []⟩)
    (by simp [Call.fault])).2.2.2.1

end Naalp.ConsumeLedger
