import Naalp.ConsumeLedger.Runs

/-! Consumes that fail while persisting.
The ledger recovers from a failed consume exactly when no octet of the record was left in the
file or in the write buffer.
-/

namespace Naalp.ConsumeLedger

open Naalp.Foundation
open Naalp.Python
open Naalp.Python.Approval
open Naalp.Python.Cose

/-- The call passed all checks before the log, so that its writes are attempted. -/
def Call.ReachesLog (lib : SignatureLibrary) (led : Ledger) : Call → Prop
  | .consume _ aid consumer => (led.prepareConsume aid consumer).isOk
  | .consumeObject _ o aid consumer =>
      led.ledgerId ≠ [] ∧ (Envelope.checkAudience o led.ledgerId true).isOk
      ∧ (led.prepareConsume aid consumer).isOk
  | .consumeWithReceipt _ aid consumer => (led.prepareReceipt lib aid consumer).isOk
  | .reopen _ | .reopenSigned _ _ _ => False

/-- The later run consists of consumes whose writes succeed and that all succeed. -/
def SuccessfulConsumes (lib : SignatureLibrary) (led : Ledger) (later : List Call) : Prop :=
  (∀ call ∈ later, call.aid.isSome ∧ call.fault = none)
  ∧ ∀ event ∈ trace (step lib) led later, event.outcome.isOk

/-- After any later successful consumes on the same ledger object, closing it and opening the
log again is accepted and finds the same ids consumed.
-/
def Recovers (lib : SignatureLibrary) (led : Ledger) : Prop :=
  ∀ later authority, SuccessfulConsumes lib led later
    → ∃ reopened, openLedger (finalState (step lib) led later).close.file.disk authority
        = .ok reopened
      ∧ spentIds reopened = spentIds (finalState (step lib) led later)

theorem Consistent.openLedger_close {led : Ledger} (consistent : Consistent led)
    (authority : PyStr)
    : ∃ reopened, openLedger led.close.file.disk authority = .ok reopened
      ∧ spentIds reopened = spentIds led := by
  have disk : led.close.file.disk = led.file.disk := consistent.whole
  refine ⟨{ file := { disk := led.file.disk }, memory := led.memory, ledgerId := authority }, ?_,
    rfl⟩
  rw [disk, openLedger, consistent.replay_eq]
  rfl

/-- A ledger whose memory and log agree recovers, since successful consumes keep them so. -/
theorem Consistent.recovers (lib : SignatureLibrary) {led : Ledger} (consistent : Consistent led)
    : Recovers lib led := by
  intro later authority successful
  have keeps : ∀ led (call : Call), call.Clean → Consistent led
      → Consistent (step lib led call).2 :=
    fun led call => (step_answered lib led call).consistent
  have final := finalState_invariant keeps consistent
    (fun call member => .inl (successful.1 call member).2)
  exact final.openLedger_close authority

/-- Replay refuses a record that was cut short. Witness: the cut falls in the length prefix, or
leaves fewer octets than the prefix announces.
-/
theorem replayFrom_truncated {e : LedgerEntry} {mem : LedgerMemory} {count : Nat}
    (writable : Writable e) (positive : 0 < count) (short : count < (framedRecord e).length)
    : ∃ msg, replayFrom ((framedRecord e).take count) mem
        = .error (.approvalError .ledgerCorrupt msg) := by
  have size : (toBigEndian 4 (record e).length).length = 4 := length_toBigEndian ..
  have total : (framedRecord e).length = 4 + (record e).length := by
    simp [framedRecord]
  have taken : ((framedRecord e).take count).length = count := List.length_take_of_le short.le
  have nonempty : (framedRecord e).take count ≠ [] := by
    rw [← List.length_pos_iff, taken]
    exact positive
  rw [replayFrom, dif_neg nonempty, taken]
  by_cases inPrefix : count < 4
  · rw [raiseIf_pos inPrefix]
    exact ⟨_, rfl⟩
  · have announced : ((framedRecord e).take count).take 4 = toBigEndian 4 (record e).length := by
      rw [List.take_take, min_eq_left (by omega), framedRecord, List.take_left' size]
    have read : ofBigEndian (toBigEndian 4 (record e).length) = (record e).length :=
      ofBigEndian_toBigEndian (by have := writable.short; omega)
    have missing : (((framedRecord e).take count).drop 4).length < (record e).length := by
      rw [List.length_drop, taken]
      omega
    rw [raiseIf_neg inPrefix, announced, read]
    simp only [ok_bind, raiseIf_pos missing, error_bind]
    exact ⟨_, rfl⟩

/-- What a fault other than an immediately failing write leaves, in the file and then in the
buffer, is a nonempty prefix of the record.
-/
theorem Fault.left_eq_take {fault : Fault} {framed : Bytes} (nonempty : framed ≠ [])
    (dirty : fault ≠ .write 0)
    : ∃ count, 0 < count
      ∧ fault.written framed ++ fault.buffered framed = framed.take count := by
  have positive := List.length_pos_iff.mpr nonempty
  cases fault with
  | write count =>
      have positive : 0 < count := Nat.pos_of_ne_zero fun zero => dirty (by rw [zero])
      exact ⟨count, positive, List.append_nil _⟩
  | flush count =>
      exact ⟨framed.length, positive, by simp [Fault.written, Fault.buffered]⟩
  | fsync => exact ⟨framed.length, positive, by simp [Fault.written, Fault.buffered]⟩

/-- With octets of a failed record left behind, closing and reopening at once either is refused
or finds the failed approval consumed.
Witness: the leftover is a part of one record, which is refused as truncated, or the whole of
it, which is replayed.
-/
theorem not_recovers_of_left {lib : SignatureLibrary} {led after : Ledger} {aid : Bytes}
    {consumer : PyStr} {fault : Fault} (consistent : Consistent led)
    (unspent : aid ∉ led.memory.consumed) (writable : Writable (led.nextEntry aid consumer))
    (memory : after.memory = led.memory)
    (left : after.file.disk ++ after.file.pending = led.file.disk
      ++ (fault.written (framedRecord (led.nextEntry aid consumer))
        ++ fault.buffered (framedRecord (led.nextEntry aid consumer))))
    (dirty : fault ≠ .write 0)
    : ¬ Recovers lib after := by
  intro recovers
  have nonempty : framedRecord (led.nextEntry aid consumer) ≠ [] := by
    rw [← List.length_pos_iff]
    simp [framedRecord]
  obtain ⟨count, positive, leftover⟩ := Fault.left_eq_take nonempty dirty
  obtain ⟨entries, chain, log⟩ := consistent.logged
  obtain ⟨reopened, opened, same⟩ := recovers [] [] ⟨by simp, by simp [trace]⟩
  have disk : (finalState (step lib) after []).close.file.disk = entries.flatMap framedRecord
      ++ (framedRecord (led.nextEntry aid consumer)).take count := by
    rw [← log, ← leftover]
    exact left
  simp only [openLedger, replay, disk, chain.replayFrom_append, bind_eq_ok, pure_eq_ok,
    Except.ok.injEq] at opened
  obtain ⟨rebuilt, replayed, rfl⟩ := opened
  by_cases short : count < (framedRecord (led.nextEntry aid consumer)).length
  · obtain ⟨msg, refused⟩ := @replayFrom_truncated _ led.memory _ writable positive short
    rw [refused] at replayed
    cases replayed
  · have whole := @replayFrom_framedRecord _ led.memory [] writable rfl rfl
    rw [List.take_of_length_le (by omega), ← List.append_nil (framedRecord _), whole,
      replayFrom_nil] at replayed
    obtain rfl := Except.ok.inj replayed
    have spent : aid ∈ spentIds after := by
      change aid ∈ spentIds (finalState (step lib) after [])
      rw [← same]
      exact (AList.mem_insert _).mpr (.inl rfl)
    unfold spentIds at spent
    rw [memory] at spent
    exact unspent spent

/-- A failing write of a prepared consume raises, and leaves the memory as it was. -/
theorem persist_faulted {α : Type} {led : Ledger} {aid : Bytes} {consumer : PyStr}
    {entry : α → LedgerEntry} {prepared : Py (Prepared α)} (fault : Fault)
    (preparedFor : PreparedFor led aid consumer entry prepared) (reaches : prepared.isOk)
    (isOpen : led.file.closed = false)
    : aid ∉ led.memory.consumed ∧ Writable (led.nextEntry aid consumer)
      ∧ led.persist (some fault) prepared
        = (.error .osError, failEntry led (led.nextEntry aid consumer) fault) := by
  cases prepared with
  | error err => cases reaches
  | ok p =>
      obtain ⟨unspent, writable, -, -, -, framedEq⟩ := preparedFor p rfl
      refine ⟨unspent, writable, ?_⟩
      simp [Ledger.persist, LogFile.append, isOpen, framedEq, failEntry]

/-- A call that reaches the log of an open ledger and meets a fault leaves behind what the
fault leaves of the record. Witness: the three consuming calls end in the same append.
-/
theorem step_faulted {lib : SignatureLibrary} {led : Ledger} {call : Call} {fault : Fault}
    (failing : call.fault = some fault) (isOpen : led.file.closed = false)
    (reaches : call.ReachesLog lib led)
    : ∃ aid consumer, aid ∉ led.memory.consumed ∧ Writable (led.nextEntry aid consumer)
      ∧ step lib led call
        = (.error .osError, failEntry led (led.nextEntry aid consumer) fault) := by
  cases call with
  | consume _ aid consumer =>
      obtain rfl : _ = some fault := failing
      obtain ⟨unspent, writable, result⟩ :=
        persist_faulted fault (prepareConsume_preparedFor led aid consumer) reaches isOpen
      exact ⟨aid, consumer, unspent, writable, by simp [step, Ledger.consume, result, Except.map]⟩
  | consumeObject _ o aid consumer =>
      obtain rfl : _ = some fault := failing
      obtain ⟨named, audience, prepared⟩ := reaches
      obtain ⟨unspent, writable, result⟩ :=
        persist_faulted fault (prepareConsume_preparedFor led aid consumer) prepared isOpen
      refine ⟨aid, consumer, unspent, writable, ?_⟩
      cases checked : Envelope.checkAudience o led.ledgerId true with
      | error err => simp [checked, Except.isOk, Except.toBool] at audience
      | ok _ => simp [step, Ledger.consumeObject, named, checked, Ledger.consume, result,
          Except.map]
  | consumeWithReceipt _ aid consumer =>
      obtain rfl : _ = some fault := failing
      obtain ⟨unspent, writable, result⟩ :=
        persist_faulted fault (prepareReceipt_preparedFor lib led aid consumer) reaches isOpen
      exact ⟨aid, consumer, unspent, writable,
        by simp [step, Ledger.consumeWithReceipt, result, Except.map]⟩
  | reopen authority => cases reaches
  | reopenSigned ledgerId alg seed => cases reaches

/-- A consistent open ledger recovers from a failing consume exactly when its first write
fails before an octet is written.
-/
theorem Consistent.recovers_iff {lib : SignatureLibrary} {led : Ledger} {call : Call}
    {fault : Fault} (consistent : Consistent led) (failing : call.fault = some fault)
    (isOpen : led.file.closed = false) (reaches : call.ReachesLog lib led)
    : (step lib led call).1 = .error .osError
      ∧ (Recovers lib (step lib led call).2 ↔ fault = .write 0) := by
  obtain ⟨aid, consumer, unspent, writable, result⟩ := step_faulted failing isOpen reaches
  refine ⟨by rw [result], ?_, ?_⟩
  · intro recovers
    by_contra dirty
    have memory : (step lib led call).2.memory = led.memory := by rw [result, failEntry]
    refine not_recovers_of_left consistent unspent writable memory ?_ dirty recovers
    rw [result, failEntry, consistent.whole, List.append_assoc]
  · intro atOnce
    have clean : call.Clean := .inr (by rw [failing, atOnce])
    exact ((step_answered lib led call).consistent clean consistent).recovers lib

/-- In every run from an empty log whose failed writes all failed before an octet was written,
the ledger recovers from a further consume that fails while persisting exactly when that one
fails before an octet is written, too.
-/
theorem failed_consume_recovers_iff (lib : SignatureLibrary) {start : Ledger}
    {calls : List Call} (started : Started start) (clean : ∀ call ∈ calls, call.Clean)
    {call : Call} {fault : Fault} (failing : call.fault = some fault)
    (isOpen : (finalState (step lib) start calls).file.closed = false)
    (reaches : call.ReachesLog lib (finalState (step lib) start calls))
    : (step lib (finalState (step lib) start calls) call).1 = .error .osError
      ∧ (Recovers lib (step lib (finalState (step lib) start calls) call).2
        ↔ fault = .write 0) := by
  have keeps : ∀ led (call : Call), call.Clean → Consistent led
      → Consistent (step lib led call).2 :=
    fun led call => (step_answered lib led call).consistent
  exact (finalState_invariant keeps started.consistent clean).recovers_iff failing isOpen reaches

/-- The theorem at a first consume whose write fails at once. -/
theorem failed_consume_recovers_first_write
    : ∃ start, openLedger [] [] = .ok start
      ∧ Recovers digestLibrary (step digestLibrary start
        (.consume (some (.write 0)) [1] [])).2 := by
  refine ⟨_, openLedger_nil [], ?_⟩
  have first : ∀ call ∈ ([] : List Call), call.Clean := by simp
  have recovery := failed_consume_recovers_iff digestLibrary (.inl ⟨[], openLedger_nil []⟩)
    first (show (Call.consume (some (.write 0)) [1] []).fault = some (.write 0) from rfl) rfl
    (show (Ledger.prepareConsume _ [1] []).isOk = true by decide)
  exact recovery.2.mpr rfl

/-- When the flush of the first consume fails with the whole record still buffered, closing
writes it out: the reopened ledger holds the approval as consumed, which the failed call never
acknowledged.
-/
theorem failed_flush_not_recovered
    : ∃ start, openLedger [] [] = .ok start
      ∧ (step digestLibrary start (.consume (some (.flush 0)) [1] [])).1 = .error .osError
      ∧ ¬ Recovers digestLibrary
        (step digestLibrary start (.consume (some (.flush 0)) [1] [])).2 := by
  refine ⟨_, openLedger_nil [], ?_⟩
  have started : Started _ := .inl ⟨[], openLedger_nil []⟩
  have reaches : (Call.consume (some (.flush 0)) [1] []).ReachesLog digestLibrary
      { file := { disk := [] }, memory := .genesis } :=
    show (Ledger.prepareConsume _ [1] []).isOk = true by decide
  obtain ⟨raised, recovery⟩ := started.consistent.recovers_iff rfl rfl reaches
  refine ⟨raised, ?_⟩
  intro recovers
  cases recovery.mp recovers

end Naalp.ConsumeLedger
