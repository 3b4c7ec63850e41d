import Naalp.ConsumeLedger.Runs
import Naalp.ConsumeLedger.Specification
import Naalp.Envelope.SignVerify
import Naalp.Receipts.DoubleSpends

/-! Signed ledgers on the two sides of a partition, with a receipt set that observes what they mint,
simulate the model of `formal/consume_ledger.tla`. Observed later, in whatever order, two receipts
for one approval id still show.
-/

namespace Naalp.Receipts

open Naalp.Foundation
open Naalp.Python
open Naalp.Python.Approval
open Naalp.Python.Cose
open Naalp.ConsumeLedger
open Naalp.ConsumeLedger.Specification (Side Inv Contradicts HasConsumed SameReceipt recordFor
  nextRecord specification)

/-- What a signed ledger is opened with. -/
structure LedgerKey where
  ledgerId : Bytes
  alg : Int
  seed : Bytes

/-- The ledgers of the two sides, the receipts they minted, the set that observed them, and the
evidence that it returned.
-/
structure Partition where
  ledger : Side → Ledger
  minted : List (Side × (ConsumeReceipt × Bytes)) := []
  receipts : ReceiptSet
  evidence : List ConsumeForkEvidence := []

/-- A request to one of the ledgers, with the fault that its writes meet if any. -/
inductive Request where
  | consume (fault : Option Fault) (aid : Bytes) (consumer : PyStr)
  | close
  | reopen

def Request.fault : Request → Option Fault
  | .consume fault _ _ => fault
  | .close | .reopen => none

/-- The request's writes succeed, or its first write fails before an octet is written. -/
def Request.Clean (request : Request) : Prop :=
  request.fault = none ∨ request.fault = some (.write 0)

section Answers

variable (lib : SignatureLibrary) (keys : Side → LedgerKey)

def Partition.withLedger (p : Partition) (side : Side) (led : Ledger) : Partition :=
  { p with ledger := Function.update p.ledger side led }

/-- The evidence in what an observation returned. -/
def evidenceOf : Py (Option ConsumeForkEvidence) → List ConsumeForkEvidence
  | .ok (some evidence) => [evidence]
  | _ => []

/-- A minted receipt goes to the receipt set, which may return evidence. -/
def Partition.observe (p : Partition) (side : Side) (link : ConsumeReceipt × Bytes) : Partition :=
  let answered := spendStep lib p.receipts link
  { p with
    minted := p.minted ++ [(side, link)]
    receipts := answered.2
    evidence := p.evidence ++ evidenceOf answered.1 }

def Partition.answer (p : Partition) : Side × Request → Py (Option ConsumeReceipt) × Partition
  | (side, .consume fault aid consumer) =>
      match (p.ledger side).consumeWithReceipt lib fault aid consumer with
      | (.error err, led) => (.error err, p.withLedger side led)
      | (.ok (_, link), led) => (.ok (some link.1), (p.withLedger side led).observe lib side link)
  | (side, .close) => (.ok none, p.withLedger side (p.ledger side).close)
  | (side, .reopen) =>
      let key := keys side
      let (outcome, led) :=
        step lib (p.ledger side) (.reopenSigned key.ledgerId key.alg (some key.seed))
      (outcome.map fun _ => none, p.withLedger side led)

variable {lib}

theorem mem_evidenceOf {outcome : Py (Option ConsumeForkEvidence)} {e : ConsumeForkEvidence}
    : e ∈ evidenceOf outcome ↔ outcome = .ok (some e) := by
  rcases outcome with err | none | found
  · simp [evidenceOf]
  · simp [evidenceOf]
  · simp [evidenceOf, eq_comm]

theorem ledger_withLedger (p : Partition) (side : Side) (led : Ledger)
    : (p.withLedger side led).ledger side = led :=
  Function.update_self ..

theorem ledger_withLedger_of_ne {side at_ : Side} (p : Partition) (led : Ledger)
    (elsewhere : at_ ≠ side)
    : (p.withLedger side led).ledger at_ = p.ledger at_ :=
  Function.update_of_ne elsewhere ..

@[simp]
theorem ledger_observe (p : Partition) (side : Side) (link : ConsumeReceipt × Bytes)
    : (p.observe lib side link).ledger = p.ledger :=
  rfl

end Answers

-----------------------------------------------------------------------------------------
-- One signed ledger
-----------------------------------------------------------------------------------------

/-- A ledger under a key, whose log holds the entries. -/
structure SignedLog (key : LedgerKey) (entries : List LedgerEntry) (led : Ledger) : Prop where
  ledgerId : led.receiptLedgerId = key.ledgerId
  alg : led.receiptAlg = some key.alg
  seed : led.receiptSeed = some key.seed
  flushed : led.file.pending = []
  chain : Chain .genesis entries led.memory
  log : led.file.disk = entries.flatMap framedRecord

section Ledgers

variable {lib : SignatureLibrary} {key : LedgerKey} {entries : List LedgerEntry} {led : Ledger}
  {aid : Bytes} {consumer : PyStr} {fault : Option Fault}

theorem SignedLog.whole (signed : SignedLog key entries led)
    : led.file.disk ++ led.file.pending = led.file.disk := by
  rw [signed.flushed, List.append_nil]

/-- Appending the entry of an unspent id leaves a signed log. -/
theorem SignedLog.append (signed : SignedLog key entries led) (unspent : aid ∉ led.memory.consumed)
    (writable : Writable (led.nextEntry aid consumer))
    : SignedLog key (entries ++ [led.nextEntry aid consumer])
        (appendEntry led (led.nextEntry aid consumer)) where
  ledgerId := signed.ledgerId
  alg := signed.alg
  seed := signed.seed
  flushed := rfl
  chain := signed.chain.snoc writable rfl rfl unspent
  log := by
    rw [appendEntry, signed.whole, signed.log, List.flatMap_append, List.flatMap_singleton]

/-- A write that fails before its first octet leaves the log as it is. -/
theorem SignedLog.fail (signed : SignedLog key entries led) (e : LedgerEntry)
    : SignedLog key entries (failEntry led e (.write 0)) where
  ledgerId := signed.ledgerId
  alg := signed.alg
  seed := signed.seed
  flushed := rfl
  chain := signed.chain
  log := by
    rw [failEntry, signed.whole, Fault.written, List.take_zero, List.append_nil, signed.log]

theorem SignedLog.close (signed : SignedLog key entries led) : SignedLog key entries led.close where
  ledgerId := signed.ledgerId
  alg := signed.alg
  seed := signed.seed
  flushed := rfl
  chain := signed.chain
  log := signed.whole.trans signed.log

/-- Reopening under the key replays the log to the same memory. -/
theorem SignedLog.reopen (signed : SignedLog key entries led)
    : SignedLog key entries
        (step lib led (.reopenSigned key.ledgerId key.alg (some key.seed))).2 := by
  have disk : led.close.file.disk = entries.flatMap framedRecord := signed.close.log
  simp only [step, openLedgerSigned, disk, signed.chain.replay_eq, ok_bind]
  by_cases unnamed : key.ledgerId = [] ∨ some key.seed = none
  · rw [raiseIf_pos unnamed]
    exact signed.close
  · rw [raiseIf_neg unnamed]
    exact ⟨rfl, rfl, rfl, rfl, signed.chain, rfl⟩

/-- The receipt that a ledger under a key signs for an approval id. -/
def receiptAt (key : LedgerKey) (led : Ledger) (aid : Bytes) : ConsumeReceipt :=
  { ledger := key.ledgerId, approvalId := aid, position := led.memory.seq }

/-- What a consume that reaches the log has signed. -/
theorem SignedLog.prepared (signed : SignedLog key entries led)
    {p : Prepared (LedgerEntry × ConsumeReceipt × Bytes)}
    (prepared : led.prepareReceipt lib aid consumer = .ok p)
    : key.ledgerId ≠ [] ∧ ∃ sig body,
      p.result = (led.nextEntry aid consumer, receiptAt key led aid, sig)
      ∧ (receiptAt key led aid).bytes = .ok body ∧ mldsaSign lib key.alg key.seed body
        = .ok sig := by
  simp only [Ledger.prepareReceipt, signed.ledgerId, signed.seed, signed.alg, bind_eq_ok,
    raiseIf_eq_ok, exists_const, prepare_eq_ok] at prepared
  obtain ⟨named, _, -, body, encoded, sig, signs, -, rfl⟩ := prepared
  exact ⟨named, sig, body, rfl, encoded, signs⟩

theorem persist_result {α : Type} {p : Prepared α} {result : α} {after : Ledger}
    (returned : led.persist fault (.ok p) = (.ok result, after)) : p.result = result := by
  unfold Ledger.persist at returned
  dsimp only at returned
  split at returned
  · cases returned
  · exact Except.ok.inj (congrArg Prod.fst returned)

/-- A consume with a receipt is refused and leaves the ledger with its entries, or appends the next
entry and returns its receipt, signed under the key.
-/
theorem SignedLog.consume_cases (signed : SignedLog key entries led)
    (clean : fault = none ∨ fault = some (.write 0))
    : (∃ err after, led.consumeWithReceipt lib fault aid consumer = (.error err, after)
        ∧ SignedLog key entries after)
      ∨ ∃ sig body, led.consumeWithReceipt lib fault aid consumer
          = (.ok (led.nextEntry aid consumer, receiptAt key led aid, sig),
            appendEntry led (led.nextEntry aid consumer))
        ∧ aid ∉ led.memory.consumed ∧ key.ledgerId ≠ []
        ∧ (receiptAt key led aid).bytes = .ok body ∧ mldsaSign lib key.alg key.seed body = .ok sig
        ∧ SignedLog key (entries ++ [led.nextEntry aid consumer])
          (appendEntry led (led.nextEntry aid consumer)) := by
  rcases persist_cases fault (prepareReceipt_preparedFor lib led aid consumer) with
    ⟨err, refused⟩ | ⟨result, named, unspent, writable, appended⟩ | ⟨failing, faulted, failed⟩
  · exact .inl ⟨err, led, refused, signed⟩
  · obtain ⟨e, receipt, sig⟩ := result
    obtain rfl : e = led.nextEntry aid consumer := named
    cases prepared : led.prepareReceipt lib aid consumer with
    | error err =>
        rw [prepared] at appended
        cases congrArg Prod.fst appended
    | ok p =>
        obtain ⟨nonempty, sig', body, made, encoded, signs⟩ := signed.prepared prepared
        have returned := appended
        rw [prepared] at returned
        obtain ⟨rfl, rfl⟩ : receiptAt key led aid = receipt ∧ sig' = sig := by
          simpa using made.symm.trans (persist_result returned)
        exact .inr ⟨sig', body, appended, unspent, nonempty, encoded, signs,
          signed.append unspent writable⟩
  · rcases clean with working | atOnce
    · cases working.symm.trans faulted
    · obtain rfl := Option.some.inj (atOnce.symm.trans faulted)
      exact .inl ⟨_, _, failed, signed.fail _⟩

end Ledgers

-----------------------------------------------------------------------------------------
-- The simulation
-----------------------------------------------------------------------------------------

/-- The record of an entry of a ledger under a key. -/
def recordOf (key : LedgerKey) (e : LedgerEntry) : ConsumeLedger.Specification.Record Bytes Bytes :=
  { approvalId := e.approvalId, ledgerKey := key.ledgerId, position := e.seq.toNat }

/-- The receipt of a record. -/
def receiptFor (r : ConsumeLedger.Specification.Record Bytes Bytes) : ConsumeReceipt :=
  { ledger := r.ledgerKey, approvalId := r.approvalId, position := r.position }

variable (lib : SignatureLibrary) (keys : Side → LedgerKey) (resolve : Resolver)

/-- The receipt set resolves the keys of both ledgers, which sign verifiably. -/
structure KnownKeys : Prop where
  signs : Envelope.SignsVerifiably lib
  resolves : ∀ side, ∃ set pk, mldsa (keys side).alg = .ok set
    ∧ lib.mldsaPublic set (keys side).seed = .ok pk
    ∧ resolve (keys side).ledgerId = some ((keys side).alg, pk)

/-- The logs hold the records of the model, their receipts have been observed in turn, and the
evidence is for the flagged ids.
-/
structure Related (p : Partition) (s : ConsumeLedger.Specification.State Bytes Bytes) : Prop where
  inv : Inv s
  signed : ∀ side, ∃ entries, SignedLog (keys side) entries (p.ledger side)
    ∧ s.ledger side = entries.map (recordOf (keys side))
  drawn : ∀ side link, (side, link) ∈ p.minted → ∃ r ∈ s.ledger side, link.1 = receiptFor r
  minted : ∀ side, ∀ r ∈ s.ledger side, ∃ link, (side, link) ∈ p.minted ∧ link.1 = receiptFor r
  valid : ∀ side link, (side, link) ∈ p.minted → validSpend lib resolve link = true
  observed : p.receipts = collected lib resolve (p.minted.map Prod.snd)
  flagged : p.evidence.map (·.approvalId) = s.forkLog
  verifies : ∀ e ∈ p.evidence, e.approvalId ≠ [] → e.verify lib resolve = .ok ()

variable {lib keys resolve} {p : Partition} {s : ConsumeLedger.Specification.State Bytes Bytes}
  {side : Side} {entries : List LedgerEntry} {led : Ledger} {aid : Bytes}

/-- A receipt that is signed under a known key is valid. -/
theorem KnownKeys.validSpend (known : KnownKeys lib keys resolve) {receipt : ConsumeReceipt}
    {body sig : Bytes} (named : receipt.ledger = (keys side).ledgerId)
    (nonempty : (keys side).ledgerId ≠ [])
    (encoded : receipt.bytes = .ok body)
    (signs : mldsaSign lib (keys side).alg (keys side).seed body = .ok sig)
    : validSpend lib resolve (receipt, sig) = true := by
  obtain ⟨set, pk, isMldsa, key, resolved⟩ := known.resolves side
  obtain ⟨-, -, verifies⟩ := @Envelope.coseVerify1Raw_mldsa lib _ _ isMldsa
  obtain ⟨sig', signed, -, valid⟩ := known.signs.mldsa key body [] (Nat.zero_le _)
  rw [mldsaSign, isMldsa, ok_bind, signed] at signs
  obtain rfl := Except.ok.inj signs
  refine validSpend_iff.mpr ⟨named ▸ nonempty, (keys side).alg, pk, body, named ▸ resolved,
    encoded, ?_⟩
  rw [verifies, valid]

/-- The record of the next entry is the next record of the model. -/
theorem SignedLog.recordOf_nextEntry {key : LedgerKey} (signed : SignedLog key entries led)
    (consumer : PyStr)
    : recordOf key (led.nextEntry aid consumer)
      = nextRecord (entries.map (recordOf key)) aid key.ledgerId := by
  have numbered : led.memory.seq = entries.length := by
    rw [signed.chain.seq_eq.2]
    exact Int.zero_add _
  simp [recordOf, nextRecord, Ledger.nextEntry, numbered]

theorem SignedLog.receiptFor_nextRecord {key : LedgerKey} (signed : SignedLog key entries led)
    : receiptFor (nextRecord (entries.map (recordOf key)) aid key.ledgerId)
      = receiptAt key led aid := by
  have numbered : led.memory.seq = entries.length := by
    rw [signed.chain.seq_eq.2]
    exact Int.zero_add _
  simp [receiptFor, nextRecord, receiptAt, numbered]

/-- A ledger holds an id as consumed exactly when the model's ledger has consumed it. -/
theorem SignedLog.hasConsumed_iff {key : LedgerKey} (signed : SignedLog key entries led)
    : HasConsumed (entries.map (recordOf key)) aid ↔ aid ∈ led.memory.consumed := by
  rw [signed.chain.consumed_eq.1]
  have empty : aid ∉ LedgerMemory.genesis.consumed := AList.notMem_empty aid
  simp [HasConsumed, recordOf, empty]

/-- Receipts of records of one approval id are the same when the model takes them for the same. -/
theorem receiptFor_eq_iff {r r' : ConsumeLedger.Specification.Record Bytes Bytes}
    (named : r.approvalId = r'.approvalId) : receiptFor r = receiptFor r' ↔ SameReceipt r r' := by
  simp [receiptFor, SameReceipt, named]

/-- A minted receipt is for the one record of its approval id at its side. -/
theorem Related.record_of_minted (related : Related lib keys resolve p s)
    {link : ConsumeReceipt × Bytes} (member : (side, link) ∈ p.minted)
    : ∃ r ∈ recordFor (s.ledger side) link.1.approvalId, link.1 = receiptFor r := by
  obtain ⟨r, inside, made⟩ := related.drawn side link member
  have named : link.1.approvalId = r.approvalId := congrArg ConsumeReceipt.approvalId made
  exact ⟨r, named ▸ ConsumeLedger.Specification.recordFor_of_mem
    (related.inv.unique side) inside, made⟩

/-- The first receipt for an id that one side has not consumed was minted at the other. -/
theorem Related.first_minted (related : Related lib keys resolve p s)
    {first : ConsumeReceipt × Bytes} (unspent : ¬ HasConsumed (s.ledger side) aid)
    (found : firstAt (validSpend lib resolve) approvalOf (p.minted.map Prod.snd) aid = some first)
    : ∃ held ∈ recordFor (s.ledger side.other) aid, first.1 = receiptFor held := by
  obtain ⟨member, -, rfl⟩ := firstAt_eq_some found
  obtain ⟨⟨at_, link⟩, minted, rfl⟩ := List.mem_map.mp member
  obtain ⟨held, consumed, made⟩ := related.record_of_minted minted
  have elsewhere : at_ ≠ side := by
    rintro rfl
    exact unspent (ConsumeLedger.Specification.hasConsumed_iff.mpr ⟨held, consumed⟩)
  obtain rfl : at_ = side.other := by
    cases at_ <;> cases side <;> first | rfl | exact absurd rfl elsewhere
  exact ⟨held, consumed, made⟩

/-- The receipt set returns evidence for a receipt exactly when the model flags its record. -/
theorem Related.evidence_iff (related : Related lib keys resolve p s)
    {link : ConsumeReceipt × Bytes} {r : ConsumeLedger.Specification.Record Bytes Bytes}
    (valid : validSpend lib resolve link = true)
    (made : link.1 = receiptFor r) (unspent : ¬ HasConsumed (s.ledger side) r.approvalId)
    : (∃ evidence, (spendStep lib p.receipts link).1 = .ok (some evidence))
      ↔ Contradicts (s.ledger side.other) r := by
  have named : approvalOf link = r.approvalId := congrArg ConsumeReceipt.approvalId made
  rw [related.observed]
  simp only [returned_iff, ConflictsWith, named, receiptOf, made]
  constructor
  · intro conflict
    obtain ⟨_, first, ⟨-, found, differ⟩, -⟩ := conflict
    obtain ⟨held, consumed, same⟩ := related.first_minted unspent found
    obtain ⟨-, heldNamed⟩ := ConsumeLedger.Specification.recordFor_eq_some consumed
    refine ⟨held, consumed, fun equal => differ ?_⟩
    rw [same, (receiptFor_eq_iff heldNamed.symm).mpr equal]
  · intro contradicts
    obtain ⟨held, consumed, differ⟩ := contradicts
    obtain ⟨inside, heldNamed⟩ := ConsumeLedger.Specification.recordFor_eq_some consumed
    obtain ⟨earlier, minted, earlierMade⟩ := related.minted _ held inside
    have some : (firstAt (Receipts.validSpend lib resolve) approvalOf (p.minted.map Prod.snd)
        r.approvalId).isSome := by
      rw [firstAt, List.find?_isSome]
      refine ⟨earlier, List.mem_map_of_mem minted, ?_⟩
      rw [related.valid _ _ minted, approvalOf, earlierMade, receiptFor, heldNamed]
      exact decide_eq_true rfl
    obtain ⟨first, found⟩ := Option.isSome_iff_exists.mp some
    obtain ⟨held', consumed', same⟩ := related.first_minted unspent found
    obtain rfl := Option.some.inj (consumed.symm.trans consumed')
    refine ⟨_, first, ⟨valid, found, fun equal => differ ?_⟩, rfl⟩
    exact (receiptFor_eq_iff heldNamed.symm).mp (equal.symm.trans same)

/-- The evidence of one observation is for the approval id that the model flags, if any. -/
theorem Related.evidence_ids (related : Related lib keys resolve p s)
    {link : ConsumeReceipt × Bytes} {r : ConsumeLedger.Specification.Record Bytes Bytes}
    (valid : validSpend lib resolve link = true)
    (made : link.1 = receiptFor r) (unspent : ¬ HasConsumed (s.ledger side) r.approvalId)
    : (evidenceOf (spendStep lib p.receipts link).1).map (·.approvalId)
      = if Contradicts (s.ledger side.other) r then [r.approvalId] else [] := by
  have evidence := related.evidence_iff valid made unspent
  by_cases contradicts : Contradicts (s.ledger side.other) r
  · obtain ⟨evidence, returned⟩ := evidence.mpr contradicts
    rw [if_pos contradicts, returned]
    rw [related.observed] at returned
    obtain ⟨first, -, rfl⟩ := returned_iff.mp returned
    exact congrArg (fun receipt => [receipt.approvalId]) made
  · rw [if_neg contradicts, List.map_eq_nil_iff, List.eq_nil_iff_forall_not_mem]
    intro found member
    exact contradicts (evidence.mp ⟨found, mem_evidenceOf.mp member⟩)

/-- Replacing a ledger by one with the same entries changes nothing in the model. -/
theorem Related.withLedger (related : Related lib keys resolve p s)
    (signed : SignedLog (keys side) entries led)
    (same : s.ledger side = entries.map (recordOf (keys side)))
    : Related lib keys resolve (p.withLedger side led) s := by
  refine ⟨related.inv, ?_, related.drawn, related.minted, related.valid, related.observed,
    related.flagged, related.verifies⟩
  intro at_
  by_cases here : at_ = side
  · subst here
    refine ⟨entries, ?_, same⟩
    rw [ledger_withLedger]
    exact signed
  · rw [ledger_withLedger_of_ne p led here]
    exact related.signed at_

/-- A receipt that a ledger mints with the model's next record, and its observation, are the model's
consume.
Witness: the side that consumes gets the record that its ledger gets, the other side keeps what
it has.
-/
theorem Related.observe {s' : ConsumeLedger.Specification.State Bytes Bytes}
    {link : ConsumeReceipt × Bytes} (related : Related lib keys resolve p s)
    (consumed : ConsumeLedger.Specification.Consumed s s' side aid (keys side).ledgerId)
    (signed : SignedLog (keys side) entries led)
    (same : entries.map (recordOf (keys side))
      = s.ledger side ++ [nextRecord (s.ledger side) aid (keys side).ledgerId])
    (valid : validSpend lib resolve link = true)
    (made : link.1 = receiptFor (nextRecord (s.ledger side) aid (keys side).ledgerId))
    : Related lib keys resolve ((p.withLedger side led).observe lib side link) s' := by
  have own : s'.ledger side
      = s.ledger side ++ [nextRecord (s.ledger side) aid (keys side).ledgerId] := by
    rw [consumed.appended, Function.update_self]
  have others : ∀ at_, at_ ≠ side → s'.ledger at_ = s.ledger at_ := by
    intro at_ elsewhere
    rw [consumed.appended, Function.update_of_ne elsewhere]
  refine ⟨consumed.inv related.inv, ?_, ?_, ?_, ?_, ?_, ?_, ?_⟩
  · intro at_
    by_cases here : at_ = side
    · subst here
      refine ⟨entries, ?_, own.trans same.symm⟩
      rw [ledger_observe, ledger_withLedger]
      exact signed
    · rw [ledger_observe, ledger_withLedger_of_ne p led here, others at_ here]
      exact related.signed at_
  · intro at_ other member
    rcases List.mem_append.mp member with earlier | last
    · obtain ⟨r, inside, drawn⟩ := related.drawn at_ other earlier
      refine ⟨r, ?_, drawn⟩
      rcases consumed.ledger_eq at_ with kept | ⟨rfl, snoc⟩
      · exact kept ▸ inside
      · exact snoc ▸ List.mem_append_left _ inside
    · obtain ⟨rfl, rfl⟩ := Prod.mk.inj (List.mem_singleton.mp last)
      exact ⟨_, own ▸ List.mem_append_right _ (List.mem_singleton_self _), made⟩
  · intro at_ r inside
    have earlier : r ∈ s.ledger at_ → ∃ other, (at_, other) ∈ p.minted ++ [(side, link)]
        ∧ other.1 = receiptFor r := by
      intro before
      obtain ⟨other, minted, drawn⟩ := related.minted at_ r before
      exact ⟨other, List.mem_append_left _ minted, drawn⟩
    rcases consumed.ledger_eq at_ with kept | ⟨rfl, snoc⟩
    · exact earlier (kept ▸ inside)
    · rw [snoc] at inside
      rcases List.mem_append.mp inside with before | last
      · exact earlier before
      · obtain rfl := List.mem_singleton.mp last
        exact ⟨link, List.mem_append_right _ (List.mem_singleton_self _), made⟩
  · intro at_ other member
    rcases List.mem_append.mp member with earlier | last
    · exact related.valid at_ other earlier
    · obtain ⟨rfl, rfl⟩ := Prod.mk.inj (List.mem_singleton.mp last)
      exact valid
  · rw [Partition.observe, Partition.withLedger, List.map_append, List.map_singleton, collected,
      finalState_snoc, related.observed, collected]
  · rw [Partition.observe, Partition.withLedger, List.map_append, related.flagged,
      related.evidence_ids valid made consumed.unspent, (consumed.forkLog_eq related.inv).2]
    rfl
  · intro e member nonempty
    rcases List.mem_append.mp member with earlier | last
    · exact related.verifies e earlier nonempty
    · have returned : (spendStep lib (collected lib resolve (p.minted.map Prod.snd)) link).1
          = .ok (some e) := by
        rw [← related.observed]
        exact mem_evidenceOf.mp last
      exact detectsDoubleSpends.verified _ link e returned nonempty

/-- Every clean request is a consume of the model or leaves it where it is, by the ways to answer
it.
-/
theorem partition_simulates (known : KnownKeys lib keys resolve)
    : Simulates (Partition.answer lib keys) (fun call => call.2.Clean) specification
        (Related lib keys resolve) := by
  intro p call s clean related
  obtain ⟨side, request⟩ := call
  obtain ⟨entries, signed, same⟩ := related.signed side
  cases request with
  | consume fault aid consumer =>
      rcases @SignedLog.consume_cases lib _ _ _ aid consumer fault signed clean with
        ⟨err, after, refused, kept⟩
        | ⟨sig, body, returned, unspent, nonempty, encoded, signs, appended⟩
      · refine ⟨s, .refl, ?_⟩
        rw [Partition.answer, refused]
        exact related.withLedger kept same
      · have free : ¬ HasConsumed (s.ledger side) aid := by
          rw [same, signed.hasConsumed_iff]
          exact unspent
        have oneKey : ∀ held ∈ s.ledger side, held.ledgerKey = (keys side).ledgerId := by
          rw [same]
          intro held member
          obtain ⟨e, -, rfl⟩ := List.mem_map.mp member
          rfl
        obtain ⟨s', taken⟩ := ConsumeLedger.Specification.consume_of_enabled free oneKey
        refine ⟨s', .single (ConsumeLedger.Specification.next_iff.mpr ⟨side, aid, _, taken⟩), ?_⟩
        rw [Partition.answer, returned]
        refine related.observe (ConsumeLedger.Specification.consumed_of_consume taken) appended ?_
          (known.validSpend rfl nonempty encoded signs) ?_
        · rw [List.map_append, List.map_singleton, signed.recordOf_nextEntry, same]
        · rw [same]
          exact signed.receiptFor_nextRecord.symm
  | close => exact ⟨s, .refl, related.withLedger signed.close same⟩
  | reopen => exact ⟨s, .refl, related.withLedger (@SignedLog.reopen lib _ _ _ signed) same⟩

-----------------------------------------------------------------------------------------
-- Observation as receipts are minted
-----------------------------------------------------------------------------------------

/-- The position of an id in the memory that a chain leads to, by chain induction. -/
theorem lookup_consumed {mem final : LedgerMemory} (chain : Chain mem entries final) (aid : Bytes)
    : final.consumed.lookup aid
      = ((entries.find? (·.approvalId = aid)).map (·.seq)).or (mem.consumed.lookup aid) := by
  induction chain with
  | nil mem => rfl
  | @cons mem final first rest _ _ _ _ later ih =>
      have fresh := later.consumed_eq.2.2
      have inserted : (mem.after first (record first)).consumed
        = mem.consumed.insert first.approvalId first.seq := rfl
      rw [ih, inserted]
      by_cases same : first.approvalId = aid
      · subst same
        have unspent : rest.find? (·.approvalId = first.approvalId) = none := by
          rw [List.find?_eq_none]
          intro e member again
          refine fresh e member ?_
          rw [inserted, AList.mem_insert]
          exact .inl (of_decide_eq_true again)
        simp [unspent]
      · rw [AList.lookup_insert_ne (Ne.symm same)]
        simp [same]

/-- A ledger holds an id at the position of the model's record. -/
theorem SignedLog.lookup_iff {key : LedgerKey} {pos : Int} (signed : SignedLog key entries led)
    : led.memory.consumed.lookup aid = some pos
      ↔ ∃ r ∈ recordFor (entries.map (recordOf key)) aid, r.position = pos := by
  have start : LedgerMemory.genesis.consumed.lookup aid = none := AList.lookup_empty aid
  have natural : ∀ e ∈ entries, ((recordOf key e).position : Int) = e.seq := by
    intro e member
    obtain ⟨i, found⟩ := List.mem_iff_getElem?.mp member
    have numbered := signed.chain.seq_eq.1 i e found
    have zero : LedgerMemory.genesis.seq = 0 := rfl
    rw [recordOf, Int.toNat_of_nonneg (by omega)]
  have held : recordFor (entries.map (recordOf key)) aid
      = (entries.find? (·.approvalId = aid)).map (recordOf key) :=
    List.find?_map ..
  rw [lookup_consumed signed.chain, start, Option.or_none, held]
  cases found : entries.find? (·.approvalId = aid) with
  | none => simp
  | some e => simp [natural e (List.mem_of_find?_eq_some found)]

/-- Both ledgers hold an approval id as consumed, under different ledger ids or at different
positions.
-/
def DoublySpent (keys : Side → LedgerKey) (p : Partition) (aid : Bytes) : Prop :=
  ∃ pos pos', (p.ledger .a).memory.consumed.lookup aid = some pos
    ∧ (p.ledger .b).memory.consumed.lookup aid = some pos'
    ∧ ¬ ((keys .a).ledgerId = (keys .b).ledgerId ∧ pos = pos')

/-- In related states an id is forked in the model exactly when both ledgers spent it with
receipts that differ.
-/
theorem Related.forked_iff (related : Related lib keys resolve p s)
    : ConsumeLedger.Specification.Forked s aid ↔ DoublySpent keys p aid := by
  obtain ⟨entries, signed, same⟩ := related.signed .a
  obtain ⟨entries', signed', same'⟩ := related.signed .b
  have keyed : ∀ {side} {entries : List LedgerEntry} {r},
      r ∈ recordFor (entries.map (recordOf (keys side))) aid
      → r.ledgerKey = (keys side).ledgerId := by
    intro side entries r found
    obtain ⟨member, -⟩ := ConsumeLedger.Specification.recordFor_eq_some found
    obtain ⟨e, -, rfl⟩ := List.mem_map.mp member
    rfl
  simp only [ConsumeLedger.Specification.Forked, ConsumeLedger.Specification.State.ledgerA,
    ConsumeLedger.Specification.State.ledgerB, DoublySpent, same, same', signed.lookup_iff,
    signed'.lookup_iff]
  constructor
  · intro forked
    obtain ⟨r, found, r', found', differ⟩ := forked
    refine ⟨_, _, ⟨r, found, rfl⟩, ⟨r', found', rfl⟩, fun equal => differ ?_⟩
    rw [SameReceipt, keyed found, keyed found']
    exact ⟨equal.1, Int.ofNat_inj.mp equal.2⟩
  · intro spent
    obtain ⟨_, _, ⟨r, found, rfl⟩, ⟨r', found', rfl⟩, differ⟩ := spent
    refine ⟨r, found, r', found', fun equal => differ ?_⟩
    rw [SameReceipt, keyed found, keyed found'] at equal
    exact ⟨equal.1, congrArg Nat.cast equal.2⟩

variable (lib keys resolve)

/-- What holds of the two sides: they are in a state that the model reaches, and there is evidence
for exactly the approval ids that were spent twice, once for each.
-/
structure DetectsForks (p : Partition) : Prop where
  reached : ∃ s, specification.Reachable s ∧ Related lib keys resolve p s
  once : (p.evidence.map (·.approvalId)).Nodup
  flagged : ∀ aid, aid ∈ p.evidence.map (·.approvalId) ↔ DoublySpent keys p aid
  verifies : ∀ e ∈ p.evidence, e.approvalId ≠ [] → e.verify lib resolve = .ok ()

/-- Two ledgers that were opened on empty logs under their keys, before any request. -/
structure Opened (p : Partition) : Prop where
  ledgers : ∀ side, openLedgerSigned [] (keys side).ledgerId (keys side).alg (some (keys side).seed)
    = .ok (p.ledger side)
  nothing : p.minted = [] ∧ p.receipts = { resolve } ∧ p.evidence = []

variable {lib keys resolve} {start : Partition} {calls : List (Side × Request)}

theorem signed_of_opened {key : LedgerKey}
    (opened : openLedgerSigned [] key.ledgerId key.alg (some key.seed) = .ok led)
    : SignedLog key [] led := by
  have empty : replay [] = .ok .genesis := replayFrom_nil _
  simp only [openLedgerSigned, empty, bind_eq_ok, raiseIf_eq_ok, exists_const, pure_eq_ok,
    Except.ok.injEq, exists_eq_left'] at opened
  obtain ⟨-, rfl⟩ := opened
  exact ⟨rfl, rfl, rfl, rfl, .nil _, rfl⟩

/-- Opened ledgers are related to the initial state of the model. -/
theorem Opened.related (opened : Opened keys resolve start)
    : Related lib keys resolve start ConsumeLedger.Specification.init := by
  obtain ⟨minted, receipts, evidence⟩ := opened.nothing
  refine ⟨ConsumeLedger.Specification.init_inv, ?_, ?_, ?_, ?_, ?_, ?_, ?_⟩
  · exact fun side => ⟨[], signed_of_opened (opened.ledgers side), rfl⟩
  · intro side link member
    rw [minted] at member
    cases member
  · intro side r member
    cases member
  · intro side link member
    rw [minted] at member
    cases member
  · rw [receipts, minted]
    rfl
  · rw [evidence]
    rfl
  · intro e member
    rw [evidence] at member
    cases member

/-- In every run of clean requests the two ledgers end where the model leads, by simulation. -/
theorem related_run (known : KnownKeys lib keys resolve) (opened : Opened keys resolve start)
    (clean : ∀ call ∈ calls, call.2.Clean)
    : ∃ s, specification.Reachable s
      ∧ Related lib keys resolve (finalState (Partition.answer lib keys) start calls) s :=
  (partition_simulates known).run ConsumeLedger.Specification.reachable_init opened.related clean

/-- The ledgers of a partition simulate the model in every run, and the receipt set that sees each
receipt as it is minted returns evidence for exactly the approval ids that both have spent.
-/
theorem partition_detects_forks (known : KnownKeys lib keys resolve)
    (opened : Opened keys resolve start) (clean : ∀ call ∈ calls, call.2.Clean)
    : DetectsForks lib keys resolve (finalState (Partition.answer lib keys) start calls) := by
  obtain ⟨s, reachable, related⟩ := related_run known opened clean
  refine ⟨⟨s, reachable, related⟩, ?_, ?_, related.verifies⟩
  · rw [related.flagged]
    exact related.inv.forkLogNoDup
  · intro aid
    rw [related.flagged, ← related.forked_iff]
    exact ⟨related.inv.forkLogSound aid, related.inv.noSilentFork aid⟩

/-- Both sides of a forked ledger sign with one key. -/
def sampleKeys (_ : Side) : LedgerKey := { ledgerId := [7], alg := algMldsa65, seed := [9] }

def sampleResolver : Resolver := fun ledgerId =>
  if ledgerId = [7] then some (algMldsa65, fitTo mldsa65PubSize [9]) else none

def samplePartition : Partition where
  ledger _ := { file := { disk := [] }, memory := .genesis, receiptLedgerId := [7],
                receiptAlg := some algMldsa65, receiptSeed := some [9] }
  receipts := { resolve := sampleResolver }

theorem sampleKeys_known : KnownKeys digestLibrary sampleKeys sampleResolver where
  signs := Envelope.digestLibrary_signsVerifiably
  resolves _ := ⟨.mlDsa65, _, rfl, rfl, rfl⟩

theorem samplePartition_opened : Opened sampleKeys sampleResolver samplePartition where
  ledgers _ := by
    rw [openLedgerSigned, replay, replayFrom_nil]
    rfl
  nothing := ⟨rfl, rfl, rfl⟩

/-- The theorem at two ledgers under one key, where both consume the id 1, one of them after the id
2.
-/
theorem partition_detects_forks_sample
    : DetectsForks digestLibrary sampleKeys sampleResolver
        (finalState (Partition.answer digestLibrary sampleKeys) samplePartition
          [(.a, .consume none [1] []), (.b, .consume none [2] []), (.b, .reopen),
            (.b, .consume none [1] [])]) := by
  refine partition_detects_forks sampleKeys_known samplePartition_opened ?_
  intro call member
  simp only [List.mem_cons, List.not_mem_nil, or_false] at member
  rcases member with rfl | rfl | rfl | rfl <;> exact .inl rfl

-----------------------------------------------------------------------------------------
-- Observation at any later time
-----------------------------------------------------------------------------------------

variable (lib resolve)

/-- What a receipt set finds in minted receipts that are presented to it at any time, in any order
and any number of times.
-/
structure DetectsLater (p : Partition) : Prop where
  detected : ∀ links aid, (∀ link ∈ links, ∃ side, (side, link) ∈ p.minted)
    → (DetectedAt lib resolve aid links
      ↔ ∃ x ∈ links, ∃ y ∈ links, x.1.approvalId = aid ∧ y.1.approvalId = aid ∧ x.1 ≠ y.1)
  complete : ∀ links aid, (∀ link, link ∈ links ↔ ∃ side, (side, link) ∈ p.minted)
    → (DetectedAt lib resolve aid links ↔ aid ∈ p.evidence.map (·.approvalId))
  honest : ∀ links side, (∀ link ∈ links, (side, link) ∈ p.minted) → ¬ Detected lib resolve links

variable {lib resolve}

/-- Of minted receipts those conflict that name one approval id and differ. -/
theorem Related.detectedAt_iff (related : Related lib keys resolve p s)
    {links : List (ConsumeReceipt × Bytes)}
    (drawn : ∀ link ∈ links, ∃ side, (side, link) ∈ p.minted)
    : DetectedAt lib resolve aid links
      ↔ ∃ x ∈ links, ∃ y ∈ links, x.1.approvalId = aid ∧ y.1.approvalId = aid ∧ x.1 ≠ y.1 := by
  rw [Receipts.detectedAt_iff]
  constructor
  · intro conflicting
    obtain ⟨x, member, y, member', -, -, named, named', differ⟩ := conflicting
    exact ⟨x, member, y, member', named, named', differ⟩
  · intro conflicting
    obtain ⟨x, member, y, member', named, named', differ⟩ := conflicting
    obtain ⟨side, minted⟩ := drawn x member
    obtain ⟨side', minted'⟩ := drawn y member'
    exact ⟨x, member, y, member', related.valid side x minted, related.valid side' y minted', named,
      named', differ⟩

/-- Different receipts for one approval id were minted at different sides, and fork it. -/
theorem Related.forked_of_minted (related : Related lib keys resolve p s) {side' : Side}
    {x y : ConsumeReceipt × Bytes} (minted : (side, x) ∈ p.minted) (minted' : (side', y) ∈ p.minted)
    (named : x.1.approvalId = y.1.approvalId) (differ : x.1 ≠ y.1)
    : side' ≠ side ∧ ConsumeLedger.Specification.Forked s x.1.approvalId := by
  obtain ⟨r, found, made⟩ := related.record_of_minted minted
  obtain ⟨r', found', made'⟩ := related.record_of_minted minted'
  rw [← named] at found'
  have elsewhere : side' ≠ side := by
    rintro rfl
    obtain rfl := Option.some.inj (found.symm.trans found')
    exact differ (made.trans made'.symm)
  obtain rfl : side' = side.other := by
    cases side' <;> cases side <;> first | rfl | exact absurd rfl elsewhere
  refine ⟨elsewhere, (ConsumeLedger.Specification.forked_iff side).mpr ⟨r, found, r', found', ?_⟩⟩
  intro same
  have equal : r.approvalId = r'.approvalId :=
    (ConsumeLedger.Specification.recordFor_eq_some found).2.trans
      (ConsumeLedger.Specification.recordFor_eq_some found').2.symm
  exact differ (made.trans (((receiptFor_eq_iff equal).mpr same).trans made'.symm))

/-- A forked approval id has two different minted receipts. -/
theorem Related.minted_of_forked (related : Related lib keys resolve p s)
    (forked : ConsumeLedger.Specification.Forked s aid)
    : ∃ x y, (Side.a, x) ∈ p.minted ∧ (Side.b, y) ∈ p.minted ∧ x.1.approvalId = aid
      ∧ y.1.approvalId = aid ∧ x.1 ≠ y.1 := by
  obtain ⟨r, found, r', found', differ⟩ := forked
  obtain ⟨member, named⟩ := ConsumeLedger.Specification.recordFor_eq_some found
  obtain ⟨member', named'⟩ := ConsumeLedger.Specification.recordFor_eq_some found'
  obtain ⟨x, minted, made⟩ := related.minted .a r member
  obtain ⟨y, minted', made'⟩ := related.minted .b r' member'
  refine ⟨x, y, minted, minted', ?_, ?_, ?_⟩
  · rw [made, receiptFor, named]
  · rw [made', receiptFor, named']
  · rw [made, made']
    exact fun same => differ ((receiptFor_eq_iff (named.trans named'.symm)).mp same)

/-- However late and in whatever order minted receipts are presented, evidence is returned for an
approval id exactly when two that differ name it: for every double spend that was flagged when they
were minted, and never for one ledger alone.
Witness: every receipt that was minted is a record of the model, where two records of one id
that differ are a fork.
-/
theorem partition_detects_later (known : KnownKeys lib keys resolve)
    (opened : Opened keys resolve start) (clean : ∀ call ∈ calls, call.2.Clean)
    : DetectsLater lib resolve (finalState (Partition.answer lib keys) start calls) := by
  obtain ⟨s, -, related⟩ := related_run known opened clean
  refine ⟨fun links aid drawn => related.detectedAt_iff drawn, ?_, ?_⟩
  · intro links aid all
    rw [related.detectedAt_iff fun link member => (all link).mp member, related.flagged]
    constructor
    · intro conflicting
      obtain ⟨x, member, y, member', rfl, named, differ⟩ := conflicting
      obtain ⟨side, minted⟩ := (all x).mp member
      obtain ⟨side', minted'⟩ := (all y).mp member'
      obtain ⟨-, forked⟩ := related.forked_of_minted minted minted' named.symm differ
      exact related.inv.noSilentFork _ forked
    · intro flagged
      obtain ⟨x, y, minted, minted', named, named', differ⟩ :=
        related.minted_of_forked (related.inv.forkLogSound _ flagged)
      exact ⟨x, (all x).mpr ⟨_, minted⟩, y, (all y).mpr ⟨_, minted'⟩, named, named', differ⟩
  · intro links side one detected
    obtain ⟨aid, detected⟩ := detected_iff_at.mp detected
    rw [related.detectedAt_iff fun link member => ⟨side, one link member⟩] at detected
    obtain ⟨x, member, y, member', named, named', differ⟩ := detected
    exact (related.forked_of_minted (one x member) (one y member') (named.trans named'.symm)
      differ).1 rfl

/-- The theorem at the same two ledgers. -/
theorem partition_detects_later_sample
    : DetectsLater digestLibrary sampleResolver
        (finalState (Partition.answer digestLibrary sampleKeys) samplePartition
          [(.b, .consume none [2] []), (.a, .consume none [1] []),
              (.b, .consume none [1] [])]) := by
  refine partition_detects_later sampleKeys_known samplePartition_opened ?_
  intro call member
  simp only [List.mem_cons, List.not_mem_nil, or_false] at member
  rcases member with rfl | rfl | rfl <;> exact .inl rfl

end Naalp.Receipts
