import Naalp.Python.Audit
import Naalp.Receipts.Equivocation
import Naalp.Signatures.RawRecords

/-! The detector of double spends. It returns evidence exactly for a valid consume receipt that
differs from the first valid one for its approval id; in whatever order two conflicting receipts
are presented, one of them is caught.
-/

namespace Naalp.Receipts

open Naalp.Foundation
open Naalp.Python
open Naalp.Python.Approval
open Naalp.Python.Cose

/-- The ledger of a receipt resolves to a key under which its signature verifies. -/
def validSpend (lib : SignatureLibrary) (resolve : Resolver) (link : ConsumeReceipt × Bytes)
    : Bool :=
  match if link.1.ledger = [] then none else resolve link.1.ledger with
  | none => false
  | some (alg, pk) => verdict (do coseVerify1Raw lib alg pk (← link.1.bytes) link.2)

def approvalOf (link : ConsumeReceipt × Bytes) : Bytes := link.1.approvalId

def receiptOf (link : ConsumeReceipt × Bytes) : ConsumeReceipt := link.1

/-- The observations of a receipt set, answered one by one. -/
def spendStep (lib : SignatureLibrary)
    : ReceiptSet → ConsumeReceipt × Bytes → Except Exc (Option ConsumeForkEvidence) × ReceiptSet :=
  respond fun link => ReceiptSet.observe lib link.1 link.2

/-- The evidence that two receipts for one approval id make. -/
def forkEvidence (first link : ConsumeReceipt × Bytes) : ConsumeForkEvidence :=
  { approvalId := link.1.approvalId, a := first.1, sigA := first.2, b := link.1, sigB := link.2 }

variable {lib : SignatureLibrary} {resolve : Resolver} {s : ReceiptSet}
  {link first : ConsumeReceipt × Bytes}

/-- A receipt is a valid spend exactly when it names a ledger and verifies with the key
resolved for it.
-/
theorem validSpend_iff
    : validSpend lib resolve link = true
      ↔ link.1.ledger ≠ [] ∧ ∃ alg pk body, resolve link.1.ledger = some (alg, pk)
        ∧ link.1.bytes = .ok body ∧ coseVerify1Raw lib alg pk body link.2 = .ok true := by
  unfold validSpend
  by_cases unnamed : link.1.ledger = []
  · simp [unnamed]
  · rw [if_neg unnamed]
    cases resolved : resolve link.1.ledger with
    | none => simp
    | some key =>
        obtain ⟨alg, pk⟩ := key
        simp [verdict_iff, bind_eq_ok, unnamed]

/-- The body of a consume receipt gives the receipt back. -/
theorem consumeReceipt_bytes_injective {r r' : ConsumeReceipt} {body : Bytes}
    (encoded : r.bytes = .ok body) (encoded' : r'.bytes = .ok body) : r = r' := by
  have read := Signatures.Record.decode_bytes (r := .consumeReceipt r) encoded
  have read' := Signatures.Record.decode_bytes (r := .consumeReceipt r') encoded'
  have pairs := Cbor.Value.m.inj (Except.ok.inj (read.symm.trans read'))
  obtain ⟨ledger, approvalId, position⟩ := r
  obtain ⟨ledger', approvalId', position'⟩ := r'
  simp_all [Signatures.Record.pairs]

/-- A receipt that is not valid is refused and changes nothing. -/
theorem spendStep_refused (refused : validSpend lib s.resolve link = false)
    : ∃ error, spendStep lib s link = (.error error, s) := by
  have raised : ∃ error, ReceiptSet.observe lib link.1 link.2 s = .error error s := by
    unfold validSpend at refused
    rw [ReceiptSet.observe, get_bind]
    cases resolved : (if link.1.ledger = [] then none else s.resolve link.1.ledger) with
    | none => exact ⟨_, rfl⟩
    | some key =>
        obtain ⟨alg, pk⟩ := key
        rw [resolved] at refused
        dsimp only at refused ⊢
        rcases verdict_eq_false.mp refused with invalid | ⟨error, failed⟩
        · rw [check_bind_of_ok invalid]
          exact ⟨_, bind_of_error rfl⟩
        · exact ⟨error, check_bind_of_error failed⟩
  obtain ⟨error, raised⟩ := raised
  exact ⟨error, respond_eq_error.mpr raised⟩

/-- A valid receipt is kept as the first of its id, or compared with the first one.
Witness: cases on the first receipt of the id; that one was valid, so its body can be encoded.
-/
theorem spendStep_valid (valid : validSpend lib s.resolve link = true)
    (encodes : ∀ first, s.seen.lookup (approvalOf link) = some first
      → ∃ body, first.1.bytes = .ok body)
    : (s.seen.lookup (approvalOf link) = none
        ∧ spendStep lib s link
          = (.ok none, { s with seen := s.seen.insert (approvalOf link) link }))
      ∨ ∃ first, s.seen.lookup (approvalOf link) = some first
        ∧ (receiptOf first = receiptOf link ∧ spendStep lib s link = (.ok none, s)
          ∨ receiptOf first ≠ receiptOf link
            ∧ spendStep lib s link = (.ok (some (forkEvidence first link)), s)) := by
  obtain ⟨named, alg, pk, body, resolved, encoded, verified⟩ := validSpend_iff.mp valid
  have checked : (do coseVerify1Raw lib alg pk (← link.1.bytes) link.2) = .ok true :=
    bind_eq_ok.mpr ⟨body, encoded, verified⟩
  have observed : spendStep lib s link = settle (ReceiptSet.observe lib link.1 link.2 s) := rfl
  rw [ReceiptSet.observe, get_bind, if_neg named, resolved] at observed
  dsimp only at observed
  rw [check_bind_of_ok checked, check_bind_of_ok (raiseIf_neg (by decide))] at observed
  cases found : s.seen.lookup (approvalOf link) with
  | none =>
      have absent : s.seen.lookup link.1.approvalId = none := found
      rw [absent] at observed
      exact .inl ⟨rfl, observed⟩
  | some first =>
      obtain ⟨prevBody, prevEncoded⟩ := encodes first found
      have present : s.seen.lookup link.1.approvalId = some first := found
      rw [present] at observed
      dsimp only at observed
      rw [check_bind_of_ok prevEncoded, check_bind_of_ok encoded] at observed
      refine .inr ⟨first, rfl, ?_⟩
      by_cases same : prevBody = body
      · subst same
        rw [if_pos rfl] at observed
        exact .inl ⟨consumeReceipt_bytes_injective prevEncoded encoded, observed⟩
      · rw [if_neg same] at observed
        refine .inr ⟨fun equal => same ?_, observed⟩
        rw [receiptOf, receiptOf] at equal
        exact Except.ok.inj (prevEncoded.symm.trans (equal ▸ encoded))

/-- An observation, as one of a detector that remembers the first receipt of each approval id. -/
theorem spendStep_observed
    (encodes : ∀ first, s.seen.lookup (approvalOf link) = some first
      → ∃ body, first.1.bytes = .ok body)
    : Observed (validSpend lib s.resolve) approvalOf receiptOf
        (fun first => forkEvidence first link)
        s.seen link (spendStep lib s link).1 (spendStep lib s link).2.seen
      ∧ (spendStep lib s link).2.resolve = s.resolve := by
  cases valid : validSpend lib s.resolve link with
  | false =>
      obtain ⟨error, refused⟩ := spendStep_refused valid
      rw [refused]
      exact ⟨.refused error valid, rfl⟩
  | true =>
      rcases spendStep_valid valid encodes with
        ⟨absent, observed⟩ | ⟨first, found, ⟨same, observed⟩ | ⟨differ, observed⟩⟩
      · rw [observed]
        exact ⟨.fresh valid absent, rfl⟩
      · rw [observed]
        exact ⟨.known valid found same, rfl⟩
      · rw [observed]
        exact ⟨.conflict valid found differ, rfl⟩

/-- Evidence verifies when its receipts are valid, differ and name its approval id. -/
theorem verify_of_valid {e : ConsumeForkEvidence} (named : e.approvalId ≠ [])
    (sameA : e.a.approvalId = e.approvalId) (sameB : e.b.approvalId = e.approvalId)
    (validA : validSpend lib resolve (e.a, e.sigA) = true)
    (validB : validSpend lib resolve (e.b, e.sigB) = true) (differ : e.a ≠ e.b)
    : e.verify lib resolve = .ok () := by
  obtain ⟨namedA, algA, pkA, bodyA, resolvedA, encodedA, verifiedA⟩ := validSpend_iff.mp validA
  obtain ⟨namedB, algB, pkB, bodyB, resolvedB, encodedB, verifiedB⟩ := validSpend_iff.mp validB
  have bodies : bodyA ≠ bodyB := by
    rintro rfl
    exact differ (consumeReceipt_bytes_injective encodedA encodedB)
  have approvals : ¬ (e.a.approvalId ≠ e.approvalId ∨ e.b.approvalId ≠ e.approvalId) :=
    not_or.mpr ⟨not_not_intro sameA, not_not_intro sameB⟩
  rw [ConsumeForkEvidence.verify, raiseIf_neg named, ok_bind, raiseIf_neg approvals, ok_bind,
    encodedA, ok_bind, encodedB, ok_bind, raiseIf_neg bodies, ok_bind, raiseIf_neg namedA, ok_bind,
    resolvedA]
  dsimp only
  rw [raiseIf_neg namedB, ok_bind, resolvedB]
  dsimp only
  rw [verifiedA, ok_bind, raiseIf_neg (by decide), ok_bind, verifiedB, ok_bind,
    raiseIf_neg (by decide)]

section Runs

variable (lib resolve)

/-- The receipt set after some observations. -/
def collected (links : List (ConsumeReceipt × Bytes)) : ReceiptSet :=
  finalState (spendStep lib) { resolve } links

/-- Some observation of a run returns evidence. -/
def Detected (links : List (ConsumeReceipt × Bytes)) : Prop :=
  ∃ event ∈ trace (spendStep lib) { resolve } links, ∃ evidence, event.outcome = .ok (some evidence)

/-- Some observation of a run returns evidence for the approval id. -/
def DetectedAt (aid : Bytes) (links : List (ConsumeReceipt × Bytes)) : Prop :=
  ∃ event ∈ trace (spendStep lib) { resolve } links, ∃ evidence,
    event.outcome = .ok (some evidence) ∧ evidence.approvalId = aid

/-- What holds of a receipt set after some observations: its resolver, and the first valid receipt
for every approval id.
-/
structure Collects (history : List (ConsumeReceipt × Bytes)) (s : ReceiptSet) : Prop where
  sameResolver : s.resolve = resolve
  remembers : Remembers (validSpend lib resolve) approvalOf history s.seen

variable {lib resolve}

/-- A remembered receipt is valid, so it has a body. -/
theorem Collects.encodes {history : List (ConsumeReceipt × Bytes)}
    (collects : Collects lib resolve history s) (first : ConsumeReceipt × Bytes)
    (found : s.seen.lookup (approvalOf link) = some first) : ∃ body, first.1.bytes = .ok body := by
  rw [collects.remembers] at found
  obtain ⟨-, valid, -⟩ := firstAt_eq_some found
  obtain ⟨-, _, _, body, -, encoded, -⟩ := validSpend_iff.mp valid
  exact ⟨body, encoded⟩

theorem Collects.observe {history : List (ConsumeReceipt × Bytes)}
    (collects : Collects lib resolve history s)
    : Collects lib resolve (history ++ [link]) (spendStep lib s link).2 := by
  have encodes := @Collects.encodes lib resolve s link history collects
  obtain ⟨rfl, remembers⟩ := collects
  obtain ⟨observed, same⟩ := @spendStep_observed lib s link encodes
  exact ⟨same, observed.remembers remembers⟩

theorem collected_collects (links : List (ConsumeReceipt × Bytes))
    : Collects lib resolve links (collected lib resolve links) :=
  finalState_history ⟨rfl, remembers_nil⟩ (fun _ _ _ collects => collects.observe) links

/-- What a receipt set does after any observations, at the next one, and in a whole run. -/
structure DetectsDoubleSpends (lib : SignatureLibrary) (resolve : Resolver) : Prop where
  returned : ∀ before link evidence,
    (spendStep lib (collected lib resolve before) link).1 = .ok (some evidence)
    ↔ ∃ first, ConflictsWith (validSpend lib resolve) approvalOf receiptOf before first link
      ∧ evidence = forkEvidence first link
  verified : ∀ before link evidence,
    (spendStep lib (collected lib resolve before) link).1 = .ok (some evidence)
    → evidence.approvalId ≠ [] → evidence.verify lib resolve = .ok ()
  refused : ∀ before link, validSpend lib resolve link = false
    → ∃ error, spendStep lib (collected lib resolve before) link
      = (.error error, collected lib resolve before)
  detected : ∀ links,
    Detected lib resolve links ↔ Conflicting (validSpend lib resolve) approvalOf receiptOf links
  everyOrder : ∀ links links', links.Perm links'
    → (Detected lib resolve links ↔ Detected lib resolve links')

theorem returned_iff {before : List (ConsumeReceipt × Bytes)} {evidence : ConsumeForkEvidence}
    : (spendStep lib (collected lib resolve before) link).1 = .ok (some evidence)
      ↔ ∃ first, ConflictsWith (validSpend lib resolve) approvalOf receiptOf before first link
        ∧ evidence = forkEvidence first link := by
  have collects := @collected_collects lib resolve before
  obtain ⟨observed, -⟩ := @spendStep_observed lib _ link collects.encodes
  rw [collects.sameResolver] at observed
  exact observed.reported_iff collects.remembers

/-- A run returns evidence for an approval id exactly when two of its valid receipts for the id
conflict.
-/
theorem detectedAt_iff {aid : Bytes} {links : List (ConsumeReceipt × Bytes)}
    : DetectedAt lib resolve aid links
      ↔ ConflictingAt (validSpend lib resolve) approvalOf receiptOf aid links := by
  rw [conflictingAt_iff]
  constructor
  · intro detected
    obtain ⟨event, member, evidence, minted, named⟩ := detected
    obtain ⟨before, link, after, rfl, rfl⟩ := mem_trace_iff.mp member
    obtain ⟨first, conflict, rfl⟩ := returned_iff.mp minted
    exact ⟨before, link, after, rfl, named, first, conflict⟩
  · intro conflict
    obtain ⟨before, link, after, rfl, named, first, conflict⟩ := conflict
    exact ⟨_, mem_trace_iff.mpr ⟨before, link, after, rfl, rfl⟩, _,
      returned_iff.mpr ⟨first, conflict, rfl⟩, named⟩

/-- A double spend is detected exactly when one is at some id. -/
theorem detected_iff_at {links : List (ConsumeReceipt × Bytes)}
    : Detected lib resolve links ↔ ∃ aid, DetectedAt lib resolve aid links := by
  constructor
  · intro detected
    obtain ⟨event, member, evidence, returned⟩ := detected
    exact ⟨_, event, member, evidence, returned, rfl⟩
  · intro detected
    obtain ⟨aid, event, member, evidence, returned, -⟩ := detected
    exact ⟨event, member, evidence, returned⟩

/-- A run returns evidence exactly when two of its valid receipts conflict. -/
theorem detected_iff {links : List (ConsumeReceipt × Bytes)}
    : Detected lib resolve links
      ↔ Conflicting (validSpend lib resolve) approvalOf receiptOf links := by
  rw [detected_iff_at, conflicting_iff_at]
  exact exists_congr fun aid => detectedAt_iff

/-- The set detects double spends: evidence is made on a later valid spend of an id that
differs from the first one remembered for it, and it verifies.
Witness: what the collector remembers of an id is the first valid spend of it, by the run
lemma.
-/
theorem detectsDoubleSpends : DetectsDoubleSpends lib resolve := by
  refine ⟨fun _ _ _ => returned_iff, ?_, ?_, fun _ => detected_iff, ?_⟩
  · intro before link evidence minted named
    obtain ⟨first, ⟨valid, found, differ⟩, rfl⟩ := returned_iff.mp minted
    obtain ⟨-, validFirst, same⟩ := firstAt_eq_some found
    exact verify_of_valid named same rfl validFirst valid differ
  · intro before link refused
    refine spendStep_refused ?_
    rwa [(@collected_collects lib resolve before).sameResolver]
  · intro links links' perm
    rw [detected_iff, detected_iff]
    exact ⟨fun conflicting => conflicting.perm perm, fun conflicting => conflicting.perm perm.symm⟩

end Runs

/-- Both detectors report exactly the conflicts with what they saw first, and what they report
verifies.
-/
theorem detectors_report_conflicts (lib : SignatureLibrary) (alg : Int) (pk signer : Bytes)
    (ext : Int) (resolve : Resolver)
    : DetectsEquivocation lib alg pk signer ext ∧ DetectsDoubleSpends lib resolve :=
  ⟨detectsEquivocation, detectsDoubleSpends⟩

end Naalp.Receipts
