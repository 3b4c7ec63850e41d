import Naalp.Foundation.Grouping
import Naalp.Python.Audit

/-! The auditor of receipts. It mints a fork proof exactly for a valid receipt that names another
object than the first valid one at its position, and every proof it mints verifies.
-/

namespace Naalp.Receipts

open Naalp.Foundation
open Naalp.Python
open Naalp.Python.Audit
open Naalp.Python.Cose

/-- A check that passes, as opposed to one that fails or raises. -/
def verdict : Py Bool → Bool
  | .ok valid => valid
  | .error _ => false

theorem verdict_iff {outcome : Py Bool} : verdict outcome = true ↔ outcome = .ok true := by
  cases outcome <;> simp [verdict]

theorem verdict_eq_false {outcome : Py Bool}
    : verdict outcome = false ↔ outcome = .ok false ∨ ∃ error, outcome = .error error := by
  cases outcome <;> simp [verdict]

variable (lib : SignatureLibrary)

/-- The signature of a receipt verifies under the key. -/
def validReceipt (alg : Int) (pk : Bytes) (link : Receipt × Bytes) : Bool :=
  verdict (do mldsaVerify lib alg pk (← link.1.bytes) link.2)

def positionOf (link : Receipt × Bytes) : Int := link.1.seq

def objectOf (link : Receipt × Bytes) : Bytes := link.1.obj

/-- The observations of an auditor, answered one by one. -/
def observeStep : Auditor → Receipt × Bytes → Except Exc (Option ForkProof) × Auditor :=
  respond fun link => Auditor.observe lib link.1 link.2

/-- The proof that two receipts of the auditor's authority make. -/
def forkProof (s : Auditor) (first link : Receipt × Bytes) : ForkProof :=
  { signer := s.signer, extCounter := s.ext, a := first.1, sigA := first.2, b := link.1,
    sigB := link.2 }

variable {lib} {s : Auditor} {link first : Receipt × Bytes}

/-- A receipt that is not valid is refused and changes nothing. -/
theorem observeStep_refused (refused : validReceipt lib s.alg s.pk link = false)
    : ∃ error, observeStep lib s link = (.error error, s) := by
  have raised : ∃ error, Auditor.observe lib link.1 link.2 s = .error error s := by
    rcases verdict_eq_false.mp refused with invalid | ⟨error, failed⟩
    · refine ⟨.auditError .receiptUnsigned "receipt signature does not verify", ?_⟩
      rw [Auditor.observe, get_bind, check_bind_of_ok invalid]
      exact bind_of_error rfl
    · refine ⟨error, ?_⟩
      rw [Auditor.observe, get_bind]
      exact check_bind_of_error failed
  obtain ⟨error, raised⟩ := raised
  exact ⟨error, respond_eq_error.mpr raised⟩

/-- A valid receipt is kept as the first at its position, or compared with the first one. -/
theorem observeStep_valid (valid : validReceipt lib s.alg s.pk link = true)
    : observeStep lib s link
      = match s.seen.lookup (positionOf link) with
        | some first =>
            if objectOf first ≠ objectOf link then
              (.ok (some (forkProof s first link)), { s with ext := s.ext + 1 })
            else (.ok none, s)
        | none => (.ok none, { s with seen := s.seen.insert (positionOf link) link }) := by
  show settle (Auditor.observe lib link.1 link.2 s) = _
  rw [Auditor.observe, get_bind, check_bind_of_ok (verdict_iff.mp valid),
    check_bind_of_ok (raiseIf_neg (by decide)), positionOf]
  cases s.seen.lookup link.1.seq with
  | none => rfl
  | some first =>
      dsimp only [objectOf]
      by_cases differ : first.1.obj = link.1.obj
      · rw [if_neg (not_not_intro differ)]
        exact (if_neg (not_not_intro differ)).symm
      · rw [if_pos differ]
        exact (if_pos differ).symm

/-- An observation, as one of a detector that remembers the first receipt of each position. -/
theorem observeStep_observed (s : Auditor) (link : Receipt × Bytes)
    : Observed (validReceipt lib s.alg s.pk) positionOf objectOf
        (fun first => forkProof s first link)
        s.seen link (observeStep lib s link).1 (observeStep lib s link).2.seen := by
  cases valid : validReceipt lib s.alg s.pk link with
  | false =>
      obtain ⟨error, refused⟩ := observeStep_refused valid
      rw [refused]
      exact .refused error valid
  | true =>
      rw [observeStep_valid valid]
      cases found : s.seen.lookup (positionOf link) with
      | none => exact .fresh valid found
      | some first =>
          dsimp only
          by_cases differ : objectOf first = objectOf link
          · rw [if_neg (not_not_intro differ)]
            exact .known valid found differ
          · rw [if_pos differ]
            exact .conflict valid found differ

/-- The proof that an answer returns, if it does. -/
def returnedProof (event : Event Auditor (Receipt × Bytes) (Except Exc (Option ForkProof)))
    : Option ForkProof :=
  event.outcome.toOption.join

/-- An observation keeps the key and the signer, and counts the proof that it returns. -/
theorem observeStep_keeps (s : Auditor) (link : Receipt × Bytes)
    : (observeStep lib s link).2.alg = s.alg ∧ (observeStep lib s link).2.pk = s.pk
      ∧ (observeStep lib s link).2.signer = s.signer
      ∧ (returnedProof (answer (observeStep lib) s link) = none
          ∧ (observeStep lib s link).2.ext = s.ext
        ∨ ∃ first, returnedProof (answer (observeStep lib) s link) = some (forkProof s first link)
          ∧ (observeStep lib s link).2.ext = s.ext + 1) := by
  rw [returnedProof, answer]
  cases valid : validReceipt lib s.alg s.pk link with
  | false =>
      obtain ⟨error, refused⟩ := observeStep_refused valid
      rw [refused]
      exact ⟨rfl, rfl, rfl, .inl ⟨rfl, rfl⟩⟩
  | true =>
      rw [observeStep_valid valid]
      cases s.seen.lookup (positionOf link) with
      | none => exact ⟨rfl, rfl, rfl, .inl ⟨rfl, rfl⟩⟩
      | some first =>
          dsimp only
          by_cases differ : objectOf first ≠ objectOf link
          · rw [if_pos differ]
            exact ⟨rfl, rfl, rfl, .inr ⟨first, rfl, rfl⟩⟩
          · rw [if_neg differ]
            exact ⟨rfl, rfl, rfl, .inl ⟨rfl, rfl⟩⟩

/-- A proof of two valid receipts that differ at one position verifies under their key. -/
theorem forkProof_verifies {alg : Int} {pk : Bytes} (named : s.signer ≠ [])
    (validFirst : validReceipt lib alg pk first = true)
    (valid : validReceipt lib alg pk link = true) (same : positionOf first = positionOf link)
    (differ : objectOf first ≠ objectOf link)
    : (forkProof s first link).verify lib alg pk = .ok () := by
  obtain ⟨body, encoded, left⟩ := bind_eq_ok.mp (verdict_iff.mp validFirst)
  obtain ⟨body', encoded', right⟩ := bind_eq_ok.mp (verdict_iff.mp valid)
  simp only [ForkProof.verify, bind_eq_ok, raiseIf_eq_ok, exists_const]
  exact ⟨mt List.eq_nil_of_length_eq_zero named, not_not_intro same, differ, body, encoded, true,
    left, by decide, body', encoded', true, right, by decide⟩

section Runs

variable (lib) (alg : Int) (pk signer : Bytes) (ext : Int)

/-- The auditor after some observations. -/
def audited (links : List (Receipt × Bytes)) : Auditor :=
  finalState (observeStep lib) { alg, pk, signer, ext } links

/-- The proofs that an auditor returns, in their order. -/
def returnedProofs (s : Auditor) (links : List (Receipt × Bytes)) : List ForkProof :=
  (trace (observeStep lib) s links).filterMap returnedProof

/-- What holds of an auditor after some observations: its key, and the first valid receipt of every
position.
-/
structure Watches (history : List (Receipt × Bytes)) (s : Auditor) : Prop where
  sameAlg : s.alg = alg
  samePk : s.pk = pk
  sameSigner : s.signer = signer
  remembers : Remembers (validReceipt lib alg pk) positionOf history s.seen

variable {lib alg pk signer ext}

theorem Watches.observe {history : List (Receipt × Bytes)}
    (watches : Watches lib alg pk signer history s)
    : Watches lib alg pk signer (history ++ [link]) (observeStep lib s link).2 := by
  obtain ⟨rfl, rfl, rfl, remembers⟩ := watches
  obtain ⟨sameAlg, samePk, sameSigner, -⟩ := @observeStep_keeps lib s link
  exact ⟨sameAlg, samePk, sameSigner, (observeStep_observed s link).remembers remembers⟩

theorem audited_watches (links : List (Receipt × Bytes))
    : Watches lib alg pk signer links (audited lib alg pk signer ext links) :=
  finalState_history ⟨rfl, rfl, rfl, remembers_nil⟩ (fun _ _ _ watches => watches.observe) links

/-- The counters of the proofs go on from that of the auditor, by induction over the observations.
-/
theorem returnedProofs_counters (links : List (Receipt × Bytes))
    : (returnedProofs lib s links).map ForkProof.extCounter
      = (List.range (returnedProofs lib s links).length).map fun n : ℕ => s.ext + n := by
  induction links generalizing s with
  | nil => rfl
  | cons link links ih =>
      obtain ⟨-, -, -, ⟨silent, same⟩ | ⟨first, minted, next⟩⟩ := @observeStep_keeps lib s link
      · have passed : returnedProofs lib s (link :: links)
            = returnedProofs lib (observeStep lib s link).2 links :=
          List.filterMap_cons_none silent
        rw [passed, ih, same]
      · have passed : returnedProofs lib s (link :: links)
            = forkProof s first link :: returnedProofs lib (observeStep lib s link).2 links :=
          List.filterMap_cons_some minted
        rw [passed, List.map_cons, ih, next, List.length_cons, List.range_succ_eq_map,
          List.map_cons, List.map_map]
        simp only [forkProof, Nat.cast_zero, Int.add_zero, List.cons.injEq, true_and]
        refine List.map_congr_left fun n _ => ?_
        simp only [Function.comp_apply, Nat.succ_eq_add_one, Nat.cast_add, Nat.cast_one]
        omega

/-- What an auditor does after any observations, at the next one. -/
structure DetectsEquivocation (lib : SignatureLibrary) (alg : Int) (pk signer : Bytes) (ext : Int)
    : Prop where
  returned : ∀ before link proof,
    (observeStep lib (audited lib alg pk signer ext before) link).1 = .ok (some proof)
    ↔ ∃ first, ConflictsWith (validReceipt lib alg pk) positionOf objectOf before first link
      ∧ proof = forkProof (audited lib alg pk signer ext before) first link
  verified : signer ≠ [] → ∀ before link proof,
    (observeStep lib (audited lib alg pk signer ext before) link).1 = .ok (some proof)
    → proof.verify lib alg pk = .ok ()
  counted : ∀ links, let proofs := returnedProofs lib { alg, pk, signer, ext } links
    proofs.map ForkProof.extCounter = (List.range proofs.length).map fun n : ℕ => ext + n
  refused : ∀ before link, validReceipt lib alg pk link = false
    → ∃ error, observeStep lib (audited lib alg pk signer ext before) link
      = (.error error, audited lib alg pk signer ext before)
  duplicate : ∀ before link first, validReceipt lib alg pk link = true
    → firstAt (validReceipt lib alg pk) positionOf before (positionOf link) = some first
    → objectOf first = objectOf link
    → observeStep lib (audited lib alg pk signer ext before) link
      = (.ok none, audited lib alg pk signer ext before)

theorem returnedProof_iff {before : List (Receipt × Bytes)} {proof : ForkProof}
    : (observeStep lib (audited lib alg pk signer ext before) link).1 = .ok (some proof)
      ↔ ∃ first, ConflictsWith (validReceipt lib alg pk) positionOf objectOf before first link
        ∧ proof = forkProof (audited lib alg pk signer ext before) first link := by
  obtain ⟨sameAlg, samePk, -, remembers⟩ := @audited_watches lib alg pk signer ext before
  have observed := @observeStep_observed lib (audited lib alg pk signer ext before) link
  rw [sameAlg, samePk] at observed
  exact observed.reported_iff remembers

/-- The auditor detects equivocation: a proof is made on a later valid receipt of a position
that differs from the first one remembered for it, and it verifies.
Witness: what the auditor remembers of a position is the first valid receipt there, by the run
lemma.
-/
theorem detectsEquivocation : DetectsEquivocation lib alg pk signer ext := by
  refine ⟨fun _ _ _ => returnedProof_iff, ?_, returnedProofs_counters, ?_, ?_⟩
  · intro named before link proof minted
    obtain ⟨first, ⟨valid, found, differ⟩, rfl⟩ := returnedProof_iff.mp minted
    obtain ⟨-, validFirst, same⟩ := firstAt_eq_some found
    refine forkProof_verifies ?_ validFirst valid same differ
    rwa [(@audited_watches lib alg pk signer ext before).sameSigner]
  · intro before link refused
    obtain ⟨sameAlg, samePk, -, -⟩ := @audited_watches lib alg pk signer ext before
    exact observeStep_refused (by rwa [sameAlg, samePk])
  · intro before link first valid found same
    obtain ⟨sameAlg, samePk, -, remembers⟩ := @audited_watches lib alg pk signer ext before
    rw [observeStep_valid (by rwa [sameAlg, samePk]), remembers, found]
    exact if_neg (not_not_intro same)

end Runs

end Naalp.Receipts
