import Naalp.Bodies.Slots
import Naalp.Foundation.KahnLoop
import Naalp.Names.Bodies
import Naalp.Python.Gateway
import Naalp.Rust.EvidenceRecords

/-! What the bodies of evidence records spell out, with an option for every optional key as the Rust
readers keep it. The Python readers keep the same with an absent key and an empty value as one.
-/

namespace Naalp.Bodies

open Naalp.Foundation
open Naalp.Python
open Naalp.Python.Cbor
open Naalp.Python.Fields
open Naalp.Names
open Naalp.Signatures
open Naalp.Rust.EvidenceRecord

-----------------------------------------------------------------------------------------
-- Optional keys
-----------------------------------------------------------------------------------------

section OptionalKeys

variable {pairs : List (Value × Value)} {k : Int}

/-- An optional byte string is read as empty when it is absent, and as it is spelled otherwise.
-/
theorem optionalBstr_eq_some {octets : Bytes}
    : Gateway.optionalBstr pairs k = some octets
      ↔ ∃ spelled : Option Bytes, field k pairs = spelled.map .b ∧ spelled.getD [] = octets := by
  rw [Gateway.optionalBstr, Option.exists]
  split
  · rename_i absent
    simp [absent]
  · rename_i found
    simp [found]
  · rename_i other found
    rw [found]
    constructor
    · intro absent
      cases absent
    · rintro (⟨same, -⟩ | ⟨_, same, -⟩)
      · cases same
      · exact (other _ (Option.some.inj same)).elim

/-- A key that passes the type check is absent or has a byte string under it. -/
theorem typed_iff {spelled : Option Bytes}
    : ¬ wrongType pairs k = true ∧ bstrField pairs k = spelled
      ↔ field k pairs = spelled.map .b := by
  rw [wrongType, bstrField, decide_eq_true_iff]
  split
  · rename_i found
    cases spelled <;> simp [found]
  · rename_i other
    cases present : field k pairs with
    | none => cases spelled <;> simp
    | some v =>
        have typed : ∀ octets, v ≠ .b octets := fun octets same => other octets (same ▸ present)
        cases spelled <;> simp [typed]

end OptionalKeys

/-- An empty octet string is taken for an absent one. -/
def unlessEmpty {α : Type} (spelled : Option (List α)) : Option (List α) :=
  spelled.filter fun octets => !octets.isEmpty

/-- A zero is taken for an absent number. -/
def unlessZero (spelled : Option Int) : Option Int := spelled.filter fun code => code ≠ 0

@[simp]
theorem unlessZero_some {code : Int}
    : unlessZero (some code) = if code = 0 then none else some code := by
  by_cases zero : code = 0
  · simp [unlessZero, Option.filter, zero]
  · simp [unlessZero, Option.filter, zero]

section UnlessEmpty

variable {α : Type} {spelled : Option (List α)}

theorem unlessEmpty_eq_none : unlessEmpty spelled = none ↔ spelled.getD [] = [] := by
  cases spelled <;> simp [unlessEmpty]

theorem unlessEmpty_eq_self : unlessEmpty spelled = spelled ↔ spelled ≠ some [] := by
  cases spelled <;> simp [unlessEmpty]

theorem unlessEmpty_getD : (unlessEmpty spelled).getD [] = spelled.getD [] := by
  cases spelled with
  | none => rfl
  | some octets => cases octets <;> rfl

end UnlessEmpty

-----------------------------------------------------------------------------------------
-- Embedded orderings
-----------------------------------------------------------------------------------------

/-- The map spells the ordering out. -/
def SpellsOrdering : Value → OrderingDisclosure → Prop
  | .m pairs, o => field 1 pairs = some (.u o.basis) ∧ field 2 pairs = o.boundary.map .b
      ∧ field 3 pairs = o.mechanism.map .b ∧ field 4 pairs = o.relation.map .b
  | _, _ => False

/-- The ordering with its absent keys empty. -/
def flatOrdering (o : OrderingDisclosure) : Gateway.OrderingDisclosure :=
  ⟨o.basis, o.boundary.getD [], o.mechanism.getD [], o.relation.getD []⟩

/-- The ordering with its empty keys absent. -/
def plainOrdering (o : OrderingDisclosure) : OrderingDisclosure :=
  ⟨o.basis, unlessEmpty o.boundary, unlessEmpty o.mechanism, unlessEmpty o.relation⟩

/-- The keys that are there are those of the basis. -/
def FitsBasis (o : OrderingDisclosure) : Prop :=
  (o.basis = orderingCorrespondenceOnly ∧ o.boundary = none ∧ o.mechanism = none
    ∧ o.relation = none)
    ∨ (o.basis = orderingSingleBoundary ∧ o.boundary ≠ none ∧ o.mechanism = none
      ∧ o.relation = none)
    ∨ (o.basis = orderingExternalMechanism ∧ o.boundary = none ∧ o.mechanism ≠ none)

section Orderings

variable {v : Value} {o : OrderingDisclosure}

/-- The Rust reader of a disclosure returns what the value spells. -/
theorem fromValue_eq_some : OrderingDisclosure.fromValue v = some o ↔ SpellsOrdering v o := by
  cases v with
  | m pairs =>
      obtain ⟨basis, boundary, mechanism, relation⟩ := o
      simp only [OrderingDisclosure.fromValue, SpellsOrdering, ← typed_iff, ← uintField_eq_some,
        Option.bind_eq_bind, Option.bind_eq_some_iff, Option.pure_def, Option.guard_eq_some',
        Option.some.injEq, OrderingDisclosure.mk.injEq]
      grind
  | _ => simp [OrderingDisclosure.fromValue, SpellsOrdering]

/-- The Python reader returns the same with absent strings made empty. -/
theorem orderingFromCbor_eq_some {d : Gateway.OrderingDisclosure}
    : Gateway.orderingFromCbor v = some d ↔ ∃ o, SpellsOrdering v o ∧ flatOrdering o = d := by
  cases v with
  | m pairs =>
      obtain ⟨basis, boundary, mechanism, relation⟩ := d
      simp only [Gateway.orderingFromCbor, Option.bind_eq_bind, Option.bind_eq_some_iff,
        optionalBstr_eq_some, uintField_eq_some, Option.pure_def, Option.some.injEq,
        Gateway.OrderingDisclosure.mk.injEq]
      constructor
      · rintro ⟨_, first, _, ⟨two, second, rfl⟩, _, ⟨three, third, rfl⟩, _, ⟨four, fourth, rfl⟩,
          rfl, rfl, rfl, rfl⟩
        exact ⟨⟨_, two, three, four⟩, ⟨first, second, third, fourth⟩, rfl⟩
      · rintro ⟨o, ⟨first, second, third, fourth⟩, same⟩
        cases same
        exact ⟨_, first, _, ⟨_, second, rfl⟩, _, ⟨_, third, rfl⟩, _, ⟨_, fourth, rfl⟩, rfl, rfl,
          rfl, rfl⟩
  | _ => simp [Gateway.orderingFromCbor, SpellsOrdering]

theorem isKnownOrderingBasis_iff {basis : Int}
    : ¬ isKnownOrderingBasis basis = false
      ↔ basis = orderingCorrespondenceOnly ∨ basis = orderingSingleBoundary
        ∨ basis = orderingExternalMechanism := by
  simp only [isKnownOrderingBasis, Bool.not_eq_false, decide_eq_true_iff, List.mem_cons,
    List.not_mem_nil, or_false]

/-- The Rust check of a disclosure passes exactly when it fits its basis. -/
theorem checkWellFormed_eq_ok {done : Unit} : o.checkWellFormed = .ok done ↔ FitsBasis o := by
  rw [OrderingDisclosure.checkWellFormed, unit_bind_eq_ok, raiseIf_eq_ok, raiseIf_eq_ok,
    isKnownOrderingBasis_iff, FitsBasis]
  split
  · rename_i first
    simp [first, orderingCorrespondenceOnly, orderingSingleBoundary, orderingExternalMechanism]
  split
  · rename_i second
    simp [second, orderingCorrespondenceOnly, orderingSingleBoundary, orderingExternalMechanism,
      Option.isSome_iff_ne_none]
  · rename_i first second
    simp [first, second, Option.isSome_iff_ne_none]

/-- The Python check passes exactly when the disclosure fits its basis without its empty
strings.
-/
theorem validate_flat {done : Unit}
    : (flatOrdering o).validate = .ok done ↔ FitsBasis (plainOrdering o) := by
  have known : ¬ Gateway.isKnownOrderingBasis (flatOrdering o).basis = false
      ↔ o.basis = orderingCorrespondenceOnly ∨ o.basis = orderingSingleBoundary
        ∨ o.basis = orderingExternalMechanism :=
    isKnownOrderingBasis_iff
  rw [Gateway.OrderingDisclosure.validate, unit_bind_eq_ok, raiseIf_eq_ok, known, FitsBasis]
  split
  · rename_i first
    rw [raiseIf_eq_ok]
    change o.basis = orderingCorrespondenceOnly at first
    simp [first, plainOrdering, unlessEmpty_eq_none, flatOrdering, orderingCorrespondenceOnly,
      orderingSingleBoundary, orderingExternalMechanism]
  split
  · rename_i second
    rw [raiseIf_eq_ok]
    change o.basis = orderingSingleBoundary at second
    simp [second, plainOrdering, unlessEmpty_eq_none, flatOrdering, orderingCorrespondenceOnly,
      orderingSingleBoundary, orderingExternalMechanism]
  · rename_i first second
    rw [raiseIf_eq_ok]
    change ¬ o.basis = orderingCorrespondenceOnly at first
    change ¬ o.basis = orderingSingleBoundary at second
    simp [first, second, plainOrdering, unlessEmpty_eq_none, flatOrdering]

end Orderings

-----------------------------------------------------------------------------------------
-- Terms
-----------------------------------------------------------------------------------------

def SpellsTerm : Value → TermDisposition → Prop
  | .m pairs, td => field 1 pairs = some (.u td.kind) ∧ field 2 pairs = td.source.map .b
  | _, _ => False

def flatTerm (td : TermDisposition) : Gateway.TermDisposition := ⟨td.kind, td.source.getD []⟩

def plainTerm (td : TermDisposition) : TermDisposition := ⟨td.kind, unlessEmpty td.source⟩

/-- One entry of the map of terms. -/
def SpellsEntry (entry : Value × Value) (term : Int × TermDisposition) : Prop :=
  entry.1 = .u term.1 ∧ SpellsTerm entry.2 term.2

/-- The optional map of terms. -/
def SpellsTerms : Option Value → Option (List (Int × TermDisposition)) → Prop
  | none, terms => terms = none
  | some (.m entries), terms =>
      ∃ spelled, terms = some spelled ∧ List.Forall₂ SpellsEntry entries spelled
  | some _, _ => False

def flatTerms (terms : Option (List (Int × TermDisposition))) : Gateway.Terms :=
  (terms.getD []).map (Prod.map id flatTerm)

def plainTerms (terms : Option (List (Int × TermDisposition)))
    : Option (List (Int × TermDisposition)) :=
  unlessEmpty (terms.map (List.map (Prod.map id plainTerm)))

section Terms

/-- The Rust reader of a term returns what the value spells. -/
theorem termFromValue_eq_some {v : Value} {td : TermDisposition}
    : TermDisposition.fromValue v = some td ↔ SpellsTerm v td := by
  cases v with
  | m pairs =>
      obtain ⟨kind, source⟩ := td
      simp only [TermDisposition.fromValue, SpellsTerm, ← typed_iff, ← uintField_eq_some,
        Option.bind_eq_bind, Option.bind_eq_some_iff, Option.pure_def, Option.guard_eq_some',
        Option.some.injEq, TermDisposition.mk.injEq]
      grind
  | _ => simp [TermDisposition.fromValue, SpellsTerm]

/-- The Python reader returns the same with an absent source made empty. -/
theorem termDispositionFromCbor_eq_some {v : Value} {td : Gateway.TermDisposition}
    : Gateway.termDispositionFromCbor v = some td ↔ ∃ td', SpellsTerm v td'
      ∧ flatTerm td' = td := by
  cases v with
  | m pairs =>
      obtain ⟨kind, source⟩ := td
      simp only [Gateway.termDispositionFromCbor, Option.bind_eq_bind, Option.bind_eq_some_iff,
        optionalBstr_eq_some, uintField_eq_some, Option.pure_def, Option.some.injEq,
        Gateway.TermDisposition.mk.injEq]
      constructor
      · rintro ⟨_, first, _, ⟨two, second, rfl⟩, rfl, rfl⟩
        exact ⟨⟨_, two⟩, ⟨first, second⟩, rfl⟩
      · rintro ⟨td', ⟨first, second⟩, same⟩
        cases same
        exact ⟨_, first, _, ⟨_, second, rfl⟩, rfl, rfl⟩
  | _ => simp [Gateway.termDispositionFromCbor, SpellsTerm]

/-- One entry of the terms is taken in Rust exactly as it is spelled. -/
theorem rustReadTerm_eq_ok {entry : Value × Value} {term : Int × TermDisposition}
    : readTerm entry = .ok term ↔ SpellsEntry entry term := by
  obtain ⟨key, v⟩ := entry
  cases key with
  | u k =>
      simp only [readTerm, SpellsEntry, ← termFromValue_eq_some, Value.u.injEq]
      obtain ⟨n, td⟩ := term
      cases TermDisposition.fromValue v <;> simp
  | _ => simp [readTerm, SpellsEntry]

/-- The terms are read in Rust exactly as they are spelled, or are absent. -/
theorem rustTermsField_eq_ok {m : List (Value × Value)}
    {terms : Option (List (Int × TermDisposition))}
    : termsField m = .ok terms ↔ SpellsTerms (field 6 m) terms := by
  unfold termsField
  split
  · rename_i absent
    simp [absent, SpellsTerms, eq_comm]
  · rename_i entries present
    simp only [present, SpellsTerms, bind_eq_ok, pure_eq_ok, Except.ok.injEq, mapM_eq_ok,
      rustReadTerm_eq_ok]
    exact exists_congr fun _ => and_comm.trans (and_congr_left fun _ => eq_comm)
  · rename_i v other present
    rw [present]
    cases v with
    | m entries => exact (other entries rfl).elim
    | _ => simp [SpellsTerms]

/-- One entry of the terms is put into the Python table exactly as it is spelled. -/
theorem readTerm_eq_ok {terms next : Gateway.Terms} {entry : Value × Value}
    : Gateway.readTerm terms entry = .ok next
      ↔ ∃ term, SpellsEntry entry term ∧ terms.set term.1 (flatTerm term.2) = next := by
  obtain ⟨key, v⟩ := entry
  cases key with
  | u k =>
      simp only [SpellsEntry, Value.u.injEq, Prod.exists]
      cases read : Gateway.termDispositionFromCbor v with
      | none =>
          have unread : ∀ td, ¬ SpellsTerm v td := by
            intro td spelled
            have found := termDispositionFromCbor_eq_some.mpr ⟨td, spelled, rfl⟩
            rw [read] at found
            cases found
          simp [Gateway.readTerm, read, unread]
      | some td =>
          obtain ⟨td', spelled, flat⟩ := termDispositionFromCbor_eq_some.mp read
          simp only [Gateway.readTerm, read, pure_eq_ok, Except.ok.injEq]
          constructor
          · rintro rfl
            exact ⟨k, td', ⟨rfl, spelled⟩, by rw [flat]⟩
          · rintro ⟨n, other, ⟨rfl, spelled'⟩, rfl⟩
            have again := termDispositionFromCbor_eq_some.mpr ⟨other, spelled', rfl⟩
            rw [Option.some.inj (read.symm.trans again)]
  | _ => simp [Gateway.readTerm, SpellsEntry]

/-- A key that is new goes last. -/
theorem set_fresh {terms : Gateway.Terms} {k : Int} {td : Gateway.TermDisposition}
    (fresh : k ∉ terms.map Prod.fst)
    : terms.set k td = terms ++ [(k, td)] := by
  have kept : terms.filter (fun term => term.1 ≠ k) = terms := by
    apply List.filter_eq_self.mpr
    intro term member
    have other : term.1 ≠ k := fun same => fresh (List.mem_map.mpr ⟨term, member, same⟩)
    simpa using other
  rw [Gateway.Terms.set, kept]

/-- The loop over a map with distinct keys reads its entries one by one.
Witness: induction on the entries; a fresh key is set behind the earlier ones.
-/
theorem readTerms_eq_ok {entries : List (Value × Value)} {terms final : Gateway.Terms}
    (distinct : (terms.map (fun term => Value.u term.1) ++ entries.map Prod.fst).Nodup)
    : entries.foldlM Gateway.readTerm terms = .ok final
      ↔ ∃ spelled, List.Forall₂ SpellsEntry entries spelled
        ∧ terms ++ spelled.map (Prod.map id flatTerm) = final := by
  induction entries generalizing terms with
  | nil => simp [eq_comm]
  | cons entry rest ih =>
      simp only [List.foldlM_cons, bind_eq_ok, readTerm_eq_ok, List.forall₂_cons_left_iff]
      have step : ∀ term : Int × TermDisposition, SpellsEntry entry term
          → terms.set term.1 (flatTerm term.2) = terms ++ [(term.1, flatTerm term.2)]
            ∧ ((terms ++ [(term.1, flatTerm term.2)]).map (fun term => Value.u term.1)
              ++ rest.map Prod.fst).Nodup := by
        intro term spelled
        have moved : (terms ++ [(term.1, flatTerm term.2)]).map (fun term => Value.u term.1)
            ++ rest.map Prod.fst
            = terms.map (fun term => Value.u term.1) ++ (entry :: rest).map Prod.fst := by
          simp [spelled.1]
        refine ⟨set_fresh ?_, moved ▸ distinct⟩
        intro member
        obtain ⟨other, inside, same⟩ := List.mem_map.mp member
        refine (List.nodup_append.mp distinct).2.2 _ (List.mem_map_of_mem inside) entry.1
          (by simp) ?_
        rw [same, spelled.1]
      constructor
      · rintro ⟨next, ⟨term, spelled, rfl⟩, ran⟩
        obtain ⟨grown, distinct'⟩ := step term spelled
        rw [grown, ih distinct'] at ran
        obtain ⟨others, spelledRest, rfl⟩ := ran
        exact ⟨term :: others, ⟨term, others, spelled, spelledRest, rfl⟩, by simp [Prod.map]⟩
      · rintro ⟨_, ⟨term, others, spelled, spelledRest, rfl⟩, rfl⟩
        obtain ⟨grown, distinct'⟩ := step term spelled
        refine ⟨_, ⟨term, spelled, rfl⟩, ?_⟩
        rw [grown, ih distinct']
        exact ⟨others, spelledRest, by simp [Prod.map]⟩

/-- The table of the terms in Python is that of the spelled ones; keys do not repeat in a
decoded map.
-/
theorem termsField_eq_ok {m : List (Value × Value)} {terms : Gateway.Terms}
    (decoded : Decoded (.m m))
    : Gateway.termsField m = .ok terms
      ↔ ∃ spelled, SpellsTerms (field 6 m) spelled ∧ flatTerms spelled = terms := by
  unfold Gateway.termsField
  split
  · rename_i absent
    simp [absent, SpellsTerms, flatTerms]
  · rename_i entries present
    have ascending := (decoded_m decoded).1
    have member := (field_eq_some (nodup_of_ascending ascending)).mp present
    have distinct := keys_nodup (decoded_m ((decoded_m decoded).2 _ member)).1
    rw [readTerms_eq_ok (by simpa using distinct)]
    simp [present, SpellsTerms, flatTerms]
  · rename_i v other present
    rw [present]
    cases v with
    | m entries => exact (other entries rfl).elim
    | _ => simp [SpellsTerms]

end Terms

-----------------------------------------------------------------------------------------
-- Decision records
-----------------------------------------------------------------------------------------

/-- The map spells the record out. -/
structure SpellsRecord (m : List (Value × Value)) (r : DecisionRecord) : Prop where
  action : field 1 m = some (.b r.action)
  governing : field 2 m = some (.a (r.governing.map .b))
  consume : field 3 m = r.consume.map .b
  outcome : field 4 m = some (.u r.outcome)
  ordering : ∃ v, field 5 m = some v ∧ SpellsOrdering v r.ordering
  terms : SpellsTerms (field 6 m) r.terms
  enforcement : field 7 m = r.enforcement.map .u

/-- The record with its absent keys empty, and a zero for no enforcement. -/
def flatRecord (r : DecisionRecord) : Gateway.DecisionRecord where
  action := r.action
  governing := r.governing
  consume := r.consume.getD []
  outcome := r.outcome
  ordering := flatOrdering r.ordering
  terms := flatTerms r.terms
  enforcement := r.enforcement.getD 0

/-- The record with its empty keys absent. -/
def plainRecord (r : DecisionRecord) : DecisionRecord where
  action := r.action
  governing := r.governing
  consume := unlessEmpty r.consume
  outcome := r.outcome
  ordering := plainOrdering r.ordering
  terms := plainTerms r.terms
  enforcement := unlessZero r.enforcement

/-- The record keeps to the closed sets and the rules between its keys. -/
structure FitsRecord (r : DecisionRecord) : Prop where
  outcome : r.outcome = decisionAllow ∨ r.outcome = decisionDeny ∨ r.outcome = decisionHold
  ordering : FitsBasis r.ordering
  consume : r.consume ≠ none → r.outcome = decisionAllow
  terms : ∀ k ∈ (r.terms.getD []).map Prod.fst, 1 ≤ k ∧ k ≤ 5

section Records

variable {r : DecisionRecord}

theorem isKnownDecision_iff {code : Int}
    : ¬ isKnownDecision code = false
      ↔ code = decisionAllow ∨ code = decisionDeny ∨ code = decisionHold := by
  simp only [isKnownDecision, Bool.not_eq_false, decide_eq_true_iff, List.mem_cons,
    List.not_mem_nil, or_false]

theorem exists_key {α : Type} {terms : List (Int × α)} {rule : Int → Prop}
    : (∃ term ∈ terms, rule term.1) ↔ ∃ k ∈ terms.map Prod.fst, rule k := by
  simp

/-- The conditions on a record in the order in which the checks make them. -/
theorem fitsRecord_iff
    : FitsRecord r
      ↔ (r.outcome = decisionAllow ∨ r.outcome = decisionDeny ∨ r.outcome = decisionHold)
        ∧ FitsBasis r.ordering ∧ ¬ (r.outcome ≠ decisionAllow ∧ r.consume ≠ none)
        ∧ ¬ ∃ k ∈ (r.terms.getD []).map Prod.fst, ¬ (1 ≤ k ∧ k ≤ 5) := by
  constructor
  · intro fits
    refine ⟨fits.outcome, fits.ordering, ?_, ?_⟩
    · rintro ⟨refused, present⟩
      exact refused (fits.consume present)
    · rintro ⟨k, member, outside⟩
      exact outside (fits.terms k member)
  · rintro ⟨known, ordering, consumed, keys⟩
    refine ⟨known, ordering, ?_, ?_⟩
    · intro present
      by_contra refused
      exact consumed ⟨refused, present⟩
    · intro k member
      by_contra outside
      exact keys ⟨k, member, outside⟩

theorem rustValidateDecisionRecord_eq_ok {done : Unit}
    : validateDecisionRecord r = .ok done ↔ FitsRecord r := by
  rw [validateDecisionRecord, unit_bind_eq_ok, unit_bind_eq_ok, unit_bind_eq_ok, raiseIf_eq_ok,
    raiseIf_eq_ok, raiseIf_eq_ok, checkWellFormed_eq_ok, isKnownDecision_iff, fitsRecord_iff,
    Option.isSome_iff_ne_none, @exists_key _ _ fun k => ¬ (1 ≤ k ∧ k ≤ 5)]

theorem plainTerms_keys {terms : Option (List (Int × TermDisposition))}
    : ((plainTerms terms).getD []).map Prod.fst = (terms.getD []).map Prod.fst := by
  rw [plainTerms, unlessEmpty_getD]
  cases terms <;> simp [Function.comp_def]

theorem flatTerms_keys {terms : Option (List (Int × TermDisposition))}
    : (flatTerms terms).map Prod.fst = (terms.getD []).map Prod.fst := by
  simp [flatTerms, Function.comp_def]

/-- The Python check of a record passes exactly when the record fits without its empty strings.
-/
theorem validateDecisionRecord_flat {done : Unit}
    : Gateway.validateDecisionRecord (flatRecord r) = .ok done ↔ FitsRecord (plainRecord r) := by
  have known : ¬ Gateway.isKnownDecision (flatRecord r).outcome = false
      ↔ (plainRecord r).outcome = decisionAllow ∨ (plainRecord r).outcome = decisionDeny
        ∨ (plainRecord r).outcome = decisionHold :=
    isKnownDecision_iff
  have consumed : (flatRecord r).consume ≠ [] ↔ (plainRecord r).consume ≠ none :=
    not_congr unlessEmpty_eq_none.symm
  have keys : (flatRecord r).terms.map Prod.fst = ((plainRecord r).terms.getD []).map Prod.fst :=
    flatTerms_keys.trans plainTerms_keys.symm
  have valid (k : Int) : Gateway.validTermKey k = false ↔ ¬ (1 ≤ k ∧ k ≤ 5) :=
    decide_eq_false_iff_not
  rw [Gateway.validateDecisionRecord, unit_bind_eq_ok, unit_bind_eq_ok, unit_bind_eq_ok,
    raiseIf_eq_ok, raiseIf_eq_ok, raiseIf_eq_ok, known, fitsRecord_iff, ← keys, consumed]
  simp only [valid, @exists_key _ _ fun k => ¬ (1 ≤ k ∧ k ≤ 5)]
  exact and_congr_right fun _ => and_congr_left fun _ => validate_flat

theorem governing_eq_ok {items : List Value} {governing : List Bytes}
    : items.mapM Gateway.governingItem = .ok governing ↔ items = governing.map .b := by
  have item (v : Value) (octets : Bytes)
      : Gateway.governingItem v = .ok octets ↔ v = .b octets := by
    cases v <;> simp [Gateway.governingItem]
  induction items generalizing governing with
  | nil => cases governing <;> simp
  | cons v rest ih => cases governing <;> simp [List.mapM_cons, bind_eq_ok, item, ih]

/-- A list of byte strings is read exactly when the key holds an array of them, by induction on
the array.
-/
theorem arrBstrField_eq_some {m : List (Value × Value)} {k : Int} {governing : List Bytes}
    : arrBstrField m k = some governing ↔ field k m = some (.a (governing.map .b)) := by
  have item (v : Value) (octets : Bytes) : octetsItem v = some octets ↔ v = .b octets := by
    cases v <;> simp [octetsItem]
  have members (items : List Value)
      : items.mapM octetsItem = some governing ↔ items = governing.map .b := by
    induction items generalizing governing with
    | nil => cases governing <;> simp
    | cons v rest ih =>
        cases governing <;> simp [List.mapM_cons, Option.bind_eq_some_iff, item, ih]
  unfold arrBstrField
  split
  · rename_i items present
    simp [present, members]
  · rename_i other
    constructor
    · intro absent
      cases absent
    · intro present
      exact (other _ present).elim

theorem rustDecodeMap_eq_ok {valueSize : Nat} {b : Bytes} {m : List (Value × Value)}
    : Rust.EvidenceRecord.decodeMap valueSize b = .ok m
      ↔ Rust.Cbor.decode valueSize b = .ok (.m m) := by
  unfold Rust.EvidenceRecord.decodeMap
  split <;> simp_all

/-- A key that passes the type check is absent or has an unsigned integer under it. -/
theorem typedUint_iff {m : List (Value × Value)} {k : Int} {spelled : Option Int}
    : ¬ ((field k m).isSome ∧ (uintField m k).isNone) ∧ uintField m k = spelled
      ↔ field k m = spelled.map .u := by
  rw [uintField]
  split
  · rename_i found
    cases spelled <;> simp [found]
  · rename_i other
    cases present : field k m with
    | none => cases spelled <;> simp
    | some v =>
        have typed : ∀ n, v ≠ .u n := fun n same => other n (same ▸ present)
        cases spelled <;> simp [typed]

/-- The record is spelled out exactly when each lookup of the Rust reader finds its own. -/
theorem spellsRecord_iff {m : List (Value × Value)}
    : SpellsRecord m r
      ↔ bstrField m 1 = some r.action ∧ arrBstrField m 2 = some r.governing
        ∧ (¬ wrongType m 3 ∧ bstrField m 3 = r.consume) ∧ uintField m 4 = some r.outcome
        ∧ (field 5 m >>= OrderingDisclosure.fromValue) = some r.ordering
        ∧ termsField m = .ok r.terms
        ∧ (¬ ((field 7 m).isSome ∧ (uintField m 7).isNone) ∧ uintField m 7 = r.enforcement) := by
  rw [bstrField_eq_some, arrBstrField_eq_some, typed_iff, uintField_eq_some, rustTermsField_eq_ok,
    typedUint_iff, Option.bind_eq_bind, Option.bind_eq_some_iff]
  simp only [fromValue_eq_some]
  exact ⟨fun s => ⟨s.action, s.governing, s.consume, s.outcome, s.ordering, s.terms, s.enforcement⟩,
    fun ⟨action, governing, consume, outcome, ordering, terms, enforcement⟩ =>
      ⟨action, governing, consume, outcome, ordering, terms, enforcement⟩⟩

/-- A record is parsed in Rust exactly when the map spells one that fits. -/
theorem rustParseDecisionRecord_eq_ok {valueSize : Nat} {b : Bytes}
    : parseDecisionRecord valueSize b = .ok r
      ↔ ∃ m, Rust.Cbor.decode valueSize b = .ok (.m m) ∧ SpellsRecord m r ∧ FitsRecord r := by
  simp only [parseDecisionRecord, bind_eq_ok, rustDecodeMap_eq_ok]
  refine exists_congr fun m => and_congr_right fun _ => ?_
  rw [spellsRecord_iff, ← @rustValidateDecisionRecord_eq_ok r ()]
  obtain ⟨action, governing, consume, outcome, ordering, terms, enforcement⟩ := r
  cases bstrField m 1 with
  | none => simp
  | some first =>
  cases arrBstrField m 2 with
  | none => simp
  | some second =>
  cases uintField m 4 with
  | none => simp [bind_eq_ok]
  | some fourth =>
  cases field 5 m with
  | none => simp [bind_eq_ok]
  | some disclosure =>
  cases read : OrderingDisclosure.fromValue disclosure with
  | none => simp [bind_eq_ok, read]
  | some fifth =>
  simp only [bind_eq_ok, raiseIf_eq_ok, read, pure_eq_ok, Except.ok.injEq, exists_const]
  grind

/-- The enforcement is read as zero when it is absent, and as it is spelled otherwise. -/
theorem typedEnforcement_iff {m : List (Value × Value)} {enforcement : Int}
    : Gateway.enforcementField m = .ok enforcement
      ↔ ∃ spelled : Option Int, field 7 m = spelled.map .u ∧ spelled.getD 0 = enforcement := by
  rw [Gateway.enforcementField, Option.exists]
  split
  · rename_i absent
    simp [absent]
  · rename_i found
    simp [found]
  · rename_i other found
    rw [found]
    constructor
    · intro refused
      cases refused
    · rintro (⟨same, -⟩ | ⟨_, same, -⟩)
      · cases same
      · exact (other _ (Option.some.inj same)).elim

/-- A body that is read as a record is a map. -/
theorem map_of_parseDecisionRecord {b : Bytes} {d : Gateway.DecisionRecord}
    (parsed : Gateway.parseDecisionRecord b = .ok d)
    : ∃ m, decode b = .ok (.m m) := by
  cases decoded : decode b with
  | error err =>
      simp only [Gateway.parseDecisionRecord, decoded] at parsed
      split at parsed
      · simp_all
      · cases parsed
      · cases parsed
  | ok v =>
      cases v with
      | m pairs => exact ⟨pairs, rfl⟩
      | _ => simp [Gateway.parseDecisionRecord, decoded] at parsed

/-- A record that Python parsed is spelled in the map, and is what was spelled with absent
parts made empty.
Witness: each field is taken from its key in the order of the parser.
-/
theorem spelled_of_parseDecisionRecord {b : Bytes} {d : Gateway.DecisionRecord}
    {m : List (Value × Value)} (decoded : decode b = .ok (.m m))
    (parsed : Gateway.parseDecisionRecord b = .ok d)
    : ∃ r, SpellsRecord m r ∧ flatRecord r = d := by
  simp only [Gateway.parseDecisionRecord, decoded, pure_eq_ok, ok_bind] at parsed
  split at parsed
  · rename_i action items lookups
    obtain ⟨first, second⟩ := Prod.mk.inj lookups
    rw [bind_eq_ok] at parsed
    obtain ⟨governing, read, parsed⟩ := parsed
    obtain rfl := governing_eq_ok.mp read
    split at parsed
    · rename_i octets found
      obtain ⟨consume, third, rfl⟩ := optionalBstr_eq_some.mp found
      split at parsed
      · rename_i outcome fourth
        split at parsed
        · rename_i disclosure fifth
          split at parsed
          · rename_i read
            obtain ⟨ordering, embedded, rfl⟩ := orderingFromCbor_eq_some.mp read
            simp only [bind_eq_ok, termsField_eq_ok (decoded_of_decode decoded),
              typedEnforcement_iff] at parsed
            obtain ⟨_, ⟨terms, sixth, rfl⟩, _, ⟨enforcement, seventh, rfl⟩, built⟩ := parsed
            obtain rfl := Except.ok.inj built
            exact ⟨⟨action, governing, consume, outcome, ordering, terms, enforcement⟩,
              ⟨first, second, third, uintField_eq_some.mp fourth, ⟨disclosure, fifth, embedded⟩,
                sixth, seventh⟩, rfl⟩
          · cases parsed
        · cases parsed
      · cases parsed
    · cases parsed
  · cases parsed

/-- A record is parsed in Python exactly when the map spells it; that it fits is left to the
check.
-/
theorem parseDecisionRecord_eq_ok {b : Bytes} {d : Gateway.DecisionRecord}
    : Gateway.parseDecisionRecord b = .ok d
      ↔ ∃ m r, decode b = .ok (.m m) ∧ SpellsRecord m r ∧ flatRecord r = d := by
  constructor
  · intro parsed
    obtain ⟨m, decoded⟩ := map_of_parseDecisionRecord parsed
    obtain ⟨r, spelled, flat⟩ := spelled_of_parseDecisionRecord decoded parsed
    exact ⟨m, r, decoded, spelled, flat⟩
  · rintro ⟨m, r, decoded, spelled, rfl⟩
    obtain ⟨disclosure, fifth, embedded⟩ := spelled.ordering
    have third := optionalBstr_eq_some.mpr ⟨_, spelled.consume, rfl⟩
    have fourth := uintField_eq_some.mpr spelled.outcome
    have ordering := orderingFromCbor_eq_some.mpr ⟨_, embedded, rfl⟩
    have terms := (termsField_eq_ok (decoded_of_decode decoded)).mpr ⟨_, spelled.terms, rfl⟩
    have enforcement := typedEnforcement_iff.mpr ⟨_, spelled.enforcement, rfl⟩
    simp only [Gateway.parseDecisionRecord, decoded, pure_eq_ok, ok_bind, spelled.action,
      spelled.governing, governing_eq_ok.mpr rfl, third, fourth, fifth, ordering, terms,
      enforcement]
    rfl

end Records

end Naalp.Bodies
