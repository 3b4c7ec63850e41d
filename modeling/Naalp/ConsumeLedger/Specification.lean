import Mathlib.Data.List.Nodup
import Mathlib.Logic.Function.Basic
import Naalp.Foundation.Runs

/-! The model of the consume ledger in `formal/consume_ledger.tla`, over histories of every length.
Two ledgers append by compare-and-set, and a record that contradicts the other ledger is flagged.
-/

namespace Naalp.ConsumeLedger.Specification

open Naalp.Foundation

/-- The two partitions, with a ledger each. -/
inductive Side where
  | a
  | b
  deriving DecidableEq

def Side.other : Side → Side
  | .a => .b
  | .b => .a

theorem Side.other_ne (side : Side) : side.other ≠ side := by
  cases side <;> decide

/-- A consume record. Approval ids and ledger keys may be of any types. -/
structure Record (ι κ : Type) where
  approvalId : ι
  ledgerKey : κ
  position : ℕ
  deriving DecidableEq

/-- The variables: `ledgerA` and `ledgerB` by their sides, and `forkLog`. -/
structure State (ι κ : Type) where
  ledger : Side → List (Record ι κ)
  forkLog : List ι

variable {ι κ : Type}

def State.ledgerA (s : State ι κ) : List (Record ι κ) := s.ledger .a

def State.ledgerB (s : State ι κ) : List (Record ι κ) := s.ledger .b

def init : State ι κ := { ledger := fun _ => [], forkLog := [] }

def HasConsumed (ledger : List (Record ι κ)) (aid : ι) : Prop := ∃ r ∈ ledger, r.approvalId = aid

/-- The receipts of two records with one approval id have the same octets. -/
def SameReceipt (r r' : Record ι κ) : Prop := r.ledgerKey = r'.ledgerKey ∧ r.position = r'.position

instance [DecidableEq ι] (ledger : List (Record ι κ)) (aid : ι)
    : Decidable (HasConsumed ledger aid) :=
  inferInstanceAs (Decidable (∃ r ∈ ledger, r.approvalId = aid))

instance [DecidableEq κ] (r r' : Record ι κ) : Decidable (SameReceipt r r') :=
  inferInstanceAs (Decidable (_ ∧ _))

variable [DecidableEq ι]

/-- `RecordFor`, where there is a record. Of several records with the id it takes the first. -/
def recordFor (ledger : List (Record ι κ)) (aid : ι) : Option (Record ι κ) :=
  ledger.find? (·.approvalId = aid)

/-- The ledger has consumed the record's approval id with another receipt. -/
def Contradicts (ledger : List (Record ι κ)) (r : Record ι κ) : Prop :=
  ∃ held ∈ recordFor ledger r.approvalId, ¬ SameReceipt r held

instance [DecidableEq κ] (ledger : List (Record ι κ)) (r : Record ι κ)
    : Decidable (Contradicts ledger r) :=
  inferInstanceAs (Decidable (∃ held ∈ recordFor ledger r.approvalId, ¬ SameReceipt r held))

/-- Both sides have consumed an approval id, with different receipts. -/
def Forked (s : State ι κ) (aid : ι) : Prop :=
  ∃ r ∈ recordFor s.ledgerA aid, ∃ r' ∈ recordFor s.ledgerB aid, ¬ SameReceipt r r'

/-- `Inv`: each side consumes an id once and under one key, and the fork log lists exactly the ids
with two different receipts, each once.
-/
structure Inv (s : State ι κ) : Prop where
  unique : ∀ side, ((s.ledger side).map (·.approvalId)).Nodup
  consistentKey : ∀ side, ∀ r ∈ s.ledger side, ∀ r' ∈ s.ledger side, r.ledgerKey = r'.ledgerKey
  forkLogNoDup : s.forkLog.Nodup
  forkLogSound : ∀ aid ∈ s.forkLog, Forked s aid
  noSilentFork : ∀ aid, Forked s aid → aid ∈ s.forkLog

section Actions

variable [DecidableEq κ]

/-- The record of a consume that finds a ledger. -/
def nextRecord (own : List (Record ι κ)) (aid : ι) (lk : κ) : Record ι κ :=
  { approvalId := aid, ledgerKey := lk, position := own.length }

omit [DecidableEq ι] [DecidableEq κ] in
@[simp]
theorem nextRecord_approvalId (own : List (Record ι κ)) (aid : ι) (lk : κ)
    : (nextRecord own aid lk).approvalId = aid :=
  rfl

/-- A consume at one side: the first to append an id wins there, and all records of the side have
one key. The contradiction with the other side is flagged in the same step, once.
-/
def consume (side : Side) (s : State ι κ) (aid : ι) (lk : κ) : Option (State ι κ) :=
  let own := s.ledger side
  let r := nextRecord own aid lk
  if ¬ HasConsumed own aid ∧ ∀ held ∈ own, held.ledgerKey = lk then
    some
      { ledger := Function.update s.ledger side (own ++ [r])
        forkLog :=
          if Contradicts (s.ledger side.other) r ∧ aid ∉ s.forkLog then s.forkLog ++ [aid]
          else s.forkLog }
  else none

def consumeA : State ι κ → ι → κ → Option (State ι κ) := consume .a

def consumeB : State ι κ → ι → κ → Option (State ι κ) := consume .b

/-- `Init` and `Next`. -/
def specification : Specification (State ι κ) where
  init s := s = init
  next s s' := ∃ aid lk, consumeA s aid lk = some s' ∨ consumeB s aid lk = some s'

/-- A step of the model is a consume at one of the two sides. -/
theorem next_iff {s s' : State ι κ}
    : specification.next s s' ↔ ∃ side aid lk, consume side s aid lk = some s' := by
  constructor
  · intro next
    obtain ⟨aid, lk, taken | taken⟩ := next
    · exact ⟨.a, aid, lk, taken⟩
    · exact ⟨.b, aid, lk, taken⟩
  · intro next
    obtain ⟨side, aid, lk, taken⟩ := next
    refine ⟨aid, lk, ?_⟩
    cases side with
    | a => exact .inl taken
    | b => exact .inr taken

end Actions

-----------------------------------------------------------------------------------------
-- The records of an id
-----------------------------------------------------------------------------------------

section Records

variable {s s' : State ι κ} {side : Side} {aid : ι} {ledger : List (Record ι κ)} {r : Record ι κ}

theorem recordFor_eq_some (found : recordFor ledger aid = some r)
    : r ∈ ledger ∧ r.approvalId = aid := by
  have named := List.find?_some found
  exact ⟨List.mem_of_find?_eq_some found, by simpa using named⟩

theorem recordFor_eq_none : recordFor ledger aid = none ↔ ¬ HasConsumed ledger aid := by
  simp [recordFor, HasConsumed]

theorem hasConsumed_iff : HasConsumed ledger aid ↔ ∃ r, recordFor ledger aid = some r := by
  rw [← Option.ne_none_iff_exists', ne_eq, recordFor_eq_none, not_not]

/-- An appended record is found for its id when the id was not consumed, and for no other id. -/
theorem recordFor_snoc (unspent : ¬ HasConsumed ledger r.approvalId)
    : recordFor (ledger ++ [r]) aid = if r.approvalId = aid then some r
      else recordFor ledger aid := by
  have appended : recordFor (ledger ++ [r]) aid = (recordFor ledger aid).or (recordFor [r] aid) :=
    List.find?_append
  by_cases same : r.approvalId = aid
  · subst same
    rw [appended, recordFor_eq_none.mpr unspent, if_pos rfl]
    simp [recordFor]
  · rw [appended, if_neg same]
    simp [recordFor, same]

/-- A fork looks the same from both sides. -/
theorem forked_iff (side : Side)
    : Forked s aid
      ↔ ∃ r ∈ recordFor (s.ledger side) aid, ∃ r' ∈ recordFor (s.ledger side.other) aid,
        ¬ SameReceipt r r' := by
  cases side with
  | a => exact Iff.rfl
  | b =>
      constructor
      all_goals
        intro forked
        obtain ⟨r, found, r', found', differ⟩ := forked
        exact ⟨r', found', r, found, fun same => differ ⟨same.1.symm, same.2.symm⟩⟩

/-- An id that one side has not consumed is not forked. -/
theorem Forked.hasConsumed (forked : Forked s aid) (side : Side)
    : HasConsumed (s.ledger side) aid := by
  obtain ⟨r, found, -⟩ := (forked_iff side).mp forked
  exact hasConsumed_iff.mpr ⟨r, found⟩

/-- A consume forks its approval id when it contradicts the other side, and no other id. -/
theorem forked_after (appended : s'.ledger = Function.update s.ledger side (s.ledger side ++ [r]))
    (unspent : ¬ HasConsumed (s.ledger side) r.approvalId)
    : Forked s' aid
      ↔ if r.approvalId = aid then Contradicts (s.ledger side.other) r else Forked s aid := by
  have own : s'.ledger side = s.ledger side ++ [r] := by
    rw [appended, Function.update_self]
  have others : s'.ledger side.other = s.ledger side.other := by
    rw [appended, Function.update_of_ne side.other_ne]
  rw [forked_iff side, own, others, recordFor_snoc unspent, forked_iff side]
  by_cases same : r.approvalId = aid
  · subst same
    simp [Contradicts]
  · simp [same]

end Records

-----------------------------------------------------------------------------------------
-- What a consume keeps
-----------------------------------------------------------------------------------------

section Steps

variable [DecidableEq κ] {s s' : State ι κ} {side : Side} {aid : ι} {lk : κ}

/-- What a consume has done: its guards, the appended record and the flag. -/
structure Consumed (s s' : State ι κ) (side : Side) (aid : ι) (lk : κ) : Prop where
  unspent : ¬ HasConsumed (s.ledger side) aid
  oneKey : ∀ held ∈ s.ledger side, held.ledgerKey = lk
  appended : s'.ledger
    = Function.update s.ledger side (s.ledger side ++ [nextRecord (s.ledger side) aid lk])
  flagged : s'.forkLog
    = if Contradicts (s.ledger side.other) (nextRecord (s.ledger side) aid lk) ∧ aid ∉ s.forkLog
      then s.forkLog ++ [aid] else s.forkLog

/-- What a consume does, by the ledger that it appends to. -/
theorem consumed_of_consume (taken : consume side s aid lk = some s')
    : Consumed s s' side aid lk := by
  unfold consume at taken
  dsimp only at taken
  split at taken
  · rename_i enabled
    obtain rfl := Option.some.inj taken
    exact ⟨enabled.1, enabled.2, rfl, rfl⟩
  · cases taken

/-- A consume whose guards hold is taken. -/
theorem consume_of_enabled (unspent : ¬ HasConsumed (s.ledger side) aid)
    (oneKey : ∀ held ∈ s.ledger side, held.ledgerKey = lk)
    : ∃ s', consume side s aid lk = some s' := by
  unfold consume
  exact ⟨_, if_pos ⟨unspent, oneKey⟩⟩

/-- The ledger at a side after a consume. -/
theorem Consumed.ledger_eq (consumed : Consumed s s' side aid lk) (at_ : Side)
    : s'.ledger at_ = s.ledger at_
      ∨ at_ = side ∧ s'.ledger at_ = s.ledger at_ ++ [nextRecord (s.ledger at_) aid lk] := by
  rw [consumed.appended]
  by_cases here : at_ = side
  · subst here
    exact .inr ⟨rfl, Function.update_self ..⟩
  · exact .inl (Function.update_of_ne here ..)

/-- After a consume no ledger holds an id twice: the id was fresh on the side that took it. -/
theorem Consumed.unique (consumed : Consumed s s' side aid lk) (inv : Inv s) (at_ : Side)
    : ((s'.ledger at_).map (·.approvalId)).Nodup := by
  rcases consumed.ledger_eq at_ with same | ⟨rfl, snoc⟩
  · rw [same]
    exact inv.unique at_
  · rw [snoc, List.map_append]
    refine (inv.unique at_).append (List.nodup_singleton aid) ?_
    intro other member last
    obtain rfl := List.mem_singleton.mp last
    obtain ⟨held, inside, same⟩ := List.mem_map.mp member
    exact consumed.unspent ⟨held, inside, same⟩

/-- After a consume each ledger still signs with one key. -/
theorem Consumed.consistentKey (consumed : Consumed s s' side aid lk) (inv : Inv s) (at_ : Side)
    : ∀ r ∈ s'.ledger at_, ∀ r' ∈ s'.ledger at_, r.ledgerKey = r'.ledgerKey := by
  rcases consumed.ledger_eq at_ with same | ⟨rfl, snoc⟩
  · rw [same]
    exact inv.consistentKey at_
  · have all : ∀ r ∈ s'.ledger at_, r.ledgerKey = lk := by
      rw [snoc]
      intro r member
      rcases List.mem_append.mp member with earlier | last
      · exact consumed.oneKey r earlier
      · rw [List.mem_singleton.mp last, nextRecord]
    intro r member r' member'
    rw [all r member, all r' member']

/-- The id of a consume is not flagged before: a flagged id has been consumed at both sides. -/
theorem Consumed.forkLog_eq (consumed : Consumed s s' side aid lk) (inv : Inv s)
    : aid ∉ s.forkLog
      ∧ s'.forkLog = s.forkLog
        ++ if Contradicts (s.ledger side.other) (nextRecord (s.ledger side) aid lk) then [aid]
          else [] := by
  have unflagged : aid ∉ s.forkLog :=
    fun member => consumed.unspent ((inv.forkLogSound aid member).hasConsumed side)
  refine ⟨unflagged, ?_⟩
  rw [consumed.flagged]
  by_cases contradicts : Contradicts (s.ledger side.other) (nextRecord (s.ledger side) aid lk)
  · simp [contradicts, unflagged]
  · simp [contradicts]

/-- After a consume no id is noted twice. -/
theorem Consumed.forkLog_nodup (consumed : Consumed s s' side aid lk) (inv : Inv s)
    : s'.forkLog.Nodup := by
  obtain ⟨unflagged, log⟩ := consumed.forkLog_eq inv
  rw [log]
  refine inv.forkLogNoDup.append ?_ ?_
  · split
    · exact List.nodup_singleton aid
    · exact List.nodup_nil
  · intro other member last
    split at last
    · obtain rfl := List.mem_singleton.mp last
      exact unflagged member
    · cases last

/-- After a consume exactly the ids are noted that both sides consumed with different receipts.
Witness: the consumed id is compared with the other side's receipt; every other id is as
before.
-/
theorem Consumed.mem_forkLog_iff (consumed : Consumed s s' side aid lk) (inv : Inv s) (other : ι)
    : other ∈ s'.forkLog ↔ Forked s' other := by
  obtain ⟨unflagged, log⟩ := consumed.forkLog_eq inv
  rw [log, List.mem_append, forked_after consumed.appended consumed.unspent]
  have before : other ∈ s.forkLog ↔ Forked s other :=
    ⟨inv.forkLogSound other, inv.noSilentFork other⟩
  rw [nextRecord_approvalId]
  by_cases same : aid = other
  · subst same
    rw [if_pos rfl]
    split <;> simp [*]
  · rw [if_neg same]
    split <;> simp [before, Ne.symm same]

theorem Consumed.inv (consumed : Consumed s s' side aid lk) (inv : Inv s) : Inv s' where
  unique := consumed.unique inv
  consistentKey := consumed.consistentKey inv
  forkLogNoDup := consumed.forkLog_nodup inv
  forkLogSound other := (consumed.mem_forkLog_iff inv other).mp
  noSilentFork other := (consumed.mem_forkLog_iff inv other).mpr

end Steps

-----------------------------------------------------------------------------------------
-- Every reachable state
-----------------------------------------------------------------------------------------

section Runs

variable {s s' : State ι κ} {aid : ι}

/-- The invariant holds of the two empty ledgers. -/
theorem init_inv : Inv (init : State ι κ) where
  unique _ := List.nodup_nil
  consistentKey _ _ member := by cases member
  forkLogNoDup := List.nodup_nil
  forkLogSound _ member := by cases member
  noSilentFork _ forked := by
    obtain ⟨r, member, -⟩ := forked.hasConsumed .a
    cases member

/-- Every record stands at its position. -/
def Numbered (s : State ι κ) : Prop :=
  ∀ side (i : ℕ) r, (s.ledger side)[i]? = some r → r.position = i

variable [DecidableEq κ]

theorem reachable_init : specification.Reachable (init : State ι κ) := ⟨init, rfl, .refl⟩

theorem reachable_consume (side : Side) (aid : ι) (lk : κ) (reachable : specification.Reachable s)
    (taken : consume side s aid lk = some s') : specification.Reachable s' :=
  reachable.steps (.single (next_iff.mpr ⟨side, aid, lk, taken⟩))

/-- A step keeps the invariant, from any state that has it. -/
theorem next_inv (next : specification.next s s') (inv : Inv s) : Inv s' := by
  obtain ⟨side, aid, lk, taken⟩ := next_iff.mp next
  exact (consumed_of_consume taken).inv inv

/-- A step numbers the record that it appends by its place. -/
theorem next_numbered (next : specification.next s s') (numbered : Numbered s) : Numbered s' := by
  obtain ⟨side, aid, lk, taken⟩ := next_iff.mp next
  intro at_ i r found
  rcases (consumed_of_consume taken).ledger_eq at_ with same | ⟨rfl, snoc⟩
  · rw [same] at found
    exact numbered at_ i r found
  · rw [snoc, List.getElem?_append] at found
    split at found
    · exact numbered at_ i r found
    · rename_i last
      obtain ⟨inside, rfl⟩ := List.getElem?_eq_some_iff.mp found
      rw [List.length_singleton] at inside
      simp only [List.getElem_singleton, nextRecord]
      omega

/-- What holds of a state that the two ledgers reach: the invariant, and which ids with two consumes
are not flagged: those with one record at one position of both ledgers.
-/
structure Sound (s : State ι κ) : Prop where
  inv : Inv s
  numbered : Numbered s
  silent : ∀ aid, HasConsumed s.ledgerA aid → HasConsumed s.ledgerB aid
    → (aid ∉ s.forkLog
      ↔ ∃ (i : ℕ) (r : Record ι κ), s.ledgerA[i]? = some r ∧ s.ledgerB[i]? = some r
        ∧ r.approvalId = aid)

omit [DecidableEq κ] in
/-- A record is the one of its id in a ledger that consumes each id once. -/
theorem recordFor_of_mem {ledger : List (Record ι κ)} {r : Record ι κ}
    (unique : (ledger.map (·.approvalId)).Nodup) (member : r ∈ ledger)
    : recordFor ledger r.approvalId = some r := by
  obtain ⟨held, found⟩ := hasConsumed_iff.mp ⟨r, member, rfl⟩
  obtain ⟨inside, same⟩ := recordFor_eq_some found
  rw [found, List.inj_on_of_nodup_map unique inside member same]

omit [DecidableEq κ] in
/-- An id that both sides consumed goes unnoted exactly when both hold one record of it, at one
position.
Witness: receipts with one key and one position are equal records, and only different receipts
are noted.
-/
theorem silent_iff (inv : Inv s) (numbered : Numbered s) (consumedA : HasConsumed s.ledgerA aid)
    (consumedB : HasConsumed s.ledgerB aid)
    : aid ∉ s.forkLog
      ↔ ∃ (i : ℕ) (r : Record ι κ), s.ledgerA[i]? = some r ∧ s.ledgerB[i]? = some r
        ∧ r.approvalId = aid := by
  obtain ⟨r, found⟩ := hasConsumed_iff.mp consumedA
  obtain ⟨r', found'⟩ := hasConsumed_iff.mp consumedB
  obtain ⟨member, named⟩ := recordFor_eq_some found
  obtain ⟨member', named'⟩ := recordFor_eq_some found'
  constructor
  · intro unflagged
    have same : SameReceipt r r' := by
      by_contra differ
      exact unflagged (inv.noSilentFork aid ⟨r, found, r', found', differ⟩)
    obtain ⟨i, at_⟩ := List.mem_iff_getElem?.mp member
    obtain ⟨j, at'⟩ := List.mem_iff_getElem?.mp member'
    have position : i = j := by
      rw [← numbered .a i r at_, ← numbered .b j r' at', same.2]
    have equal : r' = r := by
      obtain ⟨aid₁, key, place⟩ := r
      obtain ⟨aid₂, key', place'⟩ := r'
      rw [Record.mk.injEq]
      exact ⟨named'.trans named.symm, same.1.symm, same.2.symm⟩
    exact ⟨i, r, at_, position ▸ equal ▸ at', named⟩
  · intro shared flagged
    obtain ⟨i, held, at_, at', rfl⟩ := shared
    obtain ⟨r₁, found₁, r₂, found₂, differ⟩ := inv.forkLogSound _ flagged
    have first := recordFor_of_mem (inv.unique .a) (List.mem_of_getElem? at_)
    have second := recordFor_of_mem (inv.unique .b) (List.mem_of_getElem? at')
    obtain rfl := Option.some.inj (found₁.symm.trans first)
    obtain rfl := Option.some.inj (found₂.symm.trans second)
    exact differ ⟨rfl, rfl⟩

/-- In every reachable state, after histories of every length, each side has consumed an id at most
once and the fork log has exactly the ids with two different receipts; of two consumes of one id
only those under one key at one position go unflagged.
-/
theorem reachable_sound (reachable : specification.Reachable s) : Sound s := by
  have inv : Inv s := reachable.invariant (fun _ starts => starts ▸ init_inv) next_inv
  have numbered : Numbered s := by
    refine reachable.invariant ?_ next_numbered
    rintro _ rfl side i r found
    cases found
  exact ⟨inv, numbered, fun aid => silent_iff inv numbered⟩

/-- The theorem at a history in which both sides consume the id 1, at different positions. -/
theorem reachable_sound_at_fork
    : ∃ first second s : State ℕ ℕ, consumeA init 1 7 = some first
      ∧ consumeB first 2 7 = some second
      ∧ consumeB second 1 7 = some s ∧ s.forkLog = [1] ∧ Sound s := by
  refine ⟨_, _, _, rfl, rfl, rfl, rfl, reachable_sound ?_⟩
  have first := reachable_consume .a 1 7 reachable_init rfl
  have second := reachable_consume .b 2 7 first rfl
  exact reachable_consume .b 1 7 second rfl

end Runs

end Naalp.ConsumeLedger.Specification
