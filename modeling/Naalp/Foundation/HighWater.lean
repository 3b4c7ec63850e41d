import Mathlib.Data.List.AList
import Mathlib.Order.Basic
import Naalp.Foundation.Journal
import Naalp.Foundation.Runs

/-! High-water marks: marks are reported for keys, and the highest mark of each key is kept, in
memory and in a log whose last record of a key gives its mark.
-/

namespace Naalp.Foundation

-----------------------------------------------------------------------------------------
-- Reports
-----------------------------------------------------------------------------------------

section Reports

variable {σ ι κ ν ε ο : Type} [LinearOrder ν] [DecidableEq κ]

/-- What a report of a mark does: a lower mark is refused and the same mark is repeated, and neither
changes the state; a higher mark is kept when it can be recorded and fails otherwise.
-/
inductive Reported (marks : σ → κ → Option ν) (tooLow : ε) (recordable : Prop) (before : σ)
    (key : κ) (mark : ν) : Except ε ο → σ → Prop where
  | refused {cur : ν} (held : marks before key = some cur) (lower : mark < cur)
    : Reported marks tooLow recordable before key mark (.error tooLow) before
  | repeated (answer : ο) (held : marks before key = some mark)
    : Reported marks tooLow recordable before key mark (.ok answer) before
  | failed {after : σ} (error : ε) (higher : ∀ cur, marks before key = some cur → cur < mark)
    (unable : ¬ recordable) (same : marks after = marks before)
    : Reported marks tooLow recordable before key mark (.error error) after
  | raised {after : σ} (answer : ο) (higher : ∀ cur, marks before key = some cur → cur < mark)
    (able : recordable) (kept : marks after = Function.update (marks before) key (some mark))
    : Reported marks tooLow recordable before key mark (.ok answer) after

variable {marks : σ → κ → Option ν} {tooLow : ε} {recordable : Prop} {before after : σ} {key : κ}
  {mark cur : ν} {outcome : Except ε ο}

theorem Reported.map {ο' : Type} (f : ο → ο')
    (reported : Reported marks tooLow recordable before key mark outcome after)
    : Reported marks tooLow recordable before key mark (outcome.map f) after := by
  cases reported with
  | refused held lower => exact .refused held lower
  | repeated answer held => exact .repeated (f answer) held
  | failed error higher unable same => exact .failed error higher unable same
  | raised answer higher able kept => exact .raised (f answer) higher able kept

/-- No mark goes down. -/
theorem Reported.rises (reported : Reported marks tooLow recordable before key mark outcome after)
    {other : κ} (held : marks before other = some cur)
    : ∃ now, marks after other = some now ∧ cur ≤ now := by
  cases reported with
  | refused _ _ | repeated _ _ => exact ⟨cur, held, le_refl cur⟩
  | failed _ _ _ same => exact ⟨cur, same ▸ held, le_refl cur⟩
  | raised _ higher _ kept =>
      by_cases here : other = key
      · subst here
        exact ⟨mark, by rw [kept, Function.update_self], (higher cur held).le⟩
      · exact ⟨cur, by rw [kept, Function.update_of_ne here, held], le_refl cur⟩

theorem Reported.others (reported : Reported marks tooLow recordable before key mark outcome after)
    {other : κ} (different : other ≠ key)
    : marks after other = marks before other := by
  cases reported with
  | refused _ _ | repeated _ _ => rfl
  | failed _ _ _ same => rw [same]
  | raised _ _ _ kept => rw [kept, Function.update_of_ne different]

theorem Reported.lower (reported : Reported marks tooLow recordable before key mark outcome after)
    (held : marks before key = some cur) (lower : mark < cur)
    : outcome = .error tooLow ∧ after = before := by
  cases reported with
  | refused _ _ => exact ⟨rfl, rfl⟩
  | repeated _ same =>
      obtain rfl := Option.some.inj (same.symm.trans held)
      exact absurd lower (lt_irrefl _)
  | failed _ higher _ _ | raised _ higher _ _ => exact absurd (higher cur held) lower.asymm

theorem Reported.again (reported : Reported marks tooLow recordable before key mark outcome after)
    (held : marks before key = some mark)
    : (∃ answer, outcome = .ok answer) ∧ after = before := by
  cases reported with
  | refused other lower =>
      obtain rfl := Option.some.inj (other.symm.trans held)
      exact absurd lower (lt_irrefl _)
  | repeated answer _ => exact ⟨⟨answer, rfl⟩, rfl⟩
  | failed _ higher _ _ | raised _ higher _ _ => exact absurd (higher mark held) (lt_irrefl _)

theorem Reported.answered {answer : ο}
    (reported : Reported marks tooLow recordable before key mark (.ok answer) after)
    : marks after key = some mark := by
  cases reported with
  | repeated _ held => exact held
  | raised _ _ _ kept => rw [kept, Function.update_self]

/-- Every mark of the state is good. -/
def Within (marks : σ → κ → Option ν) (good : ν → Prop) (state : σ) : Prop :=
  ∀ key mark, marks state key = some mark → good mark

/-- Where every mark is good and what can be recorded beside is higher than all of these, the marks
stay good exactly when the report is good or cannot be recorded.
Witness: the marks at other keys are unchanged, and the one at the key is the new one or the
old one.
-/
theorem Reported.within_iff {good : ν → Prop}
    (reported : Reported marks tooLow recordable before key mark outcome after)
    (within : Within marks good before)
    (beyond : recordable → ¬ good mark → ∀ cur, good cur → cur < mark)
    : Within marks good after ↔ (recordable → good mark) := by
  constructor
  · intro withinAfter able
    by_contra bad
    cases reported with
    | refused held lower => exact lower.asymm (beyond able bad _ (within _ _ held))
    | repeated _ held => exact bad (within _ _ held)
    | failed _ _ unable _ => exact unable able
    | raised _ _ _ kept => exact bad (withinAfter key mark (by rw [kept, Function.update_self]))
  · intro fine
    cases reported with
    | refused _ _ | repeated _ _ => exact within
    | failed _ _ _ same =>
        intro other now held
        exact within other now (same ▸ held)
    | raised _ _ able kept =>
        intro other now held
        by_cases here : other = key
        · subst here
          rw [kept, Function.update_self] at held
          exact Option.some.inj held ▸ fine able
        · rw [kept, Function.update_of_ne here] at held
          exact within other now held

/-- A system whose calls are reports, in states that are ready. -/
structure Reports (step : σ → ι → Except ε ο × σ) (marks : σ → κ → Option ν) (tooLow : ε)
    (key : ι → κ) (mark : ι → ν) (recordable : ι → Prop) (ready : σ → Prop) : Prop where
  stays : ∀ state call, ready state → ready (step state call).2
  reported : ∀ state call, ready state
    → Reported marks tooLow (recordable call) state (key call) (mark call) (step state call).1
      (step state call).2

/-- In every run the marks stay good exactly when each call's is good or cannot be recorded; by
induction over the calls.
-/
theorem Reports.within_iff {step : σ → ι → Except ε ο × σ} {keyOf : ι → κ} {markOf : ι → ν}
    {canRecord : ι → Prop} {ready : σ → Prop} {good : ν → Prop}
    (reports : Reports step marks tooLow keyOf markOf canRecord ready)
    (beyond : ∀ call, canRecord call → ¬ good (markOf call) → ∀ cur, good cur → cur < markOf call)
    {start : σ} (isReady : ready start) (within : Within marks good start) (calls : List ι)
    : (∀ event ∈ trace step start calls, Within marks good event.after)
      ↔ ∀ call ∈ calls, canRecord call → good (markOf call) := by
  induction calls generalizing start with
  | nil => simp [trace]
  | cons call calls ih =>
      have first := (reports.reported start call isReady).within_iff within (beyond call)
      rw [trace, List.forall_mem_cons, List.forall_mem_cons, ← first]
      exact and_congr_right fun kept => ih (reports.stays start call isReady) kept

end Reports

/-- The order of the numbers that the words stand for. -/
@[reducible]
def wordOrder : LinearOrder UInt64 where
  le_refl := UInt64.le_refl
  le_trans := fun _ _ _ => UInt64.le_trans
  le_antisymm := fun _ _ => UInt64.le_antisymm
  le_total := UInt64.le_total
  lt_iff_le_not_ge := by
    intro a b
    rw [UInt64.not_le, and_iff_right_of_imp UInt64.le_of_lt]
  toDecidableLE := inferInstance

-----------------------------------------------------------------------------------------
-- Logs
-----------------------------------------------------------------------------------------

section Logs

variable {α κ ν ε : Type} [DecidableEq κ]

/-- The last pair of the key has the mark. -/
def LastFor (pairs : List (κ × ν)) (key : κ) (mark : ν) : Prop :=
  ∃ before after, pairs = before ++ (key, mark) :: after ∧ ∀ later ∈ after, later.1 ≠ key

/-- The log holds the records of the updates in turn, and at most three octets after them. -/
def LogHolds (reads : Bytes → α → Prop) (disk : Bytes) (updates : List α) : Prop :=
  ∃ records tail, disk = records.flatMap frame ++ tail
    ∧ (∀ record ∈ records, record.length < 2 ^ 32)
    ∧ tail.length < 4 ∧ List.Forall₂ reads records updates

def keepMark (marks : AList fun _ : κ => ν) (pair : κ × ν) : AList fun _ : κ => ν :=
  marks.insert pair.1 pair.2

theorem lookup_insert_update (marks : AList fun _ : κ => ν) (key : κ) (mark : ν)
    : (fun other => (marks.insert key mark).lookup other)
      = Function.update (fun other => marks.lookup other) key (some mark) := by
  funext other
  by_cases here : other = key
  · subst here
    rw [AList.lookup_insert, Function.update_self]
  · rw [AList.lookup_insert_ne here, Function.update_of_ne here]

/-- Kept in turn, the pairs leave the last mark of each key; by induction from their end. -/
theorem lookup_keepMark {pairs : List (κ × ν)} {key : κ} {mark : ν}
    : (pairs.foldl keepMark ∅).lookup key = some mark ↔ LastFor pairs key mark := by
  induction pairs using List.reverseRecOn with
  | nil => simp [LastFor]
  | append_singleton pairs pair ih =>
      obtain ⟨other, last⟩ := pair
      rw [List.foldl_append, List.foldl_cons, List.foldl_nil, keepMark]
      by_cases here : key = other
      · subst here
        rw [AList.lookup_insert]
        constructor
        · intro same
          obtain rfl : last = mark := Option.some.inj same
          exact ⟨pairs, [], rfl, by simp⟩
        · intro lastFor
          obtain ⟨before, after, split, apart⟩ := lastFor
          cases after using List.reverseRecOn with
          | nil =>
              obtain ⟨-, same⟩ := List.append_inj' split rfl
              simpa using same
          | append_singleton after final =>
              rw [← List.cons_append, ← List.append_assoc] at split
              obtain ⟨-, same⟩ := List.append_inj' split rfl
              obtain rfl : (key, last) = final := by simpa using same
              exact absurd rfl (apart (key, last) (by simp))
      · rw [AList.lookup_insert_ne here, ih]
        constructor
        · intro lastFor
          obtain ⟨before, after, rfl, apart⟩ := lastFor
          refine ⟨before, after ++ [(other, last)], by simp, ?_⟩
          rw [List.forall_mem_append, List.forall_mem_singleton]
          exact ⟨apart, Ne.symm here⟩
        · intro lastFor
          obtain ⟨before, after, split, apart⟩ := lastFor
          cases after using List.reverseRecOn with
          | nil =>
              obtain ⟨-, same⟩ := List.append_inj' split rfl
              exact absurd (congrArg Prod.fst (List.singleton_inj.mp same)).symm here
          | append_singleton after final =>
              rw [← List.cons_append, ← List.append_assoc] at split
              obtain ⟨rfl, -⟩ := List.append_inj' split rfl
              exact ⟨before, after, rfl, fun later member => apart later (by simp [member])⟩

variable {reader : LogReader ε (AList fun _ : κ => ν)} {reads : Bytes → α → Prop}
  {pair : α → κ × ν}

/-- A reader keeps the mark of each update that it reads, by induction over the records. -/
theorem foldlM_absorb_eq_ok
    (absorbs : ∀ marks record after, reader.absorb marks record = .ok after
      ↔ ∃ u, reads record u ∧ after = keepMark marks (pair u))
    {records : List Bytes} {marks final : AList fun _ : κ => ν}
    : records.foldlM reader.absorb marks = .ok final
      ↔ ∃ updates, List.Forall₂ reads records updates
        ∧ final = (updates.map pair).foldl keepMark marks := by
  induction records generalizing marks with
  | nil => simp [pure_eq_ok, eq_comm]
  | cons record records ih =>
      rw [List.foldlM_cons, bind_eq_ok]
      simp only [absorbs, ih]
      constructor
      · intro read
        obtain ⟨_, ⟨u, first, rfl⟩, updates, rest, rfl⟩ := read
        exact ⟨u :: updates, .cons first rest, rfl⟩
      · intro read
        obtain ⟨all, reads, rfl⟩ := read
        cases reads with
        | @cons _ u _ updates first rest =>
            exact ⟨_, ⟨u, first, rfl⟩, updates, rest, rfl⟩

/-- What a reader of an accepted log keeps: the marks of the last updates that the log holds. -/
theorem marks_of_log
    (absorbs : ∀ marks record after, reader.absorb marks record = .ok after
      ↔ ∃ u, reads record u ∧ after = keepMark marks (pair u))
    {disk : Bytes} {final : AList fun _ : κ => ν} (read : reader.replay disk ∅ = .ok final)
    : (∃ updates, LogHolds reads disk updates)
      ∧ ∀ updates, LogHolds reads disk updates
        → ∀ key mark, final.lookup key = some mark ↔ LastFor (updates.map pair) key mark := by
  constructor
  · obtain ⟨records, tail, split, short, ends, fold⟩ := LogReader.replay_eq_ok.mp read
    obtain ⟨updates, reads, -⟩ := (foldlM_absorb_eq_ok absorbs).mp fold
    refine ⟨updates, records, tail, split, short, ?_, reads⟩
    rcases ends with rfl | ⟨brief, -⟩
    · simp
    · exact brief
  · intro updates holds key mark
    obtain ⟨records, tail, rfl, short, brief, reads⟩ := holds
    have fold : records.foldlM reader.absorb ∅ = .ok ((updates.map pair).foldl keepMark ∅) :=
      (foldlM_absorb_eq_ok absorbs).mpr ⟨updates, reads, rfl⟩
    rw [LogReader.replay_frames short, fold, ok_bind, LogReader.replay_short brief,
      LogReader.finish_eq_ok brief] at read
    rw [read.1, lookup_keepMark]

end Logs

end Naalp.Foundation
