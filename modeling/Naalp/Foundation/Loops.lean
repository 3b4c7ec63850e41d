import Mathlib.Data.List.AList
import Naalp.Foundation.Checks

/-! Loops that run until one of their rounds ends them, loops that keep items with distinct keys or
fill a table, and maps over the values of a dictionary. A loop is run for a number of rounds; one
that visits another key of a finite set in every round ends.
-/

namespace Naalp.Foundation

variable {ε ε' η κ σ τ : Type}

/-- A round fails, ends the loop, or leads to the state of the next round. The loop has no outcome
when its rounds are used up.
-/
def loopFor (round : σ → Except ε (Option σ)) : (rounds : Nat) → σ → Option (Except ε Unit)
  | 0, _ => none
  | rounds + 1, state =>
      match round state with
      | .error err => some (.error err)
      | .ok none => some (.ok ())
      | .ok (some next) => loopFor round rounds next

section Visits

variable {round : σ → Except ε (Option σ)} {key : σ → κ} {visited : σ → List κ} {ids : List κ}

/-- A loop that goes on only from a key it had not visited, to a key of the set, ends within one
round more than there are unvisited keys. Witness: induction on the rounds, with the visited keys
distinct and among those of the set.
-/
theorem loopFor_isSome
    (visits : ∀ state next, round state = .ok (some next) → key state ∉ visited state
      ∧ visited next = key state :: visited state ∧ key next ∈ ids)
    {rounds : Nat} {state : σ} (inside : key state ∈ ids) (distinct : (visited state).Nodup)
    (known : visited state ⊆ ids) (enough : ids.length < rounds + (visited state).length)
    : (loopFor round rounds state).isSome := by
  induction rounds generalizing state with
  | zero =>
      have bound := (List.subperm_of_subset distinct known).length_le
      omega
  | succ rounds ih =>
      rw [loopFor]
      split
      · rfl
      · rfl
      · rename_i next went
        obtain ⟨fresh, grown, nextInside⟩ := visits state next went
        apply ih nextInside
        · rw [grown]
          exact List.nodup_cons.mpr ⟨fresh, distinct⟩
        · rw [grown]
          exact List.cons_subset.mpr ⟨inside, known⟩
        · rw [grown, List.length_cons]
          omega

end Visits

/-- A loop whose rounds are those of another on the images of its states has the outcome of the
other, up to what is kept of the errors; by induction on the rounds.
-/
theorem loopFor_map {round : σ → Except ε (Option σ)} {round' : τ → Except ε' (Option τ)}
    {image : σ → τ} {err : ε → η} {err' : ε' → η}
    (step : ∀ state, (round' (image state)).mapError err'
      = ((round state).map (Option.map image)).mapError err)
    (rounds : Nat) (state : σ)
    : (loopFor round' rounds (image state)).map (Except.mapError err')
      = (loopFor round rounds state).map (Except.mapError err) := by
  induction rounds generalizing state with
  | zero => rfl
  | succ rounds ih =>
      have same := step state
      rw [loopFor, loopFor]
      cases left : round' (image state) with
      | error e' =>
          cases right : round state with
          | error e =>
              rw [left, right] at same
              have kept : err' e' = err e := Except.error.inj same
              simp [Except.mapError, kept]
          | ok next =>
              rw [left, right] at same
              cases same
      | ok next' =>
          cases right : round state with
          | error e =>
              rw [left, right] at same
              cases same
          | ok next =>
              rw [left, right] at same
              obtain rfl := Except.ok.inj same
              cases next with
              | none => rfl
              | some next => exact ih next

/-- Rounds do not change an outcome that is reached. -/
theorem loopFor_unique {round : σ → Except ε (Option σ)} {rounds rounds' : Nat} {state : σ}
    {outcome outcome' : Except ε Unit} (ended : loopFor round rounds state = some outcome)
    (ended' : loopFor round rounds' state = some outcome')
    : outcome = outcome' := by
  induction rounds generalizing rounds' state with
  | zero => cases ended
  | succ rounds ih =>
      cases rounds' with
      | zero => cases ended'
      | succ rounds' =>
          rw [loopFor] at ended ended'
          split at ended
          · rename_i err failed
            rw [failed] at ended'
            exact Option.some.inj (ended.symm.trans ended')
          · rename_i stopped
            rw [stopped] at ended'
            exact Option.some.inj (ended.symm.trans ended')
          · rename_i next went
            rw [went] at ended'
            exact ih ended ended'

/-- A loop that goes through ends so wherever its rounds succeed alike, as long as an invariant of
the states that it passes holds.
-/
theorem loopFor_simulates {round : σ → Except ε (Option σ)} {round' : σ → Except ε' (Option σ)}
    {inv : σ → Prop}
    (step : ∀ state next, inv state → round state = .ok next → round' state = .ok next)
    (kept : ∀ state later, inv state → round state = .ok (some later) → inv later)
    {rounds : Nat} {state : σ} (holds : inv state)
    (through : loopFor round rounds state = some (.ok ()))
    : loopFor round' rounds state = some (.ok ()) := by
  induction rounds generalizing state with
  | zero => cases through
  | succ rounds ih =>
      rw [loopFor] at through ⊢
      split at through
      · cases Option.some.inj through
      · rename_i stopped
        rw [step state none holds stopped]
      · rename_i next went
        rw [step state (some next) holds went]
        exact ih (kept state next holds went) through

theorem mapError_id {α : Type} (outcome : Except ε α) : outcome.mapError id = outcome := by
  cases outcome <;> rfl

/-- The case of one type of errors. -/
theorem loopFor_image {round : σ → Except ε (Option σ)} {round' : τ → Except ε (Option τ)}
    {image : σ → τ} (step : ∀ state, round' (image state) = (round state).map (Option.map image))
    (rounds : Nat) (state : σ)
    : loopFor round' rounds (image state) = loopFor round rounds state := by
  have same := @loopFor_map _ _ _ _ _ round round' image id id (fun state => by rw [step])
    rounds state
  simpa only [funext mapError_id, Option.map_id'] using same

section Distinct

variable {α : Type} [DecidableEq κ] {key : α → κ} {error : α → ε} {seen items : List α}

/-- A round that keeps an item with a new key and fails at a known one. -/
def keepDistinct (key : α → κ) (error : α → ε) (seen : List α) (x : α) : Except ε (List α) := do
  raiseIf (key x ∈ seen.map key) (error x)
  return seen ++ [x]

/-- The loop fails at the first repeated key; by induction over the items to come. -/
theorem foldlM_keepDistinct (distinct : (seen.map key).Nodup)
    : (((seen ++ items).map key).Nodup
        ∧ items.foldlM (keepDistinct key error) seen = .ok (seen ++ items))
      ∨ ¬ ((seen ++ items).map key).Nodup
        ∧ ∃ x ∈ items, items.foldlM (keepDistinct key error) seen = .error (error x) := by
  induction items generalizing seen with
  | nil => exact .inl ⟨by rwa [List.append_nil], by simp⟩
  | cons x items ih =>
      rw [List.foldlM_cons, keepDistinct]
      by_cases again : key x ∈ seen.map key
      · right
        constructor
        · intro all
          rw [List.map_append, List.nodup_append] at all
          exact all.2.2 _ again _ List.mem_cons_self rfl
        · exact ⟨x, List.mem_cons_self, by rw [raiseIf_pos again]; rfl⟩
      · have grown : ((seen ++ [x]).map key).Nodup := by
          rw [List.map_append, List.nodup_append]
          refine ⟨distinct, by simp, ?_⟩
          intro a earlier b new same
          rw [List.map_singleton, List.mem_singleton] at new
          exact again (new ▸ same ▸ earlier)
        have rest := ih grown
        rw [List.append_assoc, List.singleton_append] at rest
        rw [raiseIf_neg again]
        refine rest.imp_right ?_
        intro failed
        obtain ⟨repeated, y, member, stopped⟩ := failed
        exact ⟨repeated, y, List.mem_cons_of_mem _ member, stopped⟩

end Distinct

section Tables

variable {α β : Type} [DecidableEq κ] {key : α → κ} {value : α → β} {items : List α} {k : κ}

/-- The table of a loop that stores a value for each item under its key. -/
def tabulate (key : α → κ) (value : α → β) (items : List α) (table : AList fun _ : κ => β)
    : AList fun _ : κ => β :=
  items.foldl (fun table x => table.insert (key x) (value x)) table

theorem lookup_tabulate_of_notMem (absent : k ∉ items.map key) {table : AList fun _ : κ => β}
    : (tabulate key value items table).lookup k = table.lookup k := by
  induction items generalizing table with
  | nil => rfl
  | cons x items ih =>
      rw [List.map_cons, List.mem_cons, not_or] at absent
      rw [tabulate, List.foldl_cons]
      exact (ih absent.2).trans (AList.lookup_insert_ne absent.1)

/-- With distinct keys the table holds the value of every item, whatever the order of the items. -/
theorem lookup_tabulate (distinct : (items.map key).Nodup) {x : α} (member : x ∈ items)
    {table : AList fun _ : κ => β}
    : (tabulate key value items table).lookup (key x) = some (value x) := by
  induction items generalizing table with
  | nil => cases member
  | cons y items ih =>
      rw [List.map_cons, List.nodup_cons] at distinct
      rw [tabulate, List.foldl_cons]
      rcases List.mem_cons.mp member with same | later
      · subst same
        exact (lookup_tabulate_of_notMem distinct.1).trans (AList.lookup_insert _)
      · exact ih distinct.2 later

/-- Its keys are those of the items. -/
theorem keys_tabulate {table : AList fun _ : κ => β}
    (distinct : (items.map key ++ table.keys).Nodup)
    : (tabulate key value items table).keys.Perm (items.map key ++ table.keys) := by
  induction items generalizing table with
  | nil => exact .rfl
  | cons x items ih =>
      rw [List.map_cons, List.cons_append, List.nodup_cons] at distinct
      obtain ⟨fresh, distinct⟩ := distinct
      have absent : key x ∉ table.keys := fun inside => fresh (List.mem_append_right _ inside)
      have grown : (table.insert (key x) (value x)).keys = key x :: table.keys := by
        rw [AList.keys_insert, List.erase_of_not_mem absent]
      rw [tabulate, List.foldl_cons]
      have middle := @List.perm_middle _ (key x) (items.map key) table.keys
      have rest := @ih (table.insert (key x) (value x)) (by
        rw [grown]
        exact middle.nodup_iff.mpr (List.nodup_cons.mpr ⟨fresh, distinct⟩))
      rw [grown] at rest
      exact rest.trans middle

end Tables

end Naalp.Foundation

namespace AList

variable {κ α β : Type}

/-- The dictionary with every value mapped. -/
def mapValues (f : α → β) (m : AList (fun _ : κ => α)) : AList (fun _ : κ => β) where
  entries := m.entries.map (Sigma.map id fun _ => f)
  nodupKeys := by
    rw [List.NodupKeys, List.keys, List.map_map]
    exact m.nodupKeys

@[simp]
theorem length_entries_mapValues (f : α → β) (m : AList (fun _ : κ => α))
    : (m.mapValues f).entries.length = m.entries.length :=
  List.length_map _

@[simp]
theorem lookup_mapValues [DecidableEq κ] (f : α → β) (m : AList (fun _ : κ => α)) (k : κ)
    : (m.mapValues f).lookup k = (m.lookup k).map f :=
  List.dlookup_map₂ k

end AList
