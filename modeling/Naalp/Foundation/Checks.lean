import Mathlib.Tactic.TypeStar

/-! Fail-closed sequences of checks in `Except`.
A successful sequence is inverted check by check instead of being unfolded and split.
-/

namespace Naalp.Foundation

variable {ε α β σ : Type}

/-- Stops with `error` exactly when the guard holds, as `if guard: raise error` does. -/
def raiseIf (guard : Prop) [Decidable guard] (error : ε) : Except ε Unit :=
  if guard then .error error else .ok ()

theorem raiseIf_eq_ok {guard : Prop} [Decidable guard] {error : ε} {done : Unit}
    : raiseIf guard error = .ok done ↔ ¬ guard := by
  unfold raiseIf
  split <;> simp_all

@[simp]
theorem raiseIf_neg {guard : Prop} [Decidable guard] {error : ε} (absent : ¬ guard)
    : raiseIf guard error = .ok () :=
  raiseIf_eq_ok.mpr absent

@[simp]
theorem raiseIf_pos {guard : Prop} [Decidable guard] {error : ε} (present : guard)
    : raiseIf guard error = .error error := by
  simp [raiseIf, present]

/-- A successful sequence had a successful first part; witness: cases on its outcome. -/
theorem bind_eq_ok {first : Except ε α} {next : α → Except ε β} {result : β}
    : (first >>= next) = .ok result
      ↔ ∃ value, first = .ok value ∧ next value = .ok result := by
  cases first <;> simp [bind, Except.bind]

/-- A check that returns nothing, before a computation. -/
theorem unit_bind_eq_ok {first : Except ε Unit} {next : Unit → Except ε β} {result : β}
    : (first >>= next) = .ok result ↔ first = .ok () ∧ next () = .ok result := by
  cases first <;> simp [bind, Except.bind]

theorem raiseIf_bind_eq_ok {guard : Prop} [Decidable guard] {error : ε} {next : Except ε β}
    {result : β}
    : (raiseIf guard error >>= fun _ => next) = .ok result ↔ ¬ guard ∧ next = .ok result := by
  simp only [bind_eq_ok, raiseIf_eq_ok, exists_const]

/-- A verdict that is required to be positive. -/
theorem verdict_eq_ok {check : Except ε Bool} {error : ε} {done : Unit}
    : (check >>= fun valid => raiseIf (valid = false) error) = .ok done ↔ check = .ok true := by
  simp only [bind_eq_ok, raiseIf_eq_ok, Bool.not_eq_false]
  constructor
  · intro verified
    obtain ⟨_, same, rfl⟩ := verified
    exact same
  · intro same
    exact ⟨true, same, rfl⟩

/-- A failed sequence failed first in one of its parts; witness: cases on its outcome. -/
theorem bind_eq_error {first : Except ε α} {next : α → Except ε β} {error : ε}
    : (first >>= next) = .error error
      ↔ first = .error error ∨ ∃ value, first = .ok value ∧ next value = .error error := by
  cases first <;> simp [bind, Except.bind]

@[simp]
theorem ok_bind (value : α) (next : α → Except ε β) : (Except.ok value >>= next) = next value :=
  rfl

@[simp]
theorem error_bind (error : ε) (next : α → Except ε β)
    : ((Except.error error : Except ε α) >>= next) = .error error :=
  rfl

@[simp]
theorem pure_eq_ok (value : α) : (pure value : Except ε α) = .ok value :=
  rfl

@[simp]
theorem throw_eq_error (error : ε) : (throw error : Except ε α) = .error error :=
  rfl

theorem toOption_eq_some {outcome : Except ε α} {value : α}
    : outcome.toOption = some value ↔ outcome = .ok value := by
  cases outcome <;> simp [Except.toOption]

@[simp]
theorem mapError_ok {ε' : Type} (f : ε → ε') (value : α)
    : (Except.ok value).mapError f = .ok value :=
  rfl

theorem mapError_bind {ε' : Type} {f : ε → ε'} (first : Except ε α) (next : α → Except ε β)
    : (first >>= next).mapError f
      = (first.mapError f >>= fun value => (next value).mapError f) := by
  cases first <;> rfl

theorem mapError_raiseIf {ε' : Type} {f : ε → ε'} {guard : Prop} [Decidable guard] {error : ε}
    : (raiseIf guard error).mapError f = raiseIf guard (f error) := by
  unfold raiseIf
  split <;> rfl

theorem raiseIf_congr {guard guard' : Prop} [Decidable guard] [Decidable guard'] {error : ε}
    (same : guard ↔ guard') : raiseIf guard error = raiseIf guard' error := by
  simp only [raiseIf, same]

/-- Two checks of one condition, before computations that agree where it is absent. -/
theorem raiseIf_bind_congr {guard guard' : Prop} [Decidable guard] [Decidable guard'] {error : ε}
    {next next' : Except ε β} (same : guard ↔ guard') (later : ¬ guard → next = next')
    : (raiseIf guard error >>= fun _ => next) = (raiseIf guard' error >>= fun _ => next') := by
  by_cases present : guard
  · rw [raiseIf_pos present, raiseIf_pos (same.mp present)]
    rfl
  · rw [raiseIf_neg present, raiseIf_neg (mt same.mpr present), later present]

theorem exceptMap_bind {γ : Type} (f : β → γ) (first : Except ε α) (next : α → Except ε β)
    : (first >>= next).map f = (first >>= fun value => (next value).map f) := by
  cases first <;> rfl

/-- Mapping the error changes no success. -/
theorem mapError_eq_ok {ε' : Type} {result : Except ε α} {f : ε → ε'} {value : α}
    : result.mapError f = .ok value ↔ result = .ok value := by
  cases result with
  | error err =>
      constructor
      all_goals
        intro equal
        cases equal
  | ok result => simp only [mapError_ok, Except.ok.injEq]

section Failures

/-- (FailsOnly named outcome) says that the outcome is a value or one of the named errors. -/
def FailsOnly (named : ε → Prop) (outcome : Except ε α) : Prop :=
  ∀ error, outcome = .error error → named error

variable {named : ε → Prop}

theorem failsOnly_pure (value : α) : FailsOnly named (pure value : Except ε α) := by
  intro error failed
  cases failed

theorem failsOnly_ok {value : α} : FailsOnly named (.ok value : Except ε α) := failsOnly_pure value

theorem FailsOnly.mono {wider : ε → Prop} {outcome : Except ε α} (known : FailsOnly named outcome)
    (widens : ∀ error, named error → wider error) : FailsOnly wider outcome :=
  fun error failed => widens error (known error failed)

theorem failsOnly_throw {error : ε} (known : named error)
    : FailsOnly named (throw error : Except ε α) := by
  intro other failed
  obtain rfl := Except.error.inj failed
  exact known

theorem failsOnly_raiseIf {guard : Prop} [Decidable guard] {error : ε} (known : named error)
    : FailsOnly named (raiseIf guard error) := by
  unfold raiseIf
  split
  · exact failsOnly_throw known
  · exact failsOnly_pure ()

theorem FailsOnly.bind {first : Except ε α} {next : α → Except ε β}
    (firstNamed : FailsOnly named first) (nextNamed : ∀ value, FailsOnly named (next value))
    : FailsOnly named (first >>= next) := by
  intro error failed
  rcases bind_eq_error.mp failed with failed | ⟨value, -, failed⟩
  · exact firstNamed error failed
  · exact nextNamed value error failed

/-- A sequence fails only with named errors exactly when its parts do. -/
theorem failsOnly_bind_iff {first : Except ε α} {next : α → Except ε β}
    : FailsOnly named (first >>= next)
      ↔ FailsOnly named first ∧ ∀ value, first = .ok value → FailsOnly named (next value) := by
  cases first with
  | error error => simp [FailsOnly]
  | ok value => simp [FailsOnly]

theorem failsOnly_mapError {ε' : Type} {f : ε' → ε} {outcome : Except ε' α}
    (known : ∀ error, named (f error)) : FailsOnly named (outcome.mapError f) := by
  intro error failed
  cases outcome with
  | error first => exact Except.error.inj failed ▸ known first
  | ok value => cases failed

/-- Where no error is named, none is raised. -/
theorem failsOnly_iff_ok {outcome : Except ε α}
    (unnamed : ∀ error, outcome = .error error → ¬ named error)
    : FailsOnly named outcome ↔ ∃ value, outcome = .ok value := by
  cases outcome with
  | ok value => exact iff_of_true (failsOnly_ok) ⟨value, rfl⟩
  | error error =>
      refine iff_of_false ?_ ?_
      · exact fun known => unnamed error rfl (known error rfl)
      · intro returned
        obtain ⟨_, returned⟩ := returned
        cases returned

/-- A loop fails only as its rounds do, by induction over the items. -/
theorem FailsOnly.foldlM {step : σ → α → Except ε σ} {xs : List α}
    (rounds : ∀ state x, FailsOnly named (step state x)) (first : σ)
    : FailsOnly named (xs.foldlM step first) := by
  induction xs generalizing first with
  | nil => exact failsOnly_pure first
  | cons x rest ih =>
      rw [List.foldlM_cons]
      exact (rounds first x).bind ih

theorem FailsOnly.mapM {f : α → Except ε β} {xs : List α} (items : ∀ x, FailsOnly named (f x))
    : FailsOnly named (xs.mapM f) := by
  induction xs with
  | nil => exact failsOnly_pure []
  | cons x rest ih =>
      rw [List.mapM_cons]
      exact (items x).bind fun _ => ih.bind fun _ => failsOnly_pure _

theorem failsOnly_forM {check : α → Except ε Unit} {xs : List α}
    (items : ∀ x, FailsOnly named (check x)) : FailsOnly named (forM xs check) := by
  induction xs with
  | nil => exact failsOnly_pure ()
  | cons x rest ih =>
      rw [List.forM_cons]
      exact (items x).bind fun _ => ih

end Failures

/-- A loop of checks gets through when every item passes, by induction over the items. -/
theorem forM_eq_ok {check : α → Except ε Unit} {xs : List α} {done : Unit}
    : forM xs check = .ok done ↔ ∀ x ∈ xs, check x = .ok () := by
  induction xs with
  | nil => simp
  | cons x rest ih =>
      simp only [List.forM_cons, bind_eq_ok, List.forall_mem_cons, ih]
      constructor
      · intro passed
        obtain ⟨_, first, later⟩ := passed
        exact ⟨first, later⟩
      · intro passed
        exact ⟨(), passed⟩

section Cuts

/-- (Cuts stop cut full) says that a computation either stops with `stop` or does what the full
one does.
-/
def Cuts (stop : ε) (cut full : Except ε α) : Prop := cut = .error stop ∨ cut = full

variable {stop : ε}

theorem Cuts.refl (full : Except ε α) : Cuts stop full full := .inr rfl

theorem Cuts.bind {cut full : Except ε α} {cutNext fullNext : α → Except ε β}
    (first : Cuts stop cut full)
    (next : ∀ value, full = .ok value → Cuts stop (cutNext value) (fullNext value))
    : Cuts stop (cut >>= cutNext) (full >>= fullNext) := by
  rcases first with stopped | rfl
  · exact .inl (by rw [stopped, error_bind])
  · cases cut with
    | error error => exact .refl _
    | ok value => exact next value rfl

end Cuts

section Agreement

variable {ε' : Type}

/-- (SameOk left right) says that two computations, with errors of their own, return the same
values.
-/
def SameOk (left : Except ε α) (right : Except ε' α) : Prop :=
  ∀ value, left = .ok value ↔ right = .ok value

theorem SameOk.rfl {outcome : Except ε α} : SameOk outcome outcome := fun _ => Iff.rfl

theorem SameOk.refused {left : ε} {right : ε'}
    : SameOk (.error left : Except ε α) (.error right : Except ε' α) := by
  intro value
  simp

/-- Where one fails, the other does. -/
theorem SameOk.error_right {error : ε} {right : Except ε' α}
    (same : SameOk (.error error : Except ε α) right)
    : ∃ other, right = .error other := by
  cases right with
  | error other => exact ⟨other, Eq.refl _⟩
  | ok value => cases (same value).mpr (Eq.refl _)

theorem SameOk.raiseIf {leftGuard rightGuard : Prop} [Decidable leftGuard] [Decidable rightGuard]
    {left : ε} {right : ε'} (same : leftGuard ↔ rightGuard)
    : SameOk (raiseIf leftGuard left) (Foundation.raiseIf rightGuard right) := by
  intro done
  rw [raiseIf_eq_ok, raiseIf_eq_ok, same]

/-- Computations that succeed alike, and go on alike from the same value, succeed alike. -/
theorem SameOk.bind {left : Except ε α} {right : Except ε' α} {leftNext : α → Except ε β}
    {rightNext : α → Except ε' β} (first : SameOk left right)
    (next : ∀ value, left = .ok value → SameOk (leftNext value) (rightNext value))
    : SameOk (left >>= leftNext) (right >>= rightNext) := by
  intro result
  simp only [bind_eq_ok]
  refine exists_congr fun value => ?_
  constructor
  · intro ran
    obtain ⟨returned, later⟩ := ran
    exact ⟨(first value).mp returned, (next value returned result).mp later⟩
  · intro ran
    obtain ⟨returned, later⟩ := ran
    have alike := (first value).mpr returned
    exact ⟨alike, (next value alike result).mpr later⟩

end Agreement

section Simulation

variable {ε' τ : Type}

/-- (Related errors values left right) says that two computations return related values or fail
with related errors.
-/
def Related (errors : ε → ε' → Prop) (values : α → β → Prop)
    : Except ε α → Except ε' β → Prop
  | .ok value, .ok value' => values value value'
  | .error error, .error error' => errors error error'
  | _, _ => False

variable {errors : ε → ε' → Prop} {values : α → β → Prop}

/-- The second parts are run on a value of the first. -/
theorem Related.bind_of_ok {γ δ : Type} {later : γ → δ → Prop} {left : Except ε α}
    {right : Except ε' β} {leftNext : α → Except ε γ} {rightNext : β → Except ε' δ}
    (first : Related errors values left right)
    (next : ∀ value value', left = .ok value → values value value'
      → Related errors later (leftNext value) (rightNext value'))
    : Related errors later (left >>= leftNext) (right >>= rightNext) := by
  cases left with
  | error error =>
      cases right with
      | error error' => exact first
      | ok value' => exact first.elim
  | ok value =>
      cases right with
      | error error' => exact first.elim
      | ok value' => exact next value value' rfl first

theorem Related.bind {γ δ : Type} {later : γ → δ → Prop} {left : Except ε α}
    {right : Except ε' β} {leftNext : α → Except ε γ} {rightNext : β → Except ε' δ}
    (first : Related errors values left right)
    (next : ∀ value value', values value value'
      → Related errors later (leftNext value) (rightNext value'))
    : Related errors later (left >>= leftNext) (right >>= rightNext) :=
  first.bind_of_ok fun value value' _ related => next value value' related

/-- Computations that return the same values where they are related by equality. -/
theorem Related.sameOk {left : Except ε α} {right : Except ε' α}
    (related : Related errors Eq left right) : SameOk left right := by
  intro value
  cases left with
  | error error =>
      cases right with
      | error error' => simp
      | ok value' => exact related.elim
  | ok value =>
      cases right with
      | error error' => exact related.elim
      | ok value' => rw [show value = value' from related, Except.ok.injEq, Except.ok.injEq]

/-- Loops whose rounds go alike on every item go alike, by induction over the items. -/
theorem Related.foldlM {states : σ → τ → Prop} {step : σ → α → Except ε σ}
    {step' : τ → α → Except ε' τ} {xs : List α}
    (rounds : ∀ x ∈ xs, ∀ state state', states state state'
      → Related errors states (step state x) (step' state' x))
    {first : σ} {first' : τ} (start : states first first')
    : Related errors states (xs.foldlM step first) (xs.foldlM step' first') := by
  induction xs generalizing first first' with
  | nil => exact start
  | cons x rest ih =>
      simp only [List.forall_mem_cons] at rounds
      rw [List.foldlM_cons, List.foldlM_cons]
      exact (rounds.1 first first' start).bind fun state state' related => ih rounds.2 related

/-- Values that are images and errors that keep the same part make equal outcomes. -/
theorem Related.mapError_eq {η : Type} {f : α → β} {err : ε → η} {err' : ε' → η}
    {left : Except ε α} {right : Except ε' β}
    (related : Related (fun error error' => err' error' = err error)
      (fun value value' => value' = f value) left right)
    : right.mapError err' = (left.map f).mapError err := by
  cases left with
  | error error =>
      cases right with
      | error error' => exact congrArg Except.error related
      | ok value' => exact related.elim
  | ok value =>
      cases right with
      | error error' => exact related.elim
      | ok value' => exact congrArg Except.ok related

end Simulation

section Loops

variable {step : σ → α → Except ε σ} {xs : List α} {first last : σ}

/-- A loop whose rounds stop on an item or not, whatever the state, gets through when no item
stops it; by induction over the items.
-/
theorem foldlM_ok_iff {passes : α → Prop}
    (round : ∀ state x, (∃ next, step state x = .ok next) ↔ passes x)
    : (∃ last, xs.foldlM step first = .ok last) ↔ ∀ x ∈ xs, passes x := by
  induction xs generalizing first with
  | nil => simp
  | cons x rest ih =>
      simp only [List.foldlM_cons, bind_eq_ok, List.forall_mem_cons]
      constructor
      · intro ran
        obtain ⟨last, next, stepped, later⟩ := ran
        exact ⟨(round first x).mp ⟨next, stepped⟩, ih.mp ⟨last, later⟩⟩
      · intro passed
        obtain ⟨next, stepped⟩ := (round first x).mpr passed.1
        obtain ⟨last, later⟩ := ih.mpr passed.2
        exact ⟨last, next, stepped, later⟩

/-- An invariant of the items seen and the state, kept by every round, holds after the loop; by
induction over the items to come.
-/
theorem foldlM_invariant {inv : List α → σ → Prop}
    (keeps : ∀ seen x rest state next, xs = seen ++ x :: rest → inv seen state
      → step state x = .ok next → inv (seen ++ [x]) next)
    (initial : inv [] first) (ran : xs.foldlM step first = .ok last)
    : inv xs last := by
  have along : ∀ rest seen state, xs = seen ++ rest → inv seen state
      → rest.foldlM step state = .ok last → inv xs last := by
    intro rest
    induction rest with
    | nil =>
        intro seen state same held ended
        obtain rfl := Except.ok.inj ended
        rw [List.append_nil] at same
        exact same ▸ held
    | cons x rest ih =>
        intro seen state same held ran
        simp only [List.foldlM_cons, bind_eq_ok] at ran
        obtain ⟨next, stepped, later⟩ := ran
        refine ih (seen ++ [x]) next ?_ (keeps seen x rest state next same held stepped) later
        rw [same, List.append_assoc, List.singleton_append]
  exact along xs [] first rfl initial ran

end Loops

end Naalp.Foundation
