import Mathlib.Data.List.TakeWhile
import Mathlib.Order.Basic
import Mathlib.Tactic.Common

/-! A worker that moves items from one bounded queue to another until it takes an end marker. Each
call answers, or blocks and changes nothing.
-/

namespace Naalp.Foundation

variable {α : Type}

inductive Worker (α : Type) where
  | waiting
  | holding (x : α)
  | stopped

def Worker.isStopped : Worker α → Bool
  | .stopped => true
  | _ => false

/-- The queues around a worker. In the queue before it, `none` is the end marker. -/
structure Relay (α : Type) where
  inbox : List (Option α) := []
  worker : Worker α := .waiting
  outbox : List α := []

/-- A queue has room; a capacity that is not positive is no bound. -/
def HasRoom (capacity : Int) (length : ℕ) : Prop := capacity ≤ 0 ∨ (length : Int) < capacity

instance (capacity : Int) (length : ℕ) : Decidable (HasRoom capacity length) :=
  inferInstanceAs (Decidable (_ ∨ _))

/-- What happens at a relay. -/
inductive RelayCall (α : Type) where
  | put (item : Option α)
  | move
  | get

/-- The answer to a call, `none` when it blocks, and the relay after it. -/
def Relay.step (capacity : Int) (r : Relay α) : RelayCall α → Option (Option α) × Relay α
  | .put item =>
      if HasRoom capacity r.inbox.length then (some none, { r with inbox := r.inbox ++ [item] })
      else (none, r)
  | .move =>
      match r.worker, r.inbox with
      | .waiting, some x :: rest => (some none, { r with inbox := rest, worker := .holding x })
      | .waiting, none :: rest => (some none, { r with inbox := rest, worker := .stopped })
      | .holding x, _ =>
          if HasRoom capacity r.outbox.length then
            (some none, { r with worker := .waiting, outbox := r.outbox ++ [x] })
          else (none, r)
      | _, _ => (none, r)
  | .get =>
      match r.outbox with
      | x :: rest => (some (some x), { r with outbox := rest })
      | [] => (none, r)

/-- What an answered call has put into the relay. -/
def RelayCall.putBy : RelayCall α → Option (Option α) → List (Option α)
  | .put item, some _ => [item]
  | _, _ => []

/-- What an answered call has taken out of the relay. -/
def RelayCall.gotBy : RelayCall α → Option (Option α) → List α
  | .get, some (some x) => [x]
  | _, _ => []

def Worker.contents : Worker α → List (Option α)
  | .waiting => []
  | .holding x => [some x]
  | .stopped => [none]

/-- What is in the relay, the oldest first; the marker that stopped the worker stays in its place.
-/
def Relay.contents (r : Relay α) : List (Option α) :=
  r.outbox.map some ++ r.worker.contents ++ r.inbox

/-- Every call keeps the order: what is put goes behind the contents, what is got comes off their
front.
-/
theorem Relay.step_contents (capacity : Int) (r : Relay α) (call : RelayCall α)
    : r.contents ++ call.putBy (r.step capacity call).1
      = (call.gotBy (r.step capacity call).1).map some ++ (r.step capacity call).2.contents := by
  obtain ⟨inbox, worker, outbox⟩ := r
  cases call with
  | put item =>
      unfold Relay.step
      dsimp only
      split <;> simp [contents, RelayCall.putBy, RelayCall.gotBy]
  | move =>
      cases worker with
      | waiting =>
          rcases inbox with _ | ⟨_ | x, rest⟩ <;>
            simp [step, contents, RelayCall.putBy, RelayCall.gotBy, Worker.contents]
      | holding x =>
          unfold Relay.step
          dsimp only
          split <;> simp [contents, RelayCall.putBy, RelayCall.gotBy, Worker.contents]
      | stopped => simp [step, contents, RelayCall.putBy, RelayCall.gotBy]
  | get => cases outbox <;> simp [step, contents, RelayCall.putBy, RelayCall.gotBy]

/-- The queues are within a capacity that bounds them. -/
def Relay.Within (capacity : Int) (r : Relay α) : Prop :=
  0 < capacity → (r.inbox.length : Int) ≤ capacity ∧ (r.outbox.length : Int) ≤ capacity

/-- No call takes a relay over its capacity.
Witness: cases on the call; a pump that finds the queue full stays where it is.
-/
theorem Relay.Within.step {capacity : Int} {r : Relay α} (within : r.Within capacity)
    (call : RelayCall α) : (r.step capacity call).2.Within capacity := by
  intro positive
  obtain ⟨before, after⟩ := within positive
  obtain ⟨inbox, worker, outbox⟩ := r
  cases call with
  | put item =>
      unfold Relay.step
      dsimp only
      split
      · rename_i room
        simp only [HasRoom, List.length_append, List.length_singleton] at room ⊢
        exact ⟨by omega, after⟩
      · exact ⟨before, after⟩
  | move =>
      cases worker with
      | waiting =>
          rcases inbox with _ | ⟨_ | x, rest⟩
          · exact ⟨before, after⟩
          all_goals
            simp only [Relay.step, List.length_cons] at before ⊢
            exact ⟨by omega, after⟩
      | holding x =>
          unfold Relay.step
          dsimp only
          split
          · rename_i room
            simp only [HasRoom, List.length_append, List.length_singleton] at room ⊢
            exact ⟨before, by omega⟩
          · exact ⟨before, after⟩
      | stopped => exact ⟨before, after⟩
  | get =>
      cases outbox with
      | nil => exact ⟨before, after⟩
      | cons x rest =>
          simp only [Relay.step, List.length_cons] at after ⊢
          exact ⟨before, by omega⟩

-----------------------------------------------------------------------------------------
-- The worker on its own
-----------------------------------------------------------------------------------------

def Worker.held : Worker α → List α
  | .holding x => [x]
  | .waiting | .stopped => []

/-- How many items are in the relay before the end marker. -/
def Relay.load (r : Relay α) : ℕ :=
  r.outbox.length + r.worker.held.length + (r.inbox.takeWhile Option.isSome).length

/-- How much a worker on its own can still move. -/
def Relay.size (r : Relay α) : ℕ := 2 * r.inbox.length + r.worker.held.length

/-- What a move of a worker that has not stopped does: it takes an item, takes the marker, gives an
item on, or blocks.
-/
theorem Relay.move_cases (capacity : Int) (r : Relay α) (running : r.worker ≠ .stopped)
    : (∃ x rest, r.inbox = some x :: rest ∧ r.worker = .waiting
        ∧ r.step capacity .move = (some none, { r with inbox := rest, worker := .holding x }))
      ∨ (∃ rest, r.inbox = none :: rest ∧ r.worker = .waiting
        ∧ r.step capacity .move = (some none, { r with inbox := rest, worker := .stopped }))
      ∨ (∃ x, r.worker = .holding x ∧ HasRoom capacity r.outbox.length
        ∧ r.step capacity .move
          = (some none, { r with worker := .waiting, outbox := r.outbox ++ [x] }))
      ∨ r.step capacity .move = (none, r)
        ∧ (r.inbox = [] ∨ ∃ x, r.worker = .holding x ∧ ¬ HasRoom capacity r.outbox.length) := by
  obtain ⟨inbox, worker, outbox⟩ := r
  cases worker with
  | waiting =>
      rcases inbox with _ | ⟨_ | x, rest⟩
      · exact .inr (.inr (.inr ⟨rfl, .inl rfl⟩))
      · exact .inr (.inl ⟨rest, rfl, rfl, rfl⟩)
      · exact .inl ⟨x, rest, rfl, rfl, rfl⟩
  | holding x =>
      by_cases room : HasRoom capacity outbox.length
      · exact .inr (.inr (.inl ⟨x, rfl, room, by simp [step, room]⟩))
      · exact .inr (.inr (.inr ⟨by simp [step, room], .inr ⟨x, rfl, room⟩⟩))
  | stopped => exact absurd rfl running

/-- A worker that has stopped does not move. -/
theorem Relay.move_stopped {capacity : Int} {r : Relay α} (stopped : r.worker = .stopped)
    : r.step capacity .move = (none, r) := by
  obtain ⟨inbox, worker, outbox⟩ := r
  subst stopped
  rfl

/-- A move that is answered leaves less to be moved. -/
theorem Relay.size_move {capacity : Int} {r : Relay α}
    (answered : (r.step capacity .move).1.isSome) : (r.step capacity .move).2.size < r.size := by
  by_cases running : r.worker = .stopped
  · simp [move_stopped running] at answered
  rcases r.move_cases capacity running with
    ⟨x, rest, items, waiting, moved⟩ | ⟨rest, items, waiting, moved⟩ | ⟨x, holds, -, moved⟩
    | ⟨moved, -⟩
  · simp [moved, size, items, waiting, Worker.held]
    omega
  · simp [moved, size, items, waiting, Worker.held]
  · simp [moved, size, holds, Worker.held]
  · simp [moved] at answered

/-- A move that does not take the marker keeps the load. -/
theorem Relay.load_move {capacity : Int} {r : Relay α} (running : r.worker ≠ .stopped)
    (going : (r.step capacity .move).2.worker ≠ .stopped)
    : (r.step capacity .move).2.load = r.load := by
  rcases r.move_cases capacity running with
    ⟨x, rest, items, waiting, moved⟩ | ⟨rest, items, waiting, moved⟩ | ⟨x, holds, -, moved⟩
    | ⟨moved, -⟩
  · simp only [moved, load, items, waiting, Worker.held, List.takeWhile_cons, Option.isSome_some,
      if_true, List.length_cons, List.length_nil]
    omega
  · rw [moved] at going
    exact absurd rfl going
  · simp only [moved, load, holds, Worker.held, List.length_append, List.length_cons,
      List.length_nil, Nat.add_zero]
  · rw [moved]

/-- A move takes no marker that is not there, and puts none. -/
theorem Relay.marker_of_move {capacity : Int} {r : Relay α}
    (marker : none ∈ (r.step capacity .move).2.inbox) : none ∈ r.inbox := by
  by_cases running : r.worker = .stopped
  · rwa [move_stopped running] at marker
  · rcases r.move_cases capacity running with
      ⟨x, rest, items, waiting, moved⟩ | ⟨rest, items, waiting, moved⟩ | ⟨x, holds, -, moved⟩
      | ⟨moved, -⟩
    · rw [moved] at marker
      exact items ▸ List.mem_cons_of_mem _ marker
    · exact items ▸ List.mem_cons_self
    · rw [moved] at marker
      exact marker
    · rwa [moved] at marker

/-- A marker that is there stays until it stops the worker. -/
theorem Relay.marker_move {capacity : Int} {r : Relay α} (running : r.worker ≠ .stopped)
    (marker : none ∈ r.inbox) (going : (r.step capacity .move).2.worker ≠ .stopped)
    : none ∈ (r.step capacity .move).2.inbox := by
  rcases r.move_cases capacity running with
    ⟨x, rest, items, waiting, moved⟩ | ⟨rest, items, waiting, moved⟩ | ⟨x, holds, -, moved⟩
    | ⟨moved, -⟩
  · rw [moved]
    simpa [items] using marker
  · rw [moved] at going
    exact absurd rfl going
  · rw [moved]
    exact marker
  · rwa [moved]

/-- A worker that a move stops took the marker. -/
theorem Relay.marker_of_stops {capacity : Int} {r : Relay α} (running : r.worker ≠ .stopped)
    (stops : (r.step capacity .move).2.worker = .stopped)
    : none ∈ r.inbox ∧ r.load = r.outbox.length := by
  rcases r.move_cases capacity running with
    ⟨x, rest, items, waiting, moved⟩ | ⟨rest, items, waiting, moved⟩ | ⟨x, holds, -, moved⟩
    | ⟨moved, -⟩
  · simp [moved] at stops
  · exact ⟨items ▸ List.mem_cons_self, by simp [load, items, waiting, Worker.held]⟩
  · simp [moved] at stops
  · rw [moved] at stops
    exact absurd stops running

/-- What comes before the marker fits into the queue behind. -/
def Relay.Fits (capacity : Int) (r : Relay α) : Prop := capacity ≤ 0 ∨ (r.load : Int) ≤ capacity

/-- The worker can stop: the marker is there, and what comes before it fits. -/
def Relay.CanStop (capacity : Int) (r : Relay α) : Prop := none ∈ r.inbox ∧ r.Fits capacity

/-- A move does not make it possible to stop. -/
theorem Relay.canStop_of_move {capacity : Int} {r : Relay α} (within : r.Within capacity)
    (running : r.worker ≠ .stopped)
    (after : (r.step capacity .move).2.worker = .stopped
      ∨ (r.step capacity .move).2.CanStop capacity) : r.CanStop capacity := by
  by_cases stops : (r.step capacity .move).2.worker = .stopped
  · obtain ⟨marker, load⟩ := marker_of_stops running stops
    refine ⟨marker, ?_⟩
    simp only [Within, Fits, load] at within ⊢
    omega
  · obtain ⟨marker, fits⟩ := after.resolve_left stops
    rw [Fits, load_move running stops] at fits
    exact ⟨marker_of_move marker, fits⟩

/-- Nor does it make it impossible. -/
theorem Relay.CanStop.move {capacity : Int} {r : Relay α} (canStop : r.CanStop capacity)
    (running : r.worker ≠ .stopped)
    : (r.step capacity .move).2.worker = .stopped ∨ (r.step capacity .move).2.CanStop capacity := by
  by_cases stops : (r.step capacity .move).2.worker = .stopped
  · exact .inl stops
  · refine .inr ⟨marker_move running canStop.1 stops, ?_⟩
    rw [Fits, load_move running stops]
    exact canStop.2

/-- A worker that can stop and has not is not blocked. -/
theorem Relay.CanStop.moves {capacity : Int} {r : Relay α} (canStop : r.CanStop capacity)
    (running : r.worker ≠ .stopped) : (r.step capacity .move).1.isSome := by
  obtain ⟨marker, fits⟩ := canStop
  rcases r.move_cases capacity running with
    ⟨x, rest, -, -, moved⟩ | ⟨rest, -, -, moved⟩ | ⟨x, -, -, moved⟩ | ⟨-, empty | ⟨x, holds, full⟩⟩
  · rw [moved]
    rfl
  · rw [moved]
    rfl
  · rw [moved]
    rfl
  · rw [empty] at marker
    cases marker
  · simp only [Fits, load, holds, Worker.held, HasRoom, List.length_cons, List.length_nil]
      at fits full
    omega

/-- No marker has been put into the relay. -/
def Relay.IsOpen (r : Relay α) : Prop := r.worker ≠ .stopped ∧ none ∉ r.inbox

theorem Relay.IsOpen.move {capacity : Int} {r : Relay α} (isOpen : r.IsOpen)
    : (r.step capacity .move).2.IsOpen :=
  ⟨fun stops => isOpen.2 (marker_of_stops isOpen.1 stops).1, mt marker_of_move isOpen.2⟩

theorem Relay.IsOpen.fits_move {capacity : Int} {r : Relay α} (isOpen : r.IsOpen)
    : (r.step capacity .move).2.Fits capacity ↔ r.Fits capacity := by
  rw [Fits, load_move isOpen.1 isOpen.move.1, Fits]

theorem Relay.IsOpen.takeWhile_inbox {r : Relay α} (isOpen : r.IsOpen)
    : r.inbox.takeWhile Option.isSome = r.inbox := by
  refine List.takeWhile_eq_self_iff.mpr fun item at_ => ?_
  rcases item with _ | x
  · exact absurd at_ isOpen.2
  · rfl

theorem Relay.isOpen_of_contents {r : Relay α} (unmarked : none ∉ r.contents) : r.IsOpen := by
  rw [contents, List.mem_append, not_or, List.mem_append, not_or] at unmarked
  refine ⟨fun stopped => unmarked.1.2 ?_, unmarked.2⟩
  rw [stopped]
  exact List.mem_cons_self

theorem Relay.IsOpen.load_eq {r : Relay α} (isOpen : r.IsOpen) : r.load = r.contents.length := by
  have held : r.worker.contents.length = r.worker.held.length := by
    rcases worker : r.worker with _ | x | _
    · rfl
    · rfl
    · exact absurd worker isOpen.1
  rw [load, contents, isOpen.takeWhile_inbox, List.length_append, List.length_append,
    List.length_map, held]

/-- Behind an open relay's items the marker lets the worker stop exactly when the items fit. -/
theorem Relay.IsOpen.canStop_put {capacity : Int} {r : Relay α} (isOpen : r.IsOpen)
    : Relay.CanStop capacity { r with inbox := r.inbox ++ [none] } ↔ r.Fits capacity := by
  have same : Relay.load { r with inbox := r.inbox ++ [none] } = r.load := by
    have items : (r.inbox ++ [none]).takeWhile Option.isSome = r.inbox := by
      rw [List.takeWhile_append_of_pos]
      · simp
      · exact List.takeWhile_eq_self_iff.mp isOpen.takeWhile_inbox
    rw [load, load, isOpen.takeWhile_inbox]
    simp only [items]
  rw [CanStop, Fits, Fits, same]
  exact and_iff_right (List.mem_append_right _ List.mem_cons_self)

/-- Where the items fit and the queue before the worker is full, the worker is not blocked. -/
theorem Relay.IsOpen.moves_of_full {capacity : Int} {r : Relay α} (isOpen : r.IsOpen)
    (fits : r.Fits capacity) (full : ¬ HasRoom capacity r.inbox.length)
    : (r.step capacity .move).1.isSome := by
  simp only [HasRoom, Fits, load, isOpen.takeWhile_inbox] at full fits
  rcases r.move_cases capacity isOpen.1 with
    ⟨x, rest, -, -, moved⟩ | ⟨rest, -, -, moved⟩ | ⟨x, -, -, moved⟩ | ⟨-, empty | ⟨x, holds, -⟩⟩
  · rw [moved]
    rfl
  · rw [moved]
    rfl
  · rw [moved]
    rfl
  · simp only [empty, List.length_nil] at full
    omega
  · simp only [holds, Worker.held, List.length_cons] at fits
    omega

end Naalp.Foundation
