import Naalp.Foundation.Journal

/-! Stores that keep their memory in a log of length-prefixed records.
A store appends to its log before it acknowledges a call, and rebuilds its memory from the log
when it is opened. A crash can cut the log anywhere.
-/

namespace Naalp.Foundation

variable {ε σ ι ο μ : Type}

/-- A store: opening it on the octets of a file, one call on it, its file and its memory. -/
structure LoggedStore (ε σ ι ο μ : Type) where
  opens : Bytes → Except ε σ
  call : σ → ι → Except ε ο × σ
  disk : σ → Bytes
  memory : σ → μ

/-- (Acknowledged store allowed first calls last) says that the calls, each allowed in its state,
are all acknowledged and lead the store from `first` to `last`.
-/
inductive Acknowledged (store : LoggedStore ε σ ι ο μ) (allowed : σ → ι → Prop)
    : σ → List ι → σ → Prop where
  | nil (state : σ) : Acknowledged store allowed state [] state
  | cons {first next last : σ} {call : ι} {calls : List ι} {answer : ο}
      (permitted : allowed first call) (answered : store.call first call = (.ok answer, next))
      (later : Acknowledged store allowed next calls last)
      : Acknowledged store allowed first (call :: calls) last

variable (store : LoggedStore ε σ ι ο μ) (allowed : σ → ι → Prop)

/-- The state of the records that lie wholly in the first `cut` octets of the log: the calls
that wrote them are the first ones, and the next call's record reaches beyond the cut.
-/
structure WhollyInside (fresh : σ) (calls : List ι) (cut : Nat) (inside : σ) : Prop where
  split : ∃ kept lost, calls = kept ++ lost ∧ Acknowledged store allowed fresh kept inside
    ∧ ∀ call later answer next, lost = call :: later → store.call inside call = (.ok answer, next)
      → cut < (store.disk next).length
  within : (store.disk inside).length ≤ cut

/-- The cut leaves one to three octets of the length prefix of a record. -/
def CutsPrefix (fresh : σ) (calls : List ι) (final : σ) (cut : Nat) : Prop :=
  ∃ inside, WhollyInside store allowed fresh calls cut inside
    ∧ (store.disk inside).length < cut ∧ cut < (store.disk inside).length + 4
    ∧ cut < (store.disk final).length

/-- After opening, the memory is that of the wholly kept records, and whatever is acknowledged
from then on is there after the next opening.
-/
structure Recovered (fresh : σ) (calls : List ι) (cut : Nat) (reopened : σ) : Prop where
  restored : ∃ inside, WhollyInside store allowed fresh calls cut inside
    ∧ store.memory reopened = store.memory inside
  continues : ∀ more last, Acknowledged store allowed reopened more last
    → ∃ again, store.opens (store.disk last) = .ok again ∧ store.memory again = store.memory last

/-- However a log written by acknowledged calls is cut, in a way that `cuts` admits, opening it
fails or recovers.
-/
def SurvivesCuts (cuts : σ → List ι → σ → Nat → Prop) : Prop :=
  ∀ fresh calls final cut reopened, store.opens [] = .ok fresh
    → Acknowledged store allowed fresh calls final → cuts fresh calls final cut
    → store.opens ((store.disk final).take cut) = .ok reopened
    → Recovered store allowed fresh calls cut reopened

/-- What a store has to do for its log: opening replays the whole file, and an acknowledged call
either changes nothing or appends one record that replay absorbs into the memory it leaves.
-/
structure KeepsLog (reader : LogReader ε μ) (start : μ) (ready : σ → Prop) : Prop where
  opened : ∀ {data state}, store.opens data = .ok state
    → ready state ∧ store.disk state = data ∧ reader.replay data start = .ok (store.memory state)
  reopens : ∀ {data mem}, reader.replay data start = .ok mem
    → ∃ state, store.opens data = .ok state ∧ store.memory state = mem
  appends : ∀ {state call answer next}, ready state → allowed state call
    → store.call state call = (.ok answer, next)
    → ready next ∧ (store.disk next = store.disk state ∧ store.memory next = store.memory state
      ∨ ∃ record, record.length < 2 ^ 32 ∧ store.disk next = store.disk state ++ frame record
        ∧ reader.absorb (store.memory state) record = .ok (store.memory next))

/-- A store whose opening makes an object of the file and the replayed memory. -/
theorem KeepsLog.of_opens {store : LoggedStore ε σ ι ο μ} {allowed : σ → ι → Prop}
    {reader : LogReader ε μ} {start : μ} {make : Bytes → μ → σ}
    (opens : ∀ data, store.opens data = reader.replay data start >>= fun mem => pure
      (make data mem))
    (disk : ∀ data mem, store.disk (make data mem) = data)
    (memory : ∀ data mem, store.memory (make data mem) = mem)
    (appends : ∀ {state call answer next}, allowed state call
      → store.call state call = (.ok answer, next)
      → store.disk next = store.disk state ∧ store.memory next = store.memory state
        ∨ ∃ record, record.length < 2 ^ 32 ∧ store.disk next = store.disk state ++ frame record
          ∧ reader.absorb (store.memory state) record = .ok (store.memory next))
    : KeepsLog store allowed reader start (fun _ => True) where
  opened := by
    intro data state opened
    rw [opens] at opened
    obtain ⟨mem, replayed, same⟩ := bind_eq_ok.mp opened
    obtain rfl := Except.ok.inj same
    exact ⟨trivial, disk data mem, by rw [memory, replayed]⟩
  reopens := by
    intro data mem replayed
    refine ⟨make data mem, ?_, memory data mem⟩
    rw [opens, replayed]
    rfl
  appends := fun _ permitted answered => ⟨trivial, appends permitted answered⟩

section Recovery

variable {store allowed} {reader : LogReader ε μ} {start : μ} {ready : σ → Prop}
  (keeps : KeepsLog store allowed reader start ready)

/-- The log of the state leads a reader to its memory, whatever follows. -/
def Replayable (store : LoggedStore ε σ ι ο μ) (reader : LogReader ε μ) (start : μ) (state : σ)
    : Prop :=
  ∀ rest, reader.replay (store.disk state ++ rest) start
    = reader.replay rest (store.memory state)

include keeps

theorem KeepsLog.replayable_step {state next : σ} {call : ι} {answer : ο} (isReady : ready state)
    (permitted : allowed state call) (answered : store.call state call = (.ok answer, next))
    (replayable : Replayable store reader start state)
    : Replayable store reader start next := by
  intro rest
  rcases (keeps.appends isReady permitted answered).2 with
    ⟨sameDisk, sameMemory⟩ | ⟨record, short, written, absorbed⟩
  · rw [sameDisk, sameMemory, replayable]
  · rw [written, List.append_assoc, replayable, LogReader.replay_frame short, absorbed, ok_bind]

/-- Acknowledged calls extend the log and keep it replayable, by induction over the calls. -/
theorem KeepsLog.run {first last : σ} {calls : List ι}
    (run : Acknowledged store allowed first calls last) (isReady : ready first)
    (replayable : Replayable store reader start first)
    : Replayable store reader start last ∧ store.disk first <+: store.disk last := by
  induction run with
  | nil state => exact ⟨replayable, List.prefix_rfl⟩
  | @cons first next last call calls answer permitted answered _ ih =>
      obtain ⟨nextReady, effect⟩ := keeps.appends isReady permitted answered
      obtain ⟨kept, extended⟩ :=
        ih nextReady (keeps.replayable_step isReady permitted answered replayable)
      refine ⟨kept, List.IsPrefix.trans ?_ extended⟩
      rcases effect with ⟨same, -⟩ | ⟨record, -, written, -⟩
      · rw [same]
      · rw [written]
        exact List.prefix_append ..

/-- A replayable store is found again with its memory. -/
theorem KeepsLog.found_again {state : σ} (replayable : Replayable store reader start state)
    : ∃ again, store.opens (store.disk state) = .ok again
      ∧ store.memory again = store.memory state := by
  have whole := replayable []
  rw [List.append_nil, LogReader.replay_nil] at whole
  exact keeps.reopens whole

/-- What is left of a log that is cut: the wholly kept records, then the start of the record of
the next call, if any; by induction over the calls.
-/
theorem KeepsLog.take_cut {fresh final : σ} {calls : List ι} {cut : Nat}
    (run : Acknowledged store allowed fresh calls final) (isReady : ready fresh)
    (replayable : Replayable store reader start fresh)
    (enough : (store.disk fresh).length ≤ cut)
    : ∃ inside, WhollyInside store allowed fresh calls cut inside
      ∧ Replayable store reader start inside
      ∧ ((store.disk final).take cut = store.disk inside
        ∨ ∃ record count, record.length < 2 ^ 32 ∧ count < (frame record).length
          ∧ cut = (store.disk inside).length + count ∧ cut < (store.disk final).length
          ∧ (store.disk final).take cut = store.disk inside ++ (frame record).take count) := by
  induction run with
  | nil state =>
      refine ⟨state, ⟨⟨[], [], rfl, .nil state, ?_⟩, enough⟩, replayable,
        .inl (List.take_of_length_le enough)⟩
      intro call later answer next none
      cases none
  | @cons first next last call calls answer permitted answered later ih =>
      obtain ⟨nextReady, effect⟩ := keeps.appends isReady permitted answered
      have nextReplayable := keeps.replayable_step isReady permitted answered replayable
      by_cases fits : (store.disk next).length ≤ cut
      · obtain ⟨inside, ⟨⟨kept, lost, rfl, kept_run, beyond⟩, within⟩, insideReplayable, rest⟩ :=
          ih nextReady nextReplayable fits
        exact ⟨inside, ⟨⟨call :: kept, lost, rfl, .cons permitted answered kept_run, beyond⟩,
          within⟩, insideReplayable, rest⟩
      · refine ⟨first, ⟨⟨[], call :: calls, rfl, .nil first, ?_⟩, enough⟩, replayable, ?_⟩
        · intro other more otherAnswer otherNext same otherAnswered
          obtain ⟨rfl, -⟩ := List.cons.inj same
          rw [answered] at otherAnswered
          obtain ⟨-, rfl⟩ := Prod.mk.inj otherAnswered
          omega
        · rcases effect with ⟨same, -⟩ | ⟨record, short, written, -⟩
          · rw [same] at fits
            exact (fits enough).elim
          · obtain ⟨-, suffix, extended⟩ := keeps.run later nextReady nextReplayable
            have size : (store.disk next).length
                = (store.disk first).length + (frame record).length := by
              rw [written, List.length_append]
            refine .inr ⟨record, cut - (store.disk first).length, short, by omega, by omega, ?_, ?_⟩
            · rw [← extended, List.length_append]
              omega
            · rw [← extended, written, List.append_assoc, List.take_append,
                List.take_of_length_le enough, List.take_append_of_le_length (by omega)]

/-- A store that keeps its log survives every cut that leaves no part of a length prefix, and
every cut at all when its reader refuses such a part.
Witness: the calls that lie wholly before the cut are replayed; what is left of the next record
is dropped by the reader or inside a length prefix.
-/
theorem KeepsLog.survivesCuts {cuts : σ → List ι → σ → Nat → Prop}
    (handled : ∀ fresh calls final cut, cuts fresh calls final cut
      → reader.shortPrefix = none → ¬ CutsPrefix store allowed fresh calls final cut)
    : SurvivesCuts store allowed cuts := by
  intro fresh calls final cut reopened openedFresh run admitted openedCut
  obtain ⟨freshReady, freshDisk, freshReplay⟩ := keeps.opened openedFresh
  have freshReplayable : Replayable store reader start fresh := by
    rw [LogReader.replay_nil] at freshReplay
    intro rest
    rw [freshDisk, List.nil_append, Except.ok.inj freshReplay]
  obtain ⟨inside, wholly, replayable, octets⟩ :=
    keeps.take_cut run freshReady freshReplayable (by simp [freshDisk])
  obtain ⟨reopenedReady, reopenedDisk, reopenedReplay⟩ := keeps.opened openedCut
  -- a cut inside a record is refused or leaves nothing, so the file is that of `inside`
  have clean : store.disk reopened = store.disk inside
      ∧ store.memory reopened = store.memory inside := by
    rw [reopenedDisk]
    rcases octets with whole | ⟨record, count, short, torn, reach, partly, tail⟩
    · rw [whole] at reopenedReplay ⊢
      rw [← List.append_nil (store.disk inside), replayable, LogReader.replay_nil] at reopenedReplay
      exact ⟨rfl, (Except.ok.inj reopenedReplay).symm⟩
    · rw [tail, replayable] at reopenedReplay
      obtain ⟨same, ends⟩ := LogReader.replay_torn short torn reopenedReplay
      rcases ends with rfl | ⟨brief, lenient⟩
      · rw [tail, List.take_zero, List.append_nil]
        exact ⟨rfl, same⟩
      · by_cases empty : count = 0
        · rw [tail, empty, List.take_zero, List.append_nil]
          exact ⟨rfl, same⟩
        · exact (handled _ _ _ _ admitted lenient
            ⟨inside, wholly, by omega, by omega, partly⟩).elim
  refine ⟨⟨inside, wholly, clean.2⟩, ?_⟩
  intro more last later
  have reopenedReplayable : Replayable store reader start reopened := by
    intro rest
    rw [clean.1, clean.2, replayable]
  exact keeps.found_again (keeps.run later reopenedReady reopenedReplayable).1

end Recovery

end Naalp.Foundation
