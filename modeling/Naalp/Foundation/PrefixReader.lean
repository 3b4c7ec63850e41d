import Mathlib.Data.List.Sort
import Naalp.Foundation.Bytes
import Naalp.Foundation.Checks

/-! Readers that consume a prefix of an octet string and return the rest.
An exact reader accepts the encodings of a set of values and nothing else, so its round trip,
its soundness and its prefix freedom are one equivalence.
-/

namespace Naalp.Foundation

variable {ε α σ : Type}

/-- (ReadsExactly read accepted encoding) says that `read` succeeds exactly on the octets of
an accepted value followed by anything, and returns that value and what follows.
-/
def ReadsExactly (read : Bytes → Except ε (α × Bytes)) (accepted : α → Prop)
    (encoding : α → Bytes) : Prop :=
  ∀ data value rest, read data = .ok (value, rest)
    ↔ accepted value ∧ data = encoding value ++ rest

/-- An exactly read encoding fixes its value, since reading is a function. -/
theorem ReadsExactly.injective {read : Bytes → Except ε (α × Bytes)} {accepted : α → Prop}
    {encoding : α → Bytes} (reads : ReadsExactly read accepted encoding)
    {left right : α} (leftAccepted : accepted left) (rightAccepted : accepted right)
    (same : encoding left = encoding right)
    : left = right := by
  have readLeft := (reads (encoding left) left []).mpr ⟨leftAccepted, by simp⟩
  have readRight := (reads (encoding left) right []).mpr ⟨rightAccepted, by simp [same]⟩
  rw [readLeft] at readRight
  exact (Prod.mk.inj (Except.ok.inj readRight)).1

/-- A counted loop that reads one element per round and threads a state through it. -/
def readLoop (step : σ → Bytes → Except ε (α × σ × Bytes))
    : (count : Nat) → σ → Bytes → Except ε (List α × Bytes)
  | 0, _, cur => return ([], cur)
  | count + 1, state, cur => do
      let (value, state, cur) ← step state cur
      let (values, cur) ← readLoop step count state cur
      return (value :: values, cur)

/-- (AcceptedFrom accepted next state values) requires each value to be accepted in the state
that the values before it lead to.
-/
def AcceptedFrom (accepted : σ → α → Prop) (next : σ → α → σ) : σ → List α → Prop
  | _, [] => True
  | state, value :: values =>
      accepted state value ∧ AcceptedFrom accepted next (next state value) values

/-- A loop whose round is exact reads exactly the concatenated encodings of `count` accepted
values, by induction on the count.
-/
theorem readLoop_eq_ok {step : σ → Bytes → Except ε (α × σ × Bytes)}
    {accepted : σ → α → Prop} {next : σ → α → σ} {encoding : α → Bytes}
    (reads : ∀ state data value after rest, step state data = .ok (value, after, rest)
      ↔ accepted state value ∧ after = next state value ∧ data = encoding value ++ rest)
    {count : Nat} {state : σ} {data : Bytes} {values : List α} {rest : Bytes}
    : readLoop step count state data = .ok (values, rest)
      ↔ values.length = count
        ∧ AcceptedFrom accepted next state values
        ∧ data = values.flatMap encoding ++ rest := by
  induction count generalizing state data values rest with
  | zero =>
      cases values with
      | nil => simp [readLoop, AcceptedFrom]
      | cons value values => simp [readLoop]
  | succ count ih =>
      simp only [readLoop, bind_eq_ok, Prod.exists, reads, ih, pure_eq_ok, Except.ok.injEq,
        Prod.mk.injEq]
      constructor
      · intro read
        obtain ⟨value, after, cur, ⟨first, rfl, rfl⟩, tail, last, ⟨size, later, rfl⟩, rfl, rfl⟩ :=
          read
        exact ⟨by simp [size], ⟨first, later⟩, by simp⟩
      · intro read
        obtain ⟨size, allAccepted, rfl⟩ := read
        cases values with
        | nil => simp at size
        | cons value tail =>
            obtain ⟨first, later⟩ := allAccepted
            refine ⟨value, next state value, tail.flatMap encoding ++ rest, ⟨first, rfl, by simp⟩,
              tail, rest, ⟨by simpa using size, later, rfl⟩, rfl, rfl⟩

/-- A loop whose round is exact fails when it comes, after fewer than `count` accepted values, to
octets on which the round fails; by induction on the count.
-/
theorem readLoop_eq_error {step : σ → Bytes → Except ε (α × σ × Bytes)}
    {accepted : σ → α → Prop} {next : σ → α → σ} {encoding : α → Bytes}
    (reads : ∀ state data value after rest, step state data = .ok (value, after, rest)
      ↔ accepted state value ∧ after = next state value ∧ data = encoding value ++ rest)
    {count : Nat} {state : σ} {data : Bytes} {error : ε}
    : readLoop step count state data = .error error
      ↔ ∃ values rest, values.length < count ∧ AcceptedFrom accepted next state values
        ∧ data = values.flatMap encoding ++ rest
        ∧ step (values.foldl next state) rest = .error error := by
  induction count generalizing state data with
  | zero => simp [readLoop]
  | succ count ih =>
      simp only [readLoop, bind_eq_error, Prod.exists, reads, ih, pure_eq_ok,
        reduceCtorEq, and_false, exists_false, or_false]
      constructor
      · intro failed
        rcases failed with first | ⟨value, _, cur, ⟨fits, rfl, rfl⟩, values, rest, few, later, rfl,
          failing⟩
        · exact ⟨[], data, by simp, trivial, rfl, first⟩
        · exact ⟨value :: values, rest, by simpa using few, ⟨fits, later⟩, by simp, failing⟩
      · intro failed
        obtain ⟨values, rest, few, fits, rfl, failing⟩ := failed
        cases values with
        | nil => exact .inl failing
        | cons value values =>
            obtain ⟨first, later⟩ := fits
            refine .inr ⟨value, _, _, ⟨first, rfl, by rw [List.flatMap_cons, List.append_assoc]⟩,
              values, rest, by simpa using few, later, rfl, failing⟩

section Cutting

variable {stop : ε} {cut full : σ → Bytes → Except ε (α × σ × Bytes)}
  (rounds : ∀ state data, Cuts stop (cut state data) (full state data))

include rounds

/-- A loop with rounds that may stop does what the full loop does or stops, by induction on the
count.
-/
theorem readLoop_cuts (count : Nat) (state : σ) (data : Bytes)
    : Cuts stop (readLoop cut count state data) (readLoop full count state data) := by
  induction count generalizing state data with
  | zero => exact .refl _
  | succ count ih =>
      exact (rounds state data).bind fun _ _ => (ih _ _).bind fun _ _ => .refl _

/-- A loop stops where a round stops after fewer than `count` values that the full round
accepts, by induction on the count. A round that stops earlier stops the loop as well.
-/
theorem readLoop_stops_iff {accepted : σ → α → Prop} {next : σ → α → σ} {encoding : α → Bytes}
    (reads : ∀ state data value after rest, full state data = .ok (value, after, rest)
      ↔ accepted state value ∧ after = next state value ∧ data = encoding value ++ rest)
    {count : Nat} {state : σ} {data : Bytes}
    : readLoop cut count state data = .error stop
      ↔ ∃ values rest, values.length < count ∧ AcceptedFrom accepted next state values
        ∧ data = values.flatMap encoding ++ rest
        ∧ cut (values.foldl next state) rest = .error stop := by
  induction count generalizing state data with
  | zero => simp [readLoop]
  | succ count ih =>
      simp only [readLoop, bind_eq_error, Prod.exists, ih, pure_eq_ok, reduceCtorEq, and_false,
        exists_false, or_false]
      constructor
      · intro stopped
        rcases stopped with first | ⟨value, after, cur, read, values, rest, few, later, rfl,
          failing⟩
        · exact ⟨[], data, by simp, trivial, rfl, first⟩
        · rcases rounds state data with stopped | same
          · rw [stopped] at read
            cases read
          · obtain ⟨fits, rfl, rfl⟩ := (reads ..).mp (same ▸ read)
            exact ⟨value :: values, rest, by simpa using few, ⟨fits, later⟩, by simp, failing⟩
      · intro stopped
        obtain ⟨values, rest, few, fits, rfl, failing⟩ := stopped
        cases values with
        | nil => exact .inl failing
        | cons value values =>
            obtain ⟨first, later⟩ := fits
            rcases rounds state ((value :: values).flatMap encoding ++ rest) with stopped | same
            · exact .inl stopped
            · refine .inr ⟨value, next state value, values.flatMap encoding ++ rest, ?_, values,
                rest, by simpa using few, later, rfl, failing⟩
              rw [same, reads]
              exact ⟨first, rfl, by rw [List.flatMap_cons, List.append_assoc]⟩

end Cutting

/-- A loop with rounds that accept more accepts more, by induction on the count. -/
theorem readLoop_mono {ε' : Type} {narrow : σ → Bytes → Except ε (α × σ × Bytes)}
    {wide : σ → Bytes → Except ε' (α × σ × Bytes)}
    (rounds : ∀ state data result, narrow state data = .ok result → wide state data = .ok result)
    {count : Nat} {state : σ} {data : Bytes} {result : List α × Bytes}
    (read : readLoop narrow count state data = .ok result)
    : readLoop wide count state data = .ok result := by
  induction count generalizing state data result with
  | zero =>
      obtain rfl := Except.ok.inj read
      rfl
  | succ count ih =>
      simp only [readLoop, bind_eq_ok, Prod.exists, pure_eq_ok, Except.ok.injEq] at read ⊢
      obtain ⟨value, after, cur, first, values, rest, later, same⟩ := read
      exact ⟨value, after, cur, rounds _ _ _ first, values, rest, ih later, same⟩

/-- A loop whose round keeps some of the values that another round accepts keeps the lists of
such values, by induction on the count.
-/
theorem readLoop_restrict {ε' : Type} {step : σ → Bytes → Except ε (α × σ × Bytes)}
    {narrow : σ → Bytes → Except ε' (α × σ × Bytes)} {keep : α → Prop}
    (narrows : ∀ state data value after rest, narrow state data = .ok (value, after, rest)
      ↔ step state data = .ok (value, after, rest) ∧ keep value)
    {count : Nat} {state : σ} {data : Bytes} {values : List α} {rest : Bytes}
    : readLoop narrow count state data = .ok (values, rest)
      ↔ readLoop step count state data = .ok (values, rest) ∧ ∀ value ∈ values, keep value := by
  induction count generalizing state data values rest with
  | zero => cases values <;> simp [readLoop]
  | succ count ih =>
      simp only [readLoop, bind_eq_ok, Prod.exists, narrows, ih, pure_eq_ok, Except.ok.injEq,
        Prod.mk.injEq]
      constructor
      · intro read
        obtain ⟨value, after, cur, ⟨first, kept⟩, tail, last, ⟨later, keptLater⟩, rfl, rfl⟩ := read
        exact ⟨⟨value, after, cur, first, tail, last, later, rfl, rfl⟩,
          List.forall_mem_cons.mpr ⟨kept, keptLater⟩⟩
      · intro read
        obtain ⟨⟨value, after, cur, first, tail, last, later, rfl, rfl⟩, kept⟩ := read
        obtain ⟨keptFirst, keptLater⟩ := List.forall_mem_cons.mp kept
        exact ⟨value, after, cur, ⟨first, keptFirst⟩, tail, last, ⟨later, keptLater⟩, rfl, rfl⟩

end Naalp.Foundation

/-! Readers of records that come as fields in the order of their keys.
A reader takes the fields one after the other into a state. When every state shows the fields that
were read into it, the record read is the one that the last state shows.
-/

namespace Naalp.Foundation

variable {ε σ π κ : Type} {key : π → κ} {read : σ → π → Except ε σ} {shows : σ → List π}
  {admits : π → Prop} {start final : σ} {fields : List π}

/-- Reading an admitted field shows it, in the place of what was shown under its key. -/
def ShowsFields (key : π → κ) (read : σ → π → Except ε σ) (shows : σ → List π)
    (admits : π → Prop) : Prop :=
  ∀ {state next : σ} {field : π}, admits field → read state field = .ok next
  → ∀ other, other ∈ shows next ↔ other = field ∨ other ∈ shows state ∧ key other ≠ key field

/-- In the end every field is shown, and what was shown at first under a key that no field has; by
induction over the fields, whose keys are distinct.
-/
theorem ShowsFields.mem_final (shown : ShowsFields key read shows admits)
    (distinct : (fields.map key).Nodup) (admitted : ∀ field ∈ fields, admits field)
    (ran : fields.foldlM read start = .ok final) {other : π}
    : other ∈ shows final ↔ other ∈ fields ∨ other ∈ shows start ∧ key other ∉ fields.map key := by
  induction fields generalizing start with
  | nil =>
      obtain rfl := Except.ok.inj ran
      simp
  | cons field rest ih =>
      obtain ⟨fresh, distinctRest⟩ := List.nodup_cons.mp distinct
      obtain ⟨first, admittedRest⟩ := List.forall_mem_cons.mp admitted
      rw [List.foldlM_cons] at ran
      obtain ⟨next, taken, ran⟩ := bind_eq_ok.mp ran
      have later := ih distinctRest admittedRest ran
      have own : other = field → key other ∉ rest.map key := by
        rintro rfl
        exact fresh
      rw [later, shown first taken, List.mem_cons, List.map_cons, List.mem_cons, not_or]
      tauto

/-- A record in key order is the one that the last state shows in that order, when it has a field
for every key that the first state shows.
-/
theorem ShowsFields.eq_shows {before : π → π → Prop} [Std.Irrefl before] [Std.Antisymm before]
    (shown : ShowsFields key read shows admits) (distinct : (fields.map key).Nodup)
    (admitted : ∀ field ∈ fields, admits field)
    (covered : ∀ other ∈ shows start, key other ∈ fields.map key)
    (ordered : fields.Pairwise before) (orderedShown : (shows final).Pairwise before)
    (ran : fields.foldlM read start = .ok final)
    : fields = shows final := by
  apply List.Pairwise.eq_of_mem_iff ordered orderedShown
  intro field
  rw [shown.mem_final distinct admitted ran]
  have replaced := covered field
  tauto

end Naalp.Foundation
