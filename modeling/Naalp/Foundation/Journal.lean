import Naalp.Foundation.Bytes
import Naalp.Foundation.Checks

/-! Logs of length-prefixed records.
Four octets before each record hold its length. A reader takes the records in turn; readers
differ in what they make of a log that ends inside a length prefix.
-/

namespace Naalp.Foundation

variable {ε σ : Type}

/-- A record as it stands in a log: the low 32 bits of its length, then its octets. -/
def frame (record : Bytes) : Bytes := toBigEndian 4 record.length ++ record

/-- A reader of logs: what it does with one record, with an end of the log inside a length
prefix (`none` takes it for the end), and with an end inside a record, given the octets left.
-/
structure LogReader (ε σ : Type) where
  absorb : σ → Bytes → Except ε σ
  shortPrefix : Option ε
  shortRecord : Bytes → ε

/-- What a reader makes of fewer than four octets. -/
def LogReader.finish (reader : LogReader ε σ) (tail : Bytes) (state : σ) : Except ε σ :=
  if tail = [] then .ok state
  else
    match reader.shortPrefix with
    | some error => .error error
    | none => .ok state

/-- Reads a log from a state on. -/
def LogReader.replay (reader : LogReader ε σ) (data : Bytes) (state : σ) : Except ε σ :=
  if _short : data.length < 4 then reader.finish data state
  else do
    let n := ofBigEndian (data.take 4)
    let body := data.drop 4
    raiseIf (body.length < n) (reader.shortRecord body)
    let next ← reader.absorb state (body.take n)
    reader.replay (body.drop n) next
termination_by data.length
decreasing_by
  simp only [List.length_drop]
  omega

/-- The octets after the last whole record that a reader accepts as the end of a log. -/
def LogReader.Ends (reader : LogReader ε σ) (tail : Bytes) : Prop :=
  tail = [] ∨ tail.length < 4 ∧ reader.shortPrefix = none

section Replay

variable {reader : LogReader ε σ} {state final : σ} {record rest : Bytes} {records : List Bytes}

theorem LogReader.finish_eq_ok {tail : Bytes} (short : tail.length < 4)
    : reader.finish tail state = .ok final ↔ final = state ∧ reader.Ends tail := by
  unfold LogReader.finish LogReader.Ends
  by_cases empty : tail = []
  · simp [empty, eq_comm]
  · cases kept : reader.shortPrefix <;> simp [empty, short, eq_comm]

theorem LogReader.replay_short (short : rest.length < 4)
    : reader.replay rest state = reader.finish rest state := by
  rw [LogReader.replay, dif_pos short]

@[simp]
theorem LogReader.replay_nil : reader.replay [] state = .ok state := by
  rw [LogReader.replay_short (by simp)]
  rfl

@[simp]
theorem length_frame : (frame record).length = record.length + 4 := by
  simp [frame, Nat.add_comm]

/-- A reader takes a record whose length fits in its prefix, and goes on after it. -/
theorem LogReader.replay_frame (short : record.length < 2 ^ 32)
    : reader.replay (frame record ++ rest) state
      = reader.absorb state record >>= reader.replay rest := by
  have size : (toBigEndian 4 record.length).length = 4 := length_toBigEndian ..
  have read : ofBigEndian (toBigEndian 4 record.length) = record.length :=
    ofBigEndian_toBigEndian (by omega)
  rw [LogReader.replay, dif_neg (by simp [Nat.add_right_comm]), frame, List.append_assoc,
    List.take_left' size, List.drop_left' size, read]
  simp

/-- A reader takes the framed records one after the other, by induction over them. -/
theorem LogReader.replay_frames (short : ∀ record ∈ records, record.length < 2 ^ 32)
    : reader.replay (records.flatMap frame ++ rest) state
      = records.foldlM reader.absorb state >>= reader.replay rest := by
  induction records generalizing state with
  | nil => simp
  | cons record later ih =>
      obtain ⟨first, shortLater⟩ := List.forall_mem_cons.mp short
      rw [List.flatMap_cons, List.append_assoc, LogReader.replay_frame first, List.foldlM_cons]
      cases absorbed : reader.absorb state record with
      | error error => rfl
      | ok next => exact ih shortLater

/-- A log is read to its end exactly when it consists of framed records that are absorbed in
turn, and of a tail that the reader accepts; by induction over the length of the log.
-/
theorem LogReader.replay_eq_ok {data : Bytes}
    : reader.replay data state = .ok final
      ↔ ∃ (records : List Bytes) (tail : Bytes), data = records.flatMap frame ++ tail
        ∧ (∀ record ∈ records, record.length < 2 ^ 32)
        ∧ reader.Ends tail ∧ records.foldlM reader.absorb state = .ok final := by
  constructor
  · intro read
    induction data, state using LogReader.replay.induct with
    | case1 data state short =>
        rw [LogReader.replay_short short, LogReader.finish_eq_ok short] at read
        obtain ⟨rfl, ends⟩ := read
        exact ⟨[], data, rfl, by simp, ends, rfl⟩
    | case2 data state long n body ih =>
        rw [LogReader.replay, dif_neg long] at read
        simp only [bind_eq_ok, raiseIf_eq_ok, exists_const, not_lt] at read
        obtain ⟨enough, next, absorbed, later⟩ := read
        obtain ⟨records, tail, split, short, ends, fold⟩ := ih next later
        have prefixed : (data.take 4).length = 4 := List.length_take_of_le (by omega)
        have size : (body.take n).length = n := List.length_take_of_le enough
        have bound := ofBigEndian_lt (data.take 4)
        rw [prefixed] at bound
        refine ⟨body.take n :: records, tail, ?_, ?_, ends, ?_⟩
        · have same : frame (body.take n) = data.take 4 ++ body.take n := by
            have back := toBigEndian_ofBigEndian (data.take 4)
            rw [prefixed] at back
            rw [frame, size, back]
          rw [List.flatMap_cons, same, List.append_assoc, List.append_assoc, ← split,
            List.take_append_drop, List.take_append_drop]
        · refine List.forall_mem_cons.mpr ⟨?_, short⟩
          rw [size]
          omega
        · rw [List.foldlM_cons, absorbed]
          exact fold
  · intro written
    obtain ⟨records, tail, rfl, short, ends, fold⟩ := written
    have brief : tail.length < 4 := by
      rcases ends with rfl | ⟨brief, -⟩
      · simp
      · exact brief
    rw [LogReader.replay_frames short, fold]
    exact (LogReader.replay_short brief).trans ((LogReader.finish_eq_ok brief).mpr ⟨rfl, ends⟩)

/-- A reader that refuses a part of a length prefix goes on after any log that it reads. -/
theorem LogReader.replay_append {data : Bytes} (strict : reader.shortPrefix ≠ none)
    (read : reader.replay data state = .ok final)
    : reader.replay (data ++ rest) state = reader.replay rest final := by
  obtain ⟨records, tail, rfl, short, ends, fold⟩ := LogReader.replay_eq_ok.mp read
  rcases ends with rfl | ⟨-, lenient⟩
  · rw [List.append_nil, LogReader.replay_frames short, fold, ok_bind]
  · exact absurd lenient strict

/-- A reader gets through a record that lacks its end only when the end is inside the length
prefix and it takes that for the end of the log.
Witness: short of the prefix the reader's choice decides; past it the announced record is not
complete, which every reader refuses.
-/
theorem LogReader.replay_torn {count : Nat} (short : record.length < 2 ^ 32)
    (torn : count < (frame record).length)
    (read : reader.replay ((frame record).take count) state = .ok final)
    : final = state ∧ (count = 0 ∨ count < 4 ∧ reader.shortPrefix = none) := by
  have size : ((frame record).take count).length = count := List.length_take_of_le (by omega)
  by_cases brief : count < 4
  · rw [LogReader.replay_short (by omega), LogReader.finish_eq_ok (by omega)] at read
    obtain ⟨rfl, ends⟩ := read
    refine ⟨rfl, ?_⟩
    rcases ends with empty | ⟨-, lenient⟩
    · rw [empty] at size
      exact .inl size.symm
    · exact .inr ⟨brief, lenient⟩
  · have announced : ((frame record).take count).take 4 = toBigEndian 4 record.length := by
      rw [List.take_take, Nat.min_eq_left (by omega), frame]
      exact List.take_left' (length_toBigEndian ..)
    have missing : (((frame record).take count).drop 4).length < record.length := by
      rw [List.length_drop, size]
      rw [length_frame] at torn
      omega
    have value : ofBigEndian (toBigEndian 4 record.length) = record.length :=
      ofBigEndian_toBigEndian (by omega)
    rw [LogReader.replay, dif_neg (by omega), announced, value] at read
    simp only [raiseIf_pos missing, error_bind] at read
    cases read

/-- A reader that refuses a part of a length prefix gets through a cut log of whole records only
when the cut is between records; by induction over them.
-/
theorem LogReader.take_frames {count : Nat} (strict : reader.shortPrefix ≠ none)
    (short : ∀ record ∈ records, record.length < 2 ^ 32)
    (read : reader.replay ((records.flatMap frame).take count) state = .ok final)
    : ∃ kept, kept <+: records ∧ (records.flatMap frame).take count = kept.flatMap frame := by
  induction records generalizing state count with
  | nil => exact ⟨[], List.prefix_rfl, by simp⟩
  | cons record later ih =>
      obtain ⟨first, shortLater⟩ := List.forall_mem_cons.mp short
      rw [List.flatMap_cons, List.take_append] at read ⊢
      by_cases torn : count < (frame record).length
      · have nothing : count - (frame record).length = 0 := by omega
        rw [nothing, List.take_zero, List.append_nil] at read ⊢
        obtain ⟨-, rfl | ⟨-, lenient⟩⟩ := LogReader.replay_torn first torn read
        · exact ⟨[], List.nil_prefix, by simp⟩
        · exact absurd lenient strict
      · rw [List.take_of_length_le (by omega), LogReader.replay_frame first] at read
        obtain ⟨next, -, rest⟩ := bind_eq_ok.mp read
        obtain ⟨kept, earlier, same⟩ := ih shortLater rest
        refine ⟨record :: kept, List.cons_prefix_cons.mpr ⟨rfl, earlier⟩, ?_⟩
        rw [List.take_of_length_le (by omega), same, List.flatMap_cons]

/-- The octets are whole records. -/
def WholeRecords (data : Bytes) : Prop :=
  ∃ records : List Bytes, data = records.flatMap frame ∧ ∀ record ∈ records, record.length < 2 ^ 32

theorem LogReader.wholeRecords {data : Bytes} (strict : reader.shortPrefix ≠ none)
    (read : reader.replay data state = .ok final) : WholeRecords data := by
  obtain ⟨records, tail, rfl, short, ends, -⟩ := LogReader.replay_eq_ok.mp read
  rcases ends with rfl | ⟨-, lenient⟩
  · exact ⟨records, List.append_nil _, short⟩
  · exact absurd lenient strict

/-- Whole records that follow whole records and are cut are whole only between two of them. Witness:
a reader that takes every record.
-/
theorem WholeRecords.cut {base : Bytes} {count : Nat} (whole : WholeRecords base)
    (short : ∀ record ∈ records, record.length < 2 ^ 32)
    (cut : WholeRecords (base ++ (records.flatMap frame).take count))
    : ∃ kept, kept <+: records ∧ (records.flatMap frame).take count = kept.flatMap frame := by
  let taker : LogReader Unit Unit :=
    { absorb := fun _ _ => .ok (), shortPrefix := some (), shortRecord := fun _ => () }
  have takes : ∀ records : List Bytes, records.foldlM taker.absorb () = .ok () := by
    intro records
    induction records with
    | nil => rfl
    | cons record rest ih => exact ih
  obtain ⟨before, rfl, shortBefore⟩ := whole
  obtain ⟨all, same, shortAll⟩ := cut
  have readAll := @LogReader.replay_frames _ _ taker () [] all shortAll
  rw [List.append_nil, takes, ok_bind, LogReader.replay_nil, ← same,
    LogReader.replay_frames shortBefore, takes, ok_bind] at readAll
  exact LogReader.take_frames (show taker.shortPrefix ≠ none by simp [taker]) short readAll

/-- A log of whole records determines them. Witness: a reader that collects the records. -/
theorem frames_injective {left right : List Bytes}
    (shortLeft : ∀ record ∈ left, record.length < 2 ^ 32)
    (shortRight : ∀ record ∈ right, record.length < 2 ^ 32)
    (same : left.flatMap frame = right.flatMap frame)
    : left = right := by
  let collector : LogReader Unit (List Bytes) :=
    { absorb := fun seen record => .ok (seen ++ [record]), shortPrefix := none
      shortRecord := fun _ => () }
  have collected : ∀ records seen : List Bytes,
      records.foldlM collector.absorb seen = .ok (seen ++ records) := by
    intro records
    induction records with
    | nil => simp
    | cons record rest ih => simp [collector, List.foldlM_cons, ih]
  have read : ∀ records : List Bytes, (∀ record ∈ records, record.length < 2 ^ 32)
      → collector.replay (records.flatMap frame) [] = .ok records := by
    intro records short
    rw [← List.append_nil (records.flatMap frame), LogReader.replay_frames short, collected]
    simp
  have readLeft := read left shortLeft
  rw [same, read right shortRight] at readLeft
  exact (Except.ok.inj readLeft).symm

end Replay

end Naalp.Foundation
