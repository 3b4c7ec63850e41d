import Naalp.Foundation.Bytes
import Naalp.Foundation.Checks

/-! Logs of records that carry their length and a checksum.
A reader takes the records in turn and stops at the first that is cut short, fails its checksum or
is refused; what it kept is a log of whole records again.
-/

namespace Naalp.Foundation

variable {σ : Type}

/-- One bit of the reflected CRC-32 of IEEE 802.3. -/
def crc32Bit (crc : UInt32) : UInt32 :=
  if crc &&& 1 = 1 then (crc >>> 1) ^^^ 0xEDB88320 else crc >>> 1

def crc32 (data : Bytes) : UInt32 :=
  ~~~ data.foldl (fun crc octet => Nat.iterate crc32Bit 8 (crc ^^^ octet.toUInt32)) 0xFFFFFFFF

example : crc32 [0x31, 0x32, 0x33, 0x34, 0x35, 0x36, 0x37, 0x38, 0x39] = 0xCBF43926 := by
  decide +kernel

/-- A log: the checksum of its records, and what a reader does with one. -/
structure CheckedLog (σ : Type) where
  checksum : Bytes → UInt32
  absorb : σ → Bytes → Option σ

/-- A record as it stands in the log: the low 32 bits of its length, its checksum, its octets. -/
def CheckedLog.frame (log : CheckedLog σ) (record : Bytes) : Bytes :=
  toBigEndian 4 record.length ++ (toBigEndian 4 (log.checksum record).toNat ++ record)

/-- The memory of the records before the first unreadable one, and their octets. -/
def CheckedLog.recover (log : CheckedLog σ) (data : Bytes) (state : σ) : σ × Bytes :=
  if _short : data.length < 8 then (state, [])
  else
    let n := ofBigEndian (data.take 4)
    let sum := ofBigEndian ((data.drop 4).take 4)
    let body := data.drop 8
    let record := body.take n
    if body.length < n ∨ (log.checksum record).toNat ≠ sum then (state, [])
    else
      match log.absorb state record with
      | none => (state, [])
      | some next =>
          let later := log.recover (body.drop n) next
          (later.1, data.take (8 + n) ++ later.2)
termination_by data.length
decreasing_by
  simp only [List.length_drop]
  omega

namespace CheckedLog

variable {log : CheckedLog σ} {state next final : σ} {record rest : Bytes} {records : List Bytes}

@[simp]
theorem length_frame : (log.frame record).length = record.length + 8 := by
  simp [frame]
  omega

theorem recover_short (short : rest.length < 8) : log.recover rest state = (state, []) := by
  rw [recover, dif_pos short]

@[simp]
theorem recover_nil : log.recover [] state = (state, []) := recover_short (by simp)

/-- What a reader finds at the start of a framed record of any length.
Witness: the first four octets announce the length modulo the width of the prefix, and the
reader takes so many octets of the record.
-/
theorem recover_frame_eq : log.recover (log.frame record ++ rest) state
    = if (log.checksum (record.take (record.length % 2 ^ 32))).toNat
          ≠ (log.checksum record).toNat then (state, [])
      else
        match log.absorb state (record.take (record.length % 2 ^ 32)) with
        | none => (state, [])
        | some next =>
            let later := log.recover ((record ++ rest).drop (record.length % 2 ^ 32)) next
            (later.1, (log.frame record ++ rest).take (8 + record.length % 2 ^ 32) ++ later.2) := by
  have size (n : Nat) : (toBigEndian 4 n).length = 4 := length_toBigEndian ..
  have announced : ofBigEndian ((log.frame record ++ rest).take 4) = record.length % 2 ^ 32 := by
    rw [frame, List.append_assoc, List.take_left' (size _), ofBigEndian_toBigEndian_mod]
    rfl
  have summed : ofBigEndian (((log.frame record ++ rest).drop 4).take 4)
      = (log.checksum record).toNat := by
    rw [frame, List.append_assoc, List.drop_left' (size _), List.append_assoc,
      List.take_left' (size _), ofBigEndian_toBigEndian]
    exact UInt32.toNat_lt _
  have body : (log.frame record ++ rest).drop 8 = record ++ rest := by
    rw [frame, List.append_assoc, List.append_assoc, ← List.append_assoc,
      List.drop_left' (by simp)]
  have within : record.length % 2 ^ 32 ≤ record.length := Nat.mod_le ..
  have long : ¬ (record ++ rest).length < record.length % 2 ^ 32 := by
    rw [List.length_append]
    omega
  have front : (record ++ rest).take (record.length % 2 ^ 32)
      = record.take (record.length % 2 ^ 32) := List.take_append_of_le_length within
  rw [recover, dif_neg (by rw [List.length_append, length_frame]; omega)]
  simp only [announced, summed, body, front, long, false_or]

/-- A reader takes a record whose length fits in its header, and goes on after it. -/
theorem recover_frame (short : record.length < 2 ^ 32)
    (absorbed : log.absorb state record = some next)
    : log.recover (log.frame record ++ rest) state
      = ((log.recover rest next).1, log.frame record ++ (log.recover rest next).2) := by
  rw [recover_frame_eq, Nat.mod_eq_of_lt short, List.take_length, if_neg (not_not_intro rfl),
    absorbed]
  simp only [List.drop_left, List.take_left' (show (log.frame record).length = 8 + record.length by
    rw [length_frame, Nat.add_comm])]

/-- A reader stops at a record of which it refuses the announced part. -/
theorem recover_refused
    (refused : log.absorb state (record.take (record.length % 2 ^ 32)) = none)
    : log.recover (log.frame record ++ rest) state = (state, []) := by
  rw [recover_frame_eq, refused]
  split <;> rfl

/-- A reader drops a record that lacks its end. -/
theorem recover_torn {count : Nat} (short : record.length < 2 ^ 32)
    (torn : count < (log.frame record).length)
    : log.recover ((log.frame record).take count) state = (state, []) := by
  have size : ((log.frame record).take count).length = count := List.length_take_of_le (by omega)
  by_cases brief : count < 8
  · exact recover_short (by omega)
  · have announced : ((log.frame record).take count).take 4 = toBigEndian 4 record.length := by
      rw [List.take_take, Nat.min_eq_left (by omega), frame]
      exact List.take_left' (length_toBigEndian ..)
    have value : ofBigEndian (toBigEndian 4 record.length) = record.length :=
      ofBigEndian_toBigEndian (by omega)
    have missing : (((log.frame record).take count).drop 8).length < record.length := by
      rw [List.length_drop, size]
      rw [length_frame] at torn
      omega
    rw [recover, dif_neg (by omega), announced, value]
    simp only [missing, true_or, if_true]

/-- A reader takes the framed records one after the other, by induction over them. -/
theorem recover_frames (short : ∀ record ∈ records, record.length < 2 ^ 32)
    (absorbed : records.foldlM log.absorb state = some final)
    : log.recover (records.flatMap log.frame ++ rest) state
      = ((log.recover rest final).1, records.flatMap log.frame ++ (log.recover rest final).2) := by
  induction records generalizing state with
  | nil =>
      obtain rfl := Option.some.inj absorbed
      rfl
  | cons record later ih =>
      obtain ⟨first, shortLater⟩ := List.forall_mem_cons.mp short
      rw [List.foldlM_cons] at absorbed
      obtain ⟨next, taken, absorbed⟩ := Option.bind_eq_some_iff.mp absorbed
      rw [List.flatMap_cons, List.append_assoc, recover_frame first taken, ih shortLater absorbed,
        List.append_assoc]

/-- Octets that pass the checks of a reader start with the framed record that they announce. -/
theorem frame_of_checked {data : Bytes} (long : ¬ data.length < 8)
    (enough : ofBigEndian (data.take 4) ≤ (data.drop 8).length)
    (summed : (log.checksum ((data.drop 8).take (ofBigEndian (data.take 4)))).toNat
      = ofBigEndian ((data.drop 4).take 4))
    : ((data.drop 8).take (ofBigEndian (data.take 4))).length < 2 ^ 32
      ∧ log.frame ((data.drop 8).take (ofBigEndian (data.take 4)))
        = data.take (8 + ofBigEndian (data.take 4)) := by
  have bound := ofBigEndian_lt (data.take 4)
  have back := toBigEndian_ofBigEndian (data.take 4)
  have backSum := toBigEndian_ofBigEndian ((data.drop 4).take 4)
  have prefixed : (data.take 4).length = 4 := List.length_take_of_le (by omega)
  have sumSize : ((data.drop 4).take 4).length = 4 :=
    List.length_take_of_le (by rw [List.length_drop]; omega)
  have size : ((data.drop 8).take (ofBigEndian (data.take 4))).length = ofBigEndian (data.take 4) :=
    List.length_take_of_le enough
  rw [prefixed] at bound back
  rw [sumSize] at backSum
  have whole : 8 + ofBigEndian (data.take 4) = 4 + (4 + ofBigEndian (data.take 4)) := by omega
  constructor
  · omega
  · rw [frame, size, summed, back, backSum, whole, List.take_add, List.take_add, List.drop_drop]

/-- Whatever the octets, a reader keeps whole records that it absorbs in turn, by induction over the
length of the octets.
-/
theorem recover_records (log : CheckedLog σ) (data : Bytes) (state : σ)
    : ∃ records : List Bytes, (log.recover data state).2 = records.flatMap log.frame
      ∧ (∀ record ∈ records, record.length < 2 ^ 32)
      ∧ records.foldlM log.absorb state = some (log.recover data state).1
      ∧ (log.recover data state).2 <+: data := by
  induction data, state using CheckedLog.recover.induct log with
  | case1 data state short =>
      rw [recover_short short]
      exact ⟨[], rfl, by simp, rfl, List.nil_prefix⟩
  | case2 data state long n sum body record stops =>
      rw [recover, dif_neg long]
      simp only [n, sum, body, record] at stops
      rw [if_pos stops]
      exact ⟨[], rfl, by simp, rfl, List.nil_prefix⟩
  | case3 data state long n sum body record goes refused =>
      rw [recover, dif_neg long]
      simp only [n, sum, body, record] at goes refused
      simp only [if_neg goes, refused]
      exact ⟨[], rfl, by simp, rfl, List.nil_prefix⟩
  | case4 data state long n sum body record goes next absorbed ih =>
      obtain ⟨records, kept, short, fold, extends_⟩ := ih
      simp only [n, sum, body, record] at goes absorbed kept fold extends_
      rw [recover, dif_neg long]
      simp only [if_neg goes, absorbed]
      simp only [not_or, not_lt, not_not] at goes
      obtain ⟨fits, framed⟩ := frame_of_checked long goes.1 goes.2
      refine ⟨(data.drop 8).take (ofBigEndian (data.take 4)) :: records, ?_, ?_, ?_, ?_⟩
      · rw [List.flatMap_cons, framed, kept]
      · exact List.forall_mem_cons.mpr ⟨fits, short⟩
      · rw [List.foldlM_cons, absorbed]
        exact fold
      · obtain ⟨tail, split⟩ := extends_
        refine ⟨tail, ?_⟩
        rw [List.append_assoc, split, List.drop_drop, List.take_append_drop]

end CheckedLog

end Naalp.Foundation
