import Mathlib.Data.List.Sort
import Mathlib.Tactic.Ring
import Mathlib.Tactic.Positivity

/-! Octet strings, big-endian integers, and records of two strings that a zero octet separates.
Octet strings are compared by the lexicographic order of `List`, a proper prefix first.
-/

namespace Naalp.Foundation

abbrev Bytes := List UInt8

instance : LawfulBEq Bytes := inferInstanceAs (LawfulBEq (List UInt8))

/-- The `width` low octets of `n`, most significant first. -/
def toBigEndian : (width n : Nat) → Bytes
  | 0, _ => []
  | width + 1, n => UInt8.ofNat (n / 256 ^ width) :: toBigEndian width n

/-- The integer that a big-endian octet string denotes. -/
def ofBigEndian (bytes : Bytes) : Nat :=
  bytes.foldl (fun value byte => value * 256 + byte.toNat) 0

@[simp]
theorem length_toBigEndian (width n : Nat) : (toBigEndian width n).length = width := by
  induction width with
  | zero => rfl
  | succ width ih => simp [toBigEndian, ih]

/-- The fold's accumulator carries the octets already read, by list induction. -/
private theorem foldl_bigEndian (bytes : Bytes) (value : Nat)
    : bytes.foldl (fun value byte => value * 256 + byte.toNat) value
      = value * 256 ^ bytes.length + ofBigEndian bytes := by
  unfold ofBigEndian
  induction bytes generalizing value with
  | nil => simp
  | cons byte rest ih =>
      rw [List.foldl_cons, List.foldl_cons, ih, ih (0 * 256 + byte.toNat)]
      simp only [List.length_cons, pow_succ]
      ring

theorem ofBigEndian_cons (byte : UInt8) (rest : Bytes)
    : ofBigEndian (byte :: rest) = byte.toNat * 256 ^ rest.length + ofBigEndian rest := by
  have fold := foldl_bigEndian rest byte.toNat
  simpa [ofBigEndian] using fold

/-- A number is below the power of its octets, by induction on these. -/
theorem ofBigEndian_lt (bytes : Bytes) : ofBigEndian bytes < 256 ^ bytes.length := by
  induction bytes with
  | nil => simp [ofBigEndian]
  | cons byte rest ih =>
      have small : byte.toNat < 256 := byte.toNat_lt
      rw [ofBigEndian_cons, List.length_cons, pow_succ]
      calc
        byte.toNat * 256 ^ rest.length + ofBigEndian rest
          < byte.toNat * 256 ^ rest.length + 256 ^ rest.length := by omega
        _ = (byte.toNat + 1) * 256 ^ rest.length := by ring
        _ ≤ 256 * 256 ^ rest.length := Nat.mul_le_mul_right _ (by omega)
        _ = 256 ^ rest.length * 256 := Nat.mul_comm _ _

/-- Reading back the low octets of an integer keeps its residue, by induction on width. -/
theorem ofBigEndian_toBigEndian_mod (width n : Nat)
    : ofBigEndian (toBigEndian width n) = n % 256 ^ width := by
  induction width with
  | zero => simp [toBigEndian, ofBigEndian, Nat.mod_one]
  | succ width ih =>
      have top : (UInt8.ofNat (n / 256 ^ width)).toNat = n / 256 ^ width % 256 :=
        UInt8.toNat_ofNat'
      rw [toBigEndian, ofBigEndian_cons, length_toBigEndian, ih, top, pow_succ,
        Nat.mod_mul (x := n)]
      ring

theorem ofBigEndian_toBigEndian {width n : Nat} (bound : n < 256 ^ width)
    : ofBigEndian (toBigEndian width n) = n := by
  rw [ofBigEndian_toBigEndian_mod, Nat.mod_eq_of_lt bound]

/-- The octets of a given width depend only on the residue, by induction on width. -/
private theorem toBigEndian_add_mul (width n k : Nat)
    : toBigEndian width (n + 256 ^ width * k) = toBigEndian width n := by
  induction width generalizing k with
  | zero => rfl
  | succ width ih =>
      have split : n + 256 ^ (width + 1) * k = n + 256 ^ width * (256 * k) := by ring
      rw [toBigEndian, toBigEndian, split, ih, Nat.add_mul_div_left _ _ (by positivity)]
      congr 1
      apply UInt8.toNat.inj
      simp

/-- Writing back a read octet string restores it, by list induction. -/
theorem toBigEndian_ofBigEndian (bytes : Bytes)
    : toBigEndian bytes.length (ofBigEndian bytes) = bytes := by
  induction bytes with
  | nil => rfl
  | cons byte rest ih =>
      have small := ofBigEndian_lt rest
      have swap : byte.toNat * 256 ^ rest.length + ofBigEndian rest
          = ofBigEndian rest + 256 ^ rest.length * byte.toNat := by ring
      rw [ofBigEndian_cons, List.length_cons, toBigEndian, swap, toBigEndian_add_mul, ih,
        Nat.add_mul_div_left _ _ (by positivity), Nat.div_eq_of_lt small]
      simp

-----------------------------------------------------------------------------------------
-- Records with a zero octet
-----------------------------------------------------------------------------------------

/-- The parts before and after the first zero octet. -/
def splitZero (record : Bytes) : Option (Bytes × Bytes) :=
  (record.findIdx? (· == 0)).map fun nul => (record.take nul, record.drop (nul + 1))

/-- The two parts of a record, the first of which is free of zero octets. -/
theorem splitZero_eq_some {record first second : Bytes}
    : splitZero record = some (first, second)
      ↔ 0 ∉ first ∧ record = first ++ 0 :: second := by
  induction record generalizing first with
  | nil => simp [splitZero]
  | cons octet rest ih =>
      by_cases zero : octet = 0
      · subst zero
        cases first with
        | nil => simp [splitZero, List.findIdx?_cons, eq_comm]
        | cons other first =>
            simp [splitZero, List.findIdx?_cons]
            grind
      · cases first with
        | nil => simp [splitZero, List.findIdx?_cons, zero]
        | cons other first =>
            have tail := @ih first
            simp only [splitZero, Option.map_eq_some_iff, Prod.mk.injEq] at tail
            simp only [splitZero, List.findIdx?_cons, beq_iff_eq, zero, if_false, Option.map_map,
              Option.map_eq_some_iff, Function.comp_apply, List.take_succ_cons, List.drop_succ_cons,
              List.cons.injEq, Prod.mk.injEq, List.mem_cons, not_or, List.cons_append]
            grind

theorem splitZero_eq_none {record : Bytes} : splitZero record = none ↔ 0 ∉ record := by
  simp only [splitZero, Option.map_eq_none_iff, List.findIdx?_eq_none_iff, beq_eq_false_iff_ne]
  grind

theorem ofNat_ne_zero {n : Nat} (positive : 0 < n) (small : n < 256) : UInt8.ofNat n ≠ 0 := by
  intro zero
  have value := congrArg UInt8.toNat zero
  rw [UInt8.toNat_ofNat'] at value
  change n % 256 = 0 at value
  omega

/-- Only the zero character has a zero octet, by the four lengths of an encoded character. -/
theorem zero_notMem_utf8EncodeChar {c : Char} (nonzero : c ≠ Char.ofNat 0)
    : (0 : UInt8) ∉ String.utf8EncodeChar c := by
  have positive : 0 < c.val.toNat := by
    rcases Nat.eq_zero_or_pos c.val.toNat with zero | positive
    · exact (nonzero (Char.ext (UInt32.toNat_inj.mp zero))).elim
    · exact positive
  unfold String.utf8EncodeChar
  dsimp only
  intro member
  split_ifs at member
  all_goals
    simp only [List.mem_cons, List.not_mem_nil, or_false] at member
  · exact ofNat_ne_zero (by omega) (by omega) member.symm
  · rcases member with first | last
    · exact ofNat_ne_zero (by omega) (by omega) first.symm
    · exact ofNat_ne_zero (by omega) (by omega) last.symm
  · rcases member with first | second | last
    · exact ofNat_ne_zero (by omega) (by omega) first.symm
    · exact ofNat_ne_zero (by omega) (by omega) second.symm
    · exact ofNat_ne_zero (by omega) (by omega) last.symm
  · rcases member with first | second | third | last
    · exact ofNat_ne_zero (by omega) (by omega) first.symm
    · exact ofNat_ne_zero (by omega) (by omega) second.symm
    · exact ofNat_ne_zero (by omega) (by omega) third.symm
    · exact ofNat_ne_zero (by omega) (by omega) last.symm

/-- A text has a zero octet exactly when it has a zero character. -/
theorem zero_mem_utf8 {chars : List Char}
    : (0 : UInt8) ∈ chars.flatMap String.utf8EncodeChar ↔ Char.ofNat 0 ∈ chars := by
  rw [List.mem_flatMap]
  constructor
  · intro found
    obtain ⟨c, member, zero⟩ := found
    by_contra absent
    exact zero_notMem_utf8EncodeChar (fun same => absent (same ▸ member)) zero
  · intro member
    exact ⟨Char.ofNat 0, member, by decide⟩

end Naalp.Foundation
