import Naalp.Python.Cbor

/-! The shortest-form heads of the Python codec.
Writing and reading a head are related to one closed form, `headBytes`.
-/

namespace Naalp.Python.Cbor

open Naalp.Foundation

/-- The additional information and the extension octets of an argument below 2^64. -/
def argForm (arg : Nat) : Nat × Bytes :=
  if arg < 24 then (arg, [])
  else if arg < 256 then (24, toBigEndian 1 arg)
  else if arg < 65536 then (25, toBigEndian 2 arg)
  else if arg < 2 ^ 32 then (26, toBigEndian 4 arg)
  else (27, toBigEndian 8 arg)

def headBytes (major arg : Nat) : Bytes :=
  UInt8.ofNat (major * 32 + (argForm arg).1) :: (argForm arg).2

theorem argForm_lt (arg : Nat) : (argForm arg).1 < 28 := by
  unfold argForm
  split_ifs <;> simp
  omega

theorem shiftLeft_or {major ai : Nat} (small : ai < 32)
    : major <<< 5 ||| ai = major * 32 + ai := by
  rw [← Nat.shiftLeft_add_eq_or_of_lt (by simpa using small), Nat.shiftLeft_eq]

theorem intToBytes_natCast (width : Nat) {arg : Nat} (bound : arg < 256 ^ width)
    : intToBytes width arg = .ok (toBigEndian width arg) := by
  have cast : (arg : Int) < 256 ^ width := by exact_mod_cast bound
  simp [intToBytes, cast]

/-- A head is written for every argument below 2^64, by the five widths in turn. -/
theorem head_natCast {major arg : Nat} (bound : arg < 2 ^ 64)
    : head major arg = .ok (headBytes major arg) := by
  unfold head headBytes argForm
  simp only [Nat.cast_lt_ofNat]
  split
  · rw [raiseIf_neg (by omega), Int.toNat_natCast, shiftLeft_or (by omega)]
    rfl
  split
  · have inside : (0 : Int) ≤ arg ∧ (arg : Int) < 256 := by omega
    rw [byteOfInt, if_pos inside, Int.toNat_natCast, shiftLeft_or (by omega)]
    simp [toBigEndian]
  split
  · rename_i small
    rw [intToBytes_natCast 2 small, shiftLeft_or (by omega)]
    rfl
  have cast : (arg : Int) < 2 ^ 32 ↔ arg < 2 ^ 32 := by exact_mod_cast Iff.rfl
  simp only [cast]
  split
  · rename_i small
    rw [intToBytes_natCast 4 small, shiftLeft_or (by omega)]
    rfl
  · rw [intToBytes_natCast 8 bound, shiftLeft_or (by omega)]
    rfl

/-- No head is written for any other argument: below zero the initial octet is out of
range, from 2^64 on eight octets overflow.
-/
theorem head_out_of_range {major : Nat} {n : Int} {bytes : Bytes}
    (outside : n < 0 ∨ 2 ^ 64 ≤ n)
    : head major n ≠ .ok bytes := by
  unfold head
  rcases outside with negative | large
  · rw [if_pos (by omega), raiseIf_pos negative]
    simp
  · have overflow : ¬ (0 ≤ n ∧ n < 256 ^ 8) := by omega
    rw [if_neg (by omega), if_neg (by omega), if_neg (by omega), if_neg (by omega),
      intToBytes, if_neg overflow]
    simp

/-- A head is written exactly for the arguments of 64 bits. -/
theorem head_eq_ok {major : Nat} {n : Int} {bytes : Bytes}
    : head major n = .ok bytes
      ↔ 0 ≤ n ∧ n < 2 ^ 64 ∧ bytes = headBytes major n.toNat := by
  constructor
  · intro written
    by_cases inside : 0 ≤ n ∧ n < 2 ^ 64
    · obtain ⟨arg, rfl⟩ := Int.eq_ofNat_of_zero_le inside.1
      have bound : arg < 2 ^ 64 := by omega
      rw [head_natCast bound] at written
      exact ⟨inside.1, inside.2, (Except.ok.inj written).symm⟩
    · exact (head_out_of_range (by omega) written).elim
  · rintro ⟨nonneg, bound, rfl⟩
    obtain ⟨arg, rfl⟩ := Int.eq_ofNat_of_zero_le nonneg
    exact head_natCast (by omega)

/-- Splitting an initial octet gives back the major type and additional information. -/
theorem initialOctet {major ai : Nat} (hm : major < 8) (ha : ai < 32)
    : (UInt8.ofNat (major * 32 + ai)).toNat >>> 5 = major
      ∧ (UInt8.ofNat (major * 32 + ai)).toNat &&& 0x1F = ai := by
  have value : (UInt8.ofNat (major * 32 + ai)).toNat = major * 32 + ai := by
    rw [UInt8.toNat_ofNat']
    omega
  have low : (major * 32 + ai) &&& 0x1F = (major * 32 + ai) % 32 :=
    Nat.and_two_pow_sub_one_eq_mod _ 5
  rw [value, low, Nat.shiftRight_eq_div_pow]
  omega

/-- Every octet is an initial octet of a major type below 8. -/
theorem initialOctet_split (ib : UInt8)
    : ib.toNat >>> 5 < 8
      ∧ ib.toNat &&& 0x1F < 32
      ∧ UInt8.ofNat ((ib.toNat >>> 5) * 32 + (ib.toNat &&& 0x1F)) = ib := by
  have small : ib.toNat < 256 := ib.toNat_lt
  have low : ib.toNat &&& 0x1F = ib.toNat % 32 := Nat.and_two_pow_sub_one_eq_mod _ 5
  rw [low, Nat.shiftRight_eq_div_pow]
  refine ⟨by omega, by omega, ?_⟩
  rw [show ib.toNat / 2 ^ 5 * 32 + ib.toNat % 32 = ib.toNat by omega]
  simp

/-- An argument of some octets is read exactly when it needs that many of them. -/
theorem extendedArg_eq_ok {width least : Nat} {body : Bytes} {arg : Nat} {rest : Bytes}
    : extendedArg width least body = .ok (arg, rest)
      ↔ least ≤ arg ∧ arg < 256 ^ width ∧ body = toBigEndian width arg ++ rest := by
  simp only [extendedArg, bind_eq_ok, raiseIf_eq_ok, exists_const, pure_eq_ok,
    Except.ok.injEq, Prod.mk.injEq, not_lt]
  constructor
  · rintro ⟨enough, shortest, rfl, rfl⟩
    have size : (body.take width).length = width := by simp [enough]
    have bound := ofBigEndian_lt (body.take width)
    have octets := toBigEndian_ofBigEndian (body.take width)
    rw [size] at bound octets
    exact ⟨shortest, bound, by rw [octets, List.take_append_drop]⟩
  · rintro ⟨shortest, bound, rfl⟩
    have front : (toBigEndian width arg ++ rest).take width = toBigEndian width arg :=
      List.take_left' (length_toBigEndian width arg)
    have back : (toBigEndian width arg ++ rest).drop width = rest :=
      List.drop_left' (length_toBigEndian width arg)
    rw [front, back, ofBigEndian_toBigEndian bound]
    exact ⟨by simp, shortest, rfl, rfl⟩

/-- An argument is read exactly from its shortest form. Witness: the five widths, each
with the bound that its shortest-form check leaves.
-/
theorem decodeArg_eq_ok {ai : Nat} {body : Bytes} {arg : Nat} {rest : Bytes}
    : decodeArg ai body = .ok (arg, rest)
      ↔ arg < 2 ^ 64 ∧ ai = (argForm arg).1 ∧ body = (argForm arg).2 ++ rest := by
  constructor
  · intro read
    unfold decodeArg at read
    unfold argForm
    split at read
    · rename_i small
      obtain ⟨rfl, rfl⟩ := Prod.mk.inj (Except.ok.inj read)
      exact ⟨by omega, by simp [small], by simp [small]⟩
    split at read
    · obtain ⟨least, bound, rfl⟩ := extendedArg_eq_ok.mp read
      rw [if_neg (by omega), if_pos (by omega)]
      exact ⟨by omega, by assumption, rfl⟩
    split at read
    · obtain ⟨least, bound, rfl⟩ := extendedArg_eq_ok.mp read
      rw [if_neg (by omega), if_neg (by omega), if_pos (by omega)]
      exact ⟨by omega, by assumption, rfl⟩
    split at read
    · obtain ⟨least, bound, rfl⟩ := extendedArg_eq_ok.mp read
      rw [if_neg (by omega), if_neg (by omega), if_neg (by omega), if_pos (by omega)]
      exact ⟨by omega, by assumption, rfl⟩
    split at read
    · obtain ⟨least, bound, rfl⟩ := extendedArg_eq_ok.mp read
      rw [if_neg (by omega), if_neg (by omega), if_neg (by omega), if_neg (by omega)]
      exact ⟨by omega, by assumption, rfl⟩
    · cases read
  · rintro ⟨bound, rfl, rfl⟩
    unfold argForm
    split
    · rename_i small
      simp [decodeArg, small]
    split
    · exact extendedArg_eq_ok.mpr ⟨by omega, by omega, rfl⟩
    split
    · exact extendedArg_eq_ok.mpr ⟨by omega, by omega, rfl⟩
    split
    · exact extendedArg_eq_ok.mpr ⟨by omega, by omega, rfl⟩
    · exact extendedArg_eq_ok.mpr ⟨by omega, by omega, rfl⟩

/-- Reading a head succeeds exactly on the shortest forms of the eight major types.
Witness: the first octet splits into the major type and the form of the argument, and the
argument is in its shortest form.
-/
theorem decodeHead_eq_ok {data : Bytes} {major arg : Nat} {rest : Bytes}
    : decodeHead data = .ok (major, arg, rest)
      ↔ major < 8 ∧ arg < 2 ^ 64 ∧ data = headBytes major arg ++ rest := by
  constructor
  · intro read
    cases data with
    | nil => simp [decodeHead] at read
    | cons ib body =>
        obtain ⟨majorSmall, -, octet⟩ := initialOctet_split ib
        simp only [decodeHead, bind_eq_ok, raiseIf_eq_ok, exists_const, Prod.exists,
          pure_eq_ok, Except.ok.injEq, Prod.mk.injEq] at read
        obtain ⟨-, arg, rest, argument, rfl, rfl, rfl⟩ := read
        obtain ⟨bound, additional, rfl⟩ := decodeArg_eq_ok.mp argument
        refine ⟨majorSmall, bound, ?_⟩
        rw [headBytes, ← additional, octet, List.cons_append]
  · rintro ⟨majorSmall, bound, rfl⟩
    have additional := argForm_lt arg
    have additionalSmall : (argForm arg).1 < 32 := by omega
    obtain ⟨top, low⟩ := initialOctet majorSmall additionalSmall
    have argument : decodeArg (argForm arg).1 ((argForm arg).2 ++ rest) = .ok (arg, rest) :=
      decodeArg_eq_ok.mpr ⟨bound, rfl, rfl⟩
    rw [headBytes, List.cons_append, decodeHead, top, low, argument,
      raiseIf_neg (by omega)]
    rfl

theorem length_headBytes_le (major arg : Nat) : (headBytes major arg).length ≤ 9 := by
  unfold headBytes argForm
  split_ifs <;> simp

end Naalp.Python.Cbor
