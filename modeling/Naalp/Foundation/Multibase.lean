import Mathlib.Data.List.GetD
import Naalp.Foundation.Sha2

/-! Text forms of octet strings: hexadecimal, base 32 and self-certifying key ids. -/

namespace Naalp.Foundation

def hexAlphabet : List Char :=
  ['0', '1', '2', '3', '4', '5', '6', '7', '8', '9', 'a', 'b', 'c', 'd', 'e', 'f']

def hexDigit (n : Nat) : Char := hexAlphabet.getD n '0'

/-- Two lower-case digits for each octet, the high half first. -/
def hex (data : Bytes) : List Char :=
  data.flatMap (fun byte => [hexDigit (byte.toNat / 16), hexDigit (byte.toNat % 16)])

theorem hexDigit_mem {n : Nat} (small : n < 16) : hexDigit n ∈ hexAlphabet := by
  rw [hexDigit, List.getD_eq_getElem _ _ small]
  exact List.getElem_mem small

theorem hexDigit_inj {m n : Nat} (left : m < 16) (right : n < 16)
    (same : hexDigit m = hexDigit n) : m = n := by
  have distinct : hexAlphabet.Nodup := by decide
  rw [hexDigit, hexDigit, List.getD_eq_getElem _ _ left, List.getD_eq_getElem _ _ right] at same
  exact (distinct.getElem_inj_iff).mp same

/-- Every character of a hexadecimal text is a digit, by its octets. -/
theorem mem_hex {data : Bytes} {c : Char} (member : c ∈ hex data) : c ∈ hexAlphabet := by
  obtain ⟨byte, -, digit⟩ := List.mem_flatMap.mp member
  have small := byte.toNat_lt
  rcases List.mem_pair.mp digit with rfl | rfl
  · exact hexDigit_mem (by omega)
  · exact hexDigit_mem (by omega)

/-- The text determines the octets, by induction on both. -/
theorem hex_injective {left right : Bytes} (same : hex left = hex right) : left = right := by
  induction left generalizing right with
  | nil =>
      cases right with
      | nil => rfl
      | cons byte rest => cases same
  | cons byte rest ih =>
      cases right with
      | nil => cases same
      | cons byte' rest' =>
          simp only [hex, List.flatMap_cons, List.cons_append, List.nil_append,
            List.cons.injEq] at same
          obtain ⟨high, low, tail⟩ := same
          have bound := byte.toNat_lt
          have bound' := byte'.toNat_lt
          have high := hexDigit_inj (by omega) (by omega) high
          have low := hexDigit_inj (by omega) (by omega) low
          have equal : byte = byte' := UInt8.toNat.inj (by omega)
          rw [equal, ih tail]

def base32Alphabet : List Char :=
  ['a', 'b', 'c', 'd', 'e', 'f', 'g', 'h', 'i', 'j', 'k', 'l', 'm', 'n', 'o', 'p', 'q', 'r', 's',
    't', 'u', 'v', 'w', 'x', 'y', 'z', '2', '3', '4', '5', '6', '7']

/-- The bits of an octet, most significant first. -/
def bitsOf (byte : UInt8) : List Bool :=
  [byte.toNat.testBit 7, byte.toNat.testBit 6, byte.toNat.testBit 5, byte.toNat.testBit 4,
    byte.toNat.testBit 3, byte.toNat.testBit 2, byte.toNat.testBit 1, byte.toNat.testBit 0]

def bitsValue (bits : List Bool) : Nat :=
  bits.foldl (fun value bit => 2 * value + bit.toNat) 0

def base32Digit (bits : List Bool) : Char := base32Alphabet.getD (bitsValue bits) 'a'

/-- Five bits for each character; the last group is filled up with zero bits. -/
def base32Bits : List Bool → List Char
  | [] => []
  | [a] => [base32Digit [a, false, false, false, false]]
  | [a, b] => [base32Digit [a, b, false, false, false]]
  | [a, b, c] => [base32Digit [a, b, c, false, false]]
  | [a, b, c, d] => [base32Digit [a, b, c, d, false]]
  | a :: b :: c :: d :: e :: rest => base32Digit [a, b, c, d, e] :: base32Bits rest

/-- The lower-case RFC 4648 text, without padding. -/
def base32 (data : Bytes) : List Char := base32Bits (data.flatMap bitsOf)

@[simp]
theorem bitsValue_append (bits : List Bool) (bit : Bool)
    : bitsValue (bits ++ [bit]) = 2 * bitsValue bits + bit.toNat := by
  simp [bitsValue]

theorem bitsValue_lt (bits : List Bool) : bitsValue bits < 2 ^ bits.length := by
  induction bits using List.reverseRecOn with
  | nil => decide
  | append_singleton bits bit ih =>
      have := bit.toNat_le
      rw [bitsValue_append, List.length_append, List.length_singleton, Nat.pow_succ]
      omega

/-- Bit lists of one length with the same value are the same, by induction from the last bit. -/
theorem bitsValue_inj {left right : List Bool} (size : left.length = right.length)
    (same : bitsValue left = bitsValue right) : left = right := by
  induction left using List.reverseRecOn generalizing right with
  | nil => exact (List.length_eq_zero_iff.mp size.symm).symm
  | append_singleton left bit ih =>
      rcases right.eq_nil_or_concat' with rfl | ⟨right, bit', rfl⟩
      · simp at size
      · rw [bitsValue_append, bitsValue_append] at same
        have small := bit.toNat_le
        have small' := bit'.toNat_le
        have last : bit = bit' := by
          cases bit <;> cases bit' <;> simp only [Bool.toNat_true, Bool.toNat_false] at same <;>
            first | rfl | omega
        rw [List.length_append, List.length_append] at size
        rw [ih (Nat.add_right_cancel size) (by omega), last]

theorem base32Digit_inj {left right : List Bool} (five : left.length = 5)
    (five' : right.length = 5) (same : base32Digit left = base32Digit right) : left = right := by
  have distinct : base32Alphabet.Nodup := by decide
  have small : bitsValue left < 2 ^ 5 := by rw [← five]; exact bitsValue_lt left
  have small' : bitsValue right < 2 ^ 5 := by rw [← five']; exact bitsValue_lt right
  rw [base32Digit, base32Digit, List.getD_eq_getElem _ _ small,
    List.getD_eq_getElem _ _ small'] at same
  exact bitsValue_inj (five.trans five'.symm) (distinct.getElem_inj_iff.mp same)

/-- The text determines bits of a known number, group by group. -/
theorem base32Bits_inj {left right : List Bool} (size : left.length = right.length)
    (same : base32Bits left = base32Bits right) : left = right := by
  induction left using base32Bits.induct generalizing right with
  | case1 => exact (List.length_eq_zero_iff.mp size.symm).symm
  | case2 a | case3 a b | case4 a b c | case5 a b c d =>
      rcases right with _ | ⟨a', _ | ⟨b', _ | ⟨c', _ | ⟨d', _ | ⟨e', rest'⟩⟩⟩⟩⟩ <;>
        simp only [List.length_cons, List.length_nil] at size <;> try omega
      simp only [base32Bits, List.cons.injEq, and_true] at same
      have equal := base32Digit_inj rfl rfl same
      simp only [List.cons.injEq, and_true] at equal
      simp only [equal]
  | case6 a b c d e rest ih =>
      rcases right with _ | ⟨a', _ | ⟨b', _ | ⟨c', _ | ⟨d', _ | ⟨e', rest'⟩⟩⟩⟩⟩ <;>
        simp only [List.length_cons, List.length_nil] at size <;> try omega
      simp only [base32Bits, List.cons.injEq] at same
      have equal := base32Digit_inj rfl rfl same.1
      simp only [List.cons.injEq, and_true] at equal
      rw [ih (by omega) same.2]
      simp only [equal]

theorem bitsValue_bitsOf (byte : UInt8) : bitsValue (bitsOf byte) = byte.toNat := by
  have all : ∀ n < 256, bitsValue [n.testBit 7, n.testBit 6, n.testBit 5, n.testBit 4,
      n.testBit 3, n.testBit 2, n.testBit 1, n.testBit 0] = n := by
    decide +kernel
  exact all _ byte.toNat_lt

/-- The text determines octets of a known number, by those of each octet. -/
theorem base32_inj {left right : Bytes} (size : left.length = right.length)
    (same : base32 left = base32 right) : left = right := by
  have total : ∀ data : Bytes, (data.flatMap bitsOf).length = 8 * data.length := by
    intro data
    induction data with
    | nil => rfl
    | cons byte rest ih =>
        rw [List.flatMap_cons, List.length_append, ih, List.length_cons]
        simp only [bitsOf, List.length_cons, List.length_nil]
        omega
  have bits := base32Bits_inj (by rw [total, total, size]) same
  clear same
  induction left generalizing right with
  | nil => exact (List.length_eq_zero_iff.mp size.symm).symm
  | cons byte rest ih =>
      cases right with
      | nil => cases size
      | cons byte' rest' =>
          rw [List.flatMap_cons, List.flatMap_cons] at bits
          obtain ⟨first, later⟩ := List.append_inj bits rfl
          have equal : byte = byte' := by
            apply UInt8.toNat.inj
            rw [← bitsValue_bitsOf, first, bitsValue_bitsOf]
          rw [equal, ih (Nat.succ.inj size) later]

/-- The loop of the varint, for at most `rounds` groups of seven bits before the last. -/
def uvarintFor : (rounds n : Nat) → Bytes
  | 0, n => [UInt8.ofNat n]
  | rounds + 1, n =>
      if n < 128 then [UInt8.ofNat n]
        else UInt8.ofNat (n % 128 + 128) :: uvarintFor rounds (n / 128)

/-- The unsigned LEB128 varint of a number, which has fewer groups than its value. -/
def uvarint (n : Nat) : Bytes := uvarintFor n n

/-- The SHA-256 multihash code. -/
def mhSha256 : Nat := 0x12

/-- The base 32 multibase text of the SHA-256 multihash of the given octets. -/
def multihashId (tagged : Bytes) : List Char :=
  let digest := Sha256.sha256 tagged
  'b' :: base32 (uvarint mhSha256 ++ uvarint digest.length ++ digest)

/-- Every such id starts alike, since the multihash starts with its code and length. -/
theorem multihashId_eq (tagged : Bytes)
    : ∃ rest, multihashId tagged = 'b' :: 'c' :: 'i' :: rest := by
  refine ⟨base32Bits ([true, false, false, false, false, false]
    ++ (Sha256.sha256 tagged).flatMap bitsOf), ?_⟩
  have code : uvarint mhSha256 = [0x12] := by decide
  have size : uvarint 32 = [0x20] := by decide
  simp only [multihashId, Sha256.length_sha256, code, size]
  rfl

/-- Two such ids are the same exactly when the digests are. -/
theorem multihashId_eq_iff {left right : Bytes}
    : multihashId left = multihashId right ↔ Sha256.sha256 left = Sha256.sha256 right := by
  constructor
  · intro same
    have octets := base32_inj (by simp) (List.cons.inj same).2
    simp only [Sha256.length_sha256] at octets
    exact List.append_cancel_left octets
  · intro same
    rw [multihashId, multihashId, same]

theorem length_base32Bits_le (bits : List Bool) : (base32Bits bits).length ≤ bits.length := by
  induction bits using base32Bits.induct with
  | case6 a b c d e rest ih =>
      simp only [base32Bits, List.length_cons]
      omega
  | _ => simp [base32Bits]

/-- The text of an id has at most one character for each bit of the multihash. -/
theorem length_utf8_multihashId_le (tagged : Bytes)
    : ((multihashId tagged).flatMap String.utf8EncodeChar).length ≤ 2000 := by
  have characters : (multihashId tagged).length ≤ 273 := by
    have bits := length_base32Bits_le
      ((uvarint mhSha256 ++ uvarint 32 ++ Sha256.sha256 tagged).flatMap bitsOf)
    have code : (uvarint mhSha256).length = 1 := by decide
    have size : (uvarint 32).length = 1 := by decide
    have octets : ((uvarint mhSha256 ++ uvarint 32 ++ Sha256.sha256 tagged).flatMap bitsOf).length
        = 272 := by
      simp [List.length_flatMap, bitsOf, Sha256.length_sha256, code, size]
    rw [multihashId, Sha256.length_sha256, List.length_cons, base32]
    omega
  have wide (text : List Char) : (text.flatMap String.utf8EncodeChar).length ≤ 4 * text.length := by
    induction text with
    | nil => simp
    | cons c text ih =>
        have four := c.utf8Size_le_four
        rw [List.flatMap_cons, List.length_append, String.length_utf8EncodeChar, List.length_cons]
        omega
  have octets := wide (multihashId tagged)
  omega

/-- No such id is a hexadecimal text: its third character is no digit. -/
theorem multihashId_ne_hex (tagged data : Bytes) : multihashId tagged ≠ hex data := by
  intro same
  obtain ⟨rest, starts⟩ := multihashId_eq tagged
  have member : 'i' ∈ hex data := by simp [← same, starts]
  have digit := mem_hex member
  revert digit
  decide

end Naalp.Foundation
