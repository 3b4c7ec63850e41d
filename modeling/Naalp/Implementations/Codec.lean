import Naalp.CanonicalEncoding.RoundTrip
import Naalp.Go.Cbor

/-! The Go decoder accepts what the Python decoder accepts, less the negative integers that
`int64` cannot hold, and decodes it to the same value.
-/

namespace Naalp.Implementations

open Naalp.Foundation
open Naalp.Python
open Naalp.Python.Cbor

/-- Every negative integer of the value, at every level, is at least -2^63. -/
inductive NintsFit : Value → Prop where
  | u (v : Int) : NintsFit (.u v)
  | n {v : Int} (fits : -2 ^ 63 ≤ v) : NintsFit (.n v)
  | b (v : Bytes) : NintsFit (.b v)
  | t (v : PyStr) : NintsFit (.t v)
  | a {items : List Value} (members : ∀ item ∈ items, NintsFit item) : NintsFit (.a items)
  | m {pairs : List (Value × Value)} (keys : ∀ pair ∈ pairs, NintsFit pair.1)
      (values : ∀ pair ∈ pairs, NintsFit pair.2) : NintsFit (.m pairs)
  | tag (number : Int) {content : Value} (inner : NintsFit content)
      : NintsFit (.tag number content)

@[simp]
theorem nintsFit_n {v : Int} : NintsFit (.n v) ↔ -2 ^ 63 ≤ v :=
  ⟨fun | .n fits => fits, .n⟩

@[simp]
theorem nintsFit_a {items : List Value} : NintsFit (.a items) ↔ ∀ item ∈ items, NintsFit item :=
  ⟨fun | .a members => members, .a⟩

@[simp]
theorem nintsFit_m {pairs : List (Value × Value)}
    : NintsFit (.m pairs) ↔ ∀ pair ∈ pairs, NintsFit pair.1 ∧ NintsFit pair.2 := by
  constructor
  · intro fits
    cases fits with
    | m keys values => exact fun pair member => ⟨keys pair member, values pair member⟩
  · intro fits
    exact .m (fun pair member => (fits pair member).1) (fun pair member => (fits pair member).2)

@[simp]
theorem nintsFit_tag {number : Int} {content : Value}
    : NintsFit (.tag number content) ↔ NintsFit content :=
  ⟨fun | .tag _ inner => inner, .tag number⟩

theorem readExtended_eq_ok {width least : Nat} {truncated : String} {b : Bytes} {arg : Nat}
    {rest : Bytes}
    : Go.Cbor.readExtended width least truncated b = .ok (arg, rest)
      ↔ extendedArg width least b = .ok (arg, rest) := by
  simp only [Go.Cbor.readExtended, extendedArg, bind_eq_ok, raiseIf_eq_ok, pure_eq_ok,
    Except.ok.injEq]

/-- Go reads an argument exactly as Python does. -/
theorem readArg_eq_ok {ai : Nat} {b : Bytes} {arg : Nat} {rest : Bytes}
    : Go.Cbor.readArg ai b = .ok (arg, rest) ↔ decodeArg ai b = .ok (arg, rest) := by
  unfold Go.Cbor.readArg decodeArg
  split_ifs
  · simp
  · exact readExtended_eq_ok
  · exact readExtended_eq_ok
  · exact readExtended_eq_ok
  · exact readExtended_eq_ok
  · simp

/-- The two checks of the Go loop on the key order are the one check of the Python loop. -/
theorem orderChecks_iff {prev : Option Bytes} {kbytes : Bytes}
    : ((¬ ∃ p ∈ prev, kbytes < p) ∧ ¬ ∃ p ∈ prev, p = kbytes) ↔ ¬ ∃ p ∈ prev, kbytes ≤ p := by
  simp only [List.le_iff_lt_or_eq]
  grind

section Loops

variable {goItem : Bytes → Go.Result (Value × Bytes)} {item : Bytes → Py (Value × Bytes)}
  (narrows : ∀ data v rest, goItem data = .ok (v, rest) ↔ item data = .ok (v, rest) ∧ NintsFit v)

include narrows

/-- Go reads the items that Python reads, when their integers fit, by induction on their
number.
-/
theorem decodeItems_eq_ok {count : Nat} {data : Bytes} {items : List Value} {rest : Bytes}
    : Go.Cbor.decodeItems goItem count data = .ok (items, rest)
      ↔ Cbor.decodeItems item count data = .ok (items, rest) ∧ ∀ it ∈ items, NintsFit it := by
  unfold Go.Cbor.decodeItems Cbor.decodeItems
  apply readLoop_restrict
  intro state data it after rest
  simp only [bind_eq_ok, Prod.exists, narrows, pure_eq_ok, Except.ok.injEq, Prod.mk.injEq]
  constructor
  · intro read
    obtain ⟨_, _, ⟨first, kept⟩, rfl, same, rfl⟩ := read
    exact ⟨⟨_, _, first, rfl, same, rfl⟩, kept⟩
  · intro read
    obtain ⟨⟨_, _, first, rfl, same, rfl⟩, kept⟩ := read
    exact ⟨_, _, ⟨first, kept⟩, rfl, same, rfl⟩

/-- The two rounds check the key order at different points, and accept the same pairs. -/
theorem decodePair_eq_ok (prev : Option Bytes) (data : Bytes) (pair : Value × Value)
    (after : Option Bytes) (rest : Bytes)
    : Go.Cbor.decodePair goItem prev data = .ok (pair, after, rest)
      ↔ Cbor.decodePair item prev data = .ok (pair, after, rest)
        ∧ NintsFit pair.1 ∧ NintsFit pair.2 := by
  obtain ⟨k, val⟩ := pair
  simp only [Go.Cbor.decodePair, Cbor.decodePair, bind_eq_ok, Prod.exists, narrows, raiseIf_eq_ok,
    exists_const, pure_eq_ok, Except.ok.injEq, Prod.mk.injEq]
  constructor
  · intro read
    obtain ⟨_, cur, ⟨key, keyFits⟩, notBelow, notSame, _, _, ⟨value, valueFits⟩, ⟨rfl, rfl⟩, rfl,
        rfl⟩ :=
      read
    exact ⟨⟨_, _, key, _, _, value, orderChecks_iff.mp ⟨notBelow, notSame⟩, ⟨rfl, rfl⟩, rfl, rfl⟩,
      keyFits, valueFits⟩
  · intro read
    obtain ⟨⟨_, _, key, _, _, value, above, ⟨rfl, rfl⟩, rfl, rfl⟩, keyFits, valueFits⟩ := read
    obtain ⟨notBelow, notSame⟩ := orderChecks_iff.mpr above
    exact ⟨_, _, ⟨key, keyFits⟩, notBelow, notSame, _, _, ⟨value, valueFits⟩, ⟨rfl, rfl⟩, rfl, rfl⟩

theorem decodePairs_eq_ok {count : Nat} {data : Bytes} {pairs : List (Value × Value)}
    {rest : Bytes}
    : Go.Cbor.decodePairs goItem count data = .ok (pairs, rest)
      ↔ Cbor.decodePairs item count data = .ok (pairs, rest)
        ∧ ∀ pair ∈ pairs, NintsFit pair.1 ∧ NintsFit pair.2 := by
  unfold Go.Cbor.decodePairs Cbor.decodePairs
  exact readLoop_restrict (decodePair_eq_ok narrows)

end Loops

theorem encoding_ne_nil {remaining : Nat} {v : Value} (canonical : Canonical remaining v)
    : encoding v ≠ [] := by
  intro empty
  have read := (dec_readsExactly remaining [] v []).mpr ⟨canonical, by simp [empty]⟩
  cases remaining with
  | zero => cases read
  | succ remaining => cases read

/-- Every item takes an octet, so the Go bound on the announced length refuses no array. -/
theorem length_le_of_decodeItems {remaining count : Nat} {data rest : Bytes} {items : List Value}
    (read : Cbor.decodeItems (dec remaining) count data = .ok (items, rest))
    : count ≤ data.length := by
  obtain ⟨rfl, members, rfl⟩ := (Cbor.decodeItems_eq_ok (dec_readsExactly remaining)).mp read
  have each : items.length ≤ (items.flatMap encoding).length := by
    rw [List.length_flatMap]
    refine le_trans ?_ (List.length_le_sum_of_one_le _ ?_)
    · simp
    · intro size member
      obtain ⟨item, inside, rfl⟩ := List.mem_map.mp member
      exact List.length_pos_of_ne_nil (encoding_ne_nil (members item inside))
  rw [List.length_append]
  omega

/-- Every pair takes two octets, so the Go bound refuses no map. -/
theorem length_le_of_decodePairs {remaining count : Nat} {data rest : Bytes}
    {pairs : List (Value × Value)}
    (read : Cbor.decodePairs (dec remaining) count data = .ok (pairs, rest))
    : count ≤ data.length / 2 := by
  obtain ⟨rfl, -, members, rfl⟩ := (Cbor.decodePairs_eq_ok (dec_readsExactly remaining)).mp read
  have each : pairs.length * 2 ≤ (pairs.flatMap encodedPair).length := by
    clear read
    induction pairs with
    | nil => simp
    | cons pair tail ih =>
        obtain ⟨first, later⟩ := List.forall_mem_cons.mp members
        have key := List.length_pos_of_ne_nil (encoding_ne_nil first.1)
        have value := List.length_pos_of_ne_nil (encoding_ne_nil first.2)
        have rest := ih later
        simp only [List.length_cons, List.flatMap_cons, List.length_append, encodedPair] at rest ⊢
        omega
  rw [List.length_append]
  omega

section Content

variable {remaining : Nat} {goItem : Bytes → Go.Result (Value × Bytes)}
  (narrows : ∀ data v rest, goItem data = .ok (v, rest)
    ↔ dec remaining data = .ok (v, rest) ∧ NintsFit v)

include narrows

/-- The switches over the major type agree, one case per type.
Witness: arrays, maps and tags hold items of one level less, for which the decoders agree.
-/
theorem decodeContent_eq_ok {major arg : Nat} {body rest : Bytes} {v : Value}
    : Go.Cbor.decodeContent goItem major arg body = .ok (v, rest)
      ↔ Cbor.decodeContent (dec remaining) major arg body = .ok (v, rest) ∧ NintsFit v := by
  have keptBy : ∀ {value : Value} {tail : Bytes}, NintsFit value
      → ((value, tail) = (v, rest) ↔ (value, tail) = (v, rest) ∧ NintsFit v) := by
    intro value tail fits
    exact ⟨fun same => ⟨same, (Prod.mk.inj same).1 ▸ fits⟩, And.left⟩
  unfold Go.Cbor.decodeContent Cbor.decodeContent
  split
  · simp only [pure_eq_ok, Except.ok.injEq]
    exact keptBy (.u _)
  · simp only [bind_eq_ok, raiseIf_eq_ok, exists_const, pure_eq_ok, Except.ok.injEq,
      Prod.mk.injEq]
    have limit : Go.maxInt64 = 2 ^ 63 - 1 := rfl
    constructor
    · rintro ⟨small, rfl, rfl⟩
      exact ⟨⟨rfl, rfl⟩, .n (by omega)⟩
    · rintro ⟨⟨rfl, rfl⟩, fits⟩
      rw [nintsFit_n] at fits
      exact ⟨by omega, rfl, rfl⟩
  · simp only [bind_eq_ok, raiseIf_eq_ok, exists_const, pure_eq_ok, Except.ok.injEq, and_assoc]
    exact and_congr_right fun _ => keptBy (.b _)
  · simp only [bind_eq_ok, raiseIf_eq_ok, exists_const, pure_eq_ok, Except.ok.injEq, and_assoc]
    refine and_congr_right fun _ => ?_
    cases decoded : PyStr.decode (body.take arg) with
    | ok text => simpa using keptBy (.t text)
    | error e => simp
  · simp only [bind_eq_ok, Prod.exists, raiseIf_eq_ok, exists_const, pure_eq_ok, Except.ok.injEq,
      Prod.mk.injEq, decodeItems_eq_ok narrows]
    constructor
    · rintro ⟨-, items, tail, ⟨loop, fits⟩, rfl, rfl⟩
      exact ⟨⟨items, tail, loop, rfl, rfl⟩, .a fits⟩
    · rintro ⟨⟨items, tail, loop, rfl, rfl⟩, fits⟩
      exact ⟨Nat.not_lt.mpr (length_le_of_decodeItems loop), items, tail,
        ⟨loop, nintsFit_a.mp fits⟩, rfl, rfl⟩
  · simp only [bind_eq_ok, Prod.exists, raiseIf_eq_ok, exists_const, pure_eq_ok, Except.ok.injEq,
      Prod.mk.injEq, decodePairs_eq_ok narrows]
    constructor
    · rintro ⟨-, pairs, tail, ⟨loop, fits⟩, rfl, rfl⟩
      exact ⟨⟨pairs, tail, loop, rfl, rfl⟩, nintsFit_m.mpr fits⟩
    · rintro ⟨⟨pairs, tail, loop, rfl, rfl⟩, fits⟩
      exact ⟨Nat.not_lt.mpr (length_le_of_decodePairs loop), pairs, tail,
        ⟨loop, nintsFit_m.mp fits⟩, rfl, rfl⟩
  · simp only [bind_eq_ok, Prod.exists, pure_eq_ok, Except.ok.injEq, Prod.mk.injEq, narrows]
    constructor
    · rintro ⟨content, tail, ⟨inner, fits⟩, rfl, rfl⟩
      exact ⟨⟨content, tail, inner, rfl, rfl⟩, .tag _ fits⟩
    · rintro ⟨⟨content, tail, inner, rfl, rfl⟩, fits⟩
      exact ⟨content, tail, ⟨inner, nintsFit_tag.mp fits⟩, rfl, rfl⟩
  · simp

end Content

/-- Reading a head and then a content that narrows the Python one narrows the Python decoder. -/
theorem headThenContent_eq_ok {remaining : Nat}
    {content : Nat → Nat → Bytes → Go.Result (Value × Bytes)}
    (narrows : ∀ {major arg body v rest}, content major arg body = .ok (v, rest)
      ↔ Cbor.decodeContent (dec remaining) major arg body = .ok (v, rest) ∧ NintsFit v)
    {ib : UInt8} {body : Bytes} {v : Value} {rest : Bytes}
    : (do
        let (arg, cur) ← Go.Cbor.readArg (ib.toNat &&& 0x1f) body
        content (ib.toNat >>> 5) arg cur) = .ok (v, rest)
      ↔ dec (remaining + 1) (ib :: body) = .ok (v, rest) ∧ NintsFit v := by
  simp only [dec, decodeHead, bind_eq_ok, Prod.exists, readArg_eq_ok, narrows, raiseIf_eq_ok,
    exists_const, pure_eq_ok, Except.ok.injEq, Prod.mk.injEq]
  constructor
  · intro decoded
    obtain ⟨arg, tail, read, inside, fits⟩ := decoded
    have definite : ib.toNat &&& 31 ≠ 31 := by
      intro indefinite
      rw [indefinite] at read
      cases read
    exact ⟨⟨_, arg, tail, ⟨definite, arg, tail, read, rfl, rfl, rfl⟩, inside⟩, fits⟩
  · intro decoded
    obtain ⟨⟨_, arg, tail, ⟨-, _, _, read, rfl, rfl, rfl⟩, inside⟩, fits⟩ := decoded
    exact ⟨_, _, read, inside, fits⟩

/-- The Go decoder narrows the Python decoder to the negative integers of `int64`, by
induction on the levels left.
-/
theorem decodeAt_eq_ok (remaining : Nat)
    : ∀ data v rest, Go.Cbor.decodeAt remaining data = .ok (v, rest)
      ↔ dec remaining data = .ok (v, rest) ∧ NintsFit v := by
  induction remaining with
  | zero =>
      intro data v rest
      simp [Go.Cbor.decodeAt, dec]
  | succ remaining ih =>
      intro data v rest
      cases data with
      | nil => simp [Go.Cbor.decodeAt, dec, decodeHead]
      | cons ib body =>
          rw [Go.Cbor.decodeAt]
          exact headThenContent_eq_ok (decodeContent_eq_ok ih)

/-- Both decoders accept an octet string with the same value, or Go refuses a negative
integer below -2^63 in it.
-/
theorem goDecodeBounded_eq_ok {data : Bytes} {maxDepth : Nat} {v : Value}
    : Go.Cbor.decodeBounded data maxDepth = .ok v
      ↔ decodeBounded data maxDepth = .ok v ∧ NintsFit v := by
  simp only [Go.Cbor.decodeBounded, Go.Cbor.decodeTop, decodeBounded, bind_eq_ok, Prod.exists,
    decodeAt_eq_ok, raiseIf_eq_ok, exists_const, pure_eq_ok, Except.ok.injEq]
  constructor
  · rintro ⟨_, rest, ⟨read, fits⟩, ended, rfl⟩
    exact ⟨⟨_, rest, read, ended, rfl⟩, fits⟩
  · rintro ⟨⟨_, rest, read, ended, rfl⟩, fits⟩
    exact ⟨_, rest, ⟨read, fits⟩, ended, rfl⟩

theorem goDecode_eq_ok {data : Bytes} {v : Value}
    : Go.Cbor.decode data = .ok v ↔ decode data = .ok v ∧ NintsFit v :=
  goDecodeBounded_eq_ok

/-- On every octet string the Go decoder returns a value exactly when the Python decoder
returns that value and each negative integer in it is at least -2^63.
-/
theorem go_accepts_python_less_wide_negatives (data : Bytes)
    : (∀ v, Go.Cbor.decode data = .ok v ↔ decode data = .ok v ∧ NintsFit v)
      ∧ (∀ e, decode data = .error e → ∃ stop, Go.Cbor.decode data = .error stop) := by
  refine ⟨fun v => goDecode_eq_ok, ?_⟩
  intro e refused
  cases answered : Go.Cbor.decode data with
  | error stop => exact ⟨stop, rfl⟩
  | ok v =>
      have accepted := (goDecode_eq_ok.mp answered).1
      rw [refused] at accepted
      cases accepted

/-- The eight-octet negative integer -2^63 - 1 is a value in Python and refused in Go. -/
theorem wide_negative_divides_decoders
    : decode [0x3B, 0x80, 0, 0, 0, 0, 0, 0, 0] = .ok (.n (-2 ^ 63 - 1))
      ∧ ¬ ∃ v, Go.Cbor.decode [0x3B, 0x80, 0, 0, 0, 0, 0, 0, 0] = .ok v := by
  have accepted : decode [0x3B, 0x80, 0, 0, 0, 0, 0, 0, 0] = .ok (.n (-2 ^ 63 - 1)) := by
    obtain ⟨encodable, octets⟩ := encode_eq_ok.mp
      (@encode_n_eq_ok (-2 ^ 63 - 1) _ |>.mpr ⟨by decide, by decide, rfl⟩)
    exact decode_eq_ok.mpr ⟨⟨encodable, .n _, by decide⟩, octets⟩
  refine ⟨accepted, ?_⟩
  intro decoded
  obtain ⟨v, decoded⟩ := decoded
  obtain ⟨again, fits⟩ := goDecode_eq_ok.mp decoded
  obtain rfl := Except.ok.inj (accepted.symm.trans again)
  rw [nintsFit_n] at fits
  omega

/-- Go writes the head that Python writes. -/
theorem encHead_eq (major arg : Nat) : Go.Cbor.encHead major arg = headBytes major arg := by
  unfold Go.Cbor.encHead headBytes argForm
  simp only [show 1 <<< 8 = 256 from rfl, show 1 <<< 16 = 65536 from rfl,
    show 1 <<< 32 = 2 ^ 32 from rfl]
  split_ifs
  · rw [shiftLeft_or (by omega)]
  · rw [shiftLeft_or (by omega)]
  · rw [shiftLeft_or (by omega)]
  · rw [shiftLeft_or (by omega)]
  · rw [shiftLeft_or (by omega)]

/-- The set of seen keys refuses no pair when the encoded keys are distinct. -/
theorem goEncodePairs_ok {pairs : List (Value × Value)} {seen : List Bytes}
    (members : ∀ pair ∈ pairs, Go.Cbor.encode pair.1 = .ok (encoding pair.1)
      ∧ Go.Cbor.encode pair.2 = .ok (encoding pair.2))
    (distinct : (pairs.map encodedKey).Nodup) (fresh : ∀ pair ∈ pairs, encodedKey pair ∉ seen)
    : Go.Cbor.encodePairs seen pairs
      = .ok (pairs.map (fun pair => (encoding pair.1, encoding pair.2))) := by
  induction pairs generalizing seen with
  | nil => rfl
  | cons pair rest ih =>
      obtain ⟨k, v⟩ := pair
      obtain ⟨⟨key, value⟩, laterMembers⟩ := List.forall_mem_cons.mp members
      obtain ⟨first, laterFresh⟩ := List.forall_mem_cons.mp fresh
      obtain ⟨notLater, laterDistinct⟩ := List.nodup_cons.mp distinct
      have laterSeen : ∀ pair ∈ rest, encodedKey pair ∉ encodedKey (k, v) :: seen := by
        intro pair member seenBefore
        rcases List.mem_cons.mp seenBefore with same | before
        · exact notLater (List.mem_map.mpr ⟨pair, member, same⟩)
        · exact laterFresh pair member before
      have tail := ih laterMembers laterDistinct laterSeen
      have notSeen : encoding k ∉ seen := first
      simp only [encodedKey] at key value tail
      simp [Go.Cbor.encodePairs, key, value, notSeen, tail]

/-- The Go encoder writes the octets that the Python encoder writes, by induction over the
value.
-/
theorem goEncode_of_encodable {v : Value} (encodable : Encodable v)
    : Go.Cbor.encode v = .ok (encoding v) := by
  induction v using Value.induction with
  | u v =>
      obtain ⟨-, -, octets⟩ := encode_u_eq_ok.mp encodable
      rw [Go.Cbor.encode, encHead_eq, octets]
      rfl
  | n v =>
      obtain ⟨-, upper, octets⟩ := encode_n_eq_ok.mp encodable
      rw [Go.Cbor.encode, raiseIf_neg (by omega), encHead_eq, octets,
        show -(v + 1) = -1 - v by omega]
      rfl
  | b v =>
      obtain ⟨-, octets⟩ := encode_b_eq_ok.mp encodable
      rw [Go.Cbor.encode, encHead_eq, octets]
      rfl
  | t v =>
      obtain ⟨text, encoded, -, octets⟩ := encode_t_eq_ok.mp encodable
      rw [Go.Cbor.encode, encoded, octets]
      simp [encHead_eq]
  | a items ih =>
      obtain ⟨-, members, octets⟩ := encode_a_eq_ok.mp encodable
      have loop : ∀ items : List Value, (∀ item ∈ items, Go.Cbor.encode item = .ok (encoding item))
          → Go.Cbor.encodeItems items = .ok (items.flatMap encoding) := by
        intro items each
        induction items with
        | nil => rfl
        | cons item rest tail =>
            obtain ⟨first, later⟩ := List.forall_mem_cons.mp each
            simp [Go.Cbor.encodeItems, first, tail later]
      rw [Go.Cbor.encode, loop items fun item member => ih item member (members item member),
        encHead_eq, octets]
      rfl
  | m pairs ih =>
      obtain ⟨-, members, distinct, octets⟩ := encode_m_eq_ok.mp encodable
      have loop := goEncodePairs_ok (fun pair member =>
          ⟨(ih pair member).1 (members pair member).1, (ih pair member).2 (members pair member).2⟩)
        distinct (fun _ _ => List.not_mem_nil)
      have sorted := sortByKey_map_encoding pairs
      rw [Go.Cbor.encode, loop, octets]
      simp only [ok_bind, pure_eq_ok, encHead_eq]
      rw [show Go.Cbor.sortByKey = Cbor.sortByKey from rfl, sorted, List.flatMap_map]
      rfl
  | tag number content ih =>
      obtain ⟨-, -, inner, octets⟩ := encode_tag_eq_ok.mp encodable
      rw [Go.Cbor.encode, ih inner, encHead_eq, octets]
      rfl

end Naalp.Implementations
