import Naalp.CanonicalEncoding.Heads

/-! Which values the Python codec encodes, and to which octets.
Every constructor gets one equivalence, so that later proofs never unfold `encode`.
-/

namespace Naalp.Python.Cbor

open Naalp.Foundation

/-- Induction over values, with a hypothesis for every member of an array or a map. -/
theorem Value.induction {motive : Value → Prop}
    (u : ∀ v, motive (.u v)) (n : ∀ v, motive (.n v)) (b : ∀ v, motive (.b v))
    (t : ∀ v, motive (.t v))
    (a : ∀ items, (∀ item ∈ items, motive item) → motive (.a items))
    (m : ∀ pairs, (∀ pair ∈ pairs, motive pair.1 ∧ motive pair.2) → motive (.m pairs))
    (tag : ∀ number content, motive content → motive (.tag number content))
    : ∀ v, motive v
  | .u v => u v
  | .n v => n v
  | .b v => b v
  | .t v => t v
  | .a items => a items (fun item _ => Value.induction u n b t a m tag item)
  | .m pairs => m pairs (fun pair _ =>
      ⟨Value.induction u n b t a m tag pair.1, Value.induction u n b t a m tag pair.2⟩)
  | .tag number content => tag number content (Value.induction u n b t a m tag content)
termination_by v => sizeOf v
decreasing_by
  all_goals simp_wf
  · have member := List.sizeOf_lt_of_mem ‹item ∈ items›
    omega
  · have member := List.sizeOf_lt_of_mem ‹pair ∈ pairs›
    have parts : sizeOf pair = 1 + sizeOf pair.1 + sizeOf pair.2 := by cases pair; rfl
    omega
  · have member := List.sizeOf_lt_of_mem ‹pair ∈ pairs›
    have parts : sizeOf pair = 1 + sizeOf pair.1 + sizeOf pair.2 := by cases pair; rfl
    omega

/-- The octets of a value, empty where the codec refuses it. -/
def encoding (v : Value) : Bytes := (encode v).toOption.getD []

def Encodable (v : Value) : Prop := encode v = .ok (encoding v)

theorem encode_eq_ok {v : Value} {bytes : Bytes}
    : encode v = .ok bytes ↔ Encodable v ∧ bytes = encoding v := by
  unfold Encodable encoding
  cases encode v with
  | error e => simp [Except.toOption]
  | ok written => simp [Except.toOption, eq_comm]

/-- The encoded key of a pair, by which the pairs of a map are ordered. -/
def encodedKey (pair : Value × Value) : Bytes := encoding pair.1

def encodedPair (pair : Value × Value) : Bytes := encoding pair.1 ++ encoding pair.2

/-- The pairs of a map ascending by encoded key; the sort is stable. -/
def sortPairs (pairs : List (Value × Value)) : List (Value × Value) :=
  pairs.insertionSort (fun left right => encodedKey left ≤ encodedKey right)

theorem encode_u_eq_ok {v : Int} {bytes : Bytes}
    : encode (.u v) = .ok bytes ↔ 0 ≤ v ∧ v < 2 ^ 64 ∧ bytes = headBytes 0 v.toNat := by
  simp only [encode, bind_eq_ok, raiseIf_eq_ok, exists_const, head_eq_ok, not_lt]
  exact ⟨fun h => h.2, fun h => ⟨h.1, h⟩⟩

/-- A negative integer is encoded as the head of its distance from minus one. -/
theorem encode_n_eq_ok {v : Int} {bytes : Bytes}
    : encode (.n v) = .ok bytes
      ↔ -2 ^ 64 ≤ v ∧ v < 0 ∧ bytes = headBytes 1 (-1 - v).toNat := by
  rw [encode, head_eq_ok]
  constructor
  · intro written
    obtain ⟨lower, upper, rfl⟩ := written
    exact ⟨by omega, by omega, rfl⟩
  · intro written
    obtain ⟨lower, upper, rfl⟩ := written
    exact ⟨by omega, by omega, rfl⟩

/-- A length head is written for every length below 2^64. -/
theorem head_length_eq_ok {major length : Nat} {bytes : Bytes}
    : head major length = .ok bytes ↔ length < 2 ^ 64 ∧ bytes = headBytes major length := by
  rw [head_eq_ok, Int.toNat_natCast]
  constructor
  · intro written
    exact ⟨by omega, written.2.2⟩
  · intro written
    exact ⟨by omega, by omega, written.2⟩

/-- A byte string is encoded as the head of its length and its octets. -/
theorem encode_b_eq_ok {v : Bytes} {bytes : Bytes}
    : encode (.b v) = .ok bytes
      ↔ v.length < 2 ^ 64 ∧ bytes = headBytes 2 v.length ++ v := by
  simp only [encode, bind_eq_ok, head_length_eq_ok, pure_eq_ok, Except.ok.injEq]
  constructor
  · intro written
    obtain ⟨_, ⟨bound, rfl⟩, rfl⟩ := written
    exact ⟨bound, rfl⟩
  · intro written
    obtain ⟨bound, rfl⟩ := written
    exact ⟨_, ⟨bound, rfl⟩, rfl⟩

/-- A text is encoded as the head of the length of its octets, and these. -/
theorem encode_t_eq_ok {v : PyStr} {bytes : Bytes}
    : encode (.t v) = .ok bytes
      ↔ ∃ text, v.encode = .ok text ∧ text.length < 2 ^ 64
        ∧ bytes = headBytes 3 text.length ++ text := by
  simp only [encode, bind_eq_ok, head_length_eq_ok, pure_eq_ok, Except.ok.injEq]
  constructor
  · intro written
    obtain ⟨text, encoded, _, ⟨bound, rfl⟩, rfl⟩ := written
    exact ⟨text, encoded, bound, rfl⟩
  · intro written
    obtain ⟨text, encoded, bound, rfl⟩ := written
    exact ⟨text, encoded, _, ⟨bound, rfl⟩, rfl⟩

/-- The items of an array are concatenated, by list induction. -/
theorem encodeItems_eq_ok {items : List Value} {bytes : Bytes}
    : encodeItems items = .ok bytes
      ↔ (∀ item ∈ items, Encodable item) ∧ bytes = items.flatMap encoding := by
  induction items generalizing bytes with
  | nil => simp [encodeItems, eq_comm]
  | cons item rest ih =>
      simp only [encodeItems, bind_eq_ok, encode_eq_ok, ih, pure_eq_ok, Except.ok.injEq,
        List.forall_mem_cons, List.flatMap_cons]
      constructor
      · intro written
        obtain ⟨_, ⟨first, rfl⟩, _, ⟨others, rfl⟩, rfl⟩ := written
        exact ⟨⟨first, others⟩, rfl⟩
      · intro written
        obtain ⟨⟨first, others⟩, rfl⟩ := written
        exact ⟨_, ⟨first, rfl⟩, _, ⟨others, rfl⟩, rfl⟩

/-- An array is encoded as the head of its length and the encodings of its items. -/
theorem encode_a_eq_ok {items : List Value} {bytes : Bytes}
    : encode (.a items) = .ok bytes
      ↔ items.length < 2 ^ 64 ∧ (∀ item ∈ items, Encodable item)
        ∧ bytes = headBytes 4 items.length ++ items.flatMap encoding := by
  simp only [encode, bind_eq_ok, head_length_eq_ok, encodeItems_eq_ok, pure_eq_ok,
    Except.ok.injEq]
  constructor
  · intro written
    obtain ⟨_, ⟨bound, rfl⟩, _, ⟨members, rfl⟩, rfl⟩ := written
    exact ⟨bound, members, rfl⟩
  · intro written
    obtain ⟨bound, members, rfl⟩ := written
    exact ⟨_, ⟨bound, rfl⟩, _, ⟨members, rfl⟩, rfl⟩

/-- The pairs of a map are encoded when all keys and values can be, by induction on the pairs.
-/
theorem encodePairs_eq_ok {pairs : List (Value × Value)} {enc : List (Bytes × Bytes)}
    : encodePairs pairs = .ok enc
      ↔ (∀ pair ∈ pairs, Encodable pair.1 ∧ Encodable pair.2)
        ∧ enc = pairs.map (fun pair => (encoding pair.1, encoding pair.2)) := by
  induction pairs generalizing enc with
  | nil => simp [encodePairs, eq_comm]
  | cons pair rest ih =>
      obtain ⟨k, val⟩ := pair
      simp only [encodePairs, bind_eq_ok, encode_eq_ok, ih, pure_eq_ok, Except.ok.injEq,
        List.forall_mem_cons, List.map_cons]
      constructor
      · intro written
        obtain ⟨_, ⟨key, rfl⟩, _, ⟨value, rfl⟩, _, ⟨others, rfl⟩, rfl⟩ := written
        exact ⟨⟨⟨key, value⟩, others⟩, rfl⟩
      · intro written
        obtain ⟨⟨⟨key, value⟩, others⟩, rfl⟩ := written
        exact ⟨_, ⟨key, rfl⟩, _, ⟨value, rfl⟩, _, ⟨others, rfl⟩, rfl⟩

theorem sortByKey_map_encoding (pairs : List (Value × Value))
    : sortByKey (pairs.map (fun pair => (encoding pair.1, encoding pair.2)))
      = (sortPairs pairs).map (fun pair => (encoding pair.1, encoding pair.2)) := by
  have commutes := List.map_insertionSort (fun left right => encodedKey left ≤ encodedKey right)
    (fun left right : Bytes × Bytes => left.1 ≤ right.1)
    (fun pair => (encoding pair.1, encoding pair.2)) pairs (fun _ _ _ _ => Iff.rfl)
  exact commutes.symm

theorem sortPairs_perm (pairs : List (Value × Value)) : (sortPairs pairs).Perm pairs :=
  List.perm_insertionSort _ pairs

/-- A map is encoded exactly when its members are and no two keys share an encoding. -/
theorem encode_m_eq_ok {pairs : List (Value × Value)} {bytes : Bytes}
    : encode (.m pairs) = .ok bytes
      ↔ pairs.length < 2 ^ 64 ∧ (∀ pair ∈ pairs, Encodable pair.1 ∧ Encodable pair.2)
        ∧ (pairs.map encodedKey).Nodup
        ∧ bytes = headBytes 5 pairs.length ++ (sortPairs pairs).flatMap encodedPair := by
  have keys : ((sortPairs pairs).map encodedKey).Nodup ↔ (pairs.map encodedKey).Nodup :=
    ((sortPairs_perm pairs).map encodedKey).nodup_iff
  simp only [encode, bind_eq_ok, encodePairs_eq_ok, raiseIf_eq_ok, exists_const, pure_eq_ok,
    Except.ok.injEq, head_length_eq_ok, not_not]
  constructor
  · intro written
    obtain ⟨enc, ⟨members, rfl⟩, distinct, _, ⟨bound, rfl⟩, rfl⟩ := written
    rw [sortByKey_map_encoding] at distinct bound ⊢
    rw [List.length_map, (sortPairs_perm pairs).length_eq] at bound ⊢
    rw [List.map_map] at distinct
    exact ⟨bound, members, keys.mp distinct, by rw [List.flatMap_map]; rfl⟩
  · intro written
    obtain ⟨bound, members, distinct, rfl⟩ := written
    refine ⟨_, ⟨members, rfl⟩, ?_⟩
    rw [sortByKey_map_encoding, List.map_map, List.length_map,
      (sortPairs_perm pairs).length_eq, List.flatMap_map]
    exact ⟨keys.mpr distinct, _, ⟨bound, rfl⟩, rfl⟩

/-- A tagged value is encoded as the head of its number and the encoding of its content. -/
theorem encode_tag_eq_ok {number : Int} {content : Value} {bytes : Bytes}
    : encode (.tag number content) = .ok bytes
      ↔ 0 ≤ number ∧ number < 2 ^ 64 ∧ Encodable content
        ∧ bytes = headBytes 6 number.toNat ++ encoding content := by
  simp only [encode, bind_eq_ok, head_eq_ok, encode_eq_ok, pure_eq_ok, Except.ok.injEq]
  constructor
  · intro written
    obtain ⟨_, ⟨lower, upper, rfl⟩, _, ⟨inner, rfl⟩, rfl⟩ := written
    exact ⟨lower, upper, inner, rfl⟩
  · intro written
    obtain ⟨lower, upper, inner, rfl⟩ := written
    exact ⟨_, ⟨lower, upper, rfl⟩, _, ⟨inner, rfl⟩, rfl⟩

theorem encodable_iff {v : Value} : Encodable v ↔ ∃ bytes, encode v = .ok bytes := by
  constructor
  · intro encodable
    exact ⟨_, encodable⟩
  · intro written
    obtain ⟨bytes, encoded⟩ := written
    exact (encode_eq_ok.mp encoded).1

theorem encodable_u {v : Int} : Encodable (.u v) ↔ 0 ≤ v ∧ v < 2 ^ 64 := by
  simp [encodable_iff, encode_u_eq_ok]

theorem encodable_n {v : Int} : Encodable (.n v) ↔ -2 ^ 64 ≤ v ∧ v < 0 := by
  simp [encodable_iff, encode_n_eq_ok]

theorem encodable_b {v : Bytes} : Encodable (.b v) ↔ v.length < 2 ^ 64 := by
  simp [encodable_iff, encode_b_eq_ok]

@[simp]
theorem length_contentIdBytes (body : Bytes) : (contentIdBytes body).length = 50 := by
  simp [contentIdBytes, Sha2.length_sha384]

theorem length_contentId {body : Value} {cid : Bytes} (identified : contentId body = .ok cid)
    : cid.length = 50 := by
  obtain ⟨octets, -, same⟩ := bind_eq_ok.mp identified
  obtain rfl := Except.ok.inj same
  exact length_contentIdBytes octets

theorem encodable_contentIdBytes (body : Bytes) : Encodable (.b (contentIdBytes body)) := by
  rw [encodable_b, length_contentIdBytes]
  decide

/-- A text can be encoded when its octets can be and their length fits in 64 bits. -/
theorem encodable_t {v : PyStr}
    : Encodable (.t v) ↔ ∃ text, v.encode = .ok text ∧ text.length < 2 ^ 64 := by
  simp only [encodable_iff, encode_t_eq_ok]
  constructor
  · intro written
    obtain ⟨_, text, encoded, bound, -⟩ := written
    exact ⟨text, encoded, bound⟩
  · intro written
    obtain ⟨text, encoded, bound⟩ := written
    exact ⟨_, text, encoded, bound, rfl⟩

theorem encodable_a {items : List Value}
    : Encodable (.a items) ↔ items.length < 2 ^ 64 ∧ ∀ item ∈ items, Encodable item := by
  simp [encodable_iff, encode_a_eq_ok]

theorem encodable_m {pairs : List (Value × Value)}
    : Encodable (.m pairs)
      ↔ pairs.length < 2 ^ 64 ∧ (∀ pair ∈ pairs, Encodable pair.1 ∧ Encodable pair.2)
        ∧ (pairs.map encodedKey).Nodup := by
  simp [encodable_iff, encode_m_eq_ok]

theorem encodable_tag {number : Int} {content : Value}
    : Encodable (.tag number content) ↔ 0 ≤ number ∧ number < 2 ^ 64 ∧ Encodable content := by
  simp [encodable_iff, encode_tag_eq_ok]

/-- The octets of an unsigned integer are those of a head. -/
theorem length_encoding_u_le {v : Int} (encodable : Encodable (.u v))
    : (encoding (.u v)).length ≤ 9 := by
  obtain ⟨-, -, octets⟩ := encode_u_eq_ok.mp encodable
  rw [octets]
  exact length_headBytes_le 0 v.toNat

theorem length_encoding_b_le {v : Bytes} (encodable : Encodable (.b v))
    : (encoding (.b v)).length ≤ 9 + v.length := by
  obtain ⟨-, octets⟩ := encode_b_eq_ok.mp encodable
  rw [octets, List.length_append]
  exact Nat.add_le_add_right (length_headBytes_le 2 v.length) _

theorem length_encoding_a_le {items : List Value} (encodable : Encodable (.a items))
    : (encoding (.a items)).length ≤ 9 + (items.map fun item => (encoding item).length).sum := by
  obtain ⟨-, -, octets⟩ := encode_a_eq_ok.mp encodable
  rw [octets, List.length_append, List.length_flatMap]
  exact Nat.add_le_add_right (length_headBytes_le 4 items.length) _

theorem length_encoding_tag_le {number : Int} {content : Value}
    (encodable : Encodable (.tag number content))
    : (encoding (.tag number content)).length ≤ 9 + (encoding content).length := by
  obtain ⟨-, -, -, octets⟩ := encode_tag_eq_ok.mp encodable
  rw [octets, List.length_append]
  exact Nat.add_le_add_right (length_headBytes_le 6 number.toNat) _

theorem length_encodedPair (key v : Value)
    : (encodedPair (key, v)).length = (encoding key).length + (encoding v).length :=
  List.length_append

/-- The octets of a map are its head and its pairs, in whatever order they stand. -/
theorem length_encoding_m {pairs : List (Value × Value)} (encodable : Encodable (.m pairs))
    : (encoding (.m pairs)).length
      = (headBytes 5 pairs.length).length +
        (pairs.map fun pair => (encodedPair pair).length).sum := by
  obtain ⟨-, -, -, octets⟩ := encode_m_eq_ok.mp encodable
  have same := ((sortPairs_perm pairs).map fun pair => (encodedPair pair).length).sum_eq
  rw [octets, List.length_append, List.length_flatMap, same]

/-- A map whose pairs all fit has at most nine octets more than its pairs. -/
theorem length_encoding_m_le {pairs : List (Value × Value)} (encodable : Encodable (.m pairs))
    : (encoding (.m pairs)).length ≤ 9 + (pairs.map fun pair => (encodedPair pair).length).sum := by
  rw [length_encoding_m encodable]
  exact Nat.add_le_add_right (length_headBytes_le 5 pairs.length) _

section Failures

/-- The errors that the encoder raises. -/
inductive EncodingError : Exc → Prop where
  | nonCanonical (msg : String) : EncodingError (.nonCanonical msg)
  | valueError (msg : String) : EncodingError (.valueError msg)
  | overflow : EncodingError .overflowError
  | surrogate : EncodingError .unicodeEncodeError

theorem failsOnly_byteOfInt {n : Int} : FailsOnly EncodingError (byteOfInt n) := by
  unfold byteOfInt
  split
  · exact failsOnly_pure _
  · exact failsOnly_throw (.valueError _)

theorem failsOnly_intToBytes {width : Nat} {n : Int}
    : FailsOnly EncodingError (intToBytes width n) := by
  unfold intToBytes
  split
  · exact failsOnly_pure _
  · exact failsOnly_throw .overflow

/-- A head fails with an encoding error only, when its argument does not fit. -/
theorem failsOnly_head {major : Nat} {n : Int} : FailsOnly EncodingError (head major n) := by
  unfold head
  split
  · exact (failsOnly_raiseIf (.valueError _)).bind fun _ => failsOnly_pure _
  split
  · exact failsOnly_byteOfInt.bind fun _ => failsOnly_pure _
  split
  · exact failsOnly_intToBytes.bind fun _ => failsOnly_pure _
  split
  · exact failsOnly_intToBytes.bind fun _ => failsOnly_pure _
  · exact failsOnly_intToBytes.bind fun _ => failsOnly_pure _

/-- By induction over the text. -/
theorem failsOnly_textEncode {s : PyStr} : FailsOnly (· = .unicodeEncodeError) s.encode := by
  have scalars : FailsOnly (· = .unicodeEncodeError) (PyStr.encode.scalars s) := by
    induction s with
    | nil => exact failsOnly_pure []
    | cons c rest ih =>
        cases c with
        | scalar c => exact ih.bind fun _ => failsOnly_pure _
        | surrogate i => exact failsOnly_throw rfl
  exact scalars.bind fun _ => failsOnly_pure _

mutual
/-- Encoding fails with an encoding error only, by recursion on the value. -/
theorem failsOnly_encode : (v : Value) → FailsOnly EncodingError (encode v)
  | .u v => by
      rw [encode]
      exact (failsOnly_raiseIf (.nonCanonical _)).bind fun _ => failsOnly_head
  | .n v => by
      rw [encode]
      exact failsOnly_head
  | .b v => by
      rw [encode]
      exact failsOnly_head.bind fun _ => failsOnly_pure _
  | .t v => by
      rw [encode]
      refine (failsOnly_textEncode.mono ?_).bind fun _ => failsOnly_head.bind fun _ =>
        failsOnly_pure _
      intro err same
      exact same ▸ .surrogate
  | .a items => by
      rw [encode]
      exact failsOnly_head.bind fun _ => (failsOnly_encodeItems items).bind fun _ =>
        failsOnly_pure _
  | .m pairs => by
      rw [encode]
      exact (failsOnly_encodePairs pairs).bind fun _ =>
        (failsOnly_raiseIf (.nonCanonical _)).bind fun _ => failsOnly_head.bind fun _ =>
          failsOnly_pure _
  | .tag number content => by
      rw [encode]
      exact failsOnly_head.bind fun _ => (failsOnly_encode content).bind fun _ => failsOnly_pure _

theorem failsOnly_encodeItems : (items : List Value) → FailsOnly EncodingError (encodeItems items)
  | [] => by
      rw [encodeItems]
      exact failsOnly_pure []
  | item :: rest => by
      rw [encodeItems]
      exact (failsOnly_encode item).bind fun _ => (failsOnly_encodeItems rest).bind fun _ =>
        failsOnly_pure _

/-- So does encoding the pairs of a map. -/
theorem failsOnly_encodePairs
    : (pairs : List (Value × Value)) → FailsOnly EncodingError (encodePairs pairs)
  | [] => by
      rw [encodePairs]
      exact failsOnly_pure []
  | (k, v) :: rest => by
      rw [encodePairs]
      exact (failsOnly_encode k).bind fun _ => (failsOnly_encode v).bind fun _ =>
        (failsOnly_encodePairs rest).bind fun _ => failsOnly_pure _
end

end Failures

end Naalp.Python.Cbor
