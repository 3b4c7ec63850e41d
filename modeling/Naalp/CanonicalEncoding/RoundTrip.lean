import Naalp.CanonicalEncoding.Decoding

/-! Decoding an encoded value returns it with every map in canonical order, and encoding a
decoded value returns its octets.
-/

namespace Naalp.Python.Cbor

open Naalp.Foundation

mutual

/-- The value with the pairs of every map, at every level and in keys too, reordered
ascending by encoded key.
-/
def sortMaps : Value → Value
  | .u v => .u v
  | .n v => .n v
  | .b v => .b v
  | .t v => .t v
  | .a items => .a (sortMapsItems items)
  | .m pairs => .m (sortPairs (sortMapsPairs pairs))
  | .tag number content => .tag number (sortMaps content)

def sortMapsItems : List Value → List Value
  | [] => []
  | item :: rest => sortMaps item :: sortMapsItems rest

def sortMapsPairs : List (Value × Value) → List (Value × Value)
  | [] => []
  | (k, val) :: rest => (sortMaps k, sortMaps val) :: sortMapsPairs rest

end

theorem sortMapsItems_eq_map (items : List Value)
    : sortMapsItems items = items.map sortMaps := by
  induction items with
  | nil => rfl
  | cons item rest ih => rw [sortMapsItems, ih, List.map_cons]

theorem sortMapsPairs_eq_map (pairs : List (Value × Value))
    : sortMapsPairs pairs = pairs.map (Prod.map sortMaps sortMaps) := by
  induction pairs with
  | nil => rfl
  | cons pair rest ih =>
      rw [sortMapsPairs, ih, List.map_cons]
      rfl

/-- Sorted pairs with distinct encoded keys ascend strictly. -/
theorem sortPairs_ascending {pairs : List (Value × Value)}
    (distinct : (pairs.map encodedKey).Nodup)
    : ((sortPairs pairs).map encodedKey).Pairwise (· < ·) := by
  have ordered : (sortPairs pairs).Pairwise
      (fun left right => encodedKey left ≤ encodedKey right) :=
    List.pairwise_insertionSort _ pairs
  have sortedDistinct : ((sortPairs pairs).map encodedKey).Nodup :=
    ((sortPairs_perm pairs).map encodedKey).nodup_iff.mpr distinct
  have both := (List.pairwise_map.mpr ordered).and sortedDistinct
  refine both.imp ?_
  intro left right h
  rcases List.le_iff_lt_or_eq.mp h.1 with below | same
  · exact below
  · exact (h.2 same).elim

/-- Sorting commutes with a change of pairs that keeps every encoded key. -/
theorem sortPairs_map {f : Value × Value → Value × Value} {pairs : List (Value × Value)}
    (sameKey : ∀ pair ∈ pairs, encodedKey (f pair) = encodedKey pair)
    : sortPairs (pairs.map f) = (sortPairs pairs).map f := by
  symm
  apply List.map_insertionSort
  intro left leftMember right rightMember
  rw [sameKey left leftMember, sameKey right rightMember]

/-- A map of canonical members becomes canonical by sorting its pairs, and keeps its octets. -/
theorem canonical_sortPairs {remaining : Nat} {f : Value × Value → Value × Value}
    {pairs : List (Value × Value)} (bound : pairs.length < 2 ^ 64)
    (distinct : (pairs.map encodedKey).Nodup)
    (sameKey : ∀ pair ∈ pairs, encodedKey (f pair) = encodedKey pair)
    (samePair : ∀ pair ∈ pairs, encodedPair (f pair) = encodedPair pair)
    (members : ∀ pair ∈ pairs, Canonical remaining (f pair).1 ∧ Canonical remaining (f pair).2)
    : Canonical (remaining + 1) (.m (sortPairs (pairs.map f)))
      ∧ encoding (.m (sortPairs (pairs.map f)))
        = headBytes 5 pairs.length ++ (sortPairs pairs).flatMap encodedPair := by
  have inside : ∀ pair ∈ sortPairs pairs, pair ∈ pairs :=
    fun pair member => (sortPairs_perm pairs).mem_iff.mp member
  have size : ((sortPairs pairs).map f).length = pairs.length := by
    rw [List.length_map, (sortPairs_perm pairs).length_eq]
  have keys : ((sortPairs pairs).map f).map encodedKey = (sortPairs pairs).map encodedKey := by
    rw [List.map_map]
    exact List.map_congr_left fun pair member => sameKey pair (inside pair member)
  rw [sortPairs_map sameKey]
  have canonical : Canonical (remaining + 1) (.m ((sortPairs pairs).map f)) := by
    refine canonical_m.mpr ⟨size ▸ bound, keys ▸ sortPairs_ascending distinct, ?_⟩
    intro pair member
    obtain ⟨source, sourceMember, rfl⟩ := List.mem_map.mp member
    exact members source (inside source sourceMember)
  refine ⟨canonical, ?_⟩
  rw [encoding_canonical_m canonical, size, List.flatMap_map]
  congr 1
  exact List.flatMap_congr fun pair member => samePair pair (inside pair member)

/-- Reordering its maps keeps a value's octets, bounds its depth and makes it canonical, by
induction over the value.
-/
theorem sortMaps_canonical {v : Value} (encodable : Encodable v)
    : Canonical (depth v) (sortMaps v) ∧ encoding (sortMaps v) = encoding v := by
  induction v using Value.induction with
  | u v => exact ⟨⟨encodable, .u v, Nat.le_refl 1⟩, rfl⟩
  | n v => exact ⟨⟨encodable, .n v, Nat.le_refl 1⟩, rfl⟩
  | b v => exact ⟨⟨encodable, .b v, Nat.le_refl 1⟩, rfl⟩
  | t v => exact ⟨⟨encodable, .t v, Nat.le_refl 1⟩, rfl⟩
  | a items ih =>
      obtain ⟨bound, members, octets⟩ := encode_a_eq_ok.mp encodable
      have deep := depthItems_le.mp (Nat.le_refl (depthItems items))
      have canonical : Canonical (depth (.a items)) (sortMaps (.a items)) := by
        rw [sortMaps, sortMapsItems_eq_map]
        refine canonical_a.mpr ⟨by simpa using bound, ?_⟩
        intro item member
        obtain ⟨source, inside, rfl⟩ := List.mem_map.mp member
        have reordered := (ih source inside (members source inside)).1
        exact reordered.mono (deep source inside)
      obtain ⟨-, -, reorderedOctets⟩ := encode_a_eq_ok.mp canonical.encodable
      refine ⟨canonical, ?_⟩
      rw [reorderedOctets, octets, sortMapsItems_eq_map, List.length_map,
        List.flatMap_map]
      congr 1
      exact List.flatMap_congr fun item member => (ih item member (members item member)).2
  | m pairs ih =>
      obtain ⟨bound, members, distinct, octets⟩ := encode_m_eq_ok.mp encodable
      have deep := depthPairs_le.mp (Nat.le_refl (depthPairs pairs))
      have sameKey : ∀ pair ∈ pairs,
          encodedKey (Prod.map sortMaps sortMaps pair) = encodedKey pair :=
        fun pair member => ((ih pair member).1 (members pair member).1).2
      have samePair : ∀ pair ∈ pairs,
          encodedPair (Prod.map sortMaps sortMaps pair) = encodedPair pair := by
        intro pair member
        have value := ((ih pair member).2 (members pair member).2).2
        exact congrArg₂ (· ++ ·) (sameKey pair member) value
      have reordered : ∀ pair ∈ pairs,
          Canonical (depthPairs pairs) (sortMaps pair.1)
          ∧ Canonical (depthPairs pairs) (sortMaps pair.2) := by
        intro pair member
        have key := ((ih pair member).1 (members pair member).1).1
        have value := ((ih pair member).2 (members pair member).2).1
        exact ⟨key.mono (deep pair member).1, value.mono (deep pair member).2⟩
      obtain ⟨canonical, same⟩ := canonical_sortPairs bound distinct sameKey samePair reordered
      rw [sortMaps, sortMapsPairs_eq_map, octets]
      exact ⟨canonical, same⟩
  | tag number content ih =>
      obtain ⟨lower, upper, inner, octets⟩ := encode_tag_eq_ok.mp encodable
      obtain ⟨reordered, same⟩ := ih inner
      have canonical : Canonical (depth (.tag number content)) (sortMaps (.tag number content)) :=
        canonical_tag.mpr ⟨lower, upper, reordered⟩
      obtain ⟨-, -, -, reorderedOctets⟩ := encode_tag_eq_ok.mp canonical.encodable
      exact ⟨canonical, by rw [reorderedOctets, octets, same]⟩

/-- A value whose maps are in order is left as it is; by induction over the value. -/
theorem MapsAscending.sortMaps_eq {v : Value} (ascending : MapsAscending v) : sortMaps v = v := by
  induction ascending with
  | u v | n v | b v | t v => rfl
  | @a items members ih =>
      rw [sortMaps, sortMapsItems_eq_map]
      apply congrArg Value.a
      exact (List.map_congr_left ih).trans (List.map_id items)
  | @m pairs ordered keys values keysIh valuesIh =>
      have same : sortMapsPairs pairs = pairs := by
        rw [sortMapsPairs_eq_map]
        apply (List.map_congr_left fun pair member => ?_).trans (List.map_id pairs)
        exact Prod.ext (keysIh pair member) (valuesIh pair member)
      rw [sortMaps, same, sortPairs_of_ascending ordered]
  | tag inner ih => rw [sortMaps, ih]

/-- Decoding what was encoded returns the value with its maps reordered. -/
theorem decodeBounded_encode {v : Value} {bytes : Bytes} {maxDepth : Nat}
    (encoded : encode v = .ok bytes) (within : depth v ≤ maxDepth)
    : decodeBounded bytes maxDepth = .ok (sortMaps v) := by
  obtain ⟨encodable, rfl⟩ := encode_eq_ok.mp encoded
  obtain ⟨canonical, same⟩ := sortMaps_canonical encodable
  exact decodeBounded_eq_ok.mpr ⟨canonical.mono within, same.symm⟩

/-- What is decoded from an encoding, at any depth, is the value with its maps reordered. -/
theorem eq_sortMaps_of_decoded {v w : Value} {bytes : Bytes} {maxDepth : Nat}
    (encoded : encode v = .ok bytes) (decoded : decodeBounded bytes maxDepth = .ok w)
    : w = sortMaps v := by
  obtain ⟨canonical, octets⟩ := decodeBounded_eq_ok.mp decoded
  have again := decodeBounded_encode encoded (Nat.le_max_left (depth v) maxDepth)
  have deeper := decodeBounded_eq_ok.mpr
    ⟨canonical.mono (Nat.le_max_right (depth v) maxDepth), octets⟩
  exact Except.ok.inj (deeper.symm.trans again)

/-- Encoding what was decoded returns the octets. -/
theorem encode_decodeBounded {data : Bytes} {maxDepth : Nat} {v : Value}
    (decoded : decodeBounded data maxDepth = .ok v)
    : encode v = .ok data := by
  obtain ⟨canonical, rfl⟩ := decodeBounded_eq_ok.mp decoded
  exact canonical.encodable

def NoSurrogate (text : PyStr) : Prop := ∀ i, PyChar.surrogate i ∉ text

/-- (WellFormed text v) says that the integers of `v` are in range, that its texts satisfy
`text`, and that no map has two keys of equal encoding. Lengths stay below 2^64, as those
of all Python objects do.
-/
inductive WellFormed (text : PyStr → Prop) : Value → Prop where
  | u {v : Int} (lower : 0 ≤ v) (upper : v < 2 ^ 64) : WellFormed text (.u v)
  | n {v : Int} (lower : -2 ^ 64 ≤ v) (upper : v < 0) : WellFormed text (.n v)
  | b {v : Bytes} (bound : v.length < 2 ^ 64) : WellFormed text (.b v)
  | t {v : PyStr} (allowed : text v)
      (bound : ∀ data, v.encode = .ok data → data.length < 2 ^ 64) : WellFormed text (.t v)
  | a {items : List Value} (bound : items.length < 2 ^ 64)
      (members : ∀ item ∈ items, WellFormed text item) : WellFormed text (.a items)
  | m {pairs : List (Value × Value)} (bound : pairs.length < 2 ^ 64)
      (keys : ∀ pair ∈ pairs, WellFormed text pair.1)
      (values : ∀ pair ∈ pairs, WellFormed text pair.2)
      (distinct : (pairs.map (fun pair => encode pair.1)).Nodup) : WellFormed text (.m pairs)
  | tag {number : Int} {content : Value} (lower : 0 ≤ number) (upper : number < 2 ^ 64)
      (inner : WellFormed text content) : WellFormed text (.tag number content)

/-- Text without surrogates has octets, by induction on the text. -/
theorem encode_of_noSurrogate {text : PyStr} (noSurrogate : NoSurrogate text)
    : ∃ data, text.encode = .ok data := by
  have literal : ∃ chars, text = PyStr.lit chars := by
    induction text with
    | nil => exact ⟨[], rfl⟩
    | cons head rest ih =>
        obtain ⟨chars, rfl⟩ := ih fun i member => noSurrogate i (List.mem_cons_of_mem _ member)
        cases head with
        | scalar c => exact ⟨c :: chars, rfl⟩
        | surrogate i => exact (noSurrogate i List.mem_cons_self).elim
  obtain ⟨chars, rfl⟩ := literal
  exact ⟨_, PyStr.encode_eq_ok.mpr ⟨chars, rfl, rfl⟩⟩

/-- Every well-formed value without lone surrogates is encoded, by induction over the value. -/
theorem WellFormed.encodable {v : Value} (wellFormed : WellFormed NoSurrogate v)
    : Encodable v := by
  induction wellFormed with
  | u lower upper => exact encodable_u.mpr ⟨lower, upper⟩
  | n lower upper => exact encodable_n.mpr ⟨lower, upper⟩
  | b bound => exact encodable_b.mpr bound
  | t allowed bound =>
      obtain ⟨data, encoded⟩ := encode_of_noSurrogate allowed
      exact encodable_t.mpr ⟨data, encoded, bound data encoded⟩
  | a bound _ members => exact encodable_a.mpr ⟨bound, members⟩
  | @m pairs bound _ _ distinct keys values =>
      have sameKeys : pairs.map (fun pair => encode pair.1)
          = (pairs.map encodedKey).map (.ok : Bytes → Py Bytes) := by
        rw [List.map_map]
        exact List.map_congr_left fun pair member => keys pair member
      have distinctKeys : (pairs.map encodedKey).Nodup := by
        rw [sameKeys] at distinct
        exact distinct.of_map _
      exact encodable_m.mpr
        ⟨bound, fun pair member => ⟨keys pair member, values pair member⟩, distinctKeys⟩
  | tag lower upper _ inner => exact encodable_tag.mpr ⟨lower, upper, inner⟩

/-- The codec is a bijection between the canonical octet strings and the values in canonical
order: every accepted octet string is the encoding of the value it decodes to, so it is the
only one that decodes to it, and its maps ascend at every level; and every well-formed value
within the depth bound comes back with the pairs of its maps reordered.
-/
theorem decode_encode_bijection
    : (∀ data v, decode data = .ok v → encode v = .ok data ∧ MapsAscending v)
      ∧ (∀ left right v, decode left = .ok v → decode right = .ok v → left = right)
      ∧ (∀ v, WellFormed NoSurrogate v → depth v ≤ unboundedDepth
        → (encode v >>= decode) = .ok (sortMaps v)) := by
  refine ⟨?_, ?_, ?_⟩
  · intro data v decoded
    exact ⟨encode_decodeBounded decoded, (decode_eq_ok.mp decoded).1.ascending⟩
  · intro left right v decodedLeft decodedRight
    rw [(decode_eq_ok.mp decodedLeft).2, (decode_eq_ok.mp decodedRight).2]
  · intro v wellFormed within
    rw [wellFormed.encodable, ok_bind]
    exact decodeBounded_encode wellFormed.encodable within

/-- A two-pair map given out of order comes back in order, and one octet round trips. -/
theorem decode_encode_bijection_two_pairs
    : (encode (.m [(.u 1, .u 7), (.u 0, .u 8)]) >>= decode)
        = .ok (.m [(.u 0, .u 8), (.u 1, .u 7)])
      ∧ encode (.u 0) = .ok [0] := by
  have small : ∀ {n : Int}, 0 ≤ n → n < 2 ^ 64 → WellFormed NoSurrogate (.u n) := .u
  have wellFormed : WellFormed NoSurrogate (.m [(.u 1, .u 7), (.u 0, .u 8)]) := by
    refine .m (by decide) ?_ ?_ (by decide)
    · simpa using ⟨small (by decide) (by decide), small (by decide) (by decide)⟩
    · simpa using ⟨small (by decide) (by decide), small (by decide) (by decide)⟩
  exact ⟨decode_encode_bijection.2.2 _ wellFormed (by decide),
    (decode_encode_bijection.1 [0] (.u 0) rfl).1⟩

/-- A text holding the lone surrogate U+D800 is a well-formed value of depth one as long as no
condition is put on its code points, and the codec refuses to encode it.
-/
theorem lone_surrogate_not_encoded
    : WellFormed (fun _ => True) (.t [.surrogate 0])
      ∧ depth (.t [.surrogate 0]) ≤ unboundedDepth
      ∧ (encode (.t [.surrogate 0]) >>= decode) = .error .unicodeEncodeError
      ∧ ¬ ∀ v, WellFormed (fun _ => True) v → depth v ≤ unboundedDepth
        → (encode v >>= decode) = .ok (sortMaps v) := by
  have wellFormed : WellFormed (fun _ => True) (.t [.surrogate 0]) :=
    .t trivial fun data encoded => nomatch encoded
  refine ⟨wellFormed, by decide, rfl, ?_⟩
  intro roundTrip
  have refused := roundTrip _ wellFormed (by decide)
  cases refused

end Naalp.Python.Cbor
