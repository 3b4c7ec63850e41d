import Naalp.CanonicalEncoding.Encodings

/-! What the Python decoder accepts: the encodings of canonical values and nothing else. -/

namespace Naalp.Python.Cbor

open Naalp.Foundation

mutual

/-- The nesting depth of a value; the outermost item is depth 1. -/
def depth : Value → Nat
  | .u _ | .n _ | .b _ | .t _ => 1
  | .a items => depthItems items + 1
  | .m pairs => depthPairs pairs + 1
  | .tag _ content => depth content + 1

def depthItems : List Value → Nat
  | [] => 0
  | item :: rest => max (depth item) (depthItems rest)

def depthPairs : List (Value × Value) → Nat
  | [] => 0
  | (k, val) :: rest => max (max (depth k) (depth val)) (depthPairs rest)

end

theorem depthItems_le {items : List Value} {bound : Nat}
    : depthItems items ≤ bound ↔ ∀ item ∈ items, depth item ≤ bound := by
  induction items with
  | nil => simp [depthItems]
  | cons item rest ih => simp [depthItems, ih]

theorem depthPairs_le {pairs : List (Value × Value)} {bound : Nat}
    : depthPairs pairs ≤ bound
      ↔ ∀ pair ∈ pairs, depth pair.1 ≤ bound ∧ depth pair.2 ≤ bound := by
  induction pairs with
  | nil => simp [depthPairs]
  | cons pair rest ih => simp only [depthPairs, max_le_iff, ih, List.forall_mem_cons]

/-- Every map of the value, at every level and in keys too, lists its pairs strictly
ascending by encoded key; so no map has a duplicate key.
-/
inductive MapsAscending : Value → Prop where
  | u (v : Int) : MapsAscending (.u v)
  | n (v : Int) : MapsAscending (.n v)
  | b (v : Bytes) : MapsAscending (.b v)
  | t (v : PyStr) : MapsAscending (.t v)
  | a {items : List Value} (members : ∀ item ∈ items, MapsAscending item)
      : MapsAscending (.a items)
  | m {pairs : List (Value × Value)} (ordered : (pairs.map encodedKey).Pairwise (· < ·))
      (keys : ∀ pair ∈ pairs, MapsAscending pair.1)
      (values : ∀ pair ∈ pairs, MapsAscending pair.2)
      : MapsAscending (.m pairs)
  | tag {number : Int} {content : Value} (inner : MapsAscending content)
      : MapsAscending (.tag number content)

/-- A value that the decoder can return with `remaining` levels left. -/
structure Canonical (remaining : Nat) (v : Value) : Prop where
  encodable : Encodable v
  ascending : MapsAscending v
  within : depth v ≤ remaining

theorem Canonical.mono {levels more : Nat} {v : Value} (canonical : Canonical levels v)
    (le : levels ≤ more)
    : Canonical more v :=
  ⟨canonical.encodable, canonical.ascending, canonical.within.trans le⟩

theorem sortPairs_of_ascending {pairs : List (Value × Value)}
    (ordered : (pairs.map encodedKey).Pairwise (· < ·))
    : sortPairs pairs = pairs := by
  apply List.Pairwise.insertionSort_eq
  exact (List.pairwise_map.mp ordered).imp (fun before => List.le_of_lt before)

theorem nodup_of_ascending {keys : List Bytes} (ordered : keys.Pairwise (· < ·))
    : keys.Nodup := by
  refine List.Pairwise.imp ?_ ordered
  intro left right before same
  subst same
  exact List.lt_irrefl left before

/-- An array is canonical when its items are, one level deeper. -/
theorem canonical_a {remaining : Nat} {items : List Value}
    : Canonical (remaining + 1) (.a items)
      ↔ items.length < 2 ^ 64 ∧ ∀ item ∈ items, Canonical remaining item := by
  constructor
  · intro canonical
    obtain ⟨bound, members⟩ := encodable_a.mp canonical.encodable
    have deep := depthItems_le.mp (Nat.le_of_succ_le_succ canonical.within)
    cases canonical.ascending with
    | a ordered =>
        exact ⟨bound, fun item member =>
          ⟨members item member, ordered item member, deep item member⟩⟩
  · intro canonical
    obtain ⟨bound, members⟩ := canonical
    have encodable := encodable_a.mpr ⟨bound, fun item member => (members item member).encodable⟩
    refine ⟨encodable, .a fun item member => (members item member).ascending,
      Nat.succ_le_succ (depthItems_le.mpr fun item member => (members item member).within)⟩

/-- Two maps with their keys in order and the same pairs are the same. -/
theorem eq_of_ascending {pairs others : List (Value × Value)}
    (ordered : (pairs.map encodedKey).Pairwise (· < ·))
    (othersOrdered : (others.map encodedKey).Pairwise (· < ·))
    (same : ∀ pair, pair ∈ pairs ↔ pair ∈ others)
    : pairs = others := by
  have irreflexive : Std.Irrefl fun p q : Value × Value => encodedKey p < encodedKey q :=
    ⟨fun pair => List.lt_irrefl (encodedKey pair)⟩
  have antisymmetric : Std.Antisymm fun p q : Value × Value => encodedKey p < encodedKey q :=
    ⟨fun p q before after => (List.lt_asymm before after).elim⟩
  exact List.Pairwise.eq_of_mem_iff (List.pairwise_map.mp ordered)
    (List.pairwise_map.mp othersOrdered) same

/-- A map is canonical when its keys ascend and its members are canonical one level deeper. -/
theorem canonical_m {remaining : Nat} {pairs : List (Value × Value)}
    : Canonical (remaining + 1) (.m pairs)
      ↔ pairs.length < 2 ^ 64 ∧ (pairs.map encodedKey).Pairwise (· < ·)
        ∧ ∀ pair ∈ pairs, Canonical remaining pair.1 ∧ Canonical remaining pair.2 := by
  constructor
  · intro canonical
    obtain ⟨bound, members, -⟩ := encodable_m.mp canonical.encodable
    have deep := depthPairs_le.mp (Nat.le_of_succ_le_succ canonical.within)
    cases canonical.ascending with
    | m ordered keys values =>
        refine ⟨bound, ordered, fun pair member => ⟨?_, ?_⟩⟩
        · exact ⟨(members pair member).1, keys pair member, (deep pair member).1⟩
        · exact ⟨(members pair member).2, values pair member, (deep pair member).2⟩
  · intro canonical
    obtain ⟨bound, ordered, members⟩ := canonical
    have encodable := encodable_m.mpr ⟨bound, fun pair member =>
      ⟨(members pair member).1.encodable, (members pair member).2.encodable⟩,
      nodup_of_ascending ordered⟩
    refine ⟨encodable, ?_, ?_⟩
    · exact .m ordered (fun pair member => (members pair member).1.ascending)
        (fun pair member => (members pair member).2.ascending)
    · exact Nat.succ_le_succ (depthPairs_le.mpr fun pair member =>
        ⟨(members pair member).1.within, (members pair member).2.within⟩)

/-- Some of the pairs of a canonical map, in their order, make a canonical map. -/
theorem Canonical.sublist {levels : Nat} {pairs part : List (Value × Value)}
    (canonical : Canonical levels (.m pairs)) (some : part.Sublist pairs)
    : Canonical levels (.m part) := by
  cases levels with
  | zero => exact (Nat.not_succ_le_zero _ canonical.within).elim
  | succ remaining =>
      obtain ⟨bound, ordered, members⟩ := canonical_m.mp canonical
      refine canonical_m.mpr ⟨some.length_le.trans_lt bound,
        ordered.sublist (some.map encodedKey), ?_⟩
      exact fun pair member => members pair (some.subset member)

/-- A tagged value is canonical when its number fits in 64 bits and its content is canonical
one level down.
-/
theorem canonical_tag {remaining : Nat} {number : Int} {content : Value}
    : Canonical (remaining + 1) (.tag number content)
      ↔ 0 ≤ number ∧ number < 2 ^ 64 ∧ Canonical remaining content := by
  constructor
  · intro canonical
    obtain ⟨lower, upper, inner⟩ := encodable_tag.mp canonical.encodable
    cases canonical.ascending with
    | tag ordered =>
        exact ⟨lower, upper, inner, ordered, Nat.le_of_succ_le_succ canonical.within⟩
  · intro canonical
    obtain ⟨lower, upper, inner⟩ := canonical
    have encodable := encodable_tag.mpr ⟨lower, upper, inner.encodable⟩
    exact ⟨encodable, .tag inner.ascending, Nat.succ_le_succ inner.within⟩

/-- A value without members. -/
def Leaf : Value → Prop
  | .u _ | .n _ | .b _ | .t _ => True
  | .a _ | .m _ | .tag _ _ => False

/-- A leaf has no map that could be out of order. -/
theorem Leaf.ascending {v : Value} (leaf : Leaf v) : MapsAscending v := by
  cases v with
  | u v => exact .u v
  | n v => exact .n v
  | b v => exact .b v
  | t v => exact .t v
  | a items => exact leaf.elim
  | m pairs => exact leaf.elim
  | tag number content => exact leaf.elim

theorem Leaf.depth_le {v : Value} (leaf : Leaf v) : depth v ≤ 1 := by
  cases v with
  | a items => exact leaf.elim
  | m pairs => exact leaf.elim
  | tag number content => exact leaf.elim
  | _ => exact Nat.le_refl 1

/-- A map without nested members is canonical when its keys ascend. -/
theorem canonical_of_leaves {pairs : List (Value × Value)} (encodable : Encodable (.m pairs))
    (ordered : (pairs.map encodedKey).Pairwise (· < ·))
    (leaves : ∀ pair ∈ pairs, Leaf pair.1 ∧ Leaf pair.2)
    : Canonical unboundedDepth (.m pairs) := by
  have shallow : depth (.m pairs) ≤ 1 + 1 :=
    Nat.succ_le_succ (depthPairs_le.mpr fun pair member =>
      ⟨(leaves pair member).1.depth_le, (leaves pair member).2.depth_le⟩)
  refine ⟨encodable, ?_, le_trans shallow (by decide)⟩
  exact .m ordered (fun pair member => (leaves pair member).1.ascending)
    (fun pair member => (leaves pair member).2.ascending)

/-- The octets of a canonical map follow the order in which its pairs are listed. -/
theorem encoding_canonical_m {remaining : Nat} {pairs : List (Value × Value)}
    (canonical : Canonical (remaining + 1) (.m pairs))
    : encoding (.m pairs) = headBytes 5 pairs.length ++ pairs.flatMap encodedPair := by
  obtain ⟨-, -, -, octets⟩ := encode_m_eq_ok.mp canonical.encodable
  rw [octets, sortPairs_of_ascending (canonical_m.mp canonical).2.1]

-----------------------------------------------------------------------------------------
-- The loops and the recursion of the decoder
-----------------------------------------------------------------------------------------

/-- One round of the array loop reads one item, whatever the reader of items fails with. -/
theorem decodeItem_eq_ok {ε : Type} {item : Bytes → Except ε (Value × Bytes)}
    {accepted : Value → Prop} (reads : ReadsExactly item accepted encoding)
    (state : Unit) (data : Bytes) (it : Value) (after : Unit) (rest : Bytes)
    : (do
          let (it, cur) ← item data
          return (it, (), cur) : Except ε (Value × Unit × Bytes)) = .ok (it, after, rest)
      ↔ accepted it ∧ after = state ∧ data = encoding it ++ rest := by
  simp only [bind_eq_ok, Prod.exists, reads data, pure_eq_ok, Except.ok.injEq, Prod.mk.injEq]
  constructor
  · intro read
    obtain ⟨_, _, ⟨member, octets⟩, rfl, -, rfl⟩ := read
    exact ⟨member, trivial, octets⟩
  · intro read
    obtain ⟨member, -, octets⟩ := read
    exact ⟨it, rest, ⟨member, octets⟩, rfl, trivial, rfl⟩

section Members

variable {item : Bytes → Py (Value × Bytes)} {accepted : Value → Prop}
  (reads : ReadsExactly item accepted encoding)

include reads

omit reads in
theorem acceptedFrom_items (items : List Value)
    : AcceptedFrom (fun (_ : Unit) it => accepted it) (fun state _ => state) () items
      ↔ ∀ it ∈ items, accepted it := by
  induction items with
  | nil => simp [AcceptedFrom]
  | cons it rest ih => simp [AcceptedFrom, ih]

theorem decodeItems_eq_ok {count : Nat} {data : Bytes} {items : List Value} {rest : Bytes}
    : decodeItems item count data = .ok (items, rest)
      ↔ items.length = count ∧ (∀ it ∈ items, accepted it)
        ∧ data = items.flatMap encoding ++ rest := by
  unfold decodeItems
  rw [readLoop_eq_ok (decodeItem_eq_ok reads), acceptedFrom_items]

/-- One round of the map loop reads one pair whose key is above the one before; the slice
taken for the order check is the encoded key.
Witness: the octets before the value are those that the key took, which is its encoding.
-/
theorem decodePair_eq_ok (prev : Option Bytes) (data : Bytes) (pair : Value × Value)
    (after : Option Bytes) (rest : Bytes)
    : decodePair item prev data = .ok (pair, after, rest)
      ↔ (accepted pair.1 ∧ accepted pair.2 ∧ ∀ p ∈ prev, p < encodedKey pair)
        ∧ after = some (encodedKey pair) ∧ data = encodedPair pair ++ rest := by
  obtain ⟨k, val⟩ := pair
  have slice : ∀ tail : Bytes,
      (encoding k ++ tail).take ((encoding k ++ tail).length - tail.length) = encoding k := by
    intro tail
    simp
  simp only [decodePair, bind_eq_ok, Prod.exists, raiseIf_eq_ok, exists_const, pure_eq_ok,
    Except.ok.injEq, Prod.mk.injEq, not_exists, not_and, List.not_le, encodedKey, encodedPair]
  constructor
  · intro read
    obtain ⟨_, _, key, _, _, value, above, ⟨rfl, rfl⟩, rfl, rfl⟩ := read
    obtain ⟨keyAccepted, rfl⟩ := (reads ..).mp key
    obtain ⟨valueAccepted, rfl⟩ := (reads ..).mp value
    rw [slice] at above ⊢
    exact ⟨⟨keyAccepted, valueAccepted, above⟩, rfl, by rw [List.append_assoc]⟩
  · intro read
    obtain ⟨⟨keyAccepted, valueAccepted, above⟩, rfl, rfl⟩ := read
    rw [List.append_assoc]
    refine ⟨k, encoding val ++ rest, (reads ..).mpr ⟨keyAccepted, rfl⟩, val, rest,
      (reads ..).mpr ⟨valueAccepted, rfl⟩, ?_⟩
    rw [slice]
    exact ⟨above, ⟨rfl, rfl⟩, rfl, rfl⟩

omit reads in
/-- Neighbouring comparisons extend to all pairs by transitivity; by induction over them. -/
theorem acceptedFrom_pairs (pairs : List (Value × Value))
    : AcceptedFrom
          (fun prev pair => accepted pair.1 ∧ accepted pair.2 ∧ ∀ p ∈ prev, p < encodedKey pair)
          (fun _ pair => some (encodedKey pair)) none pairs
      ↔ (pairs.map encodedKey).Pairwise (· < ·)
        ∧ ∀ pair ∈ pairs, accepted pair.1 ∧ accepted pair.2 := by
  have ascending : ∀ (pairs : List (Value × Value)) (prev : Option Bytes),
      AcceptedFrom
          (fun prev pair => accepted pair.1 ∧ accepted pair.2 ∧ ∀ p ∈ prev, p < encodedKey pair)
          (fun _ pair => some (encodedKey pair)) prev pairs
        ↔ (∀ pair ∈ pairs, accepted pair.1 ∧ accepted pair.2)
          ∧ (prev.toList ++ pairs.map encodedKey).IsChain (· < ·) := by
    intro pairs
    induction pairs with
    | nil =>
        intro prev
        cases prev <;> simp [AcceptedFrom]
    | cons pair rest ih =>
        intro prev
        simp only [AcceptedFrom, ih, List.forall_mem_cons, List.map_cons]
        cases prev with
        | none => simp [and_assoc]
        | some key =>
            simp only [Option.mem_def, Option.some.injEq, forall_eq', Option.toList_some,
              List.cons_append, List.nil_append, List.isChain_cons_cons]
            exact ⟨fun h => ⟨⟨⟨h.1.1, h.1.2.1⟩, h.2.1⟩, h.1.2.2, h.2.2⟩,
              fun h => ⟨⟨h.1.1.1, h.1.1.2, h.2.1⟩, h.1.2, h.2.2⟩⟩
  rw [ascending, Option.toList_none, List.nil_append, List.isChain_iff_pairwise, and_comm]

/-- The map loop reads exactly pairs whose encoded keys ascend, by the loop rule. -/
theorem decodePairs_eq_ok {count : Nat} {data : Bytes} {pairs : List (Value × Value)}
    {rest : Bytes}
    : decodePairs item count data = .ok (pairs, rest)
      ↔ pairs.length = count ∧ (pairs.map encodedKey).Pairwise (· < ·)
        ∧ (∀ pair ∈ pairs, accepted pair.1 ∧ accepted pair.2)
        ∧ data = pairs.flatMap encodedPair ++ rest := by
  unfold decodePairs
  rw [readLoop_eq_ok (decodePair_eq_ok reads), acceptedFrom_pairs, and_assoc]

end Members

/-- Decoding with no level left accepts nothing, and no value has depth zero. -/
theorem not_canonical_zero (v : Value) : ¬ Canonical 0 v := by
  intro canonical
  have within := canonical.within
  cases v <;> simp [depth] at within

/-- Whatever the decoder returns is canonical and was read from its own encoding. Witness:
the eight major types, with the two loops at one level less.
-/
theorem dec_sound {remaining : Nat}
    (reads : ReadsExactly (dec remaining) (Canonical remaining) encoding)
    {data : Bytes} {v : Value} {rest : Bytes}
    (decoded : dec (remaining + 1) data = .ok (v, rest))
    : Canonical (remaining + 1) v ∧ data = encoding v ++ rest := by
  simp only [dec, bind_eq_ok, Prod.exists] at decoded
  obtain ⟨major, arg, body, read, decoded⟩ := decoded
  obtain ⟨-, bound, rfl⟩ := decodeHead_eq_ok.mp read
  unfold decodeContent at decoded
  split at decoded
  · obtain ⟨rfl, rfl⟩ := Prod.mk.inj (Except.ok.inj decoded)
    have written := (@encode_u_eq_ok (arg : Int) _).mpr ⟨by omega, by omega, rfl⟩
    obtain ⟨encodable, octets⟩ := encode_eq_ok.mp written
    exact ⟨⟨encodable, .u _, by simp [depth]⟩, by rw [← octets, Int.toNat_natCast]⟩
  · obtain ⟨rfl, rfl⟩ := Prod.mk.inj (Except.ok.inj decoded)
    have written := (@encode_n_eq_ok (-1 - arg) _).mpr ⟨by omega, by omega, rfl⟩
    obtain ⟨encodable, octets⟩ := encode_eq_ok.mp written
    refine ⟨⟨encodable, .n _, by simp [depth]⟩, ?_⟩
    rw [← octets, show (-1 - (-1 - (arg : Int))).toNat = arg by omega]
  · simp only [bind_eq_ok, raiseIf_eq_ok, exists_const, pure_eq_ok, Except.ok.injEq,
      Prod.mk.injEq, not_lt] at decoded
    obtain ⟨enough, rfl, rfl⟩ := decoded
    have size : (body.take arg).length = arg := List.length_take_of_le enough
    have written := (@encode_b_eq_ok (body.take arg) _).mpr ⟨by omega, rfl⟩
    obtain ⟨encodable, octets⟩ := encode_eq_ok.mp written
    refine ⟨⟨encodable, .b _, by simp [depth]⟩, ?_⟩
    rw [← octets, size, List.append_assoc, List.take_append_drop]
  · simp only [bind_eq_ok, raiseIf_eq_ok, exists_const, pure_eq_ok, Except.ok.injEq,
      Prod.mk.injEq, not_lt] at decoded
    obtain ⟨enough, text, textRead, rfl, rfl⟩ := decoded
    have size : (body.take arg).length = arg := List.length_take_of_le enough
    have written := encode_t_eq_ok.mpr
      ⟨_, PyStr.encode_of_decode textRead, by omega, rfl⟩
    obtain ⟨encodable, octets⟩ := encode_eq_ok.mp written
    refine ⟨⟨encodable, .t _, by simp [depth]⟩, ?_⟩
    rw [← octets, size, List.append_assoc, List.take_append_drop]
  · simp only [bind_eq_ok, Prod.exists, decodeItems_eq_ok reads, pure_eq_ok, Except.ok.injEq,
      Prod.mk.injEq] at decoded
    obtain ⟨items, _, ⟨rfl, members, rfl⟩, rfl, rfl⟩ := decoded
    have canonical := canonical_a.mpr ⟨bound, members⟩
    obtain ⟨-, -, octets⟩ := encode_a_eq_ok.mp canonical.encodable
    exact ⟨canonical, by rw [octets, List.append_assoc]⟩
  · simp only [bind_eq_ok, Prod.exists, decodePairs_eq_ok reads, pure_eq_ok, Except.ok.injEq,
      Prod.mk.injEq] at decoded
    obtain ⟨pairs, _, ⟨rfl, ordered, members, rfl⟩, rfl, rfl⟩ := decoded
    have canonical := canonical_m.mpr ⟨bound, ordered, members⟩
    exact ⟨canonical, by rw [encoding_canonical_m canonical, List.append_assoc]⟩
  · simp only [bind_eq_ok, Prod.exists, reads body, pure_eq_ok, Except.ok.injEq,
      Prod.mk.injEq] at decoded
    obtain ⟨content, _, ⟨inner, rfl⟩, rfl, rfl⟩ := decoded
    have canonical := (@canonical_tag _ (arg : Int) _).mpr ⟨by omega, by omega, inner⟩
    obtain ⟨-, -, -, octets⟩ := encode_tag_eq_ok.mp canonical.encodable
    exact ⟨canonical, by rw [octets, Int.toNat_natCast, List.append_assoc]⟩
  · cases decoded

/-- The decoder reads every canonical value back from its encoding, by constructor. -/
theorem dec_complete {remaining : Nat}
    (reads : ReadsExactly (dec remaining) (Canonical remaining) encoding)
    {v : Value} {rest : Bytes} (canonical : Canonical (remaining + 1) v)
    : dec (remaining + 1) (encoding v ++ rest) = .ok (v, rest) := by
  have readHead : ∀ {major arg : Nat} {tail : Bytes}, major < 8 → arg < 2 ^ 64
      → decodeHead (headBytes major arg ++ tail) = .ok (major, arg, tail) :=
    fun majorSmall bound => decodeHead_eq_ok.mpr ⟨majorSmall, bound, rfl⟩
  cases v with
  | u v =>
      obtain ⟨lower, upper, octets⟩ := encode_u_eq_ok.mp canonical.encodable
      obtain ⟨arg, rfl⟩ := Int.eq_ofNat_of_zero_le lower
      rw [octets, dec, readHead (by decide) (by omega)]
      rfl
  | n v =>
      obtain ⟨lower, upper, octets⟩ := encode_n_eq_ok.mp canonical.encodable
      obtain ⟨arg, same⟩ := Int.eq_ofNat_of_zero_le (show 0 ≤ -1 - v by omega)
      obtain rfl : v = -1 - (arg : Int) := by omega
      rw [octets, same, Int.toNat_natCast, dec, readHead (by decide) (by omega)]
      rfl
  | b v =>
      obtain ⟨bound, octets⟩ := encode_b_eq_ok.mp canonical.encodable
      rw [octets, List.append_assoc, dec, readHead (by decide) bound]
      simp [decodeContent]
  | t v =>
      obtain ⟨text, encoded, bound, octets⟩ := encode_t_eq_ok.mp canonical.encodable
      rw [octets, List.append_assoc, dec, readHead (by decide) bound]
      simp [decodeContent, PyStr.decode_of_encode encoded]
  | a items =>
      obtain ⟨bound, -, octets⟩ := encode_a_eq_ok.mp canonical.encodable
      have loop : decodeItems (dec remaining) items.length (items.flatMap encoding ++ rest)
          = .ok (items, rest) :=
        (decodeItems_eq_ok reads).mpr ⟨rfl, (canonical_a.mp canonical).2, rfl⟩
      rw [octets, List.append_assoc, dec, readHead (by decide) bound]
      simp [decodeContent, loop]
  | m pairs =>
      obtain ⟨bound, ordered, members⟩ := canonical_m.mp canonical
      have loop : decodePairs (dec remaining) pairs.length (pairs.flatMap encodedPair ++ rest)
          = .ok (pairs, rest) :=
        (decodePairs_eq_ok reads).mpr ⟨rfl, ordered, members, rfl⟩
      rw [encoding_canonical_m canonical, List.append_assoc, dec, readHead (by decide) bound]
      simp [decodeContent, loop]
  | tag number content =>
      obtain ⟨lower, upper, inner⟩ := canonical_tag.mp canonical
      obtain ⟨-, -, -, octets⟩ := encode_tag_eq_ok.mp canonical.encodable
      obtain ⟨arg, rfl⟩ := Int.eq_ofNat_of_zero_le lower
      have read := (reads _ content rest).mpr ⟨inner, rfl⟩
      rw [octets, List.append_assoc, Int.toNat_natCast, dec, readHead (by decide) (by omega)]
      simp [decodeContent, read]

/-- The decoder reads exactly the canonical values of its depth, by induction on the levels
left.
-/
theorem dec_readsExactly (remaining : Nat)
    : ReadsExactly (dec remaining) (Canonical remaining) encoding := by
  induction remaining with
  | zero =>
      intro data v rest
      simp [dec, not_canonical_zero v]
  | succ remaining ih =>
      intro data v rest
      refine ⟨dec_sound ih, ?_⟩
      intro h
      rw [h.2]
      exact dec_complete ih h.1

/-- The decoder returns a value exactly when it is canonical within the depth and the octets
are its encoding.
-/
theorem decodeBounded_eq_ok {data : Bytes} {maxDepth : Nat} {v : Value}
    : decodeBounded data maxDepth = .ok v ↔ Canonical maxDepth v ∧ data = encoding v := by
  simp only [decodeBounded, bind_eq_ok, Prod.exists, raiseIf_eq_ok, exists_const, pure_eq_ok,
    Except.ok.injEq, not_not, dec_readsExactly maxDepth data]
  constructor
  · intro decoded
    obtain ⟨_, _, ⟨canonical, octets⟩, rfl, rfl⟩ := decoded
    exact ⟨canonical, by simpa using octets⟩
  · intro decoded
    exact ⟨v, [], ⟨decoded.1, by simpa using decoded.2⟩, rfl, rfl⟩

theorem decode_eq_ok {data : Bytes} {v : Value}
    : decode data = .ok v ↔ Canonical unboundedDepth v ∧ data = encoding v :=
  decodeBounded_eq_ok

section Leaves

variable {pairs pairs' : List (Value × Value)} {data : Bytes}
  (ordered : (pairs.map encodedKey).Pairwise (· < ·))
  (leaves : ∀ pair ∈ pairs, Leaf pair.1 ∧ Leaf pair.2)

include ordered leaves

/-- A map without nested members is read back when its keys ascend. -/
theorem decode_of_leaves (encoded : encode (.m pairs) = .ok data)
    : decode data = .ok (.m pairs) := by
  obtain ⟨encodable, rfl⟩ := encode_eq_ok.mp encoded
  exact decode_eq_ok.mpr ⟨canonical_of_leaves encodable ordered leaves, rfl⟩

/-- Octets that decode to a map are the encoding of such a map exactly when it is the same map. -/
theorem encode_of_leaves_iff (decoded : decode data = .ok (.m pairs'))
    : encode (.m pairs) = .ok data ↔ pairs' = pairs := by
  constructor
  · intro encoded
    have again := decode_of_leaves ordered leaves encoded
    exact Value.m.inj (Except.ok.inj (decoded.symm.trans again))
  · rintro rfl
    obtain ⟨canonical, rfl⟩ := decode_eq_ok.mp decoded
    exact canonical.encodable

/-- Two such maps with the same octets are equal. -/
theorem pairs_eq_of_leaves (ordered' : (pairs'.map encodedKey).Pairwise (· < ·))
    (leaves' : ∀ pair ∈ pairs', Leaf pair.1 ∧ Leaf pair.2)
    (encoded : encode (.m pairs) = .ok data) (encoded' : encode (.m pairs') = .ok data)
    : pairs = pairs' := by
  have read := decode_of_leaves ordered leaves encoded
  have read' := decode_of_leaves ordered' leaves' encoded'
  exact Value.m.inj (Except.ok.inj (read.symm.trans read'))

end Leaves

-----------------------------------------------------------------------------------------
-- Numbered fields
-----------------------------------------------------------------------------------------

/-- Values under the unsigned keys from `k` on, the form of most signed bodies. -/
def numbered : (k : Nat) → List Value → List (Value × Value)
  | _, [] => []
  | k, v :: rest => (.u k, v) :: numbered (k + 1) rest

section Numbered

variable {k : Nat} {values : List Value}

theorem numbered_values : (numbered k values).map Prod.snd = values := by
  induction values generalizing k with
  | nil => rfl
  | cons v rest ih => rw [numbered, List.map_cons, ih]

theorem length_numbered : (numbered k values).length = values.length := by
  calc (numbered k values).length
      = ((numbered k values).map Prod.snd).length := (List.length_map Prod.snd).symm
    _ = values.length := by rw [numbered_values]

/-- The keys of a numbered map are the integers from its first one on, by induction on the
values.
-/
theorem key_of_mem_numbered {pair : Value × Value} (member : pair ∈ numbered k values)
    : ∃ n : Nat, k ≤ n ∧ n < k + values.length ∧ pair.1 = .u n := by
  induction values generalizing k with
  | nil => cases member
  | cons v rest ih =>
      rw [numbered] at member
      rw [List.length_cons]
      rcases List.mem_cons.mp member with rfl | later
      · exact ⟨k, Nat.le_refl k, by omega, rfl⟩
      · obtain ⟨n, above, below, named⟩ := ih later
        exact ⟨n, by omega, by omega, named⟩

/-- Keys of one octet ascend with their numbers. -/
theorem numbered_ascending (few : k + values.length ≤ 24)
    : ((numbered k values).map encodedKey).Pairwise (· < ·) := by
  have octets : ∀ n : Nat, n < 24 → ∀ m : Nat, m < n → encoding (.u m) < encoding (.u n) := by
    decide
  induction values generalizing k with
  | nil => exact .nil
  | cons v rest ih =>
      rw [List.length_cons] at few
      refine .cons ?_ (ih (by omega))
      intro key member
      obtain ⟨pair, later, rfl⟩ := List.mem_map.mp member
      obtain ⟨n, above, below, named⟩ := key_of_mem_numbered later
      rw [encodedKey, encodedKey, named]
      exact octets n (by omega) k (by omega)

theorem numbered_leaves (leaves : ∀ v ∈ values, Leaf v)
    : ∀ pair ∈ numbered k values, Leaf pair.1 ∧ Leaf pair.2 := by
  intro pair member
  obtain ⟨n, -, -, key⟩ := key_of_mem_numbered member
  have value : pair.2 ∈ (numbered k values).map Prod.snd := List.mem_map_of_mem member
  rw [numbered_values] at value
  exact ⟨key ▸ trivial, leaves _ value⟩

theorem decode_numbered (few : k + values.length ≤ 24) (leaves : ∀ v ∈ values, Leaf v)
    {body : Bytes} (encoded : encode (.m (numbered k values)) = .ok body)
    : decode body = .ok (.m (numbered k values)) :=
  decode_of_leaves (numbered_ascending few) (numbered_leaves leaves) encoded

/-- Bodies of numbered leaves have one encoding each. -/
theorem values_eq_of_encode {values' : List Value} {body : Bytes} (few : k + values.length ≤ 24)
    (few' : k + values'.length ≤ 24) (leaves : ∀ v ∈ values, Leaf v)
    (leaves' : ∀ v ∈ values', Leaf v)
    (encoded : encode (.m (numbered k values)) = .ok body)
    (encoded' : encode (.m (numbered k values')) = .ok body)
    : values = values' := by
  have pairs := pairs_eq_of_leaves (numbered_ascending few) (numbered_leaves leaves)
    (numbered_ascending few') (numbered_leaves leaves') encoded encoded'
  calc values
      = (numbered k values).map Prod.snd := numbered_values.symm
    _ = (numbered k values').map Prod.snd := by rw [pairs]
    _ = values' := numbered_values

/-- A numbered map can be encoded exactly when its values can; its keys are different integers.
-/
theorem encodable_numbered (few : k + values.length ≤ 24)
    : Encodable (.m (numbered k values)) ↔ ∀ v ∈ values, Encodable v := by
  have short : (numbered k values).length < 2 ^ 64 := by
    rw [length_numbered]
    omega
  have members : (∀ v ∈ values, Encodable v) ↔ ∀ pair ∈ numbered k values, Encodable pair.2 := by
    rw [← @numbered_values k values, List.forall_mem_map, numbered_values]
  rw [encodable_m, members]
  constructor
  · exact fun encodable pair member => (encodable.2.1 pair member).2
  · intro fits
    refine ⟨short, fun pair member => ⟨?_, fits pair member⟩,
      nodup_of_ascending (numbered_ascending few)⟩
    obtain ⟨n, -, below, named⟩ := key_of_mem_numbered member
    rw [named, encodable_u]
    exact ⟨by omega, by omega⟩

end Numbered

end Naalp.Python.Cbor
