import Naalp.CanonicalEncoding.RoundTrip
import Naalp.Foundation.PrefixReader

/-! Maps with numbered fields of which some may be absent, as the readers of bodies take them apart.
-/

namespace Naalp.Bodies

open Naalp.Foundation
open Naalp.Python.Cbor

/-- The pair of a field that is present. -/
def slot {α : Type} (k : Int) (mk : α → Value) (field : Option α) : List (Value × Value) :=
  (field.map fun v => (.u k, mk v)).toList

section Slots

variable {α : Type} {k : Int} {mk : α → Value} {field : Option α} {pair : Value × Value}

@[simp]
theorem mem_slot : pair ∈ slot k mk field ↔ ∃ v, field = some v ∧ pair = (.u k, mk v) := by
  cases field <;> simp [slot]

@[simp]
theorem slot_none : slot k mk none = [] := rfl

@[simp]
theorem slot_some {v : α} : slot k mk (some v) = [(.u k, mk v)] := rfl

theorem slot_keys : ((slot k mk field).map Prod.fst).Sublist [.u k] := by
  cases field with
  | none => exact List.nil_sublist _
  | some v => exact List.Sublist.refl _

/-- Slots one after the other have some of their keys, in order. -/
theorem slots_keys {pairs : List (Value × Value)} {keys : List Value}
    (before : (pairs.map Prod.fst).Sublist keys)
    : ((pairs ++ slot k mk field).map Prod.fst).Sublist (keys ++ [.u k]) := by
  rw [List.map_append]
  exact before.append slot_keys

end Slots

section Ordered

variable {ε σ : Type} {read : σ → Value × Value → Except ε σ} {shows : σ → List (Value × Value)}
  {admits : Value × Value → Prop} {start : σ} {pairs : List (Value × Value)}

theorem keys_nodup (ordered : (pairs.map encodedKey).Pairwise (· < ·))
    : (pairs.map Prod.fst).Nodup := by
  have encoded : (pairs.map Prod.fst).map encoding = pairs.map encodedKey := by
    rw [List.map_map]
    rfl
  exact List.Nodup.of_map encoding (encoded ▸ nodup_of_ascending ordered)

/-- Some of the keys of an ascending list ascend. -/
theorem ascending_of_keys {keys : List Value} (some : (pairs.map Prod.fst).Sublist keys)
    (ordered : (keys.map encoding).Pairwise (· < ·))
    : (pairs.map encodedKey).Pairwise (· < ·) := by
  have same : pairs.map encodedKey = (pairs.map Prod.fst).map encoding := by
    rw [List.map_map]
    rfl
  rw [same]
  exact ordered.sublist (some.map encoding)

/-- The pairs of a canonical map are those that the state read from them shows, when they have every
key that the first state shows.
-/
theorem pairs_eq_shows_of_covered {final : σ} (shown : ShowsFields Prod.fst read shows admits)
    (ordered : (pairs.map encodedKey).Pairwise (· < ·))
    (orderedShown : ((shows final).map encodedKey).Pairwise (· < ·))
    (admitted : ∀ pair ∈ pairs, admits pair)
    (covered : ∀ pair ∈ shows start, pair.1 ∈ pairs.map Prod.fst)
    (ran : pairs.foldlM read start = .ok final)
    : pairs = shows final := by
  have irreflexive : Std.Irrefl fun p q : Value × Value => encodedKey p < encodedKey q :=
    ⟨fun pair => List.lt_irrefl (encodedKey pair)⟩
  have antisymmetric : Std.Antisymm fun p q : Value × Value => encodedKey p < encodedKey q :=
    ⟨fun p q before after => (List.lt_asymm before after).elim⟩
  exact shown.eq_shows (keys_nodup ordered) admitted covered (List.pairwise_map.mp ordered)
    (List.pairwise_map.mp orderedShown) ran

theorem pairs_eq_shows {final : σ} (shown : ShowsFields Prod.fst read shows admits)
    (ordered : (pairs.map encodedKey).Pairwise (· < ·))
    (orderedShown : ((shows final).map encodedKey).Pairwise (· < ·))
    (admitted : ∀ pair ∈ pairs, admits pair) (empty : shows start = [])
    (ran : pairs.foldlM read start = .ok final)
    : pairs = shows final := by
  refine pairs_eq_shows_of_covered shown ordered orderedShown admitted ?_ ran
  simp [empty]

/-- A reader of maps without nested members: what a state shows is in order, and is read back. -/
structure FlatReader (read : σ → Value × Value → Except ε σ) (start : σ)
    (shows : σ → List (Value × Value)) : Prop where
  shown : ShowsFields Prod.fst read shows (fun _ => True)
  empty : shows start = []
  ordered (state : σ) : ((shows state).map encodedKey).Pairwise (· < ·)
  leaves (state : σ) : ∀ pair ∈ shows state, Leaf pair.1 ∧ Leaf pair.2
  replays (state : σ) : (shows state).foldlM read start = .ok state

/-- Such a reader ends in a state exactly on the encoding of the map that the state shows. -/
theorem FlatReader.read_iff (reader : FlatReader read start shows) (final : σ) (b : Bytes)
    : (∃ pairs, decode b = .ok (.m pairs) ∧ pairs.foldlM read start = .ok final)
      ↔ encode (.m (shows final)) = .ok b := by
  constructor
  · intro accepted
    obtain ⟨pairs, decoded, ran⟩ := accepted
    obtain ⟨canonical, rfl⟩ := decode_eq_ok.mp decoded
    have ordered := (@canonical_m (unboundedDepth - 1) pairs).mp canonical
    obtain rfl := pairs_eq_shows reader.shown ordered.2.1 (reader.ordered final)
      (fun _ _ => trivial) reader.empty ran
    exact canonical.encodable
  · intro encoded
    exact ⟨_, decode_of_leaves (reader.ordered final) (reader.leaves final) encoded,
      reader.replays final⟩

end Ordered

-----------------------------------------------------------------------------------------
-- Nested values
-----------------------------------------------------------------------------------------

/-- A value whose maps list their keys in order, and that nests at most so deep. -/
structure InOrder (levels : Nat) (v : Value) : Prop where
  ascending : MapsAscending v
  within : depth v ≤ levels

section InOrder

variable {levels more : Nat} {v : Value}

theorem InOrder.mono (inOrder : InOrder levels v) (le : levels ≤ more) : InOrder more v :=
  ⟨inOrder.ascending, inOrder.within.trans le⟩

theorem InOrder.canonical (inOrder : InOrder levels v) (encodable : Encodable v)
    : Canonical levels v :=
  ⟨encodable, inOrder.ascending, inOrder.within⟩

theorem InOrder.leaf (leaf : Leaf v) (positive : 1 ≤ levels) : InOrder levels v :=
  ⟨leaf.ascending, leaf.depth_le.trans positive⟩

theorem InOrder.a {items : List Value} (members : ∀ item ∈ items, InOrder levels item)
    : InOrder (levels + 1) (.a items) :=
  ⟨.a fun item member => (members item member).ascending,
    Nat.succ_le_succ (depthItems_le.mpr fun item member => (members item member).within)⟩

theorem InOrder.m {pairs : List (Value × Value)}
    (ordered : (pairs.map encodedKey).Pairwise (· < ·)) (positive : 1 ≤ levels)
    (members : ∀ pair ∈ pairs, Leaf pair.1 ∧ InOrder levels pair.2)
    : InOrder (levels + 1) (.m pairs) := by
  refine ⟨.m ordered ?_ ?_, Nat.succ_le_succ (depthPairs_le.mpr ?_)⟩
  · exact fun pair member => (members pair member).1.ascending
  · exact fun pair member => (members pair member).2.ascending
  · exact fun pair member =>
      ⟨(members pair member).1.depth_le.trans positive, (members pair member).2.within⟩

/-- What has an encoding is read back from it. -/
theorem InOrder.decode (inOrder : InOrder levels v) (shallow : levels ≤ unboundedDepth) {b : Bytes}
    (encoded : encode v = .ok b)
    : decode b = .ok v := by
  obtain ⟨encodable, rfl⟩ := encode_eq_ok.mp encoded
  exact decode_eq_ok.mpr ⟨(inOrder.mono shallow).canonical encodable, rfl⟩

end InOrder

/-- A value as the decoder returns it, at some level. -/
def Decoded (v : Value) : Prop := ∃ levels, Canonical levels v

theorem decoded_of_decode {b : Bytes} {v : Value} (decoded : decode b = .ok v) : Decoded v :=
  ⟨_, (decode_eq_ok.mp decoded).1⟩

theorem decoded_m {pairs : List (Value × Value)} (decoded : Decoded (.m pairs))
    : (pairs.map encodedKey).Pairwise (· < ·) ∧ ∀ pair ∈ pairs, Decoded pair.2 := by
  obtain ⟨levels, canonical⟩ := decoded
  cases levels with
  | zero => exact (Nat.not_succ_le_zero _ canonical.within).elim
  | succ levels =>
      obtain ⟨-, ordered, members⟩ := canonical_m.mp canonical
      exact ⟨ordered, fun pair member => ⟨levels, (members pair member).2⟩⟩

theorem decoded_a {items : List Value} (decoded : Decoded (.a items))
    : ∀ item ∈ items, Decoded item := by
  obtain ⟨levels, canonical⟩ := decoded
  cases levels with
  | zero => exact (Nat.not_succ_le_zero _ canonical.within).elim
  | succ levels => exact fun item member => ⟨levels, (canonical_a.mp canonical).2 item member⟩

/-- A parser of values that takes exactly what a writer makes of well-formed things: any decoded
value that it accepts, and everything that is written.
-/
structure InverseOn {ε α : Type} (parse : Value → Except ε α) (write : α → Value)
    (wellFormed : α → Prop) : Prop where
  written {v : Value} {x : α} : Decoded v → parse v = .ok x → v = write x ∧ wellFormed x
  read {x : α} : wellFormed x → parse (write x) = .ok x

/-- An array of things is parsed item by item. -/
theorem InverseOn.written_of_mapM {ε α : Type} {parse : Value → Except ε α} {write : α → Value}
    {wellFormed : α → Prop} (inverse : InverseOn parse write wellFormed) {items : List Value}
    {xs : List α}
    : (∀ item ∈ items, Decoded item) → items.mapM parse = .ok xs
      → items = xs.map write ∧ ∀ x ∈ xs, wellFormed x := by
  induction items generalizing xs with
  | nil =>
      intro _ parsed
      obtain rfl := Except.ok.inj parsed
      simp
  | cons item rest ih =>
      intro decoded parsed
      obtain ⟨first, decodedRest⟩ := List.forall_mem_cons.mp decoded
      simp only [List.mapM_cons, bind_eq_ok, pure_eq_ok] at parsed
      obtain ⟨x, accepted, later, parsedRest, same⟩ := parsed
      obtain rfl := Except.ok.inj same
      obtain ⟨rfl, formed⟩ := inverse.written first accepted
      obtain ⟨rfl, formedRest⟩ := ih decodedRest parsedRest
      exact ⟨rfl, List.forall_mem_cons.mpr ⟨formed, formedRest⟩⟩

theorem InverseOn.mapM_map {ε α : Type} {parse : Value → Except ε α} {write : α → Value}
    {wellFormed : α → Prop} (inverse : InverseOn parse write wellFormed) {xs : List α}
    (formed : ∀ x ∈ xs, wellFormed x)
    : (xs.map write).mapM parse = .ok xs := by
  induction xs with
  | nil => rfl
  | cons x rest ih =>
      obtain ⟨first, formedRest⟩ := List.forall_mem_cons.mp formed
      rw [List.map_cons, List.mapM_cons, inverse.read first, ok_bind, ih formedRest]
      rfl

/-- Then the octets that parse to something are those that encode it. -/
theorem InverseOn.parse_iff {α : Type} {parse : Value → Python.Py α} {write : α → Value}
    {wellFormed : α → Prop} (inverse : InverseOn parse write wellFormed)
    {levels : Nat} (shallow : levels ≤ unboundedDepth) (inOrder : ∀ x, InOrder levels (write x))
    {b : Bytes} {x : α}
    : (decode b >>= parse) = .ok x ↔ encode (write x) = .ok b ∧ wellFormed x := by
  constructor
  · intro parsed
    obtain ⟨v, decoded, accepted⟩ := bind_eq_ok.mp parsed
    obtain ⟨rfl, formed⟩ := inverse.written (decoded_of_decode decoded) accepted
    obtain ⟨canonical, rfl⟩ := decode_eq_ok.mp decoded
    exact ⟨canonical.encodable, formed⟩
  · intro written
    obtain ⟨encoded, formed⟩ := written
    rw [(inOrder x).decode shallow encoded, ok_bind]
    exact inverse.read formed

end Naalp.Bodies
