import Mathlib.Data.List.Sort
import Naalp.Envelope.BodyMap
import Naalp.Go.Naming
import Naalp.Implementations.Codec
import Naalp.Signatures.Productions

/-! The bodies of name bindings and task transitions. The readers of both implementations take the
fields that they know from a map and leave its other entries unread, so a body is the encoding of
what is read from it exactly when it has no other keys.
-/

namespace Naalp.Names

open Naalp.Foundation
open Naalp.Python
open Naalp.Python.Cbor
open Naalp.Python.Fields
open Naalp.Python.Naming
open Naalp.Implementations
open Naalp.Signatures

-----------------------------------------------------------------------------------------
-- Fields of a map with distinct keys
-----------------------------------------------------------------------------------------

/-- Under distinct keys a field is looked up to the value it is paired with. -/
theorem field_eq_some {m : List (Value × Value)} {k : Int} {v : Value}
    (distinct : (m.map encodedKey).Nodup)
    : field k m = some v ↔ (.u k, v) ∈ m := by
  induction m with
  | nil => simp [field]
  | cons pair rest ih =>
      obtain ⟨key, val⟩ := pair
      obtain ⟨fresh, distinct⟩ := List.nodup_cons.mp distinct
      have later := ih distinct
      rw [List.mem_cons, Prod.mk.injEq, ← later]
      by_cases here : key = .u k
      · subst here
        have absent : field k rest ≠ some v := by
          intro found
          exact fresh (List.mem_map.mpr ⟨_, later.mp found, rfl⟩)
        simp [field, absent, eq_comm]
      · have other : .u k ≠ key := Ne.symm here
        cases key with
        | u n =>
            have different : n ≠ k := fun same => here (same ▸ rfl)
            simp [field, different, other]
        | _ => simp [field]

/-- The map has no keys but these. -/
def KeysWithin (keys : List Int) (m : List (Value × Value)) : Prop :=
  ∀ pair ∈ m, ∃ k ∈ keys, pair.1 = .u k

/-- A map that pairs the known keys with what it has under them has no other keys exactly when it
is those pairs.
Witness: both are maps with ascending keys, so they are equal when they have the same entries.
-/
theorem keysWithin_iff {m pairs : List (Value × Value)} {keys : List Int}
    (ordered : (m.map encodedKey).Pairwise (· < ·))
    (ordered' : (pairs.map encodedKey).Pairwise (· < ·))
    (known : pairs.map Prod.fst = keys.map .u)
    (fields : ∀ k v, (.u k, v) ∈ pairs → field k m = some v)
    : KeysWithin keys m ↔ m = pairs := by
  have distinct := nodup_of_ascending ordered
  have named (pair : Value × Value)
      : (∃ k ∈ keys, pair.1 = .u k) ↔ pair.1 ∈ pairs.map Prod.fst := by
    simp [known, eq_comm]
  constructor
  · intro within
    refine eq_of_ascending ordered ordered' fun pair => ?_
    constructor
    · intro member
      obtain ⟨pair', member', same⟩ := List.mem_map.mp ((named pair).mp (within pair member))
      obtain ⟨k, v⟩ := pair
      obtain ⟨n, -, rfl⟩ := within (k, v) member
      obtain ⟨_, v'⟩ := pair'
      obtain rfl : _ = Value.u n := same
      have found := (field_eq_some distinct).mp (fields n v' member')
      exact List.inj_on_of_nodup_map distinct member found rfl ▸ member'
    · intro member
      obtain ⟨n, -, same⟩ := (named pair).mpr (List.mem_map_of_mem member)
      obtain ⟨k, v⟩ := pair
      obtain rfl : k = Value.u n := same
      exact (field_eq_some distinct).mp (fields n v member)
  · rintro rfl pair member
    exact (named pair).mpr (List.mem_map_of_mem member)

-----------------------------------------------------------------------------------------
-- The readers
-----------------------------------------------------------------------------------------

section Readers

variable {b : Bytes} {m : List (Value × Value)}

theorem goDecodeMap_eq_some
    : Go.Fields.decodeMap b = some m ↔ decode b = .ok (.m m) ∧ NintsFit (.m m) := by
  rw [← goDecode_eq_ok, Go.Fields.decodeMap]
  split <;> simp_all

/-- The pairs of the body of a binding. -/
def bindingPairs (nb : NameBinding) : List (Value × Value) :=
  [(.u 1, .t nb.name), (.u 2, .b nb.signer), (.u 3, .u nb.seq), (.u 4, .b nb.prev)]

/-- The pairs of the body of a transition. -/
def transitionPairs (t : Transition) : List (Value × Value) :=
  [(.u 1, .b t.task), (.u 2, .b t.card), (.u 3, .u t.frm), (.u 4, .u t.to_), (.u 5, .u t.seq),
    (.u 6, .b t.prev)]

theorem bindingPairs_ascending (nb : NameBinding)
    : ((bindingPairs nb).map encodedKey).Pairwise (· < ·) :=
  @numbered_ascending 1 [.t nb.name, .b nb.signer, .u nb.seq, .b nb.prev] (by simp)

theorem bindingPairs_leaves (nb : NameBinding)
    : ∀ pair ∈ bindingPairs nb, Leaf pair.1 ∧ Leaf pair.2 := by
  simp [bindingPairs, Leaf]

theorem transitionPairs_ascending (t : Transition)
    : ((transitionPairs t).map encodedKey).Pairwise (· < ·) :=
  @numbered_ascending 1 [.b t.task, .b t.card, .u t.frm, .u t.to_, .u t.seq, .b t.prev] (by simp)

theorem transitionPairs_leaves (t : Transition)
    : ∀ pair ∈ transitionPairs t, Leaf pair.1 ∧ Leaf pair.2 := by
  simp [transitionPairs, Leaf]

theorem transitionPairs_fit (t : Transition) : NintsFit (.m (transitionPairs t)) := by
  rw [nintsFit_m]
  simp only [transitionPairs, List.forall_mem_cons]
  exact ⟨⟨.u _, .b _⟩, ⟨.u _, .b _⟩, ⟨.u _, .u _⟩, ⟨.u _, .u _⟩, ⟨.u _, .u _⟩, ⟨.u _, .b _⟩, nofun⟩

/-- The map has these pairs, each under the first of its key. -/
def Shows (pairs m : List (Value × Value)) : Prop := ∀ k v, (.u k, v) ∈ pairs → field k m = some v

/-- The fields of a binding are shown exactly when each typed lookup finds its own. -/
theorem shows_bindingPairs {nb : NameBinding}
    : Shows (bindingPairs nb) m ↔ tstrField m 1 = some nb.name ∧ bstrField m 2 = some nb.signer
        ∧ uintField m 3 = some nb.seq ∧ bstrField m 4 = some nb.prev := by
  simp only [tstrField_eq_some, bstrField_eq_some, uintField_eq_some, Shows, bindingPairs]
  grind

theorem shows_transitionPairs {t : Transition}
    : Shows (transitionPairs t) m ↔ bstrField m 1 = some t.task ∧ bstrField m 2 = some t.card
        ∧ uintField m 3 = some t.frm ∧ uintField m 4 = some t.to_ ∧ uintField m 5 = some t.seq
        ∧ bstrField m 6 = some t.prev := by
  simp only [bstrField_eq_some, uintField_eq_some, Shows, transitionPairs]
  grind

section Matches

variable {ε : Type} {refused : ε}

/-- The four fields of a binding are read exactly when the map shows them. -/
theorem bindingMatch_eq_ok {nb : NameBinding}
    : (match tstrField m 1, bstrField m 2, uintField m 3, bstrField m 4 with
        | some name, some signer, some seq, some prev => pure { name, signer, seq, prev }
        | _, _, _, _ => throw refused : Except ε NameBinding) = .ok nb
      ↔ Shows (bindingPairs nb) m := by
  rw [shows_bindingPairs]
  split
  · rename_i first second third fourth
    simp only [first, second, third, fourth, pure_eq_ok, Except.ok.injEq, Option.some.injEq]
    cases nb
    simp only [NameBinding.mk.injEq]
  · rename_i missing
    constructor
    · intro read
      cases read
    · rintro ⟨first, second, third, fourth⟩
      exact (missing _ _ _ _ first second third fourth).elim

/-- The six fields of a transition are read exactly when the map shows them. -/
theorem transitionMatch_eq_ok {t : Transition}
    : (match bstrField m 1, bstrField m 2, uintField m 3, uintField m 4, uintField m 5,
          bstrField m 6 with
        | some task, some card, some frm, some to_, some seq, some prev =>
            pure { task, card, frm, to_, seq, prev }
        | _, _, _, _, _, _ => throw refused : Except ε Transition) = .ok t
      ↔ Shows (transitionPairs t) m := by
  rw [shows_transitionPairs]
  split
  · rename_i first second third fourth fifth sixth
    simp only [first, second, third, fourth, fifth, sixth, pure_eq_ok, Except.ok.injEq,
      Option.some.injEq]
    cases t
    simp only [Transition.mk.injEq]
  · rename_i missing
    constructor
    · intro read
      cases read
    · rintro ⟨first, second, third, fourth, fifth, sixth⟩
      exact (missing _ _ _ _ _ _ first second third fourth fifth sixth).elim

end Matches

theorem parseNameBinding_eq_ok {nb : NameBinding}
    : parseNameBinding b = .ok nb ↔ ∃ m, decode b = .ok (.m m) ∧ Shows (bindingPairs nb) m := by
  simp only [parseNameBinding, bind_eq_ok, Option.exists, decodeMap_eq_ok, throw_eq_error,
    reduceCtorEq, and_false, false_or]
  exact exists_congr fun m => and_congr_right fun _ => bindingMatch_eq_ok

theorem parseTransition_eq_ok {t : Transition}
    : parseTransition b = .ok t ↔ ∃ m, decode b = .ok (.m m) ∧ Shows (transitionPairs t) m := by
  simp only [parseTransition, bind_eq_ok, Option.exists, decodeMap_eq_ok, throw_eq_error,
    reduceCtorEq, and_false, false_or]
  exact exists_congr fun m => and_congr_right fun _ => transitionMatch_eq_ok

theorem goParseNameBinding_eq_ok {nb : NameBinding}
    : Go.Naming.parseNameBinding b = .ok nb
      ↔ ∃ m, (decode b = .ok (.m m) ∧ NintsFit (.m m)) ∧ Shows (bindingPairs nb) m := by
  simp only [Go.Naming.parseNameBinding, ← goDecodeMap_eq_some]
  cases Go.Fields.decodeMap b with
  | none => simp
  | some m =>
      simp only [Option.some.injEq, exists_eq_left']
      exact bindingMatch_eq_ok

theorem goParseTransition_eq_ok {t : Transition}
    : Go.Naming.parseTransition b = .ok t
      ↔ ∃ m, (decode b = .ok (.m m) ∧ NintsFit (.m m)) ∧ Shows (transitionPairs t) m := by
  simp only [Go.Naming.parseTransition, ← goDecodeMap_eq_some]
  cases Go.Fields.decodeMap b with
  | none => simp
  | some m =>
      simp only [Option.some.injEq, exists_eq_left']
      exact transitionMatch_eq_ok

-----------------------------------------------------------------------------------------
-- Bodies and what is read from them
-----------------------------------------------------------------------------------------

theorem shows_own {pairs : List (Value × Value)} (ordered : (pairs.map encodedKey).Pairwise (· < ·))
    : Shows pairs pairs :=
  fun _ _ member => (field_eq_some (nodup_of_ascending ordered)).mpr member

theorem ascending_of_decode (decoded : decode b = .ok (.m m))
    : (m.map encodedKey).Pairwise (· < ·) := by
  cases (decode_eq_ok.mp decoded).1.ascending with
  | m ordered keys values => exact ordered

/-- The encoding of what was read gives the body back exactly when the body has no other keys. -/
theorem encode_eq_body_iff {pairs : List (Value × Value)} {keys : List Int}
    (decoded : decode b = .ok (.m m)) (shown : Shows pairs m)
    (ordered : (pairs.map encodedKey).Pairwise (· < ·))
    (leaves : ∀ pair ∈ pairs, Leaf pair.1 ∧ Leaf pair.2) (known : pairs.map Prod.fst = keys.map .u)
    : encode (.m pairs) = .ok b ↔ KeysWithin keys m := by
  rw [keysWithin_iff (ascending_of_decode decoded) ordered known shown]
  exact encode_of_leaves_iff ordered leaves decoded

/-- What an encodable transition is encoded to is read back as the transition. -/
theorem parseTransition_encoding {t : Transition} (encodable : Encodable (.m (transitionPairs t)))
    : parseTransition (encoding (.m (transitionPairs t))) = .ok t :=
  parseTransition_eq_ok.mpr ⟨_,
    decode_of_leaves (transitionPairs_ascending t) (transitionPairs_leaves t) encodable,
    shows_own (transitionPairs_ascending t)⟩

theorem goParseTransition_encoding {t : Transition} (encodable : Encodable (.m (transitionPairs t)))
    : Go.Naming.parseTransition (encoding (.m (transitionPairs t))) = .ok t :=
  goParseTransition_eq_ok.mpr ⟨_,
    ⟨decode_of_leaves (transitionPairs_ascending t) (transitionPairs_leaves t) encodable,
      transitionPairs_fit t⟩,
    shows_own (transitionPairs_ascending t)⟩

theorem transitionBytes_eq {t : Transition} (encodable : Encodable (.m (transitionPairs t)))
    : Go.Naming.transitionBytes t = encoding (.m (transitionPairs t)) := by
  have encoded := goEncode_of_encodable encodable
  rw [transitionPairs] at encoded
  rw [Go.Naming.transitionBytes, encoded]
  rfl

theorem bindingBytes_eq {nb : NameBinding} (encodable : Encodable (.m (bindingPairs nb)))
    : Go.Naming.bindingBytes nb = encoding (.m (bindingPairs nb)) := by
  have encoded := goEncode_of_encodable encodable
  rw [bindingPairs] at encoded
  rw [Go.Naming.bindingBytes, encoded]
  rfl

theorem length_encoding_u_le {v : Int} (encodable : Encodable (.u v))
    : (encoding (.u v)).length ≤ 9 := by
  obtain ⟨-, -, octets⟩ := encode_u_eq_ok.mp encodable
  rw [octets]
  exact length_headBytes_le _ _

theorem length_encoding_b_le {v : Bytes} (encodable : Encodable (.b v))
    : (encoding (.b v)).length ≤ v.length + 9 := by
  obtain ⟨-, octets⟩ := encode_b_eq_ok.mp encodable
  have head := length_headBytes_le 2 v.length
  rw [octets, List.length_append]
  omega

theorem encodable_transition {t : Transition}
    : Encodable (.m (transitionPairs t))
      ↔ Encodable (.b t.task) ∧ Encodable (.b t.card) ∧ Encodable (.u t.frm) ∧ Encodable (.u t.to_)
        ∧ Encodable (.u t.seq) ∧ Encodable (.b t.prev) := by
  have values : Encodable (.m (transitionPairs t))
      ↔ ∀ v ∈ [Value.b t.task, .b t.card, .u t.frm, .u t.to_, .u t.seq, .b t.prev], Encodable v :=
    @encodable_numbered 1 [.b _, .b _, .u _, .u _, .u _, .b _] (by simp)
  simpa using values

/-- The body of a transition is little longer than the octets that it carries. -/
theorem length_encoding_transition {t : Transition}
    (encodable : Encodable (.m (transitionPairs t)))
    : (encoding (.m (transitionPairs t))).length
      ≤ t.task.length + t.card.length + t.prev.length + 69 := by
  have canonical := canonical_of_leaves encodable (transitionPairs_ascending t)
    (transitionPairs_leaves t)
  have head := length_headBytes_le 5 (transitionPairs t).length
  obtain ⟨task, card, frm, to_, seq, prev⟩ := encodable_transition.mp encodable
  have taskSize := length_encoding_b_le task
  have cardSize := length_encoding_b_le card
  have frmSize := length_encoding_u_le frm
  have toSize := length_encoding_u_le to_
  have seqSize := length_encoding_u_le seq
  have prevSize := length_encoding_b_le prev
  have keySizes : [1, 2, 3, 4, 5, 6].map (fun k => (encoding (.u k)).length) = [1, 1, 1, 1, 1, 1] :=
    rfl
  simp only [List.map_cons, List.map_nil, List.cons.injEq, and_true] at keySizes
  rw [encoding_canonical_m canonical]
  simp only [transitionPairs, List.flatMap_cons, List.flatMap_nil, encodedPair, List.length_append,
    List.length_nil] at head ⊢
  omega

end Readers

end Naalp.Names
