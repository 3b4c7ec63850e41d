import Naalp.CanonicalEncoding.RoundTrip
import Naalp.Python.Envelope

/-! The body map of an object, and reading an object back from it. -/

namespace Naalp.Python.Envelope

open Naalp.Foundation
open Naalp.Python.Cbor

/-- The encoded field numbers 2 to 14. -/
def fieldKeys : List Bytes := [[2], [3], [4], [5], [6], [7], [8], [9], [10], [11], [12], [13], [14]]

/-- The field pairs are keyed by field numbers in ascending order, some left out.
Witness: each optional field is there under its own key or not at all.
-/
theorem fieldPairs_keys (o : Object) : (o.fieldPairs.map encodedKey).Sublist fieldKeys := by
  have ext : ((o.ext.map (fun pairs => (Value.u fieldExt, Value.m pairs))).toList.map
      encodedKey).Sublist [[11]] := by
    cases o.ext with
    | none => exact List.nil_sublist _
    | some pairs => exact List.Sublist.refl _
  have cext : ((o.cext.map (fun pairs => (Value.u fieldCext, Value.m pairs))).toList.map
      encodedKey).Sublist [[12]] := by
    cases o.cext with
    | none => exact List.nil_sublist _
    | some pairs => exact List.Sublist.refl _
  have audience
      : ((if o.audience ≠ [] then [(Value.u fieldAudience, Value.t o.audience)] else []).map
      encodedKey).Sublist [[13]] := by
    split
    · exact List.Sublist.refl _
    · exact List.nil_sublist _
  have suite : ((if o.suite ≠ 0 then [(Value.u fieldSuite, Value.u o.suite)] else []).map
      encodedKey).Sublist [[14]] := by
    split
    · exact List.Sublist.refl _
    · exact List.nil_sublist _
  have fixed : fieldKeys
      = [[2], [3], [4], [5], [6], [7], [8], [9], [10]] ++ [[11]] ++ [[12]] ++ [[13]] ++ [[14]] :=
    rfl
  rw [Object.fieldPairs, List.map_append, List.map_append, List.map_append, List.map_append, fixed]
  exact ((((List.Sublist.refl _).append ext).append cext).append audience).append suite

/-- The pairs of the whole body map: the id first, then the fields. -/
def Object.pairs (o : Object) (id : Bytes) : List (Value × Value) :=
  (.u fieldId, .b id) :: o.fieldPairs

theorem bodyMap_with_id (o : Object) (id : Bytes)
    : { o with id := some id }.bodyMap true = .ok (.m (o.pairs id)) :=
  rfl

theorem fieldPairs_ascending (o : Object) : (o.fieldPairs.map encodedKey).Pairwise (· < ·) := by
  have ascending : fieldKeys.Pairwise (· < ·) := by decide
  exact ascending.sublist (fieldPairs_keys o)

theorem pairs_ascending (o : Object) (id : Bytes)
    : ((o.pairs id).map encodedKey).Pairwise (· < ·) := by
  have ascending : ([1] :: fieldKeys).Pairwise (· < ·) := by decide
  exact ascending.sublist ((fieldPairs_keys o).cons_cons [1])

theorem length_fieldPairs (o : Object) : o.fieldPairs.length ≤ 13 := by
  have bound := (fieldPairs_keys o).length_le
  simpa [fieldKeys] using bound

/-- The field pairs, one by one. -/
theorem mem_fieldPairs {o : Object} {pair : Value × Value}
    : pair ∈ o.fieldPairs
      ↔ pair = (.u fieldKind, .u o.kind) ∨ pair = (.u fieldChannel, .u o.channel)
        ∨ pair = (.u fieldTier, .u o.tier) ∨ pair = (.u fieldSigner, .b o.signer)
        ∨ pair = (.u fieldCreated, .u o.created) ∨ pair = (.u fieldEffect, .u o.effect)
        ∨ pair = (.u fieldCauses, .a (o.causes.map .b))
        ∨ pair = (.u fieldProfile, .u o.profile) ∨ pair = (.u fieldBody, o.body)
        ∨ (∃ pairs, o.ext = some pairs ∧ pair = (.u fieldExt, .m pairs))
        ∨ (∃ pairs, o.cext = some pairs ∧ pair = (.u fieldCext, .m pairs))
        ∨ (o.audience ≠ [] ∧ pair = (.u fieldAudience, .t o.audience))
        ∨ (o.suite ≠ 0 ∧ pair = (.u fieldSuite, .u o.suite)) := by
  have present : ∀ {guard : Prop} [Decidable guard] {only : Value × Value},
      pair ∈ (if guard then [only] else []) ↔ guard ∧ pair = only := by
    intro guard _ only
    split <;> simp_all
  have optional : ∀ {ext : Option (List (Value × Value))} {key : Value},
      pair ∈ (ext.map (fun pairs => (key, Value.m pairs))).toList
        ↔ ∃ pairs, ext = some pairs ∧ pair = (key, .m pairs) := by
    intro ext key
    cases ext <;> simp
  simp only [Object.fieldPairs, List.mem_append, List.mem_cons, List.not_mem_nil, or_false,
    optional, present, or_assoc]

/-- Two values under one key of a canonical map are the same. -/
theorem value_unique {m : List (Value × Value)} (distinct : (m.map encodedKey).Nodup)
    {k left right : Value} (first : (k, left) ∈ m) (second : (k, right) ∈ m)
    : left = right := by
  have same := List.inj_on_of_nodup_map distinct first second rfl
  exact (Prod.mk.inj same).2

/-- Under distinct keys a field is looked up to the value it is paired with. -/
theorem getField_eq_some {m : List (Value × Value)} {fnum : Int} {v : Value}
    (distinct : (m.map encodedKey).Nodup)
    : getField fnum m = some v ↔ (.u fnum, v) ∈ m := by
  induction m generalizing v with
  | nil => simp [getField]
  | cons pair rest ih =>
      obtain ⟨k, val⟩ := pair
      obtain ⟨fresh, distinctRest⟩ := List.nodup_cons.mp distinct
      rw [List.mem_cons, Prod.mk.injEq, ← ih distinctRest]
      cases tail : getField fnum rest with
      | some later =>
          have other : .u fnum ≠ k := by
            rintro rfl
            exact fresh (List.mem_map.mpr ⟨_, (ih distinctRest).mp tail, rfl⟩)
          simp [getField, tail, other]
      | none =>
          cases k with
          | u n => simp [getField, tail, eq_comm]
          | _ => simp [getField, tail]

theorem getField_eq_none {m : List (Value × Value)} {fnum : Int}
    (distinct : (m.map encodedKey).Nodup)
    : getField fnum m = none ↔ ∀ v, (.u fnum, v) ∉ m := by
  rw [Option.eq_none_iff_forall_ne_some]
  exact forall_congr' fun v => not_congr (getField_eq_some distinct)

/-- The loop over the keys passes exactly when all of them are unsigned integers, by induction
on the pairs.
-/
theorem checkKeys_eq_ok {m : List (Value × Value)} {done : Unit}
    : checkKeys m = .ok done ↔ ∀ pair ∈ m, ∃ fnum, pair.1 = .u fnum := by
  induction m with
  | nil => simp [checkKeys]
  | cons pair rest ih =>
      obtain ⟨k, val⟩ := pair
      cases k with
      | u n => simp [checkKeys, ih]
      | _ => simp [checkKeys]

theorem causesOf_eq_ok {items : List Value} {causes : List Bytes}
    : causesOf items = .ok causes ↔ items = causes.map .b := by
  induction items generalizing causes with
  | nil => cases causes <;> simp [causesOf]
  | cons item rest ih =>
      cases item with
      | b c => cases causes <;> simp [causesOf, bind_eq_ok, ih, and_comm]
      | _ => cases causes <;> simp [causesOf]

section Fields

variable {m : List (Value × Value)} {fnum : Int}

theorem needU_eq_ok {v : Int} : needU m fnum = .ok v ↔ getField fnum m = some (.u v) := by
  unfold needU
  split <;> simp_all

theorem needB_eq_ok {v : Bytes} : needB m fnum = .ok v ↔ getField fnum m = some (.b v) := by
  unfold needB
  split <;> simp_all

theorem needA_eq_ok {items : List Value}
    : needA m fnum = .ok items ↔ getField fnum m = some (.a items) := by
  unfold needA
  split <;> simp_all

theorem needAny_eq_ok {v : Value} : needAny m fnum = .ok v ↔ getField fnum m = some v := by
  unfold needAny
  split <;> simp_all

theorem extensionMap_eq_ok {bound : Nat} {notMap : String} {ext : Option (List (Value × Value))}
    : extensionMap m fnum bound notMap = .ok ext
      ↔ getField fnum m = ext.map .m ∧ ∀ pairs, ext = some pairs → pairs.length ≤ bound := by
  unfold extensionMap
  split
  · cases ext <;> simp_all
  · cases ext <;> simp_all [bind_eq_ok, raiseIf_eq_ok]
    grind
  · cases ext <;> simp_all

/-- An absent audience is read as the empty one. -/
theorem audienceOf_eq_ok {audience : PyStr}
    : audienceOf m = .ok audience
      ↔ getField fieldAudience m = some (.t audience)
        ∨ getField fieldAudience m = none ∧ audience = [] := by
  unfold audienceOf
  split
  · rename_i absent
    simp [absent, eq_comm]
  · rename_i present
    simp [present]
  · rename_i notText present
    simpa [present] using notText audience

/-- An absent suite is read as zero. -/
theorem suiteOf_eq_ok {suite : Int}
    : suiteOf m = .ok suite
      ↔ getField fieldSuite m = some (.u suite) ∨ getField fieldSuite m = none ∧ suite = 0 := by
  unfold suiteOf
  split
  · rename_i absent
    simp [absent, eq_comm]
  · rename_i present
    simp [present]
  · rename_i notUint present
    simpa [present] using notUint suite

end Fields

/-- What `objectFromMap` requires of a map and how the object follows from it. -/
structure ReadFrom (m : List (Value × Value)) (o : Object) : Prop where
  keys : ∀ pair ∈ m, ∃ fnum, pair.1 = .u fnum
  id : o.id = idOf m
  kind : getField fieldKind m = some (.u o.kind)
  channel : getField fieldChannel m = some (.u o.channel)
  tier : getField fieldTier m = some (.u o.tier)
  signer : getField fieldSigner m = some (.b o.signer)
  created : getField fieldCreated m = some (.u o.created)
  effect : getField fieldEffect m = some (.u o.effect)
  causes : getField fieldCauses m = some (.a (o.causes.map .b))
  causesBound : o.causes.length ≤ maxCauses
  profile : getField fieldProfile m = some (.u o.profile)
  body : getField fieldBody m = some o.body
  ext : getField fieldExt m = o.ext.map .m
  extBound : ∀ pairs, o.ext = some pairs → pairs.length ≤ maxExt
  cext : getField fieldCext m = o.cext.map .m
  cextBound : ∀ pairs, o.cext = some pairs → pairs.length ≤ maxCext
  audience : getField fieldAudience m = some (.t o.audience)
    ∨ getField fieldAudience m = none ∧ o.audience = []
  suite : getField fieldSuite m = some (.u o.suite)
    ∨ getField fieldSuite m = none ∧ o.suite = 0

/-- The object that a map is read to, field by field. -/
theorem objectFromMap_eq_ok {m : List (Value × Value)} {o : Object}
    : objectFromMap m = .ok o ↔ ReadFrom m o := by
  constructor
  · intro read
    simp only [objectFromMap, bind_eq_ok, raiseIf_eq_ok, exists_const, pure_eq_ok,
      Except.ok.injEq, checkKeys_eq_ok, needU_eq_ok, needB_eq_ok, needA_eq_ok, needAny_eq_ok,
      causesOf_eq_ok, extensionMap_eq_ok, audienceOf_eq_ok, suiteOf_eq_ok] at read
    obtain ⟨keys, signer, signerField, _, causesField, bound, causes, rfl, ext,
      ⟨extField, extBound⟩, cext, ⟨cextField, cextBound⟩, audience, audienceField, suite,
      suiteField, kind, kindField, channel, channelField, created, createdField, effect,
      effectField, body, bodyField, tier, tierField, profile, profileField, rfl⟩ := read
    rw [List.length_map, Nat.not_lt] at bound
    exact ⟨keys, rfl, kindField, channelField, tierField, signerField, createdField, effectField,
      causesField, bound, profileField, bodyField, extField, extBound, cextField, cextBound,
      audienceField, suiteField⟩
  · intro read
    have bound : ¬ (o.causes.map Value.b).length > maxCauses := by
      rw [List.length_map]
      exact Nat.not_lt.mpr read.causesBound
    have keys : checkKeys m = .ok () := checkKeys_eq_ok.mpr read.keys
    rw [objectFromMap, keys, needB_eq_ok.mpr read.signer,
      needA_eq_ok.mpr read.causes]
    simp only [ok_bind, raiseIf_neg bound, causesOf_eq_ok.mpr rfl,
      extensionMap_eq_ok.mpr ⟨read.ext, read.extBound⟩,
      extensionMap_eq_ok.mpr ⟨read.cext, read.cextBound⟩, audienceOf_eq_ok.mpr read.audience,
      suiteOf_eq_ok.mpr read.suite, needU_eq_ok.mpr read.kind, needU_eq_ok.mpr read.channel,
      needU_eq_ok.mpr read.created, needU_eq_ok.mpr read.effect, needAny_eq_ok.mpr read.body,
      needU_eq_ok.mpr read.tier, needU_eq_ok.mpr read.profile, ← read.id, pure_eq_ok]

/-- An object is read back from its own body map when it is within the bounds.
Witness: the keys are distinct, so a field is read from the one pair that stands under its key.
-/
theorem readFrom_pairs {o : Object} {id : Bytes} (causes : o.causes.length ≤ maxCauses)
    (ext : ∀ pairs, o.ext = some pairs → pairs.length ≤ maxExt)
    (cext : ∀ pairs, o.cext = some pairs → pairs.length ≤ maxCext)
    : ReadFrom (o.pairs id) { o with id := some id } := by
  have distinct := nodup_of_ascending (pairs_ascending o id)
  have read {fnum : Int} {v : Value} := @getField_eq_some (o.pairs id) fnum v distinct
  have absent {fnum : Int} := @getField_eq_none (o.pairs id) fnum distinct
  constructor
  case keys =>
    intro pair member
    rcases List.mem_cons.mp member with rfl | inFields
    · exact ⟨_, rfl⟩
    · rcases mem_fieldPairs.mp inFields with
        rfl | rfl | rfl | rfl | rfl | rfl | rfl | rfl | rfl | ⟨_, _, rfl⟩ | ⟨_, _, rfl⟩
          | ⟨_, rfl⟩ | ⟨_, rfl⟩
      all_goals exact ⟨_, rfl⟩
  case id => rw [idOf, read.mpr List.mem_cons_self]
  case causesBound => exact causes
  case extBound => exact ext
  case cextBound => exact cext
  case ext =>
    cases present : o.ext with
    | none => exact absent.mpr fun v => by simp +decide [Object.pairs, mem_fieldPairs, present]
    | some pairs => exact read.mpr (by simp +decide [Object.pairs, mem_fieldPairs, present])
  case cext =>
    cases present : o.cext with
    | none => exact absent.mpr fun v => by simp +decide [Object.pairs, mem_fieldPairs, present]
    | some pairs => exact read.mpr (by simp +decide [Object.pairs, mem_fieldPairs, present])
  case audience =>
    by_cases empty : o.audience = []
    · exact .inr ⟨absent.mpr fun v => by simp +decide [Object.pairs, mem_fieldPairs, empty], empty⟩
    · exact .inl (read.mpr (by simp +decide [Object.pairs, mem_fieldPairs, empty]))
  case suite =>
    by_cases pureSuite : o.suite = 0
    · exact .inr
        ⟨absent.mpr fun v => by simp +decide [Object.pairs, mem_fieldPairs, pureSuite], pureSuite⟩
    · exact .inl (read.mpr (by simp +decide [Object.pairs, mem_fieldPairs, pureSuite]))
  all_goals exact read.mpr (by simp [Object.pairs, mem_fieldPairs])

/-- The body map of an object is read only when the object is within the bounds.
Witness: the counts are checked on the map, where the lists of the object stand.
-/
theorem ReadFrom.bounds {o verified : Object} {id : Bytes} (read : ReadFrom (o.pairs id) verified)
    : o.causes.length ≤ maxCauses ∧ (∀ pairs, o.ext = some pairs → pairs.length ≤ maxExt)
      ∧ ∀ pairs, o.cext = some pairs → pairs.length ≤ maxCext := by
  have distinct := nodup_of_ascending (pairs_ascending o id)
  have holds {fnum : Int} {v : Value} := @getField_eq_some (o.pairs id) fnum v distinct
  refine ⟨?_, ?_, ?_⟩
  · have stated : getField fieldCauses (o.pairs id) = some (.a (o.causes.map .b)) :=
      holds.mpr (by simp [Object.pairs, mem_fieldPairs])
    have same := Value.a.inj (Option.some.inj (stated.symm.trans read.causes))
    have lengths := congrArg List.length same
    rw [List.length_map, List.length_map] at lengths
    exact lengths ▸ read.causesBound
  · intro pairs present
    have stated : getField fieldExt (o.pairs id) = some (.m pairs) :=
      holds.mpr (by simp [Object.pairs, mem_fieldPairs, present])
    obtain ⟨pairs', present', same⟩ := Option.map_eq_some_iff.mp (read.ext.symm.trans stated)
    obtain rfl := Value.m.inj same
    exact read.extBound _ present'
  · intro pairs present
    have stated : getField fieldCext (o.pairs id) = some (.m pairs) :=
      holds.mpr (by simp [Object.pairs, mem_fieldPairs, present])
    obtain ⟨pairs', present', same⟩ := Option.map_eq_some_iff.mp (read.cext.symm.trans stated)
    obtain rfl := Value.m.inj same
    exact read.cextBound _ present'

end Naalp.Python.Envelope
