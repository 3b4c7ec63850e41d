import Naalp.Envelope.SignVerify

/-! When a verified object carries everything that was signed. -/

namespace Naalp.Python.Envelope

open Naalp.Foundation
open Naalp.Foundation.Sha2 (DigestsCollide)
open Naalp.Python.Cbor
open Naalp.Python.Cose

/-- The field numbers 1 to 14 of a body map. -/
def fieldNumbers : List Int :=
  [fieldId, fieldKind, fieldChannel, fieldTier, fieldSigner, fieldCreated, fieldEffect,
    fieldCauses, fieldProfile, fieldBody, fieldExt, fieldCext, fieldAudience, fieldSuite]

/-- A body map that an object can express: its fields are those of the object, and neither an
empty audience nor a zero suite stands in it.
-/
structure Expressible (m : List (Value × Value)) : Prop where
  known : ∀ fnum v, (.u fnum, v) ∈ m → fnum ∈ fieldNumbers
  audience : (.u fieldAudience, .t []) ∉ m
  suite : (.u fieldSuite, .u 0) ∉ m

/-- The object re-encodes to the payload it was read from, and its content id is the one that
it carries.
-/
def CarriesSigned (o : Object) (payload : Bytes) : Prop :=
  (o.bodyMap true >>= encode) = .ok payload ∧ ∃ id, o.id = some id ∧ o.contentId = .ok id

section Reading

variable {m : List (Value × Value)} {o : Object} {id : Bytes}
  (read : ReadFrom m o) (claimed : o.id = some id) (distinct : (m.map encodedKey).Nodup)

include read claimed

/-- The id field of the map is the id that was split off. -/
theorem getField_id : getField fieldId m = some (.b id) := by
  have same : idOf m = some id := read.id ▸ claimed
  unfold idOf at same
  split at same
  · rename_i v present
    obtain rfl := Option.some.inj same
    exact present
  · cases same

include distinct

/-- Every pair of the object's own body map stands in the map it was read from. -/
theorem mem_of_mem_pairs : ∀ pair ∈ o.pairs id, pair ∈ m := by
  have stands {fnum : Int} {v : Value} := (@getField_eq_some m fnum v distinct).mp
  intro pair member
  rcases List.mem_cons.mp member with rfl | inFields
  · exact stands (getField_id read claimed)
  · rcases mem_fieldPairs.mp inFields with
      rfl | rfl | rfl | rfl | rfl | rfl | rfl | rfl | rfl | ⟨pairs, present, rfl⟩
        | ⟨pairs, present, rfl⟩ | ⟨present, rfl⟩ | ⟨present, rfl⟩
    · exact stands read.kind
    · exact stands read.channel
    · exact stands read.tier
    · exact stands read.signer
    · exact stands read.created
    · exact stands read.effect
    · exact stands read.causes
    · exact stands read.profile
    · exact stands read.body
    · exact stands (by rw [read.ext, present]; rfl)
    · exact stands (by rw [read.cext, present]; rfl)
    · rcases read.audience with field | absent
      · exact stands field
      · exact (present absent.2).elim
    · rcases read.suite with field | absent
      · exact stands field
      · exact (present absent.2).elim

/-- In an expressible map nothing else stands.
Witness: cases on the key, which is one of the fields; a field that is written only when it is
filled was not empty.
-/
theorem mem_pairs_of_mem (expressible : Expressible m) : ∀ pair ∈ m, pair ∈ o.pairs id := by
  intro pair member
  obtain ⟨k, v⟩ := pair
  obtain ⟨fnum, rfl⟩ : ∃ fnum, k = .u fnum := read.keys _ member
  have field := (getField_eq_some distinct).mpr member
  have value : ∀ w, getField fnum m = some w → v = w :=
    fun _ present => Option.some.inj (field.symm.trans present)
  have known := expressible.known fnum v member
  simp only [fieldNumbers, List.mem_cons, List.not_mem_nil, or_false] at known
  rw [Object.pairs, List.mem_cons, mem_fieldPairs]
  rcases known with
    rfl | rfl | rfl | rfl | rfl | rfl | rfl | rfl | rfl | rfl | rfl | rfl | rfl | rfl
  · simp [value _ (getField_id read claimed)]
  · simp [value _ read.kind]
  · simp [value _ read.channel]
  · simp [value _ read.tier]
  · simp [value _ read.signer]
  · simp [value _ read.created]
  · simp [value _ read.effect]
  · simp [value _ read.causes]
  · simp [value _ read.profile]
  · simp [value _ read.body]
  · obtain ⟨pairs, present, rfl⟩ := Option.map_eq_some_iff.mp (read.ext.symm.trans field)
    simp [present]
  · obtain ⟨pairs, present, rfl⟩ := Option.map_eq_some_iff.mp (read.cext.symm.trans field)
    simp [present]
  · rcases read.audience with present | absent
    · obtain rfl := Option.some.inj (field.symm.trans present)
      have nonempty : o.audience ≠ [] := fun empty => expressible.audience (empty ▸ member)
      simp [nonempty]
    · rw [absent.1] at field
      cases field
  · rcases read.suite with present | absent
    · obtain rfl := Option.some.inj (field.symm.trans present)
      have nonzero : o.suite ≠ 0 := fun zero => expressible.suite (zero ▸ member)
      simp [nonzero]
    · rw [absent.1] at field
      cases field

omit distinct

/-- The object's own body map is the map it was read from when it has every pair of that map. -/
theorem pairs_eq_of_covered (ascending : (m.map encodedKey).Pairwise (· < ·))
    (covered : ∀ pair ∈ m, pair ∈ o.pairs id)
    : o.pairs id = m := by
  refine eq_of_ascending (pairs_ascending o id) ascending fun pair => ?_
  exact ⟨mem_of_mem_pairs read claimed (nodup_of_ascending ascending) pair, covered pair⟩

/-- It is that map exactly when the map is expressible. -/
theorem pairs_eq_iff (ascending : (m.map encodedKey).Pairwise (· < ·))
    : o.pairs id = m ↔ Expressible m := by
  constructor
  · rintro rfl
    constructor
    · intro fnum v member
      rw [Object.pairs, List.mem_cons, mem_fieldPairs] at member
      simp only [Prod.mk.injEq, Value.u.injEq] at member
      simp only [fieldNumbers, List.mem_cons]
      grind
    · intro member
      simp +decide [Object.pairs, mem_fieldPairs] at member
    · intro member
      simp +decide [Object.pairs, mem_fieldPairs] at member
      exact member.1 member.2.symm
  · intro expressible
    exact pairs_eq_of_covered read claimed ascending
      (mem_pairs_of_mem read claimed (nodup_of_ascending ascending) expressible)

end Reading

/-- What is left after splitting off the id is the map without some of its pairs, in order, by
induction on the pairs.
-/
theorem sublist_of_splitId {m without : List (Value × Value)} {id : Option Bytes}
    (split : splitId m = .ok (id, without))
    : without.Sublist m := by
  induction m generalizing id without with
  | nil =>
      obtain ⟨-, rfl⟩ := Prod.mk.inj (Except.ok.inj split)
      exact List.Sublist.refl _
  | cons pair rest ih =>
      obtain ⟨k, v⟩ := pair
      by_cases isId : k = .u fieldId
      · subst isId
        cases v with
        | b _ =>
            simp only [fieldId, splitId, bind_eq_ok, Prod.exists, pure_eq_ok, Except.ok.injEq,
              Prod.mk.injEq] at split
            obtain ⟨_, _, inRest, -, rfl⟩ := split
            exact (ih inRest).cons _
        | _ => cases split
      · simp only [splitId_of_ne isId, bind_eq_ok, Prod.exists, pure_eq_ok, Except.ok.injEq,
          Prod.mk.injEq] at split
        obtain ⟨_, _, inRest, -, rfl⟩ := split
        exact (ih inRest).cons_cons _

/-- Splitting off the id leaves the pairs under the other keys. -/
theorem mem_of_splitId_iff {m without : List (Value × Value)} {id : Option Bytes}
    (split : splitId m = .ok (id, without)) {pair : Value × Value}
    : pair ∈ without ↔ pair ∈ m ∧ pair.1 ≠ .u fieldId := by
  induction m generalizing id without with
  | nil =>
      obtain ⟨-, rfl⟩ := Prod.mk.inj (Except.ok.inj split)
      simp
  | cons first rest ih =>
      obtain ⟨k, v⟩ := first
      by_cases isId : k = .u fieldId
      · subst isId
        cases v with
        | b _ =>
            simp only [fieldId, splitId, bind_eq_ok, Prod.exists, pure_eq_ok, Except.ok.injEq,
              Prod.mk.injEq] at split
            obtain ⟨_, _, inRest, -, rfl⟩ := split
            rw [ih inRest, List.mem_cons]
            constructor
            · intro other
              exact ⟨.inr other.1, other.2⟩
            · rintro ⟨rfl | member, other⟩
              · exact (other rfl).elim
              · exact ⟨member, other⟩
        | _ => cases split
      · simp only [splitId_of_ne isId, bind_eq_ok, Prod.exists, pure_eq_ok, Except.ok.injEq,
          Prod.mk.injEq] at split
        obtain ⟨_, _, inRest, -, rfl⟩ := split
        rw [List.mem_cons, ih inRest, List.mem_cons]
        constructor
        · rintro (rfl | other)
          · exact ⟨.inl rfl, isId⟩
          · exact ⟨.inr other.1, other.2⟩
        · rintro ⟨rfl | member, other⟩
          · exact .inl rfl
          · exact .inr ⟨member, other⟩

/-- One content id is that of one octet string, unless two digests collide. -/
theorem eq_or_collide_of_contentId {x y : Bytes} {hashed : List Bytes} (left : x ∈ hashed)
    (right : y ∈ hashed) (same : contentIdBytes x = contentIdBytes y)
    : x = y ∨ DigestsCollide hashed := by
  simp only [contentIdBytes, List.cons.injEq, true_and] at same
  by_cases equal : x = y
  · exact .inl equal
  · exact .inr ⟨x, left, y, right, equal, same⟩

section Accepting

variable {lib : SignatureLibrary} {profile : Int} {pubkey : Bytes}
  {kindValidator : Option (Int → Int → Bool)} {knownCext : List Int} {objBytes : Bytes}
  {parts : Parts} {o : Object}

/-- An accepted object carries the id that its payload claims. -/
theorem Accepted.id_eq_some
    (accepted : Accepted lib profile pubkey kindValidator knownCext objBytes parts o)
    (distinct : (parts.pairs.map encodedKey).Nodup)
    : ∃ id, o.id = some id := by
  obtain ⟨id, field⟩ := getField_of_checkContentId distinct accepted.contentId
  exact ⟨id, by rw [accepted.read.id, idOf, field]⟩

/-- The body map that an accepted object makes is canonical. -/
theorem Accepted.canonical_pairs
    (accepted : Accepted lib profile pubkey kindValidator knownCext objBytes parts o) {id : Bytes}
    (claimed : o.id = some id)
    : Canonical maxNestingDepth (.m (o.pairs id)) := by
  obtain ⟨size, ascending, members⟩ := canonical_m.mp (decodeBounded_eq_ok.mp accepted.body).1
  refine canonical_m.mpr ⟨?_, pairs_ascending o id, ?_⟩
  · have bound := length_fieldPairs o
    simp only [Object.pairs, List.length_cons]
    omega
  · intro pair member
    exact members pair
      (mem_of_mem_pairs accepted.read claimed (nodup_of_ascending ascending) pair member)

/-- An accepted object carries what was signed exactly when its payload is expressible. -/
theorem Accepted.carriesSigned_iff
    (accepted : Accepted lib profile pubkey kindValidator knownCext objBytes parts o)
    : CarriesSigned o parts.payload ↔ Expressible parts.pairs := by
  obtain ⟨canonical, octets⟩ := decodeBounded_eq_ok.mp accepted.body
  obtain ⟨size, ascending, members⟩ := canonical_m.mp canonical
  obtain ⟨id, claimed⟩ := accepted.id_eq_some (nodup_of_ascending ascending)
  rw [← pairs_eq_iff accepted.read claimed ascending]
  have bodyMap : o.bodyMap true = .ok (.m (o.pairs id)) := by
    rw [Object.bodyMap, claimed]
    rfl
  have reencoded := accepted.canonical_pairs claimed
  rw [CarriesSigned, bodyMap, ok_bind, reencoded.encodable, octets]
  constructor
  · intro carries
    have sameOctets := Except.ok.inj carries.1
    have decoded := decodeBounded_eq_ok.mpr ⟨reencoded, rfl⟩
    rw [sameOctets, decodeBounded_eq_ok.mpr ⟨canonical, rfl⟩] at decoded
    exact (Value.m.inj (Except.ok.inj decoded)).symm
  · intro same
    refine ⟨by rw [same], id, claimed, ?_⟩
    exact checkContentId_pairs.mp (same ▸ accepted.contentId)

/-- The id that an accepted object's payload claims is recomputed from the object exactly when the
payload is expressible, unless the two maps that are hashed have one digest.
Witness: both ids are hashes of maps in order, and the maps have the same entries exactly when
the payload is expressible.
-/
theorem Accepted.claimed_iff
    (accepted : Accepted lib profile pubkey kindValidator knownCext objBytes parts o) {id : Bytes}
    (identified : o.contentId = .ok id)
    : ∃ claimed without, splitId parts.pairs = .ok (some claimed, without) ∧ o.id = some claimed
      ∧ ((claimed = id ↔ Expressible parts.pairs)
        ∨ DigestsCollide [encoding (.m without), encoding (.m o.fieldPairs)]) := by
  obtain ⟨canonical, octets⟩ := decodeBounded_eq_ok.mp accepted.body
  obtain ⟨size, ascending, members⟩ := canonical_m.mp canonical
  have distinct := nodup_of_ascending ascending
  obtain ⟨claimed, present⟩ := accepted.id_eq_some distinct
  have stands := (getField_eq_some distinct).mp (getField_id accepted.read present)
  have checked := accepted.contentId
  simp only [checkContentId, bind_eq_ok, Prod.exists] at checked
  obtain ⟨found, without, split, checked⟩ := checked
  cases found with
  | none => cases checked
  | some found =>
      obtain rfl := Value.b.inj (value_unique distinct (mem_of_splitId split) stands)
      simp only [bind_eq_ok, raiseIf_eq_ok, not_not, ne_eq, Cbor.contentId, pure_eq_ok,
        Except.ok.injEq] at checked
      obtain ⟨_, ⟨hashed, encodedWithout, rfl⟩, same⟩ := checked
      obtain ⟨encodableWithout, rfl⟩ := encode_eq_ok.mp encodedWithout
      have own : id = contentIdBytes (encoding (.m o.fieldPairs)) := by
        have computed : Cbor.contentId (.m o.fieldPairs) = .ok id := identified
        simp only [Cbor.contentId, bind_eq_ok, pure_eq_ok, Except.ok.injEq] at computed
        obtain ⟨_, encoded, rfl⟩ := computed
        rw [(encode_eq_ok.mp encoded).2]
      refine ⟨_, without, split, present, ?_⟩
      by_cases collide : DigestsCollide [encoding (.m without), encoding (.m o.fieldPairs)]
      · exact .inr collide
      · refine .inl ⟨fun claims => ?_, fun expressible => ?_⟩
        · have sameOctets : encoding (.m without) = encoding (.m o.fieldPairs) := by
            refine (eq_or_collide_of_contentId (by simp) (by simp) ?_).resolve_right collide
            rw [same, claims, own]
          have partOfPayload := canonical.sublist (sublist_of_splitId split)
          have partOfObject := (accepted.canonical_pairs present).sublist
            (List.sublist_cons_self _ _)
          have decoded := decodeBounded_eq_ok.mpr ⟨partOfPayload, rfl⟩
          rw [sameOctets, decodeBounded_eq_ok.mpr ⟨partOfObject, rfl⟩] at decoded
          obtain rfl := Value.m.inj (Except.ok.inj decoded)
          rw [← pairs_eq_iff accepted.read present ascending]
          refine pairs_eq_of_covered accepted.read present ascending ?_
          intro pair member
          by_cases isId : pair.1 = .u fieldId
          · have value := value_unique distinct (show (.u fieldId, pair.2) ∈ _ from isId ▸ member)
              stands
            exact List.mem_cons.mpr (.inl (Prod.ext isId value))
          · exact List.mem_cons_of_mem _ ((mem_of_splitId_iff split).mpr ⟨member, isId⟩)
        · obtain ⟨-, again, presentAgain, recomputed⟩ :=
            accepted.carriesSigned_iff.mpr expressible
          obtain rfl := Option.some.inj (present.symm.trans presentAgain)
          exact Except.ok.inj (recomputed.symm.trans identified)

end Accepting

/-- For every object that `verify` accepts: the returned object re-encodes to the signed
payload, with the content id it carries, exactly when the payload has only the fields 1 to 14
and neither an empty audience nor a zero suite.
-/
theorem verify_carries_signed_iff {lib : SignatureLibrary} {profile alg : Int} {pubkey : Bytes}
    {kindValidator : Option (Int → Int → Bool)} {objBytes : Bytes} {knownCext : List Int}
    {o : Object}
    (accepted : verify lib profile alg pubkey kindValidator objBytes knownCext = .ok o)
    : ∃ prot payload sig m, parseSign1Raw objBytes = .ok (prot, payload, sig)
      ∧ decodeBounded payload maxNestingDepth = .ok (.m m)
      ∧ (CarriesSigned o payload ↔ Expressible m) := by
  obtain ⟨parts, stages⟩ := (verify_eq_ok lib profile pubkey kindValidator knownCext).mp accepted
  exact ⟨parts.prot, parts.payload, parts.sig, parts.pairs, stages.parsed, stages.body,
    stages.carriesSigned_iff⟩

/-- The signed sample object is one that `verify` accepts. -/
theorem verify_carries_signed_iff_sample
    : ∃ data o, sign digestLibrary sampleObject algMldsa65 [9] = .ok data
      ∧ verify digestLibrary 1 algMldsa65 (fitTo mldsa65PubSize [9]) (some fun _ _ => true) data []
        = .ok o
      ∧ ∃ prot payload sig m, parseSign1Raw data = .ok (prot, payload, sig)
        ∧ decodeBounded payload maxNestingDepth = .ok (.m m)
        ∧ (CarriesSigned o payload ↔ Expressible m) := by
  obtain ⟨data, id, signed, -, -, accepted⟩ := sampleObject_verified
  exact ⟨data, _, signed, accepted, verify_carries_signed_iff accepted⟩

/-- Signs a body map with a field that the object does not have. -/
def signWithField (lib : SignatureLibrary) (o : Object) (extra : Value × Value) (alg : Int)
    (seed : Bytes) : Py Bytes := do
  let fields := o.fieldPairs ++ [extra]
  let id ← Cbor.contentId (.m fields)
  let payload ← encode (.m ((.u fieldId, .b id) :: fields))
  let prot ← protectedHeader alg o.signer o.profile
  let tbs ← toBeSignedRaw prot payload
  let sig ← mldsaSign lib alg seed tbs
  assembleSign1Raw prot payload sig

/-- The sample object's fields and the unknown field 15 pass every stage before the signature; the
field stands in the payload, and the object that is read encodes to other octets and has another
id.
-/
theorem unknownField_checked
    : ∃ id payload prot pairs o again own,
      Cbor.contentId (.m (sampleObject.fieldPairs ++ [(.u 15, .u 7)])) = .ok id
      ∧ encode (.m ((.u fieldId, .b id) :: (sampleObject.fieldPairs ++ [(.u 15, .u 7)])))
        = .ok payload
      ∧ protectedHeader algMldsa65 sampleObject.signer sampleObject.profile = .ok prot
      ∧ payload.length = 86 ∧ prot.length = 18
      ∧ decodeBounded payload maxNestingDepth = .ok (.m pairs)
      ∧ checkContentId pairs = .ok () ∧ objectFromMap pairs = .ok o
      ∧ isRotationObject o.channel o.kind = false ∧ checkRanges o = .ok ()
      ∧ checkHeader prot o = .ok algMldsa65 ∧ checkCext [] o.cext = .ok () ∧ o.suite = 0
      ∧ (getField 15 pairs).isSome = true ∧ (o.bodyMap true >>= encode) = .ok again
      ∧ again ≠ payload ∧ o.signer = [7] ∧ o.contentId = .ok own ∧ o.id ≠ some own := by
  have computed : (do
      let id ← Cbor.contentId (.m (sampleObject.fieldPairs ++ [(.u 15, .u 7)]))
      let written := (.u fieldId, .b id) :: (sampleObject.fieldPairs ++ [(.u 15, .u 7)])
      let payload ← encode (.m written)
      let prot ← protectedHeader algMldsa65 sampleObject.signer sampleObject.profile
      let pairs := sortPairs (sortMapsPairs written)
      checkContentId pairs
      let o ← objectFromMap pairs
      checkRanges o
      let halg ← checkHeader prot o
      checkCext [] o.cext
      let again ← o.bodyMap true >>= encode
      let own ← o.contentId
      return (payload.length, prot.length, halg, o.suite, decide (
        isRotationObject o.channel o.kind = false ∧ (getField 15 pairs).isSome = true
          ∧ again ≠ payload ∧ o.signer = [7] ∧ o.id ≠ some own)))
        = (.ok (86, 18, algMldsa65, 0, true) : Py _) := by
    decide +kernel
  simp only [bind_eq_ok, pure_eq_ok, Except.ok.injEq, Prod.mk.injEq, decide_eq_true_eq] at computed
  obtain ⟨id, identified, payload, encoded, prot, header, _, contentId, o, read, _, ranges, halg,
    agrees, _, cext, again, reencoded, own, recomputed, payloadSize, protSize, rfl, suite,
    notRotation, stands, differs, signer, other⟩ := computed
  have within : depth (.m ((.u fieldId, .b id) :: (sampleObject.fieldPairs ++ [(.u 15, .u 7)])))
      ≤ maxNestingDepth :=
    Nat.le_of_ble_eq_true rfl
  exact ⟨id, payload, prot, _, o, again, own, identified, encoded, header, payloadSize, protSize,
    decodeBounded_encode encoded within, contentId, read, notRotation, ranges, agrees, cext, suite,
    stands, bind_eq_ok.mpr reencoded, differs, signer, recomputed, other⟩

/-- Signed, they are accepted.
Witness: a signature of the scheme's size keeps the object within the size bound.
-/
theorem unknownField_accepted
    : ∃ data parts o again own,
      signWithField digestLibrary sampleObject (.u 15, .u 7) algMldsa65 [9] = .ok data
      ∧ Accepted digestLibrary 1 (fitTo mldsa65PubSize [9]) (some fun _ _ => true) [] data parts o
      ∧ (getField 15 parts.pairs).isSome = true ∧ (o.bodyMap true >>= encode) = .ok again
      ∧ again ≠ parts.payload ∧ o.signer = [7] ∧ o.contentId = .ok own ∧ o.id ≠ some own := by
  obtain ⟨id, payload, prot, pairs, o, again, own, identified, encoded, header, payloadSize,
    protSize, decoded, contentId, read, notRotation, ranges, agrees, cext, suite, carried⟩ :=
    unknownField_checked
  have key : digestLibrary.mldsaPublic .mlDsa65 [9] = .ok (fitTo mldsa65PubSize [9]) := rfl
  have floor : profileMinLevel 1 ≤ (algLevel algMldsa65).1 := by decide
  obtain ⟨tbs, signed⟩ := @toBeSignedRaw_ok prot payload (by omega) (by omega)
  obtain ⟨sig, signature, sigSize, valid⟩ :=
    digestLibrary_signsVerifiably.mldsa key tbs [] (Nat.zero_le _)
  obtain ⟨data, assembled⟩ := @assembleSign1Raw_ok prot payload sig (by omega) (by omega) (by
    rw [sigSize]
    decide)
  have size : data.length ≤ maxObjectSize := by
    rw [assembleSign1Raw_size assembled, payloadSize, protSize, sigSize]
    decide
  refine ⟨data, ⟨prot, payload, sig, pairs, algMldsa65⟩, o, again, own, ?_, ?_, carried⟩
  · rw [signWithField, identified, ok_bind, encoded, ok_bind, header, ok_bind, signed, ok_bind,
      mldsaSign]
    simp only [mldsa, reduceIte, pure_eq_ok, ok_bind]
    rw [signature, ok_bind, assembled]
  · exact {
      size, notRotation, ranges, cext
      parsed := parseSign1Raw_assembled assembled
      body := decoded
      contentId
      read := objectFromMap_eq_ok.mp read
      header := agrees
      kind := rfl
      signature := ⟨tbs, signed, checkSignature_mldsa rfl floor suite valid⟩
    }

/-- An object with the unknown field 15 is accepted, and the returned object is without it. -/
theorem unknown_field_not_carried
    : ∃ data o prot payload sig,
      signWithField digestLibrary sampleObject (.u 15, .u 7) algMldsa65 [9] = .ok data
      ∧ parseSign1Raw data = .ok (prot, payload, sig)
      ∧ verify digestLibrary 1 algMldsa65 (fitTo mldsa65PubSize [9]) (some fun _ _ => true) data []
        = .ok o
      ∧ ¬ CarriesSigned o payload := by
  obtain ⟨data, parts, o, again, -, signed, stages, -, reencoded, differs, -⟩ :=
    unknownField_accepted
  have accepted : verify digestLibrary 1 algMldsa65 (fitTo mldsa65PubSize [9])
      (some fun _ _ => true) data [] = .ok o :=
    (verify_eq_ok ..).mpr ⟨parts, stages⟩
  refine ⟨data, o, parts.prot, parts.payload, parts.sig, signed, stages.parsed, accepted, ?_⟩
  intro carries
  rw [CarriesSigned, reencoded] at carries
  exact differs (Except.ok.inj carries.1)

end Naalp.Python.Envelope
