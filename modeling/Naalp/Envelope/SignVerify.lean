import Naalp.Envelope.Acceptance

/-! Signing an object and verifying the result returns the object. -/

namespace Naalp.Python.Envelope

open Naalp.Foundation
open Naalp.Python.Cbor
open Naalp.Python.Cose

def sortExtension (ext : Option (List (Value × Value))) : Option (List (Value × Value)) :=
  ext.map (fun pairs => sortPairs (sortMapsPairs pairs))

/-- The object with its maps in canonical entry order. -/
def Object.sorted (o : Object) : Object :=
  { o with
    body := sortMaps o.body, ext := sortExtension o.ext, cext := sortExtension o.cext }

theorem sortMaps_causes (causes : List Bytes)
    : sortMaps (.a (causes.map .b)) = .a (causes.map .b) := by
  rw [sortMaps, sortMapsItems_eq_map, List.map_map]
  rfl

/-- Sorting the maps of the pairs is sorting those of the object's fields; its own keys are in
order.
-/
theorem sortMapsPairs_fieldPairs (o : Object)
    : sortMapsPairs o.fieldPairs = o.sorted.fieldPairs := by
  have extension : ∀ (fnum : Int) (ext : Option (List (Value × Value))),
      (ext.map (fun pairs => (Value.u fnum, Value.m pairs))).toList.map (Prod.map sortMaps sortMaps)
        = ((sortExtension ext).map (fun pairs => (Value.u fnum, Value.m pairs))).toList := by
    intro fnum ext
    cases ext <;> simp [sortExtension, sortMaps]
  have optional : ∀ (guard : Prop) [Decidable guard] (pair : Value × Value),
      (if guard then [pair] else []).map (Prod.map sortMaps sortMaps)
        = if guard then [Prod.map sortMaps sortMaps pair] else [] := by
    intro guard _ pair
    split <;> rfl
  rw [sortMapsPairs_eq_map, Object.fieldPairs, List.map_append, List.map_append, List.map_append,
    List.map_append, extension, extension, optional, optional]
  simp only [List.map_cons, Prod.map, sortMaps_causes]
  simp only [sortMaps]
  rfl

/-- Sorting the maps of a body map sorts those of the object. -/
theorem sortMaps_pairs (o : Object) (id : Bytes)
    : sortMaps (.m (o.pairs id)) = .m (o.sorted.pairs id) := by
  have members : sortMapsPairs (o.pairs id) = o.sorted.pairs id := by
    rw [Object.pairs, sortMapsPairs, sortMapsPairs_fieldPairs]
    simp only [sortMaps]
    rfl
  rw [sortMaps, members, sortPairs_of_ascending (pairs_ascending _ id)]

theorem sortMaps_fieldPairs (o : Object)
    : sortMaps (.m o.fieldPairs) = .m o.sorted.fieldPairs := by
  rw [sortMaps, sortMapsPairs_fieldPairs, sortPairs_of_ascending (fieldPairs_ascending _)]

/-- The content id does not depend on the order of map entries. -/
theorem contentId_sorted {o : Object} {id : Bytes} (identified : o.contentId = .ok id)
    : o.sorted.contentId = .ok id := by
  have computed : ∀ o : Object, o.contentId = (encode (.m o.fieldPairs)).map contentIdBytes :=
    fun o => rfl
  rw [computed] at identified ⊢
  cases encoded : encode (.m o.fieldPairs) with
  | error e => simp [encoded, Except.map] at identified
  | ok octets =>
      obtain ⟨encodable, rfl⟩ := encode_eq_ok.mp encoded
      obtain ⟨canonical, same⟩ := sortMaps_canonical encodable
      rw [sortMaps_fieldPairs] at canonical same
      rw [canonical.encodable, same, ← identified, encoded]

theorem length_sortExtension {ext : Option (List (Value × Value))}
    {sortedPairs : List (Value × Value)} (sorted : sortExtension ext = some sortedPairs)
    : ∃ pairs, ext = some pairs ∧ sortedPairs.length = pairs.length := by
  obtain ⟨pairs, present, rfl⟩ := Option.map_eq_some_iff.mp sorted
  refine ⟨pairs, present, ?_⟩
  rw [(sortPairs_perm _).length_eq, sortMapsPairs_eq_map, List.length_map]

/-- A recognized critical extension stays so when its maps are sorted. -/
theorem recognized_sortExtension {knownCext : List Int} {cext : Option (List (Value × Value))}
    (recognized : ∀ pairs, cext = some pairs → ∀ pair ∈ pairs, Recognized knownCext pair)
    : ∀ pairs, sortExtension cext = some pairs → ∀ pair ∈ pairs, Recognized knownCext pair := by
  intro sortedPairs sorted pair member
  obtain ⟨pairs, present, rfl⟩ := Option.map_eq_some_iff.mp sorted
  rw [(sortPairs_perm _).mem_iff, sortMapsPairs_eq_map] at member
  obtain ⟨source, inside, rfl⟩ := List.mem_map.mp member
  obtain ⟨k, key, recheck, known⟩ := recognized pairs present source inside
  refine ⟨k, by rw [Prod.map_fst, key, sortMaps], ?_, known⟩
  intro isRecheck
  obtain ⟨procedure, named, isKnown⟩ := recheck isRecheck
  exact ⟨procedure, by rw [Prod.map_snd, named, sortMaps], isKnown⟩

-----------------------------------------------------------------------------------------
-- The size of a signed object
-----------------------------------------------------------------------------------------

/-- The octet count of a byte string with its head. -/
def byteStringSize (length : Nat) : Nat := (headBytes 2 length).length + length

/-- The octet count of the object that signing produces. An object that cannot be encoded,
for a number out of range, a repeated key or a lone surrogate, has none.
-/
def Object.signedSize (o : Object) (alg : Int) (sigSize : Nat) : Py Nat := do
  let id ← o.contentId
  let payload ← encode (← { o with id := some id }.bodyMap true)
  let prot ← protectedHeader alg o.signer o.profile
  -- the tag, the array head and the empty unprotected map take one octet each
  return 3 + byteStringSize prot.length + byteStringSize payload.length + byteStringSize sigSize

theorem length_encoding_b {v : Bytes} (encodable : Encodable (.b v))
    : (encoding (.b v)).length = byteStringSize v.length := by
  obtain ⟨-, octets⟩ := encode_b_eq_ok.mp encodable
  rw [octets, List.length_append, byteStringSize]

/-- The size of a wrapper, by those of its members. -/
theorem length_sign1 {prot payload sig data : Bytes} {unprotected : Value}
    (encoded : encode (.tag tagSign1 (.a [.b prot, unprotected, .b payload, .b sig])) = .ok data)
    : data.length
      = 2 + byteStringSize prot.length + (encoding unprotected).length
        + byteStringSize payload.length + byteStringSize sig.length := by
  obtain ⟨-, -, array, rfl⟩ := encode_tag_eq_ok.mp encoded
  obtain ⟨-, members, octets⟩ := encode_a_eq_ok.mp array
  have tagHead : (headBytes 6 tagSign1.toNat).length = 1 := rfl
  have arrayHead : (headBytes 4 4).length = 1 := rfl
  simp only [List.forall_mem_cons] at members
  rw [octets]
  simp [length_encoding_b members.1, length_encoding_b members.2.2.1,
    length_encoding_b members.2.2.2.1, tagHead, arrayHead]
  omega

/-- The size of a signed object, by those of its header, payload and signature. -/
theorem assembleSign1Raw_size {prot payload sig data : Bytes}
    (assembled : assembleSign1Raw prot payload sig = .ok data)
    : data.length
      = 3 + byteStringSize prot.length + byteStringSize payload.length + byteStringSize
        sig.length := by
  have size := length_sign1 assembled
  have emptyMap : (encoding (.m [])).length = 1 := rfl
  omega

/-- The object has no optional field and no cause, and numbers and a body that can be encoded. -/
structure Object.Plain (o : Object) : Prop where
  ext : o.ext = none
  cext : o.cext = none
  audience : o.audience = []
  suite : o.suite = 0
  causes : o.causes = []
  numbers : ∀ n ∈ [o.kind, o.channel, o.tier, o.created, o.effect, o.profile], 0 ≤ n ∧ n < 2 ^ 64
  body : Encodable o.body

theorem Object.Plain.fieldPairs_eq {o : Object} (plain : o.Plain)
    : o.fieldPairs
      = [(.u fieldKind, .u o.kind), (.u fieldChannel, .u o.channel), (.u fieldTier, .u o.tier),
        (.u fieldSigner, .b o.signer), (.u fieldCreated, .u o.created),
        (.u fieldEffect, .u o.effect), (.u fieldCauses, .a []), (.u fieldProfile, .u o.profile),
        (.u fieldBody, o.body)] := by
  simp [Object.fieldPairs, plain.ext, plain.cext, plain.audience, plain.suite, plain.causes]

/-- A plain object can be encoded, without its id and with any short one.
Witness: the keys are distinct small numbers, and each value has an encoding of its own.
-/
theorem Object.Plain.encodable {o : Object} (plain : o.Plain) (short : o.signer.length < 2 ^ 64)
    : Encodable (.m o.fieldPairs)
      ∧ ∀ id : Bytes, id.length < 2 ^ 64 → Encodable (.m (o.pairs id)) := by
  have numbers := plain.numbers
  simp only [List.forall_mem_cons, ← encodable_u] at numbers
  obtain ⟨kind, channel, tier, created, effect, profile, -⟩ := numbers
  have members : ∀ pair ∈ o.fieldPairs, Encodable pair.1 ∧ Encodable pair.2 := by
    rw [plain.fieldPairs_eq]
    simp only [List.forall_mem_cons]
    exact ⟨⟨rfl, kind⟩, ⟨rfl, channel⟩, ⟨rfl, tier⟩, ⟨rfl, encodable_b.mpr short⟩, ⟨rfl, created⟩,
      ⟨rfl, effect⟩, ⟨rfl, rfl⟩, ⟨rfl, profile⟩, ⟨rfl, plain.body⟩, nofun⟩
  have keys
      : o.fieldPairs.map encodedKey = [[2], [3], [4], [5], [6], [7], [8], [9], ([10] : Bytes)] := by
    rw [plain.fieldPairs_eq]
    rfl
  have count : o.fieldPairs.length = 9 := by
    rw [plain.fieldPairs_eq]
    rfl
  refine ⟨encodable_m.mpr ⟨?_, members, ?_⟩, fun id idShort => encodable_m.mpr ⟨?_, ?_, ?_⟩⟩
  · rw [count]
    decide
  · rw [keys]
    decide
  · rw [Object.pairs, List.length_cons, count]
    decide
  · exact List.forall_mem_cons.mpr ⟨⟨rfl, encodable_b.mpr idShort⟩, members⟩
  · rw [Object.pairs, List.map_cons, keys]
    change [[1], [2], [3], [4], [5], [6], [7], [8], [9], ([10] : Bytes)].Nodup
    decide

theorem byteStringSize_le (length : Nat) : byteStringSize length ≤ 9 + length :=
  Nat.add_le_add_right (length_headBytes_le 2 length) length

/-- The protected header has the signer's octets and at most 100 more.
Witness: both maps have short keys and heads of at most nine octets; the signer alone is of any
length.
-/
theorem headerValue_size {alg profile : Int} {signer : Bytes} (algorithm : Encodable (.n alg))
    (level : Encodable (.u profile)) (short : signer.length < 2 ^ 64)
    : Encodable (headerValue alg signer profile)
      ∧ (encoding (headerValue alg signer profile)).length ≤ 100 + signer.length := by
  have names : Encodable (.b signer) := encodable_b.mpr short
  have inner : Encodable (.m [(.u 1, .b signer), (.u 2, .u profile), (.u 3, .u naalpVersion)]) := by
    refine encodable_m.mpr ⟨Nat.lt_of_succ_lt (by decide : 3 + 1 < 2 ^ 64), ?_,
      (by decide : [[1], [2], ([3] : Bytes)].Nodup)⟩
    simp only [List.forall_mem_cons]
    exact ⟨⟨rfl, names⟩, ⟨rfl, level⟩, ⟨rfl, rfl⟩, nofun⟩
  have outer : Encodable (headerValue alg signer profile) := by
    refine encodable_m.mpr ⟨Nat.lt_of_succ_lt (by decide : 2 + 1 < 2 ^ 64), ?_,
      (by decide : ([.u 1, .t headerLabel].map encoding).Nodup)⟩
    simp only [List.forall_mem_cons]
    exact ⟨⟨rfl, algorithm⟩, ⟨rfl, inner⟩, nofun⟩
  refine ⟨outer, ?_⟩
  rw [headerValue] at outer ⊢
  have innerSize := length_encoding_m_le inner
  have outerSize := length_encoding_m_le outer
  have label : (encoding (.t headerLabel)).length = 6 := by decide
  have algSize : (encoding (.n alg)).length ≤ 9 := by
    obtain ⟨-, -, octets⟩ := encode_n_eq_ok.mp algorithm
    rw [octets]
    exact length_headBytes_le 1 _
  have signerSize := byteStringSize_le signer.length
  have first := length_encoding_u_le (rfl : Encodable (.u 1))
  have second := length_encoding_u_le (rfl : Encodable (.u 2))
  have third := length_encoding_u_le (rfl : Encodable (.u 3))
  have version := length_encoding_u_le (rfl : Encodable (.u naalpVersion))
  have levelSize := length_encoding_u_le level
  simp only [List.map_cons, List.map_nil, List.sum_cons, List.sum_nil, length_encodedPair,
    length_encoding_b names, label] at innerSize outerSize
  omega

/-- The payload has the octets of the signer and of the body and at most 250 more.
Witness: ten entries with keys of one octet and numbers of at most nine, beside the id, the
signer and the body.
-/
theorem Object.Plain.length_payload_le {o : Object} {id : Bytes} (plain : o.Plain)
    (idSize : id.length = 50) (encodable : Encodable (.m (o.pairs id)))
    : (encoding (.m (o.pairs id))).length ≤ 250 + o.signer.length + (encoding o.body).length := by
  have size := length_encoding_m_le encodable
  have members := (encodable_m.mp encodable).2.1
  rw [Object.pairs, plain.fieldPairs_eq] at size members ⊢
  simp only [List.forall_mem_cons] at members
  obtain ⟨⟨idKey, id⟩, ⟨kindKey, kind⟩, ⟨channelKey, channel⟩, ⟨tierKey, tier⟩, ⟨signerKey, signer⟩,
    ⟨createdKey, created⟩, ⟨effectKey, effect⟩, ⟨causesKey, -⟩, ⟨profileKey, profile⟩,
    ⟨bodyKey, -⟩, -⟩ := members
  have field {key : Int} (v : Value) (fits : Encodable (.u key))
      : (encodedPair (.u key, v)).length ≤ 9 + (encoding v).length := by
    rw [length_encodedPair]
    exact Nat.add_le_add_right (length_encoding_u_le fits) _
  have number {key v : Int} (fits : Encodable (.u key)) (valueFits : Encodable (.u v))
      : (encodedPair (.u key, .u v)).length ≤ 18 :=
    (field _ fits).trans (Nat.add_le_add_left (length_encoding_u_le valueFits) 9)
  have idSize := (field _ idKey).trans_eq (by rw [length_encoding_b id, idSize])
  have signerSize := (field _ signerKey).trans_eq (by rw [length_encoding_b signer])
  have causesSize := field (.a []) causesKey
  have bodySize := field o.body bodyKey
  have causes : (encoding (.a [])).length = 1 := rfl
  have idOctets := byteStringSize_le 50
  have signerOctets := byteStringSize_le o.signer.length
  have kindSize := number kindKey kind
  have channelSize := number channelKey channel
  have tierSize := number tierKey tier
  have createdSize := number createdKey created
  have effectSize := number effectKey effect
  have profileSize := number profileKey profile
  simp only [List.map_cons, List.map_nil, List.sum_cons, List.sum_nil] at size
  omega

/-- A plain object of short parts fits into the octets of an object.
Witness: the header, the payload and the signature are byte strings of bounded lengths.
-/
theorem Object.Plain.size {o : Object} {alg : Int} {sigSize : Nat} (plain : o.Plain)
    (algorithm : Encodable (.n alg)) (signer : o.signer.length ≤ 2000)
    (body : (encoding o.body).length ≤ 2000) (signature : sigSize ≤ 5000)
    : ∃ octets, o.signedSize alg sigSize = .ok octets ∧ octets ≤ maxObjectSize := by
  have short : o.signer.length < 2 ^ 64 := signer.trans_lt (by decide)
  obtain ⟨fields, whole⟩ := plain.encodable short
  obtain ⟨header, headerSize⟩ := headerValue_size algorithm
    (encodable_u.mpr (plain.numbers o.profile (by simp))) short
  obtain ⟨id, identified, idSize⟩ : ∃ id, o.contentId = .ok id ∧ id.length = 50 :=
    ⟨_, congrArg (· >>= fun body => pure (contentIdBytes body)) fields, length_contentIdBytes _⟩
  have payload := whole id (by rw [idSize]; decide)
  have payloadSize := plain.length_payload_le idSize payload
  have written : protectedHeader alg o.signer o.profile
      = .ok (encoding (headerValue alg o.signer o.profile)) := header
  have sized : o.signedSize alg sigSize
      = .ok (3 + byteStringSize (encoding (headerValue alg o.signer o.profile)).length
        + byteStringSize (encoding (.m (o.pairs id))).length + byteStringSize sigSize) := by
    rw [Object.signedSize, identified, ok_bind, bodyMap_with_id, ok_bind, payload, ok_bind, written,
      ok_bind, pure_eq_ok]
  refine ⟨_, sized, ?_⟩
  have prot := byteStringSize_le (encoding (headerValue alg o.signer o.profile)).length
  have bodyMap := byteStringSize_le (encoding (.m (o.pairs id))).length
  have sig := byteStringSize_le sigSize
  simp only [maxObjectSize]
  omega

-----------------------------------------------------------------------------------------
-- Verifying what was signed
-----------------------------------------------------------------------------------------

/-- The objects that can be signed and verified. -/
structure Signable (kindValidator : Option (Int → Int → Bool)) (knownCext : List Int) (o : Object)
    : Prop where
  channel : o.channel ≤ 19
  effect : o.effect ≤ 3
  profile : 1 ≤ o.profile ∧ o.profile ≤ 3
  notRotation : ¬ (o.channel = 3 ∧ o.kind = 0)
  surface : kindAccepted kindValidator o = true
  causes : o.causes.length ≤ maxCauses
  ext : ∀ pairs, o.ext = some pairs → pairs.length ≤ maxExt
  cext : ∀ pairs, o.cext = some pairs → pairs.length ≤ maxCext
  recognized : ∀ pairs, o.cext = some pairs → ∀ pair ∈ pairs, Recognized knownCext pair
  nesting : depth (.m o.fieldPairs) ≤ maxNestingDepth

section Verifying

variable {lib : SignatureLibrary} {kindValidator : Option (Int → Int → Bool)}
  {knownCext : List Int} {o : Object}

/-- The payload decodes to the body map with its maps in canonical order. -/
theorem decodeBounded_payload {id payload : Bytes}
    (nesting : depth (.m o.fieldPairs) ≤ maxNestingDepth)
    (encoded : encode (.m (o.pairs id)) = .ok payload)
    : decodeBounded payload maxNestingDepth = .ok (.m (o.sorted.pairs id)) := by
  have within : depth (.m (o.pairs id)) ≤ maxNestingDepth := by
    simp only [depth, Object.pairs, depthPairs, maxNestingDepth] at nesting ⊢
    omega
  rw [decodeBounded_encode encoded within, sortMaps_pairs]

/-- The pairs of an object within the limits are read back as the object with its maps sorted.
-/
theorem readFrom_sorted (causes : o.causes.length ≤ maxCauses)
    (ext : ∀ pairs, o.ext = some pairs → pairs.length ≤ maxExt)
    (cext : ∀ pairs, o.cext = some pairs → pairs.length ≤ maxCext) (id : Bytes)
    : ReadFrom (o.sorted.pairs id) { o.sorted with id := some id } := by
  refine readFrom_pairs causes ?_ ?_
  · intro sortedPairs sorted
    obtain ⟨pairs, present, same⟩ := length_sortExtension sorted
    exact same ▸ ext pairs present
  · intro sortedPairs sorted
    obtain ⟨pairs, present, same⟩ := length_sortExtension sorted
    exact same ▸ cext pairs present

/-- An object whose signature passes is returned with its maps in canonical order.
Witness: every stage of the verifier is passed, by the condition of the signable object that
belongs to it.
-/
theorem verify_assembled {profile alg halg : Int} {pubkey id payload prot tbs sig data : Bytes}
    (signable : Signable kindValidator knownCext o) (identified : o.contentId = .ok id)
    (encoded : encode (.m (o.pairs id)) = .ok payload)
    (header : protectedHeader halg o.signer o.profile = .ok prot)
    (signed : toBeSignedRaw prot payload = .ok tbs)
    (assembled : assembleSign1Raw prot payload sig = .ok data)
    (size : data.length ≤ maxObjectSize)
    (valid : checkSignature lib profile pubkey halg o.sorted tbs sig = .ok ())
    : verify lib profile alg pubkey kindValidator data knownCext
      = .ok { o.sorted with id := some id } := by
  have decoded := decodeBounded_payload signable.nesting encoded
  have read := readFrom_sorted signable.causes signable.ext signable.cext id
  have ranges : checkRanges { o.sorted with id := some id } = .ok () := by
    have channel := signable.channel
    have effect := signable.effect
    obtain ⟨lower, upper⟩ := signable.profile
    refine raiseIf_neg ?_
    simp only [Object.sorted]
    omega
  have headerAgrees : checkHeader prot { o.sorted with id := some id } = .ok halg := by
    simp [checkHeader, parseProtected_protectedHeader header, Object.sorted]
  have notRotation : isRotationObject o.channel o.kind = false := by
    simpa [isRotationObject] using signable.notRotation
  refine (verify_eq_ok lib profile pubkey kindValidator knownCext).mpr
    ⟨⟨prot, payload, sig, o.sorted.pairs id, halg⟩, ?_⟩
  exact {
    size
    parsed := parseSign1Raw_assembled assembled
    body := decoded
    contentId := checkContentId_pairs.mpr (contentId_sorted identified)
    read
    notRotation
    ranges
    header := headerAgrees
    cext := checkCext_eq_ok.mpr (recognized_sortExtension signable.recognized)
    kind := signable.surface
    signature := ⟨tbs, signed, valid⟩
  }

/-- An object within the size bound can be encoded, and assembled with any signature of the
expected size.
-/
theorem encoded_within_size {alg : Int} {sigSize : Nat}
    (size : ∃ octets, o.signedSize alg sigSize = .ok octets ∧ octets ≤ maxObjectSize)
    : ∃ id payload prot tbs, o.contentId = .ok id ∧ encode (.m (o.pairs id)) = .ok payload
      ∧ protectedHeader alg o.signer o.profile = .ok prot ∧ toBeSignedRaw prot payload = .ok tbs
      ∧ ∀ sig, sig.length = sigSize
        → ∃ data, assembleSign1Raw prot payload sig = .ok data ∧ data.length ≤ maxObjectSize := by
  obtain ⟨octets, sized, bound⟩ := size
  simp only [Object.signedSize, bodyMap_with_id, bind_eq_ok, pure_eq_ok, Except.ok.injEq,
    exists_eq_left'] at sized
  obtain ⟨id, identified, payload, encoded, prot, header, rfl⟩ := sized
  have short : prot.length < 2 ^ 64 ∧ payload.length < 2 ^ 64 ∧ sigSize < 2 ^ 64 := by
    simp only [byteStringSize, maxObjectSize] at bound
    omega
  obtain ⟨tbs, signed⟩ := toBeSignedRaw_ok short.1 short.2.1
  refine ⟨id, payload, prot, tbs, identified, encoded, header, signed, ?_⟩
  rintro sig rfl
  obtain ⟨data, assembled⟩ := assembleSign1Raw_ok short.1 short.2.1 short.2.2
  exact ⟨data, assembled, assembleSign1Raw_size assembled ▸ bound⟩

end Verifying

/-- What is relied on of the signature packages: a seed signs every message, with a signature
of the scheme's size that verifies under the public key of the seed.
-/
structure SignsVerifiably (lib : SignatureLibrary) : Prop where
  mldsa : ∀ {set seed key}, lib.mldsaPublic set seed = .ok key
    → ∀ message context : Bytes, context.length ≤ 255
    → ∃ sig, lib.mldsaSign set seed message context = .ok sig ∧ sig.length = set.signatureSize
      ∧ lib.mldsaVerify set key message sig context = .ok true
  mldsaKey : ∀ {seed key}, lib.mldsaPublic .mlDsa65 seed = .ok key → key.length = mldsa65PubSize
  ed25519 : ∀ {seed key}, lib.ed25519Public seed = .ok key
    → ∀ message, ∃ sig, lib.ed25519Sign seed message = .ok sig ∧ sig.length = 64
      ∧ lib.ed25519Verify key message sig = .ok true
  ed25519Key : ∀ {seed key}, lib.ed25519Public seed = .ok key
    → seed.length = 32 ∧ key.length = 32

/-- An ML-DSA alg is registered and is verified with its parameter set. -/
theorem coseVerify1Raw_mldsa {lib : SignatureLibrary} {alg : Int} {set : MlDsa}
    (isMldsa : mldsa alg = .ok set)
    : alg ≠ algComposite65Ed25519 ∧ (algLevel alg).2 = true
      ∧ ∀ pk tbs sig, coseVerify1Raw lib alg pk tbs sig = lib.mldsaVerify set pk tbs sig [] := by
  unfold mldsa at isMldsa
  split at isMldsa
  · rename_i same
    subst same
    obtain rfl : .mlDsa65 = set := Except.ok.inj isMldsa
    exact ⟨by decide, by decide, fun _ _ _ => rfl⟩
  · split at isMldsa
    · rename_i same
      subst same
      obtain rfl : .mlDsa87 = set := Except.ok.inj isMldsa
      exact ⟨by decide, by decide, fun _ _ _ => rfl⟩
    · cases isMldsa

theorem checkSignature_mldsa {lib : SignatureLibrary} {profile alg : Int} {set : MlDsa} {o : Object}
    {pubkey tbs sig : Bytes} (isMldsa : mldsa alg = .ok set)
    (floor : profileMinLevel profile ≤ (algLevel alg).1) (pureSuite : o.suite = 0)
    (valid : lib.mldsaVerify set pubkey tbs sig [] = .ok true)
    : checkSignature lib profile pubkey alg o tbs sig = .ok () := by
  obtain ⟨notComposite, registered, verifies⟩ := @coseVerify1Raw_mldsa lib _ _ isMldsa
  simp [checkSignature, notComposite, pureSuite, registered, floor, verifies, valid]

theorem checkSignature_composite {lib : SignatureLibrary} {profile : Int} {o : Object}
    {mldsaPub edPub tbs sig : Bytes} (notSovereign : profile ≠ profileSovereign)
    (suite : o.suite = suiteMldsa65Ed25519) (mldsaSize : mldsaPub.length = mldsa65PubSize)
    (edSize : edPub.length = 32) (valid : compositeVerify lib mldsaPub edPub tbs sig = .ok true)
    : checkSignature lib profile (mldsaPub ++ edPub) algComposite65Ed25519 o tbs sig = .ok () := by
  simp [checkSignature, notSovereign, suite, List.drop_left' mldsaSize, List.take_left' mldsaSize,
    edSize, valid]

section Signing

variable {lib : SignatureLibrary} (signs : SignsVerifiably lib)

include signs

/-- Both seeds of a composite key sign every message, and both legs verify. -/
theorem compositeSign_verifies {mldsaSeed edSeed mldsaPub edPub : Bytes}
    (mldsaKey : lib.mldsaPublic .mlDsa65 mldsaSeed = .ok mldsaPub)
    (edKey : lib.ed25519Public edSeed = .ok edPub) (tbs : Bytes)
    : ∃ sig, compositeSign lib mldsaSeed edSeed tbs = .ok sig ∧ sig.length = mldsa65SigSize + 64
      ∧ compositeVerify lib mldsaPub edPub tbs sig = .ok true := by
  have labelSize : compositeLabelMldsa65Ed25519.length ≤ 255 := by decide
  obtain ⟨mprime, represented⟩ : ∃ mprime,
      computeMprime compositeLabelMldsa65Ed25519 [] tbs = .ok mprime := ⟨_, rfl⟩
  obtain ⟨mldsaSig, mldsaSigned, mldsaSize, mldsaValid⟩ :=
    signs.mldsa mldsaKey mprime compositeLabelMldsa65Ed25519 labelSize
  obtain ⟨tradSig, tradSigned, tradSize, tradValid⟩ := signs.ed25519 edKey mprime
  obtain ⟨seedSize, -⟩ := signs.ed25519Key edKey
  have sigSize : (mldsaSig ++ tradSig).length = mldsa65SigSize + 64 := by
    rw [List.length_append, mldsaSize, tradSize]
    rfl
  have legSize : mldsaSig.length = mldsa65SigSize := mldsaSize
  refine ⟨mldsaSig ++ tradSig, ?_, sigSize, ?_⟩
  · simp [compositeSign, represented, mldsaSigned, ed25519Sign, seedSize, tradSigned]
  · simp [compositeVerify, sigSize, represented, List.drop_left' legSize, List.take_left' legSize,
      mldsaValid, tradValid]

/-- An object that was signed with ML-DSA has the size that is expected of it. -/
theorem sign_size {o : Object} {alg : Int} {set : MlDsa} {seed pubkey data : Bytes}
    (isMldsa : mldsa alg = .ok set) (key : lib.mldsaPublic set seed = .ok pubkey)
    (signed : sign lib o alg seed = .ok data)
    : o.signedSize alg set.signatureSize = .ok data.length := by
  simp only [sign, bodyMap_with_id, mldsaSign, isMldsa, bind_eq_ok, Except.ok.injEq,
    exists_eq_left'] at signed
  obtain ⟨id, identified, payload, encoded, prot, header, tbs, -, sig, signature, assembled⟩ :=
    signed
  obtain ⟨_, again, sigSize, -⟩ := signs.mldsa key tbs [] (Nat.zero_le _)
  obtain rfl := Except.ok.inj (signature.symm.trans again)
  rw [Object.signedSize, identified, ok_bind, bodyMap_with_id, ok_bind, encoded, ok_bind, header,
    ok_bind, pure_eq_ok, assembleSign1Raw_size assembled, sigSize]

variable {kindValidator : Option (Int → Int → Bool)} {knownCext : List Int} {o : Object}
  (signable : Signable kindValidator knownCext o)

include signable

/-- An object that was signed with ML-DSA verifies under the key, when its fields, its size and
the profile's floor allow it.
-/
theorem verify_sign {profile alg : Int} {set : MlDsa} {seed pubkey : Bytes} (anyAlg : Int)
    (isMldsa : mldsa alg = .ok set) (key : lib.mldsaPublic set seed = .ok pubkey)
    (floor : profileMinLevel profile ≤ (algLevel alg).1) (pureSuite : o.suite = 0)
    (size : ∃ octets, o.signedSize alg set.signatureSize = .ok octets ∧ octets ≤ maxObjectSize)
    : ∃ data id, sign lib o alg seed = .ok data ∧ o.contentId = .ok id
      ∧ verify lib profile anyAlg pubkey kindValidator data knownCext
        = .ok { o.sorted with id := some id } := by
  obtain ⟨id, payload, prot, tbs, identified, encoded, header, signed, assembles⟩ :=
    encoded_within_size size
  obtain ⟨sig, signature, sigSize, valid⟩ := signs.mldsa key tbs [] (Nat.zero_le _)
  obtain ⟨data, assembled, bound⟩ := assembles sig sigSize
  refine ⟨data, id, ?_, identified, ?_⟩
  · simp [sign, identified, bodyMap_with_id, encoded, header, signed, mldsaSign, isMldsa,
      signature, assembled]
  · have checked := @checkSignature_mldsa _ _ _ _ o.sorted _ _ _ isMldsa floor pureSuite valid
    exact verify_assembled signable identified encoded header signed assembled bound checked

/-- So does one that was signed with both keys, outside the Sovereign profile. -/
theorem verify_signComposite {profile : Int} {mldsaSeed edSeed mldsaPub edPub : Bytes}
    (anyAlg : Int) (mldsaKey : lib.mldsaPublic .mlDsa65 mldsaSeed = .ok mldsaPub)
    (edKey : lib.ed25519Public edSeed = .ok edPub) (notSovereign : profile ≠ profileSovereign)
    (suite : o.suite = suiteMldsa65Ed25519)
    (size : ∃ octets, o.signedSize algComposite65Ed25519 (mldsa65SigSize + 64) = .ok octets
      ∧ octets ≤ maxObjectSize)
    : ∃ data id, signComposite lib o mldsaSeed edSeed = .ok data ∧ o.contentId = .ok id
      ∧ verify lib profile anyAlg (mldsaPub ++ edPub) kindValidator data knownCext
        = .ok { o.sorted with id := some id } := by
  obtain ⟨id, payload, prot, tbs, identified, encoded, header, signed, assembles⟩ :=
    encoded_within_size size
  obtain ⟨sig, signature, sigSize, valid⟩ := compositeSign_verifies signs mldsaKey edKey tbs
  obtain ⟨data, assembled, bound⟩ := assembles sig sigSize
  refine ⟨data, id, ?_, identified, ?_⟩
  · have sameObject : { o with suite := suiteMldsa65Ed25519 } = o := by rw [← suite]
    rw [signComposite, sameObject]
    simp [identified, bodyMap_with_id, encoded, header, signed, signature, assembled]
  · have checked := @checkSignature_composite _ _ o.sorted _ _ _ _ notSovereign suite
      (signs.mldsaKey mldsaKey) (signs.ed25519Key edKey).2 valid
    exact verify_assembled signable identified encoded header signed assembled bound checked

end Signing

/-- Signing then verifying returns the signed object with its maps in canonical order and its
content id: for `sign` with an ML-DSA alg at or above the verifier's profile, and for
`sign_composite` on every profile other than Sovereign.
-/
theorem sign_then_verify {lib : SignatureLibrary} (signs : SignsVerifiably lib)
    (kindValidator : Option (Int → Int → Bool)) (knownCext : List Int) (profile : Int)
    : (∀ o alg set seed pubkey, Signable kindValidator knownCext o → o.suite = 0
        → mldsa alg = .ok set → lib.mldsaPublic set seed = .ok pubkey
        → profileMinLevel profile ≤ (algLevel alg).1
        → (∃ octets, o.signedSize alg set.signatureSize = .ok octets ∧ octets ≤ maxObjectSize)
        → ∃ data id, sign lib o alg seed = .ok data ∧ o.contentId = .ok id
          ∧ verify lib profile alg pubkey kindValidator data knownCext
            = .ok { o.sorted with id := some id })
      ∧ (∀ o mldsaSeed edSeed mldsaPub edPub,
        Signable kindValidator knownCext { o with suite := suiteMldsa65Ed25519 }
        → lib.mldsaPublic .mlDsa65 mldsaSeed = .ok mldsaPub → lib.ed25519Public edSeed = .ok edPub
        → profile ≠ profileSovereign
        → (∃ octets, { o with suite := suiteMldsa65Ed25519 }.signedSize algComposite65Ed25519
            (mldsa65SigSize + 64) = .ok octets ∧ octets ≤ maxObjectSize)
        → ∃ data id, signComposite lib o mldsaSeed edSeed = .ok data
          ∧ { o with suite := suiteMldsa65Ed25519 }.contentId = .ok id
          ∧ verify lib profile algComposite65Ed25519 (mldsaPub ++ edPub) kindValidator data
            knownCext
            = .ok { o.sorted with id := some id, suite := suiteMldsa65Ed25519 }) := by
  constructor
  · intro o alg set seed pubkey signable pureSuite isMldsa key floor size
    exact verify_sign signs signable alg isMldsa key floor pureSuite size
  · intro o mldsaSeed edSeed mldsaPub edPub signable mldsaKey edKey notSovereign size
    exact verify_signComposite signs signable _ mldsaKey edKey notSovereign rfl size

theorem fitTo_of_length {size : Nat} {data : Bytes} (exact : data.length = size)
    : fitTo size data = data :=
  List.take_left' exact

/-- The library on which the model can be evaluated verifies what it signs.
Witness: a signature is the digest of the key and the message, which the verifier computes
again.
-/
theorem digestLibrary_signsVerifiably : SignsVerifiably digestLibrary where
  mldsa := by
    intro set seed key derived message context _
    obtain rfl := Except.ok.inj derived
    exact ⟨_, rfl, length_fitTo _ _, by simp [digestLibrary]⟩
  mldsaKey := by
    intro seed key derived
    obtain rfl := Except.ok.inj derived
    exact length_fitTo _ _
  ed25519 := by
    intro seed key derived message
    simp only [digestLibrary] at derived ⊢
    split at derived
    · rename_i size
      obtain rfl := Except.ok.inj derived
      exact ⟨_, rfl, length_fitTo _ _, by simp [fitTo_of_length size]⟩
    · cases derived
  ed25519Key := by
    intro seed key derived
    simp only [digestLibrary] at derived
    split at derived
    · rename_i size
      obtain rfl := Except.ok.inj derived
      exact ⟨size, size⟩
    · cases derived

def sampleObject : Object where
  id := none
  kind := 1
  channel := 2
  tier := 0
  signer := [7]
  created := 5
  effect := 1
  causes := []
  profile := 1
  body := .m [(.u 1, .u 7), (.u 0, .u 8)]
  ext := none
  cext := some [(.u recheckKey, .u 1)]
  audience := .lit ['a']
  suite := 0

/-- The sample object passes the checks of signing. -/
theorem sampleObject_signable {suite : Int} (listed : suite = 0 ∨ suite = suiteMldsa65Ed25519)
    : Signable (some fun _ _ => true) [] { sampleObject with suite } := by
  have recognized : ∀ pairs, sampleObject.cext = some pairs
      → ∀ pair ∈ pairs, Recognized [] pair := by
    rintro _ ⟨⟩ pair member
    obtain rfl := List.mem_singleton.mp member
    exact ⟨_, rfl, fun _ => ⟨_, rfl, rfl⟩, fun other => (other rfl).elim⟩
  have cext : ∀ pairs, sampleObject.cext = some pairs → pairs.length ≤ maxCext := by
    rintro _ ⟨⟩
    decide
  rcases listed with rfl | rfl
  · exact ⟨by decide, by decide, by decide, by decide, rfl, by decide, nofun, cext, recognized,
      by decide⟩
  · exact ⟨by decide, by decide, by decide, by decide, rfl, by decide, nofun, cext, recognized,
      by decide⟩

theorem sampleObject_size : sampleObject.signedSize algMldsa65 3309 = .ok 3420 := by
  decide +kernel

/-- A wrapper can be encoded with any value in the unprotected position that can. -/
theorem encodable_rewrapped {prot payload sig : Bytes} {unprotected other : Value}
    (wrapped : Encodable (.tag tagSign1 (.a [.b prot, unprotected, .b payload, .b sig])))
    (fits : Encodable other)
    : Encodable (.tag tagSign1 (.a [.b prot, other, .b payload, .b sig])) := by
  obtain ⟨lower, upper, array⟩ := encodable_tag.mp wrapped
  obtain ⟨count, members⟩ := encodable_a.mp array
  simp only [List.forall_mem_cons] at members
  obtain ⟨protFits, -, payloadFits, sigFits, -⟩ := members
  refine encodable_tag.mpr ⟨lower, upper, encodable_a.mpr ⟨count, ?_⟩⟩
  simp only [List.forall_mem_cons]
  exact ⟨protFits, fits, payloadFits, sigFits, nofun⟩

/-- The sample object can be signed, to an object of the expected size that verifies. -/
theorem sampleObject_verified
    : ∃ signed id, sign digestLibrary sampleObject algMldsa65 [9] = .ok signed
      ∧ signed.length = 3420 ∧ sampleObject.contentId = .ok id
      ∧ verify digestLibrary 1 algMldsa65 (fitTo mldsa65PubSize [9]) (some fun _ _ => true) signed
        [] = .ok { sampleObject.sorted with id := some id } := by
  have key : digestLibrary.mldsaPublic .mlDsa65 [9] = .ok (fitTo mldsa65PubSize [9]) := rfl
  have floor : profileMinLevel 1 ≤ (algLevel algMldsa65).1 := by decide
  have signable : Signable (some fun _ _ => true) [] sampleObject :=
    sampleObject_signable (.inl rfl)
  obtain ⟨signed, id, made, identified, accepted⟩ := verify_sign digestLibrary_signsVerifiably
    signable algMldsa65 rfl key floor rfl ⟨3420, sampleObject_size, by decide⟩
  have expected : sampleObject.signedSize algMldsa65 (MlDsa.signatureSize .mlDsa65) = .ok 3420 :=
    sampleObject_size
  have sized := sign_size digestLibrary_signsVerifiably rfl key made
  exact ⟨signed, id, made, Except.ok.inj (sized.symm.trans expected), identified, accepted⟩

/-- The parts of the signed sample object, around another short value in the unprotected position,
are within the size bound.
-/
theorem sampleObject_rewrapped {other : Value} (fits : Encodable other)
    (short : (encoding other).length ≤ 1000)
    : ∃ signed parts o obj, sign digestLibrary sampleObject algMldsa65 [9] = .ok signed
      ∧ Accepted digestLibrary 1 (fitTo mldsa65PubSize [9]) (some fun _ _ => true) [] signed parts o
      ∧ encode (.tag tagSign1 (.a [.b parts.prot, other, .b parts.payload, .b parts.sig])) = .ok obj
      ∧ obj.length ≤ maxObjectSize := by
  obtain ⟨signed, id, made, size, -, accepted⟩ := sampleObject_verified
  obtain ⟨parts, stages⟩ := (verify_eq_ok ..).mp accepted
  have written := made
  simp only [sign, bodyMap_with_id, bind_eq_ok, Except.ok.injEq, exists_eq_left'] at written
  obtain ⟨_, _, payload, _, prot, _, _, _, sig, _, assembled⟩ := written
  obtain ⟨sameProt, sameRest⟩ := Prod.mk.inj
    (Except.ok.inj (stages.parsed.symm.trans (parseSign1Raw_assembled assembled)))
  obtain ⟨samePayload, sameSig⟩ := Prod.mk.inj sameRest
  have signedLength := length_sign1 assembled
  have encoded := encodable_rewrapped (encode_eq_ok.mp assembled).1 fits
  have length := length_sign1 encoded
  refine ⟨signed, parts, _, _, made, stages, by rw [sameProt, samePayload, sameSig]; exact encoded,
    ?_⟩
  simp only [maxObjectSize]
  omega

/-- An object with a map out of order, a recheck entry and an audience round trips, signed
either way.
-/
theorem sign_then_verify_sample
    : (∃ data id, sign digestLibrary sampleObject algMldsa65 [9] = .ok data
      ∧ sampleObject.contentId = .ok id
      ∧ verify digestLibrary 1 algMldsa65 (fitTo mldsa65PubSize [9]) (some fun _ _ => true) data []
        = .ok { sampleObject with
          body := .m [(.u 0, .u 8), (.u 1, .u 7)], id := some id })
      ∧ ∃ data id, signComposite digestLibrary sampleObject [9] (List.replicate 32 3) = .ok data
      ∧ { sampleObject with suite := 1 }.contentId = .ok id
      ∧ verify digestLibrary 1 algComposite65Ed25519
          (fitTo mldsa65PubSize [9] ++ List.replicate 32 3) (some fun _ _ => true) data []
        = .ok { sampleObject with
          body := .m [(.u 0, .u 8), (.u 1, .u 7)], id := some id, suite := 1 } := by
  have sizedComposite : { sampleObject with suite := suiteMldsa65Ed25519 }.signedSize
      algComposite65Ed25519 (mldsa65SigSize + 64) = .ok 3489 := by
    decide +kernel
  obtain ⟨signed, composite⟩ :=
    sign_then_verify digestLibrary_signsVerifiably (some fun _ _ => true) [] 1
  constructor
  · exact signed sampleObject algMldsa65 .mlDsa65 [9] _ (sampleObject_signable (.inl rfl)) rfl rfl
      rfl (by decide) ⟨3420, sampleObject_size, by decide⟩
  · exact composite sampleObject [9] (List.replicate 32 3) _ _ (sampleObject_signable (.inr rfl))
      rfl rfl (by decide) ⟨3489, sizedComposite, by decide⟩

end Naalp.Python.Envelope
