import Naalp.Envelope.SignVerify
import Naalp.Rooms.Membership

/-! The room behind `apply_signed`. Over every run of signed requests, replayed ones among them, the
authority of an owner comes from the creator through ops that owners signed.
-/

namespace Naalp.Rooms

open Naalp.Foundation
open Naalp.Python
open Naalp.Python.Audit
open Naalp.Python.Cose
open Naalp.Python.Rooms
open Naalp.Receipts

/-- A call of `Room.apply_signed`. -/
structure SignedRequest where
  profile : Int
  alg : Int
  pubkey : Bytes
  signedObj : Bytes
  time : Int

section Signed

variable (nfc : PyStr → PyStr) (lib : SignatureLibrary)

def applySignedRequest (r : SignedRequest) : EStateM Exc Room (Receipt × Int) :=
  Room.applySigned nfc lib r.profile r.alg r.pubkey r.signedObj r.time

/-- The room that a run of signed requests leads to. -/
def roomAfterSigned (room : Room) (requests : List SignedRequest) : Room :=
  finalState (respond (applySignedRequest nfc lib)) room requests

/-- The request carries an op that verifies under the key of an actor: the object's signature, its
signer field, and its kind and effect.
-/
structure Carries (r : SignedRequest) (actor : PyStr) (op : RoomOp) : Prop where
  actorId : Identity.signerId r.alg r.pubkey = .ok actor
  verified : ∃ o parts octets,
    Envelope.Accepted lib r.profile r.pubkey (some composedKindValidator) []
      r.signedObj parts o
    ∧ o.channel = channelGovernance ∧ o.tier = tier
    ∧ actor.encode = .ok octets ∧ o.signer = octets
    ∧ roomOpFromBody o.body = .ok op ∧ kindForOp op.op = some (o.kind, o.effect)

/-- After the accepted requests the subject is an owner: as the creator, or added by an op that an
owner at that time has signed.
-/
inductive Authorized (creator : PyStr) : List SignedRequest → PyStr → Prop where
  | creator (before : List SignedRequest) : Authorized creator before creator
  | added {earlier later : List SignedRequest} {r : SignedRequest} {actor : PyStr} {op : RoomOp}
      (carries : Carries lib r actor op) (adds : op.op = opAddOwner)
      (actorOwns : Authorized creator earlier actor)
      : Authorized creator (earlier ++ r :: later) op.subject

variable {nfc lib}

/-- A signed request is opened exactly as the op and the actor that it carries. -/
theorem openSigned_eq_ok {r : SignedRequest} {actor : PyStr} {op : RoomOp}
    : openSigned lib r.profile r.alg r.pubkey r.signedObj = .ok (op, actor)
      ↔ Carries lib r actor op := by
  simp only [openSigned, bind_eq_ok, Envelope.verify_eq_ok, raiseIf_eq_ok, exists_const, pure_eq_ok,
    Except.ok.injEq, Prod.mk.injEq, not_or, not_not, ne_eq]
  constructor
  · intro opened
    obtain ⟨o, ⟨parts, accepted⟩, ⟨channel, tier⟩, _, id, octets, encoded, signer, _, read,
      kind, rfl, rfl⟩ := opened
    exact ⟨id, o, parts, octets, accepted, channel, tier, encoded, signer, read, kind⟩
  · intro carries
    obtain ⟨id, o, parts, octets, accepted, channel, tier, encoded, signer, read, kind⟩ := carries
    exact ⟨o, ⟨parts, accepted⟩, ⟨channel, tier⟩, actor, id, octets, encoded, signer, op, read,
      kind, rfl, rfl⟩

/-- The bytes name the op, whatever key they are verified under. -/
theorem Carries.op_unique {r r' : SignedRequest} {actor actor' : PyStr} {op op' : RoomOp}
    (carries : Carries lib r actor op) (carries' : Carries lib r' actor' op')
    (same : r.signedObj = r'.signedObj) : op = op' := by
  obtain ⟨-, o, parts, -, accepted, -, -, -, -, read, -⟩ := carries
  obtain ⟨-, o', parts', -, accepted', -, -, -, -, read', -⟩ := carries'
  have split := accepted'.parsed
  rw [← same, accepted.parsed, Except.ok.injEq, Prod.mk.injEq, Prod.mk.injEq] at split
  have body := accepted'.body
  rw [← split.2.1, accepted.body, Except.ok.injEq, Cbor.Value.m.injEq] at body
  have object := Envelope.objectFromMap_eq_ok.mpr accepted'.read
  rw [← body, Envelope.objectFromMap_eq_ok.mpr accepted.read, Except.ok.injEq] at object
  rw [← object, read, Except.ok.injEq] at read'
  exact read'

theorem Authorized.mono {creator : PyStr} {before : List SignedRequest} {subject : PyStr}
    (authorized : Authorized lib creator before subject) (more : List SignedRequest)
    : Authorized lib creator (before ++ more) subject := by
  cases authorized with
  | creator => exact .creator _
  | added carries adds actorOwns =>
      rw [List.append_assoc, List.cons_append]
      exact .added carries adds actorOwns

theorem change_id {room : Room} {o : RoomOp} : (room.change o).id = room.id := by
  unfold Room.change
  split_ifs <;> rfl

/-- Only `add_owner` makes an owner. -/
theorem owners_of_change {room : Room} {o : RoomOp} {subject : PyStr}
    (owned : subject ∈ (room.change o).owners)
    : subject ∈ room.owners ∨ o.op = opAddOwner ∧ subject = o.subject := by
  unfold Room.change at owned
  split_ifs at owned with add addOwner remove role
  · exact .inl owned
  · rcases (AList.mem_insert _).mp owned with same | before
    · exact .inr ⟨addOwner, same⟩
    · exact .inl before
  · exact .inl owned
  · exact .inl owned
  · exact .inl owned

theorem mem_owners_of_isOwner {room : Room} {actor : PyStr} (owns : room.isOwner actor = true)
    : actor ∈ room.owners := by
  rw [← AList.lookup_isSome]
  rcases found : room.owners.lookup actor with _ | value
  · simp [Room.isOwner, found] at owns
  · rfl

/-- What relates a room to the signed requests that it has accepted. -/
structure Accountable (lib : SignatureLibrary) (id : Bytes) (creator : PyStr)
    (before : List SignedRequest) (room : Room) : Prop where
  sameRoom : room.id = id
  epoch : room.epoch = before.length + 1
  owners (subject : PyStr) (owned : subject ∈ room.owners) : Authorized lib creator before subject
  requests (earlier later : List SignedRequest) (r : SignedRequest)
      (split : before = earlier ++ r :: later)
    : ∃ actor op, Carries lib r actor op ∧ Authorized lib creator earlier actor
      ∧ op.room = id ∧ op.epoch = earlier.length + 1
  nodup : (before.map SignedRequest.signedObj).Nodup

/-- A request that the room accepts keeps it accountable.
Witness: an op is accepted from an owner, and only an accepted op makes another principal one.
-/
theorem Accountable.step {id : Bytes} {creator : PyStr} {before : List SignedRequest}
    {room after : Room} {r : SignedRequest} {value : Receipt × Int}
    (accountable : Accountable lib id creator before room)
    (applied : applySignedRequest nfc lib r room = .ok value after)
    : Accountable lib id creator (before ++ [r]) after := by
  obtain ⟨⟨op, actor⟩, between, read, called⟩ := method_bind_eq_ok.mp applied
  obtain ⟨opened, rfl⟩ := check_eq_ok.mp read
  obtain ⟨rec, cursor⟩ := value
  have carries := openSigned_eq_ok.mp opened
  obtain ⟨checked, obj, sig, auth, -, -, -, rfl⟩ := apply_eq_ok.mp called
  obtain ⟨⟨sameRoom, -⟩, sameEpoch, -, owns, -⟩ := checkOp_eq_ok.mp checked
  have actorOwns := accountable.owners actor (mem_owners_of_isOwner owns)
  refine ⟨?_, ?_, ?_, ?_, ?_⟩
  · exact (@change_id { between with auth } op).trans accountable.sameRoom
  · simp [accountable.epoch]
  · intro subject owned
    rcases @owners_of_change { between with auth } _ _ owned with owned | ⟨adds, rfl⟩
    · exact (accountable.owners subject owned).mono [r]
    · exact .added carries adds actorOwns
  · intro earlier later r' split
    rcases List.eq_nil_or_concat later with rfl | ⟨later, last, rfl⟩
    · obtain ⟨rfl, same⟩ := List.append_inj' split rfl
      obtain rfl : r = r' := by simpa using same
      exact ⟨actor, op, carries, actorOwns, sameRoom.trans accountable.sameRoom,
        sameEpoch.trans accountable.epoch⟩
    · rw [List.concat_eq_append, ← List.cons_append, ← List.append_assoc] at split
      exact accountable.requests earlier later r' (List.append_inj' split rfl).1
  · rw [List.map_append, List.nodup_append]
    refine ⟨accountable.nodup, List.nodup_singleton _, ?_⟩
    rintro _ again _ new rfl
    obtain ⟨r', at_, bytes⟩ := List.mem_map.mp again
    obtain ⟨earlier, later, split⟩ := List.append_of_mem at_
    obtain ⟨actor', op', carries', -, -, epoch'⟩ := accountable.requests earlier later r' split
    obtain rfl : op' = op := carries'.op_unique carries (bytes.trans (List.mem_singleton.mp new))
    have late := epoch'.symm.trans (sameEpoch.trans accountable.epoch)
    simp only [split, List.length_append, List.length_cons] at late
    omega

theorem applySigned_atomic (r : SignedRequest) : Atomic (applySignedRequest nfc lib r) := by
  refine (reads_check _).bind fun opened => ?_
  exact apply_atomic opened.1 opened.2 r.time

/-- In every run of signed requests on a created room, whoever sends them and however often: each
accepted request carries an op that verifies under the key of an actor whose ownership goes back to
the creator through ops that owners signed, and so does the ownership of every owner that the room
then has; and no signed bytes are accepted twice.
-/
theorem signed_ops_authorized {o : RoomOp} {actor : PyStr} {time cursor : Int} {room : Room}
    {rec : Receipt} {founding auth : Authority}
    (created : createRoom nfc lib o actor time founding = .ok (room, rec, cursor) auth)
    (requests : List SignedRequest)
    : let before := accepted (applySignedRequest nfc lib) room requests
      (∀ subject ∈ (roomAfterSigned nfc lib room requests).owners,
        Authorized lib o.subject before subject)
      ∧ (∀ earlier later r, before = earlier ++ r :: later
        → ∃ actor op, Carries lib r actor op ∧ Authorized lib o.subject earlier actor
          ∧ op.room = o.room ∧ op.epoch = earlier.length + 1)
      ∧ (before.map SignedRequest.signedObj).Nodup := by
  intro before
  obtain ⟨⟨-, -, -, rfl⟩, obj, sig, -, -, -, rfl⟩ := createRoom_eq_ok.mp created
  have founded : Accountable lib o.room o.subject []
      { id := o.room
        epoch := 1
        members := AList.singleton o.subject roleOwner
        owners := AList.singleton o.subject true
        auth
        receipts := [rec]
        sigs := [sig] } := by
    refine ⟨rfl, rfl, ?_, ?_, List.nodup_nil⟩
    · intro subject owned
      obtain rfl : subject = o.subject := by simpa [AList.mem_keys] using owned
      exact .creator _
    · intro earlier later r split
      simp at split
  have accountable := finalState_accepted (@applySigned_atomic nfc lib) founded
    (fun before room r value after accountable applied => accountable.step applied) requests
  exact ⟨accountable.owners, accountable.requests, accountable.nodup⟩

-----------------------------------------------------------------------------------------
-- Signing an op
-----------------------------------------------------------------------------------------

/-- The object of an op is built exactly for a known op with a normal subject, with the kind
and the effect of the op.
-/
theorem envelopeObject_eq_ok {o : RoomOp} {signer : Bytes} {created profile : Int}
    {causes : List Bytes} {obj : Envelope.Object}
    : o.envelopeObject nfc signer created profile causes = .ok obj
      ↔ requireNormal nfc o.subject = .ok ()
        ∧ ∃ kind effect, kindForOp o.op = some (kind, effect)
          ∧ obj =
            { id := none
              kind
              channel := channelGovernance
              tier
              signer
              created
              effect
              causes
              profile
              body := o.toMap
              ext := none
              cext := none
              audience := []
              suite := 0 } := by
  unfold RoomOp.envelopeObject
  cases op : kindForOp o.op with
  | none => simp
  | some declared =>
      obtain ⟨kind, effect⟩ := declared
      constructor
      · intro built
        obtain ⟨normal, same⟩ := unit_bind_eq_ok.mp built
        exact ⟨normal, kind, effect, rfl, (Except.ok.inj same).symm⟩
      · intro built
        obtain ⟨normal, _, _, same, rfl⟩ := built
        obtain ⟨rfl, rfl⟩ := Prod.mk.inj (Option.some.inj same)
        exact unit_bind_eq_ok.mpr ⟨normal, rfl⟩

/-- The kinds of the ops are kinds of this surface, and their effects are known. -/
theorem kindForOp_bounds {op kind effect : Int} (declared : kindForOp op = some (kind, effect))
    : 16 ≤ kind ∧ kind ≤ 20 ∧ 0 ≤ effect ∧ effect ≤ 3 := by
  unfold kindForOp at declared
  split_ifs at declared <;> cases declared <;> decide

/-- The map of an op is written in order. -/
theorem sortMaps_toMap (o : RoomOp) : Cbor.sortMaps o.toMap = o.toMap := by
  have ascending : ([(.u 1, .b o.room), (.u 2, .u o.op), (.u 3, .u o.epoch), (.u 4, .t o.subject),
      (.u 5, .u o.role)].map Cbor.encodedKey).Pairwise (· < ·) := by
    change [[1], [2], [3], [4], ([5] : Bytes)].Pairwise (· < ·)
    decide
  have members : Cbor.sortMapsPairs [(.u 1, .b o.room), (.u 2, .u o.op), (.u 3, .u o.epoch),
      (.u 4, .t o.subject), (.u 5, .u o.role)]
      = [(.u 1, .b o.room), (.u 2, .u o.op), (.u 3, .u o.epoch), (.u 4, .t o.subject),
        (.u 5, .u o.role)] := by
    simp [Cbor.sortMapsPairs, Cbor.sortMaps]
  rw [RoomOp.toMap, Cbor.sortMaps, members, Cbor.sortPairs_of_ascending ascending]

/-- The object of an op passes the checks of signing, at any profile and with few causes. -/
theorem envelopeObject_signable {o : RoomOp} {signer : Bytes} {created profile : Int}
    {causes : List Bytes} {obj : Envelope.Object}
    (built : o.envelopeObject nfc signer created profile causes = .ok obj)
    (level : 1 ≤ profile ∧ profile ≤ 3) (few : causes.length ≤ Envelope.maxCauses)
    : Envelope.Signable (some composedKindValidator) [] obj := by
  obtain ⟨-, kind, effect, declared, rfl⟩ := envelopeObject_eq_ok.mp built
  obtain ⟨low, high, -, harmless⟩ := kindForOp_bounds declared
  exact {
    channel := by simp [channelGovernance]
    effect := harmless
    profile := level
    notRotation := by simp [channelGovernance]
    surface := by
      simp [Envelope.kindAccepted, composedKindValidator, kindValidator, kindRoomCreate,
        kindRoomAddOwner, low, high]
    causes := few
    ext := nofun
    cext := nofun
    recognized := nofun
    nesting := by
      have causesDepth : Cbor.depthItems (causes.map .b) ≤ 1 := by
        refine Cbor.depthItems_le.mpr fun item inside => ?_
        obtain ⟨cause, -, rfl⟩ := List.mem_map.mp inside
        simp [Cbor.depth]
      simp [Envelope.Object.fieldPairs, RoomOp.toMap, Cbor.depth, Cbor.depthPairs,
        Envelope.maxNestingDepth]
      omega
  }

/-- An op that is built as an object and signed with the key of an actor is carried by every request
with these octets and this key.
-/
theorem carries_signed (signs : Envelope.SignsVerifiably lib) {o : RoomOp} {signer : Bytes}
    {created profile floor alg : Int} {causes : List Bytes} {obj : Envelope.Object} {set : MlDsa}
    {seed pubkey : Bytes} {actor : PyStr}
    (built : o.envelopeObject nfc signer created profile causes = .ok obj)
    (level : 1 ≤ profile ∧ profile ≤ 3) (few : causes.length ≤ Envelope.maxCauses)
    (isMldsa : mldsa alg = .ok set) (key : lib.mldsaPublic set seed = .ok pubkey)
    (strong : profileMinLevel floor ≤ (algLevel alg).1)
    (actorId : Identity.signerId alg pubkey = .ok actor) (encoded : actor.encode = .ok signer)
    (size : ∃ octets, obj.signedSize alg set.signatureSize = .ok octets
      ∧ octets ≤ Envelope.maxObjectSize)
    : ∃ data, Envelope.sign lib obj alg seed = .ok data
      ∧ ∀ time, Carries lib ⟨floor, alg, pubkey, data, time⟩ actor o := by
  have signable := envelopeObject_signable built level few
  obtain ⟨-, kind, effect, declared, rfl⟩ := envelopeObject_eq_ok.mp built
  obtain ⟨data, id, signed, -, verified⟩ :=
    Envelope.verify_sign signs signable alg isMldsa key strong
    rfl size
  have read : roomOpFromBody (Cbor.sortMaps o.toMap) = .ok o := by
    rw [sortMaps_toMap]
    rfl
  refine ⟨data, signed, fun time => openSigned_eq_ok.mp ?_⟩
  simp [openSigned, verified, Envelope.Object.sorted, actorId, encoded, read, declared]

end Signed

-----------------------------------------------------------------------------------------
-- A room of a key
-----------------------------------------------------------------------------------------

/-- The map of an op can be encoded when its numbers and its texts fit. -/
theorem toMap_encodable {o : RoomOp} {text : Bytes} (room : o.room.length < 2 ^ 64)
    (numbers : ∀ n ∈ [o.op, o.epoch, o.role], 0 ≤ n ∧ n < 2 ^ 64)
    (encoded : o.subject.encode = .ok text) (short : text.length < 2 ^ 64)
    : Cbor.Encodable o.toMap := by
  simp only [List.forall_mem_cons, ← Cbor.encodable_u] at numbers
  obtain ⟨op, epoch, role, -⟩ := numbers
  refine Cbor.encodable_m.mpr ⟨?_, ?_, ?_⟩
  · change 5 < 2 ^ 64
    decide
  · simp only [List.forall_mem_cons]
    exact ⟨⟨rfl, Cbor.encodable_b.mpr room⟩, ⟨rfl, op⟩, ⟨rfl, epoch⟩,
      ⟨rfl, Cbor.encodable_t.mpr ⟨text, encoded, short⟩⟩, ⟨rfl, role⟩, nofun⟩
  · change [[1], [2], [3], [4], ([5] : Bytes)].Nodup
    decide

theorem contentId_of_encodable {o : RoomOp} (encodable : Cbor.Encodable o.toMap)
    : ∃ obj, o.contentId = .ok obj ∧ obj.length = 50 :=
  ⟨_, congrArg (· >>= fun body => pure (Cbor.contentIdBytes body)) encodable,
    Cbor.length_contentIdBytes _⟩

/-- The sample authority appends at every early position of its log. -/
theorem digest_appends {a : Authority} {obj : Bytes} {time : Int} (alg : a.alg = algMldsa65)
    (head : a.head.length = 48) (position : 0 ≤ a.seq ∧ a.seq < 2 ^ 64) (named : obj.length = 50)
    (clock : 0 ≤ time ∧ time < 2 ^ 64)
    : ∃ rec sig, Authority.append digestLibrary obj time a
        = .ok (rec, sig) { a with head := Sha2.sha384 (Cbor.encoding (.m [(.u 1, .b a.head),
          (.u 2, .b obj), (.u 3, .u a.seq), (.u 4, .u time)])), seq := a.seq + 1 } := by
  have encodable : Cbor.Encodable (.m [(.u 1, .b a.head), (.u 2, .b obj), (.u 3, .u a.seq),
      (.u 4, .u time)]) := by
    refine Cbor.encodable_m.mpr ⟨?_, ?_, ?_⟩
    · change 4 < 2 ^ 64
      decide
    · simp only [List.forall_mem_cons]
      exact ⟨⟨rfl, Cbor.encodable_b.mpr (by rw [head]; decide)⟩,
        ⟨rfl, Cbor.encodable_b.mpr (by rw [named]; decide)⟩, ⟨rfl, Cbor.encodable_u.mpr position⟩,
        ⟨rfl, Cbor.encodable_u.mpr clock⟩, nofun⟩
    · change [[1], [2], [3], ([4] : Bytes)].Nodup
      decide
  have isMldsa : mldsa a.alg = .ok .mlDsa65 := by
    rw [alg]
    rfl
  obtain ⟨sig, signed, -⟩ := Envelope.digestLibrary_signsVerifiably.mldsa
    (rfl : digestLibrary.mldsaPublic .mlDsa65 a.seed = .ok _)
    (Cbor.encoding (.m [(.u 1, .b a.head), (.u 2, .b obj), (.u 3, .u a.seq), (.u 4, .u time)])) []
    (Nat.zero_le _)
  refine ⟨_, sig, append_eq_ok.mpr ⟨rfl, _, encodable, ?_, rfl⟩⟩
  simp [mldsaSign, isMldsa, signed]

/-- The id of an ML-DSA-65 key. -/
def ownerId (pubkey : Bytes) : PyStr := PyStr.lit (multihashId (uvarint 0x1211 ++ pubkey))

def ownerOctets (pubkey : Bytes) : Bytes :=
  (multihashId (uvarint 0x1211 ++ pubkey)).flatMap String.utf8EncodeChar

theorem encode_ownerId (pubkey : Bytes) : (ownerId pubkey).encode = .ok (ownerOctets pubkey) :=
  PyStr.encode_eq_ok.mpr ⟨_, rfl, rfl⟩

theorem checkSubject_id {subject : PyStr} (named : subject ≠ [])
    : checkSubject id subject = .ok () := by
  simp [checkSubject, Identity.requireNfc, named]

/-- The holder of a key creates a room. -/
def ownedCreate (pubkey : Bytes) : RoomOp := { sampleCreate with subject := ownerId pubkey }

/-- The key's own room is created, with the id of the key as its one owner. -/
theorem ownedCreate_created (pubkey : Bytes)
    : ∃ room rec cursor auth, createRoom id digestLibrary (ownedCreate pubkey) (ownerId pubkey) 5
        { alg := algMldsa65, seed := [7] } = .ok (room, rec, cursor) auth
      ∧ room.id = [1] ∧ room.epoch = 1 ∧ room.owners = AList.singleton (ownerId pubkey) true
      ∧ room.auth.alg = algMldsa65 ∧ room.auth.head.length = 48 ∧ room.auth.seq = 1 := by
  have short : (ownerOctets pubkey).length < 2 ^ 64 :=
    (length_utf8_multihashId_le _).trans_lt (by decide)
  obtain ⟨obj, named, size⟩ := @contentId_of_encodable (ownedCreate pubkey)
    (toMap_encodable (by simp [ownedCreate, sampleCreate])
      (by simp [ownedCreate, sampleCreate, opCreate, roleOwner]) (encode_ownerId pubkey) short)
  obtain ⟨rec, sig, appended⟩ := @digest_appends { alg := algMldsa65, seed := [7] } obj 5 rfl
    (List.length_replicate ..) (by decide) size (by decide)
  have subject : checkSubject id (ownedCreate pubkey).subject = .ok () :=
    checkSubject_id (List.cons_ne_nil _ _)
  exact ⟨_, rec, rec.seq, _,
    createRoom_eq_ok.mpr ⟨⟨rfl, rfl, subject, rfl⟩, obj, sig, named, appended,
    rfl, rfl⟩, rfl, rfl, rfl, rfl, Sha2.length_sha384 _, rfl⟩

/-- What makes `b` an owner, signed with the sample key, is taken by a room of this key.
Witness: the op is signed by the owner of the room and opened by it; the authority can append
the receipt.
-/
theorem samplePromotion_taken {pubkey : Bytes} {room : Room}
    (key : digestLibrary.mldsaPublic .mlDsa65 [9] = .ok pubkey) (sameRoom : room.id = [1])
    (epoch : room.epoch = 1) (owners : room.owners = AList.singleton (ownerId pubkey) true)
    (alg : room.auth.alg = algMldsa65) (head : room.auth.head.length = 48) (seq : room.auth.seq = 1)
    : ∃ obj data, samplePromotion.op.envelopeObject id (ownerOctets pubkey) 6 1 [] = .ok obj
      ∧ Envelope.sign digestLibrary obj algMldsa65 [9] = .ok data
      ∧ ∃ value after, applySignedRequest id digestLibrary ⟨1, algMldsa65, pubkey, data, 6⟩ room
          = .ok value after
        ∧ PyStr.lit ['b'] ∈ after.owners := by
  obtain ⟨obj, built⟩ : ∃ obj, samplePromotion.op.envelopeObject id (ownerOctets pubkey) 6 1 []
      = .ok obj := ⟨_, rfl⟩
  have short : (ownerOctets pubkey).length ≤ 2000 := length_utf8_multihashId_le _
  have size : ∃ octets, obj.signedSize algMldsa65 3309 = .ok octets
      ∧ octets ≤ Envelope.maxObjectSize := by
    obtain ⟨-, kind, effect, declared, rfl⟩ := envelopeObject_eq_ok.mp built
    obtain ⟨low, high, harmless, most⟩ := kindForOp_bounds declared
    refine Envelope.Object.Plain.size ⟨rfl, rfl, rfl, rfl, rfl, ?_, rfl⟩
      (Cbor.encodable_n.mpr (by decide)) short ?_ (by decide)
    · simp only [List.forall_mem_cons]
      refine ⟨⟨?_, ?_⟩, by decide, by decide, by decide, ⟨?_, ?_⟩, by decide, nofun⟩ <;> omega
    · change (Cbor.encoding samplePromotion.op.toMap).length ≤ 2000
      decide
  obtain ⟨data, signed, carries⟩ := carries_signed Envelope.digestLibrary_signsVerifiably built
    (by decide) (Nat.zero_le _) rfl key
      (by decide : profileMinLevel 1 ≤ (algLevel algMldsa65).1) rfl
    (encode_ownerId pubkey) size
  obtain ⟨op, named, opSize⟩ := @contentId_of_encodable samplePromotion.op rfl
  obtain ⟨rec, sig, appended⟩ := @digest_appends _ op 6 alg head (by rw [seq]; decide) opSize
    (by decide)
  have other : PyStr.lit ['b'] ≠ ownerId pubkey := by
    intro same
    obtain ⟨rest, starts⟩ := multihashId_eq (uvarint 0x1211 ++ pubkey)
    have chars := PyStr.lit_injective same
    rw [starts] at chars
    cases chars
  have checked : room.checkOp id samplePromotion.op (ownerId pubkey) = .ok () := by
    refine checkOp_eq_ok.mpr ⟨⟨sameRoom.symm, by decide⟩, epoch.symm,
      checkSubject_id (List.cons_ne_nil _ _), ?_, ?_⟩
    · simp [Room.isOwner, owners, AList.lookup]
    · have absent : PyStr.lit ['b'] ∉ room.owners := by
        rw [owners]
        simpa [AList.mem_keys] using other
      refine checkSemantics_eq_ok.mpr (.inr (.inl ⟨rfl, rfl, ?_⟩))
      rw [Room.isOwner, samplePromotion, AList.lookup_eq_none.mpr absent, Option.getD_none]
  refine ⟨obj, data, built, signed, _, _, method_bind_eq_ok.mpr ⟨_, room,
    check_eq_ok.mpr ⟨openSigned_eq_ok.mpr (carries 6), rfl⟩,
    apply_eq_ok.mpr ⟨checked, op, sig, _, named, appended, rfl, rfl⟩⟩, ?_⟩
  exact (AList.mem_insert _).mpr (.inl rfl)

/-- The holder of the sample key creates a room, and the object with which it makes `b` an owner is
sent twice: it is taken once, and `b` is an owner then, by an op that the creator has signed.
-/
theorem signed_ops_authorized_sample
    : ∃ room rec cursor auth obj data,
      createRoom id digestLibrary (ownedCreate (fitTo mldsa65PubSize [9]))
        (ownerId (fitTo mldsa65PubSize [9])) 5 { alg := algMldsa65, seed := [7] }
        = .ok (room, rec, cursor) auth
      ∧ samplePromotion.op.envelopeObject id (ownerOctets (fitTo mldsa65PubSize [9])) 6 1 []
        = .ok obj
      ∧ Envelope.sign digestLibrary obj algMldsa65 [9] = .ok data
      ∧ accepted (applySignedRequest id digestLibrary) room
        [⟨1, algMldsa65, fitTo mldsa65PubSize [9], data, 6⟩,
          ⟨1, algMldsa65, fitTo mldsa65PubSize [9], data, 7⟩]
        = [⟨1, algMldsa65, fitTo mldsa65PubSize [9], data, 6⟩]
      ∧ Authorized digestLibrary (ownerId (fitTo mldsa65PubSize [9]))
        [⟨1, algMldsa65, fitTo mldsa65PubSize [9], data, 6⟩] (PyStr.lit ['b']) := by
  obtain ⟨room, rec, cursor, auth, created, sameRoom, epoch, owners, alg, head, seq⟩ :=
    ownedCreate_created (fitTo mldsa65PubSize [9])
  obtain ⟨obj, data, built, signed, value, after, taken, owned⟩ :=
    samplePromotion_taken rfl sameRoom epoch owners alg head seq
  obtain ⟨authorized, -, unrepeated⟩ := signed_ops_authorized created
    [⟨1, algMldsa65, fitTo mldsa65PubSize [9], data, 6⟩,
      ⟨1, algMldsa65, fitTo mldsa65PubSize [9], data, 7⟩]
  obtain ⟨refusal, raised⟩ : ∃ refusal, (respond (applySignedRequest id digestLibrary) after
      ⟨1, algMldsa65, fitTo mldsa65PubSize [9], data, 7⟩).1 = .error refusal := by
    cases again : applySignedRequest id digestLibrary
        ⟨1, algMldsa65, fitTo mldsa65PubSize [9], data, 7⟩ after with
    | ok value' last =>
        rw [accepted_cons_of_ok taken, accepted_cons_of_ok again] at unrepeated
        simp at unrepeated
    | error refusal last => exact ⟨refusal, by rw [respond_eq_error.mpr again]⟩
  have once : accepted (applySignedRequest id digestLibrary) room
      [⟨1, algMldsa65, fitTo mldsa65PubSize [9], data, 6⟩,
        ⟨1, algMldsa65, fitTo mldsa65PubSize [9], data, 7⟩]
      = [⟨1, algMldsa65, fitTo mldsa65PubSize [9], data, 6⟩] := by
    rw [accepted_cons_of_ok taken, accepted_cons_of_error applySigned_atomic raised]
    rfl
  refine ⟨room, rec, cursor, auth, obj, data, created, built, signed, once, ?_⟩
  rw [once] at authorized
  refine authorized _ ?_
  rw [roomAfterSigned, finalState, List.foldl_cons, List.foldl_cons, List.foldl_nil,
    respond_eq_ok.mpr taken, (applySigned_atomic _).respond raised]
  exact owned

end Naalp.Rooms
