import Naalp.Python.Rooms
import Naalp.Receipts.Chains

/-! The membership of a room. Every run of ops keeps the owners in step with the roles and the epoch
in step with a log that verifies, and the roles are those that the accepted ops lead to.
-/

namespace Naalp.Rooms

open Naalp.Foundation
open Naalp.Python
open Naalp.Python.Audit
open Naalp.Python.Cose
open Naalp.Python.Rooms
open Naalp.Receipts

-----------------------------------------------------------------------------------------
-- Roles
-----------------------------------------------------------------------------------------

/-- Who is in a room, and in which role. -/
abbrev Roles := PyStr → Option Int

/-- What an op is meant to do to the roles. -/
def amend (roles : Roles) (o : RoomOp) : Roles :=
  Function.update roles o.subject
    (if o.op = opRemoveMember then none
    else if o.op = opCreate ∨ o.op = opAddOwner then some roleOwner
    else some o.role)

def roles (room : Room) : Roles := fun subject => room.members.lookup subject

section Dictionaries

variable {β : Type} {d : AList fun _ : PyStr => β}

theorem lookup_insert_eq_update {key : PyStr} {value : β}
    : (fun k => (d.insert key value).lookup k)
      = Function.update (fun k => d.lookup k) key (some value) := by
  funext k
  by_cases same : k = key
  · subst same
    simp
  · rw [Function.update_of_ne same, AList.lookup_insert_ne same]

theorem lookup_erase_eq_update {key : PyStr}
    : (fun k => (d.erase key).lookup k) = Function.update (fun k => d.lookup k) key none := by
  funext k
  by_cases same : k = key
  · subst same
    simp
  · rw [Function.update_of_ne same, AList.lookup_erase_ne same]

theorem lookup_singleton_eq_update {key : PyStr} {value : β}
    : (fun k => (AList.singleton key value : AList fun _ : PyStr => β).lookup k)
      = Function.update (fun _ => none) key (some value) :=
  @lookup_insert_eq_update β ∅ key value

end Dictionaries

/-- The owners are the members in the role of an owner. -/
def OwnersMatch (room : Room) : Prop :=
  ∀ subject, room.owners.lookup subject
    = if roles room subject = some roleOwner then some true else none

theorem isOwner_iff {room : Room} (matches' : OwnersMatch room) {subject : PyStr}
    : room.isOwner subject = true ↔ roles room subject = some roleOwner := by
  rw [Room.isOwner, matches']
  split <;> simp_all

theorem mem_owners_iff {room : Room} (matches' : OwnersMatch room) {subject : PyStr}
    : subject ∈ room.owners ↔ roles room subject = some roleOwner := by
  rw [← AList.lookup_isSome, matches']
  split <;> simp_all

theorem roles_founded {room : Room} {creator : PyStr}
    (members : room.members = AList.singleton creator roleOwner)
    : roles room = Function.update (fun _ => none) creator (some roleOwner) := by
  unfold roles
  rw [members]
  exact lookup_singleton_eq_update

theorem ownersMatch_founded {room : Room} {creator : PyStr}
    (members : room.members = AList.singleton creator roleOwner)
    (owners : room.owners = AList.singleton creator true) : OwnersMatch room := by
  intro s
  rw [owners, roles_founded members, congrFun (@lookup_singleton_eq_update _ creator true) s]
  by_cases same : s = creator
  · subst same
    simp
  · simp [same]

-----------------------------------------------------------------------------------------
-- One op
-----------------------------------------------------------------------------------------

section Change

variable {room : Room} {o : RoomOp}

@[simp]
theorem change_epoch : (room.change o).epoch = room.epoch := by
  unfold Room.change
  split_ifs <;> rfl

@[simp]
theorem change_auth : (room.change o).auth = room.auth := by
  unfold Room.change
  split_ifs <;> rfl

@[simp]
theorem change_receipts : (room.change o).receipts = room.receipts := by
  unfold Room.change
  split_ifs <;> rfl

@[simp]
theorem change_sigs : (room.change o).sigs = room.sigs := by
  unfold Room.change
  split_ifs <;> rfl

/-- An accepted op names one of the four changes and meets what its change requires. -/
theorem checkSemantics_eq_ok
    : room.checkSemantics o = .ok ()
      ↔ (o.op = opAddMember ∧ (o.role = roleMember ∨ o.role = roleAdmin)
          ∧ o.subject ∉ room.members)
        ∨ (o.op = opAddOwner ∧ o.role = roleOwner ∧ room.isOwner o.subject = false)
        ∨ (o.op = opRemoveMember ∧ o.subject ∈ room.members ∧ room.isOwner o.subject = false)
        ∨ (o.op = opChangeRole ∧ o.subject ∈ room.members
          ∧ (o.role = roleMember ∨ o.role = roleAdmin)
          ∧ room.members.lookup o.subject ≠ some roleOwner) := by
  unfold Room.checkSemantics
  split_ifs <;> simp_all [raiseIf_bind_eq_ok, raiseIf_eq_ok, opAddMember, opAddOwner,
    opRemoveMember, opChangeRole] <;> tauto

/-- The change to the members is the one that the op is meant to make. -/
theorem roles_change (sound : room.checkSemantics o = .ok ())
    : roles (room.change o) = amend (roles room) o := by
  rcases checkSemantics_eq_ok.mp sound with ⟨named, -⟩ | ⟨named, -⟩ | ⟨named, -⟩ | ⟨named, -⟩
  all_goals
    unfold roles Room.change amend
    simp only [named, opAddMember, opAddOwner, opRemoveMember, opChangeRole, opCreate]
    first | exact lookup_insert_eq_update | exact lookup_erase_eq_update

/-- A change that takes no owner and makes none leaves the owners in step. -/
theorem ownersMatch_of_update {after : Room} {subject : PyStr} {role : Option Int}
    (matches' : OwnersMatch room) (same : after.owners = room.owners)
    (updated : roles after = Function.update (roles room) subject role)
    (noOwner : roles room subject ≠ some roleOwner) (none' : role ≠ some roleOwner)
    : OwnersMatch after := by
  intro s
  rw [same, matches', updated]
  by_cases here : s = subject
  · subst here
    rw [Function.update_self, if_neg noOwner, if_neg none']
  · rw [Function.update_of_ne here]

/-- An op that passes its checks keeps the owners to the members with that role, by cases on
the op.
-/
theorem ownersMatch_change (matches' : OwnersMatch room) (sound : room.checkSemantics o = .ok ())
    : OwnersMatch (room.change o) := by
  have updated := roles_change sound
  have unowned : room.isOwner o.subject = false → roles room o.subject ≠ some roleOwner := by
    intro refused owned
    rw [(isOwner_iff matches').mpr owned] at refused
    cases refused
  have lower : o.role = roleMember ∨ o.role = roleAdmin → some o.role ≠ some roleOwner := by
    rintro (same | same) <;> rw [same] <;> decide
  rcases checkSemantics_eq_ok.mp sound with ⟨named, role, absent⟩ | ⟨named, role, -⟩
    | ⟨named, -, refused⟩ | ⟨named, -, role, held⟩
  · have noRole : roles room o.subject = none := AList.lookup_eq_none.mpr absent
    refine ownersMatch_of_update matches' ?_ updated ?_ ?_
    · simp [Room.change, named]
    · simp [noRole]
    · simpa [named, opAddMember, opRemoveMember, opCreate, opAddOwner] using lower role
  · intro s
    rw [updated]
    simp only [Room.change, amend, named, opAddMember, opAddOwner, opRemoveMember, opCreate]
    by_cases here : s = o.subject
    · subst here
      simp
    · rw [Function.update_of_ne here]
      simpa [AList.lookup_insert_ne here] using matches' s
  · refine ownersMatch_of_update matches' ?_ updated (unowned refused) ?_
    · simp [Room.change, named, opAddMember, opAddOwner, opRemoveMember]
    · simp [named]
  · refine ownersMatch_of_update matches' ?_ updated held ?_
    · simp [Room.change, named, opAddMember, opAddOwner, opRemoveMember, opChangeRole]
    · simpa [named, opChangeRole, opRemoveMember, opCreate, opAddOwner] using lower role

/-- An owner stays one. -/
theorem owners_change : ∀ subject ∈ room.owners, subject ∈ (room.change o).owners := by
  intro subject owned
  unfold Room.change
  split_ifs
  all_goals first | exact owned | exact (AList.mem_insert _).mpr (.inr owned)

end Change

-----------------------------------------------------------------------------------------
-- One call
-----------------------------------------------------------------------------------------

section Calls

variable {nfc : PyStr → PyStr} {lib : SignatureLibrary}

theorem checkOp_eq_ok {room : Room} {o : RoomOp} {actor : PyStr}
    : room.checkOp nfc o actor = .ok ()
      ↔ (o.room = room.id ∧ o.op ≠ opCreate) ∧ o.epoch = room.epoch
        ∧ checkSubject nfc o.subject = .ok () ∧ room.isOwner actor = true
        ∧ room.checkSemantics o = .ok () := by
  rw [Room.checkOp, raiseIf_bind_eq_ok, raiseIf_bind_eq_ok, unit_bind_eq_ok, raiseIf_bind_eq_ok]
  simp only [not_or, not_not, ne_eq, Bool.not_eq_false]

/-- What an accepted op does: the checks passed, a receipt was appended, and the room changed.
-/
theorem apply_eq_ok {room after : Room} {o : RoomOp} {actor : PyStr} {time cursor : Int}
    {rec : Receipt}
    : Room.apply nfc lib o actor time room = .ok (rec, cursor) after
      ↔ room.checkOp nfc o actor = .ok ()
        ∧ ∃ obj sig auth, o.contentId = .ok obj
          ∧ Authority.append lib obj time room.auth = .ok (rec, sig) auth ∧ cursor = rec.seq
          ∧ after =
            { Room.change { room with auth } o with
              receipts := room.receipts ++ [rec]
              sigs := room.sigs ++ [sig]
              epoch := room.epoch + 1 } := by
  simp only [Room.apply, method_bind_eq_ok, get_eq_ok, check_eq_ok, within_eq_ok, modify_eq_ok,
    method_pure_eq_ok, Prod.mk.injEq]
  constructor
  · intro applied
    obtain ⟨_, _, ⟨rfl, rfl⟩, _, _, ⟨checked, rfl⟩, obj, _, ⟨named, rfl⟩, ⟨rec', sig⟩, _,
      ⟨auth, appended, rfl⟩, _, _, rfl, _, _, rfl, _, _, rfl, _, _, rfl, ⟨rfl, rfl⟩, rfl⟩ := applied
    exact ⟨checked, obj, sig, auth, named, appended, rfl, by simp⟩
  · intro applied
    obtain ⟨checked, obj, sig, auth, named, appended, rfl, rfl⟩ := applied
    refine ⟨room, room, ⟨rfl, rfl⟩, (), room, ⟨checked, rfl⟩, obj, room, ⟨named, rfl⟩,
      (rec, sig), _,
      ⟨auth, appended, rfl⟩, (), _, rfl, (), _, rfl, (), _, rfl, (), _, rfl, ⟨rfl, rfl⟩, ?_⟩
    simp

/-- A refused op changes nothing, since the room changes after the log has taken the op only. -/
theorem apply_atomic (o : RoomOp) (actor : PyStr) (time : Int)
    : Atomic (Room.apply nfc lib o actor time) := by
  refine reads_get.bind fun room => ?_
  refine (reads_check _).bind fun _ => ?_
  refine (reads_check _).bind fun obj => ?_
  refine ((append_atomic obj time).within fun _ => rfl).bind fun link => ?_
  refine (total_modify _).bind fun _ => ?_
  refine (total_modify _).bind fun _ => ?_
  refine (total_modify _).bind fun _ => ?_
  exact (total_modify _).bind fun _ => total_pure _

/-- What founding a room does: the op creates it for its actor, and a receipt was appended. -/
theorem createRoom_eq_ok {a auth : Authority} {o : RoomOp} {actor : PyStr} {time cursor : Int}
    {room : Room} {rec : Receipt}
    : createRoom nfc lib o actor time a = .ok (room, rec, cursor) auth
      ↔ (o.op = opCreate ∧ o.epoch = 0 ∧ checkSubject nfc o.subject = .ok () ∧ actor = o.subject)
        ∧ ∃ obj sig, o.contentId = .ok obj
          ∧ Authority.append lib obj time a = .ok (rec, sig) auth ∧ cursor = rec.seq
          ∧ room =
            { id := o.room
              epoch := 1
              members := AList.singleton o.subject roleOwner
              owners := AList.singleton o.subject true
              auth
              receipts := [rec]
              sigs := [sig] } := by
  simp only [createRoom, method_bind_eq_ok, get_eq_ok, check_eq_ok, method_pure_eq_ok,
    Prod.mk.injEq, unit_bind_eq_ok, raiseIf_eq_ok, not_not, ne_eq]
  constructor
  · intro created
    obtain ⟨_, _, ⟨checked, rfl⟩, obj, _, ⟨named, rfl⟩, ⟨rec', sig⟩, _, appended, _, _, ⟨rfl, rfl⟩,
      ⟨rfl, rfl, rfl⟩, rfl⟩ := created
    exact ⟨checked, obj, sig, named, appended, rfl, rfl⟩
  · intro created
    obtain ⟨checked, obj, sig, named, appended, rfl, rfl⟩ := created
    exact ⟨(), a, ⟨checked, rfl⟩, obj, a, ⟨named, rfl⟩, (rec, sig), auth, appended, auth, auth,
      ⟨rfl, rfl⟩, ⟨rfl, rfl, rfl⟩, rfl⟩

-----------------------------------------------------------------------------------------
-- Runs
-----------------------------------------------------------------------------------------

/-- A call of `Room.apply`. -/
structure Request where
  op : RoomOp
  actor : PyStr
  time : Int

def applyRequest (nfc : PyStr → PyStr) (lib : SignatureLibrary) (request : Request)
    : EStateM Exc Room (Receipt × Int) :=
  Room.apply nfc lib request.op request.actor request.time

/-- What relates a room to the ops that led to it, the creating one first. -/
structure RoomKept (lib : SignatureLibrary) (alg : Int) (seed pubkey : Bytes) (ops : List RoomOp)
    (room : Room) : Prop where
  owners : OwnersMatch room
  folded : roles room = ops.foldl amend fun _ => none
  epoch : room.epoch = ops.length
  epochs : ops.map RoomOp.epoch = (List.range ops.length).map Int.ofNat
  named : room.receipts.map (fun rec => .ok rec.obj) = ops.map RoomOp.contentId
  log : KeptLog lib alg seed pubkey room.auth room.receipts room.sigs

/-- A created room is kept. -/
theorem createRoom_kept {alg : Int} {seed pubkey : Bytes} {o : RoomOp} {actor : PyStr}
    {time cursor : Int} {room : Room} {rec : Receipt} {auth : Authority}
    (verifies : VerifiesSeed lib alg seed pubkey)
    (created : createRoom nfc lib o actor time { alg, seed } = .ok (room, rec, cursor) auth)
    : RoomKept lib alg seed pubkey [o] room := by
  obtain ⟨⟨creates, fresh, -, -⟩, obj, sig, named, appended, -, rfl⟩ := createRoom_eq_ok.mp created
  obtain ⟨rfl, -⟩ := append_eq_ok.mp appended
  refine ⟨ownersMatch_founded rfl rfl, ?_, rfl, ?_, ?_, keptLog_nil.append verifies appended⟩
  · rw [roles_founded rfl]
    simp [amend, creates, opCreate, opRemoveMember]
  · simp [fresh]
  · simp [named]

/-- An accepted op keeps the room, and the op counts as one more. -/
theorem apply_kept {alg : Int} {seed pubkey : Bytes} {ops : List RoomOp} {room after : Room}
    {request : Request} {value : Receipt × Int} (verifies : VerifiesSeed lib alg seed pubkey)
    (kept : RoomKept lib alg seed pubkey ops room)
    (applied : applyRequest nfc lib request room = .ok value after)
    : RoomKept lib alg seed pubkey (ops ++ [request.op]) after := by
  obtain ⟨rec, cursor⟩ := value
  obtain ⟨checked, obj, sig, auth, named, appended, -, rfl⟩ := apply_eq_ok.mp applied
  obtain ⟨-, epoch, -, -, sound⟩ := checkOp_eq_ok.mp checked
  have object : rec.obj = obj := by rw [(append_eq_ok.mp appended).1]
  refine ⟨?_, ?_, ?_, ?_, ?_, ?_⟩
  · exact @ownersMatch_change { room with auth } _ kept.owners sound
  · rw [List.foldl_concat, ← kept.folded]
    exact @roles_change { room with auth } _ sound
  · simp [kept.epoch]
  · simp [kept.epochs, List.range_succ, epoch, kept.epoch]
  · simp [kept.named, named, object]
  · simpa using kept.log.append verifies appended

/-- The ops that a run of requests accepts, in order. -/
def acceptedOps (nfc : PyStr → PyStr) (lib : SignatureLibrary) (room : Room)
    (requests : List Request) : List RoomOp :=
  (accepted (applyRequest nfc lib) room requests).map Request.op

/-- The room that a run of requests leads to. -/
def roomAfter (nfc : PyStr → PyStr) (lib : SignatureLibrary) (room : Room)
    (requests : List Request) : Room :=
  finalState (respond (applyRequest nfc lib)) room requests

/-- What is kept of a room is kept by every list of requests. -/
theorem roomAfter_kept {alg : Int} {seed pubkey : Bytes} {ops : List RoomOp} {room : Room}
    (verifies : VerifiesSeed lib alg seed pubkey) (kept : RoomKept lib alg seed pubkey ops room)
    (requests : List Request)
    : RoomKept lib alg seed pubkey (ops ++ acceptedOps nfc lib room requests)
        (roomAfter nfc lib room requests) := by
  have run := @finalState_accepted _ _ _ _ (applyRequest nfc lib)
    (fun before room => RoomKept lib alg seed pubkey (ops ++ before.map Request.op) room) [] room
    (fun request => apply_atomic _ _ _) (by simpa using kept)
    (fun before room request value after kept applied => by
      simpa using apply_kept verifies kept applied)
    requests
  exact run

/-- Owners stay owners, by induction over the requests. -/
theorem owners_roomAfter {room : Room} (requests : List Request)
    : ∀ subject ∈ room.owners, subject ∈ (roomAfter nfc lib room requests).owners := by
  intro subject owned
  refine @finalState_keeps _ _ _ _ (fun room : Room => subject ∈ room.owners) ?_ _ owned requests
  intro room request owned
  cases called : applyRequest nfc lib request room with
  | error error after =>
      obtain rfl := apply_atomic _ _ _ _ _ _ called
      rwa [respond_eq_error.mpr called]
  | ok value after =>
      obtain ⟨rec, cursor⟩ := value
      rw [respond_eq_ok.mpr called]
      obtain ⟨-, obj, sig, auth, -, -, -, rfl⟩ := apply_eq_ok.mp called
      exact @owners_change { room with auth } _ subject owned

/-- In every run from a created room: the owners are the members in that role, include the creator
and never shrink; the epoch counts the receipts, which verify and name the accepted ops in order;
the roles are those the accepted ops lead to; a refused op changes nothing; and no two accepted ops
name one epoch.
Witness: the step lemma keeps the invariant, which the creation establishes; the run lemma
carries it through the requests.
-/
theorem room_membership_kept {alg : Int} {seed pubkey : Bytes} {o : RoomOp} {actor : PyStr}
    {time cursor : Int} {room : Room} {rec : Receipt} {auth : Authority}
    (signs : Envelope.SignsVerifiably lib)
    (key : ∀ set, mldsa alg = .ok set → lib.mldsaPublic set seed = .ok pubkey)
    (created : createRoom nfc lib o actor time { alg, seed } = .ok (room, rec, cursor) auth)
    (requests : List Request)
    : let last := roomAfter nfc lib room requests
      let ops := acceptedOps nfc lib room requests
      (∀ s, s ∈ last.owners ↔ last.members.lookup s = some roleOwner)
      ∧ o.subject ∈ last.owners
      ∧ (∀ more, ∀ s ∈ last.owners, s ∈ (roomAfter nfc lib room (requests ++ more)).owners)
      ∧ last.epoch = last.receipts.length
      ∧ verifyChain lib last.receipts last.sigs alg pubkey = .ok ()
      ∧ last.receipts.map (fun rec => .ok rec.obj) = (o :: ops).map RoomOp.contentId
      ∧ (∀ s, last.members.lookup s
        = ops.foldl amend (Function.update (fun _ => none) o.subject (some roleOwner)) s)
      ∧ (∀ request error, (respond (applyRequest nfc lib) last request).1 = .error error
        → (respond (applyRequest nfc lib) last request).2 = last)
      ∧ ((o :: ops).map RoomOp.epoch).Nodup := by
  intro last ops
  have verifies := verifiesSeed_of_key signs key
  have start := createRoom_kept verifies created
  have kept : RoomKept lib alg seed pubkey (o :: ops) last := roomAfter_kept verifies start requests
  obtain ⟨⟨creates, -⟩, obj, sig, -, -, -, rfl⟩ := createRoom_eq_ok.mp created
  refine ⟨fun s => mem_owners_iff kept.owners, ?_, ?_, ?_, ?_, kept.named, ?_, ?_, ?_⟩
  · exact owners_roomAfter requests _ (by simp [AList.mem_keys])
  · intro more s owned
    have split : roomAfter nfc lib _ (requests ++ more) = roomAfter nfc lib last more :=
      List.foldl_append
    rw [split]
    exact owners_roomAfter more s owned
  · rw [kept.epoch, ← List.length_map RoomOp.contentId, ← kept.named, List.length_map]
  · exact kept.log.verifies
  · intro s
    have folded := congrFun kept.folded s
    rw [List.foldl_cons] at folded
    simp only [amend, creates, opCreate, opRemoveMember] at folded
    exact folded
  · intro request error refused
    exact (apply_atomic _ _ _).respond refused
  · rw [kept.epochs]
    exact List.nodup_range.map fun _ _ => Int.ofNat.inj

end Calls

def sampleCreate : RoomOp where
  room := [1]
  op := opCreate
  epoch := 0
  subject := PyStr.lit ['a']
  role := roleOwner

def samplePromotion : Request where
  op := { room := [1], op := opAddOwner, epoch := 1, subject := PyStr.lit ['b'], role := roleOwner }
  actor := PyStr.lit ['a']
  time := 6

/-- A stand-in authority orders the sample creation. -/
theorem sampleCreate_created
    : ∃ value auth, createRoom id digestLibrary sampleCreate (PyStr.lit ['a']) 5
        { alg := algMldsa65, seed := [7] } = .ok value auth := by
  have returns : (match createRoom id digestLibrary sampleCreate (PyStr.lit ['a']) 5
      { alg := algMldsa65, seed := [7] } with
      | .ok _ _ => true
      | .error _ _ => false) = true := by decide +kernel
  split at returns
  · exact ⟨_, _, by assumption⟩
  · cases returns

/-- Witness: a room with a promotion. -/
theorem room_membership_kept_sample
    : ∃ room rec cursor auth, createRoom id digestLibrary sampleCreate (PyStr.lit ['a']) 5
        { alg := algMldsa65, seed := [7] } = .ok (room, rec, cursor) auth
      ∧ sampleCreate.subject ∈ (roomAfter id digestLibrary room [samplePromotion]).owners := by
  obtain ⟨⟨room, rec, cursor⟩, auth, created⟩ := sampleCreate_created
  have key : ∀ set, mldsa algMldsa65 = .ok set
      → digestLibrary.mldsaPublic set [7] = .ok (fitTo mldsa65PubSize [7]) := by
    intro set isMldsa
    obtain rfl := Except.ok.inj isMldsa
    rfl
  have kept := room_membership_kept Envelope.digestLibrary_signsVerifiably key created
    [samplePromotion]
  exact ⟨room, rec, cursor, auth, created, kept.2.1⟩

end Naalp.Rooms
