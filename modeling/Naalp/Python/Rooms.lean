import Naalp.Python.Audit
import Naalp.Python.Channels
import Naalp.Python.Envelope
import Naalp.Python.Cose

/-! The membership ops and the room state machine of `impl/python/naalp/rooms.py`, with its entry
for signed ops, and the principal registry: semantic principal ids and the durable handles that they
are bound to.
-/

namespace Naalp.Python.Rooms

open Naalp.Foundation
open Naalp.Python.Cbor
open Naalp.Python.Cose
open Naalp.Python.Audit

def opCreate : Int := 0
def opAddMember : Int := 1
def opRemoveMember : Int := 2
def opChangeRole : Int := 3
def opAddOwner : Int := 4

def roleMember : Int := 0
def roleAdmin : Int := 1
def roleOwner : Int := 2

/-- One membership operation, built against the epoch it names. -/
structure RoomOp where
  room : Bytes
  op : Int
  epoch : Int
  subject : PyStr
  role : Int
  deriving DecidableEq

def RoomOp.toMap (o : RoomOp) : Value :=
  .m [(.u 1, .b o.room), (.u 2, .u o.op), (.u 3, .u o.epoch), (.u 4, .t o.subject),
    (.u 5, .u o.role)]

def RoomOp.bytes (o : RoomOp) : Py Bytes := encode o.toMap

def RoomOp.contentId (o : RoomOp) : Py Bytes := return contentIdBytes (← o.bytes)

def opMismatch (msg : String) : Exc := .roomsError .roomOpMismatch msg

/-- The fields seen so far by `room_op_from_body`. -/
structure OpFields where
  room : Option Bytes := none
  op : Option Int := none
  epoch : Option Int := none
  subject : Option PyStr := none
  role : Option Int := none

def readOpField (fields : OpFields) : Value × Value → Py OpFields
  | (.u 1, .b room) => return { fields with room := some room }
  | (.u 1, _) => throw (opMismatch "room is not a bstr")
  | (.u 2, .u op) => return { fields with op := some op }
  | (.u 2, _) => throw (opMismatch "op is not a uint")
  | (.u 3, .u epoch) => return { fields with epoch := some epoch }
  | (.u 3, _) => throw (opMismatch "epoch is not a uint")
  | (.u 4, .t subject) => return { fields with subject := some subject }
  | (.u 4, _) => throw (opMismatch "subject is not a tstr")
  | (.u 5, .u role) => return { fields with role := some role }
  | (.u 5, _) => throw (opMismatch "role is not a uint")
  | _ => throw (opMismatch "op body has an out-of-range field")

def roomOpFromBody : Value → Py RoomOp
  | .m pairs => do
      match ← pairs.foldlM readOpField {} with
      | ⟨some room, some op, some epoch, some subject, some role⟩ =>
          return { room, op, epoch, subject, role }
      | _ => throw (opMismatch "op body is missing a mandatory field")
  | _ => throw (opMismatch "op body is not a map")

-----------------------------------------------------------------------------------------
-- Kinds
-----------------------------------------------------------------------------------------

def channelGovernance : Int := 0x0004
def channelIdentity : Int := 0x0003
def tier : Int := 1

def kindRoomCreate : Int := 16
def kindRoomAddMember : Int := 17
def kindRoomRemoveMember : Int := 18
def kindRoomChangeRole : Int := 19
def kindRoomAddOwner : Int := 20
def kindPrincipalBind : Int := 16

/-- `kind_for_op`: the kind and the effect of an op, `none` where it is not ok. -/
def kindForOp (op : Int) : Option (Int × Int) :=
  if op = opCreate then some (kindRoomCreate, Policy.nonIdempotentWrite)
  else if op = opAddMember then some (kindRoomAddMember, Policy.nonIdempotentWrite)
  else if op = opRemoveMember then some (kindRoomRemoveMember, Policy.destructive)
  else if op = opChangeRole then some (kindRoomChangeRole, Policy.nonIdempotentWrite)
  else if op = opAddOwner then some (kindRoomAddOwner, Policy.nonIdempotentWrite)
  else none

def kindValidator (channel kind : Int) : Bool :=
  if channel = channelGovernance then kindRoomCreate ≤ kind ∧ kind ≤ kindRoomAddOwner
  else if channel = channelIdentity then kind = kindPrincipalBind
  else false

def baselineKindValidator (channel kind : Int) : Bool := (Channels.lookup channel kind).isOk

/-- The kinds of the channel registry, and those of this module. -/
def composedKindValidator (channel kind : Int) : Bool :=
  baselineKindValidator channel kind || kindValidator channel kind

-----------------------------------------------------------------------------------------
-- Rooms
-----------------------------------------------------------------------------------------

structure Room where
  id : Bytes
  epoch : Int := 0
  members : AList (fun _ : PyStr => Int) := ∅
  owners : AList (fun _ : PyStr => Bool) := ∅
  auth : Authority
  receipts : List Receipt := []
  sigs : List Bytes := []

/-- `is_owner`: the truth of what the dictionary of owners holds. -/
def Room.isOwner (room : Room) (subject : PyStr) : Bool :=
  (room.owners.lookup subject).getD false

/-- The checks of `Room.apply` on the semantics of an op. -/
def Room.checkSemantics (room : Room) (o : RoomOp) : Py Unit :=
  if o.op = opAddMember then do
    raiseIf (o.role ≠ roleMember ∧ o.role ≠ roleAdmin)
      (.roomsError .roleInvalid "owners are added via add_owner only")
    raiseIf (o.subject ∈ room.members) (.roomsError .memberExists "subject is already a member")
  else if o.op = opAddOwner then do
    raiseIf (o.role ≠ roleOwner) (.roomsError .roleInvalid "add_owner must carry the owner role")
    raiseIf (room.isOwner o.subject = true)
      (.roomsError .ownerExists "subject is already an owner")
  else if o.op = opRemoveMember then do
    raiseIf (o.subject ∉ room.members)
      (.roomsError .memberUnknown "subject is not a member of the room")
    raiseIf (room.isOwner o.subject = true)
      (.roomsError .ownerImmutable "an owner cannot be removed (ownership is add-only)")
  else if o.op = opChangeRole then do
    raiseIf (o.subject ∉ room.members)
      (.roomsError .memberUnknown "subject is not a member of the room")
    raiseIf (o.role ≠ roleMember ∧ o.role ≠ roleAdmin)
      (.roomsError .roleInvalid "promote to owner via add_owner only")
    raiseIf (room.members.lookup o.subject = some roleOwner)
      (.roomsError .ownerImmutable "an owner cannot be demoted")
  else throw (.roomsError .opUnknown "unknown room op code")

/-- The changes of `Room.apply` to the members and the owners. -/
def Room.change (room : Room) (o : RoomOp) : Room :=
  if o.op = opAddMember then { room with members := room.members.insert o.subject o.role }
  else if o.op = opAddOwner then
    { room with
      members := room.members.insert o.subject roleOwner,
      owners := room.owners.insert o.subject true }
  else if o.op = opRemoveMember then { room with members := room.members.erase o.subject }
  else if o.op = opChangeRole then
    { room with members := room.members.insert o.subject o.role }
  else room

section

-- `nfc` is `unicodedata.normalize("NFC", ·)`.
variable (nfc : PyStr → PyStr) (lib : SignatureLibrary)

/-- `require_nfc`, with its error as one of this module. -/
def requireNormal (s : PyStr) : Py Unit :=
  match Identity.requireNfc nfc s with
  | .error (.identityError .nonNfc _) =>
      throw (.roomsError .nonNfc "subject/principal string is not Unicode NFC")
  | outcome => outcome

/-- `envelope_object`: the unsigned object that carries an op. -/
def RoomOp.envelopeObject (o : RoomOp) (signer : Bytes) (created profile : Int)
    (causes : List Bytes)
    : Py Envelope.Object := do
  let some (kind, effect) := kindForOp o.op
    | throw (.roomsError .opUnknown "unknown room op code")
  requireNormal nfc o.subject
  return {
    id := none
    kind
    channel := channelGovernance
    tier
    signer
    created
    effect
    causes
    profile
    body := o.toMap
    ext := none
    cext := none
    audience := []
    suite := 0
  }

/-- The checks on a subject: not empty, and in normal form. -/
def checkSubject (subject : PyStr) : Py Unit := do
  raiseIf (subject = []) (.roomsError .roomOpMismatch "empty subject")
  match Identity.requireNfc nfc subject with
  | .error (.identityError .nonNfc _) =>
      throw (.roomsError .nonNfc "subject/principal string is not Unicode NFC")
  | outcome => outcome

def Room.checkOp (room : Room) (o : RoomOp) (actor : PyStr) : Py Unit := do
  raiseIf (o.room ≠ room.id ∨ o.op = opCreate) (.roomsError .roomOpMismatch
    "op room id, kind, or op code does not match this room")
  raiseIf (o.epoch ≠ room.epoch) (.roomsError .staleEpoch
    "op epoch does not match the room's current membership epoch")
  checkSubject nfc o.subject
  raiseIf (room.isOwner actor = false)
    (.roomsError .unauthorized "actor is not an owner of the room")
  room.checkSemantics o

/-- `Room.apply`: the receipt of an accepted op and its cursor; `time` is the parameter `at` of the
source.
-/
def Room.apply (o : RoomOp) (actor : PyStr) (time : Int) : EStateM Exc Room (Receipt × Int) := do
  let room ← get
  check (room.checkOp nfc o actor)
  let obj ← check o.contentId
  let (rec, sig) ← within Room.auth (fun room auth => { room with auth })
    (Authority.append lib obj time)
  modify fun room => room.change o
  modify fun room => { room with receipts := room.receipts ++ [rec] }
  modify fun room => { room with sigs := room.sigs ++ [sig] }
  modify fun room => { room with epoch := room.epoch + 1 }
  return (rec, rec.seq)

/-- What `Room.apply_signed` reads from a signed object before it applies it: the op, and the actor.
-/
def openSigned (profile alg : Int) (pubkey signedObj : Bytes) : Py (RoomOp × PyStr) := do
  let o ← Envelope.verify lib profile alg pubkey (some composedKindValidator) signedObj []
  raiseIf (o.channel ≠ channelGovernance ∨ o.tier ≠ tier)
    (opMismatch "object is not a tier-1 Governance room op")
  let actor ← Identity.signerId alg pubkey
  let octets ← actor.encode
  raiseIf (o.signer ≠ octets)
    (.identityError .signerMismatch "signer id does not derive from the verifying key")
  let op ← roomOpFromBody o.body
  raiseIf (kindForOp op.op ≠ some (o.kind, o.effect))
    (opMismatch "op kind/effect does not match its op code")
  return (op, actor)

def Room.applySigned (profile alg : Int) (pubkey signedObj : Bytes) (time : Int)
    : EStateM Exc Room (Receipt × Int) := do
  let (op, actor) ← check (openSigned lib profile alg pubkey signedObj)
  Room.apply nfc lib op actor time

/-- `create_room`, a method of the authority here: the room holds the authority that it changes. -/
def createRoom (o : RoomOp) (actor : PyStr) (time : Int)
    : EStateM Exc Authority (Room × Receipt × Int) := do
  check do
    raiseIf (o.op ≠ opCreate)
      (.roomsError .roomOpMismatch "create_room requires a create op")
    raiseIf (o.epoch ≠ 0)
      (.roomsError .staleEpoch "a create op must be built against epoch 0")
    checkSubject nfc o.subject
    raiseIf (actor ≠ o.subject)
      (.roomsError .unauthorized "the create actor must be the seeded owner (the subject)")
  let obj ← check o.contentId
  let (rec, sig) ← Authority.append lib obj time
  let auth ← get
  let room : Room :=
    { id := o.room
      epoch := 1
      members := AList.singleton o.subject roleOwner
      owners := AList.singleton o.subject true
      auth
      receipts := [rec]
      sigs := [sig] }
  return (room, rec, rec.seq)

end

-----------------------------------------------------------------------------------------
-- Principals
-----------------------------------------------------------------------------------------

open Naalp.Python.Identity (RotationRecord)

/-- A principal id bound to a handle, chained to the binding before it. -/
structure Binding where
  principal : PyStr
  handle : PyStr
  epoch : Int
  prev : Bytes
  deriving DecidableEq

def Binding.bytes (b : Binding) : Py Bytes :=
  encode (.m [(.u 1, .t b.principal), (.u 2, .t b.handle), (.u 3, .u b.epoch), (.u 4, .b b.prev)])

def Binding.head (b : Binding) : Py Bytes := return Sha2.sha384 (← b.bytes)

def genesisHead : Bytes := List.replicate headSize 0

structure PrincipalRegistry where
  chain : AList (fun _ : PyStr => List Binding) := ∅
  head : AList (fun _ : PyStr => Bytes) := ∅
  current : AList (fun _ : PyStr => PyStr) := ∅
  epoch : AList (fun _ : PyStr => Int) := ∅

def rebindUnauthorized : Exc :=
  .roomsError .rebindUnauthorized "a rebind requires a verified rotation from the current handle"

def principalUnknown : Exc :=
  .roomsError .principalUnknown "no binding for the semantic principal id"

def PrincipalRegistry.resolve (reg : PrincipalRegistry) (principal : PyStr) : Py PyStr :=
  match reg.current.lookup principal with
  | some handle => return handle
  | none => throw principalUnknown

/-- The rotation that a rebind presents: its record, and the keys and signatures of both sides. -/
structure Rotation where
  rot : RotationRecord
  oldAlg : Int
  oldPub : Bytes
  newAlg : Int
  newPub : Bytes
  oldSig : Bytes
  newSig : Bytes

section

-- `nfc` is `unicodedata.normalize("NFC", ·)`.
variable (nfc : PyStr → PyStr) (lib : SignatureLibrary)

def PrincipalRegistry.checkBind (reg : PrincipalRegistry) (principal handle : PyStr) : Py Unit := do
  raiseIf (principal = [] ∨ handle = []) (.roomsError .roomOpMismatch "empty principal or handle")
  requireNormal nfc principal
  requireNormal nfc handle
  raiseIf (principal ∈ reg.current)
    (.roomsError .principalExists "principal already bound; use rebind")

/-- `bind`: the chain is assigned before the head of the binding is computed. -/
def PrincipalRegistry.bind (principal handle : PyStr) : EStateM Exc PrincipalRegistry Binding := do
  let reg ← get
  check (reg.checkBind nfc principal handle)
  let b : Binding := { principal, handle, epoch := 0, prev := genesisHead }
  modify fun reg => { reg with chain := reg.chain.insert principal [b] }
  let head ← check b.head
  modify fun reg => { reg with head := reg.head.insert principal head }
  modify fun reg => { reg with current := reg.current.insert principal handle }
  modify fun reg => { reg with epoch := reg.epoch.insert principal 0 }
  return b

/-- The record names the current handle and the new one, and is a verified rotation. -/
def checkRotation (cur newHandle : PyStr) (r : Rotation) : Py Unit := do
  raiseIf (r.rot.old ≠ cur ∨ r.rot.new ≠ newHandle) rebindUnauthorized
  match Identity.verifyRotation lib r.rot r.oldAlg r.oldPub r.newAlg r.newPub r.oldSig r.newSig with
  | .error (.identityError .rotationUnauthorized _) => throw rebindUnauthorized
  | outcome => outcome

def PrincipalRegistry.checkRebind (reg : PrincipalRegistry) (principal newHandle : PyStr)
    (r : Rotation) : Py Unit := do
  let cur ← reg.resolve principal
  raiseIf (newHandle = []) (.roomsError .roomOpMismatch "empty new handle")
  requireNormal nfc newHandle
  checkRotation lib cur newHandle r

/-- An entry of one of the dictionaries, as `[]` reads it. -/
def entry {β : Type} (d : AList fun _ : PyStr => β) (principal : PyStr) : Py β :=
  match d.lookup principal with
  | some value => return value
  | none => throw .keyError

/-- `rebind`: the binding is appended to the chain before its head is computed. -/
def PrincipalRegistry.rebind (principal newHandle : PyStr) (r : Rotation)
    : EStateM Exc PrincipalRegistry Binding := do
  let reg ← get
  check (reg.checkRebind nfc lib principal newHandle r)
  let epoch ← check (entry reg.epoch principal)
  let prev ← check (entry reg.head principal)
  let b : Binding := { principal, handle := newHandle, epoch := epoch + 1, prev }
  let chain ← check (entry reg.chain principal)
  modify fun reg => { reg with chain := reg.chain.insert principal (chain ++ [b]) }
  let head ← check b.head
  modify fun reg => { reg with head := reg.head.insert principal head }
  modify fun reg => { reg with current := reg.current.insert principal newHandle }
  modify fun reg => { reg with epoch := reg.epoch.insert principal (epoch + 1) }
  return b

end

end Naalp.Python.Rooms
