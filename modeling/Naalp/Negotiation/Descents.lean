import Naalp.CanonicalEncoding.RoundTrip
import Naalp.Negotiation.Acceptance

/-! What the walk over the causes decides. It ends on every index, and answers whether a path of
causes leads to the target; messages that are added do not take a path away.
-/

namespace Naalp.Negotiation

open Naalp.Foundation
open Naalp.Python
open Naalp.Python.Cbor
open Naalp.Python.Negotiation
open Naalp.Implementations

-----------------------------------------------------------------------------------------
-- Larger indexes
-----------------------------------------------------------------------------------------

/-- What the one index resolves, the other resolves to the same message. -/
def Extends (larger byId : Index) : Prop :=
  ∀ cid m, byId.lookup cid = some m → larger.lookup cid = some m

theorem CausesPath.extend {byId larger : Index} {permitted : Message → Prop} {m : Message}
    {target : Bytes} (path : CausesPath byId permitted m target) (added : Extends larger byId)
    : CausesPath larger permitted m target := by
  induction path with
  | direct named => exact .direct named
  | through named resolved passed _ ih => exact .through named (added _ _ resolved) passed ih

theorem descends_extend {byId larger : Index} {m : Message} {target : Bytes}
    (added : Extends larger byId) (descended : descends m target byId = true)
    : descends m target larger = true :=
  descends_iff.mpr ((descends_iff.mp descended).extend added)

section Filing

variable {ε : Type} {id : Message → Except ε Bytes} {msgs more : List Message} {m : Message}
  {start byId larger : Index} {cid : Bytes}

/-- The messages filed in turn under their ids. -/
def fileUnder (id : Message → Except ε Bytes) (msgs : List Message) (byId : Index)
    : Except ε Index :=
  msgs.foldlM (fun byId m => return byId.insert (← id m) m) byId

/-- What an index resolves was filed under the id, or was there before; and what was filed is
resolved. By induction over the messages.
-/
theorem lookup_fileUnder (filed : fileUnder id msgs start = .ok byId)
    : (∀ cid m, byId.lookup cid = some m → (m ∈ msgs ∧ id m = .ok cid) ∨ start.lookup cid = some m)
      ∧ ∀ cid, (∃ m ∈ msgs, id m = .ok cid) ∨ start.lookup cid ≠ none → byId.lookup cid ≠ none := by
  induction msgs generalizing start with
  | nil =>
      obtain rfl := Except.ok.inj filed
      exact ⟨fun _ _ found => .inr found, by simp⟩
  | cons first msgs ih =>
      rw [fileUnder, List.foldlM_cons, bind_eq_ok] at filed
      obtain ⟨next, inserted, later⟩ := filed
      obtain ⟨cid', named, inserted⟩ := bind_eq_ok.mp inserted
      obtain rfl := Except.ok.inj inserted
      obtain ⟨origin, resolved⟩ := ih later
      constructor
      · intro cid m found
        rcases origin cid m found with ⟨member, ids⟩ | earlier
        · exact .inl ⟨List.mem_cons_of_mem _ member, ids⟩
        · by_cases same : cid = cid'
          · subst same
            rw [AList.lookup_insert] at earlier
            obtain rfl := Option.some.inj earlier
            exact .inl ⟨List.mem_cons_self, named⟩
          · rw [AList.lookup_insert_ne same] at earlier
            exact .inr earlier
      · intro cid was
        refine resolved cid ?_
        by_cases same : cid = cid'
        · subst same
          rw [AList.lookup_insert]
          exact .inr (by simp)
        · rw [AList.lookup_insert_ne same]
          rcases was with ⟨m, member, ids⟩ | before
          · rcases List.mem_cons.mp member with rfl | member
            · exact (same (Except.ok.inj (ids.symm.trans named))).elim
            · exact .inl ⟨m, member, ids⟩
          · exact .inr before

/-- Two of the messages have one id, though they differ. -/
def SharedId (id : Message → Except ε Bytes) (msgs : List Message) : Prop :=
  ∃ m ∈ msgs, ∃ m' ∈ msgs, m ≠ m' ∧ ∃ cid, id m = .ok cid ∧ id m' = .ok cid

/-- The index of more messages extends that of some of them, unless two messages share an id. -/
theorem extends_or_sharedId (some : msgs ⊆ more) (filed : fileUnder id msgs ∅ = .ok byId)
    (all : fileUnder id more ∅ = .ok larger) : Extends larger byId ∨ SharedId id more := by
  by_cases shared : SharedId id more
  · exact .inr shared
  · left
    intro cid m found
    have empty : (∅ : Index).lookup cid = none := AList.lookup_empty cid
    obtain ⟨member, named⟩ :=
      ((lookup_fileUnder filed).1 cid m found).resolve_right (by simp [empty])
    have resolved := (lookup_fileUnder all).2 cid (.inl ⟨m, some member, named⟩)
    obtain ⟨m', found'⟩ := Option.ne_none_iff_exists'.mp resolved
    obtain ⟨member', named'⟩ :=
      ((lookup_fileUnder all).1 cid m' found').resolve_right (by simp [empty])
    by_cases same : m = m'
    · rw [same, found']
    · exact (shared ⟨m, some member, m', member', same, cid, named, named'⟩).elim

end Filing

-----------------------------------------------------------------------------------------
-- Ids of messages
-----------------------------------------------------------------------------------------

/-- The values of the body of a message. -/
def messageValue (m : Message) : Value :=
  .m [(.u 1, .b m.negotiation), (.u 2, .u m.role), (.u 3, .u m.profile),
    (.u 4, .a (m.causes.map .b))]

/-- The value of a message gives its fields back. -/
theorem messageValue_injective {m m' : Message} (same : messageValue m = messageValue m')
    : m = m' := by
  obtain ⟨negotiation, role, profile, causes⟩ := m
  obtain ⟨negotiation', role', profile', causes'⟩ := m'
  have inner : causes.map Value.b = causes'.map Value.b → causes = causes' :=
    fun mapped => List.map_injective_iff.mpr (fun _ _ => Value.b.inj) mapped
  simp only [messageValue, Value.m.injEq, List.cons.injEq, Prod.mk.injEq, Value.b.injEq,
    Value.u.injEq, Value.a.injEq, true_and, and_true] at same
  obtain ⟨rfl, rfl, rfl, mapped⟩ := same
  rw [inner mapped]

/-- The octets of a message give the message back.
Witness: the value is shallow and in order, so its octets are read back to it.
-/
theorem eq_of_encode_messageValue {m m' : Message} {body : Bytes}
    (encoded : encode (messageValue m) = .ok body) (encoded' : encode (messageValue m') = .ok body)
    : m = m' := by
  have shallow : ∀ m : Message, depth (messageValue m) ≤ 3 := by
    intro m
    have items : depthItems (m.causes.map .b) ≤ 1 := by
      rw [depthItems_le]
      intro item member
      obtain ⟨c, -, rfl⟩ := List.mem_map.mp member
      exact le_refl 1
    simp only [messageValue, depth, depthPairs]
    omega
  have ordered : ∀ m : Message, MapsAscending (messageValue m) := by
    intro m
    refine .m (@numbered_ascending 1 [_, _, _, _] (by simp)) ?_ ?_
    · simp only [List.forall_mem_cons]
      exact ⟨.u _, .u _, .u _, .u _, List.forall_mem_nil _⟩
    · simp only [List.forall_mem_cons]
      refine ⟨.b _, .u _, .u _, .a ?_, List.forall_mem_nil _⟩
      intro item member
      obtain ⟨c, -, rfl⟩ := List.mem_map.mp member
      exact .b _
  have read := decodeBounded_encode encoded (shallow m)
  have read' := decodeBounded_encode encoded' (shallow m')
  have same := Except.ok.inj (read.symm.trans read')
  rw [(ordered m).sortMaps_eq, (ordered m').sortMaps_eq] at same
  exact messageValue_injective same

/-- Two of the messages have different bodies with one SHA-384 digest. -/
def BodiesCollide (msgs : List Message) : Prop :=
  ∃ m ∈ msgs, ∃ m' ∈ msgs, ∃ body body', encode (messageValue m) = .ok body
    ∧ encode (messageValue m') = .ok body' ∧ body ≠ body' ∧ Sha2.sha384 body = Sha2.sha384 body'

theorem eq_of_contentIdBytes {body body' : Bytes}
    (same : contentIdBytes body = contentIdBytes body')
    : Sha2.sha384 body = Sha2.sha384 body' :=
  (List.cons.inj (List.cons.inj same).2).2

theorem bodiesCollide_of_encoded {msgs : List Message} {m m' : Message} {body body' : Bytes}
    (member : m ∈ msgs) (member' : m' ∈ msgs) (other : m ≠ m')
    (encoded : encode (messageValue m) = .ok body) (encoded' : encode (messageValue m') = .ok body')
    (same : contentIdBytes body = contentIdBytes body') : BodiesCollide msgs := by
  refine ⟨m, member, m', member', body, body', encoded, encoded', ?_, eq_of_contentIdBytes same⟩
  rintro rfl
  exact other (eq_of_encode_messageValue encoded encoded')

theorem SharedId.collide {msgs : List Message} (shared : SharedId Message.id msgs)
    : BodiesCollide msgs := by
  obtain ⟨m, member, m', member', other, cid, named, named'⟩ := shared
  obtain ⟨body, encoded, first⟩ := bind_eq_ok.mp named
  obtain ⟨body', encoded', second⟩ := bind_eq_ok.mp named'
  exact bodiesCollide_of_encoded member member' other encoded encoded'
    ((Except.ok.inj first).trans (Except.ok.inj second).symm)

/-- The fields of a message of the Go module are unsigned words and octet strings of its sizes. -/
def GoSized (m : Message) : Prop :=
  m.negotiation.length < 2 ^ 64 ∧ (0 ≤ m.role ∧ m.role < 2 ^ 64)
    ∧ (0 ≤ m.profile ∧ m.profile < 2 ^ 64) ∧ m.causes.length < 2 ^ 64
    ∧ ∀ c ∈ m.causes, c.length < 2 ^ 64

/-- A message whose sizes a Go program can have can be encoded. -/
theorem GoSized.encodable {m : Message} (sized : GoSized m) : Encodable (messageValue m) := by
  obtain ⟨negotiation, role, profile, causes, each⟩ := sized
  have items : Encodable (.a (m.causes.map .b)) := by
    rw [encodable_a, List.length_map]
    refine ⟨causes, ?_⟩
    intro item member
    obtain ⟨c, inside, rfl⟩ := List.mem_map.mp member
    exact encodable_b.mpr (each c inside)
  refine (@encodable_numbered 1 [.b m.negotiation, .u m.role, .u m.profile, .a (m.causes.map .b)]
    (by simp)).mpr ?_
  simp only [List.forall_mem_cons, encodable_b, encodable_u]
  exact ⟨negotiation, role, profile, items, nofun⟩

theorem GoSized.messageBytes {m : Message} (sized : GoSized m)
    : Go.Negotiation.messageBytes m = encoding (messageValue m) := by
  have encoded := goEncode_of_encodable sized.encodable
  rw [messageValue] at encoded
  rw [Go.Negotiation.messageBytes, encoded]
  rfl

theorem SharedId.goCollide {ε : Type} {msgs : List Message} (sized : ∀ m ∈ msgs, GoSized m)
    (shared : SharedId (fun m => (.ok (Go.Negotiation.messageId m) : Except ε Bytes)) msgs)
    : BodiesCollide msgs := by
  obtain ⟨m, member, m', member', other, cid, named, named'⟩ := shared
  have same := (Except.ok.inj named).trans (Except.ok.inj named').symm
  rw [Go.Negotiation.messageId, Go.Negotiation.messageId, (sized m member).messageBytes,
    (sized m' member').messageBytes] at same
  exact bodiesCollide_of_encoded member member' other (sized m member).encodable
    (sized m' member').encodable same

-----------------------------------------------------------------------------------------
-- The walk
-----------------------------------------------------------------------------------------

/-- The walk ends and tells whether a path of causes leads to the target through the index, and goes
on to tell so when messages are added.
Witness: no message is expanded twice, so the search ends; a longer index has more causes or a
second message under one id, whose bodies collide.
-/
theorem descends_decides_reachability (m : Message) (target : Bytes) (byId : Index)
    : (∃ fuel, searchStack byId.causes target fuel [] m.causes.reverse
        = some (descends m target byId))
      ∧ (descends m target byId = true ↔ CausesPath byId (fun _ => True) m target)
      ∧ Go.Negotiation.walk m target byId = descends m target byId
      ∧ (∀ larger, Extends larger byId → descends m target byId = true
        → descends m target larger = true)
      ∧ (∀ msgs more larger, msgs ⊆ more → indexById msgs = .ok byId → indexById more = .ok larger
        → descends m target byId = true → descends m target larger = true ∨ BodiesCollide more)
      ∧ ∀ msgs more, msgs ⊆ more → (∀ m ∈ more, GoSized m)
        → Go.Negotiation.walk m target (Go.Negotiation.indexById msgs) = true
        → Go.Negotiation.walk m target (Go.Negotiation.indexById more) = true
          ∨ BodiesCollide more := by
  have complete : ∀ cid, byId.causes cid ≠ none → cid ∈ byId.keys := by
    intro cid resolved
    rw [Index.causes, Ne, Option.map_eq_none_iff, AList.lookup_eq_none, not_not] at resolved
    exact resolved
  refine ⟨?_, descends_iff, rfl, fun _ => descends_extend, ?_, ?_⟩
  · have ends := @searchStack_isSome _ _ byId.causes target byId.keys [] m.causes.reverse _ complete
      (Nat.lt_succ_self _)
    obtain ⟨answer, answered⟩ := Option.isSome_iff_exists.mp ends
    refine ⟨_, answered.trans ?_⟩
    rw [descends, reaches, answered, Option.getD_some]
  · intro msgs more larger some filed all descended
    rcases extends_or_sharedId some filed all with added | shared
    · exact .inl (descends_extend added descended)
    · exact .inr shared.collide
  · intro msgs more some sized descended
    have file : ∀ msgs : List Message,
        fileUnder (fun m => (.ok (Go.Negotiation.messageId m) : Except Unit Bytes)) msgs ∅
          = .ok (Go.Negotiation.indexById msgs) :=
      fun msgs => List.foldlM_pure
    rcases extends_or_sharedId some (file msgs) (file more) with added | shared
    · exact .inl (descends_extend added descended)
    · exact .inr (shared.goCollide sized)

end Naalp.Negotiation
