import Naalp.Go.Negotiation
import Naalp.Implementations.Codec

/-! Which offer an accept concludes. The causes of an accepted accept lead to the offer through the
index, but neither implementation looks at the negotiation or at the roles of the messages between
them.
-/

namespace Naalp.Negotiation

open Naalp.Foundation
open Naalp.Python
open Naalp.Python.Cbor
open Naalp.Python.Negotiation
open Naalp.Implementations

-----------------------------------------------------------------------------------------
-- Paths of causes
-----------------------------------------------------------------------------------------

/-- (CausesPath byId permitted m target) says that the causes of the message lead to the target by
way of permitted messages that the index resolves.
-/
inductive CausesPath (byId : Index) (permitted : Message → Prop) : Message → Bytes → Prop where
  | direct {m : Message} {target : Bytes} (named : target ∈ m.causes)
    : CausesPath byId permitted m target
  | through {m between : Message} {cid target : Bytes} (named : cid ∈ m.causes)
    (resolved : byId.lookup cid = some between) (passed : permitted between)
    (later : CausesPath byId permitted between target) : CausesPath byId permitted m target

section Paths

variable {byId : Index} {permitted permitted' : Message → Prop} {m between : Message}
  {cid target : Bytes}

theorem CausesPath.imp (path : CausesPath byId permitted m target)
    (weaker : ∀ m, permitted m → permitted' m) : CausesPath byId permitted' m target := by
  induction path with
  | direct named => exact .direct named
  | through named resolved passed _ ih => exact .through named resolved (weaker _ passed) ih

theorem CausesPath.of_index (path : CausesPath byId (fun _ => True) m target)
    (all : ∀ cid m, byId.lookup cid = some m → permitted m)
    : CausesPath byId permitted m target := by
  induction path with
  | direct named => exact .direct named
  | through named resolved _ _ ih => exact .through named resolved (all _ _ resolved) ih

theorem leads_iff {next : Bytes} : Leads byId.causes cid next
    ↔ ∃ between, byId.lookup cid = some between ∧ next ∈ between.causes := by
  cases found : byId.lookup cid with
  | none => simp [Leads, pushed, Index.causes, found]
  | some between => simp [Leads, pushed, Index.causes, found]

theorem causesPath_of_reached (reached : Relation.ReflTransGen (Leads byId.causes) cid target)
    (named : cid ∈ m.causes) : CausesPath byId (fun _ => True) m target := by
  induction reached using Relation.ReflTransGen.head_induction_on generalizing m with
  | refl => exact .direct named
  | head leads _ ih =>
      obtain ⟨between, resolved, next⟩ := leads_iff.mp leads
      exact .through named resolved trivial (ih next)

theorem CausesPath.reached (path : CausesPath byId (fun _ => True) m target)
    : ∃ cid ∈ m.causes, Relation.ReflTransGen (Leads byId.causes) cid target := by
  induction path with
  | direct named => exact ⟨_, named, .refl⟩
  | through named resolved _ _ ih =>
      obtain ⟨cid, next, reached⟩ := ih
      exact ⟨_, named, .head (leads_iff.mpr ⟨_, resolved, next⟩) reached⟩

/-- The walk answers whether the causes lead to the target through the index. -/
theorem descends_iff
    : descends m target byId = true ↔ CausesPath byId (fun _ => True) m target := by
  have complete : ∀ cid, byId.causes cid ≠ none → cid ∈ byId.keys := by
    intro cid resolved
    rw [Index.causes, Ne, Option.map_eq_none_iff, AList.lookup_eq_none, not_not] at resolved
    exact resolved
  rw [descends, reaches_iff complete]
  constructor
  · rintro ⟨cid, named, reached⟩
    exact causesPath_of_reached reached named
  · exact CausesPath.reached

/-- The index without the messages that are not kept. -/
def restrict (byId : Index) (keep : Message → Bool) : Index where
  entries := byId.entries.filter fun entry => keep entry.2
  nodupKeys := (List.Sublist.map _ List.filter_sublist).nodup byId.nodupKeys

theorem lookup_restrict {keep : Message → Bool}
    : (restrict byId keep).lookup cid = some m ↔ byId.lookup cid = some m ∧ keep m = true := by
  simp only [← Option.mem_def, AList.mem_lookup_iff, restrict, List.mem_filter]

/-- Paths through the kept messages of an index are the paths through the index that keep to
them, by induction on the path.
-/
theorem causesPath_restrict {keep : Message → Bool}
    : CausesPath (restrict byId keep) (fun _ => True) m target
      ↔ CausesPath byId (fun m => keep m = true) m target := by
  constructor
  · intro path
    induction path with
    | direct named => exact .direct named
    | through named resolved _ _ ih =>
        obtain ⟨resolved, passed⟩ := lookup_restrict.mp resolved
        exact .through named resolved passed ih
  · intro path
    induction path with
    | direct named => exact .direct named
    | through named resolved passed _ ih =>
        exact .through named (lookup_restrict.mpr ⟨resolved, passed⟩) trivial ih

end Paths

-----------------------------------------------------------------------------------------
-- Accepts
-----------------------------------------------------------------------------------------

/-- A counter of the negotiation. -/
def counterOf (negotiation : Bytes) (m : Message) : Bool :=
  m.role = roleCounter ∧ m.negotiation = negotiation

/-- The accept concludes the offer with the id: both are of one negotiation, and so are the counters
that the causes of the accept lead to it by.
-/
structure Concludes (accept offer : Message) (target : Bytes) (byId : Index) : Prop where
  same : accept.negotiation = offer.negotiation
  path : CausesPath byId (fun m => m.role = roleCounter ∧ m.negotiation = accept.negotiation) accept
    target

/-- The roles and profiles that an accept and its offer must have. -/
structure RolesAndProfiles (accept offer : Message) : Prop where
  isOffer : offer.role = roleOffer
  offered : isRegisteredProfile offer.profile = true
  isAccept : accept.role = roleAccept
  accepted : isRegisteredProfile accept.profile = true

section Accepts

variable {accept offer : Message} {byId : Index} {agreed : Int} {target : Bytes}

/-- An accept is taken exactly when the roles and profiles are right and its causes lead to the
offer.
-/
theorem verifyAccept_eq_ok : verifyAccept accept offer byId = .ok agreed
    ↔ RolesAndProfiles accept offer ∧ agreed = accept.profile
      ∧ ∃ target, offer.id = .ok target ∧ CausesPath byId (fun _ => True) accept target := by
  simp only [verifyAccept, descendsMsg, bind_eq_ok, pure_eq_ok, Except.ok.injEq, raiseIf_eq_ok,
    exists_const, not_not, ne_eq, Bool.not_eq_false, ← descends_iff]
  constructor
  · rintro ⟨isOffer, offered, isAccept, accepted, _, ⟨target, named, rfl⟩, descended, rfl⟩
    exact ⟨⟨isOffer, offered, isAccept, accepted⟩, rfl, target, named, descended⟩
  · rintro ⟨⟨isOffer, offered, isAccept, accepted⟩, rfl, target, named, descended⟩
    exact ⟨isOffer, offered, isAccept, accepted, _, ⟨target, named, rfl⟩, descended, rfl⟩

/-- The same of the Go function, which takes the id of every offer. -/
theorem goVerifyAccept_eq_ok : Go.Negotiation.verifyAccept accept offer byId = .ok agreed
    ↔ RolesAndProfiles accept offer ∧ agreed = accept.profile
      ∧ CausesPath byId (fun _ => True) accept (Go.Negotiation.messageId offer) := by
  have walked : Go.Negotiation.descends accept offer byId
      = descends accept (Go.Negotiation.messageId offer) byId := rfl
  simp only [Go.Negotiation.verifyAccept, walked, raiseIf_bind_eq_ok, pure_eq_ok, Except.ok.injEq,
    not_not, ne_eq, Bool.not_eq_false, ← descends_iff]
  constructor
  · rintro ⟨isOffer, offered, isAccept, accepted, descended, rfl⟩
    exact ⟨⟨isOffer, offered, isAccept, accepted⟩, rfl, descended⟩
  · rintro ⟨⟨isOffer, offered, isAccept, accepted⟩, rfl, descended⟩
    exact ⟨isOffer, offered, isAccept, accepted, descended, rfl⟩

/-- Whether an accept concludes an offer is decided by the walk through the counters of its
negotiation.
-/
theorem concludes_iff : Concludes accept offer target byId
    ↔ accept.negotiation = offer.negotiation
      ∧ descends accept target (restrict byId (counterOf accept.negotiation)) = true := by
  have permitted {m : Message} : counterOf accept.negotiation m = true
      ↔ m.role = roleCounter ∧ m.negotiation = accept.negotiation := decide_eq_true_iff
  rw [descends_iff, causesPath_restrict]
  constructor
  · rintro ⟨same, path⟩
    exact ⟨same, path.imp fun _ => permitted.mpr⟩
  · rintro ⟨same, path⟩
    exact ⟨same, path.imp fun _ => permitted.mp⟩

/-- Through an index of the counters of one negotiation, every path is one of that negotiation. -/
theorem concludes_of_index (path : CausesPath byId (fun _ => True) accept target)
    (all : ∀ cid m, byId.lookup cid = some m → counterOf accept.negotiation m = true)
    : Concludes accept offer target byId ↔ accept.negotiation = offer.negotiation := by
  constructor
  · exact Concludes.same
  · exact fun same => ⟨same, path.of_index fun cid m resolved =>
      of_decide_eq_true (all cid m resolved)⟩

end Accepts

/-- For a check of accepts that names an offer by its id: an accept is accepted on the roles, the
profiles and some path through the index, and it concludes its negotiation exactly when the offer
is of it and the walk still succeeds through the counters of it.
-/
structure ConcludesExactly {ε : Type} (verify : Message → Message → Index → Except ε Int)
    (id : Message → Except ε Bytes) (accept offer : Message) (byId : Index) : Prop where
  accepted : ∀ agreed, verify accept offer byId = .ok agreed
    ↔ RolesAndProfiles accept offer ∧ agreed = accept.profile
      ∧ ∃ target, id offer = .ok target ∧ CausesPath byId (fun _ => True) accept target
  concludes : ∀ agreed target, verify accept offer byId = .ok agreed → id offer = .ok target
    → (Concludes accept offer target byId
      ↔ accept.negotiation = offer.negotiation
        ∧ descends accept target (restrict byId (counterOf accept.negotiation)) = true)
  within : ∀ agreed target, verify accept offer byId = .ok agreed → id offer = .ok target
    → (∀ cid m, byId.lookup cid = some m → counterOf accept.negotiation m = true)
    → (Concludes accept offer target byId ↔ accept.negotiation = offer.negotiation)

/-- In both implementations an accept is taken on the roles, the profiles and some path to the
offer, and concludes the negotiation exactly when the offer is of it and the path stays in it.
Witness: the check restricted to the messages of the negotiation decides the paths that the
claim is about.
-/
theorem accept_concludes_iff (accept offer : Message) (byId : Index)
    : ConcludesExactly verifyAccept Message.id accept offer byId
      ∧ ConcludesExactly Go.Negotiation.verifyAccept
        (fun offer => .ok (Go.Negotiation.messageId offer)) accept offer byId := by
  constructor
  · refine ⟨fun agreed => verifyAccept_eq_ok, ?_, ?_⟩
    · exact fun agreed target _ _ => concludes_iff
    · intro agreed target verified named all
      obtain ⟨-, -, target', named', path⟩ := verifyAccept_eq_ok.mp verified
      obtain rfl := Except.ok.inj (named.symm.trans named')
      exact concludes_of_index path all
  · refine ⟨fun agreed => ?_, ?_, ?_⟩
    · simp [goVerifyAccept_eq_ok]
    · exact fun agreed target _ _ => concludes_iff
    · intro agreed target verified named all
      obtain ⟨-, -, path⟩ := goVerifyAccept_eq_ok.mp verified
      exact concludes_of_index (Except.ok.inj named ▸ path) all

/-- An offer of negotiation 1, and an accept that is of negotiation 2 and names it. -/
def sampleOffer : Message where
  negotiation := [1]
  role := roleOffer
  profile := profileBaseline
  causes := []

def offerBody : Value := .m [(.u 1, .b [1]), (.u 2, .u 0), (.u 3, .u 0), (.u 4, .a [])]

def foreignAccept : Message where
  negotiation := [2]
  role := roleAccept
  profile := profileBaseline
  causes := [contentIdBytes (encoding offerBody)]

/-- An accept of another negotiation is taken for the offer that it leads to. -/
theorem foreign_offer_accepted
    : verifyAccept foreignAccept sampleOffer ∅ = .ok profileBaseline
      ∧ Go.Negotiation.verifyAccept foreignAccept sampleOffer ∅ = .ok profileBaseline
      ∧ foreignAccept.negotiation ≠ sampleOffer.negotiation := by
  have encodable : Encodable offerBody := rfl
  have roles : RolesAndProfiles foreignAccept sampleOffer := ⟨rfl, by decide, rfl, by decide⟩
  have named : sampleOffer.id = .ok (contentIdBytes (encoding offerBody)) := by
    have written : sampleOffer.bytes = .ok (encoding offerBody) := encodable
    rw [Message.id, written]
    rfl
  have goNamed : Go.Negotiation.messageId sampleOffer = contentIdBytes (encoding offerBody) := by
    have written : Go.Negotiation.messageBytes sampleOffer
        = (Except.ok (encoding offerBody) : Go.Result Bytes).toOption.getD [] :=
      congrArg (fun encoded : Go.Result Bytes => encoded.toOption.getD [])
        (goEncode_of_encodable encodable)
    rw [Go.Negotiation.messageId, written]
    rfl
  have path : CausesPath ∅ (fun _ => True) foreignAccept (contentIdBytes (encoding offerBody)) :=
    .direct (by simp [foreignAccept])
  exact ⟨verifyAccept_eq_ok.mpr ⟨roles, rfl, _, named, path⟩,
    goVerifyAccept_eq_ok.mpr ⟨roles, rfl, goNamed ▸ path⟩, by decide⟩

end Naalp.Negotiation
