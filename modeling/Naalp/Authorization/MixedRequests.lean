import Naalp.Authorization.GrantHolders

/-! What a mixed-mode endpoint makes of a request: a strict object under its grant, or a legacy body
that gains nothing; and the effect that the Go gate authorizes.
-/

namespace Naalp.Authorization

open Naalp.Foundation
open Naalp.Python
open Naalp.Python.Cbor
open Naalp.Python.Cose
open Naalp.Python.Envelope
open Naalp.Python.MixedMode
open Naalp.Python.MixedMode.MixedModeEndpoint (surrogate claimedInt legacyPayload legacyClaims)

-----------------------------------------------------------------------------------------
-- Gates
-----------------------------------------------------------------------------------------

/-- The kind is registered, and its declaration admits the effect. -/
def Declared (channel kind effect : Int) : Prop :=
  ∃ spec, Channels.lookup channel kind = .ok spec
    ∧ if spec.variable_ then effect ≤ Policy.destructive else effect = spec.effect

theorem checkEffect_eq_ok {channel kind effect : Int} {done : Unit}
    : Channels.checkEffect channel kind effect = .ok done ↔ Declared channel kind effect := by
  simp only [Channels.checkEffect, bind_eq_ok, Declared]
  refine exists_congr fun spec => and_congr_right fun _ => ?_
  split <;> simp [raiseIf_eq_ok]

/-- Every declared effect is one of the four. -/
theorem table_effect_le
    : ∀ entry ∈ Channels.table, ∀ spec ∈ entry.2, spec.effect ≤ Policy.destructive := by
  decide

theorem lookup_mem {α β : Type} [BEq α] [LawfulBEq α] {entries : List (α × β)} {key : α} {found : β}
    (looked : entries.lookup key = some found) : (key, found) ∈ entries := by
  obtain ⟨before, after, rfl, -⟩ := List.lookup_eq_some_iff.mp looked
  simp

/-- Every declared effect is within the known classes. -/
theorem Declared.le_destructive {channel kind effect : Int}
    (declared : Declared channel kind effect)
    : effect ≤ Policy.destructive := by
  obtain ⟨spec, found, admitted⟩ := declared
  split at admitted
  · exact admitted
  · unfold Channels.lookup at found
    split at found
    · rename_i kinds registered
      split at found
      · rename_i listed
        obtain rfl := Except.ok.inj found
        rw [admitted]
        exact table_effect_le _ (lookup_mem registered) _ (List.mem_of_find?_eq_some listed)
      · cases found
    · cases found

theorem le_normalizeEffect {effect : Int} (known : effect ≤ Policy.destructive)
    : effect ≤ Policy.normalizeEffect effect := by
  unfold Policy.normalizeEffect
  split
  · exact le_refl effect
  · exact known

theorem checkAudience_eq_ok {obj : Object} {selfAuthority : PyStr} {done : Unit}
    (passed : checkAudience obj selfAuthority true = .ok done) : obj.audience = selfAuthority := by
  unfold checkAudience at passed
  split at passed
  · cases passed
  · exact not_not.mp (raiseIf_eq_ok.mp passed)

variable {lib : SignatureLibrary} {std : StandardLibrary} {e : MixedModeEndpoint}

theorem audience_of_checkConsumeOnce {obj : Object} {done : Unit}
    (passed : e.checkConsumeOnce obj = .ok done)
    : (obj.channel, obj.kind) ∈ e.consumeOnceKinds → obj.audience = e.selfAuthority := by
  intro consumeOnce
  rw [MixedModeEndpoint.checkConsumeOnce, if_pos consumeOnce] at passed
  exact checkAudience_eq_ok passed

/-- The claims pass the gates when they ask for nothing. -/
theorem refuseClaims_eq_ok {effect : Int} {channel kind : Option Int} {done : Unit}
    : e.refuseClaims (effect, channel, kind) = .ok done
      ↔ effect ≤ Policy.readOnly
        ∧ ∀ c k, channel = some c → kind = some k → (c, k) ∉ e.consumeOnceKinds := by
  have surrogate_eq_ok {c k : Int} : e.checkConsumeOnce (surrogate c k effect) = .ok done
      ↔ (c, k) ∉ e.consumeOnceKinds := by
    simp [MixedModeEndpoint.checkConsumeOnce, surrogate, checkAudience, raiseIf]
  by_cases above : effect > Policy.readOnly
  · simp [MixedModeEndpoint.refuseClaims, above, not_le.mpr above, Policy.resolveAuthPrincipal,
      raiseIf]
  · simp only [MixedModeEndpoint.refuseClaims, if_neg above, not_lt.mp above, true_and, pure_eq_ok]
    cases channel with
    | none => simp
    | some c =>
        cases kind with
        | none => simp
        | some k => simpa using surrogate_eq_ok

-----------------------------------------------------------------------------------------
-- What the endpoint accepts
-----------------------------------------------------------------------------------------

/-- A result for a verified object: what its kind declares, its signer's grant, and the audience of
a consume-once kind.
-/
structure AuthorizedStrictly (e : MixedModeEndpoint) (obj : Object) (result : MixedModeResult)
    : Prop where
  mode : result.mode = .strict
  object : result.object = some obj ∧ result.carriageBody = none
  effect : result.effect = obj.effect
  declared : Declared obj.channel obj.kind obj.effect
  granted : ∃ grant, e.grants.lookup (principalOf obj) = some grant
    ∧ grant.principal = principalOf obj ∧ obj.effect ≤ grant.maxEffect
  audience : (obj.channel, obj.kind) ∈ e.consumeOnceKinds → obj.audience = e.selfAuthority

/-- A result for a legacy body: the path is open, the body is a JSON object that claims no effect
and no consume-once kind, and it is carried as it is.
-/
structure CarriedWithoutAuthority (std : StandardLibrary) (e : MixedModeEndpoint) (body : Bytes)
    (result : MixedModeResult) : Prop where
  enabled : e.allowLegacy = true
  current : ∀ policy ∈ e.migrationPolicy, policy.state = .mixed
  claims : ∃ entries channel kind, (PyStr.decode body >>= std.loads) = .ok (.dict entries)
    ∧ (∀ value, entries.lookup (.lit ['e', 'f', 'f', 'e', 'c', 't']) = some value
      → std.intOf value = .ok 0)
    ∧ claimedInt std entries (.lit ['c', 'h', 'a', 'n', 'n', 'e', 'l']) = .ok channel
    ∧ claimedInt std entries (.lit ['k', 'i', 'n', 'd']) = .ok kind
    ∧ ∀ c k, channel = some c → kind = some k → (c, k) ∉ e.consumeOnceKinds
  mode : result.mode = .legacy
  effect : result.effect = Policy.readOnly ∧ result.object = none
  carried : ∃ carriage, result.carriageBody = some carriage ∧ carriage.foreign = body

/-- What an accepted strict request has passed, each check of the path read off in order. -/
theorem authorizedStrictly_of_ok {obj : Object} {result : MixedModeResult}
    (authorized : e.authorizeStrict std obj = .ok result) : AuthorizedStrictly e obj result := by
  simp only [MixedModeEndpoint.authorizeStrict, bind_eq_ok, checkEffect_eq_ok] at authorized
  obtain ⟨_, declared, rest⟩ := authorized
  split at rest
  case h_2 => cases rest
  rename_i grant found
  simp only [bind_eq_ok, pure_eq_ok, Except.ok.injEq, Policy.Grant.authorizeObject_eq_ok] at rest
  obtain ⟨_, ⟨-, -, own, within⟩, _, bound, headers, -, rfl⟩ := rest
  have known := le_normalizeEffect declared.le_destructive
  exact {
    mode := rfl
    object := ⟨rfl, rfl⟩
    effect := rfl
    declared
    granted := ⟨grant, found, own.symm, known.trans within⟩
    audience := audience_of_checkConsumeOnce bound
  }

theorem legacyPayload_eq_ok {body : Bytes} {entries : List (PyStr × Json)}
    : legacyPayload std body = .ok entries
      ↔ (PyStr.decode body >>= std.loads) = .ok (.dict entries) := by
  unfold legacyPayload
  split <;> simp_all

/-- A claim of no effect converts to zero. -/
theorem normalizeEffect_le_readOnly {v : Int}
    : Policy.normalizeEffect v ≤ Policy.readOnly ↔ v = 0 := by
  simp only [Policy.normalizeEffect, Policy.readOnly, Policy.destructive]
  split <;> omega

/-- The effect that a legacy body claims, before it is normalized. -/
def claimedEffect (std : StandardLibrary) (entries : List (PyStr × Json)) : Py Int :=
  match entries.lookup (.lit ['e', 'f', 'f', 'e', 'c', 't']) with
  | none => .ok Policy.readOnly
  | some value => std.intOf value

theorem legacyClaims_eq {entries : List (PyStr × Json)}
    : legacyClaims std entries = (do
        let effect ← claimedEffect std entries
        let channel ← claimedInt std entries (.lit ['c', 'h', 'a', 'n', 'n', 'e', 'l'])
        let kind ← claimedInt std entries (.lit ['k', 'i', 'n', 'd'])
        return (Policy.normalizeEffect effect, channel, kind)) := by
  unfold legacyClaims claimedEffect
  cases entries.lookup (.lit ['e', 'f', 'f', 'e', 'c', 't']) <;> rfl

/-- The path is open while its migration policy is mixed. -/
theorem notRetired_iff
    : ¬ (e.migrationPolicy.any fun policy => policy.state = .strict) = true
      ↔ ∀ policy ∈ e.migrationPolicy, policy.state = .mixed := by
  cases e.migrationPolicy with
  | none => simp
  | some policy => cases state : policy.state <;> simp [state]

/-- What an accepted legacy request is carried as: with no authority, below the bound and for
no consume-once kind.
-/
theorem carriedWithoutAuthority_of_ok {body correlation : Bytes} {method : PyStr}
    {result : MixedModeResult} (enabled : e.allowLegacy = true)
    (carried : e.handleLegacy std body correlation method = .ok result)
    : CarriedWithoutAuthority std e body result := by
  simp only [MixedModeEndpoint.handleLegacy, bind_eq_ok, pure_eq_ok, Except.ok.injEq,
    mapError_eq_ok, raiseIf_eq_ok, legacyClaims_eq, Carriage.carry] at carried
  obtain ⟨_, current, entries, loaded, _, ⟨asked, converted, channel, claimedChannel, kind,
    claimedKind, rfl⟩, _, ⟨_, -, rfl⟩, _, passed, headers, -, rfl⟩ := carried
  obtain ⟨harmless, unbound⟩ := refuseClaims_eq_ok.mp passed
  obtain rfl := normalizeEffect_le_readOnly.mp harmless
  refine {
    enabled
    current := ?_
    claims := ⟨entries, channel, kind, legacyPayload_eq_ok.mp loaded, ?_, claimedChannel,
      claimedKind, unbound⟩
    mode := rfl
    effect := ⟨rfl, rfl⟩
    carried := ⟨_, rfl, rfl⟩
  }
  · exact notRetired_iff.mp current
  · intro value present
    rw [claimedEffect, present] at converted
    exact converted

/-- Whatever request an endpoint accepts, a body that verifies is authorized as the strict object
that it is, and any other body is carried without authority on a legacy path that is open.
-/
theorem mixed_requests_gain_nothing (lib : SignatureLibrary) (std : StandardLibrary)
    (e : MixedModeEndpoint) (body correlation : Bytes) (method : PyStr) (result : MixedModeResult)
    (accepted : e.handle lib std body correlation method = .ok result)
    : (∀ obj, verify lib e.profile e.alg e.pubkey e.kindValidator body [] = .ok obj
        → AuthorizedStrictly e obj result)
      ∧ ((∀ obj, verify lib e.profile e.alg e.pubkey e.kindValidator body [] ≠ .ok obj)
        → CarriedWithoutAuthority std e body result) := by
  unfold MixedModeEndpoint.handle at accepted
  split at accepted
  · rename_i obj verified
    refine ⟨?_, fun unverified => (unverified obj verified).elim⟩
    intro other same
    obtain rfl := Except.ok.inj (verified.symm.trans same)
    exact authorizedStrictly_of_ok accepted
  · rename_i err refused
    refine ⟨fun obj verified => ?_, fun _ => ?_⟩
    · rw [refused] at verified
      cases verified
    · split at accepted
      · cases accepted
      · split at accepted
        · cases accepted
        · rename_i enabled
          exact carriedWithoutAuthority_of_ok (by simpa using enabled) accepted

def openEndpoint : MixedModeEndpoint := { sampleEndpoint with allowLegacy := true }

/-- The UTF-8 octets of an empty JSON object. -/
def emptyObjectBody : Bytes := [0x7B, 0x7D]

/-- What the JSON parser makes of them. -/
def emptyObjectJson : StandardLibrary := { noJson with loads _ := .ok (.dict []) }

theorem emptyObject_unverified
    : verify digestLibrary openEndpoint.profile openEndpoint.alg openEndpoint.pubkey
        openEndpoint.kindValidator emptyObjectBody []
            = .error (.nonCanonical "truncated head") := by
  have computed : parseSign1Raw emptyObjectBody = .error (.nonCanonical "truncated head") := by
    rfl
  rw [verify, raiseIf_neg (by decide), ok_bind, computed]
  rfl

/-- The endpoint that was opened to legacy bodies carries an empty claim. -/
theorem emptyObject_carried
    : ∃ result, openEndpoint.handle digestLibrary emptyObjectJson emptyObjectBody [] []
      = .ok result := by
  obtain ⟨text, decoded⟩ : ∃ text, PyStr.decode emptyObjectBody = .ok text := ⟨_, rfl⟩
  have loaded : legacyPayload emptyObjectJson emptyObjectBody = .ok [] := by
    rw [legacyPayload_eq_ok, decoded]
    rfl
  have handled : openEndpoint.handle digestLibrary emptyObjectJson emptyObjectBody [] []
      = openEndpoint.handleLegacy emptyObjectJson emptyObjectBody [] [] := by
    unfold MixedModeEndpoint.handle
    rw [emptyObject_unverified]
    rfl
  rw [handled, MixedModeEndpoint.handleLegacy, loaded]
  exact ⟨_, rfl⟩

/-- A strict object is authorized as such, the borrowed one among them; an empty JSON object is
carried without authority.
-/
theorem mixed_requests_gain_nothing_borrowed
    : (∃ data obj result, sign digestLibrary borrowed algMldsa65 [9] = .ok data
        ∧ sampleEndpoint.handle digestLibrary noJson data [] [] = .ok result
        ∧ AuthorizedStrictly sampleEndpoint obj result)
      ∧ ∃ result, openEndpoint.handle digestLibrary emptyObjectJson emptyObjectBody [] []
        = .ok result
        ∧ CarriedWithoutAuthority emptyObjectJson openEndpoint emptyObjectBody result := by
  constructor
  · obtain ⟨data, _, _, result, signed, handled, strict, -⟩ := borrowed_accepted noJson
    obtain ⟨obj, verified, -⟩ := handle_strict handled strict
    have gains :=
      mixed_requests_gain_nothing digestLibrary noJson sampleEndpoint data [] [] result handled
    exact ⟨data, obj, result, signed, handled, gains.1 obj verified⟩
  · obtain ⟨result, carried⟩ := emptyObject_carried
    have gains := mixed_requests_gain_nothing digestLibrary emptyObjectJson openEndpoint
      emptyObjectBody [] [] result carried
    refine ⟨result, carried, gains.2 ?_⟩
    intro obj verified
    cases emptyObject_unverified.symm.trans verified

-----------------------------------------------------------------------------------------
-- What the Go gate authorizes
-----------------------------------------------------------------------------------------

section Go

open Naalp.Go.MixedMode (Record ConsumeOnceKey Endpoint)

theorem goLookup_eq_some {channel kind : Int} {spec : Channels.KindSpec}
    : Go.Channels.lookup channel kind = some spec ↔ Channels.lookup channel kind = .ok spec := by
  unfold Go.Channels.lookup Channels.lookup
  cases Channels.table.lookup channel with
  | none => simp
  | some kinds => cases listed : kinds.find? fun spec => spec.code = kind <;> simp [listed]

/-- The Go registry check accepts the declared effects. -/
theorem goCheckEffect_eq_ok {channel kind effect : Int} {done : Unit}
    : Go.Channels.checkEffect channel kind effect = .ok done ↔ Declared channel kind effect := by
  unfold Go.Channels.checkEffect Declared
  simp only [← goLookup_eq_some]
  cases Go.Channels.lookup channel kind with
  | none => simp
  | some spec =>
      simp only [Option.some.injEq, exists_eq_left']
      split <;> simp [raiseIf_eq_ok, Policy.destructive]

/-- A strict object passes the gates that do not depend on the grant. -/
def Presentable (e : Endpoint) (obj : Go.Envelope.Object) : Prop :=
  Declared obj.channel obj.kind obj.effect ∧ obj.signer ≠ []
  ∧ e.checkConsumeOnce ⟨obj.channel, obj.kind⟩ obj.audience = .ok ()

theorem authorize_strict_eq_ok {e : Endpoint} {obj : Go.Envelope.Object} {grant : Go.Policy.Grant}
    {requested : Go.Policy.Effect} {target : Option ConsumeOnceKey} {done : Unit}
    : e.authorize (.strict obj) grant requested target = .ok done
      ↔ Presentable e obj ∧ obj.signer = grant.principal
        ∧ Go.Policy.normalizeEffect requested.toNat ≤ grant.maxEffect := by
  simp only [Endpoint.authorize, bind_eq_ok, goCheckEffect_eq_ok,
    Go.Policy.Grant.authorizeObject_eq_ok, exists_const, Presentable, Go.MixedMode.presentedBy,
      true_and]
  tauto

/-- A legacy request is authorized for reading only, and for no consume-once kind. -/
theorem authorize_legacy_eq_ok {e : Endpoint} {carriage : Go.Carriage.CarriageBody}
    {grant : Go.Policy.Grant} {requested : Go.Policy.Effect} {target : Option ConsumeOnceKey}
    {done : Unit}
    (authorized : e.authorize (.legacy carriage) grant requested target = .ok done)
    : requested = Go.Policy.readOnly ∧ ∀ key, target = some key
      → e.consumeOnceKinds key = false := by
  simp only [Endpoint.authorize, bind_eq_ok, raiseIf_eq_ok, exists_const] at authorized
  obtain ⟨harmless, bound⟩ := authorized
  refine ⟨UInt8.le_antisymm (UInt8.not_lt.mp harmless) (UInt8.zero_le), ?_⟩
  rintro key rfl
  by_contra consumeOnce
  rw [Bool.not_eq_false] at consumeOnce
  simp [Endpoint.checkConsumeOnce, consumeOnce, Go.Envelope.checkAudience, raiseIf] at bound

/-- A strict record is authorized as its signed effect allows, by the declaration and the lattice
that the Python endpoint applies; a legacy one for reading, and for no consume-once kind.
-/
def AuthorizedAsSigned (e : Endpoint) (grant : Go.Policy.Grant) (requested : Go.Policy.Effect)
    (target : Option ConsumeOnceKey) : Record → Prop
  | .strict obj => Channels.checkEffect obj.channel obj.kind obj.effect = .ok ()
      ∧ Policy.authorizes grant.maxEffect.toNat obj.effect = true
  | .legacy _ => requested = Go.Policy.readOnly
      ∧ ∀ key, target = some key → e.consumeOnceKinds key = false

theorem normalizeEffect_le (requested : Go.Policy.Effect)
    : Go.Policy.normalizeEffect requested.toNat ≤ requested := by
  unfold Go.Policy.normalizeEffect
  split
  · simp
  · rename_i above
    rw [UInt8.le_iff_toNat_le]
    exact Int.ofNat_le.mp (not_le.mp above).le

/-- Both numbers of the closed set, so a normalized request is at least what the request is. -/
theorem le_goNormalizeEffect {effect : Int} {requested : Go.Policy.Effect}
    (known : effect ≤ Policy.destructive) (within : effect ≤ requested.toNat)
    : effect ≤ (Go.Policy.normalizeEffect requested.toNat).toNat := by
  unfold Go.Policy.normalizeEffect
  split
  · simpa using within
  · exact known

/-- Whatever a record is authorized for under any grant is what the object says, exactly when the
requested effect is not below that of a strict object that some grant can authorize.
-/
theorem go_gate_authorizes_signed_iff (e : Endpoint) (record : Record)
    (requested : Go.Policy.Effect)
    : (∀ grant target, e.authorize record grant requested target = .ok ()
        → AuthorizedAsSigned e grant requested target record)
      ↔ ∀ obj, record = .strict obj → Presentable e obj → obj.effect ≤ requested.toNat := by
  constructor
  · rintro signed obj rfl presentable
    have grant := signed ⟨obj.signer, Go.Policy.normalizeEffect requested.toNat⟩ none
      (authorize_strict_eq_ok.mpr ⟨presentable, rfl, UInt8.le_refl _⟩)
    have least : obj.effect ≤ (Go.Policy.normalizeEffect requested.toNat).toNat := by
      simpa [Policy.authorizes] using grant.2
    have below := UInt8.le_iff_toNat_le.mp (normalizeEffect_le requested)
    omega
  · intro within grant target authorized
    cases record with
    | legacy carriage => exact authorize_legacy_eq_ok authorized
    | strict obj =>
        obtain ⟨presentable, -, ceiling⟩ := authorize_strict_eq_ok.mp authorized
        have known := presentable.1.le_destructive
        have least := le_goNormalizeEffect known (within obj rfl presentable)
        have below := UInt8.le_iff_toNat_le.mp ceiling
        refine ⟨checkEffect_eq_ok.mpr presentable.1, ?_⟩
        rw [Policy.authorizes, decide_eq_true_eq]
        omega

/-- The borrowed object, which writes, is authorized for reading under a grant to read. -/
theorem writing_object_authorized_to_read
    : ∃ data goObj, sign digestLibrary borrowed algMldsa65 [9] = .ok data
      ∧ goSampleEndpoint.handle Go.Cose.digestLibrary data = .ok (.strict goObj)
      ∧ goSampleEndpoint.authorize (.strict goObj) ⟨otherKey, Go.Policy.readOnly⟩ 0 none = .ok ()
      ∧ ¬ AuthorizedAsSigned goSampleEndpoint ⟨otherKey, Go.Policy.readOnly⟩ 0 none
        (.strict goObj) := by
  obtain ⟨data, obj, goObj, result, signed, -, -, -, -, goHandled, goSigner, goAuthorized, -, -,
    goEffect⟩ := borrowed_accepted noJson
  have presentable := (authorize_strict_eq_ok.mp goAuthorized).1
  refine ⟨data, goObj, signed, goHandled, ?_, ?_⟩
  · exact authorize_strict_eq_ok.mpr ⟨presentable, goSigner, UInt8.le_refl _⟩
  · rintro ⟨-, within⟩
    rw [goEffect] at within
    revert within
    decide

end Go

end Naalp.Authorization
