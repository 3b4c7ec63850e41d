import Naalp.Authorization.MixedRequests
import Naalp.CanonicalEncoding.Rejections
import Naalp.Envelope.Fidelity
import Naalp.Signatures.HeaderCoverage

/-! How a mixed-mode endpoint refuses a request: by an error of a stable kind, but for an infinite
number among the claims of a legacy body.
-/

namespace Naalp.Authorization

open Naalp.Foundation
open Naalp.Python
open Naalp.Python.Cbor
open Naalp.Python.Cose
open Naalp.Python.Envelope
open Naalp.Python.MixedMode
open Naalp.Python.MixedMode.MixedModeEndpoint
  (surrogate claimedInt legacyPayload legacyClaims claimError)

variable {lib : SignatureLibrary} {std : StandardLibrary} {e : MixedModeEndpoint}

-----------------------------------------------------------------------------------------
-- The claims of a legacy body
-----------------------------------------------------------------------------------------

/-- An error of the endpoint itself, of the policy, the envelope or the channels. -/
def RefusedByName : Exc → Prop
  | .mixedModeError _ _ | .policyError _ _ | .envelopeError _ _ | .channelsError _ _ => True
  | _ => False

theorem RefusedByName.isValueError {err : Exc} (named : RefusedByName err)
    : err.isValueError = true := by
  cases err <;> trivial

def isInfinite : Option Json → Bool
  | some (.float (.infinite _)) => true
  | _ => false

/-- Whether `int` converts the claim, which need not be there. -/
def converts (std : StandardLibrary) : Option Json → Bool
  | none => true
  | some value => (std.intOf value).isOk

/-- Of the claims in the order in which they are converted, none up to the first that fails is
infinite.
-/
def FiniteUntilFailure (std : StandardLibrary) : List (Option Json) → Prop
  | [] => True
  | claim :: rest => isInfinite claim = false
      ∧ (converts std claim = true → FiniteUntilFailure std rest)

/-- A null channel or kind counts as none. -/
def nonNull : Option Json → Option Json
  | some .null => none
  | claim => claim

def claimsOf (entries : List (PyStr × Json)) : List (Option Json) :=
  [entries.lookup (.lit ['e', 'f', 'f', 'e', 'c', 't']),
    nonNull (entries.lookup (.lit ['c', 'h', 'a', 'n', 'n', 'e', 'l'])),
    nonNull (entries.lookup (.lit ['k', 'i', 'n', 'd']))]

/-- The errors of the conversions that are raised again as malformed bodies. -/
def Caught (err : Exc) : Prop := err = .typeError ∨ err.isValueError = true

/-- The conversion of a claim. -/
def convertClaim {α : Type} (std : StandardLibrary) (absent : α) (found : Int → α)
    : Option Json → Py α
  | none => .ok absent
  | some value => std.intOf value >>= fun n => .ok (found n)

theorem claimedEffect_eq {entries : List (PyStr × Json)}
    : claimedEffect std entries
      = convertClaim std Policy.readOnly id
        (entries.lookup (.lit ['e', 'f', 'f', 'e', 'c', 't'])) := by
  unfold claimedEffect convertClaim
  cases entries.lookup (.lit ['e', 'f', 'f', 'e', 'c', 't']) with
  | none => rfl
  | some value => exact (bind_pure (std.intOf value)).symm

theorem claimedInt_eq {entries : List (PyStr × Json)} {key : PyStr}
    : claimedInt std entries key = convertClaim std none some (nonNull (entries.lookup key)) := by
  unfold claimedInt nonNull
  rcases entries.lookup key with _ | _ | _ <;> rfl

theorem convertClaim_ok_iff {α : Type} {absent : α} {found : Int → α} {claim : Option Json}
    : (∃ v, convertClaim std absent found claim = .ok v) ↔ converts std claim = true := by
  cases claim with
  | none => simp [convertClaim, converts]
  | some value =>
      cases converted : std.intOf value <;>
        simp [convertClaim, converts, converted, Except.isOk, Except.toBool]

/-- What follows a conversion is reached exactly when it converts. -/
theorem after_convertClaim_iff {α : Type} {absent : α} {found : Int → α} {claim : Option Json}
    {later : Prop}
    : (∀ v, convertClaim std absent found claim = .ok v → later)
      ↔ (converts std claim = true → later) := by
  rw [← @convertClaim_ok_iff _ _ absent found, exists_imp]

section Conversions

variable (parsing : ∀ s err, std.intOfStr s = .error err → err.isValueError = true)

include parsing

/-- Only an infinite number is converted with an error that is not caught. -/
theorem convertClaim_failsOnly_iff {α : Type} {absent : α} {found : Int → α} {claim : Option Json}
    : FailsOnly Caught (convertClaim std absent found claim) ↔ isInfinite claim = false := by
  have returned {β : Type} (v : β) : FailsOnly Caught (.ok v : Py β) := failsOnly_pure v
  rcases claim with _ | _ | b | n | ⟨_ | _ | _⟩ | s | items | entries
  case some.float.infinite =>
    simp [FailsOnly, convertClaim, StandardLibrary.intOf, isInfinite, Caught, Exc.isValueError]
  case some.str =>
    simp only [convertClaim, isInfinite, iff_true]
    exact FailsOnly.bind (fun err failed => .inr (parsing s err failed)) fun _ => returned _
  all_goals
    simp [FailsOnly, convertClaim, StandardLibrary.intOf, isInfinite, Caught, Exc.isValueError]

theorem legacyClaims_failsOnly_iff {entries : List (PyStr × Json)}
    : FailsOnly Caught (legacyClaims std entries) ↔ FiniteUntilFailure std (claimsOf entries) := by
  have returned {β : Type} (v : β) : FailsOnly Caught (.ok v : Py β) := failsOnly_pure v
  rw [legacyClaims_eq]
  simp only [failsOnly_bind_iff, pure_eq_ok, claimedEffect_eq, claimedInt_eq,
    convertClaim_failsOnly_iff parsing, returned, implies_true, and_true, claimsOf,
    FiniteUntilFailure, after_convertClaim_iff]

end Conversions

/-- Malformed claims are raised again by name, and nothing else becomes a named error. -/
theorem failsOnly_claimError_iff {α : Type} {claims : Py α}
    : FailsOnly RefusedByName (claims.mapError (claimError std)) ↔ FailsOnly Caught claims := by
  cases claims with
  | ok value => exact iff_of_true failsOnly_ok failsOnly_ok
  | error err =>
      have raised : RefusedByName (claimError std err) ↔ Caught err := by
        unfold claimError Caught
        split
        case isTrue caught => exact iff_of_true trivial caught
        case isFalse escapes =>
          exact iff_of_false (fun named => escapes (.inr named.isValueError)) escapes
      simpa [FailsOnly, Except.mapError] using raised

/-- The registry check refuses by name. -/
theorem failsOnly_checkEffect {channel kind effect : Int}
    : FailsOnly RefusedByName (Channels.checkEffect channel kind effect) := by
  have looked : FailsOnly RefusedByName (Channels.lookup channel kind) := by
    unfold Channels.lookup
    split
    · split
      · exact failsOnly_ok
      · exact failsOnly_throw trivial
    · exact failsOnly_throw trivial
  apply looked.bind
  intro spec
  split <;> exact failsOnly_raiseIf trivial

theorem failsOnly_authorizeObject {grant : Policy.Grant} {src : Policy.PrincipalSource}
    {presented : PyStr} {effect : Int}
    : FailsOnly RefusedByName (grant.authorizeObject src presented effect) := by
  have resolved : FailsOnly RefusedByName (Policy.resolveAuthPrincipal src presented) :=
    (failsOnly_raiseIf trivial).bind fun _ => failsOnly_ok
  apply resolved.bind
  intro who
  exact (failsOnly_raiseIf trivial).bind fun _ => failsOnly_raiseIf trivial

theorem failsOnly_checkConsumeOnce {obj : Object}
    : FailsOnly RefusedByName (e.checkConsumeOnce obj) := by
  unfold MixedModeEndpoint.checkConsumeOnce checkAudience
  split
  · split <;> exact failsOnly_raiseIf trivial
  · exact failsOnly_ok

/-- Claims that are above the bound or of a consume-once kind are refused by name. -/
theorem failsOnly_refuseClaims {claims : Int × Option Int × Option Int}
    : FailsOnly RefusedByName (e.refuseClaims claims) := by
  obtain ⟨effect, channel, kind⟩ := claims
  have resolved : FailsOnly RefusedByName (Policy.resolveAuthPrincipal .foreignHeader []) :=
    (failsOnly_raiseIf trivial).bind fun _ => failsOnly_ok
  simp only [MixedModeEndpoint.refuseClaims]
  split
  · refine resolved.bind fun _ => ?_
    split
    · exact failsOnly_checkConsumeOnce
    · exact failsOnly_ok
  · split
    · exact failsOnly_checkConsumeOnce
    · exact failsOnly_ok

-----------------------------------------------------------------------------------------
-- What verification raises
-----------------------------------------------------------------------------------------

def IsValueError (err : Exc) : Prop := err.isValueError = true

theorem failsOnly_raises {guard : Prop} [Decidable guard] {err : Exc}
    (value : err.isValueError = true)
    : FailsOnly IsValueError (raiseIf guard err) :=
  failsOnly_raiseIf value

/-- The stages of `verify` before the signature, which need no library: the alg of the header, the
object, and the octets that are checked with the signature.
-/
def beforeSignature (kindValidator : Option (Int → Int → Bool)) (objBytes : Bytes)
    (knownCext : List Int) : Py (Int × Object × Bytes × Bytes) := do
  raiseIf (objBytes.length > maxObjectSize)
    (.envelopeError .tooLarge "object exceeds the maximum octet size (§3.4, R7)")
  let (prot, payload, sig) ← parseSign1Raw objBytes
  let .m pairs ← decodeBounded payload maxNestingDepth
    | throw (.envelopeError .malformed "body not a map")
  checkContentId pairs
  let o ← objectFromMap pairs
  raiseIf (isRotationObject o.channel o.kind) (.envelopeError .rotationUnauthorized
    "single-signature rotation missing the old-key co-signature")
  checkRanges o
  let halg ← checkHeader prot o
  checkCext knownCext o.cext
  raiseIf (kindAccepted kindValidator o = false)
    (.envelopeError .unknownKind "kind/channel not a registered surface")
  let tbs ← toBeSignedRaw prot payload
  return (halg, o, tbs, sig)

theorem verify_eq {profile alg : Int} {pubkey objBytes : Bytes}
    {kindValidator : Option (Int → Int → Bool)} {knownCext : List Int}
    : verify lib profile alg pubkey kindValidator objBytes knownCext = (do
        let (halg, o, tbs, sig) ← beforeSignature kindValidator objBytes knownCext
        checkSignature lib profile pubkey halg o tbs sig
        return o) := by
  simp only [verify, beforeSignature, bind_assoc]
  refine bind_congr fun _ => bind_congr fun parts => bind_congr fun v => ?_
  cases v with
  | m pairs => simp only [bind_assoc, pure_bind]
  | _ => rfl

/-- The decoder raises errors of its own class and for ill-formed text, all of them value errors. -/
theorem failsOnly_decodes {data : Bytes} {levels : Nat}
    : FailsOnly IsValueError (decodeBounded data levels) := by
  intro err failed
  by_cases foreign : Foreign err
  · rcases ((decodeBounded_eq_error foreign).mp failed).two_exceptions with rfl | rfl <;> rfl
  · simp only [Foreign, not_forall, not_not] at foreign
    obtain ⟨msg, rfl⟩ := foreign
    rfl

/-- Octets that are no signed object are refused by a value error. -/
theorem failsOnly_parses {data : Bytes} : FailsOnly IsValueError (parseSign1Raw data) := by
  unfold parseSign1Raw
  refine failsOnly_decodes.bind fun v => ?_
  split
  · refine FailsOnly.bind (failsOnly_raises rfl) fun _ => ?_
    split
    · exact failsOnly_pure _
    · exact failsOnly_throw rfl
  · exact failsOnly_throw rfl

theorem failsOnly_splitId {pairs : List (Value × Value)}
    : FailsOnly IsValueError (splitId pairs) := by
  fun_induction splitId pairs with
  | case1 => exact failsOnly_pure _
  | case2 id rest ih => exact ih.bind fun _ => failsOnly_pure _
  | case3 => exact failsOnly_throw rfl
  | case4 pair rest _ _ ih => exact ih.bind fun _ => failsOnly_pure _

/-- What was decoded can be encoded again, without its id too. -/
theorem failsOnly_checkContentId {data : Bytes} {levels : Nat} {pairs : List (Value × Value)}
    (decoded : decodeBounded data levels = .ok (.m pairs))
    : FailsOnly IsValueError (checkContentId pairs) := by
  refine failsOnly_bind_iff.mpr ⟨failsOnly_splitId, ?_⟩
  rintro ⟨claimed, without⟩ split
  cases claimed with
  | none => exact failsOnly_throw rfl
  | some claimed =>
      have kept := sublist_of_splitId split
      obtain ⟨few, members, distinct⟩ :=
        encodable_m.mp (decodeBounded_eq_ok.mp decoded).1.encodable
      have encodable : Encodable (.m without) := encodable_m.mpr
        ⟨kept.length_le.trans_lt few, fun pair inside => members pair (kept.subset inside),
          distinct.sublist (kept.map encodedKey)⟩
      obtain ⟨octets, encoded⟩ := encodable_iff.mp encodable
      refine FailsOnly.bind ?_ fun _ => failsOnly_raises rfl
      rw [Cbor.contentId, encoded, ok_bind]
      exact failsOnly_ok

section Fields

variable {fields : List (Value × Value)} {fnum : Int}

theorem failsOnly_checkKeys : FailsOnly IsValueError (checkKeys fields) := by
  fun_induction checkKeys fields with
  | case1 => exact failsOnly_pure _
  | case2 _ _ _ ih => exact ih
  | case3 => exact failsOnly_throw rfl

theorem failsOnly_needU : FailsOnly IsValueError (needU fields fnum) := by
  unfold needU
  split
  · exact failsOnly_pure _
  · exact failsOnly_throw rfl

theorem failsOnly_needB : FailsOnly IsValueError (needB fields fnum) := by
  unfold needB
  split
  · exact failsOnly_pure _
  · exact failsOnly_throw rfl

theorem failsOnly_needA : FailsOnly IsValueError (needA fields fnum) := by
  unfold needA
  split
  · exact failsOnly_pure _
  · exact failsOnly_throw rfl

theorem failsOnly_needAny : FailsOnly IsValueError (needAny fields fnum) := by
  unfold needAny
  split
  · exact failsOnly_pure _
  · exact failsOnly_throw rfl

theorem failsOnly_extensionMap {bound : Nat} {notMap : String}
    : FailsOnly IsValueError (extensionMap fields fnum bound notMap) := by
  unfold extensionMap
  split
  · exact failsOnly_pure _
  · exact FailsOnly.bind (failsOnly_raises rfl) fun _ => failsOnly_pure _
  · exact failsOnly_throw rfl

theorem failsOnly_audienceOf : FailsOnly IsValueError (audienceOf fields) := by
  unfold audienceOf
  split
  · exact failsOnly_pure _
  · exact failsOnly_pure _
  · exact failsOnly_throw rfl

theorem failsOnly_suiteOf : FailsOnly IsValueError (suiteOf fields) := by
  unfold suiteOf
  split
  · exact failsOnly_pure _
  · exact failsOnly_pure _
  · exact failsOnly_throw rfl

theorem failsOnly_causesOf {items : List Value} : FailsOnly IsValueError (causesOf items) := by
  fun_induction causesOf items with
  | case1 => exact failsOnly_pure _
  | case2 _ _ ih => exact ih.bind fun _ => failsOnly_pure _
  | case3 => exact failsOnly_throw rfl

/-- A map that is no object is refused by a value error. -/
theorem failsOnly_objectFromMap : FailsOnly IsValueError (objectFromMap fields) := by
  refine FailsOnly.bind failsOnly_checkKeys fun _ => failsOnly_needB.bind fun _ => ?_
  refine FailsOnly.bind failsOnly_needA fun _ => FailsOnly.bind (failsOnly_raises rfl) fun _ => ?_
  refine FailsOnly.bind failsOnly_causesOf fun _ => failsOnly_extensionMap.bind fun _ => ?_
  refine FailsOnly.bind failsOnly_extensionMap fun _ => failsOnly_audienceOf.bind fun _ => ?_
  refine FailsOnly.bind failsOnly_suiteOf fun _ => failsOnly_needU.bind fun _ => ?_
  refine FailsOnly.bind failsOnly_needU fun _ => failsOnly_needU.bind fun _ => ?_
  refine FailsOnly.bind failsOnly_needU fun _ => failsOnly_needAny.bind fun _ => ?_
  exact FailsOnly.bind failsOnly_needU fun _ => failsOnly_needU.bind fun _ => failsOnly_pure _

end Fields

/-- A header that disagrees with the body is refused by a value error. -/
theorem failsOnly_checkHeader {prot : Bytes} {o : Object}
    : FailsOnly IsValueError (checkHeader prot o) := by
  have parses : FailsOnly IsValueError (parseProtected prot) := by
    unfold parseProtected
    refine FailsOnly.bind (failsOnly_raises rfl) fun _ => failsOnly_decodes.bind fun v => ?_
    split
    · split
      · exact failsOnly_pure _
      · exact failsOnly_throw rfl
    · exact failsOnly_throw rfl
  refine parses.bind fun _ => FailsOnly.bind (failsOnly_raises rfl) fun _ => ?_
  exact FailsOnly.bind (failsOnly_raises rfl) fun _ => failsOnly_pure _

/-- An unknown critical extension is refused by a value error. -/
theorem failsOnly_checkCext {knownCext : List Int} {cext : Option (List (Value × Value))}
    : FailsOnly IsValueError (checkCext knownCext cext) := by
  refine failsOnly_forM fun entry => ?_
  unfold checkCextEntry
  split
  · split
    · split
      · exact failsOnly_raises rfl
      · exact failsOnly_throw rfl
    · exact failsOnly_raises rfl
  · exact failsOnly_throw rfl

/-- All that comes before the signature check refuses by value errors.
Witness: the checks one after the other; the values that they pass on come from the decoder.
-/
theorem failsOnly_beforeSignature {kindValidator : Option (Int → Int → Bool)} {objBytes : Bytes}
    {knownCext : List Int}
    : FailsOnly IsValueError (beforeSignature kindValidator objBytes knownCext) := by
  refine FailsOnly.bind (failsOnly_raises rfl) fun _ =>
    failsOnly_bind_iff.mpr ⟨failsOnly_parses, ?_⟩
  rintro ⟨prot, payload, sig⟩ parsed
  refine failsOnly_bind_iff.mpr ⟨failsOnly_decodes, fun v decoded => ?_⟩
  cases v with
  | m pairs =>
      obtain ⟨unprotected, whole⟩ := Signatures.parseSign1Raw_eq_ok.mp parsed
      have short := Signatures.encodable_of_decoded whole
      obtain ⟨tbs, signed⟩ := toBeSignedRaw_ok (encodable_b.mp (short (.b prot) (by simp)))
        (encodable_b.mp (short (.b payload) (by simp)))
      refine (failsOnly_checkContentId decoded).bind fun _ =>
        failsOnly_objectFromMap.bind fun o => ?_
      refine FailsOnly.bind (failsOnly_raises rfl) fun _ => ?_
      refine FailsOnly.bind (failsOnly_raises rfl) fun _ => ?_
      refine failsOnly_checkHeader.bind fun halg => failsOnly_checkCext.bind fun _ => ?_
      refine FailsOnly.bind (failsOnly_raises rfl) fun _ => ?_
      rw [signed]
      exact failsOnly_ok
  | _ => exact failsOnly_throw rfl

/-- Verification raises value errors only, exactly when the signature check does on what the object
gives it: everything before that is refused by a value error.
-/
theorem verify_failsOnly_iff {profile : Int} (alg : Int) {pubkey objBytes : Bytes}
    {kindValidator : Option (Int → Int → Bool)} {knownCext : List Int}
    : FailsOnly IsValueError (verify lib profile alg pubkey kindValidator objBytes knownCext)
      ↔ ∀ halg o tbs sig, beforeSignature kindValidator objBytes knownCext = .ok (halg, o, tbs, sig)
        → FailsOnly IsValueError (checkSignature lib profile pubkey halg o tbs sig) := by
  rw [verify_eq, failsOnly_bind_iff, and_iff_right failsOnly_beforeSignature]
  simp only [Prod.forall, failsOnly_bind_iff, pure_eq_ok, failsOnly_ok, implies_true, and_true]

-----------------------------------------------------------------------------------------
-- Every refusal by name
-----------------------------------------------------------------------------------------

/-- The gates of a strict object. -/
def PassesGates (e : MixedModeEndpoint) (obj : Object) : Prop :=
  Channels.checkEffect obj.channel obj.kind obj.effect = .ok ()
  ∧ ∃ grant, e.grants.lookup (principalOf obj) = some grant
    ∧ grant.authorizeObject .signature (principalOf obj) obj.effect = .ok ()
    ∧ e.checkConsumeOnce obj = .ok ()

/-- A strict request that does not pass the gates is refused by name; one that does depends on
whether its announcement can be written.
-/
theorem authorizeStrict_failsOnly_iff {obj : Object}
    : FailsOnly RefusedByName (e.authorizeStrict std obj)
      ↔ (PassesGates e obj → FailsOnly RefusedByName (e.headers std)) := by
  rw [MixedModeEndpoint.authorizeStrict, failsOnly_bind_iff]
  cases found : e.grants.lookup (principalOf obj) with
  | none =>
      refine iff_of_true ⟨failsOnly_checkEffect, fun _ _ => failsOnly_throw trivial⟩ ?_
      rintro ⟨-, grant, present, -⟩
      rw [found] at present
      cases present
  | some grant =>
      simp only [failsOnly_bind_iff, pure_eq_ok, failsOnly_checkEffect, failsOnly_authorizeObject,
        failsOnly_checkConsumeOnce, failsOnly_ok, true_and, implies_true, and_true, PassesGates,
        found, Option.some.injEq, exists_eq_left', and_imp]
      exact ⟨fun passed declared granted bound => passed () declared () granted () bound,
        fun passed _ declared _ granted _ bound => passed declared granted bound⟩

/-- What the JSON parser may raise on a text that the endpoint refuses by name. -/
def MalformedText (err : Exc) : Prop :=
  (∃ msg, err = .jsonDecodeError msg) ∨ err = .unicodeDecodeError ∨ RefusedByName err

/-- The legacy path names its refusal of a body: the parser fails with its own error, no claim that
is reached is infinite, and the announcement of a body that is carried can be written.
-/
structure LegacyNamed (std : StandardLibrary) (e : MixedModeEndpoint) (body : Bytes) : Prop where
  parsed : ∀ text, PyStr.decode body = .ok text → FailsOnly MalformedText (std.loads text)
  finite : ∀ entries, (PyStr.decode body >>= std.loads) = .ok (.dict entries)
    → FiniteUntilFailure std (claimsOf entries)
  announced : ∀ entries claims, (PyStr.decode body >>= std.loads) = .ok (.dict entries)
    → legacyClaims std entries = .ok claims → e.refuseClaims claims = .ok ()
    → FailsOnly RefusedByName (e.headers std)

/-- The library answers a signature check that the object reaches, or refuses it by a value error;
the announcement with an object that passes the gates can be written; and the legacy path names its
refusals when it is taken.
-/
structure RefusalsNamed (lib : SignatureLibrary) (std : StandardLibrary) (e : MixedModeEndpoint)
    (body : Bytes) : Prop where
  verifying : ∀ halg o tbs sig, beforeSignature e.kindValidator body [] = .ok (halg, o, tbs, sig)
    → FailsOnly IsValueError (checkSignature lib e.profile e.pubkey halg o tbs sig)
  strict : ∀ obj, verify lib e.profile e.alg e.pubkey e.kindValidator body [] = .ok obj
    → PassesGates e obj → FailsOnly RefusedByName (e.headers std)
  legacy : (∀ obj, verify lib e.profile e.alg e.pubkey e.kindValidator body [] ≠ .ok obj)
    → e.allowLegacy = true → (∀ policy ∈ e.migrationPolicy, policy.state = .mixed)
    → LegacyNamed std e body

/-- A legacy body is refused by name exactly when the JSON parser fails on its text with its
own error only.
Witness: the decoding of the text raises a value error only; what is left is the parser.
-/
theorem legacyPayload_failsOnly_iff {body : Bytes}
    : FailsOnly RefusedByName (legacyPayload std body)
      ↔ ∀ text, PyStr.decode body = .ok text → FailsOnly MalformedText (std.loads text) := by
  unfold legacyPayload
  cases decoded : PyStr.decode body with
  | error err =>
      have invalid : err = .unicodeDecodeError := by
        unfold PyStr.decode at decoded
        split at decoded
        · cases decoded
        · exact (Except.error.inj decoded).symm
      obtain rfl := invalid
      exact iff_of_true (failsOnly_throw trivial) nofun
  | ok text =>
      simp only [ok_bind, Except.ok.injEq, forall_eq']
      cases loaded : std.loads text with
      | ok value =>
          cases value <;> exact iff_of_true (by simp [FailsOnly, RefusedByName]) failsOnly_ok
      | error err =>
          cases err with
          | jsonDecodeError msg =>
              exact iff_of_true (failsOnly_throw trivial) (failsOnly_throw (.inl ⟨msg, rfl⟩))
          | unicodeDecodeError =>
              exact iff_of_true (failsOnly_throw trivial) (failsOnly_throw (.inr (.inl rfl)))
          | _ => simp [FailsOnly, MalformedText, RefusedByName]

/-- A body is always carried, and verbatim. -/
theorem carry_http {protocolId : Int} {correlation foreign : Bytes} {method : PyStr}
    : Carriage.carry protocolId Carriage.classHttp 0 correlation method foreign
      = .ok ⟨protocolId, Carriage.classHttp, 0, correlation, method, foreign⟩ :=
  rfl

/-- The legacy path refuses by name exactly under its condition, once the migration policy lets
it be taken.
-/
theorem handleLegacy_failsOnly_iff
    (parsing : ∀ s err, std.intOfStr s = .error err → err.isValueError = true)
    {body correlation : Bytes} {method : PyStr}
    : FailsOnly RefusedByName (e.handleLegacy std body correlation method)
      ↔ ((∀ policy ∈ e.migrationPolicy, policy.state = .mixed) → LegacyNamed std e body) := by
  rw [MixedModeEndpoint.handleLegacy, failsOnly_bind_iff]
  refine (and_iff_right (failsOnly_raiseIf trivial)).trans ?_
  simp only [raiseIf_eq_ok, notRetired_iff, forall_const]
  apply imp_congr_right
  intro _
  simp only [failsOnly_bind_iff, legacyPayload_failsOnly_iff, legacyPayload_eq_ok,
    failsOnly_claimError_iff, mapError_eq_ok, legacyClaims_failsOnly_iff parsing, carry_http,
    ok_bind, failsOnly_refuseClaims, pure_eq_ok, failsOnly_ok, implies_true, and_true, true_and]
  constructor
  · intro named
    exact ⟨named.1, fun entries loaded => (named.2 entries loaded).1,
      fun entries claims loaded claimed passed =>
        (named.2 entries loaded).2 claims claimed () passed⟩
  · intro named
    exact ⟨named.parsed, fun entries loaded => ⟨named.finite entries loaded,
      fun claims claimed _ passed => named.announced entries claims loaded claimed passed⟩⟩

/-- An endpoint ends a request with a result or a named refusal exactly when the library raises
value errors only in the signature check that it is asked for, the legacy parser fails with its own
error, no claim of a legacy body that is reached is an infinite number, and the announcement of an
accepted request can be written.
Witness: cases on the verification, as the endpoint makes them: an object that passes goes the
strict path, a value error leads to the legacy one, and any other exception escapes.
-/
theorem refusals_named_iff (lib : SignatureLibrary) (std : StandardLibrary)
    (parsing : ∀ s err, std.intOfStr s = .error err → err.isValueError = true)
    (e : MixedModeEndpoint) (body correlation : Bytes) (method : PyStr)
    : FailsOnly RefusedByName (e.handle lib std body correlation method)
      ↔ RefusalsNamed lib std e body := by
  unfold MixedModeEndpoint.handle
  split
  · rename_i obj verified
    refine authorizeStrict_failsOnly_iff.trans ?_
    constructor
    · intro announced
      refine ⟨(verify_failsOnly_iff e.alg).mp ?_, ?_, fun unverified =>
        (unverified obj verified).elim⟩
      · intro err refused
        cases verified.symm.trans refused
      · intro other same
        obtain rfl := Except.ok.inj (verified.symm.trans same)
        exact announced
    · intro named
      exact named.strict obj verified
  · rename_i err refused
    have unverified
        : ∀ obj, verify lib e.profile e.alg e.pubkey e.kindValidator body [] ≠ .ok obj := by
      intro obj same
      cases refused.symm.trans same
    have named_iff : RefusalsNamed lib std e body ↔ err.isValueError = true
        ∧ (e.allowLegacy = true → (∀ policy ∈ e.migrationPolicy, policy.state = .mixed)
          → LegacyNamed std e body) := by
      constructor
      · intro named
        exact ⟨(verify_failsOnly_iff e.alg).mpr named.verifying err refused,
          named.legacy unverified⟩
      · intro named
        refine ⟨(verify_failsOnly_iff e.alg).mp ?_, fun obj same => (unverified obj same).elim,
          fun _ => named.2⟩
        intro other same
        obtain rfl := Except.error.inj (refused.symm.trans same)
        exact named.1
    rw [named_iff]
    split
    · rename_i escapes
      refine iff_of_false ?_ ?_
      · intro named
        have raised := (named err rfl).isValueError
        rw [escapes] at raised
        cases raised
      · intro named
        rw [escapes] at named
        cases named.1
    · rename_i caught
      rw [Bool.not_eq_false] at caught
      split
      · rename_i disabled
        refine iff_of_true (failsOnly_throw trivial) ⟨caught, ?_⟩
        intro enabled
        rw [disabled] at enabled
        cases enabled
      · rename_i enabled
        rw [Bool.not_eq_false] at enabled
        simp only [handleLegacy_failsOnly_iff parsing, caught, enabled, true_and, forall_const]

/-- The UTF-8 octets of a JSON object with the one member `"effect"`, the number `1e999`. -/
def infiniteBody : Bytes :=
  [0x7B, 0x22, 0x65, 0x66, 0x66, 0x65, 0x63, 0x74, 0x22, 0x3A, 0x31, 0x65, 0x39, 0x39, 0x39, 0x7D]

/-- What the JSON parser makes of it: the number is too large for a float, so it is infinite. -/
def infiniteJson : StandardLibrary :=
  { noJson with
    loads _ := .ok (.dict [(.lit ['e', 'f', 'f', 'e', 'c', 't'], .float (.infinite false))]) }

theorem infiniteBody_unverified
    : ∃ err, verify digestLibrary sampleEndpoint.profile sampleEndpoint.alg sampleEndpoint.pubkey
        sampleEndpoint.kindValidator infiniteBody [] = .error err ∧ err.isValueError = true := by
  have computed : parseSign1Raw infiniteBody = .error (.nonCanonical "truncated text string") := by
    rfl
  refine ⟨.nonCanonical "truncated text string", ?_, rfl⟩
  rw [verify, raiseIf_neg (by decide), ok_bind, computed]
  rfl

/-- The strict endpoint refuses the body by name. -/
theorem refusals_named_infinite
    : FailsOnly RefusedByName
      (sampleEndpoint.handle digestLibrary infiniteJson infiniteBody [] []) := by
  obtain ⟨err, refused, valueError⟩ := infiniteBody_unverified
  have parsing : ∀ s err, infiniteJson.intOfStr s = .error err → err.isValueError = true := by
    intro s err failed
    obtain rfl := Except.error.inj failed
    rfl
  refine (refusals_named_iff digestLibrary infiniteJson parsing sampleEndpoint infiniteBody []
    []).mpr ?_
  refine ⟨(verify_failsOnly_iff sampleEndpoint.alg).mp ?_, ?_, nofun⟩
  · intro other same
    obtain rfl := Except.error.inj (refused.symm.trans same)
    exact valueError
  · intro obj same
    cases refused.symm.trans same

/-- An endpoint that was opened to legacy bodies lets the overflow of the conversion escape.
Witness: the body is text and no signed object, so the claims are read, and an infinite number
is no integer.
-/
theorem infinite_effect_escapes
    : openEndpoint.handle digestLibrary infiniteJson infiniteBody [] [] = .error .overflowError
      ∧ ¬ FailsOnly RefusedByName
        (openEndpoint.handle digestLibrary infiniteJson infiniteBody [] []) := by
  obtain ⟨err, refused, valueError⟩ := infiniteBody_unverified
  have raised : openEndpoint.handle digestLibrary infiniteJson infiniteBody [] []
      = .error .overflowError := by
    obtain ⟨text, decoded⟩ : ∃ text, PyStr.decode infiniteBody = .ok text := ⟨_, rfl⟩
    have loaded : legacyPayload infiniteJson infiniteBody
        = .ok [(.lit ['e', 'f', 'f', 'e', 'c', 't'], .float (.infinite false))] := by
      rw [legacyPayload_eq_ok, decoded]
      rfl
    have handled : openEndpoint.handle digestLibrary infiniteJson infiniteBody [] []
        = openEndpoint.handleLegacy infiniteJson infiniteBody [] [] := by
      unfold MixedModeEndpoint.handle
      rw [show verify digestLibrary openEndpoint.profile openEndpoint.alg openEndpoint.pubkey
        openEndpoint.kindValidator infiniteBody [] = .error err from refused]
      simp only [valueError, Bool.true_eq_false, if_false]
      rfl
    rw [handled, MixedModeEndpoint.handleLegacy, loaded]
    rfl
  refine ⟨raised, ?_⟩
  intro named
  exact named _ raised

end Naalp.Authorization
