import Naalp.Go.MixedMode
import Naalp.Implementations.Verifiers
import Naalp.Python.Cose
import Naalp.Python.MixedMode

/-! Who uses a grant at a mixed-mode endpoint.
The principal is the signer field of the object, which the signature covers and does not prove,
so it is the holder of the verifying key only when the field identifies that key.
-/

namespace Naalp.Authorization

open Naalp.Foundation
open Naalp.Python
open Naalp.Python.Cbor
open Naalp.Python.Cose
open Naalp.Python.Envelope
open Naalp.Python.MixedMode
open Naalp.Implementations

-----------------------------------------------------------------------------------------
-- The names of a key
-----------------------------------------------------------------------------------------

/-- The self-certifying id of a verifying key; the id of a composite key is that of its parts. -/
def keySignerId (alg : Int) (pubkey : Bytes) : Py PyStr :=
  if alg = algComposite65Ed25519 then
    Identity.compositeSignerId algMldsa65 (pubkey.take mldsa65PubSize) (pubkey.drop mldsa65PubSize)
  else Identity.signerId alg pubkey

/-- The texts that name a key: its hexadecimal octets and its signer id. -/
def KeyText (alg : Int) (pubkey : Bytes) (text : List Char) : Prop :=
  text = hex pubkey ∨ keySignerId alg pubkey = .ok (PyStr.lit text)

/-- A signer field identifies a key when it holds the key or a text that names it. -/
def IdentifiesKey (alg : Int) (pubkey octets : Bytes) : Prop :=
  octets = pubkey
  ∨ ∃ text, KeyText alg pubkey text ∧ (PyStr.lit text).encode = .ok octets

/-- A principal is derived from a key when it is a text that names the key, or the hexadecimal
text of octets that identify it.
-/
def DerivedFromKey (alg : Int) (pubkey : Bytes) (principal : PyStr) : Prop :=
  ∃ text, principal = PyStr.lit text
    ∧ (KeyText alg pubkey text ∨ ∃ octets, IdentifiesKey alg pubkey octets ∧ text = hex octets)

/-- The id of a key is a multihash of the key under its codec. -/
theorem keySignerId_eq_multihash {alg : Int} {pubkey : Bytes} {id : PyStr}
    (derived : keySignerId alg pubkey = .ok id)
    : ∃ tagged, id = PyStr.lit (multihashId tagged) := by
  unfold keySignerId at derived
  split at derived
  · simp only [Identity.compositeSignerId, bind_eq_ok, raiseIf_eq_ok, exists_const] at derived
    obtain ⟨_, rest⟩ := derived
    split at rest
    · exact ⟨_, (Except.ok.inj rest).symm⟩
    · cases rest
  · unfold Identity.signerId at derived
    split at derived
    · exact ⟨_, (Except.ok.inj derived).symm⟩
    · cases derived

/-- A hexadecimal principal is derived from a key exactly when its octets identify the key, since
no signer id is a hexadecimal text.
-/
theorem derivedFromKey_hex {alg : Int} {pubkey octets : Bytes}
    : DerivedFromKey alg pubkey (PyStr.lit (hex octets)) ↔ IdentifiesKey alg pubkey octets := by
  constructor
  · intro derived
    obtain ⟨text, same, names⟩ := derived
    obtain rfl := PyStr.lit_injective same
    rcases names with (isKey | isId) | ⟨other, identifies, same⟩
    · exact .inl (hex_injective isKey)
    · obtain ⟨tagged, same⟩ := keySignerId_eq_multihash isId
      exact (multihashId_ne_hex tagged octets (PyStr.lit_injective same).symm).elim
    · rw [hex_injective same]
      exact identifies
  · intro identifies
    exact ⟨hex octets, rfl, .inr ⟨octets, identifies, rfl⟩⟩

-----------------------------------------------------------------------------------------
-- The signer field of a request
-----------------------------------------------------------------------------------------

/-- The signer field of the object that a request body holds, before any check of it. -/
def signerField (body : Bytes) : Py Bytes := do
  let (_, payload, _) ← parseSign1Raw body
  let .m pairs ← decodeBounded payload maxNestingDepth
    | throw (.envelopeError .malformed "body not a map")
  needB pairs fieldSigner

theorem signerField_of_read {body : Bytes} {parts : Parts} {obj : Object}
    (parsed : parseSign1Raw body = .ok (parts.prot, parts.payload, parts.sig))
    (decoded : decodeBounded parts.payload maxNestingDepth = .ok (.m parts.pairs))
    (read : ReadFrom parts.pairs obj)
    : signerField body = .ok obj.signer := by
  rw [signerField, parsed, ok_bind]
  simp only [decoded, ok_bind]
  exact needB_eq_ok.mpr read.signer

theorem signerField_of_verify {lib : SignatureLibrary} {profile alg : Int} {pubkey body : Bytes}
    {kindValidator : Option (Int → Int → Bool)} {knownCext : List Int} {obj : Object}
    (accepted : verify lib profile alg pubkey kindValidator body knownCext = .ok obj)
    : signerField body = .ok obj.signer := by
  obtain ⟨parts, stages⟩ := (verify_eq_ok ..).mp accepted
  exact signerField_of_read stages.parsed stages.body stages.read

/-- Go reads the same signer field, since its decoder accepts only what the Python one does. -/
theorem signerField_of_goVerify {lib : Go.Cose.SignatureLibrary} {profile : Int}
    {v : Go.Cose.Verifier} {kindOK : Option (Int → Int → Bool)} {knownCext : Int → Bool}
    {body : Bytes} {obj : Go.Envelope.Object}
    (accepted : Go.Envelope.verify lib profile v kindOK knownCext body = .ok obj)
    : signerField body = .ok obj.signer := by
  obtain ⟨parts, stages⟩ := (goVerify_eq_ok ..).mp accepted
  have decoded := (goDecodeBounded_eq_ok.mp stages.body).1
  obtain ⟨encodable, distinct⟩ := distinct_of_decodeBounded decoded
  have contentId := (checkContentID_eq_ok encodable).mp stages.contentID
  obtain ⟨id, claimed⟩ := getField_of_checkContentId distinct contentId
  have read := objectFromMap_eq_ok.mp ((goObjectFromMap_eq_ok distinct claimed).mp stages.read).2
  exact signerField_of_read (parseSign1Raw_of_go stages.parsed).1 decoded read

-----------------------------------------------------------------------------------------
-- What an endpoint accepts
-----------------------------------------------------------------------------------------

section Endpoints

variable {lib : SignatureLibrary} {std : StandardLibrary} {e : MixedModeEndpoint}

/-- A strict authorization applies the grant that is registered for the object's principal. -/
theorem authorizeStrict_eq_ok {obj : Object} {result : MixedModeResult}
    (authorized : e.authorizeStrict std obj = .ok result)
    : result.mode = .strict ∧ result.object = some obj
      ∧ ∃ grant, e.grants.lookup (principalOf obj) = some grant
        ∧ grant.authorizeObject .signature (principalOf obj) obj.effect = .ok () := by
  simp only [MixedModeEndpoint.authorizeStrict, bind_eq_ok] at authorized
  obtain ⟨_, -, rest⟩ := authorized
  split at rest
  · rename_i grant found
    simp only [bind_eq_ok, pure_eq_ok, Except.ok.injEq] at rest
    obtain ⟨done, granted, _, -, headers, -, rfl⟩ := rest
    exact ⟨rfl, rfl, grant, found, granted⟩
  · cases rest

theorem mode_of_handleLegacy {body correlation : Bytes} {method : PyStr} {result : MixedModeResult}
    (carried : e.handleLegacy std body correlation method = .ok result)
    : result.mode = .legacy := by
  simp only [MixedModeEndpoint.handleLegacy, bind_eq_ok, pure_eq_ok, Except.ok.injEq] at carried
  obtain ⟨_, -, payload, -, claims, -, carriageBody, -, _, -, headers, -, rfl⟩ := carried
  rfl

/-- A strict result comes from the verified object of the body. -/
theorem handle_strict {body correlation : Bytes} {method : PyStr} {result : MixedModeResult}
    (handled : e.handle lib std body correlation method = .ok result)
    (strict : result.mode = .strict)
    : ∃ obj, verify lib e.profile e.alg e.pubkey e.kindValidator body [] = .ok obj
      ∧ e.authorizeStrict std obj = .ok result := by
  unfold MixedModeEndpoint.handle at handled
  split at handled
  · rename_i obj verified
    exact ⟨obj, verified, handled⟩
  · split at handled
    · cases handled
    · split at handled
      · cases handled
      · rw [mode_of_handleLegacy handled] at strict
        cases strict

/-- A request that the Go endpoint takes as a strict one is an object that it verified. -/
theorem goVerified_of_handle {lib : Go.Cose.SignatureLibrary} {e : Go.MixedMode.Endpoint}
    {body : Bytes} {obj : Go.Envelope.Object} (handled : e.handle lib body = .ok (.strict obj))
    : Go.Envelope.verify lib e.profile e.verifier e.kindValidator e.knownCext body = .ok obj := by
  unfold Go.MixedMode.Endpoint.handle at handled
  split at handled
  · rename_i verified
    cases handled
    exact verified
  · cases handled
  · simp only [bind_eq_ok, pure_eq_ok, Except.ok.injEq] at handled
    obtain ⟨_, -, _, -, isLegacy⟩ := handled
    cases isLegacy

end Endpoints

-----------------------------------------------------------------------------------------
-- Whose grant is used
-----------------------------------------------------------------------------------------

/-- The grant that authorized a strict result is issued to a principal that is derived from the
verifying key of the endpoint.
-/
def UsedByHolder (e : MixedModeEndpoint) (result : MixedModeResult) : Prop :=
  ∃ obj grant, result.object = some obj ∧ e.grants.lookup (principalOf obj) = some grant
    ∧ grant.authorizeObject .signature (principalOf obj) obj.effect = .ok ()
    ∧ DerivedFromKey e.alg e.pubkey grant.principal

/-- The signer field of a request identifies the key. -/
def SignerIdentifies (alg : Int) (pubkey body : Bytes) : Prop :=
  ∃ signer, signerField body = .ok signer ∧ IdentifiesKey alg pubkey signer

/-- With the signer field read, the field identifies the key exactly when its text is the id of
the key.
-/
theorem signerIdentifies_iff {alg : Int} {pubkey body signer : Bytes}
    (field : signerField body = .ok signer)
    : SignerIdentifies alg pubkey body ↔ IdentifiesKey alg pubkey signer := by
  constructor
  · intro identifies
    obtain ⟨other, found, identifies⟩ := identifies
    obtain rfl := Except.ok.inj (field.symm.trans found)
    exact identifies
  · intro identifies
    exact ⟨signer, field, identifies⟩

/-- A strict request uses the grant of the verifying key's holder exactly when its signer field
identifies the key; and so does the string that Go presents to a grant.
Witness: the grant in use is the one that holds the text of the signer field, so the question
is what this text names.
-/
theorem grant_used_by_holder_iff (lib : SignatureLibrary) (std : StandardLibrary)
    (goLib : Go.Cose.SignatureLibrary) (e : MixedModeEndpoint) (goE : Go.MixedMode.Endpoint)
    (body : Bytes)
    : (∀ correlation method result,
        e.handle lib std body correlation method = .ok result → result.mode = .strict
        → (UsedByHolder e result ↔ SignerIdentifies e.alg e.pubkey body))
      ∧ ∀ obj, goE.handle goLib body = .ok (.strict obj)
        → (IdentifiesKey goE.verifier.alg goE.verifier.pubKey (Go.MixedMode.presentedBy obj)
            ↔ SignerIdentifies goE.verifier.alg goE.verifier.pubKey body)
          ∧ ∀ grant effect target, goE.authorize (.strict obj) grant effect target = .ok ()
            → grant.principal = Go.MixedMode.presentedBy obj := by
  constructor
  · intro correlation method result handled strict
    obtain ⟨obj, verified, authorized⟩ := handle_strict handled strict
    obtain ⟨-, object, grant, found, granted⟩ := authorizeStrict_eq_ok authorized
    obtain ⟨-, -, own, -⟩ := Policy.Grant.authorizeObject_eq_ok.mp granted
    rw [signerIdentifies_iff (signerField_of_verify verified), ← derivedFromKey_hex]
    constructor
    · intro used
      obtain ⟨other, grant', object', found', granted', derived⟩ := used
      obtain rfl := Option.some.inj (object.symm.trans object')
      obtain ⟨-, -, own', -⟩ := Policy.Grant.authorizeObject_eq_ok.mp granted'
      rw [← own'] at derived
      exact derived
    · intro derived
      refine ⟨obj, grant, object, found, granted, ?_⟩
      rw [← own]
      exact derived
  · intro obj handled
    have verified := goVerified_of_handle handled
    refine ⟨(signerIdentifies_iff (signerField_of_goVerify verified)).symm, ?_⟩
    intro grant effect target authorized
    simp only [Go.MixedMode.Endpoint.authorize, bind_eq_ok,
      Go.Policy.Grant.authorizeObject_eq_ok] at authorized
    obtain ⟨_, -, _, ⟨-, -, own, -⟩, -⟩ := authorized
    exact own.symm

-----------------------------------------------------------------------------------------
-- A borrowed grant
-----------------------------------------------------------------------------------------

/-- The public key of a principal other than the holder of `sampleKey`. -/
def otherKey : Bytes := List.replicate 32 3

/-- An object that names the other principal, to be signed with `sampleKey`. -/
def borrowed : Object :=
  { sampleObject with signer := otherKey, effect := Policy.nonIdempotentWrite }

def grantTo (key : Bytes) (maxEffect : Int) : Policy.Grant :=
  { principal := PyStr.lit (hex key), maxEffect }

/-- Both principals are registered, the holder of the key for reading only. -/
def sampleEndpoint : MixedModeEndpoint where
  profile := 1
  alg := sampleKey.alg
  pubkey := sampleKey.pubKey
  selfAuthority := .lit ['a']
  grants := (AList.singleton (PyStr.lit (hex sampleKey.pubKey))
    (grantTo sampleKey.pubKey Policy.readOnly)).insert (PyStr.lit (hex otherKey))
    (grantTo otherKey Policy.destructive)

def goSampleEndpoint : Go.MixedMode.Endpoint where
  profile := 1
  verifier := sampleKey
  kindValidator := some Go.Channels.kindValidator
  knownCext := knownSet []

/-- The other key is no name of the sample key, by its first octet. -/
theorem otherKey_not_identified : ¬ IdentifiesKey sampleKey.alg sampleKey.pubKey otherKey := by
  intro identifies
  rcases identifies with isKey | ⟨text, names, encoded⟩
  · have first := congrArg List.head? isKey
    revert first
    decide
  · obtain ⟨chars, same, octets⟩ := PyStr.encode_eq_ok.mp encoded
    obtain rfl := PyStr.lit_injective same
    rcases names with rfl | isId
    · have first := congrArg List.head? octets
      revert first
      decide
    · obtain ⟨tagged, same⟩ := keySignerId_eq_multihash isId
      obtain ⟨rest, starts⟩ := multihashId_eq tagged
      rw [PyStr.lit_injective same, starts] at octets
      have first := congrArg List.head? octets
      revert first
      simp [otherKey, String.utf8EncodeChar]

/-- A library for strict requests, which call no function of it. -/
def noJson : StandardLibrary where
  loads _ := throw (.jsonDecodeError "Expecting value: line 1 column 1 (char 0)")
  intOfStr _ := throw (.valueError "invalid literal for int() with base 10")
  strOf _ := []
  excText _ := ""
  httpDate _ := throw .overflowError

theorem borrowed_signable (kindOK : Int → Int → Bool) (listed : kindOK 2 1 = true)
    : Signable (some kindOK) [] borrowed := by
  have base := sampleObject_signable (.inl rfl)
  exact ⟨base.channel, by decide, base.profile, base.notRotation, listed, base.causes, base.ext,
    base.cext, base.recognized, by decide⟩

theorem borrowed_size : borrowed.signedSize algMldsa65 3309 = .ok 3485 := by
  decide +kernel

/-- Both endpoints accept the borrowed object, and both apply the other principal's grant.
Witness: signing and verifying round trip in both implementations; the other principal's text
is in the signer field.
-/
theorem borrowed_accepted (std : StandardLibrary)
    : ∃ data obj goObj result, sign digestLibrary borrowed algMldsa65 [9] = .ok data
      ∧ sampleEndpoint.handle digestLibrary std data [] [] = .ok result
      ∧ result.mode = .strict ∧ result.object = some obj ∧ obj.signer = otherKey
      ∧ goSampleEndpoint.handle Go.Cose.digestLibrary data = .ok (.strict goObj)
      ∧ goObj.signer = otherKey
      ∧ goSampleEndpoint.authorize (.strict goObj) ⟨otherKey, Go.Policy.destructive⟩ 2 none
        = .ok ()
      ∧ (goObj.channel = 2 ∧ goObj.kind = 1 ∧ goObj.effect = 2) := by
  have key : digestLibrary.mldsaPublic .mlDsa65 [9] = .ok sampleKey.pubKey := rfl
  have size : ∃ octets, borrowed.signedSize algMldsa65 3309 = .ok octets ∧ octets ≤ maxObjectSize :=
    ⟨3485, borrowed_size, by decide⟩
  have floor : profileMinLevel 1 ≤ (algLevel algMldsa65).1 := by decide
  have fits (id : Bytes) : NintsFit (.m (borrowed.sorted.pairs id)) := by
    refine nintsFit_pairs ?_ nofun ?_
    · change NintsFit (.m [(.u 0, .u 8), (.u 1, .u 7)])
      simp [NintsFit.u]
    · rintro pairs ⟨⟩
      change NintsFit (.m [(.u recheckKey, .u 1)])
      simp [NintsFit.u]
  obtain ⟨data, id, signed, -, verified⟩ := verify_sign digestLibrary_signsVerifiably
    (borrowed_signable defaultKindValidator (by decide)) sampleKey.alg rfl key floor rfl size
  obtain ⟨data', goObj, signed', goVerified, fields⟩ := goVerify_sign digestLibraries_agree
    digestLibrary_signsVerifiably 1 sampleKey
    (borrowed_signable Go.Channels.kindValidator (by decide)) rfl key floor rfl size
      (by decide) fits
  obtain rfl : data = data' := Except.ok.inj (signed.symm.trans signed')
  obtain ⟨obj, same⟩ : ∃ obj, obj = { borrowed.sorted with id := some id } := ⟨_, rfl⟩
  rw [← same] at verified
  have channel : obj.channel = 2 := by rw [same]; rfl
  have kind : obj.kind = 1 := by rw [same]; rfl
  have effect : obj.effect = 2 := by rw [same]; rfl
  have signer : obj.signer = otherKey := by rw [same]; rfl
  have goChannel : goObj.channel = 2 := (congrArg Object.channel fields).symm
  have goKind : goObj.kind = 1 := (congrArg Object.kind fields).symm
  have goEffect : goObj.effect = 2 := (congrArg Object.effect fields).symm
  have goSigner : goObj.signer = otherKey := (congrArg Object.signer fields).symm
  have principal : principalOf obj = PyStr.lit (hex otherKey) := by rw [principalOf, signer]
  have found : sampleEndpoint.grants.lookup (principalOf obj)
      = some (grantTo otherKey Policy.destructive) := by
    rw [principal]
    exact AList.lookup_insert _
  have granted : (grantTo otherKey Policy.destructive).authorizeObject .signature
      (principalOf obj) obj.effect = .ok () := by
    rw [principal, effect]
    decide
  have declared : Channels.checkEffect obj.channel obj.kind obj.effect = .ok () := by
    rw [channel, kind, effect]
    decide
  have authorized : sampleEndpoint.authorizeStrict std obj
      = .ok { mode := .strict, effect := obj.effect, object := some obj, headers := [] } := by
    simp only [MixedModeEndpoint.authorizeStrict, declared, found, granted, ok_bind]
    rfl
  have handled : sampleEndpoint.handle digestLibrary std data [] []
      = sampleEndpoint.authorizeStrict std obj := by
    unfold MixedModeEndpoint.handle
    rw [show verify digestLibrary sampleEndpoint.profile sampleEndpoint.alg sampleEndpoint.pubkey
      sampleEndpoint.kindValidator data [] = .ok obj from verified]
  have goHandled : goSampleEndpoint.handle Go.Cose.digestLibrary data = .ok (.strict goObj) := by
    unfold Go.MixedMode.Endpoint.handle
    rw [show Go.Envelope.verify Go.Cose.digestLibrary goSampleEndpoint.profile
      goSampleEndpoint.verifier goSampleEndpoint.kindValidator goSampleEndpoint.knownCext data
      = .ok goObj from goVerified]
    rfl
  have goAuthorized : goSampleEndpoint.authorize (.strict goObj)
      ⟨otherKey, Go.Policy.destructive⟩ 2 none = .ok () := by
    simp only [Go.MixedMode.Endpoint.authorize, Go.MixedMode.presentedBy, goChannel, goKind,
      goEffect, goSigner]
    rfl
  exact ⟨data, obj, goObj, _, signed, handled.trans authorized, rfl, rfl, signer, goHandled,
    goSigner, goAuthorized, goChannel, goKind, goEffect⟩

/-- The borrowed object is accepted as a strict request, so the condition decides whose grant is
used.
-/
theorem grant_used_by_holder_iff_borrowed
    : ∃ data result goObj, sign digestLibrary borrowed algMldsa65 [9] = .ok data
      ∧ sampleEndpoint.handle digestLibrary noJson data [] [] = .ok result
      ∧ (UsedByHolder sampleEndpoint result
        ↔ SignerIdentifies sampleKey.alg sampleKey.pubKey data)
      ∧ goSampleEndpoint.handle Go.Cose.digestLibrary data = .ok (.strict goObj)
      ∧ (IdentifiesKey sampleKey.alg sampleKey.pubKey (Go.MixedMode.presentedBy goObj)
        ↔ SignerIdentifies sampleKey.alg sampleKey.pubKey data) := by
  obtain ⟨data, obj, goObj, result, signed, handled, strict, -, -, goHandled, -⟩ :=
    borrowed_accepted noJson
  obtain ⟨python, go⟩ := grant_used_by_holder_iff digestLibrary noJson Go.Cose.digestLibrary
    sampleEndpoint goSampleEndpoint data
  exact ⟨data, result, goObj, signed, handled, python _ _ _ handled strict, goHandled,
    (go goObj goHandled).1⟩

/-- An object signed with one principal's key that names another principal is accepted by both
endpoints under the other principal's grant.
-/
theorem other_principal_grant_used
    : ∃ data result goObj, sign digestLibrary borrowed algMldsa65 [9] = .ok data
      ∧ sampleEndpoint.handle digestLibrary noJson data [] [] = .ok result ∧ result.mode = .strict
      ∧ ¬ UsedByHolder sampleEndpoint result
      ∧ goSampleEndpoint.handle Go.Cose.digestLibrary data = .ok (.strict goObj)
      ∧ goSampleEndpoint.authorize (.strict goObj) ⟨otherKey, Go.Policy.destructive⟩ 2 none
        = .ok ()
      ∧ ¬ IdentifiesKey sampleKey.alg sampleKey.pubKey (Go.MixedMode.presentedBy goObj) := by
  obtain ⟨data, obj, goObj, result, signed, handled, strict, object, signer, goHandled, goSigner,
    goAuthorized, -⟩ := borrowed_accepted noJson
  refine ⟨data, result, goObj, signed, handled, strict, ?_, goHandled, goAuthorized, ?_⟩
  · intro used
    obtain ⟨other, grant, object', -, granted, derived⟩ := used
    obtain rfl := Option.some.inj (object.symm.trans object')
    obtain ⟨-, -, own, -⟩ := Policy.Grant.authorizeObject_eq_ok.mp granted
    rw [← own, principalOf, signer] at derived
    exact otherKey_not_identified (derivedFromKey_hex.mp derived)
  · rw [Go.MixedMode.presentedBy, goSigner]
    exact otherKey_not_identified

end Naalp.Authorization
