import Naalp.Authorization.GrantHolders
import Naalp.Native.Delegation
import Naalp.Implementations.NativeVerifiers
import Naalp.Python.GrantObjects

/-! Whose id the issuer of a verified delegation grant is.
The signature is checked with the verifier, and the id is derived from the key that is passed
beside it; in Python the algorithm of the id is passed beside the header's.
-/

namespace Naalp.Authorization

open Naalp.Foundation
open Naalp.Python
open Naalp.Python.Cbor
open Naalp.Python.Cose
open Naalp.Python.Envelope
open Naalp.Implementations

-----------------------------------------------------------------------------------------
-- The octets behind an id
-----------------------------------------------------------------------------------------

/-- The octets whose digest is the id of a key: the tagged key, or the tagged parts of a composite
key.
-/
def taggedKey (alg : Int) (pubkey : Bytes) : Option Bytes :=
  if alg = algComposite65Ed25519 then
    some (uvarint 0x1211 ++ pubkey.take mldsa65PubSize ++ uvarint 0xED
      ++ pubkey.drop mldsa65PubSize)
  else (Identity.multicodec alg).map (fun mc => uvarint mc ++ pubkey)

/-- Different octets with the same digest. -/
def TagsCollide (left right : Option Bytes) : Prop :=
  ∃ a b, left = some a ∧ right = some b ∧ a ≠ b ∧ Sha256.sha256 a = Sha256.sha256 b

/-- The id of a key, where its algorithm has a codec, is the multihash of the tagged key. -/
theorem keySignerId_eq_ok {alg : Int} {pubkey : Bytes} {id : PyStr}
    : keySignerId alg pubkey = .ok id
      ↔ ∃ tagged, taggedKey alg pubkey = some tagged ∧ PyStr.lit (multihashId tagged) = id := by
  unfold keySignerId taggedKey
  split
  · simp [Identity.compositeSignerId, Identity.multicodec, algMldsa65, algMldsa87, algEd25519]
  · unfold Identity.signerId
    cases Identity.multicodec alg with
    | none => simp
    | some mc => simp

/-- The three algorithms that have a codec, with their codes. -/
theorem multicodec_cases {alg : Int} {mc : Nat} (named : Identity.multicodec alg = some mc)
    : (alg = algEd25519 ∧ mc = 0xED) ∨ (alg = algMldsa65 ∧ mc = 0x1211)
      ∨ (alg = algMldsa87 ∧ mc = 0x1212) := by
  unfold Identity.multicodec at named
  split at named
  · rename_i same
    exact .inl ⟨same, (Option.some.inj named).symm⟩
  · split at named
    · rename_i same
      exact .inr (.inl ⟨same, (Option.some.inj named).symm⟩)
    · split at named
      · rename_i same
        exact .inr (.inr ⟨same, (Option.some.inj named).symm⟩)
      · cases named

theorem taggedKey_of_multicodec {alg : Int} {mc : Nat} {pubkey : Bytes}
    (named : Identity.multicodec alg = some mc)
    : taggedKey alg pubkey = some (uvarint mc ++ pubkey) := by
  have plain : alg ≠ algComposite65Ed25519 := by
    rcases multicodec_cases named with ⟨rfl, -⟩ | ⟨rfl, -⟩ | ⟨rfl, -⟩ <;> decide
  rw [taggedKey, if_neg plain, named, Option.map_some]

/-- Keys under different algorithms are tagged differently: the tags of single keys start with
different octets, and a composite key has two.
-/
theorem taggedKey_alg_inj {alg alg' : Int} {mc : Nat} {pubkey : Bytes}
    (named : Identity.multicodec alg = some mc)
    (same : taggedKey alg' pubkey = some (uvarint mc ++ pubkey)) : alg = alg' := by
  have tags : uvarint 0xED = [0xED, 0x01] ∧ uvarint 0x1211 = [0x91, 0x24]
      ∧ uvarint 0x1212 = [0x92, 0x24] := by decide
  obtain ⟨ed, ml65, ml87⟩ := tags
  unfold taggedKey at same
  split at same
  · have size := congrArg List.length (Option.some.inj same)
    rcases multicodec_cases named with ⟨-, rfl⟩ | ⟨-, rfl⟩ | ⟨-, rfl⟩ <;>
      simp [ed, ml65, ml87] at size <;> omega
  · cases named' : Identity.multicodec alg' with
    | none => simp [named'] at same
    | some mc' =>
        simp only [named', Option.map_some, Option.some.injEq] at same
        have first := congrArg List.head? same
        rcases multicodec_cases named with ⟨rfl, rfl⟩ | ⟨rfl, rfl⟩ | ⟨rfl, rfl⟩ <;>
          rcases multicodec_cases named' with ⟨rfl, rfl⟩ | ⟨rfl, rfl⟩ | ⟨rfl, rfl⟩ <;>
          first | rfl | simp [ed, ml65, ml87] at first

/-- An id is that of a key exactly when the tagged key is what the id was derived from, unless
two inputs of the digest collide.
-/
theorem keySignerId_eq_iff {alg : Int} {pubkey tagged : Bytes}
    : keySignerId alg pubkey = .ok (PyStr.lit (multihashId tagged))
      ↔ taggedKey alg pubkey = some tagged ∨ TagsCollide (some tagged) (taggedKey alg pubkey) := by
  rw [keySignerId_eq_ok]
  constructor
  · intro derived
    obtain ⟨other, named, same⟩ := derived
    have digests := multihashId_eq_iff.mp (PyStr.lit_injective same)
    by_cases equal : tagged = other
    · exact .inl (equal ▸ named)
    · exact .inr ⟨tagged, other, rfl, named, equal, digests.symm⟩
  · intro derived
    rcases derived with named | ⟨a, other, isTagged, named, -, digests⟩
    · exact ⟨tagged, named, rfl⟩
    · obtain rfl := Option.some.inj isTagged
      exact ⟨other, named, congrArg PyStr.lit (multihashId_eq_iff.mpr digests.symm)⟩

-----------------------------------------------------------------------------------------
-- What an accepted grant object had
-----------------------------------------------------------------------------------------

/-- A grant that Go accepts was issued under the id of the key that verified it. -/
theorem goVerifyGrantObject_issuer {lib : Go.Cose.SignatureLibrary} {profile : Int}
    {v : Go.Cose.Verifier} {pubkey signedObj : Bytes} {r : Native.Delegation.Resolved UInt8}
    (accepted : Go.Delegation.verifyGrantObject lib profile v pubkey signedObj = .ok r)
    : ∃ mc, Identity.multicodec v.alg = some mc
      ∧ (PyStr.lit (multihashId (uvarint mc ++ pubkey))).encode = .ok r.issuer := by
  simp only [Go.Delegation.verifyGrantObject, bind_eq_ok, raiseIf_eq_ok, exists_const, pure_eq_ok,
    Except.ok.injEq] at accepted
  obtain ⟨o, -, -, -, issuer, derived, -, g, -, rfl⟩ := accepted
  unfold Go.Identity.signerID at derived
  split at derived
  · rename_i mc named
    exact ⟨mc, named, PyStr.encode_eq_ok.mpr ⟨_, rfl, Except.ok.inj derived⟩⟩
  · cases derived

/-- A grant that Rust accepts was issued under the id of the key that verified it. -/
theorem rustVerifyGrantObject_issuer {valueSize : Nat} {lib : Rust.Cose.SignatureLibrary}
    {profile : UInt32} {v : Rust.Cose.Verifier} {pubkey signedObj : Bytes}
    {r : Native.Delegation.Resolved Char}
    (accepted : Rust.Delegation.verifyGrantObject valueSize lib profile v pubkey signedObj = .ok r)
    : ∃ mc, Identity.multicodec v.alg = some mc
      ∧ r.issuer = multihashId (uvarint mc ++ pubkey) := by
  simp only [Rust.Delegation.verifyGrantObject, bind_eq_ok, raiseIf_eq_ok, exists_const, pure_eq_ok,
    Except.ok.injEq] at accepted
  obtain ⟨o, -, -, -, issuer, derived, -, g, -, rfl⟩ := accepted
  unfold Rust.Identity.signerId at derived
  split at derived
  · rename_i mc named
    exact ⟨mc, named, (Except.ok.inj derived).symm⟩
  · cases derived

/-- The algorithm that the protected header of an object names. -/
def headerAlg (obj : Bytes) : Py Int := do
  let (prot, _, _) ← parseSign1Raw obj
  let (alg, _, _, _) ← parseProtected prot
  return alg

theorem headerAlg_of_verify {lib : SignatureLibrary} {profile alg : Int} {pubkey obj : Bytes}
    {kindValidator : Option (Int → Int → Bool)} {knownCext : List Int} {o : Object}
    (accepted : verify lib profile alg pubkey kindValidator obj knownCext = .ok o)
    : ∃ halg, headerAlg obj = .ok halg := by
  obtain ⟨parts, stages⟩ := (verify_eq_ok ..).mp accepted
  have header := checkHeader_eq_ok.mp stages.header
  rw [headerAlg, stages.parsed, ok_bind]
  simp only [header, ok_bind]
  exact ⟨_, rfl⟩

/-- A grant that Python accepts was issued under the id of the key, taken with the alg of the
call and not with that of its header.
-/
theorem verifyGrantObject_issuer {lib : SignatureLibrary} {profile alg : Int}
    {pubkey signedObj : Bytes} {r : Delegation.Resolved}
    (accepted : Delegation.verifyGrantObject lib profile alg pubkey signedObj = .ok r)
    : (∃ halg, headerAlg signedObj = .ok halg)
      ∧ ∃ mc, Identity.multicodec alg = some mc
        ∧ r.issuer = PyStr.lit (multihashId (uvarint mc ++ pubkey)) := by
  simp only [Delegation.verifyGrantObject, bind_eq_ok, raiseIf_eq_ok, exists_const, pure_eq_ok,
    Except.ok.injEq] at accepted
  obtain ⟨o, verified, -, -, issuer, derived, octets, -, -, g, -, rfl⟩ := accepted
  refine ⟨headerAlg_of_verify verified, ?_⟩
  unfold Identity.signerId at derived
  split at derived
  · rename_i mc named
    exact ⟨mc, named, (Except.ok.inj derived).symm⟩
  · cases derived

-----------------------------------------------------------------------------------------
-- The issuer and the key that signed
-----------------------------------------------------------------------------------------

/-- The id of a key, in octets. -/
def keySignerOctets (alg : Int) (pubkey : Bytes) : Py Bytes := do
  let id ← keySignerId alg pubkey
  id.encode

/-- The octets of a key's id are those of the text, when this can be encoded. -/
theorem keySignerOctets_eq_ok {alg : Int} {pubkey octets : Bytes} {id : PyStr}
    (encoded : id.encode = .ok octets)
    : keySignerOctets alg pubkey = .ok octets ↔ keySignerId alg pubkey = .ok id := by
  simp only [keySignerOctets, bind_eq_ok]
  constructor
  · intro derived
    obtain ⟨other, named, same⟩ := derived
    have text := PyStr.decode_of_encode same
    rw [PyStr.decode_of_encode encoded, Except.ok.injEq] at text
    rw [text]
    exact named
  · intro named
    exact ⟨id, named, encoded⟩

/-- Under one algorithm, the tagged keys are the same exactly when the keys are. -/
theorem keySignerId_own_iff {alg : Int} {mc : Nat} {pubkey own : Bytes}
    (named : Identity.multicodec alg = some mc)
    : keySignerId alg own = .ok (PyStr.lit (multihashId (uvarint mc ++ pubkey)))
      ↔ pubkey = own ∨ TagsCollide (taggedKey alg pubkey) (taggedKey alg own) := by
  rw [keySignerId_eq_iff, taggedKey_of_multicodec named, taggedKey_of_multicodec named,
    Option.some.injEq, List.append_cancel_left_eq, eq_comm]

/-- The issuer of a verified grant object is the id of the key that the signature was checked
with, exactly when that key is the one passed beside it, and in Python when the algorithm passed
beside the object is the header's, up to a collision of the digest.
Witness: the issuer is the id of the key that was passed, and ids are equal exactly when tagged
keys are, up to a collision.
-/
theorem issuer_signed_iff (goLib : Go.Cose.SignatureLibrary) (rustLib : Rust.Cose.SignatureLibrary)
    (lib : SignatureLibrary) (valueSize : Nat) (profile alg : Int) (nativeProfile : UInt32)
    (goV : Go.Cose.Verifier) (rustV : Rust.Cose.Verifier) (pubkey signedObj : Bytes)
    : (∀ r, Go.Delegation.verifyGrantObject goLib profile goV pubkey signedObj = .ok r
        → (keySignerOctets goV.alg goV.pubKey = .ok r.issuer
          ↔ pubkey = goV.pubKey
            ∨ TagsCollide (taggedKey goV.alg pubkey) (taggedKey goV.alg goV.pubKey)))
      ∧ (∀ r, Rust.Delegation.verifyGrantObject valueSize rustLib nativeProfile rustV pubkey
            signedObj = .ok r
        → (keySignerId rustV.alg rustV.pubKey = .ok (PyStr.lit r.issuer)
          ↔ pubkey = rustV.pubKey
            ∨ TagsCollide (taggedKey rustV.alg pubkey) (taggedKey rustV.alg rustV.pubKey)))
      ∧ ∀ r, Delegation.verifyGrantObject lib profile alg pubkey signedObj = .ok r
        → ∃ halg, headerAlg signedObj = .ok halg
          ∧ (keySignerId halg pubkey = .ok r.issuer
            ↔ alg = halg ∨ TagsCollide (taggedKey alg pubkey) (taggedKey halg pubkey)) := by
  refine ⟨?_, ?_, ?_⟩
  · intro r accepted
    obtain ⟨mc, named, encoded⟩ := goVerifyGrantObject_issuer accepted
    rw [keySignerOctets_eq_ok encoded]
    exact keySignerId_own_iff named
  · intro r accepted
    obtain ⟨mc, named, issuer⟩ := rustVerifyGrantObject_issuer accepted
    rw [issuer]
    exact keySignerId_own_iff named
  · intro r accepted
    obtain ⟨⟨halg, header⟩, mc, named, issuer⟩ := verifyGrantObject_issuer accepted
    refine ⟨halg, header, ?_⟩
    rw [issuer, keySignerId_eq_iff, taggedKey_of_multicodec named]
    have sameTag : taggedKey halg pubkey = some (uvarint mc ++ pubkey) ↔ alg = halg := by
      constructor
      · exact taggedKey_alg_inj named
      · intro same
        rw [← same]
        exact taggedKey_of_multicodec named
    rw [sameTag]

-----------------------------------------------------------------------------------------
-- A grant attributed to another key
-----------------------------------------------------------------------------------------

/-- A grant object that names the given signer, to be signed with the sample key. -/
def grantObject (signer : Bytes) : Object where
  id := none
  kind := 4
  channel := 2
  tier := 1
  signer := signer
  created := 5
  effect := 2
  causes := []
  profile := 1
  body := .m [(.u 1, .t (.lit ['a'])), (.u 2, .u 3), (.u 3, .u 1), (.u 4, .u 0), (.u 5, .u 9)]
  ext := none
  cext := none
  audience := []
  suite := 0

/-- The grant object that names a key, signed with the sample key. -/
def grantNaming (alg : Int) (pubkey : Bytes) : Py Bytes := do
  sign digestLibrary (grantObject (← keySignerOctets alg pubkey)) algMldsa65 [9]

/-- Whatever signer of at most 2000 octets it names, the grant object fits into an object's octets.
-/
theorem grantObject_size {signer : Bytes} (short : signer.length ≤ 2000)
    : ∃ octets, (grantObject signer).signedSize algMldsa65 3309 = .ok octets
      ∧ octets ≤ maxObjectSize := by
  have plain : (grantObject signer).Plain := {
    ext := rfl
    cext := rfl
    audience := rfl
    suite := rfl
    causes := rfl
    numbers := by simp [grantObject]
    body := rfl
  }
  have body : (encoding (grantObject signer).body).length ≤ 2000 := by
    change (encoding (grantObject []).body).length ≤ 2000
    decide
  exact plain.size (encodable_n.mpr (by decide)) short body (by decide)

/-- The object of a grant passes the checks of signing where the registry lists its kind. -/
theorem grantObject_signable (signer : Bytes) (kindOK : Int → Int → Bool)
    (listed : kindOK 2 4 = true)
    : Signable (some kindOK) [] (grantObject signer) where
  channel := by simp [grantObject]
  effect := by simp [grantObject]
  profile := by simp [grantObject]
  notRotation := by simp [grantObject]
  surface := listed
  causes := by simp [grantObject, maxCauses]
  ext := nofun
  cext := nofun
  recognized := nofun
  nesting := by
    simp [grantObject, Object.fieldPairs, depth, depthPairs, depthItems, maxNestingDepth]

/-- The octets of the id of an ML-DSA key. -/
theorem keySignerOctets_mldsa {alg : Int} {mc : Nat} {pubkey : Bytes}
    (named : Identity.multicodec alg = some mc)
    : keySignerOctets alg pubkey
      = .ok ((multihashId (uvarint mc ++ pubkey)).flatMap String.utf8EncodeChar) := by
  refine (keySignerOctets_eq_ok (PyStr.encode_eq_ok.mpr ⟨_, rfl, rfl⟩)).mpr ?_
  exact keySignerId_eq_ok.mpr ⟨_, taggedKey_of_multicodec named, rfl⟩

/-- A grant object that names a signer, signed with the sample key, is verified by Go and by Rust.
-/
theorem grantObject_verified {signer : Bytes} (short : signer.length ≤ 2000)
    : ∃ data g, sign digestLibrary (grantObject signer) algMldsa65 [9] = .ok data
      ∧ Go.Envelope.verify Go.Cose.digestLibrary 1 sampleKey
        (some Go.Delegation.composedKindValidator) (fun _ => false) data = .ok g
      ∧ Rust.Envelope.verify 32 Rust.Cose.digestLibrary 1 sampleRustKey
        Rust.Delegation.composedKindValidator [] data = .ok g
      ∧ { (grantObject signer).sorted with id := some g.id } = fieldsOf g := by
  have signable := grantObject_signable signer Go.Delegation.composedKindValidator (by decide)
  have fits (id : Bytes) : NintsFit (.m ((grantObject signer).sorted.pairs id)) := by
    refine nintsFit_pairs ?_ nofun nofun
    change NintsFit (.m [(.u 1, .t (.lit ['a'])), (.u 2, .u 3), (.u 3, .u 1), (.u 4, .u 0),
      (.u 5, .u 9)])
    simp [NintsFit.u, NintsFit.t]
  obtain ⟨data, g, signed, verified, fields⟩ := goVerify_sign digestLibraries_agree
    digestLibrary_signsVerifiably 1 sampleKey signable rfl rfl (by decide) rfl
    (grantObject_size short) (by decide) fits
  refine ⟨data, g, signed, verified, ?_, fields⟩
  exact (go_rust_verify_alike digestNatives_agree (by decide) (by simp [knownSet]) 1 sampleRustKey
    _ data g).mp verified

/-- The grant object that names a key is accepted with that key under the sample key.
Witness: the object is signed and verified as any other; its body is read as a grant, and the
issuer is computed from the key beside it.
-/
theorem grantNaming_accepted (pubkey : Bytes)
    : ∃ data r rustR, grantNaming algMldsa65 pubkey = .ok data
      ∧ Go.Delegation.verifyGrantObject Go.Cose.digestLibrary 1 sampleKey pubkey data = .ok r
      ∧ Rust.Delegation.verifyGrantObject 32 Rust.Cose.digestLibrary 1 sampleRustKey pubkey data
        = .ok rustR := by
  have named : Identity.multicodec algMldsa65 = some 0x1211 := rfl
  obtain ⟨data, g, signed, verified, rustVerified, fields⟩ :=
    grantObject_verified (length_utf8_multihashId_le _)
  have goIssuer : Go.Identity.signerID sampleKey.alg pubkey
      = .ok ((multihashId (uvarint 0x1211 ++ pubkey)).flatMap String.utf8EncodeChar) := rfl
  have rustIssuer : Rust.Identity.signerId sampleRustKey.alg pubkey
      = .ok (multihashId (uvarint 0x1211 ++ pubkey)) := rfl
  cases g
  simp only [fieldsOf, Object.sorted, grantObject, Object.mk.injEq] at fields
  obtain ⟨-, rfl, rfl, rfl, rfl, rfl, rfl, rfl, rfl, rfl, -⟩ := fields
  obtain ⟨goGrant, goRead⟩ : ∃ grant, Go.Delegation.grantFromBody (grantObject []).sorted.body
      = .ok grant := ⟨_, rfl⟩
  obtain ⟨rustGrant, rustRead⟩ : ∃ grant, Rust.Delegation.grantFromBody (grantObject []).sorted.body
      = .ok grant := ⟨_, rfl⟩
  have goAccepted
      : ∃ r, Go.Delegation.verifyGrantObject Go.Cose.digestLibrary 1 sampleKey pubkey data
      = .ok r := by
    rw [Go.Delegation.verifyGrantObject, verified, goIssuer]
    simp only [ok_bind]
    rw [raiseIf_neg (by simp [Native.Delegation.channelCapability,
      Native.Delegation.kindDelegationGrant, Native.Delegation.tier]), ok_bind,
      raiseIf_neg (by simp [Native.Delegation.grantEffect]), ok_bind,
      raiseIf_neg (not_not.mpr rfl), ok_bind]
    exact ⟨_, congrArg (· >>= _) goRead⟩
  have rustAccepted : ∃ r, Rust.Delegation.verifyGrantObject 32 Rust.Cose.digestLibrary 1
      sampleRustKey pubkey data = .ok r := by
    rw [Rust.Delegation.verifyGrantObject, rustVerified, rustIssuer]
    simp only [ok_bind]
    rw [raiseIf_neg (by simp [Native.Delegation.channelCapability,
      Native.Delegation.kindDelegationGrant, Native.Delegation.tier]), ok_bind,
      raiseIf_neg (by simp [Native.Delegation.grantEffect]), ok_bind,
      raiseIf_neg (by simp [Rust.Channels.asBytes]), ok_bind]
    exact ⟨_, congrArg (· >>= _) rustRead⟩
  obtain ⟨r, accepted⟩ := goAccepted
  obtain ⟨rustR, accepted'⟩ := rustAccepted
  refine ⟨data, r, rustR, ?_, accepted, accepted'⟩
  rw [grantNaming, keySignerOctets_mldsa named, ok_bind]
  exact signed

theorem sample_ids_differ
    : multihashId (uvarint 0x1211 ++ [3]) ≠ multihashId (uvarint 0x1211 ++ [4]) := by
  intro same
  have digests := multihashId_eq_iff.mp same
  revert digests
  decide +kernel

/-- The grant object that names `[3]` and the one that names `[4]` are accepted under the sample
key by both, with different issuers.
Witness: each is the issuer of the key that its object names, and the two ids are different
texts.
-/
theorem two_issuers_accepted
    : ∃ data r rustR data' r' rustR', grantNaming algMldsa65 [3] = .ok data
      ∧ grantNaming algMldsa65 [4] = .ok data'
      ∧ Go.Delegation.verifyGrantObject Go.Cose.digestLibrary 1 sampleKey [3] data = .ok r
      ∧ Go.Delegation.verifyGrantObject Go.Cose.digestLibrary 1 sampleKey [4] data' = .ok r'
      ∧ Rust.Delegation.verifyGrantObject 32 Rust.Cose.digestLibrary 1 sampleRustKey [3] data
        = .ok rustR
      ∧ Rust.Delegation.verifyGrantObject 32 Rust.Cose.digestLibrary 1 sampleRustKey [4] data'
        = .ok rustR'
      ∧ r.issuer ≠ r'.issuer ∧ rustR.issuer ≠ rustR'.issuer := by
  obtain ⟨data, r, rustR, made, accepted, rustAccepted⟩ :=
    grantNaming_accepted [3]
  obtain ⟨data', r', rustR', made', accepted', rustAccepted'⟩ :=
    grantNaming_accepted [4]
  have tagged : Identity.multicodec sampleKey.alg = some 0x1211 := rfl
  refine ⟨data, r, rustR, data', r', rustR', made, made', accepted, accepted', rustAccepted,
    rustAccepted', ?_, ?_⟩
  · intro same
    obtain ⟨mc, named, encoded⟩ := goVerifyGrantObject_issuer accepted
    obtain ⟨mc', named', encoded'⟩ := goVerifyGrantObject_issuer accepted'
    obtain rfl := Option.some.inj (tagged.symm.trans named)
    obtain rfl := Option.some.inj (tagged.symm.trans named')
    rw [same] at encoded
    have text := (PyStr.decode_of_encode encoded).symm.trans (PyStr.decode_of_encode encoded')
    exact sample_ids_differ (PyStr.lit_injective (Except.ok.inj text))
  · intro same
    obtain ⟨mc, named, issuer⟩ := rustVerifyGrantObject_issuer rustAccepted
    obtain ⟨mc', named', issuer'⟩ := rustVerifyGrantObject_issuer rustAccepted'
    obtain rfl := Option.some.inj (tagged.symm.trans named)
    obtain rfl := Option.some.inj (tagged.symm.trans named')
    exact sample_ids_differ (issuer.symm.trans (same.trans issuer'))

theorem headerAlg_of_sign {lib : SignatureLibrary} {o : Object} {alg : Int} {seed data : Bytes}
    (signed : sign lib o alg seed = .ok data)
    : headerAlg data = .ok alg := by
  simp only [sign, bodyMap_with_id, bind_eq_ok, Except.ok.injEq, exists_eq_left'] at signed
  obtain ⟨_, _, payload, _, prot, header, tbs, _, sig, _, assembled⟩ := signed
  simp only [headerAlg, parseSign1Raw_assembled assembled, ok_bind,
    parseProtected_protectedHeader header, pure_eq_ok]

/-- In Python, a grant object that names the signing key under another algorithm is accepted.
Witness: the alg of the call plays a part in the issuer alone, not in the verification.
-/
theorem other_alg_accepted {pubkey : Bytes}
    (key : digestLibrary.mldsaPublic .mlDsa65 [9] = .ok pubkey)
    : ∃ data r, grantNaming algMldsa87 pubkey = .ok data
      ∧ Delegation.verifyGrantObject digestLibrary 1 algMldsa87 pubkey data = .ok r
      ∧ headerAlg data = .ok algMldsa65 := by
  have named : Identity.multicodec algMldsa87 = some 0x1212 := rfl
  have signable (signer : Bytes) :=
    grantObject_signable signer Delegation.composedKindValidator (by decide)
  have floor : profileMinLevel 1 ≤ (algLevel algMldsa65).1 := by decide
  obtain ⟨data, id, signed, -, verified⟩ := verify_sign digestLibrary_signsVerifiably (signable _)
    algMldsa87 rfl key floor rfl
    (grantObject_size (length_utf8_multihashId_le (uvarint 0x1212 ++ pubkey)))
  obtain ⟨grant, read⟩ : ∃ grant, Delegation.grantFromBody (grantObject []).sorted.body
      = .ok grant := ⟨_, rfl⟩
  have accepted : ∃ r, Delegation.verifyGrantObject digestLibrary 1 algMldsa87 pubkey data
      = .ok r := by
    rw [Delegation.verifyGrantObject, verified, ok_bind, raiseIf_neg, ok_bind, raiseIf_neg, ok_bind,
      Identity.signerId, named]
    simp only [pure_eq_ok, ok_bind]
    rw [PyStr.encode_eq_ok.mpr ⟨_, rfl, rfl⟩, ok_bind,
      raiseIf_neg (by simp [Object.sorted, grantObject]), ok_bind]
    · exact ⟨_, congrArg (· >>= _) read⟩
    · simp [Object.sorted, grantObject, Delegation.grantEffect, Policy.nonIdempotentWrite]
    · simp [Object.sorted, grantObject, Delegation.channelCapability,
        Delegation.kindDelegationGrant, Delegation.tier]
  obtain ⟨r, accepted⟩ := accepted
  refine ⟨data, r, ?_, accepted, headerAlg_of_sign signed⟩
  rw [grantNaming, keySignerOctets_mldsa named, ok_bind]
  exact signed

/-- The condition decides whose id the issuers of the accepted sample objects are. -/
theorem issuer_signed_iff_sample
    : (∃ data r rustR, grantNaming algMldsa65 [3] = .ok data
        ∧ Go.Delegation.verifyGrantObject Go.Cose.digestLibrary 1 sampleKey [3] data = .ok r
        ∧ (keySignerOctets sampleKey.alg sampleKey.pubKey = .ok r.issuer
          ↔ [3] = sampleKey.pubKey
            ∨ TagsCollide (taggedKey sampleKey.alg [3]) (taggedKey sampleKey.alg sampleKey.pubKey))
        ∧ Rust.Delegation.verifyGrantObject 32 Rust.Cose.digestLibrary 1 sampleRustKey [3] data
          = .ok rustR
        ∧ (keySignerId sampleRustKey.alg sampleRustKey.pubKey = .ok (PyStr.lit rustR.issuer)
          ↔ [3] = sampleRustKey.pubKey
            ∨ TagsCollide (taggedKey sampleRustKey.alg [3])
              (taggedKey sampleRustKey.alg sampleRustKey.pubKey)))
      ∧ ∃ data r halg, grantNaming algMldsa87 sampleKey.pubKey = .ok data
        ∧ Delegation.verifyGrantObject digestLibrary 1 algMldsa87 sampleKey.pubKey data = .ok r
        ∧ headerAlg data = .ok halg
        ∧ (keySignerId halg sampleKey.pubKey = .ok r.issuer
          ↔ algMldsa87 = halg
            ∨ TagsCollide (taggedKey algMldsa87 sampleKey.pubKey)
              (taggedKey halg sampleKey.pubKey)) := by
  obtain ⟨data, r, rustR, -, -, -, made, -, accepted, -, rustAccepted, -⟩ := two_issuers_accepted
  obtain ⟨go, rust, -⟩ := issuer_signed_iff Go.Cose.digestLibrary Rust.Cose.digestLibrary
    digestLibrary 32 1 algMldsa65 1 sampleKey sampleRustKey [3] data
  obtain ⟨data', r', made', accepted', -⟩ :=
    @other_alg_accepted sampleKey.pubKey rfl
  obtain ⟨-, -, python⟩ := issuer_signed_iff Go.Cose.digestLibrary Rust.Cose.digestLibrary
    digestLibrary 32 1 algMldsa87 1 sampleKey sampleRustKey sampleKey.pubKey data'
  obtain ⟨halg, header, decides⟩ := python r' accepted'
  exact ⟨⟨data, r, rustR, made, accepted, go r accepted, rustAccepted, rust rustR rustAccepted⟩,
    data', r', halg, made', accepted', header, decides⟩

/-- The issuer is not always the id of the verifier's own key, in Go and in Rust: the sample key
checked both sample objects, which have different issuers.
-/
theorem issuer_not_signing_key
    : ¬ (∀ pubkey signedObj r,
        Go.Delegation.verifyGrantObject Go.Cose.digestLibrary 1 sampleKey pubkey signedObj = .ok r
        → keySignerOctets sampleKey.alg sampleKey.pubKey = .ok r.issuer)
      ∧ ¬ ∀ pubkey signedObj r,
        Rust.Delegation.verifyGrantObject 32 Rust.Cose.digestLibrary 1 sampleRustKey pubkey
          signedObj = .ok r
        → keySignerId sampleRustKey.alg sampleRustKey.pubKey = .ok (PyStr.lit r.issuer) := by
  obtain ⟨data, r, rustR, data', r', rustR', -, -, accepted, accepted', rustAccepted,
    rustAccepted', distinct, rustDistinct⟩ := two_issuers_accepted
  constructor
  · intro claimed
    have same := (claimed _ _ r accepted).symm.trans (claimed _ _ r' accepted')
    exact distinct (Except.ok.inj same)
  · intro claimed
    have same := (claimed _ _ rustR rustAccepted).symm.trans (claimed _ _ rustR' rustAccepted')
    exact rustDistinct (PyStr.lit_injective (Except.ok.inj same))

end Naalp.Authorization
