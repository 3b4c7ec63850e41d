import Naalp.Implementations.Headers
import Naalp.Signatures.Parsing

/-! The object verifiers of both implementations, under signature packages that agree. -/

namespace Naalp.Implementations

open Naalp.Foundation
open Naalp.Python
open Naalp.Python.Cbor
open Naalp.Python.Cose
open Naalp.Python.Envelope
open Naalp.Go.Cose (Verifier PublicKey)
open Naalp.Signatures

/-- The packages accept the same signatures, under the keys that Go can unpack. -/
structure LibrariesAgree (lib : SignatureLibrary) (goLib : Go.Cose.SignatureLibrary) : Prop where
  mldsa : ∀ (set : MlDsa) (pk : PublicKey set) (message context sig : Bytes),
    lib.mldsaVerify set pk.bytes message sig context = .ok true
      ↔ goLib.mldsaVerify set pk.bytes message context sig = true
  ed25519 : ∀ key message sig : Bytes, key.length = 32
    → (lib.ed25519Verify key message sig = .ok true ↔ goLib.ed25519Verify key message sig = true)

section Signatures

variable {lib : SignatureLibrary} {goLib : Go.Cose.SignatureLibrary}
  (agree : LibrariesAgree lib goLib)

section Stages

variable {profile alg : Int} {tbs sig : Bytes} {done : Unit}

theorem checkSignature_pure {pubkey : Bytes} {o : Object}
    (notComposite : alg ≠ algComposite65Ed25519)
    : checkSignature lib profile pubkey alg o tbs sig = .ok done
      ↔ o.suite = 0 ∧ (algLevel alg).2 = true ∧ profileMinLevel profile ≤ (algLevel alg).1
        ∧ coseVerify1Raw lib alg pubkey tbs sig = .ok true := by
  rw [checkSignature, if_neg notComposite]
  simp only [raiseIf_bind_eq_ok, verdict_eq_ok, not_not, Bool.not_eq_false, not_lt]

theorem checkSignature_composite {pubkey : Bytes} {o : Object}
    : checkSignature lib profile pubkey algComposite65Ed25519 o tbs sig = .ok done
      ↔ profile ≠ profileSovereign ∧ o.suite = suiteMldsa65Ed25519
        ∧ (pubkey.drop mldsa65PubSize).length = 32
        ∧ compositeVerify lib (pubkey.take mldsa65PubSize) (pubkey.drop mldsa65PubSize) tbs sig
          = .ok true := by
  rw [checkSignature, if_pos rfl]
  simp only [raiseIf_bind_eq_ok, verdict_eq_ok, not_not, ne_eq]

theorem goCheckSignature_pure {v : Verifier} {g : Go.Envelope.Object}
    (notComposite : alg ≠ algComposite65Ed25519)
    : Go.Envelope.checkSignature goLib profile v alg g tbs sig = .ok done
      ↔ g.suite = 0 ∧ Go.Cose.profileMinLevel profile ≤ (Go.Cose.algLevel alg).1 ∧ alg = v.alg
        ∧ v.verifyRaw goLib tbs sig = .ok true := by
  unfold Go.Envelope.checkSignature
  rw [if_neg notComposite]
  simp only [raiseIf_bind_eq_ok, verdict_eq_ok, not_not, not_lt, ne_eq]

theorem goCheckSignature_composite {ml65 : PublicKey .mlDsa65} {ed : Bytes}
    {g : Go.Envelope.Object}
    : Go.Envelope.checkSignature goLib profile (.composite ml65 ed) algComposite65Ed25519 g tbs sig
        = .ok done
      ↔ profile ≠ profileSovereign ∧ g.suite = suiteMldsa65Ed25519
        ∧ Go.Cose.profileMinLevel profile ≤ (Go.Cose.algLevel algComposite65Ed25519).1
        ∧ Go.Cose.verifyComposite goLib ml65 ed tbs sig = .ok done := by
  unfold Go.Envelope.checkSignature
  rw [if_pos rfl]
  simp only [raiseIf_bind_eq_ok, not_not, not_lt, ne_eq, Verifier.alg, true_and]

/-- Go checks a signature only under the alg of the key. -/
theorem goCheckSignature_alg {v : Verifier} {g : Go.Envelope.Object}
    (checked : Go.Envelope.checkSignature goLib profile v alg g tbs sig = .ok done)
    : alg = v.alg := by
  by_cases composite : alg = algComposite65Ed25519
  · unfold Go.Envelope.checkSignature at checked
    rw [if_pos composite] at checked
    simp only [raiseIf_bind_eq_ok, not_not, not_lt, ne_eq] at checked
    exact checked.2.2.2.1
  · exact ((goCheckSignature_pure composite).mp checked).2.2.1

end Stages

theorem mprime_eq (m : Bytes)
    : computeMprime compositeLabelMldsa65Ed25519 [] m
      = .ok (Go.Cose.computeMprime compositeLabelMldsa65Ed25519 [] m) :=
  rfl

/-- A composite signature verifies exactly when it has the right length and both of its halves
verify.
-/
theorem compositeVerify_eq_ok {mldsaPk edPk m sig : Bytes}
    : compositeVerify lib mldsaPk edPk m sig = .ok true
      ↔ sig.length = mldsa65SigSize + 64
        ∧ lib.mldsaVerify .mlDsa65 mldsaPk
          (Go.Cose.computeMprime compositeLabelMldsa65Ed25519 [] m) (sig.take mldsa65SigSize)
          compositeLabelMldsa65Ed25519 = .ok true
        ∧ lib.ed25519Verify edPk (Go.Cose.computeMprime compositeLabelMldsa65Ed25519 [] m)
          (sig.drop mldsa65SigSize) = .ok true := by
  unfold compositeVerify
  split_ifs with size
  · simp [size]
  · rw [not_not] at size
    simp only [mprime_eq, ok_bind, bind_eq_ok, pure_eq_ok, Except.ok.injEq, Bool.and_eq_true, size,
      true_and]
    constructor
    · intro verified
      obtain ⟨_, mldsa, _, ed, rfl, rfl⟩ := verified
      exact ⟨mldsa, ed⟩
    · intro verified
      exact ⟨true, verified.1, true, verified.2, rfl, rfl⟩

include agree

/-- Go checks the same, and panics on a short Ed25519 key. -/
theorem verifyComposite_agrees {ml65 : PublicKey .mlDsa65} {ed message sig : Bytes} {done : Unit}
    : Go.Cose.verifyComposite goLib ml65 ed message sig = .ok done
      ↔ ed.length = 32 ∧ compositeVerify lib ml65.bytes ed message sig = .ok true := by
  rw [compositeVerify_eq_ok]
  simp only [Go.Cose.verifyComposite, Go.Cose.ed25519Verify, bind_eq_ok, raiseIf_eq_ok,
    exists_const, not_not, agree.mldsa]
  by_cases edSize : ed.length = 32
  · simp only [edSize, agree.ed25519 ed _ _ edSize]
    simp [mldsa65SigSize, MlDsa.signatureSize]
  · simp [edSize]

section Agreement

variable {profile : Int} {v : Verifier} {g : Go.Envelope.Object} {tbs sig : Bytes} {done : Unit}

theorem checkSignature_mldsa_agrees {set : MlDsa} {pk : PublicKey set}
    (isMldsa : mldsa v.alg = .ok set)
    (sameLevel : Go.Cose.algLevel v.alg = algLevel v.alg) (key : v.pubKey = pk.bytes)
    (verifies : v.verifyRaw goLib tbs sig = .ok (goLib.mldsaVerify set pk.bytes tbs [] sig))
    : Go.Envelope.checkSignature goLib profile v v.alg g tbs sig = .ok done
      ↔ checkSignature lib profile v.pubKey v.alg (fieldsOf g) tbs sig = .ok done := by
  have sameFloor : Go.Cose.profileMinLevel profile = profileMinLevel profile := rfl
  obtain ⟨notComposite, registered, pyVerifies⟩ := @coseVerify1Raw_mldsa lib _ _ isMldsa
  rw [goCheckSignature_pure notComposite, checkSignature_pure notComposite, sameLevel, sameFloor,
    verifies, pyVerifies, key, agree.mldsa, Except.ok.injEq]
  simp only [fieldsOf, registered, true_and]

/-- Under the alg of the key, the signature stages agree; one case per kind of key. -/
theorem checkSignature_agrees
    : Go.Envelope.checkSignature goLib profile v v.alg g tbs sig = .ok done
      ↔ checkSignature lib profile v.pubKey v.alg (fieldsOf g) tbs sig = .ok done := by
  have sameFloor : Go.Cose.profileMinLevel profile = profileMinLevel profile := rfl
  cases v with
  | mldsa65 pk => exact checkSignature_mldsa_agrees agree rfl rfl rfl rfl
  | mldsa87 pk => exact checkSignature_mldsa_agrees agree rfl rfl rfl rfl
  | ed25519 pk =>
      -- the level of Ed25519 alone is below every floor
      have below : ¬ profileMinLevel profile ≤ 0 := by
        unfold profileMinLevel
        split <;> decide
      have notComposite : algEd25519 ≠ algComposite65Ed25519 := by decide
      constructor
      · intro checked
        exact (below ((goCheckSignature_pure notComposite).mp checked).2.1).elim
      · intro checked
        exact (below ((checkSignature_pure notComposite).mp checked).2.2.1).elim
  | composite ml65 ed =>
      have reached : profile ≠ profileSovereign → profileMinLevel profile ≤ 3 := by
        intro notSovereign
        rw [profileMinLevel, if_neg notSovereign]
      have size : ml65.bytes.length = mldsa65PubSize := ml65.size
      have level : (Go.Cose.algLevel algComposite65Ed25519).1 = 3 := rfl
      simp only [Verifier.alg, Verifier.pubKey, goCheckSignature_composite,
        checkSignature_composite, verifyComposite_agrees agree, List.take_left' size,
        List.drop_left' size, level, sameFloor, fieldsOf]
      refine and_congr_right fun notSovereign => ?_
      simp only [reached notSovereign, true_and]

end Agreement

end Signatures

-----------------------------------------------------------------------------------------
-- What the Go verifier accepts
-----------------------------------------------------------------------------------------

section Stages

variable (goLib : Go.Cose.SignatureLibrary) (profile : Int) (v : Verifier)
  (kindOK : Option (Int → Int → Bool)) (knownCext : Int → Bool)

/-- The stages of the Go `Verify` on an object that it accepts. -/
structure GoAccepted (obj : Bytes) (parts : Parts) (g : Go.Envelope.Object) : Prop where
  size : obj.length ≤ maxObjectSize
  parsed : Go.Cose.parseSign1Raw obj = .ok (parts.prot, parts.payload, parts.sig)
  body : Go.Cbor.decodeBounded parts.payload maxNestingDepth = .ok (.m parts.pairs)
  contentID : Go.Envelope.checkContentID parts.pairs = .ok ()
  read : Go.Envelope.objectFromMap parts.pairs = .ok g
  ranges : ¬ (g.channel > 19 ∨ g.effect > 3 ∨ g.profile < 1 ∨ g.profile > 3)
  header : Go.Envelope.parseProtected parts.prot
    = .ok (parts.halg, g.signer, g.profile, naalpVersion)
  cext : ∀ pair ∈ g.cext.getD [], Go.Envelope.checkCextEntry knownCext pair = .ok ()
  notRotation : isRotationObject g.channel g.kind = false
  kind : (kindOK.map fun accepts => accepts g.channel g.kind) = some true
  registered : (Go.Cose.algLevel parts.halg).2 = true
  signature : ∃ tbs, Go.Cose.toBeSignedRaw parts.prot parts.payload = .ok tbs
    ∧ Go.Envelope.checkSignature goLib profile v parts.halg g tbs parts.sig = .ok ()

/-- What passes the Go checks on body and header, each of them read off in order. -/
theorem decodeAndCheck_eq_ok {prot payload : Bytes} {g : Go.Envelope.Object} {alg : Int}
    : Go.Envelope.decodeAndCheck prot payload knownCext = .ok (g, alg)
      ↔ ∃ m, Go.Cbor.decodeBounded payload maxNestingDepth = .ok (.m m)
        ∧ Go.Envelope.checkContentID m = .ok () ∧ Go.Envelope.objectFromMap m = .ok g
        ∧ ¬ (g.channel > 19 ∨ g.effect > 3 ∨ g.profile < 1 ∨ g.profile > 3)
        ∧ Go.Envelope.parseProtected prot = .ok (alg, g.signer, g.profile, naalpVersion)
        ∧ ∀ pair ∈ g.cext.getD [], Go.Envelope.checkCextEntry knownCext pair = .ok () := by
  constructor
  · intro checked
    obtain ⟨value, body, rest⟩ := bind_eq_ok.mp checked
    cases value with
    | m m =>
        simp only [bind_eq_ok, Prod.exists, raiseIf_eq_ok, exists_const, not_not, pure_eq_ok,
          Except.ok.injEq, Prod.mk.injEq, not_or, List.forM_eq_forM, forM_eq_ok, ne_eq] at rest
        obtain ⟨_, contentID, _, read, ranges, _, _, _, _, header, rfl, ⟨rfl, rfl⟩, cext, rfl,
            rfl⟩ :=
          rest
        exact ⟨m, body, contentID, read, by simpa only [not_or] using ranges, header, cext⟩
    | _ => cases rest
  · intro checked
    obtain ⟨m, body, contentID, read, ranges, header, cext⟩ := checked
    have entries : forM (g.cext.getD []) (Go.Envelope.checkCextEntry knownCext) = .ok () :=
      forM_eq_ok.mpr cext
    rw [Go.Envelope.decodeAndCheck, body, ok_bind]
    simp only [contentID, ok_bind, read, raiseIf_neg ranges, header, List.forM_eq_forM, entries,
      pure_eq_ok]
    simp

/-- Go accepts an object exactly when its parts pass every stage.
Witness: the checks are read off in the order of the code, each with what it passes on.
-/
theorem goVerify_eq_ok {obj : Bytes} {g : Go.Envelope.Object}
    : Go.Envelope.verify goLib profile v kindOK knownCext obj = .ok g
      ↔ ∃ parts, GoAccepted goLib profile v kindOK knownCext obj parts g := by
  constructor
  · intro accepted
    simp only [Go.Envelope.verify, raiseIf_bind_eq_ok, not_lt] at accepted
    obtain ⟨size, rest⟩ := accepted
    split at rest
    · rename_i prot payload sig parsed
      simp only [bind_eq_ok, Prod.exists, decodeAndCheck_eq_ok, raiseIf_eq_ok, exists_const,
        Bool.not_eq_true, Bool.not_eq_false, not_not, pure_eq_ok, Except.ok.injEq] at rest
      obtain ⟨_, alg, ⟨m, body, contentID, read, ranges, header, cext⟩, notRotation, kind,
        registered, tbs, signed, _, signature, rfl⟩ := rest
      exact ⟨⟨prot, payload, sig, m, alg⟩, size, parsed, body, contentID, read, ranges, header,
        cext, notRotation, kind, registered, tbs, signed, signature⟩
    · cases rest
  · intro accepted
    obtain ⟨parts, size, parsed, body, contentID, read, ranges, header, cext, notRotation, kind,
      registered, tbs, signed, signature⟩ := accepted
    have checked := (decodeAndCheck_eq_ok knownCext).mpr
      ⟨parts.pairs, body, contentID, read, ranges, header, cext⟩
    simp only [Go.Envelope.verify, raiseIf_neg (Nat.not_lt.mpr size), parsed, checked, ok_bind,
      notRotation, kind, registered, signed, signature, pure_eq_ok]
    simp

end Stages

-----------------------------------------------------------------------------------------
-- The verdicts
-----------------------------------------------------------------------------------------

/-- An object on which neither implementation reads more or less than the other: its integers
fit, its header carries the alg of the key and names a signer, and its body has known fields
only.
-/
structure Plain (alg : Int) (obj : Bytes) : Prop where
  wrapper : ∀ value, decode obj = .ok value → NintsFit value
  header : ∀ prot payload sig pairs, parseSign1Raw obj = .ok (prot, payload, sig)
    → decode prot = .ok (.m pairs)
    → NintsFit (.m pairs) ∧ (.u 1, .n alg) ∈ pairs ∧ NamesSigner pairs
  body : ∀ prot payload sig m, parseSign1Raw obj = .ok (prot, payload, sig)
    → decodeBounded payload maxNestingDepth = .ok (.m m)
    → NintsFit (.m m) ∧ ∀ pair ∈ m, ∃ fnum ∈ fieldNumbers, pair.1 = .u fnum

/-- The Go set of known critical extensions. -/
def knownSet (knownCext : List Int) (k : Int) : Bool := k ∈ knownCext

section Verdicts

variable (lib : SignatureLibrary) (goLib : Go.Cose.SignatureLibrary) (profile : Int) (v : Verifier)
  (kindOK : Option (Int → Int → Bool)) (knownCext : List Int) (obj : Bytes)

/-- Both verifiers, given the same key and alg, accept the object or neither does; they return
the same fields, and the header alg is that of the key.
-/
structure SameVerdict : Prop where
  accepts : (∃ o, verify lib profile v.alg v.pubKey kindOK obj knownCext = .ok o)
    ↔ ∃ g, Go.Envelope.verify goLib profile v kindOK (knownSet knownCext) obj = .ok g
  fields : ∀ o g, verify lib profile v.alg v.pubKey kindOK obj knownCext = .ok o
    → Go.Envelope.verify goLib profile v kindOK (knownSet knownCext) obj = .ok g → o = fieldsOf g
  alg : ((∃ o, verify lib profile v.alg v.pubKey kindOK obj knownCext = .ok o)
      ∨ ∃ g, Go.Envelope.verify goLib profile v kindOK (knownSet knownCext) obj = .ok g)
    → HeaderAlg v.alg obj

end Verdicts

section Comparing

variable {lib : SignatureLibrary} {goLib : Go.Cose.SignatureLibrary} {profile : Int} {v : Verifier}
  {kindOK : Option (Int → Int → Bool)} {knownCext : List Int} {obj : Bytes} {parts : Parts}
  {g : Go.Envelope.Object}

/-- Both implementations recognize the same critical extensions. -/
theorem checkCextEntry_agrees {pair : Value × Value}
    : Go.Envelope.checkCextEntry (knownSet knownCext) pair = .ok ()
      ↔ checkCextEntry knownCext pair = .ok () := by
  obtain ⟨k, value⟩ := pair
  cases k with
  | u k =>
      by_cases recheck : k = recheckKey
      · cases value with
        | u id => simp [Go.Envelope.checkCextEntry, checkCextEntry, recheck, raiseIf_eq_ok,
            Go.Envelope.asUint]
        | _ => simp [Go.Envelope.checkCextEntry, checkCextEntry, recheck, Go.Envelope.asUint]
      · simp [Go.Envelope.checkCextEntry, checkCextEntry, recheck, raiseIf_eq_ok, knownSet]
  | _ => simp [Go.Envelope.checkCextEntry, checkCextEntry]

theorem checkCext_agrees
    : (∀ pair ∈ g.cext.getD [], Go.Envelope.checkCextEntry (knownSet knownCext) pair = .ok ())
      ↔ checkCext knownCext (fieldsOf g).cext = .ok () := by
  simp only [checkCextEntry_agrees, checkCext, List.forM_eq_forM, forM_eq_ok, fieldsOf]

theorem kindAccepted_agrees
    : (kindOK.map fun accepts => accepts g.channel g.kind) = some true
      ↔ kindAccepted kindOK (fieldsOf g) = true := by
  cases kindOK <;> simp [kindAccepted, fieldsOf]

theorem checkRanges_agrees
    : ¬ (g.channel > 19 ∨ g.effect > 3 ∨ g.profile < 1 ∨ g.profile > 3)
      ↔ checkRanges (fieldsOf g) = .ok () :=
  raiseIf_eq_ok.symm

/-- The octets to be signed, for the parts of a parsed object. -/
theorem toBeSignedRaw_agrees {prot payload sig tbs : Bytes}
    (parsed : parseSign1Raw obj = .ok (prot, payload, sig))
    : Go.Cose.toBeSignedRaw prot payload = .ok tbs ↔ toBeSignedRaw prot payload = .ok tbs := by
  obtain ⟨unprotected, decoded⟩ := parseSign1Raw_eq_ok.mp parsed
  have members := (encodable_a.mp
    (encodable_tag.mp (decode_eq_ok.mp decoded).1.encodable).2.2).2
  have label : Encodable (.t signature1Label) := rfl
  have encodable : Encodable (.a [.t signature1Label, .b prot, .b [], .b payload]) := by
    refine encodable_a.mpr ⟨by simp, ?_⟩
    have first := members (.b prot) (by simp)
    have third := members (.b payload) (by simp)
    simpa [label, encodable_b] using ⟨encodable_b.mp first, encodable_b.mp third⟩
  rw [Go.Cose.toBeSignedRaw, toBeSignedRaw, goEncode_of_encodable encodable, encodable,
    Except.ok.injEq, Except.ok.injEq]

theorem algLevel_registered (v : Verifier) : (Go.Cose.algLevel v.alg).2 = true := by
  cases v <;> rfl

theorem parseSign1Raw_of_go {prot payload sig : Bytes}
    (parsed : Go.Cose.parseSign1Raw obj = .ok (prot, payload, sig))
    : parseSign1Raw obj = .ok (prot, payload, sig) ∧ ∀ value, decode obj = .ok value
      → NintsFit value := by
  obtain ⟨unprotected, decoded⟩ := goParseSign1Raw_eq_ok.mp parsed
  obtain ⟨decoded, fits⟩ := goDecode_eq_ok.mp decoded
  refine ⟨parseSign1Raw_eq_ok.mpr ⟨unprotected, decoded⟩, ?_⟩
  intro value again
  exact Except.ok.inj (decoded.symm.trans again) ▸ fits

theorem distinct_of_decodeBounded {data : Bytes} {bound : Nat} {m : List (Value × Value)}
    (decoded : decodeBounded data bound = .ok (.m m))
    : Encodable (.m m) ∧ (m.map encodedKey).Nodup := by
  have encodable := (decodeBounded_eq_ok.mp decoded).1.encodable
  exact ⟨encodable, (encodable_m.mp encodable).2.2⟩

/-- The header of an accepted object carries the alg it was checked under. -/
theorem headerAlg_of_parseProtected {prot signer : Bytes} {alg hprofile version : Int}
    {pairs : List (Value × Value)}
    (read : parseProtected prot = .ok (alg, signer, hprofile, version))
    (decoded : decode prot = .ok (.m pairs))
    : (.u 1, .n alg) ∈ pairs ∧ NamesSigner pairs := by
  obtain ⟨-, _, again, fields⟩ := parseProtected_eq_ok.mp read
  obtain rfl := Value.m.inj (Except.ok.inj (decoded.symm.trans again))
  have standing := mem_of_readEntry_alg (congrArg HeaderFields.alg fields)
  have named := (foldl_readEntry_signer pairs {}).mp (by rw [fields]; rfl)
  exact ⟨standing.resolve_left nofun, named.resolve_left nofun⟩

/-- On a plain object, what Python accepts Go accepts, with the same parts and fields.
Witness: stage by stage; a plain object has integers that Go can read, known fields, and the
alg of the key.
-/
theorem goAccepted_of_accepted (agree : LibrariesAgree lib goLib) (plain : Plain v.alg obj)
    (accepted : Accepted lib profile v.pubKey kindOK knownCext obj parts (fieldsOf g))
    : GoAccepted goLib profile v kindOK (knownSet knownCext) obj parts g := by
  obtain ⟨unprotected, decoded⟩ := parseSign1Raw_eq_ok.mp accepted.parsed
  have wrapper := plain.wrapper _ decoded
  obtain ⟨bodyFits, known⟩ := plain.body _ _ _ _ accepted.parsed accepted.body
  obtain ⟨encodable, distinct⟩ := distinct_of_decodeBounded accepted.body
  have read := checkHeader_eq_ok.mp accepted.header
  obtain ⟨-, pairs, header, -⟩ := parseProtected_eq_ok.mp read
  obtain ⟨headerFits, carries, -⟩ := plain.header _ _ _ _ accepted.parsed header
  have sameAlg : parts.halg = v.alg := by
    have distinctHeader := (distinct_of_decodeBounded header).2
    have standing := (headerAlg_of_parseProtected read header).1
    exact Value.n.inj (value_unique distinctHeader standing carries)
  obtain ⟨tbs, signed, signature⟩ := accepted.signature
  refine {
    size := accepted.size
    parsed := goParseSign1Raw_eq_ok.mpr ⟨unprotected, goDecode_eq_ok.mpr ⟨decoded, wrapper⟩⟩
    body := goDecodeBounded_eq_ok.mpr ⟨accepted.body, bodyFits⟩
    contentID := (checkContentID_eq_ok encodable).mpr accepted.contentId
    read := ?_
    ranges := checkRanges_agrees.mpr accepted.ranges
    header := goParseProtected_of_parseProtected read header headerFits
    cext := checkCext_agrees.mpr accepted.cext
    notRotation := accepted.notRotation
    kind := kindAccepted_agrees.mpr accepted.kind
    registered := sameAlg ▸ algLevel_registered v
    signature := ⟨tbs, (toBeSignedRaw_agrees accepted.parsed).mpr signed, ?_⟩
  }
  · have claimed := getField_id accepted.read rfl
    exact (goObjectFromMap_eq_ok distinct claimed).mpr
      ⟨known, objectFromMap_eq_ok.mpr accepted.read⟩
  · rw [sameAlg] at signature ⊢
    exact (checkSignature_agrees agree).mpr signature

/-- On a plain object, what Go accepts Python accepts.
Witness: stage by stage; the Go decoders are narrower, and only the profile and the signer have
to be there.
-/
theorem accepted_of_goAccepted (agree : LibrariesAgree lib goLib) (plain : Plain v.alg obj)
    (accepted : GoAccepted goLib profile v kindOK (knownSet knownCext) obj parts g)
    : Accepted lib profile v.pubKey kindOK knownCext obj parts (fieldsOf g) := by
  have parsed := (parseSign1Raw_of_go accepted.parsed).1
  have body := (goDecodeBounded_eq_ok.mp accepted.body).1
  obtain ⟨encodable, distinct⟩ := distinct_of_decodeBounded body
  have contentId := (checkContentID_eq_ok encodable).mp accepted.contentID
  obtain ⟨id, claimed⟩ := getField_of_checkContentId distinct contentId
  obtain ⟨-, pairs, header, -, -⟩ := goParseProtected_eq_ok.mp accepted.header
  obtain ⟨-, -, named⟩ := plain.header _ _ _ _ parsed header
  have hasProfile : g.profile ≠ 0 := by
    intro zero
    have ranges := accepted.ranges
    omega
  obtain ⟨tbs, signed, signature⟩ := accepted.signature
  have sameAlg := goCheckSignature_alg signature
  exact {
    size := accepted.size
    parsed := parsed
    body := body
    contentId := contentId
    read := objectFromMap_eq_ok.mp ((goObjectFromMap_eq_ok distinct claimed).mp accepted.read).2
    notRotation := accepted.notRotation
    ranges := checkRanges_agrees.mp accepted.ranges
    header := checkHeader_eq_ok.mpr
      (parseProtected_of_goParseProtected accepted.header header named hasProfile (by decide))
    cext := checkCext_agrees.mp accepted.cext
    kind := kindAccepted_agrees.mp accepted.kind
    signature := by
      refine ⟨tbs, (toBeSignedRaw_agrees parsed).mp signed, ?_⟩
      rw [sameAlg] at signature ⊢
      exact (checkSignature_agrees agree).mp signature
  }

/-- An object that both accept is plain.
Witness: what Go reads fits its integers, and what both read is known and names the alg of the
key.
-/
theorem plain_of_both {goParts : Parts} {o : Object}
    (accepted : Accepted lib profile v.pubKey kindOK knownCext obj parts o)
    (goAccepted : GoAccepted goLib profile v kindOK (knownSet knownCext) obj goParts g)
    : Plain v.alg obj := by
  obtain ⟨goParsed, wrapper⟩ := parseSign1Raw_of_go goAccepted.parsed
  obtain ⟨_, _, signature⟩ := goAccepted.signature
  have sameAlg := goCheckSignature_alg signature
  constructor
  · exact wrapper
  · intro prot payload sig pairs parsed decoded
    obtain ⟨rfl, rfl, rfl⟩ := Except.ok.inj (goParsed.symm.trans parsed)
    have sameProt : parts.prot = goParts.prot :=
      (Prod.mk.inj (Except.ok.inj (accepted.parsed.symm.trans goParsed))).1
    have read := sameProt ▸ checkHeader_eq_ok.mp accepted.header
    have named := (headerAlg_of_parseProtected read decoded).2
    obtain ⟨-, _, again, fits, ran⟩ := goParseProtected_eq_ok.mp goAccepted.header
    obtain rfl := Value.m.inj (Except.ok.inj (decoded.symm.trans again))
    have standing := mem_of_readEntry_alg (foldlM_readEntry_sameHeader ran).1.alg.symm
    exact ⟨fits, sameAlg ▸ standing.resolve_left nofun, named⟩
  · intro prot payload sig m parsed decoded
    obtain ⟨rfl, rfl, rfl⟩ := Except.ok.inj (goParsed.symm.trans parsed)
    obtain ⟨again, fits⟩ := goDecodeBounded_eq_ok.mp goAccepted.body
    obtain rfl := Value.m.inj (Except.ok.inj (decoded.symm.trans again))
    exact ⟨fits, known_of_goObjectFromMap goAccepted.read⟩

/-- An object that claims an id is the fields of a Go object. -/
theorem exists_fieldsOf {o : Object} {id : Bytes} (claimed : o.id = some id)
    : ∃ g, o = fieldsOf g := by
  refine ⟨{
    id := id, kind := o.kind, channel := o.channel, tier := o.tier, signer := o.signer,
    created := o.created, effect := o.effect, causes := o.causes, profile := o.profile,
    body := o.body, ext := o.ext, cext := o.cext, audience := o.audience, suite := o.suite
  }, ?_⟩
  cases o
  obtain rfl := claimed
  rfl

theorem headerAlg_of_plain {prot payload sig : Bytes} {pairs : List (Value × Value)}
    (plain : Plain v.alg obj) (parsed : parseSign1Raw obj = .ok (prot, payload, sig))
    (decoded : decode prot = .ok (.m pairs))
    : HeaderAlg v.alg obj :=
  ⟨prot, payload, sig, pairs, parsed, decoded, (plain.header _ _ _ _ parsed decoded).2.1⟩

/-- On a plain object the verdicts are the same.
Witness: its parts are read alike, and the stages over them pass alike.
-/
theorem sameVerdict_of_plain (agree : LibrariesAgree lib goLib) (plain : Plain v.alg obj)
    : SameVerdict lib goLib profile v kindOK knownCext obj := by
  have toGo : ∀ o, verify lib profile v.alg v.pubKey kindOK obj knownCext = .ok o
      → ∃ g, o = fieldsOf g
        ∧ Go.Envelope.verify goLib profile v kindOK (knownSet knownCext) obj = .ok g := by
    intro o verified
    obtain ⟨parts, accepted⟩ := (verify_eq_ok ..).mp verified
    have distinct := (distinct_of_decodeBounded accepted.body).2
    obtain ⟨id, claimed⟩ := accepted.id_eq_some distinct
    obtain ⟨g, rfl⟩ := exists_fieldsOf claimed
    exact ⟨g, rfl, (goVerify_eq_ok ..).mpr ⟨parts, goAccepted_of_accepted agree plain accepted⟩⟩
  have ofGo : ∀ g, Go.Envelope.verify goLib profile v kindOK (knownSet knownCext) obj = .ok g
      → verify lib profile v.alg v.pubKey kindOK obj knownCext = .ok (fieldsOf g) := by
    intro g verified
    obtain ⟨parts, accepted⟩ := (goVerify_eq_ok ..).mp verified
    exact (verify_eq_ok ..).mpr ⟨parts, accepted_of_goAccepted agree plain accepted⟩
  constructor
  · constructor
    · intro verified
      obtain ⟨o, verified⟩ := verified
      obtain ⟨g, -, goVerified⟩ := toGo o verified
      exact ⟨g, goVerified⟩
    · intro verified
      obtain ⟨g, verified⟩ := verified
      exact ⟨fieldsOf g, ofGo g verified⟩
  · intro o g verified goVerified
    exact Except.ok.inj (verified.symm.trans (ofGo g goVerified))
  · intro either
    have verified : ∃ o, verify lib profile v.alg v.pubKey kindOK obj knownCext = .ok o := by
      rcases either with verified | ⟨g, goVerified⟩
      · exact verified
      · exact ⟨_, ofGo g goVerified⟩
    obtain ⟨o, verified⟩ := verified
    obtain ⟨parts, accepted⟩ := (verify_eq_ok ..).mp verified
    have read := checkHeader_eq_ok.mp accepted.header
    obtain ⟨-, pairs, decoded, -⟩ := parseProtected_eq_ok.mp read
    exact headerAlg_of_plain plain accepted.parsed decoded

end Comparing

section Signed

variable {o : Object} {alg : Int} {id payload prot sig data : Bytes}

theorem known_of_mem_pairs {pair : Value × Value} (member : pair ∈ o.pairs id)
    : ∃ fnum ∈ fieldNumbers, pair.1 = .u fnum := by
  rcases List.mem_cons.mp member with rfl | member
  · exact ⟨_, by decide, rfl⟩
  · rcases mem_fieldPairs.mp member with
      rfl | rfl | rfl | rfl | rfl | rfl | rfl | rfl | rfl | ⟨_, _, rfl⟩ | ⟨_, _, rfl⟩ | ⟨_, rfl⟩
        | ⟨_, rfl⟩
    all_goals exact ⟨_, by decide, rfl⟩

/-- Of an object, only the body and the extensions can hold a negative integer. -/
theorem nintsFit_pairs (body : NintsFit o.body)
    (ext : ∀ pairs, o.ext = some pairs → NintsFit (.m pairs))
    (cext : ∀ pairs, o.cext = some pairs → NintsFit (.m pairs))
    : NintsFit (.m (o.pairs id)) := by
  refine nintsFit_m.mpr fun pair member => ?_
  rcases List.mem_cons.mp member with rfl | member
  · exact ⟨.u _, .b _⟩
  · rcases mem_fieldPairs.mp member with
      rfl | rfl | rfl | rfl | rfl | rfl | rfl | rfl | rfl | ⟨pairs, present, rfl⟩
        | ⟨pairs, present, rfl⟩ | ⟨-, rfl⟩ | ⟨-, rfl⟩
    · exact ⟨.u _, .u _⟩
    · exact ⟨.u _, .u _⟩
    · exact ⟨.u _, .u _⟩
    · exact ⟨.u _, .b _⟩
    · exact ⟨.u _, .u _⟩
    · exact ⟨.u _, .u _⟩
    · exact ⟨.u _, nintsFit_a.mpr (List.forall_mem_map.mpr fun cause _ => .b cause)⟩
    · exact ⟨.u _, .u _⟩
    · exact ⟨.u _, body⟩
    · exact ⟨.u _, ext pairs present⟩
    · exact ⟨.u _, cext pairs present⟩
    · exact ⟨.u _, .t _⟩
    · exact ⟨.u _, .u _⟩

/-- What signing writes is plain, where the negative integers of the alg and of the object fit.
Witness: the octets are decoded to what they were written from, whose negative integers are
those of the alg and of the object.
-/
theorem plain_assembled (nesting : depth (.m o.fieldPairs) ≤ maxNestingDepth)
    (encoded : encode (.m (o.pairs id)) = .ok payload)
    (header : protectedHeader alg o.signer o.profile = .ok prot)
    (assembled : assembleSign1Raw prot payload sig = .ok data)
    (fitsAlg : -2 ^ 63 ≤ alg) (fits : NintsFit (.m (o.sorted.pairs id)))
    : Plain alg data := by
  have parts := parseSign1Raw_assembled assembled
  have octets (v : Bytes) : NintsFit (.b v) := .b v
  constructor
  · intro value decoded
    have within : depth (.tag tagSign1 (.a [.b prot, .m [], .b payload, .b sig]))
        ≤ unboundedDepth := by
      simp [depth, depthItems, depthPairs, unboundedDepth]
    rw [decode, decodeBounded_encode assembled within] at decoded
    obtain rfl := Except.ok.inj decoded
    simp [sortMaps, sortMapsItems, sortMapsPairs, sortPairs, octets]
  · intro prot' payload' sig' pairs parsed decoded
    obtain ⟨rfl, rfl, rfl⟩ := Except.ok.inj (parts.symm.trans parsed)
    have within : depth (headerValue alg o.signer o.profile) ≤ unboundedDepth := by
      simp [headerValue, depth, depthPairs, unboundedDepth]
    have written : decode prot = .ok (headerValue alg o.signer o.profile) :=
      decodeBounded_encode header within
    obtain rfl := Value.m.inj (Except.ok.inj (written.symm.trans decoded))
    refine ⟨?_, by simp, _, _, List.mem_cons_of_mem _ (List.mem_singleton_self _),
      List.mem_cons_self⟩
    have numbers (n : Int) : NintsFit (.u n) := .u n
    have label : NintsFit (.t headerLabel) := .t _
    simpa [octets, numbers, label] using fitsAlg
  · intro prot' payload' sig' m parsed decoded
    obtain ⟨rfl, rfl, rfl⟩ := Except.ok.inj (parts.symm.trans parsed)
    rw [decodeBounded_payload nesting encoded] at decoded
    obtain rfl := Value.m.inj (Except.ok.inj decoded)
    exact ⟨fits, fun pair member => known_of_mem_pairs member⟩

/-- What `sign` makes of an object is verified by Go, to the fields of the object. -/
theorem goVerify_sign {lib : SignatureLibrary} {goLib : Go.Cose.SignatureLibrary}
    (agree : LibrariesAgree lib goLib) (signs : SignsVerifiably lib) (profile : Int) (v : Verifier)
    {set : MlDsa} {seed : Bytes} {kindOK : Option (Int → Int → Bool)} {knownCext : List Int}
    (signable : Signable kindOK knownCext o) (isMldsa : mldsa v.alg = .ok set)
    (key : lib.mldsaPublic set seed = .ok v.pubKey)
    (floor : profileMinLevel profile ≤ (algLevel v.alg).1) (pureSuite : o.suite = 0)
    (size : ∃ octets, o.signedSize v.alg set.signatureSize = .ok octets ∧ octets ≤ maxObjectSize)
    (fitsAlg : -2 ^ 63 ≤ v.alg) (fits : ∀ id, NintsFit (.m (o.sorted.pairs id)))
    : ∃ data g, sign lib o v.alg seed = .ok data
      ∧ Go.Envelope.verify goLib profile v kindOK (knownSet knownCext) data = .ok g
      ∧ { o.sorted with id := some g.id } = fieldsOf g := by
  obtain ⟨data, id, signed, -, accepted⟩ :=
    verify_sign signs signable v.alg isMldsa key floor pureSuite size
  have made := signed
  simp only [sign, bodyMap_with_id, bind_eq_ok, Except.ok.injEq, exists_eq_left'] at made
  obtain ⟨_, _, payload, encoded, prot, header, tbs, _, sig, _, assembled⟩ := made
  have plain := plain_assembled signable.nesting encoded header assembled fitsAlg (fits _)
  have same : SameVerdict lib goLib profile v kindOK knownCext data :=
    sameVerdict_of_plain agree plain
  obtain ⟨g, goVerified⟩ := same.accepts.mp ⟨_, accepted⟩
  have fields := same.fields _ g accepted goVerified
  have ids : id = g.id := Option.some.inj (congrArg Object.id fields)
  subst ids
  exact ⟨data, g, signed, goVerified, fields⟩

end Signed

/-- The two verifiers, with agreeing signature packages and the same key and alg, give the same
verdict on every plain object, and on no other object that one of them accepts.
-/
theorem sameVerdict_iff_plain {lib : SignatureLibrary} {goLib : Go.Cose.SignatureLibrary}
    (agree : LibrariesAgree lib goLib) (profile : Int) (v : Verifier)
    (kindOK : Option (Int → Int → Bool)) (knownCext : List Int) (obj : Bytes)
    : (Plain v.alg obj → SameVerdict lib goLib profile v kindOK knownCext obj)
      ∧ ((∃ o, verify lib profile v.alg v.pubKey kindOK obj knownCext = .ok o)
          ∨ (∃ g, Go.Envelope.verify goLib profile v kindOK (knownSet knownCext) obj = .ok g)
        → (SameVerdict lib goLib profile v kindOK knownCext obj ↔ Plain v.alg obj)) := by
  refine ⟨sameVerdict_of_plain agree, ?_⟩
  intro either
  refine ⟨?_, sameVerdict_of_plain agree⟩
  intro same
  have goVerified
      : ∃ g, Go.Envelope.verify goLib profile v kindOK (knownSet knownCext) obj = .ok g := by
    rcases either with verified | goVerified
    · exact same.accepts.mp verified
    · exact goVerified
  obtain ⟨o, verified⟩ := same.accepts.mpr goVerified
  obtain ⟨g, goVerified⟩ := goVerified
  obtain ⟨parts, accepted⟩ := (verify_eq_ok ..).mp verified
  obtain ⟨goParts, goAccepted⟩ := (goVerify_eq_ok ..).mp goVerified
  exact plain_of_both accepted goAccepted

theorem digestLibraries_agree : LibrariesAgree digestLibrary Go.Cose.digestLibrary where
  mldsa set pk message context sig := by simp [digestLibrary, Go.Cose.digestLibrary]
  ed25519 key message sig _ := by simp [digestLibrary, Go.Cose.digestLibrary]

def sampleKey : Verifier := .mldsa65 ⟨fitTo mldsa65PubSize [9], length_sampleKey⟩

/-- The signed sample object is accepted by Go. -/
theorem goVerify_sampleObject
    : ∃ data g, sign digestLibrary sampleObject algMldsa65 [9] = .ok data
      ∧ Go.Envelope.verify Go.Cose.digestLibrary 1 sampleKey (some fun _ _ => true) (knownSet [])
        data = .ok g := by
  have signable : Signable (some fun _ _ => true) [] sampleObject :=
    sampleObject_signable (.inl rfl)
  have key : digestLibrary.mldsaPublic .mlDsa65 [9] = .ok sampleKey.pubKey := rfl
  have fits : ∀ id, NintsFit (.m (sampleObject.sorted.pairs id)) := by
    intro id
    refine nintsFit_pairs ?_ nofun ?_
    · change NintsFit (.m [(.u 0, .u 8), (.u 1, .u 7)])
      simp [NintsFit.u]
    · rintro pairs ⟨⟩
      change NintsFit (.m [(.u recheckKey, .u 1)])
      simp [NintsFit.u]
  obtain ⟨data, g, signed, verified, -⟩ := goVerify_sign digestLibraries_agree
    digestLibrary_signsVerifiably 1 sampleKey signable rfl key (by decide) rfl
    ⟨3420, sampleObject_size, by decide⟩ (by decide) fits
  exact ⟨data, g, signed, verified⟩

/-- The signed sample object is accepted by Python, so the verdicts on it are the same exactly
when it is plain.
-/
theorem sameVerdict_iff_plain_sample
    : ∃ data o, sign digestLibrary sampleObject algMldsa65 [9] = .ok data
      ∧ verify digestLibrary 1 sampleKey.alg sampleKey.pubKey (some fun _ _ => true) data [] = .ok o
      ∧ (SameVerdict digestLibrary Go.Cose.digestLibrary 1 sampleKey (some fun _ _ => true) [] data
        ↔ Plain sampleKey.alg data) := by
  obtain ⟨data, id, signed, -, -, accepted⟩ := sampleObject_verified
  have same := (sameVerdict_iff_plain digestLibraries_agree 1 sampleKey (some fun _ _ => true) []
    data).2 (.inl ⟨_, accepted⟩)
  exact ⟨data, _, signed, accepted, same⟩

/-- An object with the unknown field 15 is accepted by Python and refused by Go.
Witness: what both accept has no unknown field.
-/
theorem unknown_field_verdicts_differ
    : LibrariesAgree digestLibrary Go.Cose.digestLibrary
      ∧ ∃ data, signWithField digestLibrary sampleObject (.u 15, .u 7) algMldsa65 [9] = .ok data
        ∧ ¬ SameVerdict digestLibrary Go.Cose.digestLibrary 1 sampleKey (some fun _ _ => true) []
          data := by
  refine ⟨digestLibraries_agree, ?_⟩
  obtain ⟨data, parts, o, -, -, signed, stages, stands, -⟩ := unknownField_accepted
  obtain ⟨unknown, field⟩ := Option.isSome_iff_exists.mp stands
  refine ⟨data, signed, ?_⟩
  intro same
  obtain ⟨g, goVerified⟩ := same.accepts.mp ⟨o, (verify_eq_ok ..).mpr ⟨parts, stages⟩⟩
  obtain ⟨goParts, goStages⟩ := (goVerify_eq_ok ..).mp goVerified
  have plain : Plain sampleKey.alg data := plain_of_both stages goStages
  have distinct := (distinct_of_decodeBounded stages.body).2
  obtain ⟨fnum, known, named⟩ := (plain.body _ _ _ _ stages.parsed stages.body).2 _
    ((getField_eq_some distinct).mp field)
  obtain rfl := Value.u.inj named
  exact absurd known (by decide)

end Naalp.Implementations
