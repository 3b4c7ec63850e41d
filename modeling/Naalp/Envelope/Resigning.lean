import Naalp.Envelope.SignVerify
import Naalp.Go.Envelope
import Naalp.Implementations.Bodies
import Naalp.Python.Envelope
import Naalp.Signatures.Productions

/-! Signing one object again and again. The id that a call leaves behind is not read by the next
one, but the suite that a composite call leaves is: a later pure call signs it, where Go clears it.
-/

namespace Naalp.Python.Envelope

open Naalp.Foundation
open Naalp.Python.Cbor
open Naalp.Python.Cose

variable {lib : SignatureLibrary} {o : Object}

-----------------------------------------------------------------------------------------
-- The object after some calls
-----------------------------------------------------------------------------------------

theorem identified_eq (o : Object) : ∃ id, o.identified = { o with id } := by
  unfold Object.identified
  split
  · exact ⟨_, rfl⟩
  · exact ⟨o.id, rfl⟩

/-- The suite after some calls is that of the object before them, unless one was composite. -/
def suiteAfter (suite : Int) (calls : List SignCall) : Int :=
  if ∀ call ∈ calls, call.isPure then suite else suiteMldsa65Ed25519

/-- One call changes nothing but the id and the suite. -/
theorem after_eq (call : SignCall) (o : Object)
    : ∃ id, call.after o = { o with id, suite := suiteAfter o.suite [call] } := by
  cases call with
  | sign alg seed => exact identified_eq o
  | signComposite mldsaSeed edSeed => exact identified_eq { o with suite := suiteMldsa65Ed25519 }

/-- Nor do any number of calls; by induction over them. -/
theorem afterCalls_eq (calls : List SignCall) (o : Object)
    : ∃ id, o.afterCalls calls = { o with id, suite := suiteAfter o.suite calls } := by
  induction calls generalizing o with
  | nil => exact ⟨o.id, rfl⟩
  | cons call rest ih =>
      obtain ⟨first, afterFirst⟩ := after_eq call o
      obtain ⟨id, afterRest⟩ := ih (call.after o)
      have suites
          : suiteAfter (suiteAfter o.suite [call]) rest = suiteAfter o.suite (call :: rest) := by
        simp only [suiteAfter, List.forall_mem_cons]
        grind
      refine ⟨id, ?_⟩
      rw [Object.afterCalls, List.foldl_cons, ← Object.afterCalls, afterRest, afterFirst, ← suites]

/-- No call reads the id that an earlier one left. -/
theorem result_afterCalls (call : SignCall) (calls : List SignCall)
    : call.result lib (o.afterCalls calls)
      = call.result lib { o with suite := suiteAfter o.suite calls } := by
  obtain ⟨id, after⟩ := afterCalls_eq calls o
  rw [after]
  cases call <;> rfl

-----------------------------------------------------------------------------------------
-- What a call signs
-----------------------------------------------------------------------------------------

/-- The header and the payload that are signed for an object under an alg, and the signed message.
-/
structure Composed (o : Object) (alg : Int) (id payload prot tbs : Bytes) : Prop where
  identified : o.contentId = .ok id
  encoded : encode (.m (o.pairs id)) = .ok payload
  header : protectedHeader alg o.signer o.profile = .ok prot
  message : toBeSignedRaw prot payload = .ok tbs

/-- Both signing functions, up to what makes the signature. -/
def signWith (o : Object) (alg : Int) (signature : Bytes → Py Bytes) : Py Bytes := do
  let id ← o.contentId
  let payload ← encode (.m (o.pairs id))
  let prot ← protectedHeader alg o.signer o.profile
  let tbs ← toBeSignedRaw prot payload
  let sig ← signature tbs
  assembleSign1Raw prot payload sig

/-- Signing returns exactly the assembly of what was composed with its signature. -/
theorem signWith_eq_ok {alg : Int} {signature : Bytes → Py Bytes} {data : Bytes}
    : signWith o alg signature = .ok data ↔ ∃ id payload prot tbs sig,
        Composed o alg id payload prot tbs ∧ signature tbs = .ok sig
        ∧ assembleSign1Raw prot payload sig = .ok data := by
  simp only [signWith, bind_eq_ok]
  constructor
  · intro returned
    obtain ⟨id, identified, payload, encoded, prot, header, tbs, message, sig, signed, assembled⟩ :=
      returned
    exact ⟨id, payload, prot, tbs, sig, ⟨identified, encoded, header, message⟩, signed, assembled⟩
  · intro returned
    obtain ⟨id, payload, prot, tbs, sig, composed, signed, assembled⟩ := returned
    exact ⟨id, composed.identified, payload, composed.encoded, prot, composed.header, tbs,
      composed.message, sig, signed, assembled⟩

theorem sign_eq_signWith (alg : Int) (seed : Bytes)
    : sign lib o alg seed = signWith o alg (mldsaSign lib alg seed) := by
  simp only [sign, signWith, bodyMap_with_id, ok_bind]

theorem signComposite_eq_signWith (mldsaSeed edSeed : Bytes)
    : signComposite lib o mldsaSeed edSeed
      = signWith { o with suite := suiteMldsa65Ed25519 } algComposite65Ed25519
        (compositeSign lib mldsaSeed edSeed) := by
  have body := bodyMap_with_id { o with suite := suiteMldsa65Ed25519 }
  simp only [signComposite, signWith, body, ok_bind]

-----------------------------------------------------------------------------------------
-- Verifying what a call returned
-----------------------------------------------------------------------------------------

section Verifying

variable {kindValidator : Option (Int → Int → Bool)} {knownCext : List Int}

/-- The suite is a bounded field of its own, which takes no part in the other bounds. -/
theorem Signable.with_suite (signable : Signable kindValidator knownCext o) (suite : Int)
    : Signable kindValidator knownCext { o with suite } := by
  refine { signable with nesting := ?_ }
  have nesting := depthPairs_le.mp (Nat.le_of_succ_le_succ signable.nesting)
  refine Nat.succ_le_succ (depthPairs_le.mpr ?_)
  intro pair member
  rcases mem_fieldPairs.mp member with
    rfl | rfl | rfl | rfl | rfl | rfl | rfl | rfl | rfl | ⟨_, present, rfl⟩ | ⟨_, present, rfl⟩
      | ⟨present, rfl⟩ | ⟨present, rfl⟩
  case inr.inr.inr.inr.inr.inr.inr.inr.inr.inr.inr.inr => exact ⟨Nat.one_le_ofNat, Nat.one_le_ofNat⟩
  all_goals exact nesting _ (mem_fieldPairs.mpr (by simp_all))

/-- What a call returns verifies under its key and alg, on every profile that admits the alg. -/
def SignCall.Verifies (lib : SignatureLibrary) (kindValidator : Option (Int → Int → Bool))
    (knownCext : List Int) (data : Bytes) : SignCall → Prop
  | .sign alg seed => ∀ set pubkey profile, mldsa alg = .ok set
      → lib.mldsaPublic set seed = .ok pubkey → profileMinLevel profile ≤ (algLevel alg).1
      → ∃ o, verify lib profile alg pubkey kindValidator data knownCext = .ok o
  | .signComposite mldsaSeed edSeed => ∀ mldsaPub edPub profile,
      lib.mldsaPublic .mlDsa65 mldsaSeed = .ok mldsaPub → lib.ed25519Public edSeed = .ok edPub
      → profile ≠ profileSovereign
      → ∃ o, verify lib profile algComposite65Ed25519 (mldsaPub ++ edPub) kindValidator data
        knownCext
        = .ok o

variable (signs : SignsVerifiably lib) (signable : Signable kindValidator knownCext o)
  {data : Bytes} (small : data.length ≤ maxObjectSize)

include signs signable small

/-- A pure signing call on an object without a suite verifies as one on a fresh object. -/
theorem verifies_sign {alg : Int} {seed : Bytes} (pureSuite : o.suite = 0)
    (returned : sign lib o alg seed = .ok data)
    : (SignCall.sign alg seed).Verifies lib kindValidator knownCext data := by
  intro set pubkey profile isMldsa key floor
  rw [sign_eq_signWith, signWith_eq_ok] at returned
  obtain ⟨id, payload, prot, tbs, sig, composed, signed, assembled⟩ := returned
  obtain ⟨sig', signed', -, valid⟩ := signs.mldsa key tbs [] (Nat.zero_le _)
  have same : mldsaSign lib alg seed tbs = .ok sig' := by
    rw [mldsaSign, isMldsa, ok_bind, signed']
  obtain rfl := Except.ok.inj (signed.symm.trans same)
  have checked := @checkSignature_mldsa _ _ _ _ o.sorted _ _ _ isMldsa floor pureSuite valid
  exact ⟨_, verify_assembled signable composed.identified composed.encoded composed.header
    composed.message assembled small checked⟩

/-- A composite signing call always does: it sets the suite itself. -/
theorem verifies_signComposite {mldsaSeed edSeed : Bytes}
    (returned : signComposite lib o mldsaSeed edSeed = .ok data)
    : (SignCall.signComposite mldsaSeed edSeed).Verifies lib kindValidator knownCext data := by
  intro mldsaPub edPub profile mldsaKey edKey notSovereign
  rw [signComposite_eq_signWith, signWith_eq_ok] at returned
  obtain ⟨id, payload, prot, tbs, sig, composed, signed, assembled⟩ := returned
  obtain ⟨sig', signed', -, valid⟩ := compositeSign_verifies signs mldsaKey edKey tbs
  obtain rfl := Except.ok.inj (signed.symm.trans signed')
  have checked := @checkSignature_composite _ _ { o with suite := suiteMldsa65Ed25519 }.sorted
    _ _ _ _ notSovereign rfl (signs.mldsaKey mldsaKey) (signs.ed25519Key edKey).2 valid
  exact ⟨_, verify_assembled (signable.with_suite _) composed.identified composed.encoded
    composed.header composed.message assembled small checked⟩

end Verifying

-----------------------------------------------------------------------------------------
-- The header and the payload in Go
-----------------------------------------------------------------------------------------

/-- The object as the Go implementation holds it. -/
def Object.inGo (o : Object) : Go.Envelope.Object where
  id := o.id.getD []
  kind := o.kind
  channel := o.channel
  tier := o.tier
  signer := o.signer
  created := o.created
  effect := o.effect
  causes := o.causes
  profile := o.profile
  body := o.body
  ext := o.ext
  cext := o.cext
  audience := o.audience
  suite := o.suite

/-- Go's `Sign` puts the same header and payload around whatever the signer signs. -/
def SamePartsInGo (o : Object) (alg : Int) (data : Bytes) : Prop :=
  ∃ prot payload sig, parseSign1Raw data = .ok (prot, payload, sig)
    ∧ ∀ signer : Go.Envelope.Signer, signer.alg = alg
      → (∀ message, ∃ goSig, signer.sign message = .ok goSig ∧ goSig.length < 2 ^ 64)
      → ∃ goData goSig, Go.Envelope.sign o.inGo signer = .ok goData
        ∧ Go.Cose.parseSign1Raw goData = .ok (prot, payload, goSig)

section Parts

variable {alg : Int} {id payload prot tbs data seed : Bytes}

theorem goEncode_of_encode {v : Value} {octets : Bytes} (encoded : encode v = .ok octets)
    : Go.Cbor.encode v = .ok octets := by
  obtain ⟨encodable, rfl⟩ := encode_eq_ok.mp encoded
  exact Implementations.goEncode_of_encodable encodable

/-- What was assembled is taken apart by Go into the same parts. -/
theorem goParseSign1Raw_assembled {sig : Bytes}
    (assembled : assembleSign1Raw prot payload sig = .ok data)
    : Go.Cose.parseSign1Raw data = .ok (prot, payload, sig) := by
  obtain ⟨unprotected, decoded⟩ :=
    Signatures.parseSign1Raw_eq_ok.mp (parseSign1Raw_assembled assembled)
  refine Signatures.goParseSign1Raw_eq_ok.mpr ⟨.m [], Implementations.goDecode_eq_ok.mpr ⟨?_, ?_⟩⟩
  · have within : depth (.tag tagSign1 (.a [.b prot, .m [], .b payload, .b sig]))
        ≤ unboundedDepth := by
      simp [depth, depthItems, depthPairs, unboundedDepth]
    exact decodeBounded_encode assembled within
  · rw [Implementations.nintsFit_tag, Implementations.nintsFit_a]
    simp only [List.forall_mem_cons]
    exact ⟨.b _, Implementations.nintsFit_m.mpr (List.forall_mem_nil _), .b _, .b _,
      List.forall_mem_nil _⟩

theorem Composed.sizes (composed : Composed o alg id payload prot tbs)
    : prot.length < 2 ^ 64 ∧ payload.length < 2 ^ 64 := by
  obtain ⟨-, members, -⟩ := encode_a_eq_ok.mp composed.message
  exact ⟨encodable_b.mp (members (.b prot) (by simp)),
    encodable_b.mp (members (.b payload) (by simp))⟩

theorem Composed.encodable (composed : Composed o alg id payload prot tbs)
    : Encodable (.m o.fieldPairs) := by
  have computed : Cbor.contentId (.m o.fieldPairs) = .ok id := composed.identified
  obtain ⟨octets, encoded, -⟩ := bind_eq_ok.mp computed
  exact (encode_eq_ok.mp encoded).1

/-- Under a pure alg Go signs the object without a suite. -/
theorem goSign_composed (composed : Composed { o with suite := 0 } alg id payload prot tbs)
    (notComposite : alg ≠ algComposite65Ed25519) {signer : Go.Envelope.Signer}
    (same : signer.alg = alg)
    (signs : ∀ message, ∃ goSig, signer.sign message = .ok goSig ∧ goSig.length < 2 ^ 64)
    : ∃ goData goSig, Go.Envelope.sign o.inGo signer = .ok goData
        ∧ Go.Cose.parseSign1Raw goData = .ok (prot, payload, goSig) := by
  obtain ⟨goSig, signed, short⟩ := signs tbs
  obtain ⟨protSize, payloadSize⟩ := composed.sizes
  obtain ⟨goData, assembled⟩ := assembleSign1Raw_ok protSize payloadSize short
  refine ⟨goData, goSig, ?_, goParseSign1Raw_assembled assembled⟩
  have cleared : (Go.Envelope.compositeSuiteForAlg signer.alg).getD 0 = 0 := by
    rw [Go.Envelope.compositeSuiteForAlg, same, if_neg notComposite, Option.getD_none]
  have identified : ({ o.inGo with suite := 0 } : Go.Envelope.Object).contentID = .ok id :=
    (Implementations.contentID_eq_ok composed.encodable).mpr composed.identified
  have encoded : Go.Cbor.encode
      (.m (({ o.inGo with suite := 0, id } : Go.Envelope.Object).bodyMap true)) = .ok payload :=
    goEncode_of_encode composed.encoded
  have header : Go.Envelope.protectedHeader signer.alg o.signer o.profile = .ok prot :=
    same ▸ goEncode_of_encode composed.header
  have message : Go.Cose.toBeSignedRaw prot payload = .ok tbs := goEncode_of_encode composed.message
  have wrapped : Go.Cose.assembleSign1Raw prot payload goSig = .ok goData :=
    goEncode_of_encode assembled
  simp only [Go.Envelope.sign, cleared, identified, ok_bind, encoded]
  rw [show o.inGo.signer = o.signer from rfl, show o.inGo.profile = o.profile from rfl, header]
  simp only [ok_bind, message, signed, wrapped]

/-- The octet count of a map that has few entries, which are as many as its first octet tells. -/
theorem encoding_few {pairs : List (Value × Value)} (encodable : Encodable (.m pairs))
    (few : pairs.length < 24)
    : (encoding (.m pairs)).length = 1 + (pairs.map fun pair => (encodedPair pair).length).sum
      ∧ (encoding (.m pairs)).take 1 = headBytes 5 pairs.length := by
  obtain ⟨-, -, -, octets⟩ := encode_m_eq_ok.mp encodable
  have oneOctet : ∀ n < 24, (headBytes 5 n).length = 1 := by decide
  constructor
  · rw [octets, List.length_append, oneOctet _ few, List.length_flatMap]
    exact congrArg (1 + ·) ((sortPairs_perm pairs).map _).sum_eq
  · rw [octets, List.take_left' (oneOctet _ few)]

theorem length_pairs_lt (o : Object) (id : Bytes) : (o.pairs id).length < 24 := by
  have bound := length_fieldPairs o
  rw [Object.pairs, List.length_cons]
  omega

theorem fieldPairs_suite (o : Object)
    : o.fieldPairs = { o with suite := 0 }.fieldPairs
      ++ if o.suite ≠ 0 then [(.u fieldSuite, .u o.suite)] else [] := by
  simp [Object.fieldPairs]

/-- Without its suite an object can be composed as well.
Witness: the fields are some of those of the object, so they can be encoded, and the payload is
no longer.
-/
theorem Composed.without_suite (composed : Composed o alg id payload prot tbs)
    : ∃ id payload tbs, Composed { o with suite := 0 } alg id payload prot tbs := by
  obtain ⟨encodable, rfl⟩ := encode_eq_ok.mp composed.encoded
  obtain ⟨-, members, -⟩ := encodable_m.mp encodable
  have kept : ∀ pair ∈ { o with suite := 0 }.fieldPairs, pair ∈ o.fieldPairs := by
    intro pair member
    rw [fieldPairs_suite]
    exact List.mem_append_left _ member
  have fields : Encodable (.m { o with suite := 0 }.fieldPairs) := by
    have few := length_fieldPairs { o with suite := 0 }
    refine encodable_m.mpr ⟨by omega, ?_, nodup_of_ascending (fieldPairs_ascending _)⟩
    exact fun pair member => members pair (List.mem_cons_of_mem _ (kept pair member))
  obtain ⟨id', identified⟩ : ∃ id', { o with suite := 0 }.contentId = .ok id' := by
    have computed : Cbor.contentId (.m { o with suite := 0 }.fieldPairs)
        = .ok (contentIdBytes _) := bind_eq_ok.mpr ⟨_, fields, rfl⟩
    exact ⟨_, computed⟩
  have size := length_contentId composed.identified
  have size' := length_contentId identified
  have whole : Encodable (.m ({ o with suite := 0 }.pairs id')) := by
    have few := length_pairs_lt { o with suite := 0 } id'
    refine encodable_m.mpr ⟨by omega, ?_, nodup_of_ascending (pairs_ascending _ _)⟩
    refine List.forall_mem_cons.mpr ⟨⟨rfl, encodable_b.mpr (by omega)⟩, ?_⟩
    exact (encodable_m.mp fields).2.1
  have shorter : (encoding (.m ({ o with suite := 0 }.pairs id'))).length
      ≤ (encoding (.m (o.pairs id))).length := by
    have idSize : (encodedPair (.u fieldId, .b id')).length
        = (encodedPair (.u fieldId, .b id)).length := by
      rw [encodedPair, encodedPair, List.length_append, List.length_append,
        length_encoding_b (encodable_b.mpr (by omega)),
        length_encoding_b (encodable_b.mpr (by omega)),
        size, size']
    rw [(encoding_few whole (length_pairs_lt _ _)).1,
      (encoding_few encodable (length_pairs_lt _ _)).1,
      Object.pairs, Object.pairs, fieldPairs_suite o, List.map_cons, List.map_cons, List.map_append,
      List.sum_cons, List.sum_cons, List.sum_append, idSize]
    omega
  obtain ⟨protSize, payloadSize⟩ := composed.sizes
  obtain ⟨tbs', message⟩ := toBeSignedRaw_ok protSize (shorter.trans_lt payloadSize)
  exact ⟨id', _, tbs', identified, whole, composed.header, message⟩

/-- The payload tells whether there is a suite. -/
theorem Composed.suite_eq_zero {id' tbs' : Bytes} (composed : Composed o alg id payload prot tbs)
    (cleared : Composed { o with suite := 0 } alg id' payload prot tbs')
    : o.suite = 0 := by
  by_contra present
  obtain ⟨encodable, octets⟩ := encode_eq_ok.mp composed.encoded
  obtain ⟨encodable', octets'⟩ := encode_eq_ok.mp cleared.encoded
  have few := length_pairs_lt o id
  have few' := length_pairs_lt { o with suite := 0 } id'
  have heads
      : headBytes 5 (o.pairs id).length = headBytes 5 ({ o with suite := 0 }.pairs id').length := by
    rw [← (encoding_few encodable few).2, ← (encoding_few encodable' few').2, ← octets, ← octets']
  have injective : ∀ n < 24, ∀ m < 24, headBytes 5 n = headBytes 5 m → n = m := by decide
  have lengths := injective _ few _ few' heads
  rw [Object.pairs, Object.pairs, fieldPairs_suite o, if_pos present] at lengths
  simp at lengths

/-- Go reads the parts of a signed object without a suite as Python does. -/
theorem sameParts_of_sign (pureSuite : o.suite = 0) (returned : sign lib o alg seed = .ok data)
    : SamePartsInGo o alg data := by
  rw [sign_eq_signWith, signWith_eq_ok] at returned
  obtain ⟨id, payload, prot, tbs, sig, composed, signed, assembled⟩ := returned
  obtain ⟨set, isMldsa, -⟩ := bind_eq_ok.mp signed
  obtain ⟨notComposite, -⟩ := @coseVerify1Raw_mldsa lib _ _ isMldsa
  have cleared : { o with suite := 0 } = o := by rw [← pureSuite]
  refine ⟨prot, payload, sig, parseSign1Raw_assembled assembled, ?_⟩
  intro signer same signs
  exact goSign_composed (cleared ▸ composed) notComposite same signs

/-- Where Go reads the same parts, the object had no suite: with one, the payloads differ in a
field.
Witness: Go does not know the suite and writes the payload of the object without it.
-/
theorem suite_of_sameParts (returned : sign lib o alg seed = .ok data)
    (same : SamePartsInGo o alg data)
    : o.suite = 0 := by
  rw [sign_eq_signWith, signWith_eq_ok] at returned
  obtain ⟨id, payload, prot, tbs, sig, composed, signed, assembled⟩ := returned
  obtain ⟨set, isMldsa, -⟩ := bind_eq_ok.mp signed
  obtain ⟨notComposite, -⟩ := @coseVerify1Raw_mldsa lib _ _ isMldsa
  obtain ⟨prot', payload', sig', parsed, inGo⟩ := same
  have same := Except.ok.inj ((parseSign1Raw_assembled assembled).symm.trans parsed)
  simp only [Prod.mk.injEq] at same
  obtain ⟨rfl, rfl, -⟩ := same
  obtain ⟨id', payload', tbs', cleared⟩ := composed.without_suite
  have short : ∀ message : Bytes, ∃ goSig, (Except.ok [] : Go.Result Bytes) = .ok goSig
      ∧ goSig.length < 2 ^ 64 := fun _ => ⟨[], rfl, by decide⟩
  let silent : Go.Envelope.Signer := ⟨alg, fun _ => .ok []⟩
  obtain ⟨goData, goSig, made, parts⟩ := inGo silent rfl short
  obtain ⟨goData', goSig', made', parts'⟩ :=
    @goSign_composed _ _ _ _ _ _ cleared notComposite silent
    rfl short
  obtain rfl := Except.ok.inj (made.symm.trans made')
  have payloads := Except.ok.inj (parts.symm.trans parts')
  simp only [Prod.mk.injEq, true_and] at payloads
  obtain ⟨rfl, -⟩ := payloads
  exact composed.suite_eq_zero cleared

end Parts

-----------------------------------------------------------------------------------------
-- Runs of calls
-----------------------------------------------------------------------------------------

section Runs

variable {kindValidator : Option (Int → Int → Bool)} {knownCext : List Int}

/-- What a call returned on an object that was signed before is what it returns on the original
object, verifies under the key and alg of the call, and has the header and payload of Go when it is
pure.
-/
structure SignsAsFresh (lib : SignatureLibrary) (kindValidator : Option (Int → Int → Bool))
    (knownCext : List Int) (original current : Object) (call : SignCall) (data : Bytes) : Prop where
  fresh : call.result lib original = .ok data
  verifies : call.Verifies lib kindValidator knownCext data
  inGo : ∀ alg seed, call = .sign alg seed → SamePartsInGo current alg data

/-- After any calls on an object within the verifier's bounds, one more call does as on a fresh
object exactly when it is composite, or else the object declared no suite at first and no call was
composite.
Witness: a call leaves the suite that it signs with and an id; the id is computed anew by every
call, the suite is not.
-/
theorem signs_as_fresh_iff (signs : SignsVerifiably lib) {original : Object}
    (signable : Signable kindValidator knownCext original) {calls : List SignCall} {call : SignCall}
    {data : Bytes} (returned : call.result lib (original.afterCalls calls) = .ok data)
    (small : data.length ≤ maxObjectSize)
    : SignsAsFresh lib kindValidator knownCext original (original.afterCalls calls) call data
      ↔ (call.isPure → original.suite = 0 ∧ ∀ earlier ∈ calls, earlier.isPure) := by
  obtain ⟨id, after⟩ := afterCalls_eq calls original
  have again := returned
  rw [result_afterCalls] at again
  constructor
  · intro independent
    cases call with
    | signComposite mldsaSeed edSeed => nofun
    | sign alg seed =>
        intro _
        have cleared := suite_of_sameParts returned (independent.inGo alg seed rfl)
        rw [after] at cleared
        simp only [suiteAfter] at cleared
        split at cleared
        · rename_i earlierPure
          exact ⟨cleared, earlierPure⟩
        · cases cleared
  · intro condition
    cases call with
    | signComposite mldsaSeed edSeed =>
        have verifies := verifies_signComposite signs (signable.with_suite _) small again
        exact ⟨again, verifies, nofun⟩
    | sign alg seed =>
        obtain ⟨pureSuite, earlierPure⟩ := condition rfl
        have kept : suiteAfter original.suite calls = original.suite := if_pos earlierPure
        rw [kept] at after again
        refine ⟨again, verifies_sign signs signable small pureSuite again, ?_⟩
        rintro _ _ ⟨⟩
        refine sameParts_of_sign ?_ returned
        rw [after, pureSuite]

/-- What verifies as the octets made for an object is the object with its id, the maps in canonical
order.
-/
theorem eq_of_signWith {profile alg anyAlg : Int} {pubkey data : Bytes} {o verified : Object}
    {signature : Bytes → Py Bytes} (returned : signWith o alg signature = .ok data)
    (accepted : verify lib profile anyAlg pubkey kindValidator data knownCext = .ok verified)
    : ∃ id, verified = { o.sorted with id := some id } := by
  obtain ⟨id, payload, prot, tbs, sig, composed, signed, assembled⟩ := signWith_eq_ok.mp returned
  obtain ⟨⟨prot', payload', sig', pairs, halg⟩, accepted⟩ := (verify_eq_ok ..).mp accepted
  have parts := Except.ok.inj ((parseSign1Raw_assembled assembled).symm.trans accepted.parsed)
  simp only [Prod.mk.injEq] at parts
  obtain ⟨rfl, rfl, rfl⟩ := parts
  have body := eq_sortMaps_of_decoded composed.encoded accepted.body
  rw [sortMaps_pairs] at body
  obtain rfl := Value.m.inj body
  obtain ⟨causes, ext, cext⟩ := accepted.read.bounds
  have read := objectFromMap_eq_ok.mpr accepted.read
  have again := objectFromMap_eq_ok.mpr (@readFrom_pairs _ id causes ext cext)
  exact ⟨id, Except.ok.inj (read.symm.trans again)⟩

/-- What verifies as the signed octets of an object declares no suite. -/
theorem eq_of_verified {profile alg anyAlg : Int} {pubkey seed data : Bytes} {o verified : Object}
    (returned : sign lib o alg seed = .ok data)
    (accepted : verify lib profile anyAlg pubkey kindValidator data knownCext = .ok verified)
    : verified.suite = 0 ∧ ∃ id, verified = { o.sorted with id := some id } := by
  rw [sign_eq_signWith] at returned
  refine ⟨?_, eq_of_signWith returned accepted⟩
  obtain ⟨id, payload, prot, tbs, sig, composed, signed, assembled⟩ := signWith_eq_ok.mp returned
  obtain ⟨set, isMldsa, -⟩ := bind_eq_ok.mp signed
  obtain ⟨notComposite, -⟩ := @coseVerify1Raw_mldsa lib _ _ isMldsa
  obtain ⟨⟨prot', payload', sig', pairs, halg⟩, accepted⟩ := (verify_eq_ok ..).mp accepted
  have parts := Except.ok.inj ((parseSign1Raw_assembled assembled).symm.trans accepted.parsed)
  simp only [Prod.mk.injEq] at parts
  obtain ⟨rfl, -, -⟩ := parts
  have header := (parseProtected_protectedHeader composed.header).symm.trans
    (checkHeader_eq_ok.mp accepted.header)
  simp only [Except.ok.injEq, Prod.mk.injEq] at header
  obtain ⟨rfl, -⟩ := header
  obtain ⟨_, -, checked⟩ := accepted.signature
  rw [checkSignature, if_neg notComposite, raiseIf_bind_eq_ok, not_not] at checked
  exact checked.1

/-- A pure object that declares a suite is never verified. -/
theorem verify_refuses_suite {profile alg anyAlg : Int} {pubkey seed data : Bytes}
    {o verified : Object} (returned : sign lib o alg seed = .ok data)
    (accepted : verify lib profile anyAlg pubkey kindValidator data knownCext = .ok verified)
    : o.suite = 0 := by
  obtain ⟨suite, id, rfl⟩ := eq_of_verified returned accepted
  exact suite

end Runs

-----------------------------------------------------------------------------------------
-- A pure signature after a composite one
-----------------------------------------------------------------------------------------

def compositeCall : SignCall := .signComposite [9] (List.replicate 32 3)

def pureCall : SignCall := .sign algMldsa65 [9]

/-- The sample object can be signed with and without a suite, within the size limit. -/
theorem sampleObject_signed (suite : Int) (listed : suite = 0 ∨ suite = suiteMldsa65Ed25519)
    : ∃ data, pureCall.result digestLibrary { sampleObject with suite } = .ok data
      ∧ data.length ≤ maxObjectSize := by
  have size : ∃ octets, { sampleObject with suite }.signedSize algMldsa65 3309 = .ok octets
      ∧ octets ≤ maxObjectSize := by
    rcases listed with rfl | rfl
    · exact ⟨3420, sampleObject_size, by decide⟩
    · exact ⟨3422, by decide +kernel, by decide⟩
  obtain ⟨id, payload, prot, tbs, identified, encoded, header, message, assembles⟩ :=
    encoded_within_size size
  obtain ⟨data, assembled, small⟩ := assembles _ (length_fitTo _ _)
  refine ⟨data, ?_, small⟩
  rw [pureCall, SignCall.result, sign_eq_signWith, signWith_eq_ok]
  exact ⟨id, payload, prot, tbs, _, ⟨identified, encoded, header, message⟩, rfl, assembled⟩

/-- The theorem on the object that was signed by two pure calls before, which does as a fresh one.
-/
theorem signs_as_fresh_sample
    : ∃ data, pureCall.result digestLibrary (sampleObject.afterCalls [pureCall, pureCall])
      = .ok data
      ∧ (SignsAsFresh digestLibrary (some fun _ _ => true) [] sampleObject
          (sampleObject.afterCalls [pureCall, pureCall]) pureCall data
        ↔ (pureCall.isPure → sampleObject.suite = 0
          ∧ ∀ earlier ∈ [pureCall, pureCall], earlier.isPure)) := by
  obtain ⟨data, returned, small⟩ := sampleObject_signed 0 (.inl rfl)
  have again : pureCall.result digestLibrary (sampleObject.afterCalls [pureCall, pureCall])
      = .ok data := by
    rw [result_afterCalls]
    exact returned
  exact ⟨data, again, signs_as_fresh_iff digestLibrary_signsVerifiably
    (sampleObject_signable (.inl rfl)) again small⟩

/-- After a composite call the pure one returns other octets than on a fresh object, and they verify
on no profile.
Witness: the composite call leaves its suite in the object, and a suite without a composite
signature is refused.
-/
theorem pure_after_composite
    : Signable (some fun _ _ => true) [] sampleObject ∧ sampleObject.suite = 0
      ∧ ∃ data, pureCall.result digestLibrary (sampleObject.afterCalls [compositeCall]) = .ok data
        ∧ data.length ≤ maxObjectSize ∧ pureCall.result digestLibrary sampleObject ≠ .ok data
        ∧ ¬ SamePartsInGo (sampleObject.afterCalls [compositeCall]) algMldsa65 data
        ∧ ∀ profile alg pubkey verified, verify digestLibrary profile alg pubkey
            (some fun _ _ => true) data [] ≠ .ok verified := by
  have signable := sampleObject_signable (.inl rfl)
  obtain ⟨data, returned, small⟩ := sampleObject_signed suiteMldsa65Ed25519 (.inr rfl)
  have again : pureCall.result digestLibrary (sampleObject.afterCalls [compositeCall])
      = .ok data := by
    rw [result_afterCalls]
    exact returned
  have declared : (sampleObject.afterCalls [compositeCall]).suite = suiteMldsa65Ed25519 := by
    obtain ⟨id, after⟩ := afterCalls_eq [compositeCall] sampleObject
    rw [after]
    rfl
  have refused (profile alg : Int) (pubkey : Bytes) (verified : Object)
      : verify digestLibrary profile alg pubkey (some fun _ _ => true) data [] ≠ .ok verified := by
    intro accepted
    have cleared := verify_refuses_suite returned accepted
    cases cleared
  refine ⟨signable, rfl, data, again, small, ?_, ?_, refused⟩
  · intro fresh
    obtain ⟨verified, accepted⟩ :=
      verifies_sign digestLibrary_signsVerifiably signable small rfl fresh
      .mlDsa65 _ 1 rfl rfl (by decide)
    exact refused _ _ _ _ accepted
  · intro same
    have cleared := suite_of_sameParts again same
    rw [declared] at cleared
    cases cleared

end Naalp.Python.Envelope
