import Naalp.Implementations.NativeVerifiers

/-! The octets of an accepted object: its signed parts, and the value in the unprotected position
of the COSE array, which no verifier reads.
-/

namespace Naalp.Signatures

open Naalp.Foundation
open Naalp.Python
open Naalp.Python.Cbor
open Naalp.Python.Cose
open Naalp.Python.Envelope (maxObjectSize)
open Naalp.Implementations

/-- The protected header, the payload and the signature of an object. -/
abbrev SignedParts := Bytes × Bytes × Bytes

/-- The tagged COSE_Sign1 value of the parts, with a value in the unprotected position. -/
def sign1Value (parts : SignedParts) (unprotected : Value) : Value :=
  .tag tagSign1 (.a [.b parts.1, unprotected, .b parts.2.1, .b parts.2.2])

/-- How an implementation reads and writes tagged COSE_Sign1 objects. -/
structure Sign1Codec (ε : Type) where
  decode : Bytes → Except ε Value
  encode : Value → Except ε Bytes
  parse : Bytes → Except ε SignedParts
  assemble : SignedParts → Except ε Bytes
  reads : ∀ {obj v}, decode obj = .ok v → Canonical unboundedDepth v ∧ obj = encoding v
  writes : ∀ {v : Value}, Encodable v → encode v = .ok (encoding v)
  parses : ∀ {obj parts}, parse obj = .ok parts
    ↔ ∃ unprotected, decode obj = .ok (sign1Value parts unprotected)
  assembles : ∀ parts, SameOk (encode (sign1Value parts (.m []))) (assemble parts)

def pythonCodec : Sign1Codec Exc where
  decode := Cbor.decode
  encode := Cbor.encode
  parse := parseSign1Raw
  assemble parts := assembleSign1Raw parts.1 parts.2.1 parts.2.2
  reads := decode_eq_ok.mp
  writes := id
  parses := parseSign1Raw_eq_ok
  assembles _ := .rfl

def goCodec : Sign1Codec Go.Stop where
  decode := Go.Cbor.decode
  encode := Go.Cbor.encode
  parse := Go.Cose.parseSign1Raw
  assemble parts := Go.Cose.assembleSign1Raw parts.1 parts.2.1 parts.2.2
  reads decoded := decode_eq_ok.mp (goDecode_eq_ok.mp decoded).1
  writes := goEncode_of_encodable
  parses := goParseSign1Raw_eq_ok
  assembles _ := .rfl

def rustCodec (valueSize : Nat) : Sign1Codec Go.Stop where
  decode := Rust.Cbor.decode valueSize
  encode := Rust.Cbor.encode
  parse := Rust.Cose.parseSign1Raw valueSize
  assemble parts := Rust.Cose.assembleSign1Raw parts.1 parts.2.1 parts.2.2
  reads decoded := decode_eq_ok.mp
    (goDecode_eq_ok.mp (Native.Cbor.goDecodeBounded_of_rust decoded)).1
  writes := goEncode_of_encodable
  parses := rustParseSign1Raw_eq_ok
  assembles _ := expect_sameOk _

section Accepted

variable {ε ο : Type} (codec : Sign1Codec ε) (verify : Bytes → Except ε ο)

/-- What the octets of an object that a verifier accepts are.

`octets`: the encoding of its parts and one value in the unprotected position, and the assembled
object exactly when that value is the empty map. `apart`: different octets with the same parts have
different values there. `unread`: the value does not change what the verifier does.
-/
structure FixesOctets : Prop where
  octets : ∀ {obj o}, verify obj = .ok o → ∃ parts unprotected, codec.parse obj = .ok parts
    ∧ codec.decode obj = .ok (sign1Value parts unprotected)
    ∧ codec.encode (sign1Value parts unprotected) = .ok obj
    ∧ (codec.assemble parts = .ok obj ↔ unprotected = .m [])
  apart : ∀ {left right o p parts leftValue rightValue}, verify left = .ok o → verify right = .ok p
    → codec.decode left = .ok (sign1Value parts leftValue)
    → codec.decode right = .ok (sign1Value parts rightValue)
    → left ≠ right → leftValue ≠ rightValue
  unread : ∀ {left right parts}, left.length ≤ maxObjectSize → right.length ≤ maxObjectSize
    → codec.parse left = .ok parts → codec.parse right = .ok parts → verify left = verify right

variable {codec verify}

/-- The value of the parts with an empty map is canonical when it is so with any value. -/
theorem canonical_emptied {parts : SignedParts} {unprotected : Value}
    (canonical : Canonical unboundedDepth (sign1Value parts unprotected))
    : Canonical unboundedDepth (sign1Value parts (.m [])) := by
  obtain ⟨lower, upper, array⟩ := encodable_tag.mp canonical.encodable
  obtain ⟨count, members⟩ := encodable_a.mp array
  have empty : Encodable (.m []) := rfl
  have emptied : ∀ item ∈ [Value.b parts.1, .m [], .b parts.2.1, .b parts.2.2],
      Encodable item := by
    simp only [List.forall_mem_cons] at members ⊢
    exact ⟨members.1, empty, members.2.2⟩
  refine ⟨encodable_tag.mpr ⟨lower, upper, encodable_a.mpr ⟨count, emptied⟩⟩, ?_, ?_⟩
  · refine .tag (.a ?_)
    simpa using ⟨.b _, .m .nil nofun nofun, .b _, .b _⟩
  · simp [sign1Value, depth, depthItems, depthPairs, unboundedDepth]

theorem sign1Value_inj {parts : SignedParts} {left right : Value}
    (same : sign1Value parts left = sign1Value parts right)
    : left = right := by
  simpa [sign1Value] using same

/-- A verifier that reads an object through its parts fixes its octets, since the decoder reads
no octets but the encoding of the value it returns.
-/
theorem Sign1Codec.fixesOctets
    (parsed : ∀ {obj o}, verify obj = .ok o → ∃ parts, codec.parse obj = .ok parts)
    (unread : ∀ {left right parts}, left.length ≤ maxObjectSize → right.length ≤ maxObjectSize
      → codec.parse left = .ok parts → codec.parse right = .ok parts → verify left = verify right)
    : FixesOctets codec verify := by
  refine ⟨?_, ?_, unread⟩
  · intro obj o accepted
    obtain ⟨parts, parsed⟩ := parsed accepted
    obtain ⟨unprotected, decoded⟩ := codec.parses.mp parsed
    obtain ⟨canonical, rfl⟩ := codec.reads decoded
    refine ⟨parts, unprotected, parsed, decoded, codec.writes canonical.encodable, ?_⟩
    have emptied := canonical_emptied canonical
    rw [← codec.assembles, codec.writes emptied.encodable, Except.ok.injEq]
    constructor
    · intro same
      have values := (dec_readsExactly unboundedDepth).injective emptied canonical same
      exact (sign1Value_inj values).symm
    · intro same
      rw [same]
  · intro left right o p parts leftValue rightValue _ _ leftDecoded rightDecoded different same
    apply different
    rw [(codec.reads leftDecoded).2, (codec.reads rightDecoded).2, same]

end Accepted

section Verifiers

variable (kindOK : Option (Int → Int → Bool))

/-- The Python verifier fixes the octets around what was signed. -/
theorem python_fixesOctets (lib : SignatureLibrary) (profile alg : Int) (pubkey : Bytes)
    (knownCext : List Int)
    : FixesOctets pythonCodec fun obj =>
        Envelope.verify lib profile alg pubkey kindOK obj knownCext := by
  apply Sign1Codec.fixesOctets
  · intro obj o accepted
    obtain ⟨parts, stages⟩ := (Envelope.verify_eq_ok ..).mp accepted
    exact ⟨_, stages.parsed⟩
  · intro left right parts leftSize rightSize leftParsed rightParsed
    simp only [pythonCodec] at leftParsed rightParsed
    simp only [Envelope.verify, raiseIf_neg (Nat.not_lt.mpr leftSize),
      raiseIf_neg (Nat.not_lt.mpr rightSize), leftParsed, rightParsed]

/-- So does the Go verifier. -/
theorem go_fixesOctets (goLib : Go.Cose.SignatureLibrary) (profile : Int) (v : Go.Cose.Verifier)
    (knownCext : Int → Bool)
    : FixesOctets goCodec fun obj => Go.Envelope.verify goLib profile v kindOK knownCext obj := by
  apply Sign1Codec.fixesOctets
  · intro obj o accepted
    obtain ⟨parts, stages⟩ := (goVerify_eq_ok ..).mp accepted
    exact ⟨_, stages.parsed⟩
  · intro left right parts leftSize rightSize leftParsed rightParsed
    simp only [goCodec] at leftParsed rightParsed
    simp only [Go.Envelope.verify, raiseIf_neg (Nat.not_lt.mpr leftSize),
      raiseIf_neg (Nat.not_lt.mpr rightSize), leftParsed, rightParsed]

/-- So does the Rust verifier. -/
theorem rust_fixesOctets (valueSize : Nat) (rustLib : Rust.Cose.SignatureLibrary)
    (profile : UInt32) (v : Rust.Cose.Verifier) (kindOk : Int → Int → Bool) (knownCext : List Int)
    : FixesOctets (rustCodec valueSize) fun obj =>
        Rust.Envelope.verify valueSize rustLib profile v kindOk knownCext obj := by
  apply Sign1Codec.fixesOctets
  · intro obj o accepted
    simp only [Rust.Envelope.verify, raiseIf_bind_eq_ok] at accepted
    obtain ⟨parts, parsed, -⟩ := bind_eq_ok.mp accepted.2
    exact ⟨parts, (mapErr_sameOk .rfl parts).mpr parsed⟩
  · intro left right parts leftSize rightSize leftParsed rightParsed
    simp only [rustCodec] at leftParsed rightParsed
    simp only [Rust.Envelope.verify, raiseIf_neg (Nat.not_lt.mpr leftSize),
      raiseIf_neg (Nat.not_lt.mpr rightSize), leftParsed, rightParsed]

/-- In each implementation, the octets of an accepted object are the encoding of its protected
header, payload and signature and of one more value, in the unprotected position. That value is
the only thing that accepted objects with the same parts can differ in, and it is not read.
-/
theorem accepted_octets_fixed (lib : SignatureLibrary) (goLib : Go.Cose.SignatureLibrary)
    (rustLib : Rust.Cose.SignatureLibrary) (valueSize : Nat) (profile alg : Int) (pubkey : Bytes)
    (goKey : Go.Cose.Verifier) (rustProfile : UInt32) (rustKey : Rust.Cose.Verifier)
    (kindOk : Int → Int → Bool) (knownCext : List Int) (goKnown : Int → Bool)
    : FixesOctets pythonCodec
        (fun obj => Envelope.verify lib profile alg pubkey kindOK obj knownCext)
      ∧ FixesOctets goCodec
        (fun obj => Go.Envelope.verify goLib profile goKey kindOK goKnown obj)
      ∧ FixesOctets (rustCodec valueSize)
        (fun obj => Rust.Envelope.verify valueSize rustLib rustProfile rustKey kindOk knownCext
            obj) :=
  ⟨python_fixesOctets kindOK lib profile alg pubkey knownCext,
    go_fixesOctets kindOK goLib profile goKey goKnown,
    rust_fixesOctets valueSize rustLib rustProfile rustKey kindOk knownCext⟩

end Verifiers

section KeyId

/-- A header map with the key id 01. -/
def keyId : Value := .m [(.u 4, .b [1])]

/-- The parts of the signed sample object, and its octets with a key id that nobody signed. -/
def keyIdObject : Py (SignedParts × Bytes) := do
  let signed ← Envelope.sign digestLibrary Envelope.sampleObject algMldsa65 [9]
  let parts ← parseSign1Raw signed
  return (parts, ← encode (sign1Value parts keyId))

/-- Accepted octets, with these parts, that are not the assembled object. -/
structure Altered {ε ο : Type} (codec : Sign1Codec ε) (verify : Bytes → Except ε ο)
    (parts : SignedParts) (obj : Bytes) : Prop where
  accepted : ∃ o, verify obj = .ok o
  parsed : codec.parse obj = .ok parts
  notAssembled : codec.assemble parts ≠ .ok obj

/-- An accepted object whose unread member is not the empty map is accepted, and is not what
its parts are assembled to.
-/
theorem FixesOctets.altered {ε ο : Type} {codec : Sign1Codec ε} {verify : Bytes → Except ε ο}
    (fixes : FixesOctets codec verify) {parts : SignedParts} {obj : Bytes}
    (accepted : ∃ o, verify obj = .ok o) (decoded : codec.decode obj = .ok (sign1Value parts keyId))
    : Altered codec verify parts obj := by
  have parsed := codec.parses.mpr ⟨_, decoded⟩
  refine ⟨accepted, parsed, ?_⟩
  obtain ⟨o, accepted⟩ := accepted
  obtain ⟨others, unprotected, again, decodedAgain, -, assembled⟩ := fixes.octets accepted
  obtain rfl := Except.ok.inj (again.symm.trans parsed)
  obtain rfl := sign1Value_inj (Except.ok.inj (decodedAgain.symm.trans decoded))
  rw [Ne, assembled]
  nofun

theorem decode_keyIdObject {parts : SignedParts} {obj : Bytes}
    (encoded : encode (sign1Value parts keyId) = .ok obj)
    : decode obj = .ok (sign1Value parts keyId) :=
  decodeBounded_encode encoded
    (by simp [sign1Value, keyId, depth, depthItems, depthPairs, unboundedDepth])

theorem goDecode_keyIdObject {parts : SignedParts} {obj : Bytes}
    (encoded : encode (sign1Value parts keyId) = .ok obj)
    : Go.Cbor.decode obj = .ok (sign1Value parts keyId) :=
  goDecode_eq_ok.mpr
    ⟨decode_keyIdObject encoded, by simp [sign1Value, keyId, NintsFit.b, NintsFit.u]⟩

/-- Python and Go accept the sample object with the key id.
Witness: both accept the signed object, and no stage of theirs reads the value that is replaced.
-/
theorem keyIdObject_accepted
    : ∃ prot payload sig obj o g, keyIdObject = .ok ((prot, payload, sig), obj)
      ∧ encode (sign1Value (prot, payload, sig) keyId) = .ok obj
      ∧ Envelope.verify digestLibrary 1 algMldsa65 (fitTo mldsa65PubSize [9])
        (some fun _ _ => true) obj [] = .ok o
      ∧ Go.Envelope.verify Go.Cose.digestLibrary 1 (goKey sampleRustKey) (some fun _ _ => true)
        (fun _ => false) obj = .ok g := by
  have fits : Encodable keyId := rfl
  have short : (encoding keyId).length ≤ 1000 := by decide
  obtain ⟨signed, parts, o, obj, made, stages, rewrapped, size⟩ :=
    Envelope.sampleObject_rewrapped fits short
  have encoded : encode (sign1Value (parts.prot, parts.payload, parts.sig) keyId) = .ok obj :=
    rewrapped
  obtain ⟨_, g, again, goVerified⟩ := goVerify_sampleObject
  obtain rfl := Except.ok.inj (made.symm.trans again)
  obtain ⟨goParts, goStages⟩ := (goVerify_eq_ok ..).mp goVerified
  have goParsed := (parseSign1Raw_of_go goStages.parsed).1
  have same : (parts.prot, parts.payload, parts.sig)
      = (goParts.prot, goParts.payload, goParts.sig) :=
    Except.ok.inj (stages.parsed.symm.trans goParsed)
  have accepted : Envelope.Accepted digestLibrary 1 (fitTo mldsa65PubSize [9])
      (some fun _ _ => true) [] obj parts o :=
    { stages with
      size
      parsed := parseSign1Raw_eq_ok.mpr ⟨keyId, decode_keyIdObject encoded⟩ }
  have goAccepted : GoAccepted Go.Cose.digestLibrary 1 (goKey sampleRustKey) (some fun _ _ => true)
      (knownSet []) obj goParts g :=
    { goStages with
      size
      parsed := by
        rw [← same]
        exact goParseSign1Raw_eq_ok.mpr ⟨keyId, goDecode_keyIdObject encoded⟩ }
  refine ⟨parts.prot, parts.payload, parts.sig, obj, o, g, ?_, encoded,
    (Envelope.verify_eq_ok ..).mpr ⟨parts, accepted⟩, (goVerify_eq_ok ..).mpr ⟨goParts, goAccepted⟩⟩
  rw [keyIdObject, made, ok_bind, stages.parsed, ok_bind]
  exact bind_eq_ok.mpr ⟨obj, encoded, rfl⟩

/-- The sample object with a key id added after signing is accepted by all three verifiers. -/
theorem unsigned_key_id_accepted
    : ∃ parts obj, keyIdObject = .ok (parts, obj)
      ∧ Altered pythonCodec (fun obj => Envelope.verify digestLibrary 1 algMldsa65
        (fitTo mldsa65PubSize [9]) (some fun _ _ => true) obj []) parts obj
      ∧ Altered goCodec (fun obj => Go.Envelope.verify Go.Cose.digestLibrary 1
        (goKey sampleRustKey) (some fun _ _ => true) (fun _ => false) obj) parts obj
      ∧ Altered (rustCodec 32) (fun obj => Rust.Envelope.verify 32 Rust.Cose.digestLibrary 1
        sampleRustKey (fun _ _ => true) [] obj) parts obj := by
  obtain ⟨prot, payload, sig, obj, o, g, made, encoded, verified, goVerified⟩ :=
    keyIdObject_accepted
  have decoded := decode_keyIdObject encoded
  have goDecoded := goDecode_keyIdObject encoded
  obtain ⟨_, stages⟩ := (goVerify_eq_ok ..).mp goVerified
  have rustDecoded : Rust.Cbor.decode 32 obj = .ok (sign1Value (prot, payload, sig) keyId) :=
    (Native.Cbor.rustDecodeBounded_eq_ok (by decide) stages.size).mpr goDecoded
  have rustVerified : Rust.Envelope.verify 32 Rust.Cose.digestLibrary 1 sampleRustKey
      (fun _ _ => true) [] obj = .ok g :=
    (verify_sameOk digestNatives_agree (by decide) (by simp) 1 sampleRustKey _ obj g).mp goVerified
  refine ⟨(prot, payload, sig), obj, made, ?_, ?_, ?_⟩
  · exact (python_fixesOctets ..).altered ⟨o, verified⟩ decoded
  · exact (go_fixesOctets ..).altered ⟨g, goVerified⟩ goDecoded
  · exact (rust_fixesOctets ..).altered ⟨g, rustVerified⟩ rustDecoded

end KeyId

end Naalp.Signatures
