import Naalp.Names.Bodies
import Naalp.Signatures.SampleObjects

/-! Proofs that an authority bound one name twice at one position. What is compared are encodings of
the fields that were read, so bodies that differ in other keys alone pass for one body.
-/

namespace Naalp.Names

open Naalp.Foundation
open Naalp.Python
open Naalp.Python.Cbor
open Naalp.Python.Cose
open Naalp.Python.Fields
open Naalp.Python.Naming
open Naalp.Implementations
open Naalp.Signatures

/-- The octets are the canonical encoding of a map with no keys but those of a binding. -/
def OnlyBindingKeys (b : Bytes) : Prop := ∃ m, decode b = .ok (.m m) ∧ KeysWithin [1, 2, 3, 4] m

-----------------------------------------------------------------------------------------
-- Bindings that were read
-----------------------------------------------------------------------------------------

/-- The octets are the body of a map that shows the fields of the binding. -/
def Carries (b : Bytes) (nb : NameBinding) : Prop :=
  ∃ m, decode b = .ok (.m m) ∧ Shows (bindingPairs nb) m

section Carried

variable {b : Bytes} {nb nb' : NameBinding}

theorem carries_of_go (parsed : Go.Naming.parseNameBinding b = .ok nb) : Carries b nb := by
  obtain ⟨m, ⟨decoded, -⟩, shown⟩ := goParseNameBinding_eq_ok.mp parsed
  exact ⟨m, decoded, shown⟩

/-- What was read from octets can be encoded. -/
theorem Carries.encodable (carries : Carries b nb) : Encodable (.m (bindingPairs nb)) := by
  obtain ⟨m, decoded, shown⟩ := carries
  have distinct := nodup_of_ascending (ascending_of_decode decoded)
  have encodable := (encodable_m.mp (decode_eq_ok.mp decoded).1.encodable).2.1
  refine encodable_m.mpr
    ⟨by simp [bindingPairs], ?_, nodup_of_ascending (bindingPairs_ascending nb)⟩
  intro pair member
  have known : ∃ k, pair.1 = .u k := by
    simp only [bindingPairs, List.mem_cons, List.not_mem_nil, or_false] at member
    rcases member with rfl | rfl | rfl | rfl <;> exact ⟨_, rfl⟩
  obtain ⟨k, v⟩ := pair
  obtain ⟨k, rfl⟩ := known
  exact encodable _ ((field_eq_some distinct).mp (shown k v member))

/-- A binding is written as the body it was read from exactly when the body has the four keys
only.
-/
theorem Carries.encode_eq_body_iff (carries : Carries b nb)
    : encode (.m (bindingPairs nb)) = .ok b ↔ OnlyBindingKeys b := by
  obtain ⟨m, decoded, shown⟩ := carries
  have known : (bindingPairs nb).map Prod.fst = [1, 2, 3, 4].map Value.u := rfl
  rw [Names.encode_eq_body_iff decoded shown (bindingPairs_ascending nb) (bindingPairs_leaves nb)
    known]
  constructor
  · exact fun within => ⟨m, decoded, within⟩
  · rintro ⟨m', decoded', within⟩
    obtain rfl := Value.m.inj (Except.ok.inj (decoded.symm.trans decoded'))
    exact within

theorem bytes_eq (encodable : Encodable (.m (bindingPairs nb)))
    : nb.bytes = .ok (encoding (.m (bindingPairs nb))) :=
  encodable

/-- Two bodies without other keys that bind one name at one position and are not the same octets
differ in the signer or in the predecessor.
-/
theorem Carries.differ {b' : Bytes} (carries : Carries b nb) (carries' : Carries b' nb')
    (only : OnlyBindingKeys b) (only' : OnlyBindingKeys b') (different : b ≠ b')
    (name : nb.name = nb'.name) (seq : nb.seq = nb'.seq)
    : nb.signer ≠ nb'.signer ∨ nb.prev ≠ nb'.prev := by
  by_contra same
  obtain ⟨signer, prev⟩ := not_or.mp same
  have encoded := carries.encode_eq_body_iff.mpr only
  have encoded' := carries'.encode_eq_body_iff.mpr only'
  rw [bindingPairs, name, not_not.mp signer, seq, not_not.mp prev] at encoded
  exact different (Except.ok.inj (encoded.symm.trans encoded'))

/-- Encodings of bindings with one name and one position differ where the bindings do. -/
theorem encoding_ne_iff (encodable : Encodable (.m (bindingPairs nb)))
    (encodable' : Encodable (.m (bindingPairs nb'))) (name : nb.name = nb'.name)
    (seq : nb.seq = nb'.seq)
    : encoding (.m (bindingPairs nb)) ≠ encoding (.m (bindingPairs nb'))
      ↔ nb.signer ≠ nb'.signer ∨ nb.prev ≠ nb'.prev := by
  rw [← not_and_or, not_iff_not]
  constructor
  · intro same
    have pairs := pairs_eq_of_leaves (bindingPairs_ascending nb) (bindingPairs_leaves nb)
      (bindingPairs_ascending nb') (bindingPairs_leaves nb') encodable (same ▸ encodable')
    simp only [bindingPairs, List.cons.injEq, Prod.mk.injEq, Value.b.injEq] at pairs
    exact ⟨pairs.2.1.2, pairs.2.2.2.1.2⟩
  · rintro ⟨signer, prev⟩
    rw [bindingPairs, bindingPairs, name, signer, seq, prev]

end Carried

-----------------------------------------------------------------------------------------
-- Forks
-----------------------------------------------------------------------------------------

section Forks

variable {a b : NameBinding} (encodable : Encodable (.m (bindingPairs a)))
  (encodable' : Encodable (.m (bindingPairs b))) (name : a.name = b.name) (seq : a.seq = b.seq)

include encodable encodable' name seq

/-- Two bindings with their places equal are a fork when the signer or the link differs. -/
theorem detectFork_eq
    : detectFork a b
      = .ok (if a.signer ≠ b.signer ∨ a.prev ≠ b.prev then (a.seq, true) else (0, false)) := by
  have written := bytes_eq encodable
  have written' := bytes_eq encodable'
  have compared := encoding_ne_iff encodable encodable' name seq
  simp only [detectFork, name, seq, written, written', ok_bind, ← compared, ne_eq, not_true,
    or_self, if_false]
  split_ifs with same
  · rfl
  · rfl

/-- The Go function compares the same, and reports the position through a signed integer. -/
theorem goDetectFork_eq
    : Go.Naming.detectFork a b
      = if a.signer ≠ b.signer ∨ a.prev ≠ b.prev then (Go.Cose.intOfUint a.seq, true)
        else (0, false) := by
  have written := bindingBytes_eq encodable
  have written' := bindingBytes_eq encodable'
  have compared := encoding_ne_iff encodable encodable' name seq
  simp only [Go.Naming.detectFork, name, seq, written, written', ← compared, ne_eq, not_true,
    or_self, if_false]
  split_ifs with same
  · rfl
  · rfl

/-- A proof on two verified bindings is accepted when it names a signer and they differ. -/
theorem verify_fork_iff {lib : SignatureLibrary} {fp : NameForkProof} {profile alg : Int}
    {pubkey : Bytes} (first : verifyBinding lib fp.signedA profile alg pubkey = .ok a)
    (second : verifyBinding lib fp.signedB profile alg pubkey = .ok b)
    : (∃ pos, fp.verify lib profile alg pubkey = .ok pos)
      ↔ fp.signer ≠ [] ∧ (a.signer ≠ b.signer ∨ a.prev ≠ b.prev) := by
  simp only [NameForkProof.verify, first, second, ok_bind, raiseIf_bind_eq_ok,
    detectFork_eq encodable encodable' name seq, pure_eq_ok, Except.ok.injEq]
  split_ifs with differ
  · simp [differ]
  · simp [differ]

theorem goVerify_fork_iff {lib : Go.Cose.SignatureLibrary} {fp : NameForkProof} {profile : Int}
    {v : Go.Cose.Verifier} (first : Go.Naming.verifyBinding lib fp.signedA profile v = .ok a)
    (second : Go.Naming.verifyBinding lib fp.signedB profile v = .ok b)
    : (∃ pos, Go.Naming.verifyFork lib fp profile v = .ok pos)
      ↔ fp.signer ≠ [] ∧ (a.signer ≠ b.signer ∨ a.prev ≠ b.prev) := by
  simp only [Go.Naming.verifyFork, first, second, ok_bind, raiseIf_bind_eq_ok,
    goDetectFork_eq encodable encodable' name seq, pure_eq_ok, Except.ok.injEq]
  split_ifs with differ
  · simp [differ]
  · simp [differ]

end Forks

-----------------------------------------------------------------------------------------
-- When equivocation can be proved
-----------------------------------------------------------------------------------------

/-- For a signature gate, a reader, an encoder and a verifier of fork proofs: what was read encodes
to the octets it was read from exactly when they have no other keys, and two signed bodies that bind
one name at one position are provable to be a fork exactly when a field that is compared differs, as
it does in bodies without other keys.
-/
structure ProvableExactly {ε : Type} (gate : Bytes → Except ε Bytes)
    (parse : Bytes → Except ε NameBinding) (body : NameBinding → Except ε Bytes)
    (verify : NameForkProof → Except ε Int) : Prop where
  inverse : ∀ b nb, parse b = .ok nb → (body nb = .ok b ↔ OnlyBindingKeys b)
  provable : ∀ fp payload payload' nb nb', gate fp.signedA = .ok payload → parse payload = .ok nb
    → gate fp.signedB = .ok payload' → parse payload' = .ok nb' → payload ≠ payload'
    → nb.name = nb'.name → nb.seq = nb'.seq
    → ((∃ pos, verify fp = .ok pos)
        ↔ fp.signer ≠ [] ∧ (nb.signer ≠ nb'.signer ∨ nb.prev ≠ nb'.prev))
      ∧ (OnlyBindingKeys payload → OnlyBindingKeys payload'
        → nb.signer ≠ nb'.signer ∨ nb.prev ≠ nb'.prev)

/-- Both implementations prove forks exactly: of two signed bodies that bind one name at one
position, the fork proof verifies exactly when a field that is compared differs.
Witness: on bodies of the four keys only the encoders invert the readers, so different bodies
differ in such a field.
-/
theorem name_equivocation_provable_iff (lib : SignatureLibrary) (goLib : Go.Cose.SignatureLibrary)
    (profile alg : Int) (pubkey : Bytes) (v : Go.Cose.Verifier)
    : ProvableExactly (fun obj => verifySign1 lib obj profile alg pubkey)
        parseNameBinding NameBinding.bytes (fun fp => fp.verify lib profile alg pubkey)
      ∧ ProvableExactly (fun obj => Go.Naming.signedPayload goLib obj profile v)
        Go.Naming.parseNameBinding (fun nb => .ok (Go.Naming.bindingBytes nb))
        (fun fp => Go.Naming.verifyFork goLib fp profile v) := by
  constructor
  · refine ⟨fun b nb parsed => Carries.encode_eq_body_iff (parseNameBinding_eq_ok.mp parsed), ?_⟩
    intro fp payload payload' nb nb' gate parsed gate' parsed' different name seq
    have carries : Carries payload nb := parseNameBinding_eq_ok.mp parsed
    have carries' : Carries payload' nb' := parseNameBinding_eq_ok.mp parsed'
    have first : verifyBinding lib fp.signedA profile alg pubkey = .ok nb :=
      bind_eq_ok.mpr ⟨payload, gate, parsed⟩
    have second : verifyBinding lib fp.signedB profile alg pubkey = .ok nb' :=
      bind_eq_ok.mpr ⟨payload', gate', parsed'⟩
    exact ⟨verify_fork_iff carries.encodable carries'.encodable name seq first second,
      fun only only' => carries.differ carries' only only' different name seq⟩
  · refine ⟨fun b nb parsed => ?_, ?_⟩
    · have carries := carries_of_go parsed
      have encoded : encode (.m (bindingPairs nb)) = .ok (encoding (.m (bindingPairs nb))) :=
        carries.encodable
      rw [← carries.encode_eq_body_iff, bindingBytes_eq carries.encodable, encoded, Except.ok.injEq,
        Except.ok.injEq]
    · intro fp payload payload' nb nb' gate parsed gate' parsed' different name seq
      have carries := carries_of_go parsed
      have carries' := carries_of_go parsed'
      have first : Go.Naming.verifyBinding goLib fp.signedA profile v = .ok nb :=
        bind_eq_ok.mpr ⟨payload, gate, parsed⟩
      have second : Go.Naming.verifyBinding goLib fp.signedB profile v = .ok nb' :=
        bind_eq_ok.mpr ⟨payload', gate', parsed'⟩
      exact ⟨goVerify_fork_iff carries.encodable carries'.encodable name seq first second,
        fun only only' => carries.differ carries' only only' different name seq⟩

/-- The body that binds the name "a" at position 0, with one more key. -/
def extendedBody (extra : UInt8) : Bytes :=
  [0xa5, 0x01, 0x61, 0x61, 0x02, 0x41, 0x01, 0x03, 0x00, 0x04, 0x40, 0x05, extra]

/-- What both readers make of it. -/
def plainBinding : NameBinding where
  name := [.scalar 'a']
  signer := [1]
  seq := 0
  prev := []

theorem decode_extendedBody {extra : UInt8} (known : extra = 0 ∨ extra = 1)
    : decode (extendedBody extra)
      = .ok (.m (bindingPairs plainBinding ++ [(.u 5, .u extra.toNat)])) := by
  rcases known with rfl | rfl
  · exact decode_of_leaves (by decide +kernel) (by simp [bindingPairs, Leaf]) (by decide +kernel)
  · exact decode_of_leaves (by decide +kernel) (by simp [bindingPairs, Leaf]) (by decide +kernel)

/-- A body with a fifth key is parsed as the binding without it, in both implementations. -/
theorem parse_extendedBody {extra : UInt8} (known : extra = 0 ∨ extra = 1)
    : parseNameBinding (extendedBody extra) = .ok plainBinding
      ∧ Go.Naming.parseNameBinding (extendedBody extra) = .ok plainBinding := by
  have decoded := decode_extendedBody known
  have shown : Shows (bindingPairs plainBinding)
      (bindingPairs plainBinding ++ [(.u 5, .u extra.toNat)]) := by
    rw [shows_bindingPairs]
    exact ⟨rfl, rfl, rfl, rfl⟩
  have fits : NintsFit (.m (bindingPairs plainBinding ++ [(.u 5, .u extra.toNat)])) := by
    rw [nintsFit_m]
    simp only [bindingPairs, List.cons_append, List.nil_append, List.forall_mem_cons]
    exact ⟨⟨.u _, .t _⟩, ⟨.u _, .b _⟩, ⟨.u _, .u _⟩, ⟨.u _, .b _⟩, ⟨.u _, .u _⟩,
      List.forall_mem_nil _⟩
  exact ⟨parseNameBinding_eq_ok.mpr ⟨_, decoded, shown⟩,
    goParseNameBinding_eq_ok.mpr ⟨_, ⟨decoded, fits⟩, shown⟩⟩

theorem verify_extendedBody {extra : UInt8} (known : extra = 0 ∨ extra = 1)
    : verifyBinding digestLibrary (sampleSigned (extendedBody extra)) 1 algMldsa65 objectKey.pubKey
        = .ok plainBinding
      ∧ Go.Naming.verifyBinding Go.Cose.digestLibrary (sampleSigned (extendedBody extra)) 1
        objectKey
        = .ok plainBinding := by
  have short : (extendedBody extra).length < 2 ^ 64 := by simp [extendedBody]
  obtain ⟨parsed, goParsed⟩ := parse_extendedBody known
  exact ⟨bind_eq_ok.mpr ⟨_, verifySign1_sampleSigned short, parsed⟩,
    bind_eq_ok.mpr ⟨_, signedPayload_sampleSigned short, goParsed⟩⟩

/-- The two bodies as evidence against the authority. -/
def extendedFork : NameForkProof where
  signer := [1]
  signedA := sampleSigned (extendedBody 0)
  signedB := sampleSigned (extendedBody 1)

/-- Two signed bodies that differ under the key 5 are both read as the binding without it, which has
another encoding, and they prove no fork.
Witness: both bodies are read without the key 5, and the encodings of what was read are equal.
-/
theorem other_keys_unprovable
    : extendedBody 0 ≠ extendedBody 1
      ∧ (∀ extra ∈ [0, 1],
          parseNameBinding (extendedBody extra) = .ok plainBinding
          ∧ plainBinding.bytes ≠ .ok (extendedBody extra)
          ∧ verifyBinding digestLibrary (sampleSigned (extendedBody extra)) 1 algMldsa65
              objectKey.pubKey = .ok plainBinding
          ∧ Go.Naming.parseNameBinding (extendedBody extra) = .ok plainBinding
          ∧ Go.Naming.bindingBytes plainBinding ≠ extendedBody extra
          ∧ Go.Naming.verifyBinding Go.Cose.digestLibrary (sampleSigned (extendedBody extra)) 1
              objectKey = .ok plainBinding)
      ∧ (¬ ∃ pos, extendedFork.verify digestLibrary 1 algMldsa65 objectKey.pubKey = .ok pos)
      ∧ ¬ ∃ pos, Go.Naming.verifyFork Go.Cose.digestLibrary extendedFork 1 objectKey = .ok pos := by
  have carries : Carries (extendedBody 0) plainBinding :=
    parseNameBinding_eq_ok.mp (parse_extendedBody (.inl rfl)).1
  have encodable := carries.encodable
  have first : verifyBinding digestLibrary extendedFork.signedA 1 algMldsa65 objectKey.pubKey
      = .ok plainBinding := (verify_extendedBody (.inl rfl)).1
  have second : verifyBinding digestLibrary extendedFork.signedB 1 algMldsa65 objectKey.pubKey
      = .ok plainBinding := (verify_extendedBody (.inr rfl)).1
  have goFirst : Go.Naming.verifyBinding Go.Cose.digestLibrary extendedFork.signedA 1 objectKey
      = .ok plainBinding := (verify_extendedBody (.inl rfl)).2
  have goSecond : Go.Naming.verifyBinding Go.Cose.digestLibrary extendedFork.signedB 1 objectKey
      = .ok plainBinding := (verify_extendedBody (.inr rfl)).2
  refine ⟨by decide, ?_, ?_, ?_⟩
  · intro extra member
    have known : extra = 0 ∨ extra = 1 := by simpa using member
    obtain ⟨parsed, goParsed⟩ := parse_extendedBody known
    obtain ⟨verified, goVerified⟩ := verify_extendedBody known
    have other : encoding (.m (bindingPairs plainBinding)) ≠ extendedBody extra := by
      intro same
      have sizes := congrArg List.length same
      have size : (encoding (.m (bindingPairs plainBinding))).length = 11 := by decide +kernel
      rw [size] at sizes
      simp [extendedBody] at sizes
    refine ⟨parsed, ?_, verified, goParsed, bindingBytes_eq encodable ▸ other, goVerified⟩
    rw [bytes_eq encodable]
    exact fun same => other (Except.ok.inj same)
  · rw [verify_fork_iff encodable encodable rfl rfl first second]
    simp
  · rw [goVerify_fork_iff encodable encodable rfl rfl goFirst goSecond]
    simp

end Naalp.Names
