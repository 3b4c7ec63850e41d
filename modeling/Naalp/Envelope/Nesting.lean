import Naalp.CanonicalEncoding.Rejections
import Naalp.Envelope.SignVerify
import Naalp.Python.Envelope
import Naalp.Signatures.Parsing

/-! How deep the parts of an accepted object nest.
The payload is decoded with the nesting bound. The wrapper, the protected headers and the headers
of the legs are decoded with the limit of the trusted-input path.
-/

namespace Naalp.Python.Envelope

open Naalp.Foundation
open Naalp.Python.Cbor
open Naalp.Python.Cose
open Naalp.Signatures

/-- The octets nest deeper than `bound` levels: the bounded decoder comes to an item below. -/
def NestsDeeper (bound : Nat) (data : Bytes) : Prop := Meets TooDeep bound data

/-- The decoder of the wrapper starts to read an item below `bound` levels. -/
def ReadsBelow (bound : Nat) (data : Bytes) : Prop :=
  Meets (fun left _ => 0 < left ∧ left + bound ≤ unboundedDepth) unboundedDepth data

/-- Octets that nest deeper than a bound are read below it. -/
theorem readsBelow_of_nestsDeeper {bound : Nat} {data : Bytes} (small : bound < unboundedDepth)
    (deeper : NestsDeeper bound data)
    : ReadsBelow bound data := by
  have met := deeper.deepen (unboundedDepth - bound)
  rw [Nat.add_sub_cancel' small.le] at met
  refine met.imp ?_
  intro left data found
  obtain ⟨fewer, rfl, deep⟩ := found
  have none : fewer = 0 := deep
  omega

/-- The parts of a wrapper: the values in unprotected positions, the serialized protected
headers, and the payload.
-/
structure Wrapped where
  unprotected : List Value
  headers : List Bytes
  payload : Bytes

def sign1Parts : Value → Option Wrapped
  | .tag _ (.a [.b prot, unprotected, .b payload, .b _]) =>
      some { unprotected := [unprotected], headers := [prot], payload }
  | _ => none

def legParts : Value → Option (Value × Bytes)
  | .a [.b sprot, unprotected, .b _] => some (unprotected, sprot)
  | _ => none

def signParts : Value → Option Wrapped
  | .tag _ (.a [.b bodyProt, unprotected, .b payload, .a entries]) => do
      let legs ← entries.mapM legParts
      return {
        unprotected := unprotected :: legs.map Prod.fst
        headers := bodyProt :: legs.map Prod.snd
        payload
      }
  | _ => none

/-- The octets decode to a value of at most `maxNestingDepth` levels. -/
def Shallow (data : Bytes) : Prop := ∃ v, decode data = .ok v ∧ depth v ≤ maxNestingDepth

/-- The unprotected values and the headers have at most `maxNestingDepth` levels. -/
def Wrapped.HeadersShallow (w : Wrapped) : Prop :=
  (∀ v ∈ w.unprotected, depth v ≤ maxNestingDepth) ∧ ∀ header ∈ w.headers, Shallow header

/-- What the nesting bound has to do for one octet string: the parts of an accepted object have at
most `maxNestingDepth` levels, and a wrapper that nests three levels more than that is refused for
it where the first item below starts.
-/
structure BoundsNesting (parts : Value → Option Wrapped) (verify : Bytes → Py Object) (obj : Bytes)
    : Prop where
  carried : ∀ o, verify obj = .ok o → ∃ v w, decode obj = .ok v ∧ parts v = some w
    ∧ w.HeadersShallow ∧ Shallow w.payload
  wrapper : NestsDeeper (maxNestingDepth + 3) obj
    → (∃ msg, verify obj = .error (.depthExceeded msg)) ∧ ¬ ReadsBelow (maxNestingDepth + 3) obj

/-- The wrapper nests at most three levels more than the bound, and its unprotected values and
headers have at most `maxNestingDepth` levels.
-/
structure NestsAsBounded (parts : Value → Option Wrapped) (obj : Bytes) : Prop where
  wrapper : ¬ NestsDeeper (maxNestingDepth + 3) obj
  headers : ∀ v w, decode obj = .ok v → parts v = some w → w.HeadersShallow

/-- The octet strings that the bound is about: the accepted ones, and those that nest deeper. -/
def Concerned (verify : Bytes → Py Object) (obj : Bytes) : Prop :=
  (∃ o, verify obj = .ok o) ∨ NestsDeeper (maxNestingDepth + 3) obj

section Bounding

variable {parts : Value → Option Wrapped} {verify : Bytes → Py Object}

/-- A verifier that bounds the payload alone bounds the nesting exactly of what nests so.
Witness: what is accepted has a shallow payload, so only the headers and the members beside it
can nest deeper.
-/
theorem boundsNesting_iff
    (payload : ∀ {obj o}, verify obj = .ok o → ∃ v w, decode obj = .ok v ∧ parts v = some w
      ∧ Shallow w.payload)
    (obj : Bytes)
    : (NestsAsBounded parts obj → BoundsNesting parts verify obj)
      ∧ (Concerned verify obj → (BoundsNesting parts verify obj ↔ NestsAsBounded parts obj)) := by
  have enough : NestsAsBounded parts obj → BoundsNesting parts verify obj := by
    intro nests
    constructor
    · intro o accepted
      obtain ⟨v, w, decoded, carried, shallow⟩ := payload accepted
      exact ⟨v, w, decoded, carried, nests.headers v w decoded carried, shallow⟩
    · intro deeper
      exact (nests.wrapper deeper).elim
  refine ⟨enough, fun concerned => ⟨?_, enough⟩⟩
  intro bounds
  have notDeeper : ¬ NestsDeeper (maxNestingDepth + 3) obj := by
    intro deeper
    exact (bounds.wrapper deeper).2 (readsBelow_of_nestsDeeper (by decide) deeper)
  refine ⟨notDeeper, ?_⟩
  intro v w decoded carried
  rcases concerned with ⟨o, accepted⟩ | deeper
  · obtain ⟨_, _, decodedAgain, carriedAgain, shallow, -⟩ := bounds.carried o accepted
    obtain rfl := Except.ok.inj (decoded.symm.trans decodedAgain)
    obtain rfl := Option.some.inj (carried.symm.trans carriedAgain)
    exact shallow
  · exact (notDeeper deeper).elim

/-- A body that is decoded with the bound is shallow. -/
theorem shallow_of_decodeBounded {payload : Bytes} {v : Value}
    (decoded : decodeBounded payload maxNestingDepth = .ok v)
    : Shallow payload := by
  obtain ⟨canonical, octets⟩ := decodeBounded_eq_ok.mp decoded
  exact ⟨v, decode_eq_ok.mpr ⟨canonical.mono (by decide), octets⟩, canonical.within⟩

theorem verify_payload_shallow {lib : SignatureLibrary} {profile alg : Int} {pubkey : Bytes}
    {kindValidator : Option (Int → Int → Bool)} {knownCext : List Int} {obj : Bytes} {o : Object}
    (accepted : Envelope.verify lib profile alg pubkey kindValidator obj knownCext = .ok o)
    : ∃ v w, decode obj = .ok v ∧ sign1Parts v = some w ∧ Shallow w.payload := by
  obtain ⟨parts, stages⟩ := (verify_eq_ok ..).mp accepted
  obtain ⟨unprotected, decoded⟩ := parseSign1Raw_eq_ok.mp stages.parsed
  exact ⟨_, _, decoded, rfl, shallow_of_decodeBounded stages.body⟩

/-- The legs that the parser reads are those whose parts are carried. -/
theorem legParts_of_parseLegs {entries : List Value} {legs : List (Bytes × Bytes)}
    (parsed : entries.mapM parseLeg = .ok legs)
    : ∃ carried, entries.mapM legParts = some carried := by
  induction entries generalizing legs with
  | nil => exact ⟨[], rfl⟩
  | cons entry rest ih =>
      simp only [List.mapM_cons, bind_eq_ok, pure_eq_ok] at parsed
      obtain ⟨leg, read, others, readOthers, -⟩ := parsed
      obtain ⟨carried, later⟩ := ih readOthers
      unfold parseLeg at read
      split at read
      · rw [List.mapM_cons, later]
        exact ⟨_, rfl⟩
      · cases read

/-- The payload of an accepted rotation is within the nesting bound, whatever is in its
unprotected header.
-/
theorem rotation_payload_shallow {lib : SignatureLibrary} {profile oldAlg newAlg : Int}
    {oldPk newPk : Bytes} {kindValidator : Option (Int → Int → Bool)} {knownCext : List Int}
    {obj : Bytes} {o : Object}
    (accepted : verifyRotationObject lib profile oldAlg oldPk newAlg newPk kindValidator obj
      knownCext = .ok o)
    : ∃ v w, decode obj = .ok v ∧ signParts v = some w ∧ Shallow w.payload := by
  simp only [verifyRotationObject, bind_eq_ok, Prod.exists, raiseIf_eq_ok, exists_const] at accepted
  obtain ⟨-, bodyProt, payload, legs, parsed, _, checked, -⟩ := accepted
  obtain ⟨unprotected, entries, decoded, read⟩ := parseSignRaw_eq_ok parsed
  obtain ⟨carried, legsCarried⟩ := legParts_of_parseLegs read
  have shallow : Shallow payload := by
    obtain ⟨body, bounded, -⟩ := bind_eq_ok.mp checked
    exact shallow_of_decodeBounded bounded
  let w : Wrapped := {
    unprotected := unprotected :: carried.map Prod.fst
    headers := bodyProt :: carried.map Prod.snd
    payload }
  refine ⟨_, w, decoded, ?_, shallow⟩
  rw [signParts, legsCarried]
  rfl

end Bounding

/-- For every octet string, the single-signature verifier and the rotation verifier bound the
nesting where the wrapper, the unprotected values and the headers nest as bounded, and nowhere
else among what they accept and what nests deeper.
-/
theorem nesting_bounded_iff (lib : SignatureLibrary) (profile alg oldAlg newAlg : Int)
    (pubkey oldPk newPk : Bytes) (kindValidator : Option (Int → Int → Bool))
    (knownCext : List Int) (obj : Bytes)
    : let single := fun obj => verify lib profile alg pubkey kindValidator obj knownCext
      let rotation := fun obj =>
        verifyRotationObject lib profile oldAlg oldPk newAlg newPk kindValidator obj knownCext
      (NestsAsBounded sign1Parts obj → BoundsNesting sign1Parts single obj)
        ∧ (Concerned single obj
          → (BoundsNesting sign1Parts single obj ↔ NestsAsBounded sign1Parts obj))
        ∧ (NestsAsBounded signParts obj → BoundsNesting signParts rotation obj)
        ∧ (Concerned rotation obj
          → (BoundsNesting signParts rotation obj ↔ NestsAsBounded signParts obj)) := by
  intro single rotation
  obtain ⟨singleEnough, singleExact⟩ :=
    @boundsNesting_iff sign1Parts single verify_payload_shallow obj
  obtain ⟨rotationEnough, rotationExact⟩ :=
    @boundsNesting_iff signParts rotation rotation_payload_shallow obj
  exact ⟨singleEnough, singleExact, rotationEnough, rotationExact⟩

/-- Arrays in one another around a zero. -/
def nestedArrays : (levels : Nat) → Value
  | 0 => .u 0
  | levels + 1 => .a [nestedArrays levels]

/-- The signed sample object with seventeen levels in the unprotected position. -/
def overNested : Py Bytes := do
  let signed ← sign digestLibrary sampleObject algMldsa65 [9]
  let (prot, payload, sig) ← parseSign1Raw signed
  encode (.tag tagSign1 (.a [.b prot, nestedArrays 16, .b payload, .b sig]))

/-- A wrapper of byte strings around nested arrays decodes to itself. -/
theorem decode_overNested {prot payload sig data : Bytes}
    (encoded : encode (.tag tagSign1 (.a [.b prot, nestedArrays 16, .b payload, .b sig]))
      = .ok data)
    : decode data = .ok (.tag tagSign1 (.a [.b prot, nestedArrays 16, .b payload, .b sig])) :=
  decodeBounded_encode encoded (by simp [nestedArrays, depth, depthItems, unboundedDepth])

/-- The over-nested object is made and accepted.
Witness: it differs from the signed sample object in the unprotected value alone, which no stage
reads.
-/
theorem overNested_accepted
    : ∃ obj o, overNested = .ok obj
      ∧ verify digestLibrary 1 algMldsa65 (fitTo mldsa65PubSize [9]) (some fun _ _ => true) obj []
        = .ok o := by
  have nested : Encodable (nestedArrays 16) := rfl
  have short : (encoding (nestedArrays 16)).length ≤ 1000 := by decide
  obtain ⟨signed, parts, o, obj, made, stages, encoded, size⟩ := sampleObject_rewrapped nested short
  have accepted : Accepted digestLibrary 1 (fitTo mldsa65PubSize [9]) (some fun _ _ => true) [] obj
      parts o :=
    { stages with
      size
      parsed := parseSign1Raw_eq_ok.mpr ⟨nestedArrays 16, decode_overNested encoded⟩ }
  refine ⟨obj, o, ?_, (verify_eq_ok ..).mpr ⟨parts, accepted⟩⟩
  rw [overNested, made, ok_bind, stages.parsed]
  exact encoded

/-- The over-nested object is accepted; and 25 arrays in one another, which nest deeper than the
wrapper may, are decoded and refused for another reason.
Witness: 16 arrays stand in the unprotected header of the object, and a zero in the innermost of
the 25.
-/
theorem unbounded_unprotected_accepted
    : let single := fun obj => verify digestLibrary 1 algMldsa65 (fitTo mldsa65PubSize [9])
        (some fun _ _ => true) obj []
      (∃ obj o, overNested = .ok obj ∧ single obj = .ok o ∧ ¬ BoundsNesting sign1Parts single obj)
      ∧ NestsDeeper (maxNestingDepth + 3) (List.replicate 25 0x81 ++ [0])
      ∧ single (List.replicate 25 0x81 ++ [0])
        = .error (.valueError "not a tagged COSE_Sign1") := by
  intro single
  obtain ⟨obj, o, made, accepted⟩ := overNested_accepted
  refine ⟨⟨obj, o, made, accepted, ?_⟩, ?_, ?_⟩
  · intro bounds
    have exactly := (@boundsNesting_iff sign1Parts single verify_payload_shallow obj).2
    have nests := (exactly (.inl ⟨o, accepted⟩)).mp bounds
    simp only [overNested, bind_eq_ok, Prod.exists] at made
    obtain ⟨_, -, prot, payload, sig, -, encoded⟩ := made
    have decoded := decode_overNested encoded
    have shallow := (nests.headers _ _ decoded rfl).1 (nestedArrays 16) (by simp)
    exact absurd shallow (by decide)
  · exact meets_tooDeep.mpr ((decodeBounded_eq_error (foreign_depth _)).mp rfl)
  · have encoded : encode (nestedArrays 25) = .ok (List.replicate 25 0x81 ++ [0]) := rfl
    have decoded : decode (List.replicate 25 0x81 ++ [0]) = .ok (nestedArrays 25) :=
      decodeBounded_encode encoded (by simp [nestedArrays, depth, depthItems, unboundedDepth])
    simp only [single, verify, parseSign1Raw, decoded]
    rfl

end Naalp.Python.Envelope
