import Naalp.Implementations.Allocation
import Naalp.Implementations.Verifiers
import Naalp.Rust.Envelope

/-! The Go and Rust object verifiers accept the same objects, under signature packages that
agree.
-/

namespace Naalp.Implementations

open Naalp.Foundation
open Naalp.Go (Stop Result)
open Naalp.Python (PyStr)
open Naalp.Python.Cbor
open Naalp.Python.Cose (MlDsa algComposite65Ed25519 tagSign1)
open Naalp.Python.Envelope (maxObjectSize)
open Naalp.Go.Cose (PublicKey)
open Naalp.Rust (mapErr expect)
open Naalp.Rust.Cose (VerifyingKey tryInto)
open Naalp.Signatures (goParseSign1Raw_eq_ok)

theorem mapErr_sameOk {α : Type} {error : Stop} {left right : Result α} (same : SameOk left right)
    : SameOk left (mapErr error right) := by
  intro value
  rw [same]
  cases right with
  | ok result => rfl
  | error stop => cases stop <;> simp [mapErr]

theorem expect_sameOk {α : Type} (result : Result α) : SameOk result (expect result) := by
  intro value
  cases result <;> simp [expect]

-----------------------------------------------------------------------------------------
-- Fields and headers
-----------------------------------------------------------------------------------------

/-- Pushing the causes one after the other is reading all of them, by induction on the items.
-/
theorem pushCause_fold (items : List Value) (seen : List Bytes)
    : items.foldlM Rust.Envelope.pushCause seen
      = (return seen ++ (← items.mapM Go.Envelope.asBstr) : Result (List Bytes)) := by
  induction items generalizing seen with
  | nil => simp
  | cons item rest ih =>
      rw [List.foldlM_cons, List.mapM_cons]
      cases item with
      | b cause => simp [Rust.Envelope.pushCause, Go.Envelope.asBstr, ih]
      | _ => rfl

/-- The two loops over the body map do the same in each round; one case per field. -/
theorem readField_eq (o : Go.Envelope.BodyFields) (key : Int) (val : Value)
    : Rust.Envelope.readField o key val = o.readPair (.u key, val) := by
  have sameUint : Rust.Envelope.asUint = Go.Envelope.asUint := rfl
  have extensions
      : ∀ bound, Rust.Envelope.extensionMap bound val = Go.Envelope.boundedMap bound val := by
    intro bound
    cases val <;> rfl
  unfold Rust.Envelope.readField Go.Envelope.BodyFields.readPair
  refine ite_congr rfl (fun _ => ?_) fun _ => ?_
  · cases val <;> rfl
  refine ite_congr rfl (fun _ => by rw [sameUint]) fun _ => ?_
  refine ite_congr rfl (fun _ => by rw [sameUint]) fun _ => ?_
  refine ite_congr rfl (fun _ => by rw [sameUint]) fun _ => ?_
  refine ite_congr rfl (fun _ => ?_) fun _ => ?_
  · cases val <;> rfl
  refine ite_congr rfl (fun _ => by rw [sameUint]) fun _ => ?_
  refine ite_congr rfl (fun _ => by rw [sameUint]) fun _ => ?_
  refine ite_congr rfl (fun _ => ?_) fun _ => ?_
  · cases val with
    | a items =>
        simp only [pushCause_fold, Go.Envelope.boundedCauses, Go.Envelope.asArr, pure_eq_ok,
          ok_bind, bind_assoc]
    | _ => rfl
  refine ite_congr rfl (fun _ => by rw [sameUint]) fun _ => ?_
  refine ite_congr rfl (fun _ => rfl) fun _ => ?_
  refine ite_congr rfl (fun _ => by rw [extensions]) fun _ => ?_
  refine ite_congr rfl (fun _ => by rw [extensions]) fun _ => ?_
  refine ite_congr rfl (fun _ => ?_) fun _ => ?_
  · cases val <;> rfl
  refine ite_congr rfl (fun _ => by rw [sameUint]) fun _ => rfl

/-- Rust and Go read the same object from a map. -/
theorem objectFromMap_eq (m : List (Value × Value))
    : Rust.Envelope.objectFromMap m = Go.Envelope.objectFromMap m := by
  have rounds : Rust.Envelope.readPair = Go.Envelope.BodyFields.readPair := by
    funext o pair
    obtain ⟨key, val⟩ := pair
    cases key with
    | u key => exact readField_eq o key val
    | _ => rfl
  rw [Rust.Envelope.objectFromMap, Go.Envelope.objectFromMap, rounds]

/-- The Rust copy of a routing entry is what the Go loop takes from it. -/
theorem readCopy_eq (h : Go.Envelope.HeaderFields) (entry : Value × Value)
    : Rust.Envelope.readCopy h entry = h.readRouting entry := by
  obtain ⟨key, val⟩ := entry
  cases key with
  | u k =>
      by_cases first : k = 1
      · subst first
        cases val <;> rfl
      by_cases second : k = 2
      · subst second
        cases val <;> rfl
      by_cases third : k = 3
      · subst third
        cases val <;> rfl
      · simp [Rust.Envelope.readCopy, Go.Envelope.HeaderFields.readRouting, first, second, third]
  | _ => rfl

/-- Rust and Go take an entry of the header alike. -/
theorem readEntry_eq (h : Go.Envelope.HeaderFields) (entry : Value × Value)
    : Rust.Envelope.readEntry h entry = h.readEntry entry := by
  have copies : Rust.Envelope.readCopy = Go.Envelope.HeaderFields.readRouting := by
    funext h entry
    exact readCopy_eq h entry
  obtain ⟨key, val⟩ := entry
  cases key with
  | u k =>
      by_cases first : k = 1
      · subst first
        cases val <;> rfl
      · simp [Rust.Envelope.readEntry, Go.Envelope.HeaderFields.readEntry, first]
  | t label =>
      unfold Rust.Envelope.readEntry Go.Envelope.HeaderFields.readEntry
      rw [copies]
      cases val <;> rfl
  | _ => rfl

-----------------------------------------------------------------------------------------
-- The content id and the critical extensions
-----------------------------------------------------------------------------------------

/-- The loops that split off the id keep the same pairs; an id not yet seen is the nil slice. -/
theorem splitPair_fold (m : List (Value × Value)) (claimed : Option Bytes)
    (kept : List (Value × Value))
    : m.foldlM Go.Envelope.splitPair (claimed.getD [], kept)
      = (return Prod.map (·.getD []) id (← m.foldlM Rust.Envelope.splitPair (claimed, kept))
          : Result (Bytes × List (Value × Value))) := by
  induction m generalizing claimed kept with
  | nil => rfl
  | cons pair rest ih =>
      rw [List.foldlM_cons, List.foldlM_cons]
      obtain ⟨key, val⟩ := pair
      cases key with
      | u k =>
          by_cases isId : k = Python.Envelope.fieldId
          · cases val with
            | b octets =>
                have later := ih (some octets) kept
                simpa [Go.Envelope.splitPair, Rust.Envelope.splitPair, Go.Envelope.asBstr, isId]
                  using later
            | _ => simp [Go.Envelope.splitPair, Rust.Envelope.splitPair, Go.Envelope.asBstr, isId]
          · simpa [Go.Envelope.splitPair, Rust.Envelope.splitPair, isId]
              using ih claimed (kept ++ [(.u k, val)])
      | _ => exact ih claimed _

/-- The checks of the content id pass alike.
Witness: the same pairs are left beside the id, and an empty id counts as absent in both.
-/
theorem checkContentId_sameOk (m : List (Value × Value))
    : SameOk (Go.Envelope.checkContentID m) (Rust.Envelope.checkContentId m) := by
  unfold Go.Envelope.checkContentID Rust.Envelope.checkContentId
  rw [show (([], []) : Bytes × List (Value × Value)) = ((none : Option Bytes).getD [], []) from rfl,
    splitPair_fold]
  cases m.foldlM Rust.Envelope.splitPair (none, []) with
  | error stop => exact .rfl
  | ok state =>
      obtain ⟨claimed, withoutId⟩ := state
      cases claimed with
      | none => exact .refused
      | some claimed =>
          have recomputed : SameOk (Go.Cbor.contentID withoutId)
              (mapErr Go.Envelope.errMalformed (Rust.Cbor.contentId (.m withoutId))) :=
            mapErr_sameOk .rfl
          by_cases absent : claimed = []
          · -- a recomputed id is never empty, so Rust refuses an empty id as well
            intro done
            simp only [pure_eq_ok, ok_bind, Prod.map_apply, Option.getD_some, raiseIf_pos absent,
              error_bind, reduceCtorEq, false_iff, bind_eq_ok, not_exists, not_and, raiseIf_eq_ok,
              not_not]
            intro octets computed same
            obtain ⟨enc, -, prefixed⟩ := bind_eq_ok.mp ((recomputed octets).mpr computed)
            rw [same, absent] at prefixed
            cases prefixed
          · simp only [pure_eq_ok, ok_bind, Prod.map_apply, Option.getD_some,
              raiseIf_neg absent, id]
            exact recomputed.bind fun _ _ => .raiseIf Iff.rfl

/-- The sets of known critical extensions are the same. -/
theorem checkCextEntry_sameOk {goKnown : Int → Bool} {rustKnown : List Int}
    (known : ∀ k, goKnown k = true ↔ k ∈ rustKnown) (pair : Value × Value)
    : SameOk (Go.Envelope.checkCextEntry goKnown pair)
        (Rust.Envelope.checkCextEntry rustKnown pair) := by
  obtain ⟨key, val⟩ := pair
  cases key with
  | u k =>
      unfold Go.Envelope.checkCextEntry Rust.Envelope.checkCextEntry
      by_cases recheck : k = Python.Envelope.recheckKey
      · simp only [if_pos recheck]
        cases val <;> exact .rfl
      · simp only [if_neg recheck]
        apply SameOk.raiseIf
        rw [← known, Bool.not_eq_true]
  | _ => exact .rfl

-----------------------------------------------------------------------------------------
-- The decoded parts
-----------------------------------------------------------------------------------------

/-- Rust takes a signed object apart exactly when it decodes to a tagged array of four. -/
theorem rustParseSign1Raw_eq_ok {valueSize : Nat} {obj prot payload sig : Bytes}
    : Rust.Cose.parseSign1Raw valueSize obj = .ok (prot, payload, sig)
      ↔ ∃ unprotected, Rust.Cbor.decode valueSize obj
        = .ok (.tag tagSign1 (.a [.b prot, unprotected, .b payload, .b sig])) := by
  constructor
  · intro parsed
    rw [Rust.Cose.parseSign1Raw] at parsed
    obtain ⟨v, decoded, rest⟩ := bind_eq_ok.mp parsed
    have decoded := (mapErr_sameOk .rfl v).mpr decoded
    split at rest
    · simp only [bind_eq_ok, raiseIf_eq_ok, exists_const, not_not] at rest
      obtain ⟨rfl, rest⟩ := rest
      split at rest
      · obtain ⟨rfl, rfl, rfl⟩ := Except.ok.inj rest
        exact ⟨_, decoded⟩
      · cases rest
    · cases rest
  · intro carried
    obtain ⟨unprotected, decoded⟩ := carried
    rw [Rust.Cose.parseSign1Raw, decoded]
    rfl

/-- The parts of a parsed object are no longer than it. -/
theorem length_parts_le {obj prot payload sig : Bytes}
    (parsed : Go.Cose.parseSign1Raw obj = .ok (prot, payload, sig))
    : prot.length ≤ obj.length ∧ payload.length ≤ obj.length := by
  obtain ⟨unprotected, decoded⟩ := goParseSign1Raw_eq_ok.mp parsed
  obtain ⟨canonical, rfl⟩ := decode_eq_ok.mp (goDecode_eq_ok.mp decoded).1
  obtain ⟨-, -, array, octets⟩ := encode_tag_eq_ok.mp canonical.encodable
  obtain ⟨-, members, items⟩ := encode_a_eq_ok.mp array
  have within : ∀ part, (Value.b part) ∈ [.b prot, unprotected, .b payload, .b sig]
      → part.length ≤ (encoding (.b part)).length := by
    intro part member
    obtain ⟨-, octets⟩ := encode_b_eq_ok.mp (members _ member)
    rw [octets, List.length_append]
    omega
  have first := within prot (by simp)
  have third := within payload (by simp)
  rw [octets, items]
  simp only [List.flatMap_cons, List.length_append]
  omega

section Decoded

variable {valueSize : Nat} (layout : valueSize * maxObjectSize ≤ Rust.Cbor.isizeMax)

include layout

theorem decodeBounded_sameOk {data : Bytes} (size : data.length ≤ maxObjectSize) (maxDepth : Nat)
    : SameOk (Go.Cbor.decodeBounded data maxDepth)
        (Rust.Cbor.decodeBounded valueSize data maxDepth) :=
  fun _ => (Native.Cbor.rustDecodeBounded_eq_ok layout size).symm

theorem parseSign1Raw_sameOk {obj : Bytes} (size : obj.length ≤ maxObjectSize)
    : SameOk (Go.Cose.parseSign1Raw obj) (Rust.Cose.parseSign1Raw valueSize obj) := by
  intro parts
  obtain ⟨prot, payload, sig⟩ := parts
  rw [goParseSign1Raw_eq_ok, rustParseSign1Raw_eq_ok]
  exact exists_congr fun _ => decodeBounded_sameOk layout size _ _

/-- Headers within the size limit are parsed alike: the Rust decoder has room for them. -/
theorem parseProtected_sameOk {prot : Bytes} (size : prot.length ≤ maxObjectSize)
    : SameOk (Go.Envelope.parseProtected prot) (Rust.Envelope.parseProtected valueSize prot) := by
  have decoded : SameOk (Go.Cbor.decode prot) (mapErr Go.Envelope.errMalformed
      (Rust.Cbor.decode valueSize prot)) :=
    mapErr_sameOk (decodeBounded_sameOk layout size _)
  have entries : Rust.Envelope.readEntry = Go.Envelope.HeaderFields.readEntry := by
    funext h entry
    exact readEntry_eq h entry
  refine .bind (.raiseIf Iff.rfl) fun _ _ => ?_
  rw [entries]
  cases go : Go.Cbor.decode prot with
  | error stop =>
      rw [go] at decoded
      obtain ⟨other, refused⟩ := decoded.error_right
      rw [refused]
      exact .refused
  | ok value =>
      rw [(decoded value).mp go, ok_bind]
      cases value <;> exact .rfl

/-- Bodies within the size limit are decoded and checked alike. -/
theorem decodeAndCheck_sameOk {prot payload : Bytes} (protSize : prot.length ≤ maxObjectSize)
    (payloadSize : payload.length ≤ maxObjectSize) {goKnown : Int → Bool} {rustKnown : List Int}
    (known : ∀ k, goKnown k = true ↔ k ∈ rustKnown)
    : SameOk (Go.Envelope.decodeAndCheck prot payload goKnown)
        (Rust.Envelope.decodeAndCheck valueSize prot payload rustKnown) := by
  unfold Go.Envelope.decodeAndCheck Rust.Envelope.decodeAndCheck
  refine .bind (decodeBounded_sameOk layout payloadSize _) fun value _ => ?_
  cases value with
  | m body =>
      refine .bind (checkContentId_sameOk body) fun _ _ => ?_
      rw [objectFromMap_eq]
      refine .bind .rfl fun o _ => ?_
      refine .bind (.raiseIf Iff.rfl) fun _ _ => ?_
      refine .bind (parseProtected_sameOk layout protSize) fun header _ => ?_
      refine .bind (.raiseIf Iff.rfl) fun _ _ => ?_
      refine .bind (.raiseIf Iff.rfl) fun _ _ => ?_
      refine .bind ?_ fun _ _ => .rfl
      intro done
      rw [List.forM_eq_forM, forM_eq_ok, forM_eq_ok]
      exact forall₂_congr fun pair _ => checkCextEntry_sameOk known pair ()
  | _ => exact .refused

end Decoded

-----------------------------------------------------------------------------------------
-- The signatures
-----------------------------------------------------------------------------------------

/-- The packages of Go and the crates of Rust agree on every key, message and signature; those
of Go refuse a signature of the wrong length.
-/
structure NativeLibrariesAgree (goLib : Go.Cose.SignatureLibrary)
    (rustLib : Rust.Cose.SignatureLibrary) : Prop where
  mldsa : ∀ (set : MlDsa) (pk : PublicKey set) (message context sig : Bytes),
    goLib.mldsaVerify set pk.bytes message context sig = true
      ↔ sig.length = set.signatureSize
        ∧ rustLib.mldsaVerify set pk.bytes message sig context = true
  ed25519 : ∀ (vk : VerifyingKey) (message sig : Bytes),
    goLib.ed25519Verify vk.bytes message sig = true
      ↔ sig.length = 64 ∧ rustLib.ed25519Verify vk.bytes message sig = true

/-- The Go key of the same octets. -/
def goKey : Rust.Cose.Verifier → Go.Cose.Verifier
  | .mldsa65 pk => .mldsa65 pk
  | .mldsa87 pk => .mldsa87 pk
  | .ed25519 vk => .ed25519 vk.bytes
  | .composite ml65 ed => .composite ml65 ed.bytes

theorem sovereign_iff (profile : UInt32)
    : (profile.toNat : Int) = Python.Cose.profileSovereign
      ↔ profile = Rust.Cose.profileSovereign := by
  rw [← UInt32.toNat_inj]
  exact Int.natCast_inj

theorem profileMinLevel_agrees (profile : UInt32)
    : Go.Cose.profileMinLevel profile.toNat = Rust.Cose.profileMinLevel profile := by
  simp only [Go.Cose.profileMinLevel, Rust.Cose.profileMinLevel, sovereign_iff]

theorem algLevel_agrees (alg : Int)
    : Rust.Cose.algLevel alg
      = if (Go.Cose.algLevel alg).2 then some (Go.Cose.algLevel alg).1 else none := by
  unfold Rust.Cose.algLevel Go.Cose.algLevel
  split_ifs <;> simp_all

theorem goKey_alg (v : Rust.Cose.Verifier) : (goKey v).alg = v.alg := by
  cases v <;> rfl

section Signatures

variable {goLib : Go.Cose.SignatureLibrary} {rustLib : Rust.Cose.SignatureLibrary}
  (agree : NativeLibrariesAgree goLib rustLib)

include agree

theorem mldsaVerifyRaw_agrees (set : MlDsa) (pk : PublicKey set) (msg sig : Bytes)
    : goLib.mldsaVerify set pk.bytes msg [] sig
      = Rust.Cose.mldsaVerifyRaw rustLib set pk msg sig := by
  rw [Bool.eq_iff_iff, agree.mldsa, Rust.Cose.mldsaVerifyRaw, tryInto]
  by_cases size : sig.length = set.signatureSize
  · simp [size]
  · simp [size]

/-- Composite signatures are checked alike under libraries that agree. -/
theorem verifyComposite_sameOk (ml65 : PublicKey .mlDsa65) (ed : VerifyingKey) (m sig : Bytes)
    : SameOk (Go.Cose.verifyComposite goLib ml65 ed.bytes m sig)
        (Rust.Cose.verifyComposite rustLib ml65 ed m sig) := by
  refine .bind (.raiseIf Iff.rfl) fun _ passed => ?_
  rw [raiseIf_eq_ok, not_not] at passed
  have mlSize : (sig.take (MlDsa.signatureSize .mlDsa65)).length = MlDsa.signatureSize .mlDsa65 :=
    List.length_take_of_le (by omega)
  have edSize : (sig.drop (MlDsa.signatureSize .mlDsa65)).length = 64 := by
    rw [List.length_drop, passed, Nat.add_sub_cancel_left]
  have keySize : ¬ ed.bytes.length ≠ 32 := not_not.mpr ed.size
  simp only [Go.Cose.ed25519Verify, if_neg keySize, pure_eq_ok, ok_bind, tryInto, if_pos mlSize,
    if_pos edSize]
  apply SameOk.raiseIf
  rw [← Bool.not_eq_true, ← Bool.not_eq_true, ← Bool.not_eq_true, ← Bool.not_eq_true, agree.mldsa,
    agree.ed25519]
  simp only [mlSize, edSize, true_and]
  rfl

/-- Pure signatures are checked alike under libraries that agree. -/
theorem verifyRaw_agrees {v : Rust.Cose.Verifier} (plain : v.alg ≠ algComposite65Ed25519)
    (msg sig : Bytes)
    : (goKey v).verifyRaw goLib msg sig = .ok (v.verifyRaw rustLib msg sig) := by
  cases v with
  | mldsa65 pk => exact congrArg Except.ok (mldsaVerifyRaw_agrees agree .mlDsa65 pk msg sig)
  | mldsa87 pk => exact congrArg Except.ok (mldsaVerifyRaw_agrees agree .mlDsa87 pk msg sig)
  | ed25519 vk =>
      have keySize : ¬ vk.bytes.length ≠ 32 := not_not.mpr vk.size
      simp only [goKey, Go.Cose.Verifier.verifyRaw, Go.Cose.ed25519Verify, if_neg keySize,
        Rust.Cose.Verifier.verifyRaw, tryInto, pure_eq_ok]
      rw [Except.ok.injEq, Bool.eq_iff_iff, agree.ed25519]
      by_cases size : sig.length = 64
      · simp [size]
      · simp [size]
  | composite ml65 ed => exact absurd rfl plain

/-- The signature stage passes alike, the registry and the floor included.
Witness: composite or not, the conditions come in the same order and are the same.
-/
theorem checkSignature_sameOk {profile : UInt32} {v : Rust.Cose.Verifier} {alg : Int}
    {o : Go.Envelope.Object} {tbs sig : Bytes} {level : Nat}
    (sameLevel : (Go.Cose.algLevel alg).1 = level)
    : SameOk (Go.Envelope.checkSignature goLib profile.toNat (goKey v) alg o tbs sig)
        (Rust.Envelope.checkSignature rustLib profile v alg level o tbs sig) := by
  have sovereign := sovereign_iff profile
  have floor := profileMinLevel_agrees profile
  have sameAlg := goKey_alg v
  unfold Go.Envelope.checkSignature Rust.Envelope.checkSignature
  by_cases composite : alg = algComposite65Ed25519
  · rw [if_pos composite, if_pos composite]
    refine .bind (.raiseIf sovereign) fun _ _ => ?_
    refine .bind (.raiseIf Iff.rfl) fun _ _ => ?_
    refine .bind (.raiseIf (by rw [sameLevel, floor])) fun _ _ => ?_
    refine .bind (.raiseIf (by rw [sameAlg])) fun _ keyed => ?_
    rw [raiseIf_eq_ok, not_not, sameAlg, composite] at keyed
    cases v with
    | composite ml65 ed => exact verifyComposite_sameOk agree ml65 ed tbs sig
    | _ =>
        simp only [Rust.Cose.Verifier.alg] at keyed
        exact absurd keyed (by decide)
  · rw [if_neg composite, if_neg composite]
    refine .bind (.raiseIf Iff.rfl) fun _ _ => ?_
    refine .bind (.raiseIf (by rw [sameLevel, floor])) fun _ _ => ?_
    refine .bind (.raiseIf (by rw [sameAlg])) fun _ keyed => ?_
    rw [raiseIf_eq_ok, not_not, sameAlg] at keyed
    rw [verifyRaw_agrees agree (keyed ▸ composite), ok_bind]
    exact .rfl

end Signatures

-----------------------------------------------------------------------------------------
-- The verdicts
-----------------------------------------------------------------------------------------

/-- Both verifiers accept the same objects.
Witness: stage by stage; each is entered with the same values.
-/
theorem verify_sameOk {goLib : Go.Cose.SignatureLibrary} {rustLib : Rust.Cose.SignatureLibrary}
    (agree : NativeLibrariesAgree goLib rustLib) {valueSize : Nat}
    (layout : valueSize * maxObjectSize ≤ Rust.Cbor.isizeMax) {goKnown : Int → Bool}
    {rustKnown : List Int} (known : ∀ k, goKnown k = true ↔ k ∈ rustKnown) (profile : UInt32)
    (v : Rust.Cose.Verifier) (kindOk : Int → Int → Bool) (obj : Bytes)
    : SameOk (Go.Envelope.verify goLib profile.toNat (goKey v) (some kindOk) goKnown obj)
        (Rust.Envelope.verify valueSize rustLib profile v kindOk rustKnown obj) := by
  unfold Go.Envelope.verify Rust.Envelope.verify
  refine .bind (.raiseIf Iff.rfl) fun _ sized => ?_
  rw [raiseIf_eq_ok, not_lt] at sized
  have parsed := @mapErr_sameOk _ Go.Envelope.errMalformed _ _ (parseSign1Raw_sameOk layout sized)
  cases go : Go.Cose.parseSign1Raw obj with
  | error stop =>
      rw [go] at parsed
      obtain ⟨other, refused⟩ := parsed.error_right
      rw [refused]
      exact .refused
  | ok parts =>
      obtain ⟨prot, payload, sig⟩ := parts
      obtain ⟨protSize, payloadSize⟩ := length_parts_le go
      rw [(parsed _).mp go, ok_bind]
      refine .bind (decodeAndCheck_sameOk layout (by omega) (by omega) known) fun checked _ => ?_
      obtain ⟨o, alg⟩ := checked
      refine .bind (.raiseIf Iff.rfl) fun _ _ => ?_
      refine .bind (.raiseIf (by simp)) fun _ _ => ?_
      rw [algLevel_agrees]
      cases registered : (Go.Cose.algLevel alg).2 with
      | false => exact .refused
      | true =>
          simp only [raiseIf_neg (Bool.false_ne_true ∘ Eq.symm), ok_bind, if_true]
          refine .bind (expect_sameOk _) fun tbs _ => ?_
          exact .bind (checkSignature_sameOk agree rfl) fun _ _ => .rfl

/-- Go and Rust return the same object, with the same fields, or both refuse: on every octet
string, under the same profile, key, kind validator and set of known critical extensions. The
composite key is one of the keys.
-/
theorem go_rust_verify_alike {goLib : Go.Cose.SignatureLibrary}
    {rustLib : Rust.Cose.SignatureLibrary} (agree : NativeLibrariesAgree goLib rustLib)
    {valueSize : Nat} (layout : valueSize * maxObjectSize ≤ Rust.Cbor.isizeMax)
    {goKnown : Int → Bool} {rustKnown : List Int} (known : ∀ k, goKnown k = true ↔ k ∈ rustKnown)
    (profile : UInt32) (v : Rust.Cose.Verifier) (kindOk : Int → Int → Bool) (obj : Bytes)
    (o : Go.Envelope.Object)
    : Go.Envelope.verify goLib profile.toNat (goKey v) (some kindOk) goKnown obj = .ok o
      ↔ Rust.Envelope.verify valueSize rustLib profile v kindOk rustKnown obj = .ok o :=
  verify_sameOk agree layout known profile v kindOk obj o

/-- The two libraries on which the model can be evaluated agree. -/
theorem digestNatives_agree
    : NativeLibrariesAgree Go.Cose.digestLibrary Rust.Cose.digestLibrary := by
  have sized : ∀ {size : Nat} {sig digest : Bytes}, sig = Python.Cose.fitTo size digest
      ↔ sig.length = size ∧ sig = Python.Cose.fitTo size digest := by
    intro size sig digest
    refine ⟨fun same => ⟨?_, same⟩, And.right⟩
    rw [same]
    exact Python.Cose.length_fitTo size digest
  constructor
  · intro set pk message context sig
    simpa only [Go.Cose.digestLibrary, Rust.Cose.digestLibrary, decide_eq_true_eq] using sized
  · intro vk message sig
    simpa only [Go.Cose.digestLibrary, Rust.Cose.digestLibrary, decide_eq_true_eq] using sized

def sampleRustKey : Rust.Cose.Verifier :=
  .mldsa65 ⟨Python.Cose.fitTo Python.Cose.mldsa65PubSize [9], Python.Cose.length_sampleKey⟩

/-- The signed sample object is accepted by Go, with values of 32 octets also by Rust. -/
theorem go_rust_verify_alike_sample
    : ∃ data o, Python.Envelope.sign Python.Cose.digestLibrary Python.Envelope.sampleObject
        Python.Cose.algMldsa65 [9] = .ok data
      ∧ Go.Envelope.verify Go.Cose.digestLibrary 1 (goKey sampleRustKey) (some fun _ _ => true)
        (fun _ => false) data = .ok o
      ∧ Rust.Envelope.verify 32 Rust.Cose.digestLibrary 1 sampleRustKey (fun _ _ => true) [] data
        = .ok o := by
  obtain ⟨data, o, signed, verified⟩ := goVerify_sampleObject
  refine ⟨data, o, signed, verified, ?_⟩
  exact (go_rust_verify_alike digestNatives_agree (by decide) (by simp [knownSet]) 1 sampleRustKey _
    data o).mp verified

end Naalp.Implementations
