import Naalp.Envelope.BodyMap

/-! What the offline verifier accepts: its stages, each with the input it passes. -/

namespace Naalp.Python.Envelope

open Naalp.Foundation
open Naalp.Python.Cbor
open Naalp.Python.Cose

/-- The parts that `verify` takes an object apart into. -/
structure Parts where
  prot : Bytes
  payload : Bytes
  sig : Bytes
  pairs : List (Value × Value)
  halg : Int

section Verifying

variable (lib : SignatureLibrary) (profile : Int) (pubkey : Bytes)
  (kindValidator : Option (Int → Int → Bool)) (knownCext : List Int)

/-- The stages of `verify` on an object that it accepts. -/
structure Accepted (objBytes : Bytes) (parts : Parts) (o : Object) : Prop where
  size : objBytes.length ≤ maxObjectSize
  parsed : parseSign1Raw objBytes = .ok (parts.prot, parts.payload, parts.sig)
  body : decodeBounded parts.payload maxNestingDepth = .ok (.m parts.pairs)
  contentId : checkContentId parts.pairs = .ok ()
  read : ReadFrom parts.pairs o
  notRotation : isRotationObject o.channel o.kind = false
  ranges : checkRanges o = .ok ()
  header : checkHeader parts.prot o = .ok parts.halg
  cext : checkCext knownCext o.cext = .ok ()
  kind : kindAccepted kindValidator o = true
  signature : ∃ tbs, toBeSignedRaw parts.prot parts.payload = .ok tbs
    ∧ checkSignature lib profile pubkey parts.halg o tbs parts.sig = .ok ()

/-- The verifier accepts exactly what passes its stages.
Witness: the checks are read off in the order of the code, each with what it passes on.
-/
theorem verify_eq_ok {alg : Int} {objBytes : Bytes} {o : Object}
    : verify lib profile alg pubkey kindValidator objBytes knownCext = .ok o
      ↔ ∃ parts, Accepted lib profile pubkey kindValidator knownCext objBytes parts o := by
  constructor
  · intro accepted
    simp only [verify, bind_eq_ok, raiseIf_eq_ok, exists_const, Prod.exists, not_lt] at accepted
    obtain ⟨size, prot, payload, sig, parsed, v, decoded, rest⟩ := accepted
    cases v with
    | m pairs =>
        simp only [bind_eq_ok, raiseIf_eq_ok, exists_const, pure_eq_ok, Except.ok.injEq,
          objectFromMap_eq_ok, Bool.not_eq_true, Bool.not_eq_false] at rest
        obtain ⟨_, contentId, o, read, notRotation, _, ranges, halg, header, _, cext, kind, tbs,
          signed, _, signature, rfl⟩ := rest
        exact ⟨⟨prot, payload, sig, pairs, halg⟩, size, parsed, decoded, contentId, read,
          notRotation, ranges, header, cext, kind, tbs, signed, signature⟩
    | _ => cases rest
  · intro accepted
    obtain ⟨parts, size, parsed, decoded, contentId, read, notRotation, ranges, header, cext, kind,
      tbs, signed, signature⟩ := accepted
    simp only [verify, raiseIf_neg (Nat.not_lt.mpr size), parsed, decoded, contentId,
      objectFromMap_eq_ok.mpr read, notRotation, ranges, header, cext, kind, signed, signature,
      ok_bind, pure_eq_ok, raiseIf_neg Bool.false_ne_true,
        raiseIf_neg (show ¬ true = false by simp)]

end Verifying

/-- An assembled object is parsed into the octets it was assembled from. -/
theorem parseSign1Raw_assembled {prot payload sig data : Bytes}
    (assembled : assembleSign1Raw prot payload sig = .ok data)
    : parseSign1Raw data = .ok (prot, payload, sig) := by
  have within : depth (.tag tagSign1 (.a [.b prot, .m [], .b payload, .b sig]))
      ≤ unboundedDepth := by
    simp [depth, depthItems, depthPairs, unboundedDepth]
  have decoded := decodeBounded_encode assembled within
  rw [parseSign1Raw, decode, decoded]
  rfl

theorem assembleSign1Raw_ok {prot payload sig : Bytes} (protBound : prot.length < 2 ^ 64)
    (payloadBound : payload.length < 2 ^ 64) (sigBound : sig.length < 2 ^ 64)
    : ∃ data, assembleSign1Raw prot payload sig = .ok data := by
  have array : Encodable (.a [.b prot, .m [], .b payload, .b sig]) := by
    simpa [encodable_a, encodable_b, encodable_m] using ⟨protBound, payloadBound, sigBound⟩
  exact encodable_iff.mp (encodable_tag.mpr ⟨by decide, by decide, array⟩)

theorem toBeSignedRaw_ok {prot payload : Bytes} (protBound : prot.length < 2 ^ 64)
    (payloadBound : payload.length < 2 ^ 64)
    : ∃ tbs, toBeSignedRaw prot payload = .ok tbs := by
  have label : Encodable (.t signature1Label) := rfl
  refine encodable_iff.mp ?_
  simpa [encodable_a, encodable_b, label] using ⟨protBound, payloadBound⟩

def headerValue (alg : Int) (signer : Bytes) (profile : Int) : Value :=
  .m [(.u 1, .n alg),
    (.t headerLabel, .m [(.u 1, .b signer), (.u 2, .u profile), (.u 3, .u naalpVersion)])]

/-- The header check passes exactly when the header carries the signer and the profile of the
body, and the one version.
-/
theorem checkHeader_eq_ok {prot : Bytes} {o : Object} {halg : Int}
    : checkHeader prot o = .ok halg
      ↔ parseProtected prot = .ok (halg, o.signer, o.profile, naalpVersion) := by
  simp only [checkHeader, bind_eq_ok, Prod.exists, raiseIf_eq_ok, exists_const, pure_eq_ok,
    Except.ok.injEq, not_not, ne_eq, not_or]
  constructor
  · intro checked
    obtain ⟨_, _, _, _, read, rfl, ⟨rfl, rfl⟩, rfl⟩ := checked
    exact read
  · intro read
    exact ⟨_, _, _, _, read, rfl, ⟨rfl, rfl⟩, rfl⟩

/-- The header that signing writes is read back to the values it was written from. -/
theorem parseProtected_protectedHeader {alg profile : Int} {signer prot : Bytes}
    (written : protectedHeader alg signer profile = .ok prot)
    : parseProtected prot = .ok (alg, signer, profile, naalpVersion) := by
  have within : depth (headerValue alg signer profile) ≤ unboundedDepth := by
    simp [headerValue, depth, depthPairs, unboundedDepth]
  have decoded : decode prot = .ok (headerValue alg signer profile) :=
    decodeBounded_encode written within
  have notEmpty : prot ≠ [0xA0] := by
    rintro rfl
    cases decoded
  rw [parseProtected, raiseIf_neg notEmpty, ok_bind, decoded]
  rfl

theorem splitId_of_ne {k v : Value} {rest : List (Value × Value)} (other : k ≠ .u fieldId)
    : splitId ((k, v) :: rest) = (do
      let (claimed, without) ← splitId rest
      return (claimed, (k, v) :: without)) := by
  rw [splitId]
  · intro id same
    exact other (Prod.ext_iff.mp same).1
  · intro value same
    exact other (Prod.ext_iff.mp same).1

theorem splitId_of_no_id {pairs : List (Value × Value)} (noId : ∀ pair ∈ pairs, pair.1 ≠ .u fieldId)
    : splitId pairs = .ok (none, pairs) := by
  induction pairs with
  | nil => rfl
  | cons pair rest ih =>
      obtain ⟨first, later⟩ := List.forall_mem_cons.mp noId
      rw [splitId_of_ne first, ih later]
      rfl

/-- The id that the loop finds stands in the map.
Witness: induction on the pairs; a later id takes the place of an earlier one.
-/
theorem mem_of_splitId {pairs without : List (Value × Value)} {id : Bytes}
    (found : splitId pairs = .ok (some id, without))
    : (.u fieldId, .b id) ∈ pairs := by
  induction pairs generalizing without with
  | nil => cases found
  | cons pair rest ih =>
      unfold splitId at found
      split at found
      · cases found
      · rename_i first rest' same
        obtain ⟨rfl, rfl⟩ := List.cons.inj same
        simp only [bind_eq_ok, Prod.exists, pure_eq_ok, Except.ok.injEq, Prod.mk.injEq] at found
        obtain ⟨later, without, inRest, same, -⟩ := found
        cases later with
        | some later =>
            obtain rfl : later = id := by simpa using same
            exact List.mem_cons_of_mem _ (ih inRest)
        | none =>
            obtain rfl : first = id := by simpa using same
            exact List.mem_cons_self
      · cases found
      · rename_i same
        obtain ⟨rfl, rfl⟩ := List.cons.inj same
        simp only [bind_eq_ok, Prod.exists, pure_eq_ok, Except.ok.injEq, Prod.mk.injEq] at found
        obtain ⟨claimed, without, inRest, rfl, -⟩ := found
        exact List.mem_cons_of_mem _ (ih inRest)

/-- A map that passes the content-id check claims an id. -/
theorem getField_of_checkContentId {m : List (Value × Value)} {done : Unit}
    (distinct : (m.map encodedKey).Nodup) (checked : checkContentId m = .ok done)
    : ∃ id, getField fieldId m = some (.b id) := by
  simp only [checkContentId, bind_eq_ok, Prod.exists] at checked
  obtain ⟨claimed, without, found, rest⟩ := checked
  cases claimed with
  | none => cases rest
  | some id => exact ⟨id, (getField_eq_some distinct).mpr (mem_of_splitId found)⟩

/-- On the body map of an object, the id is checked against the fields after it. -/
theorem checkContentId_pairs {o : Object} {id : Bytes} {done : Unit}
    : checkContentId (o.pairs id) = .ok done ↔ o.contentId = .ok id := by
  have noId : ∀ pair ∈ o.fieldPairs, pair.1 ≠ .u fieldId := by
    intro pair member same
    have fresh := (List.nodup_cons.mp (nodup_of_ascending (pairs_ascending o id))).1
    exact fresh (List.mem_map.mpr ⟨pair, member, congrArg encoding same⟩)
  have split : splitId (o.pairs id) = .ok (some id, o.fieldPairs) := by
    rw [Object.pairs, fieldId, splitId, splitId_of_no_id noId]
    rfl
  have computed : o.contentId = Cbor.contentId (.m o.fieldPairs) := rfl
  simp only [checkContentId, split, ok_bind, bind_eq_ok, raiseIf_eq_ok, not_not, computed]
  constructor
  · intro checked
    obtain ⟨recomputed, same, rfl⟩ := checked
    exact same
  · intro same
    exact ⟨id, same, rfl⟩

/-- A critical extension that the verifier knows: a recheck entry naming a known procedure, or
another registered key.
-/
def Recognized (knownCext : List Int) (pair : Value × Value) : Prop :=
  ∃ k, pair.1 = .u k
    ∧ (k = recheckKey → ∃ id, pair.2 = .u id ∧ isKnownRecheckProcedure id = true)
    ∧ (k ≠ recheckKey → k ∈ knownCext)

/-- A critical extension passes exactly when it is recognized and its value reads as it should.
-/
theorem checkCextEntry_eq_ok {knownCext : List Int} {pair : Value × Value} {done : Unit}
    : checkCextEntry knownCext pair = .ok done ↔ Recognized knownCext pair := by
  obtain ⟨k, v⟩ := pair
  cases k with
  | u k =>
      by_cases recheck : k = recheckKey
      · cases v with
        | u id => simp [checkCextEntry, Recognized, recheck, raiseIf_eq_ok]
        | _ => simp [checkCextEntry, Recognized, recheck]
      · simp [checkCextEntry, Recognized, recheck, raiseIf_eq_ok]
  | _ => simp [checkCextEntry, Recognized]

theorem checkCext_eq_ok {knownCext : List Int} {cext : Option (List (Value × Value))} {done : Unit}
    : checkCext knownCext cext = .ok done
      ↔ ∀ pairs, cext = some pairs → ∀ pair ∈ pairs, Recognized knownCext pair := by
  rw [checkCext, List.forM_eq_forM, forM_eq_ok]
  simp only [checkCextEntry_eq_ok]
  cases cext with
  | none => simp
  | some pairs => simp

end Naalp.Python.Envelope
