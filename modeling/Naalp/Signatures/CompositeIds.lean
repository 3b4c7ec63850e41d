import Naalp.Python.Cose

/-! What a composite signer id binds. The digest is of the tagged keys one after the other, without
their lengths, so it tells keys apart as far as the octets between the tags do.
-/

namespace Naalp.Signatures

open Naalp.Foundation
open Naalp.Python
open Naalp.Python.Cose
open Naalp.Python.Identity

/-- The tag of an Ed25519 key. -/
def edTag : Bytes := [0xED, 0x01]

/-- The octets that the digest of a single key is of, and of a composite key. -/
def taggedKey (alg : Int) (pubkey : Bytes) : Bytes :=
  uvarint ((multicodec alg).getD 0) ++ pubkey

def taggedKeys (mldsaAlg : Int) (mldsaPub edPub : Bytes) : Bytes :=
  taggedKey mldsaAlg (mldsaPub ++ edTag ++ edPub)

/-- Two different octet strings have the same digest. -/
def DigestsMeet (left right : Bytes) : Prop :=
  left ≠ right ∧ Sha256.sha256 left = Sha256.sha256 right

/-- Octets have moved between the legs: the longer ML-DSA key ends in a tag and more octets, which
the Ed25519 key of the other pair starts with.
-/
def Moved (mldsaPub edPub mldsaPub' edPub' : Bytes) : Prop :=
  ∃ octets, mldsaPub' = mldsaPub ++ edTag ++ octets ∧ edPub = octets ++ edTag ++ edPub'

/-- The legs of two pairs meet in one string of octets. -/
def SameLegs (mldsaPub edPub mldsaPub' edPub' : Bytes) : Prop :=
  (mldsaPub = mldsaPub' ∧ edPub = edPub')
  ∨ Moved mldsaPub edPub mldsaPub' edPub' ∨ Moved mldsaPub' edPub' mldsaPub edPub

-----------------------------------------------------------------------------------------
-- The digested octets
-----------------------------------------------------------------------------------------

section Preimages

variable {alg alg' : Int} {mldsaPub mldsaPub' edPub edPub' pubkey : Bytes} {id id' : PyStr}

theorem signerId_eq_ok : signerId alg pubkey = .ok id
    ↔ (alg = algEd25519 ∨ alg = algMldsa65 ∨ alg = algMldsa87)
      ∧ id = PyStr.lit (multihashId (taggedKey alg pubkey)) := by
  unfold signerId taggedKey multicodec
  split_ifs with ed mldsa65 mldsa87 <;>
    simp_all [pure_eq_ok, eq_comm]

theorem compositeSignerId_eq_ok : compositeSignerId alg mldsaPub edPub = .ok id
    ↔ (alg = algMldsa65 ∨ alg = algMldsa87)
      ∧ id = PyStr.lit (multihashId (taggedKeys alg mldsaPub edPub)) := by
  have tag : uvarint 0xED = edTag := by decide
  unfold compositeSignerId
  rw [raiseIf_bind_eq_ok, not_and_or, not_not, not_not]
  refine and_congr_right fun listed => ?_
  rcases listed with rfl | rfl <;>
    simp [multicodec, taggedKeys, taggedKey, tag, algMldsa65, algMldsa87, algEd25519, pure_eq_ok,
      eq_comm]

/-- The first octet of the tag tells the algorithms apart. -/
theorem taggedKey_inj (registered : alg = algEd25519 ∨ alg = algMldsa65 ∨ alg = algMldsa87)
    (registered' : alg' = algEd25519 ∨ alg' = algMldsa65 ∨ alg' = algMldsa87)
    {octets octets' : Bytes} (same : taggedKey alg octets = taggedKey alg' octets')
    : alg = alg' ∧ octets = octets' := by
  have ed : uvarint ((multicodec algEd25519).getD 0) = [0xED, 0x01] := by decide
  have mldsa65 : uvarint ((multicodec algMldsa65).getD 0) = [0x91, 0x24] := by decide
  have mldsa87 : uvarint ((multicodec algMldsa87).getD 0) = [0x92, 0x24] := by decide
  unfold taggedKey at same
  rcases registered with rfl | rfl | rfl <;> rcases registered' with rfl | rfl | rfl <;>
    simp_all

/-- Ids are the same when the octets are or their digests meet. -/
theorem same_of_ids {left right : Bytes}
    (same : PyStr.lit (multihashId left) = PyStr.lit (multihashId right))
    : left = right ∨ DigestsMeet left right := by
  have digests := multihashId_eq_iff.mp (PyStr.lit_injective same)
  by_cases equal : left = right
  · exact .inl equal
  · exact .inr ⟨equal, digests⟩

/-- Where the legs meet differently, octets have moved: the shorter ML-DSA key is followed by the
tag in both, and the longer one goes on beyond it.
-/
theorem moved_of_longer (same : mldsaPub ++ edTag ++ edPub = mldsaPub' ++ edTag ++ edPub')
    (longer : mldsaPub.length < mldsaPub'.length) : Moved mldsaPub edPub mldsaPub' edPub' := by
  rw [List.append_assoc, List.append_assoc] at same
  obtain ⟨beyond, rfl, rest⟩ | ⟨short, rfl, _⟩ := List.append_eq_append_iff.mp same
  · match beyond with
    | [] => simp at longer
    -- One octet further on, the second octet of one tag would be the first of the other.
    | [octet] => simp [edTag] at rest
    | first :: second :: octets =>
      simp only [edTag, List.cons_append, List.nil_append, List.cons.injEq] at rest
      obtain ⟨rfl, rfl, rfl⟩ := rest
      exact ⟨octets, by simp [edTag], by simp [edTag]⟩
  · simp at longer

/-- Keys of one length are told apart. -/
theorem legs_inj (same : mldsaPub ++ edTag ++ edPub = mldsaPub' ++ edTag ++ edPub')
    (lengths : mldsaPub.length = mldsaPub'.length ∨ edPub.length = edPub'.length)
    : mldsaPub = mldsaPub' ∧ edPub = edPub' := by
  have total := congrArg List.length same
  simp only [List.length_append] at total
  have ml : mldsaPub.length = mldsaPub'.length := by omega
  obtain ⟨tagged, rfl⟩ := List.append_inj same (by simp [ml])
  exact ⟨(List.append_inj tagged ml).1, rfl⟩

theorem sameLegs_of_eq (same : mldsaPub ++ edTag ++ edPub = mldsaPub' ++ edTag ++ edPub')
    : SameLegs mldsaPub edPub mldsaPub' edPub' := by
  rcases Nat.lt_trichotomy mldsaPub.length mldsaPub'.length with shorter | equal | longer
  · exact .inr (.inl (moved_of_longer same shorter))
  · exact .inl (legs_inj same (.inl equal))
  · exact .inr (.inr (moved_of_longer same.symm longer))

/-- Octets that have moved leave the digested octets as they were. -/
theorem Moved.same (moved : Moved mldsaPub edPub mldsaPub' edPub')
    : mldsaPub ++ edTag ++ edPub = mldsaPub' ++ edTag ++ edPub' := by
  obtain ⟨octets, rfl, rfl⟩ := moved
  simp only [List.append_assoc]

theorem sameLegs_iff : SameLegs mldsaPub edPub mldsaPub' edPub'
    ↔ mldsaPub ++ edTag ++ edPub = mldsaPub' ++ edTag ++ edPub' := by
  refine ⟨?_, sameLegs_of_eq⟩
  rintro (⟨rfl, rfl⟩ | moved | moved)
  · rfl
  · exact moved.same
  · exact moved.same.symm

end Preimages

-----------------------------------------------------------------------------------------
-- What an id binds
-----------------------------------------------------------------------------------------

/-- Unless two digests meet, two composite ids are the same exactly for keys of one algorithm whose
legs are the same, or octets have moved between them across a tag that the ML-DSA key ends in. Keys
of equal length are then the same. A composite id is that of a single key exactly where this is a
key of the ML-DSA algorithm that holds both legs and the tag between them.
Witness: an id is the digest of tagged octets, and two such strings are equal exactly when the
legs are, or when octets move across the tag.
-/
theorem composite_ids_bind_keys (alg alg' : Int) (mldsaPub edPub mldsaPub' edPub' pubkey : Bytes)
    (id : PyStr) (derived : compositeSignerId alg mldsaPub edPub = .ok id)
    : (DigestsMeet (taggedKeys alg mldsaPub edPub) (taggedKeys alg' mldsaPub' edPub')
        ∨ ((compositeSignerId alg' mldsaPub' edPub' = .ok id
              ↔ alg = alg' ∧ SameLegs mldsaPub edPub mldsaPub' edPub')
          ∧ (compositeSignerId alg' mldsaPub' edPub' = .ok id
              → mldsaPub.length = mldsaPub'.length ∨ edPub.length = edPub'.length
              → alg = alg' ∧ mldsaPub = mldsaPub' ∧ edPub = edPub')))
      ∧ (DigestsMeet (taggedKeys alg mldsaPub edPub) (taggedKey alg' pubkey)
        ∨ (signerId alg' pubkey = .ok id
            ↔ alg = alg' ∧ pubkey = mldsaPub ++ edTag ++ edPub)) := by
  obtain ⟨mldsa, rfl⟩ := compositeSignerId_eq_ok.mp derived
  constructor
  · by_cases meet : DigestsMeet (taggedKeys alg mldsaPub edPub) (taggedKeys alg' mldsaPub' edPub')
    · exact .inl meet
    have ids : compositeSignerId alg' mldsaPub' edPub'
          = .ok (PyStr.lit (multihashId (taggedKeys alg mldsaPub edPub)))
        ↔ alg = alg' ∧ SameLegs mldsaPub edPub mldsaPub' edPub' := by
      rw [compositeSignerId_eq_ok, sameLegs_iff]
      constructor
      · rintro ⟨mldsa', same⟩
        have octets := (same_of_ids same).resolve_right meet
        exact taggedKey_inj (.inr mldsa) (.inr mldsa') octets
      · rintro ⟨rfl, same⟩
        exact ⟨mldsa, by rw [taggedKeys, taggedKeys, same]⟩
    refine .inr ⟨ids, fun again lengths => ?_⟩
    obtain ⟨algs, legs⟩ := ids.mp again
    exact ⟨algs, legs_inj (sameLegs_iff.mp legs) lengths⟩
  · by_cases meet : DigestsMeet (taggedKeys alg mldsaPub edPub) (taggedKey alg' pubkey)
    · exact .inl meet
    refine .inr ?_
    rw [signerId_eq_ok]
    constructor
    · rintro ⟨registered, same⟩
      have octets := (same_of_ids same).resolve_right meet
      obtain ⟨algs, legs⟩ := taggedKey_inj (.inr mldsa) registered octets
      exact ⟨algs, legs.symm⟩
    · rintro ⟨rfl, rfl⟩
      exact ⟨.inr mldsa, rfl⟩

theorem composite_ids_bind_keys_sample
    : DigestsMeet (taggedKeys algMldsa65 [1] [2]) (taggedKeys algMldsa65 [3] [2])
      ∨ compositeSignerId algMldsa65 [3] [2] ≠ compositeSignerId algMldsa65 [1] [2] := by
  have derived : compositeSignerId algMldsa65 [1] [2]
      = .ok (PyStr.lit (multihashId (taggedKeys algMldsa65 [1] [2]))) :=
    compositeSignerId_eq_ok.mpr ⟨.inl rfl, rfl⟩
  refine (composite_ids_bind_keys _ algMldsa65 _ _ [3] [2] [] _ derived).1.imp_right ?_
  rintro ⟨_, bound⟩ same
  exact absurd (bound (same.trans derived) (.inl rfl)).2.1 (by decide)

/-- The tag moves from one leg to the other, and a composite key with empty legs is the ML-DSA key
that consists of the tag. The digested octets are the same, so no digests meet.
-/
theorem moved_tag_keeps_id
    : (∃ id, compositeSignerId algMldsa65 [] [0xED, 0x01] = .ok id
        ∧ compositeSignerId algMldsa65 [0xED, 0x01] [] = .ok id
        ∧ ¬DigestsMeet (taggedKeys algMldsa65 [] [0xED, 0x01])
          (taggedKeys algMldsa65 [0xED, 0x01] []))
      ∧ ∃ id, compositeSignerId algMldsa65 [] [] = .ok id
        ∧ signerId algMldsa65 [0xED, 0x01] = .ok id
        ∧ ¬DigestsMeet (taggedKeys algMldsa65 [] []) (taggedKey algMldsa65 [0xED, 0x01]) := by
  have moves : taggedKeys algMldsa65 [] [0xED, 0x01] = taggedKeys algMldsa65 [0xED, 0x01] [] := by
    decide
  have single : taggedKeys algMldsa65 [] [] = taggedKey algMldsa65 [0xED, 0x01] := by decide
  constructor
  · refine ⟨_, compositeSignerId_eq_ok.mpr ⟨.inl rfl, rfl⟩, ?_, fun meet => meet.1 moves⟩
    exact compositeSignerId_eq_ok.mpr ⟨.inl rfl, by rw [moves]⟩
  · refine ⟨_, compositeSignerId_eq_ok.mpr ⟨.inl rfl, rfl⟩, ?_, fun meet => meet.1 single⟩
    exact signerId_eq_ok.mpr ⟨.inr (.inl rfl), by rw [single]⟩

end Naalp.Signatures
