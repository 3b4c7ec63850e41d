import Naalp.Go.Cose
import Naalp.Implementations.Codec

/-! The parsed parts of COSE_Sign1 and COSE_Sign objects, in both implementations. -/

namespace Naalp.Signatures

open Naalp.Foundation
open Naalp.Python
open Naalp.Python.Cbor
open Naalp.Python.Cose
open Naalp.Implementations

/-- The protected header of an object carries `alg` under label 1. -/
def HeaderAlg (alg : Int) (obj : Bytes) : Prop :=
  ∃ prot payload sig pairs, parseSign1Raw obj = .ok (prot, payload, sig)
    ∧ decode prot = .ok (.m pairs) ∧ (.u 1, .n alg) ∈ pairs

/-- A COSE_Sign1 object is taken apart exactly when it decodes to a tagged array of four; its
unprotected member is not looked at.
-/
theorem parseSign1Raw_eq_ok {obj prot payload sig : Bytes}
    : parseSign1Raw obj = .ok (prot, payload, sig)
      ↔ ∃ unprotected, decode obj
        = .ok (.tag tagSign1 (.a [.b prot, unprotected, .b payload, .b sig])) := by
  constructor
  · intro parsed
    simp only [parseSign1Raw, bind_eq_ok] at parsed
    obtain ⟨v, decoded, rest⟩ := parsed
    split at rest
    · simp only [bind_eq_ok, raiseIf_eq_ok, exists_const, not_not] at rest
      obtain ⟨rfl, rest⟩ := rest
      split at rest
      · obtain ⟨rfl, rfl, rfl⟩ := Except.ok.inj rest
        exact ⟨_, decoded⟩
      · cases rest
    · cases rest
  · intro carried
    obtain ⟨unprotected, decoded⟩ := carried
    rw [parseSign1Raw, decoded]
    rfl

/-- The same of the Go function. -/
theorem goParseSign1Raw_eq_ok {obj prot payload sig : Bytes}
    : Go.Cose.parseSign1Raw obj = .ok (prot, payload, sig)
      ↔ ∃ unprotected, Go.Cbor.decode obj
        = .ok (.tag tagSign1 (.a [.b prot, unprotected, .b payload, .b sig])) := by
  constructor
  · intro parsed
    unfold Go.Cose.parseSign1Raw at parsed
    split at parsed
    · rename_i decoded
      simp only [bind_eq_ok, raiseIf_eq_ok, exists_const, not_not] at parsed
      obtain ⟨rfl, rest⟩ := parsed
      split at rest
      · obtain ⟨rfl, rfl, rfl⟩ := Except.ok.inj rest
        exact ⟨_, decoded⟩
      · cases rest
    · cases parsed
  · intro carried
    obtain ⟨unprotected, decoded⟩ := carried
    rw [Go.Cose.parseSign1Raw, decoded]
    rfl

/-- A COSE_Sign object is taken apart exactly when it decodes to a tagged array with a list of
legs.
-/
theorem goParseHybrid_eq_ok {obj bodyProt payload : Bytes} {sigs : List Value}
    : Go.Cose.parseHybrid obj = .ok (bodyProt, payload, sigs)
      ↔ ∃ unprotected, Go.Cbor.decode obj
        = .ok (.tag tagSign (.a [.b bodyProt, unprotected, .b payload, .a sigs])) := by
  constructor
  · intro parsed
    unfold Go.Cose.parseHybrid at parsed
    split at parsed
    · rename_i decoded
      simp only [bind_eq_ok, raiseIf_eq_ok, exists_const, not_not] at parsed
      obtain ⟨rfl, rest⟩ := parsed
      split at rest
      · obtain ⟨rfl, rfl, rfl⟩ := Except.ok.inj rest
        exact ⟨_, decoded⟩
      · cases rest
    · cases parsed
  · intro carried
    obtain ⟨unprotected, decoded⟩ := carried
    rw [Go.Cose.parseHybrid, decoded]
    rfl

/-- A leg is an array of three, of which the middle one is not looked at. -/
theorem goParseLeg_eq_ok {sv : Value} {sprot sig : Bytes}
    : Go.Cose.parseLeg sv = .ok (sprot, sig)
      ↔ ∃ unprotected, sv = .a [.b sprot, unprotected, .b sig] := by
  constructor
  · intro parsed
    unfold Go.Cose.parseLeg at parsed
    split at parsed
    · obtain ⟨rfl, rfl⟩ := Except.ok.inj parsed
      exact ⟨_, rfl⟩
    · cases parsed
  · intro carried
    obtain ⟨unprotected, rfl⟩ := carried
    rfl

/-- The Python function takes all legs apart with the object. -/
theorem parseSignRaw_eq_ok {obj bodyProt payload : Bytes} {legs : List (Bytes × Bytes)}
    (parsed : parseSignRaw obj = .ok (bodyProt, payload, legs))
    : ∃ unprotected entries, decode obj
        = .ok (.tag tagSign (.a [.b bodyProt, unprotected, .b payload, .a entries]))
      ∧ entries.mapM parseLeg = .ok legs := by
  simp only [parseSignRaw, bind_eq_ok] at parsed
  obtain ⟨v, decoded, rest⟩ := parsed
  split at rest
  · simp only [bind_eq_ok, raiseIf_eq_ok, exists_const, not_not] at rest
    obtain ⟨rfl, rest⟩ := rest
    split at rest
    · simp only [bind_eq_ok, pure_eq_ok, Except.ok.injEq, Prod.mk.injEq] at rest
      obtain ⟨_, read, rfl, rfl, rfl⟩ := rest
      exact ⟨_, _, decoded, read⟩
    · cases rest
  · cases rest

end Naalp.Signatures
