import Naalp.Authorization.WalkerAgreement
import Naalp.CanonicalEncoding.RoundTrip

/-! Grant bodies are read alike, and so delegation is checked alike, in the three implementations.
-/

namespace Naalp.Authorization

open Naalp.Foundation
open Naalp.Go (Stop)
open Naalp.Native.Delegation (Grant GrantSet Action Revocations)
open Naalp.Python (Exc PyStr)
open Naalp.Python.Cbor (Value NoSurrogate)

/-- An integer is an unsigned one of 64 bits and a text holds scalar values, in Go and Rust. -/
def SharedLeaf : Value → Prop
  | .u n => 0 ≤ n ∧ n < 2 ^ 64
  | .t s => NoSurrogate s
  | _ => True

/-- The keys and the values of a body map are shared. -/
def SharedBody : Value → Prop
  | .m pairs => ∀ pair ∈ pairs, SharedLeaf pair.1 ∧ SharedLeaf pair.2
  | _ => True

/-- The fields that the Python loop has read where the Rust loop has read `g`. -/
def pythonFields (g : Rust.Delegation.GrantFields) : Python.Delegation.GrantFields :=
  { subject := g.subject.map .lit, effectCap := g.effectCap.map fun n => (n.toNat : Int),
    maxDepth := g.maxDepth.map fun n => (n.toNat : Int),
    notBefore := g.notBefore.map fun n => (n.toNat : Int),
    notAfter := g.notAfter.map fun n => (n.toNat : Int), scope := .lit g.scope }

def SameKind (stop : Stop) (err : Exc) : Prop := err.kind? = stop.kind?

theorem lit_chars {s : PyStr} (shared : NoSurrogate s) : PyStr.lit s.chars = s := by
  obtain ⟨data, encoded⟩ := Python.Cbor.encode_of_noSurrogate shared
  obtain ⟨chars, rfl, -⟩ := PyStr.encode_eq_ok.mp encoded
  rw [PyStr.chars_lit]

theorem toNat_ofNat_toNat {n : Int} (shared : 0 ≤ n ∧ n < 2 ^ 64)
    : ((UInt64.ofNat n.toNat).toNat : Int) = n := by
  rw [UInt64.toNat_ofNat']
  omega

/-- One pair of a grant's body is read alike by Rust and Python, up to how a failure is raised.
Witness: cases on the key, and on the kind of the value under it.
-/
theorem readPair_python {g : Rust.Delegation.GrantFields} {pair : Value × Value}
    (shared : SharedLeaf pair.1 ∧ SharedLeaf pair.2)
    : Related SameKind (fun g g' => g' = pythonFields g) (g.readPair pair)
      ((pythonFields g).readPair pair) := by
  obtain ⟨k, v⟩ := pair
  obtain ⟨-, shared⟩ := shared
  cases k with
  | u k =>
      have known : k = 1 ∨ k = 2 ∨ k = 3 ∨ k = 4 ∨ k = 5 ∨ k = 6
          ∨ k ≠ 1 ∧ k ≠ 2 ∧ k ≠ 3 ∧ k ≠ 4 ∧ k ≠ 5 ∧ k ≠ 6 := by omega
      rcases known with rfl | rfl | rfl | rfl | rfl | rfl | other
      · cases v with
        | t s => simp [Related, Rust.Delegation.GrantFields.readPair,
            Python.Delegation.GrantFields.readPair, Python.Delegation.asTstr, pythonFields,
            lit_chars shared]
        | _ => exact rfl
      · cases v with
        | u n =>
            simp only [SharedLeaf] at shared
            by_cases small : n ≤ 3
            · have same : ((UInt8.ofNat n.toNat).toNat : Int) = n := by
                rw [UInt8.toNat_ofNat']
                omega
              have inside : ¬ n > Python.Policy.destructive := not_lt.mpr small
              simp only [Related, Rust.Delegation.GrantFields.readPair,
                Python.Delegation.GrantFields.readPair, Python.Delegation.asEffectCap, small,
                raiseIf_neg inside, if_true, pure_eq_ok, ok_bind, pythonFields, Option.map_some,
                same]
            · have outside : n > Python.Policy.destructive := not_le.mp small
              simp only [Related, Rust.Delegation.GrantFields.readPair,
                Python.Delegation.GrantFields.readPair, Python.Delegation.asEffectCap, small,
                raiseIf_pos outside, if_false, error_bind, throw_eq_error]
              exact rfl
        | _ => exact rfl
      · cases v with
        | u n => simp only [Related, Rust.Delegation.GrantFields.readPair,
            Python.Delegation.GrantFields.readPair, Python.Delegation.asUint, pure_eq_ok, ok_bind,
            pythonFields, Option.map_some, toNat_ofNat_toNat shared]
        | _ => exact rfl
      · cases v with
        | u n => simp only [Related, Rust.Delegation.GrantFields.readPair,
            Python.Delegation.GrantFields.readPair, Python.Delegation.asUint, pure_eq_ok, ok_bind,
            pythonFields, Option.map_some, toNat_ofNat_toNat shared]
        | _ => exact rfl
      · cases v with
        | u n => simp only [Related, Rust.Delegation.GrantFields.readPair,
            Python.Delegation.GrantFields.readPair, Python.Delegation.asUint, pure_eq_ok, ok_bind,
            pythonFields, Option.map_some, toNat_ofNat_toNat shared]
        | _ => exact rfl
      · cases v with
        | t s => simp [Related, Rust.Delegation.GrantFields.readPair,
            Python.Delegation.GrantFields.readPair, Python.Delegation.asTstr, pythonFields,
            lit_chars shared]
        | _ => exact rfl
      · simp [Related, Rust.Delegation.GrantFields.readPair,
          Python.Delegation.GrantFields.readPair, other]
        exact rfl
  | _ => exact rfl

theorem finish_python (g : Rust.Delegation.GrantFields)
    : Related SameKind (fun grant grant' => grant' = .ofNative grant) g.finish
      (pythonFields g).finish := by
  obtain ⟨subject, effectCap, maxDepth, notBefore, notAfter, scope⟩ := g
  cases subject <;> cases effectCap <;> cases maxDepth <;> cases notBefore <;> cases notAfter <;>
    exact rfl

/-- Python reads the bodies that Rust reads. -/
theorem grantFromBody_python {v : Value} (shared : SharedBody v)
    : Related SameKind (fun grant grant' => grant' = .ofNative grant)
      (Rust.Delegation.grantFromBody v) (Python.Delegation.grantFromBody v) := by
  cases v with
  | m pairs =>
      have loop := @Related.foldlM _ _ _ _ _ SameKind (fun g g' => g' = pythonFields g)
        Rust.Delegation.GrantFields.readPair Python.Delegation.GrantFields.readPair pairs
        (fun pair member g g' same => same ▸ readPair_python (shared pair member)) {} {} rfl
      exact loop.bind fun g g' same => same ▸ finish_python g
  | _ => exact rfl

/-- The Go loop has read what the Rust loop has read: an absent field is zero, and a mandatory one
was seen where Rust has it.
-/
structure GoFields (g : Rust.Delegation.GrantFields) (read : Go.Delegation.GrantRead) : Prop where
  grant : read.g = {
    subject := Rust.Channels.asBytes (g.subject.getD []), effectCap := g.effectCap.getD 0,
    maxDepth := g.maxDepth.getD 0, notBefore := g.notBefore.getD 0, notAfter := g.notAfter.getD 0,
    scope := Rust.Channels.asBytes g.scope }
  subject : 1 ∈ read.seen ↔ g.subject.isSome
  effectCap : 2 ∈ read.seen ↔ g.effectCap.isSome
  maxDepth : 3 ∈ read.seen ↔ g.maxDepth.isSome
  notBefore : 4 ∈ read.seen ↔ g.notBefore.isSome
  notAfter : 5 ∈ read.seen ↔ g.notAfter.isSome

theorem octets_eq_asBytes (s : PyStr) : s.octets = Rust.Channels.asBytes s.chars := rfl

/-- One pair of a grant's body is read alike by Rust and Go; the loop variables keep
corresponding.
-/
theorem readPair_go {g : Rust.Delegation.GrantFields} {read : Go.Delegation.GrantRead}
    (fields : GoFields g read) (pair : Value × Value)
    : Related (fun stop stop' => stop' = stop) GoFields (g.readPair pair) (read.readPair pair) := by
  obtain ⟨k, v⟩ := pair
  obtain ⟨grant, subject, effectCap, maxDepth, notBefore, notAfter⟩ := fields
  cases k with
  | u k =>
      have known : k = 1 ∨ k = 2 ∨ k = 3 ∨ k = 4 ∨ k = 5 ∨ k = 6
          ∨ (k < 1 ∨ k > 6) ∧ k ≠ 1 ∧ k ≠ 2 ∧ k ≠ 3 ∧ k ≠ 4 ∧ k ≠ 5 ∧ k ≠ 6 := by omega
      rcases known with rfl | rfl | rfl | rfl | rfl | rfl | other
      · cases v with
        | t s =>
            constructor <;> simp_all [octets_eq_asBytes]
        | _ => exact rfl
      · cases v with
        | u n =>
            by_cases small : n ≤ 3
            · have inside : ¬ n > 3 := not_lt.mpr small
              simp only [Rust.Delegation.GrantFields.readPair, small, if_true,
                Go.Delegation.GrantRead.readPair, Go.Delegation.GrantRead.readPair.readField,
                raiseIf_neg inside, ok_bind, pure_eq_ok]
              constructor <;> simp_all
            · have outside : n > 3 := not_le.mp small
              simp only [Rust.Delegation.GrantFields.readPair, small, if_false,
                Go.Delegation.GrantRead.readPair, Go.Delegation.GrantRead.readPair.readField,
                raiseIf_pos outside]
              exact rfl
        | _ => exact rfl
      · cases v with
        | u n =>
            constructor <;> simp_all
        | _ => exact rfl
      · cases v with
        | u n =>
            constructor <;> simp_all
        | _ => exact rfl
      · cases v with
        | u n =>
            constructor <;> simp_all
        | _ => exact rfl
      · cases v with
        | t s =>
            constructor <;> simp_all [octets_eq_asBytes]
        | _ => exact rfl
      · simp only [Go.Delegation.GrantRead.readPair, raiseIf_pos other.1]
        simp [Related, Rust.Delegation.GrantFields.readPair, other]
  | _ => exact rfl

/-- After the last pair both have seen the same keys, and ask for the same five. -/
theorem finish_go {g : Rust.Delegation.GrantFields} {read : Go.Delegation.GrantRead}
    (fields : GoFields g read)
    : Related (fun stop stop' => stop' = stop)
      (fun grant grant' => grant' = grant.mapStrings Rust.Channels.asBytes) g.finish
      (raiseIf (¬ (1 ∈ read.seen ∧ 2 ∈ read.seen ∧ 3 ∈ read.seen ∧ 4 ∈ read.seen ∧ 5 ∈ read.seen))
        Native.Delegation.errChainBroken >>= fun _ => pure read.g) := by
  have complete := and_congr fields.subject (and_congr fields.effectCap
    (and_congr fields.maxDepth (and_congr fields.notBefore fields.notAfter)))
  rw [raiseIf_congr (not_congr complete), fields.grant]
  clear complete fields
  obtain ⟨subject, effectCap, maxDepth, notBefore, notAfter, scope⟩ := g
  cases subject <;> cases effectCap <;> cases maxDepth <;> cases notBefore <;> cases notAfter <;>
    exact rfl

/-- Go reads the bodies that Rust reads. -/
theorem grantFromBody_go (v : Value)
    : Related (fun stop stop' => stop' = stop)
      (fun grant grant' => grant' = grant.mapStrings Rust.Channels.asBytes)
      (Rust.Delegation.grantFromBody v) (Go.Delegation.grantFromBody v) := by
  cases v with
  | m pairs =>
      have start : GoFields {} {} := by constructor <;> simp [Rust.Channels.asBytes]
      have loop := @Related.foldlM _ _ _ _ _ (fun stop stop' => stop' = stop) GoFields
        Rust.Delegation.GrantFields.readPair Go.Delegation.GrantRead.readPair pairs
        (fun pair _ g read fields => readPair_go fields pair) _ _ start
      exact loop.bind fun g read fields => finish_go fields
  | _ => exact rfl

/-- UTF-8 keeps equality, emptiness and path prefixes of strings. -/
theorem asBytes_strings
    : Native.Delegation.StringMap Rust.Channels.asBytes '/' Go.Delegation.slash where
  injective := Function.LeftInverse.injective Rust.Channels.fromUtf8Lossy_asBytes
  empty := rfl
  prefixes parent child := by
    have mapped : Rust.Channels.asBytes parent ++ [Go.Delegation.slash]
        = Rust.Channels.asBytes (parent ++ ['/']) := by
      rw [Rust.Channels.asBytes, Rust.Channels.asBytes, List.flatMap_append]
      rfl
    rw [mapped]
    constructor
    · intro found
      obtain ⟨rest, same⟩ := found
      apply List.isPrefix_of_utf8Encode_append_eq_utf8Encode rest.toByteArray
      have octets := congrArg List.toByteArray same
      rw [List.toByteArray_append] at octets
      exact octets
    · intro found
      obtain ⟨rest, rfl⟩ := found
      exact ⟨Rust.Channels.asBytes rest, List.flatMap_append.symm⟩

/-- On the inputs that the three implementations share, Go and Rust reach the same verdict on a
chain with the same error, and Python reaches it with an error of the same kind; and the three read
the same grants from the same bodies.
-/
theorem delegation_checked_alike
    : (∀ (action : Action Char) grants anchors revoked now,
        Go.Delegation.verifyChain (action.mapStrings Rust.Channels.asBytes)
            (GrantSet.mapStrings Rust.Channels.asBytes grants)
            (anchors.map Rust.Channels.asBytes) revoked now
          = Rust.Delegation.verifyChain action grants anchors revoked now
        ∧ (Python.Delegation.verifyChain (.ofNative action) (.ofNative grants)
            (anchors.map PyStr.lit) (.ofNative revoked) now.toNat).mapError Exc.kind?
          = (Rust.Delegation.verifyChain action grants anchors revoked now).mapError Stop.kind?)
      ∧ ∀ v, SharedBody v
        → Go.Delegation.grantFromBody v
            = (Rust.Delegation.grantFromBody v).map (Grant.mapStrings Rust.Channels.asBytes)
          ∧ (Python.Delegation.grantFromBody v).mapError Exc.kind?
            = ((Rust.Delegation.grantFromBody v).map Python.Delegation.Grant.ofNative).mapError
              Stop.kind? := by
  refine ⟨?_, ?_⟩
  · intro action grants anchors revoked now
    exact ⟨Native.Delegation.verifyChain_map asBytes_strings action grants anchors revoked now,
      Python.Delegation.verifyChain_ofNative grants anchors revoked now action⟩
  · intro v shared
    have go := @Related.mapError_eq _ _ _ _ _ _ id id _ _ (grantFromBody_go v)
    rw [mapError_id, mapError_id] at go
    exact ⟨go, (grantFromBody_python shared).mapError_eq⟩

/-- A grant of one write to `b`, which may be delegated on. -/
def sampleBody : Value :=
  .m [(.u 1, .t (.lit ['b'])), (.u 2, .u 1), (.u 3, .u 2), (.u 4, .u 0), (.u 5, .u 9)]

/-- The grant that `a` issued. -/
def sampleGrant : Native.Delegation.Resolved Char :=
  { contentId := [1], issuer := ['a'], grant := ⟨['b'], 1, 2, 0, 9, []⟩, causes := [] }

def sampleGrants : GrantSet Char := AList.insert [1] sampleGrant ∅

/-- A write by `b` under the grant. -/
def sampleAction : Action Char := { signer := ['b'], effect := 1, scope := [], causes := [[1]] }

/-- The three implementations accept the sample action, and read the sample grant. -/
theorem delegation_checked_alike_sample
    : Rust.Delegation.verifyChain sampleAction sampleGrants [['a']] ∅ 5 = .ok ()
      ∧ Go.Delegation.verifyChain (sampleAction.mapStrings Rust.Channels.asBytes)
          (GrantSet.mapStrings Rust.Channels.asBytes sampleGrants) [[97]] ∅ 5 = .ok ()
      ∧ (Python.Delegation.verifyChain (.ofNative sampleAction) (.ofNative sampleGrants)
          [PyStr.lit ['a']] (.ofNative ∅) 5).mapError Exc.kind? = .ok ()
      ∧ Go.Delegation.grantFromBody sampleBody = .ok ⟨[98], 1, 2, 0, 9, []⟩
      ∧ (Python.Delegation.grantFromBody sampleBody).mapError Exc.kind?
          = .ok (.ofNative ⟨['b'], 1, 2, 0, 9, []⟩) := by
  have rust : Rust.Delegation.verifyChain sampleAction sampleGrants [['a']] ∅ 5 = .ok () := by
    decide +kernel
  obtain ⟨chains, bodies⟩ := delegation_checked_alike
  obtain ⟨go, python⟩ := chains sampleAction sampleGrants [['a']] ∅ 5
  have shared : SharedBody sampleBody := by
    simp [SharedBody, sampleBody, SharedLeaf, NoSurrogate, PyStr.lit]
  obtain ⟨goBody, pythonBody⟩ := bodies sampleBody shared
  rw [rust] at go python
  exact ⟨rust, go, python, goBody, pythonBody⟩

end Naalp.Authorization
