import Naalp.Implementations.Bodies

/-! The protected header in both implementations.
Go passes over a routing map without a signer, which it reads as an empty one; otherwise the
two read the same header.
-/

namespace Naalp.Implementations

open Naalp.Foundation
open Naalp.Python
open Naalp.Python.Cbor
open Naalp.Python.Envelope

/-- The Go loops have read the fields of the Python loops, with the zero value for an absent
one.
-/
structure SameHeader (h : HeaderFields) (g : Go.Envelope.HeaderFields) : Prop where
  alg : g.alg = h.alg
  signer : g.signer = h.signer.getD []
  profile : g.profile = h.profile.getD 0
  version : g.version = h.version.getD 0

/-- Both implementations take a routing entry alike. -/
theorem SameHeader.readRouting {h : HeaderFields} {g : Go.Envelope.HeaderFields}
    (same : SameHeader h g) (pair : Value × Value)
    : SameHeader (h.readRouting pair) (g.readRouting pair) := by
  unfold HeaderFields.readRouting
  split
  · exact { same with signer := rfl }
  · exact { same with profile := rfl }
  · exact { same with version := rfl }
  · rename_i notSigner notProfile notVersion
    have passed : g.readRouting pair = g := by
      unfold Go.Envelope.HeaderFields.readRouting
      split
      · exact (notSigner _ rfl).elim
      · exact (notProfile _ rfl).elim
      · exact (notVersion _ rfl).elim
      · rfl
    rw [passed]
    exact same

/-- An entry that Go reads, in terms of its label. -/
def ReadableEntry (pair : Value × Value) : Prop :=
  (pair.1 = .u 1 → ∃ alg, pair.2 = .n alg)
    ∧ (pair.1 = .t headerLabel → ∃ routing, pair.2 = .m routing)

/-- Go takes an entry of the header exactly when it is readable; Python takes any. -/
theorem readEntry_ok_iff (g : Go.Envelope.HeaderFields) (pair : Value × Value)
    : (∃ next, g.readEntry pair = .ok next) ↔ ReadableEntry pair := by
  obtain ⟨k, v⟩ := pair
  cases k with
  | u k =>
      by_cases isAlg : k = 1
      · subst isAlg
        cases v with
        | n alg => simp [Go.Envelope.HeaderFields.readEntry, ReadableEntry]
        | _ => simp [Go.Envelope.HeaderFields.readEntry, ReadableEntry]
      · simp [Go.Envelope.HeaderFields.readEntry, ReadableEntry, isAlg]
  | t label =>
      by_cases isRouting : label = headerLabel
      · subst isRouting
        cases v with
        | m routing => simp [Go.Envelope.HeaderFields.readEntry, ReadableEntry, Go.Envelope.asMap]
        | _ => simp [Go.Envelope.HeaderFields.readEntry, ReadableEntry, Go.Envelope.asMap]
      · simp [Go.Envelope.HeaderFields.readEntry, ReadableEntry, isRouting]
  | _ => simp [Go.Envelope.HeaderFields.readEntry, ReadableEntry]

/-- One entry: the same fields are read, and the routing map is noted before its signer is.
Witness: cases on the key: the alg, the routing map, or neither of them.
-/
theorem readEntry_sameHeader {h : HeaderFields} {g next : Go.Envelope.HeaderFields}
    {pair : Value × Value} (same : SameHeader h g) (noted : g.haveNaalp = false → h.signer = none)
    (read : g.readEntry pair = .ok next)
    : SameHeader (h.readEntry pair) next
      ∧ (next.haveNaalp = false → (h.readEntry pair).signer = none) := by
  obtain ⟨k, v⟩ := pair
  cases k with
  | u k =>
      by_cases isAlg : k = 1
      · subst isAlg
        cases v with
        | n alg =>
            obtain rfl := Except.ok.inj read
            exact ⟨{ same with alg := rfl }, noted⟩
        | _ => cases read
      · have passed : h.readEntry (.u k, v) = h := by simp [HeaderFields.readEntry, isAlg]
        simp only [Go.Envelope.HeaderFields.readEntry, isAlg, if_false, pure_eq_ok,
          Except.ok.injEq] at read
        obtain rfl := read
        rw [passed]
        exact ⟨same, noted⟩
  | t label =>
      by_cases isRouting : label = headerLabel
      · subst isRouting
        cases v with
        | m routing =>
            obtain rfl := Except.ok.inj read
            have inner : SameHeader (routing.foldl HeaderFields.readRouting h)
                (routing.foldl Go.Envelope.HeaderFields.readRouting g) :=
              List.foldl_rel same fun pair _ _ _ held => held.readRouting pair
            exact ⟨⟨inner.alg, inner.signer, inner.profile, inner.version⟩, nofun⟩
        | _ => cases read
      · have passed : h.readEntry (.t label, v) = h := by
          cases v <;> simp [HeaderFields.readEntry, isRouting]
        simp only [Go.Envelope.HeaderFields.readEntry, isRouting, if_false, pure_eq_ok,
          Except.ok.injEq] at read
        obtain rfl := read
        rw [passed]
        exact ⟨same, noted⟩
  | _ =>
      obtain rfl := Except.ok.inj read
      exact ⟨same, noted⟩

/-- The whole loop, when Go gets through it. -/
theorem foldlM_readEntry_sameHeader {pairs : List (Value × Value)} {g : Go.Envelope.HeaderFields}
    (ran : pairs.foldlM Go.Envelope.HeaderFields.readEntry {} = .ok g)
    : SameHeader (pairs.foldl HeaderFields.readEntry {}) g
      ∧ (g.haveNaalp = false → (pairs.foldl HeaderFields.readEntry {}).signer = none) := by
  refine @foldlM_invariant _ _ _ _ _ _ _ (fun seen g =>
    SameHeader (seen.foldl HeaderFields.readEntry {}) g
      ∧ (g.haveNaalp = false → (seen.foldl HeaderFields.readEntry {}).signer = none)) ?_ ?_ ran
  · intro seen pair rest g next _ held read
    rw [List.foldl_append]
    exact readEntry_sameHeader held.1 held.2 read
  · exact ⟨⟨rfl, rfl, rfl, rfl⟩, fun _ => rfl⟩

/-- The header has a routing map in which the signer is an octet string. -/
def NamesSigner (pairs : List (Value × Value)) : Prop :=
  ∃ routing signer, (.t headerLabel, .m routing) ∈ pairs ∧ (.u 1, .b signer) ∈ routing

/-- The entries that the outer loop reads; every other one is passed over. -/
theorem readEntry_cases (h : HeaderFields) (pair : Value × Value)
    : (∃ alg, pair = (.u 1, .n alg) ∧ h.readEntry pair = { h with alg := some alg })
      ∨ (∃ routing, pair = (.t headerLabel, .m routing)
        ∧ h.readEntry pair = routing.foldl HeaderFields.readRouting h)
      ∨ ((∀ routing, pair ≠ (.t headerLabel, .m routing)) ∧ h.readEntry pair = h) := by
  unfold HeaderFields.readEntry
  split
  · exact .inl ⟨_, rfl, rfl⟩
  · rename_i label routing
    split_ifs with isRouting
    · exact .inr (.inl ⟨routing, by rw [isRouting], rfl⟩)
    · exact .inr (.inr ⟨by simp [isRouting], rfl⟩)
  · rename_i _ notRouting
    exact .inr (.inr ⟨fun routing => notRouting _ _, rfl⟩)

theorem foldl_readRouting_alg (routing : List (Value × Value)) (h : HeaderFields)
    : (routing.foldl HeaderFields.readRouting h).alg = h.alg := by
  induction routing generalizing h with
  | nil => rfl
  | cons pair rest ih =>
      rw [List.foldl_cons, ih]
      unfold HeaderFields.readRouting
      split <;> rfl

/-- The routing names a signer exactly when one of its entries does, by induction on the
entries.
-/
theorem foldl_readRouting_signer (routing : List (Value × Value)) (h : HeaderFields)
    : (routing.foldl HeaderFields.readRouting h).signer.isSome
      ↔ h.signer.isSome ∨ ∃ signer, (.u 1, .b signer) ∈ routing := by
  induction routing generalizing h with
  | nil => simp
  | cons pair rest ih =>
      rw [List.foldl_cons, ih]
      unfold HeaderFields.readRouting
      split
      · simp
      · simp
      · simp
      · rename_i notSigner _ _
        have other : ∀ signer, (Value.u 1, Value.b signer) ≠ pair :=
          fun signer same => notSigner signer same.symm
        simp [List.mem_cons, other]

/-- The alg that was read stands under label 1, by induction over the entries. -/
theorem mem_of_readEntry_alg {pairs : List (Value × Value)} {h : HeaderFields} {alg : Int}
    (read : (pairs.foldl HeaderFields.readEntry h).alg = some alg)
    : h.alg = some alg ∨ (.u 1, .n alg) ∈ pairs := by
  induction pairs generalizing h with
  | nil => exact .inl read
  | cons pair rest ih =>
      rcases ih read with before | later
      · rcases readEntry_cases h pair with ⟨_, rfl, same⟩ | ⟨routing, rfl, same⟩ | ⟨-, same⟩
        · rw [same] at before
          obtain rfl := Option.some.inj before
          exact .inr List.mem_cons_self
        · rw [same, foldl_readRouting_alg] at before
          exact .inl before
        · rw [same] at before
          exact .inl before
      · exact .inr (List.mem_cons_of_mem _ later)

/-- A signer was read exactly when the header names one, by induction over the entries. -/
theorem foldl_readEntry_signer (pairs : List (Value × Value)) (h : HeaderFields)
    : (pairs.foldl HeaderFields.readEntry h).signer.isSome
      ↔ h.signer.isSome ∨ NamesSigner pairs := by
  induction pairs generalizing h with
  | nil => simp [NamesSigner]
  | cons pair rest ih =>
      rw [List.foldl_cons, ih]
      rcases readEntry_cases h pair with ⟨_, rfl, same⟩ | ⟨routing, rfl, same⟩ | ⟨other, same⟩
      · simp [same, NamesSigner]
      · rw [same, foldl_readRouting_signer, or_assoc]
        refine or_congr_right ?_
        simp only [NamesSigner, List.mem_cons]
        grind
      · have passed : ∀ routing, (.t headerLabel, .m routing) ≠ pair :=
          fun routing same => other routing same.symm
        simp [same, NamesSigner, passed]

section Readers

variable {prot signer : Bytes} {alg profile version : Int}

/-- A header is parsed in Python exactly when the loop over its pairs finds all four fields. -/
theorem parseProtected_eq_ok
    : parseProtected prot = .ok (alg, signer, profile, version)
      ↔ prot ≠ [0xA0] ∧ ∃ pairs, decode prot = .ok (.m pairs)
        ∧ pairs.foldl HeaderFields.readEntry {}
          = ⟨some alg, some signer, some profile, some version⟩ := by
  simp only [parseProtected, bind_eq_ok, raiseIf_eq_ok, exists_const]
  refine and_congr_right fun _ => ?_
  constructor
  · intro read
    obtain ⟨v, decoded, rest⟩ := read
    cases v with
    | m pairs =>
        refine ⟨pairs, decoded, ?_⟩
        dsimp only at rest
        split at rest
        · rename_i same
          obtain ⟨rfl, rfl, rfl, rfl⟩ := Except.ok.inj rest
          exact same
        · cases rest
    | _ => cases rest
  · intro read
    obtain ⟨pairs, decoded, same⟩ := read
    exact ⟨_, decoded, by simp only [same, pure_eq_ok]⟩

/-- A header is parsed in Go exactly when the loop over its pairs ends without an error and
found what it needs.
-/
theorem goParseProtected_eq_ok
    : Go.Envelope.parseProtected prot = .ok (alg, signer, profile, version)
      ↔ prot ≠ [0xA0] ∧ ∃ pairs, decode prot = .ok (.m pairs) ∧ NintsFit (.m pairs)
        ∧ pairs.foldlM Go.Envelope.HeaderFields.readEntry {}
          = .ok ⟨some alg, signer, profile, version, true⟩ := by
  simp only [Go.Envelope.parseProtected, bind_eq_ok, raiseIf_eq_ok, exists_const]
  refine and_congr_right fun _ => ?_
  constructor
  · intro read
    split at read
    · rename_i pairs decoded
      obtain ⟨decoded, fits⟩ := goDecode_eq_ok.mp decoded
      obtain ⟨g, ran, rest⟩ := bind_eq_ok.mp read
      refine ⟨pairs, decoded, fits, ?_⟩
      split at rest
      · obtain ⟨rfl, rfl, rfl, rfl⟩ := Except.ok.inj rest
        exact ran
      · cases rest
    · cases read
  · intro read
    obtain ⟨pairs, decoded, fits, ran⟩ := read
    rw [goDecode_eq_ok.mpr ⟨decoded, fits⟩]
    simp only [ran, ok_bind, pure_eq_ok]

/-- A header that Python reads is read by Go, when its integers fit.
Witness: the Go loop stops at an entry that it cannot read; those of the alg and of the routing
map were read, and it passes the others by.
-/
theorem goParseProtected_of_parseProtected {pairs : List (Value × Value)}
    (read : parseProtected prot = .ok (alg, signer, profile, version))
    (decoded : decode prot = .ok (.m pairs)) (fits : NintsFit (.m pairs))
    : Go.Envelope.parseProtected prot = .ok (alg, signer, profile, version) := by
  obtain ⟨notEmpty, _, again, fields⟩ := parseProtected_eq_ok.mp read
  obtain rfl := Value.m.inj (Except.ok.inj (decoded.symm.trans again))
  have distinct := (encodable_m.mp (decode_eq_ok.mp decoded).1.encodable).2.2
  have hasAlg := mem_of_readEntry_alg (congrArg HeaderFields.alg fields)
  have named := (foldl_readEntry_signer _ {}).mp (by rw [fields]; rfl)
  have readable : ∀ pair ∈ pairs, ReadableEntry pair := by
    intro pair member
    obtain ⟨k, v⟩ := pair
    constructor
    · intro isAlg
      obtain rfl : k = .u 1 := isAlg
      exact ⟨alg, value_unique distinct member (hasAlg.resolve_left nofun)⟩
    · intro isRouting
      obtain rfl : k = .t headerLabel := isRouting
      obtain ⟨routing, _, routed, -⟩ := named.resolve_left nofun
      exact ⟨routing, value_unique distinct member routed⟩
  obtain ⟨g, ran⟩ := (foldlM_ok_iff readEntry_ok_iff).mpr readable
  obtain ⟨same, noted⟩ := foldlM_readEntry_sameHeader ran
  rw [fields] at same noted
  have routed : g.haveNaalp = true := by
    cases present : g.haveNaalp with
    | true => rfl
    | false => cases noted present
  have complete : g = ⟨some alg, signer, profile, version, true⟩ := by
    cases g with
    | mk =>
        rw [Go.Envelope.HeaderFields.mk.injEq]
        exact ⟨same.alg, same.signer, same.profile, same.version, routed⟩
  exact goParseProtected_eq_ok.mpr ⟨notEmpty, pairs, decoded, fits, complete ▸ ran⟩

/-- A header that Go reads is read by Python, when it names a signer and Go has found the
profile and the version.
-/
theorem parseProtected_of_goParseProtected {pairs : List (Value × Value)}
    (read : Go.Envelope.parseProtected prot = .ok (alg, signer, profile, version))
    (decoded : decode prot = .ok (.m pairs)) (named : NamesSigner pairs) (hasProfile : profile ≠ 0)
    (hasVersion : version ≠ 0)
    : parseProtected prot = .ok (alg, signer, profile, version) := by
  obtain ⟨notEmpty, _, again, -, ran⟩ := goParseProtected_eq_ok.mp read
  obtain rfl := Value.m.inj (Except.ok.inj (decoded.symm.trans again))
  have same := (foldlM_readEntry_sameHeader ran).1
  have hasSigner := (foldl_readEntry_signer pairs {}).mpr (.inr named)
  refine parseProtected_eq_ok.mpr ⟨notEmpty, pairs, decoded, ?_⟩
  generalize pairs.foldl HeaderFields.readEntry {} = h at same hasSigner
  obtain ⟨halg, hsigner, hprofile, hversion⟩ := h
  obtain ⟨sameAlg, sameSigner, sameProfile, sameVersion⟩ := same
  cases hsigner with
  | none => cases hasSigner
  | some _ =>
      cases hprofile with
      | none => exact (hasProfile sameProfile).elim
      | some _ =>
          cases hversion with
          | none => exact (hasVersion sameVersion).elim
          | some _ => simp_all

end Readers

end Naalp.Implementations
