import Naalp.Bodies.Slots
import Naalp.Names.Bodies
import Naalp.Python.MixedMode
import Naalp.Python.Gates
import Naalp.Python.GrantObjects

/-! The lenient parsers: grants, carriage bodies, task transitions and payment imports. Each reads
some bodies that are not the encoding of what it returns, and the entries of the body tell which.
-/

namespace Naalp.Bodies

open Naalp.Foundation
open Naalp.Python
open Naalp.Python.Cbor
open Naalp.Python.Fields

variable {b : Bytes} {pairs : List (Value × Value)}

-----------------------------------------------------------------------------------------
-- Grants
-----------------------------------------------------------------------------------------

section Grants

open Naalp.Python.Delegation

/-- An empty scope is absent. -/
def scopeField (scope : PyStr) : Option PyStr := if scope ≠ [] then some scope else none

theorem scopeField_eq_some {scope s : PyStr} : scopeField scope = some s ↔ scope = s ∧ s ≠ [] := by
  unfold scopeField
  split <;> grind

def grantSlots (g : GrantFields) : List (Value × Value) :=
  slot 1 .t g.subject ++ slot 2 .u g.effectCap ++ slot 3 .u g.maxDepth ++ slot 4 .u g.notBefore
  ++ slot 5 .u g.notAfter ++ slot 6 .t (scopeField g.scope)

theorem asTstr_eq_ok {msg : String} {v : Value} {s : PyStr} : asTstr msg v = .ok s ↔ v = .t s := by
  cases v <;> simp [asTstr]

theorem asUint_eq_ok {msg : String} {v : Value} {n : Int} : asUint msg v = .ok n ↔ v = .u n := by
  cases v <;> simp [asUint]

theorem asEffectCap_eq_ok {v : Value} {n : Int}
    : asEffectCap v = .ok n ↔ v = .u n ∧ n ≤ Policy.destructive := by
  cases v with
  | u m =>
      simp only [asEffectCap, raiseIf_bind_eq_ok, pure_eq_ok, Except.ok.injEq, Value.u.injEq]
      grind
  | _ => simp [asEffectCap]

/-- What the loop over the pairs of a grant can take, by the key of the pair. -/
theorem readPair_eq_ok {g next : GrantFields} {pair : Value × Value}
    (taken : g.readPair pair = .ok next)
    : (∃ s, pair = (.u 1, .t s) ∧ next = { g with subject := some s })
      ∨ (∃ n, pair = (.u 2, .u n) ∧ next = { g with effectCap := some n })
      ∨ (∃ n, pair = (.u 3, .u n) ∧ next = { g with maxDepth := some n })
      ∨ (∃ n, pair = (.u 4, .u n) ∧ next = { g with notBefore := some n })
      ∨ (∃ n, pair = (.u 5, .u n) ∧ next = { g with notAfter := some n })
      ∨ (∃ s, pair = (.u 6, .t s) ∧ next = { g with scope := s }) := by
  unfold GrantFields.readPair at taken
  split at taken
  case h_7 => cases taken
  all_goals
    simp only [bind_eq_ok, asTstr_eq_ok, asUint_eq_ok, asEffectCap_eq_ok, pure_eq_ok,
      Except.ok.injEq] at taken
    obtain ⟨v, typed, rfl⟩ := taken
    simp_all

theorem grant_shown
    : ShowsFields Prod.fst GrantFields.readPair grantSlots (fun pair => pair ≠ (.u 6, .t [])) := by
  intro state next pair spelled taken other
  rcases readPair_eq_ok taken with
    ⟨v, rfl, rfl⟩ | ⟨v, rfl, rfl⟩ | ⟨v, rfl, rfl⟩ | ⟨v, rfl, rfl⟩ | ⟨v, rfl, rfl⟩ | ⟨v, rfl, rfl⟩
  all_goals
    simp only [grantSlots, List.mem_append, mem_slot, scopeField_eq_some]
    grind

theorem grantSlots_ordered (g : GrantFields)
    : ((grantSlots g).map encodedKey).Pairwise (· < ·) := by
  refine @ascending_of_keys _ [.u 1, .u 2, .u 3, .u 4, .u 5, .u 6] ?_ (by decide)
  exact slots_keys (slots_keys (slots_keys (slots_keys (slots_keys slot_keys))))

theorem grantSlots_leaves (g : GrantFields) : ∀ pair ∈ grantSlots g, Leaf pair.1 ∧ Leaf pair.2 := by
  simp only [grantSlots, List.mem_append, mem_slot]
  rintro pair
    (((((⟨v, -, rfl⟩ | ⟨v, -, rfl⟩) | ⟨v, -, rfl⟩) | ⟨v, -, rfl⟩) | ⟨v, -, rfl⟩) | ⟨v, -, rfl⟩)
    <;> exact ⟨trivial, trivial⟩

/-- The fields of a finished grant. -/
def grantFields (g : Grant) : GrantFields :=
  ⟨some g.subject, some g.effectCap, some g.maxDepth, some g.notBefore, some g.notAfter, g.scope⟩

theorem fields_of_finish {read : GrantFields} {g : Grant} (finished : read.finish = .ok g)
    : read = grantFields g := by
  unfold GrantFields.finish at finished
  split at finished
  · obtain rfl := Except.ok.inj finished
    rfl
  · cases finished

theorem grant_toMap (g : Grant) : g.toMap = .m (grantSlots (grantFields g)) := by
  unfold Grant.toMap grantSlots grantFields scopeField
  split <;> rfl

/-- A grant is parsed exactly when its body spells out no empty scope. -/
theorem grant_exact_iff {g : Grant} (decoded : decode b = .ok (.m pairs))
    (parsed : grantFromBody (.m pairs) = .ok g)
    : g.bytes = .ok b ↔ (.u 6, .t []) ∉ pairs := by
  obtain ⟨read, ran, finished⟩ := bind_eq_ok.mp parsed
  obtain rfl := fields_of_finish finished
  have ordered := grantSlots_ordered (grantFields g)
  rw [Grant.bytes, grant_toMap,
    encode_of_leaves_iff ordered (grantSlots_leaves (grantFields g)) decoded]
  constructor
  · rintro rfl
    simp [grantSlots, scopeField_eq_some]
  · intro spelled
    have admitted : ∀ pair ∈ pairs, pair ≠ (.u 6, .t []) := by
      rintro pair member rfl
      exact spelled member
    exact pairs_eq_shows grant_shown (Names.ascending_of_decode decoded) ordered admitted rfl ran

end Grants

-----------------------------------------------------------------------------------------
-- Carriage bodies
-----------------------------------------------------------------------------------------

section Carriage

open Naalp.Python.Carriage

/-- The fields before the foreign message are shown even before they are read, with defaults. -/
def carriageSlots (fields : CarriageFields) : List (Value × Value) :=
  [(.u 1, .u fields.protocolId), (.u 2, .u fields.klass), (.u 3, .u fields.contentType),
    (.u 4, .b fields.correlation), (.u 5, .t fields.method)]
  ++ slot 6 .b fields.foreign

theorem readCarriageField_eq_ok {fields next : CarriageFields} {pair : Value × Value}
    (taken : readCarriageField fields pair = .ok next)
    : (∃ v, pair = (.u 1, .u v) ∧ next = { fields with protocolId := v })
      ∨ (∃ v, pair = (.u 2, .u v) ∧ next = { fields with klass := v })
      ∨ (∃ v, pair = (.u 3, .u v) ∧ next = { fields with contentType := v })
      ∨ (∃ v, pair = (.u 4, .b v) ∧ next = { fields with correlation := v })
      ∨ (∃ v, pair = (.u 5, .t v) ∧ next = { fields with method := v })
      ∨ (∃ v, pair = (.u 6, .b v) ∧ next = { fields with foreign := some v }) := by
  unfold readCarriageField at taken
  split at taken <;> simp_all [eq_comm]

theorem carriage_shown
    : ShowsFields Prod.fst readCarriageField carriageSlots (fun _ => True) := by
  intro fields next pair _ taken other
  rcases readCarriageField_eq_ok taken with
    ⟨v, rfl, rfl⟩ | ⟨v, rfl, rfl⟩ | ⟨v, rfl, rfl⟩ | ⟨v, rfl, rfl⟩ | ⟨v, rfl, rfl⟩ | ⟨v, rfl, rfl⟩
  all_goals
    simp only [carriageSlots, List.mem_append, List.mem_cons, List.not_mem_nil, mem_slot]
    grind

theorem carriageSlots_ordered (fields : CarriageFields)
    : ((carriageSlots fields).map encodedKey).Pairwise (· < ·) :=
  @ascending_of_keys _ [.u 1, .u 2, .u 3, .u 4, .u 5, .u 6] (slots_keys (List.Sublist.refl _))
    (by decide)

theorem carriageSlots_leaves (fields : CarriageFields)
    : ∀ pair ∈ carriageSlots fields, Leaf pair.1 ∧ Leaf pair.2 := by
  simp only [carriageSlots, List.mem_append, List.mem_cons, List.not_mem_nil, or_false, mem_slot]
  rintro pair ((rfl | rfl | rfl | rfl | rfl) | ⟨v, -, rfl⟩) <;> exact ⟨trivial, trivial⟩

/-- A carriage body is parsed exactly when none of its defaulted fields is missing.
Witness: the body is written with all five keys, in order, and every key that is present is
read into its own field.
-/
theorem carriage_exact_iff {c : CarriageBody} (decoded : decode b = .ok (.m pairs))
    (parsed : carriageFromValue (.m pairs) = .ok c)
    : c.bytes = .ok b ↔ ∀ k ∈ [1, 2, 3, 4, 5], ∃ v, (.u k, v) ∈ pairs := by
  obtain ⟨fields, ran, finished⟩ := bind_eq_ok.mp parsed
  split at finished
  case h_2 => cases finished
  rename_i foreign present
  obtain ⟨-, -, finished⟩ := bind_eq_ok.mp finished
  obtain rfl := Except.ok.inj finished
  have shows : CarriageBody.toValue ⟨fields.protocolId, fields.klass, fields.contentType,
      fields.correlation, fields.method, foreign⟩ = .m (carriageSlots fields) := by
    rw [carriageSlots, present]
    rfl
  have ordered := carriageSlots_ordered fields
  rw [CarriageBody.bytes, shows, encode_of_leaves_iff ordered (carriageSlots_leaves fields) decoded]
  constructor
  · rintro rfl k known
    simp only [List.mem_cons, List.not_mem_nil, or_false] at known
    rcases known with rfl | rfl | rfl | rfl | rfl <;> simp [carriageSlots]
  · intro complete
    have named (k : Int) (known : k ∈ [1, 2, 3, 4, 5]) : .u k ∈ pairs.map Prod.fst := by
      obtain ⟨v, member⟩ := complete k known
      exact List.mem_map_of_mem member
    have covered : ∀ pair ∈ carriageSlots {}, pair.1 ∈ pairs.map Prod.fst := by
      simp only [carriageSlots, slot_none, List.append_nil, List.forall_mem_cons]
      exact ⟨named 1 (by decide), named 2 (by decide), named 3 (by decide), named 4 (by decide),
        named 5 (by decide), nofun⟩
    exact pairs_eq_shows_of_covered carriage_shown (Names.ascending_of_decode decoded) ordered
      (fun _ _ => trivial) covered ran

end Carriage

-----------------------------------------------------------------------------------------
-- Task transitions and payment imports
-----------------------------------------------------------------------------------------

section Lookups

open Naalp.Names
open Naalp.Signatures
open Naalp.Python.Naming
open Naalp.Python.Payment

/-- A transition is parsed exactly when its body has no unknown keys. -/
theorem transition_exact_iff {t : Transition} (decoded : decode b = .ok (.m pairs))
    (parsed : parseTransition b = .ok t)
    : t.bytes = .ok b ↔ KeysWithin [1, 2, 3, 4, 5, 6] pairs := by
  obtain ⟨pairs', decoded', shown⟩ := parseTransition_eq_ok.mp parsed
  obtain rfl := Value.m.inj (Except.ok.inj (decoded.symm.trans decoded'))
  exact encode_eq_body_iff decoded shown (transitionPairs_ascending t)
    (transitionPairs_leaves t) rfl

/-- The pairs of the body of a payment import. -/
def importPairs (p : PaymentImport) : List (Value × Value) :=
  [(.u 1, .u p.format), (.u 2, .u p.amount), (.u 3, .t p.currency), (.u 4, .b p.payee),
    (.u 5, .u p.notAfter), (.u 6, .b p.foreign)]

theorem importPairs_ascending (p : PaymentImport)
    : ((importPairs p).map encodedKey).Pairwise (· < ·) :=
  @numbered_ascending 1 [.u p.format, .u p.amount, .t p.currency, .b p.payee, .u p.notAfter,
    .b p.foreign] (by simp)

theorem importPairs_leaves (p : PaymentImport)
    : ∀ pair ∈ importPairs p, Leaf pair.1 ∧ Leaf pair.2 := by
  simp [importPairs, Leaf]

theorem shows_importPairs {p : PaymentImport}
    : Shows (importPairs p) pairs ↔ uintField pairs 1 = some p.format
        ∧ uintField pairs 2 = some p.amount ∧ tstrField pairs 3 = some p.currency
        ∧ bstrField pairs 4 = some p.payee ∧ uintField pairs 5 = some p.notAfter
        ∧ bstrField pairs 6 = some p.foreign := by
  simp only [tstrField_eq_some, bstrField_eq_some, uintField_eq_some, Shows, importPairs]
  grind

theorem parsePaymentImport_shows {p : PaymentImport} (decoded : decode b = .ok (.m pairs))
    (parsed : parsePaymentImport b = .ok p)
    : Shows (importPairs p) pairs := by
  simp only [parsePaymentImport, decoded, pure_eq_ok, ok_bind] at parsed
  split at parsed
  · obtain rfl := Except.ok.inj parsed
    exact shows_importPairs.mpr ⟨‹_›, ‹_›, ‹_›, ‹_›, ‹_›, ‹_›⟩
  · cases parsed

/-- A body that is read as an import is a map. -/
theorem map_of_parsePaymentImport {p : PaymentImport} (parsed : parsePaymentImport b = .ok p)
    : ∃ pairs, decode b = .ok (.m pairs) := by
  cases decoded : decode b with
  | error err =>
      simp only [parsePaymentImport, decoded] at parsed
      split at parsed
      · simp_all
      · cases parsed
      · cases parsed
  | ok v =>
      cases v with
      | m pairs => exact ⟨pairs, rfl⟩
      | _ => simp [parsePaymentImport, decoded] at parsed

/-- A payment import is parsed exactly when its body has no unknown keys. -/
theorem payment_exact_iff {p : PaymentImport} (decoded : decode b = .ok (.m pairs))
    (parsed : parsePaymentImport b = .ok p)
    : p.bytes = .ok b ↔ KeysWithin [1, 2, 3, 4, 5, 6] pairs :=
  encode_eq_body_iff decoded (parsePaymentImport_shows decoded parsed) (importPairs_ascending p)
    (importPairs_leaves p) rfl

end Lookups

-----------------------------------------------------------------------------------------
-- The four parsers
-----------------------------------------------------------------------------------------

open Naalp.Names (KeysWithin)

/-- The entries of the map that the octets decode to; octets of anything else have none. -/
def entriesOf (b : Bytes) : List (Value × Value) :=
  match decode b with
  | .ok (.m pairs) => pairs
  | _ => []

theorem entriesOf_decode (decoded : decode b = .ok (.m pairs)) : entriesOf b = pairs := by
  rw [entriesOf, decoded]

/-- Whatever octets a parser accepts are what the thing that it returns encodes to, exactly when: a
grant spells out no empty scope, a carriage body leaves none of its first five fields out, and
transitions and payment imports have no keys but their six.
Witness: each parser accepts maps only, and then its own lemma says which.
-/
theorem lenient_parsers_exact_iff (b : Bytes)
    : (∀ g, (decode b >>= Delegation.grantFromBody) = .ok g
        → (g.bytes = .ok b ↔ (.u 6, .t []) ∉ entriesOf b))
      ∧ (∀ c, (decode b >>= Carriage.carriageFromValue) = .ok c
        → (c.bytes = .ok b ↔ ∀ k ∈ [1, 2, 3, 4, 5], ∃ v, (.u k, v) ∈ entriesOf b))
      ∧ (∀ t, Naming.parseTransition b = .ok t
        → (t.bytes = .ok b ↔ KeysWithin [1, 2, 3, 4, 5, 6] (entriesOf b)))
      ∧ (∀ p, Payment.parsePaymentImport b = .ok p
        → (p.bytes = .ok b ↔ KeysWithin [1, 2, 3, 4, 5, 6] (entriesOf b))) := by
  refine ⟨?_, ?_, ?_, ?_⟩
  · intro g parsed
    obtain ⟨v, decoded, accepted⟩ := bind_eq_ok.mp parsed
    cases v with
    | m pairs =>
        rw [entriesOf_decode decoded]
        exact grant_exact_iff decoded accepted
    | _ => cases accepted
  · intro c parsed
    obtain ⟨v, decoded, accepted⟩ := bind_eq_ok.mp parsed
    cases v with
    | m pairs =>
        rw [entriesOf_decode decoded]
        exact carriage_exact_iff decoded accepted
    | _ => cases accepted
  · intro t parsed
    obtain ⟨pairs, decoded, -⟩ := Names.parseTransition_eq_ok.mp parsed
    rw [entriesOf_decode decoded]
    exact transition_exact_iff decoded parsed
  · intro p parsed
    obtain ⟨pairs, decoded⟩ := map_of_parsePaymentImport parsed
    rw [entriesOf_decode decoded]
    exact payment_exact_iff decoded parsed

-----------------------------------------------------------------------------------------
-- Bodies that are read but not written
-----------------------------------------------------------------------------------------

/-- A grant body whose sixth entry is an empty scope. -/
def emptyScopeBody : Bytes := [0xa6, 1, 0x60, 2, 0, 3, 0, 4, 0, 5, 0, 6, 0x60]

def emptyGrant : Delegation.Grant := ⟨[], 0, 0, 0, 0, []⟩

/-- A carriage body of an empty foreign message and nothing else. -/
def foreignOnlyBody : Bytes := [0xa1, 6, 0x40]

def emptyCarriage : Carriage.CarriageBody := ⟨0, 0, 0, [], [], []⟩

/-- A transition body with a seventh entry. -/
def longTransitionBody : Bytes := [0xa7, 1, 0x40, 2, 0x40, 3, 0, 4, 0, 5, 0, 6, 0x40, 7, 0]

def emptyTransition : Naming.Transition := ⟨[], [], 0, 0, 0, []⟩

/-- A payment import with a seventh entry. -/
def longImportBody : Bytes := [0xa7, 1, 0, 2, 0, 3, 0x60, 4, 0x40, 5, 0, 6, 0x40, 7, 0]

def emptyImport : Payment.PaymentImport := ⟨0, 0, [], [], 0, []⟩

/-- The same grant with a scope, the carriage body with all its fields, and the other two without
the seventh entry.
-/
def scopedGrant : Delegation.Grant := { emptyGrant with scope := PyStr.lit ['a'] }

def scopedBody : Bytes := [0xa6, 1, 0x60, 2, 0, 3, 0, 4, 0, 5, 0, 6, 0x61, 97]

def fullCarriageBody : Bytes := [0xa6, 1, 0, 2, 0, 3, 0, 4, 0x40, 5, 0x60, 6, 0x40]

def transitionBody : Bytes := [0xa6, 1, 0x40, 2, 0x40, 3, 0, 4, 0, 5, 0, 6, 0x40]

def importBody : Bytes := [0xa6, 1, 0, 2, 0, 3, 0x60, 4, 0x40, 5, 0, 6, 0x40]

/-- What the theorem says of these bodies, which are all accepted: the four longer or shorter ones
are not written back, the other four are.
Witness: each body is accepted by evaluation, and the theorem decides by its keys.
-/
theorem lenient_parsers_exact_samples
    : (emptyGrant.bytes ≠ .ok emptyScopeBody ∧ scopedGrant.bytes = .ok scopedBody)
      ∧ (emptyCarriage.bytes ≠ .ok foreignOnlyBody ∧ emptyCarriage.bytes = .ok fullCarriageBody)
      ∧ (emptyTransition.bytes ≠ .ok longTransitionBody
        ∧ emptyTransition.bytes = .ok transitionBody)
      ∧ (emptyImport.bytes ≠ .ok longImportBody ∧ emptyImport.bytes = .ok importBody) := by
  refine ⟨⟨?_, ?_⟩, ⟨?_, ?_⟩, ⟨?_, ?_⟩, ⟨?_, ?_⟩⟩
  · rw [Ne, (lenient_parsers_exact_iff emptyScopeBody).1 emptyGrant rfl]
    exact not_not.mpr (.tail _ (.tail _ (.tail _ (.tail _ (.tail _ (.head _))))))
  · rw [(lenient_parsers_exact_iff scopedBody).1 scopedGrant rfl]
    simp [show entriesOf scopedBody = [(.u 1, .t []), (.u 2, .u 0), (.u 3, .u 0), (.u 4, .u 0),
      (.u 5, .u 0), (.u 6, .t (.lit ['a']))] from rfl, PyStr.lit]
  · rw [Ne, (lenient_parsers_exact_iff foreignOnlyBody).2.1 emptyCarriage rfl]
    simp [show entriesOf foreignOnlyBody = [(.u 6, .b [])] from rfl]
  · rw [(lenient_parsers_exact_iff fullCarriageBody).2.1 emptyCarriage rfl]
    simp [show entriesOf fullCarriageBody
      = [(.u 1, .u 0), (.u 2, .u 0), (.u 3, .u 0), (.u 4, .b []),
      (.u 5, .t []), (.u 6, .b [])] from rfl]
  · rw [Ne, (lenient_parsers_exact_iff longTransitionBody).2.2.1 emptyTransition rfl]
    simp [KeysWithin, show entriesOf longTransitionBody
      = [(.u 1, .b []), (.u 2, .b []), (.u 3, .u 0),
      (.u 4, .u 0), (.u 5, .u 0), (.u 6, .b []), (.u 7, .u 0)] from rfl]
  · rw [(lenient_parsers_exact_iff transitionBody).2.2.1 emptyTransition rfl]
    simp [KeysWithin, show entriesOf transitionBody = [(.u 1, .b []), (.u 2, .b []), (.u 3, .u 0),
      (.u 4, .u 0), (.u 5, .u 0), (.u 6, .b [])] from rfl]
  · rw [Ne, (lenient_parsers_exact_iff longImportBody).2.2.2 emptyImport rfl]
    simp [KeysWithin, show entriesOf longImportBody = [(.u 1, .u 0), (.u 2, .u 0), (.u 3, .t []),
      (.u 4, .b []), (.u 5, .u 0), (.u 6, .b []), (.u 7, .u 0)] from rfl]
  · rw [(lenient_parsers_exact_iff importBody).2.2.2 emptyImport rfl]
    simp [KeysWithin, show entriesOf importBody = [(.u 1, .u 0), (.u 2, .u 0), (.u 3, .t []),
      (.u 4, .b []), (.u 5, .u 0), (.u 6, .b [])] from rfl]

/-- None of the four parsers is exact: each returns something that encodes to other octets. -/
theorem lenient_parsers_not_exact
    : (¬ ∀ b g, (decode b >>= Delegation.grantFromBody) = .ok g → g.bytes = .ok b)
      ∧ (¬ ∀ b c, (decode b >>= Carriage.carriageFromValue) = .ok c → c.bytes = .ok b)
      ∧ (¬ ∀ b t, Naming.parseTransition b = .ok t → t.bytes = .ok b)
      ∧ (¬ ∀ b p, Payment.parsePaymentImport b = .ok p → p.bytes = .ok b) := by
  refine ⟨?_, ?_, ?_, ?_⟩
  · intro inverse
    have same := inverse emptyScopeBody emptyGrant rfl
    exact absurd same (by decide)
  · intro inverse
    have same := inverse foreignOnlyBody emptyCarriage rfl
    exact absurd same (by decide)
  · intro inverse
    have same := inverse longTransitionBody emptyTransition rfl
    exact absurd same (by decide)
  · intro inverse
    have same := inverse longImportBody emptyImport rfl
    exact absurd same (by decide)

end Naalp.Bodies
