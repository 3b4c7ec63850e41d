import Naalp.Envelope.Fidelity
import Naalp.Go.Envelope
import Naalp.Implementations.Codec

/-! The body map in both implementations: the content-id check and the object read from it.
Go refuses a field number that Python passes over; otherwise the two read the same object.
-/

namespace Naalp.Implementations

open Naalp.Foundation
open Naalp.Python
open Naalp.Python.Cbor
open Naalp.Python.Envelope
open Naalp.Go.Envelope (BodyFields asUint asBstr asTstr asArr asMap boundedMap boundedCauses
  splitPair)

-----------------------------------------------------------------------------------------
-- The content id
-----------------------------------------------------------------------------------------

section Assertions

variable {v : Value}

theorem asUint_eq_ok {n : Int} : asUint v = .ok n ↔ v = .u n := by
  cases v <;> simp [asUint]

theorem asBstr_eq_ok {octets : Bytes} : asBstr v = .ok octets ↔ v = .b octets := by
  cases v <;> simp [asBstr]

theorem asTstr_eq_ok {text : PyStr} : asTstr v = .ok text ↔ v = .t text := by
  cases v <;> simp [asTstr]

theorem boundedMap_eq_ok {bound : Nat} {pairs : List (Value × Value)}
    : boundedMap bound v = .ok pairs ↔ v = .m pairs ∧ pairs.length ≤ bound := by
  cases v <;> simp [boundedMap, asMap, bind_eq_ok, raiseIf_eq_ok]
  grind

theorem mapM_asBstr_eq_ok {items : List Value} {octets : List Bytes}
    : items.mapM asBstr = .ok octets ↔ items = octets.map .b := by
  induction items generalizing octets with
  | nil => cases octets <;> simp
  | cons item rest ih =>
      cases octets <;> simp [List.mapM_cons, bind_eq_ok, asBstr_eq_ok, ih]

/-- The causes of a body are an array of byte strings, no longer than the limit. -/
theorem boundedCauses_eq_ok {causes : List Bytes}
    : boundedCauses v = .ok causes ↔ v = .a (causes.map .b) ∧ causes.length ≤ maxCauses := by
  cases v with
  | a items =>
      simp only [boundedCauses, asArr, bind_eq_ok, raiseIf_eq_ok, mapM_asBstr_eq_ok, pure_eq_ok,
        Except.ok.injEq, exists_const, Value.a.injEq, exists_eq_left', gt_iff_lt, not_lt]
      constructor
      · intro read
        obtain ⟨bound, rfl⟩ := read
        exact ⟨rfl, by simpa using bound⟩
      · intro read
        obtain ⟨rfl, bound⟩ := read
        exact ⟨by simpa using bound, rfl⟩
  | _ => simp [boundedCauses, asArr]

end Assertions

theorem splitPair_of_ne {state : Bytes × List (Value × Value)} {k v : Value}
    (other : k ≠ .u fieldId)
    : splitPair state (k, v) = .ok (state.1, state.2 ++ [(k, v)]) := by
  cases k with
  | u n =>
      have differs : n ≠ fieldId := fun same => other (congrArg Value.u same)
      simp [splitPair, differs]
  | _ => rfl

/-- The Go loop finds what the Python loop finds, by induction over the pairs. -/
theorem foldlM_splitPair_eq_ok {m : List (Value × Value)} {found : Bytes}
    {before : List (Value × Value)} {claimed : Bytes} {without : List (Value × Value)}
    : m.foldlM splitPair (found, before) = .ok (claimed, without)
      ↔ ∃ id rest, splitId m = .ok (id, rest) ∧ claimed = id.getD found
        ∧ without = before ++ rest := by
  induction m generalizing found before with
  | nil => simp [splitId, eq_comm]
  | cons pair rest ih =>
      obtain ⟨k, v⟩ := pair
      by_cases isId : k = .u fieldId
      · subst isId
        cases v with
        | b id =>
            have round : splitPair (found, before) (.u fieldId, .b id) = .ok (id, before) := rfl
            have split : splitId ((.u fieldId, .b id) :: rest)
                = (splitId rest >>= fun read => pure (read.1.or (some id), read.2)) := rfl
            rw [List.foldlM_cons, round, ok_bind, ih, split]
            simp only [bind_eq_ok, Prod.exists, pure_eq_ok, Except.ok.injEq, Prod.mk.injEq]
            constructor
            · intro same
              obtain ⟨later, tail, inRest, rfl, rfl⟩ := same
              exact ⟨_, tail, ⟨later, tail, inRest, rfl, rfl⟩, by cases later <;> rfl, rfl⟩
            · intro same
              obtain ⟨_, _, ⟨later, tail, inRest, rfl, rfl⟩, rfl, rfl⟩ := same
              exact ⟨later, tail, inRest, by cases later <;> rfl, rfl⟩
        | _ => simp [splitPair, asBstr, splitId, fieldId]
      · rw [List.foldlM_cons, splitPair_of_ne isId, ok_bind, ih, splitId_of_ne isId]
        simp only [bind_eq_ok, Prod.exists, pure_eq_ok, Except.ok.injEq, Prod.mk.injEq]
        constructor
        · intro same
          obtain ⟨id, tail, inRest, rfl, rfl⟩ := same
          exact ⟨id, _, ⟨id, tail, inRest, rfl, rfl⟩, rfl, List.append_assoc _ _ _⟩
        · intro same
          obtain ⟨id, _, ⟨_, tail, inRest, rfl, rfl⟩, rfl, rfl⟩ := same
          exact ⟨_, tail, inRest, rfl, by simp⟩

/-- The two content ids agree on what can be encoded, and neither is empty. -/
theorem contentID_eq_ok {m : List (Value × Value)} (encodable : Encodable (.m m)) {id : Bytes}
    : Go.Cbor.contentID m = .ok id ↔ Cbor.contentId (.m m) = .ok id := by
  rw [Go.Cbor.contentID, Cbor.contentId, goEncode_of_encodable encodable, encodable]
  simp only [ok_bind, pure_eq_ok, Except.ok.injEq, contentIdBytes]

theorem contentId_ne_nil {body : Value} {id : Bytes} (computed : Cbor.contentId body = .ok id)
    : id ≠ [] := by
  simp only [Cbor.contentId, bind_eq_ok, pure_eq_ok, Except.ok.injEq] at computed
  obtain ⟨_, _, rfl⟩ := computed
  exact List.cons_ne_nil _ _

/-- The check of the content id passes in Go exactly when it does in Python, on maps that can
be encoded.
Witness: the loops leave the same pairs beside the id, and encoding and digest agree on them.
-/
theorem checkContentID_eq_ok {m : List (Value × Value)} {done : Unit}
    (encodable : Encodable (.m m))
    : Go.Envelope.checkContentID m = .ok done ↔ checkContentId m = .ok done := by
  obtain ⟨size, members, distinct⟩ := encodable_m.mp encodable
  have partEncodable : ∀ {id without}, splitId m = .ok (id, without) → Encodable (.m without) := by
    intro id without split
    have part := sublist_of_splitId split
    exact encodable_m.mpr ⟨lt_of_le_of_lt part.length_le size,
      fun pair member => members pair (part.subset member), distinct.sublist (part.map _)⟩
  simp only [Go.Envelope.checkContentID, checkContentId, bind_eq_ok, Prod.exists, raiseIf_eq_ok,
    exists_const, foldlM_splitPair_eq_ok, List.nil_append, not_not]
  constructor
  · intro checked
    obtain ⟨_, _, ⟨id, without, split, rfl, rfl⟩, present, recomputed, computed, same⟩ := checked
    cases id with
    | none => exact (present rfl).elim
    | some id =>
        refine ⟨_, _, split, ?_⟩
        simp only [bind_eq_ok, raiseIf_eq_ok, not_not]
        exact ⟨recomputed, (contentID_eq_ok (partEncodable split)).mp computed, same⟩
  · intro checked
    obtain ⟨id, without, split, rest⟩ := checked
    cases id with
    | none => cases rest
    | some id =>
        simp only [bind_eq_ok, raiseIf_eq_ok, not_not] at rest
        obtain ⟨recomputed, computed, rfl⟩ := rest
        exact ⟨_, _, ⟨_, _, split, rfl, rfl⟩, contentId_ne_nil computed, recomputed,
          (contentID_eq_ok (partEncodable split)).mpr computed, rfl⟩

-----------------------------------------------------------------------------------------
-- Reading the object
-----------------------------------------------------------------------------------------

theorem getField_concat {fnum k : Int} {seen : List (Value × Value)} {v : Value}
    : getField fnum (seen ++ [(.u k, v)]) = if k = fnum then some v else getField fnum seen := by
  induction seen with
  | nil => rfl
  | cons pair rest ih =>
      simp only [List.cons_append, getField, ih]
      by_cases same : k = fnum <;> simp [same]

/-- What the Go loop has read from the pairs seen: each field with the value that stands in it. -/
structure HasRead (seen : List (Value × Value)) (s : BodyFields) : Prop where
  id : getField fieldId seen = some (.b s.id) ∨ getField fieldId seen = none ∧ s.id = []
  kind : getField fieldKind seen = s.kind.map .u
  channel : getField fieldChannel seen = s.channel.map .u
  tier : getField fieldTier seen = s.tier.map .u
  signer : getField fieldSigner seen = s.signer.map .b
  created : getField fieldCreated seen = s.created.map .u
  effect : getField fieldEffect seen = s.effect.map .u
  causes : getField fieldCauses seen = s.causes.map (fun causes => .a (causes.map .b))
  causesBound : ∀ causes, s.causes = some causes → causes.length ≤ maxCauses
  profile : getField fieldProfile seen = s.profile.map .u
  body : getField fieldBody seen = s.body
  ext : getField fieldExt seen = s.ext.map .m
  extBound : ∀ pairs, s.ext = some pairs → pairs.length ≤ maxExt
  cext : getField fieldCext seen = s.cext.map .m
  cextBound : ∀ pairs, s.cext = some pairs → pairs.length ≤ maxCext
  audience : getField fieldAudience seen = some (.t s.audience)
    ∨ getField fieldAudience seen = none ∧ s.audience = []
  suite : getField fieldSuite seen = some (.u s.suite)
    ∨ getField fieldSuite seen = none ∧ s.suite = 0

/-- The rounds of the Go loop that read a pair, one per field. -/
inductive Reads (s : BodyFields) : Value × Value → BodyFields → Prop where
  | id (v : Bytes) : Reads s (.u fieldId, .b v) { s with id := v }
  | kind (v : Int) : Reads s (.u fieldKind, .u v) { s with kind := some v }
  | channel (v : Int) : Reads s (.u fieldChannel, .u v) { s with channel := some v }
  | tier (v : Int) : Reads s (.u fieldTier, .u v) { s with tier := some v }
  | signer (v : Bytes) : Reads s (.u fieldSigner, .b v) { s with signer := some v }
  | created (v : Int) : Reads s (.u fieldCreated, .u v) { s with created := some v }
  | effect (v : Int) : Reads s (.u fieldEffect, .u v) { s with effect := some v }
  | causes (v : List Bytes) (bound : v.length ≤ maxCauses)
      : Reads s (.u fieldCauses, .a (v.map .b)) { s with causes := some (s.causes.getD [] ++ v) }
  | profile (v : Int) : Reads s (.u fieldProfile, .u v) { s with profile := some v }
  | body (v : Value) : Reads s (.u fieldBody, v) { s with body := some v }
  | ext (v : List (Value × Value)) (bound : v.length ≤ maxExt)
      : Reads s (.u fieldExt, .m v) { s with ext := some v }
  | cext (v : List (Value × Value)) (bound : v.length ≤ maxCext)
      : Reads s (.u fieldCext, .m v) { s with cext := some v }
  | audience (v : PyStr) : Reads s (.u fieldAudience, .t v) { s with audience := v }
  | suite (v : Int) : Reads s (.u fieldSuite, .u v) { s with suite := v }

theorem readPair_unknown {s : BodyFields} {k : Int} {v : Value} (unknown : k ∉ fieldNumbers)
    : s.readPair (.u k, v) = .error Go.Envelope.errMalformed := by
  simp only [fieldNumbers, List.mem_cons, List.not_mem_nil, or_false, not_or] at unknown
  simp only [BodyFields.readPair, unknown, if_false, throw_eq_error]

/-- What the loop over the pairs of a body can take, by the key of the pair.
Witness: one case for every field number, and one for a key that is none of them.
-/
theorem readPair_eq_ok {s next : BodyFields} {pair : Value × Value}
    : s.readPair pair = .ok next ↔ Reads s pair next := by
  constructor
  · intro read
    obtain ⟨k, v⟩ := pair
    cases k with
    | u k =>
        by_cases known : k ∈ fieldNumbers
        · simp only [fieldNumbers, List.mem_cons, List.not_mem_nil, or_false] at known
          rcases known with
            rfl | rfl | rfl | rfl | rfl | rfl | rfl | rfl | rfl | rfl | rfl | rfl | rfl | rfl
          · obtain ⟨v, same, stepped⟩ := bind_eq_ok.mp read
            obtain rfl := asBstr_eq_ok.mp same
            obtain rfl := Except.ok.inj stepped
            exact .id v
          · obtain ⟨v, same, stepped⟩ := bind_eq_ok.mp read
            obtain rfl := asUint_eq_ok.mp same
            obtain rfl := Except.ok.inj stepped
            exact .kind v
          · obtain ⟨v, same, stepped⟩ := bind_eq_ok.mp read
            obtain rfl := asUint_eq_ok.mp same
            obtain rfl := Except.ok.inj stepped
            exact .channel v
          · obtain ⟨v, same, stepped⟩ := bind_eq_ok.mp read
            obtain rfl := asUint_eq_ok.mp same
            obtain rfl := Except.ok.inj stepped
            exact .tier v
          · obtain ⟨v, same, stepped⟩ := bind_eq_ok.mp read
            obtain rfl := asBstr_eq_ok.mp same
            obtain rfl := Except.ok.inj stepped
            exact .signer v
          · obtain ⟨v, same, stepped⟩ := bind_eq_ok.mp read
            obtain rfl := asUint_eq_ok.mp same
            obtain rfl := Except.ok.inj stepped
            exact .created v
          · obtain ⟨v, same, stepped⟩ := bind_eq_ok.mp read
            obtain rfl := asUint_eq_ok.mp same
            obtain rfl := Except.ok.inj stepped
            exact .effect v
          · obtain ⟨v, same, stepped⟩ := bind_eq_ok.mp read
            obtain ⟨rfl, bound⟩ := boundedCauses_eq_ok.mp same
            obtain rfl := Except.ok.inj stepped
            exact .causes v bound
          · obtain ⟨v, same, stepped⟩ := bind_eq_ok.mp read
            obtain rfl := asUint_eq_ok.mp same
            obtain rfl := Except.ok.inj stepped
            exact .profile v
          · obtain rfl := Except.ok.inj read
            exact .body v
          · obtain ⟨v, same, stepped⟩ := bind_eq_ok.mp read
            obtain ⟨rfl, bound⟩ := boundedMap_eq_ok.mp same
            obtain rfl := Except.ok.inj stepped
            exact .ext v bound
          · obtain ⟨v, same, stepped⟩ := bind_eq_ok.mp read
            obtain ⟨rfl, bound⟩ := boundedMap_eq_ok.mp same
            obtain rfl := Except.ok.inj stepped
            exact .cext v bound
          · obtain ⟨v, same, stepped⟩ := bind_eq_ok.mp read
            obtain rfl := asTstr_eq_ok.mp same
            obtain rfl := Except.ok.inj stepped
            exact .audience v
          · obtain ⟨v, same, stepped⟩ := bind_eq_ok.mp read
            obtain rfl := asUint_eq_ok.mp same
            obtain rfl := Except.ok.inj stepped
            exact .suite v
        · rw [readPair_unknown known] at read
          cases read
    | _ => cases read
  · intro reads
    cases reads with
    | causes v bound => simp +decide [BodyFields.readPair, boundedCauses_eq_ok.mpr ⟨rfl, bound⟩]
    | ext v bound => simp +decide [BodyFields.readPair, boundedMap_eq_ok.mpr ⟨rfl, bound⟩]
    | cext v bound => simp +decide [BodyFields.readPair, boundedMap_eq_ok.mpr ⟨rfl, bound⟩]
    | _ => rfl

/-- The loop variables hold what the pairs so far had under each key.
Witness: cases on the field; the pair is the first under its key, so it is what the map has
there.
-/
theorem readPair_hasRead {seen : List (Value × Value)} {pair : Value × Value} {s next : BodyFields}
    (held : HasRead seen s) (fresh : ∀ k, pair.1 = .u k → getField k seen = none)
    (read : s.readPair pair = .ok next)
    : HasRead (seen ++ [pair]) next := by
  have noCauses : pair.1 = .u fieldCauses → s.causes = none := by
    intro same
    simpa [held.causes] using fresh fieldCauses same
  cases readPair_eq_ok.mp read with
  | causes v bound =>
      constructor
      case causesBound => simpa [noCauses rfl] using bound
      case extBound => exact held.extBound
      case cextBound => exact held.cextBound
      all_goals simp +decide [getField_concat, noCauses, held.id, held.kind, held.channel,
        held.tier, held.signer, held.created, held.effect, held.profile, held.body, held.ext,
        held.cext, held.audience, held.suite]
  | ext v bound =>
      constructor
      case causesBound => exact held.causesBound
      case extBound => simpa using bound
      case cextBound => exact held.cextBound
      all_goals simp +decide [getField_concat, held.causes, held.id, held.kind, held.channel,
        held.tier, held.signer, held.created, held.effect, held.profile, held.body, held.cext,
        held.audience, held.suite]
  | cext v bound =>
      constructor
      case causesBound => exact held.causesBound
      case extBound => exact held.extBound
      case cextBound => simpa using bound
      all_goals simp +decide [getField_concat, held.causes, held.id, held.kind, held.channel,
        held.tier, held.signer, held.created, held.effect, held.profile, held.body, held.ext,
        held.audience, held.suite]
  | _ =>
      constructor
      case causesBound => exact held.causesBound
      case extBound => exact held.extBound
      case cextBound => exact held.cextBound
      all_goals simp +decide [getField_concat, held.causes, held.id, held.kind, held.channel,
        held.tier, held.signer, held.created, held.effect, held.profile, held.body, held.ext,
        held.cext, held.audience, held.suite]

/-- The loop over a whole map, whose keys are distinct. -/
theorem foldlM_readPair_hasRead {m : List (Value × Value)} {s : BodyFields}
    (distinct : (m.map encodedKey).Nodup) (read : m.foldlM BodyFields.readPair {} = .ok s)
    : HasRead m s := by
  refine foldlM_invariant ?_ ?_ read
  · intro seen pair rest s next same held stepped
    refine readPair_hasRead held ?_ stepped
    intro k isKey
    rw [same, List.map_append, List.map_cons, List.nodup_append] at distinct
    obtain ⟨distinctSeen, -, apart⟩ := distinct
    rw [getField_eq_none distinctSeen]
    intro v member
    have sameKey : encodedKey (.u k, v) = encodedKey pair := congrArg encoding isKey.symm
    exact apart _ (List.mem_map_of_mem member) _ List.mem_cons_self sameKey
  · exact ⟨.inr ⟨rfl, rfl⟩, rfl, rfl, rfl, rfl, rfl, rfl, rfl, nofun, rfl, rfl, rfl, nofun, rfl,
      nofun, .inr ⟨rfl, rfl⟩, .inr ⟨rfl, rfl⟩⟩

/-- Whether a pair is read does not depend on what was read before. -/
theorem readPair_ok_iff (s : BodyFields) (pair : Value × Value)
    : (∃ next, s.readPair pair = .ok next) ↔ ∃ next, Reads {} pair next := by
  simp only [readPair_eq_ok]
  constructor
  · intro reads
    obtain ⟨next, reads⟩ := reads
    cases reads
    all_goals exact ⟨_, by constructor; try assumption⟩
  · intro reads
    obtain ⟨next, reads⟩ := reads
    cases reads
    all_goals exact ⟨_, by constructor; try assumption⟩

/-- The fields of a Go object, as the Python object holds them. -/
def fieldsOf (g : Go.Envelope.Object) : Object where
  id := some g.id
  kind := g.kind
  channel := g.channel
  tier := g.tier
  signer := g.signer
  created := g.created
  effect := g.effect
  causes := g.causes
  profile := g.profile
  body := g.body
  ext := g.ext
  cext := g.cext
  audience := g.audience
  suite := g.suite

/-- What the loop has read when an object can be returned. -/
def completed (g : Go.Envelope.Object) : BodyFields where
  id := g.id
  kind := some g.kind
  channel := some g.channel
  tier := some g.tier
  signer := some g.signer
  created := some g.created
  effect := some g.effect
  causes := some g.causes
  profile := some g.profile
  body := some g.body
  ext := g.ext
  cext := g.cext
  audience := g.audience
  suite := g.suite

/-- The end of the loop returns an object exactly when every required field was set. -/
theorem finish_eq_ok {s : BodyFields} {g : Go.Envelope.Object}
    : s.finish = .ok g ↔ s = completed g := by
  constructor
  · intro finished
    unfold BodyFields.finish at finished
    split at finished
    · obtain rfl := Except.ok.inj finished
      rfl
    · cases finished
  · intro same
    rw [same]
    rfl

section Objects

variable {m : List (Value × Value)} {g : Go.Envelope.Object}

/-- An object that the loop completed is read from the map as Python reads it.
Witness: each variable of the loop has what stands under its key, which is what the Python
reader looks up.
-/
theorem HasRead.readFrom {id : Bytes} (held : HasRead m (completed g))
    (claimed : getField fieldId m = some (.b id))
    (known : ∀ pair ∈ m, ∃ fnum ∈ fieldNumbers, pair.1 = .u fnum)
    : ReadFrom m (fieldsOf g) where
  keys pair member := by
    obtain ⟨fnum, -, isKey⟩ := known pair member
    exact ⟨fnum, isKey⟩
  id := by
    rcases held.id with present | absent
    · rw [idOf, present]
      rfl
    · rw [absent.1] at claimed
      cases claimed
  kind := held.kind
  channel := held.channel
  tier := held.tier
  signer := held.signer
  created := held.created
  effect := held.effect
  causes := held.causes
  causesBound := held.causesBound _ rfl
  profile := held.profile
  body := held.body
  ext := held.ext
  extBound := held.extBound
  cext := held.cext
  cextBound := held.cextBound
  audience := held.audience
  suite := held.suite

/-- A pair that an object was read from is one that the Go loop reads, when it knows the field.
Witness: cases on the field; the value has the kind that Python asked for.
-/
theorem reads_of_readFrom {o : Object} {id : Bytes} (read : ReadFrom m o)
    (distinct : (m.map encodedKey).Nodup) (claimed : getField fieldId m = some (.b id))
    {fnum : Int} {v : Value} (known : fnum ∈ fieldNumbers) (member : (.u fnum, v) ∈ m)
    : ∃ next, Reads {} (.u fnum, v) next := by
  have field := (getField_eq_some distinct).mpr member
  simp only [fieldNumbers, List.mem_cons, List.not_mem_nil, or_false] at known
  rcases known with
    rfl | rfl | rfl | rfl | rfl | rfl | rfl | rfl | rfl | rfl | rfl | rfl | rfl | rfl
  · obtain rfl := Option.some.inj (field.symm.trans claimed)
    exact ⟨_, .id _⟩
  · obtain rfl := Option.some.inj (field.symm.trans read.kind)
    exact ⟨_, .kind _⟩
  · obtain rfl := Option.some.inj (field.symm.trans read.channel)
    exact ⟨_, .channel _⟩
  · obtain rfl := Option.some.inj (field.symm.trans read.tier)
    exact ⟨_, .tier _⟩
  · obtain rfl := Option.some.inj (field.symm.trans read.signer)
    exact ⟨_, .signer _⟩
  · obtain rfl := Option.some.inj (field.symm.trans read.created)
    exact ⟨_, .created _⟩
  · obtain rfl := Option.some.inj (field.symm.trans read.effect)
    exact ⟨_, .effect _⟩
  · obtain rfl := Option.some.inj (field.symm.trans read.causes)
    exact ⟨_, .causes _ read.causesBound⟩
  · obtain rfl := Option.some.inj (field.symm.trans read.profile)
    exact ⟨_, .profile _⟩
  · exact ⟨_, .body _⟩
  · obtain ⟨pairs, present, rfl⟩ := Option.map_eq_some_iff.mp (read.ext.symm.trans field)
    exact ⟨_, .ext pairs (read.extBound pairs present)⟩
  · obtain ⟨pairs, present, rfl⟩ := Option.map_eq_some_iff.mp (read.cext.symm.trans field)
    exact ⟨_, .cext pairs (read.cextBound pairs present)⟩
  · rcases read.audience with present | absent
    · obtain rfl := Option.some.inj (field.symm.trans present)
      exact ⟨_, .audience _⟩
    · rw [absent.1] at field
      cases field
  · rcases read.suite with present | absent
    · obtain rfl := Option.some.inj (field.symm.trans present)
      exact ⟨_, .suite _⟩
    · rw [absent.1] at field
      cases field

/-- The loop and the Python reader agree on every field, so the required ones were all seen.
Witness: the variable of a field has what the map has under its key, and so has the object.
-/
theorem eq_completed {s : BodyFields} (held : HasRead m s) (read : ReadFrom m (fieldsOf g))
    : s = completed g := by
  have uints : Function.Injective (Option.map Value.u) := Option.map_injective fun _ _ =>
    Value.u.inj
  have maps : Function.Injective (Option.map Value.m) := Option.map_injective fun _ _ => Value.m.inj
  have id : s.id = g.id := by
    have claimed := read.id
    rcases held.id with present | absent
    · rw [idOf, present] at claimed
      exact (Option.some.inj claimed).symm
    · rw [idOf, absent.1] at claimed
      cases claimed
  have signer : s.signer = some g.signer :=
    Option.map_injective (fun _ _ => Value.b.inj) (held.signer.symm.trans read.signer)
  have causes : s.causes = some g.causes := by
    have arrays : Function.Injective fun causes : List Bytes => Value.a (causes.map .b) :=
      fun _ _ same => List.map_injective_iff.mpr (fun _ _ => Value.b.inj) (Value.a.inj same)
    exact Option.map_injective arrays (held.causes.symm.trans read.causes)
  have audience : s.audience = g.audience := by
    have reading := read.audience
    rcases held.audience with present | absent
    · simpa [present, fieldsOf] using reading
    · simpa [absent, fieldsOf, eq_comm] using reading
  have suite : s.suite = g.suite := by
    have reading := read.suite
    rcases held.suite with present | absent
    · simpa [present, fieldsOf] using reading
    · simpa [absent, fieldsOf, eq_comm] using reading
  have kind : s.kind = some g.kind := uints (held.kind.symm.trans read.kind)
  have channel : s.channel = some g.channel := uints (held.channel.symm.trans read.channel)
  have tier : s.tier = some g.tier := uints (held.tier.symm.trans read.tier)
  have created : s.created = some g.created := uints (held.created.symm.trans read.created)
  have effect : s.effect = some g.effect := uints (held.effect.symm.trans read.effect)
  have profile : s.profile = some g.profile := uints (held.profile.symm.trans read.profile)
  have body : s.body = some g.body := held.body.symm.trans read.body
  have ext : s.ext = g.ext := maps (held.ext.symm.trans read.ext)
  have cext : s.cext = g.cext := maps (held.cext.symm.trans read.cext)
  cases s with
  | mk =>
      rw [completed, BodyFields.mk.injEq]
      exact ⟨id, kind, channel, tier, signer, created, effect, causes, profile, body, ext, cext,
        audience, suite⟩

theorem known_of_goObjectFromMap (object : Go.Envelope.objectFromMap m = .ok g)
    : ∀ pair ∈ m, ∃ fnum ∈ fieldNumbers, pair.1 = .u fnum := by
  obtain ⟨s, ran, -⟩ := bind_eq_ok.mp object
  intro pair member
  obtain ⟨_, reads⟩ := (foldlM_ok_iff readPair_ok_iff).mp ⟨s, ran⟩ pair member
  cases reads
  all_goals exact ⟨_, by decide, rfl⟩

/-- On a map that claims an id, Go reads the object that Python reads, when it knows every
field of the map.
-/
theorem goObjectFromMap_eq_ok {id : Bytes} (distinct : (m.map encodedKey).Nodup)
    (claimed : getField fieldId m = some (.b id))
    : Go.Envelope.objectFromMap m = .ok g
      ↔ (∀ pair ∈ m, ∃ fnum ∈ fieldNumbers, pair.1 = .u fnum)
        ∧ objectFromMap m = .ok (fieldsOf g) := by
  rw [objectFromMap_eq_ok]
  constructor
  · intro object
    have known := known_of_goObjectFromMap object
    obtain ⟨s, ran, finished⟩ := bind_eq_ok.mp object
    obtain rfl := finish_eq_ok.mp finished
    exact ⟨known, (foldlM_readPair_hasRead distinct ran).readFrom claimed known⟩
  · intro object
    obtain ⟨known, read⟩ := object
    have readable : ∀ pair ∈ m, ∃ next, Reads {} pair next := by
      intro pair member
      obtain ⟨k, v⟩ := pair
      obtain ⟨fnum, isKnown, rfl⟩ := known _ member
      exact reads_of_readFrom read distinct claimed isKnown member
    obtain ⟨s, ran⟩ := (foldlM_ok_iff readPair_ok_iff).mpr readable
    have same := eq_completed (foldlM_readPair_hasRead distinct ran) read
    exact bind_eq_ok.mpr ⟨s, ran, finish_eq_ok.mpr same⟩

end Objects

end Naalp.Implementations
