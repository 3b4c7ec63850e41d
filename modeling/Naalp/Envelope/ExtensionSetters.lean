import Naalp.Python.Extensions
import Naalp.Envelope.Resigning

/-! Sequences of calls of the extension setters. A call writes one entry of one of the two carriers,
so it leaves every other entry alone, and a getter sees the last entry that was written for it. The
one interplay is that of the re-check procedures: a critical one hides one that is not.
-/

namespace Naalp.Python.Envelope

open Naalp.Foundation
open Naalp.Python.Cbor
open Naalp.Python.Cose

-----------------------------------------------------------------------------------------
-- Writing one entry of a carrier
-----------------------------------------------------------------------------------------

section Entries

variable {key key' : Int} {v : Value} {entry : Value × Value} {pairs pairs' : List (Value × Value)}
  {carrier : Option (List (Value × Value))}

/-- The value of the first entry under a key. -/
def valueAt (key : Int) (carrier : Option (List (Value × Value))) : Option Value :=
  ((carrier.getD []).find? (hasKey key)).map Prod.snd

theorem hasKey_iff : hasKey key entry ↔ entry.1 = .u key := by
  obtain ⟨k, v⟩ := entry
  cases k <;> simp [hasKey]

/-- What the setters make of one entry. -/
def replaceEntry (key : Int) (v : Value) (entry : Value × Value) : Value × Value :=
  if hasKey key entry then (.u key, v) else entry

theorem replaceEntry_fst : (replaceEntry key v entry).1 = entry.1 := by
  unfold replaceEntry
  split
  case isTrue named => exact (hasKey_iff.mp named).symm
  case isFalse => rfl

theorem hasKey_replaceEntry : hasKey key' (replaceEntry key v entry) = hasKey key' entry := by
  rw [Bool.eq_iff_iff, hasKey_iff, hasKey_iff, replaceEntry_fst]

theorem replaceEntry_of_ne (other : key' ≠ key) (named : hasKey key' entry)
    : replaceEntry key v entry = entry := by
  refine if_neg ?_
  intro same
  have both := (hasKey_iff.mp named).symm.trans (hasKey_iff.mp same)
  exact other (Value.u.inj both)

/-- Either the entries under the key are replaced, or there is none and one is appended. -/
theorem setEntry_cases (key : Int) (v : Value) (carrier : Option (List (Value × Value)))
    : ((∃ entry ∈ carrier.getD [], hasKey key entry)
        ∧ setEntry key v carrier = (carrier.getD []).map (replaceEntry key v))
      ∨ ((∀ entry ∈ carrier.getD [], ¬ hasKey key entry)
        ∧ setEntry key v carrier = carrier.getD [] ++ [(.u key, v)]) := by
  cases carrier with
  | none => exact .inr ⟨nofun, rfl⟩
  | some pairs =>
      by_cases present : ∃ entry ∈ pairs, hasKey key entry
      · exact .inl ⟨present, if_pos (List.any_eq_true.mpr present)⟩
      · have absent : ∀ entry ∈ pairs, ¬ hasKey key entry :=
          fun entry member named => present ⟨entry, member, named⟩
        have unchanged : pairs.map (replaceEntry key v) = pairs := by
          conv_rhs => rw [← List.map_id pairs]
          exact List.map_congr_left fun entry member => if_neg (absent entry member)
        refine .inr ⟨absent, ?_⟩
        have appended : setEntry key v (some pairs)
            = pairs.map (replaceEntry key v) ++ [(.u key, v)] :=
          if_neg fun some => present (List.any_eq_true.mp some)
        rw [appended, unchanged, Option.getD_some]

/-- The entry that was written is found. -/
theorem valueAt_setEntry : valueAt key (some (setEntry key v carrier)) = some v := by
  rw [valueAt, Option.getD_some]
  rcases setEntry_cases key v carrier with ⟨present, written⟩ | ⟨absent, written⟩
  · have sameKeys : hasKey key ∘ replaceEntry key v = hasKey key :=
      funext fun entry => hasKey_replaceEntry
    obtain ⟨entry, found⟩ := Option.isSome_iff_exists.mp (List.find?_isSome.mpr present)
    rw [written, List.find?_map, sameKeys, found, Option.map_some, replaceEntry,
      if_pos (List.find?_some found), Option.map_some]
  · have named : hasKey key (Value.u key, v) := hasKey_iff.mpr rfl
    rw [written, List.find?_append, List.find?_eq_none.mpr absent, Option.none_or,
      List.find?_singleton, if_pos named, Option.map_some]

/-- Setting a key leaves what is under every other key. -/
theorem valueAt_setEntry_of_ne (other : key' ≠ key)
    : valueAt key' (some (setEntry key v carrier)) = valueAt key' carrier := by
  rw [valueAt, Option.getD_some, valueAt]
  rcases setEntry_cases key v carrier with ⟨-, written⟩ | ⟨-, written⟩
  · have sameKeys : hasKey key' ∘ replaceEntry key v = hasKey key' :=
      funext fun entry => hasKey_replaceEntry
    rw [written, List.find?_map, sameKeys]
    cases found : (carrier.getD []).find? (hasKey key') with
    | none => rfl
    | some entry => rw [Option.map_some, replaceEntry_of_ne other (List.find?_some found)]
  · have notNamed : ¬ hasKey key' (Value.u key, v) :=
      fun named => other (Value.u.inj (hasKey_iff.mp named)).symm
    rw [written, List.find?_append, List.find?_singleton, if_neg notNamed, Option.or_none]

/-- An entry after a set is the one that was set or was there before. -/
theorem mem_setEntry (member : entry ∈ setEntry key v carrier)
    : entry = (.u key, v) ∨ entry ∈ carrier.getD [] := by
  rcases setEntry_cases key v carrier with ⟨-, written⟩ | ⟨-, written⟩
  · rw [written] at member
    obtain ⟨earlier, present, rfl⟩ := List.mem_map.mp member
    unfold replaceEntry
    split
    · exact .inl rfl
    · exact .inr present
  · rw [written] at member
    rcases List.mem_append.mp member with present | new
    · exact .inr present
    · exact .inl (List.mem_singleton.mp new)

theorem length_le_setEntry : (carrier.getD []).length ≤ (setEntry key v carrier).length := by
  rcases setEntry_cases key v carrier with ⟨-, written⟩ | ⟨-, written⟩ <;> simp [written]

/-- The entries that a test tells from those under the key are kept, in their order. -/
theorem filter_setEntry {kept : Value × Value → Bool}
    (tells : ∀ entry, hasKey key entry → ¬ kept entry)
    : (setEntry key v carrier).filter kept = (carrier.getD []).filter kept := by
  rcases setEntry_cases key v carrier with ⟨-, written⟩ | ⟨-, written⟩
  · have sameTest : kept ∘ replaceEntry key v = kept := by
      funext entry
      unfold Function.comp replaceEntry
      split
      case isTrue named =>
        have written : kept (.u key, v) = false := by
          simpa using tells (.u key, v) (hasKey_iff.mpr rfl)
        have before : kept entry = false := by simpa using tells entry named
        rw [written, before]
      case isFalse => rfl
    rw [written, List.filter_map, sameTest]
    conv_rhs => rw [← List.map_id ((carrier.getD []).filter kept)]
    refine List.map_congr_left fun entry member => if_neg ?_
    intro named
    exact tells entry named (List.mem_filter.mp member).2
  · have notKept : ¬ kept (.u key, v) := tells _ (hasKey_iff.mpr rfl)
    rw [written, List.filter_append, List.filter_cons_of_neg notKept, List.filter_nil,
      List.append_nil]

/-- Distinct keys stay distinct, in any reading of the keys that tells the written one apart. -/
theorem nodup_setEntry {κ : Type} {reading : Value → κ}
    (tells : ∀ entry ∈ carrier.getD [], reading entry.1 = reading (.u key) → hasKey key entry)
    (distinct : ((carrier.getD []).map fun entry => reading entry.1).Nodup)
    : ((setEntry key v carrier).map fun entry => reading entry.1).Nodup := by
  rcases setEntry_cases key v carrier with ⟨-, written⟩ | ⟨absent, written⟩
  · rw [written, List.map_map]
    simpa only [Function.comp_def, replaceEntry_fst] using distinct
  · rw [written, List.map_append, List.map_singleton]
    refine List.nodup_append.mpr ⟨distinct, List.nodup_singleton _, ?_⟩
    intro k member k' member' same
    obtain ⟨entry, present, rfl⟩ := List.mem_map.mp member
    rw [List.mem_singleton.mp member'] at same
    exact absent entry present (tells entry present same)

/-- A key that is encoded like an unsigned integer is that integer. -/
theorem u_of_encoding {k : Value} (encodable : Encodable k) (inRange : 0 ≤ key ∧ key < 2 ^ 64)
    (same : encoding k = encoding (.u key)) : k = .u key := by
  have written : encode (.u key) = .ok (encoding k) := same ▸ encodable_u.mpr inRange
  have decoded := decodeBounded_encode encodable (Nat.le_refl (depth k))
  have sorted := eq_sortMaps_of_decoded written decoded
  cases k <;> simp_all [sortMaps]

/-- Setting a value that can be encoded leaves a carrier that can be. -/
theorem encodable_setEntry (inRange : 0 ≤ key ∧ key < 2 ^ 64) (value : Encodable v)
    (encodable : Encodable (.m (carrier.getD [])))
    (countable : (setEntry key v carrier).length < 2 ^ 64)
    : Encodable (.m (setEntry key v carrier)) := by
  obtain ⟨-, members, distinct⟩ := encodable_m.mp encodable
  refine encodable_m.mpr ⟨countable, ?_, ?_⟩
  · intro entry member
    rcases mem_setEntry member with rfl | present
    · exact ⟨encodable_u.mpr inRange, value⟩
    · exact members entry present
  · refine nodup_setEntry ?_ distinct
    intro entry present same
    exact hasKey_iff.mpr (u_of_encoding (members entry present).1 inRange same)

end Entries

-----------------------------------------------------------------------------------------
-- Sequences of calls
-----------------------------------------------------------------------------------------

/-- A call of one of the three setters. -/
inductive SetCall where
  | recheck (procId : Int) (critical : Bool)
  | signerCounter (seq : Int)
  | producingBoundary (pb : ProducingBoundary)

def SetCall.apply (o : Object) : SetCall → Object
  | .recheck procId critical => o.setRecheck procId critical
  | .signerCounter seq => o.setSignerCounter seq
  | .producingBoundary pb => setProducingBoundary o pb

def Object.afterSets (o : Object) (calls : List SetCall) : Object :=
  calls.foldl SetCall.apply o

/-- The values that the setters are for: unsigned 64-bit numbers, and a boundary that names its
party and has a report's origin only when it is reporting.
-/
def SetCall.InRange : SetCall → Prop
  | .recheck procId _ => 0 ≤ procId ∧ procId < 2 ^ 64
  | .signerCounter seq => 0 ≤ seq ∧ seq < 2 ^ 64
  | .producingBoundary pb =>
      pb.boundary ≠ [] ∧ pb.boundary.length < 2 ^ 64
      ∧ (pb.kind = producingBoundaryObserved ∨ pb.kind = producingBoundaryReported)
      ∧ ∀ reporting, pb.reporting = some reporting →
          pb.kind = producingBoundaryReported ∧ reporting.length < 2 ^ 64

def SetCall.counter? : SetCall → Option Int
  | .signerCounter seq => some seq
  | _ => none

def SetCall.boundary? : SetCall → Option ProducingBoundary
  | .producingBoundary pb => some pb
  | _ => none

/-- The procedure that the call names in the critical carrier, or in the other. -/
def SetCall.recheck? (inCext : Bool) : SetCall → Option Int
  | .recheck procId critical => if critical = inCext then some procId else none
  | _ => none

/-- The last of the values that some of the calls set. -/
def lastSet {α : Type} (value : SetCall → Option α) (calls : List SetCall) : Option α :=
  (calls.filterMap value).getLast?

/-- The carrier and the entry that a call writes. -/
def SetCall.critical : SetCall → Bool
  | .recheck _ critical => critical
  | _ => false

def SetCall.key : SetCall → Int
  | .recheck _ _ => recheckKey
  | .signerCounter _ => signerCounterKey
  | .producingBoundary _ => producingBoundaryKey

def SetCall.value : SetCall → Value
  | .recheck procId _ => .u procId
  | .signerCounter seq => .u seq
  | .producingBoundary pb => pb.value

def Object.carrier (o : Object) (critical : Bool) : Option (List (Value × Value)) :=
  if critical then o.cext else o.ext

/-- What a call writes into the entry under a key of a carrier. -/
def SetCall.writes (critical : Bool) (key : Int) (call : SetCall) : Option Value :=
  if call.critical = critical ∧ call.key = key then some call.value else none

section Calls

variable {o : Object} {call : SetCall} {calls : List SetCall} {critical : Bool} {key : Int}

theorem lastSet_cons {α : Type} {value : SetCall → Option α}
    : lastSet value (call :: calls) = (lastSet value calls).or (value call) := by
  unfold lastSet
  cases written : value call with
  | none => rw [List.filterMap_cons_none written, Option.or_none]
  | some v =>
      rw [List.filterMap_cons_some written, List.getLast?_cons]
      cases (calls.filterMap value).getLast? <;> rfl

theorem mem_of_lastSet {α : Type} {value : SetCall → Option α} {v : α}
    (last : lastSet value calls = some v) : ∃ call ∈ calls, value call = some v :=
  List.mem_filterMap.mp (List.mem_of_getLast? last)

theorem lastSet_map {α β : Type} {value : SetCall → Option α} {f : α → β}
    : lastSet (fun call => (value call).map f) calls = (lastSet value calls).map f := by
  induction calls with
  | nil => rfl
  | cons call calls ih =>
      rw [lastSet_cons, lastSet_cons, ih]
      cases lastSet value calls <;> rfl

/-- A call changes one entry of one carrier and nothing else. -/
theorem apply_eq (o : Object) (call : SetCall)
    : call.apply o = if call.critical
        then { o with cext := some (setEntry call.key call.value o.cext) }
        else { o with ext := some (setEntry call.key call.value o.ext) } := by
  cases call <;> rfl

theorem carrier_apply
    : (call.apply o).carrier critical = if call.critical = critical
        then some (setEntry call.key call.value (o.carrier critical)) else o.carrier critical := by
  rw [apply_eq]
  cases critical <;> cases same : call.critical <;> simp [Object.carrier]

/-- Under every key of either carrier stands what was written there last, by induction on the calls.
-/
theorem valueAt_afterSets
    : valueAt key ((o.afterSets calls).carrier critical)
      = (lastSet (SetCall.writes critical key) calls).or (valueAt key (o.carrier critical)) := by
  induction calls generalizing o with
  | nil => rfl
  | cons call calls ih =>
      have after : valueAt key ((call.apply o).carrier critical)
          = (call.writes critical key).or (valueAt key (o.carrier critical)) := by
        rw [carrier_apply, SetCall.writes]
        by_cases here : call.critical = critical
        · rw [if_pos here]
          by_cases named : call.key = key
          · subst named
            rw [if_pos ⟨here, rfl⟩, valueAt_setEntry, Option.some_or]
          · rw [if_neg fun both => named both.2, Option.none_or,
              valueAt_setEntry_of_ne fun same => named same.symm]
        · rw [if_neg here, if_neg fun both => here both.1, Option.none_or]
      rw [Object.afterSets, List.foldl_cons, ← Object.afterSets, ih, after, lastSet_cons,
        Option.or_assoc]

/-- The fields other than the carriers stay. -/
theorem afterSets_eq (o : Object) (calls : List SetCall)
    : ∃ ext cext, o.afterSets calls = { o with ext, cext } := by
  induction calls generalizing o with
  | nil => exact ⟨o.ext, o.cext, rfl⟩
  | cons call calls ih =>
      obtain ⟨ext, cext, after⟩ := ih (call.apply o)
      refine ⟨ext, cext, ?_⟩
      rw [Object.afterSets, List.foldl_cons, ← Object.afterSets, after, apply_eq]
      split <;> rfl

/-- The entry is under a key that one of the calls writes in the carrier. -/
def Written (critical : Bool) (calls : List SetCall) (entry : Value × Value) : Bool :=
  calls.any fun call => call.critical = critical && hasKey call.key entry

/-- The entries that no call writes stay as they are and in order, by induction on the calls.
-/
theorem filter_afterSets
    : (((o.afterSets calls).carrier critical).getD []).filter (! Written critical calls ·)
      = ((o.carrier critical).getD []).filter (! Written critical calls ·) := by
  have general (kept : Value × Value → Bool)
      (tells : ∀ call ∈ calls, call.critical = critical → ∀ entry, hasKey call.key entry
        → ¬ kept entry)
      : (((o.afterSets calls).carrier critical).getD []).filter kept
        = ((o.carrier critical).getD []).filter kept := by
    induction calls generalizing o with
    | nil => rfl
    | cons call calls ih =>
        obtain ⟨first, later⟩ := List.forall_mem_cons.mp tells
        rw [Object.afterSets, List.foldl_cons, ← Object.afterSets, ih later, carrier_apply]
        split
        case isTrue here => exact filter_setEntry (first here)
        case isFalse => rfl
  refine general _ ?_
  intro call member here entry named
  have written : Written critical calls entry :=
    List.any_eq_true.mpr ⟨call, member, by simp [here, named]⟩
  simp [written]

/-- The keys of a carrier stay different, by induction on the calls. -/
theorem nodup_afterSets (distinct : (((o.carrier critical).getD []).map Prod.fst).Nodup)
    : ((((o.afterSets calls).carrier critical).getD []).map Prod.fst).Nodup := by
  induction calls generalizing o with
  | nil => exact distinct
  | cons call calls ih =>
      refine ih ?_
      rw [carrier_apply]
      split
      · exact @nodup_setEntry _ _ _ _ id (fun entry _ same => hasKey_iff.mpr same) distinct
      · exact distinct

end Calls

-----------------------------------------------------------------------------------------
-- What the getters read
-----------------------------------------------------------------------------------------

def uintOf : Value → Option Int
  | .u v => some v
  | _ => none

/-- The disclosure that a value is, if it is well formed. -/
def disclosureOf : Value → Option ProducingBoundary
  | .m val => (val.foldlM BoundaryFields.read {}).bind BoundaryFields.wellFormed
  | _ => none

/-- Each getter reads the value under its key. -/
theorem cextGetUint_eq {m : Option (List (Value × Value))} {key : Int}
    : cextGetUint m key = (valueAt key m).bind uintOf := by
  cases m with
  | none => rfl
  | some pairs =>
      rw [cextGetUint, valueAt, Option.getD_some]
      cases found : pairs.find? (hasKey key) with
      | none => simp [found]
      | some entry =>
          obtain ⟨k, v⟩ := entry
          cases v <;> simp [found, uintOf]

/-- The boundary that is read is what the entry under its key discloses; the reading itself
never raises.
-/
theorem producingBoundary_eq {o : Object}
    : producingBoundary o = .ok ((valueAt producingBoundaryKey o.ext).bind disclosureOf) := by
  unfold producingBoundary valueAt
  cases o.ext with
  | none => rfl
  | some pairs =>
      rw [Option.getD_some]
      cases found : pairs.find? (hasKey producingBoundaryKey) with
      | none => simp [found, pure_eq_ok]
      | some entry =>
          obtain ⟨k, v⟩ := entry
          cases v with
          | m val =>
              cases read : val.foldlM BoundaryFields.read {} <;>
                simp [found, disclosureOf, read, pure_eq_ok]
          | _ => simp [found, disclosureOf, pure_eq_ok]

/-- A boundary in range is read back from what the setter writes. -/
theorem disclosureOf_value {pb : ProducingBoundary}
    (inRange : (SetCall.producingBoundary pb).InRange) : disclosureOf pb.value = some pb := by
  obtain ⟨boundary, kind, reporting⟩ := pb
  obtain ⟨named, -, listed, origin⟩ := inRange
  cases reporting with
  | none =>
      rcases listed with rfl | rfl <;>
        simp_all [ProducingBoundary.value, disclosureOf, BoundaryFields.read,
          BoundaryFields.wellFormed, pbFieldBoundary, pbFieldKind, guard]
  | some reporting =>
      obtain ⟨rfl, -⟩ := origin reporting rfl
      simp_all [ProducingBoundary.value, disclosureOf, BoundaryFields.read,
        BoundaryFields.wellFormed, pbFieldBoundary, pbFieldKind, pbFieldReporting, guard]

-----------------------------------------------------------------------------------------
-- The same object with its maps in order
-----------------------------------------------------------------------------------------

section Sorted

variable {key : Int} {pairs : List (Value × Value)}

/-- The one entry that passes a test is found in any order of the entries. -/
theorem find?_of_perm {α : Type} {p : α → Bool} {l l' : List α} (perm : l.Perm l')
    (single : ∀ a ∈ l, ∀ b ∈ l, p a → p b → a = b) : l.find? p = l'.find? p := by
  cases found : l.find? p with
  | none =>
      have fails := List.find?_eq_none.mp found
      exact (List.find?_eq_none.mpr fun a member => fails a (perm.mem_iff.mpr member)).symm
  | some a =>
      have member := List.mem_of_find?_eq_some found
      obtain ⟨b, found'⟩ := Option.isSome_iff_exists.mp
        (List.find?_isSome.mpr ⟨a, perm.mem_iff.mp member, List.find?_some found⟩)
      have member' := perm.mem_iff.mpr (List.mem_of_find?_eq_some found')
      rw [found', single a member b member' (List.find?_some found) (List.find?_some found')]

/-- Rounds that commute take the entries in any order to the same end. -/
theorem foldlM_of_perm {σ α : Type} {round : σ → α → Option σ} {l l' : List α} (perm : l.Perm l')
    (commute : ∀ a ∈ l, ∀ b ∈ l, ∀ s, (round s a).bind (round · b) = (round s b).bind (round · a))
    (start : σ) : l.foldlM round start = l'.foldlM round start := by
  induction perm generalizing start with
  | nil => rfl
  | cons a _ ih =>
      simp only [List.foldlM_cons]
      refine congrArg (round start a >>= ·) (funext fun s => ih ?_ s)
      exact fun b member c member' =>
        commute b (List.mem_cons_of_mem _ member) c (List.mem_cons_of_mem _ member')
  | swap a b l =>
      simp only [List.foldlM_cons, ← bind_assoc]
      refine congrArg (· >>= fun s => l.foldlM round s) ?_
      exact commute b List.mem_cons_self a (List.mem_cons_of_mem _ List.mem_cons_self) start
  | trans first _ ih ih' =>
      refine (ih commute start).trans (ih' ?_ start)
      exact fun a member b member' =>
        commute a (first.mem_iff.mpr member) b (first.mem_iff.mpr member')

theorem hasKey_sortMaps {entry : Value × Value}
    : hasKey key (Prod.map sortMaps sortMaps entry) = hasKey key entry := by
  obtain ⟨k, v⟩ := entry
  cases k <;> simp [hasKey, sortMaps]

theorem uintOf_sortMaps {v : Value} : uintOf (sortMaps v) = uintOf v := by
  cases v <;> simp [uintOf, sortMaps]

theorem read_sortMaps {fields : BoundaryFields} {entry : Value × Value}
    : fields.read (Prod.map sortMaps sortMaps entry) = fields.read entry := by
  obtain ⟨k, v⟩ := entry
  cases k <;> cases v <;> simp [BoundaryFields.read, sortMaps]

/-- What one entry of a disclosure sets, `none` where the loop returns. -/
def fieldsOf (entry : Value × Value) : Option BoundaryFields := BoundaryFields.read {} entry

/-- The later fields over the earlier ones. -/
def BoundaryFields.over (later earlier : BoundaryFields) : BoundaryFields where
  boundary := later.boundary.or earlier.boundary
  kind := later.kind.or earlier.kind
  reporting := later.reporting.or earlier.reporting

theorem read_eq (fields : BoundaryFields) (entry : Value × Value)
    : fields.read entry = (fieldsOf entry).map (·.over fields) := by
  obtain ⟨k, v⟩ := entry
  cases k with
  | u k =>
      simp only [fieldsOf, BoundaryFields.read]
      split_ifs <;> cases v <;> rfl
  | _ => rfl

/-- An entry sets at most the field of its key. -/
theorem fieldsOf_cases {entry : Value × Value} {set : BoundaryFields}
    (sets : fieldsOf entry = some set)
    : (entry.1 = .u pbFieldBoundary ∧ ∃ boundary, set = { boundary := some boundary })
      ∨ (entry.1 = .u pbFieldKind ∧ ∃ kind, set = { kind := some kind })
      ∨ (entry.1 = .u pbFieldReporting ∧ ∃ reporting, set = { reporting := some reporting })
      ∨ set = {} := by
  obtain ⟨k, v⟩ := entry
  cases k with
  | u k =>
      unfold fieldsOf BoundaryFields.read at sets
      simp only at sets
      split at sets
      · rename_i named
        cases v with
        | b boundary => exact .inl ⟨congrArg Value.u named, boundary, (Option.some.inj sets).symm⟩
        | _ => cases sets
      · split at sets
        · rename_i named
          cases v with
          | u kind =>
              exact .inr (.inl ⟨congrArg Value.u named, kind, (Option.some.inj sets).symm⟩)
          | _ => cases sets
        · split at sets
          · rename_i named
            cases v with
            | b reporting =>
                exact .inr (.inr (.inl
                  ⟨congrArg Value.u named, reporting, (Option.some.inj sets).symm⟩))
            | _ => cases sets
          · exact .inr (.inr (.inr (Option.some.inj sets).symm))
  | _ => cases sets

/-- Entries with different keys do not set the same field. -/
theorem over_comm {entry entry' : Value × Value} {set set' : BoundaryFields}
    (different : entry.1 ≠ entry'.1) (sets : fieldsOf entry = some set)
    (sets' : fieldsOf entry' = some set') (fields : BoundaryFields)
    : set.over (set'.over fields) = set'.over (set.over fields) := by
  rcases fieldsOf_cases sets with ⟨named, _, rfl⟩ | ⟨named, _, rfl⟩ | ⟨named, _, rfl⟩ | rfl <;>
    rcases fieldsOf_cases sets' with ⟨named', _, rfl⟩ | ⟨named', _, rfl⟩ | ⟨named', _, rfl⟩ | rfl
  all_goals first
    | rfl
    | exact (different (named.trans named'.symm)).elim

/-- The fields of a boundary can be read in any order, as long as the keys are different. -/
theorem read_commute {entry entry' : Value × Value} (different : entry.1 ≠ entry'.1)
    (fields : BoundaryFields)
    : (fields.read entry).bind (·.read entry') = (fields.read entry').bind (·.read entry) := by
  simp only [read_eq]
  cases sets : fieldsOf entry with
  | none => cases fieldsOf entry' <;> rfl
  | some set =>
      cases sets' : fieldsOf entry' with
      | none => rfl
      | some set' => exact congrArg some (over_comm different sets sets' fields).symm

/-- A disclosure that can be encoded is read the same with its maps in order.
Witness: the reading folds over the entries, and entries under distinct keys commute.
-/
theorem disclosureOf_sortMaps {v : Value} (encodable : Encodable v)
    : disclosureOf (sortMaps v) = disclosureOf v := by
  cases v with
  | m val =>
      have distinct := (encodable_m.mp encodable).2.2
      have perm : (sortPairs (sortMapsPairs val)).Perm (val.map (Prod.map sortMaps sortMaps)) :=
        sortMapsPairs_eq_map val ▸ sortPairs_perm _
      have reordered : (sortPairs (sortMapsPairs val)).foldlM BoundaryFields.read {}
          = val.foldlM BoundaryFields.read {} := by
        rw [← foldlM_of_perm perm.symm, List.foldlM_map]
        · simp only [read_sortMaps]
        · intro entry member entry' member' fields
          obtain ⟨before, present, rfl⟩ := List.mem_map.mp member
          obtain ⟨before', present', rfl⟩ := List.mem_map.mp member'
          simp only [read_sortMaps]
          by_cases same : before = before'
          · rw [same]
          · refine read_commute ?_ fields
            intro sameKey
            exact same (List.inj_on_of_nodup_map distinct present present'
              (congrArg encoding sameKey))
      rw [sortMaps, disclosureOf, disclosureOf, reordered]
  | _ => simp [disclosureOf, sortMaps]

/-- Sorting an extension map sorts the value under each key, and moves none to another key. -/
theorem valueAt_sortExtension {ext : Option (List (Value × Value))}
    (encodable : ∀ pairs, ext = some pairs → Encodable (.m pairs))
    : valueAt key (sortExtension ext) = (valueAt key ext).map sortMaps := by
  cases ext with
  | none => rfl
  | some pairs =>
      have distinct := (encodable_m.mp (encodable pairs rfl)).2.2
      have perm : (sortPairs (sortMapsPairs pairs)).Perm (pairs.map (Prod.map sortMaps sortMaps)) :=
        sortMapsPairs_eq_map pairs ▸ sortPairs_perm _
      have single : ∀ a ∈ pairs.map (Prod.map sortMaps sortMaps),
          ∀ b ∈ pairs.map (Prod.map sortMaps sortMaps), hasKey key a → hasKey key b → a = b := by
        intro a member b member' named named'
        obtain ⟨entry, present, rfl⟩ := List.mem_map.mp member
        obtain ⟨entry', present', rfl⟩ := List.mem_map.mp member'
        rw [hasKey_sortMaps, hasKey_iff] at named named'
        have same := congrArg encoding (named.trans named'.symm)
        rw [List.inj_on_of_nodup_map distinct present present' same]
      have sameKeys : hasKey key ∘ Prod.map sortMaps sortMaps = hasKey key :=
        funext fun entry => hasKey_sortMaps
      rw [sortExtension, Option.map_some, valueAt, valueAt, Option.getD_some, Option.getD_some,
        ← find?_of_perm perm.symm single, List.find?_map, sameKeys, Option.map_map, Option.map_map]
      rfl

/-- The getters read the same on an object with its maps in order. -/
theorem getters_sorted {o : Object} (encodable : Encodable (.m o.fieldPairs))
    : o.sorted.recheck = o.recheck ∧ o.sorted.signerCounter = o.signerCounter
      ∧ producingBoundary o.sorted = producingBoundary o := by
  have members := (encodable_m.mp encodable).2.1
  have ext : ∀ pairs, o.ext = some pairs → Encodable (.m pairs) := fun pairs present =>
    (members (.u fieldExt, .m pairs) (by simp [mem_fieldPairs, present])).2
  have cext : ∀ pairs, o.cext = some pairs → Encodable (.m pairs) := fun pairs present =>
    (members (.u fieldCext, .m pairs) (by simp [mem_fieldPairs, present])).2
  have uint (key : Int) {carrier : Option (List (Value × Value))}
      (encodable : ∀ pairs, carrier = some pairs → Encodable (.m pairs))
      : cextGetUint (sortExtension carrier) key = cextGetUint carrier key := by
    rw [cextGetUint_eq, cextGetUint_eq, valueAt_sortExtension encodable, Option.bind_map]
    exact congrArg (valueAt key carrier).bind (funext fun v => uintOf_sortMaps)
  refine ⟨?_, uint signerCounterKey ext, ?_⟩
  · unfold Object.recheck
    rw [show o.sorted.cext = sortExtension o.cext from rfl, uint recheckKey cext,
      show o.sorted.ext = sortExtension o.ext from rfl, uint recheckKey ext]
  · rw [producingBoundary_eq, producingBoundary_eq,
      show o.sorted.ext = sortExtension o.ext from rfl,
      valueAt_sortExtension ext, Option.bind_map]
    cases found : valueAt producingBoundaryKey o.ext with
    | none => rfl
    | some v =>
        obtain ⟨entry, first, rfl⟩ := Option.map_eq_some_iff.mp found
        cases present : o.ext with
        | none => simp [present] at first
        | some pairs =>
            rw [present, Option.getD_some] at first
            have member := (encodable_m.mp (ext pairs present)).2.1 entry
              (List.mem_of_find?_eq_some first)
            exact congrArg Except.ok (disclosureOf_sortMaps member.2)

end Sorted

-----------------------------------------------------------------------------------------
-- The object stays encodable
-----------------------------------------------------------------------------------------

section Encodability

variable {o : Object} {call : SetCall} {calls : List SetCall} {critical : Bool}

/-- An object has a content id exactly when its fields can be encoded. -/
theorem contentId_ok_iff : (∃ id, o.contentId = .ok id) ↔ Encodable (.m o.fieldPairs) := by
  have computed : o.contentId = Cbor.contentId (.m o.fieldPairs) := rfl
  simp only [computed, Cbor.contentId, bind_eq_ok, pure_eq_ok, Except.ok.injEq]
  constructor
  · intro identified
    obtain ⟨-, octets, encoded, -⟩ := identified
    exact (encode_eq_ok.mp encoded).1
  · intro encodable
    exact ⟨_, _, encodable, rfl⟩

/-- Beside the setters' entries a carrier gains nothing, so at most three entries.
Witness: the entries that are no setter's are kept, and the setters have three keys.
-/
theorem length_afterSets (distinct : (((o.carrier critical).getD []).map Prod.fst).Nodup)
    : (((o.afterSets calls).carrier critical).getD []).length
      ≤ ((o.carrier critical).getD []).length + 3 := by
  have kept := congrArg List.length (@filter_afterSets o calls critical)
  have fewer := List.length_filter_le (! Written critical calls ·) ((o.carrier critical).getD [])
  have written : ((((o.afterSets calls).carrier critical).getD []).filter
      (Written critical calls)).length ≤ 3 := by
    have once : ((((o.afterSets calls).carrier critical).getD []).filter
        (Written critical calls)).map Prod.fst |>.Nodup :=
      (nodup_afterSets distinct).sublist (List.filter_sublist.map Prod.fst)
    have listed : (((((o.afterSets calls).carrier critical).getD []).filter
        (Written critical calls)).map Prod.fst)
          ⊆ [.u recheckKey, .u signerCounterKey, .u producingBoundaryKey] := by
      intro k member
      obtain ⟨entry, present, rfl⟩ := List.mem_map.mp member
      obtain ⟨call, -, named⟩ := List.any_eq_true.mp (List.mem_filter.mp present).2
      rw [Bool.and_eq_true] at named
      rw [hasKey_iff.mp named.2]
      cases call <;> simp [SetCall.key]
    have few := (List.subperm_of_subset once listed).length_le
    rwa [List.length_map] at few
  rw [List.length_eq_length_filter_add (Written critical calls)]
  omega

/-- Calls only add entries, by induction on them. -/
theorem length_le_afterSets
    : ((o.carrier critical).getD []).length
      ≤ (((o.afterSets calls).carrier critical).getD []).length := by
  induction calls generalizing o with
  | nil => exact Nat.le_refl _
  | cons call calls ih =>
      refine Nat.le_trans ?_ ih
      rw [carrier_apply]
      split
      · exact length_le_setEntry
      · exact Nat.le_refl _

/-- What a call in range writes can be encoded. -/
theorem encodable_value (inRange : call.InRange) : Encodable call.value := by
  cases call with
  | recheck procId critical => exact encodable_u.mpr inRange
  | signerCounter seq => exact encodable_u.mpr inRange
  | producingBoundary pb =>
      obtain ⟨boundary, kind, reporting⟩ := pb
      obtain ⟨-, short, listed, origin⟩ := inRange
      have kindRange : 0 ≤ kind ∧ kind < 2 ^ 64 := by
        rcases listed with same | same <;>
          simp_all [producingBoundaryObserved, producingBoundaryReported]
      have two : Encodable (.m [(.u pbFieldBoundary, .b boundary), (.u pbFieldKind, .u kind)]) := by
        have keys : [encoding (.u pbFieldBoundary), encoding (.u pbFieldKind)].Nodup := by decide
        refine encodable_m.mpr ⟨by simp, ?_, keys⟩
        simp only [List.forall_mem_cons]
        exact ⟨⟨rfl, encodable_b.mpr short⟩, ⟨rfl, encodable_u.mpr kindRange⟩, nofun⟩
      cases reporting with
      | none => exact two
      | some reporting =>
          obtain ⟨rfl, short'⟩ := origin reporting rfl
          have three : Encodable (.m [(.u pbFieldBoundary, .b boundary),
              (.u pbFieldKind, .u producingBoundaryReported),
              (.u pbFieldReporting, .b reporting)]) := by
            have keys : [encoding (.u pbFieldBoundary), encoding (.u pbFieldKind),
                encoding (.u pbFieldReporting)].Nodup := by decide
            refine encodable_m.mpr ⟨by simp, ?_, keys⟩
            simp only [List.forall_mem_cons]
            exact ⟨⟨rfl, encodable_b.mpr short⟩, ⟨rfl, encodable_u.mpr kindRange⟩,
              ⟨rfl, encodable_b.mpr short'⟩, nofun⟩
          exact three

/-- The carriers of an object that can be encoded can be. -/
theorem encodable_carrier (encodable : Encodable (.m o.fieldPairs))
    : Encodable (.m ((o.carrier critical).getD [])) := by
  have members := (encodable_m.mp encodable).2.1
  have empty : Encodable (.m []) := encodable_m.mpr ⟨by decide, nofun, List.nodup_nil⟩
  unfold Object.carrier
  split
  · cases present : o.cext with
    | none => exact empty
    | some pairs => exact (members (.u fieldCext, .m pairs) (by simp [mem_fieldPairs, present])).2
  · cases present : o.ext with
    | none => exact empty
    | some pairs => exact (members (.u fieldExt, .m pairs) (by simp [mem_fieldPairs, present])).2

/-- After calls in range a carrier can still be encoded, by induction on the calls; its length
is bounded by the final one.
-/
theorem encodable_carrier_afterSets (inRange : ∀ call ∈ calls, call.InRange)
    (encodable : Encodable (.m ((o.carrier critical).getD [])))
    (countable : (((o.afterSets calls).carrier critical).getD []).length < 2 ^ 64)
    : Encodable (.m (((o.afterSets calls).carrier critical).getD [])) := by
  induction calls generalizing o with
  | nil => exact encodable
  | cons call calls ih =>
      obtain ⟨first, later⟩ := List.forall_mem_cons.mp inRange
      refine ih later ?_ countable
      have short := Nat.lt_of_le_of_lt
        (@length_le_afterSets (call.apply o) calls critical) countable
      rw [carrier_apply] at short ⊢
      by_cases here : call.critical = critical
      · rw [if_pos here] at short ⊢
        have keyRange : 0 ≤ call.key ∧ call.key < 2 ^ 64 := by
          cases call <;>
            simp [SetCall.key, recheckKey, signerCounterKey, producingBoundaryKey]
        exact encodable_setEntry keyRange (encodable_value first) encodable short
      · rw [if_neg here]
        exact encodable

/-- The carriers may be changed for others that can be encoded. -/
theorem encodable_with_carriers {ext cext : Option (List (Value × Value))}
    (encodable : Encodable (.m o.fieldPairs))
    (extEncodable : ∀ pairs, ext = some pairs → Encodable (.m pairs))
    (cextEncodable : ∀ pairs, cext = some pairs → Encodable (.m pairs))
    : Encodable (.m { o with ext, cext }.fieldPairs) := by
  have members := (encodable_m.mp encodable).2.1
  have few := length_fieldPairs { o with ext, cext }
  refine encodable_m.mpr ⟨by omega, ?_, nodup_of_ascending (fieldPairs_ascending _)⟩
  intro pair member
  rcases mem_fieldPairs.mp member with
    rfl | rfl | rfl | rfl | rfl | rfl | rfl | rfl | rfl | ⟨_, present, rfl⟩ | ⟨_, present, rfl⟩
      | ⟨present, rfl⟩ | ⟨present, rfl⟩
  case inr.inr.inr.inr.inr.inr.inr.inr.inr.inl => exact ⟨rfl, extEncodable _ present⟩
  case inr.inr.inr.inr.inr.inr.inr.inr.inr.inr.inl => exact ⟨rfl, cextEncodable _ present⟩
  all_goals exact members _ (mem_fieldPairs.mpr (by simp_all))

/-- After calls in range the object can still be encoded: nothing but the two carriers changed.
-/
theorem encodable_afterSets (inRange : ∀ call ∈ calls, call.InRange)
    (encodable : Encodable (.m o.fieldPairs))
    (countable : ∀ critical, (((o.afterSets calls).carrier critical).getD []).length < 2 ^ 64)
    : Encodable (.m (o.afterSets calls).fieldPairs) := by
  have carriers (critical : Bool)
      : Encodable (.m (((o.afterSets calls).carrier critical).getD [])) :=
    encodable_carrier_afterSets inRange (encodable_carrier encodable) (countable critical)
  obtain ⟨ext, cext, after⟩ := afterSets_eq o calls
  rw [after] at carriers ⊢
  refine encodable_with_carriers encodable ?_ ?_
  · intro pairs present
    have written := carriers false
    simpa [Object.carrier, present] using written
  · intro pairs present
    have written := carriers true
    simpa [Object.carrier, present] using written

end Encodability

-----------------------------------------------------------------------------------------
-- The setters compose
-----------------------------------------------------------------------------------------

/-- What the getters read after the calls, on the object and on what is verified of it: the last
value that was set, where a critical procedure hides one that is not.
-/
structure SettersCompose (o : Object) (calls : List SetCall) : Prop where
  counter : (o.afterSets calls).signerCounter
    = (lastSet SetCall.counter? calls).or o.signerCounter
  recheck : (o.afterSets calls).recheck
    = match (lastSet (SetCall.recheck? true) calls).or (cextGetUint o.cext recheckKey) with
      | some procId => some (procId, true)
      | none => ((lastSet (SetCall.recheck? false) calls).or
          (cextGetUint o.ext recheckKey)).map fun procId => (procId, false)
  boundary : ∃ before, producingBoundary o = .ok before
    ∧ producingBoundary (o.afterSets calls) = .ok ((lastSet SetCall.boundary? calls).or before)
  fields : ∃ ext cext, o.afterSets calls = { o with ext, cext }
  entries : ∀ critical, (((o.afterSets calls).carrier critical).getD []).filter
      (! Written critical calls ·)
    = ((o.carrier critical).getD []).filter (! Written critical calls ·)
  distinct : ∀ critical, ((((o.afterSets calls).carrier critical).getD []).map Prod.fst).Nodup
  encodable : (∃ id, o.contentId = .ok id) → ∃ id, (o.afterSets calls).contentId = .ok id
  verified : ∀ (lib : SignatureLibrary) (signing : SignCall) data profile alg pubkey kindValidator
      knownCext verified, signing.result lib (o.afterSets calls) = .ok data →
    verify lib profile alg pubkey kindValidator data knownCext = .ok verified →
    verified.recheck = (o.afterSets calls).recheck
      ∧ verified.signerCounter = (o.afterSets calls).signerCounter
      ∧ producingBoundary verified = producingBoundary (o.afterSets calls)

section Composing

variable {o : Object} {calls : List SetCall}

theorem cextGetUint_afterSets {critical : Bool} {key : Int} {value : SetCall → Option Int}
    (writes : ∀ call, call.writes critical key = (value call).map .u)
    : cextGetUint ((o.afterSets calls).carrier critical) key
      = (lastSet value calls).or (cextGetUint (o.carrier critical) key) := by
  rw [cextGetUint_eq, cextGetUint_eq, valueAt_afterSets, funext writes, lastSet_map]
  cases lastSet value calls <;> rfl

/-- In either carrier the recheck is the last one that was set there, or else the one from
before.
-/
theorem recheck_afterSets (critical : Bool)
    : cextGetUint ((o.afterSets calls).carrier critical) recheckKey
      = (lastSet (SetCall.recheck? critical) calls).or
          (cextGetUint (o.carrier critical) recheckKey) := by
  refine cextGetUint_afterSets fun call => ?_
  cases call with
  | recheck procId here =>
      by_cases same : here = critical <;>
        simp [SetCall.writes, SetCall.recheck?, SetCall.critical, SetCall.key, SetCall.value, same]
  | _ => simp [SetCall.writes, SetCall.recheck?, SetCall.key, recheckKey, signerCounterKey,
      producingBoundaryKey]

theorem counter_afterSets
    : (o.afterSets calls).signerCounter = (lastSet SetCall.counter? calls).or o.signerCounter := by
  have read := @cextGetUint_afterSets o calls false signerCounterKey SetCall.counter? fun call => by
    cases call <;> simp [SetCall.writes, SetCall.counter?, SetCall.critical, SetCall.key,
      SetCall.value, recheckKey, signerCounterKey, producingBoundaryKey]
  exact read

/-- The boundary is the last one that was set, or else the one from before.
Witness: the key is written by these calls alone, and what they write reads back as they were
called.
-/
theorem boundary_afterSets (inRange : ∀ call ∈ calls, call.InRange)
    : ∃ before, producingBoundary o = .ok before
      ∧ producingBoundary (o.afterSets calls)
        = .ok ((lastSet SetCall.boundary? calls).or before) := by
  have writes (call : SetCall) : call.writes false producingBoundaryKey
      = call.boundary?.map ProducingBoundary.value := by
    cases call <;> simp [SetCall.writes, SetCall.boundary?, SetCall.critical, SetCall.key,
      SetCall.value, recheckKey, signerCounterKey, producingBoundaryKey]
  have read := @valueAt_afterSets o calls false producingBoundaryKey
  refine ⟨_, producingBoundary_eq, ?_⟩
  rw [producingBoundary_eq,
    show (o.afterSets calls).ext = (o.afterSets calls).carrier false from rfl,
    read, funext writes, lastSet_map]
  cases last : lastSet SetCall.boundary? calls with
  | none => rfl
  | some pb =>
      obtain ⟨call, member, sets⟩ := mem_of_lastSet last
      have fits := inRange call member
      cases call with
      | producingBoundary pb' =>
          obtain rfl := Option.some.inj sets
          exact congrArg Except.ok (disclosureOf_value fits)
      | _ => cases sets

/-- A verified object is read like the one that was signed. -/
theorem getters_verified {lib : SignatureLibrary} {signing : SignCall} {data pubkey : Bytes}
    {profile alg : Int} {kindValidator : Option (Int → Int → Bool)} {knownCext : List Int}
    {verified : Object} (returned : signing.result lib o = .ok data)
    (accepted : verify lib profile alg pubkey kindValidator data knownCext = .ok verified)
    : verified.recheck = o.recheck ∧ verified.signerCounter = o.signerCounter
      ∧ producingBoundary verified = producingBoundary o := by
  cases signing with
  | sign alg' seed =>
      have made := (sign_eq_signWith alg' seed).symm.trans returned
      obtain ⟨id, payload, prot, tbs, sig, composed, -⟩ := signWith_eq_ok.mp made
      obtain ⟨id', rfl⟩ := eq_of_signWith made accepted
      exact getters_sorted composed.encodable
  | signComposite mldsaSeed edSeed =>
      have made := (signComposite_eq_signWith mldsaSeed edSeed).symm.trans returned
      obtain ⟨id, payload, prot, tbs, sig, composed, -⟩ := signWith_eq_ok.mp made
      obtain ⟨id', rfl⟩ := eq_of_signWith made accepted
      exact getters_sorted composed.encodable

end Composing

/-- Reading a producing boundary raises nothing on any object, and any sequence of calls with values
in range composes on an object with distinct keys, as long as a list can be.
-/
theorem extension_setters_compose
    : (∀ o, ∃ disclosure, producingBoundary o = .ok disclosure)
      ∧ ∀ o calls, (∀ critical, (((o.carrier critical).getD []).map Prod.fst).Nodup
            ∧ ((o.carrier critical).getD []).length < 2 ^ 63) →
          (∀ call ∈ calls, call.InRange) → SettersCompose o calls := by
  refine ⟨fun o => ⟨_, producingBoundary_eq⟩, ?_⟩
  intro o calls carriers inRange
  refine ⟨counter_afterSets, ?_, boundary_afterSets inRange, afterSets_eq o calls,
    fun critical => filter_afterSets, fun critical => nodup_afterSets (carriers critical).1, ?_, ?_⟩
  · have critical := @recheck_afterSets o calls true
    have plain := @recheck_afterSets o calls false
    rw [Object.recheck, show (o.afterSets calls).cext = (o.afterSets calls).carrier true from rfl,
      show (o.afterSets calls).ext = (o.afterSets calls).carrier false from rfl, critical, plain]
    rfl
  · intro identified
    refine contentId_ok_iff.mpr (encodable_afterSets inRange (contentId_ok_iff.mp identified) ?_)
    intro critical
    have few := @length_afterSets o calls critical (carriers critical).1
    have short := (carriers critical).2
    omega
  · intro lib signing data profile alg pubkey kindValidator knownCext verified returned accepted
    exact getters_verified returned accepted

def sampleSets : List SetCall :=
  [.recheck 2 true, .signerCounter 3, .producingBoundary ⟨[7], 2, some [8]⟩, .recheck 3 false,
    .signerCounter 4]

theorem sampleSets_inRange : ∀ call ∈ sampleSets, call.InRange := by
  simp [sampleSets, SetCall.InRange, producingBoundaryReported]

theorem sampleObject_carriers (critical : Bool)
    : (((sampleObject.carrier critical).getD []).map Prod.fst).Nodup
      ∧ ((sampleObject.carrier critical).getD []).length < 2 ^ 63 := by
  cases critical
  · exact ⟨List.nodup_nil, by decide⟩
  · exact ⟨List.nodup_singleton _, by decide⟩

/-- The theorem on five calls, and what the getters then read. -/
theorem extension_setters_compose_sample
    : SettersCompose sampleObject sampleSets
      ∧ (sampleObject.afterSets sampleSets).signerCounter = some 4
      ∧ producingBoundary (sampleObject.afterSets sampleSets) = .ok (some ⟨[7], 2, some [8]⟩) := by
  have compose := extension_setters_compose.2 sampleObject sampleSets sampleObject_carriers
    sampleSets_inRange
  exact ⟨compose, rfl, rfl⟩

/-- A procedure that is named later, but not as critical, is not the one that is read. -/
theorem critical_recheck_hides_later
    : (∀ critical, (((sampleObject.carrier critical).getD []).map Prod.fst).Nodup)
      ∧ (∀ call ∈ [SetCall.recheck 2 true, .recheck 3 false], call.InRange)
      ∧ (sampleObject.afterSets [.recheck 2 true, .recheck 3 false]).recheck = some (2, true)
      ∧ (sampleObject.afterSets [.recheck 2 true, .recheck 3 false]).recheck ≠ some (3, false) := by
  refine ⟨fun critical => (sampleObject_carriers critical).1, ?_, rfl, ?_⟩
  · simp [SetCall.InRange]
  · intro later
    cases later

end Naalp.Python.Envelope
