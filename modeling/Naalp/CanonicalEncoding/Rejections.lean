import Naalp.CanonicalEncoding.Decoding
import Naalp.Python.Agui
import Naalp.Python.Gates
import Naalp.Python.Gateway
import Naalp.Python.Naming
import Naalp.Python.Negotiation

/-! Where the decoder stops with an exception other than its two named ones.
The decoder reads from left to right, so it comes to a place in the octets exactly when
everything before it on each level is canonical.
-/

namespace Naalp.Python.Cbor

open Naalp.Foundation

section Reaching

variable (here : Nat → Bytes → Prop) (member : Nat → Value → Prop)
  (ordered : List (Value × Value) → Value → Prop)

/-- (Reaches here member ordered levels data) says that a decoder with `levels` levels left
comes, in reading `data`, to octets where `here` holds. The items before have to be members; the
key of a pair whose value is being read has to be in order.
-/
inductive Reaches : Nat → Bytes → Prop where
  | here {levels : Nat} {data : Bytes} (found : here levels data) : Reaches levels data
  | item {levels count : Nat} {before : List Value} {rest : Bytes} (size : count < 2 ^ 64)
      (more : before.length < count) (members : ∀ it ∈ before, member levels it)
      (inside : Reaches levels rest)
      : Reaches (levels + 1) (headBytes 4 count ++ (before.flatMap encoding ++ rest))
  | key {levels count : Nat} {before : List (Value × Value)} {rest : Bytes} (size : count < 2 ^ 64)
      (more : before.length < count) (ascending : (before.map encodedKey).Pairwise (· < ·))
      (members : ∀ pair ∈ before, member levels pair.1 ∧ member levels pair.2)
      (inside : Reaches levels rest)
      : Reaches (levels + 1) (headBytes 5 count ++ (before.flatMap encodedPair ++ rest))
  | value {levels count : Nat} {before : List (Value × Value)} {key : Value} {rest : Bytes}
      (size : count < 2 ^ 64) (more : before.length < count)
      (ascending : (before.map encodedKey).Pairwise (· < ·))
      (members : ∀ pair ∈ before, member levels pair.1 ∧ member levels pair.2)
      (read : member levels key) (above : ordered before key) (inside : Reaches levels rest)
      : Reaches (levels + 1)
          (headBytes 5 count ++ (before.flatMap encodedPair ++ (encoding key ++ rest)))
  | tag {levels number : Nat} {rest : Bytes} (size : number < 2 ^ 64)
      (inside : Reaches levels rest) : Reaches (levels + 1) (headBytes 6 number ++ rest)

variable {here member ordered} {other : Nat → Bytes → Prop} {bound : Nat}
  (weaker : ∀ levels data, data.length ≤ bound → here levels data → other levels data)

include weaker

/-- What is found where the decoder arrives can be weakened, by induction on the way there. -/
theorem Reaches.imp {levels : Nat} {data : Bytes}
    (reached : Reaches here member ordered levels data)
    (size : data.length ≤ bound)
    : Reaches other member ordered levels data := by
  induction reached with
  | here found => exact .here (weaker _ _ size found)
  | item count more members _ ih =>
      simp only [List.length_append] at size
      exact .item count more members (ih (by omega))
  | key count more ascending members _ ih =>
      simp only [List.length_append] at size
      exact .key count more ascending members (ih (by omega))
  | value count more ascending members read above _ ih =>
      simp only [List.length_append] at size
      exact .value count more ascending members read above (ih (by omega))
  | tag number _ ih =>
      simp only [List.length_append] at size
      exact .tag number (ih (by omega))

end Reaching

/-- An exception that the decoder's own raise statements do not produce for malformed octets. -/
def Foreign (e : Exc) : Prop := ∀ msg, e ≠ .nonCanonical msg

theorem not_foreign (msg : String) : ¬ Foreign (.nonCanonical msg) :=
  fun foreign => foreign msg rfl

theorem raiseIf_ne_foreign {e : Exc} (foreign : Foreign e) {guard : Prop} [Decidable guard]
    {msg : String}
    : raiseIf guard (.nonCanonical msg) ≠ .error e := by
  intro raised
  have own : FailsOnly (fun e => ¬ Foreign e) (raiseIf guard (.nonCanonical msg)) :=
    failsOnly_raiseIf (not_foreign msg)
  exact own e raised foreign

section Members

variable {item : Bytes → Py (Value × Bytes)} {accepted : Value → Prop}
  (reads : ReadsExactly item accepted encoding)

include reads

theorem decodeItems_eq_error {count : Nat} {data : Bytes} {e : Exc}
    : decodeItems item count data = .error e
      ↔ ∃ (before : List Value) (rest : Bytes), before.length < count
        ∧ (∀ it ∈ before, accepted it) ∧ data = before.flatMap encoding ++ rest
        ∧ item rest = .error e := by
  unfold decodeItems
  rw [readLoop_eq_error (decodeItem_eq_ok reads)]
  simp only [acceptedFrom_items, bind_eq_error, pure_eq_ok, reduceCtorEq, and_false, exists_false,
    or_false]

/-- A round of the map loop raises a foreign exception in its key or in its value. -/
theorem decodePair_eq_error {prev : Option Bytes} {data : Bytes} {e : Exc} (foreign : Foreign e)
    : decodePair item prev data = .error e
      ↔ item data = .error e
        ∨ ∃ key rest, accepted key ∧ data = encoding key ++ rest ∧ item rest = .error e := by
  simp only [decodePair, bind_eq_error, Prod.exists, raiseIf_ne_foreign foreign, pure_eq_ok,
    reduceCtorEq, and_false, exists_false, or_false, reads data, and_assoc]

theorem decodePairs_eq_error {count : Nat} {data : Bytes} {e : Exc} (foreign : Foreign e)
    : decodePairs item count data = .error e
      ↔ ∃ (before : List (Value × Value)) (rest : Bytes), before.length < count
        ∧ (before.map encodedKey).Pairwise (· < ·)
        ∧ (∀ pair ∈ before, accepted pair.1 ∧ accepted pair.2)
        ∧ data = before.flatMap encodedPair ++ rest
        ∧ (item rest = .error e
          ∨ ∃ key later, accepted key ∧ rest = encoding key ++ later ∧ item later = .error e) := by
  unfold decodePairs
  rw [readLoop_eq_error (decodePair_eq_ok reads)]
  simp only [acceptedFrom_pairs, decodePair_eq_error reads foreign, and_assoc]

end Members

-----------------------------------------------------------------------------------------
-- The recursion
-----------------------------------------------------------------------------------------

/-- A text string starts here whose octets are not UTF-8. -/
def BadText : (levels : Nat) → Bytes → Prop
  | 0, _ => False
  | _ + 1, data => ∃ text rest, text.length < 2 ^ 64
      ∧ data = headBytes 3 text.length ++ (text ++ rest)
      ∧ text.toByteArray.utf8Decode? = none

/-- An item starts here that is one level too deep. -/
def TooDeep (levels : Nat) (_ : Bytes) : Prop := levels = 0

/-- (Meets here levels data) says that the decoder comes to such octets: whatever it has read
before is canonical, and the key of a value being read is not yet compared.
-/
def Meets (here : Nat → Bytes → Prop) : Nat → Bytes → Prop :=
  Reaches here Canonical (fun _ _ => True)

/-- The exception that is raised at the octets themselves. -/
def RaisesAt (e : Exc) (levels : Nat) (data : Bytes) : Prop :=
  e = .unicodeDecodeError ∧ BadText levels data
    ∨ e = .depthExceeded "CBOR nesting depth exceeds the maximum" ∧ TooDeep levels data

/-- An argument is refused by a named error. -/
theorem extendedArg_failsOnly (width least : Nat) (body : Bytes)
    : FailsOnly (fun e => ¬ Foreign e) (extendedArg width least body) := by
  unfold extendedArg
  apply FailsOnly.bind
  · exact failsOnly_raiseIf (not_foreign _)
  intro _
  apply FailsOnly.bind
  · exact failsOnly_raiseIf (not_foreign _)
  intro _
  exact failsOnly_pure _

/-- Reading a head stops at malformed octets only with the decoder's own exception. -/
theorem decodeHead_failsOnly (data : Bytes)
    : FailsOnly (fun e => ¬ Foreign e) (decodeHead data) := by
  cases data with
  | nil => exact failsOnly_throw (not_foreign _)
  | cons ib body =>
      unfold decodeHead
      apply FailsOnly.bind
      · exact failsOnly_raiseIf (not_foreign _)
      intro _
      refine FailsOnly.bind ?_ (fun _ => failsOnly_pure _)
      unfold decodeArg
      split_ifs
      · exact failsOnly_pure _
      · exact extendedArg_failsOnly _ _ _
      · exact extendedArg_failsOnly _ _ _
      · exact extendedArg_failsOnly _ _ _
      · exact extendedArg_failsOnly _ _ _
      · exact failsOnly_throw (not_foreign _)

theorem PyStr_decode_eq_error {text : Bytes} {e : Exc}
    : PyStr.decode text = .error e
      ↔ e = .unicodeDecodeError ∧ text.toByteArray.utf8Decode? = none := by
  unfold PyStr.decode
  split
  · rename_i found
    simp [found]
  · rename_i missing
    simp [missing, eq_comm]

section Contents

variable {item : Bytes → Py (Value × Bytes)} {e : Exc} (foreign : Foreign e) {arg : Nat}
  {rest : Bytes}

include foreign

/-- A text is refused by the error of its octets exactly when they are no UTF-8. -/
theorem decodeContent_text_eq_error
    : decodeContent item 3 arg rest = .error e
      ↔ e = .unicodeDecodeError ∧ ∃ (text later : Bytes), text.length = arg
        ∧ rest = text ++ later ∧ text.toByteArray.utf8Decode? = none := by
  simp only [decodeContent, bind_eq_error, raiseIf_ne_foreign foreign, raiseIf_eq_ok, not_lt,
    exists_const, PyStr_decode_eq_error, pure_eq_ok, reduceCtorEq, and_false, or_false,
    false_or]
  constructor
  · intro failed
    obtain ⟨enough, rfl, bad⟩ := failed
    exact ⟨rfl, rest.take arg, rest.drop arg, List.length_take_of_le enough,
      (List.take_append_drop ..).symm, bad⟩
  · intro failed
    obtain ⟨rfl, text, later, rfl, rfl, bad⟩ := failed
    exact ⟨by simp, rfl, by simpa using bad⟩

/-- The content of an item raises a foreign exception in its text or in what it contains. -/
theorem decodeContent_eq_error {major : Nat}
    : decodeContent item major arg rest = .error e
      ↔ major = 3 ∧ decodeContent item 3 arg rest = .error e
        ∨ major = 4 ∧ decodeItems item arg rest = .error e
        ∨ major = 5 ∧ decodePairs item arg rest = .error e
        ∨ major = 6 ∧ item rest = .error e := by
  have own : ∀ msg, (.nonCanonical msg : Exc) ≠ e := fun msg => (foreign msg).symm
  match major with
  | 0 | 1 => simp [decodeContent]
  | 2 => simp [decodeContent, bind_eq_error, raiseIf_ne_foreign foreign]
  | 3 => simp
  | 4 | 5 | 6 => simp [decodeContent, bind_eq_error]
  | _ + 7 => simp [decodeContent, own]

end Contents

/-- The decoder raises a foreign exception exactly where it comes to octets that raise it, by
induction on the levels left.
-/
theorem dec_eq_error {e : Exc} (foreign : Foreign e) {levels : Nat} {data : Bytes}
    : dec levels data = .error e ↔ Meets (RaisesAt e) levels data := by
  induction levels generalizing data with
  | zero =>
      constructor
      · intro failed
        exact .here (.inr ⟨(Except.error.inj failed).symm, rfl⟩)
      · intro met
        cases met with
        | here found =>
            rcases found with ⟨-, bad⟩ | ⟨rfl, -⟩
            · exact bad.elim
            · rfl
  | succ levels ih =>
      have reads := dec_readsExactly levels
      have step : dec (levels + 1) data = .error e
          ↔ ∃ major arg rest, (major < 8 ∧ arg < 2 ^ 64 ∧ data = headBytes major arg ++ rest)
            ∧ decodeContent (dec levels) major arg rest = .error e := by
        have head : decodeHead data ≠ .error e :=
          fun failed => decodeHead_failsOnly data e failed foreign
        simp only [dec, bind_eq_error, head, false_or, Prod.exists, decodeHead_eq_ok]
      rw [step]
      constructor
      · intro failed
        obtain ⟨major, arg, rest, ⟨-, size, rfl⟩, raised⟩ := failed
        rcases (decodeContent_eq_error foreign).mp raised with ⟨rfl, inner⟩ | ⟨rfl, inner⟩
          | ⟨rfl, inner⟩ | ⟨rfl, inner⟩
        · obtain ⟨rfl, text, later, rfl, rfl, bad⟩ :=
            (decodeContent_text_eq_error foreign).mp inner
          exact .here (.inl ⟨rfl, text, later, size, rfl, bad⟩)
        · obtain ⟨before, later, more, members, rfl, failed⟩ :=
            (decodeItems_eq_error reads).mp inner
          exact .item size more members (ih.mp failed)
        · obtain ⟨before, later, more, ascending, members, rfl, failed⟩ :=
            (decodePairs_eq_error reads foreign).mp inner
          rcases failed with failed | ⟨key, last, read, rfl, failed⟩
          · exact .key size more ascending members (ih.mp failed)
          · exact .value size more ascending members read trivial (ih.mp failed)
        · exact .tag size (ih.mp inner)
      · intro met
        cases met with
        | here found =>
            rcases found with ⟨rfl, text, rest, size, rfl, bad⟩ | ⟨-, deep⟩
            · exact ⟨3, text.length, _, ⟨by decide, size, rfl⟩,
                (decodeContent_text_eq_error foreign).mpr ⟨rfl, text, rest, rfl, rfl, bad⟩⟩
            · cases deep
        | item size more members inside =>
            refine ⟨4, _, _, ⟨by decide, size, rfl⟩, (decodeContent_eq_error foreign).mpr ?_⟩
            exact .inr (.inl ⟨rfl, (decodeItems_eq_error reads).mpr
              ⟨_, _, more, members, rfl, ih.mpr inside⟩⟩)
        | key size more ascending members inside =>
            refine ⟨5, _, _, ⟨by decide, size, rfl⟩, (decodeContent_eq_error foreign).mpr ?_⟩
            exact .inr (.inr (.inl ⟨rfl, (decodePairs_eq_error reads foreign).mpr
              ⟨_, _, more, ascending, members, rfl, .inl (ih.mpr inside)⟩⟩))
        | value size more ascending members read above inside =>
            refine ⟨5, _, _, ⟨by decide, size, rfl⟩, (decodeContent_eq_error foreign).mpr ?_⟩
            exact .inr (.inr (.inl ⟨rfl, (decodePairs_eq_error reads foreign).mpr
              ⟨_, _, more, ascending, members, rfl, .inr ⟨_, _, read, rfl, ih.mpr inside⟩⟩⟩))
        | tag size inside =>
            refine ⟨6, _, _, ⟨by decide, size, rfl⟩, (decodeContent_eq_error foreign).mpr ?_⟩
            exact .inr (.inr (.inr ⟨rfl, ih.mpr inside⟩))

-----------------------------------------------------------------------------------------
-- The entry points
-----------------------------------------------------------------------------------------

theorem Meets.imp {left right : Nat → Bytes → Prop} {levels : Nat} {data : Bytes}
    (weaker : ∀ levels data, left levels data → right levels data) (met : Meets left levels data)
    : Meets right levels data :=
  Reaches.imp (fun levels data _ => weaker levels data) met le_rfl

/-- A decoder with more levels left comes to the same octets, with as many more left there; by
induction on the way.
-/
theorem Meets.deepen {here : Nat → Bytes → Prop} {levels : Nat} {data : Bytes} (more : Nat)
    (met : Meets here levels data)
    : Meets (fun left data => ∃ fewer, left = fewer + more ∧ here fewer data) (levels + more)
        data := by
  unfold Meets at met ⊢
  have kept : ∀ {left : Nat} {v : Value}, Canonical left v → Canonical (left + more) v :=
    fun canonical => canonical.mono (Nat.le_add_right ..)
  induction met with
  | here found => exact .here ⟨_, rfl, found⟩
  | item size fewer members _ ih =>
      rw [Nat.add_right_comm]
      exact .item size fewer (fun it member => kept (members it member)) ih
  | key size fewer ascending members _ ih =>
      rw [Nat.add_right_comm]
      exact .key size fewer ascending
        (fun pair member => ⟨kept (members pair member).1, kept (members pair member).2⟩) ih
  | value size fewer ascending members read above _ ih =>
      rw [Nat.add_right_comm]
      exact .value size fewer ascending
        (fun pair member => ⟨kept (members pair member).1, kept (members pair member).2⟩)
        (kept read) above ih
  | tag size _ ih =>
      rw [Nat.add_right_comm]
      exact .tag size ih

theorem decodeBounded_eq_error {e : Exc} (foreign : Foreign e) {data : Bytes} {maxDepth : Nat}
    : decodeBounded data maxDepth = .error e ↔ Meets (RaisesAt e) maxDepth data := by
  simp only [decodeBounded, bind_eq_error, dec_eq_error foreign, raiseIf_ne_foreign foreign,
    pure_eq_ok, reduceCtorEq, and_false, exists_false, or_false]

theorem foreign_unicode : Foreign .unicodeDecodeError := by
  intro msg same
  cases same

theorem foreign_depth (msg : String) : Foreign (.depthExceeded msg) := by
  intro other same
  cases same

/-- Meeting octets that are no UTF-8 is meeting the error that they raise. -/
theorem meets_badText {levels : Nat} {data : Bytes}
    : Meets BadText levels data ↔ Meets (RaisesAt .unicodeDecodeError) levels data := by
  constructor
  · exact Meets.imp fun _ _ bad => .inl ⟨rfl, bad⟩
  · apply Meets.imp
    intro levels data raised
    rcases raised with ⟨-, bad⟩ | ⟨other, -⟩
    · exact bad
    · cases other

/-- Meeting an item below the deepest level is meeting the error that it raises. -/
theorem meets_tooDeep {levels : Nat} {data : Bytes}
    : Meets TooDeep levels data
      ↔ Meets (RaisesAt (.depthExceeded "CBOR nesting depth exceeds the maximum")) levels data := by
  constructor
  · exact Meets.imp fun _ _ deep => .inr ⟨rfl, deep⟩
  · apply Meets.imp
    intro levels data raised
    rcases raised with ⟨other, -⟩ | ⟨-, deep⟩
    · cases other
    · exact deep

/-- A place that raises an exception raises one of two, by induction on the way there. -/
theorem Meets.two_exceptions {e : Exc} {levels : Nat} {data : Bytes}
    (met : Meets (RaisesAt e) levels data)
    : e = .unicodeDecodeError ∨ e = .depthExceeded "CBOR nesting depth exceeds the maximum" := by
  unfold Meets at met
  induction met with
  | here found =>
      rcases found with ⟨raised, -⟩ | ⟨raised, -⟩
      · exact .inl raised
      · exact .inr raised
  | item _ _ _ _ ih | key _ _ _ _ _ ih | value _ _ _ _ _ _ _ ih | tag _ _ ih => exact ih

/-- The two exceptions that the decoder is documented to raise. -/
def Named (e : Exc) : Prop := (∃ msg, e = .nonCanonical msg) ∨ ∃ msg, e = .depthExceeded msg

/-- The decoder refuses by a named error exactly when it meets no octets that are no UTF-8. -/
theorem decodeBounded_failsOnly_named {data : Bytes} {maxDepth : Nat}
    : FailsOnly Named (decodeBounded data maxDepth) ↔ ¬ Meets BadText maxDepth data := by
  constructor
  · intro named met
    have raised := (decodeBounded_eq_error foreign_unicode).mpr (meets_badText.mp met)
    rcases named _ raised with ⟨_, other⟩ | ⟨_, other⟩
    · cases other
    · cases other
  · intro unmet e raised
    by_cases foreign : Foreign e
    · have met := (decodeBounded_eq_error foreign).mp raised
      rcases met.two_exceptions with rfl | rfl
      · exact (unmet (meets_badText.mpr met)).elim
      · exact .inr ⟨_, rfl⟩
    · simp only [Foreign, not_forall, not_not] at foreign
      exact .inl foreign

-----------------------------------------------------------------------------------------
-- Callers that catch the decoder's exception
-----------------------------------------------------------------------------------------

/-- An exception with one of the kinds. -/
def OfKind (kinds : List Kind) (e : Exc) : Prop := ∃ kind ∈ kinds, e.kind? = some kind

/-- The shape of a caller: `NonCanonical` becomes its own error, and the value is read further. -/
def catching {α : Type} (malformed : String → Exc) (body : Value → Py α) : Py Value → Py α
  | .ok v => body v
  | .error (.nonCanonical msg) => .error (malformed msg)
  | .error err => .error err

/-- (PassesForeign kinds decoded outcome) says that a caller raises its own kinds, and what the
decoder raised besides `NonCanonical`.
-/
structure PassesForeign {α : Type} (kinds : List Kind) (decoded : Py Value) (outcome : Py α)
    : Prop where
  passes : ∀ e, Foreign e → decoded = .error e → outcome = .error e
  own : FailsOnly (fun e => OfKind kinds e ∨ Foreign e ∧ decoded = .error e) outcome

section Callers

variable {α β : Type} {kinds : List Kind} {decoded : Py Value} {data : Bytes}

/-- A caller keeps to its kinds exactly when the decoder meets neither kind of octets that raise
a foreign exception.
Witness: the only two foreign exceptions of the decoder are those of bad text and of depth.
-/
theorem PassesForeign.failsOnly_iff {outcome : Py α}
    (caller : PassesForeign kinds (decode data) outcome) (other : .depthExceeded ∉ kinds)
    : FailsOnly (OfKind kinds) outcome
      ↔ ¬ Meets BadText unboundedDepth data ∧ ¬ Meets TooDeep unboundedDepth data := by
  constructor
  · intro only
    have escapes : ∀ {e}, Foreign e → ¬ OfKind kinds e
        → ¬ Meets (RaisesAt e) unboundedDepth data := by
      intro e foreign unknown met
      exact unknown (only e (caller.passes e foreign ((decodeBounded_eq_error foreign).mpr met)))
    constructor
    · intro met
      refine escapes foreign_unicode ?_ (meets_badText.mp met)
      simp [OfKind, Exc.kind?]
    · intro met
      refine escapes (foreign_depth _) ?_ (meets_tooDeep.mp met)
      simpa [OfKind, Exc.kind?] using other
  · intro unmet e raised
    rcases caller.own e raised with known | ⟨foreign, failed⟩
    · exact known
    · have met := (decodeBounded_eq_error foreign).mp failed
      rcases met.two_exceptions with rfl | rfl
      · exact (unmet.1 (meets_badText.mpr met)).elim
      · exact (unmet.2 (meets_tooDeep.mpr met)).elim

theorem PassesForeign.of_ok {v : Value} {outcome : Py α} (later : FailsOnly (OfKind kinds) outcome)
    : PassesForeign kinds (.ok v) outcome := by
  refine ⟨?_, fun e raised => .inl (later e raised)⟩
  intro e _ failed
  cases failed

theorem PassesForeign.of_caught {msg : String} {own : Exc} (known : OfKind kinds own)
    : PassesForeign kinds (.error (.nonCanonical msg)) (.error own : Py α) := by
  refine ⟨?_, failsOnly_throw (.inl known)⟩
  intro e foreign same
  exact (foreign msg (Except.error.inj same).symm).elim

theorem PassesForeign.of_error {e : Exc} (foreign : Foreign e)
    : PassesForeign kinds (.error e) (.error e : Py α) := by
  refine ⟨?_, failsOnly_throw (.inr ⟨foreign, rfl⟩)⟩
  intro other _ same
  rw [Except.error.inj same]

theorem PassesForeign.bind {first : Py α} {next : α → Py β}
    (passed : PassesForeign kinds decoded first)
    (later : ∀ value, FailsOnly (OfKind kinds) (next value))
    : PassesForeign kinds decoded (first >>= next) := by
  refine ⟨?_, passed.own.bind fun value e raised => .inl (later value e raised)⟩
  intro e foreign failed
  rw [passed.passes e foreign failed]
  rfl

theorem catching_passesForeign {malformed : String → Exc} {body : Value → Py α}
    (caught : ∀ msg, OfKind kinds (malformed msg))
    (later : ∀ v, FailsOnly (OfKind kinds) (body v))
    : PassesForeign kinds decoded (catching malformed body decoded) := by
  unfold catching
  split
  · exact .of_ok (later _)
  · exact .of_caught (caught _)
  · rename_i err other
    exact .of_error other

theorem ofKind_head {kind : Kind} {e : Exc} (same : e.kind? = some kind)
    : OfKind (kind :: kinds) e :=
  ⟨kind, List.mem_cons_self, same⟩

end Callers

open Naalp.Python.Fields

/-- The reading of a map passes a foreign error of the decoder on, and adds none. -/
theorem decodeMap_passesForeign {kinds : List Kind} {data : Bytes}
    : PassesForeign kinds (decode data) (decodeMap data) := by
  unfold decodeMap
  split
  · rename_i found
    rw [found]
    exact .of_ok (failsOnly_pure _)
  · rename_i found
    rw [found]
    exact .of_ok (failsOnly_pure _)
  · rename_i failed
    rw [failed]
    refine ⟨?_, failsOnly_pure _⟩
    intro e foreign same
    exact (foreign _ (Except.error.inj same).symm).elim
  · rename_i err other failed
    rw [failed]
    exact .of_error other

/-- The parser of events passes a foreign error of the decoder on, and adds none. -/
theorem parseUiEvent_passesForeign (data : Bytes)
    : PassesForeign [.uiMalformed] (decode data) (Agui.parseUiEvent data) := by
  have fieldRead : ∀ fields pair,
      FailsOnly (OfKind [.uiMalformed]) (Agui.readEventField fields pair) := by
    intro fields pair
    unfold Agui.readEventField
    split
    all_goals first | exact failsOnly_pure _ | exact failsOnly_throw (ofKind_head rfl)
  unfold Agui.parseUiEvent
  generalize decode data = decoded
  split
  · refine .of_ok ((failsOnly_pure _).bind fun v => ?_)
    dsimp only
    split
    · refine FailsOnly.bind (.foldlM fieldRead _) fun fields => ?_
      split
      · exact failsOnly_pure _
      · exact failsOnly_throw (ofKind_head rfl)
    · exact failsOnly_throw (ofKind_head rfl)
  · exact .of_caught (ofKind_head rfl)
  · rename_i other
    exact .of_error other

/-- So does the parser of decisions. -/
theorem parseDecision_passesForeign (data : Bytes)
    : PassesForeign [.gwMalformed] (decode data) (Gateway.parseDecision data) := by
  have group : ∀ {α : Type} (pairs : List (Value × Value)) (k : Int) (fromCbor : Value → Option α)
      (msg : String), FailsOnly (OfKind [.gwMalformed])
        (Gateway.optionalGroup pairs k fromCbor (Gateway.gwMalformed msg)) := by
    intro α pairs k fromCbor msg
    unfold Gateway.optionalGroup
    split
    · exact failsOnly_pure _
    split
    · exact failsOnly_pure _
    · exact failsOnly_throw (ofKind_head rfl)
  unfold Gateway.parseDecision
  generalize decode data = decoded
  split
  · refine .of_ok ((failsOnly_pure _).bind fun v => ?_)
    dsimp only
    split
    · split
      · exact (group _ _ _ _).bind fun _ => (group _ _ _ _).bind fun _ => failsOnly_pure _
      · exact failsOnly_throw (ofKind_head rfl)
    · exact failsOnly_throw (ofKind_head rfl)
  · exact .of_caught (ofKind_head rfl)
  · rename_i other
    exact .of_error other

/-- So does the parser of payment imports. -/
theorem parsePaymentImport_passesForeign (data : Bytes)
    : PassesForeign [.payMalformed] (decode data) (Payment.parsePaymentImport data) := by
  unfold Payment.parsePaymentImport
  generalize decode data = decoded
  split
  · refine .of_ok ((failsOnly_pure _).bind fun v => ?_)
    dsimp only
    split
    · split
      · exact failsOnly_pure _
      · exact failsOnly_throw (ofKind_head rfl)
    · exact failsOnly_throw (ofKind_head rfl)
  · exact .of_caught (ofKind_head rfl)
  · rename_i other
    exact .of_error other

/-- A parser over `_decode_map` whose reading of the pairs keeps to its kinds. -/
theorem mapParser_passesForeign {α : Type} {kinds : List Kind} {data : Bytes}
    {next : Option (List (Value × Value)) → Py α}
    (later : ∀ pairs, FailsOnly (OfKind kinds) (next pairs))
    : PassesForeign kinds (decode data) (decodeMap data >>= next) :=
  decodeMap_passesForeign.bind later

theorem parseNameBinding_passesForeign (data : Bytes)
    : PassesForeign [.nameMalformed] (decode data) (Naming.parseNameBinding data) := by
  refine mapParser_passesForeign fun pairs => ?_
  split
  · split
    · exact failsOnly_pure _
    · exact failsOnly_throw (ofKind_head rfl)
  · exact failsOnly_throw (ofKind_head rfl)

theorem parseTransition_passesForeign (data : Bytes)
    : PassesForeign [.nameMalformed] (decode data) (Naming.parseTransition data) := by
  refine mapParser_passesForeign fun pairs => ?_
  split
  · split
    · exact failsOnly_pure _
    · exact failsOnly_throw (ofKind_head rfl)
  · exact failsOnly_throw (ofKind_head rfl)

theorem parseTrustRef_passesForeign (data : Bytes)
    : PassesForeign [.negMalformed] (decode data) (Negotiation.parseTrustRef data) := by
  refine mapParser_passesForeign fun pairs => ?_
  split
  · split
    · exact failsOnly_pure _
    · exact failsOnly_throw (ofKind_head rfl)
  · exact failsOnly_throw (ofKind_head rfl)

/-- So does the parser of messages, over the list of its causes. -/
theorem parseMessage_passesForeign (data : Bytes)
    : PassesForeign [.negMalformed] (decode data) (Negotiation.parseMessage data) := by
  have causes : ∀ items msg, FailsOnly (OfKind [.negMalformed])
      (Negotiation.bstrItems (.negotiationError .negMalformed msg) items) := by
    intro items msg
    induction items with
    | nil => exact failsOnly_pure _
    | cons item rest ih =>
        cases item with
        | b v => exact ih.bind fun _ => failsOnly_pure _
        | _ => exact failsOnly_throw (ofKind_head rfl)
  refine mapParser_passesForeign fun pairs => ?_
  split
  · split
    · exact (causes _ _).bind fun _ => failsOnly_pure _
    · exact failsOnly_throw (ofKind_head rfl)
  · exact failsOnly_throw (ofKind_head rfl)

/-- So does the parser of labelled objects, over the list of its labels. -/
theorem parseLabeledObject_passesForeign (data : Bytes)
    : PassesForeign [.negMalformed, .malformedCriticalFlag] (decode data)
        (Negotiation.parseLabeledObject data) := by
  have label : ∀ v, FailsOnly (OfKind [.negMalformed, .malformedCriticalFlag])
      (Negotiation.riskLabelFromValue v) := by
    intro v
    unfold Negotiation.riskLabelFromValue
    split
    · split
      · refine (failsOnly_raiseIf ?_).bind fun _ => failsOnly_pure _
        exact ⟨.malformedCriticalFlag, by simp, rfl⟩
      · exact failsOnly_throw (ofKind_head rfl)
    · exact failsOnly_throw (ofKind_head rfl)
  refine mapParser_passesForeign fun pairs => ?_
  split
  · split
    · exact (FailsOnly.mapM label).bind fun _ => failsOnly_pure _
    · exact failsOnly_throw (ofKind_head rfl)
  · exact failsOnly_throw (ofKind_head rfl)

/-- The body parsers that catch `NonCanonical`. -/
inductive Caller where
  | uiEvent
  | decision
  | paymentImport
  | nameBinding
  | transition
  | message
  | labeledObject
  | trustRef
  deriving DecidableEq, Repr

/-- The parser returns, or raises a kind that it documents. -/
def Caller.Documented (data : Bytes) : Caller → Prop
  | .uiEvent => FailsOnly (OfKind [.uiMalformed]) (Agui.parseUiEvent data)
  | .decision => FailsOnly (OfKind [.gwMalformed]) (Gateway.parseDecision data)
  | .paymentImport => FailsOnly (OfKind [.payMalformed]) (Payment.parsePaymentImport data)
  | .nameBinding => FailsOnly (OfKind [.nameMalformed]) (Naming.parseNameBinding data)
  | .transition => FailsOnly (OfKind [.nameMalformed]) (Naming.parseTransition data)
  | .message => FailsOnly (OfKind [.negMalformed]) (Negotiation.parseMessage data)
  | .labeledObject =>
      FailsOnly (OfKind [.negMalformed, .malformedCriticalFlag])
        (Negotiation.parseLabeledObject data)
  | .trustRef => FailsOnly (OfKind [.negMalformed]) (Negotiation.parseTrustRef data)

/-- A caller raises what it documents exactly when the decoder meets neither octets that are no
UTF-8 nor an item that is too deep.
-/
theorem Caller.documented_iff (caller : Caller) (data : Bytes)
    : caller.Documented data
      ↔ ¬ Meets BadText unboundedDepth data ∧ ¬ Meets TooDeep unboundedDepth data := by
  cases caller with
  | uiEvent => exact (parseUiEvent_passesForeign data).failsOnly_iff (by decide)
  | decision => exact (parseDecision_passesForeign data).failsOnly_iff (by decide)
  | paymentImport => exact (parsePaymentImport_passesForeign data).failsOnly_iff (by decide)
  | nameBinding => exact (parseNameBinding_passesForeign data).failsOnly_iff (by decide)
  | transition => exact (parseTransition_passesForeign data).failsOnly_iff (by decide)
  | message => exact (parseMessage_passesForeign data).failsOnly_iff (by decide)
  | labeledObject => exact (parseLabeledObject_passesForeign data).failsOnly_iff (by decide)
  | trustRef => exact (parseTrustRef_passesForeign data).failsOnly_iff (by decide)

/-- The decoder keeps to its two exceptions exactly when it meets no text that is not UTF-8, and
every caller keeps to its kinds exactly when the decoder meets neither such a text nor an item
below its last level.
-/
theorem decode_rejections_named_iff (data : Bytes)
    : (∀ maxDepth, FailsOnly Named (decodeBounded data maxDepth) ↔ ¬ Meets BadText maxDepth data)
      ∧ (FailsOnly Named (decode data) ↔ ¬ Meets BadText unboundedDepth data)
      ∧ (∀ caller : Caller, caller.Documented data
        ↔ ¬ Meets BadText unboundedDepth data ∧ ¬ Meets TooDeep unboundedDepth data)
      ∧ ∀ (α : Type) (kinds : List Kind) (malformed : String → Exc) (body : Value → Py α),
        .depthExceeded ∉ kinds → (∀ msg, OfKind kinds (malformed msg))
        → (∀ v, FailsOnly (OfKind kinds) (body v))
        → (FailsOnly (OfKind kinds) (catching malformed body (decode data))
          ↔ ¬ Meets BadText unboundedDepth data ∧ ¬ Meets TooDeep unboundedDepth data) := by
  refine ⟨fun _ => decodeBounded_failsOnly_named, decodeBounded_failsOnly_named,
    fun caller => caller.documented_iff data, ?_⟩
  intro α kinds malformed body other caught later
  exact (catching_passesForeign caught later).failsOnly_iff other

/-- Witness: a caller that returns what was decoded, on the integer zero. -/
theorem zero_caller_documented
    : FailsOnly (OfKind [.uiMalformed])
        (catching Agui.uiMalformed (fun v => (pure v : Py Value)) (decode [0x00])) := by
  obtain ⟨-, -, -, callers⟩ := decode_rejections_named_iff [0x00]
  refine (callers Value [.uiMalformed] _ _ (by decide) (fun _ => ofKind_head rfl)
    (fun v => failsOnly_pure v)).mpr ?_
  have read : decodeBounded [0x00] unboundedDepth = .ok (.u 0) := rfl
  have unmet : ∀ e, Foreign e → ¬ Meets (RaisesAt e) unboundedDepth [0x00] := by
    intro e foreign met
    rw [← decodeBounded_eq_error foreign, read] at met
    cases met
  exact ⟨fun met => unmet _ foreign_unicode (meets_badText.mp met),
    fun met => unmet _ (foreign_depth _) (meets_tooDeep.mp met)⟩

/-- A text string of the single octet 0xFF: the decoder and every caller let the exception of
the text decoding through.
-/
theorem bad_text_escapes
    : decode [0x61, 0xFF] = .error .unicodeDecodeError
      ∧ ¬ FailsOnly Named (decode [0x61, 0xFF])
      ∧ ∀ caller : Caller, ¬ caller.Documented [0x61, 0xFF] := by
  have bad : [(0xFF : UInt8)].toByteArray.utf8Decode? = none := by decide +kernel
  have met : Meets BadText unboundedDepth [0x61, 0xFF] :=
    .here ⟨[0xFF], [], by decide, rfl, bad⟩
  refine ⟨(decodeBounded_eq_error foreign_unicode).mpr (meets_badText.mp met),
    fun named => decodeBounded_failsOnly_named.mp named met, ?_⟩
  intro caller documented
  exact ((caller.documented_iff _).mp documented).1 met

end Naalp.Python.Cbor
