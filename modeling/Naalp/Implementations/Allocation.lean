import Naalp.CanonicalEncoding.Rejections
import Naalp.Implementations.Codec
import Naalp.Python.Envelope
import Naalp.Native.Cbor

/-! Where the Go and Rust decoders panic: nowhere in a slice, and in Rust at a head that announces
more elements than can be allocated.
-/

namespace Naalp.Native.Cbor

open Naalp.Foundation
open Naalp.Implementations
open Naalp.Go (Stop Result)
open Naalp.Python.Cbor (Value Reaches Canonical dec encoding encodedKey encodedPair headBytes
  dec_readsExactly)

-----------------------------------------------------------------------------------------
-- Slices
-----------------------------------------------------------------------------------------

theorem sliceTo_of_le {b : Bytes} {n : Nat} (inside : n ≤ b.length)
    : sliceTo b n = .ok (b.take n) := by
  rw [sliceTo, raiseIf_neg (by omega)]
  rfl

theorem sliceFrom_of_le {b : Bytes} {n : Nat} (inside : n ≤ b.length)
    : sliceFrom b n = .ok (b.drop n) := by
  rw [sliceFrom, raiseIf_neg (by omega)]
  rfl

theorem readExtended_eq (width least : Nat) (truncated : String) (b : Bytes)
    : readExtended width least truncated b = Go.Cbor.readExtended width least truncated b := by
  unfold readExtended Go.Cbor.readExtended
  by_cases short : b.length < width
  · rw [raiseIf_pos short, error_bind, error_bind]
  · rw [raiseIf_neg short, sliceTo_of_le (by omega), sliceFrom_of_le (by omega)]
    rfl

theorem readArg_eq (ai : Nat) (b : Bytes) : readArg ai b = Go.Cbor.readArg ai b := by
  unfold readArg Go.Cbor.readArg
  simp only [readExtended_eq]

/-- A reader that returns no more octets than it was given. -/
def Shrinks (item : Bytes → Result (Value × Bytes)) : Prop :=
  ∀ data v rest, item data = .ok (v, rest) → rest.length ≤ data.length

section Slices

variable {target : Target} {item : Bytes → Result (Value × Bytes)} (shrinks : Shrinks item)

include shrinks

/-- The slice of the key octets is in range, so the round is the one without checks. -/
theorem decodePair_eq (prevKey : Option Bytes) (keyStart : Bytes)
    : decodePair item prevKey keyStart = Go.Cbor.decodePair item prevKey keyStart := by
  unfold decodePair Go.Cbor.decodePair
  cases read : item keyStart with
  | error stop => rfl
  | ok pair =>
      obtain ⟨k, cur⟩ := pair
      have shorter := shrinks _ _ _ read
      have difference : lengthSub keyStart.length cur.length
          = .ok (keyStart.length - cur.length) := by
        rw [lengthSub, raiseIf_neg (by omega)]
        rfl
      simp only [ok_bind, difference, sliceTo_of_le (Nat.sub_le _ _)]

theorem decodePairs_eq (arg : Nat) (rest : Bytes)
    : readLoop (decodePair item) arg none rest = Go.Cbor.decodePairs item arg rest := by
  rw [Go.Cbor.decodePairs, funext fun prev => funext (decodePair_eq shrinks prev)]

omit shrinks in
/-- The contents without a count have no request, and their slices are in range. -/
theorem decodeContent_scalar {major arg : Nat} {rest : Bytes} (array : major ≠ 4) (map : major ≠ 5)
    : decodeContent target item major arg rest = Go.Cbor.decodeContent item major arg rest := by
  match major with
  | 0 | 1 | 6 | _ + 7 => rfl
  | 2 | 3 =>
      dsimp only [decodeContent, Go.Cbor.decodeContent]
      by_cases short : rest.length < arg
      · rw [raiseIf_pos short, raiseIf_pos short]
        rfl
      · rw [raiseIf_neg short, raiseIf_neg short, sliceTo_of_le (by omega),
          sliceFrom_of_le (by omega)]
        rfl
  | 4 => exact (array rfl).elim
  | 5 => exact (map rfl).elim

end Slices

-----------------------------------------------------------------------------------------
-- An allocator without a limit
-----------------------------------------------------------------------------------------

theorem reserve_unlimited (target : Target) (r : Request)
    : reserve target.unlimited r = .ok () :=
  raiseIf_neg (by simp [Target.unlimited])

section Unlimited

variable {target : Target} {remaining : Nat} {item : Bytes → Result (Value × Bytes)}
  (narrows : ∀ data v rest, item data = .ok (v, rest)
    ↔ dec remaining data = .ok (v, rest) ∧ NintsFit v)

include narrows

theorem shrinks_of_narrows : Shrinks item := by
  intro data v rest read
  obtain ⟨decoded, -⟩ := (narrows data v rest).mp read
  obtain ⟨-, rfl⟩ := (dec_readsExactly remaining data v rest).mp decoded
  simp

/-- The elements of an array or a map that was read did fit the input, so comparing the count
first changes nothing.
Witness: an element takes at least one octet, so a count above the rest of the input cannot be
read.
-/
theorem decodeContent_unlimited_eq_ok {major arg : Nat} {body rest : Bytes} {v : Value}
    : decodeContent target.unlimited item major arg body = .ok (v, rest)
      ↔ Python.Cbor.decodeContent (dec remaining) major arg body = .ok (v, rest) ∧ NintsFit v := by
  rw [← decodeContent_eq_ok narrows]
  by_cases array : major = 4
  · subst array
    simp only [decodeContent, Go.Cbor.decodeContent, reserve_unlimited, ok_bind,
      raiseIf_bind_eq_ok]
    constructor
    · intro decoded
      obtain ⟨-, decoded⟩ := decoded
      refine ⟨?_, decoded⟩
      simp only [bind_eq_ok, Prod.exists, decodeItems_eq_ok narrows] at decoded
      obtain ⟨items, tail, ⟨loop, -⟩, -⟩ := decoded
      exact Nat.not_lt.mpr (length_le_of_decodeItems loop)
    · intro decoded
      exact ⟨fun short => decoded.1 short.2, decoded.2⟩
  by_cases map : major = 5
  · subst map
    simp only [decodeContent, Go.Cbor.decodeContent, reserve_unlimited, ok_bind,
      raiseIf_bind_eq_ok, decodePairs_eq (shrinks_of_narrows narrows)]
    constructor
    · intro decoded
      obtain ⟨-, decoded⟩ := decoded
      refine ⟨?_, decoded⟩
      simp only [bind_eq_ok, Prod.exists, decodePairs_eq_ok narrows] at decoded
      obtain ⟨pairs, tail, ⟨loop, -⟩, -⟩ := decoded
      exact Nat.not_lt.mpr (length_le_of_decodePairs loop)
    · intro decoded
      exact ⟨fun short => decoded.1 short.2, decoded.2⟩
  · rw [decodeContent_scalar array map]

end Unlimited

/-- With an allocator without a limit both targets read what the Python decoder reads, less the
wide negative integers; by induction on the levels left.
-/
theorem decodeAt_unlimited_eq_ok (target : Target) (remaining : Nat)
    : ∀ data v rest, decodeAt target.unlimited remaining data = .ok (v, rest)
      ↔ dec remaining data = .ok (v, rest) ∧ NintsFit v := by
  induction remaining with
  | zero =>
      intro data v rest
      simp [decodeAt, dec]
  | succ remaining ih =>
      intro data v rest
      cases data with
      | nil => simp [decodeAt, dec, Python.Cbor.decodeHead]
      | cons ib body =>
          rw [decodeAt, readArg_eq]
          exact headThenContent_eq_ok (decodeContent_unlimited_eq_ok ih)

/-- A value that the decoder can return with `levels` levels left. -/
def Readable (levels : Nat) (v : Value) : Prop := Canonical levels v ∧ NintsFit v

theorem unlimited_readsExactly (target : Target) (levels : Nat)
    : ReadsExactly (decodeAt target.unlimited levels) (Readable levels) encoding := by
  intro data v rest
  rw [decodeAt_unlimited_eq_ok, dec_readsExactly levels data]
  exact and_right_comm

theorem unlimited_shrinks (target : Target) (levels : Nat)
    : Shrinks (decodeAt target.unlimited levels) :=
  shrinks_of_narrows (decodeAt_unlimited_eq_ok target levels)

-----------------------------------------------------------------------------------------
-- A limited allocator stops the decoder or changes nothing
-----------------------------------------------------------------------------------------

theorem reserve_cuts (target : Target) (r : Request)
    : Cuts .panic (reserve target r) (reserve target.unlimited r) := by
  rw [reserve_unlimited, reserve]
  by_cases refused : target.grant r = false
  · exact .inl (raiseIf_pos refused)
  · exact .inr (raiseIf_neg refused)

section Cutting

variable {target : Target} {item full : Bytes → Result (Value × Bytes)}
  (items : ∀ data, Cuts .panic (item data) (full data))

include items

theorem decodePair_cuts (prevKey : Option Bytes) (keyStart : Bytes)
    : Cuts .panic (decodePair item prevKey keyStart) (decodePair full prevKey keyStart) := by
  refine (items keyStart).bind fun _ _ => (Cuts.refl _).bind fun _ _ => (Cuts.refl _).bind
    fun _ _ => (Cuts.refl _).bind fun _ _ => (Cuts.refl _).bind fun _ _ => ?_
  exact (items _).bind fun _ _ => .refl _

theorem itemRound_cuts (state : Unit) (data : Bytes)
    : Cuts .panic (do
          let (it, cur) ← item data
          return (it, state, cur) : Result (Value × Unit × Bytes))
        (do
          let (it, cur) ← full data
          return (it, state, cur)) :=
  (items data).bind fun _ _ => .refl _

/-- A decoder with limits is cut short by a panic only: where it goes on, it reads what the
unlimited one reads.
-/
theorem decodeContent_cuts (major arg : Nat) (rest : Bytes)
    : Cuts .panic (decodeContent target item major arg rest)
        (decodeContent target.unlimited full major arg rest) := by
  match major with
  | 0 | 1 | 2 | 3 | _ + 7 => exact .refl _
  | 4 =>
      refine (Cuts.refl _).bind fun _ _ => (reserve_cuts _ _).bind fun _ _ => Cuts.bind ?_
        fun _ _ => .refl _
      exact readLoop_cuts (itemRound_cuts items) arg () rest
  | 5 =>
      refine (Cuts.refl _).bind fun _ _ => (reserve_cuts _ _).bind fun _ _ => Cuts.bind ?_
        fun _ _ => .refl _
      exact readLoop_cuts (decodePair_cuts items) arg none rest
  | 6 => exact (items rest).bind fun _ _ => .refl _

end Cutting

theorem decodeAt_cuts (target : Target) (levels : Nat) (data : Bytes)
    : Cuts .panic (decodeAt target levels data) (decodeAt target.unlimited levels data) := by
  induction levels generalizing data with
  | zero => exact .refl _
  | succ levels ih =>
      cases data with
      | nil => exact .refl _
      | cons ib body => exact (Cuts.refl _).bind fun _ _ => decodeContent_cuts ih _ _ _

-----------------------------------------------------------------------------------------
-- Where the decoder panics
-----------------------------------------------------------------------------------------

/-- An error that the decoder returns. -/
def Returned (stop : Stop) : Prop := stop ≠ .panic

theorem nonCanonical_returned (msg : String) : Returned (Go.Cbor.nonCanonical msg) := by
  intro same
  cases same

theorem raiseIf_ne_panic {guard : Prop} [Decidable guard] {msg : String}
    : raiseIf guard (Go.Cbor.nonCanonical msg) ≠ .error .panic := by
  intro raised
  have own : FailsOnly Returned (raiseIf guard (Go.Cbor.nonCanonical msg)) :=
    failsOnly_raiseIf (nonCanonical_returned msg)
  exact own .panic raised rfl

/-- Reading an argument never panics: each octet is asked for before it is taken. -/
theorem readArg_ne_panic (ai : Nat) (b : Bytes) : Go.Cbor.readArg ai b ≠ .error .panic := by
  have extended : ∀ width least truncated,
      FailsOnly Returned (Go.Cbor.readExtended width least truncated b) := by
    intro width least truncated
    unfold Go.Cbor.readExtended
    apply FailsOnly.bind
    · exact failsOnly_raiseIf (nonCanonical_returned _)
    intro _
    apply FailsOnly.bind
    · exact failsOnly_raiseIf (nonCanonical_returned _)
    intro _
    exact failsOnly_pure _
  have returned : FailsOnly Returned (Go.Cbor.readArg ai b) := by
    unfold Go.Cbor.readArg
    split_ifs
    · exact failsOnly_pure _
    · exact extended _ _ _
    · exact extended _ _ _
    · exact extended _ _ _
    · exact extended _ _ _
    · exact failsOnly_throw (nonCanonical_returned _)
  intro panicked
  exact returned .panic panicked rfl

theorem Request.fits_iff {r : Request} : r.fits = true ↔ r.count ≤ r.rest.length / r.octets :=
  decide_eq_true_iff

/-- The count of an array or map passes the comparison with the remaining input, where the
target makes one.
-/
def Target.passes (target : Target) (r : Request) : Prop := target.bounded → r.fits

/-- Items without members never panic. -/
theorem scalar_ne_panic {item : Bytes → Result (Value × Bytes)} {major arg : Nat} {rest : Bytes}
    (array : major ≠ 4) (map : major ≠ 5) (tag : major ≠ 6)
    : Go.Cbor.decodeContent item major arg rest ≠ .error .panic := by
  match major with
  | 0 => simp [Go.Cbor.decodeContent]
  | 1 | 2 => simp [Go.Cbor.decodeContent, bind_eq_error, raiseIf_ne_panic]
  | 3 =>
      simp only [Go.Cbor.decodeContent, ne_eq, bind_eq_error, raiseIf_ne_panic, false_or,
        not_exists, not_and]
      intro _ _
      split
      · simp
      · simp [Go.Cbor.nonCanonical]
  | 4 => exact (array rfl).elim
  | 5 => exact (map rfl).elim
  | 6 => exact (tag rfl).elim
  | _ + 7 => simp [Go.Cbor.decodeContent, Go.Cbor.nonCanonical]

section Panics

variable {target : Target} {item : Bytes → Result (Value × Bytes)} {arg : Nat} {rest : Bytes}

theorem reserve_panics {r : Request}
    : reserve target r = .error .panic ↔ target.grant r = false := by
  unfold reserve raiseIf
  split <;> simp_all

/-- An item panics exactly when its request passes the checks and is not granted, or when a
member panics.
Witness: only arrays, maps and tags have members; the other kinds never panic.
-/
theorem decodeContent_panics {major : Nat}
    : decodeContent target item major arg rest = .error .panic
      ↔ major = 4 ∧ target.passes (itemRequest target arg rest)
          ∧ (target.grant (itemRequest target arg rest) = false
            ∨ Go.Cbor.decodeItems item arg rest = .error .panic)
        ∨ major = 5 ∧ target.passes (pairRequest target arg rest)
          ∧ (target.grant (pairRequest target arg rest) = false
            ∨ readLoop (decodePair item) arg none rest = .error .panic)
        ∨ major = 6 ∧ item rest = .error .panic := by
  have loops : ∀ {α β : Type} {guard : Prop} [Decidable guard] {msg : String} {r : Request}
      {loop : Result α} {wrap : α → Result β}, (∀ value, wrap value ≠ .error .panic)
      → ((do
            raiseIf guard (Go.Cbor.nonCanonical msg)
            reserve target r
            let value ← loop
            wrap value) = .error .panic
        ↔ ¬ guard ∧ (target.grant r = false ∨ loop = .error .panic)) := by
    intro α β guard _ msg r loop wrap returns
    simp only [bind_eq_error, raiseIf_ne_panic, false_or, raiseIf_eq_ok, exists_const,
      reserve_panics, returns, and_false, exists_false, or_false]
    refine and_congr_right fun _ => ?_
    by_cases refused : target.grant r = false
    · simp [refused]
    · simp [refused, reserve]
  by_cases array : major = 4
  · subst array
    simp only [decodeContent]
    rw [loops (by simp)]
    simp [Target.passes, itemRequest, Request.fits_iff]
  by_cases map : major = 5
  · subst map
    simp only [decodeContent]
    rw [loops (by simp)]
    simp [Target.passes, pairRequest, Request.fits_iff]
  by_cases tag : major = 6
  · subst tag
    simp [decodeContent, bind_eq_error]
  · rw [decodeContent_scalar array map]
    simp [scalar_ne_panic array map tag, array, map, tag]

end Panics

/-- The key of a pair is above the keys before it. -/
def Above (before : List (Value × Value)) (key : Value) : Prop :=
  ∀ pair ∈ before, encodedKey pair < encoding key

/-- Above the last of ascending keys is above all of them. -/
theorem above_iff_last {before : List (Value × Value)} {key : Value}
    (ascending : (before.map encodedKey).Pairwise (· < ·))
    : (∀ p ∈ before.foldl (fun _ pair => some (encodedKey pair)) none, p < encoding key)
      ↔ Above before key := by
  rcases before.eq_nil_or_concat with rfl | ⟨front, last, rfl⟩
  · simp [Above]
  · rw [List.concat_eq_append, List.map_append, List.pairwise_append] at ascending
    simp only [List.concat_eq_append, List.foldl_append, List.foldl_cons, List.foldl_nil,
      Option.mem_def, Option.some.injEq, forall_eq', Above, List.mem_append, List.mem_singleton]
    constructor
    · intro above pair member
      rcases member with earlier | rfl
      · have below := ascending.2.2 _ (List.mem_map_of_mem earlier) (encodedKey last) (by simp)
        exact List.lt_trans below above
      · exact above
    · intro above
      exact above last (.inr rfl)

section Loops

variable {target : Target} {levels count : Nat} {data : Bytes}

theorem decodeItems_panics
    : Go.Cbor.decodeItems (decodeAt target levels) count data = .error .panic
      ↔ ∃ (before : List Value) (rest : Bytes), before.length < count
        ∧ (∀ it ∈ before, Readable levels it) ∧ data = before.flatMap encoding ++ rest
        ∧ decodeAt target levels rest = .error .panic := by
  unfold Go.Cbor.decodeItems
  rw [readLoop_stops_iff (itemRound_cuts (decodeAt_cuts target levels))
    (Python.Cbor.decodeItem_eq_ok (unlimited_readsExactly target levels))]
  simp only [Python.Cbor.acceptedFrom_items, bind_eq_error, pure_eq_ok, reduceCtorEq, and_false,
    exists_false, or_false]

/-- One round of the map loop with an allocator without a limit. -/
theorem decodePair_unlimited_eq_ok (prev : Option Bytes) (data : Bytes) (pair : Value × Value)
    (after : Option Bytes) (rest : Bytes)
    : decodePair (decodeAt target.unlimited levels) prev data = .ok (pair, after, rest)
      ↔ (Readable levels pair.1 ∧ Readable levels pair.2 ∧ ∀ p ∈ prev, p < encodedKey pair)
        ∧ after = some (encodedKey pair) ∧ data = encodedPair pair ++ rest := by
  rw [decodePair_eq (unlimited_shrinks target levels),
    Implementations.decodePair_eq_ok (decodeAt_unlimited_eq_ok target levels),
    Python.Cbor.decodePair_eq_ok (dec_readsExactly levels)]
  unfold Readable
  tauto

/-- A round whose key was read panics only in the value, after the key order was checked. -/
theorem decodePair_panics_after {item : Bytes → Result (Value × Bytes)} {prev : Option Bytes}
    {key : Value} {rest : Bytes} (read : item (encoding key ++ rest) = .ok (key, rest))
    : decodePair item prev (encoding key ++ rest) = .error .panic
      ↔ (∀ p ∈ prev, p < encoding key) ∧ item rest = .error .panic := by
  have difference : lengthSub (encoding key ++ rest).length rest.length
      = .ok (encoding key).length := by
    rw [lengthSub, raiseIf_neg (by simp), List.length_append, Nat.add_sub_cancel]
    rfl
  have slice : sliceTo (encoding key ++ rest) (encoding key).length = .ok (encoding key) := by
    rw [sliceTo_of_le (by simp), List.take_left]
  have order := @orderChecks_iff prev (encoding key)
  simp only [not_exists, not_and, List.not_le] at order
  simp only [decodePair, read, difference, slice, ok_bind, bind_eq_error, raiseIf_ne_panic,
    false_or, raiseIf_eq_ok, exists_const, pure_eq_ok, reduceCtorEq, and_false, or_false,
    not_exists, not_and, ← order, and_assoc]

/-- A pair panics in its key, or after a key that was read in its value. -/
theorem decodePair_panics {prev : Option Bytes}
    : decodePair (decodeAt target levels) prev data = .error .panic
      ↔ decodeAt target levels data = .error .panic
        ∨ ∃ key rest, Readable levels key ∧ data = encoding key ++ rest
          ∧ (∀ p ∈ prev, p < encoding key) ∧ decodeAt target levels rest = .error .panic := by
  rcases decodeAt_cuts target levels data with stopped | same
  · simp [decodePair, stopped]
  have reads := unlimited_readsExactly target levels data
  rw [← same] at reads
  constructor
  · intro panicked
    rcases bind_eq_error.mp panicked with first | ⟨⟨key, cur⟩, read, -⟩
    · exact .inl first
    · obtain ⟨readable, rfl⟩ := (reads key cur).mp read
      exact .inr ⟨key, cur, readable, rfl, (decodePair_panics_after read).mp panicked⟩
  · intro panicked
    rcases panicked with first | ⟨key, cur, readable, rfl, panicked⟩
    · simp [decodePair, first]
    · exact (decodePair_panics_after ((reads key cur).mpr ⟨readable, rfl⟩)).mpr panicked

theorem decodePairs_panics
    : readLoop (decodePair (decodeAt target levels)) count none data = .error .panic
      ↔ ∃ (before : List (Value × Value)) (rest : Bytes), before.length < count
        ∧ (before.map encodedKey).Pairwise (· < ·)
        ∧ (∀ pair ∈ before, Readable levels pair.1 ∧ Readable levels pair.2)
        ∧ data = before.flatMap encodedPair ++ rest
        ∧ (decodeAt target levels rest = .error .panic
          ∨ ∃ key later, Readable levels key ∧ rest = encoding key ++ later
            ∧ Above before key ∧ decodeAt target levels later = .error .panic) := by
  rw [readLoop_stops_iff (decodePair_cuts (decodeAt_cuts target levels))
    decodePair_unlimited_eq_ok]
  simp only [Python.Cbor.acceptedFrom_pairs, decodePair_panics, and_assoc]
  refine exists_congr fun before => exists_congr fun rest => and_congr_right fun _ =>
    and_congr_right fun ascending => ?_
  simp only [above_iff_last ascending]

end Loops

-----------------------------------------------------------------------------------------
-- The recursion
-----------------------------------------------------------------------------------------

/-- An array or map starts here whose request passes the comparison and is refused. -/
def Refused (target : Target) : (levels : Nat) → Bytes → Prop
  | 0, _ => False
  | _ + 1, data => ∃ count rest, count < 2 ^ 64
      ∧ (data = headBytes 4 count ++ rest ∧ target.passes (itemRequest target count rest)
          ∧ target.grant (itemRequest target count rest) = false
        ∨ data = headBytes 5 count ++ rest ∧ target.passes (pairRequest target count rest)
          ∧ target.grant (pairRequest target count rest) = false)

/-- A panic comes after a head that was read. -/
theorem decodeAt_succ_panics {target : Target} {levels : Nat} {data : Bytes}
    : decodeAt target (levels + 1) data = .error .panic
      ↔ ∃ major arg rest, (major < 8 ∧ arg < 2 ^ 64 ∧ data = headBytes major arg ++ rest)
        ∧ decodeContent target (decodeAt target levels) major arg rest = .error .panic := by
  simp only [← Python.Cbor.decodeHead_eq_ok]
  cases data with
  | nil => simp [decodeAt, Python.Cbor.decodeHead, Go.Cbor.nonCanonical]
  | cons ib body =>
      simp only [decodeAt, bind_eq_error, readArg_ne_panic, false_or, Prod.exists, readArg_eq,
        readArg_eq_ok, Python.Cbor.decodeHead, bind_eq_ok, raiseIf_eq_ok, exists_const, pure_eq_ok,
        Except.ok.injEq, Prod.mk.injEq]
      constructor
      · intro panicked
        obtain ⟨arg, rest, read, panicked⟩ := panicked
        have definite : ib.toNat &&& 31 ≠ 31 := by
          intro indefinite
          rw [indefinite] at read
          cases read
        exact ⟨_, arg, rest, ⟨definite, arg, rest, read, rfl, rfl, rfl⟩, panicked⟩
      · intro panicked
        obtain ⟨_, _, _, ⟨-, arg, rest, read, rfl, rfl, rfl⟩, panicked⟩ := panicked
        exact ⟨arg, rest, read, panicked⟩

/-- A panic is a refused request that the decoder came to, by induction on the levels left. -/
theorem reaches_of_panic {target : Target} {levels : Nat} {data : Bytes}
    (panicked : decodeAt target levels data = .error .panic)
    : Reaches (Refused target) Readable Above levels data := by
  induction levels generalizing data with
  | zero => cases panicked
  | succ levels ih =>
      obtain ⟨major, arg, rest, ⟨-, size, rfl⟩, inside⟩ := decodeAt_succ_panics.mp panicked
      rcases decodeContent_panics.mp inside with ⟨rfl, passed, refused | loop⟩
        | ⟨rfl, passed, refused | loop⟩ | ⟨rfl, content⟩
      · exact .here ⟨arg, rest, size, .inl ⟨rfl, passed, refused⟩⟩
      · obtain ⟨before, later, more, members, rfl, stopped⟩ := decodeItems_panics.mp loop
        exact .item size more members (ih stopped)
      · exact .here ⟨arg, rest, size, .inr ⟨rfl, passed, refused⟩⟩
      · obtain ⟨before, later, more, ascending, members, rfl, stopped⟩ :=
          decodePairs_panics.mp loop
        rcases stopped with stopped | ⟨key, last, readable, rfl, above, stopped⟩
        · exact .key size more ascending members (ih stopped)
        · exact .value size more ascending members readable above (ih stopped)
      · exact .tag size (ih content)

/-- Without the comparison, every refused request that the decoder comes to makes it panic, by
induction on the way there.
-/
theorem panics_of_reaches {target : Target} (unguarded : target.bounded = false) {levels : Nat}
    {data : Bytes} (reached : Reaches (Refused target) Readable Above levels data)
    : decodeAt target levels data = .error .panic := by
  have passes : ∀ r, target.passes r := by
    intro r bounded
    rw [unguarded] at bounded
    cases bounded
  induction reached with
  | @here levels data found =>
      cases levels with
      | zero => exact found.elim
      | succ levels =>
          obtain ⟨count, rest, size, request⟩ := found
          rcases request with ⟨rfl, passed, refused⟩ | ⟨rfl, passed, refused⟩
          · exact decodeAt_succ_panics.mpr ⟨4, count, rest, ⟨by decide, size, rfl⟩,
              decodeContent_panics.mpr (.inl ⟨rfl, passed, .inl refused⟩)⟩
          · exact decodeAt_succ_panics.mpr ⟨5, count, rest, ⟨by decide, size, rfl⟩,
              decodeContent_panics.mpr (.inr (.inl ⟨rfl, passed, .inl refused⟩))⟩
  | @item levels count before rest size more members _ stopped =>
      refine decodeAt_succ_panics.mpr ⟨4, count, _, ⟨by decide, size, rfl⟩,
        decodeContent_panics.mpr (.inl ⟨rfl, passes _, .inr ?_⟩)⟩
      exact decodeItems_panics.mpr ⟨before, rest, more, members, rfl, stopped⟩
  | @key levels count before rest size more ascending members _ stopped =>
      refine decodeAt_succ_panics.mpr ⟨5, count, _, ⟨by decide, size, rfl⟩,
        decodeContent_panics.mpr (.inr (.inl ⟨rfl, passes _, .inr ?_⟩))⟩
      exact decodePairs_panics.mpr ⟨before, rest, more, ascending, members, rfl, .inl stopped⟩
  | @value levels count before key rest size more ascending members readable above _ stopped =>
      refine decodeAt_succ_panics.mpr ⟨5, count, _, ⟨by decide, size, rfl⟩,
        decodeContent_panics.mpr (.inr (.inl ⟨rfl, passes _, .inr ?_⟩))⟩
      exact decodePairs_panics.mpr ⟨before, encoding key ++ rest, more, ascending, members, rfl,
        .inr ⟨key, rest, readable, rfl, above, stopped⟩⟩
  | @tag levels number rest size _ stopped =>
      exact decodeAt_succ_panics.mpr ⟨6, number, rest, ⟨by decide, size, rfl⟩,
        decodeContent_panics.mpr (.inr (.inr ⟨rfl, stopped⟩))⟩

theorem decodeTop_panics {target : Target} {data : Bytes} {maxDepth : Nat}
    : decodeTop target data maxDepth = .error .panic
      ↔ decodeAt target maxDepth data = .error .panic := by
  simp only [decodeTop, bind_eq_error, raiseIf_ne_panic, pure_eq_ok, reduceCtorEq, and_false,
    exists_false, or_false]

-----------------------------------------------------------------------------------------
-- Objects of bounded size
-----------------------------------------------------------------------------------------

open Naalp.Python.Envelope (maxObjectSize)

/-- (NeverAborts target data maxDepth) says that the decoder returns, and that every request is at
most what the remaining input can fill: an allocator that refuses any other is not noticed.
-/
structure NeverAborts (target : Target) (data : Bytes) (maxDepth : Nat) : Prop where
  returns : decodeTop target data maxDepth ≠ .error .panic
  filled : decodeTop target.strict data maxDepth ≠ .error .panic

/-- An array or map starts here that announces more than the octets after its head can fill. -/
def Overcommits : (levels : Nat) → Bytes → Prop
  | 0, _ => False
  | _ + 1, data => ∃ count rest, count < 2 ^ 64
      ∧ (data = headBytes 4 count ++ rest ∧ rest.length < count
        ∨ data = headBytes 5 count ++ rest ∧ rest.length / 2 < count)

/-- A target whose allocator has a limit that as many values as the largest input has octets stay
below.
-/
structure Roomy (target : Target) (limit bound : Nat) : Prop where
  grants : ∀ r, target.grant r = decide (r.count * r.elementSize ≤ limit)
  pairs : target.pairSize = 2 * target.valueSize
  layout : target.valueSize * bound ≤ limit

/-- The strict allocator refuses what does not fit, where the allocator grants what fits. -/
theorem unfit_of_refused {target : Target} {r : Request}
    (granted : r.fits = true → target.grant r = true) (refused : target.strict.grant r = false)
    : ¬ r.fits = true := by
  intro fits
  simp only [Target.strict, Bool.and_eq_false_iff] at refused
  rcases refused with denied | denied
  · exact Bool.false_ne_true (denied.symm.trans (granted fits))
  · exact Bool.false_ne_true (denied.symm.trans fits)

section Bounded

variable {target : Target} {limit bound : Nat} (roomy : Roomy target limit bound)

include roomy

/-- A request for items that fits the octets left is granted. -/
theorem Roomy.item_granted {count : Nat} {rest : Bytes} (size : rest.length ≤ bound)
    (fits : (itemRequest target count rest).fits = true)
    : target.grant (itemRequest target count rest) = true := by
  rw [Request.fits_iff] at fits
  simp only [itemRequest, Nat.div_one] at fits
  rw [roomy.grants, decide_eq_true_iff]
  calc
    count * target.valueSize ≤ bound * target.valueSize :=
      Nat.mul_le_mul_right _ (by omega)
    _ ≤ limit := by rw [Nat.mul_comm]; exact roomy.layout

/-- So is a request for pairs. -/
theorem Roomy.pair_granted {count : Nat} {rest : Bytes} (size : rest.length ≤ bound)
    (fits : (pairRequest target count rest).fits = true)
    : target.grant (pairRequest target count rest) = true := by
  rw [Request.fits_iff] at fits
  simp only [pairRequest] at fits
  rw [roomy.grants, decide_eq_true_iff]
  calc
    count * target.pairSize = count * 2 * target.valueSize := by
      rw [roomy.pairs, Nat.mul_assoc]
    _ ≤ bound * target.valueSize := Nat.mul_le_mul_right _ (by omega)
    _ ≤ limit := by rw [Nat.mul_comm]; exact roomy.layout

/-- Within the bound the allocators refuse only what the input cannot fill. -/
theorem Roomy.refused_overcommits {levels : Nat} {data : Bytes}
    (size : data.length ≤ bound) (refused : Refused target.strict levels data)
    : target.bounded = false ∧ Overcommits levels data := by
  cases levels with
  | zero => exact refused.elim
  | succ levels =>
      obtain ⟨count, rest, small, request⟩ := refused
      rcases request with ⟨rfl, passed, request⟩ | ⟨rfl, passed, request⟩
      · have shorter : rest.length ≤ bound := by
          simp only [List.length_append] at size
          omega
        have unfit := unfit_of_refused (roomy.item_granted shorter) request
        refine ⟨Bool.eq_false_iff.mpr fun bounded => unfit (passed bounded), count, rest, small,
          .inl ⟨rfl, ?_⟩⟩
        rw [Request.fits_iff] at unfit
        simpa [itemRequest] using unfit
      · have shorter : rest.length ≤ bound := by
          simp only [List.length_append] at size
          omega
        have unfit := unfit_of_refused (roomy.pair_granted shorter) request
        refine ⟨Bool.eq_false_iff.mpr fun bounded => unfit (passed bounded), count, rest, small,
          .inr ⟨rfl, ?_⟩⟩
        rw [Request.fits_iff] at unfit
        simpa [pairRequest] using unfit

omit roomy in
/-- What a decoder refuses is refused by the one that grants nothing too large. -/
theorem Refused.strict {levels : Nat} {data : Bytes} (refused : Refused target levels data)
    : Refused target.strict levels data := by
  cases levels with
  | zero => exact refused
  | succ levels =>
      have denied : ∀ {r}, target.grant r = false → target.strict.grant r = false := by
        intro r denied
        simp [Target.strict, denied]
      obtain ⟨count, rest, small, request⟩ := refused
      refine ⟨count, rest, small, ?_⟩
      rcases request with ⟨octets, passed, request⟩ | ⟨octets, passed, request⟩
      · exact .inl ⟨octets, passed, denied request⟩
      · exact .inr ⟨octets, passed, denied request⟩

/-- Both allocators make the decoder panic only at a head that announces too much. -/
theorem Roomy.overcommitted_of_panic {data : Bytes} {maxDepth : Nat}
    (size : data.length ≤ bound)
    (panicked : decodeTop target data maxDepth = .error .panic
      ∨ decodeTop target.strict data maxDepth = .error .panic)
    : Reaches (fun levels data => target.bounded = false ∧ Overcommits levels data) Readable Above
        maxDepth data := by
  rcases panicked with panicked | panicked
  · exact (reaches_of_panic (decodeTop_panics.mp panicked)).imp
      (fun _ _ small refused => roomy.refused_overcommits small refused.strict) size
  · exact (reaches_of_panic (decodeTop_panics.mp panicked)).imp
      (fun _ _ small refused => roomy.refused_overcommits small refused) size

omit roomy in
/-- A count beyond the octets left is refused by that decoder. -/
theorem Overcommits.refused (unguarded : target.bounded = false) {levels : Nat} {data : Bytes}
    (exceeds : Overcommits levels data) : Refused target.strict levels data := by
  cases levels with
  | zero => exact exceeds
  | succ levels =>
      have passes : ∀ r, target.strict.passes r := by
        intro r bounded
        exact (Bool.false_ne_true (unguarded.symm.trans bounded)).elim
      have denied : ∀ {r : Request}, ¬ r.count ≤ r.rest.length / r.octets
          → target.strict.grant r = false := by
        intro r unfit
        rw [← Request.fits_iff, Bool.not_eq_true] at unfit
        simp [Target.strict, unfit]
      obtain ⟨count, rest, small, request⟩ := exceeds
      refine ⟨count, rest, small, ?_⟩
      rcases request with ⟨octets, few⟩ | ⟨octets, few⟩
      · exact .inl ⟨octets, passes _, denied (by simpa [itemRequest] using few)⟩
      · exact .inr ⟨octets, passes _, denied (by simpa [pairRequest] using few)⟩

/-- Without the comparison of the count, decoding never aborts exactly when it reaches no count
that overcommits.
-/
theorem Roomy.neverAborts_iff (unguarded : target.bounded = false) {data : Bytes}
    (size : data.length ≤ bound) {maxDepth : Nat}
    : NeverAborts target data maxDepth ↔ ¬ Reaches Overcommits Readable Above maxDepth data := by
  constructor
  · intro never reached
    have refused : Reaches (Refused target.strict) Readable Above maxDepth data :=
      reached.imp (fun _ _ _ exceeds => exceeds.refused unguarded) size
    have strictUnguarded : target.strict.bounded = false := unguarded
    exact never.filled (decodeTop_panics.mpr (panics_of_reaches strictUnguarded refused))
  · intro unreached
    have met : ¬ Reaches (fun levels data => target.bounded = false ∧ Overcommits levels data)
        Readable Above maxDepth data :=
      fun reached => unreached (reached.imp (fun _ _ _ exceeds => exceeds.2) le_rfl)
    exact ⟨fun panicked => met (roomy.overcommitted_of_panic size (.inl panicked)),
      fun panicked => met (roomy.overcommitted_of_panic size (.inr panicked))⟩

/-- With the comparison no request is refused. -/
theorem Roomy.neverAborts (guarded : target.bounded = true) {data : Bytes}
    (size : data.length ≤ bound) (maxDepth : Nat)
    : NeverAborts target data maxDepth := by
  have unmet : ¬ Reaches (fun levels data => target.bounded = false ∧ Overcommits levels data)
      Readable Above maxDepth data := by
    intro reached
    induction reached with
    | here found => exact Bool.false_ne_true (found.1.symm.trans guarded)
    | item _ _ _ _ ih | key _ _ _ _ _ ih | value _ _ _ _ _ _ _ ih | tag _ _ ih =>
        exact ih (by simp only [List.length_append] at size; omega)
  exact ⟨fun panicked => unmet (roomy.overcommitted_of_panic size (.inl panicked)),
    fun panicked => unmet (roomy.overcommitted_of_panic size (.inr panicked))⟩

end Bounded

-----------------------------------------------------------------------------------------
-- The two implementations
-----------------------------------------------------------------------------------------

/-- An array or map starts here for whose count the Rust decoder asks for more than `isize::MAX`
octets.
-/
def Oversized (valueSize : Nat) : (levels : Nat) → Bytes → Prop
  | 0, _ => False
  | _ + 1, data => ∃ count rest, count < 2 ^ 64
      ∧ (data = headBytes 4 count ++ rest ∧ Rust.Cbor.isizeMax < count * valueSize
        ∨ data = headBytes 5 count ++ rest ∧ Rust.Cbor.isizeMax < count * (2 * valueSize))

theorem rust_refused_iff {valueSize levels : Nat} {data : Bytes}
    : Refused (Rust.Cbor.target valueSize) levels data ↔ Oversized valueSize levels data := by
  cases levels with
  | zero => exact Iff.rfl
  | succ levels =>
      simp [Refused, Oversized, Target.passes, Rust.Cbor.target, itemRequest, pairRequest]

theorem rust_panics_iff {valueSize : Nat} {data : Bytes} {maxDepth : Nat}
    : Rust.Cbor.decodeBounded valueSize data maxDepth = .error .panic
      ↔ Reaches (Oversized valueSize) Readable Above maxDepth data := by
  have same : Refused (Rust.Cbor.target valueSize) = Oversized valueSize := by
    funext levels data
    exact propext rust_refused_iff
  rw [← same]
  exact ⟨fun panicked => reaches_of_panic (decodeTop_panics.mp panicked),
    fun reached => decodeTop_panics.mpr (panics_of_reaches rfl reached)⟩

/-- On an object of bounded size the Rust decoder meets the law exactly when it comes to no head
that announces more than the octets after it can fill; it panics exactly at a head that asks for
more than `isize::MAX` octets; and the Go decoder meets the law always.
-/
theorem decoders_never_abort_iff {rustSize goSize limit : Nat} {data : Bytes}
    (rustLayout : rustSize * maxObjectSize ≤ Rust.Cbor.isizeMax)
    (goLayout : goSize * maxObjectSize ≤ limit) (size : data.length ≤ maxObjectSize)
    : (∀ maxDepth, NeverAborts (Rust.Cbor.target rustSize) data maxDepth
        ↔ ¬ Reaches Overcommits Readable Above maxDepth data)
      ∧ (∀ maxDepth, Rust.Cbor.decodeBounded rustSize data maxDepth ≠ .error .panic
        ↔ ¬ Reaches (Oversized rustSize) Readable Above maxDepth data)
      ∧ (Rust.Cbor.decode rustSize data ≠ .error .panic
        ↔ ¬ Reaches (Oversized rustSize) Readable Above Rust.Cbor.maxDepthUnbounded data)
      ∧ ∀ maxDepth, NeverAborts (Go.Cbor.target goSize limit) data maxDepth := by
  have rust : Roomy (Rust.Cbor.target rustSize) Rust.Cbor.isizeMax maxObjectSize :=
    ⟨fun _ => rfl, rfl, rustLayout⟩
  have go : Roomy (Go.Cbor.target goSize limit) limit maxObjectSize :=
    ⟨fun _ => rfl, rfl, goLayout⟩
  exact ⟨fun _ => rust.neverAborts_iff rfl size, fun _ => not_congr rust_panics_iff,
    not_congr rust_panics_iff, go.neverAborts rfl size⟩

/-- Witness: values of 32 octets in Rust and 16 in Go, on the array of one integer. -/
theorem singleton_array_never_aborts
    : NeverAborts (Go.Cbor.target 16 (2 ^ 48)) [0x81, 0x00] 16
      ∧ (NeverAborts (Rust.Cbor.target 32) [0x81, 0x00] 16
        ↔ ¬ Reaches Overcommits Readable Above 16 [0x81, 0x00]) := by
  obtain ⟨rust, -, -, go⟩ := @decoders_never_abort_iff 32 16 (2 ^ 48) [0x81, 0x00]
    (by decide) (by decide) (by decide)
  exact ⟨go 16, rust 16⟩

/-- Nine octets that announce an array of 2^64 - 1 items: the Rust decoder panics, on both paths,
and the Go decoder refuses them.
-/
theorem announced_array_aborts
    : Rust.Cbor.decode 32 [0x9B, 0xFF, 0xFF, 0xFF, 0xFF, 0xFF, 0xFF, 0xFF, 0xFF] = .error .panic
      ∧ Rust.Cbor.decodeBounded 32 [0x9B, 0xFF, 0xFF, 0xFF, 0xFF, 0xFF, 0xFF, 0xFF, 0xFF] 16
        = .error .panic
      ∧ Go.Cbor.decode [0x9B, 0xFF, 0xFF, 0xFF, 0xFF, 0xFF, 0xFF, 0xFF, 0xFF]
        = .error (Go.Cbor.nonCanonical
          "array declares more elements than remaining input can contain") := by
  have announced : [0x9B, 0xFF, 0xFF, 0xFF, 0xFF, 0xFF, 0xFF, 0xFF, 0xFF]
      = headBytes 4 (2 ^ 64 - 1) ++ [] := by
    decide
  have oversized : ∀ levels, Reaches (Oversized 32) Readable Above (levels + 1)
      [0x9B, 0xFF, 0xFF, 0xFF, 0xFF, 0xFF, 0xFF, 0xFF, 0xFF] := by
    intro levels
    exact .here ⟨2 ^ 64 - 1, [], by decide, .inl ⟨announced, by decide⟩⟩
  exact ⟨rust_panics_iff.mpr (oversized _), rust_panics_iff.mpr (oversized 15), rfl⟩

-----------------------------------------------------------------------------------------
-- The checked decoders and the plain one
-----------------------------------------------------------------------------------------

/-- The same target with the comparison. -/
def Target.guarded (target : Target) : Target := { target with bounded := true }

theorem decodePair_mono {item wide : Bytes → Result (Value × Bytes)}
    (items : ∀ data result, item data = .ok result → wide data = .ok result)
    {prev : Option Bytes} {data : Bytes} {result : (Value × Value) × Option Bytes × Bytes}
    (read : decodePair item prev data = .ok result)
    : decodePair wide prev data = .ok result := by
  simp only [decodePair, bind_eq_ok, raiseIf_eq_ok, exists_const, Prod.exists] at read ⊢
  obtain ⟨key, cur, keyRead, octets, difference, kbytes, slice, below, same, val, rest, valueRead,
    ended⟩ := read
  exact ⟨key, cur, items _ _ keyRead, octets, difference, kbytes, slice, below, same, val, rest,
    items _ _ valueRead, ended⟩

/-- What a decoder with the comparison reads is read without it. -/
theorem decodeContent_of_guarded {target : Target} {item wide : Bytes → Result (Value × Bytes)}
    (items : ∀ data result, item data = .ok result → wide data = .ok result)
    {major arg : Nat} {rest : Bytes} {result : Value × Bytes}
    (read : decodeContent target.guarded item major arg rest = .ok result)
    : decodeContent target wide major arg rest = .ok result := by
  match major with
  | 0 | 1 | 2 | 3 | _ + 7 => exact read
  | 4 =>
      simp only [decodeContent, bind_eq_ok, raiseIf_eq_ok, exists_const, Prod.exists] at read ⊢
      obtain ⟨enough, _, reserved, values, cur, loop, same⟩ := read
      refine ⟨fun short => enough ⟨rfl, short.2⟩, _, reserved, values, cur, ?_, same⟩
      refine readLoop_mono ?_ loop
      intro _ data round read
      simp only [bind_eq_ok, Prod.exists] at read ⊢
      obtain ⟨it, later, first, same⟩ := read
      exact ⟨it, later, items _ _ first, same⟩
  | 5 =>
      simp only [decodeContent, bind_eq_ok, raiseIf_eq_ok, exists_const, Prod.exists] at read ⊢
      obtain ⟨enough, _, reserved, pairs, cur, loop, same⟩ := read
      refine ⟨fun short => enough ⟨rfl, short.2⟩, _, reserved, pairs, cur, ?_, same⟩
      exact readLoop_mono (fun _ _ _ => decodePair_mono items) loop
  | 6 =>
      simp only [decodeContent, bind_eq_ok, Prod.exists] at read ⊢
      obtain ⟨content, cur, inside, same⟩ := read
      exact ⟨content, cur, items _ _ inside, same⟩

/-- What is read with the comparison is read without it, by induction on the levels left. -/
theorem decodeAt_of_guarded {target : Target} {levels : Nat} {data : Bytes} {result : Value × Bytes}
    (read : decodeAt target.guarded levels data = .ok result)
    : decodeAt target levels data = .ok result := by
  induction levels generalizing data result with
  | zero => cases read
  | succ levels ih =>
      cases data with
      | nil => cases read
      | cons ib body =>
          simp only [decodeAt, bind_eq_ok, Prod.exists] at read ⊢
          obtain ⟨arg, rest, head, content⟩ := read
          exact ⟨arg, rest, head, decodeContent_of_guarded (fun _ _ => ih) content⟩

/-- With the comparison and without a limit the checked decoder is the plain one of Go, by
induction on the levels left.
-/
theorem unlimited_eq_go {target : Target} (guarded : target.bounded = true) (levels : Nat)
    : decodeAt target.unlimited levels = Go.Cbor.decodeAt levels := by
  have bounded : target.unlimited.bounded = true := guarded
  induction levels with
  | zero => rfl
  | succ levels ih =>
      have shrinks := unlimited_shrinks target levels
      funext data
      cases data with
      | nil => rfl
      | cons ib body =>
          rw [decodeAt, Go.Cbor.decodeAt, readArg_eq, ih]
          rw [ih] at shrinks
          congr 1
          funext read
          obtain ⟨arg, rest⟩ := read
          by_cases array : ib.toNat >>> 5 = 4
          · simp only [array, decodeContent, Go.Cbor.decodeContent, bounded, true_and,
              reserve_unlimited, ok_bind]
          by_cases map : ib.toNat >>> 5 = 5
          · simp only [map, decodeContent, Go.Cbor.decodeContent, bounded, true_and,
              reserve_unlimited, ok_bind, decodePairs_eq shrinks]
          · exact decodeContent_scalar array map

/-- Within the bound the checked Go decoder does what the plain one does. -/
theorem Roomy.decodeTop_eq_go {target : Target} {limit bound : Nat}
    (roomy : Roomy target limit bound) (guarded : target.bounded = true) {data : Bytes}
    (size : data.length ≤ bound)
    (maxDepth : Nat)
    : decodeTop target data maxDepth = Go.Cbor.decodeBounded data maxDepth := by
  have returns := (roomy.neverAborts guarded size maxDepth).returns
  rcases decodeAt_cuts target maxDepth data with stopped | same
  · exact (returns (decodeTop_panics.mpr stopped)).elim
  · rw [decodeTop, same, unlimited_eq_go guarded]
    rfl

/-- Whatever the Rust decoder returns the Go decoder returns. -/
theorem goDecodeBounded_of_rust {valueSize : Nat} {data : Bytes} {maxDepth : Nat} {v : Value}
    (decoded : Rust.Cbor.decodeBounded valueSize data maxDepth = .ok v)
    : Go.Cbor.decodeBounded data maxDepth = .ok v := by
  rw [Rust.Cbor.decodeBounded, Rust.Cbor.decodeTop, decodeTop] at decoded
  obtain ⟨⟨_, rest⟩, read, ended⟩ := bind_eq_ok.mp decoded
  rcases decodeAt_cuts (Rust.Cbor.target valueSize) maxDepth data with stopped | same
  · rw [stopped] at read
    cases read
  · rw [same, decodeAt_unlimited_eq_ok, ← decodeAt_eq_ok] at read
    rw [Go.Cbor.decodeBounded, Go.Cbor.decodeTop, read]
    exact ended

/-- Within the bound the Rust decoder returns the values that the Go decoder returns;
where it panics the Go decoder refuses.
-/
theorem rustDecodeBounded_eq_ok {valueSize bound : Nat} {data : Bytes}
    (layout : valueSize * bound ≤ Rust.Cbor.isizeMax) (size : data.length ≤ bound)
    {maxDepth : Nat} {v : Value}
    : Rust.Cbor.decodeBounded valueSize data maxDepth = .ok v
      ↔ Go.Cbor.decodeBounded data maxDepth = .ok v := by
  refine ⟨goDecodeBounded_of_rust, ?_⟩
  intro decoded
  have roomy : Roomy (Rust.Cbor.target valueSize).guarded Rust.Cbor.isizeMax bound :=
    ⟨fun _ => rfl, rfl, layout⟩
  rw [← roomy.decodeTop_eq_go rfl size, decodeTop] at decoded
  obtain ⟨⟨_, rest⟩, read, ended⟩ := bind_eq_ok.mp decoded
  rw [Rust.Cbor.decodeBounded, Rust.Cbor.decodeTop, decodeTop, decodeAt_of_guarded read]
  exact ended

end Naalp.Native.Cbor
