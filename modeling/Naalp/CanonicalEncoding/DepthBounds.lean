import Naalp.CanonicalEncoding.RoundTrip

/-! Decoding with different bounds on the nesting. A tighter bound stops the decoder or changes
nothing, and what it lets through is what nests no deeper.
-/

namespace Naalp.Python.Cbor

open Naalp.Foundation

-----------------------------------------------------------------------------------------
-- A tighter bound stops or changes nothing
-----------------------------------------------------------------------------------------

def nestsTooDeep : Exc := .depthExceeded "CBOR nesting depth exceeds the maximum"

section Cutting

variable {item full : Bytes → Py (Value × Bytes)}
  (items : ∀ data, Cuts nestsTooDeep (item data) (full data))

include items

theorem decodePair_cuts (prev : Option Bytes) (before : Bytes)
    : Cuts nestsTooDeep (decodePair item prev before) (decodePair full prev before) :=
  (items before).bind fun _ _ => (items _).bind fun _ _ => .refl _

theorem decodeItems_cuts (count : Nat) (cur : Bytes)
    : Cuts nestsTooDeep (decodeItems item count cur) (decodeItems full count cur) := by
  refine readLoop_cuts ?_ count () cur
  intro _ data
  exact (items data).bind fun _ _ => .refl _

theorem decodeContent_cuts (major arg : Nat) (rest : Bytes)
    : Cuts nestsTooDeep (decodeContent item major arg rest)
      (decodeContent full major arg rest) := by
  match major with
  | 0 | 1 | 2 | 3 | _ + 7 => exact .refl _
  | 4 => exact (decodeItems_cuts items arg rest).bind fun _ _ => .refl _
  | 5 => exact (readLoop_cuts (decodePair_cuts items) arg none rest).bind fun _ _ => .refl _
  | 6 => exact (items rest).bind fun _ _ => .refl _

end Cutting

theorem dec_cuts (levels more : Nat) (data : Bytes)
    : Cuts nestsTooDeep (dec levels data) (dec (levels + more) data) := by
  induction levels generalizing data with
  | zero => exact .inl rfl
  | succ levels ih =>
      rw [Nat.succ_add]
      exact (Cuts.refl _).bind fun _ _ => decodeContent_cuts ih _ _ _

theorem decodeBounded_cuts (data : Bytes) (levels more : Nat)
    : Cuts nestsTooDeep (decodeBounded data levels) (decodeBounded data (levels + more)) :=
  (dec_cuts levels more data).bind fun _ _ => .refl _

-----------------------------------------------------------------------------------------
-- What the bounds let through
-----------------------------------------------------------------------------------------

variable {data : Bytes} {levels more : Nat} {v : Value}

theorem canonical_iff_within
    : Canonical levels v ↔ Canonical (levels + more) v ∧ depth v ≤ levels := by
  constructor
  · intro canonical
    exact ⟨canonical.mono (Nat.le_add_right levels more), canonical.within⟩
  · intro both
    exact ⟨both.1.encodable, both.1.ascending, both.2⟩

/-- The tighter bound lets through what the looser one does and what nests within it. -/
theorem decodeBounded_iff_within
    : decodeBounded data levels = .ok v
      ↔ decodeBounded data (levels + more) = .ok v ∧ depth v ≤ levels := by
  rw [decodeBounded_eq_ok, decodeBounded_eq_ok, @canonical_iff_within levels more, and_right_comm]

/-- What nests deeper stops the decoder, whatever else could be found fault with. -/
theorem decodeBounded_of_deeper (decoded : decodeBounded data (levels + more) = .ok v)
    (deeper : levels < depth v) : decodeBounded data levels = .error nestsTooDeep := by
  rcases decodeBounded_cuts data levels more with stopped | same
  · exact stopped
  · have within := (decodeBounded_eq_ok.mp (same.trans decoded)).1.within
    exact (Nat.not_le.mpr deeper within).elim

/-- Bounded decoding agrees with unbounded decoding on the values within both bounds, and reports
the nesting of a value beyond its own.
-/
theorem bounded_decoding_agrees (data : Bytes) (maxDepth : Nat)
    : (maxDepth ≤ unboundedDepth → ∀ v,
        decodeBounded data maxDepth = .ok v ↔ decode data = .ok v ∧ depth v ≤ maxDepth)
      ∧ (unboundedDepth ≤ maxDepth → ∀ v,
        decode data = .ok v ↔ decodeBounded data maxDepth = .ok v ∧ depth v ≤ unboundedDepth)
      ∧ ∀ v, decode data = .ok v → maxDepth < depth v →
        decodeBounded data maxDepth = .error nestsTooDeep := by
  refine ⟨?_, ?_, ?_⟩
  · intro tighter v
    obtain ⟨more, sum⟩ := Nat.exists_eq_add_of_le tighter
    rw [decode, sum]
    exact decodeBounded_iff_within
  · intro looser v
    obtain ⟨more, sum⟩ := Nat.exists_eq_add_of_le looser
    rw [decode, sum]
    exact decodeBounded_iff_within
  · intro v decoded deeper
    have within := (decode_eq_ok.mp decoded).1.within
    obtain ⟨more, sum⟩ := Nat.exists_eq_add_of_le (deeper.le.trans within)
    rw [decode, sum] at decoded
    exact decodeBounded_of_deeper decoded deeper

/-- The theorem on an array of arrays, which is decoded with two levels and refused with one. -/
theorem bounded_decoding_agrees_nested
    : decodeBounded [0x81, 0x80] 2 = .ok (.a [.a []])
      ∧ decodeBounded [0x81, 0x80] 1 = .error nestsTooDeep := by
  have decoded : decode [0x81, 0x80] = .ok (.a [.a []]) := rfl
  refine ⟨?_, ?_⟩
  · exact ((bounded_decoding_agrees _ 2).1 (by decide) _).mpr ⟨decoded, by decide⟩
  · exact (bounded_decoding_agrees _ 1).2.2 _ decoded (by decide)

-----------------------------------------------------------------------------------------
-- A bound looser than that of unbounded decoding
-----------------------------------------------------------------------------------------

/-- Arrays around a value make it nest so much deeper, by induction on their number. -/
theorem canonical_arrays (canonical : Canonical levels v) (n : Nat)
    : Canonical (levels + n) ((fun v => .a [v])^[n] v)
      ∧ depth ((fun v => .a [v])^[n] v) = depth v + n := by
  induction n with
  | zero => exact ⟨canonical, rfl⟩
  | succ n ih =>
      rw [Function.iterate_succ_apply']
      refine ⟨canonical_a.mpr ⟨Nat.one_lt_two_pow (by decide), ?_⟩, ?_⟩
      · intro item member
        exact List.mem_singleton.mp member ▸ ih.1
      · rw [depth, depthItems, ih.2, depthItems, Nat.max_zero, Nat.add_assoc]

/-- One array more than unbounded decoding takes is decoded under a looser bound. -/
theorem looser_bound_decodes_more
    : ∃ data v, decodeBounded data (unboundedDepth + 1) = .ok v ∧ decode data ≠ .ok v := by
  have zero : Canonical 1 (.u 0) := ⟨rfl, .u 0, Nat.le_refl 1⟩
  obtain ⟨canonical, deep⟩ := canonical_arrays zero unboundedDepth
  rw [Nat.add_comm] at canonical
  refine ⟨_, _, decodeBounded_eq_ok.mpr ⟨canonical, rfl⟩, ?_⟩
  intro decoded
  have within := (decode_eq_ok.mp decoded).1.within
  rw [deep, depth] at within
  omega

end Naalp.Python.Cbor
