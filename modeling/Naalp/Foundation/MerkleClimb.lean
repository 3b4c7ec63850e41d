import Naalp.Foundation.MerkleTree

/-! The recomputation of a root from the leaf up. The two counters are the index and the last index
of the level; on the right border a node without a sibling skips levels. It agrees with the
recomputation from the root down.
-/

namespace Naalp.Foundation

/-- The loop that shifts both counters while the first is even and not zero. -/
def skipLevels (fn sn : ℕ) : ℕ × ℕ :=
  if _even : fn % 2 = 0 ∧ fn ≠ 0 then skipLevels (fn / 2) (sn / 2) else (fn, sn)
termination_by fn

/-- The node has its sibling on the left, or is the last one of its level. -/
def OnRight (fn sn : ℕ) : Prop := fn % 2 = 1 ∨ fn = sn

instance (fn sn : ℕ) : Decidable (OnRight fn sn) := inferInstanceAs (Decidable (_ ∨ _))

/-- The counters after an element of the path. -/
def advance (fn sn : ℕ) : ℕ × ℕ :=
  let (fn, sn) := if OnRight fn sn ∧ fn % 2 = 0 then skipLevels fn sn else (fn, sn)
  (fn / 2, sn / 2)

theorem skipLevels_of_odd {fn sn : ℕ} (odd : fn % 2 = 1) : skipLevels fn sn = (fn, sn) := by
  rw [skipLevels, dif_neg (by omega)]

theorem skipLevels_of_even {fn sn : ℕ} (even : fn % 2 = 0) (positive : fn ≠ 0)
    : skipLevels fn sn = skipLevels (fn / 2) (sn / 2) := by
  rw [skipLevels, dif_pos ⟨even, positive⟩]

/-- The skipped levels do not depend on a power of two above the counter. -/
theorem skipLevels_add {x e : ℕ} (positive : x ≠ 0) (small : x < 2 ^ e)
    : ∃ y f, y < 2 ^ f ∧ y % 2 = 1 ∧ 0 < f ∧ skipLevels x x = (y, y)
        ∧ skipLevels (x + 2 ^ e) (x + 2 ^ e) = (y + 2 ^ f, y + 2 ^ f) := by
  induction e generalizing x with
  | zero => omega
  | succ e ih =>
      have power : 2 ^ (e + 1) = 2 ^ e * 2 := pow_succ 2 e
      rcases Nat.mod_two_eq_zero_or_one x with even | odd
      · obtain ⟨y, f, small', odd, above, low, high⟩ := @ih (x / 2) (by omega) (by omega)
        have halved : (x + 2 ^ (e + 1)) / 2 = x / 2 + 2 ^ e := by omega
        refine ⟨y, f, small', odd, above, ?_, ?_⟩
        · rw [skipLevels_of_even even positive, low]
        · rw [skipLevels_of_even (by omega) (by omega), halved, high]
      · exact ⟨x, e + 1, small, odd, Nat.succ_pos e, skipLevels_of_odd odd,
          skipLevels_of_odd (by omega)⟩

theorem skipLevels_two_pow (e : ℕ) : skipLevels (2 ^ e) (2 ^ e) = (1, 1) := by
  induction e with
  | zero => exact skipLevels_of_odd rfl
  | succ e ih =>
      have power : 2 ^ (e + 1) = 2 ^ e * 2 := pow_succ 2 e
      have positive := Nat.two_pow_pos e
      rw [skipLevels_of_even (by omega) (by omega), power, Nat.mul_div_cancel _ Nat.two_pos, ih]

/-- The last node of a level that is alone there reaches the root with one element. -/
theorem advance_border (e : ℕ) : advance (2 ^ e) (2 ^ e) = (0, 0) := by
  have skipped : skipLevels (2 ^ e) (2 ^ e) = (1, 1) := skipLevels_two_pow e
  rcases Nat.mod_two_eq_zero_or_one (2 ^ e) with even | odd
  · rw [advance, if_pos ⟨.inr rfl, even⟩, skipped]
  · rw [skipLevels_of_odd odd] at skipped
    rw [advance, if_neg (by omega), skipped]

/-- In the right part, a power of two above the counters goes along with them.
Witness: levels are skipped on both sides together, as the power of two is even at each of
them.
-/
theorem advance_add {fn sn e : ℕ} (le : fn ≤ sn) (small : sn < 2 ^ e) (positive : sn ≠ 0)
    : ∃ fn' sn' f, fn' ≤ sn' ∧ sn' < 2 ^ f ∧ advance fn sn = (fn', sn')
        ∧ advance (fn + 2 ^ e) (sn + 2 ^ e) = (fn' + 2 ^ f, sn' + 2 ^ f)
        ∧ (OnRight (fn + 2 ^ e) (sn + 2 ^ e) ↔ OnRight fn sn) := by
  cases e with
  | zero => omega
  | succ e =>
      have power : 2 ^ (e + 1) = 2 ^ e * 2 := pow_succ 2 e
      have side : OnRight (fn + 2 ^ (e + 1)) (sn + 2 ^ (e + 1)) ↔ OnRight fn sn := by
        unfold OnRight
        omega
      by_cases skips : OnRight fn sn ∧ fn % 2 = 0
      · have same : fn = sn := skips.1.resolve_left (by omega)
        subst same
        obtain ⟨y, f, below, odd, above, low, high⟩ := skipLevels_add positive small
        obtain ⟨f, rfl⟩ := Nat.exists_eq_add_one_of_ne_zero above.ne'
        have power' : 2 ^ (f + 1) = 2 ^ f * 2 := pow_succ 2 f
        refine ⟨y / 2, y / 2, f, le_refl _, by omega, ?_, ?_, side⟩
        · rw [advance, if_pos skips, low]
        · rw [advance, if_pos ⟨side.mpr skips.1, by omega⟩, high]
          simp only [Prod.mk.injEq]
          omega
      · refine ⟨fn / 2, sn / 2, e, by omega, by omega, ?_, ?_, side⟩
        · rw [advance, if_neg skips]
        · have skips' : ¬ (OnRight (fn + 2 ^ (e + 1)) (sn + 2 ^ (e + 1))
              ∧ (fn + 2 ^ (e + 1)) % 2 = 0) := by
            intro both
            exact skips ⟨side.mp both.1, by omega⟩
          rw [advance, if_neg skips', power]
          simp only [Prod.mk.injEq]
          omega

/-- In the left part, the counters move as in a full tree of the size of that part. -/
theorem advance_left {fn sn e : ℕ} (left : fn < 2 ^ (e + 1)) (right : 2 ^ (e + 1) ≤ sn)
    : advance fn sn = (fn / 2, sn / 2) ∧ advance fn (2 ^ (e + 1) - 1) = (fn / 2, 2 ^ e - 1)
        ∧ (OnRight fn sn ↔ OnRight fn (2 ^ (e + 1) - 1)) := by
  have power : 2 ^ (e + 1) = 2 ^ e * 2 := pow_succ 2 e
  have positive := Nat.two_pow_pos e
  refine ⟨?_, ?_, ?_⟩
  · rw [advance, if_neg (by unfold OnRight; omega)]
  · rw [advance, if_neg (by unfold OnRight; omega)]
    simp only [Prod.mk.injEq, true_and]
    omega
  · unfold OnRight
    omega

namespace TreeHash

variable {α ι δ : Type} (H : TreeHash α ι δ)

/-- The loop over the path, from the leaf up. -/
def climb : (r : δ) → (fn sn : ℕ) → List δ → Option δ
  | r, _, sn, [] => if sn = 0 then some r else none
  | r, fn, sn, p :: path =>
      if sn = 0 then none
      else
        let r := if OnRight fn sn then H.nodeHash p r else H.nodeHash r p
        climb r (advance fn sn).1 (advance fn sn).2 path

theorem climb_zero (r : δ) (fn : ℕ) (path : List δ)
    : H.climb r fn 0 path = if path = [] then some r else none := by
  cases path <;> simp [climb]

theorem climb_cons {r p : δ} {fn sn : ℕ} {path : List δ} (positive : sn ≠ 0)
    : H.climb r fn sn (p :: path)
      = H.climb (if OnRight fn sn then H.nodeHash p r else H.nodeHash r p) (advance fn sn).1
          (advance fn sn).2 path := by
  rw [climb, if_neg positive]

theorem climb_nil {r : δ} {fn sn : ℕ} (positive : sn ≠ 0) : H.climb r fn sn [] = none := by
  rw [climb, if_neg positive]

/-- A node of the right part: the last element is its left sibling at the top. By induction on the
other elements.
-/
theorem climb_right {r last : δ} {fn sn e : ℕ} {rest : List δ} (le : fn ≤ sn) (small : sn < 2 ^ e)
    : H.climb r (fn + 2 ^ e) (sn + 2 ^ e) (rest ++ [last])
      = (H.climb r fn sn rest).map fun right => H.nodeHash last right := by
  have positive := Nat.two_pow_pos e
  induction rest generalizing r fn sn e with
  | nil =>
      rw [List.nil_append, climb_cons H (by omega)]
      by_cases border : sn = 0
      · obtain rfl : fn = 0 := by omega
        subst border
        rw [Nat.zero_add, advance_border, if_pos (.inr rfl)]
        rfl
      · obtain ⟨fn', sn', f, -, -, -, advanced, -⟩ := advance_add le small border
        have positive' := Nat.two_pow_pos f
        rw [advanced, climb_nil H border, climb_nil H]
        · rfl
        · simp only
          omega
  | cons p rest ih =>
      rw [List.cons_append, climb_cons H (by omega)]
      by_cases border : sn = 0
      · obtain rfl : fn = 0 := by omega
        subst border
        rw [Nat.zero_add, advance_border, climb_zero, if_neg (by simp), climb_zero,
          if_neg (List.cons_ne_nil p rest)]
        rfl
      · obtain ⟨fn', sn', f, le', small', low, high, side⟩ := advance_add le small border
        rw [climb_cons H border, low, high]
        simp only [side]
        exact ih le' small' (Nat.two_pow_pos f)

/-- A node of the left part: the last element is its right sibling at the top. By induction on the
other elements.
-/
theorem climb_left {r last : δ} {fn sn e : ℕ} {rest : List δ} (left : fn < 2 ^ e)
    (right : 2 ^ e ≤ sn) (small : sn < 2 ^ (e + 1))
    : H.climb r fn sn (rest ++ [last])
      = (H.climb r fn (2 ^ e - 1) rest).map fun left => H.nodeHash left last := by
  have positive := Nat.two_pow_pos e
  induction rest generalizing r fn sn e with
  | nil =>
      rw [List.nil_append, climb_cons H (by omega)]
      cases e with
      | zero =>
          obtain rfl : fn = 0 := Nat.lt_one_iff.mp left
          obtain rfl : sn = 1 := Nat.le_antisymm (Nat.lt_succ_iff.mp small) right
          rfl
      | succ e =>
          have power : 2 ^ (e + 1) = 2 ^ e * 2 := pow_succ 2 e
          have positive' := Nat.two_pow_pos e
          obtain ⟨advanced, -, -⟩ := advance_left left right
          rw [advanced, climb_nil H, climb_nil H (by omega)]
          · rfl
          · simp only
            omega
  | cons p rest ih =>
      rw [List.cons_append, climb_cons H (by omega)]
      cases e with
      | zero =>
          obtain rfl : fn = 0 := Nat.lt_one_iff.mp left
          obtain rfl : sn = 1 := Nat.le_antisymm (Nat.lt_succ_iff.mp small) right
          have advanced : advance 0 1 = (0, 0) := rfl
          rw [advanced, climb_zero, if_neg (by simp), pow_zero, Nat.sub_self, climb_zero,
            if_neg (List.cons_ne_nil p rest)]
          rfl
      | succ e =>
          have power : 2 ^ (e + 1) = 2 ^ e * 2 := pow_succ 2 e
          have power' : 2 ^ (e + 1 + 1) = 2 ^ (e + 1) * 2 := pow_succ 2 (e + 1)
          have positive' := Nat.two_pow_pos e
          obtain ⟨advanced, full, side⟩ := advance_left left right
          rw [climb_cons H (by omega), advanced, full]
          simp only [side]
          exact ih (by omega) (by omega) (by omega) positive'

/-- The recomputation from the leaf up is the one from the root down, for every path; by induction
on the reversed path.
-/
theorem climb_eq_recompute {r : δ} {index size : ℕ} {reversed : List δ} (inside : index < size)
    : H.climb r index (size - 1) reversed.reverse = H.recompute r index size reversed := by
  induction reversed generalizing index size with
  | nil =>
      rw [List.reverse_nil, climb, recompute]
      by_cases single : size = 1
      · rw [if_pos single, if_pos (by omega)]
      · rw [if_neg single, if_neg (by omega)]
  | cons last rest ih =>
      rw [List.reverse_cons]
      by_cases single : size = 1
      · rw [recompute, if_pos single, single, climb_zero, if_neg (by simp)]
      · obtain ⟨e, split, below, above⟩ := splitPoint_spec (show 1 < size by omega)
        have power : 2 ^ (e + 1) = 2 ^ e * 2 := pow_succ 2 e
        obtain ⟨m, rfl⟩ := Nat.exists_eq_add_of_lt below
        rw [add_assoc] at split inside below above ⊢
        rw [recompute_cons H split.symm (by omega)]
        by_cases left : index < 2 ^ e
        · rw [if_pos left, climb_left H left (by omega) (by omega), ih left]
        · obtain ⟨i, rfl⟩ := Nat.exists_eq_add_of_le (Nat.le_of_not_lt left)
          rw [if_neg left, Nat.add_sub_cancel_left, ← ih (show i < m + 1 by omega)]
          have shifted : 2 ^ e + (m + 1) - 1 = m + 2 ^ e := by omega
          rw [shifted, Nat.add_comm (2 ^ e) i, climb_right H (by omega) (by omega)]
          rfl

end TreeHash

end Naalp.Foundation
