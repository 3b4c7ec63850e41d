import Mathlib.Data.List.Basic
import Mathlib.Tactic.Ring

/-! Hash trees over lists, which split at the largest power of two below their length, and audit
paths in them. A recomputed root that is the root of the tree pins the leaf, unless two inputs that
were hashed collide.
-/

namespace Naalp.Foundation

-----------------------------------------------------------------------------------------
-- Where a tree splits
-----------------------------------------------------------------------------------------

/-- The loop `while 2 * k < n` that doubles `k`. -/
def doubleWhileBelow (n k : ℕ) (positive : 0 < k) : ℕ :=
  if 2 * k < n then doubleWhileBelow n (2 * k) (by omega) else k
termination_by n - k

/-- The largest power of two that is less than `n`, from two on. -/
def splitPoint (n : ℕ) : ℕ := doubleWhileBelow n 1 Nat.one_pos

/-- The doubling stops at the largest power of two that is below the size.
Witness: strong induction on the gap that is left.
-/
theorem doubleWhileBelow_spec {n e : ℕ} (below : 2 ^ e < n)
    : ∃ f, doubleWhileBelow n (2 ^ e) (Nat.two_pow_pos e) = 2 ^ f ∧ 2 ^ f < n
      ∧ n ≤ 2 ^ (f + 1) := by
  induction gap : n - 2 ^ e using Nat.strong_induction_on generalizing e with
  | h m ih =>
      have positive := Nat.two_pow_pos e
      rw [doubleWhileBelow]
      split
      · rename_i more
        rw [← pow_succ'] at more
        have smaller : n - 2 ^ (e + 1) < m := by
          rw [pow_succ] at more ⊢
          omega
        simp only [← pow_succ']
        exact ih _ smaller more rfl
      · rename_i least
        exact ⟨e, rfl, below, by rw [pow_succ]; omega⟩

theorem splitPoint_spec {n : ℕ} (large : 1 < n)
    : ∃ e, splitPoint n = 2 ^ e ∧ 2 ^ e < n ∧ n ≤ 2 ^ (e + 1) :=
  @doubleWhileBelow_spec n 0 large

theorem splitPoint_pos (n : ℕ) : 0 < splitPoint n := by
  by_cases large : 1 < n
  · obtain ⟨e, split, -⟩ := splitPoint_spec large
    rw [split]
    exact Nat.two_pow_pos e
  · rw [splitPoint, doubleWhileBelow, if_neg (by omega)]
    exact Nat.one_pos

theorem splitPoint_lt {n : ℕ} (large : 1 < n) : splitPoint n < n := by
  obtain ⟨e, split, below, -⟩ := splitPoint_spec large
  rwa [split]

variable {α ι δ : Type}

/-- Lists by their splits: the empty list, single elements, and two parts of which the left one
reaches to the split point.
-/
theorem split_induction {motive : List α → Prop} (empty : motive []) (single : ∀ x, motive [x])
    (parts : ∀ left right, left.length = splitPoint (left ++ right).length
      → 1 < (left ++ right).length → motive left → motive right → motive (left ++ right))
    (xs : List α) : motive xs := by
  induction size : xs.length using Nat.strong_induction_on generalizing xs with
  | h size ih =>
      match xs, size with
      | [], _ => exact empty
      | [x], _ => exact single x
      | x :: y :: rest, _ =>
          have large : 1 < (x :: y :: rest).length := by simp
          have below := splitPoint_lt large
          have positive := splitPoint_pos (x :: y :: rest).length
          have whole := List.take_append_drop (splitPoint (x :: y :: rest).length) (x :: y :: rest)
          rw [← whole]
          apply parts
          · rw [whole, List.length_take, Nat.min_eq_left below.le]
          · rwa [whole]
          · exact ih _ (by rw [List.length_take]; omega) _ rfl
          · exact ih _ (by rw [List.length_drop]; omega) _ rfl

-----------------------------------------------------------------------------------------
-- Roots and paths
-----------------------------------------------------------------------------------------

/-- What a tree hashes: the inputs for the empty tree, for a leaf and for two children. -/
structure TreeHash (α ι δ : Type) where
  hash : ι → δ
  empty : ι
  leaf : α → ι
  node : δ → δ → ι

namespace TreeHash

variable (H : TreeHash α ι δ)

def leafHash (x : α) : δ := H.hash (H.leaf x)

def nodeHash (l r : δ) : δ := H.hash (H.node l r)

def root (leaves : List α) : δ :=
  match leaves with
  | [] => H.hash H.empty
  | [x] => H.leafHash x
  | x :: y :: rest =>
      let k := splitPoint (x :: y :: rest).length
      H.nodeHash (root ((x :: y :: rest).take k)) (root ((x :: y :: rest).drop k))
termination_by leaves.length
decreasing_by
  · have below := @splitPoint_lt (x :: y :: rest).length (by simp)
    rw [List.length_take]
    omega
  · have positive := splitPoint_pos (x :: y :: rest).length
    rw [List.length_drop]
    simp only [List.length_cons] at positive ⊢
    omega

/-- The siblings on the way from a leaf to the root, the sibling of the leaf first. -/
def auditPath (leaves : List α) (index : ℕ) : List δ :=
  if _large : 1 < leaves.length then
    let k := splitPoint leaves.length
    if index < k then auditPath (leaves.take k) index ++ [H.root (leaves.drop k)]
    else auditPath (leaves.drop k) (index - k) ++ [H.root (leaves.take k)]
  else []
termination_by leaves.length
decreasing_by
  · have below := splitPoint_lt _large
    rw [List.length_take]
    omega
  · have positive := splitPoint_pos leaves.length
    rw [List.length_drop]
    omega

/-- The root from a leaf hash and a path that is read from its end, if the path has the length of
the tree's.
-/
def recompute (leafH : δ) : (index size : ℕ) → (reversed : List δ) → Option δ
  | _, size, [] => if size = 1 then some leafH else none
  | index, size, last :: rest =>
      if size = 1 then none
      else
        let k := splitPoint size
        if index < k then (recompute leafH index k rest).map fun left => H.nodeHash left last
        else (recompute leafH (index - k) (size - k) rest).map fun right => H.nodeHash last right

theorem root_append {left right : List α} (split : left.length = splitPoint (left ++ right).length)
    (large : 1 < (left ++ right).length)
    : H.root (left ++ right) = H.nodeHash (H.root left) (H.root right) := by
  match whole : left ++ right, large with
  | x :: y :: rest, _ =>
      rw [root, ← whole, ← split, List.take_left', List.drop_left']
      · rfl
      · rfl

theorem auditPath_append {left right : List α} {i : ℕ}
    (split : left.length = splitPoint (left ++ right).length) (large : 1 < (left ++ right).length)
    : H.auditPath (left ++ right) i
      = if i < left.length then H.auditPath left i ++ [H.root right]
        else H.auditPath right (i - left.length) ++ [H.root left] := by
  rw [auditPath, dif_pos large]
  simp only [← split, List.take_left', List.drop_left']

theorem recompute_single {leafH : δ} {i : ℕ} {reversed : List δ}
    : H.recompute leafH i 1 reversed = if reversed = [] then some leafH else none := by
  cases reversed <;> simp [recompute]

/-- The recomputation splits as the tree does. -/
theorem recompute_cons {leafH last : δ} {i k m : ℕ} {rest : List δ} (split : k = splitPoint (k + m))
    (large : 1 < k + m)
    : H.recompute leafH i (k + m) (last :: rest)
      = if i < k then (H.recompute leafH i k rest).map fun left => H.nodeHash left last
        else (H.recompute leafH (i - k) m rest).map fun right => H.nodeHash last right := by
  rw [recompute, if_neg (by omega), ← split]
  simp only [Nat.add_sub_cancel_left]

/-- The path of a leaf leads back to the root.
Witness: induction on the split of the leaves; the last hash of the path is the root of the
part without the leaf.
-/
theorem recompute_auditPath {leaves : List α} {i : ℕ} (inside : i < leaves.length)
    : H.recompute (H.leafHash leaves[i]) i leaves.length (H.auditPath leaves i).reverse
      = some (H.root leaves) := by
  induction leaves using split_induction generalizing i with
  | empty => cases inside
  | single x =>
      obtain rfl : i = 0 := by simpa using inside
      rw [auditPath, dif_neg (by simp), root]
      rfl
  | parts left right split large ihLeft ihRight =>
      rw [auditPath_append H split large, root_append H split large]
      rw [List.length_append] at split large inside
      rw [List.length_append]
      by_cases before : i < left.length
      · rw [if_pos before, List.reverse_append, List.reverse_singleton, List.singleton_append,
          recompute_cons H split large, if_pos before, List.getElem_append_left before,
          ihLeft before]
        rfl
      · have later : i - left.length < right.length := by omega
        rw [if_neg before, List.reverse_append, List.reverse_singleton, List.singleton_append,
          recompute_cons H split large, if_neg before, List.getElem_append_right (by omega),
          ihRight later]
        rfl

-----------------------------------------------------------------------------------------
-- What is hashed
-----------------------------------------------------------------------------------------

/-- The inputs that are hashed for a root. -/
def rootInputs (leaves : List α) : List ι :=
  match leaves with
  | [] => [H.empty]
  | [x] => [H.leaf x]
  | x :: y :: rest =>
      let k := splitPoint (x :: y :: rest).length
      let left := (x :: y :: rest).take k
      let right := (x :: y :: rest).drop k
      H.node (H.root left) (H.root right) :: (rootInputs left ++ rootInputs right)
termination_by leaves.length
decreasing_by
  · have below := @splitPoint_lt (x :: y :: rest).length (by simp)
    rw [List.length_take]
    omega
  · have positive := splitPoint_pos (x :: y :: rest).length
    rw [List.length_drop]
    simp only [List.length_cons] at positive ⊢
    omega

/-- The inputs that are hashed for a recomputed root, beside the leaf. -/
def recomputeInputs (leafH : δ) : (index size : ℕ) → (reversed : List δ) → List ι
  | _, _, [] => []
  | index, size, last :: rest =>
      if size = 1 then []
      else
        let k := splitPoint size
        if index < k then
          recomputeInputs leafH index k rest
            ++ ((H.recompute leafH index k rest).map fun left => H.node left last).toList
        else
          recomputeInputs leafH (index - k) (size - k) rest
            ++ ((H.recompute leafH (index - k) (size - k) rest).map
              fun right => H.node last right).toList

theorem recomputeInputs_cons {leafH last : δ} {i k m : ℕ} {rest : List δ}
    (split : k = splitPoint (k + m)) (large : 1 < k + m)
    : H.recomputeInputs leafH i (k + m) (last :: rest)
      = if i < k then H.recomputeInputs leafH i k rest
            ++ ((H.recompute leafH i k rest).map fun left => H.node left last).toList
        else H.recomputeInputs leafH (i - k) m rest
            ++ ((H.recompute leafH (i - k) m rest).map fun right => H.node last right).toList := by
  rw [recomputeInputs, if_neg (by omega), ← split]
  simp only [Nat.add_sub_cancel_left]

/-- Two different inputs of the list have one hash. -/
def Collides (inputs : List ι) : Prop := ∃ x ∈ inputs, ∃ y ∈ inputs, x ≠ y ∧ H.hash x = H.hash y

theorem Collides.mono {inputs more : List ι} (collides : H.Collides inputs)
    (subset : inputs ⊆ more) : H.Collides more := by
  obtain ⟨x, left, y, right, different⟩ := collides
  exact ⟨x, subset left, y, subset right, different⟩

/-- Inputs with one hash are equal or collide. -/
theorem eq_or_collides {inputs : List ι} {x y : ι} (left : x ∈ inputs) (right : y ∈ inputs)
    (same : H.hash x = H.hash y) : x = y ∨ H.Collides inputs := by
  by_cases equal : x = y
  · exact .inl equal
  · exact .inr ⟨x, left, y, right, equal, same⟩

theorem rootInputs_append {left right : List α}
    (split : left.length = splitPoint (left ++ right).length) (large : 1 < (left ++ right).length)
    : H.rootInputs (left ++ right)
      = H.node (H.root left) (H.root right) :: (H.rootInputs left ++ H.rootInputs right) := by
  match whole : left ++ right, large with
  | x :: y :: rest, _ =>
      rw [rootInputs, ← whole, ← split, List.take_left', List.drop_left']
      · rfl
      · rfl

/-- The inputs of the three kinds differ, and an input for two children has both when one of them
is known to be a digest.
-/
structure Separated (digest : δ → Prop) : Prop where
  hash : ∀ x, digest (H.hash x)
  leaf : ∀ x y, H.leaf x = H.leaf y → x = y
  left : ∀ l r l' r', digest l → digest l' → H.node l r = H.node l' r' → l = l' ∧ r = r'
  right : ∀ l r l' r', digest r → digest r' → H.node l r = H.node l' r' → l = l' ∧ r = r'
  emptyLeaf : ∀ x, H.empty ≠ H.leaf x
  emptyNode : ∀ l r, H.empty ≠ H.node l r
  leafNode : ∀ x l r, H.leaf x ≠ H.node l r

variable {H} {digest : δ → Prop} (separated : H.Separated digest)

@[simp]
theorem root_nil : H.root [] = H.hash H.empty := by rw [TreeHash.root]

@[simp]
theorem root_singleton (x : α) : H.root [x] = H.leafHash x := by rw [TreeHash.root]

@[simp]
theorem rootInputs_nil : H.rootInputs [] = [H.empty] := by rw [rootInputs]

@[simp]
theorem rootInputs_singleton (x : α) : H.rootInputs [x] = [H.leaf x] := by rw [rootInputs]

theorem collides_of_ne {xs ys : List α} {p q : ι} (left : p ∈ H.rootInputs xs)
    (right : q ∈ H.rootInputs ys) (same : H.hash p = H.hash q) (different : p ≠ q)
    : H.Collides (H.rootInputs xs ++ H.rootInputs ys) :=
  ⟨p, List.mem_append_left _ left, q, List.mem_append_right _ right, different, same⟩

theorem mem_rootInputs_append {left right : List α}
    (split : left.length = splitPoint (left ++ right).length) (large : 1 < (left ++ right).length)
    : H.node (H.root left) (H.root right) ∈ H.rootInputs (left ++ right) := by
  rw [rootInputs_append H split large]
  exact List.mem_cons_self

include separated

theorem Separated.root (leaves : List α) : digest (H.root leaves) := by
  rw [TreeHash.root.eq_def]
  split
  · exact separated.hash _
  · exact separated.hash _
  · exact separated.hash _

/-- A recomputed root is a digest, as the leaf's hash is one. -/
theorem Separated.recompute {leafH r : δ} {i n : ℕ} {reversed : List δ} (leaf : digest leafH)
    (recomputed : H.recompute leafH i n reversed = some r) : digest r := by
  cases reversed with
  | nil =>
      obtain ⟨-, same⟩ := Option.ite_none_right_eq_some.mp recomputed
      obtain rfl := Option.some.inj same
      exact leaf
  | cons last rest =>
      rw [TreeHash.recompute] at recomputed
      split at recomputed
      · cases recomputed
      · simp only at recomputed
        split at recomputed
        · obtain ⟨left, -, rfl⟩ := Option.map_eq_some_iff.mp recomputed
          exact separated.hash _
        · obtain ⟨right, -, rfl⟩ := Option.map_eq_some_iff.mp recomputed
          exact separated.hash _

/-- Equal hashes of two pairs of children pin both children, when two that stand on one side are
digests.
-/
theorem Separated.pins {inputs : List ι} {l r l' r' : δ} (left : H.node l r ∈ inputs)
    (right : H.node l' r' ∈ inputs) (same : H.nodeHash l r = H.nodeHash l' r')
    (digests : digest l ∧ digest l' ∨ digest r ∧ digest r')
    : (l = l' ∧ r = r') ∨ H.Collides inputs := by
  refine (H.eq_or_collides left right same).imp_left fun equal => ?_
  rcases digests with ⟨first, second⟩ | ⟨first, second⟩
  · exact separated.left l r l' r' first second equal
  · exact separated.right l r l' r' first second equal

/-- A path that leads to the root of the tree starts at its leaf, unless inputs collide; whatever
the path is made of. By induction along the splits.
-/
theorem Separated.binds {leaves : List α} {x : α} {i : ℕ} {reversed : List δ}
    (inside : i < leaves.length)
    (recomputed : H.recompute (H.leafHash x) i leaves.length reversed = some (H.root leaves))
    : leaves[i]? = some x
      ∨ H.Collides (H.leaf x :: H.recomputeInputs (H.leafHash x) i leaves.length reversed
          ++ H.rootInputs leaves) := by
  induction leaves using split_induction generalizing i reversed with
  | empty => cases inside
  | single y =>
      obtain rfl : i = 0 := by simpa using inside
      rw [List.length_singleton, recompute_single] at recomputed
      obtain ⟨-, same⟩ := Option.ite_none_right_eq_some.mp recomputed
      rw [TreeHash.root] at same
      have hashed := Option.some.inj same
      have member : H.leaf y ∈ H.rootInputs [y] := by simp
      rcases H.eq_or_collides List.mem_cons_self
        (List.mem_cons_of_mem _ (List.mem_append_right _ member)) hashed with equal | collides
      · rw [separated.leaf _ _ equal]
        exact .inl rfl
      · exact .inr collides
  | parts left right split large ihLeft ihRight =>
      rw [root_append H split large] at recomputed
      rw [rootInputs_append H split large]
      rw [List.length_append] at split large inside recomputed ⊢
      cases reversed with
      | nil =>
          obtain ⟨single, -⟩ := Option.ite_none_right_eq_some.mp recomputed
          omega
      | cons last rest =>
          have leafDigest : digest (H.leafHash x) := separated.hash _
          rw [recompute_cons H split large] at recomputed
          rw [recomputeInputs_cons H split large]
          by_cases before : i < left.length
          · rw [if_pos before] at recomputed ⊢
            obtain ⟨l, ran, same⟩ := Option.map_eq_some_iff.mp recomputed
            have digests := separated.recompute leafDigest ran
            refine (separated.pins ?_ ?_ same (.inl ⟨digests, separated.root left⟩)).elim ?_ .inr
            · simp [ran]
            · simp
            · intro pinned
              obtain ⟨rfl, -⟩ := pinned
              rw [List.getElem?_append_left before]
              refine (ihLeft before ran).imp_right fun collides => collides.mono H ?_
              intro input member
              simp only [List.cons_append, List.mem_cons, List.mem_append] at member ⊢
              tauto
          · have later : i - left.length < right.length := by omega
            rw [if_neg before] at recomputed ⊢
            obtain ⟨r, ran, same⟩ := Option.map_eq_some_iff.mp recomputed
            have digests := separated.recompute leafDigest ran
            refine (separated.pins ?_ ?_ same (.inr ⟨digests, separated.root right⟩)).elim ?_ .inr
            · simp [ran]
            · simp
            · intro pinned
              obtain ⟨-, rfl⟩ := pinned
              rw [List.getElem?_append_right (by omega)]
              refine (ihRight later ran).imp_right fun collides => collides.mono H ?_
              intro input member
              simp only [List.cons_append, List.mem_cons, List.mem_append] at member ⊢
              tauto

/-- Two paths for one position that lead to one root start at one leaf, unless inputs collide; by
induction along the splits that both follow.
-/
theorem Separated.one_leaf {x y : α} {i n : ℕ} {reversed reversed' : List δ} {root : δ}
    (inside : i < n) (first : H.recompute (H.leafHash x) i n reversed = some root)
    (second : H.recompute (H.leafHash y) i n reversed' = some root)
    : x = y
      ∨ H.Collides (H.leaf x :: H.recomputeInputs (H.leafHash x) i n reversed
          ++ H.leaf y :: H.recomputeInputs (H.leafHash y) i n reversed') := by
  induction reversed generalizing i n reversed' root with
  | nil =>
      obtain ⟨rfl, same⟩ := Option.ite_none_right_eq_some.mp first
      rw [recompute_single] at second
      obtain ⟨-, same'⟩ := Option.ite_none_right_eq_some.mp second
      have hashed : H.hash (H.leaf x) = H.hash (H.leaf y) := Option.some.inj (same.trans same'.symm)
      rcases H.eq_or_collides List.mem_cons_self
        (List.mem_cons_of_mem _ (List.mem_append_right _ List.mem_cons_self)) hashed with
          equal | collides
      · exact .inl (separated.leaf _ _ equal)
      · exact .inr collides
  | cons last rest ih =>
      have inner : n ≠ 1 := by
        rintro rfl
        rw [recompute_single] at first
        exact absurd first (by simp)
      obtain ⟨m, whole⟩ := Nat.exists_eq_add_of_lt (splitPoint_lt (show 1 < n by omega))
      generalize half : splitPoint n = k at whole
      obtain ⟨m, rfl⟩ : ∃ m, n = k + m := ⟨m + 1, by omega⟩
      have large : 1 < k + m := by omega
      cases reversed' with
      | nil =>
          obtain ⟨single, -⟩ := Option.ite_none_right_eq_some.mp second
          exact absurd single inner
      | cons last' rest' =>
          have digest_x : digest (H.leafHash x) := separated.hash _
          have digest_y : digest (H.leafHash y) := separated.hash _
          rw [recompute_cons H half.symm large] at first second
          rw [recomputeInputs_cons H half.symm large, recomputeInputs_cons H half.symm large]
          by_cases before : i < k
          · rw [if_pos before] at first second ⊢
            rw [if_pos before]
            obtain ⟨l, ran, hashed⟩ := Option.map_eq_some_iff.mp first
            obtain ⟨l', ran', rfl⟩ := Option.map_eq_some_iff.mp second
            have digests := And.intro (separated.recompute digest_x ran)
              (separated.recompute digest_y ran')
            refine (separated.pins ?_ ?_ hashed (.inl digests)).elim ?_ .inr
            · simp [ran]
            · simp [ran']
            · intro pinned
              obtain ⟨rfl, -⟩ := pinned
              refine (ih before ran ran').imp_right fun collides => collides.mono H ?_
              intro input member
              simp only [List.cons_append, List.mem_cons, List.mem_append] at member ⊢
              tauto
          · rw [if_neg before] at first second ⊢
            rw [if_neg before]
            obtain ⟨r, ran, hashed⟩ := Option.map_eq_some_iff.mp first
            obtain ⟨r', ran', rfl⟩ := Option.map_eq_some_iff.mp second
            have digests := And.intro (separated.recompute digest_x ran)
              (separated.recompute digest_y ran')
            refine (separated.pins ?_ ?_ hashed (.inr digests)).elim ?_ .inr
            · simp [ran]
            · simp [ran']
            · intro pinned
              obtain ⟨-, rfl⟩ := pinned
              refine (ih (by omega) ran ran').imp_right fun collides => collides.mono H ?_
              intro input member
              simp only [List.cons_append, List.mem_cons, List.mem_append] at member ⊢
              tauto

/-- One root belongs to one list, unless inputs collide; by induction along the splits of both. -/
theorem Separated.root_injective {xs ys : List α} (same : H.root xs = H.root ys)
    : xs = ys ∨ H.Collides (H.rootInputs xs ++ H.rootInputs ys) := by
  induction xs using split_induction generalizing ys with
  | empty =>
      cases ys using split_induction with
      | empty => exact .inl rfl
      | single y =>
          rw [root_nil, root_singleton] at same
          exact .inr (collides_of_ne (by simp) (by simp) same (separated.emptyLeaf y))
      | parts left' right' split' large' _ _ =>
          rw [root_nil, root_append H split' large'] at same
          exact .inr (collides_of_ne (by simp) (mem_rootInputs_append split' large') same
            (separated.emptyNode _ _))
  | single x =>
      cases ys using split_induction with
      | empty =>
          rw [root_nil, root_singleton] at same
          exact .inr (collides_of_ne (by simp) (by simp) same (separated.emptyLeaf x).symm)
      | single y =>
          rw [root_singleton, root_singleton] at same
          by_cases equal : H.leaf x = H.leaf y
          · exact .inl (congrArg (fun z => [z]) (separated.leaf x y equal))
          · exact .inr (collides_of_ne (by simp) (by simp) same equal)
      | parts left' right' split' large' _ _ =>
          rw [root_singleton, root_append H split' large'] at same
          exact .inr (collides_of_ne (by simp) (mem_rootInputs_append split' large') same
            (separated.leafNode x _ _))
  | parts left right split large ihLeft ihRight =>
      cases ys using split_induction with
      | empty =>
          rw [root_nil, root_append H split large] at same
          exact .inr (collides_of_ne (mem_rootInputs_append split large) (by simp) same
            (separated.emptyNode _ _).symm)
      | single y =>
          rw [root_singleton, root_append H split large] at same
          exact .inr (collides_of_ne (mem_rootInputs_append split large) (by simp) same
            (separated.leafNode y _ _).symm)
      | parts left' right' split' large' _ _ =>
          rw [root_append H split large, root_append H split' large'] at same
          rw [rootInputs_append H split large, rootInputs_append H split' large']
          refine (separated.pins ?_ ?_ same
            (.inl ⟨separated.root left, separated.root left'⟩)).elim ?_
            .inr
          · simp
          · simp
          · intro pinned
            rcases ihLeft pinned.1 with rfl | collides
            · rcases ihRight pinned.2 with rfl | collides
              · exact .inl rfl
              · right
                refine collides.mono H ?_
                intro input member
                simp only [List.cons_append, List.mem_cons, List.mem_append] at member ⊢
                tauto
            · right
              refine collides.mono H ?_
              intro input member
              simp only [List.cons_append, List.mem_cons, List.mem_append] at member ⊢
              tauto

end TreeHash

end Naalp.Foundation
