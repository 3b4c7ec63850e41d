import Mathlib.Data.Fintype.Card
import Mathlib.Data.Fintype.EquivFin
import Mathlib.Data.List.Lex
import Mathlib.Logic.Relation
import Mathlib.Order.WellFounded

/-! Linear orders of finitely many ids in which every id comes after those that it names, and the
lexicographically least of them.
-/

namespace Naalp.Foundation

variable {κ : Type}

/-- (Causal names placed order) says that each id of the order comes after all that it names, with
some ids placed before.
-/
def Causal (names : κ → κ → Prop) : (placed : List κ) → List κ → Prop
  | _, [] => True
  | placed, e :: rest => (∀ c, names e c → c ∈ placed) ∧ Causal names (e :: placed) rest

/-- The order lists every id exactly as often as given, after those that it names. -/
structure Linearizes (names : κ → κ → Prop) (ids order : List κ) : Prop where
  perm : order.Perm ids
  causal : Causal names [] order

/-- No linearization comes before the order lexicographically. -/
structure LeastLinearization [LT κ] (names : κ → κ → Prop) (ids order : List κ) : Prop
    extends Linearizes names ids order where
  least : ∀ other, Linearizes names ids other → order ≤ other

theorem LeastLinearization.unique [LT κ] [Std.Trichotomous (fun x y : κ => x < y)]
    {names : κ → κ → Prop} {ids order other : List κ} (first : LeastLinearization names ids order)
    (second : LeastLinearization names ids other) : order = other :=
  List.le_antisymm (first.least other second.toLinearizes)
    (second.least order first.toLinearizes)

/-- The linearizations depend on the ids only up to their order. -/
theorem LeastLinearization.of_perm [LT κ] {names : κ → κ → Prop} {ids ids' order : List κ}
    (same : ids.Perm ids') (least : LeastLinearization names ids order)
    : LeastLinearization names ids' order where
  perm := least.perm.trans same
  causal := least.causal
  least other linear := least.least other ⟨linear.perm.trans same.symm, linear.causal⟩

/-- An id that comes first in what is left has all it names placed; those before are smaller or
the same, so the least ready id comes first in the least order.
-/
theorem cons_le_of_causal [LT κ] [Std.Asymm (fun x y : κ => x < y)]
    [Std.Trichotomous (fun x y : κ => x < y)] {names : κ → κ → Prop} {placed rest other : List κ}
    {x : κ} (perm : other.Perm (x :: rest)) (causal : Causal names placed other)
    (first : ∀ y ∈ x :: rest, (∀ c, names y c → c ∈ placed) → ¬ y < x)
    (later : ∀ tail : List κ, tail.Perm rest → Causal names (x :: placed) tail → rest ≤ tail)
    : x :: rest ≤ other := by
  cases other with
  | nil => exact absurd perm.length_eq (by simp)
  | cons y tail =>
      have ready := causal.1
      have member : y ∈ x :: rest := perm.mem_iff.mp List.mem_cons_self
      rw [List.cons_le_cons_iff]
      by_cases same : x = y
      · subst same
        exact .inr ⟨rfl, later tail (List.Perm.cons_inv perm) causal.2⟩
      · left
        by_contra notBelow
        exact same (Std.Trichotomous.trichotomous x y notBelow (first y member ready))

/-- Among ids that all name one of each other there is a cycle; witness: a minimal id under the
transitive closure, on finitely many ids.
-/
theorem exists_cycle_of_named {names : κ → κ → Prop} {ids : List κ} (nonempty : ids ≠ [])
    (named : ∀ e ∈ ids, ∃ c ∈ ids, names e c)
    : ∃ v, Relation.TransGen names v v := by
  by_contra acyclic
  rw [not_exists] at acyclic
  let below : {x // x ∈ ids} → {x // x ∈ ids} → Prop := fun c e => Relation.TransGen names e.1 c.1
  classical
  have finite : Finite {x // x ∈ ids} :=
    @Finite.of_fintype _ (Fintype.ofList ids.attach ids.mem_attach)
  have trans : IsTrans {x // x ∈ ids} below := ⟨fun _ _ _ first second => second.trans first⟩
  have irrefl : Std.Irrefl below := ⟨fun e cycle => acyclic e.1 cycle⟩
  obtain ⟨first, member⟩ := List.exists_mem_of_ne_nil ids nonempty
  obtain ⟨least, -, minimal⟩ := (Finite.wellFounded_of_trans_of_irrefl below).has_min Set.univ
    ⟨⟨first, member⟩, trivial⟩
  obtain ⟨c, inside, names⟩ := named least.1 least.2
  exact minimal ⟨c, inside⟩ trivial (.single names)

end Naalp.Foundation
