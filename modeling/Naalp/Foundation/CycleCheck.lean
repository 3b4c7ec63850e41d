import Mathlib.Data.Finset.Card
import Mathlib.Data.Finset.Range
import Mathlib.Logic.Relation

/-! A depth-first search for cycles, with three colors, where `next` lists the successors of each
vertex. A vertex is gray while its successors are visited and black afterwards.
-/

namespace Naalp.Foundation

inductive Color where
  | white
  | gray
  | black
  deriving DecidableEq, Repr

abbrev Coloring (ν : Type) := ν → Color

variable {ν : Type} [DecidableEq ν]

def Coloring.paint (color : Coloring ν) (i : ν) (paint : Color) : Coloring ν :=
  fun v => if v = i then paint else color v

section Search

variable (next : ν → List ν)

/-- The loop over the successors of a vertex, which visits the white ones: whether it found a
cycle, and the colors after it.
-/
def visitAll (visit : Coloring ν → ν → Option (Bool × Coloring ν))
    : List ν → Coloring ν → Option (Bool × Coloring ν)
  | [], color => some (false, color)
  | j :: rest, color =>
      match color j with
      | .gray => some (true, color)
      | .black => visitAll visit rest color
      | .white =>
          match visit color j with
          | none => none
          | some (true, color) => some (true, color)
          | some (false, color) => visitAll visit rest color

/-- The visit of a white vertex; it has no outcome when the depth is used up. -/
def visitVertex : (depth : ℕ) → Coloring ν → ν → Option (Bool × Coloring ν)
  | 0, _, _ => none
  | depth + 1, color, i =>
      match visitAll (visitVertex depth) (next i) (color.paint i .gray) with
      | none => none
      | some (true, color) => some (true, color)
      | some (false, color) => some (false, color.paint i .black)

/-- The loop over all vertices, which starts a visit at every one that is still white. -/
def findCycle (depth : ℕ) : List ν → Coloring ν → Option Bool
  | [], _ => some false
  | i :: rest, color =>
      if color i = .white then
        match visitVertex next depth color i with
        | none => none
        | some (true, _) => some true
        | some (false, color) => findCycle depth rest color
      else findCycle depth rest color

end Search

@[simp]
theorem paint_self (color : Coloring ν) (i : ν) (paint : Color)
    : color.paint i paint i = paint := by
  simp [Coloring.paint]

theorem paint_of_ne {color : Coloring ν} {i v : ν} {paint : Color} (other : v ≠ i)
    : color.paint i paint v = color v := by
  simp [Coloring.paint, other]

-----------------------------------------------------------------------------------------
-- The search ends
-----------------------------------------------------------------------------------------

/-- The white ones of some vertices. -/
def whites (among : Finset ν) (color : Coloring ν) : Finset ν :=
  among.filter (fun v => color v = .white)

/-- No vertex becomes white again. -/
def Darkens (color later : Coloring ν) : Prop := ∀ v, later v = .white → color v = .white

omit [DecidableEq ν] in
theorem Darkens.card_le {color later : Coloring ν} (darkens : Darkens color later)
    (among : Finset ν)
    : (whites among later).card ≤ (whites among color).card := by
  apply Finset.card_le_card
  intro v member
  obtain ⟨inside, white⟩ := Finset.mem_filter.mp member
  exact Finset.mem_filter.mpr ⟨inside, darkens v white⟩

theorem darkens_paint {color : Coloring ν} {i : ν} {paint : Color} (dark : paint ≠ .white)
    : Darkens color (color.paint i paint) := by
  intro v white
  by_cases same : v = i
  · subst same
    rw [paint_self] at white
    exact (dark white).elim
  · rwa [paint_of_ne same] at white

/-- Painting a white node leaves one white node less: the measure of the visit. -/
theorem card_whites_paint_lt {among : Finset ν} {i : ν} {color : Coloring ν} {paint : Color}
    (dark : paint ≠ .white) (inside : i ∈ among) (white : color i = .white)
    : (whites among (color.paint i paint)).card < (whites among color).card := by
  apply Finset.card_lt_card
  refine ⟨?_, ?_⟩
  · intro v member
    obtain ⟨range, still⟩ := Finset.mem_filter.mp member
    exact Finset.mem_filter.mpr ⟨range, darkens_paint dark v still⟩
  · intro reverse
    have member : i ∈ whites among color := Finset.mem_filter.mpr ⟨inside, white⟩
    have repainted := (Finset.mem_filter.mp (reverse member)).2
    rw [paint_self] at repainted
    exact dark repainted

section Ending

variable {next : ν → List ν}

omit [DecidableEq ν] in
/-- Visiting the successors only darkens nodes, by induction on them. -/
theorem visitAll_darkens {visit : Coloring ν → ν → Option (Bool × Coloring ν)}
    (visits : ∀ color j found later, visit color j = some (found, later) → Darkens color later)
    {successors : List ν} {color later : Coloring ν} {found : Bool}
    (ran : visitAll visit successors color = some (found, later))
    : Darkens color later := by
  induction successors generalizing color with
  | nil =>
      obtain ⟨-, rfl⟩ := Prod.mk.inj (Option.some.inj ran)
      exact fun _ white => white
  | cons j rest ih =>
      rw [visitAll] at ran
      split at ran
      · obtain ⟨-, rfl⟩ := Prod.mk.inj (Option.some.inj ran)
        exact fun _ white => white
      · exact ih ran
      · split at ran
        · cases ran
        · rename_i visited
          obtain ⟨-, rfl⟩ := Prod.mk.inj (Option.some.inj ran)
          exact visits _ _ _ _ visited
        · rename_i visited
          exact fun v white => visits _ _ _ _ visited v (ih ran v white)

/-- A visit makes no vertex white, by induction on the depth. -/
theorem visitVertex_darkens {depth : ℕ} {i : ν} {color later : Coloring ν} {found : Bool}
    (ran : visitVertex next depth color i = some (found, later))
    : Darkens color later := by
  induction depth generalizing i color later found with
  | zero => cases ran
  | succ depth ih =>
      have visits : ∀ color j found later, visitVertex next depth color j = some (found, later)
          → Darkens color later := fun _ _ _ _ ran => ih ran
      have grayed : Darkens color (color.paint i .gray) := darkens_paint (by decide)
      rw [visitVertex] at ran
      split at ran
      · cases ran
      · rename_i visited
        obtain ⟨-, rfl⟩ := Prod.mk.inj (Option.some.inj ran)
        exact fun v white => grayed v (visitAll_darkens visits visited v white)
      · rename_i after visited
        obtain ⟨-, rfl⟩ := Prod.mk.inj (Option.some.inj ran)
        have blackened := @darkens_paint _ _ after i .black (by decide)
        exact fun v white => grayed v (visitAll_darkens visits visited v (blackened v white))

omit [DecidableEq ν] in
/-- The loop over the successors ends when each visit does, by induction on them; the white
nodes grow no more numerous in between.
-/
theorem visitAll_isSome {among : Finset ν} {depth : ℕ}
    {visit : Coloring ν → ν → Option (Bool × Coloring ν)}
    (visits : ∀ color j found later, visit color j = some (found, later) → Darkens color later)
    (ends : ∀ color j, j ∈ among → color j = .white → (whites among color).card ≤ depth
      → (visit color j).isSome)
    {successors : List ν} {color : Coloring ν} (inside : ∀ j ∈ successors, j ∈ among)
    (enough : (whites among color).card ≤ depth)
    : (visitAll visit successors color).isSome := by
  induction successors generalizing color with
  | nil => rfl
  | cons j rest ih =>
      obtain ⟨first, later⟩ := List.forall_mem_cons.mp inside
      rw [visitAll]
      split
      · rfl
      · exact ih later enough
      · rename_i white
        have ended := ends color j first white enough
        split
        · rename_i stuck
          rw [stuck] at ended
          cases ended
        · rfl
        · rename_i visited
          exact ih later (Nat.le_trans ((visits _ _ _ _ visited).card_le among) enough)

/-- A visit ends when its depth is at least the number of white vertices: the recursion is on a
vertex that it has painted.
-/
theorem visitVertex_isSome {among : Finset ν} (inside : ∀ i, ∀ j ∈ next i, j ∈ among) {depth : ℕ}
    {i : ν} {color : Coloring ν} (range : i ∈ among) (white : color i = .white)
    (enough : (whites among color).card ≤ depth)
    : (visitVertex next depth color i).isSome := by
  induction depth generalizing i color with
  | zero =>
      have painted := @card_whites_paint_lt _ _ among i color .gray (by decide) range white
      omega
  | succ depth ih =>
      have painted := @card_whites_paint_lt _ _ among i color .gray (by decide) range white
      have loop := @visitAll_isSome _ among depth (visitVertex next depth)
        (fun _ _ _ _ ran => visitVertex_darkens ran) (fun _ _ range white few => ih range white few)
        (next i) (color.paint i .gray) (inside i) (by omega)
      rw [visitVertex]
      split
      · rename_i stuck
        rw [stuck] at loop
        cases loop
      · rfl
      · rfl

/-- The search ends when its depth is at least the number of vertices. -/
theorem findCycle_ends {among : Finset ν} (inside : ∀ i, ∀ j ∈ next i, j ∈ among) {depth : ℕ}
    (enough : among.card ≤ depth) {vertices : List ν} (range : ∀ i ∈ vertices, i ∈ among)
    (color : Coloring ν)
    : (findCycle next depth vertices color).isSome := by
  induction vertices generalizing color with
  | nil => rfl
  | cons i rest ih =>
      obtain ⟨first, later⟩ := List.forall_mem_cons.mp range
      rw [findCycle]
      split
      · rename_i white
        have few : (whites among color).card ≤ depth := (Finset.card_filter_le _ _).trans enough
        have ended := visitVertex_isSome inside first white few
        split
        · rename_i stuck
          rw [stuck] at ended
          cases ended
        · rfl
        · exact ih later _
      · exact ih later color

end Ending

theorem findCycle_isSome {next : ℕ → List ℕ} {bound : ℕ} (inside : ∀ i, ∀ j ∈ next i, j < bound)
    {vertices : List ℕ} (range : ∀ i ∈ vertices, i < bound) (color : Coloring ℕ)
    : (findCycle next bound vertices color).isSome :=
  have among : ∀ i, ∀ j ∈ next i, j ∈ Finset.range bound :=
    fun i j edge => Finset.mem_range.mpr (inside i j edge)
  findCycle_ends among (Finset.card_range bound).le
    (fun i member => Finset.mem_range.mpr (range i member)) color

-----------------------------------------------------------------------------------------
-- The search finds the cycles
-----------------------------------------------------------------------------------------

section Cycles

variable (next : ν → List ν)

def Edge (i j : ν) : Prop := j ∈ next i

/-- Some vertex leads back to itself. -/
def Cyclic : Prop := ∃ v, Relation.TransGen (Edge next) v v

/-- Black vertices lead to black vertices only, and none of them lies on a cycle. -/
structure Settled (color : Coloring ν) : Prop where
  closed : ∀ b, color b = .black → ∀ j ∈ next b, color j = .black
  acyclic : ∀ b, color b = .black → ¬ Relation.TransGen (Edge next) b b

/-- What a part of the search that finds no cycle leaves: the same vertices are gray, and the
black ones stay black.
-/
structure Passed (color later : Coloring ν) : Prop where
  settled : Settled next later
  gray : ∀ v, later v = .gray ↔ color v = .gray
  black : ∀ v, color v = .black → later v = .black

variable {next}

omit [DecidableEq ν] in
theorem Settled.reaches {color : Coloring ν} (settled : Settled next color) {b v : ν}
    (black : color b = .black) (reached : Relation.TransGen (Edge next) b v)
    : color v = .black := by
  induction reached with
  | single edge => exact settled.closed _ black _ edge
  | tail _ edge ih => exact settled.closed _ ih _ edge

/-- (VisitSound visit) says what a visit of a white vertex does, when the gray vertices lead to
it: it finds a cycle only where there is one, and else blackens the vertex.
-/
def VisitSound (next : ν → List ν) (visit : Coloring ν → ν → Option (Bool × Coloring ν)) : Prop :=
  ∀ color i found later, visit color i = some (found, later) → color i = .white
    → Settled next color → (∀ g, color g = .gray → Relation.TransGen (Edge next) g i)
    → if found then Cyclic next else Passed next color later ∧ later i = .black

omit [DecidableEq ν] in
/-- The loop over successors of a vertex, by induction over them. -/
theorem visitAll_sound {visit : Coloring ν → ν → Option (Bool × Coloring ν)}
    (sound : VisitSound next visit) {i : ν} {successors : List ν} {color later : Coloring ν}
    {found : Bool} (ran : visitAll visit successors color = some (found, later))
    (edges : ∀ j ∈ successors, Edge next i j) (settled : Settled next color)
    (grays : ∀ g, color g = .gray → Relation.ReflTransGen (Edge next) g i)
    : if found then Cyclic next
      else Passed next color later ∧ ∀ j ∈ successors, later j = .black := by
  induction successors generalizing color with
  | nil =>
      obtain ⟨rfl, rfl⟩ := Prod.mk.inj (Option.some.inj ran)
      exact ⟨⟨settled, fun _ => Iff.rfl, fun _ black => black⟩, by simp⟩
  | cons j rest ih =>
      obtain ⟨edge, laterEdges⟩ := List.forall_mem_cons.mp edges
      rw [visitAll] at ran
      split at ran
      · rename_i gray
        obtain ⟨rfl, rfl⟩ := Prod.mk.inj (Option.some.inj ran)
        exact ⟨j, Relation.TransGen.tail' (grays j gray) edge⟩
      · rename_i black
        have passed := ih ran laterEdges settled grays
        cases found with
        | true => exact passed
        | false =>
            obtain ⟨passed, blackened⟩ := passed
            exact ⟨passed, List.forall_mem_cons.mpr ⟨passed.black j black, blackened⟩⟩
      · rename_i white
        have reach : ∀ g, color g = .gray → Relation.TransGen (Edge next) g j :=
          fun g gray => Relation.TransGen.tail' (grays g gray) edge
        split at ran
        · cases ran
        · rename_i visited
          obtain ⟨rfl, rfl⟩ := Prod.mk.inj (Option.some.inj ran)
          exact sound _ _ _ _ visited white settled reach
        · rename_i after visited
          obtain ⟨first, blackened⟩ : Passed next color after ∧ after j = .black :=
            sound _ _ _ _ visited white settled reach
          have passed := ih ran laterEdges first.settled
            (fun g gray => grays g ((first.gray g).mp gray))
          cases found with
          | true => exact passed
          | false =>
              obtain ⟨second, all⟩ := passed
              refine ⟨⟨second.settled, ?_, ?_⟩, ?_⟩
              · exact fun v => (second.gray v).trans (first.gray v)
              · exact fun v black => second.black v (first.black v black)
              · exact List.forall_mem_cons.mpr ⟨second.black j blackened, all⟩

/-- Painting a white node gray leaves the black ones settled. -/
theorem settled_paint_gray {color : Coloring ν} {i : ν} (settled : Settled next color)
    (white : color i = .white) : Settled next (color.paint i .gray) := by
  have same : ∀ b, color.paint i .gray b = .black → color b = .black := by
    intro b black
    by_cases itself : b = i
    · subst itself
      rw [paint_self] at black
      cases black
    · rwa [paint_of_ne itself] at black
  constructor
  · intro b black j edge
    have blackJ := settled.closed b (same b black) j edge
    have other : j ≠ i := by
      intro itself
      rw [itself, white] at blackJ
      cases blackJ
    rwa [paint_of_ne other]
  · exact fun b black => settled.acyclic b (same b black)

/-- A gray vertex whose successors are black is on no cycle: black vertices lead to black ones. -/
theorem settled_paint_black {color : Coloring ν} {i : ν} (settled : Settled next color)
    (gray : color i = .gray) (successors : ∀ j ∈ next i, color j = .black)
    : Settled next (color.paint i .black) := by
  have kept : ∀ v, color v = .black → color.paint i .black v = .black := by
    intro v black
    by_cases itself : v = i
    · rw [itself, paint_self]
    · rwa [paint_of_ne itself]
  constructor
  · intro b black j edge
    by_cases itself : b = i
    · exact kept j (successors j (itself ▸ edge))
    · rw [paint_of_ne itself] at black
      exact kept j (settled.closed b black j edge)
  · intro b black cycle
    by_cases itself : b = i
    · subst itself
      obtain ⟨j, edge, back⟩ := Relation.TransGen.head'_iff.mp cycle
      have blackB : color b = .black := by
        rcases Relation.reflTransGen_iff_eq_or_transGen.mp back with same | further
        · rw [same]
          exact successors j edge
        · exact settled.reaches (successors j edge) further
      rw [gray] at blackB
      cases blackB
    · rw [paint_of_ne itself] at black
      exact settled.acyclic b black cycle

/-- Visits are sound at every depth, by induction on it. -/
theorem visitVertex_sound (depth : ℕ) : VisitSound next (visitVertex next depth) := by
  induction depth with
  | zero =>
      intro color i found later ran
      cases ran
  | succ depth ih =>
      intro color i found later ran white settled reach
      have grays : ∀ g, color.paint i .gray g = .gray → Relation.ReflTransGen (Edge next) g i := by
        intro g gray
        by_cases itself : g = i
        · rw [itself]
        · rw [paint_of_ne itself] at gray
          exact (reach g gray).to_reflTransGen
      have loop := fun found later ran => @visitAll_sound _ next _ ih i (next i)
        (color.paint i .gray) later found ran (fun _ edge => edge)
        (settled_paint_gray settled white) grays
      rw [visitVertex] at ran
      split at ran
      · cases ran
      · rename_i visited
        obtain ⟨rfl, rfl⟩ := Prod.mk.inj (Option.some.inj ran)
        exact loop true _ visited
      · rename_i after visited
        obtain ⟨rfl, rfl⟩ := Prod.mk.inj (Option.some.inj ran)
        obtain ⟨passed, blackened⟩ := loop false _ visited
        have grayI : after i = .gray := (passed.gray i).mpr (paint_self _ _ _)
        refine ⟨⟨settled_paint_black passed.settled grayI blackened, ?_, ?_⟩, paint_self _ _ _⟩
        · intro v
          by_cases itself : v = i
          · rw [itself, paint_self, white]
            simp
          · rw [paint_of_ne itself, passed.gray, paint_of_ne itself]
        · intro v black
          by_cases itself : v = i
          · rw [itself, paint_self]
          · rw [paint_of_ne itself]
            apply passed.black
            rwa [paint_of_ne itself]

/-- The loop over the vertices reports a cycle exactly when there is one through a vertex that it
goes over, given that no vertex is gray.
Witness: induction on the vertices; a visit that finds no cycle leaves its vertex black and no
other gray.
-/
theorem findCycle_sound {depth : ℕ} {vertices : List ν} {color : Coloring ν} {found : Bool}
    (ran : findCycle next depth vertices color = some found) (settled : Settled next color)
    (noGray : ∀ v, color v ≠ .gray)
    : if found then Cyclic next
      else ∀ v ∈ vertices, ¬ Relation.TransGen (Edge next) v v := by
  induction vertices generalizing color with
  | nil =>
      obtain rfl := Option.some.inj ran
      simp
  | cons i rest ih =>
      rw [findCycle] at ran
      split at ran
      · rename_i white
        have sound := fun found later ran => visitVertex_sound depth color i found later ran white
          settled (fun g gray => (noGray g gray).elim)
        split at ran
        · cases ran
        · rename_i visited
          obtain rfl := Option.some.inj ran
          exact sound true _ visited
        · rename_i after visited
          obtain ⟨passed, black⟩ := sound false after visited
          have later := ih ran passed.settled (fun v gray => noGray v ((passed.gray v).mp gray))
          cases found with
          | true => exact later
          | false => exact List.forall_mem_cons.mpr ⟨passed.settled.acyclic i black, later⟩
      · rename_i dark
        have black : color i = .black := by
          cases shade : color i with
          | white => exact (dark shade).elim
          | gray => exact (noGray i shade).elim
          | black => rfl
        have later := ih ran settled noGray
        cases found with
        | true => exact later
        | false => exact List.forall_mem_cons.mpr ⟨settled.acyclic i black, later⟩

end Cycles

end Naalp.Foundation
