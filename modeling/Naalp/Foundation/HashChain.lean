import Mathlib.Data.List.Forall2
import Mathlib.Data.List.Induction
import Mathlib.Data.Int.Cast.Basic
import Naalp.Foundation.Checks

/-! Chains of numbered records, each of which names the digest of the record before it. The last
record of a chain pins all of them, unless two of the hashed bodies collide. A walk over records
accepts exactly the chains whose records it can read, and the search for a hole finds the first
record that does not go on with the chain before it.
-/

namespace Naalp.Foundation

variable {α ι δ ε : Type}

/-- What a chain is made of: the encoding of a record, its digest, the digest and the position that
a record names.
-/
structure ChainHash (α ι δ ε : Type) where
  encode : α → Except ε ι
  hash : ι → δ
  prev : α → δ
  position : α → Int

namespace ChainHash

variable (C : ChainHash α ι δ ε)

/-- (Linked i start records final) says that the records have the positions from `i` on and lead
from the head `start` to the head `final`.
-/
inductive Linked : Int → δ → List α → δ → Prop where
  | nil (i : Int) (head : δ) : Linked i head [] head
  | cons {i : Int} {start final : δ} {x : α} {body : ι} {rest : List α}
    (position : C.position x = i) (prev : C.prev x = start) (encoded : C.encode x = .ok body)
    (linked : Linked (i + 1) (C.hash body) rest final)
    : Linked i start (x :: rest) final

variable {C} {i : Int} {start start' middle final final' : δ} {xs ys : List α}

/-- Chains that meet at a head form one chain, by induction on the first. -/
theorem Linked.append (first : C.Linked i start xs middle)
    (second : C.Linked (i + xs.length) middle ys final)
    : C.Linked i start (xs ++ ys) final := by
  induction first with
  | nil i head => simpa using second
  | @cons i start middle x body rest position prev encoded linked ih =>
      have shift : i + ((x :: rest).length : Int) = i + 1 + rest.length := by
        simp only [List.length_cons]
        omega
      exact .cons position prev encoded (ih (shift ▸ second))

theorem Linked.snoc {x : α} {body : ι} (linked : C.Linked i start xs (C.prev x))
    (position : C.position x = i + xs.length) (encoded : C.encode x = .ok body)
    : C.Linked i start (xs ++ [x]) (C.hash body) :=
  linked.append (.cons position rfl encoded (.nil _ _))

/-- The last record of a chain, and the chain before it. -/
theorem Linked.exists_snoc {x : α} (linked : C.Linked i start (xs ++ [x]) final)
    : ∃ body, C.Linked i start xs (C.prev x) ∧ C.position x = i + xs.length
      ∧ C.encode x = .ok body ∧ final = C.hash body := by
  induction xs generalizing i start with
  | nil =>
      cases linked with
      | cons position prev encoded linked =>
          cases linked with
          | nil => exact ⟨_, prev ▸ .nil _ _, by simpa using position, encoded, rfl⟩
  | cons y xs ih =>
      cases linked with
      | cons position prev encoded linked =>
          obtain ⟨body, linked', position', encoded', same⟩ := ih linked
          refine ⟨body, .cons position prev encoded linked', ?_, encoded', same⟩
          simp only [List.length_cons]
          omega

/-- The positions of a chain count up from its first one, by induction on the chain. -/
theorem Linked.positions (linked : C.Linked i start xs final)
    : ∀ n (inside : n < xs.length), C.position xs[n] = i + n := by
  induction linked with
  | nil => simp
  | cons position prev encoded linked ih =>
      intro n inside
      cases n with
      | zero => simp [position]
      | succ n =>
          rw [List.getElem_cons_succ, ih n (Nat.lt_of_succ_lt_succ inside)]
          omega

/-- A record of each list has a body with the digest of a different body of the other list. -/
def Collide (C : ChainHash α ι δ ε) (xs ys : List α) : Prop :=
  ∃ x ∈ xs, ∃ y ∈ ys, ∃ body body', C.encode x = .ok body ∧ C.encode y = .ok body'
    ∧ body ≠ body' ∧ C.hash body = C.hash body'

theorem Collide.mono {more more' : List α} (collide : C.Collide xs ys) (subset : xs ⊆ more)
    (subset' : ys ⊆ more') : C.Collide more more' := by
  obtain ⟨x, member, y, member', different⟩ := collide
  exact ⟨x, subset member, y, subset' member', different⟩

/-- The encoding is injective. -/
def Faithful (C : ChainHash α ι δ ε) : Prop :=
  ∀ x y body, C.encode x = .ok body → C.encode y = .ok body → x = y

/-- Chains of one length with one final head are equal, unless bodies collide; by induction from
their ends.
-/
theorem Linked.eq_or_collide (faithful : C.Faithful) (linked : C.Linked i start xs final)
    (linked' : C.Linked i start' ys final) (length : xs.length = ys.length)
    : xs = ys ∨ C.Collide xs ys := by
  induction xs using List.reverseRecOn generalizing ys final with
  | nil => exact .inl (List.eq_nil_of_length_eq_zero length.symm).symm
  | append_singleton xs x ih =>
      cases ys using List.reverseRecOn with
      | nil => simp at length
      | append_singleton ys y =>
          obtain ⟨body, earlier, -, encoded, rfl⟩ := linked.exists_snoc
          obtain ⟨body', earlier', -, encoded', same⟩ := linked'.exists_snoc
          by_cases equal : body = body'
          · subst equal
            obtain rfl := faithful x y body encoded encoded'
            rcases ih earlier earlier' (by simpa using length) with rfl | collide
            · exact .inl rfl
            · exact .inr (collide.mono (List.subset_append_left _ _) (List.subset_append_left _ _))
          · exact .inr ⟨x, by simp, y, by simp, body, body', encoded, encoded', equal, same⟩

/-- The last record pins its chain: it has the position that gives the length. -/
theorem Linked.eq_of_last (faithful : C.Faithful) (linked : C.Linked i start xs final)
    (linked' : C.Linked i start' ys final') (last : xs.getLast? = ys.getLast?)
    : xs = ys ∨ C.Collide xs ys := by
  cases xs using List.reverseRecOn with
  | nil =>
      rw [List.getLast?_nil] at last
      exact .inl (List.getLast?_eq_none_iff.mp last.symm).symm
  | append_singleton xs x =>
      cases ys using List.reverseRecOn with
      | nil => simp at last
      | append_singleton ys y =>
          obtain rfl : x = y := by simpa using last
          obtain ⟨body, -, position, encoded, rfl⟩ := linked.exists_snoc
          obtain ⟨body', -, position', encoded', rfl⟩ := linked'.exists_snoc
          obtain rfl := Except.ok.inj (encoded.symm.trans encoded')
          exact linked.eq_or_collide faithful linked' (by simp; omega)

/-- So does the final head of two chains with records. -/
theorem Linked.eq_of_final (faithful : C.Faithful) (linked : C.Linked i start xs final)
    (linked' : C.Linked i start' ys final) (nonempty : xs ≠ []) (nonempty' : ys ≠ [])
    : xs = ys ∨ C.Collide xs ys := by
  cases xs using List.reverseRecOn with
  | nil => exact absurd rfl nonempty
  | append_singleton xs x =>
      cases ys using List.reverseRecOn with
      | nil => exact absurd rfl nonempty'
      | append_singleton ys y =>
          obtain ⟨body, -, -, encoded, rfl⟩ := linked.exists_snoc
          obtain ⟨body', -, -, encoded', same⟩ := linked'.exists_snoc
          by_cases equal : body = body'
          · subst equal
            obtain rfl := faithful x y body encoded encoded'
            exact linked.eq_of_last faithful linked' (by simp)
          · exact .inr ⟨x, by simp, y, by simp, body, body', encoded, encoded', equal, same⟩

-----------------------------------------------------------------------------------------
-- Chains without positions
-----------------------------------------------------------------------------------------

/-- (Chained start records final) says that the records lead from one head to the other, whatever
their positions.
-/
inductive Chained (C : ChainHash α ι δ ε) : δ → List α → δ → Prop where
  | nil (head : δ) : Chained C head [] head
  | cons {start final : δ} {x : α} {body : ι} {rest : List α} (prev : C.prev x = start)
    (encoded : C.encode x = .ok body) (chained : Chained C (C.hash body) rest final)
    : Chained C start (x :: rest) final

/-- A record of the list has a body with this digest. -/
def HashesTo (C : ChainHash α ι δ ε) (head : δ) (xs : List α) : Prop :=
  ∃ x ∈ xs, ∃ body, C.encode x = .ok body ∧ C.hash body = head

theorem HashesTo.mono {head : δ} {more : List α} (hashes : C.HashesTo head xs) (subset : xs ⊆ more)
    : C.HashesTo head more := by
  obtain ⟨x, member, body, encoded, hashed⟩ := hashes
  exact ⟨x, subset member, body, encoded, hashed⟩

/-- The last record of a chain, and the chain before it. -/
theorem Chained.exists_snoc {x : α} (chained : C.Chained start (xs ++ [x]) final)
    : ∃ body, C.Chained start xs (C.prev x) ∧ C.encode x = .ok body ∧ final = C.hash body := by
  induction xs generalizing start with
  | nil =>
      cases chained with
      | cons prev encoded chained =>
          cases chained with
          | nil => exact ⟨_, prev ▸ .nil _, encoded, rfl⟩
  | cons y xs ih =>
      cases chained with
      | cons prev encoded chained =>
          obtain ⟨body, earlier, encoded', same⟩ := ih chained
          exact ⟨body, .cons prev encoded earlier, encoded', same⟩

/-- Chains between the same two heads are equal, whatever their lengths, unless bodies collide or
one of them hashes to the head at the start; by induction from their ends.
-/
theorem Chained.eq_of_final (faithful : C.Faithful) (chained : C.Chained start xs final)
    (chained' : C.Chained start ys final)
    : xs = ys ∨ C.Collide xs ys ∨ C.HashesTo start (xs ++ ys) := by
  induction xs using List.reverseRecOn generalizing ys final with
  | nil =>
      cases chained with
      | nil =>
          cases ys using List.reverseRecOn with
          | nil => exact .inl rfl
          | append_singleton ys y =>
              obtain ⟨body, -, encoded, same⟩ := chained'.exists_snoc
              exact .inr (.inr ⟨y, by simp, body, encoded, same.symm⟩)
  | append_singleton xs x ih =>
      obtain ⟨body, earlier, encoded, rfl⟩ := chained.exists_snoc
      cases ys using List.reverseRecOn with
      | nil =>
          generalize hashed : C.hash body = head at chained'
          cases chained' with
          | nil => exact .inr (.inr ⟨x, by simp, body, encoded, hashed⟩)
      | append_singleton ys y =>
          obtain ⟨body', earlier', encoded', same⟩ := chained'.exists_snoc
          by_cases equal : body = body'
          · subst equal
            obtain rfl := faithful x y body encoded encoded'
            rcases ih earlier earlier' with rfl | collide | hashes
            · exact .inl rfl
            · refine .inr (.inl (collide.mono ?_ ?_))
              · exact List.subset_append_left _ _
              · exact List.subset_append_left _ _
            · refine .inr (.inr (hashes.mono ?_))
              intro z member
              simp only [List.mem_append] at member ⊢
              tauto
          · exact .inr (.inl ⟨x, by simp, y, by simp, body, body', encoded, encoded', equal, same⟩)

-----------------------------------------------------------------------------------------
-- Walks
-----------------------------------------------------------------------------------------

section Walks

variable {β γ σ : Type} [DecidableEq δ]

/-- The loop that reads the records, checks each against what came before it, and compares its
position and the digest that it names.
-/
def walk (C : ChainHash α ι δ ε) (read : β → Except ε α)
    (checkRecord : Int → σ → α → Except ε σ) (broken : ε) (event : α → δ → γ)
    : Int → δ → σ → List β → Except ε (List γ)
  | _, _, _, [] => return []
  | i, h, kept, obj :: rest => do
      let x ← read obj
      let kept ← checkRecord i kept x
      raiseIf (C.position x ≠ i ∨ C.prev x ≠ h) broken
      let h := C.hash (← C.encode x)
      return event x h :: (← walk C read checkRecord broken event (i + 1) h kept rest)

/-- The loop that reports the first record with another position, or that names another digest. -/
def findHole (C : ChainHash α ι δ ε) : Int → δ → List α → Except ε (Int × Bool)
  | _, _, [] => return (0, false)
  | i, h, x :: rest =>
      if C.position x ≠ i ∨ C.prev x ≠ h then return (i, true)
      else do findHole C (i + 1) (C.hash (← C.encode x)) rest

/-- The checks pass on the records in turn. -/
def Checked (checkRecord : Int → σ → α → Except ε σ) : Int → σ → List α → Prop
  | _, _, [] => True
  | i, kept, x :: rest => ∃ kept', checkRecord i kept x = .ok kept'
      ∧ Checked checkRecord (i + 1) kept' rest

/-- The first `k` records go on from the head `start`, and the next one does not go on with them. -/
def BrokenAt (C : ChainHash α ι δ ε) (i : Int) (start : δ) (xs : List α) (k : ℕ) : Prop :=
  ∃ before x after head, xs = before ++ x :: after ∧ before.length = k
    ∧ C.Linked i start before head ∧ (C.position x ≠ i + k ∨ C.prev x ≠ head)

variable {read : β → Except ε α} {checkRecord : Int → σ → α → Except ε σ} {broken error : ε}
  {event : α → δ → γ} {kept : σ} {objs : List β} {out : List γ} {x : α} {body : ι}

/-- The walk accepts the chains whose records it reads and that pass the checks, by induction over
what it reads.
-/
theorem walk_isOk : (∃ out, C.walk read checkRecord broken event i start kept objs = .ok out)
    ↔ ∃ xs, List.Forall₂ (fun obj x => read obj = .ok x) objs xs
      ∧ Checked checkRecord i kept xs ∧ ∃ final, C.Linked i start xs final := by
  induction objs generalizing i start kept with
  | nil => exact iff_of_true ⟨[], rfl⟩ ⟨[], .nil, trivial, _, .nil _ _⟩
  | cons obj rest ih =>
      simp only [walk, bind_eq_ok, raiseIf_eq_ok, exists_const, pure_eq_ok, Except.ok.injEq, not_or,
        not_not, ne_eq]
      constructor
      · intro walked
        obtain ⟨_, x, first, kept', passed, ⟨position, prev⟩, body, encoded, out, later, rfl⟩ :=
          walked
        obtain ⟨xs, reads, checked, final, linked⟩ := ih.mp ⟨out, later⟩
        exact ⟨x :: xs, .cons first reads, ⟨kept', passed, checked⟩, final,
          .cons position prev encoded linked⟩
      · intro accepted
        obtain ⟨_, reads, checked, final, linked⟩ := accepted
        cases reads with
        | cons first reads =>
            cases linked with
            | cons position prev encoded linked =>
                obtain ⟨kept', passed, checked⟩ := checked
                obtain ⟨out, later⟩ := ih.mpr ⟨_, reads, checked, final, linked⟩
                exact ⟨_, _, first, kept', passed, ⟨position, prev⟩, _, encoded, out, later, rfl⟩

/-- A walk that returns the records returns those that it read. -/
theorem walk_records {xs : List α} (reads : List.Forall₂ (fun obj x => read obj = .ok x) objs xs)
    {out : List α} (walked : C.walk read checkRecord broken (fun x _ => x) i start kept objs
      = .ok out)
    : out = xs := by
  induction reads generalizing i start kept out with
  | nil => exact (Except.ok.inj walked).symm
  | cons first _ ih =>
      simp only [walk, first, bind_eq_ok, pure_eq_ok, Except.ok.injEq, ok_bind] at walked
      obtain ⟨_, -, _, -, _, -, rest, later, rfl⟩ := walked
      rw [ih later]

omit [DecidableEq δ] in
/-- Records that are handed to the walk are read as they are. -/
theorem forall₂_pure {xs ys : List α}
    : List.Forall₂ (fun x y => (pure x : Except ε α) = .ok y) xs ys ↔ xs = ys := by
  simp only [pure_eq_ok, Except.ok.injEq]
  exact List.forall₂_eq_eq_eq ▸ Iff.rfl

/-- Where the records form a chain, a walk over them fails by a check only.
Witness: induction on the chain; the positions and the digests that the walk compares are those
of the chain.
-/
theorem walk_error_of_linked {xs : List α} (linked : C.Linked i start xs final)
    (failed : C.walk pure checkRecord broken event i start kept xs = .error error)
    : ∃ j kept', ∃ x ∈ xs, checkRecord j kept' x = .error error := by
  induction linked generalizing kept with
  | nil => cases failed
  | @cons i start final x body rest position prev encoded _ ih =>
      rw [walk, pure_bind] at failed
      cases passed : checkRecord i kept x with
      | error error' =>
          rw [passed] at failed
          obtain rfl := Except.error.inj failed
          exact ⟨i, kept, x, List.mem_cons_self, passed⟩
      | ok kept' =>
          have goesOn : ¬ (C.position x ≠ i ∨ C.prev x ≠ start) := by simp [position, prev]
          rw [passed, ok_bind, raiseIf_neg goesOn, ok_bind, encoded, ok_bind] at failed
          dsimp only at failed
          cases later : C.walk pure checkRecord broken event (i + 1) (C.hash body) kept' rest with
          | ok out =>
              rw [later] at failed
              cases failed
          | error error' =>
              rw [later] at failed
              obtain rfl := Except.error.inj failed
              obtain ⟨j, kept'', y, member, failing⟩ := ih later
              exact ⟨j, kept'', y, List.mem_cons_of_mem _ member, failing⟩

-----------------------------------------------------------------------------------------
-- Holes
-----------------------------------------------------------------------------------------

theorem Linked.findHole (linked : C.Linked i start xs final)
    : C.findHole i start xs = .ok (0, false) := by
  induction linked with
  | nil => rfl
  | @cons i start _ x _ _ position prev encoded _ ih =>
      have goesOn : ¬ (C.position x ≠ i ∨ C.prev x ≠ start) := by simp [position, prev]
      rw [ChainHash.findHole, if_neg goesOn, encoded, ok_bind, ih]

/-- The search for a hole stops at the first record that does not go on, by induction on the
records before it.
-/
theorem BrokenAt.findHole {k : ℕ} (brokenAt : C.BrokenAt i start xs k)
    : C.findHole i start xs = .ok (i + k, true) := by
  obtain ⟨before, x, after, head, rfl, rfl, linked, differs⟩ := brokenAt
  induction linked with
  | nil i head =>
      have stops : C.position x ≠ i ∨ C.prev x ≠ head := by simpa using differs
      rw [List.nil_append, ChainHash.findHole, if_pos stops]
      simp
  | @cons i start head y body rest position prev encoded _ ih =>
      have goesOn : ¬ (C.position y ≠ i ∨ C.prev y ≠ start) := by simp [position, prev]
      have shift : i + ((y :: rest).length : ℕ) = i + 1 + (rest.length : ℕ) := by
        rw [List.length_cons]
        omega
      rw [List.cons_append, ChainHash.findHole, if_neg goesOn, encoded, ok_bind, shift]
      exact ih (shift ▸ differs)

/-- What each answer of the search says, by induction over the records. -/
theorem findHole_spec (i : Int) (start : δ) (xs : List α)
    : match C.findHole i start xs with
      | .ok (_, false) => ∃ final, C.Linked i start xs final
      | .ok (_, true) => ∃ k, C.BrokenAt i start xs k
      | .error error => ∃ x ∈ xs, C.encode x = .error error := by
  induction xs generalizing i start with
  | nil => exact ⟨start, .nil _ _⟩
  | cons x rest ih =>
      rw [ChainHash.findHole]
      by_cases stops : C.position x ≠ i ∨ C.prev x ≠ start
      · rw [if_pos stops]
        exact ⟨0, [], x, rest, start, rfl, rfl, .nil _ _, by simpa using stops⟩
      · rw [if_neg stops]
        rw [not_or, not_not, not_not] at stops
        cases encoded : C.encode x with
        | error error => exact ⟨x, List.mem_cons_self, encoded⟩
        | ok body =>
            have later := ih (i + 1) (C.hash body)
            rw [ok_bind]
            split
            · rename_i answered
              rw [answered] at later
              obtain ⟨final, linked⟩ := later
              exact ⟨final, .cons stops.1 stops.2 encoded linked⟩
            · rename_i answered
              rw [answered] at later
              obtain ⟨k, before, y, after, head, rfl, rfl, linked, differs⟩ := later
              refine ⟨before.length + 1, x :: before, y, after, head, rfl, rfl,
                .cons stops.1 stops.2 encoded linked, ?_⟩
              have shift : i + ((before.length + 1 : ℕ) : Int) = i + 1 + before.length := by omega
              rwa [shift]
            · rename_i answered
              rw [answered] at later
              obtain ⟨y, member, failed⟩ := later
              exact ⟨y, List.mem_cons_of_mem _ member, failed⟩

/-- No hole is reported exactly for chains. -/
theorem findHole_eq_none : C.findHole i start xs = .ok (0, false) ↔ ∃ final,
    C.Linked i start xs final := by
  constructor
  · intro answered
    have spec := @findHole_spec _ _ _ _ C _ i start xs
    rwa [answered] at spec
  · intro linked
    obtain ⟨_, linked⟩ := linked
    exact linked.findHole

/-- A reported position is the first one that breaks the chain. -/
theorem findHole_eq_some {n : Int}
    : C.findHole i start xs = .ok (n, true) ↔ ∃ k : ℕ, n = i + k ∧ C.BrokenAt i start xs k := by
  constructor
  · intro answered
    have spec := @findHole_spec _ _ _ _ C _ i start xs
    rw [answered] at spec
    obtain ⟨k, brokenAt⟩ := spec
    have same := Except.ok.inj (answered.symm.trans brokenAt.findHole)
    exact ⟨k, congrArg Prod.fst same, brokenAt⟩
  · intro answered
    obtain ⟨k, rfl, brokenAt⟩ := answered
    exact brokenAt.findHole

theorem findHole_eq_error (failed : C.findHole i start xs = .error error)
    : ∃ x ∈ xs, C.encode x = .error error := by
  have spec := @findHole_spec _ _ _ _ C _ i start xs
  rwa [failed] at spec

omit [DecidableEq δ] in
/-- The beginning of a chain. -/
theorem Linked.left {xs ys : List α} (linked : C.Linked i start (xs ++ ys) final)
    : ∃ middle, C.Linked i start xs middle := by
  induction xs generalizing i start with
  | nil => exact ⟨start, .nil _ _⟩
  | cons x xs ih =>
      cases linked with
      | cons position prev encoded linked =>
          obtain ⟨middle, linked⟩ := ih linked
          exact ⟨middle, .cons position prev encoded linked⟩

omit [DecidableEq δ] in
/-- A list that agrees with a chain up to a place, and has a record of another position there. -/
theorem Linked.brokenAt {ys : List α} {y : α} {k : ℕ} (linked : C.Linked i start xs final)
    (agree : ys.take k = xs.take k) (listed : ys[k]? = some y) (other : C.position y ≠ i + k)
    : C.BrokenAt i start ys k := by
  obtain ⟨inside, same⟩ := List.getElem?_eq_some_iff.mp listed
  rw [← List.take_append_drop k xs, ← agree] at linked
  obtain ⟨middle, linked⟩ := linked.left
  refine ⟨ys.take k, y, ys.drop (k + 1), middle, ?_, by simp; omega, linked, .inl other⟩
  rw [← same, List.getElem_cons_drop, List.take_append_drop]

omit [DecidableEq δ] in
/-- Taking out a record other than the last breaks the chain at its place. -/
theorem Linked.brokenAt_eraseIdx {k : ℕ} (linked : C.Linked i start xs final)
    (inside : k + 1 < xs.length) : C.BrokenAt i start (xs.eraseIdx k) k := by
  have listed : (xs.eraseIdx k)[k]? = some xs[k + 1] := by
    rw [List.getElem?_eraseIdx, if_neg (by omega), List.getElem?_eq_getElem inside]
  refine linked.brokenAt ?_ listed ?_
  · rw [List.eraseIdx_eq_take_drop_succ, List.take_left' (by rw [List.length_take]; omega)]
  · rw [linked.positions]
    omega

omit [DecidableEq δ] in
/-- Exchanging two records breaks the chain at the first place. -/
theorem Linked.brokenAt_swap {m n : ℕ} {x y : α} (linked : C.Linked i start xs final)
    (before : m < n) (second : xs[n]? = some y)
    : C.BrokenAt i start ((xs.set m y).set n x) m := by
  obtain ⟨inside, rfl⟩ := List.getElem?_eq_some_iff.mp second
  have listed : ((xs.set m xs[n]).set n x)[m]? = some xs[n] := by
    rw [List.getElem?_set_ne (by omega), List.getElem?_set_self (by omega)]
  refine linked.brokenAt ?_ listed ?_
  · rw [List.take_set_of_le (by omega), List.take_set_of_le (le_refl m)]
  · rw [linked.positions]
    omega

end Walks

end ChainHash

end Naalp.Foundation
