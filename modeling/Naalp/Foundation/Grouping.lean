import Mathlib.Data.List.AList
import Mathlib.Data.List.Perm.Basic
import Mathlib.Data.List.Sort
import Mathlib.Order.Lattice

/-! Entries filed under two keys, and the reports made by going through the places in the order of
their keys. A place keeps the set of the entries filed there: filing one again changes nothing.
Tables that remember the first accepted item of each key show a conflict in every order. What a list
that is sorted by a key concatenates to depends on the order exactly where equal keys do not
commute.
-/

namespace Naalp.Foundation

variable {α β γ δ : Type}

section Ascending

variable [LE α] [LT α] [DecidableLE α] [Std.IsLinearOrder α] [Std.LawfulOrderLT α]

/-- The members of a duplicate-free list in strictly ascending order. -/
def ascending (l : List α) : List α :=
  l.insertionSort (· ≤ ·)

omit [LT α] [Std.IsLinearOrder α] [Std.LawfulOrderLT α] in
@[simp]
theorem mem_ascending {l : List α} {a : α} : a ∈ ascending l ↔ a ∈ l :=
  (List.perm_insertionSort _ l).mem_iff

/-- Sorting a list without repetition gives a strictly ascending one. -/
theorem pairwise_ascending {l : List α} (distinct : l.Nodup)
    : (ascending l).Pairwise (· < ·) := by
  have total : Std.Total fun a b : α => a ≤ b := ⟨fun a b => Std.IsLinearOrder.le_total a b⟩
  have transitive : IsTrans α (· ≤ ·) :=
    ⟨fun a b c before after => Std.IsPreorder.le_trans a b c before after⟩
  have ordered : (ascending l).Pairwise (· ≤ ·) := List.pairwise_insertionSort _ l
  have sortedDistinct : (ascending l).Nodup :=
    (List.perm_insertionSort _ l).nodup_iff.mpr distinct
  refine (ordered.and sortedDistinct).imp ?_
  intro a b both
  refine Std.LawfulOrderLT.lt_iff a b |>.mpr ⟨both.1, ?_⟩
  intro after
  exact both.2 (Std.IsPartialOrder.le_antisymm a b both.1 after)

end Ascending

/-- A dictionary of dictionaries of the sets of filed entries. -/
abbrev Groups (α β γ : Type) := AList fun _ : α => AList fun _ : β => List γ

variable [DecidableEq α] [DecidableEq β] [DecidableEq γ]

def Groups.row (groups : Groups α β γ) (a : α) : AList fun _ : β => List γ :=
  (groups.lookup a).getD ∅

/-- What is filed under the two keys, nothing where a key is missing. -/
def Groups.entries (groups : Groups α β γ) (a : α) (b : β) : List γ :=
  ((groups.row a).lookup b).getD []

def Groups.file (groups : Groups α β γ) (entry : α × β × γ) : Groups α β γ :=
  let (a, b, c) := entry
  groups.insert a ((groups.row a).insert b ((groups.entries a b).insert c))

-----------------------------------------------------------------------------------------
-- What filing leaves in every place
-----------------------------------------------------------------------------------------

/-- Filing an entry adds it to its own group and to no other. -/
theorem Groups.entries_file {groups : Groups α β γ} {a a' : α} {b b' : β} {c : γ}
    : (groups.file (a, b, c)).entries a' b'
      = if a' = a ∧ b' = b then (groups.entries a b).insert c else groups.entries a' b' := by
  by_cases sameRow : a' = a
  · subst sameRow
    by_cases samePlace : b' = b
    · subst samePlace
      simp [Groups.file, Groups.entries, Groups.row]
    · simp [Groups.file, Groups.entries, Groups.row, samePlace,
        AList.lookup_insert_ne samePlace]
  · simp [Groups.file, Groups.entries, Groups.row, sameRow, AList.lookup_insert_ne sameRow]

/-- What the groups hold after filing is what they held and the entry. -/
theorem Groups.mem_file {groups : Groups α β γ} {entry : α × β × γ} {a : α} {b : β} {c : γ}
    : c ∈ (groups.file entry).entries a b ↔ c ∈ groups.entries a b ∨ (a, b, c) = entry := by
  obtain ⟨a', b', c'⟩ := entry
  rw [Groups.entries_file]
  split
  case isTrue here =>
    obtain ⟨rfl, rfl⟩ := here
    rw [List.mem_insert_iff, or_comm]
    simp
  case isFalse elsewhere =>
    refine (or_iff_left ?_).symm
    intro same
    obtain ⟨rfl, rfl, rfl⟩ := same
    exact elsewhere ⟨rfl, rfl⟩

theorem Groups.nodup_file {groups : Groups α β γ} {entry : α × β × γ}
    (distinct : ∀ a b, (groups.entries a b).Nodup) (a : α) (b : β)
    : ((groups.file entry).entries a b).Nodup := by
  obtain ⟨a', b', c'⟩ := entry
  rw [Groups.entries_file]
  split
  · exact (distinct a' b').insert
  · exact distinct a b

/-- Every place holds exactly the entries filed there, each once, by induction on the list. -/
theorem Groups.filed (entries : List (α × β × γ))
    : (∀ a b c, c ∈ (entries.foldl Groups.file ∅).entries a b ↔ (a, b, c) ∈ entries)
      ∧ ∀ a b, ((entries.foldl Groups.file ∅).entries a b).Nodup := by
  have general (groups : Groups α β γ) (distinct : ∀ a b, (groups.entries a b).Nodup)
      : (∀ a b c, c ∈ (entries.foldl Groups.file groups).entries a b
            ↔ c ∈ groups.entries a b ∨ (a, b, c) ∈ entries)
        ∧ ∀ a b, ((entries.foldl Groups.file groups).entries a b).Nodup := by
    induction entries generalizing groups with
    | nil => simpa using distinct
    | cons entry entries ih =>
        obtain ⟨holds, once⟩ := ih (groups.file entry) (Groups.nodup_file distinct)
        refine ⟨fun a b c => ?_, once⟩
        rw [List.foldl_cons, holds, Groups.mem_file, List.mem_cons, or_assoc]
  have nothing (a : α) (b : β) : (∅ : Groups α β γ).entries a b = [] := rfl
  simpa [nothing] using general ∅ fun a b => nothing a b ▸ List.nodup_nil

-----------------------------------------------------------------------------------------
-- Reports in the order of the keys
-----------------------------------------------------------------------------------------

variable [LE α] [DecidableLE α] [LE β] [DecidableLE β]

def Groups.report (f : α → β → List γ → Option δ) (groups : Groups α β γ) : List δ :=
  (ascending groups.keys).flatMap fun a =>
    (ascending (groups.row a).keys).filterMap fun b => f a b (groups.entries a b)

variable {f : α → β → List γ → Option δ} {groups : Groups α β γ}

omit [DecidableEq γ] in
/-- Places that nothing is filed in give no report, so no place is left out. -/
theorem Groups.mem_report (silent : ∀ a b, f a b [] = none) {d : δ}
    : d ∈ groups.report f ↔ ∃ a b, f a b (groups.entries a b) = some d := by
  have named {a : α} {b : β} (reported : f a b (groups.entries a b) = some d)
      : a ∈ groups.keys ∧ b ∈ (groups.row a).keys := by
    have something : groups.entries a b ≠ [] := by
      intro nothing
      rw [nothing, silent] at reported
      cases reported
    have inRow : b ∈ (groups.row a).keys := by
      by_contra missing
      have unknown := AList.lookup_eq_none.mpr missing
      exact something (by rw [Groups.entries, unknown, Option.getD_none])
    refine ⟨?_, inRow⟩
    by_contra missing
    have unknown := AList.lookup_eq_none.mpr missing
    rw [Groups.row, unknown, Option.getD_none] at inRow
    simp at inRow
  simp only [Groups.report, List.mem_flatMap, List.mem_filterMap, mem_ascending]
  constructor
  · intro found
    obtain ⟨a, -, b, -, reported⟩ := found
    exact ⟨a, b, reported⟩
  · intro found
    obtain ⟨a, b, reported⟩ := found
    exact ⟨a, (named reported).1, b, (named reported).2, reported⟩

omit [DecidableEq γ] in
/-- Reports stand in the order of their places, the first key deciding. -/
theorem Groups.pairwise_report [LT α] [Std.IsLinearOrder α] [Std.LawfulOrderLT α]
    [LT β] [Std.IsLinearOrder β] [Std.LawfulOrderLT β] {before : δ → δ → Prop}
    (byPlace : ∀ {a b a' b' d d'}, f a b (groups.entries a b) = some d →
      f a' b' (groups.entries a' b') = some d' → (a < a' ∨ a = a' ∧ b < b') → before d d')
    : (groups.report f).Pairwise before := by
  refine List.pairwise_flatMap.mpr ⟨?_, ?_⟩
  · intro a _
    refine List.pairwise_filterMap.mpr ?_
    refine (pairwise_ascending (groups.row a).nodupKeys).imp ?_
    intro b b' below d reported d' reported'
    exact byPlace reported reported' (.inr ⟨rfl, below⟩)
  · refine (pairwise_ascending groups.nodupKeys).imp ?_
    intro a a' below d member d' member'
    obtain ⟨b, -, reported⟩ := List.mem_filterMap.mp member
    obtain ⟨b', -, reported'⟩ := List.mem_filterMap.mp member'
    exact byPlace reported reported' (.inl below)

-----------------------------------------------------------------------------------------
-- The first item of each key
-----------------------------------------------------------------------------------------

section FirstSeen

variable {α κ ν : Type} [DecidableEq κ] (accepted : α → Bool) (key : α → κ)

/-- The first accepted item with a key. -/
def firstAt (history : List α) (k : κ) : Option α :=
  history.find? fun x => accepted x && key x = k

/-- The table holds the first accepted item of every key. -/
def Remembers (history : List α) (table : AList (fun _ : κ => α)) : Prop :=
  ∀ k, table.lookup k = firstAt accepted key history k

section Table

variable {accepted key} {history : List α} {x y : α} {k : κ} {table : AList (fun _ : κ => α)}

theorem firstAt_eq_some (found : firstAt accepted key history k = some x)
    : x ∈ history ∧ accepted x = true ∧ key x = k := by
  have holds := List.find?_some found
  simp only [Bool.and_eq_true, decide_eq_true_eq] at holds
  exact ⟨List.mem_of_find?_eq_some found, holds⟩

theorem firstAt_append {later : List α}
    : firstAt accepted key (history ++ later) k
      = (firstAt accepted key history k).or (firstAt accepted key later k) :=
  List.find?_append

theorem firstAt_singleton (x : α) (k : κ)
    : firstAt accepted key [x] k = if accepted x && key x = k then some x else none := by
  rw [firstAt, List.find?_cons, List.find?_nil]
  cases accepted x && key x = k <;> rfl

theorem remembers_nil : Remembers accepted key [] (∅ : AList (fun _ : κ => α)) :=
  fun _ => AList.lookup_empty _

theorem Remembers.refused (remembers : Remembers accepted key history table)
    (refused : accepted x = false) : Remembers accepted key (history ++ [x]) table := by
  intro k
  rw [remembers k, firstAt_append, firstAt_singleton, refused]
  simp

/-- A key that is known already keeps its item. -/
theorem Remembers.known (remembers : Remembers accepted key history table)
    (found : table.lookup (key x) = some y) : Remembers accepted key (history ++ [x]) table := by
  intro k
  rw [remembers k, firstAt_append, firstAt_singleton]
  by_cases same : key x = k
  · rw [remembers, same] at found
    rw [found]
    rfl
  · simp [same]

/-- A new key gets its first item. -/
theorem Remembers.inserted (remembers : Remembers accepted key history table)
    (new : accepted x = true) (absent : table.lookup (key x) = none)
    : Remembers accepted key (history ++ [x]) (table.insert (key x) x) := by
  intro k
  rw [firstAt_append, firstAt_singleton]
  by_cases same : key x = k
  · subst same
    rw [remembers] at absent
    simp [absent, new]
  · rw [AList.lookup_insert_ne (Ne.symm same), remembers k]
    simp [same]

end Table

variable (value : α → ν)

/-- The item is accepted and differs from the first accepted item with its key. -/
def ConflictsWith (history : List α) (first x : α) : Prop :=
  accepted x = true ∧ firstAt accepted key history (key x) = some first ∧ value first ≠ value x

/-- Two accepted items with one key differ. -/
def Conflicting (items : List α) : Prop :=
  ∃ x ∈ items, ∃ y ∈ items, accepted x = true ∧ accepted y = true ∧ key x = key y
    ∧ value x ≠ value y

/-- Two accepted items with the key `k` differ. -/
def ConflictingAt (k : κ) (items : List α) : Prop :=
  ∃ x ∈ items, ∃ y ∈ items, accepted x = true ∧ accepted y = true ∧ key x = k ∧ key y = k
    ∧ value x ≠ value y

variable {accepted key value}

omit [DecidableEq κ] in
theorem Conflicting.perm {items items' : List α} (same : items.Perm items')
    (conflicting : Conflicting accepted key value items)
    : Conflicting accepted key value items' := by
  obtain ⟨x, member, y, member', differ⟩ := conflicting
  exact ⟨x, same.subset member, y, same.subset member', differ⟩

omit [DecidableEq κ] in
/-- Items conflict exactly when they conflict at some key. -/
theorem conflicting_iff_at {items : List α}
    : Conflicting accepted key value items ↔ ∃ k, ConflictingAt accepted key value k items := by
  constructor
  · intro conflicting
    obtain ⟨x, member, y, member', accepts, accepts', same, differ⟩ := conflicting
    exact ⟨key y, x, member, y, member', accepts, accepts', same, rfl, differ⟩
  · intro conflicting
    obtain ⟨k, x, member, y, member', accepts, accepts', same, same', differ⟩ := conflicting
    exact ⟨x, member, y, member', accepts, accepts', same.trans same'.symm, differ⟩

/-- Items with a key conflict exactly when one of them conflicts with the first before it: of two
that differ, one differs from the first item with their key.
-/
theorem conflictingAt_iff {items : List α} {k : κ}
    : ConflictingAt accepted key value k items
      ↔ ∃ before x after, items = before ++ x :: after ∧ key x = k
        ∧ ∃ first, ConflictsWith accepted key value before first x := by
  constructor
  · intro conflicting
    have late : ∀ z ∈ items, ∀ first, accepted z = true → key z = k
        → firstAt accepted key items (key z) = some first → value first ≠ value z
        → ∃ before x after, items = before ++ x :: after ∧ key x = k
          ∧ ∃ first, ConflictsWith accepted key value before first x := by
      intro z member first accepts keyed found differs
      obtain ⟨before, after, rfl⟩ := List.append_of_mem member
      refine ⟨before, z, after, rfl, keyed, first, accepts, ?_, differs⟩
      rw [firstAt_append] at found
      cases earlier : firstAt accepted key before (key z) with
      | some y => rwa [earlier] at found
      | none =>
          rw [earlier, Option.none_or, firstAt, List.find?_cons_of_pos (by simp [accepts])] at found
          exact absurd (congrArg value (Option.some.inj found).symm) differs
    obtain ⟨x, member, y, member', accepts, accepts', keyed, keyed', differ⟩ := conflicting
    have some : (firstAt accepted key items (key x)).isSome := by
      rw [firstAt, List.find?_isSome]
      exact ⟨x, member, by simp [accepts]⟩
    obtain ⟨first, found⟩ := Option.isSome_iff_exists.mp some
    by_cases equal : value first = value x
    · have found' : firstAt accepted key items (key y) = Option.some first := by
        rwa [keyed', ← keyed]
      exact late y member' first accepts' keyed' found' (equal ▸ differ)
    · exact late x member first accepts keyed found equal
  · intro conflict
    obtain ⟨before, x, after, rfl, keyed, first, accepts, found, differ⟩ := conflict
    obtain ⟨member, accepts', same⟩ := firstAt_eq_some found
    exact ⟨first, List.mem_append_left _ member, x, by simp, accepts', accepts, same.trans keyed,
      keyed, differ⟩

variable {ε ρ : Type}

/-- What a detector answers to an item, and the table it leaves. -/
inductive Observed (accepted : α → Bool) (key : α → κ) (value : α → ν) (report : α → ρ)
    (table : AList (fun _ : κ => α)) (x : α)
    : Except ε (Option ρ) → AList (fun _ : κ => α) → Prop where
  | refused (error : ε) (refused : accepted x = false)
    : Observed accepted key value report table x (.error error) table
  | fresh (valid : accepted x = true) (absent : table.lookup (key x) = none)
    : Observed accepted key value report table x (.ok none) (table.insert (key x) x)
  | known {first : α} (valid : accepted x = true) (found : table.lookup (key x) = some first)
    (same : value first = value x)
    : Observed accepted key value report table x (.ok none) table
  | conflict {first : α} (valid : accepted x = true) (found : table.lookup (key x) = some first)
    (differ : value first ≠ value x)
    : Observed accepted key value report table x (.ok (some (report first))) table

section Detectors

variable {report : α → ρ} {history : List α} {table after : AList (fun _ : κ => α)} {x : α}
  {outcome : Except ε (Option ρ)}

theorem Observed.remembers (observed : Observed accepted key value report table x outcome after)
    (remembers : Remembers accepted key history table)
    : Remembers accepted key (history ++ [x]) after := by
  cases observed with
  | refused error refused => exact remembers.refused refused
  | fresh valid absent => exact remembers.inserted valid absent
  | known valid found same => exact remembers.known found
  | conflict valid found differ => exact remembers.known found

/-- A detector that remembers reports exactly the conflicts with the first item. -/
theorem Observed.reported_iff (observed : Observed accepted key value report table x outcome after)
    (remembers : Remembers accepted key history table) {reported : ρ}
    : outcome = .ok (some reported)
      ↔ ∃ first, ConflictsWith accepted key value history first x ∧ reported = report first := by
  unfold ConflictsWith
  rw [← remembers]
  cases observed with
  | refused error refused => simp [refused]
  | fresh valid absent => simp [absent]
  | known valid found same =>
      refine iff_of_false (fun answered => by cases answered) ?_
      intro conflict
      obtain ⟨first, ⟨-, found', differ⟩, -⟩ := conflict
      obtain rfl := Option.some.inj (found.symm.trans found')
      exact differ same
  | @conflict first valid found differ =>
      constructor
      · intro answered
        exact ⟨first, ⟨valid, found, differ⟩, (Option.some.inj (Except.ok.inj answered)).symm⟩
      · intro conflict
        obtain ⟨first', ⟨-, found', -⟩, rfl⟩ := conflict
        obtain rfl := Option.some.inj (found.symm.trans found')
        rfl

end Detectors

end FirstSeen

-----------------------------------------------------------------------------------------
-- Sorting by a key
-----------------------------------------------------------------------------------------

section StableSort

variable {α β κ : Type} [LinearOrder κ] {key : α → κ}

theorem insertionSort_sorted (key : α → κ) (l : List α)
    : (l.insertionSort fun a b => key a ≤ key b).Pairwise fun a b => key a ≤ key b := by
  have : Std.Total fun a b => key a ≤ key b := ⟨fun a b => le_total (key a) (key b)⟩
  have : IsTrans α fun a b => key a ≤ key b := ⟨fun _ _ _ => le_trans⟩
  exact List.pairwise_insertionSort _ l

/-- Entries with equal keys may change places. -/
def TiesCommute (key : α → κ) (f : α → List β) (l : List α) : Prop :=
  ∀ a ∈ l, ∀ b ∈ l, key a = key b → f a ++ f b = f b ++ f a

theorem flatMap_append_comm {f : α → List β} {a : α} {before : List α}
    (commute : ∀ b ∈ before, f a ++ f b = f b ++ f a)
    : f a ++ before.flatMap f = before.flatMap f ++ f a := by
  induction before with
  | nil => simp
  | cons b before ih =>
      obtain ⟨first, later⟩ := List.forall_mem_cons.mp commute
      rw [List.flatMap_cons, ← List.append_assoc, first, List.append_assoc, ih later,
        List.append_assoc]

/-- Two orders of one list by the key concatenate to one list when ties commute, by induction on the
first: what stands before its head in the second order ties with the head.
-/
theorem flatMap_eq_of_sorted {f : α → List β} {l l' : List α} (perm : l.Perm l')
    (sorted : l.Pairwise fun a b => key a ≤ key b) (sorted' : l'.Pairwise fun a b => key a ≤ key b)
    (commute : TiesCommute key f l) : l.flatMap f = l'.flatMap f := by
  induction l generalizing l' with
  | nil => rw [List.nil_perm.mp perm]
  | cons a l ih =>
      obtain ⟨before, after, rfl⟩ := List.append_of_mem (perm.subset List.mem_cons_self)
      obtain ⟨least, sorted⟩ := List.pairwise_cons.mp sorted
      obtain ⟨-, -, across⟩ := List.pairwise_append.mp sorted'
      have rest : l.Perm (before ++ after) := (perm.trans List.perm_middle).cons_inv
      have tied : ∀ b ∈ before, f a ++ f b = f b ++ f a := by
        intro b member
        have listed : b ∈ l := rest.symm.subset (List.mem_append_left _ member)
        refine commute a List.mem_cons_self b (List.mem_cons_of_mem _ listed) ?_
        exact le_antisymm (least b listed) (across b member a List.mem_cons_self)
      have shorter : (before ++ after).Pairwise fun a b => key a ≤ key b :=
        sorted'.sublist (by simp)
      have later := ih rest sorted shorter fun b member c member' =>
        commute b (List.mem_cons_of_mem _ member) c (List.mem_cons_of_mem _ member')
      rw [List.flatMap_cons, later, List.flatMap_append, ← List.append_assoc,
        flatMap_append_comm tied, List.append_assoc, List.flatMap_append, List.flatMap_cons]

/-- An entry is inserted before the first entry whose key is not below its own. -/
theorem orderedInsert_append {a : α} {before after : List α}
    (below : ∀ x ∈ before, ¬ key a ≤ key x) (above : ∀ x ∈ after.head?, key a ≤ key x)
    : (before ++ after).orderedInsert (fun x y => key x ≤ key y) a = before ++ a :: after := by
  induction before with
  | nil =>
      cases after with
      | nil => rfl
      | cons b after => exact List.orderedInsert_cons_of_le _ _ (above b rfl)
  | cons b before ih =>
      obtain ⟨first, later⟩ := List.forall_mem_cons.mp below
      rw [List.cons_append, List.orderedInsert_cons, if_neg first, ih later, List.cons_append]

/-- Every list splits where a sorted insertion would put an item, by induction on the list. -/
theorem exists_split (key : α → κ) (a : α) (l : List α)
    : ∃ before after, l = before ++ after ∧ (∀ x ∈ before, ¬ key a ≤ key x)
      ∧ ∀ x ∈ after.head?, key a ≤ key x := by
  induction l with
  | nil => exact ⟨[], [], rfl, by simp, by simp⟩
  | cons b l ih =>
      by_cases order : key a ≤ key b
      · exact ⟨[], b :: l, rfl, by simp, by simpa using order⟩
      · obtain ⟨before, after, rfl, below, above⟩ := ih
        exact ⟨b :: before, after, rfl, List.forall_mem_cons.mpr ⟨order, below⟩, above⟩

/-- Two entries with equal keys that come first stay in their order, at the place of their key. -/
theorem insertionSort_cons_cons {a b : α} {rest : List α} (tie : key a = key b)
    : ∃ before after,
        (a :: b :: rest).insertionSort (fun x y => key x ≤ key y) = before ++ a :: b :: after
        ∧ (b :: a :: rest).insertionSort (fun x y => key x ≤ key y)
          = before ++ b :: a :: after := by
  obtain ⟨before, after, split, below, above⟩ :=
    exists_split key a (rest.insertionSort fun x y => key x ≤ key y)
  refine ⟨before, after, ?_, ?_⟩
  · rw [List.insertionSort_cons, List.insertionSort_cons, split,
      orderedInsert_append (tie ▸ below) (tie ▸ above), orderedInsert_append below (by simp [tie])]
  · rw [List.insertionSort_cons, List.insertionSort_cons, split,
      orderedInsert_append below above, orderedInsert_append (tie ▸ below) (by simp [tie])]

end StableSort

end Naalp.Foundation
