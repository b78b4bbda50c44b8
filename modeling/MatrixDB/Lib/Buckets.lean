import Mathlib.Data.List.AList
import Mathlib.Data.List.Induction
import MatrixDB.Lib.SortedEntries

/-!
# Tables with a bucket for each key

Items are added one after another to the bucket of their key, in a hash table
or in an ordered one.  A join reads the buckets of one side at the keys of the
other, and finds the pairs that a nested loop finds.
-/

namespace MatrixDB.Lib

variable {A K V : Type} [DecidableEq K]

/-- Each item changes what its key has, which is `start` at first. -/
def intoBuckets (key : A → K) (start : V) (add : V → A → V)
    (items : List A) : AList fun _ : K => V :=
  items.foldl
    (fun table item =>
      table.insert (key item)
        (add ((table.lookup (key item)).getD start) item))
    ∅

section
variable (key : A → K) (start : V) (add : V → A → V)

theorem intoBuckets_concat (items : List A) (item : A) :
    intoBuckets key start add (items ++ [item]) =
      (intoBuckets key start add items).insert (key item)
        (add (((intoBuckets key start add items).lookup (key item)).getD start)
          item) := by
  simp [intoBuckets]

/-- A bucket has seen the items of its key, in order. -/
theorem getD_intoBuckets (items : List A) (k : K) :
    ((intoBuckets key start add items).lookup k).getD start =
      (items.filter fun item => key item = k).foldl add start := by
  induction items using List.reverseRecOn with
  | nil => rfl
  | append_singleton items item induction =>
      rw [intoBuckets_concat, List.filter_append, List.foldl_append]
      by_cases own : key item = k
      · subst own
        rw [AList.lookup_insert, induction]
        simp
      · have other : k ≠ key item := Ne.symm own
        rw [AList.lookup_insert_ne other, induction]
        simp [own]

end

/-! ## Ordered buckets -/

section
variable [LT K] [DecidableLT K]

/-- The same in an ordered table. -/
def intoOrdered (key : A → K) (start : V) (add : V → A → V)
    (items : List A) : List (K × V) :=
  items.foldl
    (fun table item =>
      insertEntry (key item)
        (add ((table.lookup (key item)).getD start) item) table)
    []

variable (key : A → K) (start : V) (add : V → A → V)

theorem intoOrdered_concat (items : List A) (item : A) :
    intoOrdered key start add (items ++ [item]) =
      insertEntry (key item)
        (add (((intoOrdered key start add items).lookup (key item)).getD start)
          item) (intoOrdered key start add items) := by
  simp [intoOrdered]

variable [LE K] [Std.IsLinearOrder K] [Std.LawfulOrderLT K]

theorem ascending_intoOrdered (items : List A) :
    Ascending (intoOrdered key start add items) := by
  induction items using List.reverseRecOn with
  | nil => exact List.Pairwise.nil
  | append_singleton items item induction =>
      rw [intoOrdered_concat]
      exact induction.insertEntry _ _

/-- There is a bucket for each key of an item, and no other. -/
theorem mem_intoOrdered {items : List A} {k : K} {v : V} :
    (k, v) ∈ intoOrdered key start add items ↔
      (∃ item ∈ items, key item = k) ∧
        v = (items.filter fun item => key item = k).foldl add start := by
  induction items using List.reverseRecOn generalizing v with
  | nil => simp [intoOrdered]
  | append_singleton items item induction =>
      have ascending := ascending_intoOrdered key start add items
      rw [intoOrdered_concat, mem_insertEntry_iff ascending, List.filter_append,
        List.foldl_append]
      split
      · rename_i own
        subst own
        have bucket : ((intoOrdered key start add items).lookup
            (key item)).getD start =
            (items.filter fun other => key other = key item).foldl add
              start := by
          cases held : (intoOrdered key start add items).lookup (key item) with
          | none =>
              have absent : (items.filter fun other =>
                  key other = key item) = [] := by
                apply List.filter_eq_nil_iff.mpr
                intro other member same
                have own := of_decide_eq_true same
                have stands := induction.mpr ⟨⟨other, member, own⟩, rfl⟩
                have passed := List.lookup_eq_none_iff.mp held _ stands
                exact (bne_iff_ne.mp passed) rfl
              rw [absent]
              rfl
          | some stored =>
              obtain ⟨front, back, split, _⟩ :=
                List.lookup_eq_some_iff.mp held
              have stands : (key item, stored) ∈
                  intoOrdered key start add items := by
                rw [split]
                exact List.mem_append_right front List.mem_cons_self
              exact (induction.mp stands).2
        rw [bucket]
        simp
      · rename_i other
        have different : key item ≠ k := Ne.symm other
        simp [induction, different]

/-- The keys decide the table. -/
theorem intoOrdered_eq (items : List A) :
    intoOrdered key start add items =
      ((intoOrdered key start add items).map Prod.fst).map fun k =>
        (k, (items.filter fun item => key item = k).foldl add start) := by
  symm
  rw [List.map_map]
  calc
    _ = (intoOrdered key start add items).map id := by
      apply List.map_congr_left
      rintro ⟨k, v⟩ member
      obtain ⟨_, rfl⟩ := (mem_intoOrdered key start add).mp member
      rfl
    _ = intoOrdered key start add items := List.map_id _

end

/-! ## Pairs of equal keys -/

/-- The pairs that two nested loops find, the loop over the left side being
the inner one. -/
def matchingPairs (left : Nat → K) (leftRows : Nat) (right : Nat → K)
    (rightRows : Nat) : List (Nat × Nat) :=
  (List.range rightRows).flatMap fun j =>
    ((List.range leftRows).filter fun i => left i = right j).map
      fun i => (i, j)

section
variable {left right : Nat → K} {leftRows rightRows : Nat}

theorem mem_matchingPairs {i j : Nat} :
    (i, j) ∈ matchingPairs left leftRows right rightRows ↔
      i < leftRows ∧ j < rightRows ∧ left i = right j := by
  simp only [matchingPairs, List.mem_flatMap, List.mem_map, List.mem_filter,
    List.mem_range, decide_eq_true_eq, Prod.mk.injEq]
  constructor
  · rintro ⟨_, inside, _, ⟨inside', same⟩, rfl, rfl⟩
    exact ⟨inside', inside, same⟩
  · rintro ⟨inside, inside', same⟩
    exact ⟨j, inside', i, ⟨inside, same⟩, rfl, rfl⟩

/-- By the right row, and then by the left one. -/
theorem ordered_matchingPairs :
    (matchingPairs left leftRows right rightRows).Pairwise
      fun p q => p.2 < q.2 ∨ p.2 = q.2 ∧ p.1 < q.1 := by
  apply List.pairwise_flatMap.mpr
  constructor
  · intro j _
    apply List.pairwise_map.mpr
    apply List.Pairwise.imp _
      ((List.pairwise_lt_range (n := leftRows)).filter _)
    intro i i' less
    exact .inr ⟨rfl, less⟩
  · apply List.Pairwise.imp _ (List.pairwise_lt_range (n := rightRows))
    intro j j' less p member q member'
    obtain ⟨_, _, rfl⟩ := List.mem_map.mp member
    obtain ⟨_, _, rfl⟩ := List.mem_map.mp member'
    exact .inl less

/-- Keys that are told apart as before make the same pairs. -/
theorem matchingPairs_map {L : Type} [DecidableEq L] {f : K → L}
    (injective : Function.Injective f) :
    matchingPairs (fun i => f (left i)) leftRows (fun j => f (right j))
      rightRows = matchingPairs left leftRows right rightRows := by
  simp only [matchingPairs, injective.eq_iff]

theorem nodup_matchingPairs :
    (matchingPairs left leftRows right rightRows).Nodup := by
  apply List.Pairwise.imp _ ordered_matchingPairs
  rintro ⟨i, j⟩ ⟨i', j'⟩ less same
  cases same
  rcases less with less | ⟨_, less⟩
  · exact Nat.lt_irrefl _ less
  · exact Nat.lt_irrefl _ less

end

end MatrixDB.Lib
