import Mathlib.Data.List.Destutter

/-!
# Ranks in a sorted list of distinct elements

The rank of an element is its index.  A predicate that holds of an initial
part only is decided by comparing the rank with the length of that part.
-/

namespace MatrixDB.Lib

variable {α : Type} [DecidableEq α]

/-! ## Removing repetitions -/

theorem mem_destutter'_ne {x : α} (a : α) (l : List α) :
    x ∈ l.destutter' (· ≠ ·) a ↔ x ∈ a :: l := by
  induction l generalizing a with
  | nil => rfl
  | cons b l induction =>
      by_cases same : a = b
      · subst same
        rw [List.destutter'_cons_neg (h := by simp), induction]
        simp
      · rw [List.destutter'_cons_pos _ same, List.mem_cons, induction,
          List.mem_cons (a := x) (b := a)]

theorem mem_destutter_ne {x : α} (l : List α) :
    x ∈ l.destutter (· ≠ ·) ↔ x ∈ l := by
  cases l with
  | nil => rfl
  | cons a l => exact mem_destutter'_ne a l

section
variable [LT α] [LE α] [Std.IsLinearOrder α] [Std.LawfulOrderLT α]

theorem pairwise_destutter'_ne {a : α} {l : List α}
    (sorted : (a :: l).Pairwise (· ≤ ·)) :
    (l.destutter' (· ≠ ·) a).Pairwise (· < ·) := by
  induction l generalizing a with
  | nil => exact List.pairwise_singleton _ a
  | cons b l induction =>
      obtain ⟨least, rest⟩ := List.pairwise_cons.mp sorted
      by_cases same : a = b
      · subst same
        rw [List.destutter'_cons_neg (h := by simp)]
        exact induction rest
      · rw [List.destutter'_cons_pos _ same]
        have first : a < b := Std.lt_of_le_of_ne (least b (by simp)) same
        refine List.pairwise_cons.mpr ⟨?_, induction rest⟩
        intro x member
        rw [mem_destutter'_ne, List.mem_cons] at member
        rcases member with rfl | later
        · exact first
        · exact Std.lt_of_lt_of_le first
            ((List.pairwise_cons.mp rest).1 x later)

/-- Without its repetitions a sorted list is strictly sorted. -/
theorem pairwise_destutter_ne {l : List α} (sorted : l.Pairwise (· ≤ ·)) :
    (l.destutter (· ≠ ·)).Pairwise (· < ·) := by
  cases l with
  | nil => exact .nil
  | cons a l => exact pairwise_destutter'_ne sorted

omit [Std.IsLinearOrder α] in
/-- A strictly sorted list has none. -/
theorem destutter_ne_of_sorted {l : List α} (sorted : l.Pairwise (· < ·)) :
    l.destutter (· ≠ ·) = l := by
  apply List.destutter_of_isChain
  apply List.Pairwise.isChain
  exact sorted.imp fun below => Std.ne_of_lt below

omit [DecidableEq α] [Std.IsLinearOrder α] in
theorem nodup_of_sorted {l : List α} (sorted : l.Pairwise (· < ·)) :
    l.Nodup :=
  sorted.imp fun below => Std.ne_of_lt below

omit [DecidableEq α] in
theorem getElem_le_of_sorted {l : List α} (sorted : l.Pairwise (· < ·))
    {i j : Nat} (before : i ≤ j) (inside : j < l.length) :
    l[i] ≤ l[j] := by
  rcases Nat.eq_or_lt_of_le before with rfl | earlier
  · exact Std.le_refl _
  · exact Std.le_of_lt
      (List.pairwise_iff_getElem.mp sorted i j _ inside earlier)

end

/-! ## Initial parts -/

omit [DecidableEq α]

/-- The first `r` elements are those that a predicate holds of. -/
structure Splits (holds : α → Prop) (l : List α) (r : Nat) : Prop where
  bounded : r ≤ l.length
  element : ∀ i, (inside : i < l.length) → (holds l[i] ↔ i < r)

/-- The rank of an element decides the predicate. -/
theorem Splits.rank [BEq α] [LawfulBEq α] {holds : α → Prop} {l : List α}
    {r : Nat} (splits : Splits holds l r) {x : α} (member : x ∈ l) :
    l.idxOf x < r ↔ holds x := by
  have inside := List.idxOf_lt_length_of_mem member
  rw [← splits.element _ inside, List.getElem_idxOf inside]

end MatrixDB.Lib
