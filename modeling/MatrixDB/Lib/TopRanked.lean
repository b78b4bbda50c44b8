import Mathlib.Data.List.Sort

/-!
# The best items of a list

The first items of a sorted copy, up to a number: they are in order, and no
item left out is before one of them.
-/

namespace MatrixDB.Lib

variable {α : Type}

/-- The best `n` of some items, and nothing else. -/
structure TopOf (above : α → α → Prop) (n : Nat) (items best : List α) :
    Prop where
  length : best.length = min n items.length
  sorted : best.Pairwise above
  among : ∃ omitted, (best ++ omitted).Perm items ∧
    ∀ kept ∈ best, ∀ other ∈ omitted, above kept other

theorem TopOf.mem {above : α → α → Prop} {n : Nat} {items best : List α}
    (top : TopOf above n items best) : ∀ a ∈ best, a ∈ items := by
  obtain ⟨omitted, split, _⟩ := top.among
  intro a member
  exact split.mem_iff.mp (List.mem_append_left omitted member)

theorem TopOf.imp {above above' : α → α → Prop} {n : Nat}
    {items best : List α} (top : TopOf above n items best)
    (weaker : ∀ a ∈ items, ∀ b ∈ items, above a b → above' a b) :
    TopOf above' n items best := by
  obtain ⟨omitted, split, before⟩ := top.among
  have kept := top.mem
  refine ⟨top.length, ?_, omitted, split, ?_⟩
  · exact top.sorted.imp_of_mem fun first second =>
      weaker _ (kept _ first) _ (kept _ second)
  · intro a first b second
    have other : b ∈ items :=
      split.mem_iff.mp (List.mem_append_right best second)
    exact weaker a (kept a first) b other (before a first b second)

/-- The front of a list that is sorted. -/
theorem topOf_take_mergeSort {before : α → α → Bool}
    (trans : ∀ a b c, before a b = true → before b c = true →
      before a c = true)
    (total : ∀ a b, (before a b || before b a) = true) (n : Nat)
    (items : List α) :
    TopOf (fun a b => before a b = true) n items
      ((items.mergeSort before).take n) := by
  have sorted := List.pairwise_mergeSort trans total items
  have split := List.take_append_drop n (items.mergeSort before)
  rw [← split, List.pairwise_append] at sorted
  refine ⟨?_, sorted.1, (items.mergeSort before).drop n, ?_, sorted.2.2⟩
  · rw [List.length_take, List.length_mergeSort]
  · rw [split]
    exact List.mergeSort_perm items before

end MatrixDB.Lib
