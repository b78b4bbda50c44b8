import Mathlib.Data.UInt
import Mathlib.Order.OrderDual
import Mathlib.Algebra.BigOperators.Group.List.Basic
import Mathlib.Data.List.MinMax

/-!
# Aggregates of a list and of a part of it

The extremum, the sum and the length of a list against those of the items that
a filter keeps.
-/

namespace MatrixDB.Lib

section
variable {I A : Type} [LinearOrder A] {bound : A} {items : List I} {f : I → A}
  {p : I → Bool}

/-- The items that are dropped have no influence on the minimum when each is
above one that is kept. -/
theorem min?_filter_getD (below : ∀ i ∈ items, f i < bound) :
    (items.map f).min?.getD bound =
        ((items.filter p).map f).min?.getD bound ↔
      ∀ i ∈ items, ∃ k ∈ items.filter p, f k ≤ f i := by
  cases least : ((items.filter p).map f).min? with
  | none =>
      have empty : items.filter p = [] :=
        List.map_eq_nil_iff.mp (List.min?_eq_none_iff.mp least)
      rw [empty]
      constructor
      · intro same i member
        exfalso
        cases smallest : (items.map f).min? with
        | none =>
            have nothing := List.min?_eq_none_iff.mp smallest
            rw [List.map_eq_nil_iff.mp nothing] at member
            cases member
        | some m =>
            obtain ⟨found, _⟩ := List.min?_eq_some_iff.mp smallest
            obtain ⟨j, inside, rfl⟩ := List.mem_map.mp found
            rw [smallest] at same
            exact absurd same (ne_of_lt (below j inside))
      · intro covered
        cases items with
        | nil => rfl
        | cons i items =>
            obtain ⟨k, member, _⟩ := covered i List.mem_cons_self
            cases member
  | some m =>
      obtain ⟨kept, lower⟩ := List.min?_eq_some_iff.mp least
      obtain ⟨k, member, rfl⟩ := List.mem_map.mp kept
      have within : f k ∈ items.map f :=
        List.mem_map_of_mem (List.mem_filter.mp member).1
      cases smallest : (items.map f).min? with
      | none =>
          rw [List.min?_eq_none_iff.mp smallest] at within
          cases within
      | some m' =>
          obtain ⟨found, lower'⟩ := List.min?_eq_some_iff.mp smallest
          simp only [Option.getD_some]
          constructor
          · rintro rfl i inside
            exact ⟨k, member, lower' _ (List.mem_map_of_mem inside)⟩
          · intro covered
            obtain ⟨j, inside, rfl⟩ := List.mem_map.mp found
            obtain ⟨k', member', under⟩ := covered j inside
            apply le_antisymm
            · exact lower' _ within
            · exact le_trans (lower _ (List.mem_map_of_mem member')) under

theorem max?_filter_getD (above : ∀ i ∈ items, bound < f i) :
    (items.map f).max?.getD bound =
        ((items.filter p).map f).max?.getD bound ↔
      ∀ i ∈ items, ∃ k ∈ items.filter p, f i ≤ f k :=
  @min?_filter_getD I Aᵒᵈ _ bound items f p above

end

theorem sum_filter_add_sum_filter_not {I A : Type} [AddCommMonoid A]
    (p : I → Bool) (f : I → A) (items : List I) :
    ((items.filter p).map f).sum + ((items.filter fun i => !p i).map f).sum =
      (items.map f).sum := by
  rw [← List.sum_append, ← List.map_append]
  exact ((List.filter_append_perm p items).map f).sum_eq

end MatrixDB.Lib
