import Mathlib.Algebra.BigOperators.Group.List.Basic
import Mathlib.Algebra.Order.Group.Int
import Mathlib.Algebra.Ring.Nat
import Mathlib.Data.Nat.Cast.Basic

/-!
# Adding up by classes

Items fall into numbered classes.  The sums of the classes add up to the sum
of the items whose class is counted, and the least of their least values is
the least value.
-/

namespace MatrixDB.Lib

variable {α : Type} (key : α → Nat)

/-- The items of one class. -/
def classOf (items : List α) (g : Nat) : List α :=
  items.filter fun x => key x = g

theorem mem_classOf {key : α → Nat} {items : List α} {g : Nat} {x : α} :
    x ∈ classOf key items g ↔ x ∈ items ∧ key x = g := by
  simp [classOf]

section
variable {M : Type} [AddCommMonoid M] (v : α → M)

theorem sum_below_succ (items : List α) (bound : Nat) :
    ((items.filter fun x => key x < bound + 1).map v).sum =
      ((items.filter fun x => key x < bound).map v).sum +
        ((classOf key items bound).map v).sum := by
  induction items with
  | nil => simp [classOf]
  | cons x items induction =>
      unfold classOf at *
      rcases Nat.lt_trichotomy (key x) bound with below | same | above
      · have small : key x < bound + 1 := by omega
        have other : key x ≠ bound := by omega
        simp only [List.filter_cons, small, below, other, decide_true,
          decide_false, if_true, List.map_cons, List.sum_cons, induction,
          add_assoc]
        rfl
      · have small : key x < bound + 1 := by omega
        have notBelow : ¬ key x < bound := by omega
        rw [List.filter_cons_of_pos (by simpa using small),
          List.filter_cons_of_neg (by simpa using notBelow),
          List.filter_cons_of_pos (by simpa using same), List.map_cons,
          List.map_cons, List.sum_cons, List.sum_cons, induction]
        exact add_left_comm (v x) _ _
      · have notSmall : ¬ key x < bound + 1 := by omega
        have notBelow : ¬ key x < bound := by omega
        have other : key x ≠ bound := by omega
        simp only [List.filter_cons, notSmall, notBelow, other, decide_false]
        exact induction

theorem sum_classes (items : List α) (groups : Nat) :
    ((List.range groups).map fun g =>
      ((classOf key items g).map v).sum).sum =
      ((items.filter fun x => key x < groups).map v).sum := by
  induction groups with
  | zero => simp
  | succ groups induction =>
      rw [List.range_succ, List.map_append, List.sum_append, induction,
        sum_below_succ]
      simp

end

theorem length_classes (items : List α) (groups : Nat) :
    ((List.range groups).map fun g => (classOf key items g).length).sum =
      (items.filter fun x => key x < groups).length := by
  have sums := sum_classes key (fun _ => 1) items groups
  simpa [List.map_const', List.sum_replicate, Nat.cast_id] using sums

/-! ## Extremes -/

/-- A function that finds the element related to all the others: the least or
the greatest of an order. -/
structure Finds {V : Type} (best : List V → Option V) (R : V → V → Prop) :
    Prop where
  found : ∀ xs a, best xs = some a ↔ a ∈ xs ∧ ∀ b ∈ xs, R a b
  nothing : ∀ xs, best xs = none → xs = []
  antisymm : ∀ a b, R a b → R b a → a = b

theorem finds_min : Finds (fun xs : List Int => xs.min?) (· ≤ ·) where
  found _ _ := List.min?_eq_some_iff
  nothing _ := List.min?_eq_none_iff.mp
  antisymm _ _ := Int.le_antisymm

theorem finds_max : Finds (fun xs : List Int => xs.max?) (· ≥ ·) where
  found _ _ := List.max?_eq_some_iff
  nothing _ := List.max?_eq_none_iff.mp
  antisymm _ _ below above := Int.le_antisymm above below

/-- The best of the bests of the classes that hold an item is the best of all
items. -/
theorem best_of_classes {V : Type} {best : List V → Option V}
    {R : V → V → Prop} (finds : Finds best R) {key : α → Nat}
    {items : List α} {groups : Nat} (covered : ∀ x ∈ items, key x < groups)
    (v : α → V) {occupied : Nat → Bool}
    (occupies : ∀ g < groups, occupied g ↔ classOf key items g ≠ [])
    {bestOf : Nat → V}
    (bests : ∀ g < groups, occupied g →
      best ((classOf key items g).map v) = some (bestOf g)) {m : V}
    (whole : best (items.map v) = some m) :
    best (((List.range groups).filter occupied).map bestOf) = some m := by
  obtain ⟨member, first⟩ := (finds.found _ _).mp whole
  obtain ⟨x, inside, rfl⟩ := List.mem_map.mp member
  have own : x ∈ classOf key items (key x) := mem_classOf.mpr ⟨inside, rfl⟩
  have below := covered x inside
  have here : occupied (key x) :=
    (occupies (key x) below).mpr (List.ne_nil_of_mem own)
  -- The best item is the best of its own class.
  have attained : bestOf (key x) = v x := by
    obtain ⟨among, bound⟩ := (finds.found _ _).mp (bests (key x) below here)
    obtain ⟨y, yOwn, equal⟩ := List.mem_map.mp among
    apply finds.antisymm
    · exact bound (v x) (List.mem_map_of_mem own)
    · rw [← equal]
      exact first (v y) (List.mem_map_of_mem (mem_classOf.mp yOwn).1)
  apply (finds.found _ _).mpr
  constructor
  · rw [← attained]
    apply List.mem_map_of_mem
    exact List.mem_filter.mpr ⟨List.mem_range.mpr below, here⟩
  · intro value among
    obtain ⟨g, kept, rfl⟩ := List.mem_map.mp among
    obtain ⟨counted, taken⟩ := List.mem_filter.mp kept
    obtain ⟨attained, _⟩ := (finds.found _ _).mp
      (bests g (List.mem_range.mp counted) taken)
    obtain ⟨y, yOwn, equal⟩ := List.mem_map.mp attained
    rw [← equal]
    exact first (v y) (List.mem_map_of_mem (mem_classOf.mp yOwn).1)

end MatrixDB.Lib
