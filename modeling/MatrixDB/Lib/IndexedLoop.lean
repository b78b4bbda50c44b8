import Mathlib.Data.List.Basic

/-!
# Counted loops with a guard

`for (i = 0; i < n; ++i) if (keep(i)) a = step(a, i)`, once with a single
accumulator and once with an array of accumulators of which every index
touches one.  Both are folds over the indices that pass the guard.
-/

namespace MatrixDB.Lib

variable {A : Type}

/-- A guarded loop with one accumulator. -/
def guardedLoop (count : Nat) (keep : Nat → Bool) (step : A → Nat → A)
    (start : A) : A :=
  (List.range count).foldl
    (fun accumulator i => if keep i then step accumulator i else accumulator)
    start

theorem guardedLoop_eq (count : Nat) (keep : Nat → Bool) (step : A → Nat → A)
    (start : A) :
    guardedLoop count keep step start =
      ((List.range count).filter keep).foldl step start := by
  rw [List.foldl_filter]
  rfl

/-- A guarded loop over an array of accumulators. -/
def scatterLoop (count : Nat) (keep : Nat → Bool) (slot : Nat → Nat)
    (step : A → Nat → A) (out : List A) : List A :=
  guardedLoop count keep
    (fun out i => out.modify (slot i) fun accumulator => step accumulator i)
    out

theorem length_foldl_modify (slot : Nat → Nat) (step : A → Nat → A)
    (indices : List Nat) (out : List A) :
    (indices.foldl
      (fun out i => out.modify (slot i) fun accumulator => step accumulator i)
      out).length = out.length := by
  induction indices generalizing out with
  | nil => rfl
  | cons i indices induction =>
      rw [List.foldl_cons, induction, List.length_modify]

/-- Every slot folds the indices that belong to it. -/
theorem getElem?_foldl_modify (slot : Nat → Nat) (step : A → Nat → A)
    (indices : List Nat) (out : List A) (g : Nat) :
    (indices.foldl
      (fun out i => out.modify (slot i) fun accumulator => step accumulator i)
      out)[g]? =
      (out[g]?).map fun accumulator =>
        (indices.filter fun i => slot i = g).foldl step accumulator := by
  induction indices generalizing out with
  | nil => simp
  | cons i indices induction =>
      rw [List.foldl_cons, induction, List.getElem?_modify]
      by_cases own : slot i = g
      · simp [own, Function.comp_def]
      · simp [own]

theorem length_scatterLoop (count : Nat) (keep : Nat → Bool)
    (slot : Nat → Nat) (step : A → Nat → A) (out : List A) :
    (scatterLoop count keep slot step out).length = out.length := by
  unfold scatterLoop
  rw [guardedLoop_eq, length_foldl_modify]

theorem scatterLoop_replicate (count : Nat) (keep : Nat → Bool)
    (slot : Nat → Nat) (step : A → Nat → A) (size : Nat) (start : A) :
    scatterLoop count keep slot step (List.replicate size start) =
      (List.range size).map fun g =>
        ((List.range count).filter fun i => keep i && slot i = g).foldl step
          start := by
  unfold scatterLoop
  rw [guardedLoop_eq]
  apply List.ext_getElem?
  intro g
  rw [getElem?_foldl_modify, List.getElem?_map, List.filter_filter]
  by_cases inside : g < size
  · simp [inside, Bool.and_comm]
  · simp [inside]

/-- Selecting rows and then looping over the selection visits the same rows
as looping over all of them with one more guard. -/
theorem filter_selection (rows : List Nat) (keep : Nat → Bool) :
    ((List.range rows.length).filter fun j => keep (rows.getD j 0)).map
      (fun j => rows.getD j 0) = rows.filter keep := by
  have indices : (List.range rows.length).map (fun j => rows.getD j 0) =
      rows := by
    apply List.ext_getElem
    · simp
    · intro j _ inside
      simp [inside]
  calc
    ((List.range rows.length).filter fun j => keep (rows.getD j 0)).map
        (fun j => rows.getD j 0) =
        ((List.range rows.length).map fun j => rows.getD j 0).filter keep := by
      rw [List.filter_map]
      rfl
    _ = rows.filter keep := by rw [indices]

/-- A loop over selected rows that reads each of them in its new place. -/
theorem map_filter_selection {V : Type} {count : Nat} {live : Nat → Bool}
    {rows : List Nat} (selected : rows = (List.range count).filter live)
    {keep keepNew : Nat → Bool} {value valueNew : Nat → V}
    (sameKeep : ∀ j row, rows[j]? = some row → keepNew j = keep row)
    (sameValue : ∀ j row, rows[j]? = some row → valueNew j = value row) :
    ((List.range rows.length).filter keepNew).map valueNew =
      ((List.range count).filter fun i => live i && keep i).map value := by
  have place : ∀ j ∈ List.range rows.length,
      rows[j]? = some (rows.getD j 0) := by
    intro j member
    simp [List.mem_range.mp member]
  have moved : (List.range rows.length).filter keepNew =
      (List.range rows.length).filter fun j => keep (rows.getD j 0) := by
    apply List.filter_congr
    intro j member
    exact sameKeep j _ (place j member)
  calc
    ((List.range rows.length).filter keepNew).map valueNew =
        ((List.range rows.length).filter fun j => keep (rows.getD j 0)).map
          fun j => value (rows.getD j 0) := by
      rw [moved]
      apply List.map_congr_left
      intro j member
      exact sameValue j _ (place j (List.mem_filter.mp member).1)
    _ = (rows.filter keep).map value := by
      rw [← filter_selection rows keep, List.map_map]
      rfl
    _ = ((List.range count).filter fun i => live i && keep i).map value := by
      rw [selected, List.filter_filter]
      simp only [Bool.and_comm]

end MatrixDB.Lib
