import MatrixDB.Catalog.Answer

/-!
# When a query is answered

A reduction reads every row of its columns and, for a scalar aggregate over a
masked column, every entry of the mask.  The checks in front of it make sure of
all these reads but one: the mask may be shorter than its column.
-/

namespace MatrixDB

open Lib

section
variable (q : MatrixQuery) (value : ColumnView)

theorem isSome_reduceScalar :
    (reduceScalar value.type q value.bytes value.rows).isSome := by
  obtain ⟨V, A, K, read, hit, element⟩ := exists_elementKernel value.type
  rw [element.reduceScalar_eq q (rows_fit value), Option.isSome_map]
  split
  · rfl
  · rfl

theorem isSome_reduceNullable (mask : Bytes) :
    (reduceNullable value.type q value.bytes value.rows mask).isSome =
      decide (value.rows ≤ mask.length) := by
  obtain ⟨V, A, K, read, hit, element⟩ := exists_elementKernel value.type
  rw [element.reduceNullable_eq q (rows_fit value), Option.isSome_map]
  split
  · rw [AggKernel.reducePred, Option.isSome_map, liveRows]
    split <;> simp_all
  · rw [AggKernel.reduceAllNullable, Option.isSome_map, liveRows]
    split <;> simp_all

variable {q value}

theorem words_fit {column : ColumnView} (u32 : column.type = .U32)
    (rows : column.rows = value.rows) :
    4 * value.rows ≤ column.bytes.length := by
  have fit := rows_fit column
  rw [u32, rows] at fit
  exact fit

theorem isSome_reduceGrouped {key : ColumnView} (u32 : key.type = .U32)
    (rows : key.rows = value.rows) :
    (reduceGrouped value.type q key.bytes value.bytes value.rows
      (value.rowNulls value.rows)).isSome := by
  obtain ⟨V, A, K, read, hit, element⟩ := exists_elementKernel value.type
  have live : (liveRows (value.rowNulls value.rows) value.rows).isSome := by
    cases covered : value.rowNulls value.rows with
    | none => rfl
    | some mask =>
        obtain ⟨_, aligned⟩ := Option.filter_eq_some_iff.mp covered
        simp only [decide_eq_true_eq] at aligned
        simp [liveRows, aligned]
  rw [element.reduceGrouped_eq q (words_fit u32 rows) (rows_fit value),
    Option.isSome_map]
  split
  · rw [AggKernel.groupReduceImpl, Option.isSome_map]
    exact live
  · rw [AggKernel.groupReduceImpl, Option.isSome_map]
    exact live

theorem isSome_reduceCross {filter : ColumnView} (u32 : filter.type = .U32)
    (rows : filter.rows = value.rows) :
    (reduceCross value.type q filter.bytes value.bytes value.rows).isSome := by
  obtain ⟨V, A, K, read, hit, element⟩ := exists_elementKernel value.type
  rw [element.reduceCross_eq q (words_fit u32 rows) (rows_fit value)]
  rfl

theorem isSome_reduceGroupedCross {key filter : ColumnView}
    (keyU32 : key.type = .U32) (keyRows : key.rows = value.rows)
    (filterU32 : filter.type = .U32) (filterRows : filter.rows = value.rows) :
    (reduceGroupedCross value.type q key.bytes filter.bytes value.bytes
      value.rows).isSome := by
  obtain ⟨V, A, K, read, hit, element⟩ := exists_elementKernel value.type
  rw [element.reduceGroupedCross_eq q (words_fit keyU32 keyRows)
    (words_fit filterU32 filterRows) (rows_fit value)]
  rfl

theorem isSome_served {result : Option (List UInt64)} :
    (served result).isSome = result.isSome :=
  Option.isSome_map

/-! ## Answers -/

theorem isSome_answerScalarCross (filter : Option ColumnView) :
    (answerScalarCross q value filter).isSome := by
  unfold answerScalarCross
  split
  · rfl
  · split
    · rfl
    · rename_i u32
      split
      · rfl
      · rename_i rows
        rw [isSome_served, one, Option.isSome_map, not_not.mp rows]
        exact isSome_reduceCross (not_not.mp u32) (not_not.mp rows)

theorem isSome_answerGroupedCross (maxGroups : UInt32)
    (key filter : Option ColumnView) :
    (answerGroupedCross maxGroups q value key filter).isSome := by
  unfold answerGroupedCross
  split
  · rfl
  split
  · rfl
  split
  · rfl
  rename_i keyU32
  split
  · rfl
  split
  · rfl
  rename_i filterU32
  split
  · rfl
  split
  · rfl
  · rename_i rows
    simp only [ne_eq, not_or, not_not] at rows
    rw [isSome_served, rows.1]
    exact isSome_reduceGroupedCross (not_not.mp keyU32) rows.1
      (not_not.mp filterU32) rows.2

theorem isSome_answerGrouped (maxGroups : UInt32)
    (key : Option ColumnView) :
    (answerGrouped maxGroups q value key).isSome := by
  unfold answerGrouped
  split
  · rfl
  split
  · rename_i u32
    split
    · rfl
    rename_i valid
    split
    · rfl
    rename_i keyU32
    split
    · rfl
    · simp only [ne_eq, not_or, not_not] at valid
      have keyU32 := not_not.mp keyU32
      rw [isSome_served]
      apply isSome_reduceGrouped keyU32
      rw [ColumnView.rows, ColumnView.rows, keyU32, u32, valid.2.2]
  · split
    · rfl
    rename_i keyU32
    split
    · rfl
    rename_i valid
    split
    · rfl
    · simp only [ne_eq, not_or, not_not] at valid
      rw [isSome_served]
      exact isSome_reduceGrouped (not_not.mp keyU32) valid.2.2

end

variable {κ : Type}

namespace Catalog

/-- A scalar aggregate over a column whose mask does not reach its end. -/
def ReadsPastMask (catalog : Catalog κ) (q : MatrixQuery) : Prop :=
  q.grouped = false ∧ q.crossFilter = false ∧
    catalog.catalogHas q.valueCol ∧
    ∃ mask, catalog.nullMasks.lookup q.valueCol = some mask ∧
      mask.length < catalog.columnRows q.valueCol

theorem answer_returns_iff {catalog : Catalog κ}
    (wellFormed : catalog.WellFormed) (q : MatrixQuery) :
    (catalog.answer q).isSome ↔ ¬ catalog.ReadsPastMask q := by
  unfold answer answerOf ReadsPastMask
  rw [catalogHas_view wellFormed]
  cases seen : catalog.view q.valueCol with
  | none => simp [refused]
  | some value =>
      rw [nullMasks_of_view seen, columnRows_of_view wellFormed seen]
      cases cross : q.crossFilter with
      | true =>
          cases grouped : q.grouped with
          | true => simp [isSome_answerGroupedCross]
          | false => simp [isSome_answerScalarCross]
      | false =>
          cases grouped : q.grouped with
          | true => simp [isSome_answerGrouped]
          | false =>
              simp only [answerScalar, Bool.false_eq_true, if_false]
              cases value.nulls with
              | none =>
                  simp [isSome_served, one, isSome_reduceScalar]
              | some mask =>
                  simp [isSome_served, one, isSome_reduceNullable]

end Catalog

end MatrixDB
