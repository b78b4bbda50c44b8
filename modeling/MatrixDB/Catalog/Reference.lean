import MatrixDB.Catalog.Loading
import MatrixDB.Compute.Integers

/-!
# The reference semantics of a query

What a query over a column of integers means, row by row: which rows it
selects, which of them belong to a group, and the aggregate of their values.
The engine's dozen loops and six branches all compute it.
-/

namespace MatrixDB

open Lib

namespace ColumnView

/-- The integer in a row of a `uint32` or `int64` column. -/
def integerAt (column : ColumnView) (row : Nat) : Int :=
  match column.type with
  | .U32 => (u32At column.bytes row).toNat
  | _ => (i64At column.bytes row).toInt

/-- `UINT64_MAX` or `INT64_MAX`, the minimum of no row. -/
def leastOfNone (column : ColumnView) : Int :=
  match column.type with
  | .U32 => 18446744073709551615
  | _ => 9223372036854775807

/-- Zero or `INT64_MIN`, the maximum of no row. -/
def greatestOfNone (column : ColumnView) : Int :=
  match column.type with
  | .U32 => 0
  | _ => -9223372036854775808

/-- The filter of a query on the column itself, with the bounds of its
type. -/
def satisfies (column : ColumnView) (q : MatrixQuery) (row : Nat) : Bool :=
  match column.type with
  | .U32 =>
      q.cmp.holds (column.integerAt row) q.threshold.toNat q.upper.toNat
  | _ => q.cmp.holds (column.integerAt row) q.loI64.toInt q.hiI64.toInt

/-- A `uint32` column as keys or as a filter. -/
def wordAt (column : Option ColumnView) (row : Nat) : Nat :=
  match column with
  | some column => (u32At column.bytes row).toNat
  | none => 0

end ColumnView

open ColumnView

/-- The rows a query selects. -/
def MatrixQuery.selects (q : MatrixQuery) (value : ColumnView)
    (filter : Option ColumnView) (row : Nat) : Bool :=
  if !q.hasFilter then true
  else if q.filterCol ≠ 0 ∧ q.filterCol ≠ q.valueCol then
    q.cmp.holds (wordAt filter row) q.threshold.toNat q.upper.toNat
  else value.satisfies q row

/-- The result of a query: one element, or one for each group. -/
def referenceOf (q : MatrixQuery) (value : ColumnView)
    (key filter : Option ColumnView) : List UInt64 :=
  let selected := (List.range value.rows).filter (q.selects value filter)
  let aggregate := fun rows : List Nat =>
    integerAggregate value.leastOfNone value.greatestOfNone q.agg
      (rows.map value.integerAt)
  if q.grouped then
    (List.range q.numGroups.toNat).map fun g =>
      aggregate (selected.filter fun row => wordAt key row = g)
  else [aggregate selected]

/-! ## The selected rows -/

/-- A query filtered on another column. -/
theorem selects_cross {q : MatrixQuery} (cross : q.crossFilter)
    (value f : ColumnView) :
    q.selects value (some f) =
      fun row => matrixPredMatch (u32At f.bytes row) q.pred := by
  funext row
  simp only [MatrixQuery.crossFilter, Bool.and_eq_true, bne_iff_ne] at cross
  simp [MatrixQuery.selects, cross.1.1, cross.1.2, cross.2, matrixPredMatch_eq,
    wordAt, MatrixQuery.pred]

/-- A query unfiltered or filtered on its own column. -/
theorem selects_own {q : MatrixQuery} (own : q.crossFilter = false)
    (value : ColumnView) (filter : Option ColumnView) :
    q.selects value filter =
      fun row => !q.hasFilter || value.satisfies q row := by
  funext row
  unfold MatrixQuery.crossFilter at own
  unfold MatrixQuery.selects
  cases filtered : q.hasFilter with
  | false => rfl
  | true =>
      rw [filtered] at own
      simp only [Bool.true_and, Bool.and_eq_false_iff, bne_eq_false_iff_eq]
        at own
      have notCross : ¬ (q.filterCol ≠ 0 ∧ q.filterCol ≠ q.valueCol) := by
        intro both
        rcases own with zero | same
        · exact both.1 zero
        · exact both.2 same
      simp [notCross]

/-! ## Each path computes the reference -/

/-- The kernel of an integer column, in the terms of the reference. -/
structure IntegerColumn (column : ColumnView) {V A : Type}
    (K : AggKernel V A) (read : Bytes → Nat → V)
    (hit : MatrixQuery → V → Bool) (val : V → Int) (acc : A → Int) :
    Prop where
  element : ElementKernel column.type K read hit
  integer : IntegerKernel K val acc
  least : acc K.minInit = column.leastOfNone
  greatest : acc K.maxInit = column.greatestOfNone
  valueAt : ∀ row, val (read column.bytes row) = column.integerAt row
  hitAt : ∀ q row, hit q (read column.bytes row) = column.satisfies q row

theorem exists_integerColumn {column : ColumnView}
    (integer : column.type = .U32 ∨ column.type = .I64) :
    ∃ (V A : Type) (K : AggKernel V A) (read : Bytes → Nat → V)
      (hit : MatrixQuery → V → Bool) (val : V → Int) (acc : A → Int),
      IntegerColumn column K read hit val acc := by
  rcases integer with u32 | i64
  · have element := ElementKernel.u32
    rw [← u32] at element
    refine ⟨_, _, _, _, _, _, _, element, u32Kernel_integer, ?_, ?_, ?_, ?_⟩
    · simp [leastOfNone, u32, u32Kernel]
    · simp [greatestOfNone, u32, u32Kernel]
    · intro row
      simp [integerAt, u32]
    · intro q row
      simp [satisfies, integerAt, u32, matrixPredMatch_eq, MatrixQuery.pred]
  · have element := ElementKernel.i64
    rw [← i64] at element
    refine ⟨_, _, _, _, _, _, _, element, i64Kernel_integer, ?_, ?_, ?_, ?_⟩
    · simp only [leastOfNone, i64]
      rfl
    · simp only [greatestOfNone, i64]
      rfl
    · intro row
      simp [integerAt, i64]
    · intro q row
      simp [satisfies, integerAt, i64, matrixPredMatchI64_eq,
        MatrixQuery.predI64]

section
variable {q : MatrixQuery} {value k f : ColumnView}
  (integer : value.type = .U32 ∨ value.type = .I64)

include integer

theorem reduceScalar_reference (own : q.crossFilter = false)
    (scalar : q.grouped = false) (key filter : Option ColumnView) :
    one (reduceScalar value.type q value.bytes value.rows) =
      some (referenceOf q value key filter) := by
  obtain ⟨V, A, K, read, hit, val, acc, column⟩ :=
    exists_integerColumn integer
  rw [column.element.reduceScalar_eq q (rows_fit value),
    column.integer.encode_scalar]
  simp only [referenceOf, scalar, selects_own own, column.least,
    column.greatest, column.valueAt, column.hitAt]
  rfl

theorem reduceGrouped_reference (own : q.crossFilter = false)
    (grouped : q.grouped) (u32 : k.type = .U32) (aligned : k.rows = value.rows)
    (filter : Option ColumnView) :
    reduceGrouped value.type q k.bytes value.bytes value.rows none =
      some (referenceOf q value (some k) filter) := by
  obtain ⟨V, A, K, read, hit, val, acc, column⟩ :=
    exists_integerColumn integer
  have keysFit : 4 * value.rows ≤ k.bytes.length := by
    have fit := rows_fit k
    rw [u32, aligned] at fit
    exact fit
  rw [column.element.reduceGrouped_eq q keysFit (rows_fit value),
    column.integer.encode_grouped]
  simp only [referenceOf, grouped, selects_own own, column.least,
    column.greatest, column.valueAt, column.hitAt, List.filter_filter,
    wordAt, Bool.and_comm]
  rfl

theorem reduceCross_reference (cross : q.crossFilter)
    (scalar : q.grouped = false) (u32 : f.type = .U32)
    (aligned : f.rows = value.rows) (key : Option ColumnView) :
    one (reduceCross value.type q f.bytes value.bytes f.rows) =
      some (referenceOf q value key (some f)) := by
  obtain ⟨V, A, K, read, hit, val, acc, column⟩ :=
    exists_integerColumn integer
  have filterFit : 4 * f.rows ≤ f.bytes.length := by
    have fit := rows_fit f
    rw [u32] at fit
    exact fit
  rw [column.element.reduceCross_eq q filterFit
    (aligned ▸ rows_fit value), AggKernel.reduceFilteredBy,
    column.integer.encode_reduceRows]
  simp only [referenceOf, scalar, selects_cross cross, column.least,
    column.greatest, column.valueAt, aligned]
  rfl

theorem reduceGroupedCross_reference (cross : q.crossFilter)
    (grouped : q.grouped) (keyU32 : k.type = .U32) (u32 : f.type = .U32)
    (keyAligned : k.rows = value.rows) (aligned : f.rows = value.rows) :
    reduceGroupedCross value.type q k.bytes f.bytes value.bytes k.rows =
      some (referenceOf q value (some k) (some f)) := by
  obtain ⟨V, A, K, read, hit, val, acc, column⟩ :=
    exists_integerColumn integer
  have keysFit : 4 * k.rows ≤ k.bytes.length := by
    have fit := rows_fit k
    rw [keyU32] at fit
    exact fit
  have filterFit : 4 * k.rows ≤ f.bytes.length := by
    have fit := rows_fit f
    rw [u32, aligned, ← keyAligned] at fit
    exact fit
  rw [column.element.reduceGroupedCross_eq q keysFit filterFit
    (keyAligned ▸ rows_fit value), AggKernel.groupReduceFilteredBy,
    column.integer.encode_groupRows]
  simp only [referenceOf, grouped, selects_cross cross, column.least,
    column.greatest, column.valueAt, keyAligned, List.filter_filter, wordAt,
    Bool.and_comm]
  rfl

/-- An answered query over integers without NULL rows is its reference. -/
theorem answered_reference (unmasked : value.nulls = none)
    {maxGroups : UInt32} {key filter : Option ColumnView} {out : List UInt64}
    (answered : Answered maxGroups q value key filter out) :
    out = referenceOf q value key filter := by
  apply Option.some.inj
  cases answered with
  | scalarCross cross scalar found u32 aligned result =>
      rw [← result, found]
      exact reduceCross_reference integer cross scalar u32 aligned key
  | groupedCross cross grouped keyed admitted found u32 aligned result =>
      rw [← result, keyed, found]
      exact reduceGroupedCross_reference integer cross grouped admitted.keyU32
        u32 admitted.aligned aligned
  | grouped own grouped keyed admitted lengths result =>
      have noNulls : value.rowNulls value.rows = none := by
        simp [ColumnView.rowNulls, unmasked]
      rw [← result, keyed, noNulls]
      exact reduceGrouped_reference integer own grouped admitted.keyU32
        admitted.aligned filter
  | nullable own scalar masked result =>
      rw [unmasked] at masked
      cases masked
  | scan own scalar _ result =>
      rw [← result]
      exact reduceScalar_reference integer own scalar key filter

end

/-! ## The engine -/

variable {κ : Type} [SoundCost κ]

/-- Two catalogs with the same data for the columns of a query. -/
structure SameFor (q : MatrixQuery) (left right : Catalog κ) : Prop where
  value : right.view q.valueCol = left.view q.valueCol
  key : right.view q.keyCol = left.view q.keyCol
  filter : right.view q.filterCol = left.view q.filterCol
  maxQueryGroups : right.maxQueryGroups = left.maxQueryGroups

/-- A query answered `OK` over an integer column without a null mask returns
its reference, whatever tier the columns are in. -/
theorem executeQuery_reference {catalog : Catalog κ}
    (wellFormed : catalog.WellFormed) {q : MatrixQuery} {value : ColumnView}
    (seen : catalog.view q.valueCol = some value)
    (integer : value.type = .U32 ∨ value.type = .I64)
    (unmasked : value.nulls = none) {ns : UInt64} {out : List UInt64}
    {after : Catalog κ}
    (ok : catalog.executeQuery ns q = some (.OK, out, after)) :
    out = referenceOf q value (catalog.view q.keyCol)
        (catalog.view q.filterCol) ∧
      out.length = (if q.grouped then q.numGroups.toNat else 1) ∧
      ∀ other : Catalog κ, other.WellFormed → SameFor q catalog other →
        ∀ otherNs, ∃ otherAfter,
          other.executeQuery otherNs q = some (.OK, out, otherAfter) := by
  obtain ⟨other, same, answered⟩ :=
    (Catalog.executeQuery_ok wellFormed).mp ⟨after, ok⟩
  cases seen.symm.trans same
  have reference := answered_reference integer unmasked answered
  refine ⟨reference, ?_, ?_⟩
  · rw [reference, referenceOf]
    split
    · simp
    · rfl
  · intro other otherWellFormed sameFor otherNs
    apply (Catalog.executeQuery_ok otherWellFormed).mpr
    refine ⟨value, sameFor.value.trans seen, ?_⟩
    rw [sameFor.maxQueryGroups, sameFor.key, sameFor.filter]
    exact answered

/-- Amounts in column 1 and the region of each in column 2. -/
def orders : Option (Catalog ℚ) := do
  let catalog ← (Catalog.fresh 1024).loadScanColumn 1 [5, 7, 9]
  catalog.loadScanColumn 2 [0, 1, 0]

theorem wellFormed_orders {catalog : Catalog ℚ}
    (loaded : orders = some catalog) : catalog.WellFormed := by
  unfold orders at loaded
  obtain ⟨first, amounts, regions⟩ := Option.bind_eq_some_iff.mp loaded
  have loads := Catalog.loadScanColumn_loads
    (Catalog.wellFormed_fresh 1024) amounts
  exact (Catalog.loadScanColumn_loads loads.wellFormed regions).wellFormed

theorem executeQuery_reference_orders :
    ∃ catalog after : Catalog ℚ, orders = some catalog ∧
      ∃ q : MatrixQuery, q.grouped ∧
        catalog.executeQuery 0 q = some (.OK, [14, 7], after) ∧
        ∃ value, catalog.view q.valueCol = some value ∧
          [14, 7] = referenceOf q value (catalog.view q.keyCol)
            (catalog.view q.filterCol) := by
  let q : MatrixQuery :=
    { valueCol := 1, agg := AGG_SUM, grouped := true, keyCol := 2
      numGroups := 2 }
  let value : ColumnView :=
    { type := .U32, bytes := [5, 7, 9].flatMap u32Bytes, nulls := none }
  have seen : orders.bind (·.view q.valueCol) = some value := by
    decide +kernel
  have answer : orders.bind (·.answer q) = some (.OK, [14, 7]) := by
    decide +kernel
  cases made : orders with
  | none => simp [made] at seen
  | some catalog =>
      rw [made, Option.bind_some] at seen
      rw [made, Option.bind_some] at answer
      have wellFormed := wellFormed_orders made
      obtain ⟨after, _, ran⟩ := Catalog.executeQuery_eq wellFormed 0 q
      rw [answer] at ran
      exact ⟨catalog, after, rfl, q, rfl, ran, value, seen,
        (executeQuery_reference wellFormed seen (.inl rfl) rfl ran).1⟩

end MatrixDB
