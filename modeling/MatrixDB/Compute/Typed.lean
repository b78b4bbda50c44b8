import MatrixDB.Compute.Reduce

/-!
# Queries over typed bytes (`compute.hpp`, `compute_mock.cpp`)

A catalog column is a byte string read through a pointer of its element type.
The engine's `if (I64) ... else if (F64) ... else ...` chains around the
reducers appear here, one definition for each chain; `none` stands for a read
past the end of the bytes or of a null mask.
-/

namespace MatrixDB

open Lib

/-- A query.  A `double` bound is kept as its bit pattern. -/
structure MatrixQuery where
  valueCol : UInt64 := 0
  agg : MatrixAggOp := AGG_COUNT
  hasFilter : Bool := false
  threshold : UInt32 := 0
  cmp : MatrixCmp := .GT
  upper : UInt32 := 0
  loI64 : Int64 := 0
  hiI64 : Int64 := 0
  loF64 : UInt64 := 0
  hiF64 : UInt64 := 0
  grouped : Bool := false
  keyCol : UInt64 := 0
  numGroups : UInt32 := 0
  limit : UInt64 := 0
  filterCol : UInt64 := 0
  deriving DecidableEq, Repr

namespace MatrixQuery

def pred (q : MatrixQuery) : MatrixPredicate :=
  { cmp := q.cmp, a := q.threshold, b := q.upper }

def predI64 (q : MatrixQuery) : MatrixPredicateI64 :=
  { cmp := q.cmp, a := q.loI64, b := q.hiI64 }

def predF64 (q : MatrixQuery) : MatrixPredicateF64 :=
  { cmp := q.cmp, a := Float.ofBits q.loF64, b := Float.ofBits q.hiF64 }

/-- The filter reads another column than the aggregate. -/
def crossFilter (q : MatrixQuery) : Bool :=
  q.hasFilter && q.filterCol != 0 && q.filterCol != q.valueCol

end MatrixQuery

/-- Bytes of one row. -/
def MatrixType.width : MatrixType → Nat
  | .U32 => 4
  | .I64 => 8
  | .F64 => 8

/-- A pointer through which the first `n` rows can be read. -/
def rowsOf {V : Type} (read : Bytes → Nat → V) (width n : Nat)
    (bytes : Bytes) : Option (Nat → V) :=
  if width * n ≤ bytes.length then some (read bytes) else none

def u32Rows := rowsOf u32At 4
def i64Rows := rowsOf i64At 8
def f64Rows := rowsOf f64At 8

/-- `q.has_filter ? matrix_cpu_reduce_pred... : matrix_cpu_reduce_all...`. -/
def reduceScalar (ty : MatrixType) (q : MatrixQuery) (bytes : Bytes)
    (n : Nat) : Option UInt64 :=
  match ty with
  | .I64 => do
      let v ← i64Rows n bytes
      (if q.hasFilter then
          matrixCpuReducePredI64 v n q.predI64 q.agg none
        else some (matrixCpuReduceAllI64 v n q.agg)).map Int64.toUInt64
  | .F64 => do
      let v ← f64Rows n bytes
      (if q.hasFilter then
          matrixCpuReducePredF64 v n q.predF64 q.agg none
        else some (matrixCpuReduceAllF64 v n q.agg)).map Float.toBits
  | .U32 => do
      let v ← u32Rows n bytes
      if q.hasFilter then matrixCpuReducePred v n q.pred q.agg none
      else some (matrixCpuReduceAll v n q.agg)

/-- The same with a null mask, in `scalar_aggregate_nullable`. -/
def reduceNullable (ty : MatrixType) (q : MatrixQuery) (bytes : Bytes)
    (n : Nat) (nulls : Bytes) : Option UInt64 :=
  match ty with
  | .I64 => do
      let v ← i64Rows n bytes
      (if q.hasFilter then
          matrixCpuReducePredI64 v n q.predI64 q.agg (some nulls)
        else matrixCpuReduceAllI64Nullable v n q.agg nulls).map Int64.toUInt64
  | .F64 => do
      let v ← f64Rows n bytes
      (if q.hasFilter then
          matrixCpuReducePredF64 v n q.predF64 q.agg (some nulls)
        else matrixCpuReduceAllF64Nullable v n q.agg nulls).map Float.toBits
  | .U32 => do
      let v ← u32Rows n bytes
      if q.hasFilter then matrixCpuReducePred v n q.pred q.agg (some nulls)
      else matrixCpuReduceAllNullable v n q.agg nulls

/-- The grouped reducers over a `uint32` key. -/
def reduceGrouped (ty : MatrixType) (q : MatrixQuery) (keys bytes : Bytes)
    (n : Nat) (nulls : Option Bytes) : Option (List UInt64) := do
  let k ← u32Rows n keys
  match ty with
  | .I64 =>
      let v ← i64Rows n bytes
      (if q.hasFilter then
          matrixCpuGroupReduceI64Pred q.predI64 k v n q.numGroups q.agg nulls
        else matrixCpuGroupReduceI64 k v n q.numGroups q.agg nulls).map
          (List.map Int64.toUInt64)
  | .F64 =>
      let v ← f64Rows n bytes
      (if q.hasFilter then
          matrixCpuGroupReduceF64Pred q.predF64 k v n q.numGroups q.agg nulls
        else matrixCpuGroupReduceF64 k v n q.numGroups q.agg nulls).map
          (List.map Float.toBits)
  | .U32 =>
      let v ← u32Rows n bytes
      if q.hasFilter then
        matrixCpuGroupReducePred q.pred k v n q.numGroups q.agg nulls
      else matrixCpuGroupReduce k v n q.numGroups q.agg nulls

/-- The scalar reducers filtered by another column. -/
def reduceCross (ty : MatrixType) (q : MatrixQuery) (filter bytes : Bytes)
    (n : Nat) : Option UInt64 := do
  let f ← u32Rows n filter
  match ty with
  | .I64 =>
      let v ← i64Rows n bytes
      some (matrixCpuReduceFilteredByI64 f q.pred v n q.agg).toUInt64
  | .F64 =>
      let v ← f64Rows n bytes
      some (matrixCpuReduceFilteredByF64 f q.pred v n q.agg).toBits
  | .U32 =>
      let v ← u32Rows n bytes
      some (matrixCpuReduceFilteredBy f q.pred v n q.agg)

/-- The grouped reducers filtered by another column. -/
def reduceGroupedCross (ty : MatrixType) (q : MatrixQuery)
    (keys filter bytes : Bytes) (n : Nat) : Option (List UInt64) := do
  let k ← u32Rows n keys
  let f ← u32Rows n filter
  match ty with
  | .I64 =>
      let v ← i64Rows n bytes
      some ((matrixCpuGroupReduceFilteredByI64 k f q.pred v n q.numGroups
        q.agg).map Int64.toUInt64)
  | .F64 =>
      let v ← f64Rows n bytes
      some ((matrixCpuGroupReduceFilteredByF64 k f q.pred v n q.numGroups
        q.agg).map Float.toBits)
  | .U32 =>
      let v ← u32Rows n bytes
      some (matrixCpuGroupReduceFilteredBy k f q.pred v n q.numGroups q.agg)

/-! ## One kernel for each element type -/

theorem rowsOf_eq {V : Type} (read : Bytes → Nat → V) {width n : Nat}
    {bytes : Bytes} (enough : width * n ≤ bytes.length) :
    rowsOf read width n bytes = some (read bytes) := by
  rw [rowsOf, if_pos enough]

theorem u32Rows_eq {n : Nat} {bytes : Bytes} (fit : 4 * n ≤ bytes.length) :
    u32Rows n bytes = some (u32At bytes) := rowsOf_eq u32At fit

theorem i64Rows_eq {n : Nat} {bytes : Bytes} (fit : 8 * n ≤ bytes.length) :
    i64Rows n bytes = some (i64At bytes) := rowsOf_eq i64At fit

theorem f64Rows_eq {n : Nat} {bytes : Bytes} (fit : 8 * n ≤ bytes.length) :
    f64Rows n bytes = some (f64At bytes) := rowsOf_eq f64At fit

/-- The kernel of an element type, how a row is read, and the filter of a
query on values of the type. -/
inductive ElementKernel : MatrixType → {V A : Type} → AggKernel V A →
    (Bytes → Nat → V) → (MatrixQuery → V → Bool) → Prop where
  | u32 : ElementKernel .U32 u32Kernel u32At
      fun q v => matrixPredMatch v q.pred
  | i64 : ElementKernel .I64 i64Kernel i64At
      fun q v => matrixPredMatchI64 v q.predI64
  | f64 : ElementKernel .F64 f64Kernel f64At
      fun q v => matrixPredMatchF64 v q.predF64

theorem exists_elementKernel (ty : MatrixType) :
    ∃ (V A : Type) (K : AggKernel V A) (read : Bytes → Nat → V)
      (hit : MatrixQuery → V → Bool), ElementKernel ty K read hit := by
  cases ty with
  | U32 => exact ⟨_, _, _, _, _, .u32⟩
  | I64 => exact ⟨_, _, _, _, _, .i64⟩
  | F64 => exact ⟨_, _, _, _, _, .f64⟩

theorem map_encode_u32 : List.map u32Kernel.encode = id := List.map_id_fun

namespace ElementKernel

variable {V A : Type} {ty : MatrixType} {K : AggKernel V A}
  {read : Bytes → Nat → V} {hit : MatrixQuery → V → Bool}

/-- A row is read from its own bytes. -/
theorem read_congr (element : ElementKernel ty K read hit)
    {left right : Bytes} {i j : Nat}
    (same : (left.drop (ty.width * i)).take ty.width =
      (right.drop (ty.width * j)).take ty.width) :
    read left i = read right j := by
  cases element with
  | u32 => exact congrArg u32OfBytes same
  | i64 => exact congrArg (fun bytes => (u64OfBytes bytes).toInt64) same
  | f64 => exact congrArg (fun bytes => Float.ofBits (u64OfBytes bytes)) same

theorem reduceScalar_eq (element : ElementKernel ty K read hit)
    (q : MatrixQuery) {bytes : Bytes} {n : Nat}
    (fit : ty.width * n ≤ bytes.length) :
    reduceScalar ty q bytes n =
      (if q.hasFilter then K.reducePred (hit q) (read bytes) n q.agg none
        else some (K.reduceAll (read bytes) n q.agg)).map K.encode := by
  cases element with
  | u32 =>
      rw [reduceScalar, u32Rows_eq fit]
      exact (congrFun Option.map_id _).symm
  | i64 =>
      rw [reduceScalar, i64Rows_eq fit]
      rfl
  | f64 =>
      rw [reduceScalar, f64Rows_eq fit]
      rfl

theorem reduceNullable_eq (element : ElementKernel ty K read hit)
    (q : MatrixQuery) {bytes : Bytes} {n : Nat}
    (fit : ty.width * n ≤ bytes.length) (nulls : Bytes) :
    reduceNullable ty q bytes n nulls =
      (if q.hasFilter then
          K.reducePred (hit q) (read bytes) n q.agg (some nulls)
        else K.reduceAllNullable (read bytes) n q.agg nulls).map
          K.encode := by
  cases element with
  | u32 =>
      rw [reduceNullable, u32Rows_eq fit]
      exact (congrFun Option.map_id _).symm
  | i64 =>
      rw [reduceNullable, i64Rows_eq fit]
      rfl
  | f64 =>
      rw [reduceNullable, f64Rows_eq fit]
      rfl

theorem reduceGrouped_eq (element : ElementKernel ty K read hit)
    (q : MatrixQuery) {keys bytes : Bytes} {n : Nat}
    (keysFit : 4 * n ≤ keys.length) (fit : ty.width * n ≤ bytes.length)
    (nulls : Option Bytes) :
    reduceGrouped ty q keys bytes n nulls =
      (if q.hasFilter then
          K.groupReduceImpl (hit q) (u32At keys) (read bytes) n q.numGroups
            q.agg nulls
        else
          K.groupReduceImpl (fun _ => true) (u32At keys) (read bytes) n
            q.numGroups q.agg nulls).map (List.map K.encode) := by
  cases element with
  | u32 =>
      rw [reduceGrouped, u32Rows_eq keysFit, u32Rows_eq fit]
      rw [map_encode_u32]
      exact (congrFun Option.map_id _).symm
  | i64 =>
      rw [reduceGrouped, u32Rows_eq keysFit, i64Rows_eq fit]
      rfl
  | f64 =>
      rw [reduceGrouped, u32Rows_eq keysFit, f64Rows_eq fit]
      rfl

theorem reduceCross_eq (element : ElementKernel ty K read hit)
    (q : MatrixQuery) {filter bytes : Bytes} {n : Nat}
    (filterFit : 4 * n ≤ filter.length) (fit : ty.width * n ≤ bytes.length) :
    reduceCross ty q filter bytes n =
      some (K.encode (K.reduceFilteredBy (u32At filter) q.pred (read bytes) n
        q.agg)) := by
  cases element with
  | u32 =>
      rw [reduceCross, u32Rows_eq filterFit, u32Rows_eq fit]
      rfl
  | i64 =>
      rw [reduceCross, u32Rows_eq filterFit, i64Rows_eq fit]
      rfl
  | f64 =>
      rw [reduceCross, u32Rows_eq filterFit, f64Rows_eq fit]
      rfl

theorem reduceGroupedCross_eq (element : ElementKernel ty K read hit)
    (q : MatrixQuery) {keys filter bytes : Bytes} {n : Nat}
    (keysFit : 4 * n ≤ keys.length) (filterFit : 4 * n ≤ filter.length)
    (fit : ty.width * n ≤ bytes.length) :
    reduceGroupedCross ty q keys filter bytes n =
      some ((K.groupReduceFilteredBy (u32At keys) (u32At filter) q.pred
        (read bytes) n q.numGroups q.agg).map K.encode) := by
  cases element with
  | u32 =>
      rw [reduceGroupedCross, u32Rows_eq keysFit, u32Rows_eq filterFit,
        u32Rows_eq fit]
      rw [map_encode_u32]
      rfl
  | i64 =>
      rw [reduceGroupedCross, u32Rows_eq keysFit, u32Rows_eq filterFit,
        i64Rows_eq fit]
      rfl
  | f64 =>
      rw [reduceGroupedCross, u32Rows_eq keysFit, u32Rows_eq filterFit,
        f64Rows_eq fit]
      rfl

end ElementKernel

end MatrixDB
