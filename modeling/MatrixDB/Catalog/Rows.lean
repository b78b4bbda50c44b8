import MatrixDB.Catalog.Snapshot
import MatrixDB.Query.Parser

/-!
# Joins, gathers, projections and distinct counts (`compute_mock.cpp`)

The public calls beside `execute_query` that read columns.  Each borrows what
it reads; only `count_distinct` and a scan drive the rebalance cadence.
-/

namespace MatrixDB

open Lib CostArith

/-! ## Hash tables over a key column -/

section
variable {K : Type} [DecidableEq K]

/-- `build[keys[i]].push_back(i)` for every row. -/
def joinBuild (keys : Nat → K) (n : Nat) : AList fun _ : K => List UInt64 :=
  (List.range n).foldl
    (fun build i =>
      build.insert (keys i)
        ((build.lookup (keys i)).getD [] ++ [UInt64.ofNat i]))
    ∅

/-- The rows of the left side for every row of the right one. -/
def joinProbe (build : AList fun _ : K => List UInt64) (keys : Nat → K)
    (n : Nat) : List (UInt64 × UInt64) :=
  (List.range n).flatMap fun j =>
    ((build.lookup (keys j)).getD []).map fun i => (i, UInt64.ofNat j)

/-- `++build[keys[i]]` for every row. -/
def countBuild (keys : Nat → K) (n : Nat) : AList fun _ : K => UInt64 :=
  (List.range n).foldl
    (fun build i =>
      build.insert (keys i) ((build.lookup (keys i)).getD 0 + 1))
    ∅

def countProbe (build : AList fun _ : K => UInt64) (keys : Nat → K)
    (n : Nat) : UInt64 :=
  (List.range n).foldl
    (fun pairs j => pairs + (build.lookup (keys j)).getD 0) 0

end

/-- `distinct_count`: how many values a hash set holds in the end.  A value is
new when it equals none before it, so each NaN is new. -/
def distinctCount {V : Type} [BEq V] (v : Nat → V) (n : Nat)
    (live : Nat → Bool) : UInt64 :=
  UInt64.ofNat
    ((List.range n).foldl
      (fun (seen : List V) i =>
        if live i && !seen.any (· == v i) then seen ++ [v i] else seen)
      []).length

variable {κ : Type}

namespace Catalog

/-! ## Joins -/

/-- Both columns must be registered and of one type. -/
def joinable (catalog : Catalog κ) (ty : MatrixType)
    (left right : UInt64) : Bool :=
  catalog.catalogHas left && catalog.catalogHas right &&
    catalog.columnType left == ty && catalog.columnType right == ty

def hashJoin (catalog : Catalog κ) (leftKeyId rightKeyId : UInt64) :
    Option (List (UInt64 × UInt64) × Catalog κ) :=
  if catalog.joinable .U32 leftKeyId rightKeyId then
    catalog.withBorrowed [leftKeyId, rightKeyId] fun catalog => do
      let ln := catalog.sizeBytes leftKeyId / 4
      let rn := catalog.sizeBytes rightKeyId / 4
      let lk ← (catalog.hostBytes leftKeyId).bind (u32Rows ln)
      let rk ← (catalog.hostBytes rightKeyId).bind (u32Rows rn)
      some (joinProbe (joinBuild lk ln) rk rn)
  else none

def hashJoinCount (catalog : Catalog κ) (leftKeyId rightKeyId : UInt64) :
    Option (UInt64 × Catalog κ) :=
  if catalog.joinable .U32 leftKeyId rightKeyId then
    catalog.withBorrowed [leftKeyId, rightKeyId] fun catalog => do
      let ln := catalog.sizeBytes leftKeyId / 4
      let rn := catalog.sizeBytes rightKeyId / 4
      let lk ← (catalog.hostBytes leftKeyId).bind (u32Rows ln)
      let rk ← (catalog.hostBytes rightKeyId).bind (u32Rows rn)
      some (countProbe (countBuild lk ln) rk rn)
  else none

def hashJoinI64 (catalog : Catalog κ) (leftKeyId rightKeyId : UInt64) :
    Option (List (UInt64 × UInt64) × Catalog κ) :=
  if catalog.joinable .I64 leftKeyId rightKeyId then
    catalog.withBorrowed [leftKeyId, rightKeyId] fun catalog => do
      let ln := catalog.sizeBytes leftKeyId / 8
      let rn := catalog.sizeBytes rightKeyId / 8
      let lk ← (catalog.hostBytes leftKeyId).bind (i64Rows ln)
      let rk ← (catalog.hostBytes rightKeyId).bind (i64Rows rn)
      some (joinProbe (joinBuild lk ln) rk rn)
  else none

/-! ## Rows of one column -/

/-- The values at some rows, each of which must exist. -/
def gatherRows (ty : MatrixType) (bytes : Bytes) (n : Nat) :
    List UInt64 → Option (List UInt64)
  | [] => some []
  | r :: rows =>
      if r.toNat < n then
        (gatherRows ty bytes n rows).map fun out =>
          (match ty with
            | .U32 => (u32At bytes r.toNat).toUInt64
            | .I64 => u64At bytes r.toNat
            | .F64 => u64At bytes r.toNat) :: out
      else none

def gather (catalog : Catalog κ) (colId : UInt64) (rows : List UInt64) :
    Option (List UInt64 × Catalog κ) :=
  if catalog.catalogHas colId then
    catalog.withLoan colId fun catalog => do
      let bytes ← catalog.hostBytes colId
      let ty := catalog.columnType colId
      gatherRows ty bytes (catalog.sizeBytes colId / ty.width) rows
  else none

/-- A limit of zero is no limit. -/
def limited {A : Type} (limit : UInt64) (rows : List A) : List A :=
  if limit = 0 then rows else rows.take limit.toNat

/-- The rows of a `uint32` filter column that satisfy a predicate. -/
def matchingRows (catalog : Catalog κ) (filterCol : UInt64)
    (pred : MatrixPredicate) (limit : UInt64) :
    Option (List UInt64 × Catalog κ) :=
  catalog.withBorrowed [filterCol] fun catalog => do
    let n := catalog.sizeBytes filterCol / 4
    let f ← (catalog.hostBytes filterCol).bind (u32Rows n)
    some (limited limit
      (((List.range n).filter fun i => matrixPredMatch (f i) pred).map
        UInt64.ofNat))

def project (catalog : Catalog κ) (colId : UInt64) (hasFilter : Bool)
    (filterCol : UInt64) (pred : MatrixPredicate) (limit : UInt64) :
    Option (List UInt64 × Catalog κ) :=
  if hasFilter then do
    let (rows, catalog) ← catalog.matchingRows filterCol pred limit
    catalog.gather colId rows
  else if (catalog.columns.lookup colId).isSome then
    catalog.gather colId
      (limited limit
        ((List.range (catalog.columnRows colId)).map UInt64.ofNat))
  else none

/-! ## Grouped aggregates by themselves -/

def groupedAggregatePred (catalog : Catalog κ) (keyId valueId : UInt64)
    (numGroups : UInt32) (op : MatrixAggOp) (pred : MatrixPredicate) :
    Option (List UInt64 × Catalog κ) :=
  catalog.groupedAggregate
    { valueCol := valueId, keyCol := keyId, numGroups := numGroups, agg := op
      hasFilter := true, cmp := pred.cmp, threshold := pred.a
      upper := pred.b }

def groupedAggregateWhere (catalog : Catalog κ) (keyId valueId : UInt64)
    (numGroups : UInt32) (op : MatrixAggOp) (threshold : UInt32) :
    Option (List UInt64 × Catalog κ) :=
  catalog.groupedAggregatePred keyId valueId numGroups op
    { cmp := .GT, a := threshold, b := 0 }

/-! ## Scans -/

section
variable [CostArith κ]

def countDistinct (catalog : Catalog κ) (colId : UInt64) :
    Option (UInt64 × Catalog κ) :=
  catalog.scanBorrowed [colId] fun catalog => do
    let bytes ← catalog.hostBytes colId
    let ty := catalog.columnType colId
    let n := catalog.sizeBytes colId / ty.width
    let live ← liveRows (catalog.valueNulls colId n) n
    match ty with
    | .I64 => (i64Rows n bytes).map fun v => distinctCount v n live
    | .F64 => (f64Rows n bytes).map fun v => distinctCount v n live
    | .U32 => (u32Rows n bytes).map fun v => distinctCount v n live

/-- `execute_scan` on a catalog column: the rows above a threshold. -/
def executeScan (catalog : Catalog κ) (colId : UInt64) (threshold : UInt32)
    (op : MatrixAggOp) : Option (UInt64 × Catalog κ) :=
  catalog.scanTieredColumn
    { valueCol := colId, agg := op, hasFilter := true, cmp := .GT
      threshold := threshold }

end

end Catalog

end MatrixDB
