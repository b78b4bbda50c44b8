import MatrixDB.Catalog.State

/-!
# `execute_query` and its lock-free sibling (`compute_mock.cpp`)

Every path of `execute_query` records the access, borrows its columns into the
host tier, reduces, and gives the borrows back, the last one first.  The
scalar and the cross-column paths also drive the rebalance cadence, which runs
the brain and executes its plan.
-/

namespace MatrixDB

open Lib CostArith

inductive MatrixQueryStatus where
  | OK
  | ERR_UNKNOWN_COLUMN
  | ERR_INVALID_GROUP
  | ERR_TOO_MANY_GROUPS
  | ERR_UNSUPPORTED_TYPE
  | ERR_PARSE
  deriving DecidableEq, Repr

inductive ReadOutcome where
  | SERVED (out : List UInt64)
  | NEEDS_EXCLUSIVE
  deriving DecidableEq, Repr

/-- `MigrationExecutor::apply`: the moved columns and how many moves. -/
def applyPlan : List MigrationDecision → IdMap TieredColumn →
    Option (IdMap TieredColumn × Nat)
  | [], columns => some (columns, 0)
  | decision :: plan, columns =>
      match columns.lookup decision.columnId with
      | none => applyPlan plan columns
      | some column => do
          let moved ← column.migrateTo decision.dest
          let (columns, applied) ←
            applyPlan plan (columns.insert decision.columnId moved)
          some (columns, applied + 1)

/-- The loop that finds a latency's bucket. -/
def latencyBucket : Nat → UInt64 → Nat
  | 0, _ => 0
  | rounds + 1, x => if 1 < x then latencyBucket rounds (x >>> 1) + 1 else 0

def LatencyStats.record (stats : LatencyStats) (ns : UInt64) :
    LatencyStats :=
  { queryCount := stats.queryCount + 1
    totalQueryNs := stats.totalQueryNs + ns
    maxQueryNs := if stats.maxQueryNs < ns then ns else stats.maxQueryNs
    hist := stats.hist.modify (latencyBucket (LAT_BUCKETS - 1) (ns + 1))
      (· + 1) }

variable {κ : Type}

namespace Catalog

def recordQueryLatency (catalog : Catalog κ) (ns : UInt64) : Catalog κ :=
  { catalog with latency := catalog.latency.record ns }

/-- The bytes behind `host_ptr()`. -/
def hostBytes (catalog : Catalog κ) (id : UInt64) : Option Bytes :=
  (catalog.columns.lookup id).bind TieredColumn.hostPtr

def recordAccess (catalog : Catalog κ) (id : UInt64) : Catalog κ :=
  { catalog with
    tierMgr := catalog.tierMgr.recordAccess id (catalog.sizeBytes id) }

def borrowAll : List UInt64 → Catalog κ →
    Option (List (UInt64 × MemorySpace) × Catalog κ)
  | [], catalog => some ([], catalog)
  | id :: ids, catalog => do
      let (home, catalog) ← (catalog.recordAccess id).borrow id
      let (homes, catalog) ← borrowAll ids catalog
      some ((id, home) :: homes, catalog)

def giveBackAll : List (UInt64 × MemorySpace) → Catalog κ →
    Option (Catalog κ)
  | [], catalog => some catalog
  | (id, home) :: homes, catalog => do
      let catalog ← giveBackAll homes catalog
      catalog.giveBack id home

/-- Reduce with some columns borrowed into the host tier. -/
def withBorrowed {A : Type} (catalog : Catalog κ) (ids : List UInt64)
    (reduce : Catalog κ → Option A) : Option (A × Catalog κ) := do
  let (homes, borrowed) ← borrowAll ids catalog
  let result ← reduce borrowed
  let catalog ← giveBackAll homes borrowed
  some (result, catalog)

/-! ## Grouped paths, which do not rebalance -/

/-- `grouped_aggregate` and `grouped_aggregate_pred`, over `uint32` values. -/
def groupedAggregate (catalog : Catalog κ) (q : MatrixQuery) :
    Option (List UInt64 × Catalog κ) :=
  if q.keyCol = q.valueCol then none
  else if catalog.sizeBytes q.keyCol ≠ catalog.sizeBytes q.valueCol then none
  else
    catalog.withBorrowed [q.keyCol, q.valueCol] fun catalog => do
      let keys ← catalog.hostBytes q.keyCol
      let vals ← catalog.hostBytes q.valueCol
      let n := catalog.sizeBytes q.keyCol / 4
      reduceGrouped .U32 q keys vals n (catalog.valueNulls q.valueCol n)

/-- The eight-byte siblings, which count rows by the value column. -/
def groupedAggregateWide (ty : MatrixType) (catalog : Catalog κ)
    (q : MatrixQuery) : Option (List UInt64 × Catalog κ) :=
  catalog.withBorrowed [q.keyCol, q.valueCol] fun catalog => do
    let keys ← catalog.hostBytes q.keyCol
    let vals ← catalog.hostBytes q.valueCol
    let n := catalog.sizeBytes q.valueCol / 8
    reduceGrouped ty q keys vals n (catalog.valueNulls q.valueCol n)

def groupedAggregateI64 (catalog : Catalog κ) (q : MatrixQuery) :
    Option (List UInt64 × Catalog κ) :=
  groupedAggregateWide .I64 catalog q

def groupedAggregateF64 (catalog : Catalog κ) (q : MatrixQuery) :
    Option (List UInt64 × Catalog κ) :=
  groupedAggregateWide .F64 catalog q

/-! ## Paths that rebalance -/

section
variable [CostArith κ]

def maybeRebalance (catalog : Catalog κ) : Option (Catalog κ) :=
  let scans := catalog.scansSinceRebalance + 1
  if catalog.rebalanceEvery ≤ scans then do
    let (plan, tierMgr) := catalog.tierMgr.rebalance
    let (columns, applied) ← applyPlan plan catalog.columns
    some { catalog with
      columns := columns
      tierMgr := tierMgr
      migrations := catalog.migrations + UInt64.ofNat applied
      rebalances := catalog.rebalances + 1
      scansSinceRebalance := 0 }
  else some { catalog with scansSinceRebalance := scans }

/-- Reduce with some columns borrowed, then count one scan. -/
def scanBorrowed {A : Type} (catalog : Catalog κ) (ids : List UInt64)
    (reduce : Catalog κ → Option A) : Option (A × Catalog κ) := do
  let (result, catalog) ← catalog.withBorrowed ids reduce
  let catalog ← catalog.maybeRebalance
  some (result, catalog)

def scanTyped (ty : MatrixType) (catalog : Catalog κ) (q : MatrixQuery) :
    Option (UInt64 × Catalog κ) :=
  catalog.scanBorrowed [q.valueCol] fun catalog => do
    let vals ← catalog.hostBytes q.valueCol
    reduceScalar ty q vals (catalog.sizeBytes q.valueCol / ty.width)

def scanTieredColumn (catalog : Catalog κ) (q : MatrixQuery) :
    Option (UInt64 × Catalog κ) :=
  scanTyped .U32 catalog q

def scanTieredColumnI64 (catalog : Catalog κ) (q : MatrixQuery) :
    Option (UInt64 × Catalog κ) :=
  scanTyped .I64 catalog q

def scanTieredColumnF64 (catalog : Catalog κ) (q : MatrixQuery) :
    Option (UInt64 × Catalog κ) :=
  scanTyped .F64 catalog q

/-- The mask is read for every row, whatever its length. -/
def scalarAggregateNullable (catalog : Catalog κ) (q : MatrixQuery) :
    Option (UInt64 × Catalog κ) :=
  catalog.scanBorrowed [q.valueCol] fun catalog => do
    let nulls ← catalog.nullMasks.lookup q.valueCol
    let vals ← catalog.hostBytes q.valueCol
    let ty := catalog.columnType q.valueCol
    reduceNullable ty q vals (catalog.sizeBytes q.valueCol / ty.width) nulls

def scalarCrossFilter (catalog : Catalog κ) (q : MatrixQuery) :
    Option (UInt64 × Catalog κ) :=
  catalog.scanBorrowed [q.filterCol, q.valueCol] fun catalog => do
    let filter ← catalog.hostBytes q.filterCol
    let vals ← catalog.hostBytes q.valueCol
    reduceCross (catalog.columnType q.valueCol) q filter vals
      (catalog.sizeBytes q.filterCol / 4)

/-- The key may be the filter column, which is then borrowed once. -/
def groupedCrossFilter (catalog : Catalog κ) (q : MatrixQuery) :
    Option (List UInt64 × Catalog κ) :=
  catalog.scanBorrowed [q.valueCol, q.filterCol, q.keyCol].eraseDups
    fun catalog => do
      let keys ← catalog.hostBytes q.keyCol
      let filter ← catalog.hostBytes q.filterCol
      let vals ← catalog.hostBytes q.valueCol
      reduceGroupedCross (catalog.columnType q.valueCol) q keys filter vals
        (catalog.sizeBytes q.keyCol / 4)

end

/-! ## Dispatch -/

/-- The branch of `execute_query_impl` that answers a query. -/
inductive Route where
  | scalarCross
  | groupedCross
  | grouped
  | nullable
  | scan
  deriving DecidableEq, Repr

/-- The checks on an eight-byte value column grouped by a key. -/
def routeGroupedWide (catalog : Catalog κ) (q : MatrixQuery) :
    Except MatrixQueryStatus Route :=
  if catalog.catalogHas q.keyCol && catalog.columnType q.keyCol != .U32 then
    .error .ERR_UNSUPPORTED_TYPE
  else if !catalog.catalogHas q.keyCol || q.keyCol == q.valueCol ||
      q.numGroups == 0 ||
      catalog.columnRows q.keyCol != catalog.columnRows q.valueCol then
    .error .ERR_INVALID_GROUP
  else if catalog.maxQueryGroups < q.numGroups then
    .error .ERR_TOO_MANY_GROUPS
  else .ok .grouped

/-- The checks on a `uint32` value column grouped by a key. -/
def routeGroupedU32 (catalog : Catalog κ) (q : MatrixQuery) :
    Except MatrixQueryStatus Route :=
  if !catalog.catalogHas q.keyCol || q.keyCol == q.valueCol ||
      q.numGroups == 0 ||
      catalog.sizeBytes q.keyCol != catalog.sizeBytes q.valueCol then
    .error .ERR_INVALID_GROUP
  else if catalog.columnType q.keyCol != .U32 then
    .error .ERR_UNSUPPORTED_TYPE
  else if catalog.maxQueryGroups < q.numGroups then
    .error .ERR_TOO_MANY_GROUPS
  else .ok .grouped

def routeScalarCross (catalog : Catalog κ) (q : MatrixQuery) :
    Except MatrixQueryStatus Route :=
  if !catalog.catalogHas q.filterCol ||
      catalog.columnType q.filterCol != .U32 then
    .error .ERR_UNSUPPORTED_TYPE
  else if catalog.columnRows q.filterCol != catalog.columnRows q.valueCol then
    .error .ERR_INVALID_GROUP
  else .ok .scalarCross

def routeGroupedCross (catalog : Catalog κ) (q : MatrixQuery) :
    Except MatrixQueryStatus Route :=
  if !catalog.catalogHas q.keyCol || q.keyCol == q.valueCol ||
      q.numGroups == 0 then
    .error .ERR_INVALID_GROUP
  else if catalog.columnType q.keyCol != .U32 then
    .error .ERR_UNSUPPORTED_TYPE
  else if !catalog.catalogHas q.filterCol ||
      catalog.columnType q.filterCol != .U32 then
    .error .ERR_UNSUPPORTED_TYPE
  else if catalog.maxQueryGroups < q.numGroups then
    .error .ERR_TOO_MANY_GROUPS
  else if catalog.columnRows q.keyCol != catalog.columnRows q.valueCol ||
      catalog.columnRows q.filterCol != catalog.columnRows q.valueCol then
    .error .ERR_INVALID_GROUP
  else .ok .groupedCross

/-- The checks of `execute_query_impl`, in their order. -/
def route (catalog : Catalog κ) (q : MatrixQuery) :
    Except MatrixQueryStatus Route :=
  if !catalog.catalogHas q.valueCol then .error .ERR_UNKNOWN_COLUMN
  else if !q.grouped && q.crossFilter then catalog.routeScalarCross q
  else if q.grouped && q.crossFilter then catalog.routeGroupedCross q
  else if q.grouped then
    match catalog.columnType q.valueCol with
    | .I64 => catalog.routeGroupedWide q
    | .F64 => catalog.routeGroupedWide q
    | .U32 => catalog.routeGroupedU32 q
  else if (catalog.nullMasks.lookup q.valueCol).isSome then .ok .nullable
  else .ok .scan

section
variable [CostArith κ]

/-- `out.assign(1, ...)`. -/
def single (answer : UInt64 × Catalog κ) : List UInt64 × Catalog κ :=
  ([answer.1], answer.2)

def follow (catalog : Catalog κ) (q : MatrixQuery) :
    Route → Option (List UInt64 × Catalog κ)
  | .scalarCross => (catalog.scalarCrossFilter q).map single
  | .groupedCross => catalog.groupedCrossFilter q
  | .nullable => (catalog.scalarAggregateNullable q).map single
  | .grouped =>
      match catalog.columnType q.valueCol with
      | .I64 => catalog.groupedAggregateI64 q
      | .F64 => catalog.groupedAggregateF64 q
      | .U32 => catalog.groupedAggregate q
  | .scan =>
      match catalog.columnType q.valueCol with
      | .I64 => (catalog.scanTieredColumnI64 q).map single
      | .F64 => (catalog.scanTieredColumnF64 q).map single
      | .U32 => (catalog.scanTieredColumn q).map single

def executeQueryImpl (catalog : Catalog κ) (q : MatrixQuery) :
    Option (MatrixQueryStatus × List UInt64 × Catalog κ) :=
  match catalog.route q with
  | .error status => some (status, [], catalog)
  | .ok taken => (catalog.follow q taken).map fun answer => (.OK, answer)

/-- A query that took `ns` nanoseconds. -/
def executeQuery (catalog : Catalog κ) (ns : UInt64) (q : MatrixQuery) :
    Option (MatrixQueryStatus × List UInt64 × Catalog κ) :=
  (catalog.executeQueryImpl q).map fun answer =>
    (answer.1, answer.2.1, answer.2.2.recordQueryLatency ns)

end

/-! ## The shared path -/

def hostResident (catalog : Catalog κ) (id : UInt64) : Bool :=
  match catalog.columns.lookup id with
  | none => false
  | some column => column.tier = .HOST

def executeQuerySharedImpl (catalog : Catalog κ) (q : MatrixQuery) :
    Option ReadOutcome :=
  if !catalog.hostResident q.valueCol ||
      (catalog.nullMasks.lookup q.valueCol).isSome then
    some .NEEDS_EXCLUSIVE
  else do
    let ty := catalog.columnType q.valueCol
    let vals ← catalog.hostBytes q.valueCol
    let n := catalog.columnRows q.valueCol
    if !q.grouped && q.crossFilter then
      if !catalog.hostResident q.filterCol ||
          catalog.columnType q.filterCol != .U32 then
        some .NEEDS_EXCLUSIVE
      else if catalog.columnRows q.filterCol != n then some .NEEDS_EXCLUSIVE
      else
        let filter ← catalog.hostBytes q.filterCol
        let result ← reduceCross ty q filter vals n
        some (.SERVED [result])
    else if q.grouped && q.crossFilter then some .NEEDS_EXCLUSIVE
    else if q.grouped then
      if !catalog.hostResident q.keyCol || q.keyCol == q.valueCol ||
          q.numGroups == 0 || catalog.maxQueryGroups < q.numGroups ||
          catalog.columnType q.keyCol != .U32 ||
          catalog.columnRows q.keyCol != n then
        some .NEEDS_EXCLUSIVE
      else
        let keys ← catalog.hostBytes q.keyCol
        let out ← reduceGrouped ty q keys vals n none
        some (.SERVED out)
    else
      let result ← reduceScalar ty q vals n
      some (.SERVED [result])

/-- Only a served query is timed here. -/
def executeQueryShared (catalog : Catalog κ) (ns : UInt64)
    (q : MatrixQuery) : Option (ReadOutcome × Catalog κ) := do
  let outcome ← catalog.executeQuerySharedImpl q
  match outcome with
  | .SERVED _ => some (outcome, catalog.recordQueryLatency ns)
  | .NEEDS_EXCLUSIVE => some (outcome, catalog)

end Catalog

end MatrixDB
