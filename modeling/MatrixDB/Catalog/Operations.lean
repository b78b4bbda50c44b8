import MatrixDB.Catalog.Growing

/-!
# The public calls of the analytical half

`CatalogCall` has a constructor for every public call of the CPU build that
loads, changes or reads columns and whose result does not show the tiers.
Beside the catalog the engine has plain string columns and named tables, which
these calls also reach.
-/

namespace MatrixDB

open Lib CostArith

/-- The catalog with the two stores beside it. -/
structure Analytics (κ : Type) where
  catalog : Catalog κ
  stringColumns : IdMap (List Bytes)
  tables : NameMap (List UInt64)

variable {κ : Type}

namespace Analytics

def fresh (hostCap : Nat) : Analytics κ :=
  { catalog := .fresh hostCap, stringColumns := ∅, tables := ∅ }

/-! ## Plain string columns and tables -/

def loadStringColumn (engine : Analytics κ) (id : UInt64)
    (data : List Bytes) : Option (Analytics κ) :=
  if id = 0 then none
  else
    some { engine with
      stringColumns := engine.stringColumns.insert id data }

def stringColumnRows (engine : Analytics κ) (id : UInt64) : Nat :=
  match engine.stringColumns.lookup id with
  | none => 0
  | some data => data.length

def stringCountWhereEq (engine : Analytics κ) (id : UInt64) (value : Bytes) :
    UInt64 :=
  match engine.stringColumns.lookup id with
  | none => 0
  | some data => UInt64.ofNat (data.count value)

def stringColumnAt (engine : Analytics κ) (id : UInt64) (row : Nat) :
    Option Bytes :=
  (engine.stringColumns.lookup id).bind fun data => data[row]?

/-- A table is a list of registered columns with the same number of rows. -/
def createTable (engine : Analytics κ) (name : Bytes) (colIds : List UInt64) :
    Bool × Analytics κ :=
  match colIds with
  | [] => (false, engine)
  | first :: _ =>
      if colIds.all fun id => engine.catalog.catalogHas id &&
          engine.catalog.columnRows id == engine.catalog.columnRows first then
        (true, { engine with tables := engine.tables.insert name colIds })
      else (false, engine)

end Analytics

/-! ## Calls -/

inductive CatalogCall where
  | loadScanColumn (id : UInt64) (data : List UInt32)
  | loadScanColumnI64 (id : UInt64) (data : List Int64)
  | loadScanColumnF64 (id : UInt64) (data : List UInt64)
  | loadStringColumn (id : UInt64) (data : List Bytes)
  | loadStringColumnDict (id : UInt64) (data : List Bytes)
  | loadColumnFromFile (id : UInt64) (file : Bytes)
  | loadColumnFromCsv (id : UInt64) (source : Catalog.CsvSource)
  | loadColumnFromCsvI64 (id : UInt64) (source : Catalog.CsvSource)
  | loadColumnFromCsvF64 (id : UInt64) (source : Catalog.CsvSource)
  | loadStringColumnFromCsv (id : UInt64) (source : Catalog.CsvSource)
  | loadCatalog (file : Option Bytes)
  | appendToColumn (id : UInt64) (data : List UInt32)
  | appendToColumnI64 (id : UInt64) (data : List Int64)
  | appendToColumnF64 (id : UInt64) (data : List UInt64)
  | setColumnNulls (id : UInt64) (isNull : Bytes)
  | nameColumn (id : UInt64) (name : Bytes)
  | createTable (name : Bytes) (colIds : List UInt64)
  | setMaxQueryGroups (groups : UInt32)
  | executeQuery (q : MatrixQuery)
  | parseQuery (sql : Bytes)
  | executeScan (colId : UInt64) (threshold : UInt32) (op : MatrixAggOp)
  | groupedAggregate (keyId valueId : UInt64) (numGroups : UInt32)
      (op : MatrixAggOp)
  | groupedAggregatePred (keyId valueId : UInt64) (numGroups : UInt32)
      (op : MatrixAggOp) (pred : MatrixPredicate)
  | groupedAggregateWhere (keyId valueId : UInt64) (numGroups : UInt32)
      (op : MatrixAggOp) (threshold : UInt32)
  | groupedAggregateI64 (q : MatrixQuery)
  | groupedAggregateF64 (q : MatrixQuery)
  | hashJoin (leftKeyId rightKeyId : UInt64)
  | hashJoinCount (leftKeyId rightKeyId : UInt64)
  | hashJoinI64 (leftKeyId rightKeyId : UInt64)
  | gather (colId : UInt64) (rows : List UInt64)
  | matchingRows (filterCol : UInt64) (pred : MatrixPredicate)
      (limit : UInt64)
  | project (colId : UInt64) (hasFilter : Bool) (filterCol : UInt64)
      (pred : MatrixPredicate) (limit : UInt64)
  | countDistinct (colId : UInt64)
  | saveColumn (id : UInt64)
  | topGroups (q : MatrixQuery) (k : Nat)
  | having (q : MatrixQuery) (cmp : MatrixCmp) (threshold upper : UInt64)
  | average (q : MatrixQuery)
  | avgQuery (sql : Bytes)
  | queryMulti (sql : Bytes)
  | topQuery (sql : Bytes)
  | havingQuery (sql : Bytes)
  | distinctQuery (sql : Bytes)
  | projectQuery (sql : Bytes)
  | stringColumnRows (id : UInt64)
  | stringCountWhereEq (id : UInt64) (value : Bytes)
  | stringColumnAt (id : UInt64) (row : Nat)

/-- What a call returns. -/
inductive CallResult where
  | done
  | flag (ok : Bool)
  | word (value : UInt64)
  | words (values : List UInt64)
  | rows (count : Nat)
  | bytes (content : Bytes)
  | pairs (values : List (UInt64 × UInt64))
  | averages (values : List Float)
  | results (values : List (List UInt64))
  | distinct (value : Option UInt64)
  | answer (status : MatrixQueryStatus) (out : List UInt64)
  | parsed (status : MatrixQueryStatus) (q : MatrixQuery)

namespace Analytics

/-- The catalog after a call of its own. -/
def withCatalog {A : Type} (engine : Analytics κ) (wrap : A → CallResult)
    (call : Option (A × Catalog κ)) : Option (CallResult × Analytics κ) :=
  call.map fun (result, catalog) => (wrap result, { engine with catalog })

/-- A call that returns nothing. -/
def thenCatalog (engine : Analytics κ) (call : Option (Catalog κ)) :
    Option (CallResult × Analytics κ) :=
  engine.withCatalog (fun _ : Unit => .done)
    (call.map fun catalog => ((), catalog))

end Analytics

namespace CatalogCall

section
variable [CostArith κ]

/-- One call; `ns` gives the time each query in it takes, `none` is an
abort. -/
def run (strtod : Bytes → StrtodResult) (ns : Nat → UInt64)
    (engine : Analytics κ) :
    CatalogCall → Option (CallResult × Analytics κ)
  | .loadScanColumn id data =>
      engine.thenCatalog (engine.catalog.loadScanColumn id data)
  | .loadScanColumnI64 id data =>
      engine.thenCatalog (engine.catalog.loadScanColumnI64 id data)
  | .loadScanColumnF64 id data =>
      engine.thenCatalog (engine.catalog.loadScanColumnF64 id data)
  | .loadStringColumn id data =>
      (engine.loadStringColumn id data).map fun engine => (.done, engine)
  | .loadStringColumnDict id data =>
      engine.thenCatalog (engine.catalog.loadStringColumnDict id data)
  | .loadColumnFromFile id file =>
      engine.thenCatalog (engine.catalog.loadColumnFromFile id file)
  | .loadColumnFromCsv id source =>
      engine.withCatalog .flag (engine.catalog.loadColumnFromCsv id source)
  | .loadColumnFromCsvI64 id source =>
      engine.withCatalog .flag (engine.catalog.loadColumnFromCsvI64 id source)
  | .loadColumnFromCsvF64 id source =>
      engine.withCatalog .flag
        (engine.catalog.loadColumnFromCsvF64 strtod id source)
  | .loadStringColumnFromCsv id source =>
      engine.withCatalog .flag
        (engine.catalog.loadStringColumnFromCsv id source)
  | .loadCatalog none => some (.flag false, engine)
  | .loadCatalog (some file) =>
      engine.withCatalog .flag (engine.catalog.loadCatalog file)
  | .appendToColumn id data =>
      engine.thenCatalog (engine.catalog.appendToColumn id data)
  | .appendToColumnI64 id data =>
      engine.thenCatalog (engine.catalog.appendToColumnI64 id data)
  | .appendToColumnF64 id data =>
      engine.thenCatalog (engine.catalog.appendToColumnF64 id data)
  | .setColumnNulls id isNull =>
      engine.thenCatalog (engine.catalog.setColumnNulls id isNull)
  | .nameColumn id name =>
      engine.thenCatalog (engine.catalog.nameColumn id name)
  | .createTable name colIds =>
      let (ok, engine) := engine.createTable name colIds
      some (.flag ok, engine)
  | .setMaxQueryGroups groups =>
      engine.thenCatalog (some (engine.catalog.setMaxQueryGroups groups))
  | .executeQuery q =>
      (engine.catalog.executeQuery (ns 0) q).map
        fun (status, out, catalog) =>
          (.answer status out, { engine with catalog })
  | .parseQuery sql =>
      (engine.catalog.parseQuery strtod sql).map fun (status, q, catalog) =>
        (.parsed status q, { engine with catalog })
  | .executeScan colId threshold op =>
      engine.withCatalog .word (engine.catalog.executeScan colId threshold op)
  | .groupedAggregate keyId valueId numGroups op =>
      engine.withCatalog .words (engine.catalog.groupedAggregate
        { valueCol := valueId, keyCol := keyId, numGroups := numGroups
          agg := op })
  | .groupedAggregatePred keyId valueId numGroups op pred =>
      engine.withCatalog .words (engine.catalog.groupedAggregatePred keyId
        valueId numGroups op pred)
  | .groupedAggregateWhere keyId valueId numGroups op threshold =>
      engine.withCatalog .words (engine.catalog.groupedAggregateWhere keyId
        valueId numGroups op threshold)
  | .groupedAggregateI64 q =>
      engine.withCatalog .words (engine.catalog.groupedAggregateI64 q)
  | .groupedAggregateF64 q =>
      engine.withCatalog .words (engine.catalog.groupedAggregateF64 q)
  | .hashJoin leftKeyId rightKeyId =>
      engine.withCatalog .pairs (engine.catalog.hashJoin leftKeyId rightKeyId)
  | .hashJoinCount leftKeyId rightKeyId =>
      engine.withCatalog .word
        (engine.catalog.hashJoinCount leftKeyId rightKeyId)
  | .hashJoinI64 leftKeyId rightKeyId =>
      engine.withCatalog .pairs
        (engine.catalog.hashJoinI64 leftKeyId rightKeyId)
  | .gather colId rows =>
      engine.withCatalog .words (engine.catalog.gather colId rows)
  | .matchingRows filterCol pred limit =>
      engine.withCatalog .words
        (engine.catalog.matchingRows filterCol pred limit)
  | .project colId hasFilter filterCol pred limit =>
      engine.withCatalog .words
        (engine.catalog.project colId hasFilter filterCol pred limit)
  | .countDistinct colId =>
      engine.withCatalog .word (engine.catalog.countDistinct colId)
  | .saveColumn id => engine.withCatalog .bytes (engine.catalog.saveColumn id)
  | .topGroups q k =>
      engine.withCatalog .pairs (engine.catalog.topGroups (ns 0) q k)
  | .having q cmp threshold upper =>
      engine.withCatalog .pairs
        (engine.catalog.having (ns 0) q cmp threshold upper)
  | .average q => engine.withCatalog .averages (engine.catalog.average ns q)
  | .avgQuery sql =>
      engine.withCatalog .averages (engine.catalog.avgQuery strtod ns sql)
  | .queryMulti sql =>
      engine.withCatalog .results (engine.catalog.queryMulti strtod ns sql)
  | .topQuery sql =>
      engine.withCatalog .pairs (engine.catalog.topQuery strtod (ns 0) sql)
  | .havingQuery sql =>
      engine.withCatalog .pairs (engine.catalog.havingQuery strtod (ns 0) sql)
  | .distinctQuery sql =>
      engine.withCatalog .distinct (engine.catalog.distinctQuery sql)
  | .projectQuery sql =>
      engine.withCatalog .words (engine.catalog.projectQuery strtod sql)
  | .stringColumnRows id => some (.rows (engine.stringColumnRows id), engine)
  | .stringCountWhereEq id value =>
      some (.word (engine.stringCountWhereEq id value), engine)
  | .stringColumnAt id row =>
      (engine.stringColumnAt id row).map fun value => (.bytes value, engine)

end

end CatalogCall

end MatrixDB
