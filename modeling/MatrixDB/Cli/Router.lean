import MatrixDB.Cli.JoinLines

/-!
# The router of the shell (`matrix_cli.hpp`)

`matrix_cli_run_sql` looks for words in a line, the first that it finds deciding
what the line is, and hands it to the executor for that.  A run returns the
lines that it prints, and is nothing when the shell would abort.
-/

namespace MatrixDB

open Lib CostArith

/-- What a line is taken for; a `HAVING` is cut where the word begins. -/
inductive CliRoute where
  | join
  | distinct
  | having (cut : Nat)
  | average
  | multi
  | single
  | projection
  deriving DecidableEq

/-- The first word that is found decides. -/
def routeOf (line : Bytes) : CliRoute :=
  if has " JOIN " (up line) then .join
  else if has "DISTINCT" (up line) then .distinct
  else
    match findFrom (ascii "HAVING") (up line) 0 with
    | some cut => .having cut
    | none =>
        if has "AVG(" (up line) then .average
        else if isMultiAggregate line then .multi
        else if line.contains '('.toUInt8 then .single
        else .projection

variable {κ : Type} [CostArith κ]

namespace Catalog

section
variable (strtod : Bytes → StrtodResult) (printDouble : UInt64 → Bytes)
  (catalog : Catalog κ) (ns : Nat → UInt64)

def runDistinct (line : Bytes) : Option (List CliLine × Catalog κ) := do
  let (n, catalog) ← catalog.distinctQuery line
  match n with
  | some n => some ([.row [decimal n.toNat]], catalog)
  | none =>
      failure (ascii "could not run COUNT(DISTINCT) query") catalog

/-- The line before its first `HAVING` says how the groups are printed. -/
def runHaving (line : Bytes) (cut : Nat) :
    Option (List CliLine × Catalog κ) := do
  let (status, q, catalog) ← catalog.parseQuery strtod (line.take cut)
  if status = .OK then
    let (groups, catalog) ← catalog.havingQuery strtod (ns 0) line
    some (groups.map (catalog.groupRow printDouble q), catalog)
  else failure (ascii "could not parse HAVING query") catalog

/-- Averages of groups are printed behind the numbers of the groups. -/
def runAverage (line : Bytes) : Option (List CliLine × Catalog κ) := do
  let (averages, catalog) ← catalog.avgQuery strtod ns line
  match averages with
  | [] => failure (ascii "could not run AVG query") catalog
  | [average] => some ([.row [printDouble average.toBits]], catalog)
  | averages =>
      some (averages.zipIdx.map fun (average, g) =>
        .row [decimal g, printDouble average.toBits], catalog)

/-- A row for a group of the first aggregate, with the value that every one of
them has there. -/
def multiRow (key : UInt64) (columns : List AggregateColumn) (g : Nat) :
    Option CliLine :=
  (columns.mapM fun column =>
    column.result[g]?.map (catalog.decodeAgg printDouble column.query)).map
    fun values => .row (catalog.groupLabel key (UInt64.ofNat g) :: values)

def runMulti (line : Bytes) : Option (List CliLine × Catalog κ) := do
  let (list, tail) := cutLine line
  let (columns, catalog) ←
    runTerms strtod ns tail (lineTerms list) [] catalog
  match columns with
  | none =>
      failure (ascii "could not run multi-aggregate query") catalog
  | some [] => failure (ascii "empty SELECT list") catalog
  | some (first :: others) =>
      let columns := first :: others
      let labels := columns.map AggregateColumn.label
      if first.query.grouped then
        let rows ← (List.range first.result.length).mapM
          (catalog.multiRow printDouble first.query.keyCol columns)
        some (.row (ascii "key" :: labels) :: rows, catalog)
      else
        let values := columns.map fun column =>
          catalog.decodeAgg printDouble column.query
            (column.result.headD 0)
        some ([.row labels, .row values], catalog)

def runSingle (line : Bytes) : Option (List CliLine × Catalog κ) := do
  let (status, q, catalog) ← catalog.parseQuery strtod line
  if status = .OK then
    let (status, o, catalog) ← catalog.executeQuery (ns 0) q
    if status = .OK then
      if q.grouped ∧ q.limit ≠ 0 then
        let (groups, catalog) ← catalog.topQuery strtod (ns 1) line
        some (groups.map (catalog.groupRow printDouble q), catalog)
      else if q.grouped then
        some ((numbered o).map (catalog.groupRow printDouble q), catalog)
      else
        let value := o.head?.map (catalog.decodeAgg printDouble q)
        some ([.row [value.getD []]], catalog)
    else failure (ascii "query rejected") catalog
  else failure (ascii "could not parse query") catalog

/-- At most a hundred values are shown. -/
def runProjection (mode : OutMode) (line : Bytes) :
    Option (List CliLine × Catalog κ) :=
  let pcol :=
    match splitWs line with
    | _ :: name :: _ => catalog.columnId name
    | _ => 0
  if pcol = 0 then
    failure (ascii "could not run query (unknown column?)") catalog
  else do
    let (o, catalog) ← catalog.projectQuery strtod line
    let rows := (o.take 100).map fun v =>
      CliLine.row [catalog.decodeProj printDouble pcol v]
    some (rows ++ moreNote mode o.length "rows" 100, catalog)

/-- `matrix_cli_run_sql`. -/
def runSql (mode : OutMode) (line : Bytes) :
    Option (List CliLine × Catalog κ) :=
  match routeOf line with
  | .join => catalog.runJoin printDouble strtod mode line
  | .distinct => catalog.runDistinct line
  | .having cut => catalog.runHaving strtod printDouble ns line cut
  | .average => catalog.runAverage strtod printDouble ns line
  | .multi => catalog.runMulti strtod printDouble ns line
  | .single => catalog.runSingle strtod printDouble ns line
  | .projection => catalog.runProjection strtod printDouble mode line

end

end Catalog

end MatrixDB
