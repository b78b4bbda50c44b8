import MatrixDB.Query.Strings

/-!
# Several aggregates in the shell (`matrix_cli.hpp`)

The shell cuts a line into a list of aggregates and a tail by itself, and runs
each aggregate with the tail.
-/

namespace MatrixDB

open Lib CostArith

/-- The characters that the shell trims. -/
def isCliBlank (c : UInt8) : Bool := c == 32 || c == 9 || c == 13 || c == 10

/-- `matrixcli_detail::trim`. -/
def cliTrim (s : Bytes) : Bytes :=
  ((s.dropWhile isCliBlank).reverse.dropWhile isCliBlank).reverse

/-- Lines that are taken for several aggregates. -/
def isMultiAggregate (line : Bytes) : Bool :=
  (ascii "SELECT").isPrefixOf (up line) && line.contains '('.toUInt8 &&
    line.contains ','.toUInt8

/-- The list behind the `SELECT` of a line, and its tail. -/
def cutLine (line : Bytes) : Bytes × Bytes :=
  let found := [" WHERE", " GROUP", " ORDER"].filterMap fun word =>
    findFrom (ascii word) (up line) 0
  match found.min? with
  | none => (line.drop 6, [])
  | some cut => ((line.take cut).drop 6, line.drop cut)

def lineTerms (list : Bytes) : List Bytes :=
  ((list.splitOn ','.toUInt8).map cliTrim).filter fun term => term ≠ []

/-- One aggregate of a line, with its result. -/
structure AggregateColumn where
  query : MatrixQuery
  result : List UInt64
  label : Bytes

variable {κ : Type} [CostArith κ]

namespace Catalog

/-- The aggregates one after another; the first failure is an error. -/
def runTerms (strtod : Bytes → StrtodResult) (ns : Nat → UInt64)
    (tail : Bytes) : List Bytes → List AggregateColumn → Catalog κ →
      Option (Option (List AggregateColumn) × Catalog κ)
  | [], columns, catalog => some (some columns, catalog)
  | term :: terms, columns, catalog => do
      let (status, q, catalog) ←
        catalog.parseQuery strtod (ascii "SELECT " ++ term ++ tail)
      if status = .OK then
        let (status, r, catalog) ←
          catalog.executeQuery (ns columns.length) q
        if status = .OK then
          runTerms strtod ns tail terms
            (columns ++ [{ query := q, result := r, label := term }]) catalog
        else some (none, catalog)
      else some (none, catalog)

/-- The columns of a line with several aggregates, if there is no error. -/
def multiAggregate (strtod : Bytes → StrtodResult) (catalog : Catalog κ)
    (ns : Nat → UInt64) (line : Bytes) :
    Option (Option (List AggregateColumn) × Catalog κ) := do
  let (list, tail) := cutLine line
  let (columns, catalog) ←
    runTerms strtod ns tail (lineTerms list) [] catalog
  some (columns.filter fun columns => columns ≠ [], catalog)

end Catalog

end MatrixDB
