import MatrixDB.Catalog.Ingest

/-!
# Query strings beyond the parser (`compute_mock.cpp`)

Averages, rankings, `HAVING`, several aggregates at once, projections and
distinct counts.  Each of them rewrites the string, hands it to `parse_query`
and runs the outcome, once or twice; `ns` gives the time each run takes.  An
empty result stands for every kind of failure.
-/

namespace MatrixDB

open Lib CostArith

/-- `cmp_u64`. -/
def cmpU64 (cmp : MatrixCmp) (v a b : UInt64) : Bool :=
  predMatch v { cmp := cmp, a := a, b := b : Predicate UInt64 }

/-- The groups with their aggregates. -/
def numbered (out : List UInt64) : List (UInt64 × UInt64) :=
  out.zipIdx.map fun (value, g) => (UInt64.ofNat g, value)

/-- Groups by value, the largest first.  The source leaves the order of equal
values open; here the smaller group comes first. -/
def partialSort (k : Nat) (pairs : List (UInt64 × UInt64)) :
    List (UInt64 × UInt64) :=
  (pairs.mergeSort fun a b => decide (b.2 ≤ a.2)).take k

/-- `SUM` over `COUNT`, both encoded as the column's type has it. -/
def averageOf (ty : MatrixType) (sum count : UInt64) : Float :=
  let total : Float :=
    match ty with
    | .F64 => Float.ofBits sum
    | .I64 => sum.toInt64.toFloat
    | .U32 => sum.toFloat
  let rows : Float :=
    match ty with
    | .F64 => Float.ofBits count
    | _ => count.toFloat
  if rows != 0.0 then total / rows else 0.0 / 0.0

/-! ## Cutting strings -/

/-- The first position from `start` on at which a word stands. -/
def findFrom (word text : Bytes) (start : Nat) : Option Nat :=
  ((List.range (text.length + 1)).drop start).find? fun position =>
    word.isPrefixOf (text.drop position)

def trim (text : Bytes) : Bytes :=
  ((text.dropWhile isSpace).reverse.dropWhile isSpace).reverse

/-- The list of aggregates of a `SELECT` and everything behind it. -/
def splitSelect (sql : Bytes) : Option (Bytes × Bytes) :=
  let body := sql.dropWhile isSpace
  let upper := up body
  if (ascii "SELECT").isPrefixOf upper then
    let found := [" WHERE", " GROUP", " ORDER"].filterMap fun word =>
      findFrom (ascii word) upper 6
    match found.min? with
    | none => some (body.drop 6, [])
    | some tail => some ((body.take tail).drop 6, body.drop tail)
  else none

/-- The terms of a list between commas, without blanks and empty ones. -/
def selectTerms (list : Bytes) : List Bytes :=
  ((list.splitOn ','.toUInt8).map trim).filter fun term => term ≠ []

/-- The name of an aggregate. -/
def aggName (agg : MatrixAggOp) : Bytes :=
  if agg = AGG_SUM then ascii "SUM"
  else if agg = AGG_MIN then ascii "MIN"
  else if agg = AGG_MAX then ascii "MAX"
  else ascii "COUNT"

variable {κ : Type}

namespace Catalog

section
variable [CostArith κ]

/-! ## Runs of a parsed query -/

/-- The groups of a grouped query that is answered. -/
def groupsOf (catalog : Catalog κ) (ns : UInt64) (q : MatrixQuery) :
    Option (List (UInt64 × UInt64) × Catalog κ) :=
  if q.grouped then
    (catalog.executeQuery ns q).map fun (status, out, catalog) =>
      (if status = .OK then numbered out else [], catalog)
  else some ([], catalog)

def topGroups (catalog : Catalog κ) (ns : UInt64) (q : MatrixQuery)
    (k : Nat) : Option (List (UInt64 × UInt64) × Catalog κ) :=
  (catalog.groupsOf ns q).map fun (pairs, catalog) =>
    (partialSort k pairs, catalog)

def having (catalog : Catalog κ) (ns : UInt64) (q : MatrixQuery)
    (cmp : MatrixCmp) (threshold upper : UInt64) :
    Option (List (UInt64 × UInt64) × Catalog κ) :=
  (catalog.groupsOf ns q).map fun (pairs, catalog) =>
    (pairs.filter fun pair => cmpU64 cmp pair.2 threshold upper, catalog)

def average (catalog : Catalog κ) (ns : Nat → UInt64) (q : MatrixQuery) :
    Option (List Float × Catalog κ) := do
  let (status, sv, catalog) ←
    catalog.executeQuery (ns 0) { q with agg := AGG_SUM }
  if status = .OK then
    let (status, cv, catalog) ←
      catalog.executeQuery (ns 1) { q with agg := AGG_COUNT }
    let ty := catalog.columnType q.valueCol
    if status = .OK ∧ sv.length = cv.length then
      some (List.zipWith (averageOf ty) sv cv, catalog)
    else some ([], catalog)
  else some ([], catalog)

/-! ## Runs of a string -/

section
variable (strtod : Bytes → StrtodResult)

/-- `AVG` is parsed as `SUM`. -/
def avgQuery (catalog : Catalog κ) (ns : Nat → UInt64) (sql : Bytes) :
    Option (List Float × Catalog κ) :=
  match matrixparseTokenize sql with
  | first :: agg :: tokens =>
      if up agg = ascii "AVG" then do
        let (status, q, catalog) ← catalog.parseQuery strtod
          (joinTokens (first :: ascii "SUM" :: tokens))
        if status = .OK then catalog.average ns q else some ([], catalog)
      else some ([], catalog)
  | _ => some ([], catalog)

/-- The aggregates one after another; the first failure empties the result. -/
def queryTerms (ns : Nat → UInt64) (rest : Bytes) :
    List Bytes → List (List UInt64) → Catalog κ →
      Option (List (List UInt64) × Catalog κ)
  | [], results, catalog => some (results, catalog)
  | term :: terms, results, catalog => do
      let (status, q, catalog) ←
        catalog.parseQuery strtod (ascii "SELECT " ++ term ++ rest)
      if status = .OK then
        let (status, r, catalog) ←
          catalog.executeQuery (ns results.length) q
        if status = .OK then
          queryTerms ns rest terms (results ++ [r]) catalog
        else some ([], catalog)
      else some ([], catalog)

def queryMulti (catalog : Catalog κ) (ns : Nat → UInt64) (sql : Bytes) :
    Option (List (List UInt64) × Catalog κ) :=
  match splitSelect sql with
  | none => some ([], catalog)
  | some (list, rest) => queryTerms strtod ns rest (selectTerms list) [] catalog

def topQuery (catalog : Catalog κ) (ns : UInt64) (sql : Bytes) :
    Option (List (UInt64 × UInt64) × Catalog κ) := do
  let (status, q, catalog) ← catalog.parseQuery strtod sql
  if status = .OK ∧ q.grouped ∧ q.limit ≠ 0 then
    catalog.topGroups ns q q.limit.toNat
  else some ([], catalog)

/-- The tail must be `HAVING key cmp value` with nothing after it. -/
def havingQuery (catalog : Catalog κ) (ns : UInt64) (sql : Bytes) :
    Option (List (UInt64 × UInt64) × Catalog κ) :=
  let tokens := matrixparseTokenize sql
  let isHaving := fun token => up token == ascii "HAVING"
  match tokens.dropWhile fun token => !isHaving token with
  | [_, key, op, v] => do
      let head := tokens.takeWhile fun token => !isHaving token
      let (status, q, catalog) ← catalog.parseQuery strtod (joinTokens head)
      if status = .OK ∧ q.grouped ∧
          (up key = aggName q.agg ∨ catalog.columnId key = q.valueCol) then
        match cmpOf op, fromCharsU64 v with
        | some cmp, some threshold => catalog.having ns q cmp threshold 0
        | _, _ => some ([], catalog)
      else some ([], catalog)
  | _ => some ([], catalog)

end

def distinctQuery (catalog : Catalog κ) (sql : Bytes) :
    Option (Option UInt64 × Catalog κ) :=
  match matrixparseTokenize sql with
  | [select, count, left, distinct, col, right] =>
      if up select = ascii "SELECT" ∧ up count = ascii "COUNT" ∧
          left = ascii "(" ∧ up distinct = ascii "DISTINCT" ∧
          right = ascii ")" then
        let cid := catalog.columnId col
        if cid = 0 then some (none, catalog)
        else
          (catalog.countDistinct cid).map fun (result, catalog) =>
            (some result, catalog)
      else some (none, catalog)
  | _ => some (none, catalog)

end

/-! ## Projections -/

/-- Behind the column: the tokens before `LIMIT` and the limit, which must
stand at the end. -/
def splitLimit (tokens : List Bytes) : Option (List Bytes × UInt64) :=
  let isLimit := fun token => up token == ascii "LIMIT"
  match tokens.dropWhile fun token => !isLimit token with
  | [] => some (tokens, 0)
  | [_, n] =>
      (fromCharsU64 n).map fun limit =>
        (tokens.takeWhile fun token => !isLimit token, limit)
  | _ => none

/-- The filter of a projection, parsed as that of a `COUNT`. -/
def projectFiltered (strtod : Bytes → StrtodResult) (catalog : Catalog κ)
    (colId : UInt64) (fcol : Bytes) (region : List Bytes) (limit : UInt64) :
    Option (List UInt64 × Catalog κ) :=
  let fcolId := catalog.columnId fcol
  if fcolId = 0 ∨ catalog.columnType fcolId ≠ .U32 then some ([], catalog)
  else do
    let (status, q, catalog) ← catalog.parseQuery strtod
      (joinTokens (ascii "SELECT" :: ascii "COUNT" :: ascii "(" :: fcol ::
        ascii ")" :: region))
    if status = .OK ∧ q.hasFilter ∧
        catalog.columnRows fcolId = catalog.columnRows colId then
      catalog.project colId true fcolId q.pred limit
    else some ([], catalog)

def projectQuery (strtod : Bytes → StrtodResult) (catalog : Catalog κ)
    (sql : Bytes) : Option (List UInt64 × Catalog κ) :=
  match matrixparseTokenize sql with
  | select :: col :: tokens =>
      let colId := catalog.columnId col
      if up select ≠ ascii "SELECT" ∨ (next tokens).1 = ascii "(" ∨
          colId = 0 then
        some ([], catalog)
      else
        match splitLimit tokens with
        | none => some ([], catalog)
        | some ([], limit) =>
            catalog.project colId false 0 { cmp := .GT, a := 0, b := 0 } limit
        | some (first :: region, limit) =>
            -- The filter column is the token behind `WHERE`, wherever the
            -- region ends.
            match tokens with
            | _ :: fcol :: _ =>
                if up first = ascii "WHERE" then
                  catalog.projectFiltered strtod colId fcol
                    (first :: region) limit
                else some ([], catalog)
            | _ => some ([], catalog)
  | _ => some ([], catalog)

end Catalog

end MatrixDB
