import MatrixDB.Catalog.Snapshot
import MatrixDB.Query.Tokens

/-!
# `parse_query` (`compute_mock.cpp`)

The parser reads the names, types and dictionaries of the catalog, and for
`GROUP BY` the data of the key column, which it borrows for the scan.  Each
clause is a function from the tokens that are left; whatever a clause had set
when a later one fails is lost, since an error resets the query.
-/

namespace MatrixDB

open Lib

variable {κ : Type}

namespace Catalog

/-! ## Names and strings -/

/-- Zero if there is no such name. -/
def columnId (catalog : Catalog κ) (name : Bytes) : UInt64 :=
  (catalog.nameToId.lookup name).getD 0

def stringDictSize (catalog : Catalog κ) (id : UInt64) : UInt32 :=
  match catalog.stringDicts.lookup id with
  | none => 0
  | some dict => UInt32.ofNat dict.length

def stringDecode (catalog : Catalog κ) (id : UInt64) (code : UInt32) :
    Bytes :=
  match catalog.stringDicts.lookup id with
  | none => []
  | some dict => dict.getD code.toNat []

/-- An absent string is given a code that no row holds. -/
def stringEncode (catalog : Catalog κ) (id : UInt64) (value : Bytes) :
    UInt32 :=
  match catalog.stringEncoders.lookup id with
  | none => 0
  | some encoder =>
      (encoder.lookup value).getD (UInt32.ofNat encoder.keys.length)

/-- Reduce one column, borrowed without any heat for it. -/
def withLoan {A : Type} (catalog : Catalog κ) (id : UInt64)
    (reduce : Catalog κ → Option A) : Option (A × Catalog κ) := do
  let (home, lent) ← catalog.borrow id
  let result ← reduce lent
  let catalog ← lent.giveBack id home
  some (result, catalog)

/-- The largest key and one more, unless that does not fit. -/
def deriveNumGroupsU32 (catalog : Catalog κ) (kid : UInt64) :
    Option (UInt32 × Catalog κ) :=
  catalog.withLoan kid fun catalog => do
    let bytes ← catalog.hostBytes kid
    let n := catalog.sizeBytes kid / 4
    let keys ← u32Rows n bytes
    let mx := matrixCpuReduceAll keys n AGG_MAX
    some (if n = 0 then 0
      else if 0xFFFFFFFF ≤ mx then 0xFFFFFFFF
      else (mx + 1).toUInt32)

end Catalog

/-! ## Clauses -/

/-- The next token must be a keyword. -/
def expect (word : String) (tokens : List Bytes) :
    Except MatrixQueryStatus (List Bytes) :=
  if up (next tokens).1 = ascii word then .ok (next tokens).2
  else .error .ERR_PARSE

/-- The next token must be a parenthesis. -/
def expectParen (paren : String) (tokens : List Bytes) :
    Except MatrixQueryStatus (List Bytes) :=
  if (next tokens).1 = ascii paren then .ok (next tokens).2
  else .error .ERR_PARSE

def aggOf (aggs : Bytes) : Except MatrixQueryStatus MatrixAggOp :=
  if aggs = ascii "COUNT" then .ok AGG_COUNT
  else if aggs = ascii "SUM" then .ok AGG_SUM
  else if aggs = ascii "MIN" then .ok AGG_MIN
  else if aggs = ascii "MAX" then .ok AGG_MAX
  else .error .ERR_PARSE

/-- A comparison sign, other than `BETWEEN`. -/
def cmpOf (ops : Bytes) : Option MatrixCmp :=
  if ops = ascii ">" then some .GT
  else if ops = ascii ">=" then some .GE
  else if ops = ascii "<" then some .LT
  else if ops = ascii "<=" then some .LE
  else if ops = ascii "=" then some .EQ
  else if ops = ascii "!=" then some .NE
  else none

/-- `set_bound`: a literal of the column's type into the field for it. -/
def setBound (strtod : Bytes → StrtodResult) (ty : MatrixType)
    (q : MatrixQuery) (lo : Bool) (v : Bytes) :
    Except MatrixQueryStatus MatrixQuery :=
  if v = [] then .error .ERR_PARSE
  else
    match ty with
    | .F64 =>
        let read := strtod v
        if read.consumed ≠ v.length ∨ read.erange then .error .ERR_PARSE
        else if lo then .ok { q with loF64 := read.value }
        else .ok { q with hiF64 := read.value }
    | .I64 =>
        match fromCharsI64 v with
        | none => .error .ERR_PARSE
        | some x =>
            if lo then .ok { q with loI64 := x } else .ok { q with hiI64 := x }
    | .U32 =>
        match fromCharsU32 v with
        | none => .error .ERR_PARSE
        | some x =>
            if lo then .ok { q with threshold := x }
            else .ok { q with upper := x }

/-- The predicate on a numeric column, behind its operator. -/
def parseNumericFilter (strtod : Bytes → StrtodResult) (ty : MatrixType)
    (ops : Bytes) (q : MatrixQuery) (tokens : List Bytes) :
    Except MatrixQueryStatus (MatrixQuery × List Bytes) :=
  if ops = ascii "BETWEEN" then do
    let q ← setBound strtod ty { q with cmp := .BETWEEN } true
      (next tokens).1
    let tokens ← expect "AND" (next tokens).2
    let q ← setBound strtod ty q false (next tokens).1
    .ok (q, (next tokens).2)
  else
    match cmpOf ops with
    | none => .error .ERR_PARSE
    | some cmp => do
        let q ← setBound strtod ty { q with cmp := cmp } true (next tokens).1
        .ok (q, (next tokens).2)

namespace Catalog

/-- The predicate on a column of string codes: the dictionary is sorted, so
an order of strings is an order of codes. -/
def parseDictFilter (catalog : Catalog κ) (pcol : UInt64) (dict : List Bytes)
    (ops : Bytes) (q : MatrixQuery) (tokens : List Bytes) :
    Except MatrixQueryStatus (MatrixQuery × List Bytes) :=
  if ops = ascii "BETWEEN" then do
    let lo := unquote (next tokens).1
    let tokens ← expect "AND" (next tokens).2
    let u := upperBound dict (unquote (next tokens).1)
    .ok ({ q with
            cmp := .BETWEEN
            threshold := lowerBound dict lo
            upper := if u = 0 then 0 else u - 1 }, (next tokens).2)
  else if ops = ascii "=" ∨ ops = ascii "!=" then
    let lit := (next tokens).1
    if lit = [] then .error .ERR_PARSE
    else
      .ok ({ q with
              cmp := if ops = ascii "=" then .EQ else .NE
              threshold := catalog.stringEncode pcol (unquote lit) },
        (next tokens).2)
  else
    let x := unquote (next tokens).1
    let found := fun (cmp : MatrixCmp) (code : UInt32) =>
      .ok ({ q with cmp := cmp, threshold := code }, (next tokens).2)
    if x = [] then .error .ERR_PARSE
    else if ops = ascii ">" then found .GE (upperBound dict x)
    else if ops = ascii ">=" then found .GE (lowerBound dict x)
    else if ops = ascii "<" then found .LT (lowerBound dict x)
    else if ops = ascii "<=" then found .LT (upperBound dict x)
    else .error .ERR_PARSE

/-- `SELECT agg ( col )`, with the aggregate as it was written. -/
def parseSelect (catalog : Catalog κ) (tokens : List Bytes) :
    Except MatrixQueryStatus (Bytes × MatrixQuery × List Bytes) := do
  let tokens ← expect "SELECT" tokens
  let aggs := up (next tokens).1
  let agg ← aggOf aggs
  let tokens ← expectParen "(" (next tokens).2
  let vid := catalog.columnId (next tokens).1
  let tokens ← expectParen ")" (next tokens).2
  if vid = 0 then .error .ERR_UNKNOWN_COLUMN
  else .ok (aggs, { valueCol := vid, agg := agg }, tokens)

/-- An optional `WHERE`; only a `uint32` column filters another one. -/
def parseWhere (strtod : Bytes → StrtodResult) (catalog : Catalog κ)
    (q : MatrixQuery) (tokens : List Bytes) :
    Except MatrixQueryStatus (MatrixQuery × List Bytes) :=
  if peek tokens = ascii "WHERE" then
    let tokens := (next tokens).2
    let fcol := catalog.columnId (next tokens).1
    let tokens := (next tokens).2
    if fcol = 0 then .error .ERR_UNKNOWN_COLUMN
    else if fcol ≠ q.valueCol ∧ catalog.columnType fcol ≠ .U32 then
      .error .ERR_PARSE
    else
      let ops := up (next tokens).1
      let q := { q with
        filterCol := if fcol = q.valueCol then 0 else fcol
        hasFilter := true }
      match catalog.stringDicts.lookup fcol with
      | some dict =>
          catalog.parseDictFilter fcol dict ops q (next tokens).2
      | none =>
          parseNumericFilter strtod (catalog.columnType fcol) ops q
            (next tokens).2
  else .ok (q, tokens)

/-- The key column of a `GROUP BY`. -/
def parseKey (catalog : Catalog κ) (tokens : List Bytes) :
    Except MatrixQueryStatus (UInt64 × List Bytes) := do
  let tokens ← expect "BY" tokens
  let kid := catalog.columnId (next tokens).1
  if kid = 0 then .error .ERR_UNKNOWN_COLUMN
  else if catalog.columnType kid ≠ .U32 then .error .ERR_PARSE
  else .ok (kid, (next tokens).2)

/-- An optional `GROUP BY`, the one clause that reads data. -/
def parseGroup (catalog : Catalog κ) (q : MatrixQuery)
    (tokens : List Bytes) :
    Option (Except MatrixQueryStatus (MatrixQuery × List Bytes) ×
      Catalog κ) :=
  if peek tokens = ascii "GROUP" then
    match catalog.parseKey (next tokens).2 with
    | .error status => some (.error status, catalog)
    | .ok (kid, tokens) =>
        (catalog.deriveNumGroupsU32 kid).map fun (groups, catalog) =>
          (.ok ({ q with
                  grouped := true
                  keyCol := kid
                  numGroups := groups }, tokens), catalog)
  else some (.ok (q, tokens), catalog)

/-- An optional `ORDER BY ... DESC LIMIT n`, after a `GROUP BY` only. -/
def parseOrder (catalog : Catalog κ) (aggs : Bytes) (q : MatrixQuery)
    (tokens : List Bytes) :
    Except MatrixQueryStatus (MatrixQuery × List Bytes) :=
  if peek tokens = ascii "ORDER" then do
    let tokens ← expect "BY" (next tokens).2
    if q.grouped then
      let sortraw := (next tokens).1
      if up sortraw ≠ aggs ∧ catalog.columnId sortraw ≠ q.valueCol then
        .error .ERR_PARSE
      else do
        let tokens ← expect "DESC" (next tokens).2
        let tokens ← expect "LIMIT" tokens
        match fromCharsU64 (next tokens).1 with
        | none => .error .ERR_PARSE
        | some n =>
            if n = 0 then .error .ERR_PARSE
            else .ok ({ q with limit := n }, (next tokens).2)
    else .error .ERR_PARSE
  else .ok (q, tokens)

/-- Nothing may follow the last clause. -/
def parseEnd (parsed : MatrixQuery × List Bytes) :
    Except MatrixQueryStatus MatrixQuery :=
  if parsed.2 = [] then .ok parsed.1 else .error .ERR_PARSE

/-! ## The parser -/

/-- The clauses before `GROUP BY`. -/
def parseHead (strtod : Bytes → StrtodResult) (catalog : Catalog κ)
    (sql : Bytes) :
    Except MatrixQueryStatus (Bytes × MatrixQuery × List Bytes) := do
  let (aggs, q, tokens) ← catalog.parseSelect (matrixparseTokenize sql)
  let (q, tokens) ← catalog.parseWhere strtod q tokens
  .ok (aggs, q, tokens)

/-- The clauses after `GROUP BY`. -/
def parseTail (catalog : Catalog κ) (aggs : Bytes)
    (parsed : MatrixQuery × List Bytes) :
    Except MatrixQueryStatus MatrixQuery := do
  let parsed ← catalog.parseOrder aggs parsed.1 parsed.2
  parseEnd parsed

def parseQueryImpl (strtod : Bytes → StrtodResult) (catalog : Catalog κ)
    (sql : Bytes) :
    Option (Except MatrixQueryStatus MatrixQuery × Catalog κ) :=
  match catalog.parseHead strtod sql with
  | .error status => some (.error status, catalog)
  | .ok (aggs, q, tokens) =>
      (catalog.parseGroup q tokens).map fun (grouped, catalog) =>
        (grouped.bind (catalog.parseTail aggs), catalog)

/-- The status, the query and the engine afterwards. -/
def parseQuery (strtod : Bytes → StrtodResult) (catalog : Catalog κ)
    (sql : Bytes) : Option (MatrixQueryStatus × MatrixQuery × Catalog κ) :=
  (catalog.parseQueryImpl strtod sql).map fun (parsed, catalog) =>
    match parsed with
    | .ok q => (.OK, q, catalog)
    | .error status => (status, {}, catalog)

end Catalog

end MatrixDB
