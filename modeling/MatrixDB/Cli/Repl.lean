import MatrixDB.Cli.Router
import MatrixDB.Server.Core

/-!
# The loop of the shell (`matrix_cli.hpp`)

`matrix_repl` reads a line, runs it, and goes on until `.quit` or the end of
the input.  It keeps an engine and a counter for the ids of the columns that
`.load` will make.  The files, the clock and the orders in which hash maps are
walked come from outside and may be different for every line.
-/

namespace MatrixDB

open Lib CostArith

/-- An order in which the entries of a hash map are walked. -/
structure Walk (A : Type) where
  order : List A → List A
  perm : ∀ entries, (order entries).Perm entries

/-- What a line meets outside the shell. -/
structure Outside where
  files : Bytes → Option Bytes
  /-- How many bytes the disk takes. -/
  room : Nat
  ns : Nat → UInt64
  micros : Nat
  ids : Walk UInt64
  names : Walk Bytes

structure ReplState (κ : Type) where
  engine : Analytics κ
  nextId : UInt64
  timing : Bool
  mode : OutMode

/-! ## Lines -/

inductive ReplLine where
  /-- A blank line or a comment. -/
  | skip
  | sql (line : Bytes)
  | command (tk : List Bytes)
  deriving DecidableEq

def replLine (raw : Bytes) : ReplLine :=
  match cliTrim raw with
  | [] => .skip
  | c :: rest =>
      if c = '#'.toUInt8 then .skip
      else if c = '.'.toUInt8 then .command (splitWs (c :: rest))
      else .sql (c :: rest)

def isQuit (raw : Bytes) : Bool :=
  match replLine raw with
  | .command (cmd :: _) => cmd == ascii ".quit" || cmd == ascii ".exit"
  | _ => false

/-- One line of text. -/
def said (text : Bytes) : Bytes := text ++ [10]

def saidError (message : Bytes) : Bytes := said (ascii "Error: " ++ message)

/-! ## Tables -/

/-- The fields between the bars of a line; the bound is its length. -/
def barFields : Nat → Bytes → List Bytes
  | 0, line => [line]
  | bound + 1, line =>
      match findFrom bar line 0 with
      | none => [line]
      | some cut => line.take cut :: barFields bound (line.drop (cut + 5))

/-- A line without a bar is no row of a table. -/
def tableCells (line : Bytes) : List Bytes :=
  if (findFrom bar line 0).isSome then barFields line.length line else []

def tableWidth (rows : List (List Bytes)) (column : Nat) : Nat :=
  rows.foldl (fun width row => max width (row[column]?.getD []).length) 0

/-- All fields but the last are padded. -/
def tableRow (width : Nat → Nat) (fields : List Bytes) : Bytes :=
  bar.intercalate (fields.zipIdx.map fun (field, column) =>
    if column + 1 < fields.length then field.rightpad (width column) 32
    else field)

/-- `align_table`. -/
def alignTable (text : Bytes) : Bytes :=
  let lines := csvLines text
  let width := tableWidth (lines.map tableCells)
  lines.flatMap fun line =>
    match tableCells line with
    | [] => said line
    | fields => said (tableRow width fields)

/-! ## Loads -/

/-- The types that `.load` knows. -/
inductive LoadType where
  | u32
  | i64
  | f64
  | str
  deriving DecidableEq, Repr

def LoadType.text : LoadType → Bytes
  | .u32 => ascii "u32"
  | .i64 => ascii "i64"
  | .f64 => ascii "f64"
  | .str => ascii "str"

def LoadType.ofText (text : Bytes) : Option LoadType :=
  [LoadType.u32, .i64, .f64, .str].find? fun type => type.text == text

structure LoadLine where
  path : Bytes
  name : Bytes
  type : LoadType
  col : Nat
  header : Bool
  deriving DecidableEq

/-- `std::from_chars` into a number that it leaves alone when there are no
digits or too many of them. -/
def fromCharsInto (old : Nat) (text : Bytes) : Nat :=
  let digits := text.takeWhile isDigit
  if digits = [] ∨ 2 ^ 64 ≤ digitsValue digits then old
  else digitsValue digits

/-- One option of a `.load`, to the column and the header flag so far. -/
def loadOption (read : Nat × Bool) (word : Bytes) : Nat × Bool :=
  if word = ascii "noheader" then (read.1, false)
  else if word = ascii "header" then (read.1, true)
  else if (ascii "col").isPrefixOf word then
    (fromCharsInto read.1 (word.drop 3), read.2)
  else read

def loadUsage : Bytes :=
  ascii ("usage: .load <csv> <name> <u32|i64|f64|str> [colN] " ++
    "[header|noheader]")

def loadLine (tk : List Bytes) : Except Bytes LoadLine :=
  match tk with
  | _ :: path :: name :: type :: options =>
      match LoadType.ofText type with
      | none =>
          .error (ascii "unknown type '" ++ type ++
            ascii "' (use u32|i64|f64|str)")
      | some type =>
          let (col, header) := options.foldl loadOption (0, true)
          .ok { path, name, type, col, header }
  | _ => .error loadUsage

def LoadLine.source (load : LoadLine) (files : Bytes → Option Bytes) :
    Catalog.CsvSource :=
  { file := files load.path, colIndex := load.col, hasHeader := load.header
    delim := ','.toUInt8 }

/-- The call that a `.load` makes. -/
def LoadLine.call (load : LoadLine) (files : Bytes → Option Bytes)
    (id : UInt64) : CatalogCall :=
  match load.type with
  | .u32 => .loadColumnFromCsv id (load.source files)
  | .i64 => .loadColumnFromCsvI64 id (load.source files)
  | .f64 => .loadColumnFromCsvF64 id (load.source files)
  | .str => .loadStringColumnFromCsv id (load.source files)

/-! ## Commands -/

def helpText : Bytes :=
  ascii ("commands: .load <csv> <name> <u32|i64|f64|str> [colN] " ++
      "[header|noheader] | .save <file> | .open <file> | " ++
      ".timing on|off | .mode list|csv|table | .tables | .columns | " ++
      ".stats | .help | .quit\n" ++
    "queries:  SELECT COUNT|SUM|MIN|MAX|AVG(col) [WHERE col <op> v] " ++
      "[GROUP BY key] [HAVING agg <op> v | ORDER BY agg DESC LIMIT n]\n" ++
    "          SELECT agg(a), agg(b) [...]  |  " ++
      "SELECT COUNT(DISTINCT col)  |  " ++
      "SELECT col [WHERE col <op> v] [LIMIT n]\n" ++
    "joins:    SELECT lcol, rcol JOIN lkey = rkey [LIMIT n]  |  " ++
      "SELECT COUNT(*) JOIN lkey = rkey\n" ++
    "          SELECT agg(lcol) JOIN lkey = rkey [GROUP BY rcol " ++
      "[HAVING agg <op> v | ORDER BY agg DESC LIMIT n]]\n")

def MatrixType.typeName : MatrixType → Bytes
  | .I64 => ascii "i64"
  | .F64 => ascii "f64"
  | .U32 => ascii "u32"

def MemorySpace.tierName : MemorySpace → Bytes
  | .DEVICE => ascii "DEVICE"
  | .COLD => ascii "COLD"
  | .UNIFIED => ascii "UNIFIED"
  | .HOST => ascii "HOST"

def OutMode.text : OutMode → Bytes
  | .LIST => ascii "list"
  | .CSV => ascii "csv"
  | .TABLE => ascii "table"

variable {κ : Type}

namespace ReplState

/-- A session begins with the id 1. -/
def start (engine : Analytics κ) : ReplState κ :=
  { engine, nextId := 1, timing := false, mode := .LIST }

section
variable (state : ReplState κ) (outside : Outside)

/-- The columns, as `catalog_columns` lists them. -/
def columnIds : List UInt64 :=
  outside.ids.order state.engine.catalog.columns.keys

def columnLine (id : UInt64) : Bytes :=
  let catalog := state.engine.catalog
  let type :=
    if 0 < catalog.stringDictSize id then ascii "str"
    else (catalog.columnType id).typeName
  let tier := (catalog.columns.lookup id).map fun column =>
    column.tier.tierName
  said ([9].intercalate [decimal id.toNat, catalog.columnName id, type,
    decimal (catalog.columnRows id), tier.getD []])

def runTables : Bytes :=
  (outside.names.order state.engine.tables.keys).flatMap said

def runColumns : Bytes :=
  said ([9].intercalate (["id", "name", "type", "rows", "tier"].map ascii)) ++
    (state.columnIds outside).flatMap state.columnLine

def runStats : Bytes :=
  let catalog := state.engine.catalog
  let megabytes (tier : MemorySpace) : Nat :=
    (catalog.tierMgr.residentBytes tier).toNat / (1024 * 1024)
  said ([32].intercalate <|
    [("columns", catalog.columns.keys.length),
      ("host_mb", megabytes .HOST), ("cold_mb", megabytes .COLD),
      ("cold_borrows", catalog.coldBorrows.toNat),
      ("rebalances", catalog.rebalances.toNat),
      ("migrations", catalog.migrations.toNat),
      ("queries", catalog.latency.queryCount.toNat),
      ("p50_ns", (catalog.latency.percentileNs 0.50).toNat),
      ("p99_ns", (catalog.latency.percentileNs 0.99).toNat)].map
    fun (name, value) => ascii name ++ ascii "=" ++ decimal value)

def runTiming (tk : List Bytes) : Bytes × ReplState κ :=
  let timing := tk[1]? != some (ascii "off")
  (said (ascii "timing " ++ if timing then ascii "on" else ascii "off"),
    { state with timing })

def runMode (tk : List Bytes) : Bytes × ReplState κ :=
  let chosen := [OutMode.CSV, .TABLE, .LIST].find? fun mode =>
    tk[1]? == some mode.text
  match chosen with
  | none => (saidError (ascii "usage: .mode list|csv|table"), state)
  | some mode => (said (ascii "mode " ++ mode.text), { state with mode })

/-- A snapshot is written whole or not at all. -/
def runSave (tk : List Bytes) : Option (Bytes × ReplState κ) :=
  match tk with
  | _ :: path :: _ => do
      let catalog := state.engine.catalog
      let (file, catalog) ← catalog.saveCatalog outside.room
        { columns := outside.ids.order catalog.columns.keys
          dicts := outside.ids.order catalog.stringDicts.keys
          masks := outside.ids.order catalog.nullMasks.keys }
      let out :=
        if file.isSome then said (ascii "saved catalog to " ++ path)
        else saidError (ascii "could not save catalog to " ++ path)
      some (out, { state with engine := { state.engine with catalog } })
  | _ => some (saidError (ascii "usage: .save <file>"), state)

section
variable [CostArith κ]

/-- The id is used up by a column that has been loaded and named. -/
def runLoad (strtod : Bytes → StrtodResult) (tk : List Bytes) :
    Option (Bytes × ReplState κ) :=
  match loadLine tk with
  | .error message => some (saidError message, state)
  | .ok load => do
      let id := state.nextId
      let (loaded, engine) ←
        (load.call outside.files id).run strtod outside.ns state.engine
      match loaded with
      | .flag true =>
          let catalog ← engine.catalog.nameColumn id load.name
          let out := said (ascii "loaded " ++
            decimal (catalog.columnRows id) ++ ascii " rows into \"" ++
            load.name ++ ascii "\" (" ++ load.type.text ++ ascii ", col " ++
            decimal load.col ++ ascii ")")
          some (out, { state with
            engine := { engine with catalog }, nextId := id + 1 })
      | _ =>
          let out := saidError (ascii "could not load " ++ load.path ++
            ascii " (col " ++ decimal load.col ++ ascii ")")
          some (out, { state with engine })

def openedBefore : Bytes :=
  ascii ".open needs a fresh session (existing columns would collide) " ++
    [0xE2, 0x80, 0x94] ++ ascii " start a new matrixdb"

/-- The counter is put behind every id that has been restored. -/
def past (next : UInt64) (ids : List UInt64) : UInt64 :=
  ids.foldl (fun next id => if next ≤ id then id + 1 else next) next

/-- A snapshot is opened while there are no columns.  One that turns out to be
bad leaves the columns that were read before, and the counter as it was. -/
def runOpen (tk : List Bytes) : Option (Bytes × ReplState κ) :=
  match tk with
  | _ :: path :: _ =>
      if state.engine.catalog.columns.keys ≠ [] then
        some (saidError openedBefore, state)
      else
        match outside.files path with
        | none => some (saidError (ascii "cannot open " ++ path), state)
        | some file => do
            let (good, catalog) ← state.engine.catalog.loadCatalog file
            let opened : ReplState κ :=
              { state with engine := { state.engine with catalog } }
            let ids := opened.columnIds outside
            if good then
              some (said (ascii "opened " ++ path ++ ascii " (" ++
                decimal ids.length ++ ascii " columns)"),
                { opened with nextId := past state.nextId ids })
            else
              some (saidError (ascii ("not a valid/compatible matrixdb " ++
                "snapshot: ") ++ path), opened)
  | _ => some (saidError (ascii "usage: .open <file>"), state)

/-- `tk[0]` is read first. -/
def runCommand (strtod : Bytes → StrtodResult) (tk : List Bytes) :
    Option (Bytes × ReplState κ) :=
  match tk with
  | [] => none
  | cmd :: _ =>
      if cmd = ascii ".help" then some (helpText, state)
      else if cmd = ascii ".tables" then some (state.runTables outside, state)
      else if cmd = ascii ".columns" then
        some (state.runColumns outside, state)
      else if cmd = ascii ".stats" then some (state.runStats, state)
      else if cmd = ascii ".load" then state.runLoad outside strtod tk
      else if cmd = ascii ".save" then state.runSave outside tk
      else if cmd = ascii ".open" then state.runOpen outside tk
      else if cmd = ascii ".timing" then some (state.runTiming tk)
      else if cmd = ascii ".mode" then some (state.runMode tk)
      else
        some (saidError (ascii "unknown command '" ++ cmd ++
          ascii "' (try .help)"), state)

/-- A table is made of what would be listed. -/
def runQuery (strtod : Bytes → StrtodResult) (printDouble : UInt64 → Bytes)
    (line : Bytes) : Option (Bytes × ReplState κ) := do
  let mode := if state.mode = .TABLE then .LIST else state.mode
  let (lines, catalog) ←
    state.engine.catalog.runSql strtod printDouble outside.ns mode line
  let text := printed mode lines
  let shown := if state.mode = .TABLE then alignTable text else text
  let took :=
    if state.timing then
      said (ascii "(" ++ decimal outside.micros ++ [32, 0xC2, 0xB5] ++
        ascii "s)")
    else []
  some (shown ++ took,
    { state with engine := { state.engine with catalog } })

/-- One line that does not end the session: what is written and the state
behind it.  `none` is an abort. -/
def runLine (strtod : Bytes → StrtodResult) (printDouble : UInt64 → Bytes)
    (raw : Bytes) : Option (Bytes × ReplState κ) :=
  match replLine raw with
  | .skip => some ([], state)
  | .sql line => state.runQuery outside strtod printDouble line
  | .command tk => state.runCommand outside strtod tk

end

end

end ReplState

/-- `matrix_repl`, with everything that it writes. -/
def matrixRepl [CostArith κ] (strtod : Bytes → StrtodResult)
    (printDouble : UInt64 → Bytes) :
    List (Outside × Bytes) → ReplState κ → Option (Bytes × ReplState κ)
  | [], state => some ([], state)
  | (outside, raw) :: lines, state =>
      if isQuit raw then some ([], state)
      else do
        let (out, state) ← state.runLine outside strtod printDouble raw
        let (rest, state) ← matrixRepl strtod printDouble lines state
        some (out ++ rest, state)

end MatrixDB
