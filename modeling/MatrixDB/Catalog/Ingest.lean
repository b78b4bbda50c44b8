import MatrixDB.Catalog.Rows

/-!
# Column files and CSV (`column_io.hpp`, `csv_ingest.hpp`)

A typed column file is written and read whole; a bad one aborts.  CSV comes
from outside, so a bad file is refused and loads nothing.
-/

namespace MatrixDB

open Lib CostArith

def MATRIX_COLUMN_MAGIC_TYPED : UInt32 := 0x314F434D

def matrixWriteColumnTyped (bytes : Bytes) (type : UInt32) : Bytes :=
  u32Bytes MATRIX_COLUMN_MAGIC_TYPED ++ (u32Bytes type ++
    (u64Bytes (UInt64.ofNat bytes.length) ++ bytes))

/-- The bytes and the type; `none` stands for the abort. -/
def matrixReadColumnTyped (file : Bytes) : Option (Bytes × UInt32) := do
  let (magic, file) ← readU32 file
  if magic = MATRIX_COLUMN_MAGIC_TYPED then
    let (type, file) ← readU32 file
    let (count, file) ← readU64 file
    if MAX_VECTOR_BYTES < count.toNat then none
    else
      let (bytes, _) ← takeBytes count.toNat file
      some (bytes, type)
  else none

/-! ## CSV -/

/-- `std::getline` until it fails: a last line needs no line feed. -/
def csvLines (file : Bytes) : List Bytes :=
  let lines := file.splitOn 10
  if lines.getLast? = some [] then lines.dropLast else lines

/-- A carriage return at the end of a line is dropped. -/
def chomp (line : Bytes) : Bytes :=
  if line.getLast? = some 13 then line.dropLast else line

/-- The rest of a line from one field on; `none` where it has too few. -/
def csvField (delim : UInt8) : Nat → Bytes → Option Bytes
  | 0, line => some line
  | field + 1, line =>
      match line.dropWhile (· != delim) with
      | [] => none
      | _ :: rest => csvField delim field rest

/-- The data lines: all of them, or all but the first. -/
def csvRows (hasHeader : Bool) (file : Bytes) : List Bytes :=
  let lines := (csvLines file).map chomp
  if hasHeader then lines.drop 1 else lines

/-- One value out of every data line, or nothing at all.  The parser is given
the rest of the line and the length of the field. -/
def readCsv {A : Type} (parse : Bytes → Nat → Option A) (file : Bytes)
    (colIndex : Nat) (hasHeader : Bool) (delim : UInt8) : Option (List A) :=
  (csvRows hasHeader file).mapM fun line => do
    let rest ← csvField delim colIndex line
    parse rest (rest.takeWhile (· != delim)).length

def matrixReadCsvColumn :=
  readCsv fun rest length => fromCharsU32 (rest.take length)

def matrixReadCsvColumnI64 :=
  readCsv fun rest length => fromCharsI64 (rest.take length)

def matrixReadCsvColumnStr :=
  readCsv fun rest length => some (rest.take length)

/-- `strtod` sees the whole rest of the line and must stop where the field
does. -/
def matrixReadCsvColumnF64 (strtod : Bytes → StrtodResult) :=
  readCsv fun rest length =>
    let read := strtod rest
    if length = 0 ∨ read.erange ∨ read.consumed ≠ length then none
    else some read.value

variable {κ : Type}

namespace Catalog

/-- The file `save_column` writes. -/
def saveColumn (catalog : Catalog κ) (id : UInt64) :
    Option (Bytes × Catalog κ) :=
  catalog.withLoan id fun catalog => do
    let bytes ← catalog.hostBytes id
    some (matrixWriteColumnTyped bytes (catalog.columnType id).code)

section
variable [CostArith κ]

/-- Any type but the two wide ones is read as `uint32`. -/
def loadColumnFromFile (catalog : Catalog κ) (id : UInt64) (file : Bytes) :
    Option (Catalog κ) := do
  let (bytes, type) ← matrixReadColumnTyped file
  let ty : MatrixType :=
    if type = MatrixType.I64.code then .I64
    else if type = MatrixType.F64.code then .F64
    else .U32
  catalog.loadElements ty id (bytes.length / ty.width) bytes

/-- A refused file loads nothing. -/
def loadParsed {A : Type} (catalog : Catalog κ) (data : Option A)
    (load : A → Option (Catalog κ)) : Option (Bool × Catalog κ) :=
  match data with
  | none => some (false, catalog)
  | some data => (load data).map fun catalog => (true, catalog)

/-- Where to find a column in a CSV file, if the file can be opened. -/
structure CsvSource where
  file : Option Bytes
  colIndex : Nat
  hasHeader : Bool
  delim : UInt8
  deriving DecidableEq, Repr

def CsvSource.read {A : Type}
    (reader : Bytes → Nat → Bool → UInt8 → Option (List A))
    (source : CsvSource) : Option (List A) :=
  source.file.bind fun file =>
    reader file source.colIndex source.hasHeader source.delim

def loadColumnFromCsv (catalog : Catalog κ) (id : UInt64)
    (source : CsvSource) : Option (Bool × Catalog κ) :=
  catalog.loadParsed (source.read matrixReadCsvColumn)
    (catalog.loadScanColumn id)

def loadColumnFromCsvI64 (catalog : Catalog κ) (id : UInt64)
    (source : CsvSource) : Option (Bool × Catalog κ) :=
  catalog.loadParsed (source.read matrixReadCsvColumnI64)
    (catalog.loadScanColumnI64 id)

def loadColumnFromCsvF64 (strtod : Bytes → StrtodResult)
    (catalog : Catalog κ) (id : UInt64) (source : CsvSource) :
    Option (Bool × Catalog κ) :=
  catalog.loadParsed (source.read (matrixReadCsvColumnF64 strtod))
    (catalog.loadScanColumnF64 id)

def loadStringColumnFromCsv (catalog : Catalog κ) (id : UInt64)
    (source : CsvSource) : Option (Bool × Catalog κ) :=
  catalog.loadParsed (source.read matrixReadCsvColumnStr)
    (catalog.loadStringColumnDict id)

end

end Catalog

end MatrixDB
