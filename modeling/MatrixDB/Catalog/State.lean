import MatrixDB.Compute.Typed
import MatrixDB.Tier.Manager
import Mathlib.Data.List.AList
import Mathlib.Data.List.Destutter

/-!
# The analytical half of `CPUMockEngine` (`compute_mock.cpp`, CPU build)

The catalog of tiered columns with the maps beside it: element types, null
masks, dictionaries and names, each keyed by column id.  Assertions are
compiled in, as the build scripts do; `none` stands for a failed assertion, an
abort, or the exception of `at` on an absent id.
-/

namespace MatrixDB

open Lib CostArith

/-- `std::unordered_map<uint64_t, V>`. -/
abbrev IdMap (V : Type) := AList fun _ : UInt64 => V

/-- `std::unordered_map<std::string, V>`. -/
abbrev NameMap (V : Type) := AList fun _ : Bytes => V

def LAT_BUCKETS : Nat := 40
def REBALANCE_EVERY : UInt64 := 4
def MAX_QUERY_GROUPS : UInt32 := 268435456

/-- The counters of `record_query_latency`. -/
structure LatencyStats where
  queryCount : UInt64
  totalQueryNs : UInt64
  maxQueryNs : UInt64
  hist : List UInt64

structure Catalog (κ : Type) where
  columns : IdMap TieredColumn
  colTypes : IdMap MatrixType
  nullMasks : IdMap Bytes
  stringDicts : IdMap (List Bytes)
  stringEncoders : IdMap (NameMap UInt32)
  columnNames : IdMap Bytes
  nameToId : NameMap UInt64
  tierMgr : TierManager κ
  maxQueryGroups : UInt32
  rebalanceEvery : UInt64
  scansSinceRebalance : UInt64
  coldBorrows : UInt64
  rebalances : UInt64
  migrations : UInt64
  latency : LatencyStats

variable {κ : Type}

namespace Catalog

/-- A fresh engine with a given budget for its host tier. -/
def fresh (hostCap : Nat) : Catalog κ :=
  { columns := ∅
    colTypes := ∅
    nullMasks := ∅
    stringDicts := ∅
    stringEncoders := ∅
    columnNames := ∅
    nameToId := ∅
    tierMgr :=
      { costModel := { unified := false }
        deviceCap := 1
        hostCap := hostCap
        tick := 0
        cols := [] }
    maxQueryGroups := MAX_QUERY_GROUPS
    rebalanceEvery := REBALANCE_EVERY
    scansSinceRebalance := 0
    coldBorrows := 0
    rebalances := 0
    migrations := 0
    latency :=
      { queryCount := 0, totalQueryNs := 0, maxQueryNs := 0
        hist := List.replicate LAT_BUCKETS 0 } }

/-! ## Accessors -/

def catalogHas (catalog : Catalog κ) (id : UInt64) : Bool :=
  id != 0 && (catalog.columns.lookup id).isSome

def columnType (catalog : Catalog κ) (id : UInt64) : MatrixType :=
  (catalog.colTypes.lookup id).getD .U32

/-- `catalog_.at(id)->size_bytes()`, of an id every caller has looked up. -/
def sizeBytes (catalog : Catalog κ) (id : UInt64) : Nat :=
  ((catalog.columns.lookup id).map fun column => column.size).getD 0

def columnRows (catalog : Catalog κ) (id : UInt64) : Nat :=
  catalog.sizeBytes id / (catalog.columnType id).width

/-- The mask the grouped paths use: one that does not cover exactly the rows
counts as absent. -/
def valueNulls (catalog : Catalog κ) (id : UInt64) (n : Nat) : Option Bytes :=
  (catalog.nullMasks.lookup id).filter fun mask => mask.length = n

def setMaxQueryGroups (catalog : Catalog κ) (groups : UInt32) : Catalog κ :=
  { catalog with maxQueryGroups := groups }

def setRebalanceInterval (catalog : Catalog κ) (scans : UInt64) : Catalog κ :=
  { catalog with rebalanceEvery := if scans = 0 then 1 else scans }

/-! ## Loading -/

section
variable [CostArith κ]

/-- Register the bytes of a new column, born in the host tier. -/
def loadBytes (catalog : Catalog κ) (id : UInt64) (bytes : Bytes) :
    Option (Catalog κ) :=
  if id = 0 then none
  else if (catalog.columns.lookup id).isSome then none
  else if MAX_VECTOR_BYTES < bytes.length then none
  else
    some { catalog with
      columns := catalog.columns.insert id (TieredColumn.create id bytes)
      tierMgr := catalog.tierMgr.registerColumn id bytes.length .HOST }

def loadScanColumn (catalog : Catalog κ) (id : UInt64) (data : List UInt32) :
    Option (Catalog κ) :=
  catalog.loadBytes id (data.flatMap u32Bytes)

def loadScanColumnI64 (catalog : Catalog κ) (id : UInt64)
    (data : List Int64) : Option (Catalog κ) := do
  let catalog ← catalog.loadBytes id
    (data.flatMap fun value => u64Bytes value.toUInt64)
  some { catalog with colTypes := catalog.colTypes.insert id .I64 }

/-- The values are given by their bit patterns. -/
def loadScanColumnF64 (catalog : Catalog κ) (id : UInt64)
    (data : List UInt64) : Option (Catalog κ) := do
  let catalog ← catalog.loadBytes id (data.flatMap u64Bytes)
  some { catalog with colTypes := catalog.colTypes.insert id .F64 }

/-- Distinct strings in lexicographic order. -/
def sortedDict (data : List Bytes) : List Bytes :=
  (data.mergeSort fun left right => decide (left ≤ right)).destutter (· ≠ ·)

/-- `enc.emplace(dict[c], c)` for every code. -/
def encoderOf (dict : List Bytes) : NameMap UInt32 :=
  dict.zipIdx.foldl
    (fun encoder entry =>
      if (encoder.lookup entry.1).isSome then encoder
      else encoder.insert entry.1 (UInt32.ofNat entry.2))
    ∅

/-- The 32-bit code counter never reaches the end of a dictionary of `2 ^ 32`
strings. -/
def loadStringColumnDict (catalog : Catalog κ) (id : UInt64)
    (data : List Bytes) : Option (Catalog κ) :=
  let dict := sortedDict data
  if 4294967296 ≤ dict.length then none
  else do
    let encoder := encoderOf dict
    let codes := data.map fun value => (encoder.lookup value).getD 0
    let catalog ← catalog.loadScanColumn id codes
    some { catalog with
      stringDicts := catalog.stringDicts.insert id dict
      stringEncoders := catalog.stringEncoders.insert id encoder }

end

def setColumnNulls (catalog : Catalog κ) (id : UInt64) (isNull : Bytes) :
    Option (Catalog κ) :=
  if catalog.catalogHas id && isNull.length == catalog.columnRows id then
    some { catalog with nullMasks := catalog.nullMasks.insert id isNull }
  else none

def nameColumn (catalog : Catalog κ) (id : UInt64) (name : Bytes) :
    Option (Catalog κ) :=
  if catalog.catalogHas id then
    some { catalog with
      columnNames := catalog.columnNames.insert id name
      nameToId := catalog.nameToId.insert name id }
  else none

/-! ## Borrowing -/

def setColumn (catalog : Catalog κ) (id : UInt64) (column : TieredColumn) :
    Catalog κ :=
  { catalog with columns := catalog.columns.insert id column }

/-- Pull a column into the host tier and remember where it was. -/
def borrow (catalog : Catalog κ) (id : UInt64) :
    Option (MemorySpace × Catalog κ) := do
  let column ← catalog.columns.lookup id
  if column.tier = .HOST then some (.HOST, catalog)
  else
    let moved ← column.migrateTo .HOST
    some (column.tier,
      { catalog.setColumn id moved with
        coldBorrows := catalog.coldBorrows + 1 })

/-- `if (home != HOST) migrate_to(home)`. -/
def giveBack (catalog : Catalog κ) (id : UInt64) (home : MemorySpace) :
    Option (Catalog κ) :=
  if home = .HOST then some catalog
  else do
    let column ← catalog.columns.lookup id
    let moved ← column.migrateTo home
    some (catalog.setColumn id moved)

/-! ## Appending -/

def appendRaw (catalog : Catalog κ) (id : UInt64) (bytes : Bytes) :
    Option (Catalog κ) := do
  let (home, catalog) ← catalog.borrow id
  let column ← catalog.columns.lookup id
  let grown ← column.appendBytes bytes
  let catalog ← (catalog.setColumn id grown).giveBack id home
  some { catalog with
    tierMgr := catalog.tierMgr.updateBytes id (catalog.sizeBytes id) }

/-- The typed wrappers check the element type. -/
def appendTyped (ty : MatrixType) (catalog : Catalog κ) (id : UInt64)
    (bytes : Bytes) : Option (Catalog κ) :=
  if catalog.catalogHas id && catalog.columnType id == ty then
    catalog.appendRaw id bytes
  else none

def appendToColumn (catalog : Catalog κ) (id : UInt64) (data : List UInt32) :
    Option (Catalog κ) :=
  appendTyped .U32 catalog id (data.flatMap u32Bytes)

def appendToColumnI64 (catalog : Catalog κ) (id : UInt64)
    (data : List Int64) : Option (Catalog κ) :=
  appendTyped .I64 catalog id
    (data.flatMap fun value => u64Bytes value.toUInt64)

def appendToColumnF64 (catalog : Catalog κ) (id : UInt64)
    (data : List UInt64) : Option (Catalog κ) :=
  appendTyped .F64 catalog id (data.flatMap u64Bytes)

end Catalog

end MatrixDB
