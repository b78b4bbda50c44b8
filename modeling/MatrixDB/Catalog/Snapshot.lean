import MatrixDB.Catalog.Nulls

/-!
# Catalog snapshots (`save_catalog` and `load_catalog`)

A snapshot holds the columns with their types and names, then the string
dictionaries, then the null masks.  The orders in which the three maps are
walked are arguments.  A load stops at the first thing that looks wrong and
keeps what it has read so far; registering an id twice aborts.
-/

namespace MatrixDB

open Lib CostArith

def MATRIX_CATALOG_MAGIC : UInt32 := 0x4D434132

def MatrixType.code : MatrixType → UInt32
  | .U32 => 0
  | .I64 => 1
  | .F64 => 2

def MatrixType.ofCode (code : UInt32) : Option MatrixType :=
  if code = MatrixType.I64.code then some .I64
  else if code = MatrixType.F64.code then some .F64
  else if code = MatrixType.U32.code then some .U32
  else none

variable {κ : Type}

namespace Catalog

def columnName (catalog : Catalog κ) (id : UInt64) : Bytes :=
  (catalog.columnNames.lookup id).getD []

/-! ## Saving -/

/-- The orders in which the maps are walked. -/
structure WalkOrder where
  columns : List UInt64
  dicts : List UInt64
  masks : List UInt64

/-- A string behind its length, cast to 32 bits. -/
def stringRecord (string : Bytes) : Bytes :=
  let len := UInt32.ofNat string.length
  u32Bytes len ++ string.take len.toNat

def columnRecord (catalog : Catalog κ) (id : UInt64) (bytes : Bytes) :
    Bytes :=
  u64Bytes id ++ u32Bytes (catalog.columnType id).code ++
    u64Bytes (UInt64.ofNat (catalog.columnRows id)) ++
    stringRecord (catalog.columnName id) ++ bytes

def dictRecord (catalog : Catalog κ) (id : UInt64) : Bytes :=
  let dict := (catalog.stringDicts.lookup id).getD []
  u64Bytes id ++ u64Bytes (UInt64.ofNat dict.length) ++
    dict.flatMap stringRecord

def maskRecord (catalog : Catalog κ) (id : UInt64) : Bytes :=
  let mask := (catalog.nullMasks.lookup id).getD []
  u64Bytes id ++ u64Bytes (UInt64.ofNat mask.length) ++ mask

/-- The loop over the columns, each borrowed while it is written.  The disk
takes `room` bytes; the first write beyond them fails. -/
def saveColumns (room : Nat) : List UInt64 → Bytes → Catalog κ →
    Option (Option Bytes × Catalog κ)
  | [], written, catalog => some (some written, catalog)
  | id :: ids, written, catalog => do
      let (home, catalog) ← catalog.borrow id
      let bytes ← catalog.hostBytes id
      let written := written ++ catalog.columnRecord id bytes
      let catalog ← catalog.giveBack id home
      if written.length ≤ room then saveColumns room ids written catalog
      else some (none, catalog)

/-- The file, when every write succeeds, and the engine afterwards. -/
def saveCatalog (catalog : Catalog κ) (room : Nat) (order : WalkOrder) :
    Option (Option Bytes × Catalog κ) :=
  let header := u32Bytes MATRIX_CATALOG_MAGIC ++
    u64Bytes (UInt64.ofNat order.columns.length)
  if room < header.length then some (none, catalog)
  else do
    let (written, catalog) ← saveColumns room order.columns header catalog
    let file := written.map fun columns =>
      columns ++
        (u64Bytes (UInt64.ofNat order.dicts.length) ++
          (order.dicts.flatMap catalog.dictRecord ++
        (u64Bytes (UInt64.ofNat order.masks.length) ++
          order.masks.flatMap catalog.maskRecord)))
    some (file.filter fun file => file.length ≤ room, catalog)

/-! ## Loading -/

section
variable [CostArith κ]

/-- Hand the elements read for a column to the load of its type. -/
def loadElements (catalog : Catalog κ) (ty : MatrixType) (id : UInt64)
    (count : Nat) (bytes : Bytes) : Option (Catalog κ) :=
  match ty with
  | .I64 => catalog.loadScanColumnI64 id ((List.range count).map (i64At bytes))
  | .F64 => catalog.loadScanColumnF64 id ((List.range count).map (u64At bytes))
  | .U32 => catalog.loadScanColumn id ((List.range count).map (u32At bytes))

/-- The bytes of a column behind its header; a vector that is too long is
never allocated. -/
def loadColumnData (catalog : Catalog κ) (id : UInt64) (type : UInt32)
    (count : UInt64) (name file : Bytes) :
    Option (Option Bytes × Catalog κ) :=
  match MatrixType.ofCode type with
  | none => some (none, catalog)
  | some ty =>
      if MAX_VECTOR_BYTES < ty.width * count.toNat then none
      else
        match takeBytes (ty.width * count.toNat) file with
        | none => some (none, catalog)
        | some (bytes, file) => do
            let catalog ← catalog.loadElements ty id count.toNat bytes
            let named :=
              if name.isEmpty then some catalog
              else catalog.nameColumn id name
            named.map fun catalog => (some file, catalog)

def loadColumn (file : Bytes) (catalog : Catalog κ) :
    Option (Option Bytes × Catalog κ) :=
  match readU64 file with
  | none => some (none, catalog)
  | some (id, file) =>
  match readU32 file with
  | none => some (none, catalog)
  | some (type, file) =>
  match readU64 file with
  | none => some (none, catalog)
  | some (count, file) =>
  match readU32 file with
  | none => some (none, catalog)
  | some (namelen, file) =>
      if 4096 < namelen then some (none, catalog)
      else
        match takeBytes namelen.toNat file with
        | none => some (none, catalog)
        | some (name, file) => catalog.loadColumnData id type count name file

end

/-- One string of a dictionary and its code. -/
def loadString (file : Bytes) (read : List Bytes × NameMap UInt32) :
    Option (Option Bytes × (List Bytes × NameMap UInt32)) :=
  match readU32 file with
  | none => some (none, read)
  | some (len, file) =>
      if 1048576 < len then some (none, read)
      else
        match takeBytes len.toNat file with
        | none => some (none, read)
        | some (string, file) =>
            let encoder :=
              if (read.2.lookup string).isSome then read.2
              else read.2.insert string (UInt32.ofNat read.1.length)
            some (some file, read.1 ++ [string], encoder)

def loadDict (file : Bytes) (catalog : Catalog κ) :
    Option (Option Bytes × Catalog κ) :=
  match readU64 file with
  | none => some (none, catalog)
  | some (id, file) =>
  match readU64 file with
  | none => some (none, catalog)
  | some (count, file) =>
      if 4294967296 < count then some (none, catalog)
      else
        match readLoop loadString count.toNat file ([], ∅) with
        | none => none
        | some (none, _) => some (none, catalog)
        | some (some file, dict, encoder) =>
            some (some file, { catalog with
              stringDicts := catalog.stringDicts.insert id dict
              stringEncoders := catalog.stringEncoders.insert id encoder })

def loadMask (file : Bytes) (catalog : Catalog κ) :
    Option (Option Bytes × Catalog κ) :=
  match readU64 file with
  | none => some (none, catalog)
  | some (id, file) =>
  match readU64 file with
  | none => some (none, catalog)
  | some (length, file) =>
      if 4294967296 < length then some (none, catalog)
      else
        match takeBytes length.toNat file with
        | none => some (none, catalog)
        | some (mask, file) =>
            some (some file, { catalog with
              nullMasks := catalog.nullMasks.insert id mask })

/-- A trailing section: its count may be missing in an older snapshot, and
then the end of the file has been reached. -/
def loadSection (item : Bytes → Catalog κ → Option (Option Bytes × Catalog κ))
    (file : Bytes) (catalog : Catalog κ) :
    Option (Option Bytes × Catalog κ) :=
  match readU64 file with
  | none => some (some [], catalog)
  | some (count, file) => readLoop item count.toNat file catalog

/-- The dictionaries and the masks. -/
def loadTrailing (file : Bytes) (catalog : Catalog κ) :
    Option (Option Bytes × Catalog κ) :=
  match loadSection loadDict file catalog with
  | none => none
  | some (none, catalog) => some (none, catalog)
  | some (some file, catalog) => loadSection loadMask file catalog

section
variable [CostArith κ]

def loadSections (file : Bytes) (catalog : Catalog κ) :
    Option (Option Bytes × Catalog κ) :=
  match readU64 file with
  | none => some (none, catalog)
  | some (ncols, file) =>
  match readLoop loadColumn ncols.toNat file catalog with
  | none => none
  | some (none, catalog) => some (none, catalog)
  | some (some file, catalog) => loadTrailing file catalog

/-- Whether the snapshot was good, and the engine afterwards. -/
def loadCatalog (catalog : Catalog κ) (file : Bytes) :
    Option (Bool × Catalog κ) :=
  match readU32 file with
  | none => some (false, catalog)
  | some (magic, file) =>
      if magic ≠ MATRIX_CATALOG_MAGIC then some (false, catalog)
      else
        (loadSections file catalog).map fun result =>
          (result.1.isSome, result.2)

end

/-! ## What is saved -/

def savedColumn (catalog : Catalog κ) (id : UInt64) : Bytes :=
  catalog.columnRecord id ((catalog.contents id).getD [])

/-- A complete snapshot. -/
def snapshot (catalog : Catalog κ) (order : WalkOrder) : Bytes :=
  u32Bytes MATRIX_CATALOG_MAGIC ++
    (u64Bytes (UInt64.ofNat order.columns.length) ++
      (order.columns.flatMap catalog.savedColumn ++
    (u64Bytes (UInt64.ofNat order.dicts.length) ++
      (order.dicts.flatMap catalog.dictRecord ++
    (u64Bytes (UInt64.ofNat order.masks.length) ++
      order.masks.flatMap catalog.maskRecord)))))

/-- The maps are walked in some order, each key once. -/
structure WalkOrder.Walks (order : WalkOrder) (catalog : Catalog κ) :
    Prop where
  columns : order.columns.Perm catalog.columns.keys
  dicts : order.dicts.Perm catalog.stringDicts.keys
  masks : order.masks.Perm catalog.nullMasks.keys

theorem Keeps.columnRecord {before after : Catalog κ}
    (wellFormed : before.WellFormed) (keeps : Keeps before after)
    (id : UInt64) (bytes : Bytes) :
    after.columnRecord id bytes = before.columnRecord id bytes := by
  unfold Catalog.columnRecord columnName
  rw [keeps.columnType, keeps.columnRows wellFormed, keeps.columnNames]

/-- One column is borrowed, read and given back. -/
theorem loan_eq {catalog : Catalog κ} (wellFormed : catalog.WellFormed)
    {id : UInt64} (registered : (catalog.contents id).isSome) :
    ∃ home lent bytes back, catalog.borrow id = some (home, lent) ∧
      lent.hostBytes id = some bytes ∧ lent.giveBack id home = some back ∧
      catalog.contents id = some bytes ∧ Keeps catalog lent ∧
      Keeps catalog back := by
  obtain ⟨home, lent, borrowed, reachable, keeps, inHost, _⟩ :=
    borrow_eq wellFormed registered
  obtain ⟨bytes, read⟩ := Option.isSome_iff_exists.mp registered
  have host : lent.hostBytes id = some bytes := by
    rw [hostBytes_eq keeps.wellFormed inHost, keeps.contents, read]
  obtain ⟨back, gave, last⟩ := giveBack_eq keeps.wellFormed
    (by rw [keeps.contents]; exact registered : (lent.contents id).isSome)
    reachable
  exact ⟨home, lent, bytes, back, borrowed, host, gave, read, keeps,
    keeps.trans last⟩

theorem saveColumns_eq (room : Nat) (ids : List UInt64)
    {catalog : Catalog κ} (wellFormed : catalog.WellFormed)
    (registered : ∀ id ∈ ids, (catalog.contents id).isSome)
    (written : Bytes) :
    ∃ out after, saveColumns room ids written catalog = some (out, after) ∧
      Keeps catalog after ∧
      (∀ file, out = some file →
        file = written ++ ids.flatMap catalog.savedColumn) ∧
      ((written ++ ids.flatMap catalog.savedColumn).length ≤ room →
        out.isSome) := by
  induction ids generalizing catalog written with
  | nil =>
      refine ⟨some written, catalog, rfl, .refl wellFormed, ?_, fun _ => rfl⟩
      intro file same
      cases same
      simp
  | cons id ids induction =>
      obtain ⟨home, lent, bytes, back, borrowed, host, gave, read, keeps,
        sofar⟩ := loan_eq wellFormed (registered id List.mem_cons_self)
      have record : lent.columnRecord id bytes = catalog.savedColumn id := by
        rw [keeps.columnRecord wellFormed, savedColumn, read]
        rfl
      have saved : back.savedColumn = catalog.savedColumn := by
        funext other
        unfold savedColumn
        rw [sofar.columnRecord wellFormed, sofar.contents]
      simp only [saveColumns, borrowed, host, gave, record,
        Option.bind_eq_bind, Option.bind_some]
      split
      · obtain ⟨out, after, ran, keepsRest, file, fits⟩ := induction
          sofar.wellFormed (by
            intro other member
            rw [sofar.contents]
            exact registered other (List.mem_cons_of_mem id member))
          (written ++ catalog.savedColumn id)
        rw [saved, List.append_assoc, ← List.flatMap_cons] at file fits
        exact ⟨out, after, ran, sofar.trans keepsRest, file, fits⟩
      · rename_i full
        refine ⟨none, back, rfl, sofar, by simp, ?_⟩
        intro fits
        rw [List.flatMap_cons, ← List.append_assoc, List.length_append] at fits
        exact absurd (Nat.le_of_add_right_le fits) full

/-- Saving moves no column and writes the snapshot or nothing; a disk with
room for it takes it. -/
theorem saveCatalog_outcome {catalog : Catalog κ}
    (wellFormed : catalog.WellFormed) (room : Nat) {order : WalkOrder}
    (registered : ∀ id ∈ order.columns, (catalog.contents id).isSome) :
    ∃ out after, catalog.saveCatalog room order = some (out, after) ∧
      Keeps catalog after ∧
      (∀ file, out = some file → file = catalog.snapshot order) ∧
      ((catalog.snapshot order).length ≤ room → out.isSome) := by
  unfold saveCatalog
  simp only
  split
  · rename_i full
    refine ⟨none, catalog, rfl, .refl wellFormed, by simp, ?_⟩
    intro fits
    rw [snapshot, ← List.append_assoc, List.length_append] at fits
    exact absurd (Nat.le_of_add_right_le fits) (Nat.not_le.mpr full)
  · obtain ⟨out, after, ran, keeps, columns, fits⟩ := saveColumns_eq room
      order.columns wellFormed registered
      (u32Bytes MATRIX_CATALOG_MAGIC ++
        u64Bytes (UInt64.ofNat order.columns.length))
    have dicts : after.dictRecord = catalog.dictRecord := by
      funext id
      unfold dictRecord
      rw [keeps.stringDicts]
    have masks : after.maskRecord = catalog.maskRecord := by
      funext id
      unfold maskRecord
      rw [keeps.nullMasks]
    have whole : ∀ front, out = some front →
        front ++ (u64Bytes (UInt64.ofNat order.dicts.length) ++
          (order.dicts.flatMap after.dictRecord ++
        (u64Bytes (UInt64.ofNat order.masks.length) ++
          order.masks.flatMap after.maskRecord))) =
          catalog.snapshot order := by
      intro front same
      rw [columns front same, dicts, masks, snapshot]
      simp only [List.append_assoc]
    simp only [ran, Option.bind_eq_bind, Option.bind_some]
    refine ⟨_, after, rfl, keeps, ?_, ?_⟩
    · intro file written
      obtain ⟨mapped, _⟩ := Option.filter_eq_some_iff.mp written
      obtain ⟨front, same, rfl⟩ := Option.map_eq_some_iff.mp mapped
      exact whole front same
    · intro enough
      have there : out.isSome := by
        apply fits
        rw [snapshot, ← List.append_assoc, ← List.append_assoc,
          List.length_append] at enough
        exact Nat.le_of_add_right_le enough
      obtain ⟨front, same⟩ := Option.isSome_iff_exists.mp there
      subst same
      rw [Option.map_some, whole front rfl, Option.filter_some,
        if_pos (decide_eq_true enough)]
      rfl

/-- Saving moves no column and writes the snapshot or nothing. -/
theorem saveCatalog_eq {catalog : Catalog κ}
    (wellFormed : catalog.WellFormed) (room : Nat) {order : WalkOrder}
    (registered : ∀ id ∈ order.columns, (catalog.contents id).isSome) :
    ∃ out after, catalog.saveCatalog room order = some (out, after) ∧
      Keeps catalog after ∧
      ∀ file, out = some file → file = catalog.snapshot order := by
  obtain ⟨out, after, ran, keeps, file, _⟩ :=
    saveCatalog_outcome wellFormed room registered
  exact ⟨out, after, ran, keeps, file⟩

end Catalog

end MatrixDB
