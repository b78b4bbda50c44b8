import MatrixDB.Catalog.Operations

/-!
# What a column holds after any number of calls

A column holds the bytes it was loaded with and behind them every byte that
was appended to it, whatever else has been called and wherever the column has
been moved in between.
-/

namespace MatrixDB

open Lib CostArith

/-- Reading elements and writing them again. -/
theorem flatMap_elements {A : Type} {read : Nat → A} {write : A → Bytes}
    (width : Nat) (bytes : Bytes) (count : Nat)
    (each : ∀ row < count,
      write (read row) = (bytes.drop (width * row)).take width) :
    ((List.range count).map read).flatMap write =
      bytes.take (width * count) := by
  induction count with
  | zero => simp
  | succ count induction =>
      have last := each count (Nat.lt_succ_self count)
      have earlier := induction fun row below =>
        each row (Nat.lt_succ_of_lt below)
      rw [List.range_succ, List.map_append, List.flatMap_append, earlier,
        Nat.mul_succ, List.take_add]
      simp [last]

/-! ## The columns of a snapshot -/

/-- A column and what follows it, behind its header. -/
def dataEntry (id : UInt64) (type : UInt32) (count : UInt64) (file : Bytes) :
    Option ((UInt64 × Bytes) × Bytes) := do
  let ty ← MatrixType.ofCode type
  let (bytes, file) ← takeBytes (ty.width * count.toNat) file
  some ((id, bytes), file)

/-- The id and the bytes of the next column in a snapshot. -/
def columnEntry (file : Bytes) : Option ((UInt64 × Bytes) × Bytes) := do
  let (id, file) ← readU64 file
  let (type, file) ← readU32 file
  let (count, file) ← readU64 file
  let (namelen, file) ← readU32 file
  if 4096 < namelen then none
  else
    let (_, file) ← takeBytes namelen.toNat file
    dataEntry id type count file

def columnEntries : Nat → Bytes → List (UInt64 × Bytes)
  | 0, _ => []
  | count + 1, file =>
      match columnEntry file with
      | none => []
      | some (entry, file) => entry :: columnEntries count file

/-- The columns in front of the first thing that looks wrong. -/
def snapshotColumns (file : Bytes) : List (UInt64 × Bytes) :=
  match readU32 file with
  | none => []
  | some (magic, file) =>
      if magic = MATRIX_CATALOG_MAGIC then
        match readU64 file with
        | none => []
        | some (ncols, file) => columnEntries ncols.toNat file
      else []

/-! ## What a call adds -/

/-- The bytes a column of strings is stored as. -/
def codeBytes (data : List Bytes) : Bytes :=
  (data.map fun value =>
    ((Catalog.encoderOf (Catalog.sortedDict data)).lookup value).getD 0).flatMap
      u32Bytes

/-- The bytes of a column file that make up whole elements. -/
def fileBytes (file : Bytes) : Option Bytes :=
  (matrixReadColumnTyped file).map fun (bytes, type) =>
    let ty : MatrixType :=
      if type = MatrixType.I64.code then .I64
      else if type = MatrixType.F64.code then .F64
      else .U32
    bytes.take (ty.width * (bytes.length / ty.width))

namespace CatalogCall

/-- The column a call loads and its bytes. -/
def loads (strtod : Bytes → StrtodResult) :
    CatalogCall → List (UInt64 × Bytes)
  | .loadScanColumn id data => [(id, data.flatMap u32Bytes)]
  | .loadScanColumnI64 id data =>
      [(id, data.flatMap fun value => u64Bytes value.toUInt64)]
  | .loadScanColumnF64 id data => [(id, data.flatMap u64Bytes)]
  | .loadStringColumnDict id data => [(id, codeBytes data)]
  | .loadColumnFromFile id file =>
      (fileBytes file).toList.map fun bytes => (id, bytes)
  | .loadColumnFromCsv id source =>
      (source.read matrixReadCsvColumn).toList.map fun data =>
        (id, data.flatMap u32Bytes)
  | .loadColumnFromCsvI64 id source =>
      (source.read matrixReadCsvColumnI64).toList.map fun data =>
        (id, data.flatMap fun value => u64Bytes value.toUInt64)
  | .loadColumnFromCsvF64 id source =>
      (source.read (matrixReadCsvColumnF64 strtod)).toList.map fun data =>
        (id, data.flatMap u64Bytes)
  | .loadStringColumnFromCsv id source =>
      (source.read matrixReadCsvColumnStr).toList.map fun data =>
        (id, codeBytes data)
  | .loadCatalog (some file) => snapshotColumns file
  | _ => []

/-- The column a call appends to and the bytes. -/
def appends : CatalogCall → List (UInt64 × Bytes)
  | .appendToColumn id data => [(id, data.flatMap u32Bytes)]
  | .appendToColumnI64 id data =>
      [(id, data.flatMap fun value => u64Bytes value.toUInt64)]
  | .appendToColumnF64 id data => [(id, data.flatMap u64Bytes)]
  | _ => []

/-- What a column that held something, or did not exist, holds after a
call. -/
def extend (strtod : Bytes → StrtodResult) (call : CatalogCall) (id : UInt64) :
    Option Bytes → Option Bytes
  | some bytes => some (bytes ++ (call.appends.lookup id).getD [])
  | none => (call.loads strtod).lookup id

end CatalogCall

variable {κ : Type}

namespace Catalog

section
variable [CostArith κ]

theorem loadElements_bytes {before after : Catalog κ}
    (wellFormed : before.WellFormed) {ty : MatrixType} {id : UInt64}
    {count : Nat} {bytes : Bytes} (fits : ty.width * count ≤ bytes.length)
    (loaded : before.loadElements ty id count bytes = some after) :
    Loads before id ty (bytes.take (ty.width * count)) after := by
  have within : ∀ row < count,
      ((bytes.drop (ty.width * row)).take ty.width).length = ty.width := by
    intro row below
    have room := Nat.mul_le_mul_left ty.width below
    rw [Nat.succ_eq_add_one, Nat.mul_add, Nat.mul_one] at room
    rw [List.length_take, List.length_drop]
    omega
  cases ty with
  | U32 =>
      have stored : ((List.range count).map (u32At bytes)).flatMap
          u32Bytes = bytes.take (4 * count) :=
        flatMap_elements 4 bytes count fun row below =>
          u32Bytes_u32OfBytes (within row below)
      have loads := loadScanColumn_loads wellFormed loaded
      rw [stored] at loads
      exact loads
  | I64 =>
      have stored : ((List.range count).map (i64At bytes)).flatMap
          (fun value => u64Bytes value.toUInt64) = bytes.take (8 * count) :=
        flatMap_elements 8 bytes count fun row below =>
          u64Bytes_u64OfBytes (within row below)
      have loads := loadScanColumnI64_loads wellFormed loaded
      rw [stored] at loads
      exact loads
  | F64 =>
      have stored : ((List.range count).map (u64At bytes)).flatMap
          u64Bytes = bytes.take (8 * count) :=
        flatMap_elements 8 bytes count fun row below =>
          u64Bytes_u64OfBytes (within row below)
      have loads := loadScanColumnF64_loads wellFormed loaded
      rw [stored] at loads
      exact loads

/-- What a load did to the contents. -/
def Adds (before : Catalog κ) (added : List (UInt64 × Bytes))
    (after : Catalog κ) : Prop :=
  ∀ id, after.contents id = (before.contents id).or (added.lookup id)

omit [CostArith κ] in
theorem Loads.adds {before after : Catalog κ} {id : UInt64} {ty : MatrixType}
    {bytes : Bytes} (loads : Loads before id ty bytes after) :
    Adds before [(id, bytes)] after := by
  intro other
  by_cases own : other = id
  · subst own
    rw [loads.contents_self, loads.unused]
    simp
  · have different : (other == id) = false := by
      simpa using own
    rw [loads.contents_ne other own]
    simp [List.lookup, different]

end

theorem Adds.refl (catalog : Catalog κ) : Adds catalog [] catalog := by
  intro id
  simp

theorem Adds.cons {before middle after : Catalog κ} {entry : UInt64 × Bytes}
    {added : List (UInt64 × Bytes)} (first : Adds before [entry] middle)
    (second : Adds middle added after) :
    Adds before (entry :: added) after := by
  intro id
  rw [second id, first id, Option.or_assoc]
  simp only [List.lookup]
  split <;> simp

/-- A change beside the columns. -/
theorem Adds.beside {before after last : Catalog κ}
    {added : List (UInt64 × Bytes)} (adds : Adds before added after)
    (same : last.columns = after.columns) : Adds before added last := by
  intro id
  rw [contents, same]
  exact adds id

section
variable [CostArith κ]

theorem loadStringColumnDict_adds {before after : Catalog κ}
    (wellFormed : before.WellFormed) {id : UInt64} {data : List Bytes}
    (loaded : before.loadStringColumnDict id data = some after) :
    Adds before [(id, codeBytes data)] after := by
  obtain ⟨_, middle, first, rfl⟩ := loadStringColumnDict_eq loaded
  exact (loadScanColumn_loads wellFormed first).adds.beside rfl

theorem loadColumnFromFile_adds {before after : Catalog κ}
    (wellFormed : before.WellFormed) {id : UInt64} {file : Bytes}
    (loaded : before.loadColumnFromFile id file = some after) :
    Adds before ((fileBytes file).toList.map fun bytes => (id, bytes))
      after := by
  obtain ⟨⟨bytes, type⟩, read, loaded⟩ := Option.bind_eq_some_iff.mp loaded
  have loads := loadElements_bytes wellFormed (Nat.mul_div_le _ _) loaded
  rw [fileBytes, read]
  exact loads.adds

end

/-! ### Snapshots -/

section
variable [CostArith κ]

/-- The next column was loaded, or there was none to load. -/
def ReadsColumn (catalog : Catalog κ)
    (entry : Option ((UInt64 × Bytes) × Bytes)) (out : Option Bytes)
    (after : Catalog κ) : Prop :=
  (entry = none ∧ out = none ∧ after = catalog) ∨
    ∃ column rest, entry = some (column, rest) ∧ out = some rest ∧
      Adds catalog [column] after ∧ after.WellFormed

theorem loadColumnData_reads {catalog after : Catalog κ}
    (wellFormed : catalog.WellFormed) {id : UInt64} {type : UInt32}
    {count : UInt64} {name file : Bytes} {out : Option Bytes}
    (ran : catalog.loadColumnData id type count name file =
      some (out, after)) :
    ReadsColumn catalog (dataEntry id type count file) out after := by
  unfold loadColumnData at ran
  split at ran
  · rename_i unknown
    cases ran
    exact .inl ⟨by simp [dataEntry, unknown], rfl, rfl⟩
  rename_i ty known
  split at ran
  · cases ran
  split at ran
  · rename_i short
    cases ran
    exact .inl ⟨by simp [dataEntry, known, short], rfl, rfl⟩
  rename_i bytes rest taken
  obtain ⟨loaded, stored, ran⟩ := Option.bind_eq_some_iff.mp ran
  obtain ⟨named, given, same⟩ := Option.map_eq_some_iff.mp ran
  cases same
  obtain ⟨_, length⟩ := takeBytes_eq_some taken
  have loads := loadElements_bytes wellFormed (Nat.le_of_eq length.symm) stored
  rw [← length, List.take_length] at loads
  refine .inr ⟨(id, bytes), rest, by simp [dataEntry, known, taken], rfl, ?_⟩
  split at given
  · cases given
    exact ⟨loads.adds, loads.wellFormed⟩
  · cases nameColumn_eq given
    exact ⟨loads.adds.beside rfl, wellFormed_names loads.wellFormed _ _⟩

theorem loadColumn_reads {file : Bytes} {catalog after : Catalog κ}
    (wellFormed : catalog.WellFormed) {out : Option Bytes}
    (ran : loadColumn file catalog = some (out, after)) :
    ReadsColumn catalog (columnEntry file) out after := by
  unfold loadColumn at ran
  unfold columnEntry
  split at ran
  · rename_i short
    cases ran
    exact .inl ⟨by simp [short], rfl, rfl⟩
  rename_i readId
  split at ran
  · rename_i short
    cases ran
    exact .inl ⟨by simp [readId, short], rfl, rfl⟩
  rename_i readType
  split at ran
  · rename_i short
    cases ran
    exact .inl ⟨by simp [readId, readType, short], rfl, rfl⟩
  rename_i readCount
  split at ran
  · rename_i short
    cases ran
    exact .inl ⟨by simp [readId, readType, readCount, short], rfl, rfl⟩
  rename_i readLength
  simp only [readId, readType, readCount, readLength, Option.bind_eq_bind,
    Option.bind_some]
  split at ran
  · rename_i long
    cases ran
    exact .inl ⟨if_pos long, rfl, rfl⟩
  · rename_i fits
    rw [if_neg fits]
    split at ran
    · rename_i short
      cases ran
      exact .inl ⟨by simp [short], rfl, rfl⟩
    · rename_i taken
      rw [taken]
      exact loadColumnData_reads wellFormed ran

theorem loadColumns_adds {count : Nat} {file : Bytes}
    {catalog after : Catalog κ} (wellFormed : catalog.WellFormed)
    {out : Option Bytes}
    (ran : readLoop loadColumn count file catalog = some (out, after)) :
    Adds catalog (columnEntries count file) after := by
  induction count generalizing file catalog with
  | zero =>
      cases ran
      exact .refl _
  | succ count induction =>
      rw [readLoop] at ran
      split at ran
      · cases ran
      · rename_i stopped
        cases ran
        rcases loadColumn_reads wellFormed stopped with
          ⟨entry, _, rfl⟩ | ⟨_, _, _, went, _⟩
        · rw [columnEntries, entry]
          exact .refl _
        · cases went
      · rename_i went
        rcases loadColumn_reads wellFormed went with
          ⟨_, stopped, _⟩ | ⟨column, rest, entry, same, adds, wellFormed⟩
        · cases stopped
        · cases same
          rw [columnEntries, entry]
          exact adds.cons (induction wellFormed ran)

end

/-! The dictionaries and the masks leave the columns alone. -/

/-- The columns are those of some earlier state. -/
def HasColumns (columns : IdMap TieredColumn) (catalog : Catalog κ) : Prop :=
  catalog.columns = columns

theorem loadDict_columns {columns : IdMap TieredColumn} (file : Bytes)
    (catalog : Catalog κ) (has : catalog.HasColumns columns) :
    Ensures (HasColumns columns) (loadDict file catalog) := by
  unfold loadDict
  split
  · exact .pure has
  split
  · exact .pure has
  apply Ensures.ite
  · intro _
    exact .pure has
  · intro _
    split
    · exact .none
    · exact .pure has
    · exact .pure has

theorem loadMask_columns {columns : IdMap TieredColumn} (file : Bytes)
    (catalog : Catalog κ) (has : catalog.HasColumns columns) :
    Ensures (HasColumns columns) (loadMask file catalog) := by
  unfold loadMask
  split
  · exact .pure has
  split
  · exact .pure has
  apply Ensures.ite
  · intro _
    exact .pure has
  · intro _
    split
    · exact .pure has
    · exact .pure has

theorem loadSection_columns {columns : IdMap TieredColumn}
    {item : Bytes → Catalog κ → Option (Option Bytes × Catalog κ)}
    (items : ∀ input state, HasColumns columns state →
      Ensures (HasColumns columns) (item input state))
    (file : Bytes) (catalog : Catalog κ) (has : catalog.HasColumns columns) :
    Ensures (HasColumns columns) (loadSection item file catalog) := by
  unfold loadSection
  split
  · exact .pure has
  · exact .readLoop items has _ _

theorem loadTrailing_columns {columns : IdMap TieredColumn} (file : Bytes)
    (catalog : Catalog κ) (has : catalog.HasColumns columns) :
    Ensures (HasColumns columns) (loadTrailing file catalog) := by
  have dicts := loadSection_columns loadDict_columns file catalog has
  unfold loadTrailing
  split
  · exact .none
  · rename_i stopped
    exact .pure (dicts _ _ stopped)
  · rename_i went
    exact loadSection_columns loadMask_columns _ _ (dicts _ _ went)

section
variable [CostArith κ]

theorem loadSections_adds {catalog after : Catalog κ}
    (wellFormed : catalog.WellFormed) {file : Bytes} {out : Option Bytes}
    (ran : loadSections file catalog = some (out, after)) :
    Adds catalog
      (match readU64 file with
      | none => []
      | some (ncols, file) => columnEntries ncols.toNat file) after := by
  unfold loadSections at ran
  cases readCount : readU64 file with
  | none =>
      rw [readCount] at ran
      cases ran
      exact .refl _
  | some counted =>
      obtain ⟨ncols, columns⟩ := counted
      rw [readCount] at ran
      dsimp only at ran
      split at ran
      · cases ran
      · rename_i stopped
        cases ran
        exact loadColumns_adds wellFormed stopped
      · rename_i went
        have trailing := loadTrailing_columns _ _ rfl _ _ ran
        exact (loadColumns_adds wellFormed went).beside trailing

theorem loadCatalog_adds {catalog after : Catalog κ}
    (wellFormed : catalog.WellFormed) {file : Bytes} {ok : Bool}
    (ran : catalog.loadCatalog file = some (ok, after)) :
    Adds catalog (snapshotColumns file) after := by
  unfold loadCatalog at ran
  unfold snapshotColumns
  cases readMagic : readU32 file with
  | none =>
      rw [readMagic] at ran
      cases ran
      exact .refl _
  | some headed =>
      obtain ⟨magic, rest⟩ := headed
      rw [readMagic] at ran
      dsimp only at ran ⊢
      by_cases wrong : magic ≠ MATRIX_CATALOG_MAGIC
      · rw [if_pos wrong] at ran
        cases ran
        rw [if_neg wrong]
        exact .refl _
      · rw [if_neg wrong] at ran
        rw [if_pos (not_not.mp wrong)]
        obtain ⟨⟨out, last⟩, loaded, same⟩ := Option.map_eq_some_iff.mp ran
        cases same
        exact loadSections_adds wellFormed loaded

end

end Catalog

end MatrixDB
