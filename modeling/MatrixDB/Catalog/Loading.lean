import MatrixDB.Catalog.Answer

/-!
# What loading and appending do to the data

Each operation on columns is described once, by the data before and after it.
A fresh catalog is well formed and every operation keeps it so; an operation
that aborts has no state after it.
-/

namespace MatrixDB

open Lib TieredColumn

variable {κ : Type}

namespace Catalog

/-! ## Fresh catalogs and settings -/

theorem wellFormed_fresh (hostCap : Nat) :
    (fresh hostCap : Catalog κ).WellFormed := by
  have empty : ∀ id, (fresh hostCap : Catalog κ).contents id = none := by
    intro id
    rfl
  refine ⟨?_, empty 0, ?_, ?_, ?_, ?_⟩
  · intro id column found
    cases found
  · intro id _
    rfl
  · intro id bytes read
    rw [empty] at read
    cases read
  · intro id bytes read
    rw [empty] at read
    cases read
  · exact ⟨rfl, by simp [fresh], by simp [fresh], by simp [fresh]⟩

theorem wellFormed_setMaxQueryGroups {catalog : Catalog κ}
    (wellFormed : catalog.WellFormed) (groups : UInt32) :
    (catalog.setMaxQueryGroups groups).WellFormed :=
  wellFormed_same wellFormed wellFormed.held (fun _ => rfl) rfl
    wellFormed.inert

theorem keeps_setRebalanceInterval {catalog : Catalog κ}
    (wellFormed : catalog.WellFormed) (scans : UInt64) :
    Keeps catalog (catalog.setRebalanceInterval scans) :=
  ⟨wellFormed_same wellFormed wellFormed.held (fun _ => rfl) rfl
    wellFormed.inert, fun _ => rfl, rfl, rfl, rfl, rfl, rfl, rfl, rfl⟩

/-! ## Loading -/

/-- A column of some type and bytes has been added. -/
structure Loads (before : Catalog κ) (id : UInt64) (ty : MatrixType)
    (bytes : Bytes) (after : Catalog κ) : Prop where
  unused : before.contents id = none
  wellFormed : after.WellFormed
  contents_self : after.contents id = some bytes
  contents_ne : ∀ other, other ≠ id →
    after.contents other = before.contents other
  columnType_self : after.columnType id = ty
  columnType_ne : ∀ other, other ≠ id →
    after.columnType other = before.columnType other
  nullMasks : after.nullMasks = before.nullMasks
  stringDicts : after.stringDicts = before.stringDicts
  columnNames : after.columnNames = before.columnNames
  maxQueryGroups : after.maxQueryGroups = before.maxQueryGroups

theorem Loads.view_self {before after : Catalog κ} {id : UInt64}
    {ty : MatrixType} {bytes : Bytes} (loads : Loads before id ty bytes after) :
    after.view id = some
      { type := ty, bytes := bytes, nulls := before.nullMasks.lookup id } := by
  unfold view
  rw [loads.contents_self, loads.columnType_self, loads.nullMasks]
  rfl

theorem Loads.view_ne {before after : Catalog κ} {id other : UInt64}
    {ty : MatrixType} {bytes : Bytes} (loads : Loads before id ty bytes after)
    (different : other ≠ id) : after.view other = before.view other := by
  unfold view
  rw [loads.contents_ne other different, loads.columnType_ne other different,
    loads.nullMasks]

/-- Giving a column just loaded its element type. -/
theorem Loads.retype {before after : Catalog κ} {id : UInt64} {bytes : Bytes}
    (loads : Loads before id .U32 bytes after)
    (same : after.colTypes = before.colTypes) {ty : MatrixType}
    (whole : bytes.length % ty.width = 0) :
    Loads before id ty bytes
      { after with colTypes := after.colTypes.insert id ty } := by
  have self : ({ after with
      colTypes := after.colTypes.insert id ty } : Catalog κ).columnType id =
      ty := by
    simp [columnType]
  have others : ∀ other, other ≠ id →
      ({ after with
        colTypes := after.colTypes.insert id ty } : Catalog κ).columnType
        other = before.columnType other := by
    intro other different
    simp [columnType, AList.lookup_insert_ne different, same]
  refine ⟨loads.unused, ?_, loads.contents_self, loads.contents_ne, self,
    others, loads.nullMasks, loads.stringDicts, loads.columnNames,
    loads.maxQueryGroups⟩
  have wellFormed := loads.wellFormed
  refine ⟨wellFormed.held, wellFormed.zero, ?_, ?_, wellFormed.sized,
    wellFormed.inert⟩
  · intro other without
    have different : other ≠ id := by
      intro own
      subst own
      cases loads.contents_self.symm.trans without
    rw [AList.lookup_insert_ne different]
    exact wellFormed.typed other without
  · intro other content read
    by_cases own : other = id
    · subst own
      cases loads.contents_self.symm.trans read
      rw [self]
      exact whole
    · rw [others other own, ← loads.columnType_ne other own]
      exact wellFormed.whole other content read

theorem length_flatMap_u32Bytes (data : List UInt32) :
    (data.flatMap u32Bytes).length = 4 * data.length :=
  length_flatMap_uniform data fun value _ => length_u32Bytes value

theorem length_flatMap_u64Bytes {A : Type} (word : A → UInt64)
    (data : List A) :
    (data.flatMap fun value => u64Bytes (word value)).length =
      8 * data.length :=
  length_flatMap_uniform data fun value _ => length_u64Bytes (word value)

section
variable [CostArith κ]

theorem loadBytes_loads {before after : Catalog κ}
    (wellFormed : before.WellFormed) {id : UInt64} {bytes : Bytes}
    (whole : bytes.length % 4 = 0)
    (loaded : before.loadBytes id bytes = some after) :
    Loads before id .U32 bytes after ∧ after.colTypes = before.colTypes := by
  unfold loadBytes at loaded
  split at loaded
  · cases loaded
  rename_i nonzero
  split at loaded
  · cases loaded
  rename_i absent
  split at loaded
  · cases loaded
  rename_i fits
  cases loaded
  have holds := holds_create id bytes
  have notThere : before.columns.lookup id = none := by
    simpa using absent
  have unused : before.contents id = none := by
    rw [contents, contentsOf, notThere]
    rfl
  have self : contentsOf (before.columns.insert id (create id bytes)) id =
      some bytes := contentsOf_insert_self before.columns id holds
  have others : ∀ other, other ≠ id →
      contentsOf (before.columns.insert id (create id bytes)) other =
        before.contents other := by
    intro other different
    exact contentsOf_insert_ne before.columns _ different
  have untyped : before.columnType id = .U32 := by
    rw [columnType, wellFormed.typed id unused]
    rfl
  refine ⟨⟨unused, ?_, self, others, untyped, fun _ _ => rfl, rfl, rfl, rfl,
    rfl⟩, rfl⟩
  refine ⟨wellFormed.held.insert id holds, ?_, ?_, ?_, ?_, ?_⟩
  · exact (others 0 (Ne.symm nonzero)).trans wellFormed.zero
  · intro other without
    by_cases own : other = id
    · subst own
      exact wellFormed.typed other unused
    · exact wellFormed.typed other ((others other own).symm.trans without)
  · intro other content read
    by_cases own : other = id
    · subst own
      cases self.symm.trans read
      change bytes.length % (before.columnType other).width = 0
      rw [untyped]
      exact whole
    · exact wellFormed.whole other content
        ((others other own).symm.trans read)
  · intro other content read
    by_cases own : other = id
    · subst own
      cases self.symm.trans read
      exact Nat.not_lt.mp fits
    · exact wellFormed.sized other content
        ((others other own).symm.trans read)
  · apply TierManager.inert_registerColumn wellFormed.inert
    exact ⟨by omega, lt_of_le_of_lt (Nat.not_lt.mp fits) (by decide)⟩

theorem loadScanColumn_loads {before after : Catalog κ}
    (wellFormed : before.WellFormed) {id : UInt64} {data : List UInt32}
    (loaded : before.loadScanColumn id data = some after) :
    Loads before id .U32 (data.flatMap u32Bytes) after := by
  have whole : (data.flatMap u32Bytes).length % 4 = 0 := by
    rw [length_flatMap_u32Bytes]
    exact Nat.mul_mod_right 4 data.length
  exact (loadBytes_loads wellFormed whole loaded).1

/-- The two wide loads differ in the type they record. -/
theorem loadBytes_retype_loads {before after : Catalog κ}
    (wellFormed : before.WellFormed) {id : UInt64} {bytes : Bytes}
    {ty : MatrixType} (whole : bytes.length % 8 = 0) (wide : ty.width = 8)
    (loaded : (do
      let catalog ← before.loadBytes id bytes
      some { catalog with colTypes := catalog.colTypes.insert id ty }) =
        some after) : Loads before id ty bytes after := by
  simp only [Option.bind_eq_bind, Option.bind_eq_some_iff, Option.some.injEq]
    at loaded
  obtain ⟨middle, first, rfl⟩ := loaded
  obtain ⟨loads, same⟩ :=
    loadBytes_loads wellFormed (by omega : bytes.length % 4 = 0) first
  exact loads.retype same (by rw [wide]; exact whole)

theorem loadScanColumnI64_loads {before after : Catalog κ}
    (wellFormed : before.WellFormed) {id : UInt64} {data : List Int64}
    (loaded : before.loadScanColumnI64 id data = some after) :
    Loads before id .I64
      (data.flatMap fun value => u64Bytes value.toUInt64) after := by
  have whole := length_flatMap_u64Bytes Int64.toUInt64 data
  exact loadBytes_retype_loads wellFormed
    (by rw [whole]; exact Nat.mul_mod_right 8 data.length) rfl loaded

theorem loadScanColumnF64_loads {before after : Catalog κ}
    (wellFormed : before.WellFormed) {id : UInt64} {data : List UInt64}
    (loaded : before.loadScanColumnF64 id data = some after) :
    Loads before id .F64 (data.flatMap u64Bytes) after := by
  have whole := length_flatMap_u64Bytes (fun value => value) data
  exact loadBytes_retype_loads wellFormed
    (by rw [whole]; exact Nat.mul_mod_right 8 data.length) rfl loaded

theorem length_sortedDict_le (data : List Bytes) :
    (sortedDict data).length ≤ data.length := by
  unfold sortedDict
  apply le_trans (List.destutter_sublist _ _).length_le
  rw [List.length_mergeSort]

theorem loadStringColumnDict_eq {before after : Catalog κ} {id : UInt64}
    {data : List Bytes}
    (loaded : before.loadStringColumnDict id data = some after) :
    (sortedDict data).length < 4294967296 ∧
      ∃ middle, before.loadScanColumn id (data.map fun value =>
          ((encoderOf (sortedDict data)).lookup value).getD 0) = some middle ∧
        after = { middle with
          stringDicts := middle.stringDicts.insert id (sortedDict data)
          stringEncoders :=
            middle.stringEncoders.insert id (encoderOf (sortedDict data)) } := by
  unfold loadStringColumnDict at loaded
  simp only at loaded
  split at loaded
  · cases loaded
  · rename_i countable
    obtain ⟨middle, first, same⟩ := Option.bind_eq_some_iff.mp loaded
    cases same
    exact ⟨Nat.not_le.mp countable, middle, first, rfl⟩

/-- A column of codes is loaded, and its dictionary has no more strings than
the column has rows. -/
theorem loadStringColumnDict_loads {before after : Catalog κ}
    (wellFormed : before.WellFormed) {id : UInt64} {data : List Bytes}
    (loaded : before.loadStringColumnDict id data = some after) :
    ∃ codes middle, Loads before id .U32 codes middle ∧
      4 * (sortedDict data).length ≤ codes.length ∧
      after = { middle with
        stringDicts := middle.stringDicts.insert id (sortedDict data)
        stringEncoders :=
          middle.stringEncoders.insert id (encoderOf (sortedDict data)) } := by
  obtain ⟨_, middle, first, rfl⟩ := loadStringColumnDict_eq loaded
  refine ⟨_, middle, loadScanColumn_loads wellFormed first, ?_, rfl⟩
  rw [length_flatMap_u32Bytes, List.length_map]
  exact Nat.mul_le_mul_left 4 (length_sortedDict_le data)

end

theorem wellFormed_dicts {catalog : Catalog κ}
    (wellFormed : catalog.WellFormed) (dicts : IdMap (List Bytes))
    (encoders : IdMap (NameMap UInt32)) :
    ({ catalog with stringDicts := dicts, stringEncoders := encoders } :
      Catalog κ).WellFormed :=
  wellFormed_same wellFormed wellFormed.held (fun _ => rfl) rfl
    wellFormed.inert

/-! ## Masks and names -/

theorem setColumnNulls_eq {before after : Catalog κ} {id : UInt64}
    {isNull : Bytes} (set : before.setColumnNulls id isNull = some after) :
    before.catalogHas id = true ∧ isNull.length = before.columnRows id ∧
      after = { before with
        nullMasks := before.nullMasks.insert id isNull } := by
  unfold setColumnNulls at set
  split at set
  · rename_i valid
    simp only [Bool.and_eq_true, beq_iff_eq] at valid
    cases set
    exact ⟨valid.1, valid.2, rfl⟩
  · cases set

theorem wellFormed_nullMasks {catalog : Catalog κ}
    (wellFormed : catalog.WellFormed) (masks : IdMap Bytes) :
    ({ catalog with nullMasks := masks } : Catalog κ).WellFormed :=
  wellFormed_same wellFormed wellFormed.held (fun _ => rfl) rfl
    wellFormed.inert

theorem nameColumn_eq {before after : Catalog κ} {id : UInt64} {name : Bytes}
    (named : before.nameColumn id name = some after) :
    after = { before with
      columnNames := before.columnNames.insert id name
      nameToId := before.nameToId.insert name id } := by
  unfold nameColumn at named
  split at named
  · cases named
    rfl
  · cases named

theorem wellFormed_names {catalog : Catalog κ}
    (wellFormed : catalog.WellFormed) (names : IdMap Bytes)
    (ids : NameMap UInt64) :
    ({ catalog with columnNames := names, nameToId := ids } :
      Catalog κ).WellFormed :=
  wellFormed_same wellFormed wellFormed.held (fun _ => rfl) rfl
    wellFormed.inert

/-! ## Appending -/

theorem sizeBytes_ne_one {catalog : Catalog κ}
    (wellFormed : catalog.WellFormed) (id : UInt64) :
    catalog.sizeBytes id ≠ 1 := by
  rw [sizeBytes_eq wellFormed]
  cases read : catalog.contents id with
  | none => simp
  | some bytes =>
      have whole := wellFormed.whole id bytes read
      intro single
      simp only [Option.map_some, Option.getD_some] at single
      rw [single] at whole
      cases ty : catalog.columnType id <;>
        simp [ty, MatrixType.width] at whole

theorem sizeBytes_le {catalog : Catalog κ} (wellFormed : catalog.WellFormed)
    (id : UInt64) : catalog.sizeBytes id ≤ MAX_VECTOR_BYTES := by
  rw [sizeBytes_eq wellFormed]
  cases read : catalog.contents id with
  | none => exact Nat.zero_le _
  | some bytes => exact wellFormed.sized id bytes read

/-- A column has grown by some bytes. -/
structure Appends (before : Catalog κ) (id : UInt64) (more : Bytes)
    (after : Catalog κ) : Prop where
  wellFormed : after.WellFormed
  contents_self : ∃ bytes, before.contents id = some bytes ∧
    after.contents id = some (bytes ++ more)
  contents_ne : ∀ other, other ≠ id →
    after.contents other = before.contents other
  colTypes : after.colTypes = before.colTypes
  nullMasks : after.nullMasks = before.nullMasks
  stringDicts : after.stringDicts = before.stringDicts
  columnNames : after.columnNames = before.columnNames
  maxQueryGroups : after.maxQueryGroups = before.maxQueryGroups

theorem appendRaw_appends {before after : Catalog κ}
    (wellFormed : before.WellFormed) {id : UInt64} {more : Bytes}
    (whole : more.length % (before.columnType id).width = 0)
    (registered : (before.contents id).isSome)
    (appended : before.appendRaw id more = some after) :
    Appends before id more after := by
  obtain ⟨home, lent, borrowed, reachable, keeps, inHost, _⟩ :=
    borrow_eq wellFormed registered
  obtain ⟨bytes, read⟩ := Option.isSome_iff_exists.mp registered
  have lentRead : lent.contents id = some bytes := by
    rw [keeps.contents, read]
  obtain ⟨column, found, holds⟩ := keeps.wellFormed.held.lookup lentRead
  simp only [appendRaw, borrowed, found, Option.bind_eq_bind,
    Option.bind_some, Option.bind_eq_some_iff, Option.some.injEq] at appended
  obtain ⟨grown, grew, returned, gave, rfl⟩ := appended
  obtain ⟨_, holdsGrown, fits⟩ :=
    holds.appendBytes_eq (inHost column found) grew
  -- The state in which the grown column is still in the host tier.
  have self : (lent.setColumn id grown).contents id = some (bytes ++ more) :=
    contentsOf_insert_self lent.columns id holdsGrown
  have others : ∀ other, other ≠ id →
      (lent.setColumn id grown).contents other = before.contents other := by
    intro other different
    rw [← keeps.contents]
    exact contentsOf_insert_ne lent.columns grown different
  have types : ∀ other, (lent.setColumn id grown).columnType other =
      before.columnType other := by
    intro other
    exact keeps.columnType other
  have middle : (lent.setColumn id grown).WellFormed := by
    refine ⟨keeps.wellFormed.held.insert id holdsGrown, ?_, ?_, ?_, ?_,
      keeps.wellFormed.inert⟩
    · have nonzero : (0 : UInt64) ≠ id := by
        intro zero
        rw [← zero, wellFormed.zero] at read
        cases read
      rw [others 0 nonzero]
      exact wellFormed.zero
    · intro other without
      by_cases own : other = id
      · subst own
        cases self.symm.trans without
      · apply keeps.wellFormed.typed
        rw [keeps.contents]
        exact (others other own).symm.trans without
    · intro other content there
      rw [types]
      by_cases own : other = id
      · subst own
        cases self.symm.trans there
        rw [List.length_append, Nat.add_mod, whole,
          wellFormed.whole other bytes read]
        simp
      · exact wellFormed.whole other content
          ((others other own).symm.trans there)
    · intro other content there
      by_cases own : other = id
      · subst own
        cases self.symm.trans there
        exact fits
      · exact wellFormed.sized other content
          ((others other own).symm.trans there)
  obtain ⟨back, went, last⟩ := giveBack_eq middle
    (by rw [self]; rfl : ((lent.setColumn id grown).contents id).isSome)
    reachable
  cases gave.symm.trans went
  refine ⟨?_, ⟨bytes, read, ?_⟩, ?_, last.colTypes.trans keeps.colTypes,
    last.nullMasks.trans keeps.nullMasks,
    last.stringDicts.trans keeps.stringDicts,
    last.columnNames.trans keeps.columnNames,
    last.maxQueryGroups.trans keeps.maxQueryGroups⟩
  · exact wellFormed_same last.wellFormed last.wellFormed.held (fun _ => rfl)
      rfl (TierManager.inert_updateBytes last.wellFormed.inert id
        ⟨sizeBytes_ne_one last.wellFormed id,
          lt_of_le_of_lt (sizeBytes_le last.wellFormed id) (by decide)⟩)
  · exact (last.contents id).trans self
  · intro other different
    exact (last.contents other).trans (others other different)

theorem appendTyped_appends {before after : Catalog κ}
    (wellFormed : before.WellFormed) {ty : MatrixType} {id : UInt64}
    {more : Bytes} (whole : more.length % ty.width = 0)
    (appended : appendTyped ty before id more = some after) :
    before.columnType id = ty ∧ Appends before id more after := by
  unfold appendTyped at appended
  split at appended
  · rename_i valid
    simp only [Bool.and_eq_true, beq_iff_eq] at valid
    have registered : (before.contents id).isSome := by
      rw [← catalogHas_eq wellFormed]
      exact valid.1
    exact ⟨valid.2, appendRaw_appends wellFormed (by rw [valid.2]; exact whole)
      registered appended⟩
  · cases appended

/-- Whole rows of a column's own type have been appended. -/
def AppendsRows (before : Catalog κ) (id : UInt64) (rows : Nat)
    (after : Catalog κ) : Prop :=
  ∃ more, more.length = (before.columnType id).width * rows ∧
    Appends before id more after

theorem appendTyped_appendsRows {before after : Catalog κ}
    (wellFormed : before.WellFormed) {ty : MatrixType} {id : UInt64}
    {more : Bytes} {rows : Nat} (length : more.length = ty.width * rows)
    (appended : appendTyped ty before id more = some after) :
    AppendsRows before id rows after := by
  obtain ⟨type, appends⟩ := appendTyped_appends wellFormed
    (by rw [length]; exact Nat.mul_mod_right _ _) appended
  exact ⟨more, by rw [type, length], appends⟩

theorem appendToColumn_appends {before after : Catalog κ}
    (wellFormed : before.WellFormed) {id : UInt64} {data : List UInt32}
    (appended : before.appendToColumn id data = some after) :
    AppendsRows before id data.length after :=
  appendTyped_appendsRows wellFormed (length_flatMap_u32Bytes data) appended

theorem appendToColumnI64_appends {before after : Catalog κ}
    (wellFormed : before.WellFormed) {id : UInt64} {data : List Int64}
    (appended : before.appendToColumnI64 id data = some after) :
    AppendsRows before id data.length after :=
  appendTyped_appendsRows wellFormed
    (length_flatMap_u64Bytes Int64.toUInt64 data) appended

theorem appendToColumnF64_appends {before after : Catalog κ}
    (wellFormed : before.WellFormed) {id : UInt64} {data : List UInt64}
    (appended : before.appendToColumnF64 id data = some after) :
    AppendsRows before id data.length after :=
  appendTyped_appendsRows wellFormed
    (length_flatMap_u64Bytes (fun value => value) data) appended

end Catalog

end MatrixDB
