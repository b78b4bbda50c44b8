import MatrixDB.Catalog.Dictionaries

/-!
# The records of a snapshot

Each record that the writer has written is read back to its last byte if it
keeps within the bounds of the reader, and refused otherwise; so is each
proper beginning of it.  A section is one record after another.
-/

namespace MatrixDB

open Lib

variable {κ : Type}

namespace Catalog

/-- A string as its record holds it: the length has been cast to 32 bits. -/
def castString (string : Bytes) : Bytes :=
  string.take (UInt32.ofNat string.length).toNat

theorem castString_eq {string : Bytes}
    (short : string.length < 4294967296) : castString string = string := by
  rw [castString, UInt32.toNat_ofNat_of_lt' short, List.take_length]

theorem length_castString (string : Bytes) :
    (castString string).length = (UInt32.ofNat string.length).toNat :=
  length_take_cast string

theorem map_castString_eq {dict : List Bytes}
    (short : ∀ string ∈ dict, string.length < 4294967296) :
    dict.map castString = dict := by
  rw [List.map_congr_left fun string member =>
    castString_eq (short string member)]
  exact List.map_id _

/-! ## The bounds of the reader -/

def NamesFit (catalog : Catalog κ) : Prop :=
  ∀ id, catalog.catalogHas id →
    UInt32.ofNat (catalog.columnName id).length ≤ 4096

def StringsFit (catalog : Catalog κ) : Prop :=
  ∀ id dict, catalog.stringDicts.lookup id = some dict →
    ∀ string ∈ dict, UInt32.ofNat string.length ≤ 1048576

def MasksBounded (catalog : Catalog κ) : Prop :=
  ∀ id mask, catalog.nullMasks.lookup id = some mask →
    mask.length ≤ 4294967296

/-- The reader accepts the names, the strings and the masks. -/
structure Readable (catalog : Catalog κ) : Prop where
  names : catalog.NamesFit
  strings : catalog.StringsFit
  masks : catalog.MasksBounded

/-! ## Strings -/

theorem loadString_reads (string : Bytes)
    (read : List Bytes × NameMap UInt32) :
    ReadsRecord loadString (stringRecord string)
      (UInt32.ofNat string.length ≤ 1048576) read fun next =>
        next = (read.1 ++ [castString string],
          if (read.2.lookup (castString string)).isSome then read.2
          else read.2.insert (castString string)
            (UInt32.ofNat read.1.length)) := by
  refine .behind ?_ ⟨?_, ?_, ?_⟩
  · intro part short
    rw [length_u32Bytes] at short
    exact ⟨read, by simp only [loadString, readU32_short short]⟩
  · intro fits
    refine ⟨_, rfl, ?_⟩
    intro rest
    simp only [loadString, readU32_u32Bytes, if_neg (UInt32.not_lt.mpr fits),
      takeBytes_of_length rest (length_take_cast string)]
    rfl
  · intro long rest
    have beyond : 1048576 < UInt32.ofNat string.length := UInt32.not_le.mp long
    exact ⟨read, by simp only [loadString, readU32_u32Bytes, if_pos beyond]⟩
  · intro part cut proper
    have short := length_lt_of_cut cut proper
    rw [length_take_cast] at short
    refine ⟨read, ?_⟩
    simp only [loadString, readU32_u32Bytes, takeBytes_short short]
    split
    · rfl
    · rfl

/-- The strings of a dictionary, with the encoder that grows along them. -/
theorem loadStrings_reads (dict : List Bytes) :
    ReadsRecord (readLoop loadString dict.length) (dict.flatMap stringRecord)
      (∀ string ∈ dict, UInt32.ofNat string.length ≤ 1048576) ([], ∅)
      fun next => next =
        (dict.map castString, encoderOf (dict.map castString)) := by
  refine .loop (fun before (read : List Bytes × NameMap UInt32) =>
    read = (before.map castString, encoderOf (before.map castString))) ?_ rfl
  rintro before string after _ _ rfl
  apply (loadString_reads string _).weaken Iff.rfl
  rintro _ _ rfl
  rw [List.map_append, List.map_singleton, encoderOf_concat]

/-! ## Dictionaries and masks -/

theorem readU64_length {input rest : Bytes} {value : UInt64}
    (read : readU64 input = some (value, rest)) :
    input.length = 8 + rest.length := by
  rw [readU64_eq_some.mp read, List.length_append, length_u64Bytes]

theorem readU32_length {input rest : Bytes} {value : UInt32}
    (read : readU32 input = some (value, rest)) :
    input.length = 4 + rest.length := by
  rw [readU32_eq_some.mp read, List.length_append, length_u32Bytes]

/-- Both kinds of records begin with an id and a count. -/
theorem readU64_twice_short {part : Bytes} (short : part.length < 16) :
    readU64 part = none ∨
      ∃ id rest, readU64 part = some (id, rest) ∧ readU64 rest = none := by
  cases read : readU64 part with
  | none => exact .inl rfl
  | some header =>
      have length := readU64_length read
      exact .inr ⟨header.1, header.2, rfl, readU64_short (by omega)⟩

theorem loadDict_reads {saver : Catalog κ} (coded : saver.Coded)
    {id : UInt64} {dict : List Bytes}
    (stored : saver.stringDicts.lookup id = some dict) (catalog : Catalog κ) :
    ReadsRecord loadDict (saver.dictRecord id)
      (∀ string ∈ dict, UInt32.ofNat string.length ≤ 1048576) catalog
      fun next => next =
        { catalog with
          stringDicts := catalog.stringDicts.insert id (dict.map castString)
          stringEncoders := catalog.stringEncoders.insert id
            (encoderOf (dict.map castString)) } := by
  have countable := coded.dicts id dict stored
  have count : (UInt64.ofNat dict.length).toNat = dict.length :=
    toNat_ofNat_length (lt_of_le_of_lt countable (by decide))
  have bounded : ¬ 4294967296 < UInt64.ofNat dict.length := by
    rw [UInt64.lt_iff_toNat_lt, count]
    exact Nat.not_lt.mpr countable
  have strings := loadStrings_reads dict
  rw [dictRecord, stored]
  refine .behind ?_ ⟨?_, ?_, ?_⟩
  · intro part short
    rw [List.length_append, length_u64Bytes, length_u64Bytes] at short
    refine ⟨catalog, ?_⟩
    rcases readU64_twice_short short with none | ⟨_, _, first, second⟩
    · simp only [loadDict, none]
    · simp only [loadDict, first, second]
  · intro fits
    obtain ⟨next, rfl, whole⟩ := strings.accepts fits
    refine ⟨_, rfl, ?_⟩
    intro rest
    simp only [Option.getD_some, List.append_assoc, loadDict,
      readU64_u64Bytes, if_neg bounded, count, whole]
  · intro long rest
    obtain ⟨left, bad⟩ := strings.rejects long rest
    refine ⟨catalog, ?_⟩
    simp only [Option.getD_some, List.append_assoc, loadDict,
      readU64_u64Bytes, if_neg bounded, count, bad]
  · intro part cut proper
    obtain ⟨left, bad⟩ := strings.cut part cut proper
    refine ⟨catalog, ?_⟩
    simp only [Option.getD_some, List.append_assoc, loadDict,
      readU64_u64Bytes, if_neg bounded, count, bad]

theorem loadMask_reads {saver : Catalog κ} (coded : saver.Coded)
    {id : UInt64} {mask : Bytes}
    (stored : saver.nullMasks.lookup id = some mask) (catalog : Catalog κ) :
    ReadsRecord loadMask (saver.maskRecord id) (mask.length ≤ 4294967296)
      catalog fun next => next =
        { catalog with nullMasks := catalog.nullMasks.insert id mask } := by
  have count : (UInt64.ofNat mask.length).toNat = mask.length :=
    toNat_ofNat_length (coded.masks id mask stored)
  have bound : 4294967296 < UInt64.ofNat mask.length ↔
      ¬ mask.length ≤ 4294967296 := by
    rw [UInt64.lt_iff_toNat_lt, count, Nat.not_le]
    rfl
  rw [maskRecord, stored]
  refine .behind ?_ ⟨?_, ?_, ?_⟩
  · intro part short
    rw [List.length_append, length_u64Bytes, length_u64Bytes] at short
    refine ⟨catalog, ?_⟩
    rcases readU64_twice_short short with none | ⟨_, _, first, second⟩
    · simp only [loadMask, none]
    · simp only [loadMask, first, second]
  · intro fits
    refine ⟨_, rfl, ?_⟩
    intro rest
    simp only [Option.getD_some, List.append_assoc, loadMask,
      readU64_u64Bytes, if_neg (mt bound.mp (not_not.mpr fits)), count,
      takeBytes_append]
  · intro long rest
    refine ⟨catalog, ?_⟩
    simp only [Option.getD_some, List.append_assoc, loadMask,
      readU64_u64Bytes, if_pos (bound.mpr long)]
  · intro part cut proper
    have short := length_lt_of_cut cut proper
    refine ⟨catalog, ?_⟩
    simp only [Option.getD_some, List.append_assoc, loadMask,
      readU64_u64Bytes, count]
    rw [Option.getD_some] at short
    rw [takeBytes_short short]
    split
    · rfl
    · rfl

/-! ## Columns -/

/-- The name that a reopened column has. -/
def savedName (catalog : Catalog κ) (id : UInt64) : Bytes :=
  castString (catalog.columnName id)

/-- What reading back a saved column has done. -/
structure ReadsBack (saver : Catalog κ) (id : UInt64)
    (before after : Catalog κ) : Prop where
  wellFormed : after.WellFormed
  contents_self : after.contents id = saver.contents id
  contents_ne : ∀ other, other ≠ id →
    after.contents other = before.contents other
  columnType_self : after.columnType id = saver.columnType id
  columnType_ne : ∀ other, other ≠ id →
    after.columnType other = before.columnType other
  columnNames : after.columnNames =
    if (saver.savedName id).isEmpty then before.columnNames
    else before.columnNames.insert id (saver.savedName id)
  nameToId : after.nameToId =
    if (saver.savedName id).isEmpty then before.nameToId
    else before.nameToId.insert (saver.savedName id) id
  texts : SameTexts before after

/-- The catalog with the name of a column just read, if it has one. -/
def withSavedName (loaded : Catalog κ) (id : UInt64) (name : Bytes) :
    Catalog κ :=
  if name.isEmpty then loaded
  else
    { loaded with
      columnNames := loaded.columnNames.insert id name
      nameToId := loaded.nameToId.insert name id }

theorem Loads.readsBack {saver before loaded : Catalog κ} {id : UInt64}
    {bytes : Bytes} (read : saver.contents id = some bytes)
    (loads : Loads before id (saver.columnType id) bytes loaded)
    (beside : loaded = { before with
      columns := loaded.columns
      colTypes := loaded.colTypes
      tierMgr := loaded.tierMgr }) :
    ReadsBack saver id before
      (loaded.withSavedName id (saver.savedName id)) := by
  have columnNames : loaded.columnNames = before.columnNames := by
    rw [beside]
  have nameToId : loaded.nameToId = before.nameToId := by
    rw [beside]
  have texts : SameTexts before loaded := by
    rw [beside]
    exact ⟨rfl, rfl, rfl⟩
  have self := loads.contents_self.trans read.symm
  unfold withSavedName
  split
  · rename_i unnamed
    refine ⟨loads.wellFormed, self, loads.contents_ne, loads.columnType_self,
      loads.columnType_ne, ?_, ?_, texts⟩
    · rw [if_pos unnamed, columnNames]
    · rw [if_pos unnamed, nameToId]
  · rename_i named
    refine ⟨wellFormed_names loads.wellFormed _ _, self, loads.contents_ne,
      loads.columnType_self, loads.columnType_ne, ?_, ?_,
      ⟨texts.stringDicts, texts.stringEncoders, texts.nullMasks⟩⟩
    · rw [if_neg named, columnNames]
    · rw [if_neg named, nameToId]

section
variable [CostArith κ]

/-- Only a used id or a column that no vector can hold is not loaded. -/
theorem loadElements_returns {catalog : Catalog κ}
    (wellFormed : catalog.WellFormed) {id : UInt64} (nonzero : id ≠ 0)
    (unused : catalog.contents id = none) {ty : MatrixType} {count : Nat}
    (fits : ty.width * count ≤ MAX_VECTOR_BYTES) (bytes : Bytes) :
    ∃ after, catalog.loadElements ty id count bytes = some after := by
  have absent : ¬ (catalog.columns.lookup id).isSome := by
    rw [isSome_lookup_eq wellFormed, unused]
    exact Bool.false_ne_true
  have loads : ∀ content : Bytes, content.length ≤ MAX_VECTOR_BYTES →
      ∃ after, catalog.loadBytes id content = some after := by
    intro content sized
    rw [loadBytes, if_neg nonzero, if_neg absent,
      if_neg (Nat.not_lt.mpr sized)]
    exact ⟨_, rfl⟩
  cases ty with
  | U32 =>
      apply loads
      rw [length_flatMap_u32Bytes, List.length_map, List.length_range]
      exact fits
  | I64 =>
      have length := length_flatMap_u64Bytes Int64.toUInt64
        ((List.range count).map (i64At bytes))
      rw [List.length_map, List.length_range] at length
      obtain ⟨after, loaded⟩ := loads _ (Nat.le_trans (Nat.le_of_eq length) fits)
      exact ⟨_, by
        simp only [loadElements, loadScanColumnI64, loaded]
        rfl⟩
  | F64 =>
      have length := length_flatMap_u64Bytes (fun value => value)
        ((List.range count).map (u64At bytes))
      rw [List.length_map, List.length_range] at length
      obtain ⟨after, loaded⟩ := loads _ (Nat.le_trans (Nat.le_of_eq length) fits)
      exact ⟨_, by
        simp only [loadElements, loadScanColumnF64, loaded]
        rfl⟩

theorem loadColumn_short {part : Bytes} (short : part.length < 24)
    (catalog : Catalog κ) :
    loadColumn part catalog = some (none, catalog) := by
  unfold loadColumn
  split
  · rfl
  rename_i first
  split
  · rfl
  rename_i second
  split
  · rfl
  rename_i third
  split
  · rfl
  rename_i fourth
  have lengths := readU64_length first
  rw [readU32_length second, readU64_length third,
    readU32_length fourth] at lengths
  omega

/-- The elements behind the header and the name of a saved column. -/
theorem loadColumnData_back {saver catalog : Catalog κ}
    (saved : saver.WellFormed) (wellFormed : catalog.WellFormed)
    {id : UInt64} {bytes : Bytes} (read : saver.contents id = some bytes)
    (unused : catalog.contents id = none) :
    ReadsRecord (fun file catalog => catalog.loadColumnData id
        (saver.columnType id).code (UInt64.ofNat (saver.columnRows id))
        (saver.savedName id) file) bytes True catalog
      (ReadsBack saver id catalog) := by
  have nonzero : id ≠ 0 := by
    intro zero
    rw [zero, saved.zero] at read
    cases read
  have sized := saved.sized id bytes read
  have count : (UInt64.ofNat (saver.columnRows id)).toNat =
      saver.columnRows id :=
    UInt64.toNat_ofNat_of_lt' (columnRows_lt saved id)
  have rows : saver.columnRows id =
      bytes.length / (saver.columnType id).width := by
    rw [columnRows, sizeBytes_eq saved, read]
    rfl
  have length : (saver.columnType id).width * saver.columnRows id =
      bytes.length := by
    rw [rows]
    exact Nat.mul_div_cancel' (Nat.dvd_of_mod_eq_zero
      (saved.whole id bytes read))
  refine ⟨fun _ => ?_, fun wrong => absurd trivial wrong, ?_⟩
  · obtain ⟨loaded, ran⟩ := loadElements_returns wellFormed nonzero unused
      (Nat.le_trans (Nat.le_of_eq length) sized) bytes
    have loads := loadElements_bytes wellFormed (Nat.le_of_eq length) ran
    rw [length, List.take_length] at loads
    have has : loaded.catalogHas id = true := by
      rw [catalogHas_eq loads.wellFormed, loads.contents_self]
      rfl
    refine ⟨_, loads.readsBack read (loadElements_beside ran), ?_⟩
    intro rest
    simp only [loadColumnData, ofCode_code, count, length,
      if_neg (Nat.not_lt.mpr sized), takeBytes_append, ran,
      Option.bind_eq_bind, Option.bind_some, withSavedName]
    split
    · rfl
    · simp only [nameColumn, has, if_true, Option.map_some]
  · intro part cut proper
    refine ⟨catalog, ?_⟩
    simp only [loadColumnData, ofCode_code, count, length,
      if_neg (Nat.not_lt.mpr sized),
      takeBytes_short (length_lt_of_cut cut proper)]

/-- A saved column in a catalog that has none of its id. -/
theorem loadColumn_back {saver catalog : Catalog κ}
    (saved : saver.WellFormed) (wellFormed : catalog.WellFormed)
    {id : UInt64} (registered : (saver.contents id).isSome)
    (unused : catalog.contents id = none) :
    ReadsRecord loadColumn (saver.savedColumn id)
      (UInt32.ofNat (saver.columnName id).length ≤ 4096) catalog
      (ReadsBack saver id catalog) := by
  obtain ⟨bytes, read⟩ := Option.isSome_iff_exists.mp registered
  have data := loadColumnData_back saved wellFormed read unused
  have record : saver.savedColumn id =
      (u64Bytes id ++ u32Bytes (saver.columnType id).code ++
        u64Bytes (UInt64.ofNat (saver.columnRows id)) ++
        u32Bytes (UInt32.ofNat (saver.columnName id).length)) ++
      (saver.savedName id ++ bytes) := by
    rw [savedColumn, read]
    simp only [columnRecord, stringRecord, savedName, castString,
      Option.getD_some, List.append_assoc]
  rw [record]
  refine .behind ?_ ⟨?_, ?_, ?_⟩
  · intro part short
    refine ⟨catalog, loadColumn_short ?_ catalog⟩
    simpa using short
  · intro fits
    obtain ⟨next, back, whole⟩ := data.accepts trivial
    refine ⟨next, back, ?_⟩
    intro rest
    simp only [List.append_assoc, loadColumn, readU64_u64Bytes,
      readU32_u32Bytes, if_neg (UInt32.not_lt.mpr fits),
      takeBytes_of_length _ (length_castString (saver.columnName id)),
      savedName]
    exact whole rest
  · intro long rest
    refine ⟨catalog, ?_⟩
    simp only [List.append_assoc, loadColumn, readU64_u64Bytes,
      readU32_u32Bytes, if_pos (UInt32.not_le.mp long)]
  · intro part cut proper
    simp only [List.append_assoc, loadColumn, readU64_u64Bytes,
      readU32_u32Bytes]
    split
    · exact ⟨catalog, rfl⟩
    rcases prefix_append_cases cut proper with
      ⟨within, some⟩ | ⟨more, rfl, cut, proper⟩
    · have short := length_lt_of_cut within some
      rw [savedName, length_castString] at short
      rw [takeBytes_short short]
      exact ⟨catalog, rfl⟩
    · simp only [savedName,
        takeBytes_of_length _ (length_castString (saver.columnName id))]
      exact data.cut more cut proper

end

/-! ## Sections -/

/-- The names that columns read back one after another are found by. -/
def reboundNames (saver : Catalog κ) (ids : List UInt64) : NameMap UInt64 :=
  ids.foldl (fun names id =>
    if (saver.savedName id).isEmpty then names
    else names.insert (saver.savedName id) id) ∅

/-- Some of the saved columns are there and nothing else. -/
structure ColumnsBack (saver : Catalog κ) (ids : List UInt64)
    (catalog : Catalog κ) : Prop where
  wellFormed : catalog.WellFormed
  contents : ∀ id, catalog.contents id =
    if id ∈ ids then saver.contents id else none
  columnType : ∀ id ∈ ids, catalog.columnType id = saver.columnType id
  columnName : ∀ id, catalog.columnName id =
    if id ∈ ids then saver.savedName id else []
  nameToId : catalog.nameToId = saver.reboundNames ids
  stringDicts : catalog.stringDicts = ∅
  stringEncoders : catalog.stringEncoders = ∅
  nullMasks : catalog.nullMasks = ∅

theorem columnsBack_fresh (saver : Catalog κ) (hostCap : Nat) :
    ColumnsBack saver [] (fresh hostCap) := by
  refine ⟨wellFormed_fresh hostCap, ?_, ?_, ?_, rfl, rfl, rfl, rfl⟩
  · intro id
    rw [if_neg List.not_mem_nil]
    rfl
  · intro id member
    exact absurd member List.not_mem_nil
  · intro id
    rw [if_neg List.not_mem_nil]
    rfl

theorem ReadsBack.columnName {saver before after : Catalog κ} {id : UInt64}
    (back : ReadsBack saver id before after)
    (unnamed : before.columnName id = []) (other : UInt64) :
    after.columnName other =
      if other = id then saver.savedName id else before.columnName other := by
  unfold Catalog.columnName
  rw [back.columnNames]
  by_cases own : other = id
  · subst own
    rw [if_pos rfl]
    split
    · rename_i empty
      rw [List.isEmpty_iff.mp empty]
      exact unnamed
    · rw [AList.lookup_insert]
      rfl
  · rw [if_neg own]
    split
    · rfl
    · rw [AList.lookup_insert_ne own]

theorem ColumnsBack.concat {saver before after : Catalog κ}
    {ids : List UInt64} {id : UInt64} (new : id ∉ ids)
    (columns : ColumnsBack saver ids before)
    (back : ReadsBack saver id before after) :
    ColumnsBack saver (ids ++ [id]) after := by
  have member : ∀ other, other ∈ ids ++ [id] ↔ other ∈ ids ∨ other = id := by
    intro other
    rw [List.mem_append, List.mem_singleton]
  have unnamed : before.columnName id = [] := by
    rw [columns.columnName, if_neg new]
  refine ⟨back.wellFormed, ?_, ?_, ?_, ?_, ?_, ?_, ?_⟩
  · intro other
    by_cases own : other = id
    · subst own
      rw [if_pos ((member other).mpr (.inr rfl)), back.contents_self]
    · rw [back.contents_ne other own, columns.contents]
      simp only [member, own, or_false]
  · intro other inside
    by_cases own : other = id
    · subst own
      exact back.columnType_self
    · rw [back.columnType_ne other own]
      exact columns.columnType other
        (((member other).mp inside).resolve_right own)
  · intro other
    rw [back.columnName unnamed]
    by_cases own : other = id
    · subst own
      rw [if_pos rfl, if_pos ((member other).mpr (.inr rfl))]
    · rw [if_neg own, columns.columnName]
      simp only [member, own, or_false]
  · rw [back.nameToId, columns.nameToId, reboundNames, reboundNames,
      List.foldl_append]
    rfl
  · exact back.texts.stringDicts.trans columns.stringDicts
  · exact back.texts.stringEncoders.trans columns.stringEncoders
  · exact back.texts.nullMasks.trans columns.nullMasks

theorem loadColumns_back [CostArith κ] {saver : Catalog κ}
    (saved : saver.WellFormed) {ids : List UInt64} (nodup : ids.Nodup)
    (registered : ∀ id ∈ ids, (saver.contents id).isSome) (hostCap : Nat) :
    ReadsRecord (readLoop loadColumn ids.length)
      (ids.flatMap saver.savedColumn)
      (∀ id ∈ ids, UInt32.ofNat (saver.columnName id).length ≤ 4096)
      (fresh hostCap) (ColumnsBack saver ids) := by
  refine .loop (ColumnsBack saver) ?_ (columnsBack_fresh saver hostCap)
  intro before id after whole catalog columns
  have member : id ∈ ids := by
    rw [whole]
    exact List.mem_append_right before List.mem_cons_self
  have new : id ∉ before := by
    intro twice
    rw [whole, List.nodup_append] at nodup
    exact nodup.2.2 id twice id List.mem_cons_self rfl
  have unused : catalog.contents id = none := by
    rw [columns.contents, if_neg new]
  exact (loadColumn_back saved columns.wellFormed (registered id member)
    unused).weaken Iff.rfl fun _ _ back => columns.concat new back

/-- Some of the saved dictionaries have been added. -/
structure DictsBack (saver columns : Catalog κ) (ids : List UInt64)
    (catalog : Catalog κ) : Prop where
  beside : catalog = { columns with
    stringDicts := catalog.stringDicts
    stringEncoders := catalog.stringEncoders }
  stringDicts : ∀ id, catalog.stringDicts.lookup id =
    if id ∈ ids then
      (saver.stringDicts.lookup id).map fun dict => dict.map castString
    else none
  stringEncoders : ∀ id, catalog.stringEncoders.lookup id =
    (catalog.stringDicts.lookup id).map encoderOf

theorem loadDicts_back {saver columns : Catalog κ} (coded : saver.Coded)
    {ids : List UInt64}
    (stored : ∀ id ∈ ids, ∃ dict, saver.stringDicts.lookup id = some dict)
    (stringDicts : columns.stringDicts = ∅)
    (stringEncoders : columns.stringEncoders = ∅) :
    ReadsRecord (readLoop loadDict ids.length) (ids.flatMap saver.dictRecord)
      (∀ id ∈ ids, ∀ dict, saver.stringDicts.lookup id = some dict →
        ∀ string ∈ dict, UInt32.ofNat string.length ≤ 1048576) columns
      (DictsBack saver columns ids) := by
  refine .loop (DictsBack saver columns) ?_ ⟨rfl, ?_, ?_⟩
  · intro before id after whole catalog dicts
    obtain ⟨dict, found⟩ := stored id (by
      rw [whole]
      exact List.mem_append_right before List.mem_cons_self)
    have good : (∀ string ∈ dict, UInt32.ofNat string.length ≤ 1048576) ↔
        ∀ content, saver.stringDicts.lookup id = some content →
          ∀ string ∈ content, UInt32.ofNat string.length ≤ 1048576 := by
      rw [found]
      simp
    refine (loadDict_reads coded found catalog).weaken good ?_
    rintro _ _ rfl
    refine ⟨?_, ?_, ?_⟩
    · rw [dicts.beside]
    · intro other
      simp only [List.mem_append, List.mem_singleton]
      by_cases own : other = id
      · subst own
        rw [AList.lookup_insert, if_pos (.inr rfl), found]
        rfl
      · rw [AList.lookup_insert_ne own, dicts.stringDicts]
        simp only [own, or_false]
    · intro other
      by_cases own : other = id
      · subst own
        simp only [AList.lookup_insert, Option.map_some]
      · simp only [AList.lookup_insert_ne own]
        exact dicts.stringEncoders other
  · intro id
    rw [stringDicts, if_neg List.not_mem_nil]
    rfl
  · intro id
    rw [stringDicts, stringEncoders]
    rfl

/-- Some of the saved masks have been added. -/
structure MasksBack (saver dicts : Catalog κ) (ids : List UInt64)
    (catalog : Catalog κ) : Prop where
  beside : catalog = { dicts with nullMasks := catalog.nullMasks }
  nullMasks : ∀ id, catalog.nullMasks.lookup id =
    if id ∈ ids then saver.nullMasks.lookup id else none

theorem loadMasks_back {saver dicts : Catalog κ} (coded : saver.Coded)
    {ids : List UInt64}
    (stored : ∀ id ∈ ids, ∃ mask, saver.nullMasks.lookup id = some mask)
    (nullMasks : dicts.nullMasks = ∅) :
    ReadsRecord (readLoop loadMask ids.length) (ids.flatMap saver.maskRecord)
      (∀ id ∈ ids, ∀ mask, saver.nullMasks.lookup id = some mask →
        mask.length ≤ 4294967296) dicts (MasksBack saver dicts ids) := by
  refine .loop (MasksBack saver dicts) ?_ ⟨rfl, ?_⟩
  · intro before id after whole catalog masks
    obtain ⟨mask, found⟩ := stored id (by
      rw [whole]
      exact List.mem_append_right before List.mem_cons_self)
    have good : mask.length ≤ 4294967296 ↔
        ∀ content, saver.nullMasks.lookup id = some content →
          content.length ≤ 4294967296 := by
      rw [found]
      simp
    refine (loadMask_reads coded found catalog).weaken good ?_
    rintro _ _ rfl
    refine ⟨?_, ?_⟩
    · rw [masks.beside]
    · intro other
      simp only [List.mem_append, List.mem_singleton]
      by_cases own : other = id
      · subst own
        rw [AList.lookup_insert, if_pos (.inr rfl), found]
      · rw [AList.lookup_insert_ne own, masks.nullMasks]
        simp only [own, or_false]
  · intro id
    rw [nullMasks, if_neg List.not_mem_nil]
    rfl

end Catalog

end MatrixDB
