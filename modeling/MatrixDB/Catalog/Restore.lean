import MatrixDB.Catalog.Snapshot
import Mathlib.Order.Interval.Finset.Nat

/-!
# Loading a saved snapshot

The reader stays in step with the writer: it reads every record of a saved
file from its first to its last byte, unless it refuses one.  What it has
restored by then is as sound as what was saved.
-/

namespace MatrixDB

open Lib

variable {κ : Type}

namespace Catalog

/-! ## Sound catalogs -/

/-- A well-formed catalog whose masks and dictionaries belong to columns. -/
structure Sound (catalog : Catalog κ) : Prop where
  wellFormed : catalog.WellFormed
  masks : catalog.MasksFit
  dicts : ∀ id dict, catalog.stringDicts.lookup id = some dict →
    (catalog.contents id).isSome ∧ dict.length ≤ MAX_VECTOR_BYTES

theorem sound_fresh (hostCap : Nat) : (fresh hostCap : Catalog κ).Sound := by
  refine ⟨wellFormed_fresh hostCap, masksFit_fresh hostCap, ?_⟩
  intro id dict stored
  cases stored

theorem Sound.keeps {before after : Catalog κ} (sound : before.Sound)
    (keeps : Keeps before after) : after.Sound := by
  refine ⟨keeps.wellFormed, sound.masks.keeps sound.wellFormed keeps, ?_⟩
  intro id dict stored
  rw [keeps.contents]
  exact sound.dicts id dict (keeps.stringDicts ▸ stored)

theorem Sound.loads {before after : Catalog κ} (sound : before.Sound)
    {id : UInt64} {ty : MatrixType} {bytes : Bytes}
    (loads : Loads before id ty bytes after) : after.Sound := by
  refine ⟨loads.wellFormed, sound.masks.loads sound.wellFormed loads, ?_⟩
  intro other dict stored
  rw [loads.stringDicts] at stored
  obtain ⟨registered, bounded⟩ := sound.dicts other dict stored
  have different : other ≠ id := by
    intro own
    subst own
    rw [loads.unused] at registered
    cases registered
  rw [loads.contents_ne other different]
  exact ⟨registered, bounded⟩

/-- A dictionary of a registered column. -/
theorem Sound.insertDict {catalog : Catalog κ} (sound : catalog.Sound)
    {id : UInt64} (registered : (catalog.contents id).isSome)
    {dict : List Bytes} (bounded : dict.length ≤ MAX_VECTOR_BYTES)
    (encoders : IdMap (NameMap UInt32)) :
    ({ catalog with
      stringDicts := catalog.stringDicts.insert id dict
      stringEncoders := encoders } : Catalog κ).Sound := by
  refine ⟨wellFormed_dicts sound.wellFormed _ _,
    ⟨sound.masks.registered, sound.masks.aligned⟩, ?_⟩
  intro other content stored
  by_cases own : other = id
  · subst own
    rw [AList.lookup_insert] at stored
    cases stored
    exact ⟨registered, bounded⟩
  · rw [AList.lookup_insert_ne own] at stored
    exact sound.dicts other content stored

/-- A mask of a registered column with one entry for each row. -/
theorem Sound.insertMask {catalog : Catalog κ} (sound : catalog.Sound)
    {id : UInt64} {mask : Bytes} (registered : (catalog.contents id).isSome)
    (length : mask.length = catalog.columnRows id) :
    ({ catalog with
      nullMasks := catalog.nullMasks.insert id mask } : Catalog κ).Sound :=
  ⟨wellFormed_nullMasks sound.wellFormed _,
    sound.masks.insert registered length, sound.dicts⟩

theorem Sound.names {catalog : Catalog κ} (sound : catalog.Sound)
    (names : IdMap Bytes) (ids : NameMap UInt64) :
    ({ catalog with columnNames := names, nameToId := ids } :
      Catalog κ).Sound :=
  ⟨wellFormed_names sound.wellFormed names ids,
    ⟨sound.masks.registered, sound.masks.aligned⟩, sound.dicts⟩

/-! ## Counts that fit their field -/

theorem length_lt_of_ids {ids : List UInt64} (nodup : ids.Nodup)
    (nonzero : 0 ∉ ids) : ids.length < 18446744073709551616 := by
  have distinct : (ids.map UInt64.toNat).Nodup :=
    nodup.map fun _ _ => UInt64.toNat_inj.mp
  have within : (ids.map UInt64.toNat).toFinset ⊆
      Finset.Ioo 0 18446744073709551616 := by
    intro value member
    obtain ⟨id, inside, rfl⟩ := List.mem_map.mp (List.mem_toFinset.mp member)
    rw [Finset.mem_Ioo]
    refine ⟨Nat.pos_of_ne_zero ?_, id.toNat_lt⟩
    intro zero
    apply nonzero
    have same : id = 0 := UInt64.toNat_inj.mp zero
    exact same ▸ inside
  have bounded := Finset.card_le_card within
  rw [List.toFinset_card_of_nodup distinct, List.length_map,
    Nat.card_Ioo] at bounded
  omega

theorem toNat_ofNat_length {A : Type} {items : List A}
    (fits : items.length < 18446744073709551616) :
    (UInt64.ofNat items.length).toNat = items.length :=
  UInt64.toNat_ofNat_of_lt' fits

theorem columnRows_lt {catalog : Catalog κ} (wellFormed : catalog.WellFormed)
    (id : UInt64) : catalog.columnRows id < 18446744073709551616 := by
  apply lt_of_le_of_lt (Nat.div_le_self _ _)
  exact lt_of_le_of_lt (sizeBytes_le wellFormed id) (by decide)

theorem length_take_cast (string : Bytes) :
    (string.take (UInt32.ofNat string.length).toNat).length =
      (UInt32.ofNat string.length).toNat := by
  rw [List.length_take]
  apply Nat.min_eq_left
  rw [UInt32.toNat_ofNat']
  exact Nat.mod_le _ _

theorem ofCode_code (ty : MatrixType) :
    MatrixType.ofCode ty.code = some ty := by
  cases ty <;> rfl

/-! ## Columns -/

/-- A saved column is there again, with its rows. -/
def Restored (saver catalog : Catalog κ) (id : UInt64) : Prop :=
  (catalog.contents id).isSome ∧ catalog.columnRows id = saver.columnRows id

theorem Loads.columnRows_ne {before after : Catalog κ}
    (wellFormed : before.WellFormed) {id : UInt64} {ty : MatrixType}
    {bytes : Bytes} (loads : Loads before id ty bytes after) {other : UInt64}
    (different : other ≠ id) :
    after.columnRows other = before.columnRows other := by
  rw [columnRows, sizeBytes_eq loads.wellFormed,
    loads.contents_ne other different, loads.columnType_ne other different,
    ← sizeBytes_eq wellFormed]
  rfl

theorem Loads.columnRows_self {before after : Catalog κ} {id : UInt64}
    {ty : MatrixType} {bytes : Bytes} (loads : Loads before id ty bytes after) :
    after.columnRows id = bytes.length / ty.width := by
  rw [columnRows, sizeBytes_eq loads.wellFormed, loads.contents_self,
    loads.columnType_self]
  rfl

/-- A name is given only to a column that has one in the file. -/
theorem named_sound {before after : Catalog κ} (sound : before.Sound)
    {id : UInt64} {name : Bytes}
    (named : (if name.isEmpty then some before
      else before.nameColumn id name) = some after) :
    after.Sound ∧ ∀ other, after.contents other = before.contents other ∧
      after.columnRows other = before.columnRows other := by
  split at named
  · cases named
    exact ⟨sound, fun _ => ⟨rfl, rfl⟩⟩
  · rw [nameColumn_eq named]
    exact ⟨sound.names _ _, fun _ => ⟨rfl, rfl⟩⟩

section
variable [CostArith κ]

theorem loadElements_loads {before after : Catalog κ}
    (wellFormed : before.WellFormed) {ty : MatrixType} {id : UInt64}
    {count : Nat} {bytes : Bytes}
    (loaded : before.loadElements ty id count bytes = some after) :
    ∃ stored, stored.length = ty.width * count ∧
      Loads before id ty stored after := by
  cases ty with
  | U32 =>
      refine ⟨_, ?_, loadScanColumn_loads wellFormed loaded⟩
      rw [length_flatMap_u32Bytes, List.length_map, List.length_range]
      rfl
  | I64 =>
      refine ⟨_, ?_, loadScanColumnI64_loads wellFormed loaded⟩
      rw [length_flatMap_u64Bytes Int64.toUInt64, List.length_map,
        List.length_range]
      rfl
  | F64 =>
      have length := length_flatMap_u64Bytes (fun value => value)
        ((List.range count).map (u64At bytes))
      refine ⟨_, ?_, loadScanColumnF64_loads wellFormed loaded⟩
      rw [length, List.length_map, List.length_range]
      rfl

theorem loadColumnData_saved {saver catalog : Catalog κ}
    (wellFormed : saver.WellFormed) {id : UInt64} {bytes : Bytes}
    (read : saver.contents id = some bytes) (sound : catalog.Sound)
    {name rest : Bytes} {out : Option Bytes} {after : Catalog κ}
    (ran : catalog.loadColumnData id (saver.columnType id).code
      (UInt64.ofNat (saver.columnRows id)) name (bytes ++ rest) =
        some (out, after)) :
    out = some rest ∧ after.Sound ∧ Restored saver after id ∧
      ∀ other, other ≠ id → Restored saver catalog other →
        Restored saver after other := by
  have rows : saver.columnRows id =
      bytes.length / (saver.columnType id).width := by
    rw [columnRows, sizeBytes_eq wellFormed, read]
    rfl
  have sized := wellFormed.sized id bytes read
  have count : (UInt64.ofNat (saver.columnRows id)).toNat =
      saver.columnRows id :=
    UInt64.toNat_ofNat_of_lt' (columnRows_lt wellFormed id)
  have length : (saver.columnType id).width * saver.columnRows id =
      bytes.length := by
    rw [rows]
    exact Nat.mul_div_cancel' (Nat.dvd_of_mod_eq_zero
      (wellFormed.whole id bytes read))
  unfold loadColumnData at ran
  simp only [ofCode_code, count, length, if_neg (Nat.not_lt.mpr sized),
    takeBytes_append, Option.bind_eq_bind, Option.bind_eq_some_iff,
    Option.map_eq_some_iff, Prod.mk.injEq] at ran
  obtain ⟨loaded, first, named, second, same, rfl⟩ := ran
  obtain ⟨stored, storedLength, loads⟩ :=
    loadElements_loads sound.wellFormed first
  obtain ⟨namedSound, unchanged⟩ := named_sound (sound.loads loads) second
  have positive : 0 < (saver.columnType id).width := by
    cases saver.columnType id <;> decide
  refine ⟨same.symm, namedSound, ?_, ?_⟩
  · constructor
    · rw [(unchanged id).1, loads.contents_self]
      rfl
    · rw [(unchanged id).2, loads.columnRows_self, storedLength]
      exact Nat.mul_div_cancel_left _ positive
  · intro other different restored
    constructor
    · rw [(unchanged other).1, loads.contents_ne other different]
      exact restored.1
    · rw [(unchanged other).2,
        loads.columnRows_ne sound.wellFormed different]
      exact restored.2

theorem loadColumn_saved {saver catalog : Catalog κ}
    (wellFormed : saver.WellFormed) {id : UInt64}
    (registered : (saver.contents id).isSome) (sound : catalog.Sound)
    {rest : Bytes} {out : Option Bytes} {after : Catalog κ}
    (ran : loadColumn (saver.savedColumn id ++ rest) catalog =
      some (out, after)) :
    (out = none ∧ after = catalog) ∨
      (out = some rest ∧ after.Sound ∧ Restored saver after id ∧
        ∀ other, other ≠ id → Restored saver catalog other →
          Restored saver after other) := by
  obtain ⟨bytes, read⟩ := Option.isSome_iff_exists.mp registered
  have record : saver.savedColumn id = saver.columnRecord id bytes := by
    rw [savedColumn, read]
    rfl
  rw [record] at ran
  simp only [columnRecord, stringRecord, List.append_assoc, loadColumn,
    readU64_u64Bytes, readU32_u32Bytes] at ran
  split at ran
  · cases ran
    exact .inl ⟨rfl, rfl⟩
  · rw [takeBytes_of_length _ (length_take_cast (saver.columnName id))] at ran
    exact .inr (loadColumnData_saved wellFormed read sound ran)

end

/-! ## Dictionaries and masks -/

theorem loadString_saved {string rest : Bytes}
    {read after : List Bytes × NameMap UInt32} {out : Option Bytes}
    (ran : loadString (stringRecord string ++ rest) read =
      some (out, after)) :
    (out = none ∧ True) ∨
      (out = some rest ∧ after.1.length = read.1.length + 1) := by
  simp only [stringRecord, List.append_assoc, loadString,
    readU32_u32Bytes] at ran
  split at ran
  · cases ran
    exact .inl ⟨rfl, trivial⟩
  · rw [takeBytes_of_length _ (length_take_cast string)] at ran
    cases ran
    exact .inr ⟨rfl, by simp⟩

theorem loadDict_saved {saver catalog : Catalog κ} (saved : saver.Sound)
    {id : UInt64} {dict : List Bytes}
    (stored : saver.stringDicts.lookup id = some dict)
    (registered : (catalog.contents id).isSome) (sound : catalog.Sound)
    {rest : Bytes} {out : Option Bytes} {after : Catalog κ}
    (ran : loadDict (saver.dictRecord id ++ rest) catalog =
      some (out, after)) :
    (out = none ∧ after.Sound) ∨
      (out = some rest ∧ after.Sound ∧
        ∀ other, Restored saver catalog other →
          Restored saver after other) := by
  have bounded := (saved.dicts id dict stored).2
  have fits : dict.length < 18446744073709551616 :=
    lt_of_le_of_lt bounded (by decide)
  simp only [dictRecord, stored, Option.getD_some, List.append_assoc,
    loadDict, readU64_u64Bytes, toNat_ofNat_length fits] at ran
  split at ran
  · cases ran
    exact .inl ⟨rfl, sound⟩
  split at ran
  · cases ran
  · cases ran
    exact .inl ⟨rfl, sound⟩
  · rename_i strings
    have whole := readLoop_written
      (fun before read => read.1.length = before.length) (fun _ => True)
      (by
        intro before string _ _ rest read out after length ran
        rcases loadString_saved ran with bad | ⟨same, more⟩
        · exact .inl bad
        · refine .inr ⟨same, ?_⟩
          rw [more, length, List.length_append]
          rfl) rfl strings
    cases ran
    rcases whole with ⟨wrong, _⟩ | ⟨same, length⟩
    · cases wrong
    · refine .inr ⟨same, ?_, fun _ restored => restored⟩
      exact sound.insertDict registered (length ▸ bounded) _

theorem loadMask_saved {saver catalog : Catalog κ} (saved : saver.Sound)
    {id : UInt64} {mask : Bytes}
    (stored : saver.nullMasks.lookup id = some mask)
    (restored : Restored saver catalog id) (sound : catalog.Sound)
    {rest : Bytes} {out : Option Bytes} {after : Catalog κ}
    (ran : loadMask (saver.maskRecord id ++ rest) catalog =
      some (out, after)) :
    (out = none ∧ after.Sound) ∨
      (out = some rest ∧ after.Sound ∧
        ∀ other, Restored saver catalog other →
          Restored saver after other) := by
  have aligned := saved.masks.aligned id mask stored
  have fits : mask.length < 18446744073709551616 := by
    rw [aligned]
    exact columnRows_lt saved.wellFormed id
  simp only [maskRecord, stored, Option.getD_some, List.append_assoc,
    loadMask, readU64_u64Bytes, toNat_ofNat_length fits,
    takeBytes_append] at ran
  split at ran
  · cases ran
    exact .inl ⟨rfl, sound⟩
  · cases ran
    refine .inr ⟨rfl, ?_, fun _ restored => restored⟩
    exact sound.insertMask restored.1 (aligned.trans restored.2.symm)

/-! ## The whole file -/

theorem registered_of_mem_keys {catalog : Catalog κ}
    (wellFormed : catalog.WellFormed) {id : UInt64}
    (member : id ∈ catalog.columns.keys) : (catalog.contents id).isSome := by
  obtain ⟨column, found⟩ := Option.isSome_iff_exists.mp
    (AList.lookup_isSome.mpr (AList.mem_keys.mp member))
  obtain ⟨bytes, holds⟩ := wellFormed.held id column found
  rw [contents, contentsOf_eq found holds]
  rfl

/-- The count written for a map fits its field. -/
theorem length_walked_lt {V : Type} {catalog : Catalog κ}
    (wellFormed : catalog.WellFormed) {map : IdMap V} {ids : List UInt64}
    (walks : ids.Perm map.keys)
    (registered : ∀ id ∈ ids, (catalog.contents id).isSome) :
    ids.length < 18446744073709551616 := by
  apply length_lt_of_ids (walks.nodup_iff.mpr map.keys_nodup)
  intro zero
  have there := registered 0 zero
  rw [wellFormed.zero] at there
  cases there

/-- A trailing section written item by item. -/
theorem loadSection_saved {saver catalog : Catalog κ} {ids : List UInt64}
    {record : UInt64 → Bytes}
    {item : Bytes → Catalog κ → Option (Option Bytes × Catalog κ)}
    (fits : ids.length < 18446744073709551616)
    (saves : ∀ id ∈ ids, ∀ rest catalog out after, catalog.Sound →
      (∀ column ∈ saver.columns.keys, Restored saver catalog column) →
      item (record id ++ rest) catalog = some (out, after) →
      (out = none ∧ after.Sound) ∨
        (out = some rest ∧ after.Sound ∧
          ∀ other, Restored saver catalog other → Restored saver after other))
    (sound : catalog.Sound)
    (restored : ∀ id ∈ saver.columns.keys, Restored saver catalog id)
    {rest : Bytes} {out : Option Bytes} {after : Catalog κ}
    (ran : loadSection item (u64Bytes (UInt64.ofNat ids.length) ++
      (ids.flatMap record ++ rest)) catalog = some (out, after)) :
    (out = none ∧ after.Sound) ∨
      (out = some rest ∧ after.Sound ∧
        ∀ id ∈ saver.columns.keys, Restored saver after id) := by
  simp only [loadSection, readU64_u64Bytes, toNat_ofNat_length fits] at ran
  apply readLoop_written
    (fun _ catalog => catalog.Sound ∧
      ∀ id ∈ saver.columns.keys, Restored saver catalog id)
    Catalog.Sound _ ⟨sound, restored⟩ ran
  intro before id later whole rest catalog out after read ran
  have member : id ∈ ids := by
    rw [whole]
    exact List.mem_append_right before List.mem_cons_self
  rcases saves id member rest catalog out after read.1 read.2 ran with
    bad | ⟨same, afterSound, keeps⟩
  · exact .inl bad
  · refine .inr ⟨same, afterSound, ?_⟩
    intro other there
    exact keeps other (read.2 other there)

theorem exists_lookup_of_walked {V : Type} {map : IdMap V} {ids : List UInt64}
    (walks : ids.Perm map.keys) {id : UInt64} (member : id ∈ ids) :
    ∃ value, map.lookup id = some value := by
  apply Option.isSome_iff_exists.mp
  exact AList.lookup_isSome.mpr (AList.mem_keys.mp (walks.mem_iff.mp member))

theorem mem_keys_of_registered {catalog : Catalog κ} {id : UInt64}
    (registered : (catalog.contents id).isSome) :
    id ∈ catalog.columns.keys := by
  apply AList.mem_keys.mpr
  apply AList.lookup_isSome.mp
  cases found : catalog.columns.lookup id with
  | none => simp [contents, contentsOf, found] at registered
  | some column => rfl

theorem loadTrailing_saved {saver catalog : Catalog κ} (saved : saver.Sound)
    {order : WalkOrder} (walks : order.Walks saver) (sound : catalog.Sound)
    (restored : ∀ id ∈ saver.columns.keys, Restored saver catalog id)
    {out : Option Bytes} {after : Catalog κ}
    (ran : loadTrailing
      (u64Bytes (UInt64.ofNat order.dicts.length) ++
        (order.dicts.flatMap saver.dictRecord ++
      (u64Bytes (UInt64.ofNat order.masks.length) ++
        order.masks.flatMap saver.maskRecord))) catalog =
        some (out, after)) : after.Sound := by
  have dictsFit := length_walked_lt saved.wellFormed walks.dicts (by
    intro id member
    obtain ⟨dict, stored⟩ := exists_lookup_of_walked walks.dicts member
    exact (saved.dicts id dict stored).1)
  have masksFit := length_walked_lt saved.wellFormed walks.masks (by
    intro id member
    obtain ⟨mask, stored⟩ := exists_lookup_of_walked walks.masks member
    exact saved.masks.registered id mask stored)
  have dicts : ∀ {rest out middle},
      loadSection loadDict (u64Bytes (UInt64.ofNat order.dicts.length) ++
        (order.dicts.flatMap saver.dictRecord ++ rest)) catalog =
          some (out, middle) →
      (out = none ∧ middle.Sound) ∨ (out = some rest ∧ middle.Sound ∧
        ∀ id ∈ saver.columns.keys, Restored saver middle id) := by
    intro rest out middle ran
    apply loadSection_saved dictsFit _ sound restored ran
    intro id member rest catalog out after sound restored ran
    obtain ⟨dict, stored⟩ := exists_lookup_of_walked walks.dicts member
    have registered := mem_keys_of_registered (saved.dicts id dict stored).1
    exact loadDict_saved saved stored (restored id registered).1 sound ran
  unfold loadTrailing at ran
  split at ran
  · cases ran
  · rename_i refusedDict
    cases ran
    rcases dicts refusedDict with ⟨_, bad⟩ | ⟨wrong, _⟩
    · exact bad
    · cases wrong
  · rename_i read
    rcases dicts read with ⟨wrong, _⟩ | ⟨same, middleSound, still⟩
    · cases wrong
    cases same
    rw [← List.append_nil (order.masks.flatMap saver.maskRecord)] at ran
    have masks := loadSection_saved masksFit (by
      intro id member rest catalog out after sound restored ran
      obtain ⟨mask, stored⟩ := exists_lookup_of_walked walks.masks member
      have registered := mem_keys_of_registered
        (saved.masks.registered id mask stored)
      exact loadMask_saved saved stored (restored id registered) sound ran)
      middleSound still ran
    rcases masks with ⟨_, bad⟩ | ⟨_, good, _⟩
    · exact bad
    · exact good

section
variable [CostArith κ]

theorem loadColumns_saved {saver catalog : Catalog κ} (saved : saver.Sound)
    {ids : List UInt64} (walks : ids.Perm saver.columns.keys)
    (sound : catalog.Sound) {rest : Bytes} {out : Option Bytes}
    {after : Catalog κ}
    (ran : readLoop loadColumn ids.length
      (ids.flatMap saver.savedColumn ++ rest) catalog = some (out, after)) :
    (out = none ∧ after.Sound) ∨
      (out = some rest ∧ after.Sound ∧
        ∀ id ∈ ids, Restored saver after id) := by
  apply readLoop_written
    (fun before catalog => catalog.Sound ∧
      ∀ id ∈ before, Restored saver catalog id)
    Catalog.Sound _ ⟨sound, by simp⟩ ran
  intro before id later whole rest catalog out after read ran
  have member : id ∈ ids := by
    rw [whole]
    exact List.mem_append_right before List.mem_cons_self
  have registered := registered_of_mem_keys saved.wellFormed
    (walks.mem_iff.mp member)
  rcases loadColumn_saved saved.wellFormed registered read.1 ran with
    ⟨bad, same⟩ | ⟨same, afterSound, own, others⟩
  · exact .inl ⟨bad, same ▸ read.1⟩
  · refine .inr ⟨same, afterSound, ?_⟩
    intro other there
    by_cases new : other = id
    · subst new
      exact own
    · rcases List.mem_append.mp there with old | last
      · exact others other new (read.2 other old)
      · exact absurd (List.mem_singleton.mp last) new

/-- Whatever a load of a saved file restores is sound. -/
theorem loadCatalog_sound {saver catalog : Catalog κ} (saved : saver.Sound)
    {order : WalkOrder} (walks : order.Walks saver) (sound : catalog.Sound)
    {ok : Bool} {after : Catalog κ}
    (ran : catalog.loadCatalog (saver.snapshot order) = some (ok, after)) :
    after.Sound := by
  have columnsFit := length_walked_lt saved.wellFormed walks.columns (by
    intro id member
    exact registered_of_mem_keys saved.wellFormed
      (walks.columns.mem_iff.mp member))
  simp only [loadCatalog, snapshot, readU32_u32Bytes, ne_eq,
    not_true_eq_false, if_false, loadSections, readU64_u64Bytes,
    toNat_ofNat_length columnsFit, Option.map_eq_some_iff,
    Prod.mk.injEq] at ran
  obtain ⟨⟨out, restored⟩, ran, _, rfl⟩ := ran
  split at ran
  · cases ran
  · rename_i columns
    cases ran
    rcases loadColumns_saved saved walks.columns sound columns with
      ⟨_, bad⟩ | ⟨wrong, _⟩
    · exact bad
    · cases wrong
  · rename_i columns
    rcases loadColumns_saved saved walks.columns sound columns with
      ⟨wrong, _⟩ | ⟨same, soundColumns, restoredColumns⟩
    · cases wrong
    cases same
    apply loadTrailing_saved saved walks soundColumns _ ran
    intro id member
    exact restoredColumns id (walks.columns.mem_iff.mpr member)

end

end Catalog

end MatrixDB
