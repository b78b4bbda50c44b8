import MatrixDB.Catalog.Live
import MatrixDB.Lib.Records

/-!
# Invariants of what stands beside the columns

A call registers columns, and otherwise gives a column a dictionary with its
encoder, a mask or a name.  A property that none of these four disturbs holds
in every state of an engine.
-/

namespace MatrixDB

open Lib

variable {κ : Type}

namespace Catalog

/-- Nothing has been done to the dictionaries and the masks. -/
structure SameTexts (before after : Catalog κ) : Prop where
  stringDicts : after.stringDicts = before.stringDicts
  stringEncoders : after.stringEncoders = before.stringEncoders
  nullMasks : after.nullMasks = before.nullMasks

/-- A change apart from the dictionaries, the masks and the names, which loses
no column. -/
structure Elsewhere (before after : Catalog κ) : Prop
    extends SameTexts before after where
  nameToId : after.nameToId = before.nameToId
  registered : ∀ id, (before.columns.lookup id).isSome →
    (after.columns.lookup id).isSome

/-- A property that every change of a catalog keeps. -/
structure Lasting (P : Catalog κ → Prop) : Prop where
  elsewhere : ∀ {before after}, P before → Elsewhere before after → P after
  insertDict : ∀ {catalog : Catalog κ} (id : UInt64) {dict : List Bytes},
    P catalog → dict.length ≤ 4294967296 →
    P { catalog with
      stringDicts := catalog.stringDicts.insert id dict
      stringEncoders := catalog.stringEncoders.insert id (encoderOf dict) }
  insertMask : ∀ {catalog : Catalog κ} (id : UInt64) {mask : Bytes},
    P catalog → mask.length < 18446744073709551616 →
    P { catalog with nullMasks := catalog.nullMasks.insert id mask }
  name : ∀ {catalog : Catalog κ} (id : UInt64) (name : Bytes),
    P catalog → (catalog.columns.lookup id).isSome →
    P { catalog with
      columnNames := catalog.columnNames.insert id name
      nameToId := catalog.nameToId.insert name id }

/-! ## Changes elsewhere -/

theorem Elsewhere.refl (catalog : Catalog κ) : Elsewhere catalog catalog :=
  ⟨⟨rfl, rfl, rfl⟩, rfl, fun _ known => known⟩

/-- Changes of the counters, the manager and the types. -/
theorem Elsewhere.beside {before after : Catalog κ}
    (texts : SameTexts before after) (names : after.nameToId = before.nameToId)
    (columns : after.columns = before.columns) : Elsewhere before after :=
  ⟨texts, names, fun id known => by rw [columns]; exact known⟩

theorem SameData.elsewhere {before after : Catalog κ}
    (same : SameData before after) (wellFormed : before.WellFormed)
    (wellFormed' : after.WellFormed) : Elsewhere before after := by
  refine ⟨⟨same.stringDicts.symm, same.stringEncoders.symm,
    same.nullMasks.symm⟩, same.nameToId.symm, ?_⟩
  intro id known
  rw [isSome_lookup_eq wellFormed, same.contents] at known
  rw [isSome_lookup_eq wellFormed']
  exact known

theorem isSome_lookup_insert {V : Type} {map : IdMap V} {id other : UInt64}
    (value : V) (known : (map.lookup id).isSome) :
    ((map.insert other value).lookup id).isSome := by
  by_cases own : id = other
  · subst own
    rw [AList.lookup_insert]
    rfl
  · rw [AList.lookup_insert_ne own]
    exact known

section
variable [CostArith κ] {before after : Catalog κ}

/-- A load touches the columns, their types and the manager. -/
theorem loadBytes_beside {id : UInt64} {bytes : Bytes}
    (loaded : before.loadBytes id bytes = some after) :
    after = { before with
      columns := after.columns
      tierMgr := after.tierMgr } := by
  unfold loadBytes at loaded
  split at loaded
  · cases loaded
  split at loaded
  · cases loaded
  split at loaded
  · cases loaded
  cases loaded
  rfl

theorem loadElements_beside {ty : MatrixType} {id : UInt64} {count : Nat}
    {bytes : Bytes}
    (loaded : before.loadElements ty id count bytes = some after) :
    after = { before with
      columns := after.columns
      colTypes := after.colTypes
      tierMgr := after.tierMgr } := by
  cases ty with
  | U32 => rw [loadBytes_beside loaded]
  | I64 =>
      obtain ⟨middle, first, rest⟩ := Option.bind_eq_some_iff.mp loaded
      cases rest
      rw [loadBytes_beside first]
  | F64 =>
      obtain ⟨middle, first, rest⟩ := Option.bind_eq_some_iff.mp loaded
      cases rest
      rw [loadBytes_beside first]

theorem registered_loadBytes {id : UInt64} {bytes : Bytes}
    (loaded : before.loadBytes id bytes = some after) (other : UInt64)
    (known : (before.columns.lookup other).isSome) :
    (after.columns.lookup other).isSome := by
  unfold loadBytes at loaded
  split at loaded
  · cases loaded
  split at loaded
  · cases loaded
  split at loaded
  · cases loaded
  cases loaded
  exact isSome_lookup_insert _ known

theorem elsewhere_loadBytes {id : UInt64} {bytes : Bytes}
    (loaded : before.loadBytes id bytes = some after) :
    Elsewhere before after := by
  have registered := registered_loadBytes loaded
  rw [loadBytes_beside loaded]
  exact ⟨⟨rfl, rfl, rfl⟩, rfl, registered⟩

/-- The two wide loads. -/
theorem elsewhere_loadWide {id : UInt64} {bytes : Bytes} {ty : MatrixType}
    (loaded : (do
      let catalog ← before.loadBytes id bytes
      some { catalog with colTypes := catalog.colTypes.insert id ty }) =
        some after) : Elsewhere before after := by
  obtain ⟨middle, first, rest⟩ := Option.bind_eq_some_iff.mp loaded
  cases rest
  obtain ⟨texts, names, registered⟩ := elsewhere_loadBytes first
  exact ⟨⟨texts.stringDicts, texts.stringEncoders, texts.nullMasks⟩, names,
    registered⟩

theorem elsewhere_loadElements {ty : MatrixType} {id : UInt64} {count : Nat}
    {bytes : Bytes}
    (loaded : before.loadElements ty id count bytes = some after) :
    Elsewhere before after := by
  cases ty with
  | U32 => exact elsewhere_loadBytes loaded
  | I64 => exact elsewhere_loadWide loaded
  | F64 => exact elsewhere_loadWide loaded

theorem elsewhere_loadColumnFromFile {id : UInt64} {file : Bytes}
    (loaded : before.loadColumnFromFile id file = some after) :
    Elsewhere before after := by
  obtain ⟨_, _, loaded⟩ := Option.bind_eq_some_iff.mp loaded
  exact elsewhere_loadElements loaded

omit [CostArith κ] in
theorem elsewhere_appendTyped (wellFormed : before.WellFormed)
    {ty : MatrixType} {id : UInt64} {more : Bytes} {rows : Nat}
    (length : more.length = ty.width * rows)
    (appended : appendTyped ty before id more = some after) :
    Elsewhere before after := by
  obtain ⟨_, _, appends⟩ :=
    appendTyped_appendsRows wellFormed length appended
  have registered : ∀ other, (before.columns.lookup other).isSome →
      (after.columns.lookup other).isSome := by
    intro other known
    rw [isSome_lookup_eq wellFormed] at known
    rw [isSome_lookup_eq appends.wellFormed]
    by_cases own : other = id
    · subst own
      obtain ⟨bytes, _, grown⟩ := appends.contents_self
      rw [grown]
      rfl
    · rw [appends.contents_ne other own]
      exact known
  rw [appendTyped_beside appended] at registered ⊢
  exact ⟨⟨rfl, rfl, rfl⟩, rfl, registered⟩

end

/-! ## Snapshots -/

/-- A string that is read is given the next code, unless it has one. -/
theorem encoderOf_concat (dict : List Bytes) (string : Bytes) :
    encoderOf (dict ++ [string]) =
      if ((encoderOf dict).lookup string).isSome then encoderOf dict
      else (encoderOf dict).insert string (UInt32.ofNat dict.length) := by
  unfold encoderOf
  rw [List.zipIdx_append, List.foldl_append, Nat.zero_add]
  rfl

theorem loadString_some {input rest : Bytes}
    {read next : List Bytes × NameMap UInt32}
    (ran : loadString input read = some (some rest, next)) :
    ∃ string, next.1 = read.1 ++ [string] ∧
      next.2 = if (read.2.lookup string).isSome then read.2
        else read.2.insert string (UInt32.ofNat read.1.length) := by
  unfold loadString at ran
  split at ran
  · cases ran
  split at ran
  · cases ran
  split at ran
  · cases ran
  rename_i string _ _
  cases ran
  exact ⟨string, rfl, rfl⟩

section
variable {P : Catalog κ → Prop}

theorem Lasting.loadDict (lasting : Lasting P) (file : Bytes)
    {catalog : Catalog κ} (holds : P catalog) :
    Ensures P (Catalog.loadDict file catalog) := by
  intro out after ran
  unfold Catalog.loadDict at ran
  split at ran
  · cases ran
    exact holds
  split at ran
  · cases ran
    exact holds
  rename_i count strings _
  split at ran
  · cases ran
    exact holds
  rename_i bounded
  split at ran
  · cases ran
  · cases ran
    exact holds
  rename_i rest dict encoder read
  cases ran
  have whole := readLoop_counted
    (fun count (read : List Bytes × NameMap UInt32) =>
      read.1.length = count ∧ read.2 = encoderOf read.1)
    (by
      rintro count input read ⟨length, encoded⟩ rest next ran
      obtain ⟨string, strings, encoder⟩ := loadString_some ran
      rw [strings, encoder, encoded, encoderOf_concat, List.length_append,
        length]
      exact ⟨rfl, rfl⟩)
    ⟨rfl, rfl⟩ read
  obtain ⟨length, same⟩ := whole
  simp only at length same
  rw [same]
  apply lasting.insertDict _ holds
  rw [length]
  exact UInt64.le_iff_toNat_le.mp (UInt64.not_lt.mp bounded)

theorem Lasting.loadMask (lasting : Lasting P) (file : Bytes)
    {catalog : Catalog κ} (holds : P catalog) :
    Ensures P (Catalog.loadMask file catalog) := by
  intro out after ran
  unfold Catalog.loadMask at ran
  split at ran
  · cases ran
    exact holds
  split at ran
  · cases ran
    exact holds
  rename_i length _ _
  split at ran
  · cases ran
    exact holds
  split at ran
  · cases ran
    exact holds
  rename_i taken
  cases ran
  apply lasting.insertMask _ holds
  rw [(takeBytes_eq_some taken).2]
  exact length.toNat_lt

theorem ensures_loadSection
    {item : Bytes → Catalog κ → Option (Option Bytes × Catalog κ)}
    (keeps : ∀ input catalog, P catalog → Ensures P (item input catalog))
    (file : Bytes) {catalog : Catalog κ} (holds : P catalog) :
    Ensures P (Catalog.loadSection item file catalog) := by
  unfold Catalog.loadSection
  split
  · exact .pure holds
  · exact .readLoop keeps holds _ _

theorem Lasting.loadTrailing (lasting : Lasting P) (file : Bytes)
    {catalog : Catalog κ} (holds : P catalog) :
    Ensures P (Catalog.loadTrailing file catalog) := by
  have dicts : Ensures P (Catalog.loadSection Catalog.loadDict file catalog) :=
    ensures_loadSection (fun input _ holds => lasting.loadDict input holds)
      file holds
  unfold Catalog.loadTrailing
  split
  · exact .none
  · rename_i stopped
    exact .pure (dicts _ _ stopped)
  · rename_i went
    exact ensures_loadSection
      (fun input _ holds => lasting.loadMask input holds) _ (dicts _ _ went)

section
variable [CostArith κ]

theorem Lasting.loadStringColumnDict (lasting : Lasting P)
    {before after : Catalog κ} (holds : P before) {id : UInt64}
    {data : List Bytes}
    (loaded : before.loadStringColumnDict id data = some after) :
    P after := by
  obtain ⟨countable, middle, first, rfl⟩ := loadStringColumnDict_eq loaded
  have loads := lasting.elsewhere holds (elsewhere_loadBytes first)
  exact lasting.insertDict id loads (Nat.le_of_lt countable)

omit [CostArith κ] in
theorem Lasting.nameColumn (lasting : Lasting P) {before after : Catalog κ}
    (holds : P before) {id : UInt64} {name : Bytes}
    (named : before.nameColumn id name = some after) : P after := by
  cases nameColumn_eq named
  apply lasting.name id name holds
  unfold Catalog.nameColumn at named
  split at named
  · rename_i known
    unfold catalogHas at known
    exact (Bool.and_eq_true_iff.mp known).2
  · cases named

theorem Lasting.loadColumn (lasting : Lasting P) (file : Bytes)
    {catalog : Catalog κ} (holds : P catalog) :
    Ensures P (Catalog.loadColumn file catalog) := by
  intro out after ran
  unfold Catalog.loadColumn at ran
  split at ran
  · cases ran
    exact holds
  split at ran
  · cases ran
    exact holds
  split at ran
  · cases ran
    exact holds
  split at ran
  · cases ran
    exact holds
  split at ran
  · cases ran
    exact holds
  split at ran
  · cases ran
    exact holds
  unfold loadColumnData at ran
  split at ran
  · cases ran
    exact holds
  split at ran
  · cases ran
  split at ran
  · cases ran
    exact holds
  obtain ⟨loaded, stored, ran⟩ := Option.bind_eq_some_iff.mp ran
  obtain ⟨named, given, same⟩ := Option.map_eq_some_iff.mp ran
  cases same
  have loads := lasting.elsewhere holds (elsewhere_loadElements stored)
  split at given
  · cases given
    exact loads
  · exact lasting.nameColumn loads given

theorem Lasting.loadSections (lasting : Lasting P) (file : Bytes)
    {catalog : Catalog κ} (holds : P catalog) :
    Ensures P (Catalog.loadSections file catalog) := by
  unfold Catalog.loadSections
  split
  · exact .pure holds
  rename_i ncols rest _
  have columns := Ensures.readLoop (fun input _ holds =>
    lasting.loadColumn input holds) holds ncols.toNat rest
  split
  · exact .none
  · rename_i stopped
    exact .pure (columns _ _ stopped)
  · rename_i went
    exact lasting.loadTrailing _ (columns _ _ went)

theorem Lasting.loadCatalog (lasting : Lasting P) (file : Bytes)
    {catalog : Catalog κ} (holds : P catalog) :
    Ensures P (catalog.loadCatalog file) := by
  unfold Catalog.loadCatalog
  split
  · exact .pure holds
  · apply Ensures.ite
    · intro _
      exact .pure holds
    · intro _
      exact (lasting.loadSections _ holds).map fun _ _ holds => holds

end

end

end Catalog

/-! ## Calls -/

namespace Analytics

variable {engine : Analytics κ} {P : Catalog κ → Prop}

theorem ensures_withCatalog {A : Type} {wrap : A → CallResult}
    {made : Option (A × Catalog κ)} (holds : Ensures P made) :
    Ensures (fun after => P after.catalog) (engine.withCatalog wrap made) :=
  holds.map fun _ _ holds => holds

theorem ensures_thenCatalog {made : Option (Catalog κ)}
    (holds : ∀ after, made = some after → P after) :
    Ensures (fun after => P after.catalog) (engine.thenCatalog made) :=
  ensures_withCatalog (.of_some holds)

theorem ensures_csv {A : Type} (holds : P engine.catalog) (data : Option A)
    {load : A → Option (Catalog κ)}
    (loads : ∀ data after, load data = some after → P after) :
    Ensures (fun after => P after.catalog)
      (engine.withCatalog .flag (engine.catalog.loadParsed data load)) := by
  apply ensures_withCatalog
  cases data with
  | none => exact .pure holds
  | some data => exact .of_some (loads data)

theorem createTable_holds (holds : P engine.catalog) (name : Bytes)
    (colIds : List UInt64) : P (engine.createTable name colIds).2.catalog := by
  unfold createTable
  split
  · exact holds
  · split
    · exact holds
    · exact holds

section
variable (lasting : Catalog.Lasting P) (settled : engine.catalog.Settled)
  (holds : P engine.catalog)

include lasting settled holds

/-- A call that changes no data. -/
theorem ensures_reads {A : Type} {wrap : A → CallResult}
    {made : Option (A × Catalog κ)}
    (twin : Twin (Catalog.Kept engine.catalog) made made) :
    Ensures (fun after => P after.catalog) (engine.withCatalog wrap made) := by
  apply ensures_withCatalog
  intro result after ran
  have kept := twin.ensures _ _ ran
  exact lasting.elsewhere holds
    (kept.data.elsewhere settled.wellFormed kept.right.wellFormed)

theorem ensures_readsBeside {A B : Type} {wrap : A → B → CallResult}
    {made : Option (A × B × Catalog κ)}
    (twin : Twin (Catalog.Kept.Beside engine.catalog) made made) :
    Ensures (fun after => P after.catalog)
      (made.map fun (status, result, catalog) =>
        (wrap status result, { engine with catalog })) := by
  refine Ensures.map twin.ensures ?_
  rintro status ⟨result, after⟩ ⟨_, kept⟩
  exact lasting.elsewhere holds
    (kept.data.elsewhere settled.wellFormed kept.right.wellFormed)

theorem ensures_appendTyped {ty : MatrixType} {id : UInt64} {more : Bytes}
    {rows : Nat} (length : more.length = ty.width * rows) :
    Ensures (fun after => P after.catalog)
      (engine.thenCatalog
        (Catalog.appendTyped ty engine.catalog id more)) := by
  apply ensures_thenCatalog
  intro after ran
  exact lasting.elsewhere holds
    (Catalog.elsewhere_appendTyped settled.wellFormed length ran)

variable [SoundCost κ]

theorem run_lasting {strtod : Bytes → StrtodResult} (ns : Nat → UInt64)
    (call : CatalogCall) :
    Ensures (fun after => P after.catalog) (call.run strtod ns engine) := by
  have kept : Catalog.Kept engine.catalog engine.catalog engine.catalog :=
    settled.kept
  have reads : ∀ {A : Type} {wrap : A → CallResult}
      {made : Option (A × Catalog κ)},
      Twin (Catalog.Kept engine.catalog) made made →
      Ensures (fun after => P after.catalog) (engine.withCatalog wrap made) :=
    fun twin => ensures_reads lasting settled holds twin
  cases call with
  | loadScanColumn id data =>
      exact ensures_thenCatalog fun _ ran =>
        lasting.elsewhere holds (Catalog.elsewhere_loadBytes ran)
  | loadScanColumnI64 id data =>
      exact ensures_thenCatalog fun _ ran =>
        lasting.elsewhere holds (Catalog.elsewhere_loadWide ran)
  | loadScanColumnF64 id data =>
      exact ensures_thenCatalog fun _ ran =>
        lasting.elsewhere holds (Catalog.elsewhere_loadWide ran)
  | loadStringColumn id data =>
      apply Ensures.of_some
      intro after ran
      unfold loadStringColumn at ran
      split at ran
      · cases ran
      · cases ran
        exact holds
  | loadStringColumnDict id data =>
      exact ensures_thenCatalog fun _ ran =>
        lasting.loadStringColumnDict holds ran
  | loadColumnFromFile id file =>
      exact ensures_thenCatalog fun _ ran =>
        lasting.elsewhere holds (Catalog.elsewhere_loadColumnFromFile ran)
  | loadColumnFromCsv id source =>
      exact ensures_csv holds _ fun _ _ ran =>
        lasting.elsewhere holds (Catalog.elsewhere_loadBytes ran)
  | loadColumnFromCsvI64 id source =>
      exact ensures_csv holds _ fun _ _ ran =>
        lasting.elsewhere holds (Catalog.elsewhere_loadWide ran)
  | loadColumnFromCsvF64 id source =>
      exact ensures_csv holds _ fun _ _ ran =>
        lasting.elsewhere holds (Catalog.elsewhere_loadWide ran)
  | loadStringColumnFromCsv id source =>
      exact ensures_csv holds _ fun _ _ ran =>
        lasting.loadStringColumnDict holds ran
  | loadCatalog file =>
      cases file with
      | none => exact .pure holds
      | some file => exact ensures_withCatalog (lasting.loadCatalog file holds)
  | appendToColumn id data =>
      exact ensures_appendTyped lasting settled holds
        (Catalog.length_flatMap_u32Bytes data)
  | appendToColumnI64 id data =>
      exact ensures_appendTyped lasting settled holds
        (Catalog.length_flatMap_u64Bytes Int64.toUInt64 data)
  | appendToColumnF64 id data =>
      exact ensures_appendTyped lasting settled holds
        (Catalog.length_flatMap_u64Bytes (fun value => value) data)
  | setColumnNulls id isNull =>
      apply ensures_thenCatalog
      intro after ran
      obtain ⟨_, length, rfl⟩ := Catalog.setColumnNulls_eq ran
      apply lasting.insertMask _ holds
      rw [length]
      exact Catalog.columnRows_lt settled.wellFormed id
  | nameColumn id name =>
      exact ensures_thenCatalog fun _ ran => lasting.nameColumn holds ran
  | createTable name colIds =>
      exact .pure (createTable_holds holds name colIds)
  | setMaxQueryGroups groups =>
      apply ensures_thenCatalog
      intro after ran
      cases ran
      exact lasting.elsewhere holds (.beside ⟨rfl, rfl, rfl⟩ rfl rfl)
  | executeQuery q =>
      exact ensures_readsBeside lasting settled holds
        (kept.executeQuery _ _ q)
  | parseQuery sql =>
      exact ensures_readsBeside lasting settled holds
        (kept.parseQuery strtod sql)
  | executeScan colId threshold op => exact reads (kept.scanTyped .U32 _)
  | groupedAggregate keyId valueId numGroups op =>
      exact reads (kept.groupedAggregate _)
  | groupedAggregatePred keyId valueId numGroups op pred =>
      exact reads (kept.groupedAggregate _)
  | groupedAggregateWhere keyId valueId numGroups op threshold =>
      exact reads (kept.groupedAggregate _)
  | groupedAggregateI64 q => exact reads (kept.groupedAggregateWide .I64 q)
  | groupedAggregateF64 q => exact reads (kept.groupedAggregateWide .F64 q)
  | hashJoin leftKeyId rightKeyId =>
      exact reads (kept.hashJoin leftKeyId rightKeyId)
  | hashJoinCount leftKeyId rightKeyId =>
      exact reads (kept.hashJoinCount leftKeyId rightKeyId)
  | hashJoinI64 leftKeyId rightKeyId =>
      exact reads (kept.hashJoinI64 leftKeyId rightKeyId)
  | gather colId rows => exact reads (kept.gather colId rows)
  | matchingRows filterCol pred limit =>
      exact reads (kept.matchingRows filterCol pred limit)
  | project colId hasFilter filterCol pred limit =>
      exact reads (kept.project colId hasFilter filterCol pred limit)
  | countDistinct colId => exact reads (kept.countDistinct colId)
  | saveColumn id => exact reads (kept.saveColumn id)
  | topGroups q k => exact reads (kept.topGroups _ _ q k)
  | having q cmp threshold upper =>
      exact reads (kept.having _ _ q cmp threshold upper)
  | average q => exact reads (kept.average ns ns q)
  | avgQuery sql => exact reads (kept.avgQuery strtod ns ns sql)
  | queryMulti sql => exact reads (kept.queryMulti strtod ns ns sql)
  | topQuery sql => exact reads (kept.topQuery strtod _ _ sql)
  | havingQuery sql => exact reads (kept.havingQuery strtod _ _ sql)
  | distinctQuery sql => exact reads (kept.distinctQuery sql)
  | projectQuery sql => exact reads (kept.projectQuery strtod sql)
  | stringColumnRows id => exact .pure holds
  | stringCountWhereEq id value => exact .pure holds
  | stringColumnAt id row =>
      intro result after ran
      obtain ⟨_, _, same⟩ := Option.map_eq_some_iff.mp ran
      cases same
      exact holds

end

section
variable [SoundCost κ] {strtod : Bytes → StrtodResult}

/-- What holds of a fresh catalog and lasts holds in every state. -/
theorem Live.lasting (lasting : Catalog.Lasting P)
    (fresh : ∀ hostCap, P (.fresh hostCap)) (live : Live strtod engine) :
    P engine.catalog := by
  induction live with
  | fresh hostCap => exact fresh hostCap
  | @call engine after call ns result before ran holds =>
      exact run_lasting lasting before.settled holds ns call _ _ ran
  | @tune engine before intervals holds =>
      clear before
      induction intervals generalizing engine with
      | nil => exact holds
      | cons scans intervals induction =>
          have next : P (engine.tune [scans]).catalog :=
            lasting.elsewhere holds (.beside ⟨rfl, rfl, rfl⟩ rfl rfl)
          exact induction next
  | executeQueryShared _ ran holds =>
      rw [(Catalog.executeQueryShared_beside ran).2]
      exact lasting.elsewhere holds (.beside ⟨rfl, rfl, rfl⟩ rfl rfl)
  | @saveCatalog engine room order out catalog before walks ran holds =>
      have wellFormed := before.settled.wellFormed
      obtain ⟨_, _, same, keeps, _⟩ := Catalog.saveCatalog_eq wellFormed room
        (fun id member => Catalog.registered_of_mem_keys wellFormed
          (walks.columns.mem_iff.mp member))
      cases ran.symm.trans same
      have data := (Catalog.SameData.refl engine.catalog).moved keeps
      exact lasting.elsewhere holds
        (data.elsewhere wellFormed keeps.wellFormed)

end

end Analytics

end MatrixDB
