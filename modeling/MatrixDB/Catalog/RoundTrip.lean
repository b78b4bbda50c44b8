import MatrixDB.Catalog.Reopen

/-!
# Saving and reopening

A snapshot whose names and strings are short is read back by a fresh engine
unless a null mask is longer than the reader's bound, and the engine it makes
cannot be told from the one that was saved.  In general a saved file is
accepted exactly if it keeps within the bounds of the reader.
-/

namespace MatrixDB

open Lib

variable {κ : Type}

namespace Catalog

/-- Two engines that no caller can tell apart by their columns. -/
structure SameColumns [CostArith κ] (saver restored : Catalog κ) : Prop where
  ids : ∀ id, restored.catalogHas id = saver.catalogHas id
  columnType : ∀ id, restored.columnType id = saver.columnType id
  bytes : ∀ id, restored.contents id = saver.contents id
  columnName : ∀ id, saver.catalogHas id →
    restored.columnName id = saver.columnName id
  stringDicts : ∀ id, restored.stringDicts.lookup id =
    saver.stringDicts.lookup id
  decode : ∀ id code, restored.stringDecode id code = saver.stringDecode id code
  encode : ∀ id value,
    restored.stringEncode id value = saver.stringEncode id value
  nullMasks : ∀ id, restored.nullMasks.lookup id = saver.nullMasks.lookup id
  answers : ∀ groups q ns ns',
    ((restored.setMaxQueryGroups groups).executeQuery ns q).map
        (fun result => (result.1, result.2.1)) =
      ((saver.setMaxQueryGroups groups).executeQuery ns' q).map
        fun result => (result.1, result.2.1)

/-- A save succeeds and moves no column, and a fresh engine that loads the
file is the same. -/
def RoundTrips [CostArith κ] (catalog : Catalog κ) (room : Nat)
    (order : WalkOrder) (hostCap : Nat) : Prop :=
  ∃ file saved restored,
    catalog.saveCatalog room order = some (some file, saved) ∧
    (∀ id, saved.place id = catalog.place id) ∧
    (fresh hostCap).loadCatalog file = some (true, restored) ∧
    SameColumns catalog restored

/-- What a query returns is in the data. -/
theorem executeQuery_result [SoundCost κ] {catalog : Catalog κ}
    (wellFormed : catalog.WellFormed) (groups : UInt32) (ns : UInt64)
    (q : MatrixQuery) :
    ((catalog.setMaxQueryGroups groups).executeQuery ns q).map
        (fun result => (result.1, result.2.1)) =
      (catalog.setMaxQueryGroups groups).answer q := by
  obtain ⟨after, _, same⟩ := executeQuery_eq
    (wellFormed_setMaxQueryGroups wellFormed groups) ns q
  rw [same, Option.map_map]
  exact congrFun Option.map_id _

section
variable [SoundCost κ] {saver restored : Catalog κ} {order : WalkOrder}

theorem Reopened.sameColumns (saved : saver.WellFormed)
    (coded : saver.Coded) (back : Reopened saver order restored)
    (names : ∀ id, saver.catalogHas id →
      (saver.columnName id).length ≤ 4096)
    (strings : ∀ id dict, saver.stringDicts.lookup id = some dict →
      ∀ string ∈ dict, string.length ≤ 1048576) :
    SameColumns saver restored := by
  have stringDicts : ∀ id, restored.stringDicts.lookup id =
      saver.stringDicts.lookup id := by
    intro id
    rw [back.stringDicts]
    cases stored : saver.stringDicts.lookup id with
    | none => rfl
    | some dict =>
        rw [Option.map_some, map_castString_eq]
        intro string member
        exact lt_of_le_of_lt (strings id dict stored string member) (by decide)
  have encoders : ∀ id, restored.stringEncoders.lookup id =
      saver.stringEncoders.lookup id := by
    intro id
    rw [back.stringEncoders, stringDicts, coded.encoders]
  have views : ∀ id, restored.view id = saver.view id := by
    intro id
    rw [view, view, back.contents, back.columnType, back.nullMasks]
  refine ⟨?_, back.columnType, back.contents, ?_, stringDicts, ?_, ?_,
    back.nullMasks, ?_⟩
  · intro id
    rw [catalogHas_eq back.wellFormed, catalogHas_eq saved, back.contents]
  · intro id has
    have registered := has
    rw [catalogHas_eq saved] at registered
    rw [back.columnName id registered, savedName]
    exact castString_eq (lt_of_le_of_lt (names id has) (by decide))
  · intro id code
    rw [stringDecode, stringDecode, stringDicts]
  · intro id value
    rw [stringEncode, stringEncode, encoders]
  · intro groups q ns ns'
    have same : ∀ id, (restored.setMaxQueryGroups groups).view id =
        (saver.setMaxQueryGroups groups).view id := views
    rw [executeQuery_result back.wellFormed, executeQuery_result saved,
      answer, answer, same, same, same]
    rfl

end

end Catalog

namespace Analytics

/-- A short length survives its cast. -/
theorem castLe {length bound : Nat} (short : length ≤ bound)
    (small : bound < 4294967296) :
    UInt32.ofNat length ≤ UInt32.ofNat bound := by
  rw [UInt32.le_iff_toNat_le, UInt32.toNat_ofNat_of_lt' small,
    UInt32.toNat_ofNat_of_lt' (lt_of_le_of_lt short small)]
  exact short

theorem thenCatalog_some (engine : Analytics κ) {made : Option (Catalog κ)}
    {catalog : Catalog κ} (called : made = some catalog) :
    engine.thenCatalog made = some (.done, { engine with catalog }) := by
  subst called
  rfl

variable [SoundCost κ] {strtod : Bytes → StrtodResult} {engine : Analytics κ}
  {order : Catalog.WalkOrder}

/-- What round-trips is within the bounds of the reader. -/
theorem readable_of_roundTrips (live : Live strtod engine)
    (walks : order.Walks engine.catalog) (counted : order.Counted)
    {room hostCap : Nat}
    (trips : engine.catalog.RoundTrips room order hostCap) :
    engine.catalog.Readable := by
  have wellFormed := live.settled.wellFormed
  obtain ⟨file, _, _, save, _, load, _⟩ := trips
  obtain ⟨_, _, ran, _, whole⟩ := Catalog.saveCatalog_eq wellFormed room
    fun id => (Catalog.mem_columns_iff wellFormed walks id).mp
  cases save.symm.trans ran
  rw [whole file rfl] at load
  by_contra unreadable
  obtain ⟨left, bad⟩ := (Catalog.loadCatalog_snapshot wellFormed live.coded
    walks counted hostCap).2 unreadable
  rw [bad] at load
  cases load

/-- In every state whose names and dictionary strings are short, a save to a
disk with room is read back by a fresh engine, and gives the same engine,
exactly if no null mask has more than `2 ^ 32` entries. -/
theorem snapshot_round_trips (live : Live strtod engine)
    (walks : order.Walks engine.catalog) (counted : order.Counted)
    (names : ∀ id, engine.catalog.catalogHas id →
      (engine.catalog.columnName id).length ≤ 4096)
    (strings : ∀ id dict, engine.catalog.stringDicts.lookup id = some dict →
      ∀ string ∈ dict, string.length ≤ 1048576)
    {room : Nat} (enough : (engine.catalog.snapshot order).length ≤ room)
    (hostCap : Nat) :
    engine.catalog.RoundTrips room order hostCap ↔
      ∀ id mask, engine.catalog.nullMasks.lookup id = some mask →
        mask.length ≤ 4294967296 := by
  have wellFormed := live.settled.wellFormed
  obtain ⟨out, saved, ran, keeps, whole, written⟩ :=
    Catalog.saveCatalog_outcome wellFormed room
      fun id => (Catalog.mem_columns_iff wellFormed walks id).mp
  obtain ⟨file, same⟩ := Option.isSome_iff_exists.mp (written enough)
  have content := whole file same
  subst same
  constructor
  · intro trips
    exact (readable_of_roundTrips live walks counted trips).masks
  · intro masks
    obtain ⟨restored, back, load⟩ := (Catalog.loadCatalog_snapshot wellFormed
      live.coded walks counted hostCap).1
      ⟨fun id has => castLe (names id has) (by decide),
        fun id dict stored string member =>
          castLe (strings id dict stored string member) (by decide), masks⟩
    refine ⟨file, saved, restored, ran,
      (Catalog.samePlaces_saveCatalog _ _ ran).columns, ?_,
      back.sameColumns wellFormed live.coded names strings⟩
    rw [content]
    exact load

/-! ### A column with a name, a dictionary and a mask -/

/-- Calls in a row. -/
def after (strtod : Bytes → StrtodResult) (calls : List CatalogCall)
    (engine : Analytics κ) : Option (Analytics κ) :=
  calls.foldlM (fun engine call =>
    (call.run strtod (fun _ => 0) engine).map Prod.snd) engine

theorem Live.after {last : Analytics κ} {calls : List CatalogCall}
    (live : Live strtod engine)
    (ran : engine.after strtod calls = some last) : Live strtod last := by
  induction calls generalizing engine with
  | nil =>
      cases ran
      exact live
  | cons call calls induction =>
      rw [Analytics.after, List.foldlM_cons] at ran
      obtain ⟨next, first, rest⟩ := Option.bind_eq_some_iff.mp ran
      obtain ⟨⟨result, _⟩, called, same⟩ := Option.map_eq_some_iff.mp first
      cases same
      exact induction (.call live called) rest

/-- What there is under one key is all there is. -/
theorem lookup_of_keys {V : Type} {map : IdMap V} {id other : UInt64}
    {value found : V} (keys : map.keys = [id])
    (stored : map.lookup id = some value)
    (looked : map.lookup other = some found) : other = id ∧ found = value := by
  have member : other ∈ map.keys :=
    AList.mem_keys.mp (AList.lookup_isSome.mp (by rw [looked]; rfl))
  rw [keys, List.mem_singleton] at member
  subst member
  rw [looked] at stored
  exact ⟨rfl, Option.some.inj stored⟩

theorem eq_of_has {catalog : Catalog ℚ} (keys : catalog.columns.keys = [7])
    {id : UInt64} (has : catalog.catalogHas id) : id = 7 := by
  simp only [Catalog.catalogHas, Bool.and_eq_true] at has
  have member : id ∈ catalog.columns.keys :=
    AList.mem_keys.mp (AList.lookup_isSome.mp has.2)
  rw [keys, List.mem_singleton] at member
  exact member

/-- A small engine in which everything there is to save occurs. -/
structure Stocked (catalog : Catalog ℚ) : Prop where
  keys : [catalog.columns.keys, catalog.stringDicts.keys,
    catalog.nullMasks.keys] = [[7], [7], [7]]
  columnName : catalog.columnName 7 = [99]
  dict : catalog.stringDicts.lookup 7 = some [[97]]
  mask : catalog.nullMasks.lookup 7 = some [1]
  size : (catalog.snapshot ⟨[7], [7], [7]⟩).length ≤ 1000

theorem exists_stocked :
    ∃ engine : Analytics ℚ, Live noNumber engine ∧ Stocked engine.catalog := by
  have facts : ((fresh 8 : Analytics ℚ).after noNumber
      [.loadStringColumnDict 7 [[97]], .nameColumn 7 [99],
        .setColumnNulls 7 [1]]).any (fun engine =>
      decide ([engine.catalog.columns.keys, engine.catalog.stringDicts.keys,
        engine.catalog.nullMasks.keys] = [[7], [7], [7]]) &&
      (decide (engine.catalog.columnName 7 = [99]) &&
      (decide (engine.catalog.stringDicts.lookup 7 = some [[97]]) &&
      (decide (engine.catalog.nullMasks.lookup 7 = some [1]) &&
      decide ((engine.catalog.snapshot ⟨[7], [7], [7]⟩).length ≤ 1000))))) =
      true := by
    decide +kernel
  obtain ⟨engine, ran, holds⟩ := (Option.any_eq_true _ _).mp facts
  simp only [Bool.and_eq_true, decide_eq_true_eq] at holds
  obtain ⟨keys, columnName, dict, mask, size⟩ := holds
  exact ⟨engine, .after (.fresh 8) ran, keys, columnName, dict, mask, size⟩

namespace Stocked

variable {catalog : Catalog ℚ}

theorem walks (stocked : Stocked catalog) :
    (⟨[7], [7], [7]⟩ : Catalog.WalkOrder).Walks catalog := by
  have keys := stocked.keys
  simp only [List.cons.injEq, and_true] at keys
  obtain ⟨columns, dicts, masks⟩ := keys
  refine ⟨?_, ?_, ?_⟩
  · rw [columns]
  · rw [dicts]
  · rw [masks]

theorem names (stocked : Stocked catalog) (id : UInt64)
    (has : catalog.catalogHas id) :
    (catalog.columnName id).length ≤ 4096 := by
  have keys := stocked.keys
  simp only [List.cons.injEq, and_true] at keys
  rw [eq_of_has keys.1 has, stocked.columnName]
  decide

theorem strings (stocked : Stocked catalog) (id : UInt64) (dict : List Bytes)
    (stored : catalog.stringDicts.lookup id = some dict) :
    ∀ string ∈ dict, string.length ≤ 1048576 := by
  have keys := stocked.keys
  simp only [List.cons.injEq, and_true] at keys
  obtain ⟨_, rfl⟩ := lookup_of_keys keys.2.1 stocked.dict stored
  decide

theorem masks (stocked : Stocked catalog) (id : UInt64) (mask : Bytes)
    (stored : catalog.nullMasks.lookup id = some mask) :
    mask.length ≤ 4294967296 := by
  have keys := stocked.keys
  simp only [List.cons.injEq, and_true] at keys
  obtain ⟨_, rfl⟩ := lookup_of_keys keys.2.2 stocked.mask stored
  decide

end Stocked

theorem Stocked.saves {engine : Analytics ℚ} (live : Live noNumber engine)
    (stocked : Stocked engine.catalog) :
    ∃ saved, engine.catalog.saveCatalog 1000 ⟨[7], [7], [7]⟩ =
      some (some (engine.catalog.snapshot ⟨[7], [7], [7]⟩), saved) := by
  have wellFormed := live.settled.wellFormed
  obtain ⟨out, saved, ran, _, whole, written⟩ := Catalog.saveCatalog_outcome
    wellFormed 1000 fun id =>
      (Catalog.mem_columns_iff wellFormed stocked.walks id).mp
  obtain ⟨file, same⟩ := Option.isSome_iff_exists.mp (written stocked.size)
  rw [same, whole file same] at ran
  exact ⟨saved, ran⟩

/-- It comes back from its snapshot. -/
theorem snapshot_round_trips_stocked :
    ∃ engine : Analytics ℚ, Live noNumber engine ∧ Stocked engine.catalog ∧
      engine.catalog.RoundTrips 1000 ⟨[7], [7], [7]⟩ 8 := by
  obtain ⟨engine, live, stocked⟩ := exists_stocked
  refine ⟨engine, live, stocked, ?_⟩
  exact (snapshot_round_trips live stocked.walks
    ⟨by decide, by decide⟩ stocked.names stocked.strings stocked.size 8).mpr
    stocked.masks

/-! ### A column with a mask and nothing else -/

theorem exists_masked (rows : Nat)
    (fits : 4 * rows ≤ MAX_VECTOR_BYTES) :
    ∃ engine : Analytics ℚ, Live noNumber engine ∧
      engine.catalog.columns.keys = [7] ∧
      engine.catalog.columnNames = ∅ ∧ engine.catalog.stringDicts = ∅ ∧
      engine.catalog.nullMasks.keys = [7] ∧
      engine.catalog.nullMasks.lookup 7 = some (List.replicate rows 0) ∧
      engine.catalog.columnRows 7 = rows := by
  have length := Catalog.length_flatMap_u32Bytes (List.replicate rows 0)
  rw [List.length_replicate] at length
  have room : ¬ MAX_VECTOR_BYTES <
      ((List.replicate rows 0).flatMap u32Bytes).length := by
    rw [length]
    exact Nat.not_lt.mpr fits
  have loaded : ∃ after, (Catalog.fresh 8 : Catalog ℚ).loadScanColumn 7
      (List.replicate rows 0) = some after ∧ after.columns.keys = [7] ∧
      after = { (Catalog.fresh 8 : Catalog ℚ) with
        columns := after.columns, tierMgr := after.tierMgr } := by
    rw [Catalog.loadScanColumn, Catalog.loadBytes, if_neg (by decide),
      if_neg (by decide), if_neg room]
    exact ⟨_, rfl, rfl, rfl⟩
  obtain ⟨after, ran, keys, beside⟩ := loaded
  have loads := Catalog.loadScanColumn_loads (Catalog.wellFormed_fresh 8) ran
  have counted : after.columnRows 7 = rows := by
    rw [loads.columnRows_self, length]
    exact Nat.mul_div_cancel_left rows (by decide)
  have has : after.catalogHas 7 = true := by
    rw [Catalog.catalogHas_eq loads.wellFormed, loads.contents_self]
    rfl
  have set : after.setColumnNulls 7 (List.replicate rows 0) =
      some { after with
        nullMasks := after.nullMasks.insert 7 (List.replicate rows 0) } := by
    rw [Catalog.setColumnNulls, has, List.length_replicate, counted, beq_self_eq_true]
    rfl
  have load : (CatalogCall.loadScanColumn 7 (List.replicate rows 0)).run
      noNumber (fun _ => 0) (fresh 8) = some (.done, _) :=
    thenCatalog_some _ ran
  have mask : (CatalogCall.setColumnNulls 7 (List.replicate rows 0)).run
      noNumber (fun _ => 0) { (fresh 8 : Analytics ℚ) with catalog := after } =
        some (.done, _) :=
    thenCatalog_some _ set
  refine ⟨_, .call (.call (.fresh 8) load) mask, keys, ?_, ?_, ?_, ?_, counted⟩
  · rw [beside]
    rfl
  · rw [beside]
    rfl
  · rw [beside]
    rfl
  · exact AList.lookup_insert _

/-- A mask of one entry too many is saved and refused, although names and
strings are short and the mask covers its column. -/
theorem long_mask_refused :
    ∃ (engine : Analytics ℚ) (order : Catalog.WalkOrder),
      Live noNumber engine ∧ order.Walks engine.catalog ∧ order.Counted ∧
      (∀ id, engine.catalog.catalogHas id →
        (engine.catalog.columnName id).length ≤ 4096) ∧
      (∀ id dict, engine.catalog.stringDicts.lookup id = some dict →
        ∀ string ∈ dict, string.length ≤ 1048576) ∧
      (∀ id mask, engine.catalog.nullMasks.lookup id = some mask →
        mask.length = engine.catalog.columnRows id) ∧
      ∀ room hostCap, ¬ engine.catalog.RoundTrips room order hostCap := by
  obtain ⟨engine, live, columns, names, dicts, masks, mask, rows⟩ :=
    exists_masked 4294967297 (by decide)
  have walks : (⟨[7], [], [7]⟩ : Catalog.WalkOrder).Walks engine.catalog := by
    refine ⟨?_, ?_, ?_⟩
    · rw [columns]
    · rw [dicts]
      exact .nil
    · rw [masks]
  have counted : (⟨[7], [], [7]⟩ : Catalog.WalkOrder).Counted :=
    ⟨by decide, by decide⟩
  refine ⟨engine, ⟨[7], [], [7]⟩, live, walks, counted, ?_, ?_, ?_, ?_⟩
  · intro id _
    rw [Catalog.columnName, names]
    exact Nat.zero_le 4096
  · intro id dict stored
    rw [dicts] at stored
    cases stored
  · intro id other stored
    obtain ⟨rfl, rfl⟩ := lookup_of_keys masks mask stored
    rw [List.length_replicate, rows]
  · intro room hostCap trips
    have readable := readable_of_roundTrips live walks counted trips
    have bounded := readable.masks 7 _ mask
    rw [List.length_replicate] at bounded
    exact absurd bounded (by decide)

/-- A saved file is accepted by a fresh engine exactly if every name, string
and mask keeps within the bound of the reader. -/
theorem snapshot_accepted_iff (live : Live strtod engine)
    (walks : order.Walks engine.catalog) (counted : order.Counted)
    {room : Nat} {file : Bytes} {saved : Catalog κ}
    (written : engine.catalog.saveCatalog room order =
      some (some file, saved)) (hostCap : Nat) :
    (∃ restored, (Catalog.fresh hostCap : Catalog κ).loadCatalog file =
      some (true, restored)) ↔ engine.catalog.Readable := by
  have wellFormed := live.settled.wellFormed
  obtain ⟨_, _, ran, _, whole⟩ := Catalog.saveCatalog_eq wellFormed room
    fun id => (Catalog.mem_columns_iff wellFormed walks id).mp
  cases written.symm.trans ran
  rw [whole file rfl]
  obtain ⟨accepts, refuses⟩ := Catalog.loadCatalog_snapshot wellFormed
    live.coded walks counted hostCap
  constructor
  · rintro ⟨restored, load⟩
    by_contra unreadable
    obtain ⟨left, bad⟩ := refuses unreadable
    rw [bad] at load
    cases load
  · intro readable
    obtain ⟨restored, _, load⟩ := accepts readable
    exact ⟨restored, load⟩

/-- A stocked engine saves a file that is accepted. -/
theorem snapshot_accepted_stocked :
    ∃ (engine : Analytics ℚ) (file : Bytes) (saved : Catalog ℚ),
      Live noNumber engine ∧
      engine.catalog.saveCatalog 1000 ⟨[7], [7], [7]⟩ =
        some (some file, saved) ∧
      ∃ restored, (Catalog.fresh 8 : Catalog ℚ).loadCatalog file =
        some (true, restored) := by
  obtain ⟨engine, live, stocked⟩ := exists_stocked
  obtain ⟨saved, ran⟩ := stocked.saves live
  refine ⟨engine, _, saved, live, ran, ?_⟩
  apply (snapshot_accepted_iff live stocked.walks ⟨by decide, by decide⟩ ran
    8).mpr
  refine ⟨?_, ?_, stocked.masks⟩
  · intro id has
    exact castLe (stocked.names id has) (by decide)
  · intro id dict stored string member
    exact castLe (stocked.strings id dict stored string member) (by decide)

theorem exists_named (name : Bytes) :
    ∃ engine : Analytics ℚ, Live noNumber engine ∧
      engine.catalog.columns.keys = [7] ∧
      engine.catalog.columnName 7 = name ∧
      engine.catalog.nameToId = (∅ : NameMap UInt64).insert name 7 ∧
      engine.catalog.stringDicts = ∅ ∧ engine.catalog.nullMasks = ∅ := by
  have loaded : ∃ after, (Catalog.fresh 8 : Catalog ℚ).loadScanColumn 7 [] =
      some after ∧ after.columns.keys = [7] ∧ after.nameToId = ∅ ∧
      after.stringDicts = ∅ ∧ after.nullMasks = ∅ :=
    ⟨_, rfl, rfl, rfl, rfl, rfl⟩
  obtain ⟨after, ran, keys, index, dicts, masks⟩ := loaded
  have loads := Catalog.loadScanColumn_loads (Catalog.wellFormed_fresh 8) ran
  have has : after.catalogHas 7 = true := by
    rw [Catalog.catalogHas_eq loads.wellFormed, loads.contents_self]
    rfl
  have named : after.nameColumn 7 name = some { after with
      columnNames := after.columnNames.insert 7 name
      nameToId := after.nameToId.insert name 7 } := by
    rw [Catalog.nameColumn, if_pos has]
  have load : (CatalogCall.loadScanColumn 7 []).run noNumber (fun _ => 0)
      (fresh 8) = some (.done, _) :=
    thenCatalog_some _ ran
  have rename : (CatalogCall.nameColumn 7 name).run noNumber (fun _ => 0)
      { (fresh 8 : Analytics ℚ) with catalog := after } = some (.done, _) :=
    thenCatalog_some _ named
  refine ⟨_, .call (.call (.fresh 8) load) rename, keys, ?_, ?_, dicts, masks⟩
  · rw [Catalog.columnName, AList.lookup_insert]
    rfl
  · rw [← index]

/-- The order in which a lone column is saved. -/
theorem walks_named {catalog : Catalog ℚ} (columns : catalog.columns.keys = [7])
    (dicts : catalog.stringDicts = ∅) (masks : catalog.nullMasks = ∅) :
    (⟨[7], [], []⟩ : Catalog.WalkOrder).Walks catalog := by
  refine ⟨?_, ?_, ?_⟩
  · rw [columns]
  · rw [dicts]
    exact .nil
  · rw [masks]
    exact .nil

/-- A lone column whose name is short can be read back. -/
theorem readable_named {catalog : Catalog ℚ}
    (columns : catalog.columns.keys = [7])
    (short : (catalog.columnName 7).length ≤ 4096)
    (dicts : catalog.stringDicts = ∅) (masks : catalog.nullMasks = ∅) :
    catalog.Readable := by
  refine ⟨?_, ?_, ?_⟩
  · intro id has
    rw [eq_of_has columns has]
    exact castLe short (by decide)
  · intro id dict stored
    rw [dicts] at stored
    cases stored
  · intro id mask stored
    rw [masks] at stored
    cases stored

/-- A column may be given any name and is saved with it; a name of 4097 bytes
is not read back. -/
theorem long_name_refused :
    ∃ (engine : Analytics ℚ) (order : Catalog.WalkOrder) (room : Nat)
      (file : Bytes) (saved : Catalog ℚ),
      Live noNumber engine ∧ order.Walks engine.catalog ∧ order.Counted ∧
      engine.catalog.saveCatalog room order = some (some file, saved) ∧
      ∀ hostCap, ∃ left, (Catalog.fresh hostCap : Catalog ℚ).loadCatalog file =
        some (false, left) := by
  obtain ⟨engine, live, columns, name, _, dicts, masks⟩ :=
    exists_named (List.replicate 4097 97)
  have wellFormed := live.settled.wellFormed
  have walks := walks_named columns dicts masks
  have counted : (⟨[7], [], []⟩ : Catalog.WalkOrder).Counted :=
    ⟨by decide, by decide⟩
  obtain ⟨out, saved, ran, _, whole, written⟩ := Catalog.saveCatalog_outcome
    wellFormed (engine.catalog.snapshot ⟨[7], [], []⟩).length fun id =>
      (Catalog.mem_columns_iff wellFormed walks id).mp
  obtain ⟨file, same⟩ := Option.isSome_iff_exists.mp
    (written (Nat.le_refl _))
  subst same
  refine ⟨engine, ⟨[7], [], []⟩, _, file, saved, live, walks, counted, ran, ?_⟩
  intro hostCap
  rw [whole file rfl]
  apply (Catalog.loadCatalog_snapshot wellFormed live.coded walks counted
    hostCap).2
  intro readable
  have registered := (Catalog.mem_columns_iff wellFormed walks 7).mp
    List.mem_cons_self
  have short := readable.names 7 (by
    rw [Catalog.catalogHas_eq wellFormed]
    exact registered)
  rw [name, List.length_replicate] at short
  exact absurd short (by decide)

end Analytics

end MatrixDB
