import MatrixDB.Catalog.History

/-!
# Runs of two engines

Two engines make the same calls.  They may have different budgets, their
rebalance intervals may be set differently between any two calls, and their
queries may take different times; no result depends on any of this.
-/

namespace MatrixDB

open Lib

variable {κ : Type}

namespace Analytics

structure Alike (left right : Analytics κ) : Prop where
  catalog : left.catalog.Alike right.catalog
  stringColumns : left.stringColumns = right.stringColumns
  tables : left.tables = right.tables

/-- Alike engines that hold what a call makes of an earlier state. -/
structure Grown (strtod : Bytes → StrtodResult) (call : CatalogCall)
    (before : Catalog κ) (left right : Analytics κ) : Prop
    extends Alike left right where
  bytes : ∀ id, left.catalog.contents id =
    call.extend strtod id (before.contents id)

theorem alike_fresh (capLeft capRight : Nat) :
    Alike (fresh capLeft : Analytics κ) (fresh capRight) :=
  ⟨⟨⟨fun _ => rfl, fun _ => rfl, fun _ => rfl, fun _ => rfl, fun _ => rfl,
      fun _ => rfl, rfl⟩,
    Catalog.settled_fresh capLeft, Catalog.settled_fresh capRight⟩, rfl, rfl⟩

section
variable {strtod : Bytes → StrtodResult} {call : CatalogCall}
  {left right : Analytics κ}

/-- A call of the catalog, with what it does to the bytes. -/
theorem Alike.withCatalog {A : Type} (alike : Alike left right)
    (wrap : A → CallResult) {made made' : Option (A × Catalog κ)}
    (twin : Twin Catalog.Alike made made')
    (bytes : Ensures (fun after => ∀ id, after.contents id =
      call.extend strtod id (left.catalog.contents id)) made) :
    Twin (Grown strtod call left.catalog) (left.withCatalog wrap made)
      (right.withCatalog wrap made') := by
  rcases twin with ⟨rfl, rfl⟩ | ⟨result, one, two, rfl, rfl, catalogs⟩
  · exact Twin.none
  · exact .pure ⟨⟨catalogs, alike.stringColumns, alike.tables⟩,
      bytes result one rfl⟩

/-- A call that neither loads nor appends. -/
theorem extend_quiet (noLoads : call.loads strtod = [])
    (noAppends : call.appends = []) (id : UInt64) (held : Option Bytes) :
    call.extend strtod id held = held := by
  cases held with
  | none => simp [CatalogCall.extend, noLoads]
  | some bytes => simp [CatalogCall.extend, noAppends]

/-- A call that changes no data. -/
theorem Alike.reads {A : Type} (alike : Alike left right)
    (wrap : A → CallResult) {made made' : Option (A × Catalog κ)}
    (noLoads : call.loads strtod = []) (noAppends : call.appends = [])
    (twin : Twin (Catalog.Kept left.catalog) made made') :
    Twin (Grown strtod call left.catalog) (left.withCatalog wrap made)
      (right.withCatalog wrap made') := by
  rcases twin with ⟨rfl, rfl⟩ | ⟨result, one, two, rfl, rfl, kept⟩
  · exact Twin.none
  · refine .pure ⟨⟨kept.toAlike, alike.stringColumns, alike.tables⟩, ?_⟩
    intro id
    rw [extend_quiet noLoads noAppends]
    exact (kept.data.contents id).symm

/-- A query or a parse, which returns a status as well. -/
theorem Alike.readsBeside {A B : Type} (alike : Alike left right)
    (wrap : A → B → CallResult) {made made' : Option (A × B × Catalog κ)}
    (noLoads : call.loads strtod = []) (noAppends : call.appends = [])
    (twin : Twin (Catalog.Kept.Beside left.catalog) made made') :
    Twin (Grown strtod call left.catalog)
      (made.map fun (status, result, catalog) =>
        (wrap status result, { left with catalog }))
      (made'.map fun (status, result, catalog) =>
        (wrap status result, { right with catalog })) := by
  refine .map twin ?_
  rintro status ⟨result, one⟩ ⟨_, two⟩ ⟨rfl, kept⟩
  refine ⟨rfl, ⟨⟨kept.toAlike, alike.stringColumns, alike.tables⟩, ?_⟩⟩
  intro id
  rw [extend_quiet noLoads noAppends]
  exact (kept.data.contents id).symm

/-- A call that loads columns. -/
theorem Alike.loads {A : Type} (alike : Alike left right)
    (wrap : A → CallResult) {made made' : Option (A × Catalog κ)}
    (nothing : call.appends = [])
    (twin : Twin Catalog.Alike made made')
    (adds : Ensures (Catalog.Adds left.catalog (call.loads strtod)) made) :
    Twin (Grown strtod call left.catalog) (left.withCatalog wrap made)
      (right.withCatalog wrap made') := by
  apply alike.withCatalog wrap twin
  intro result after ran id
  rw [adds result after ran id]
  cases left.catalog.contents id with
  | none => simp [CatalogCall.extend]
  | some bytes => simp [CatalogCall.extend, nothing]

/-- A change of what is beside the catalog. -/
theorem Alike.outside (alike : Alike left right)
    (noLoads : call.loads strtod = []) (noAppends : call.appends = [])
    {left' right' : Analytics κ} (same : left'.catalog = left.catalog)
    (same' : right'.catalog = right.catalog)
    (stringColumns : left'.stringColumns = right'.stringColumns)
    (tables : left'.tables = right'.tables) :
    Grown strtod call left.catalog left' right' := by
  refine ⟨⟨?_, stringColumns, tables⟩, ?_⟩
  · rw [same, same']
    exact alike.catalog
  · intro id
    rw [extend_quiet noLoads noAppends, same]

/-- A change of the engine beside its columns. -/
theorem Alike.changes (alike : Alike left right)
    {made made' : Option (Catalog κ)}
    (noLoads : call.loads strtod = []) (noAppends : call.appends = [])
    (related : Option.Rel Catalog.Alike made made')
    (columns : ∀ after, made = some after →
      after.columns = left.catalog.columns) :
    Twin (Grown strtod call left.catalog) (left.thenCatalog made)
      (right.thenCatalog made') := by
  apply alike.withCatalog _ (.of_rel related ())
  apply Ensures.of_some
  intro after ran id
  rw [extend_quiet noLoads noAppends, Catalog.contents, columns after ran]
  rfl

theorem Alike.loadsOne (alike : Alike left right)
    {made made' : Option (Catalog κ)} (nothing : call.appends = [])
    (related : Option.Rel Catalog.Alike made made')
    (adds : ∀ after, made = some after →
      Catalog.Adds left.catalog (call.loads strtod) after) :
    Twin (Grown strtod call left.catalog) (left.thenCatalog made)
      (right.thenCatalog made') :=
  alike.loads _ nothing (.of_rel related ()) (.of_some adds)

theorem Alike.csv {A : Type} (alike : Alike left right) {id : UInt64}
    (data : Option A) {load load' : A → Option (Catalog κ)}
    {bytes : A → Bytes} (nothing : call.appends = [])
    (these : call.loads strtod = data.toList.map fun data => (id, bytes data))
    (related : ∀ data, Option.Rel Catalog.Alike (load data) (load' data))
    (adds : ∀ data after, load data = some after →
      Catalog.Adds left.catalog [(id, bytes data)] after) :
    Twin (Grown strtod call left.catalog)
      (left.withCatalog .flag (left.catalog.loadParsed data load))
      (right.withCatalog .flag (right.catalog.loadParsed data load')) := by
  apply alike.loads .flag nothing (alike.catalog.loadParsed data related)
  rw [these]
  cases data with
  | none => exact .pure (.refl _)
  | some data => exact .of_some (adds data)

/-- A call that appends to a column. -/
theorem Alike.appends (alike : Alike left right) {ty : MatrixType}
    {id : UInt64} {more : Bytes} (whole : more.length % ty.width = 0)
    (these : call.appends = [(id, more)])
    (nothing : call.loads strtod = []) :
    Twin (Grown strtod call left.catalog)
      (left.thenCatalog (Catalog.appendTyped ty left.catalog id more))
      (right.thenCatalog (Catalog.appendTyped ty right.catalog id more)) := by
  apply alike.withCatalog _
    (.of_rel (alike.catalog.appendTyped id whole) ())
  apply Ensures.of_some
  intro after ran other
  obtain ⟨_, grows⟩ := Catalog.appendTyped_appends
    alike.catalog.left.wellFormed whole ran
  by_cases own : other = id
  · subst own
    obtain ⟨bytes, before, now⟩ := grows.contents_self
    rw [now, before]
    simp [CatalogCall.extend, these]
  · have different : (other == id) = false := by
      simpa using own
    rw [grows.contents_ne other own]
    cases left.catalog.contents other with
    | none => simp [CatalogCall.extend, nothing]
    | some bytes => simp [CatalogCall.extend, these, List.lookup, different]

end

theorem Alike.createTable {strtod : Bytes → StrtodResult}
    {left right : Analytics κ} (alike : Alike left right) (name : Bytes)
    (colIds : List UInt64) :
    Twin (Grown strtod (.createTable name colIds) left.catalog)
      (some (CallResult.flag (left.createTable name colIds).1,
        (left.createTable name colIds).2))
      (some (CallResult.flag (right.createTable name colIds).1,
        (right.createTable name colIds).2)) := by
  unfold Analytics.createTable
  cases colIds with
  | nil =>
      exact .pure (alike.outside rfl rfl rfl rfl alike.stringColumns
        alike.tables)
  | cons first others =>
      simp only [alike.catalog.catalogHas, alike.catalog.columnRows]
      split
      · exact .pure (alike.outside rfl rfl rfl rfl alike.stringColumns
          (congrArg (AList.insert name _) alike.tables))
      · exact .pure (alike.outside rfl rfl rfl rfl alike.stringColumns
          alike.tables)

section
variable [SoundCost κ] {strtod : Bytes → StrtodResult}
  {left right : Analytics κ}

/-- Every call has the same outcome on both sides and does to the bytes what
`CatalogCall.extend` says. -/
theorem Alike.run (alike : Alike left right) (ns ns' : Nat → UInt64)
    (call : CatalogCall) :
    Twin (Grown strtod call left.catalog) (call.run strtod ns left)
      (call.run strtod ns' right) := by
  have kept : Catalog.Kept left.catalog left.catalog right.catalog :=
    ⟨alike.catalog, .refl left.catalog⟩
  have wellFormed := alike.catalog.left.wellFormed
  have unchanged : ∀ {call : CatalogCall}, call.loads strtod = [] →
      call.appends = [] → Grown strtod call left.catalog left right := by
    intro call noLoads noAppends
    exact alike.outside noLoads noAppends rfl rfl alike.stringColumns
      alike.tables
  cases call with
  | loadScanColumn id data =>
      exact alike.loadsOne rfl (alike.catalog.loadScanColumn id data)
        fun _ ran => (Catalog.loadScanColumn_loads wellFormed ran).adds
  | loadScanColumnI64 id data =>
      exact alike.loadsOne rfl (alike.catalog.loadScanColumnI64 id data)
        fun _ ran => (Catalog.loadScanColumnI64_loads wellFormed ran).adds
  | loadScanColumnF64 id data =>
      exact alike.loadsOne rfl (alike.catalog.loadScanColumnF64 id data)
        fun _ ran => (Catalog.loadScanColumnF64_loads wellFormed ran).adds
  | loadStringColumn id data =>
      apply Twin.of_rel
      unfold loadStringColumn
      split
      · exact .none
      · exact .some (alike.outside rfl rfl rfl rfl
          (congrArg (AList.insert id data) alike.stringColumns) alike.tables)
  | loadStringColumnDict id data =>
      exact alike.loadsOne rfl (alike.catalog.loadStringColumnDict id data)
        fun _ ran => Catalog.loadStringColumnDict_adds wellFormed ran
  | loadColumnFromFile id file =>
      exact alike.loadsOne rfl (alike.catalog.loadColumnFromFile id file)
        fun _ ran => Catalog.loadColumnFromFile_adds wellFormed ran
  | loadColumnFromCsv id source =>
      exact alike.csv _ rfl rfl (alike.catalog.loadScanColumn id)
        fun _ _ ran => (Catalog.loadScanColumn_loads wellFormed ran).adds
  | loadColumnFromCsvI64 id source =>
      exact alike.csv _ rfl rfl (alike.catalog.loadScanColumnI64 id)
        fun _ _ ran => (Catalog.loadScanColumnI64_loads wellFormed ran).adds
  | loadColumnFromCsvF64 id source =>
      exact alike.csv _ rfl rfl (alike.catalog.loadScanColumnF64 id)
        fun _ _ ran => (Catalog.loadScanColumnF64_loads wellFormed ran).adds
  | loadStringColumnFromCsv id source =>
      exact alike.csv _ rfl rfl (alike.catalog.loadStringColumnDict id)
        fun _ _ ran => Catalog.loadStringColumnDict_adds wellFormed ran
  | loadCatalog file =>
      cases file with
      | none =>
          exact .pure (unchanged rfl rfl)
      | some file =>
          exact alike.loads .flag rfl (alike.catalog.loadCatalog file)
            fun _ _ ran => Catalog.loadCatalog_adds wellFormed ran
  | appendToColumn id data =>
      have whole : (data.flatMap u32Bytes).length % 4 = 0 := by
        rw [Catalog.length_flatMap_u32Bytes]
        exact Nat.mul_mod_right _ _
      exact alike.appends whole rfl rfl
  | appendToColumnI64 id data =>
      have length := Catalog.length_flatMap_u64Bytes Int64.toUInt64 data
      have whole : (data.flatMap fun value =>
          u64Bytes value.toUInt64).length % 8 = 0 := by
        rw [length]
        exact Nat.mul_mod_right _ _
      exact alike.appends whole rfl rfl
  | appendToColumnF64 id data =>
      have length := Catalog.length_flatMap_u64Bytes (fun value => value) data
      have whole : (data.flatMap u64Bytes).length % 8 = 0 := by
        rw [length]
        exact Nat.mul_mod_right _ _
      exact alike.appends whole rfl rfl
  | setColumnNulls id isNull =>
      apply alike.changes rfl rfl (alike.catalog.setColumnNulls id isNull)
      intro after ran
      obtain ⟨_, _, rfl⟩ := Catalog.setColumnNulls_eq ran
      rfl
  | nameColumn id name =>
      apply alike.changes rfl rfl (alike.catalog.nameColumn id name)
      intro after ran
      cases Catalog.nameColumn_eq ran
      rfl
  | createTable name colIds => exact alike.createTable name colIds
  | setMaxQueryGroups groups =>
      apply alike.changes rfl rfl (.some (alike.catalog.setMaxQueryGroups groups))
      intro after ran
      cases ran
      rfl
  | executeQuery q =>
      exact alike.readsBeside .answer rfl rfl (kept.executeQuery _ _ q)
  | parseQuery sql =>
      exact alike.readsBeside .parsed rfl rfl (kept.parseQuery strtod sql)
  | executeScan colId threshold op =>
      exact alike.reads .word rfl rfl (kept.scanTyped .U32 _)
  | groupedAggregate keyId valueId numGroups op =>
      exact alike.reads .words rfl rfl (kept.groupedAggregate _)
  | groupedAggregatePred keyId valueId numGroups op pred =>
      exact alike.reads .words rfl rfl (kept.groupedAggregate _)
  | groupedAggregateWhere keyId valueId numGroups op threshold =>
      exact alike.reads .words rfl rfl (kept.groupedAggregate _)
  | groupedAggregateI64 q =>
      exact alike.reads .words rfl rfl (kept.groupedAggregateWide .I64 q)
  | groupedAggregateF64 q =>
      exact alike.reads .words rfl rfl (kept.groupedAggregateWide .F64 q)
  | hashJoin leftKeyId rightKeyId =>
      exact alike.reads .pairs rfl rfl (kept.hashJoin leftKeyId rightKeyId)
  | hashJoinCount leftKeyId rightKeyId =>
      exact alike.reads .word rfl rfl (kept.hashJoinCount leftKeyId rightKeyId)
  | hashJoinI64 leftKeyId rightKeyId =>
      exact alike.reads .pairs rfl rfl (kept.hashJoinI64 leftKeyId rightKeyId)
  | gather colId rows => exact alike.reads .words rfl rfl (kept.gather colId rows)
  | matchingRows filterCol pred limit =>
      exact alike.reads .words rfl rfl (kept.matchingRows filterCol pred limit)
  | project colId hasFilter filterCol pred limit =>
      exact alike.reads .words rfl rfl
        (kept.project colId hasFilter filterCol pred limit)
  | countDistinct colId =>
      exact alike.reads .word rfl rfl (kept.countDistinct colId)
  | saveColumn id => exact alike.reads .bytes rfl rfl (kept.saveColumn id)
  | topGroups q k => exact alike.reads .pairs rfl rfl (kept.topGroups _ _ q k)
  | having q cmp threshold upper =>
      exact alike.reads .pairs rfl rfl (kept.having _ _ q cmp threshold upper)
  | average q => exact alike.reads .averages rfl rfl (kept.average ns ns' q)
  | avgQuery sql =>
      exact alike.reads .averages rfl rfl (kept.avgQuery strtod ns ns' sql)
  | queryMulti sql =>
      exact alike.reads .results rfl rfl (kept.queryMulti strtod ns ns' sql)
  | topQuery sql =>
      exact alike.reads .pairs rfl rfl (kept.topQuery strtod _ _ sql)
  | havingQuery sql =>
      exact alike.reads .pairs rfl rfl (kept.havingQuery strtod _ _ sql)
  | distinctQuery sql =>
      exact alike.reads .distinct rfl rfl (kept.distinctQuery sql)
  | projectQuery sql =>
      exact alike.reads .words rfl rfl (kept.projectQuery strtod sql)
  | stringColumnRows id =>
      simp only [CatalogCall.run, stringColumnRows, alike.stringColumns]
      exact .pure (unchanged rfl rfl)
  | stringCountWhereEq id value =>
      simp only [CatalogCall.run, stringCountWhereEq, alike.stringColumns]
      exact .pure (unchanged rfl rfl)
  | stringColumnAt id row =>
      simp only [CatalogCall.run, stringColumnAt, alike.stringColumns]
      cases (right.stringColumns.lookup id).bind fun data => data[row]? with
      | none => exact Twin.none
      | some value => exact .pure (unchanged rfl rfl)

end

/-! ## Runs -/

/-- What may differ between two engines before and during a call: the
rebalance intervals that are set, and how long queries take. -/
structure Tuning where
  intervals : List UInt64
  ns : Nat → UInt64

def tune (engine : Analytics κ) (intervals : List UInt64) : Analytics κ :=
  { engine with
    catalog := intervals.foldl Catalog.setRebalanceInterval engine.catalog }

/-- The results of some calls in a row and the engine after them; an abort
ends the run. -/
def runCalls [CostArith κ] (strtod : Bytes → StrtodResult) :
    List CatalogCall → (Nat → Tuning) → Analytics κ →
      List CallResult × Option (Analytics κ)
  | [], tuning, engine => ([], some (engine.tune (tuning 0).intervals))
  | call :: calls, tuning, engine =>
      match call.run strtod (tuning 0).ns
          (engine.tune (tuning 0).intervals) with
      | none => ([], none)
      | some (result, engine) =>
          let (results, last) :=
            runCalls strtod calls (fun step => tuning (step + 1)) engine
          (result :: results, last)

/-- What a column holds after some calls. -/
def history (strtod : Bytes → StrtodResult) (calls : List CatalogCall)
    (id : UInt64) (held : Option Bytes) : Option Bytes :=
  calls.foldl (fun held call => call.extend strtod id held) held

theorem contents_tune (engine : Analytics κ) (intervals : List UInt64)
    (id : UInt64) :
    (engine.tune intervals).catalog.contents id =
      engine.catalog.contents id := by
  unfold tune
  induction intervals generalizing engine with
  | nil => rfl
  | cons scans intervals induction =>
      exact induction { engine with
        catalog := engine.catalog.setRebalanceInterval scans }

theorem Alike.tuneLeft {left right : Analytics κ} (alike : Alike left right)
    (intervals : List UInt64) : Alike (left.tune intervals) right := by
  induction intervals generalizing left with
  | nil => exact alike
  | cons scans intervals induction =>
      have first : Alike (left.tune [scans]) right :=
        ⟨alike.catalog.setRebalanceInterval scans, alike.stringColumns,
          alike.tables⟩
      exact induction first

theorem Alike.symm {left right : Analytics κ} (alike : Alike left right) :
    Alike right left :=
  ⟨alike.catalog.symm, alike.stringColumns.symm, alike.tables.symm⟩

theorem Alike.tune {left right : Analytics κ} (alike : Alike left right)
    (intervals intervals' : List UInt64) :
    Alike (left.tune intervals) (right.tune intervals') :=
  ((alike.tuneLeft intervals).symm.tuneLeft intervals').symm

section
variable [SoundCost κ]

theorem Alike.runCalls (strtod : Bytes → StrtodResult)
    (calls : List CatalogCall) (tuning tuning' : Nat → Tuning)
    {left right : Analytics κ} (alike : Alike left right) :
    let one := Analytics.runCalls strtod calls tuning left
    let two := Analytics.runCalls strtod calls tuning' right
    one.1 = two.1 ∧ Option.Rel Alike one.2 two.2 ∧
      ∀ engine, one.2 = some engine → ∀ id, engine.catalog.contents id =
        history strtod calls id (left.catalog.contents id) := by
  induction calls generalizing tuning tuning' left right with
  | nil =>
      refine ⟨rfl, .some (alike.tune _ _), ?_⟩
      intro engine same id
      cases same
      exact contents_tune left _ id
  | cons call calls induction =>
      have tuned := alike.tune (tuning 0).intervals (tuning' 0).intervals
      have twin : Twin (Grown strtod call _) _ _ :=
        tuned.run (tuning 0).ns (tuning' 0).ns call
      unfold Analytics.runCalls
      rcases twin with
        ⟨stop, stop'⟩ | ⟨result, one, two, ran, ran', grown⟩
      · rw [stop, stop']
        exact ⟨rfl, .none, nofun⟩
      · rw [ran, ran']
        obtain ⟨results, engines, bytes⟩ := induction
          (fun step => tuning (step + 1)) (fun step => tuning' (step + 1))
          grown.toAlike
        refine ⟨congrArg (result :: ·) results, engines, ?_⟩
        intro engine last id
        rw [bytes engine last id, grown.bytes, contents_tune]
        rfl

/-- Two engines that differ in their budgets and in their rebalance intervals,
whenever these are set, give the same results for the same calls, abort at the
same one if at all, and hold in every column the bytes loaded into it followed
by the bytes appended to it. -/
theorem tiering_transparent (strtod : Bytes → StrtodResult)
    (calls : List CatalogCall) (capLeft capRight : Nat)
    (left right : Nat → Tuning) :
    let one := Analytics.runCalls strtod calls left
      (fresh capLeft : Analytics κ)
    let two := Analytics.runCalls strtod calls right
      (fresh capRight : Analytics κ)
    one.1 = two.1 ∧ one.2.isSome = two.2.isSome ∧
      ∀ engine, one.2 = some engine ∨ two.2 = some engine →
        ∀ id, engine.catalog.contents id =
          history strtod calls id none := by
  have forth := Alike.runCalls strtod calls left right
    (alike_fresh capLeft capRight : Alike (κ := κ) _ _)
  have back := Alike.runCalls strtod calls right left
    (alike_fresh capRight capLeft : Alike (κ := κ) _ _)
  obtain ⟨results, engines, bytes⟩ := forth
  refine ⟨results, ?_, ?_⟩
  · generalize (Analytics.runCalls strtod calls left
      (fresh capLeft : Analytics κ)).2 = one at engines
    generalize (Analytics.runCalls strtod calls right
      (fresh capRight : Analytics κ)).2 = two at engines
    cases engines with
    | none => rfl
    | some alike => rfl
  · intro engine either id
    rcases either with first | second
    · exact bytes engine first id
    · exact back.2.2 engine second id

end

end Analytics

end MatrixDB
