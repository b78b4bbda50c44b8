import MatrixDB.Catalog.Restore

/-!
# Null masks along runs of the engine

Every operation of the catalog keeps each null mask as long as its column,
with one exception: `append_to_column` and its typed siblings add rows and
leave the mask as it was.
-/

namespace MatrixDB

open Lib

/-- The operations of a run, except the loading of a snapshot. -/
inductive CatalogOp where
  | loadScanColumn (id : UInt64) (data : List UInt32)
  | loadScanColumnI64 (id : UInt64) (data : List Int64)
  | loadScanColumnF64 (id : UInt64) (data : List UInt64)
  | loadStringColumnDict (id : UInt64) (data : List Bytes)
  | setColumnNulls (id : UInt64) (isNull : Bytes)
  | nameColumn (id : UInt64) (name : Bytes)
  | appendToColumn (id : UInt64) (data : List UInt32)
  | appendToColumnI64 (id : UInt64) (data : List Int64)
  | appendToColumnF64 (id : UInt64) (data : List UInt64)
  | setMaxQueryGroups (groups : UInt32)
  | setRebalanceInterval (scans : UInt64)
  | executeQuery (ns : UInt64) (q : MatrixQuery)
  | executeQueryShared (ns : UInt64) (q : MatrixQuery)
  | saveCatalog (room : Nat) (order : Catalog.WalkOrder)

namespace CatalogOp

/-- The column an operation appends to and how many rows. -/
def appended : CatalogOp → Option (UInt64 × Nat)
  | .appendToColumn id data => some (id, data.length)
  | .appendToColumnI64 id data => some (id, data.length)
  | .appendToColumnF64 id data => some (id, data.length)
  | _ => none

variable {κ : Type}

/-- Rows are appended only to columns without a null mask. -/
def KeepsMasks (catalog : Catalog κ) (op : CatalogOp) : Prop :=
  ∀ id rows, op.appended = some (id, rows) →
    rows = 0 ∨ catalog.nullMasks.lookup id = none

/-- Run one operation; `none` is an abort. -/
def run [CostArith κ] (catalog : Catalog κ) : CatalogOp → Option (Catalog κ)
  | .loadScanColumn id data => catalog.loadScanColumn id data
  | .loadScanColumnI64 id data => catalog.loadScanColumnI64 id data
  | .loadScanColumnF64 id data => catalog.loadScanColumnF64 id data
  | .loadStringColumnDict id data => catalog.loadStringColumnDict id data
  | .setColumnNulls id isNull => catalog.setColumnNulls id isNull
  | .nameColumn id name => catalog.nameColumn id name
  | .appendToColumn id data => catalog.appendToColumn id data
  | .appendToColumnI64 id data => catalog.appendToColumnI64 id data
  | .appendToColumnF64 id data => catalog.appendToColumnF64 id data
  | .setMaxQueryGroups groups => some (catalog.setMaxQueryGroups groups)
  | .setRebalanceInterval scans => some (catalog.setRebalanceInterval scans)
  | .executeQuery ns q =>
      (catalog.executeQuery ns q).map fun result => result.2.2
  | .executeQueryShared ns q =>
      (catalog.executeQueryShared ns q).map fun result => result.2
  | .saveCatalog room order =>
      (catalog.saveCatalog room order).map fun result => result.2

/-- A save walks the maps of the engine it saves. -/
def Valid (catalog : Catalog κ) : CatalogOp → Prop
  | .saveCatalog _ order => order.Walks catalog
  | _ => True

end CatalogOp

namespace Catalog

variable {κ : Type}

/-- The states of an engine whose operations are all allowed.  A snapshot may
have been saved by this engine or by another one. -/
inductive Reachable [CostArith κ]
    (Allowed : Catalog κ → CatalogOp → Prop) : Catalog κ → Prop where
  | fresh (hostCap : Nat) : Reachable Allowed (fresh hostCap)
  | step {catalog after : Catalog κ} {op : CatalogOp}
      (before : Reachable Allowed catalog) (allowed : Allowed catalog op)
      (valid : op.Valid catalog) (ran : op.run catalog = some after) :
      Reachable Allowed after
  | loadCatalog {saver saved catalog after : Catalog κ} {room : Nat}
      {order : WalkOrder} {file : Bytes} {ok : Bool}
      (writer : Reachable Allowed saver) (walks : order.Walks saver)
      (written : saver.saveCatalog room order = some (some file, saved))
      (reader : Reachable Allowed catalog)
      (ran : catalog.loadCatalog file = some (ok, after)) :
      Reachable Allowed after

/-! ## Appending -/

theorem AppendsRows.columnRows_self {before after : Catalog κ}
    (wellFormed : before.WellFormed) {id : UInt64} {rows : Nat}
    (appends : AppendsRows before id rows after) :
    after.columnRows id = before.columnRows id + rows := by
  obtain ⟨more, length, appends⟩ := appends
  obtain ⟨bytes, read, grown⟩ := appends.contents_self
  have type : after.columnType id = before.columnType id := by
    rw [columnType, appends.colTypes]
    rfl
  have positive : 0 < (before.columnType id).width := by
    cases before.columnType id <;> decide
  rw [columnRows, sizeBytes_eq appends.wellFormed, grown, type, columnRows,
    sizeBytes_eq wellFormed, read]
  simp only [Option.map_some, Option.getD_some, List.length_append, length]
  exact Nat.add_mul_div_left _ _ positive

theorem Appends.columnRows_ne {before after : Catalog κ}
    (wellFormed : before.WellFormed) {id : UInt64} {more : Bytes}
    (appends : Appends before id more after) {other : UInt64}
    (different : other ≠ id) :
    after.columnRows other = before.columnRows other := by
  rw [columnRows, sizeBytes_eq appends.wellFormed,
    appends.contents_ne other different, columnType, appends.colTypes,
    ← sizeBytes_eq wellFormed]
  rfl

theorem Appends.registered {before after : Catalog κ} {id : UInt64}
    {more : Bytes} (appends : Appends before id more after) (other : UInt64) :
    (after.contents other).isSome = (before.contents other).isSome := by
  by_cases own : other = id
  · subst own
    obtain ⟨bytes, read, grown⟩ := appends.contents_self
    rw [read, grown]
    rfl
  · rw [appends.contents_ne other own]

theorem Sound.appends {before after : Catalog κ} (sound : before.Sound)
    {id : UInt64} {rows : Nat} (appends : AppendsRows before id rows after)
    (kept : rows = 0 ∨ before.nullMasks.lookup id = none) : after.Sound := by
  have grown := appends.columnRows_self sound.wellFormed
  obtain ⟨more, _, appends⟩ := appends
  refine ⟨appends.wellFormed, ⟨?_, ?_⟩, ?_⟩
  · intro other mask stored
    rw [appends.registered]
    exact sound.masks.registered other mask (appends.nullMasks ▸ stored)
  · intro other mask stored
    rw [appends.nullMasks] at stored
    have aligned := sound.masks.aligned other mask stored
    by_cases own : other = id
    · subst own
      rcases kept with none | unmasked
      · rw [grown, none]
        exact aligned
      · rw [unmasked] at stored
        cases stored
    · rw [appends.columnRows_ne sound.wellFormed own]
      exact aligned
  · intro other dict stored
    rw [appends.registered]
    exact sound.dicts other dict (appends.stringDicts ▸ stored)

/-- Rows appended to a column with a mask are not covered by it. -/
theorem MasksFit.uncovered {before after : Catalog κ} (fit : before.MasksFit)
    (wellFormed : before.WellFormed) {id : UInt64} {rows : Nat}
    (appends : AppendsRows before id rows after) (some : rows ≠ 0)
    {mask : Bytes} (stored : before.nullMasks.lookup id = .some mask) :
    ¬ after.MasksAligned := by
  intro aligned
  have grown := appends.columnRows_self wellFormed
  obtain ⟨more, _, appends⟩ := appends
  have covered := aligned id mask (by rw [appends.nullMasks]; exact stored)
  have before := fit.aligned id mask stored
  omega

/-! ## Runs -/

theorem Sound.setMaxQueryGroups {catalog : Catalog κ} (sound : catalog.Sound)
    (groups : UInt32) : (catalog.setMaxQueryGroups groups).Sound :=
  ⟨wellFormed_setMaxQueryGroups sound.wellFormed groups,
    ⟨sound.masks.registered, sound.masks.aligned⟩, sound.dicts⟩

theorem keeps_executeQueryShared {catalog after : Catalog κ}
    (wellFormed : catalog.WellFormed) {ns : UInt64} {q : MatrixQuery}
    {outcome : ReadOutcome}
    (ran : catalog.executeQueryShared ns q = some (outcome, after)) :
    Keeps catalog after := by
  obtain ⟨result, _, rest⟩ := Option.bind_eq_some_iff.mp ran
  cases result with
  | SERVED out =>
      cases rest
      exact keeps_recordQueryLatency wellFormed ns
  | NEEDS_EXCLUSIVE =>
      cases rest
      exact .refl wellFormed

section
variable [CostArith κ]

theorem Sound.loadStringColumnDict {before after : Catalog κ}
    (sound : before.Sound) {id : UInt64} {data : List Bytes}
    (loaded : before.loadStringColumnDict id data = some after) :
    after.Sound := by
  obtain ⟨codes, middle, loads, bounded, rfl⟩ :=
    loadStringColumnDict_loads sound.wellFormed loaded
  have sized := loads.wellFormed.sized id codes loads.contents_self
  apply (sound.loads loads).insertDict
  · rw [loads.contents_self]
    rfl
  · omega

end

section
variable [SoundCost κ]

theorem keeps_executeQuery {catalog after : Catalog κ}
    (wellFormed : catalog.WellFormed) {ns : UInt64} {q : MatrixQuery}
    {status : MatrixQueryStatus} {out : List UInt64}
    (ran : catalog.executeQuery ns q = some (status, out, after)) :
    Keeps catalog after := by
  obtain ⟨kept, keeps, same⟩ := executeQuery_eq wellFormed ns q
  rw [ran] at same
  obtain ⟨_, _, equal⟩ := Option.map_eq_some_iff.mp same.symm
  cases equal
  exact keeps

/-- What an append does, whatever its type. -/
theorem run_appends {catalog after : Catalog κ}
    (wellFormed : catalog.WellFormed) {op : CatalogOp} {id : UInt64}
    {rows : Nat} (appended : op.appended = some (id, rows))
    (ran : op.run catalog = some after) :
    AppendsRows catalog id rows after := by
  cases op with
  | appendToColumn other data =>
      cases appended
      exact appendToColumn_appends wellFormed ran
  | appendToColumnI64 other data =>
      cases appended
      exact appendToColumnI64_appends wellFormed ran
  | appendToColumnF64 other data =>
      cases appended
      exact appendToColumnF64_appends wellFormed ran
  | _ => cases appended

theorem Sound.step {catalog after : Catalog κ} (sound : catalog.Sound)
    {op : CatalogOp} (allowed : op.KeepsMasks catalog)
    (valid : op.Valid catalog) (ran : op.run catalog = some after) :
    after.Sound := by
  have wellFormed := sound.wellFormed
  cases op with
  | loadScanColumn id data =>
      exact sound.loads (loadScanColumn_loads wellFormed ran)
  | loadScanColumnI64 id data =>
      exact sound.loads (loadScanColumnI64_loads wellFormed ran)
  | loadScanColumnF64 id data =>
      exact sound.loads (loadScanColumnF64_loads wellFormed ran)
  | loadStringColumnDict id data => exact sound.loadStringColumnDict ran
  | setColumnNulls id isNull =>
      obtain ⟨has, length, rfl⟩ := setColumnNulls_eq ran
      rw [catalogHas_eq wellFormed] at has
      exact sound.insertMask has length
  | nameColumn id name =>
      rw [nameColumn_eq ran]
      exact sound.names _ _
  | appendToColumn id data =>
      exact sound.appends (run_appends wellFormed rfl ran) (allowed _ _ rfl)
  | appendToColumnI64 id data =>
      exact sound.appends (run_appends wellFormed rfl ran) (allowed _ _ rfl)
  | appendToColumnF64 id data =>
      exact sound.appends (run_appends wellFormed rfl ran) (allowed _ _ rfl)
  | setMaxQueryGroups groups =>
      cases ran
      exact sound.setMaxQueryGroups groups
  | setRebalanceInterval scans =>
      cases ran
      exact sound.keeps (keeps_setRebalanceInterval wellFormed scans)
  | executeQuery ns q =>
      obtain ⟨result, answered, rfl⟩ := Option.map_eq_some_iff.mp ran
      exact sound.keeps (keeps_executeQuery wellFormed answered)
  | executeQueryShared ns q =>
      obtain ⟨result, answered, rfl⟩ := Option.map_eq_some_iff.mp ran
      exact sound.keeps (keeps_executeQueryShared wellFormed answered)
  | saveCatalog room order =>
      obtain ⟨result, saved, rfl⟩ := Option.map_eq_some_iff.mp ran
      obtain ⟨_, _, same, keeps, _⟩ := saveCatalog_eq wellFormed room
        (fun id member => registered_of_mem_keys wellFormed
          (valid.columns.mem_iff.mp member))
      cases saved.symm.trans same
      exact sound.keeps keeps

theorem Reachable.sound {catalog : Catalog κ}
    (reachable : Reachable CatalogOp.KeepsMasks catalog) : catalog.Sound := by
  induction reachable with
  | fresh hostCap => exact sound_fresh hostCap
  | step _ allowed valid ran sound => exact sound.step allowed valid ran
  | @loadCatalog saver saved catalog after room order file ok _ walks written
      _ ran writer reader =>
      obtain ⟨_, _, same, _, whole⟩ := saveCatalog_eq writer.wellFormed room
        (fun id member => registered_of_mem_keys writer.wellFormed
          (walks.columns.mem_iff.mp member))
      cases written.symm.trans same
      rw [whole file rfl] at ran
      exact loadCatalog_sound writer walks reader ran

/-- A mask that covers its column can be read for every row. -/
theorem scalarAggregateNullable_returns {catalog : Catalog κ}
    (wellFormed : catalog.WellFormed) (fit : catalog.MasksFit)
    {q : MatrixQuery} {mask : Bytes}
    (stored : catalog.nullMasks.lookup q.valueCol = some mask) :
    (catalog.scalarAggregateNullable q).isSome := by
  obtain ⟨bytes, read⟩ := Option.isSome_iff_exists.mp
    (fit.registered q.valueCol mask stored)
  have seen : catalog.view q.valueCol = some
      { type := catalog.columnType q.valueCol, bytes := bytes
        nulls := some mask } := by
    rw [view, read, stored]
    rfl
  have aligned := fit.aligned q.valueCol mask stored
  rw [columnRows_of_view wellFormed seen] at aligned
  obtain ⟨after, _, ran⟩ :=
    scalarAggregateNullable_eq wellFormed seen rfl
  rw [ran, Option.isSome_map]
  exact reduceNullable_returns aligned

/-- Along every run in which rows are appended only to columns without a null
mask, every mask has one entry for each row of its column; no scalar aggregate
reads past it, and the grouped aggregates use the same mask.  The first other
append breaks this. -/
theorem null_masks_aligned {catalog : Catalog κ}
    (reachable : Reachable CatalogOp.KeepsMasks catalog) :
    (∀ id mask, catalog.nullMasks.lookup id = some mask →
      catalog.catalogHas id ∧ mask.length = catalog.columnRows id) ∧
    (∀ q : MatrixQuery, (catalog.nullMasks.lookup q.valueCol).isSome →
      (catalog.scalarAggregateNullable q).isSome) ∧
    (∀ id, catalog.valueNulls id (catalog.columnRows id) =
      catalog.nullMasks.lookup id) ∧
    ∀ (op : CatalogOp) (after : Catalog κ), ¬ op.KeepsMasks catalog →
      op.run catalog = some after → ¬ after.MasksAligned := by
  have sound := reachable.sound
  refine ⟨?_, ?_, ?_, ?_⟩
  · intro id mask stored
    rw [catalogHas_eq sound.wellFormed]
    exact ⟨sound.masks.registered id mask stored,
      sound.masks.aligned id mask stored⟩
  · intro q masked
    obtain ⟨mask, stored⟩ := Option.isSome_iff_exists.mp masked
    exact scalarAggregateNullable_returns sound.wellFormed sound.masks stored
  · intro id
    unfold valueNulls
    cases stored : catalog.nullMasks.lookup id with
    | none => rfl
    | some mask => simp [sound.masks.aligned id mask stored]
  · intro op after grows ran
    simp only [CatalogOp.KeepsMasks, not_forall, not_or] at grows
    obtain ⟨id, rows, appended, more, masked⟩ := grows
    obtain ⟨mask, stored⟩ := Option.ne_none_iff_exists'.mp masked
    exact sound.masks.uncovered sound.wellFormed
      (run_appends sound.wellFormed appended ran) more stored

end

/-- A mask of one row, a second row, and a scalar aggregate that reads a mask
entry that is not there. -/
theorem null_mask_misaligned :
    ∃ catalog : Catalog ℚ, Reachable (fun _ _ => True) catalog ∧
      catalog.nullMasks.lookup 1 = some [0] ∧ catalog.columnRows 1 = 2 ∧
      catalog.scalarAggregateNullable { valueCol := 1 } = none := by
  let run := do
    let catalog ← CatalogOp.run (fresh 1024 : Catalog ℚ)
      (.loadScanColumn 1 [5])
    let catalog ← CatalogOp.run catalog (.setColumnNulls 1 [0])
    CatalogOp.run catalog (.appendToColumn 1 [7])
  have facts : (run.map fun catalog => (catalog.nullMasks.lookup 1,
      catalog.columnRows 1,
      (catalog.scalarAggregateNullable { valueCol := 1 }).isSome)) =
      some (some [0], 2, false) := by
    decide +kernel
  obtain ⟨catalog, ran, equal⟩ := Option.map_eq_some_iff.mp facts
  simp only [Prod.mk.injEq, Option.isSome_eq_false_iff,
    Option.isNone_iff_eq_none] at equal
  refine ⟨catalog, ?_, equal.1, equal.2.1, equal.2.2⟩
  obtain ⟨loaded, first, rest⟩ := Option.bind_eq_some_iff.mp ran
  obtain ⟨masked, second, third⟩ := Option.bind_eq_some_iff.mp rest
  have one : Reachable (fun _ _ => True) loaded :=
    (Reachable.fresh 1024).step trivial (by trivial) first
  exact (one.step trivial (by trivial) second).step trivial (by trivial) third

/-- The same column, with its mask set after the append. -/
theorem null_masks_aligned_appended :
    ∃ catalog : Catalog ℚ, Reachable CatalogOp.KeepsMasks catalog ∧
      catalog.nullMasks.lookup 1 = some [0, 1] ∧
      catalog.columnRows 1 = 2 := by
  let run := do
    let catalog ← CatalogOp.run (fresh 1024 : Catalog ℚ)
      (.loadScanColumn 1 [5])
    let catalog ← CatalogOp.run catalog (.appendToColumn 1 [7])
    CatalogOp.run catalog (.setColumnNulls 1 [0, 1])
  have facts : (run.map fun catalog => catalog.nullMasks.lookup 1) =
      some (some [0, 1]) := by
    decide +kernel
  obtain ⟨catalog, ran, stored⟩ := Option.map_eq_some_iff.mp facts
  obtain ⟨loaded, first, rest⟩ := Option.bind_eq_some_iff.mp ran
  obtain ⟨appended, second, third⟩ := Option.bind_eq_some_iff.mp rest
  have unmasked : loaded.nullMasks.lookup 1 = none := by
    rw [(loadScanColumn_loads (wellFormed_fresh 1024) first).nullMasks]
    rfl
  have reachable : Reachable CatalogOp.KeepsMasks catalog := by
    apply Reachable.step _ (by intro id rows; simp [CatalogOp.appended])
      (by trivial) third
    apply Reachable.step _ _ (by trivial) second
    · exact (Reachable.fresh 1024).step
        (by intro id rows; simp [CatalogOp.appended]) (by trivial) first
    · intro id rows same
      cases same
      exact .inr unmasked
  refine ⟨catalog, reachable, stored, ?_⟩
  exact ((null_masks_aligned reachable).1 1 [0, 1] stored).2.symm

end Catalog

end MatrixDB
