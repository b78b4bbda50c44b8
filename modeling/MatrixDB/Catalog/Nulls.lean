import MatrixDB.Catalog.Loading

/-!
# NULL rows

A null mask marks rows of a column that no aggregate should see.  Where the
mask has one entry for each row, the scalar and the grouped paths answer as if
the marked rows had been deleted.  The paths that filter on another column do
not read the mask.
-/

namespace MatrixDB

open Lib

namespace ColumnView

def rowBytes (view : ColumnView) (row : Nat) : Bytes :=
  (view.bytes.drop (view.type.width * row)).take view.type.width

/-- Some rows of a column, with their entries of the mask. -/
def keepRows (view : ColumnView) (rows : List Nat) : ColumnView :=
  { type := view.type
    bytes := rows.flatMap view.rowBytes
    nulls := view.nulls.map fun mask => rows.map fun row => mask.getD row 0 }

/-- The rows of a column that a mask does not mark. -/
def liveIndices (view : ColumnView) (mask : Bytes) : List Nat :=
  (List.range view.rows).filter fun row => mask.getD row 0 == 0

/-- Delete the rows that are NULL in the value column. -/
def deleteNulls (valueNulls : Option Bytes) (view : ColumnView) :
    ColumnView :=
  match valueNulls with
  | none => view
  | some mask => view.keepRows (view.liveIndices mask)

theorem length_rowBytes {view : ColumnView} {row : Nat}
    (inside : row < view.rows) :
    (view.rowBytes row).length = view.type.width := by
  have next : view.type.width * (row + 1) ≤ view.bytes.length :=
    le_trans (Nat.mul_le_mul_left view.type.width inside)
      (Nat.mul_div_le view.bytes.length view.type.width)
  rw [Nat.mul_succ] at next
  rw [rowBytes, List.length_take, List.length_drop]
  omega

section
variable (view : ColumnView) (mask : Bytes)

theorem length_liveIndices_bytes :
    (view.keepRows (view.liveIndices mask)).bytes.length =
      view.type.width * (view.liveIndices mask).length := by
  apply length_flatMap_uniform
  intro row member
  apply length_rowBytes
  exact List.mem_range.mp (List.mem_filter.mp member).1

theorem rows_liveIndices :
    (view.keepRows (view.liveIndices mask)).rows =
      (view.liveIndices mask).length := by
  have positive : 0 < view.type.width := by
    cases view.type <;> decide
  rw [rows, length_liveIndices_bytes]
  exact Nat.mul_div_cancel_left _ positive

variable {view mask}

/-- A remaining row has the bytes it had. -/
theorem rowBytes_liveIndices {j row : Nat}
    (found : (view.liveIndices mask)[j]? = some row) :
    (view.keepRows (view.liveIndices mask)).rowBytes j = view.rowBytes row := by
  apply take_drop_flatMap (view.liveIndices mask) _ found
  intro other member
  apply length_rowBytes
  exact List.mem_range.mp (List.mem_filter.mp member).1

theorem read_liveIndices {V A : Type} {K : AggKernel V A}
    {read : Bytes → Nat → V} {hit : MatrixQuery → V → Bool}
    (element : ElementKernel view.type K read hit) {j row : Nat}
    (found : (view.liveIndices mask)[j]? = some row) :
    read (view.keepRows (view.liveIndices mask)).bytes j =
      read view.bytes row :=
  element.read_congr (rowBytes_liveIndices found)

/-- No remaining row is NULL. -/
theorem liveRows_liveIndices (view : ColumnView) (mask : Bytes) :
    ∃ live, liveRows (some ((view.liveIndices mask).map fun row =>
        mask.getD row 0)) (view.liveIndices mask).length = some live ∧
      ∀ j row, (view.liveIndices mask)[j]? = some row → live j = true := by
  have enough : (view.liveIndices mask).length ≤
      ((view.liveIndices mask).map fun row => mask.getD row 0).length := by
    rw [List.length_map]
  refine ⟨_, by rw [liveRows, if_pos enough], ?_⟩
  intro j row found
  have kept : row ∈ view.liveIndices mask := List.mem_of_getElem? found
  have unmarked := (List.mem_filter.mp kept).2
  rw [List.getD_eq_getElem?_getD, List.getElem?_map, found]
  exact unmarked

theorem liveRows_aligned (aligned : mask.length = view.rows) :
    liveRows (some mask) view.rows =
      some fun row => mask.getD row 0 == 0 := by
  rw [liveRows, if_pos (Nat.le_of_eq aligned.symm)]

end

end ColumnView

open ColumnView

/-! ## Aggregates over the remaining rows -/

section
variable {q : MatrixQuery} {value k : ColumnView} {mask : Bytes}
  (aligned : mask.length = value.rows)

include aligned

/-- No row lies past a mask that covers the rows. -/
theorem reduceNullable_returns :
    (reduceNullable value.type q value.bytes value.rows mask).isSome := by
  obtain ⟨V, A, K, read, hit, element⟩ := exists_elementKernel value.type
  rw [element.reduceNullable_eq q (rows_fit value), Option.isSome_map]
  split
  · rw [AggKernel.reducePred, liveRows_aligned aligned]
    rfl
  · rw [AggKernel.reduceAllNullable, liveRows_aligned aligned]
    rfl

theorem reduceNullable_deleteNulls :
    reduceNullable value.type q
        (value.keepRows (value.liveIndices mask)).bytes
        (value.keepRows (value.liveIndices mask)).rows
        ((value.liveIndices mask).map fun row => mask.getD row 0) =
      reduceNullable value.type q value.bytes value.rows mask := by
  obtain ⟨V, A, K, read, hit, element⟩ := exists_elementKernel value.type
  obtain ⟨live, lives, allLive⟩ := liveRows_liveIndices value mask
  have reads : ∀ j row, (value.liveIndices mask)[j]? = some row →
      read (value.keepRows (value.liveIndices mask)).bytes j =
        read value.bytes row := by
    intro j row found
    exact read_liveIndices element found
  rw [element.reduceNullable_eq q
      (rows_fit (value.keepRows (value.liveIndices mask))),
    element.reduceNullable_eq q (rows_fit value), rows_liveIndices]
  apply congrArg
  split
  · unfold AggKernel.reducePred
    rw [lives, liveRows_aligned aligned]
    simp only [Option.map_some, AggKernel.reduceRows_eq]
    congr 2
    apply map_filter_selection rfl _ reads
    intro j row found
    rw [allLive j row found, reads j row found, Bool.true_and]
  · unfold AggKernel.reduceAllNullable
    rw [lives, liveRows_aligned aligned]
    simp only [Option.map_some, AggKernel.reduceRows_eq]
    congr 2
    have every : ∀ j row, (value.liveIndices mask)[j]? = some row →
        live j = (fun _ => true) row := allLive
    have selection := map_filter_selection
      (rfl : value.liveIndices mask = _) every reads
    simpa only [Bool.and_true] using selection

theorem reduceGrouped_deleteNulls (keyU32 : k.type = .U32)
    (keyAligned : k.rows = value.rows) :
    reduceGrouped value.type q (k.keepRows (k.liveIndices mask)).bytes
        (value.keepRows (value.liveIndices mask)).bytes
        (value.keepRows (value.liveIndices mask)).rows
        (some ((value.liveIndices mask).map fun row => mask.getD row 0)) =
      reduceGrouped value.type q k.bytes value.bytes value.rows
        (some mask) := by
  obtain ⟨V, A, K, read, hit, element⟩ := exists_elementKernel value.type
  obtain ⟨live, lives, allLive⟩ := liveRows_liveIndices value mask
  have sameRows : k.liveIndices mask = value.liveIndices mask := by
    unfold liveIndices
    rw [keyAligned]
  have reads : ∀ j row, (value.liveIndices mask)[j]? = some row →
      read (value.keepRows (value.liveIndices mask)).bytes j =
        read value.bytes row := by
    intro j row found
    exact read_liveIndices element found
  have keys : ∀ j row, (value.liveIndices mask)[j]? = some row →
      u32At (k.keepRows (k.liveIndices mask)).bytes j =
        u32At k.bytes row := by
    intro j row found
    have words := ElementKernel.u32
    rw [← keyU32] at words
    exact read_liveIndices words (sameRows ▸ found)
  have keysFit : 4 * value.rows ≤ k.bytes.length := by
    have fit := rows_fit k
    rw [keyU32, keyAligned] at fit
    exact fit
  have newKeysFit : 4 * (value.keepRows (value.liveIndices mask)).rows ≤
      (k.keepRows (k.liveIndices mask)).bytes.length := by
    rw [rows_liveIndices, length_liveIndices_bytes, keyU32, sameRows]
    exact le_rfl
  rw [element.reduceGrouped_eq q newKeysFit
      (rows_fit (value.keepRows (value.liveIndices mask))),
    element.reduceGrouped_eq q keysFit (rows_fit value), rows_liveIndices]
  -- Both instances of the loop guard a row by the mask and a test of its own.
  have loops : ∀ test : V → Bool,
      K.groupReduceImpl test (u32At (k.keepRows (k.liveIndices mask)).bytes)
          (read (value.keepRows (value.liveIndices mask)).bytes)
          (value.liveIndices mask).length q.numGroups q.agg
          (some ((value.liveIndices mask).map fun row => mask.getD row 0)) =
        K.groupReduceImpl test (u32At k.bytes) (read value.bytes) value.rows
          q.numGroups q.agg (some mask) := by
    intro test
    unfold AggKernel.groupReduceImpl
    rw [lives, liveRows_aligned aligned]
    simp only [Option.map_some, AggKernel.groupRows_eq, Bool.and_assoc]
    apply congrArg
    apply List.map_congr_left
    intro g _
    apply congrArg
    apply map_filter_selection rfl _ reads
    intro j row found
    rw [allLive j row found, reads j row found, keys j row found,
      Bool.true_and]
  rw [loops, loops]

end

/-! ## Answered queries -/

section
variable {maxGroups : UInt32} {q : MatrixQuery} {value : ColumnView}
  {key filter : Option ColumnView} {out : List UInt64}

/-- A query that filters on no other column is answered from the rows that
are not NULL. -/
theorem answered_deleteNulls (own : q.crossFilter = false)
    (aligned : ∀ mask, value.nulls = some mask → mask.length = value.rows)
    (answered : Answered maxGroups q value key filter out) :
    Answered maxGroups q (value.deleteNulls value.nulls)
      (key.map (deleteNulls value.nulls))
      (filter.map (deleteNulls value.nulls)) out := by
  cases masked : value.nulls with
  | none =>
      have unchanged : (deleteNulls none : ColumnView → ColumnView) = id := rfl
      rw [unchanged, Option.map_id]
      exact answered
  | some mask =>
      have covers := aligned mask masked
      have newNulls : (value.deleteNulls (some mask)).nulls =
          some ((value.liveIndices mask).map fun row => mask.getD row 0) := by
        simp [deleteNulls, keepRows, masked]
      cases answered with
      | scalarCross cross => simp [own] at cross
      | groupedCross cross => simp [own] at cross
      | @grouped k _ grouped keyed admitted lengths result =>
          have sameRows : k.liveIndices mask = value.liveIndices mask := by
            unfold liveIndices
            rw [admitted.aligned]
          have newRows : (k.deleteNulls (some mask)).rows =
              (value.deleteNulls (some mask)).rows := by
            rw [deleteNulls, rows_liveIndices, sameRows, deleteNulls,
              rows_liveIndices]
          have before : value.rowNulls value.rows = some mask := by
            simp [rowNulls, masked, covers]
          have after : (value.deleteNulls (some mask)).rowNulls
              (value.deleteNulls (some mask)).rows =
              some ((value.liveIndices mask).map fun row =>
                mask.getD row 0) := by
            rw [rowNulls, newNulls]
            simp [deleteNulls, rows_liveIndices]
          rw [keyed]
          have stillAdmitted : Admitted maxGroups q
              (value.deleteNulls (some mask)) (k.deleteNulls (some mask)) :=
            ⟨admitted.distinct, admitted.nonzero, admitted.bounded,
              admitted.keyU32, newRows⟩
          apply Answered.grouped own grouped rfl stillAdmitted
          · intro narrow
            have valueU32 : value.type = .U32 := narrow
            rw [deleteNulls, length_liveIndices_bytes, deleteNulls,
              length_liveIndices_bytes, sameRows, valueU32, admitted.keyU32]
          · rw [after, ← result, before]
            exact reduceGrouped_deleteNulls covers admitted.keyU32
              admitted.aligned
      | nullable _ scalar has result =>
          cases masked.symm.trans has
          apply Answered.nullable own scalar newNulls
          rw [← result]
          exact congrArg one (reduceNullable_deleteNulls covers)
      | scan _ _ unmasked => simp [masked] at unmasked

/-- A query that filters on another column reads no mask. -/
theorem answered_unmasked (cross : q.crossFilter = true)
    (answered : Answered maxGroups q value key filter out) :
    Answered maxGroups q { value with nulls := none }
      (key.map fun k => { k with nulls := none })
      (filter.map fun f => { f with nulls := none }) out := by
  cases answered with
  | scalarCross _ scalar found u32 aligned result =>
      rw [found]
      exact .scalarCross cross scalar rfl u32 aligned result
  | groupedCross _ grouped keyed admitted found u32 aligned result =>
      rw [keyed, found]
      exact .groupedCross cross grouped rfl
        ⟨admitted.distinct, admitted.nonzero, admitted.bounded,
          admitted.keyU32, admitted.aligned⟩ rfl u32 aligned result
  | grouped own => simp [cross] at own
  | nullable own => simp [cross] at own
  | scan own => simp [cross] at own

end

/-! ## The engine -/

variable {κ : Type}

namespace Catalog

/-- Every null mask has one entry for each row of its column. -/
def MasksAligned (catalog : Catalog κ) : Prop :=
  ∀ id mask, catalog.nullMasks.lookup id = some mask →
    mask.length = catalog.columnRows id

/-- The masks of a catalog belong to its columns and cover their rows. -/
structure MasksFit (catalog : Catalog κ) : Prop where
  registered : ∀ id mask, catalog.nullMasks.lookup id = some mask →
    (catalog.contents id).isSome
  aligned : catalog.MasksAligned

theorem masksFit_fresh (hostCap : Nat) :
    (fresh hostCap : Catalog κ).MasksFit := by
  constructor
  · intro id mask stored
    cases stored
  · intro id mask stored
    cases stored

theorem MasksFit.keeps {before after : Catalog κ} (fit : before.MasksFit)
    (wellFormed : before.WellFormed) (keeps : Keeps before after) :
    after.MasksFit := by
  constructor
  · intro id mask stored
    rw [keeps.contents]
    exact fit.registered id mask (keeps.nullMasks ▸ stored)
  · intro id mask stored
    rw [keeps.columnRows wellFormed]
    exact fit.aligned id mask (keeps.nullMasks ▸ stored)

/-- A column that is loaded had no mask. -/
theorem MasksFit.unmasked_of_unused {catalog : Catalog κ}
    (fit : catalog.MasksFit) {id : UInt64}
    (unused : catalog.contents id = none) :
    catalog.nullMasks.lookup id = none := by
  cases stored : catalog.nullMasks.lookup id with
  | none => rfl
  | some mask =>
      have registered := fit.registered id mask stored
      rw [unused] at registered
      cases registered

theorem MasksFit.loads {before after : Catalog κ} (fit : before.MasksFit)
    (wellFormed : before.WellFormed) {id : UInt64} {ty : MatrixType}
    {bytes : Bytes} (loads : Loads before id ty bytes after) :
    after.MasksFit := by
  have other : ∀ masked mask, after.nullMasks.lookup masked = some mask →
      before.nullMasks.lookup masked = some mask ∧ masked ≠ id := by
    intro masked mask stored
    rw [loads.nullMasks] at stored
    refine ⟨stored, ?_⟩
    intro own
    subst own
    rw [fit.unmasked_of_unused loads.unused] at stored
    cases stored
  constructor
  · intro masked mask stored
    obtain ⟨old, different⟩ := other masked mask stored
    rw [loads.contents_ne masked different]
    exact fit.registered masked mask old
  · intro masked mask stored
    obtain ⟨old, different⟩ := other masked mask stored
    rw [columnRows, sizeBytes_eq loads.wellFormed,
      loads.contents_ne masked different,
      loads.columnType_ne masked different, ← sizeBytes_eq wellFormed]
    exact fit.aligned masked mask old

/-- A new mask with one entry for each row. -/
theorem MasksFit.insert {catalog : Catalog κ} (fit : catalog.MasksFit)
    {id : UInt64} {mask : Bytes} (registered : (catalog.contents id).isSome)
    (length : mask.length = catalog.columnRows id) :
    ({ catalog with
      nullMasks := catalog.nullMasks.insert id mask } :
        Catalog κ).MasksFit := by
  constructor
  · intro masked other stored
    by_cases own : masked = id
    · subst own
      exact registered
    · rw [AList.lookup_insert_ne own] at stored
      exact fit.registered masked other stored
  · intro masked other stored
    by_cases own : masked = id
    · subst own
      rw [AList.lookup_insert] at stored
      cases stored
      exact length
    · rw [AList.lookup_insert_ne own] at stored
      exact fit.aligned masked other stored

theorem MasksFit.setColumnNulls {before after : Catalog κ}
    (fit : before.MasksFit) (wellFormed : before.WellFormed) {id : UInt64}
    {isNull : Bytes} (set : before.setColumnNulls id isNull = some after) :
    after.MasksFit := by
  obtain ⟨has, length, rfl⟩ := setColumnNulls_eq set
  rw [catalogHas_eq wellFormed] at has
  exact fit.insert has length

/-- The catalog without its null masks. -/
def unmasked (catalog : Catalog κ) : Catalog κ :=
  { catalog with nullMasks := ∅ }

theorem view_unmasked (catalog : Catalog κ) (id : UInt64) :
    catalog.unmasked.view id =
      (catalog.view id).map fun view => { view with nulls := none } := by
  unfold view
  rw [Option.map_map]
  rfl

end Catalog

/-- A catalog from which the rows that are NULL in the value column of a query
have been deleted, in the columns of the query. -/
structure NullRowsDeleted (q : MatrixQuery) (catalog deleted : Catalog κ) :
    Prop where
  value : deleted.view q.valueCol = (catalog.view q.valueCol).map
    (deleteNulls (catalog.nullMasks.lookup q.valueCol))
  key : deleted.view q.keyCol = (catalog.view q.keyCol).map
    (deleteNulls (catalog.nullMasks.lookup q.valueCol))
  filter : deleted.view q.filterCol = (catalog.view q.filterCol).map
    (deleteNulls (catalog.nullMasks.lookup q.valueCol))
  maxQueryGroups : deleted.maxQueryGroups = catalog.maxQueryGroups

section
variable [SoundCost κ]

/-- NULL rows contribute to no aggregate, except where another column is the
filter: there the mask is not looked at. -/
theorem executeQuery_null_rows {catalog : Catalog κ}
    (wellFormed : catalog.WellFormed) (aligned : catalog.MasksAligned)
    {ns : UInt64} {q : MatrixQuery} {out : List UInt64} {after : Catalog κ}
    (ok : catalog.executeQuery ns q = some (.OK, out, after)) :
    (q.crossFilter = false →
      ∀ deleted : Catalog κ, deleted.WellFormed →
        NullRowsDeleted q catalog deleted →
        ∀ ns, ∃ after, deleted.executeQuery ns q = some (.OK, out, after)) ∧
    (q.crossFilter = true →
      ∀ ns, ∃ after,
        catalog.unmasked.executeQuery ns q = some (.OK, out, after)) := by
  obtain ⟨value, seen, answered⟩ := (Catalog.executeQuery_ok wellFormed).mp ⟨after, ok⟩
  have masks := Catalog.nullMasks_of_view seen
  constructor
  · intro own deleted deletedWellFormed isDeleted ns
    have covers : ∀ mask, value.nulls = some mask →
        mask.length = value.rows := by
      intro mask masked
      rw [← Catalog.columnRows_of_view wellFormed seen]
      exact aligned q.valueCol mask (masks.trans masked)
    have remaining := answered_deleteNulls own covers answered
    rw [← masks, ← isDeleted.key, ← isDeleted.filter,
      ← isDeleted.maxQueryGroups] at remaining
    apply (Catalog.executeQuery_ok deletedWellFormed).mpr
    refine ⟨_, ?_, remaining⟩
    rw [isDeleted.value, seen]
    rfl
  · intro cross ns
    have unmasked := answered_unmasked cross answered
    rw [← Catalog.view_unmasked, ← Catalog.view_unmasked] at unmasked
    have plain : catalog.unmasked.WellFormed :=
      Catalog.wellFormed_nullMasks wellFormed ∅
    apply (Catalog.executeQuery_ok plain).mpr
    refine ⟨_, ?_, unmasked⟩
    rw [Catalog.view_unmasked, seen]
    rfl

end

/-- Amounts with NULL entries in column 1 and the kind of each in column 2. -/
def payments (amounts : List UInt32) (nulls : Bytes) (kinds : List UInt32) :
    Option (Catalog ℚ) := do
  let catalog ← (Catalog.fresh 1024).loadScanColumn 1 amounts
  let catalog ← catalog.setColumnNulls 1 nulls
  catalog.loadScanColumn 2 kinds

structure Payments (amounts : List UInt32) (nulls : Bytes)
    (kinds : List UInt32) (catalog : Catalog ℚ) : Prop where
  wellFormed : catalog.WellFormed
  fit : catalog.MasksFit
  amounts : catalog.view 1 = some
    { type := .U32, bytes := amounts.flatMap u32Bytes, nulls := some nulls }
  kinds : catalog.view 2 = some
    { type := .U32, bytes := kinds.flatMap u32Bytes, nulls := none }
  none : catalog.view 0 = none
  maxQueryGroups : catalog.maxQueryGroups = MAX_QUERY_GROUPS

theorem payments_eq {amounts kinds : List UInt32} {nulls : Bytes}
    (made : (payments amounts nulls kinds).isSome) :
    ∃ catalog, payments amounts nulls kinds = some catalog ∧
      Payments amounts nulls kinds catalog := by
  obtain ⟨catalog, loaded⟩ := Option.isSome_iff_exists.mp made
  refine ⟨catalog, loaded, ?_⟩
  unfold payments at loaded
  obtain ⟨first, amountsLoaded, rest⟩ := Option.bind_eq_some_iff.mp loaded
  obtain ⟨second, set, kindsLoaded⟩ := Option.bind_eq_some_iff.mp rest
  have fresh := (Catalog.wellFormed_fresh 1024 : (Catalog.fresh 1024 : Catalog ℚ).WellFormed)
  have loadsFirst := Catalog.loadScanColumn_loads fresh amountsLoaded
  have fitFirst := (Catalog.masksFit_fresh 1024).loads fresh loadsFirst
  have fitSecond := fitFirst.setColumnNulls loadsFirst.wellFormed set
  obtain ⟨_, _, rfl⟩ := Catalog.setColumnNulls_eq set
  have wellFormed := Catalog.wellFormed_nullMasks loadsFirst.wellFormed
    (first.nullMasks.insert 1 nulls)
  have loads := Catalog.loadScanColumn_loads wellFormed kindsLoaded
  refine ⟨loads.wellFormed, fitSecond.loads wellFormed loads, ?_, ?_, ?_, ?_⟩
  · rw [loads.view_ne (by decide)]
    unfold Catalog.view
    have read : ({ first with
        nullMasks := first.nullMasks.insert 1 nulls } : Catalog ℚ).contents
          1 = _ := loadsFirst.contents_self
    have type : ({ first with
        nullMasks := first.nullMasks.insert 1 nulls } : Catalog ℚ).columnType
          1 = _ := loadsFirst.columnType_self
    rw [read, type, AList.lookup_insert]
    rfl
  · rw [loads.view_self, fitSecond.unmasked_of_unused loads.unused]
  · rw [Catalog.view, loads.wellFormed.zero]
    rfl
  · rw [loads.maxQueryGroups]
    exact loadsFirst.maxQueryGroups

theorem nullRowsDeleted_payments {catalog deleted : Catalog ℚ}
    (before : Payments [5, 7] [0, 1] [1, 1] catalog)
    (after : Payments [5] [0] [1] deleted) {q : MatrixQuery}
    (value : q.valueCol = 1) (key : q.keyCol = 0 ∨ q.keyCol = 2)
    (filter : q.filterCol = 0 ∨ q.filterCol = 2) :
    NullRowsDeleted q catalog deleted := by
  have masks := Catalog.nullMasks_of_view before.amounts
  have none : deleted.view 0 = (catalog.view 0).map
      (deleteNulls (some [0, 1])) := by
    rw [before.none, after.none]
    rfl
  have kinds : deleted.view 2 = (catalog.view 2).map
      (deleteNulls (some [0, 1])) := by
    rw [before.kinds, after.kinds]
    decide +kernel
  have amounts : deleted.view 1 = (catalog.view 1).map
      (deleteNulls (some [0, 1])) := by
    rw [before.amounts, after.amounts]
    decide +kernel
  refine ⟨?_, ?_, ?_, ?_⟩
  · rw [value, masks]
    exact amounts
  · rw [value, masks]
    rcases key with zero | two
    · rw [zero]
      exact none
    · rw [two]
      exact kinds
  · rw [value, masks]
    rcases filter with zero | two
    · rw [zero]
      exact none
    · rw [two]
      exact kinds
  · rw [before.maxQueryGroups, after.maxQueryGroups]

/-- Grouped by kind, only the payment that is not NULL is summed. -/
theorem executeQuery_null_rows_grouped :
    ∃ catalog deleted : Catalog ℚ, ∃ q : MatrixQuery,
      NullRowsDeleted q catalog deleted ∧
      (∃ after, catalog.executeQuery 0 q = some (.OK, [0, 5], after)) ∧
      ∃ after, deleted.executeQuery 0 q = some (.OK, [0, 5], after) := by
  obtain ⟨catalog, _, before⟩ := payments_eq
    (by decide +kernel : (payments [5, 7] [0, 1] [1, 1]).isSome)
  obtain ⟨deleted, _, remains⟩ := payments_eq
    (by decide +kernel : (payments [5] [0] [1]).isSome)
  let q : MatrixQuery :=
    { valueCol := 1, agg := AGG_SUM, grouped := true, keyCol := 2
      numGroups := 2 }
  have isDeleted : NullRowsDeleted q catalog deleted :=
    nullRowsDeleted_payments before remains rfl (.inr rfl) (.inl rfl)
  have ran : ∃ after, catalog.executeQuery 0 q =
      some (.OK, [0, 5], after) := by
    apply (Catalog.executeQuery_ok before.wellFormed).mpr
    refine ⟨_, before.amounts, ?_⟩
    rw [before.none, before.kinds, before.maxQueryGroups]
    exact answerOf_ok.mp (by decide +kernel)
  obtain ⟨after, ok⟩ := ran
  refine ⟨catalog, deleted, q, isDeleted, ⟨after, ok⟩, ?_⟩
  exact (executeQuery_null_rows before.wellFormed before.fit.aligned ok).1 rfl
    deleted remains.wellFormed isDeleted 0

/-- Filtered by kind, the second payment is summed although it is NULL. -/
theorem null_row_counted :
    ∃ catalog deleted : Catalog ℚ, ∃ q : MatrixQuery,
      catalog.WellFormed ∧ catalog.MasksAligned ∧ deleted.WellFormed ∧
      NullRowsDeleted q catalog deleted ∧
      (∃ after, catalog.executeQuery 0 q = some (.OK, [12], after)) ∧
      ∃ after, deleted.executeQuery 0 q = some (.OK, [5], after) := by
  obtain ⟨catalog, _, before⟩ := payments_eq
    (by decide +kernel : (payments [5, 7] [0, 1] [1, 1]).isSome)
  obtain ⟨deleted, _, remains⟩ := payments_eq
    (by decide +kernel : (payments [5] [0] [1]).isSome)
  refine ⟨catalog, deleted,
    { valueCol := 1, agg := AGG_SUM, hasFilter := true, filterCol := 2 },
    before.wellFormed, before.fit.aligned, remains.wellFormed,
    nullRowsDeleted_payments before remains rfl (.inl rfl) (.inr rfl), ?_, ?_⟩
  · apply (Catalog.executeQuery_ok before.wellFormed).mpr
    refine ⟨_, before.amounts, ?_⟩
    rw [before.none, before.kinds, before.maxQueryGroups]
    exact answerOf_ok.mp (by decide +kernel)
  · apply (Catalog.executeQuery_ok remains.wellFormed).mpr
    refine ⟨_, remains.amounts, ?_⟩
    rw [remains.none, remains.kinds, remains.maxQueryGroups]
    exact answerOf_ok.mp (by decide +kernel)

end MatrixDB
