import MatrixDB.Catalog.Alignment
import MatrixDB.Catalog.Transparency

/-!
# Loads and appends on two engines

Loading and appending change the data itself.  Whether such a call is allowed
depends only on what the data is, and the bytes it adds only on its arguments,
so two engines with the same data still have the same data afterwards.
-/

namespace MatrixDB

open Lib

variable {κ : Type}

namespace Catalog

/-- Maps with the same entries still have the same after an insertion. -/
theorem lookup_insert_congr {K V : Type} [DecidableEq K]
    {left right : AList fun _ : K => V}
    (same : ∀ key, left.lookup key = right.lookup key) (new : K) (value : V)
    (key : K) :
    (left.insert new value).lookup key = (right.insert new value).lookup key := by
  by_cases own : key = new
  · subst own
    rw [AList.lookup_insert, AList.lookup_insert]
  · rw [AList.lookup_insert_ne own, AList.lookup_insert_ne own, same]

/-- Calls with the same outcome on both sides, each of which settles. -/
theorem alike_of_same {left right : Option (Catalog κ)}
    (same : Option.Rel SameShown left right)
    (settled : ∀ after, left = some after → after.Settled)
    (settled' : ∀ after, right = some after → after.Settled) :
    Option.Rel Alike left right := by
  cases same with
  | none => exact .none
  | some same => exact .some ⟨same, settled _ rfl, settled' _ rfl⟩

/-! ## Loading -/

section
variable [CostArith κ]

theorem Alike.loadBytes {left right : Catalog κ} (alike : Alike left right)
    (id : UInt64) (bytes : Bytes) :
    Option.Rel SameShown (left.loadBytes id bytes)
      (right.loadBytes id bytes) := by
  have known : (left.columns.lookup id).isSome =
      (right.columns.lookup id).isSome := by
    rw [isSome_lookup_eq alike.left.wellFormed,
      isSome_lookup_eq alike.right.wellFormed, alike.same.contents]
  unfold Catalog.loadBytes
  rw [known]
  split
  · exact .none
  split
  · exact .none
  split
  · exact .none
  have same := alike.same
  refine .some ⟨?_, same.columnType, same.nullMasks, same.stringDicts,
    same.stringEncoders, same.columnId, same.maxQueryGroups⟩
  intro other
  have holds := TieredColumn.holds_create id bytes
  by_cases own : other = id
  · subst own
    exact (contentsOf_insert_self left.columns other holds).trans
      (contentsOf_insert_self right.columns other holds).symm
  · exact (contentsOf_insert_ne left.columns _ own).trans
      ((same.contents other).trans
        (contentsOf_insert_ne right.columns _ own).symm)

/-- The two wide loads record a type. -/
theorem Alike.loadWide {left right : Catalog κ} (alike : Alike left right)
    (id : UInt64) (bytes : Bytes) (ty : MatrixType) :
    Option.Rel SameShown
      ((left.loadBytes id bytes).bind fun catalog =>
        some { catalog with colTypes := catalog.colTypes.insert id ty })
      ((right.loadBytes id bytes).bind fun catalog =>
        some { catalog with colTypes := catalog.colTypes.insert id ty }) := by
  refine rel_bind (alike.loadBytes id bytes) ?_
  intro one two same
  refine .some ⟨same.contents, ?_, same.nullMasks, same.stringDicts,
    same.stringEncoders, same.columnId, same.maxQueryGroups⟩
  intro other
  by_cases own : other = id
  · subst own
    simp only [Catalog.columnType, AList.lookup_insert]
  · simp only [Catalog.columnType, AList.lookup_insert_ne own]
    exact same.columnType other

namespace Settled

variable {catalog after : Catalog κ}

theorem loadScanColumn (settled : catalog.Settled) {id : UInt64}
    {data : List UInt32}
    (loaded : catalog.loadScanColumn id data = some after) : after.Settled :=
  ⟨(loadScanColumn_loads settled.wellFormed loaded).wellFormed,
    settled.lockstep.loadBytes loaded⟩

theorem loadScanColumnI64 (settled : catalog.Settled) {id : UInt64}
    {data : List Int64}
    (loaded : catalog.loadScanColumnI64 id data = some after) :
    after.Settled := by
  refine ⟨(loadScanColumnI64_loads settled.wellFormed loaded).wellFormed, ?_⟩
  obtain ⟨middle, first, rest⟩ := Option.bind_eq_some_iff.mp loaded
  cases rest
  exact (settled.lockstep.loadBytes first).same (.of_eq rfl rfl)

theorem loadScanColumnF64 (settled : catalog.Settled) {id : UInt64}
    {data : List UInt64}
    (loaded : catalog.loadScanColumnF64 id data = some after) :
    after.Settled := by
  refine ⟨(loadScanColumnF64_loads settled.wellFormed loaded).wellFormed, ?_⟩
  obtain ⟨middle, first, rest⟩ := Option.bind_eq_some_iff.mp loaded
  cases rest
  exact (settled.lockstep.loadBytes first).same (.of_eq rfl rfl)

end Settled

namespace Alike

variable {left right : Catalog κ}

theorem loadScanColumn (alike : Alike left right) (id : UInt64)
    (data : List UInt32) :
    Option.Rel Alike (left.loadScanColumn id data)
      (right.loadScanColumn id data) :=
  alike_of_same (alike.loadBytes id _) (fun _ => alike.left.loadScanColumn)
    fun _ => alike.right.loadScanColumn

theorem loadScanColumnI64 (alike : Alike left right) (id : UInt64)
    (data : List Int64) :
    Option.Rel Alike (left.loadScanColumnI64 id data)
      (right.loadScanColumnI64 id data) :=
  alike_of_same (alike.loadWide id _ .I64)
    (fun _ => alike.left.loadScanColumnI64)
    fun _ => alike.right.loadScanColumnI64

theorem loadScanColumnF64 (alike : Alike left right) (id : UInt64)
    (data : List UInt64) :
    Option.Rel Alike (left.loadScanColumnF64 id data)
      (right.loadScanColumnF64 id data) :=
  alike_of_same (alike.loadWide id _ .F64)
    (fun _ => alike.left.loadScanColumnF64)
    fun _ => alike.right.loadScanColumnF64

end Alike

end

namespace Alike

variable {left right : Catalog κ}

/-- A dictionary is stored for an id, whatever the id. -/
theorem insertDict (alike : Alike left right) (id : UInt64)
    (dict : List Bytes) (encoder : NameMap UInt32) :
    Alike
      { left with
        stringDicts := left.stringDicts.insert id dict
        stringEncoders := left.stringEncoders.insert id encoder }
      { right with
        stringDicts := right.stringDicts.insert id dict
        stringEncoders := right.stringEncoders.insert id encoder } := by
  have same := alike.same
  refine ⟨⟨same.contents, same.columnType, same.nullMasks, ?_, ?_,
      same.columnId, same.maxQueryGroups⟩,
    alike.left.beside (wellFormed_dicts alike.left.wellFormed _ _) rfl rfl,
    alike.right.beside (wellFormed_dicts alike.right.wellFormed _ _) rfl rfl⟩
  · exact lookup_insert_congr same.stringDicts id dict
  · exact lookup_insert_congr same.stringEncoders id encoder

theorem insertMask (alike : Alike left right) (id : UInt64) (mask : Bytes) :
    Alike { left with nullMasks := left.nullMasks.insert id mask }
      { right with nullMasks := right.nullMasks.insert id mask } := by
  have same := alike.same
  refine ⟨⟨same.contents, same.columnType, ?_, same.stringDicts,
      same.stringEncoders, same.columnId, same.maxQueryGroups⟩,
    alike.left.beside (wellFormed_nullMasks alike.left.wellFormed _) rfl rfl,
    alike.right.beside (wellFormed_nullMasks alike.right.wellFormed _) rfl
      rfl⟩
  exact lookup_insert_congr same.nullMasks id mask

theorem setMaxQueryGroups (alike : Alike left right) (groups : UInt32) :
    Alike (left.setMaxQueryGroups groups)
      (right.setMaxQueryGroups groups) := by
  have same := alike.same
  exact ⟨⟨same.contents, same.columnType, same.nullMasks, same.stringDicts,
      same.stringEncoders, same.columnId, rfl⟩,
    alike.left.beside
      (wellFormed_setMaxQueryGroups alike.left.wellFormed groups) rfl rfl,
    alike.right.beside
      (wellFormed_setMaxQueryGroups alike.right.wellFormed groups) rfl rfl⟩

/-- The interval of either side may be set alone. -/
theorem setRebalanceInterval (alike : Alike left right) (scans : UInt64) :
    Alike (left.setRebalanceInterval scans) right := by
  have keeps := keeps_setRebalanceInterval alike.left.wellFormed scans
  exact ⟨(alike.same.symm.moved keeps).symm,
    alike.left.beside keeps.wellFormed rfl rfl, alike.right⟩

theorem setColumnNulls (alike : Alike left right) (id : UInt64)
    (isNull : Bytes) :
    Option.Rel Alike (left.setColumnNulls id isNull)
      (right.setColumnNulls id isNull) := by
  unfold Catalog.setColumnNulls
  rw [alike.catalogHas, alike.columnRows]
  split
  · exact .some (alike.insertMask id isNull)
  · exact .none

theorem nameColumn (alike : Alike left right) (id : UInt64) (name : Bytes) :
    Option.Rel Alike (left.nameColumn id name)
      (right.nameColumn id name) := by
  have same := alike.same
  unfold Catalog.nameColumn
  rw [alike.catalogHas]
  split
  · refine .some ⟨⟨same.contents, same.columnType, same.nullMasks,
        same.stringDicts, same.stringEncoders, ?_, same.maxQueryGroups⟩,
      alike.left.beside (wellFormed_names alike.left.wellFormed _ _) rfl rfl,
      alike.right.beside (wellFormed_names alike.right.wellFormed _ _) rfl
        rfl⟩
    intro other
    by_cases own : other = name
    · subst own
      simp only [Catalog.columnId, AList.lookup_insert]
    · simp only [Catalog.columnId, AList.lookup_insert_ne own]
      exact same.columnId other
  · exact .none

end Alike

/-! ## Appending -/

/-- An append touches nothing beside the columns, the manager and a counter. -/
theorem appendTyped_beside {before after : Catalog κ} {ty : MatrixType}
    {id : UInt64} {more : Bytes}
    (appended : appendTyped ty before id more = some after) :
    after = { before with
      columns := after.columns
      tierMgr := after.tierMgr
      coldBorrows := after.coldBorrows } := by
  unfold appendTyped at appended
  split at appended
  case isFalse => cases appended
  obtain ⟨⟨home, lent⟩, borrowed, appended⟩ :=
    Option.bind_eq_some_iff.mp appended
  obtain ⟨column, _, appended⟩ := Option.bind_eq_some_iff.mp appended
  obtain ⟨grown, _, appended⟩ := Option.bind_eq_some_iff.mp appended
  obtain ⟨back, gave, appended⟩ := Option.bind_eq_some_iff.mp appended
  cases appended
  have took : lent = { before with
      columns := lent.columns
      coldBorrows := lent.coldBorrows } := by
    obtain ⟨_, _, borrowed⟩ := Option.bind_eq_some_iff.mp borrowed
    split at borrowed
    · cases borrowed
      rfl
    · obtain ⟨_, _, borrowed⟩ := Option.bind_eq_some_iff.mp borrowed
      cases borrowed
      rfl
  have returned : back = { lent with columns := back.columns } := by
    unfold giveBack at gave
    split at gave
    · cases gave
      rfl
    · obtain ⟨_, _, gave⟩ := Option.bind_eq_some_iff.mp gave
      obtain ⟨_, _, gave⟩ := Option.bind_eq_some_iff.mp gave
      cases gave
      rfl
  rw [returned, took]

/-- A column may grow as long as a vector can hold it. -/
theorem isSome_appendRaw {catalog : Catalog κ}
    (wellFormed : catalog.WellFormed) {id : UInt64} {bytes : Bytes}
    (read : catalog.contents id = some bytes) (more : Bytes) :
    (catalog.appendRaw id more).isSome =
      decide (bytes.length + more.length ≤ MAX_VECTOR_BYTES) := by
  have registered : (catalog.contents id).isSome := by
    rw [read]
    rfl
  obtain ⟨home, lent, borrowed, reachable, keeps, inHost, _⟩ :=
    borrow_eq wellFormed registered
  have lentRead : lent.contents id = some bytes := by
    rw [keeps.contents, read]
  obtain ⟨column, found, holds⟩ := keeps.wellFormed.held.lookup lentRead
  have host : column.host = bytes := by
    have pointer := holds.hostPtr_eq (inHost column found)
    simpa [TieredColumn.hostPtr, inHost column found] using pointer
  simp only [appendRaw, borrowed, found, Option.bind_eq_bind,
    Option.bind_some]
  by_cases fits : bytes.length + more.length ≤ MAX_VECTOR_BYTES
  · have grew : ∃ grown, column.appendBytes more = some grown := by
      simp [TieredColumn.appendBytes, inHost column found, host, fits]
    obtain ⟨grown, grew⟩ := grew
    obtain ⟨_, holdsGrown, _⟩ :=
      holds.appendBytes_eq (inHost column found) grew
    obtain ⟨moved, went, _⟩ := holdsGrown.migrateTo_eq reachable
    have inserted : (lent.setColumn id grown).columns.lookup id =
        some grown := AList.lookup_insert lent.columns
    have gave : ((lent.setColumn id grown).giveBack id home).isSome := by
      unfold giveBack
      split
      · rfl
      · simp [inserted, went]
    obtain ⟨back, gave⟩ := Option.isSome_iff_exists.mp gave
    simp [grew, gave, fits]
  · have refused : column.appendBytes more = none := by
      simp [TieredColumn.appendBytes, inHost column found, host]
      omega
    simp [refused, fits]

theorem Settled.appendTyped {catalog after : Catalog κ}
    (settled : catalog.Settled) {ty : MatrixType} {id : UInt64} {more : Bytes}
    (whole : more.length % ty.width = 0)
    (appended : Catalog.appendTyped ty catalog id more = some after) :
    after.Settled := by
  refine ⟨(appendTyped_appends settled.wellFormed whole appended).2.wellFormed,
    ?_⟩
  unfold Catalog.appendTyped at appended
  split at appended
  · exact settled.lockstep.appendRaw appended
  · cases appended

/-- The same bytes appended to the same data. -/
theorem SameShown.appended {left right left' right' : Catalog κ}
    (same : SameShown left right) (wellFormed : left.WellFormed)
    (wellFormed' : right.WellFormed) {ty : MatrixType} {id : UInt64}
    {more : Bytes} (whole : more.length % ty.width = 0)
    (appended : appendTyped ty left id more = some left')
    (appended' : appendTyped ty right id more = some right') :
    SameShown left' right' := by
  obtain ⟨_, grows⟩ := appendTyped_appends wellFormed whole appended
  obtain ⟨_, grows'⟩ := appendTyped_appends wellFormed' whole appended'
  have beside := appendTyped_beside appended
  have beside' := appendTyped_beside appended'
  constructor
  · intro other
    by_cases own : other = id
    · subst own
      obtain ⟨bytes, read, now⟩ := grows.contents_self
      obtain ⟨bytes', read', now'⟩ := grows'.contents_self
      rw [same.contents, read'] at read
      cases read
      rw [now, now']
    · rw [grows.contents_ne other own, grows'.contents_ne other own,
        same.contents]
  · rw [beside, beside']
    exact same.columnType
  · rw [grows.nullMasks, grows'.nullMasks]
    exact same.nullMasks
  · rw [grows.stringDicts, grows'.stringDicts]
    exact same.stringDicts
  · rw [beside, beside']
    exact same.stringEncoders
  · rw [beside, beside']
    exact same.columnId
  · rw [grows.maxQueryGroups, grows'.maxQueryGroups, same.maxQueryGroups]

theorem Alike.appendTyped {left right : Catalog κ} (alike : Alike left right)
    {ty : MatrixType} (id : UInt64) {more : Bytes}
    (whole : more.length % ty.width = 0) :
    Option.Rel Alike (Catalog.appendTyped ty left id more)
      (Catalog.appendTyped ty right id more) := by
  have same := alike.same
  apply alike_of_same _ (fun _ => alike.left.appendTyped whole)
    fun _ => alike.right.appendTyped whole
  -- Both sides allow the append or neither does.
  have allowed : (Catalog.appendTyped ty left id more).isSome =
      (Catalog.appendTyped ty right id more).isSome := by
    unfold Catalog.appendTyped
    rw [alike.catalogHas, alike.columnType]
    split
    · rename_i valid
      simp only [Bool.and_eq_true, catalogHas_eq alike.right.wellFormed]
        at valid
      obtain ⟨bytes, read⟩ := Option.isSome_iff_exists.mp valid.1
      rw [isSome_appendRaw alike.right.wellFormed read,
        isSome_appendRaw alike.left.wellFormed
          ((same.contents id).trans read)]
    · rfl
  cases appended : Catalog.appendTyped ty left id more with
  | none =>
      rw [appended] at allowed
      have refused : Catalog.appendTyped ty right id more = none := by
        simpa using allowed.symm
      rw [refused]
      exact .none
  | some after =>
      rw [appended] at allowed
      obtain ⟨after', appended'⟩ := Option.isSome_iff_exists.mp allowed.symm
      rw [appended']
      exact .some (same.appended alike.left.wellFormed alike.right.wellFormed
        whole appended appended')

/-! ## Files -/

namespace Alike

variable {left right : Catalog κ}

section
variable [CostArith κ]

theorem loadStringColumnDict (alike : Alike left right) (id : UInt64)
    (data : List Bytes) :
    Option.Rel Alike (left.loadStringColumnDict id data)
      (right.loadStringColumnDict id data) := by
  unfold Catalog.loadStringColumnDict
  simp only
  split
  · exact .none
  · refine rel_bind (alike.loadScanColumn id _) ?_
    intro one two alike
    exact .some (alike.insertDict id _ _)

theorem loadElements (alike : Alike left right) (ty : MatrixType)
    (id : UInt64) (count : Nat) (bytes : Bytes) :
    Option.Rel Alike (left.loadElements ty id count bytes)
      (right.loadElements ty id count bytes) := by
  cases ty with
  | U32 => exact alike.loadScanColumn id _
  | I64 => exact alike.loadScanColumnI64 id _
  | F64 => exact alike.loadScanColumnF64 id _

theorem loadColumnFromFile (alike : Alike left right) (id : UInt64)
    (file : Bytes) :
    Option.Rel Alike (left.loadColumnFromFile id file)
      (right.loadColumnFromFile id file) := by
  unfold Catalog.loadColumnFromFile
  cases matrixReadColumnTyped file with
  | none => exact .none
  | some read => exact alike.loadElements _ id _ _

theorem loadColumnData (alike : Alike left right) (id : UInt64)
    (type : UInt32) (count : UInt64) (name file : Bytes) :
    Twin Alike (left.loadColumnData id type count name file)
      (right.loadColumnData id type count name file) := by
  unfold Catalog.loadColumnData
  split
  · exact .pure alike
  · apply Twin.ite Iff.rfl
    · intro _
      exact Twin.none
    · intro _
      split
      · exact .pure alike
      · rename_i ty _ _ _ bytes file _
        have named : ∀ one two : Catalog κ, Alike one two →
            Option.Rel Alike
              (if name.isEmpty then some one else one.nameColumn id name)
              (if name.isEmpty then some two else two.nameColumn id name) := by
          intro one two alike
          split
          · exact .some alike
          · exact alike.nameColumn id name
        have loaded := rel_bind (alike.loadElements ty id count.toNat bytes)
          named
        have twin := Twin.of_rel loaded (some file)
        rw [Option.map_bind, Option.map_bind] at twin
        exact twin

theorem loadColumn (file : Bytes) (alike : Alike left right) :
    Twin Alike (Catalog.loadColumn file left)
      (Catalog.loadColumn file right) := by
  unfold Catalog.loadColumn
  split
  · exact .pure alike
  split
  · exact .pure alike
  split
  · exact .pure alike
  split
  · exact .pure alike
  apply Twin.ite Iff.rfl
  · intro _
    exact .pure alike
  · intro _
    split
    · exact .pure alike
    · exact alike.loadColumnData _ _ _ _ _

end

theorem loadParsed {A : Type} (alike : Alike left right) (data : Option A)
    {load load' : A → Option (Catalog κ)}
    (loads : ∀ data, Option.Rel Alike (load data) (load' data)) :
    Twin Alike (left.loadParsed data load) (right.loadParsed data load') := by
  cases data with
  | none => exact .pure alike
  | some data => exact .of_rel (loads data) true

theorem loadDict (file : Bytes) (alike : Alike left right) :
    Twin Alike (Catalog.loadDict file left) (Catalog.loadDict file right) := by
  unfold Catalog.loadDict
  split
  · exact .pure alike
  split
  · exact .pure alike
  apply Twin.ite Iff.rfl
  · intro _
    exact .pure alike
  · intro _
    split
    · exact Twin.none
    · exact .pure alike
    · exact .pure (alike.insertDict _ _ _)

theorem loadMask (file : Bytes) (alike : Alike left right) :
    Twin Alike (Catalog.loadMask file left) (Catalog.loadMask file right) := by
  unfold Catalog.loadMask
  split
  · exact .pure alike
  split
  · exact .pure alike
  apply Twin.ite Iff.rfl
  · intro _
    exact .pure alike
  · intro _
    split
    · exact .pure alike
    · exact .pure (alike.insertMask _ _)

theorem loadSection
    {item : Bytes → Catalog κ → Option (Option Bytes × Catalog κ)}
    (items : ∀ input one two, Alike one two →
      Twin Alike (item input one) (item input two))
    (file : Bytes) (alike : Alike left right) :
    Twin Alike (Catalog.loadSection item file left)
      (Catalog.loadSection item file right) := by
  unfold Catalog.loadSection
  split
  · exact .pure alike
  · exact .readLoop items alike _ _

theorem loadTrailing (file : Bytes) (alike : Alike left right) :
    Twin Alike (Catalog.loadTrailing file left)
      (Catalog.loadTrailing file right) := by
  unfold Catalog.loadTrailing
  rcases loadSection (fun input _ _ => loadDict input) file alike with
    ⟨stop, stop'⟩ | ⟨out, one, two, ran, ran', alike⟩
  · rw [stop, stop']
    exact Twin.none
  · rw [ran, ran']
    cases out with
    | none => exact .pure alike
    | some rest =>
        exact loadSection (fun input _ _ => loadMask input) rest alike

section
variable [CostArith κ]

theorem loadSections (file : Bytes) (alike : Alike left right) :
    Twin Alike (Catalog.loadSections file left)
      (Catalog.loadSections file right) := by
  unfold Catalog.loadSections
  split
  · exact .pure alike
  · rename_i ncols file _
    rcases Twin.readLoop (fun input _ _ => loadColumn input) alike
        ncols.toNat file with
      ⟨stop, stop'⟩ | ⟨out, one, two, ran, ran', alike⟩
    · rw [stop, stop']
      exact Twin.none
    · rw [ran, ran']
      cases out with
      | none => exact .pure alike
      | some rest => exact loadTrailing rest alike

theorem loadCatalog (alike : Alike left right) (file : Bytes) :
    Twin Alike (left.loadCatalog file) (right.loadCatalog file) := by
  unfold Catalog.loadCatalog
  split
  · exact .pure alike
  · apply Twin.ite Iff.rfl
    · intro _
      exact .pure alike
    · intro _
      refine .map (loadSections _ alike) ?_
      intro out one two alike
      exact ⟨rfl, alike⟩

end

end Alike

end Catalog

end MatrixDB
