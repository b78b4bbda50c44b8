import MatrixDB.Catalog.RoundTrip
import MatrixDB.Query.Resolution

/-!
# Names after a reload

The engine keeps the name of each column, an index from names to columns and
the tables; a snapshot holds the first of these only.  The index is made again
from the names, in the order of the file, and there are no tables.
-/

namespace MatrixDB

open Lib

variable {κ : Type}

structure ColumnInfo where
  id : UInt64
  name : Bytes
  type : MatrixType
  rows : Nat
  tier : MemorySpace

/-- The columns of a table in declared order; none if there is no such
table. -/
def Analytics.tableColumns (engine : Analytics κ) (name : Bytes) :
    List ColumnInfo :=
  match engine.tables.lookup name with
  | none => []
  | some ids =>
      ids.filterMap fun id =>
        if engine.catalog.catalogHas id then
          (engine.catalog.columns.lookup id).map fun column =>
            { id
              name := engine.catalog.columnName id
              type := engine.catalog.columnType id
              rows := engine.catalog.columnRows id
              tier := column.tier }
        else none

namespace Catalog

/-! ## The index that is made again -/

/-- The column has this name in a snapshot. -/
def Bears (catalog : Catalog κ) (id : UInt64) (name : Bytes) : Prop :=
  catalog.catalogHas id ∧ catalog.savedName id = name

/-- The name is found at the one column that bears it, or nowhere while no
column does. -/
def Persists (catalog : Catalog κ) (name : Bytes) : Prop :=
  (catalog.columnId name = 0 ∧ (name = [] ∨ ∀ id, ¬catalog.Bears id name)) ∨
  (name ≠ [] ∧ catalog.Bears (catalog.columnId name) name ∧
    ∀ id, catalog.Bears id name → id = catalog.columnId name)

/-- One step of the index. -/
def rebind (saver : Catalog κ) (names : NameMap UInt64) (id : UInt64) :
    NameMap UInt64 :=
  if (saver.savedName id).isEmpty then names
  else names.insert (saver.savedName id) id

theorem lookup_rebind_ne {saver : Catalog κ} {name : Bytes} {id : UInt64}
    (other : name = [] ∨ saver.savedName id ≠ name)
    (names : NameMap UInt64) :
    (saver.rebind names id).lookup name = names.lookup name := by
  unfold rebind
  split
  · rfl
  · rename_i named
    apply AList.lookup_insert_ne
    intro same
    rcases other with empty | different
    · rw [← same, empty] at named
      exact named rfl
    · exact different same.symm

/-- A name that none of the columns bears. -/
theorem lookup_foldl_rebind {saver : Catalog κ} {name : Bytes}
    {ids : List UInt64}
    (others : name = [] ∨ ∀ id ∈ ids, saver.savedName id ≠ name)
    (names : NameMap UInt64) :
    (ids.foldl saver.rebind names).lookup name = names.lookup name := by
  induction ids generalizing names with
  | nil => rfl
  | cons id ids induction =>
      rw [List.foldl_cons, induction, lookup_rebind_ne]
      · exact others.imp_right fun all => all id List.mem_cons_self
      · exact others.imp_right fun all other member =>
          all other (List.mem_cons_of_mem id member)

/-- A name that one of the columns alone bears. -/
theorem lookup_foldl_rebind_self {saver : Catalog κ} {id : UInt64}
    (named : saver.savedName id ≠ []) {ids : List UInt64} (member : id ∈ ids)
    (alone : ∀ other ∈ ids, saver.savedName other = saver.savedName id →
      other = id) (names : NameMap UInt64) :
    (ids.foldl saver.rebind names).lookup (saver.savedName id) = some id := by
  induction ids generalizing names with
  | nil => exact absurd member List.not_mem_nil
  | cons first ids induction =>
      rw [List.foldl_cons]
      by_cases again : id ∈ ids
      · exact induction again
          (fun other inside => alone other (List.mem_cons_of_mem first inside))
          (saver.rebind names first)
      · have here : id = first := (List.mem_cons.mp member).resolve_right again
        subst here
        rw [lookup_foldl_rebind (.inr ?_)]
        · unfold rebind
          rw [if_neg (by simpa using named), AList.lookup_insert]
        · intro other inside same
          cases alone other (List.mem_cons_of_mem id inside) same
          exact again inside

section
variable {saver restored : Catalog κ} {order : WalkOrder}

theorem Reopened.columnId_unborne (back : Reopened saver order restored)
    (saved : saver.WellFormed) (walks : order.Walks saver) {name : Bytes}
    (unborne : name = [] ∨ ∀ id, ¬saver.Bears id name) :
    restored.columnId name = 0 := by
  have others : name = [] ∨
      ∀ id ∈ order.columns, saver.savedName id ≠ name := by
    refine unborne.imp_right ?_
    intro none id member same
    apply none id
    refine ⟨?_, same⟩
    rw [catalogHas_eq saved]
    exact (mem_columns_iff saved walks id).mp member
  have absent : (saver.reboundNames order.columns).lookup name = none :=
    lookup_foldl_rebind others ∅
  rw [Catalog.columnId, back.nameToId, absent]
  rfl

theorem Reopened.columnId_persists (back : Reopened saver order restored)
    (saved : saver.WellFormed) (walks : order.Walks saver) {name : Bytes}
    (persists : saver.Persists name) :
    restored.columnId name = saver.columnId name := by
  rcases persists with ⟨nowhere, unborne⟩ | ⟨named, bears, alone⟩
  · rw [nowhere]
    exact back.columnId_unborne saved walks unborne
  · obtain ⟨has, same⟩ := bears
    have member : saver.columnId name ∈ order.columns := by
      rw [mem_columns_iff saved walks, ← catalogHas_eq saved]
      exact has
    have found : (saver.reboundNames order.columns).lookup
        (saver.savedName (saver.columnId name)) =
          some (saver.columnId name) := by
      apply lookup_foldl_rebind_self _ member
      · intro other inside again
        apply alone other
        refine ⟨?_, again.trans same⟩
        rw [catalogHas_eq saved]
        exact (mem_columns_iff saved walks other).mp inside
      · rw [same]
        exact named
    rw [same] at found
    have index : restored.columnId name =
        ((saver.reboundNames order.columns).lookup name).getD 0 := by
      rw [Catalog.columnId, back.nameToId]
    rw [index, found]
    rfl

/-- Short strings come back as they were. -/
theorem Reopened.stringDicts_eq (back : Reopened saver order restored)
    (strings : ∀ id dict, saver.stringDicts.lookup id = some dict →
      ∀ string ∈ dict, string.length < 4294967296) (id : UInt64) :
    restored.stringDicts.lookup id = saver.stringDicts.lookup id := by
  rw [back.stringDicts]
  cases stored : saver.stringDicts.lookup id with
  | none => rfl
  | some dict =>
      rw [Option.map_some, map_castString_eq (strings id dict stored)]

/-- Apart from their names the columns are the same. -/
theorem Reopened.holdAlike (back : Reopened saver order restored)
    (saved : saver.Settled) (reopened : restored.Settled)
    (coded : saver.Coded)
    (strings : ∀ id dict, saver.stringDicts.lookup id = some dict →
      ∀ string ∈ dict, string.length < 4294967296) :
    HoldAlike restored saver := by
  have dicts := back.stringDicts_eq strings
  refine ⟨reopened, saved, back.contents, back.columnType, dicts, ?_⟩
  intro id value
  rw [stringEncode, stringEncode, back.stringEncoders, dicts, coded.encoders]

end

end Catalog

namespace Analytics

variable [SoundCost κ] {strtod : Bytes → StrtodResult}
  {engine : Analytics κ} {order : Catalog.WalkOrder}

/-- A file that was saved and that loads is read back in full. -/
theorem reopened_of_load (live : Live strtod engine)
    (walks : order.Walks engine.catalog) (counted : order.Counted)
    {room hostCap : Nat} {file : Bytes} {saved : Catalog κ}
    (written : engine.catalog.saveCatalog room order =
      some (some file, saved))
    {ns : Nat → UInt64} {reopened : Analytics κ}
    (load : (CatalogCall.loadCatalog (some file)).run strtod ns
      (fresh hostCap) = some (.flag true, reopened)) :
    Catalog.Reopened engine.catalog order reopened.catalog ∧
      reopened.tables = ∅ := by
  have wellFormed := live.settled.wellFormed
  obtain ⟨⟨good, restored⟩, loaded, same⟩ := Option.map_eq_some_iff.mp load
  cases same
  obtain ⟨_, _, ran, _, whole⟩ := Catalog.saveCatalog_eq wellFormed room
    fun id => (Catalog.mem_columns_iff wellFormed walks id).mp
  cases written.symm.trans ran
  rw [whole file rfl] at loaded
  obtain ⟨accepts, refuses⟩ := Catalog.loadCatalog_snapshot wellFormed
    live.coded walks counted hostCap
  by_cases readable : engine.catalog.Readable
  · obtain ⟨_, back, again⟩ := accepts readable
    cases loaded.symm.trans again
    exact ⟨back, rfl⟩
  · obtain ⟨_, bad⟩ := refuses readable
    cases loaded.symm.trans bad

/-- What the reader takes can be saved and loaded. -/
theorem exists_reopened (live : Live strtod engine)
    (walks : order.Walks engine.catalog) (counted : order.Counted)
    (readable : engine.catalog.Readable) (hostCap : Nat) :
    ∃ (file : Bytes) (saved : Catalog κ) (reopened : Analytics κ),
      engine.catalog.saveCatalog (engine.catalog.snapshot order).length
        order = some (some file, saved) ∧
      (CatalogCall.loadCatalog (some file)).run strtod (fun _ => 0)
        (fresh hostCap) = some (.flag true, reopened) := by
  have wellFormed := live.settled.wellFormed
  obtain ⟨out, saved, ran, _, whole, written⟩ := Catalog.saveCatalog_outcome
    wellFormed (engine.catalog.snapshot order).length
    fun id => (Catalog.mem_columns_iff wellFormed walks id).mp
  obtain ⟨file, same⟩ := Option.isSome_iff_exists.mp (written (Nat.le_refl _))
  subst same
  obtain ⟨restored, _, read⟩ := (Catalog.loadCatalog_snapshot wellFormed
    live.coded walks counted hostCap).1 readable
  rw [← whole file rfl] at read
  exact ⟨file, saved, _, ran, Option.map_eq_some_iff.mpr ⟨_, read, rfl⟩⟩

/-- After a save and a reload a name that one column alone bears, or none, is
resolved as before, and a name that none bears is resolved to nothing; no
table is there.  A query whose tokens are such names parses as before. -/
theorem names_persist (live : Live strtod engine)
    (walks : order.Walks engine.catalog) (counted : order.Counted)
    {room hostCap : Nat} {file : Bytes} {saved : Catalog κ}
    (written : engine.catalog.saveCatalog room order =
      some (some file, saved))
    {ns : Nat → UInt64} {reopened : Analytics κ}
    (load : (CatalogCall.loadCatalog (some file)).run strtod ns
      (fresh hostCap) = some (.flag true, reopened)) :
    (∀ name, engine.catalog.Persists name →
      reopened.catalog.columnId name = engine.catalog.columnId name) ∧
    (∀ name, (name = [] ∨ ∀ id, ¬engine.catalog.Bears id name) →
      reopened.catalog.columnId name = 0) ∧
    (∀ name, reopened.tableColumns name = []) ∧
    ((∀ id dict, engine.catalog.stringDicts.lookup id = some dict →
        ∀ string ∈ dict, string.length < 4294967296) →
      ∀ sql, (∀ name ∈ [] :: matrixparseTokenize sql,
          engine.catalog.Persists name) →
        (reopened.catalog.parseQuery strtod sql).map
            (fun parsed => (parsed.1, parsed.2.1)) =
          (engine.catalog.parseQuery strtod sql).map
            fun parsed => (parsed.1, parsed.2.1)) := by
  have wellFormed := live.settled.wellFormed
  have relive := Live.call (.fresh hostCap) load
  obtain ⟨back, tables⟩ := reopened_of_load live walks counted written load
  refine ⟨?_, ?_, ?_, ?_⟩
  · intro name persists
    exact back.columnId_persists wellFormed walks persists
  · intro name unborne
    exact back.columnId_unborne wellFormed walks unborne
  · intro name
    rw [tableColumns, tables]
    rfl
  · intro strings sql persist
    have alike := back.holdAlike live.settled relive.settled live.coded strings
    apply alike.parseQuery
    intro name member
    exact back.columnId_persists wellFormed walks (persist name member)

/-- The only column bears the only name. -/
theorem persists_single {catalog : Catalog ℚ}
    (wellFormed : catalog.WellFormed)
    (columns : catalog.columns.keys = [7]) {name : Bytes} (named : name ≠ [])
    (saved : catalog.savedName 7 = name) (found : catalog.columnId name = 7)
    (others : ∀ other, other ≠ name → catalog.columnId other = 0)
    (any : Bytes) : catalog.Persists any := by
  by_cases own : any = name
  · right
    subst own
    rw [found]
    have has : catalog.catalogHas 7 := by
      rw [Catalog.catalogHas_eq wellFormed]
      apply Catalog.registered_of_mem_keys wellFormed
      rw [columns]
      exact List.mem_cons_self
    exact ⟨named, ⟨has, saved⟩, fun id bears => eq_of_has columns bears.1⟩
  · left
    refine ⟨others any own, .inr ?_⟩
    rintro id ⟨has, same⟩
    rw [eq_of_has columns has, saved] at same
    exact own same.symm

/-- An engine whose only column has a name. -/
theorem names_persist_named :
    ∃ (engine : Analytics ℚ) (file : Bytes) (saved : Catalog ℚ)
      (reopened : Analytics ℚ),
      Live noNumber engine ∧ engine.catalog.columnId (ascii "c") = 7 ∧
      engine.catalog.saveCatalog
          (engine.catalog.snapshot ⟨[7], [], []⟩).length ⟨[7], [], []⟩ =
        some (some file, saved) ∧
      (CatalogCall.loadCatalog (some file)).run noNumber (fun _ => 0)
        (fresh 8) = some (.flag true, reopened) ∧
      reopened.catalog.columnId (ascii "c") = 7 ∧
      (∀ name, reopened.tableColumns name = []) ∧
      ∀ sql, (reopened.catalog.parseQuery noNumber sql).map
          (fun parsed => (parsed.1, parsed.2.1)) =
        (engine.catalog.parseQuery noNumber sql).map
          fun parsed => (parsed.1, parsed.2.1) := by
  obtain ⟨engine, live, columns, named, index, dicts, masks⟩ :=
    exists_named (ascii "c")
  have walks := walks_named columns dicts masks
  have counted : (⟨[7], [], []⟩ : Catalog.WalkOrder).Counted :=
    ⟨by decide, by decide⟩
  have same : engine.catalog.savedName 7 = ascii "c" := by
    rw [Catalog.savedName, named]
    exact Catalog.castString_eq (by decide)
  have found : engine.catalog.columnId (ascii "c") = 7 := by
    rw [Catalog.columnId, index, AList.lookup_insert]
    rfl
  have persists : ∀ name, engine.catalog.Persists name := by
    apply persists_single live.settled.wellFormed columns (by decide) same found
    intro other different
    rw [Catalog.columnId, index, AList.lookup_insert_ne different]
    rfl
  have readable := readable_named columns (by rw [named]; decide) dicts masks
  obtain ⟨file, saved, reopened, written, load⟩ :=
    exists_reopened live walks counted readable 8
  obtain ⟨ids, _, tables, parses⟩ :=
    names_persist live walks counted written load
  refine ⟨engine, file, saved, reopened, live, found, written, load,
    (ids _ (persists _)).trans found, tables, ?_⟩
  intro sql
  apply parses
  · intro id dict stored
    rw [dicts] at stored
    cases stored
  · intro name _
    exact persists name

theorem empty_of_keys {K V : Type} {map : AList fun _ : K => V}
    (keys : map.keys = []) : map = ∅ :=
  AList.ext (List.map_eq_nil_iff.mp keys)

/-- A column is renamed and made a table; both the old name and the table are
gone after a reload. -/
theorem table_and_alias_lost :
    ∃ (engine : Analytics ℚ) (file : Bytes) (saved : Catalog ℚ)
      (reopened : Analytics ℚ),
      Live noNumber engine ∧
      (⟨[7], [], []⟩ : Catalog.WalkOrder).Walks engine.catalog ∧
      engine.catalog.saveCatalog
          (engine.catalog.snapshot ⟨[7], [], []⟩).length ⟨[7], [], []⟩ =
        some (some file, saved) ∧
      (CatalogCall.loadCatalog (some file)).run noNumber (fun _ => 0)
        (fresh 8) = some (.flag true, reopened) ∧
      engine.catalog.columnId (ascii "a") = 7 ∧
      reopened.catalog.columnId (ascii "a") = 0 ∧
      engine.tableColumns (ascii "t") ≠ reopened.tableColumns (ascii "t") := by
  have facts : ((fresh 8 : Analytics ℚ).after noNumber
      [.loadScanColumn 7 [1], .nameColumn 7 (ascii "a"),
        .nameColumn 7 (ascii "b"), .createTable (ascii "t") [7]]).any
      (fun engine => decide ([engine.catalog.columns.keys,
          engine.catalog.stringDicts.keys, engine.catalog.nullMasks.keys] =
            [[7], [], []]) &&
        (decide (engine.catalog.columnName 7 = ascii "b") &&
        (decide (engine.catalog.columnId (ascii "a") = 7) &&
        decide ((engine.tableColumns (ascii "t")).length = 1)))) = true := by
    decide +kernel
  obtain ⟨engine, ran, holds⟩ := (Option.any_eq_true _ _).mp facts
  simp only [Bool.and_eq_true, decide_eq_true_eq, List.cons.injEq,
    and_true] at holds
  obtain ⟨⟨columns, dictKeys, maskKeys⟩, named, found, table⟩ := holds
  have dicts := empty_of_keys dictKeys
  have masks := empty_of_keys maskKeys
  have live : Live noNumber engine := .after (.fresh 8) ran
  have walks := walks_named columns dicts masks
  have counted : (⟨[7], [], []⟩ : Catalog.WalkOrder).Counted :=
    ⟨by decide, by decide⟩
  have readable := readable_named columns (by rw [named]; decide) dicts masks
  obtain ⟨file, saved, reopened, written, load⟩ :=
    exists_reopened live walks counted readable 8
  obtain ⟨back, tables⟩ := reopened_of_load live walks counted written load
  refine ⟨engine, file, saved, reopened, live, walks, written, load, found,
    ?_, ?_⟩
  · apply back.columnId_unborne live.settled.wellFormed walks
    right
    rintro id ⟨has, same⟩
    rw [eq_of_has columns has, Catalog.savedName, named,
      Catalog.castString_eq (by decide)] at same
    exact absurd same (by decide)
  · intro same
    rw [same, tableColumns, tables] at table
    exact Nat.zero_ne_one table

end Analytics

end MatrixDB
