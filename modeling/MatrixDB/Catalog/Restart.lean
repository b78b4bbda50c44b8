import MatrixDB.Catalog.Names

/-!
# Going on after a restart

An engine is saved, and a new process loads the file.  From then on no call
tells the two apart, whatever their budgets are: the maps of the new engine
have been filled in another order, its columns all begin in memory, and none
of this shows.
-/

namespace MatrixDB

open Lib

variable {κ : Type}

namespace Catalog

/-- What is found out about the data that was read back, once both engines
admit queries alike. -/
theorem Reopened.shown {saver restored : Catalog κ} {order : WalkOrder}
    (back : Reopened saver order restored) (saved : saver.WellFormed)
    (coded : saver.Coded) (walks : order.Walks saver)
    (strings : ∀ id dict, saver.stringDicts.lookup id = some dict →
      ∀ string ∈ dict, string.length < 4294967296)
    (names : ∀ name, saver.Persists name) :
    SameShown saver (restored.setMaxQueryGroups saver.maxQueryGroups) where
  contents id := (back.contents id).symm
  columnType id := (back.columnType id).symm
  nullMasks id := (back.nullMasks id).symm
  stringDicts id := (back.stringDicts_eq strings id).symm
  stringEncoders id := by
    have encoders := back.stringEncoders id
    rw [back.stringDicts_eq strings, ← coded.encoders] at encoders
    exact encoders.symm
  columnId name := (back.columnId_persists saved walks (names name)).symm
  maxQueryGroups := rfl

end Catalog

namespace Analytics

/-- Everything in the engine has a place in a snapshot: the names are those
that the columns bear, the strings are short, and there are neither tables nor
string columns without codes. -/
structure Persistent (engine : Analytics κ) : Prop where
  names : ∀ name, engine.catalog.Persists name
  strings : ∀ id dict, engine.catalog.stringDicts.lookup id = some dict →
    ∀ string ∈ dict, string.length < 4294967296
  stringColumns : engine.stringColumns = ∅
  tables : engine.tables = ∅

/-- The engine under another cap on the groups of a query. -/
def admitting (engine : Analytics κ) (groups : UInt32) : Analytics κ :=
  { engine with catalog := engine.catalog.setMaxQueryGroups groups }

variable [SoundCost κ] {strtod : Bytes → StrtodResult}
  {engine reopened : Analytics κ} {order : Catalog.WalkOrder} {room : Nat}
  {file : Bytes} {saved : Catalog κ}

/-- To save an engine moves no data. -/
theorem alike_saved (live : Live strtod engine)
    (walks : order.Walks engine.catalog)
    (written : engine.catalog.saveCatalog room order =
      some (some file, saved)) :
    Alike { engine with catalog := saved } engine := by
  have settled := live.settled
  obtain ⟨_, _, ran, keeps, _⟩ := Catalog.saveCatalog_eq settled.wellFormed
    room fun id => (Catalog.mem_columns_iff settled.wellFormed walks id).mp
  cases written.symm.trans ran
  exact ⟨⟨keeps.shown.symm, settled.saveCatalog walks _ _ written, settled⟩,
    rfl, rfl⟩

theorem alike_reopened (live : Live strtod engine)
    (walks : order.Walks engine.catalog) (counted : order.Counted)
    (persistent : engine.Persistent)
    (written : engine.catalog.saveCatalog room order =
      some (some file, saved))
    {hostCap : Nat} {ns : Nat → UInt64}
    (load : (CatalogCall.loadCatalog (some file)).run strtod ns
      (fresh hostCap) = some (.flag true, reopened)) :
    Alike engine (reopened.admitting engine.catalog.maxQueryGroups) := by
  have settled := live.settled
  have relive := Live.call (.fresh hostCap) load
  obtain ⟨back, tables⟩ := reopened_of_load live walks counted written load
  have stringColumns : reopened.stringColumns = ∅ := by
    obtain ⟨⟨_, _⟩, _, same⟩ := Option.map_eq_some_iff.mp load
    cases same
    rfl
  have resettled := (relive.settled.alike.setMaxQueryGroups
    engine.catalog.maxQueryGroups).left
  refine ⟨⟨?_, settled, resettled⟩, ?_, ?_⟩
  · exact back.shown settled.wellFormed live.coded walks persistent.strings
      persistent.names
  · exact persistent.stringColumns.trans stringColumns.symm
  · exact persistent.tables.trans tables.symm

/-- An engine is saved and goes on; a new process with a budget of its own
loads the file and is given the same cap on groups.  Whatever calls are then
made of both, however they are tuned meanwhile and however long their queries
take, they return the same results, abort at the same call if at all, and
their columns hold the same. -/
theorem restart_transparent (live : Live strtod engine)
    (walks : order.Walks engine.catalog) (counted : order.Counted)
    (persistent : engine.Persistent)
    (written : engine.catalog.saveCatalog room order =
      some (some file, saved))
    {hostCap : Nat} {ns : Nat → UInt64}
    (load : (CatalogCall.loadCatalog (some file)).run strtod ns
      (fresh hostCap) = some (.flag true, reopened))
    (calls : List CatalogCall) (tuning tuning' : Nat → Tuning) :
    let one := runCalls strtod calls tuning { engine with catalog := saved }
    let two := runCalls strtod calls tuning'
      (reopened.admitting engine.catalog.maxQueryGroups)
    one.1 = two.1 ∧ one.2.isSome = two.2.isSome ∧
      ∀ left ∈ one.2, ∀ right ∈ two.2, ∀ id,
        left.catalog.contents id = right.catalog.contents id := by
  have first := alike_saved live walks written
  have second := alike_reopened live walks counted persistent written load
  have alike : Alike { engine with catalog := saved }
      (reopened.admitting engine.catalog.maxQueryGroups) :=
    ⟨⟨first.catalog.same.trans second.catalog.same, first.catalog.left,
      second.catalog.right⟩, second.stringColumns, second.tables⟩
  obtain ⟨results, engines, _⟩ :=
    alike.runCalls strtod calls tuning tuning'
  refine ⟨results, ?_⟩
  generalize (runCalls strtod calls tuning
    { engine with catalog := saved }).2 = one at engines
  generalize (runCalls strtod calls tuning'
    (reopened.admitting engine.catalog.maxQueryGroups)).2 = two at engines
  cases engines with
  | none =>
      refine ⟨rfl, ?_⟩
      intro left here
      exact absurd here (Option.not_mem_none left)
  | @some last last' alike =>
      refine ⟨rfl, ?_⟩
      intro left here right there id
      cases here
      cases there
      exact alike.catalog.same.contents id

/-! ### A coded column with a name and a mask -/

/-- The stocked engine, with nothing beside it. -/
theorem exists_persistent :
    ∃ engine : Analytics ℚ, Live noNumber engine ∧ Stocked engine.catalog ∧
      engine.Persistent := by
  have facts : ((fresh 8 : Analytics ℚ).after noNumber
      [.loadStringColumnDict 7 [[97]], .nameColumn 7 [99],
        .setColumnNulls 7 [1]]).any (fun engine =>
      decide ([engine.catalog.columns.keys, engine.catalog.stringDicts.keys,
        engine.catalog.nullMasks.keys] = [[7], [7], [7]]) &&
      (decide (engine.catalog.columnName 7 = [99]) &&
      (decide (engine.catalog.stringDicts.lookup 7 = some [[97]]) &&
      (decide (engine.catalog.nullMasks.lookup 7 = some [1]) &&
      (decide ((engine.catalog.snapshot ⟨[7], [7], [7]⟩).length ≤ 1000) &&
      (decide (engine.catalog.nameToId.keys = [[99]]) &&
      (decide (engine.catalog.columnId [99] = 7) &&
      (decide (engine.stringColumns.keys = []) &&
      decide (engine.tables.keys = []))))))))) = true := by
    decide +kernel
  obtain ⟨engine, ran, holds⟩ := (Option.any_eq_true _ _).mp facts
  simp only [Bool.and_eq_true, decide_eq_true_eq] at holds
  obtain ⟨keys, columnName, dict, mask, size, index, found, texts, tables⟩ :=
    holds
  have live : Live noNumber engine := .after (.fresh 8) ran
  have stocked : Stocked engine.catalog :=
    ⟨keys, columnName, dict, mask, size⟩
  have columns : engine.catalog.columns.keys = [7] := (List.cons.inj keys).1
  have saved : engine.catalog.savedName 7 = [99] := by
    rw [Catalog.savedName, columnName]
    exact Catalog.castString_eq (by decide)
  refine ⟨engine, live, stocked, ?_, ?_, empty_of_keys texts,
    empty_of_keys tables⟩
  · apply persists_single live.settled.wellFormed columns (by decide) saved
      found
    intro other different
    have unknown : engine.catalog.nameToId.lookup other = none := by
      rw [AList.lookup_eq_none, AList.mem_keys, index, List.mem_singleton]
      exact different
    rw [Catalog.columnId, unknown]
    rfl
  · intro id dict stored string member
    exact lt_of_le_of_lt (stocked.strings id dict stored string member)
      (by decide)

/-- It goes on after a restart. -/
theorem restart_transparent_stocked :
    ∃ (engine : Analytics ℚ) (file : Bytes) (saved : Catalog ℚ)
      (reopened : Analytics ℚ),
      Live noNumber engine ∧ Stocked engine.catalog ∧
      engine.catalog.saveCatalog
          (engine.catalog.snapshot ⟨[7], [7], [7]⟩).length ⟨[7], [7], [7]⟩ =
        some (some file, saved) ∧
      (CatalogCall.loadCatalog (some file)).run noNumber (fun _ => 0)
        (fresh 9) = some (.flag true, reopened) ∧
      ∀ calls tuning tuning',
        (runCalls noNumber calls tuning { engine with catalog := saved }).1 =
          (runCalls noNumber calls tuning'
            (reopened.admitting engine.catalog.maxQueryGroups)).1 := by
  obtain ⟨engine, live, stocked, persistent⟩ := exists_persistent
  have counted : (⟨[7], [7], [7]⟩ : Catalog.WalkOrder).Counted :=
    ⟨by decide, by decide⟩
  have readable : engine.catalog.Readable := by
    refine ⟨?_, ?_, stocked.masks⟩
    · intro id has
      exact castLe (stocked.names id has) (by decide)
    · intro id dict stored string member
      exact castLe (stocked.strings id dict stored string member) (by decide)
  obtain ⟨file, saved, reopened, written, load⟩ :=
    exists_reopened live stocked.walks counted readable 9
  refine ⟨engine, file, saved, reopened, live, stocked, written, load, ?_⟩
  intro calls tuning tuning'
  exact (restart_transparent live stocked.walks counted persistent written
    load calls tuning tuning').1

end Analytics

end MatrixDB
