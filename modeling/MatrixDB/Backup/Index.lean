import MatrixDB.Backup.Calls
import MatrixDB.Engine.OrderedIndex
import MatrixDB.Engine.Recovery

/-!
# The ordered index across a restore

`restore` puts the pairs of a backup into the table and leaves the index as it
is.  The two range scans agree throughout a run exactly as long as every
restore brings pairs that the table holds, or refuses, anyway.
-/

namespace MatrixDB

open Lib

/-- Nothing in the `.kv` file of a backup is new to the store. -/
def KVStore.AbsorbsFile (kv : KVStore MATRIX_STORE_SLOTS)
    (file : Option Bytes) : Prop :=
  ∀ pairs, checkpointPairs file = some pairs → kvOps.Absorbs kv pairs

/-- A store absorbs its own backup. -/
theorem KVStore.absorbsFile_encode (kv : KVStore MATRIX_STORE_SLOTS) :
    kv.AbsorbsFile (some (encodeCheckpoint kv)) := by
  intro pairs read key value last
  rw [checkpointPairs_encode] at read
  cases read
  exact .inl (kv.mem_forEach_iff.mp (mem_of_lastWrite last))

namespace PointOps

theorem mirrors_inMemory : inMemory.Mirrors :=
  (mirrors_onStore .SYNC_EACH KVStore.fresh).withColdStore none

/-- Replacing the table keeps the index right if the contents stay. -/
theorem Mirrors.withKv_iff {engine : PointOps} (mirrors : engine.Mirrors)
    (kv : KVStore MATRIX_STORE_SLOTS) :
    { engine with kv := kv }.Mirrors ↔ kvOps.SameMap kv engine.kv := by
  constructor
  · intro after key
    apply Option.ext
    intro value
    simp only [KVStore.refusing_get, ← KVStore.mem_forEach_iff]
    exact (after.same (key, value)).trans (mirrors.same (key, value)).symm
  · intro same
    refine ⟨mirrors.ascending, ?_⟩
    rintro ⟨key, value⟩
    have stored : kv.get key = engine.kv.get key := same key
    rw [← mirrors.same, KVStore.mem_forEach_iff, KVStore.mem_forEach_iff,
      stored]

end PointOps

variable {κ : Type}

theorem Site.Opened.mirrors {site : Site κ} (opened : site.Opened) :
    site.engine.points.engine.Mirrors := by
  cases opened with
  | inMemory hostCap disk backups => exact PointOps.mirrors_inMemory
  | onPath hostCap sync disk points backups recovered =>
      exact PointOps.mirrors_openEngine recovered

variable [CostArith κ]

/-- What a restore that returns has done to the point-op store. -/
theorem restore_effect {engine after : CPUMockEngine κ} {files : BackupFiles}
    (ran : engine.restore files = some after) :
    ∃ pairs, checkpointPairs files.kv = some pairs ∧
      after.points.disk = engine.points.disk ∧
      after.points.engine = { engine.points.engine with
        kv := kvOps.replay engine.points.engine.kv pairs } := by
  obtain ⟨catalog, _, ran⟩ := Option.bind_eq_some_iff.mp ran
  obtain ⟨points, restored, ran⟩ := Option.bind_eq_some_iff.mp ran
  cases ran
  obtain ⟨kv, loaded, rfl⟩ := Option.map_eq_some_iff.mp restored
  rw [loadCheckpoint_eq] at loaded
  obtain ⟨pairs, read, rfl⟩ := Option.map_eq_some_iff.mp loaded
  exact ⟨pairs, read, rfl, rfl⟩

/-- A restore of a backup returns if its columns load. -/
theorem isSome_restore {catalog : Catalog κ} {files : BackupFiles}
    {kv : KVStore MATRIX_STORE_SLOTS}
    (saved : files.kv = some (encodeCheckpoint kv))
    (loads : (CPUMockEngine.restoreCatalog catalog files.catalog).isSome)
    (points : World) :
    (CPUMockEngine.restore { catalog, points } files).isSome := by
  obtain ⟨loaded, same⟩ := Option.isSome_iff_exists.mp loads
  have restored : CPUMockEngine.restoreKv points files.kv =
      some { points with engine := { points.engine with
        kv := kvOps.replay points.engine.kv kv.forEach } } := by
    rw [CPUMockEngine.restoreKv, saved, loadCheckpoint_eq,
      checkpointPairs_encode]
    rfl
  rw [CPUMockEngine.restore, same, restored]
  rfl

theorem mirrors_restore_iff {engine after : CPUMockEngine κ}
    {files : BackupFiles} (mirrors : engine.points.engine.Mirrors)
    (ran : engine.restore files = some after) :
    after.points.engine.Mirrors ↔
      engine.points.engine.kv.AbsorbsFile files.kv := by
  obtain ⟨pairs, read, _, same⟩ := restore_effect ran
  rw [same, mirrors.withKv_iff, kvOps.replay_sameMap_self_iff,
    KVStore.AbsorbsFile, read]
  constructor
  · intro absorbs other equal
    cases equal
    exact absorbs
  · intro absorbs
    exact absorbs pairs rfl

namespace Site

/-- Every restore of a run brings nothing new. -/
def RestoresAbsorbed (asserts : Bool) (site : Site κ)
    (calls : List SiteCall) : Prop :=
  ∀ before path later middle, calls = before ++ .restore path :: later →
    site.runAll asserts before = some middle →
    middle.engine.points.engine.kv.AbsorbsFile (middle.filesAt path).kv

variable {asserts : Bool} {site next final : Site κ}

theorem mirrors_run {call : SiteCall}
    (mirrors : site.engine.points.engine.Mirrors)
    (absorbed : ∀ path, call = .restore path →
      site.engine.points.engine.kv.AbsorbsFile (site.filesAt path).kv)
    (ran : site.run asserts call = some next) :
    next.engine.points.engine.Mirrors := by
  cases call with
  | points event =>
      obtain ⟨points, happened, rfl⟩ := Option.map_eq_some_iff.mp ran
      exact World.mirrors_runEvent mirrors happened
  | backup path room order =>
      obtain ⟨⟨files, engine⟩, saved, rfl⟩ := Option.map_eq_some_iff.mp ran
      obtain ⟨written, _, same⟩ := Option.map_eq_some_iff.mp saved
      cases same
      exact mirrors
  | restore path =>
      obtain ⟨engine, restored, rfl⟩ := Option.map_eq_some_iff.mp ran
      exact (mirrors_restore_iff mirrors restored).mpr (absorbed path rfl)

theorem mirrors_runAll {calls : List SiteCall}
    (mirrors : site.engine.points.engine.Mirrors)
    (absorbed : site.RestoresAbsorbed asserts calls)
    (ran : site.runAll asserts calls = some final) :
    final.engine.points.engine.Mirrors := by
  induction calls generalizing site with
  | nil =>
      cases ran
      exact mirrors
  | cons call later induction =>
      obtain ⟨next, first, rest⟩ := Option.bind_eq_some_iff.mp ran
      have here : ∀ path, call = .restore path →
          site.engine.points.engine.kv.AbsorbsFile (site.filesAt path).kv := by
        intro path same
        apply absorbed [] path later site _ rfl
        rw [same]
        rfl
      apply induction (mirrors_run mirrors here first) _ rest
      intro before path tail middle split reached
      apply absorbed (call :: before) path tail middle
      · rw [split]
        rfl
      · simp [runAll, first, reached]

/-- In every state that is reached by a run whose restores bring nothing new,
the sorted scan of every range is the unsorted one, sorted.  A restore that
brings something new breaks that at once. -/
theorem index_mirrors_store (opened : site.Opened) (calls : List SiteCall)
    (absorbed : site.RestoresAbsorbed asserts calls)
    (ran : site.runAll asserts calls = some final) :
    (∀ lo hi, final.engine.points.engine.kvRangeSorted lo hi =
      sortByKey (final.engine.points.engine.kvRange lo hi)) ∧
    ∀ path next, final.run asserts (.restore path) = some next →
      ((∀ lo hi, next.engine.points.engine.kvRangeSorted lo hi =
          sortByKey (next.engine.points.engine.kvRange lo hi)) ↔
        final.engine.points.engine.kv.AbsorbsFile
          (final.filesAt path).kv) := by
  have mirrors := mirrors_runAll opened.mirrors absorbed ran
  refine ⟨mirrors.kvRangeSorted_eq, ?_⟩
  intro path next loaded
  obtain ⟨engine, restored, rfl⟩ := Option.map_eq_some_iff.mp loaded
  rw [← mirrors_restore_iff mirrors restored]
  obtain ⟨pairs, _, _, same⟩ := restore_effect restored
  constructor
  · intro agree
    apply PointOps.mirrors_of_kvRangeSorted _ agree
    rw [same]
    exact mirrors.ascending
  · intro after
    exact after.kvRangeSorted_eq

theorem runAll_cons {call : SiteCall} (ran : site.run asserts call = some next)
    (later : List SiteCall) :
    site.runAll asserts (call :: later) = next.runAll asserts later := by
  rw [runAll, ran]
  rfl

theorem run_points {event : Event} {points : World}
    (ran : site.engine.points.runEvent asserts event = some points) :
    site.run asserts (.points event) = some { site with
      engine := { catalog := site.catalogAfter event, points } } := by
  rw [run, ran]
  rfl

theorem run_restore {path : Bytes} {engine : CPUMockEngine κ}
    (restored : site.engine.restore (site.filesAt path) = some engine) :
    site.run asserts (.restore path) = some { site with engine } := by
  rw [run, restored]
  rfl

theorem run_backup {room : Nat} {order : Catalog.WalkOrder} {file : Bytes}
    {catalog : Catalog κ}
    (written : site.engine.catalog.saveCatalog room order =
      some (some file, catalog)) (path : Bytes) :
    site.run asserts (.backup path room order) = some { site with
      engine := { site.engine with catalog }
      backups := site.backups.insert path
        { catalog := some file
          kv := some (encodeCheckpoint site.engine.points.engine.kv) } } := by
  rw [run, CPUMockEngine.backup, written]
  rfl

theorem filesAt_backup {path : Bytes} {room : Nat}
    {order : Catalog.WalkOrder}
    (ran : site.run asserts (.backup path room order) = some next) :
    (next.filesAt path).kv =
      some (encodeCheckpoint next.engine.points.engine.kv) := by
  obtain ⟨⟨files, engine⟩, saved, rfl⟩ := Option.map_eq_some_iff.mp ran
  obtain ⟨written, _, same⟩ := Option.map_eq_some_iff.mp saved
  cases same
  rw [filesAt, AList.lookup_insert]
  rfl

end Site

/-- An engine without files. -/
def emptySite : Site ℚ :=
  { engine :=
      { catalog := .fresh 1024
        points := { engine := .inMemory, disk := Disk.empty, notes := [] } }
    hostCap := 1024
    backups := ∅ }

theorem opened_emptySite : emptySite.Opened :=
  .inMemory 1024 Disk.empty ∅

/-- A committed write and a backup of it. -/
def writeAndBackup : List SiteCall :=
  [.points (.call .begin), .points (.call (.txnPut 1 10)),
    .points (.call .commit),
    .backup [98] 100 { columns := [], dicts := [], masks := [] }]

theorem only_restore {front before later : List SiteCall} {last path : Bytes}
    (none : ∀ path, SiteCall.restore path ∉ front)
    (split : front ++ [.restore last] = before ++ .restore path :: later) :
    before = front ∧ path = last := by
  induction front generalizing before with
  | nil =>
      cases before with
      | nil =>
          cases split
          exact ⟨rfl, rfl⟩
      | cons first before => simp at split
  | cons call front induction =>
      cases before with
      | nil =>
          cases split
          exact absurd List.mem_cons_self (none path)
      | cons first before =>
          obtain ⟨rfl, rest⟩ := List.cons.inj split
          obtain ⟨rfl, same⟩ := induction
            (fun path member => none path (List.mem_cons_of_mem _ member)) rest
          exact ⟨rfl, same⟩

/-- The snapshot of a catalog without columns loads. -/
theorem emptyCatalog_saved :
    ∃ file saved,
      (Catalog.fresh 1024 : Catalog ℚ).saveCatalog 100
        { columns := [], dicts := [], masks := [] } = some (some file, saved) ∧
      (CPUMockEngine.restoreCatalog (Catalog.fresh 1024 : Catalog ℚ)
        (some file)).isSome ∧
      (CPUMockEngine.restoreCatalog saved (some file)).isSome := by
  have facts : ((Catalog.fresh 1024 : Catalog ℚ).saveCatalog 100
      { columns := [], dicts := [], masks := [] }).any (fun (written, saved) =>
        written.any fun file =>
          (CPUMockEngine.restoreCatalog (Catalog.fresh 1024 : Catalog ℚ)
            (some file)).isSome &&
          (CPUMockEngine.restoreCatalog saved (some file)).isSome) = true := by
    decide +kernel
  obtain ⟨⟨written, saved⟩, ran, holds⟩ := (Option.any_eq_true _ _).mp facts
  obtain ⟨file, same, loads⟩ := (Option.any_eq_true _ _).mp holds
  cases same
  rw [Bool.and_eq_true] at loads
  exact ⟨file, saved, ran, loads.1, loads.2⟩

/-- A transaction of one write on an engine without a log. -/
theorem runEvents_putInMemory (world : World) (key value : UInt64)
    (idle : world.engine.inTxn = false)
    (unlogged : world.engine.coldStore = none)
    (room : ¬(world.engine.kv.Full ∧ world.engine.kv.get key = none)) :
    ∃ opened buffered after,
      world.runEvent true (.call .begin) = some opened ∧
      opened.runEvent true (.call (.txnPut key value)) = some buffered ∧
      buffered.runEvent true (.call .commit) = some after ∧
      after.engine.kv = (world.engine.kv.put key value).2 ∧
      after.disk = world.disk := by
  have began : world.runEvent true (.call .begin) =
      some { world with
        engine := { world.engine with txnBuf := [], inTxn := true } } := by
    simp [World.runEvent, PointOps.actions, idle, Machine.runAll,
      World.machine, World.run]
  have ended : ∃ after,
      World.runEvent true { world with engine := { world.engine with
        txnBuf := [(key, value)], inTxn := true } } (.call .commit) =
          some after ∧
      after.engine.kv = (world.engine.kv.put key value).2 ∧
      after.disk = world.disk := by
    simp [World.runEvent, PointOps.actions, PointOps.commitActions, unlogged,
      Machine.runAll, World.machine, World.run,
      PointOps.applyCommittedWrite_asserted, room]
  obtain ⟨after, committed, kv, disk⟩ := ended
  exact ⟨_, _, after, began, rfl, committed, kv, disk⟩

/-- What `writeAndBackup` leaves: the written table and its backup. -/
theorem writeAndBackup_ran :
    ∃ (site : Site ℚ) (kv : KVStore MATRIX_STORE_SLOTS),
      (∀ later, emptySite.runAll true (writeAndBackup ++ later) =
        site.runAll true later) ∧
      site.hostCap = 1024 ∧ site.engine.points.disk = Disk.empty ∧
      (site.filesAt [98]).kv = some (encodeCheckpoint kv) ∧
      kv.get 1 = some 10 ∧
      (CPUMockEngine.restoreCatalog (Catalog.fresh 1024 : Catalog ℚ)
        (site.filesAt [98]).catalog).isSome ∧
      (CPUMockEngine.restoreCatalog site.engine.catalog
        (site.filesAt [98]).catalog).isSome := by
  have room : ¬(emptySite.engine.points.engine.kv.Full ∧
      emptySite.engine.points.engine.kv.get 1 = none) := by
    rintro ⟨full, _⟩
    cases full
  obtain ⟨opened, buffered, written, began, put, committed, table, disk⟩ :=
    runEvents_putInMemory emptySite.engine.points 1 10 rfl rfl room
  obtain ⟨file, saved, snapshot, loads, reloads⟩ := emptyCatalog_saved
  refine ⟨{ engine := { catalog := saved, points := written }
            hostCap := 1024
            backups := (∅ : NameMap BackupFiles).insert [98]
              { catalog := some file
                kv := some (encodeCheckpoint written.engine.kv) } },
    written.engine.kv, ?_, rfl, disk, ?_, ?_, ?_, ?_⟩
  · intro later
    calc emptySite.runAll true (writeAndBackup ++ later)
      _ = _ := Site.runAll_cons (Site.run_points began) _
      _ = _ := Site.runAll_cons (Site.run_points put) _
      _ = _ := Site.runAll_cons (Site.run_points committed) _
      _ = _ := Site.runAll_cons (Site.run_backup snapshot [98]) later
  · rw [Site.filesAt, AList.lookup_insert]
    rfl
  · rw [table]
    exact KVStore.get_put_fresh 1 10
  · rw [Site.filesAt, AList.lookup_insert]
    exact loads
  · rw [Site.filesAt, AList.lookup_insert]
    exact reloads

/-- The backup is restored into the engine it is from. -/
theorem index_mirrors_store_own :
    ∃ final, emptySite.runAll true (writeAndBackup ++ [.restore [98]]) =
        some final ∧
      ∀ lo hi, final.engine.points.engine.kvRangeSorted lo hi =
        sortByKey (final.engine.points.engine.kvRange lo hi) := by
  obtain ⟨site, _, written, _, _, table, _, _, loads⟩ := writeAndBackup_ran
  have returns := isSome_restore table loads site.engine.points
  obtain ⟨engine, restored⟩ := Option.isSome_iff_exists.mp returns
  have ran : emptySite.runAll true (writeAndBackup ++ [.restore [98]]) =
      some { site with engine } := by
    rw [written, Site.runAll_cons (Site.run_restore restored), Site.runAll]
  refine ⟨_, ran, (Site.index_mirrors_store opened_emptySite _ ?_ ran).1⟩
  intro before path later middle split reached
  obtain ⟨rfl, rfl⟩ := only_restore (by simp [writeAndBackup]) split
  simp only [writeAndBackup, Site.runAll, Option.bind_eq_bind,
    Option.bind_eq_some_iff, Option.some.injEq, exists_eq_right] at reached
  obtain ⟨_, _, _, _, _, _, saved⟩ := reached
  rw [Site.filesAt_backup saved]
  exact KVStore.absorbsFile_encode _

/-- Restored into the next engine, the write is missing from the index. -/
theorem restored_pairs_not_indexed :
    ∃ final, emptySite.Opened ∧
      emptySite.runAll true (writeAndBackup ++
        [.points (.restart .SYNC_EACH), .restore [98]]) = some final ∧
      final.engine.points.engine.kvRangeSorted 0 5 ≠
        sortByKey (final.engine.points.engine.kvRange 0 5) := by
  obtain ⟨site, kv, written, cap, disk, table, held, loads, _⟩ :=
    writeAndBackup_ran
  have restarted : site.engine.points.runEvent true (.restart .SYNC_EACH) =
      some { engine := (World.initial .SYNC_EACH).engine
             disk := Disk.empty
             notes := site.engine.points.notes } := by
    rw [World.runEvent, World.reopen, disk, openEngine_empty]
    rfl
  have next := Site.run_points restarted
  have columns : site.catalogAfter (.restart .SYNC_EACH) = .fresh 1024 := by
    rw [Site.catalogAfter, cap]
  rw [columns] at next
  have returns := isSome_restore table loads
    ⟨(World.initial .SYNC_EACH).engine, Disk.empty, site.engine.points.notes⟩
  obtain ⟨engine, restored⟩ := Option.isSome_iff_exists.mp returns
  refine ⟨{ site with engine }, opened_emptySite, ?_, ?_⟩
  · rw [written, Site.runAll_cons next,
      Site.runAll_cons (Site.run_restore restored), Site.runAll]
  obtain ⟨pairs, read, _, same⟩ := restore_effect restored
  rw [table, checkpointPairs_encode] at read
  cases read
  have rebuilt : (kvOps.replay KVStore.fresh kv.forEach).get 1 = some 10 := by
    have stored := KVStore.replay_forEach kv 1
    rw [KVStore.refusing_get, KVStore.refusing_get] at stored
    exact stored.trans held
  have pair : (1, 10) ∈ engine.points.engine.kvRange 0 5 := by
    apply List.mem_filter.mpr
    refine ⟨?_, rfl⟩
    rw [KVStore.mem_forEach_iff, same]
    exact rebuilt
  intro sorted
  have moved : (1, 10) ∈ sortByKey (engine.points.engine.kvRange 0 5) :=
    (List.mergeSort_perm _ _).mem_iff.mpr pair
  have found : (1, 10) ∈ walkRange 0 5 engine.points.engine.keyIndex := by
    rw [← sorted] at moved
    exact moved
  -- The index is still that of the empty table.
  have index : engine.points.engine.keyIndex =
      (World.initial .SYNC_EACH).engine.keyIndex := by
    rw [same]
  have mirrors : (World.initial .SYNC_EACH).engine.Mirrors :=
    PointOps.mirrors_onStore .SYNC_EACH KVStore.fresh
  rw [index, walkRange] at found
  have indexed := (List.dropWhile_sublist _).subset
    ((List.takeWhile_sublist _).subset found)
  have absent := (KVStore.mem_forEach_iff _).mp
    ((mirrors.same (1, 10)).mpr indexed)
  cases (KVStore.get_fresh 1).symm.trans absent

end MatrixDB
