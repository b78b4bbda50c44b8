import MatrixDB.Backup.Index
import MatrixDB.Engine.Failures

/-!
# Is a restored backup durable?

`restore` fills the table and writes nothing to the log.  The entries become
durable with the next checkpoint.  A process that is started before that finds
only what has been written since the restore.
-/

namespace MatrixDB

open Lib

/-! ## What a call commits -/

/-- The writes of a batch in the order of their pages. -/
def batchWrites (batch : List DatabaseQuery) : List (UInt64 × UInt64) :=
  ((binnedQueries batch).filter fun visit => visit.2.opcode = OP_WRITE).map
    fun visit => (visit.2.queryId, visit.2.queryId)

namespace Op

/-- The writes a call commits when `buffer` holds the open transaction. -/
def committed (buffer : List (UInt64 × UInt64)) :
    Op → List (UInt64 × UInt64)
  | .executeBatch batch => if batch = [] then [] else batchWrites batch
  | .commit => buffer
  | _ => []

/-- The buffer of the open transaction after a call. -/
def bufferAfter (buffer : List (UInt64 × UInt64)) :
    Op → List (UInt64 × UInt64)
  | .txnPut key value => buffer ++ [(key, value)]
  | .executeBatch _ => buffer
  | .checkpoint => buffer
  | _ => []

/-- The calls that save the table. -/
def saves : Op → Bool
  | .checkpoint => true
  | .shutdown => true
  | _ => false

end Op

/-- The writes a sequence of calls commits. -/
def committedWrites (buffer : List (UInt64 × UInt64)) :
    List Op → List (UInt64 × UInt64)
  | [] => []
  | op :: later =>
      op.committed buffer ++ committedWrites (op.bufferAfter buffer) later

/-! ## The log runs along with the table -/

/-- Between two worlds the same writes went to the log and to the table, and
none was refused. -/
structure Logs (writes : List (UInt64 × UInt64)) (before after : World) :
    Prop where
  kv : after.engine.kv = kvOps.replay before.engine.kv writes
  accepted : kvOps.AcceptsAll before.engine.kv writes
  image : ∀ kv, DiskImage before.disk kv [] [] →
    DiskImage after.disk (kvOps.replay kv writes) [] []
  logged : before.engine.coldStore.isSome = true →
    after.engine.coldStore.isSome = true

namespace Logs

variable {before middle after : World}
  {first second : List (UInt64 × UInt64)}

/-- Nothing but the rest of the engine has changed. -/
theorem silent (disk : after.disk = before.disk)
    (kv : after.engine.kv = before.engine.kv)
    (coldStore : after.engine.coldStore = before.engine.coldStore) :
    Logs [] before after := by
  constructor
  · exact kv
  · trivial
  · intro kv image
    rw [disk]
    exact image
  · intro logged
    rw [coldStore]
    exact logged

theorem trans (earlier : Logs first before middle)
    (later : Logs second middle after) :
    Logs (first ++ second) before after := by
  constructor
  · rw [later.kv, earlier.kv, kvOps.replay_append]
  · rw [kvOps.acceptsAll_append, ← earlier.kv]
    exact ⟨earlier.accepted, later.accepted⟩
  · intro kv image
    rw [kvOps.replay_append]
    exact later.image _ (earlier.image kv image)
  · intro logged
    exact later.logged (earlier.logged logged)

end Logs

/-- With assertions the in-memory loop of `commit` stores everything. -/
theorem applyAll_asserted {writes : List (UInt64 × UInt64)}
    {engine after : PointOps}
    (ran : applyAll true writes engine = some after) :
    after.kv = kvOps.replay engine.kv writes ∧
      kvOps.AcceptsAll engine.kv writes ∧
      after.coldStore = engine.coldStore := by
  induction writes generalizing engine with
  | nil =>
      cases ran
      exact ⟨rfl, trivial, rfl⟩
  | cons write writes induction =>
      obtain ⟨next, first, rest⟩ := Option.bind_eq_some_iff.mp ran
      rw [PointOps.applyCommittedWrite_asserted] at first
      split at first
      · cases first
      · rename_i accepted
        cases first
        obtain ⟨kv, accepts, coldStore⟩ := induction rest
        exact ⟨kv, ⟨accepted, accepts⟩, coldStore⟩

theorem DiskImage.append_txnPuts {disk : Disk}
    {kv : KVStore MATRIX_STORE_SLOTS} {leftover : List (UInt64 × UInt64)}
    (image : DiskImage disk kv leftover [])
    (writes : List (UInt64 × UInt64)) :
    DiskImage
      { disk with wal := disk.wal ++
          encodeAll (writes.map fun write => .txnPut write.1 write.2) }
      kv (leftover ++ writes) [] := by
  induction writes generalizing disk leftover with
  | nil => simpa using image
  | cons write writes induction =>
      have rest := induction (image.append_txnPut write.1 write.2)
      simpa [encodeAll_cons] using rest

/-- The records of a group, behind whole records. -/
theorem DiskImage.append_group {disk : Disk}
    {kv : KVStore MATRIX_STORE_SLOTS} (image : DiskImage disk kv [] [])
    (writes : List (UInt64 × UInt64)) :
    DiskImage
      { disk with wal := disk.wal ++ encodeAll (groupRecords writes) }
      (kvOps.replay kv writes) [] [] := by
  have group := (image.append_txnPuts writes).append_commit
  simpa [groupRecords, encodeAll_append] using group

variable {world next : World}

theorem logs_commit (logged : world.engine.coldStore.isSome = true)
    (ran : (World.machine true).runAll world.engine.commitActions world =
      some next) :
    Logs world.engine.txnBuf world next ∧ next.engine.txnBuf = [] := by
  obtain ⟨store, isLogged⟩ := Option.isSome_iff_exists.mp logged
  have returned := commitWith_success true world
  rw [ran, Option.map_some] at returned
  unfold commitWith at returned
  split at returned
  · cases returned
  · simp only [isLogged, Option.bind_eq_bind, Option.bind_eq_some_iff,
      Option.some.injEq, Prod.mk.injEq] at returned
    obtain ⟨applied, stored, engine, disk⟩ := returned
    obtain ⟨kv, accepts, coldStore⟩ := applyAll_asserted stored
    have whole := allArrive_success store.policy 0
      (groupRecords world.engine.txnBuf)
    rw [appendAll_eq, whole.arrivedAll_eq] at disk
    refine ⟨⟨?_, accepts, ?_, ?_⟩, ?_⟩
    · rw [← engine]
      exact kv
    · intro kv image
      rw [← disk]
      exact image.append_group world.engine.txnBuf
    · intro _
      rw [← engine]
      simp [coldStore]
    · rw [← engine]

/-- One visit of the loop of `execute_batch`. -/
theorem logs_query {engine : PointOps} {visit : Nat × DatabaseQuery}
    (logged : engine.coldStore.isSome = true)
    (ran : (World.machine true).runAll (engine.queryActions visit) world =
      some next) :
    Logs (if visit.2.opcode = OP_WRITE then
        [(visit.2.queryId, visit.2.queryId)] else []) world next ∧
      next.engine.txnBuf = world.engine.txnBuf ∧
      next.engine.inTxn = world.engine.inTxn := by
  obtain ⟨position, query⟩ := visit
  unfold PointOps.queryActions at ran
  simp only at ran
  split at ran
  · rename_i isRead
    have notWrite : ¬ query.opcode = OP_WRITE := by
      rw [isRead]
      decide
    rw [if_neg notWrite]
    cases ran
    exact ⟨.silent rfl rfl rfl, rfl, rfl⟩
  · split at ran
    · rename_i isWrite
      rw [if_pos isWrite]
      by_cases refused : world.engine.kv.Full ∧
          world.engine.kv.get query.queryId = none
      · simp [Machine.runAll, World.machine, World.run,
          World.appendBytes, World.countRecord,
          PointOps.applyCommittedWrite_asserted, refused] at ran
      · simp [Machine.runAll, World.machine, World.run,
          World.appendBytes, World.countRecord,
          PointOps.applyCommittedWrite_asserted, refused] at ran
        subst ran
        refine ⟨⟨rfl, ⟨refused, trivial⟩, ?_, ?_⟩, rfl, rfl⟩
        · intro kv image
          exact image.append_put query.queryId query.queryId
        · intro kept
          simpa using kept
    · rename_i notWrite
      rw [if_neg notWrite]
      cases ran
      exact ⟨.silent rfl rfl rfl, rfl, rfl⟩

theorem logs_queries {engine : PointOps}
    (logged : engine.coldStore.isSome = true)
    (visits : List (Nat × DatabaseQuery))
    (ran : (World.machine true).runAll (visits.flatMap engine.queryActions)
      world = some next) :
    Logs ((visits.filter fun visit => visit.2.opcode = OP_WRITE).map
        fun visit => (visit.2.queryId, visit.2.queryId)) world next ∧
      next.engine.txnBuf = world.engine.txnBuf ∧
      next.engine.inTxn = world.engine.inTxn := by
  induction visits generalizing world with
  | nil =>
      cases ran
      exact ⟨.silent rfl rfl rfl, rfl, rfl⟩
  | cons visit visits induction =>
      rw [List.flatMap_cons, Machine.runAll_append] at ran
      obtain ⟨middle, first, rest⟩ := Option.bind_eq_some_iff.mp ran
      obtain ⟨logs, buffer, open_⟩ := logs_query logged first
      obtain ⟨later, laterBuffer, laterOpen⟩ := induction rest
      refine ⟨?_, laterBuffer.trans buffer, laterOpen.trans open_⟩
      have all := logs.trans later
      rw [List.filter_cons]
      split
      · rename_i isWrite
        rw [if_pos (of_decide_eq_true isWrite)] at all
        exact all
      · rename_i notWrite
        rw [if_neg (fun isWrite => notWrite (decide_eq_true isWrite))] at all
        exact all

/-- Binning a batch touches nothing that is looked at here. -/
theorem logs_bin {binned : List DatabaseQuery}
    (ran : (World.machine true).run (.bin binned) world = some next) :
    Logs [] world next ∧ next.engine.txnBuf = world.engine.txnBuf ∧
      next.engine.inTxn = world.engine.inTxn := by
  cases ran
  exact ⟨.silent rfl rfl rfl, rfl, rfl⟩

theorem logs_executeBatch {batch : List DatabaseQuery}
    (logged : world.engine.coldStore.isSome = true)
    (ran : (World.machine true).runAll
      (world.engine.executeBatchActions batch) world = some next) :
    Logs (if batch = [] then [] else batchWrites batch) world next ∧
      next.engine.txnBuf = world.engine.txnBuf ∧
      next.engine.inTxn = world.engine.inTxn := by
  unfold PointOps.executeBatchActions at ran
  split at ran
  · rename_i empty
    rw [if_pos empty]
    cases ran
    exact ⟨.silent rfl rfl rfl, rfl, rfl⟩
  · rename_i nonempty
    rw [if_neg nonempty]
    rw [Machine.runAll_cons] at ran
    obtain ⟨middle, first, rest⟩ := Option.bind_eq_some_iff.mp ran
    obtain ⟨start, buffer, open_⟩ := logs_bin first
    obtain ⟨logs, laterBuffer, laterOpen⟩ := logs_queries logged _ rest
    have all := start.trans logs
    rw [List.nil_append] at all
    exact ⟨all, laterBuffer.trans buffer, laterOpen.trans open_⟩

/-- The transaction buffer is empty while no transaction is open. -/
def World.BufferIdle (world : World) : Prop :=
  world.engine.inTxn = false → world.engine.txnBuf = []

/-- What a call that does not save the table has done. -/
theorem logs_call {op : Op} (logged : world.engine.coldStore.isSome = true)
    (idle : world.BufferIdle) (noSave : op.saves = false)
    (ran : (World.machine true).runAll (world.engine.actions op) world =
      some next) :
    Logs (op.committed world.engine.txnBuf) world next ∧
      next.engine.txnBuf = op.bufferAfter world.engine.txnBuf ∧
      next.BufferIdle := by
  cases op with
  | executeBatch batch =>
      obtain ⟨logs, buffer, open_⟩ := logs_executeBatch logged ran
      refine ⟨logs, buffer, ?_⟩
      intro closed
      rw [buffer]
      exact idle (open_.symm.trans closed)
  | begin =>
      cases opened : world.engine.inTxn with
      | true =>
          simp [PointOps.actions, opened, Machine.runAll, World.machine,
            World.run] at ran
      | false =>
          simp [PointOps.actions, opened, Machine.runAll, World.machine,
            World.run] at ran
          subst ran
          exact ⟨.silent rfl rfl rfl, rfl, fun _ => rfl⟩
  | txnPut key value =>
      cases opened : world.engine.inTxn with
      | true =>
          simp [PointOps.actions, opened, Machine.runAll, World.machine,
            World.run] at ran
          subst ran
          refine ⟨.silent rfl rfl rfl, rfl, ?_⟩
          intro closed
          cases (show true = false from closed)
      | false =>
          simp [PointOps.actions, opened, Machine.runAll, World.machine,
            World.run] at ran
  | commit =>
      obtain ⟨logs, buffer⟩ := logs_commit logged ran
      exact ⟨logs, buffer, fun _ => buffer⟩
  | rollback =>
      cases opened : world.engine.inTxn with
      | true =>
          simp [PointOps.actions, PointOps.rollbackActions, opened,
            Machine.runAll, World.machine, World.run] at ran
          subst ran
          exact ⟨.silent rfl rfl rfl, rfl, fun _ => rfl⟩
      | false =>
          simp [PointOps.actions, PointOps.rollbackActions, opened,
            Machine.runAll, World.machine, World.run] at ran
  | checkpoint => cases noSave
  | shutdown => cases noSave

/-- A call that saves the table leaves it in the checkpoint, with an empty
log. -/
theorem saves_call {op : Op} (logged : world.engine.coldStore.isSome = true)
    (idle : world.BufferIdle) (saves : op.saves = true)
    (ran : (World.machine true).runAll (world.engine.actions op) world =
      some next) :
    next.engine.kv = world.engine.kv ∧
      next.disk.ckpt = some (encodeCheckpoint world.engine.kv) ∧
      next.disk.wal = [] ∧
      next.engine.coldStore.isSome = true ∧
      next.engine.txnBuf = op.bufferAfter world.engine.txnBuf ∧
      op.committed world.engine.txnBuf = [] ∧
      next.BufferIdle := by
  cases op with
  | checkpoint =>
      cases opened : world.engine.inTxn with
      | true =>
          simp [PointOps.actions, PointOps.checkpointActions, opened,
            Machine.runAll, World.machine, World.run] at ran
      | false =>
          simp [PointOps.actions, PointOps.checkpointActions, opened, logged,
            Machine.runAll, World.machine, World.run] at ran
          subst ran
          exact ⟨rfl, rfl, rfl, by simpa using logged, rfl, rfl,
            fun _ => idle opened⟩
  | shutdown =>
      cases opened : world.engine.inTxn with
      | true =>
          simp [PointOps.actions, PointOps.shutdownActions,
            PointOps.rollbackActions, PointOps.checkpointActions, opened,
            logged, Machine.runAll, World.machine, World.run] at ran
          subst ran
          exact ⟨rfl, rfl, rfl, by simpa using logged, rfl, rfl,
            fun _ => rfl⟩
      | false =>
          simp [PointOps.actions, PointOps.shutdownActions,
            PointOps.checkpointActions, opened, logged, Machine.runAll,
            World.machine, World.run] at ran
          subst ran
          exact ⟨rfl, rfl, rfl, by simpa using logged, idle opened, rfl,
            fun _ => idle opened⟩
  | executeBatch _ => cases saves
  | begin => cases saves
  | txnPut _ _ => cases saves
  | commit => cases saves
  | rollback => cases saves

/-! ## From the restore to the next restart -/

/-- The table is `start` with the committed writes, and so are the files on top
of `base`; no write was refused. -/
structure Progress (start base : KVStore MATRIX_STORE_SLOTS)
    (committed : List (UInt64 × UInt64)) (world : World) : Prop where
  logged : world.engine.coldStore.isSome = true
  idle : world.BufferIdle
  live : world.engine.kv = kvOps.replay start committed
  accepted : kvOps.AcceptsAll start committed
  files : ∃ kv, DiskImage world.disk kv [] [] ∧
    kvOps.SameMap kv (kvOps.replay base committed)

namespace Progress

variable {start base : KVStore MATRIX_STORE_SLOTS}
  {committed : List (UInt64 × UInt64)} {final : World}

theorem call {op : Op} (progress : Progress start base committed world)
    (ran : world.runEvent true (.call op) = some next) :
    Progress start (if op.saves then start else base)
        (committed ++ op.committed world.engine.txnBuf) next ∧
      next.engine.txnBuf = op.bufferAfter world.engine.txnBuf := by
  cases saves : op.saves with
  | true =>
      obtain ⟨kv, ckpt, wal, logged, buffer, none, idle⟩ :=
        saves_call progress.logged progress.idle saves ran
      rw [none, List.append_nil, if_pos rfl]
      refine ⟨⟨logged, idle, kv.trans progress.live, progress.accepted, ?_⟩,
        buffer⟩
      -- The checkpoint holds the table, and the log starts again.
      obtain ⟨saved, image, same⟩ := DiskImage.truncated world.engine.kv ckpt
      have emptied : { next.disk with wal := [] } = next.disk := by
        rw [← wal]
      rw [emptied] at image
      refine ⟨saved, image, ?_⟩
      rw [← progress.live]
      exact same
  | false =>
      obtain ⟨logs, buffer, idle⟩ :=
        logs_call progress.logged progress.idle saves ran
      obtain ⟨kv, image, same⟩ := progress.files
      rw [if_neg Bool.false_ne_true]
      refine ⟨⟨logs.logged progress.logged, idle, ?_, ?_, ?_⟩, buffer⟩
      · rw [logs.kv, progress.live, kvOps.replay_append]
      · rw [kvOps.acceptsAll_append, ← progress.live]
        exact ⟨progress.accepted, logs.accepted⟩
      · refine ⟨_, logs.image kv image, ?_⟩
        rw [kvOps.replay_append]
        exact kvOps.replay_sameMap same _

theorem run {calls : List Op} (progress : Progress start base committed world)
    (ran : world.runEvents true (calls.map .call) = some final) :
    Progress start (if calls.any Op.saves then start else base)
      (committed ++ committedWrites world.engine.txnBuf calls) final := by
  induction calls generalizing world base committed with
  | nil =>
      cases ran
      simpa [committedWrites] using progress
  | cons op calls induction =>
      rw [List.map_cons, World.runEvents] at ran
      split at ran
      · rename_i next first
        obtain ⟨stepped, buffer⟩ := progress.call first
        have rest := induction stepped ran
        rw [buffer, List.append_assoc] at rest
        rw [committedWrites, List.any_cons]
        cases saves : op.saves with
        | true =>
            rw [saves, if_pos rfl, ite_self] at rest
            rw [Bool.true_or, if_pos rfl]
            exact rest
        | false =>
            rw [saves, if_neg Bool.false_ne_true] at rest
            rw [Bool.false_or]
            exact rest
      · cases ran

/-- What the next process finds. -/
theorem reopen (progress : Progress start base committed world)
    (sync : SyncPolicy) :
    ∃ after, world.reopen sync = some after ∧
      kvOps.SameMap after.engine.kv (kvOps.replay base committed) := by
  obtain ⟨kv, image, same⟩ := progress.files
  refine ⟨{ world with engine := PointOps.onStore sync kv }, ?_, same⟩
  rw [World.reopen, openEngine, image.recoverKv_eq]
  rfl

end Progress

/-- A map overwritten by a list of writes. -/
def overwritten (base : UInt64 → Option UInt64)
    (writes : List (UInt64 × UInt64)) (key : UInt64) : Option UInt64 :=
  (lastWrite key writes).or (base key)

theorem overwritten_none_iff {base : UInt64 → Option UInt64}
    {writes : List (UInt64 × UInt64)} :
    (∀ key, overwritten (fun _ => none) writes key =
      overwritten base writes key) ↔
      ∀ key, base key ≠ none → ∃ write ∈ writes, write.1 = key := by
  constructor
  · intro same key held
    by_contra untouched
    have none : lastWrite key writes = none := by
      rw [lastWrite_eq_none_iff]
      exact fun write member equal => untouched ⟨write, member, equal⟩
    have equal := same key
    rw [overwritten, overwritten, none] at equal
    exact held equal.symm
  · intro written key
    rw [overwritten, overwritten]
    cases last : lastWrite key writes with
    | some value => rfl
    | none =>
        by_contra held
        obtain ⟨write, member, equal⟩ := written key (Ne.symm held)
        exact lastWrite_eq_none_iff.mp last write member equal

section
variable {κ : Type} [CostArith κ] {source saved start : CPUMockEngine κ}
  {room : Nat} {order : Catalog.WalkOrder} {old files : BackupFiles}

/-- The table of a fresh engine after the restore of a backup. -/
theorem progress_restore {hostCap : Nat} {sync : SyncPolicy}
    (backedUp : source.backup room order old = some (files, saved))
    (restored : CPUMockEngine.restore
      { catalog := .fresh hostCap, points := World.initial sync } files =
      some start) :
    Progress start.points.engine.kv KVStore.fresh [] start.points ∧
      start.points.engine.txnBuf = [] ∧
      ∀ key, start.kvGet key = source.kvGet key := by
  obtain ⟨written, _, same⟩ := Option.map_eq_some_iff.mp backedUp
  cases same
  obtain ⟨pairs, read, disk, engine⟩ := restore_effect restored
  rw [checkpointPairs_encode] at read
  cases read
  refine ⟨⟨?_, ?_, rfl, trivial, KVStore.fresh, ?_, fun _ => rfl⟩, ?_, ?_⟩
  · rw [engine]
    rfl
  · intro _
    rw [engine]
    rfl
  · rw [disk]
    exact DiskImage.empty
  · rw [engine]
    rfl
  · intro key
    unfold CPUMockEngine.kvGet
    rw [engine]
    exact KVStore.replay_forEach source.points.engine.kv key

/-- After the restore of a backup and any calls, the table holds the backup
overwritten by what the calls have committed.  A restart finds the same if a
checkpoint has been taken since the restore, or if every key of the backup has
been written again, and only then. -/
theorem restored_backup_durable_iff {hostCap : Nat} {sync : SyncPolicy}
    (backedUp : source.backup room order old = some (files, saved))
    (restored : CPUMockEngine.restore
      { catalog := .fresh hostCap, points := World.initial sync } files =
      some start)
    (calls : List Op) {final : World}
    (ran : start.points.runEvents true (calls.map .call) = some final)
    (again : SyncPolicy) :
    (∀ key, final.engine.kv.get key =
      overwritten source.kvGet (committedWrites [] calls) key) ∧
    ∃ after, final.reopen again = some after ∧
      ((∀ key, after.engine.kv.get key =
          overwritten source.kvGet (committedWrites [] calls) key) ↔
        calls.any Op.saves = true ∨
          ∀ key, source.kvGet key ≠ none →
            ∃ write ∈ committedWrites [] calls, write.1 = key) := by
  obtain ⟨progress, buffer, same⟩ := progress_restore backedUp restored
  have reached := progress.run ran
  rw [buffer, List.nil_append] at reached
  have live : ∀ key, final.engine.kv.get key =
      overwritten source.kvGet (committedWrites [] calls) key := by
    intro key
    rw [reached.live, overwritten, ← same key]
    exact reached.accepted.get_replay kvOps key
  refine ⟨live, ?_⟩
  obtain ⟨after, opened, recovered⟩ := reached.reopen again
  refine ⟨after, opened, ?_⟩
  cases any : calls.any Op.saves with
  | true =>
      rw [any, if_pos rfl, ← reached.live] at recovered
      simp only [true_or, iff_true]
      intro key
      rw [← live key]
      exact recovered key
  | false =>
      rw [any, if_neg Bool.false_ne_true] at recovered
      -- An empty store refuses none of the writes either.
      have accepted : kvOps.AcceptsAll KVStore.fresh
          (committedWrites [] calls) := by
        apply KVStore.acceptsAll_of_submap _ reached.accepted
        intro key held
        exact absurd (KVStore.get_fresh key) held
      have found : ∀ key, after.engine.kv.get key =
          overwritten (fun _ => none) (committedWrites [] calls) key := by
        intro key
        have stored := accepted.get_replay kvOps key
        simp only [KVStore.refusing_get, KVStore.get_fresh] at stored
        exact (recovered key).trans stored
      simp only [Bool.false_eq_true, false_or, found]
      exact overwritten_none_iff

end

/-- An engine with one committed write and no columns. -/
def sourceEngine : CPUMockEngine ℚ :=
  { catalog := .fresh 1024
    points := { engine := committedEngine, disk := Disk.empty, notes := [] } }

/-- An engine on a new log path. -/
def newEngine : CPUMockEngine ℚ :=
  { catalog := .fresh 1024, points := World.initial .SYNC_EACH }

theorem sourceEngine_restored :
    ∃ files saved start,
      sourceEngine.backup 100 { columns := [], dicts := [], masks := [] }
        .missing = some (files, saved) ∧
      newEngine.restore files = some start := by
  obtain ⟨file, saved, snapshot, loads, _⟩ := emptyCatalog_saved
  have backedUp : sourceEngine.backup 100
      { columns := [], dicts := [], masks := [] } .missing =
        some ({ catalog := some file
                kv := some (encodeCheckpoint committedEngine.kv) },
          { sourceEngine with catalog := saved }) := by
    rw [CPUMockEngine.backup, sourceEngine, snapshot]
    rfl
  have returns : (newEngine.restore
      { catalog := some file
        kv := some (encodeCheckpoint committedEngine.kv) }).isSome :=
    isSome_restore rfl loads newEngine.points
  obtain ⟨start, restored⟩ := Option.isSome_iff_exists.mp returns
  exact ⟨_, _, start, backedUp, restored⟩

theorem restored_backup_durable_checkpointed :
    ∃ (start : CPUMockEngine ℚ) (final after : World),
      start.points.runEvents true ([Op.checkpoint].map .call) = some final ∧
      final.reopen .SYNC_EACH = some after ∧
      ∀ key, after.engine.kv.get key =
        overwritten sourceEngine.kvGet [] key := by
  obtain ⟨files, saved, start, backedUp, restored⟩ := sourceEngine_restored
  obtain ⟨progress, _, _⟩ := progress_restore backedUp restored
  obtain ⟨pairs, _, _, engine⟩ := restore_effect restored
  have idle : start.points.engine.inTxn = false := by
    rw [engine]
    rfl
  have returns : (start.points.runEvents true
      ([Op.checkpoint].map .call)).isSome := by
    simp [World.runEvents, World.runEvent, PointOps.actions, idle,
      PointOps.checkpointActions, progress.logged, Machine.runAll,
      World.machine, World.run]
  obtain ⟨final, ran⟩ := Option.isSome_iff_exists.mp returns
  obtain ⟨_, after, opened, durable⟩ := restored_backup_durable_iff backedUp
    restored [.checkpoint] ran .SYNC_EACH
  exact ⟨start, final, after, ran, opened, durable.mpr (.inl rfl)⟩

/-- Restored, live, and gone with the next restart. -/
theorem restored_backup_lost :
    ∃ files saved start after,
      sourceEngine.backup 100 { columns := [], dicts := [], masks := [] }
        .missing = some (files, saved) ∧
      newEngine.restore files = some start ∧
      start.points.reopen .SYNC_EACH = some after ∧
      sourceEngine.kvGet 1 = some 10 ∧ start.kvGet 1 = some 10 ∧
      after.engine.kv.get 1 = none := by
  obtain ⟨files, saved, start, backedUp, restored⟩ := sourceEngine_restored
  obtain ⟨progress, _, same⟩ := progress_restore backedUp restored
  obtain ⟨after, opened, recovered⟩ := progress.reopen .SYNC_EACH
  have held : sourceEngine.kvGet 1 = some 10 := KVStore.get_put_fresh 1 10
  refine ⟨files, saved, start, after, backedUp, restored, opened, held,
    (same 1).trans held, ?_⟩
  exact (recovered 1).trans (KVStore.get_fresh 1)

end MatrixDB
