import MatrixDB.Engine.Recovery

/-!
# Calls keep the path recoverable

Each call is taken apart into the actions of `PointOps`.  The triples below
say what the files recover to when the call returns and wherever it is cut,
for logs without a torn tail; the history theorems follow by induction.
-/

namespace MatrixDB

open Lib

/-- Wherever the process stops, the files recover to an explained store. -/
def CrashSafe (world : World) : Prop :=
  ∃ kv leftover torn, DiskImage world.disk kv leftover torn ∧
    Explained world.notes kv

/-- Between calls the live store holds what the files recover to. -/
structure Settled (world : World) (kv : KVStore MATRIX_STORE_SLOTS)
    (leftover : List (UInt64 × UInt64)) (torn : Bytes) : Prop where
  image : DiskImage world.disk kv leftover torn
  explained : Explained world.notes kv
  live : kvOps.SameMap kv world.engine.kv
  logged : world.engine.coldStore.isSome = true

/-- Settled, with a condition on what the log ends with. -/
def SettledIf (tail : List (UInt64 × UInt64) → Bytes → Prop)
    (world : World) : Prop :=
  ∃ kv leftover torn, tail leftover torn ∧ Settled world kv leftover torn

variable {tail : List (UInt64 × UInt64) → Bytes → Prop} {asserts : Bool}

theorem SettledIf.crashSafe {world : World} (settled : SettledIf tail world) :
    CrashSafe world := by
  obtain ⟨kv, leftover, torn, _, settled⟩ := settled
  exact ⟨kv, leftover, torn, settled.image, settled.explained⟩

theorem SettledIf.weaken {other : List (UInt64 × UInt64) → Bytes → Prop}
    {world : World} (settled : SettledIf tail world)
    (implies : ∀ leftover torn, tail leftover torn → other leftover torn) :
    SettledIf other world := by
  obtain ⟨kv, leftover, torn, condition, settled⟩ := settled
  exact ⟨kv, leftover, torn, implies leftover torn condition, settled⟩

/-- An action that leaves files, notes and contents alone. -/
theorem SettledIf.frame {world next : World} (settled : SettledIf tail world)
    (disk : next.disk = world.disk) (notes : next.notes = world.notes)
    (kv : next.engine.kv = world.engine.kv)
    (logged : next.engine.coldStore = world.engine.coldStore) :
    SettledIf tail next := by
  obtain ⟨store, leftover, torn, condition, settled⟩ := settled
  refine ⟨store, leftover, torn, condition, ?_⟩
  constructor
  · rw [disk]
    exact settled.image
  · rw [notes]
    exact settled.explained
  · rw [kv]
    exact settled.live
  · rw [logged]
    exact settled.logged

/-- Actions that neither write a file nor touch the table or the notes. -/
def Action.IsLocal : Action → Prop
  | .require _ | .bin _ | .readKey _ _ | .openTxn | .bufferPut _ _
  | .closeCommitted | .closeRolledBack | .countCheckpoint => True
  | _ => False

theorem Action.IsLocal.run {action : Action} (isLocal : action.IsLocal)
    {world next : World}
    (ran : (World.machine asserts).run action world = some next) :
    next.disk = world.disk ∧ next.notes = world.notes ∧
      next.engine.kv = world.engine.kv ∧
      next.engine.coldStore = world.engine.coldStore := by
  cases action with
  | require holds =>
      simp only [World.machine, World.run] at ran
      split at ran
      · cases ran
      · cases ran
        exact ⟨rfl, rfl, rfl, rfl⟩
  | bin | readKey | openTxn | bufferPut | closeCommitted | closeRolledBack
  | countCheckpoint =>
      cases ran
      exact ⟨rfl, rfl, rfl, rfl⟩
  | note | append | applyCommittedWrite | writeTmp | renameTmp | truncate =>
      exact isLocal.elim

theorem Action.IsLocal.cut {action : Action} (isLocal : action.IsLocal)
    (extent : Nat) (world : World) :
    (World.machine asserts).cut action extent world = world := by
  cases action with
  | append | writeTmp => exact isLocal.elim
  | require | note | bin | readKey | applyCommittedWrite | openTxn | bufferPut
  | closeCommitted | closeRolledBack | renameTmp | truncate
  | countCheckpoint => rfl

/-- A call made of local actions keeps everything settled, also where it is
cut. -/
theorem settled_of_isLocal {actions : List Action}
    (isLocal : ∀ action ∈ actions, action.IsLocal) :
    (World.machine asserts).CrashTriple (SettledIf tail) actions
      (SettledIf tail) (SettledIf tail) := by
  induction actions with
  | nil => exact .nil fun _ settled => settled
  | cons action actions induction =>
      have first := isLocal action List.mem_cons_self
      apply Machine.CrashTriple.cons
      · intro world settled
        exact settled
      · intro world extent settled
        rw [first.cut]
        exact settled
      · intro world next settled ran
        obtain ⟨disk, notes, kv, logged⟩ := first.run ran
        exact settled.frame disk notes kv logged
      · apply induction
        intro later member
        exact isLocal later (List.mem_cons_of_mem _ member)

/-! ## Logging a group of writes -/

/-- The writes are announced, and the log, which has no torn tail, ends with
the transactional puts `leftover`. -/
def Announced (writes leftover : List (UInt64 × UInt64)) (world : World) :
    Prop :=
  ∃ kv older, DiskImage world.disk kv leftover [] ∧
    world.notes = .issued writes :: older ∧
    Explained (.issued writes :: older) kv ∧
    kvOps.SameMap kv world.engine.kv ∧
    world.engine.coldStore.isSome = true

/-- The writes are durable, and `applied` of them are in the live store. -/
def Persisted (writes leftover applied : List (UInt64 × UInt64))
    (world : World) : Prop :=
  ∃ kv older, DiskImage world.disk (kvOps.replay kv writes) leftover [] ∧
    world.notes = .durable writes :: .issued writes :: older ∧
    Explained (.issued writes :: older) kv ∧
    kvOps.SameMap (kvOps.replay kv applied) world.engine.kv ∧
    world.engine.coldStore.isSome = true

variable {writes leftover applied : List (UInt64 × UInt64)}

theorem Announced.crashSafe {world : World}
    (announced : Announced writes leftover world) : CrashSafe world := by
  obtain ⟨kv, older, image, notes, explained, _, _⟩ := announced
  exact ⟨kv, leftover, [], image, notes ▸ explained⟩

theorem Persisted.crashSafe {world : World}
    (persisted : Persisted writes leftover applied world) :
    CrashSafe world := by
  obtain ⟨kv, older, image, notes, explained, _, _⟩ := persisted
  exact ⟨_, leftover, [], image, notes ▸ explained.persist⟩

theorem announce {world next : World} {kv : KVStore MATRIX_STORE_SLOTS}
    (settled : Settled world kv leftover [])
    (ran : (World.machine asserts).run (.note (.issued writes)) world = some next) :
    Announced writes leftover next := by
  cases ran
  exact ⟨kv, world.notes, settled.image, rfl, settled.explained.issue writes,
    settled.live, settled.logged⟩

theorem appendBytes_whole (world : World) (record : WalRecord) {extent : Nat}
    (whole : record.encode.length ≤ extent) :
    world.appendBytes record extent =
      world.appendBytes record record.encode.length := by
  simp [World.appendBytes, whole, List.take_of_length_le whole]

/-- A record cut short changes nothing that is recovered. -/
theorem crashSafe_of_cut {world : World} {kv : KVStore MATRIX_STORE_SLOTS}
    (image : DiskImage world.disk kv leftover [])
    (explained : Explained world.notes kv) {record : WalRecord}
    (complete : CrashSafe
      (world.appendBytes record record.encode.length)) (extent : Nat) :
    CrashSafe (world.appendBytes record extent) := by
  by_cases whole : record.encode.length ≤ extent
  · rw [appendBytes_whole world record whole]
    exact complete
  · refine ⟨kv, leftover, record.encode.take extent, ?_, ?_⟩
    · exact image.append_torn (Nat.lt_of_not_le whole)
    · simpa [World.appendBytes, whole] using explained

theorem Announced.append_put {world : World} {key value : UInt64}
    (announced : Announced [(key, value)] leftover world) :
    Persisted [(key, value)] leftover []
      (world.appendBytes (.put key value)
        (WalRecord.put key value).encode.length) := by
  obtain ⟨kv, older, image, notes, explained, live, logged⟩ := announced
  refine ⟨kv, older, ?_, ?_, explained, live, logged⟩
  · simpa [World.appendBytes] using image.append_put key value
  · simp [World.appendBytes, notes]

theorem Announced.append_txnPut {world : World} (key value : UInt64)
    (announced : Announced writes leftover world) :
    Announced writes (leftover ++ [(key, value)])
      (world.appendBytes (.txnPut key value)
        (WalRecord.txnPut key value).encode.length) := by
  obtain ⟨kv, older, image, notes, explained, live, logged⟩ := announced
  refine ⟨kv, older, ?_, ?_, explained, live, logged⟩
  · simpa [World.appendBytes] using image.append_txnPut key value
  · simp [World.appendBytes, notes]

theorem Announced.append_commit {world : World}
    (announced : Announced writes writes world)
    (buffered : world.engine.txnBuf = writes) :
    Persisted writes [] []
      (world.appendBytes .commit WalRecord.commit.encode.length) := by
  obtain ⟨kv, older, image, notes, explained, live, logged⟩ := announced
  refine ⟨kv, older, ?_, ?_, explained, live, logged⟩
  · simpa [World.appendBytes] using image.append_commit
  · simp [World.appendBytes, notes, buffered]

/-- One durable write enters the live store; a refused one is dropped. -/
theorem Persisted.apply {world next : World} {key value : UInt64}
    (persisted : Persisted writes leftover applied world)
    (ran : (World.machine asserts).run (.applyCommittedWrite key value)
      world = some next) :
    Persisted writes leftover (applied ++ [(key, value)]) next := by
  obtain ⟨kv, older, image, notes, explained, live, logged⟩ := persisted
  have stored := kvOps.put_sameMap live key value
  simp only [World.machine, World.run, Option.map_eq_some_iff] at ran
  obtain ⟨engine, applied', rfl⟩ := ran
  have effect : kvOps.SameMap
      (kvOps.put world.engine.kv key value) engine.kv ∧
      engine.coldStore = world.engine.coldStore := by
    simp only [PointOps.applyCommittedWrite] at applied'
    split at applied'
    · cases applied'
      exact ⟨RefusingStore.SameMap.refl kvOps _, rfl⟩
    · rename_i refused
      split at applied'
      · cases applied'
      · cases applied'
        have reason := (world.engine.kv.put_fst_eq_false_iff key value).mp
          (by simpa using refused)
        rw [show kvOps.put world.engine.kv key value = world.engine.kv from
          world.engine.kv.put_refused key value reason.1 reason.2]
        exact ⟨RefusingStore.SameMap.refl kvOps _, rfl⟩
  refine ⟨kv, older, image, notes, explained, ?_, ?_⟩
  · rw [kvOps.replay_append]
    exact stored.trans kvOps effect.1
  · rw [effect.2]
    exact logged

theorem Persisted.ack {world next : World}
    (persisted : Persisted writes leftover writes world)
    (ran : (World.machine asserts).run (.note (.acked writes)) world = some next) :
    ∃ kv, Settled next kv leftover [] := by
  obtain ⟨kv, older, image, notes, explained, live, logged⟩ := persisted
  cases ran
  refine ⟨kvOps.replay kv writes, image, ?_, live, logged⟩
  rw [notes]
  exact explained.ack

/-- Counting a record leaves the rest of the engine alone. -/
theorem Announced.countRecord {world : World}
    (announced : Announced writes leftover world) :
    Announced writes leftover
      { world with engine := World.countRecord world.engine } := by
  obtain ⟨kv, older, image, notes, explained, live, logged⟩ := announced
  refine ⟨kv, older, image, notes, explained, live, ?_⟩
  simpa [World.countRecord] using logged

theorem Persisted.countRecord {world : World}
    (persisted : Persisted writes leftover applied world) :
    Persisted writes leftover applied
      { world with engine := World.countRecord world.engine } := by
  obtain ⟨kv, older, image, notes, explained, live, logged⟩ := persisted
  refine ⟨kv, older, image, notes, explained, live, ?_⟩
  simpa [World.countRecord] using logged

/-- Appending a record to a log without a torn tail. -/
theorem append_triple {record : WalRecord} {before after : World → Prop}
    (clean : ∀ world, before world → ∃ kv leftover,
      DiskImage world.disk kv leftover [] ∧ Explained world.notes kv)
    (complete : ∀ world, before world →
      after (world.appendBytes record record.encode.length))
    (safe : ∀ world, after world → CrashSafe world)
    (count : ∀ world, after world →
      after { world with engine := World.countRecord world.engine }) :
    (World.machine asserts).CrashTriple before [.append record] after
      CrashSafe := by
  apply Machine.CrashTriple.cons
  · intro world holds
    obtain ⟨kv, leftover, image, explained⟩ := clean world holds
    exact ⟨kv, leftover, [], image, explained⟩
  · intro world extent holds
    obtain ⟨kv, leftover, image, explained⟩ := clean world holds
    exact crashSafe_of_cut image explained
      (safe _ (complete world holds)) extent
  · intro world next holds ran
    cases ran
    exact count _ (complete world holds)
  · exact .nil safe

theorem Announced.clean {world : World}
    (announced : Announced writes leftover world) :
    ∃ kv leftover, DiskImage world.disk kv leftover [] ∧
      Explained world.notes kv := by
  obtain ⟨kv, older, image, notes, explained, _, _⟩ := announced
  exact ⟨kv, leftover, image, notes ▸ explained⟩

/-- The in-memory half of a call. -/
theorem apply_triple (pending : List (UInt64 × UInt64)) :
    (World.machine asserts).CrashTriple (Persisted writes leftover [])
      (pending.flatMap
        fun write => [.applyCommittedWrite write.1 write.2])
      (Persisted writes leftover pending) CrashSafe := by
  apply Machine.CrashTriple.flatMap (Persisted writes leftover)
  · intro applied world persisted
    exact persisted.crashSafe
  · intro applied write _
    apply Machine.CrashTriple.cons
    · intro world persisted
      exact persisted.crashSafe
    · intro world _ persisted
      exact persisted.crashSafe
    · intro world next persisted ran
      exact persisted.apply ran
    · exact .nil fun world persisted => persisted.crashSafe

/-! ## Calls -/

/-- The clean end a call with writes leaves. -/
theorem ack_triple (condition : tail leftover []) :
    (World.machine asserts).CrashTriple (Persisted writes leftover writes)
      [.note (.acked writes)] (SettledIf tail) CrashSafe := by
  have done : (World.machine asserts).CrashTriple (SettledIf tail) []
      (SettledIf tail) CrashSafe := .nil fun _ settled => settled.crashSafe
  refine Machine.CrashTriple.cons ?_ ?_ ?_ done
  · intro world persisted
    exact persisted.crashSafe
  · intro world _ persisted
    exact persisted.crashSafe
  · intro world next persisted ran
    obtain ⟨kv, settled⟩ := persisted.ack ran
    exact ⟨kv, leftover, [], condition, settled⟩

theorem writeQuery_triple (key : UInt64)
    (clean : ∀ leftover torn, tail leftover torn → torn = []) :
    (World.machine asserts).CrashTriple (SettledIf tail)
      [.note (.issued [(key, key)]), .append (.put key key),
        .applyCommittedWrite key key, .note (.acked [(key, key)])]
      (SettledIf tail) CrashSafe := by
  intro world settled
  obtain ⟨kv, leftover, torn, condition, settled⟩ := settled
  obtain rfl := clean leftover torn condition
  have logged : (World.machine asserts).CrashTriple
      (Announced [(key, key)] leftover) [.append (.put key key)]
      (Persisted [(key, key)] leftover []) CrashSafe :=
    append_triple (fun _ announced => announced.clean)
      (fun _ announced => announced.append_put)
      (fun _ persisted => persisted.crashSafe)
      (fun _ persisted => persisted.countRecord)
  have all : (World.machine asserts).CrashTriple
      (fun world => ∃ kv, Settled world kv leftover [])
      [.note (.issued [(key, key)]), .append (.put key key),
        .applyCommittedWrite key key, .note (.acked [(key, key)])]
      (SettledIf tail) CrashSafe := by
    apply Machine.CrashTriple.cons
    · rintro world ⟨kv, settled⟩
      exact ⟨kv, leftover, [], settled.image, settled.explained⟩
    · rintro world _ ⟨kv, settled⟩
      exact ⟨kv, leftover, [], settled.image, settled.explained⟩
    · rintro world next ⟨kv, settled⟩ ran
      exact announce settled ran
    · exact logged.append
        ((apply_triple [(key, key)]).append (ack_triple condition))
  exact all world ⟨kv, settled⟩

theorem query_triple (engine : PointOps)
    (logged : engine.coldStore.isSome = true) (visit : Nat × DatabaseQuery)
    (clean : visit.2.opcode = OP_WRITE →
      ∀ leftover torn, tail leftover torn → torn = []) :
    (World.machine asserts).CrashTriple (SettledIf tail)
      (engine.queryActions visit) (SettledIf tail) CrashSafe := by
  obtain ⟨position, query⟩ := visit
  simp only [PointOps.queryActions]
  by_cases isRead : query.opcode = OP_READ
  · rw [if_pos isRead]
    exact (settled_of_isLocal (by simp [Action.IsLocal])).weaken
      (fun _ settled => settled) (fun _ settled => settled)
      (fun _ settled => settled.crashSafe)
  · rw [if_neg isRead]
    by_cases isWrite : query.opcode = OP_WRITE
    · rw [if_pos isWrite, if_pos logged]
      exact writeQuery_triple query.queryId (clean isWrite)
    · rw [if_neg isWrite]
      exact .nil fun _ settled => settled.crashSafe

/-- Whether a batch makes the engine append to the log. -/
def HasWrite (batch : List DatabaseQuery) : Prop :=
  ∃ visit ∈ binnedQueries batch, visit.2.opcode = OP_WRITE

theorem executeBatch_triple (engine : PointOps)
    (logged : engine.coldStore.isSome = true) (batch : List DatabaseQuery)
    (clean : HasWrite batch →
      ∀ leftover torn, tail leftover torn → torn = []) :
    (World.machine asserts).CrashTriple (SettledIf tail)
      (engine.executeBatchActions batch) (SettledIf tail) CrashSafe := by
  have safe : ∀ world, SettledIf tail world → CrashSafe world :=
    fun _ settled => settled.crashSafe
  unfold PointOps.executeBatchActions
  split
  · exact .nil safe
  · apply Machine.CrashTriple.cons safe
    · intro world _ settled
      exact settled.crashSafe
    · intro world next settled ran
      cases ran
      exact settled.frame rfl rfl rfl rfl
    · apply Machine.CrashTriple.flatMap fun _ => SettledIf tail
      · intro _ world settled
        exact settled.crashSafe
      · intro _ visit member
        apply query_triple engine logged visit
        intro isWrite
        exact clean ⟨visit, member, isWrite⟩

/-- A group is logged behind a clean log, marker last. -/
theorem logGroup_triple (writes : List (UInt64 × UInt64)) :
    (World.machine asserts).CrashTriple
      (fun world => Announced writes [] world ∧
        world.engine.txnBuf = writes)
      (writes.flatMap (fun write => [.append (.txnPut write.1 write.2)]) ++
        [.append .commit])
      (Persisted writes [] []) CrashSafe := by
  have puts : (World.machine asserts).CrashTriple
      (fun world => Announced writes [] world ∧
        world.engine.txnBuf = writes)
      (writes.flatMap fun write => [.append (.txnPut write.1 write.2)])
      (fun world => Announced writes writes world ∧
        world.engine.txnBuf = writes) CrashSafe := by
    apply Machine.CrashTriple.flatMap fun logged world =>
      Announced writes logged world ∧ world.engine.txnBuf = writes
    · rintro logged world ⟨announced, _⟩
      exact announced.crashSafe
    · intro logged write _
      apply append_triple
      · rintro world ⟨announced, _⟩
        exact announced.clean
      · rintro world ⟨announced, buffered⟩
        exact ⟨announced.append_txnPut write.1 write.2, buffered⟩
      · rintro world ⟨announced, _⟩
        exact announced.crashSafe
      · rintro world ⟨announced, buffered⟩
        exact ⟨announced.countRecord, buffered⟩
  apply puts.append
  apply append_triple
  · rintro world ⟨announced, _⟩
    exact announced.clean
  · rintro world ⟨announced, buffered⟩
    exact announced.append_commit buffered
  · intro world persisted
    exact persisted.crashSafe
  · intro world persisted
    exact persisted.countRecord

theorem commit_triple (engine : PointOps)
    (logged : engine.coldStore.isSome = true) :
    (World.machine asserts).CrashTriple
      (fun world => (∃ kv, Settled world kv [] []) ∧
        world.engine.txnBuf = engine.txnBuf)
      engine.commitActions
      (SettledIf fun leftover torn => leftover = [] ∧ torn = [])
      CrashSafe := by
  have close : (World.machine asserts).CrashTriple
      (Persisted engine.txnBuf [] engine.txnBuf)
      [.closeCommitted, .note (.acked engine.txnBuf)]
      (SettledIf fun leftover torn => leftover = [] ∧ torn = [])
      CrashSafe := by
    refine Machine.CrashTriple.cons ?_ ?_ ?_ (ack_triple ⟨rfl, rfl⟩)
    · intro world persisted
      exact persisted.crashSafe
    · intro world _ persisted
      exact persisted.crashSafe
    · intro world next persisted ran
      cases ran
      exact persisted
  have start : (World.machine asserts).CrashTriple
      (fun world => (∃ kv, Settled world kv [] []) ∧
        world.engine.txnBuf = engine.txnBuf)
      [.require engine.inTxn, .note (.issued engine.txnBuf)]
      (fun world => Announced engine.txnBuf [] world ∧
        world.engine.txnBuf = engine.txnBuf) CrashSafe := by
    have safe : ∀ world : World, ((∃ kv, Settled world kv [] []) ∧
        world.engine.txnBuf = engine.txnBuf) → CrashSafe world := by
      rintro world ⟨⟨kv, settled⟩, _⟩
      exact ⟨kv, [], [], settled.image, settled.explained⟩
    have note : (World.machine asserts).CrashTriple
        (fun world => (∃ kv, Settled world kv [] []) ∧
          world.engine.txnBuf = engine.txnBuf)
        [.note (.issued engine.txnBuf)]
        (fun world => Announced engine.txnBuf [] world ∧
          world.engine.txnBuf = engine.txnBuf) CrashSafe := by
      refine Machine.CrashTriple.cons safe (fun world _ => safe world) ?_
        (.nil fun world announced => announced.1.crashSafe)
      rintro world next ⟨⟨kv, settled⟩, buffered⟩ ran
      have announced := announce settled ran
      cases ran
      exact ⟨announced, buffered⟩
    refine Machine.CrashTriple.cons safe (fun world _ => safe world) ?_ note
    rintro world next holds ran
    simp only [World.machine, World.run] at ran
    split at ran
    · cases ran
    · cases ran
      exact holds
  unfold PointOps.commitActions
  rw [if_pos logged]
  exact ((start.append (logGroup_triple engine.txnBuf)).append
    (apply_triple engine.txnBuf)).append close

/-- A checkpoint keeps the recovered contents equal to the live ones at every
point at which it can stop. -/
theorem checkpoint_triple (engine : PointOps) (inTxn : Bool)
    (clean : tail [] []) :
    (World.machine asserts).CrashTriple (SettledIf tail)
      (engine.checkpointActions inTxn) (SettledIf tail) (SettledIf tail) := by
  have same : ∀ world, SettledIf tail world → SettledIf tail world :=
    fun _ settled => settled
  have done : (World.machine asserts).CrashTriple (SettledIf tail)
      [.countCheckpoint] (SettledIf tail) (SettledIf tail) :=
    settled_of_isLocal (by simp [Action.IsLocal])
  -- Behind the rename, the checkpoint holds the live contents.
  have truncated : (World.machine asserts).CrashTriple
      (fun world => SettledIf tail world ∧
        world.disk.ckpt = some (encodeCheckpoint world.engine.kv))
      [.truncate, .countCheckpoint] (SettledIf tail) (SettledIf tail) := by
    refine Machine.CrashTriple.cons (fun world holds => holds.1)
      (fun world _ holds => holds.1) ?_ done
    rintro world next ⟨⟨_, _, _, _, settled⟩, written⟩ ran
    obtain ⟨kv, image, live⟩ := DiskImage.truncated world.engine.kv written
    cases ran
    refine ⟨kv, [], [], clean, image, ?_, live, ?_⟩
    · exact settled.explained.congr
        (settled.live.trans kvOps (live.symm kvOps))
    · simpa using settled.logged
  have renamed : (World.machine asserts).CrashTriple
      (fun world => SettledIf tail world ∧
        world.disk.tmp = some (encodeCheckpoint world.engine.kv))
      [.renameTmp, .truncate, .countCheckpoint] (SettledIf tail)
      (SettledIf tail) := by
    refine Machine.CrashTriple.cons (fun world holds => holds.1)
      (fun world _ holds => holds.1) ?_ truncated
    rintro world next ⟨⟨_, leftover, torn, condition, settled⟩, written⟩ ran
    obtain ⟨kv, image, live⟩ :=
      settled.image.replace_checkpoint settled.live
    cases ran
    refine ⟨⟨kv, leftover, torn, condition, ?_, ?_, live, settled.logged⟩,
      written⟩
    · rw [← written] at image
      exact image
    · exact settled.explained.congr
        (settled.live.trans kvOps (live.symm kvOps))
  have written : (World.machine asserts).CrashTriple (SettledIf tail)
      [.writeTmp, .renameTmp, .truncate, .countCheckpoint] (SettledIf tail)
      (SettledIf tail) := by
    refine Machine.CrashTriple.cons same ?_ ?_ renamed
    · rintro world extent ⟨kv, leftover, torn, condition, settled⟩
      exact ⟨kv, leftover, torn, condition, settled.image.set_tmp _,
        settled.explained, settled.live, settled.logged⟩
    · rintro world next ⟨kv, leftover, torn, condition, settled⟩ ran
      cases ran
      exact ⟨⟨kv, leftover, torn, condition, settled.image.set_tmp _,
        settled.explained, settled.live, settled.logged⟩, rfl⟩
  have required : (World.machine asserts).CrashTriple (SettledIf tail)
      [.require (!inTxn)] (SettledIf tail) (SettledIf tail) :=
    settled_of_isLocal (by simp [Action.IsLocal])
  unfold PointOps.checkpointActions
  split
  · exact required.append written
  · exact required

theorem shutdown_triple (engine : PointOps) (clean : tail [] []) :
    (World.machine asserts).CrashTriple (SettledIf tail)
      engine.shutdownActions (SettledIf tail) (SettledIf tail) := by
  unfold PointOps.shutdownActions
  have rolledBack : (World.machine asserts).CrashTriple (SettledIf tail)
      (if engine.inTxn then engine.rollbackActions else [])
      (SettledIf tail) (SettledIf tail) := by
    apply settled_of_isLocal
    split <;> simp [PointOps.rollbackActions, Action.IsLocal]
  apply rolledBack.append
  split
  · exact checkpoint_triple engine false clean
  · exact .nil fun _ settled => settled

end MatrixDB
