import MatrixDB.KVStore
import MatrixDB.ColdStore.Replay
import MatrixDB.Lib.CrashTriple

/-!
# The point-op half of `CPUMockEngine` (`compute_mock.cpp`)

The hash table, its ordered index, the open transaction, the counters and the
three files of one write-ahead-log path.  Every public call is a list of
actions, one for each place at which the process can stop: a record being
appended, an in-memory write, the three stages of a checkpoint.
-/

namespace MatrixDB

open Lib

def OP_READ : UInt32 := 1

def MATRIX_STORE_MASK : UInt64 := UInt64.ofNat (MATRIX_STORE_SLOTS - 1)
def MATRIX_PAGE_COUNT : Nat := 1024
def MATRIX_PAGE_SIZE : Nat := MATRIX_STORE_SLOTS / MATRIX_PAGE_COUNT
def MATRIX_BATCH_MAX : Nat := 65536
def MATRIX_CKPT_MAGIC : UInt32 := 0x4D434B50

/-- The fields of a query that the point-op path reads or writes. -/
structure DatabaseQuery where
  queryId : UInt64
  transactionId : UInt64
  opcode : UInt32
  deriving DecidableEq, Repr

/-! ## Binning a batch by page -/

def matrixPageOf (key : UInt64) : Nat :=
  (key &&& MATRIX_STORE_MASK).toNat / MATRIX_PAGE_SIZE

/-- Queries per page. -/
def pageCounts (batch : List DatabaseQuery) : List Nat :=
  batch.foldl
    (fun counts query =>
      counts.modify (matrixPageOf query.queryId) (fun count => count + 1))
    (List.replicate MATRIX_PAGE_COUNT 0)

/-- Page `p` owns the positions from entry `p` up to entry `p + 1`. -/
def pageOffsets (counts : List Nat) : List Nat :=
  counts.scanl (fun offset count => offset + count) 0

/-- The scatter loop: each query goes to its page's cursor. -/
def scatter : List DatabaseQuery → List Nat → List DatabaseQuery →
    List DatabaseQuery
  | [], _, binned => binned
  | query :: batch, cursor, binned =>
      let page := matrixPageOf query.queryId
      let position := cursor.getD page 0
      scatter batch (cursor.set page (position + 1))
        (binned.set position query)

/-- `matrix_bin_by_page`: the positions the call fills and the offsets. -/
def matrixBinByPage (batch : List DatabaseQuery) :
    List DatabaseQuery × List Nat :=
  let offsets := pageOffsets (pageCounts batch)
  let unwritten : DatabaseQuery :=
    { queryId := 0, transactionId := 0, opcode := 0 }
  (scatter batch (offsets.take MATRIX_PAGE_COUNT)
      (List.replicate batch.length unwritten), offsets)

/-- The positions of the binned batch in the order `execute_batch` visits
them: page by page, each page's slice front to back. -/
def visitOrder (binned : List DatabaseQuery) (offsets : List Nat) :
    List (Nat × DatabaseQuery) :=
  (List.range MATRIX_PAGE_COUNT).flatMap fun page =>
    (List.range' (offsets.getD page 0)
        (offsets.getD (page + 1) 0 - offsets.getD page 0)).filterMap
      fun position =>
        (binned[position]?).map fun query => (position, query)

/-- What `execute_batch` works through for a batch. -/
def binnedQueries (batch : List DatabaseQuery) : List (Nat × DatabaseQuery) :=
  let clipped := batch.take MATRIX_BATCH_MAX
  let (binned, offsets) := matrixBinByPage clipped
  visitOrder binned offsets

/-! ## Engine state and files -/

inductive SyncPolicy where
  | SYNC_EACH
  | SYNC_OFF
  deriving DecidableEq, Repr

/-- The open log; its bytes are in `Disk`. -/
structure ColdStore where
  policy : SyncPolicy
  recordsWritten : UInt64
  deriving DecidableEq, Repr

/-- The files of one log path: the log, the checkpoint beside it and the
checkpoint being written. -/
structure Disk where
  wal : Bytes
  ckpt : Option Bytes
  tmp : Option Bytes
  deriving DecidableEq, Repr

structure PointOps where
  kv : KVStore MATRIX_STORE_SLOTS
  keyIndex : List (UInt64 × UInt64)
  coldStore : Option ColdStore
  txnBuf : List (UInt64 × UInt64)
  inTxn : Bool
  binned : List DatabaseQuery
  reads : UInt64
  writes : UInt64
  commits : UInt64
  storeOverflows : UInt64
  transactionsCommitted : UInt64
  transactionsRolledBack : UInt64
  checkpoints : UInt64

/-- `key_index_[key] = value` in an ordered map. -/
def indexInsert (key value : UInt64) :
    List (UInt64 × UInt64) → List (UInt64 × UInt64)
  | [] => [(key, value)]
  | entry :: later =>
      if key < entry.1 then (key, value) :: entry :: later
      else if key = entry.1 then (key, value) :: later
      else entry :: indexInsert key value later

/-- The bytes `save_checkpoint` writes. -/
def encodeCheckpoint (kv : KVStore MATRIX_STORE_SLOTS) : Bytes :=
  u32Bytes MATRIX_CKPT_MAGIC ++ u64Bytes (UInt64.ofNat kv.size) ++
    kv.forEach.flatMap fun entry => u64Bytes entry.1 ++ u64Bytes entry.2

/-- The loop of `load_checkpoint`; `none` where a pair is short. -/
def loadPairs : Nat → Bytes → KVStore MATRIX_STORE_SLOTS →
    Option (KVStore MATRIX_STORE_SLOTS)
  | 0, _, kv => some kv
  | count + 1, file, kv => do
      let (key, file) ← readU64 file
      let (value, file) ← readU64 file
      loadPairs count file (kv.put key value).2

/-- `load_checkpoint` into a store; `none` stands for its abort. -/
def loadCheckpoint (kv : KVStore MATRIX_STORE_SLOTS) :
    Option Bytes → Option (KVStore MATRIX_STORE_SLOTS)
  | none => some kv
  | some file => do
      let (magic, file) ← readU32 file
      if magic = MATRIX_CKPT_MAGIC then
        let (count, file) ← readU64 file
        loadPairs count.toNat file kv
      else none

/-- The store the constructor recovers: the checkpoint, then the log. -/
def recoverKv (disk : Disk) : Option (KVStore MATRIX_STORE_SLOTS) := do
  let kv ← loadCheckpoint KVStore.fresh disk.ckpt
  some ((KVStore.refusing MATRIX_STORE_SLOTS).replay kv (replay disk.wal))

/-- The engine the constructor builds around a recovered store. -/
def PointOps.onStore (sync : SyncPolicy) (kv : KVStore MATRIX_STORE_SLOTS) :
    PointOps :=
  { kv := kv
    keyIndex := kv.forEach.foldl
      (fun index entry => indexInsert entry.1 entry.2 index) []
    coldStore := some { policy := sync, recordsWritten := 0 }
    txnBuf := []
    inTxn := false
    binned := []
    reads := 0
    writes := 0
    commits := 0
    storeOverflows := 0
    transactionsCommitted := 0
    transactionsRolledBack := 0
    checkpoints := 0 }

/-- The constructor on a log path; `none` when `load_checkpoint` aborts. -/
def openEngine (sync : SyncPolicy) (disk : Disk) : Option PointOps :=
  (recoverKv disk).map (PointOps.onStore sync)

/-! ## Actions -/

/-- What is remembered of a history to state its properties; the engine never
reads it.  `durable` is noted when the record that makes writes permanent lies
wholly in the log: the record of an auto-commit write, or the marker that a
`commit` writes for its own buffer. -/
inductive Note where
  | issued (writes : List (UInt64 × UInt64))
  | durable (writes : List (UInt64 × UInt64))
  | acked (writes : List (UInt64 × UInt64))
  deriving DecidableEq, Repr

/-- A running engine, its files, and the notes so far, newest first. -/
structure World where
  engine : PointOps
  disk : Disk
  notes : List Note

inductive Action where
  | require (holds : Bool)
  | note (entry : Note)
  | bin (binned : List DatabaseQuery)
  | readKey (position : Nat) (key : UInt64)
  | append (record : WalRecord)
  | applyCommittedWrite (key value : UInt64)
  | openTxn
  | bufferPut (key value : UInt64)
  | closeCommitted
  | closeRolledBack
  | writeTmp
  | renameTmp
  | truncate
  | countCheckpoint

/-- `apply_committed_write`; a refused write is counted, and fails an
assertion. -/
def PointOps.applyCommittedWrite (asserts : Bool) (engine : PointOps)
    (key value : UInt64) : Option PointOps :=
  let (accepted, kv) := engine.kv.put key value
  if accepted then
    some { engine with
      kv := kv
      writes := engine.writes + 1
      commits := engine.commits + 1
      keyIndex := indexInsert key value engine.keyIndex }
  else if asserts then none
  else
    some { engine with
      writes := engine.writes + 1
      storeOverflows := engine.storeOverflows + 1 }

namespace World

/-- The first `extent` bytes of a record reach the log. -/
def appendBytes (record : WalRecord) (extent : Nat) (world : World) : World :=
  { world with
    disk := { world.disk with
      wal := world.disk.wal ++ record.encode.take extent }
    notes :=
      if record.encode.length ≤ extent then
        match record with
        | .put key value => .durable [(key, value)] :: world.notes
        | .txnPut _ _ => world.notes
        | .commit => .durable world.engine.txnBuf :: world.notes
      else world.notes }

/-- One more record counted by the open log. -/
def countRecord (engine : PointOps) : PointOps :=
  { engine with
    coldStore := engine.coldStore.map fun store =>
      { store with recordsWritten := store.recordsWritten + 1 } }

def run (asserts : Bool) : Action → World → Option World
  | .require holds, world => if asserts && !holds then none else some world
  | .note entry, world => some { world with notes := entry :: world.notes }
  | .bin binned, world =>
      some { world with engine := { world.engine with binned := binned } }
  | .readKey position key, world =>
      let value := (world.engine.kv.get key).getD 0
      some { world with
        engine := { world.engine with
          binned := world.engine.binned.modify position
            fun query => { query with transactionId := value }
          reads := world.engine.reads + 1 } }
  | .append record, world =>
      let appended := world.appendBytes record record.encode.length
      some { appended with engine := countRecord appended.engine }
  | .applyCommittedWrite key value, world =>
      (world.engine.applyCommittedWrite asserts key value).map fun engine =>
        { world with engine := engine }
  | .openTxn, world =>
      some { world with
        engine := { world.engine with txnBuf := [], inTxn := true } }
  | .bufferPut key value, world =>
      some { world with
        engine := { world.engine with
          txnBuf := world.engine.txnBuf ++ [(key, value)] } }
  | .closeCommitted, world =>
      some { world with
        engine := { world.engine with
          inTxn := false
          transactionsCommitted := world.engine.transactionsCommitted + 1
          txnBuf := [] } }
  | .closeRolledBack, world =>
      some { world with
        engine := { world.engine with
          inTxn := false
          transactionsRolledBack := world.engine.transactionsRolledBack + 1
          txnBuf := [] } }
  | .writeTmp, world =>
      some { world with
        disk := { world.disk with
          tmp := some (encodeCheckpoint world.engine.kv) } }
  | .renameTmp, world =>
      some { world with
        disk := { world.disk with ckpt := world.disk.tmp, tmp := none } }
  | .truncate, world =>
      some { world with
        disk := { world.disk with wal := [] }
        engine := { world.engine with
          coldStore := world.engine.coldStore.map fun store =>
            { store with recordsWritten := 0 } } }
  | .countCheckpoint, world =>
      some { world with
        engine := { world.engine with
          checkpoints := world.engine.checkpoints + 1 } }

/-- Only the two writes to a file can be cut short. -/
def cut : Action → Nat → World → World
  | .append record, extent, world => world.appendBytes record extent
  | .writeTmp, extent, world =>
      { world with
        disk := { world.disk with
          tmp := some ((encodeCheckpoint world.engine.kv).take extent) } }
  | _, _, world => world

/-- The engine as a machine, with or without assertions compiled in. -/
def machine (asserts : Bool) : Machine Action World where
  run := run asserts
  cut := cut

end World

/-! ## Calls -/

inductive Op where
  | executeBatch (batch : List DatabaseQuery)
  | begin
  | txnPut (key value : UInt64)
  | commit
  | rollback
  | checkpoint
  | shutdown
  deriving DecidableEq, Repr

namespace PointOps

/-- The loop body of `execute_batch`. -/
def queryActions (engine : PointOps) :
    Nat × DatabaseQuery → List Action
  | (position, query) =>
      if query.opcode = OP_READ then [.readKey position query.queryId]
      else if query.opcode = OP_WRITE then
        let write := [(query.queryId, query.queryId)]
        .note (.issued write) ::
          ((if engine.coldStore.isSome then
              [.append (.put query.queryId query.queryId)]
            else []) ++
            [.applyCommittedWrite query.queryId query.queryId,
              .note (.acked write)])
      else []

def executeBatchActions (engine : PointOps) (batch : List DatabaseQuery) :
    List Action :=
  if batch = [] then []
  else
    .bin (matrixBinByPage (batch.take MATRIX_BATCH_MAX)).1 ::
      (binnedQueries batch).flatMap engine.queryActions

/-- The group is logged first, then applied. -/
def commitActions (engine : PointOps) : List Action :=
  [.require engine.inTxn, .note (.issued engine.txnBuf)] ++
    (if engine.coldStore.isSome then
      engine.txnBuf.flatMap (fun write => [.append (.txnPut write.1 write.2)])
        ++ [.append .commit]
    else []) ++
    engine.txnBuf.flatMap
      (fun write => [.applyCommittedWrite write.1 write.2]) ++
    [.closeCommitted, .note (.acked engine.txnBuf)]

def rollbackActions (engine : PointOps) : List Action :=
  [.require engine.inTxn, .closeRolledBack]

/-- `save_checkpoint` then `truncate`, for an engine whose transaction flag
is `inTxn`. -/
def checkpointActions (engine : PointOps) (inTxn : Bool) : List Action :=
  .require (!inTxn) ::
    (if engine.coldStore.isSome then
      [.writeTmp, .renameTmp, .truncate, .countCheckpoint]
    else [])

def shutdownActions (engine : PointOps) : List Action :=
  (if engine.inTxn then engine.rollbackActions else []) ++
    (if engine.coldStore.isSome then engine.checkpointActions false else [])

/-- The actions of a call, as the engine it finds determines them. -/
def actions (engine : PointOps) : Op → List Action
  | .executeBatch batch => engine.executeBatchActions batch
  | .begin => [.require (!engine.inTxn), .openTxn]
  | .txnPut key value => [.require engine.inTxn, .bufferPut key value]
  | .commit => engine.commitActions
  | .rollback => engine.rollbackActions
  | .checkpoint => engine.checkpointActions engine.inTxn
  | .shutdown => engine.shutdownActions

end PointOps

/-! ## Histories -/

/-- A call that returns, a clean stop, or a stop inside a call; after either
stop the next constructor opens the same path. -/
inductive Event where
  | call (op : Op)
  | restart (sync : SyncPolicy)
  | crash (op : Op) (count extent : Nat) (sync : SyncPolicy)
  deriving DecidableEq, Repr

namespace World

/-- The next engine on the same files. -/
def reopen (sync : SyncPolicy) (world : World) : Option World :=
  (openEngine sync world.disk).map fun engine =>
    { world with engine := engine }

/-- Where a crash inside a call leaves the files. -/
def crashIn (asserts : Bool) (op : Op) (count extent : Nat)
    (world : World) : World :=
  (machine asserts).stopAt (world.engine.actions op) count extent world

def runEvent (asserts : Bool) (world : World) : Event → Option World
  | .call op => (machine asserts).runAll (world.engine.actions op) world
  | .restart sync => world.reopen sync
  | .crash op count extent sync =>
      (world.crashIn asserts op count extent).reopen sync

def runEvents (asserts : Bool) (world : World) : List Event → Option World
  | [] => some world
  | event :: later =>
      match world.runEvent asserts event with
      | some next => runEvents asserts next later
      | none => none

end World

def Disk.empty : Disk := { wal := [], ckpt := none, tmp := none }

/-- The first engine on a path without files. -/
def World.initial (sync : SyncPolicy) : World :=
  { engine := PointOps.onStore sync KVStore.fresh
    disk := Disk.empty
    notes := [] }

/-- With assertions `apply_committed_write` stores or aborts. -/
theorem PointOps.applyCommittedWrite_asserted (engine : PointOps)
    (key value : UInt64) :
    engine.applyCommittedWrite true key value =
      if engine.kv.Full ∧ engine.kv.get key = none then none
      else some { engine with
        kv := (engine.kv.put key value).2
        writes := engine.writes + 1
        commits := engine.commits + 1
        keyIndex := indexInsert key value engine.keyIndex } := by
  have refused := engine.kv.put_fst_eq_false_iff key value
  unfold PointOps.applyCommittedWrite
  by_cases accepted : (engine.kv.put key value).1 = true
  · have room : ¬(engine.kv.Full ∧ engine.kv.get key = none) := by
      rw [← refused, accepted]
      exact Bool.noConfusion
    rw [if_neg room]
    simp [accepted]
  · have full := refused.mp ((Bool.not_eq_true _).mp accepted)
    rw [if_pos full]
    simp [accepted]

theorem openEngine_empty (sync : SyncPolicy) :
    openEngine sync Disk.empty = some (World.initial sync).engine := rfl

end MatrixDB
