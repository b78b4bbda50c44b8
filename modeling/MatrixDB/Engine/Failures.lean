import MatrixDB.ColdStore.Units
import MatrixDB.Engine.Recovery

/-!
# Unreported input/output failures

The log and the checkpoint are written through `stdio`.  `append_record`,
`append_commit` and the end of `save_checkpoint` ignore what the calls
report, so `commit` and `checkpoint` return normally whatever reached the
files.  The outcome of every call is an argument here: `none` for success,
`some count` for a failure that lets the first `count` bytes through.
-/

namespace MatrixDB

open Lib

/-- What a call lets through of the bytes it is given. -/
def letThrough : Option Nat → Bytes → Bytes
  | none, bytes => bytes
  | some count, bytes => bytes.take count

theorem length_letThrough_le (outcome : Option Nat) (bytes : Bytes) :
    (letThrough outcome bytes).length ≤ bytes.length := by
  cases outcome with
  | none => exact Nat.le_refl _
  | some count => exact List.length_take_le' count bytes

/-! ## Appending to the log -/

/-- The outcomes of the calls that append one record. -/
structure AppendOutcome where
  lengthWrite : Option Nat
  crcWrite : Option Nat
  payloadWrite : Option Nat
  flush : Option Nat
  sync : Option Nat

def AppendOutcome.success : AppendOutcome :=
  { lengthWrite := none
    crcWrite := none
    payloadWrite := none
    flush := none
    sync := none }

/-- The bytes of a record that reach the file: three `fwrite` calls, `fflush`
and, under `SYNC_EACH`, `fsync`. -/
def arrivedBytes (policy : SyncPolicy) (outcome : AppendOutcome)
    (record : WalRecord) : Bytes :=
  let buffered :=
    letThrough outcome.lengthWrite record.lengthField ++
      letThrough outcome.crcWrite record.crcField ++
      letThrough outcome.payloadWrite record.payload
  let flushed := letThrough outcome.flush buffered
  if policy = .SYNC_EACH then letThrough outcome.sync flushed else flushed

/-- `append_record` and `append_commit` for a list of records. -/
def appendAll (policy : SyncPolicy) (outcomes : Nat → AppendOutcome) :
    Nat → List WalRecord → Bytes → Bytes
  | _, [], wal => wal
  | index, record :: later, wal =>
      appendAll policy outcomes (index + 1) later
        (wal ++ arrivedBytes policy (outcomes index) record)

/-- The records `commit` appends. -/
def groupRecords (writes : List (UInt64 × UInt64)) : List WalRecord :=
  writes.map (fun write => .txnPut write.1 write.2) ++ [.commit]

/-- The in-memory loop of `commit`. -/
def applyAll (asserts : Bool) : List (UInt64 × UInt64) → PointOps →
    Option PointOps
  | [], engine => some engine
  | write :: later, engine => do
      let engine ← engine.applyCommittedWrite asserts write.1 write.2
      applyAll asserts later engine

/-- `commit` on a log whose calls end as `outcomes` says; `none` is an
abort. -/
def commitWith (asserts : Bool) (outcomes : Nat → AppendOutcome)
    (engine : PointOps) (disk : Disk) : Option (PointOps × Disk) :=
  if asserts && !engine.inTxn then none
  else do
    let (store, wal) :=
      match engine.coldStore with
      | none => (none, disk.wal)
      | some store =>
          (some { store with
              recordsWritten := store.recordsWritten +
                UInt64.ofNat (groupRecords engine.txnBuf).length },
            appendAll store.policy outcomes 0 (groupRecords engine.txnBuf)
              disk.wal)
    let applied ←
      applyAll asserts engine.txnBuf { engine with coldStore := store }
    some
      ({ applied with
          inTxn := false
          transactionsCommitted := applied.transactionsCommitted + 1
          txnBuf := [] },
        { disk with wal := wal })

/-- One auto-commit write of `execute_batch`. -/
def writeWith (asserts : Bool) (outcome : AppendOutcome) (key : UInt64)
    (engine : PointOps) (disk : Disk) : Option (PointOps × Disk) := do
  let (store, wal) :=
    match engine.coldStore with
    | none => (none, disk.wal)
    | some store =>
        (some { store with recordsWritten := store.recordsWritten + 1 },
          disk.wal ++ arrivedBytes store.policy outcome (.put key key))
  let applied ←
    { engine with coldStore := store }.applyCommittedWrite asserts key key
  some (applied, { disk with wal := wal })

theorem letThrough_of_length {outcome : Option Nat} {bytes : Bytes}
    (whole : bytes.length ≤ (letThrough outcome bytes).length) :
    letThrough outcome bytes = bytes := by
  cases outcome with
  | none => rfl
  | some count =>
      simp only [letThrough, List.length_take] at whole ⊢
      apply List.take_of_length_le
      omega

/-- What `fsync` and `fflush` let through of the buffered bytes. -/
private theorem arrivedBytes_cases (policy : SyncPolicy)
    (outcome : AppendOutcome) (record : WalRecord) :
    ∃ sync, arrivedBytes policy outcome record =
      letThrough sync (letThrough outcome.flush
        (letThrough outcome.lengthWrite record.lengthField ++
          letThrough outcome.crcWrite record.crcField ++
          letThrough outcome.payloadWrite record.payload)) := by
  by_cases each : policy = .SYNC_EACH
  · exact ⟨outcome.sync, by simp [arrivedBytes, each]⟩
  · exact ⟨none, by simp [arrivedBytes, each, letThrough]⟩

theorem length_arrivedBytes_le (policy : SyncPolicy) (outcome : AppendOutcome)
    (record : WalRecord) :
    (arrivedBytes policy outcome record).length ≤ record.encode.length := by
  obtain ⟨sync, arrived⟩ := arrivedBytes_cases policy outcome record
  rw [arrived]
  apply Nat.le_trans (length_letThrough_le _ _)
  apply Nat.le_trans (length_letThrough_le _ _)
  have first := length_letThrough_le outcome.lengthWrite record.lengthField
  have second := length_letThrough_le outcome.crcWrite record.crcField
  have third := length_letThrough_le outcome.payloadWrite record.payload
  simp only [WalRecord.encode, List.length_append]
  omega

theorem arrivedBytes_of_length {policy : SyncPolicy} {outcome : AppendOutcome}
    {record : WalRecord}
    (whole : record.encode.length ≤
      (arrivedBytes policy outcome record).length) :
    arrivedBytes policy outcome record = record.encode := by
  obtain ⟨sync, arrived⟩ := arrivedBytes_cases policy outcome record
  rw [arrived] at whole ⊢
  have synced := Nat.le_trans whole (length_letThrough_le _ _)
  have flushed := Nat.le_trans synced (length_letThrough_le _ _)
  have first := length_letThrough_le outcome.lengthWrite record.lengthField
  have second := length_letThrough_le outcome.crcWrite record.crcField
  have third := length_letThrough_le outcome.payloadWrite record.payload
  simp only [WalRecord.encode, List.length_append] at flushed
  -- No byte can be missing anywhere, so every call let all of them through.
  have lengthWhole : letThrough outcome.lengthWrite record.lengthField =
      record.lengthField := letThrough_of_length (by omega)
  have crcWhole : letThrough outcome.crcWrite record.crcField =
      record.crcField := letThrough_of_length (by omega)
  have payloadWhole : letThrough outcome.payloadWrite record.payload =
      record.payload := letThrough_of_length (by omega)
  rw [lengthWhole, crcWhole, payloadWhole] at synced whole ⊢
  have flushWhole : letThrough outcome.flush record.encode = record.encode :=
    letThrough_of_length synced
  rw [← WalRecord.encode, flushWhole] at whole ⊢
  exact letThrough_of_length whole

@[simp] theorem arrivedBytes_success (policy : SyncPolicy)
    (record : WalRecord) :
    arrivedBytes policy .success record = record.encode := by
  simp [arrivedBytes, AppendOutcome.success, letThrough, WalRecord.encode]

/-- Everything that reaches the file of a list of records. -/
def arrivedAll (policy : SyncPolicy) (outcomes : Nat → AppendOutcome) :
    Nat → List WalRecord → Bytes
  | _, [] => []
  | index, record :: later =>
      arrivedBytes policy (outcomes index) record ++
        arrivedAll policy outcomes (index + 1) later

/-- Every byte of every record reaches the file. -/
def AllArrive (policy : SyncPolicy) (outcomes : Nat → AppendOutcome) :
    Nat → List WalRecord → Prop
  | _, [] => True
  | index, record :: later =>
      arrivedBytes policy (outcomes index) record = record.encode ∧
        AllArrive policy outcomes (index + 1) later

variable {policy : SyncPolicy} {outcomes : Nat → AppendOutcome}

theorem appendAll_eq (index : Nat) (records : List WalRecord) (wal : Bytes) :
    appendAll policy outcomes index records wal =
      wal ++ arrivedAll policy outcomes index records := by
  induction records generalizing index wal with
  | nil => simp [appendAll, arrivedAll]
  | cons record records induction =>
      rw [appendAll, induction, arrivedAll, List.append_assoc]

theorem AllArrive.arrivedAll_eq {index : Nat} {records : List WalRecord}
    (whole : AllArrive policy outcomes index records) :
    arrivedAll policy outcomes index records = encodeAll records := by
  induction records generalizing index with
  | nil => rfl
  | cons record records induction =>
      rw [arrivedAll, whole.1, induction whole.2, encodeAll_cons]

theorem length_arrivedAll_le (index : Nat) (records : List WalRecord) :
    (arrivedAll policy outcomes index records).length ≤
      recordBytes records := by
  induction records generalizing index with
  | nil => exact Nat.le_refl _
  | cons record records induction =>
      have first := length_arrivedBytes_le policy (outcomes index) record
      have rest := induction (index + 1)
      simp only [recordBytes] at rest
      simp only [arrivedAll, recordBytes, encodeAll_cons, List.length_append]
      omega

theorem allArrive_success (policy : SyncPolicy) (index : Nat)
    (records : List WalRecord) :
    AllArrive policy (fun _ => .success) index records := by
  induction records generalizing index with
  | nil => trivial
  | cons record records induction =>
      exact ⟨arrivedBytes_success policy record, induction (index + 1)⟩

/-- If no byte is missing, every record is whole. -/
theorem allArrive_of_length {index : Nat} {records : List WalRecord}
    (whole : recordBytes records ≤
      (arrivedAll policy outcomes index records).length) :
    AllArrive policy outcomes index records := by
  induction records generalizing index with
  | nil => trivial
  | cons record records induction =>
      have first := length_arrivedBytes_le policy (outcomes index) record
      have rest : (arrivedAll policy outcomes (index + 1) records).length ≤
        recordBytes records := length_arrivedAll_le (index + 1) records
      simp only [arrivedAll, recordBytes, encodeAll_cons,
        List.length_append] at whole rest
      constructor
      · apply arrivedBytes_of_length
        omega
      · apply induction
        simp only [recordBytes]
        omega

/-! ## Commit -/

/-- Replaying the log applies one group more: the transactional puts that
waited for a marker, then the whole of `writes`. -/
def AppliesGroup (before after : Bytes) (writes : List (UInt64 × UInt64)) :
    Prop :=
  replayUnits after =
    replayUnits before ++ [.group (leftoverTxn before ++ writes)]

theorem unitsFrom_groupRecords (txn writes : List (UInt64 × UInt64)) :
    unitsFrom txn (groupRecords writes) = [.group (txn ++ writes)] := by
  induction writes generalizing txn with
  | nil => simp [groupRecords, unitsFrom]
  | cons write writes induction =>
      have rest := induction (txn ++ [write])
      rw [List.append_assoc, List.singleton_append] at rest
      exact rest

theorem recordBytes_groupRecords (writes : List (UInt64 × UInt64)) :
    recordBytes (groupRecords writes) = 28 * writes.length + 12 := by
  induction writes with
  | nil =>
      simp [groupRecords, recordBytes, WalRecord.encode, WalRecord.payload]
  | cons write writes induction =>
      have first : recordBytes [WalRecord.txnPut write.1 write.2] = 28 := by
        simp [recordBytes, WalRecord.encode, WalRecord.payload]
      rw [show groupRecords (write :: writes) =
        [WalRecord.txnPut write.1 write.2] ++ groupRecords writes from rfl,
        recordBytes_append, first, induction, List.length_cons]
      omega

theorem commitWith_wal {asserts : Bool} {engine engine' : PointOps}
    {disk disk' : Disk} {store : ColdStore}
    (logged : engine.coldStore = some store)
    (returned : commitWith asserts outcomes engine disk =
      some (engine', disk')) :
    disk'.wal = disk.wal ++
      arrivedAll store.policy outcomes 0 (groupRecords engine.txnBuf) := by
  unfold commitWith at returned
  split at returned
  · cases returned
  · simp only [logged, Option.bind_eq_bind, Option.bind_eq_some_iff,
      Option.some.injEq, Prod.mk.injEq] at returned
    obtain ⟨_, _, _, rfl⟩ := returned
    exact appendAll_eq 0 _ disk.wal

/-- A commit that returns has made its group durable if the log had no torn
tail and every byte of its records reached the file, and, on a log without a
torn tail, only then. -/
theorem commit_durable_iff (asserts : Bool) (outcomes : Nat → AppendOutcome)
    (engine engine' : PointOps) (disk disk' : Disk) (store : ColdStore)
    (logged : engine.coldStore = some store)
    (returned : commitWith asserts outcomes engine disk =
      some (engine', disk')) :
    (tornTail disk.wal = [] ∧
        AllArrive store.policy outcomes 0 (groupRecords engine.txnBuf) →
      AppliesGroup disk.wal disk'.wal engine.txnBuf) ∧
      (tornTail disk.wal = [] →
        AppliesGroup disk.wal disk'.wal engine.txnBuf →
        AllArrive store.policy outcomes 0 (groupRecords engine.txnBuf)) := by
  rw [commitWith_wal logged returned]
  constructor
  · intro condition
    rw [AppliesGroup, replayUnits_append condition.1,
      condition.2.arrivedAll_eq, decodedRecords_encodeAll,
      unitsFrom_groupRecords]
  · intro clean applies
    rw [AppliesGroup, replayUnits_append clean,
      List.append_cancel_left_eq] at applies
    have needed := bytes_of_group applies
    have available := recordBytes_decoded_le
      (arrivedAll store.policy outcomes 0 (groupRecords engine.txnBuf))
    apply allArrive_of_length
    rw [recordBytes_groupRecords]
    rw [List.length_append] at needed
    omega

/-- A transaction of one write, on a path without files. -/
def bufferedEngine : PointOps :=
  { PointOps.onStore .SYNC_EACH KVStore.fresh with
    txnBuf := [(1, 10)]
    inTxn := true }

theorem commit_durable_buffered :
    ∃ engine' disk',
      commitWith true (fun _ => .success) bufferedEngine Disk.empty =
        some (engine', disk') ∧
      AppliesGroup Disk.empty.wal disk'.wal bufferedEngine.txnBuf := by
  obtain ⟨result, returned⟩ : ∃ result,
      commitWith true (fun _ => .success) bufferedEngine Disk.empty =
        some result := Option.isSome_iff_exists.mp (by decide +kernel)
  obtain ⟨engine', disk'⟩ := result
  have clean : tornTail Disk.empty.wal = [] := rfl
  have whole := allArrive_success .SYNC_EACH 0
    (groupRecords bufferedEngine.txnBuf)
  exact ⟨engine', disk', returned,
    (commit_durable_iff true (fun _ => .success) bufferedEngine engine'
      Disk.empty disk' { policy := .SYNC_EACH, recordsWritten := 0 } rfl
      returned).1 ⟨clean, whole⟩⟩

/-- The payload of the first record is not written. -/
def lostPayload : Nat → AppendOutcome
  | 0 => { AppendOutcome.success with payloadWrite := some 0 }
  | _ + 1 => .success

/-- `commit` returns and shows the write although the log does not hold it. -/
theorem commit_not_durable :
    ∃ engine' disk',
      commitWith true lostPayload bufferedEngine Disk.empty =
        some (engine', disk') ∧
      engine'.kv.get 1 = some 10 ∧
      replay disk'.wal = [] ∧
      ¬AppliesGroup Disk.empty.wal disk'.wal bufferedEngine.txnBuf := by
  have outcome :
      (commitWith true lostPayload bufferedEngine Disk.empty).map
        (fun result => replayUnits result.2.wal) = some [] := by
    decide +kernel
  have stored :
      (commitWith true lostPayload bufferedEngine Disk.empty).map
        (fun result => result.1.kv) = some (KVStore.fresh.put 1 10).2 := rfl
  obtain ⟨⟨engine', disk'⟩, returned, units⟩ :=
    Option.map_eq_some_iff.mp outcome
  rw [returned, Option.map_some, Option.some.injEq] at stored
  refine ⟨engine', disk', returned, ?_, ?_, ?_⟩
  · rw [stored]
    exact KVStore.get_put_fresh 1 10
  · rw [replay_eq_units, units]
    rfl
  · rw [AppliesGroup, units]
    simp

/-! ### The calls without failures -/

theorem runAll_appends (asserts : Bool) (records : List WalRecord)
    (world : World) :
    ∃ notes,
      (World.machine asserts).runAll (records.map .append) world =
        some
          { engine :=
              { world.engine with
                coldStore := world.engine.coldStore.map fun store =>
                  { store with
                    recordsWritten := store.recordsWritten +
                      UInt64.ofNat records.length } }
            disk := { world.disk with
              wal := world.disk.wal ++ encodeAll records }
            notes := notes } := by
  induction records generalizing world with
  | nil =>
      refine ⟨world.notes, ?_⟩
      simp [Machine.runAll]
  | cons record records induction =>
      obtain ⟨notes, rest⟩ := induction
        { world.appendBytes record record.encode.length with
          engine := World.countRecord world.engine }
      refine ⟨notes, ?_⟩
      refine Eq.trans rest ?_
      have counted : ∀ count : UInt64,
          count + 1 + UInt64.ofNat records.length =
            count + UInt64.ofNat (records.length + 1) := by
        intro count
        rw [UInt64.ofNat_add, UInt64.add_assoc,
          UInt64.add_comm (UInt64.ofNat records.length)]
        rfl
      simp [World.appendBytes, World.countRecord, encodeAll_cons, counted,
        Function.comp_def]

theorem runAll_applies {asserts : Bool} (writes : List (UInt64 × UInt64))
    (world : World) :
    (World.machine asserts).runAll
        (writes.flatMap
          fun write => [.applyCommittedWrite write.1 write.2]) world =
      (applyAll asserts writes world.engine).map fun engine =>
        { world with engine := engine } := by
  induction writes generalizing world with
  | nil => rfl
  | cons write writes induction =>
      simp only [List.flatMap_cons, List.singleton_append, Machine.runAll,
        World.machine, World.run, applyAll, Option.bind_eq_bind]
      cases world.engine.applyCommittedWrite asserts write.1 write.2 with
      | none => rfl
      | some engine => exact induction { world with engine := engine }

/-- The half of a commit that follows the log. -/
private theorem runAll_finish {asserts : Bool}
    (writes : List (UInt64 × UInt64)) (world : World) :
    ((World.machine asserts).runAll
        (writes.flatMap
            (fun write => [.applyCommittedWrite write.1 write.2]) ++
          [.closeCommitted, .note (.acked writes)]) world).map
        (fun final => (final.engine, final.disk)) =
      (applyAll asserts writes world.engine).map fun applied =>
        ({ applied with
            inTxn := false
            transactionsCommitted := applied.transactionsCommitted + 1
            txnBuf := [] },
          world.disk) := by
  rw [Machine.runAll_append, runAll_applies]
  cases applyAll asserts writes world.engine <;> rfl

/-- Without failures `commitWith` is the call as the histories run it. -/
theorem commitWith_success (asserts : Bool) (world : World) :
    commitWith asserts (fun _ => .success) world.engine world.disk =
      ((World.machine asserts).runAll world.engine.commitActions world).map
        fun final => (final.engine, final.disk) := by
  unfold commitWith PointOps.commitActions
  rw [List.append_assoc, List.append_assoc, Machine.runAll_append]
  by_cases refused : (asserts && !world.engine.inTxn) = true
  · simp [refused, Machine.runAll, World.machine, World.run]
  have begun : (World.machine asserts).runAll
      [.require world.engine.inTxn, .note (.issued world.engine.txnBuf)]
      world =
      some { world with
        notes := .issued world.engine.txnBuf :: world.notes } := by
    simp [refused, Machine.runAll, World.machine, World.run]
  rw [if_neg refused, begun, Option.bind_some]
  cases logged : world.engine.coldStore with
  | none =>
      rw [Option.isSome_none, if_neg (by decide), List.nil_append,
        runAll_finish]
      simp only [Option.bind_eq_bind]
      rw [show { world.engine with coldStore := none } = world.engine by
        rw [← logged]]
      cases applyAll asserts world.engine.txnBuf world.engine <;> rfl
  | some store =>
      have group : world.engine.txnBuf.flatMap
            (fun write => [Action.append (.txnPut write.1 write.2)]) ++
          [.append .commit] =
          (groupRecords world.engine.txnBuf).map .append := by
        rw [groupRecords, List.map_append, List.map_map,
          List.map_eq_flatMap]
        rfl
      obtain ⟨notes, appended⟩ :=
        runAll_appends asserts (groupRecords world.engine.txnBuf)
          { world with notes := .issued world.engine.txnBuf :: world.notes }
      rw [Option.isSome_some, if_pos rfl, group, Machine.runAll_append,
        appended, Option.bind_some, runAll_finish]
      have whole := allArrive_success store.policy 0
        (groupRecords world.engine.txnBuf)
      simp only [Option.bind_eq_bind, logged, Option.map_some, appendAll_eq,
        whole.arrivedAll_eq]
      cases applyAll asserts world.engine.txnBuf _ <;> rfl

/-! ## Auto-commit writes -/

/-- The same for one auto-commit write of a batch. -/
theorem write_durable_iff {asserts : Bool} {outcome : AppendOutcome}
    {key : UInt64} {engine engine' : PointOps} {disk disk' : Disk}
    {store : ColdStore} (logged : engine.coldStore = some store)
    (clean : tornTail disk.wal = [])
    (returned : writeWith asserts outcome key engine disk =
      some (engine', disk')) :
    replayUnits disk'.wal = replayUnits disk.wal ++ [.autoCommit key key] ↔
      arrivedBytes store.policy outcome (.put key key) =
        (WalRecord.put key key).encode := by
  simp only [writeWith, logged, Option.bind_eq_bind, Option.bind_eq_some_iff,
    Option.some.injEq, Prod.mk.injEq] at returned
  obtain ⟨_, _, _, rfl⟩ := returned
  rw [replayUnits_append clean, List.append_cancel_left_eq]
  constructor
  · intro applied
    have needed := bytes_of_autoCommit applied
    have available := recordBytes_decoded_le
      (arrivedBytes store.policy outcome (.put key key))
    apply arrivedBytes_of_length
    simp only [WalRecord.encode, WalRecord.payload, List.length_append,
      WalRecord.length_lengthField, WalRecord.length_crcField,
      length_u64Bytes, length_u32Bytes]
    omega
  · intro whole
    have read := decodedRecords_encodeAll [WalRecord.put key key]
    rw [encodeAll_cons, encodeAll_nil, List.append_nil] at read
    rw [whole, read]
    rfl

/-! ## Checkpoint -/

/-- The outcomes of the calls of `save_checkpoint` and `truncate`. -/
structure SaveOutcome where
  opens : Bool
  writes : Nat → Bool
  flush : Option Nat
  sync : Option Nat
  close : Option Nat
  renames : Bool
  reopens : Bool
  reappends : Bool

def SaveOutcome.success : SaveOutcome :=
  { opens := true
    writes := fun _ => true
    flush := none
    sync := none
    close := none
    renames := true
    reopens := true
    reappends := true }

/-- The bytes of an open stream that are in the file, and those buffered. -/
structure Stream where
  file : Bytes
  buffer : Bytes

/-- A flush that fails keeps what it did not write in the buffer. -/
def Stream.flush (stream : Stream) : Option Nat → Stream
  | none => { file := stream.file ++ stream.buffer, buffer := [] }
  | some count =>
      { file := stream.file ++ stream.buffer.take count
        buffer := stream.buffer.drop count }

/-- What is in the temporary file once it is closed, if every `fwrite`
reported success: `fclose` flushes again, and a failed `fsync` may lose all
but the first bytes. -/
def keptFile (outcome : SaveOutcome) (bytes : Bytes) : Bytes :=
  let stream : Stream := { file := [], buffer := bytes }
  letThrough outcome.sync
    ((stream.flush outcome.flush).flush outcome.close).file

/-- Whether the first `count` calls of `fwrite` report success. -/
def SaveOutcome.allWritten (outcome : SaveOutcome) (count : Nat) : Bool :=
  (List.range count).all outcome.writes

/-- `save_checkpoint`; the two header fields and each key and value take one
`fwrite`. -/
def saveCheckpointWith (outcome : SaveOutcome)
    (kv : KVStore MATRIX_STORE_SLOTS) (disk : Disk) : Option Disk :=
  if !outcome.opens then none
  else if !outcome.allWritten (2 + 2 * kv.forEach.length) then none
  else if !outcome.renames then none
  else
    some { disk with
      ckpt := some (keptFile outcome (encodeCheckpoint kv))
      tmp := none }

/-- `checkpoint` with the outcomes of its calls; `none` is an abort. -/
def checkpointWith (asserts : Bool) (outcome : SaveOutcome)
    (engine : PointOps) (disk : Disk) : Option (PointOps × Disk) :=
  if asserts && engine.inTxn then none
  else
    match engine.coldStore with
    | none => some (engine, disk)
    | some store => do
        let saved ← saveCheckpointWith outcome engine.kv disk
        if !outcome.reopens then none
        else if !outcome.reappends then none
        else
          some
            ({ engine with
                coldStore := some { store with recordsWritten := 0 }
                checkpoints := engine.checkpoints + 1 },
              { saved with wal := [] })

/-- How many of `total` bytes a call lets through. -/
def reach : Option Nat → Nat → Nat
  | none, total => total
  | some count, total => min count total

/-- How many of `total` bytes the flush, the close and the sync together
leave in the file. -/
def SaveOutcome.kept (outcome : SaveOutcome) (total : Nat) : Nat :=
  let flushed := reach outcome.flush total
  reach outcome.sync (flushed + reach outcome.close (total - flushed))

/-- A call whose result is looked at fails, or an assertion does. -/
def CheckedFailure (asserts : Bool) (outcome : SaveOutcome)
    (engine : PointOps) : Prop :=
  (asserts = true ∧ engine.inTxn = true) ∨ outcome.opens = false ∨
    outcome.allWritten (2 + 2 * engine.kv.forEach.length) = false ∨
    outcome.renames = false ∨ outcome.reopens = false ∨
    outcome.reappends = false

theorem reach_le (outcome : Option Nat) (total : Nat) :
    reach outcome total ≤ total := by
  cases outcome with
  | none => exact Nat.le_refl _
  | some count => exact Nat.min_le_right count total

theorem kept_success (total : Nat) : SaveOutcome.success.kept total = total := by
  simp [SaveOutcome.kept, SaveOutcome.success, reach]

theorem kept_le (outcome : SaveOutcome) (total : Nat) :
    outcome.kept total ≤ total := by
  have flushed := reach_le outcome.flush total
  have closed := reach_le outcome.close (total - reach outcome.flush total)
  apply Nat.le_trans (reach_le _ _)
  omega

/-- A stream whose file holds the first `count` of its bytes. -/
def Stream.upTo (bytes : Bytes) (count : Nat) : Stream :=
  { file := bytes.take count, buffer := bytes.drop count }

theorem Stream.flush_upTo (bytes : Bytes) {count : Nat}
    (inside : count ≤ bytes.length) (outcome : Option Nat) :
    (Stream.upTo bytes count).flush outcome =
      Stream.upTo bytes (count + reach outcome (bytes.length - count)) := by
  cases outcome with
  | none =>
      have total : count + (bytes.length - count) = bytes.length := by omega
      simp [Stream.flush, Stream.upTo, reach, total]
  | some extra =>
      simp only [Stream.flush, Stream.upTo, reach, Stream.mk.injEq,
        ← List.take_add, List.drop_drop]
      by_cases fits : extra ≤ bytes.length - count
      · rw [Nat.min_eq_left fits]
        exact ⟨rfl, rfl⟩
      · rw [Nat.min_eq_right (by omega), List.take_of_length_le (by omega),
          List.take_of_length_le (by omega), List.drop_of_length_le (by omega),
          List.drop_of_length_le (by omega)]
        exact ⟨rfl, rfl⟩

theorem letThrough_take (outcome : Option Nat) (bytes : Bytes)
    (count : Nat) :
    letThrough outcome (bytes.take count) =
      bytes.take (reach outcome count) := by
  cases outcome with
  | none => rfl
  | some extra => simp [letThrough, reach, List.take_take]

theorem keptFile_eq (outcome : SaveOutcome) (bytes : Bytes) :
    keptFile outcome bytes = bytes.take (outcome.kept bytes.length) := by
  have start : (Stream.mk [] bytes) = Stream.upTo bytes 0 := by
    simp [Stream.upTo]
  have flushed := reach_le outcome.flush bytes.length
  have closed := reach_le outcome.close
    (bytes.length - reach outcome.flush bytes.length)
  simp only [keptFile, start]
  rw [Stream.flush_upTo bytes (Nat.zero_le _), Nat.zero_add, Nat.sub_zero,
    Stream.flush_upTo bytes flushed, Stream.upTo,
    letThrough_take]
  rfl

/-- `checkpoint` returns exactly when no checked call fails. -/
theorem checkpointWith_eq (asserts : Bool) (outcome : SaveOutcome)
    {engine : PointOps} (disk : Disk) {store : ColdStore}
    (logged : engine.coldStore = some store) :
    (CheckedFailure asserts outcome engine ∧
        checkpointWith asserts outcome engine disk = none) ∨
      (¬CheckedFailure asserts outcome engine ∧
        checkpointWith asserts outcome engine disk =
          some
            ({ engine with
                coldStore := some { store with recordsWritten := 0 }
                checkpoints := engine.checkpoints + 1 },
              { wal := []
                ckpt := some
                  ((encodeCheckpoint engine.kv).take
                    (outcome.kept (encodeCheckpoint engine.kv).length))
                tmp := none })) := by
  rw [← keptFile_eq]
  by_cases failure : CheckedFailure asserts outcome engine
  · left
    refine ⟨failure, ?_⟩
    rcases failure with ⟨on, inTxn⟩ | closed | short | stays | lost | lost
    · simp [checkpointWith, on, inTxn]
    all_goals
      simp [checkpointWith, saveCheckpointWith, *]
  · right
    refine ⟨failure, ?_⟩
    simp only [CheckedFailure, not_or, not_and, Bool.not_eq_false] at failure
    obtain ⟨noAssert, opens, written, renames, reopens, reappends⟩ := failure
    have passed : (asserts && engine.inTxn) = false := by
      cases on : asserts with
      | false => rfl
      | true => simpa using noAssert on
    simp [checkpointWith, saveCheckpointWith, logged, passed, opens, written,
      renames, reopens, reappends]

theorem recoverKv_of_whole (kv : KVStore MATRIX_STORE_SLOTS) :
    ∃ recovered,
      recoverKv
          { wal := [], ckpt := some (encodeCheckpoint kv), tmp := none } =
        some recovered ∧
      ∀ key, recovered.get key = kv.get key := by
  refine ⟨_, ?_, kv.replay_forEach⟩
  simp only [recoverKv, loadCheckpoint_encode, Option.bind_eq_bind,
    Option.bind_some]
  rfl

theorem recoverKv_of_cut (kv : KVStore MATRIX_STORE_SLOTS) {count : Nat}
    (short : count < (encodeCheckpoint kv).length) :
    recoverKv
        { wal := [], ckpt := some ((encodeCheckpoint kv).take count),
          tmp := none } = none := by
  simp [recoverKv, loadCheckpoint_cut kv short]

/-- A checkpoint that returns keeps the map if, and only if, a checked call
made it abort instead or every byte of the snapshot reached the file. -/
theorem checkpoint_keeps_map_iff (asserts : Bool) (outcome : SaveOutcome)
    (engine : PointOps) (disk : Disk) (store : ColdStore)
    (logged : engine.coldStore = some store) :
    (∀ engine' disk',
      checkpointWith asserts outcome engine disk = some (engine', disk') →
        ∃ kv, recoverKv disk' = some kv ∧
          ∀ key, kv.get key = engine.kv.get key) ↔
      CheckedFailure asserts outcome engine ∨
        outcome.kept (encodeCheckpoint engine.kv).length =
          (encodeCheckpoint engine.kv).length := by
  rcases checkpointWith_eq asserts outcome disk logged with
    ⟨failure, aborted⟩ | ⟨passed, returned⟩
  · simp [failure, aborted]
  · constructor
    · intro keeps
      right
      obtain ⟨kv, recovered, _⟩ := keeps _ _ returned
      apply Nat.le_antisymm (kept_le outcome _)
      apply Nat.le_of_not_lt
      intro short
      rw [recoverKv_of_cut engine.kv short] at recovered
      cases recovered
    · intro condition engine' disk' result
      rcases condition with failure | complete
      · exact (passed failure).elim
      · rw [returned, complete, List.take_length] at result
        cases result
        exact recoverKv_of_whole engine.kv

/-- The calls whose results are looked at succeed. -/
theorem not_checkedFailure {asserts : Bool} {outcome : SaveOutcome}
    {engine : PointOps} (idle : engine.inTxn = false)
    (opens : outcome.opens = true) (writes : ∀ call, outcome.writes call = true)
    (renames : outcome.renames = true) (reopens : outcome.reopens = true)
    (reappends : outcome.reappends = true) :
    ¬CheckedFailure asserts outcome engine := by
  simp [CheckedFailure, idle, opens, writes, renames, reopens, reappends,
    SaveOutcome.allWritten]

/-- An engine that holds one committed write. -/
def committedEngine : PointOps :=
  PointOps.onStore .SYNC_EACH (KVStore.fresh.put 1 10).2

theorem checkpoint_keeps_map_success :
    ∃ engine' disk' kv,
      checkpointWith true .success committedEngine Disk.empty =
        some (engine', disk') ∧
      recoverKv disk' = some kv ∧
      ∀ key, kv.get key = committedEngine.kv.get key := by
  have logged : committedEngine.coldStore =
      some { policy := .SYNC_EACH, recordsWritten := 0 } := rfl
  have passed : ¬CheckedFailure true .success committedEngine :=
    not_checkedFailure rfl rfl (fun _ => rfl) rfl rfl rfl
  have complete : SaveOutcome.success.kept
      (encodeCheckpoint committedEngine.kv).length =
      (encodeCheckpoint committedEngine.kv).length := kept_success _
  rcases checkpointWith_eq true .success Disk.empty logged with
    ⟨failure, _⟩ | ⟨_, returned⟩
  · exact (passed failure).elim
  · obtain ⟨kv, recovered, same⟩ :=
      (checkpoint_keeps_map_iff true .success committedEngine Disk.empty _
        logged).mpr (.inr complete) _ _ returned
    exact ⟨_, _, kv, returned, recovered, same⟩

/-- Every `fwrite` succeeds into the buffer; `fflush` and `fclose` fail on a
full disk before the first byte. -/
def diskFull : SaveOutcome :=
  { SaveOutcome.success with flush := some 0, close := some 0 }

/-- `checkpoint` returns, and the next engine on the path aborts. -/
theorem checkpoint_destroys_map :
    ∃ engine' disk',
      checkpointWith true diskFull committedEngine Disk.empty =
        some (engine', disk') ∧
      committedEngine.kv.get 1 = some 10 ∧
      recoverKv disk' = none := by
  have logged : committedEngine.coldStore =
      some { policy := .SYNC_EACH, recordsWritten := 0 } := rfl
  have passed : ¬CheckedFailure true diskFull committedEngine :=
    not_checkedFailure rfl rfl (fun _ => rfl) rfl rfl rfl
  rcases checkpointWith_eq true diskFull Disk.empty logged with
    ⟨failure, _⟩ | ⟨_, returned⟩
  · exact (passed failure).elim
  · refine ⟨_, _, returned, KVStore.get_put_fresh 1 10, ?_⟩
    apply recoverKv_of_cut
    rw [length_encodeCheckpoint,
      show diskFull.kept (12 + 16 * committedEngine.kv.size) = 0 by
        simp [SaveOutcome.kept, diskFull, SaveOutcome.success, reach]]
    omega

/-- Without failures `checkpointWith` is the call as the histories run it. -/
theorem checkpointWith_success (asserts : Bool) (world : World) :
    checkpointWith asserts .success world.engine world.disk =
      ((World.machine asserts).runAll
        (world.engine.checkpointActions world.engine.inTxn) world).map
        fun final => (final.engine, final.disk) := by
  by_cases failed : (asserts && world.engine.inTxn) = true
  · simp [checkpointWith, failed, PointOps.checkpointActions, Machine.runAll,
      World.machine, World.run]
  · cases logged : world.engine.coldStore with
    | none =>
        simp [checkpointWith, failed, PointOps.checkpointActions, logged,
          Machine.runAll, World.machine, World.run]
    | some store =>
        have written : SaveOutcome.success.allWritten
            (2 + 2 * world.engine.kv.forEach.length) = true := by
          simp [SaveOutcome.allWritten, SaveOutcome.success]
        have whole : keptFile .success (encodeCheckpoint world.engine.kv) =
            encodeCheckpoint world.engine.kv := by
          simp [keptFile, SaveOutcome.success, Stream.flush, letThrough]
        have calls : SaveOutcome.success.opens = true ∧
            SaveOutcome.success.renames = true ∧
            SaveOutcome.success.reopens = true ∧
            SaveOutcome.success.reappends = true := by decide
        simp [checkpointWith, saveCheckpointWith, failed, written, whole,
          calls, PointOps.checkpointActions, logged, Machine.runAll,
          World.machine, World.run]

end MatrixDB
