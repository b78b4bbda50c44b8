import MatrixDB.Gpu.Backends
import MatrixDB.Pipeline.Completion
import MatrixDB.Pipeline.Router

/-!
# What `main` sends and what it asserts (`main.cpp`)

Every thousandth query is a scan, the others are reads and writes in turn.  The
engine has been warmed up by batches of its own.  However the threads
interleave, `main` can come to its end, and all its assertions hold there.
-/

namespace MatrixDB

open Lib

/-! ## The workload -/

def TOTAL_QUERIES : Nat := 10000
def SCAN_EVERY : Nat := 1000

def SCAN_THRESHOLD : UInt32 := UInt32.ofNat (MATRIX_SCAN_COLUMN_SIZE / 2)

theorem length_emptyPayload : (List.replicate 32 (0 : UInt8)).length = 32 :=
  List.length_replicate

/-- A query with an empty payload, as a scan of the resident column. -/
def workloadScan (threshold : UInt32) : ScanQuery :=
  ScanQuery.setScanTarget
    { transactionId := 0
      opcode := OP_READ
      payload := List.replicate 32 0
      whole := length_emptyPayload }
    threshold 0

def workloadQuery (scanEvery : Nat) (threshold : UInt32) (i : Nat) : Ingest :=
  if i % scanEvery = 0 then .scan (workloadScan threshold)
  else
    .point
      { queryId := UInt64.ofNat i
        transactionId := 0
        opcode := if i % 2 = 0 then OP_READ else OP_WRITE }

def workload (total scanEvery : Nat) (threshold : UInt32) : List Ingest :=
  (List.range total).map (workloadQuery scanEvery threshold)

def expectedScans (total scanEvery : Nat) : Nat :=
  (List.range total).countP fun i => i % scanEvery = 0

/-- A batch of `sweep_batch_sizes`. -/
def sweepBatch (size : Nat) : List DatabaseQuery :=
  (List.range size).map fun i =>
    { queryId := UInt64.ofNat i
      transactionId := 0
      opcode := if i % 2 = 0 then OP_READ else OP_WRITE }

def sweepBatchSizes : List (List DatabaseQuery) :=
  sweepBatch 256 ::
    [64, 256, 512, 1024, 2048, 4096, 8192, 16384, 32768, 65536].flatMap
      fun bs => List.replicate (400000 / bs) (sweepBatch bs)

/-! ## The engine of the scans -/

namespace Router

variable {κ : Type} [CostArith κ]

/-- The scans of the pipeline: all of one column. -/
def executeScan (launches : Launches) (scanColId : UInt64)
    (router : Router κ) (q : ScanQuery) : Option (Router κ) :=
  (router.routeScan launches q scanColId).map Prod.snd

/-- The device, if it is the home of the column. -/
def owner (router : Router κ) (scanColId : UInt64) : Option DeviceEngine :=
  if router.homeOf scanColId = some .DEVICE then router.gpu else none

/-- The counters of `scan_engine`. -/
def scanEngine (router : Router κ) (scanColId : UInt64) : ScanCounters :=
  match router.owner scanColId with
  | some device => device.scans
  | none => router.host.counters

omit [CostArith κ] in
theorem scanEngine_host {router : Router κ} {scanColId : UInt64}
    (owner : router.owner scanColId = none) :
    router.scanEngine scanColId = router.host.counters := by
  simp only [scanEngine, owner]

omit [CostArith κ] in
theorem scanEngine_device {router : Router κ} {scanColId : UInt64}
    {device : DeviceEngine} (owner : router.owner scanColId = some device) :
    router.scanEngine scanColId = device.scans := by
  simp only [scanEngine, owner]

/-- A scan of the resident column is run and counted where the column is. -/
theorem executeScan_resident {launches : Launches}
    (scheduled : launches.Scheduled) {router : Router κ} {scanColId : UInt64}
    (placed : (router.homeOf scanColId).isSome) {q : ScanQuery}
    (resident : q.scanColumnId = 0) :
    ∃ after, router.executeScan launches scanColId q = some after ∧
      after.homeOf scanColId = router.homeOf scanColId ∧
      after.scanEngine scanColId = (router.scanEngine scanColId).count
        (matrixCpuReduce scanColumn MATRIX_SCAN_COLUMN_SIZE q.scanThreshold
          q.scanAggOp) := by
  obtain ⟨home, here⟩ := Option.isSome_iff_exists.mp placed
  have found : router.placement[scanColId.toNat]? = some home := here
  have owned : router.owner scanColId =
      if home = .DEVICE then router.gpu else none := by
    simp only [owner, here, Option.some.injEq]
  cases chosen : router.owner scanColId with
  | none =>
      have onHost := owned.symm.trans chosen
      let after : Router κ := { router with
        host := { router.host with
          counters := router.host.counters.count (matrixCpuReduce scanColumn
            MATRIX_SCAN_COLUMN_SIZE q.scanThreshold q.scanAggOp) } }
      have still : after.owner scanColId = none := chosen
      refine ⟨after, ?_, rfl, ?_⟩
      · simp only [executeScan, routeScan, found, Option.bind_some, onHost,
          router.host.executeScan_resident resident, Option.map_some, after]
      · rw [scanEngine_host still, scanEngine_host chosen]
  | some device =>
      have onDevice := owned.symm.trans chosen
      let next : DeviceEngine := { device with
        scans := device.scans.count (matrixGpuScan q.scanThreshold
          q.scanAggOp (launches.scan device.launched))
        launched := device.launched + 1 }
      let after : Router κ := { router with gpu := some next }
      have still : after.owner scanColId = some next := by
        have home : router.homeOf scanColId = some .DEVICE := by
          by_contra other
          rw [owner, if_neg other] at chosen
          cases chosen
        exact if_pos home
      refine ⟨after, ?_, rfl, ?_⟩
      · simp only [executeScan, routeScan, found, Option.bind_some, onDevice,
          DeviceEngine.executeScan, ScanCounters.executeScan, Option.map_some,
          after, next]
      · rw [scanEngine_device still, scanEngine_device chosen,
          ← matrixGpuScan_eq (scheduled device.launched)]

/-- Several scans of the resident column. -/
theorem executeScans_resident {launches : Launches}
    (scheduled : launches.Scheduled) {scanColId : UInt64} {q : ScanQuery}
    (resident : q.scanColumnId = 0) (count : Nat) {router : Router κ}
    (placed : (router.homeOf scanColId).isSome) :
    ∃ after, (List.replicate count q).foldlM
        (executeScan launches scanColId) router = some after ∧
      after.homeOf scanColId = router.homeOf scanColId ∧
      (after.scanEngine scanColId).scans =
        (router.scanEngine scanColId).scans + UInt64.ofNat count ∧
      (after.scanEngine scanColId).scanResultSum =
        (router.scanEngine scanColId).scanResultSum + UInt64.ofNat count *
          matrixCpuReduce scanColumn MATRIX_SCAN_COLUMN_SIZE q.scanThreshold
            q.scanAggOp := by
  induction count generalizing router with
  | zero => exact ⟨router, rfl, rfl, by simp, by simp⟩
  | succ count induction =>
      obtain ⟨middle, ran, home, counted⟩ :=
        executeScan_resident scheduled placed resident
      obtain ⟨after, later, homeLater, scans, sum⟩ :=
        induction (by rw [home]; exact placed)
      have one : UInt64.ofNat 1 = 1 := rfl
      refine ⟨after, ?_, homeLater.trans home, ?_, ?_⟩
      · rw [List.replicate_succ, List.foldlM_cons, ran]
        exact later
      · rw [scans, counted, ScanCounters.count, UInt64.ofNat_add, one]
        grind
      · rw [sum, counted, ScanCounters.count, UInt64.ofNat_add, one]
        grind

end Router

/-! ## What is sent -/

namespace ScanQuery

variable (q : ScanQuery) (threshold : UInt32) (columnId : UInt64)

theorem scanThreshold_setScanTarget :
    (q.setScanTarget threshold columnId).scanThreshold = threshold := by
  unfold scanThreshold setScanTarget
  rw [getField_putField_below (fits_target q threshold columnId) (by decide),
    getField_putField (by simp [q.whole]) (by simp), u32OfBytes_u32Bytes]

theorem scanColumnId_setScanTarget :
    (q.setScanTarget threshold columnId).scanColumnId = columnId := by
  unfold scanColumnId setScanTarget
  rw [getField_putField (fits_target q threshold columnId) (by simp),
    u64OfBytes_u64Bytes]

/-- The aggregate of the payload stays. -/
theorem scanAggOp_setScanTarget :
    (q.setScanTarget threshold columnId).scanAggOp = q.scanAggOp := by
  unfold scanAggOp setScanTarget
  rw [getField_putField_above (fits_target q threshold columnId) (by simp),
    getField_putField_above (by simp [q.whole]) (by simp)]

end ScanQuery

/-- Each scan of the workload counts the values above its threshold. -/
theorem matrixCpuReduce_workloadScan (threshold : UInt32) :
    matrixCpuReduce scanColumn MATRIX_SCAN_COLUMN_SIZE
        (workloadScan threshold).scanThreshold
        (workloadScan threshold).scanAggOp =
      UInt64.ofNat (MATRIX_SCAN_COLUMN_SIZE - 1 - threshold.toNat) := by
  have counts : (workloadScan threshold).scanAggOp = AGG_COUNT := by
    unfold workloadScan
    rw [ScanQuery.scanAggOp_setScanTarget]
    decide
  have small : MATRIX_SCAN_COLUMN_SIZE ≤ 2 ^ 32 := by decide
  rw [counts, matrixCpuReduce_count _ _ _ (by decide) (by decide) (by decide),
    workloadScan, ScanQuery.scanThreshold_setScanTarget,
    countP_scanColumn small]

theorem resident_workloadScan (threshold : UInt32) :
    (workloadScan threshold).scanColumnId = 0 :=
  ScanQuery.scanColumnId_setScanTarget _ _ _

/-- What is sent is sent to one of the two rings. -/
theorem length_points_scans (program : List Ingest) :
    (pointsOf program).length + (scansOf program).length = program.length := by
  induction program with
  | nil => rfl
  | cons next later induction =>
      cases next with
      | point q =>
          rw [pointsOf_point, scansOf_point, List.length_cons,
            List.length_cons]
          omega
      | scan q =>
          rw [pointsOf_scan, scansOf_scan, List.length_cons, List.length_cons]
          omega

section
variable (total scanEvery : Nat) (threshold : UInt32)

theorem scansOf_workload :
    scansOf (workload total scanEvery threshold) =
      List.replicate (expectedScans total scanEvery)
        (workloadScan threshold) := by
  unfold workload expectedScans
  induction List.range total with
  | nil => rfl
  | cons i later induction =>
      rw [List.map_cons, List.countP_cons]
      by_cases scans : i % scanEvery = 0
      · have here : workloadQuery scanEvery threshold i =
            .scan (workloadScan threshold) := if_pos scans
        rw [here, scansOf_scan, induction, if_pos (by simpa using scans),
          List.replicate_succ]
      · have here : workloadQuery scanEvery threshold i = .point
            { queryId := UInt64.ofNat i
              transactionId := 0
              opcode := if i % 2 = 0 then OP_READ else OP_WRITE } :=
          if_neg scans
        rw [here, scansOf_point, induction, if_neg (by simpa using scans)]
        rfl

/-- A point operation has the number of its turn as its key. -/
theorem mem_pointsOf_workload {query : DatabaseQuery}
    (member : query ∈ pointsOf (workload total scanEvery threshold)) :
    ∃ i < total, query.queryId = UInt64.ofNat i ∧
      (query.opcode = OP_READ ∨ query.opcode = OP_WRITE) := by
  obtain ⟨item, sent, point⟩ := List.mem_filterMap.mp member
  obtain ⟨i, turn, same⟩ := List.mem_map.mp sent
  refine ⟨i, List.mem_range.mp turn, ?_⟩
  unfold workloadQuery at same
  split at same
  · subst same
    cases point
  · subst same
    cases point
    refine ⟨rfl, ?_⟩
    dsimp only
    split
    · exact .inl rfl
    · exact .inr rfl

end

/-- Reads and writes are all there is. -/
theorem readCount_add_writes {queries : List DatabaseQuery}
    (both : ∀ query ∈ queries,
      query.opcode = OP_READ ∨ query.opcode = OP_WRITE) :
    readCount queries + (queryWrites queries).length = queries.length := by
  induction queries with
  | nil => rfl
  | cons query later induction =>
      have rest := induction fun other member =>
        both other (List.mem_cons_of_mem _ member)
      have split := queryWrites_append [query] later
      have counted := readCount_append [query] later
      rw [List.singleton_append] at split counted
      rw [split, counted, List.length_append, List.length_cons]
      rcases both query List.mem_cons_self with read | write
      · have noWrite : query.opcode ≠ OP_WRITE := by
          rw [read]
          decide
        rw [readCount_read read, queryWrites_other noWrite, List.length_nil]
        omega
      · have noRead : query.opcode ≠ OP_READ := by
          rw [write]
          decide
        rw [readCount_other noRead, queryWrites_write write,
          List.length_singleton]
        omega

/-! ## An engine that has been warmed up -/

/-- The keys of the store are slots, and the index is in order. -/
structure PointOps.Ready (engine : PointOps) : Prop where
  held : ∀ key value, engine.kv.get key = some value → InSlots key
  ascending : Ascending engine.keyIndex

theorem PointOps.Ready.hasRoom {engine : PointOps} (ready : engine.Ready)
    {batch : List DatabaseQuery}
    (small : ∀ query ∈ batch, InSlots query.queryId) :
    engine.HasRoom batch := by
  apply acceptsAll_in_slots _ ready.held
  intro write member
  obtain ⟨query, there, rfl⟩ := List.mem_map.mp member
  exact small query (List.mem_filter.mp there).1

theorem PointOps.Ready.executed {queries : List DatabaseQuery}
    {before after : World} (ready : before.engine.Ready)
    (small : ∀ query ∈ queries, InSlots query.queryId)
    (done : Executed queries before after) : after.engine.Ready where
  held := by
    intro key value stored
    have replayed : ((KVStore.refusing MATRIX_STORE_SLOTS).replay
        before.engine.kv (queryWrites queries)).get key =
        (lastWrite key (queryWrites queries)).or (before.engine.kv.get key) :=
      RefusingStore.AcceptsAll.get_replay _ (ready.hasRoom small) key
    rw [done.kv, replayed] at stored
    cases found : lastWrite key (queryWrites queries) with
    | none =>
        rw [found] at stored
        exact ready.held key value stored
    | some last =>
        obtain ⟨query, there, same⟩ :=
          List.mem_map.mp (mem_of_lastWrite found)
        have inside := small query (List.mem_filter.mp there).1
        cases same
        exact inside
  ascending := by
    rw [done.keyIndex]
    exact ready.ascending.insertAll _

/-- The engine of `main`, which has no log. -/
def World.booted : World where
  engine := PointOps.built none
  disk := Disk.empty
  notes := []

theorem ready_booted : World.booted.engine.Ready where
  held key value stored := ((mirrored_built none).held key value stored).1
  ascending := by
    unfold World.booted PointOps.built
    dsimp only
    exact (PointOps.mirrors_onStore .SYNC_EACH KVStore.fresh).ascending

/-- Batches of slots warm an engine up. -/
theorem runEvents_batches (asserts : Bool)
    {batches : List (List DatabaseQuery)}
    (short : ∀ batch ∈ batches, batch.length ≤ MATRIX_BATCH_MAX)
    (small : ∀ batch ∈ batches, ∀ query ∈ batch, InSlots query.queryId)
    {world : World} (ready : world.engine.Ready) :
    ∃ after, world.runEvents asserts
        (batches.map fun batch => .call (.executeBatch batch)) = some after ∧
      after.engine.Ready := by
  induction batches generalizing world with
  | nil => exact ⟨world, rfl, ready⟩
  | cons batch later induction =>
      have inside := small batch List.mem_cons_self
      obtain ⟨next, ran, done, _⟩ := run_executeBatch asserts
        (short batch List.mem_cons_self) (ready.hasRoom inside)
      have sorted : (matrixBinByPage batch).1.Perm batch := by
        rw [matrixBinByPage_fst]
        exact grouped_perm (DatabaseQuery.page_lt batch)
      have kept := ready.executed
        (fun query member => inside query (sorted.mem_iff.mp member)) done
      obtain ⟨after, ranLater, last⟩ := induction
        (fun batch member => short batch (.tail _ member))
        (fun batch member => small batch (.tail _ member)) kept
      refine ⟨after, ?_, last⟩
      rw [List.map_cons, World.runEvents, World.runEvent, ran]
      exact ranLater

theorem inSlots_ofNat {i : Nat} (small : i < MATRIX_STORE_SLOTS) :
    InSlots (UInt64.ofNat i) := by
  have wide : MATRIX_STORE_SLOTS < 2 ^ 64 := by decide
  rw [InSlots, UInt64.toNat_ofNat_of_lt' (show i < 2 ^ 64 by omega)]
  exact small

/-- `sweep_batch_sizes` runs and leaves the engine ready. -/
theorem runEvents_sweep (asserts : Bool) :
    ∃ after, World.booted.runEvents asserts
        (sweepBatchSizes.map fun batch => .call (.executeBatch batch)) =
          some after ∧ after.engine.Ready := by
  have sizes : ∀ batch ∈ sweepBatchSizes, ∃ size ≤ MATRIX_BATCH_MAX,
      size ≤ MATRIX_STORE_SLOTS ∧ batch = sweepBatch size := by
    intro batch member
    rcases List.mem_cons.mp member with rfl | member
    · exact ⟨256, by decide, by decide, rfl⟩
    · obtain ⟨bs, listed, copies⟩ := List.mem_flatMap.mp member
      have limits : ∀ bs ∈ [64, 256, 512, 1024, 2048, 4096, 8192, 16384,
          32768, 65536], bs ≤ MATRIX_BATCH_MAX ∧ bs ≤ MATRIX_STORE_SLOTS := by
        decide
      exact ⟨bs, (limits bs listed).1, (limits bs listed).2,
        List.eq_of_mem_replicate copies⟩
  apply runEvents_batches asserts _ _ ready_booted
  · intro batch member
    obtain ⟨size, short, _, rfl⟩ := sizes batch member
    rw [sweepBatch, List.length_map, List.length_range]
    exact short
  · intro batch member query inside
    obtain ⟨size, _, slots, rfl⟩ := sizes batch member
    obtain ⟨i, turn, rfl⟩ := List.mem_map.mp inside
    exact inSlots_ofNat (Nat.lt_of_lt_of_le (List.mem_range.mp turn) slots)

/-! ## The assertions -/

namespace Pipeline

variable {κ : Type} [CostArith κ]

/-- The assertions at the end of `main`; the differences are to the counters
before the pipeline. -/
structure MainAsserts (total scanEvery : Nat) (threshold : UInt32)
    (first : World) (router : Router κ) (scanColId : UInt64)
    (p : Pipeline (Router κ)) : Prop where
  processed : p.totalProcessed + p.scansProcessed = total
  dispatched : p.world.engine.reads - first.engine.reads +
      (p.world.engine.writes - first.engine.writes) +
      ((p.scanEngine.scanEngine scanColId).scans -
        (router.scanEngine scanColId).scans) =
    UInt64.ofNat (p.totalProcessed + p.scansProcessed)
  committed : p.world.engine.commits - first.engine.commits =
    p.world.engine.writes - first.engine.writes
  scans : (p.scanEngine.scanEngine scanColId).scans -
      (router.scanEngine scanColId).scans =
    UInt64.ofNat (expectedScans total scanEvery)
  scanSum : (p.scanEngine.scanEngine scanColId).scanResultSum -
      (router.scanEngine scanColId).scanResultSum =
    UInt64.ofNat (expectedScans total scanEvery) *
      UInt64.ofNat (MATRIX_SCAN_COLUMN_SIZE - 1 - threshold.toNat)

section
variable {asserts : Bool} {launches : Launches}
  (scheduled : launches.Scheduled) {total : Nat}
  (few : total ≤ MATRIX_STORE_SLOTS) (scanEvery : Nat) (threshold : UInt32)
  {first : World} (ready : first.engine.Ready) {router : Router κ}
  {scanColId : UInt64} (placed : (router.homeOf scanColId).isSome)

variable (total) in
theorem length_pointsOf_workload :
    (pointsOf (workload total scanEvery threshold)).length +
      expectedScans total scanEvery = total := by
  have both := length_points_scans (workload total scanEvery threshold)
  rw [scansOf_workload, List.length_replicate] at both
  rw [both, workload, List.length_map, List.length_range]

include few in
theorem inSlots_pointsOf_workload :
    ∀ query ∈ pointsOf (workload total scanEvery threshold),
      InSlots query.queryId := by
  intro query member
  obtain ⟨i, turn, same, _⟩ :=
    mem_pointsOf_workload total scanEvery threshold member
  rw [same]
  exact inSlots_ofNat (Nat.lt_of_lt_of_le turn few)

variable (total) in
include scheduled placed in
theorem runs_workload :
    ∃ last, (scansOf (workload total scanEvery threshold)).foldlM
        (Router.executeScan launches scanColId) router = some last ∧
      (last.scanEngine scanColId).scans = (router.scanEngine scanColId).scans +
        UInt64.ofNat (expectedScans total scanEvery) ∧
      (last.scanEngine scanColId).scanResultSum =
        (router.scanEngine scanColId).scanResultSum +
          UInt64.ofNat (expectedScans total scanEvery) *
            UInt64.ofNat (MATRIX_SCAN_COLUMN_SIZE - 1 - threshold.toNat) := by
  obtain ⟨last, ran, _, scans, sum⟩ := Router.executeScans_resident scheduled
    (resident_workloadScan threshold) (expectedScans total scanEvery) placed
  rw [matrixCpuReduce_workloadScan] at sum
  rw [scansOf_workload]
  exact ⟨last, ran, scans, sum⟩

include scheduled placed in
theorem Drained.mainAsserts {p : Pipeline (Router κ)}
    (invariant : Invariant (Router.executeScan launches scanColId)
      (workload total scanEvery threshold) first router p)
    (drained : Drained (workload total scanEvery threshold) p) :
    MainAsserts total scanEvery threshold first router scanColId p := by
  obtain ⟨points, scans, _⟩ := invariant
  have executed := points.executed
  have lengths := length_pointsOf_workload total scanEvery threshold
  have processed : p.totalProcessed =
      (pointsOf (workload total scanEvery threshold)).length := by
    rw [points.total, drained.points]
  have scanned : p.scansProcessed = expectedScans total scanEvery := by
    rw [scans.counted, drained.scans, scansOf_workload, List.length_replicate]
  have sorted : (binned p.flushed).Perm
      (pointsOf (workload total scanEvery threshold)) := by
    rw [← drained.points]
    exact perm_binned p.flushed
  have kinds := readCount_add_writes fun query member =>
    (mem_pointsOf_workload total scanEvery threshold
      (sorted.mem_iff.mp member)).choose_spec.2.2
  rw [sorted.length_eq] at kinds
  obtain ⟨last, ran, scansCount, scanSum⟩ := runs_workload scheduled total
    scanEvery threshold placed
  rw [← drained.scans, scans.executed] at ran
  cases ran
  have reads : p.world.engine.reads - first.engine.reads =
      UInt64.ofNat (readCount (binned p.flushed)) := by
    rw [executed.reads]
    grind
  have writes : p.world.engine.writes - first.engine.writes =
      UInt64.ofNat (queryWrites (binned p.flushed)).length := by
    rw [executed.writes]
    grind
  have scansDelta : (p.scanEngine.scanEngine scanColId).scans -
      (router.scanEngine scanColId).scans =
      UInt64.ofNat (expectedScans total scanEvery) := by
    rw [scansCount]
    grind
  constructor
  · rw [processed, scanned]
    exact lengths
  · rw [reads, writes, scansDelta, ← UInt64.ofNat_add, kinds,
      ← UInt64.ofNat_add, processed, scanned]
  · rw [writes, executed.commits]
    grind
  · exact scansDelta
  · rw [scanSum]
    grind

end

end Pipeline

end MatrixDB
