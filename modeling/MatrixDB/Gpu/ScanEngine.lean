import MatrixDB.Catalog.Scans
import MatrixDB.Gpu.Reductions
import MatrixDB.Gpu.ScanCoverage

/-!
# Scans of the resident column on both backends

`CUDAGPUEngine::execute_scan` reads its threshold and its aggregate from the
payload, as the host does, and launches one of four kernels; a count loads four
values at a time.  The four kernels that only count are measured against each
other by `scan_benchmark`.
-/

namespace MatrixDB

open Lib

/-! ## The kernels with a threshold -/

section
variable (grid : Grid) (data : Nat → UInt32) (n : Nat) (threshold : UInt32)

def matrixSumKernelU32 : BlockReduce UInt64 :=
  scalarKernel grid n (· + ·) 0 id 0 fun sum i =>
    if data i > threshold then sum + (data i).toUInt64 else sum

def matrixMinKernelU32 : BlockReduce UInt64 :=
  scalarKernel grid n atomicMin 0xFFFFFFFFFFFFFFFF id 0xFFFFFFFFFFFFFFFF
    fun least i =>
      if data i > threshold && (data i).toUInt64 < least then
        (data i).toUInt64
      else least

def matrixMaxKernelU32 : BlockReduce UInt64 :=
  scalarKernel grid n atomicMax 0 id 0 fun greatest i =>
    if data i > threshold && (data i).toUInt64 > greatest then
      (data i).toUInt64
    else greatest

end

/-- The kernels that count differ in the type of a value. -/
def scanKernel {V : Type} [LT V] [DecidableLT V] (grid : Grid) (data : Nat → V)
    (n : Nat) (threshold : V) : BlockReduce UInt64 :=
  scalarKernel grid n (· + ·) 0 id 0 fun count i =>
    if data i > threshold then count + 1 else count

def matrixScanKernel (grid : Grid) (data : Nat → UInt64) (n : Nat)
    (threshold : UInt64) : BlockReduce UInt64 :=
  scanKernel grid data n threshold

def matrixScanKernelU32 (grid : Grid) (data : Nat → UInt32) (n : Nat)
    (threshold : UInt32) : BlockReduce UInt64 :=
  scanKernel grid data n threshold

/-- `uint4`: what one load brings. -/
structure UInt4 where
  x : UInt32
  y : UInt32
  z : UInt32
  w : UInt32

/-- A column of values, seen as a column of `uint4`. -/
def asUInt4 (data : Nat → UInt32) (i : Nat) : UInt4 where
  x := data (4 * i)
  y := data (4 * i + 1)
  z := data (4 * i + 2)
  w := data (4 * i + 3)

/-- The sum of the four comparisons, as `int`. -/
def UInt4.above (v : UInt4) (threshold : UInt32) : Nat :=
  (decide (v.x > threshold)).toNat + (decide (v.y > threshold)).toNat +
    (decide (v.z > threshold)).toNat + (decide (v.w > threshold)).toNat

def matrixScanKernelU32x4 (grid : Grid) (data4 : Nat → UInt4) (n4 : Nat)
    (threshold : UInt32) : BlockReduce UInt64 :=
  scalarKernel grid n4 (· + ·) 0 id 0 fun count i =>
    count + UInt64.ofNat ((data4 i).above threshold)

/-! ## What they count -/

section
variable {grid : Grid} (launchable : grid.Launchable) {order : List BlockStep}
  (schedule : BlockReduce.Schedule grid.gridDim grid.blockDim order) {n : Nat}

theorem foldl_add_ofNat {T : Type} (rows : List T) (weight : T → Nat)
    (start : UInt64) :
    (rows.map fun i => UInt64.ofNat (weight i)).foldl (· + ·) start =
      start + UInt64.ofNat (rows.map weight).sum := by
  induction rows generalizing start with
  | nil => simp
  | cons i rows induction =>
      rw [List.map_cons, List.foldl_cons, induction, List.map_cons,
        List.sum_cons, UInt64.ofNat_add, UInt64.add_assoc]

include launchable schedule in
theorem scanKernel_launch {V : Type} [LT V] [DecidableLT V] (data : Nat → V)
    (threshold : V) (out : UInt64) :
    (scanKernel grid data n threshold).launch order out =
      out + UInt64.ofNat ((List.range n).countP fun i =>
        data i > threshold) := by
  have ones : (((List.range n).filter fun i => data i > threshold).map
      fun _ => UInt64.ofNat 1).foldl (· + ·) out =
      out + UInt64.ofNat ((List.range n).countP fun i =>
        data i > threshold) := by
    rw [foldl_add_ofNat _ fun _ => 1, List.countP_eq_length_filter]
    simp
  rw [← ones]
  apply scalarKernel_launch launchable schedule UInt64.add_zero
    fun i => data i > threshold
  intro rows
  simp only [id_eq, ← foldl_guarded, decide_eq_true_eq]
  rfl

theorem countP_four (p : Nat → Bool) (a b c d : Nat) :
    [a, b, c, d].countP p =
      (p a).toNat + (p b).toNat + (p c).toNat + (p d).toNat := by
  simp only [List.countP_cons, List.countP_nil]
  cases p a <;> cases p b <;> cases p c <;> cases p d <;> rfl

/-- The four comparisons of each load are all comparisons. -/
theorem sum_above (data : Nat → UInt32) (threshold : UInt32) (n4 : Nat) :
    ((List.range n4).map fun i => (asUInt4 data i).above threshold).sum =
      (List.range (4 * n4)).countP fun i => data i > threshold := by
  induction n4 with
  | zero => rfl
  | succ n4 induction =>
      have four : List.range (4 * (n4 + 1)) = List.range (4 * n4) ++
          [4 * n4, 4 * n4 + 1, 4 * n4 + 2, 4 * n4 + 3] := by
        rw [Nat.mul_add, List.range_add]
        rfl
      rw [List.range_succ, List.map_append, List.sum_append, induction, four,
        List.countP_append, countP_four, List.map_singleton,
        List.sum_singleton]
      rfl

include launchable schedule in
theorem matrixScanKernelU32x4_launch (data : Nat → UInt32)
    (threshold : UInt32) {n4 : Nat} (out : UInt64) :
    (matrixScanKernelU32x4 grid (asUInt4 data) n4 threshold).launch order out =
      out + UInt64.ofNat ((List.range (4 * n4)).countP fun i =>
        data i > threshold) := by
  have kept : (matrixScanKernelU32x4 grid (asUInt4 data) n4 threshold).launch
      order out = (((List.range n4).filter fun _ => true).map fun i =>
        UInt64.ofNat ((asUInt4 data i).above threshold)).foldl (· + ·) out := by
    apply scalarKernel_launch launchable schedule UInt64.add_zero fun _ => true
    intro rows
    rw [List.filter_true, List.foldl_map]
    rfl
  rw [kept, List.filter_true, foldl_add_ofNat, sum_above]

end

/-! ## The engines -/

/-- What both engines count for scans. -/
structure ScanCounters where
  scans : UInt64
  scanResultSum : UInt64
  deriving DecidableEq, Repr

def ScanCounters.zero : ScanCounters := { scans := 0, scanResultSum := 0 }

def ScanCounters.count (counters : ScanCounters) (c : UInt64) :
    ScanCounters where
  scans := counters.scans + 1
  scanResultSum := counters.scanResultSum + c

/-- The launch of `CUDAGPUEngine::execute_scan`. -/
def matrixGpuScan (threshold : UInt32) (op : MatrixAggOp)
    (order : List BlockStep) : UInt64 :=
  if op = AGG_SUM then
    (matrixSumKernelU32 deviceGrid scanColumn MATRIX_SCAN_COLUMN_SIZE
      threshold).launch order (cudaMemset 0x00)
  else if op = AGG_MIN then
    (matrixMinKernelU32 deviceGrid scanColumn MATRIX_SCAN_COLUMN_SIZE
      threshold).launch order (cudaMemset 0xFF)
  else if op = AGG_MAX then
    (matrixMaxKernelU32 deviceGrid scanColumn MATRIX_SCAN_COLUMN_SIZE
      threshold).launch order (cudaMemset 0x00)
  else
    (matrixScanKernelU32x4 deviceGrid (asUInt4 scanColumn)
      (MATRIX_SCAN_COLUMN_SIZE / 4) threshold).launch order (cudaMemset 0x00)

/-- `execute_scan` of the device, which does not look at the column id. -/
def ScanCounters.executeScan (counters : ScanCounters) (order : List BlockStep)
    (q : ScanQuery) : ScanQuery × ScanCounters :=
  let c := matrixGpuScan q.scanThreshold q.scanAggOp order
  ({ q with transactionId := c }, counters.count c)

/-- The part of the host's engine that scans use. -/
structure HostScans (κ : Type) where
  catalog : Catalog κ
  counters : ScanCounters

/-- `execute_scan` of the host. -/
def HostScans.executeScan {κ : Type} [CostArith κ] (engine : HostScans κ)
    (q : ScanQuery) : Option (ScanQuery × HostScans κ) :=
  (engine.catalog.executeScanQuery q).map fun (q, catalog) =>
    (q, { catalog := catalog
          counters := engine.counters.count q.transactionId })

/-- One scan after another. -/
def HostScans.executeScans {κ : Type} [CostArith κ] (engine : HostScans κ) :
    List ScanQuery → Option (List ScanQuery × HostScans κ)
  | [] => some ([], engine)
  | q :: later =>
      (engine.executeScan q).bind fun (copy, engine) =>
        (executeScans engine later).map fun (copies, engine) =>
          (copy :: copies, engine)

/-- The same on the device, each with the order of its own launch. -/
def ScanCounters.executeScans (counters : ScanCounters) :
    List (List BlockStep × ScanQuery) → List ScanQuery × ScanCounters
  | [] => ([], counters)
  | (order, q) :: later =>
      let (copy, counters) := counters.executeScan order q
      let (copies, counters) := executeScans counters later
      (copy :: copies, counters)

/-! ## They agree -/

/-- The values above a threshold, as a predicate. -/
def abovePredicate (threshold : UInt32) : MatrixPredicate where
  cmp := .GT
  a := threshold
  b := 0

theorem matrixCpuReduce_eq (d : Nat → UInt32) (n : Nat) (threshold : UInt32)
    (op : MatrixAggOp) :
    matrixCpuReduce d n threshold op =
      u32Kernel.fold op (hitsU32 d (abovePredicate threshold) n) :=
  u32Kernel.reduceRows_eq op n _ d

theorem matrixCpuReduce_count (d : Nat → UInt32) (n : Nat)
    (threshold : UInt32) {op : MatrixAggOp} (sum : op ≠ AGG_SUM)
    (least : op ≠ AGG_MIN) (greatest : op ≠ AGG_MAX) :
    matrixCpuReduce d n threshold op =
      UInt64.ofNat ((List.range n).countP fun i => d i > threshold) := by
  rw [matrixCpuReduce_eq, u32Kernel.fold_count sum least greatest, hitsU32,
    List.map_map]
  have ones := foldl_add_ofNat
    ((List.range n).filter fun i => d i > threshold) (fun _ => 1) 0
  rw [UInt64.zero_add] at ones
  refine ones.trans ?_
  rw [List.countP_eq_length_filter]
  simp

section
variable {order : List BlockStep}
  (schedule : BlockReduce.Schedule deviceGrid.gridDim deviceGrid.blockDim order)
  (d : Nat → UInt32) (n : Nat) (threshold : UInt32)

include schedule

theorem matrixSumKernelU32_launch :
    (matrixSumKernelU32 deviceGrid d n threshold).launch order 0 =
      matrixCpuReduce d n threshold AGG_SUM := by
  have above : matrixSumKernelU32 deviceGrid d n threshold =
      matrixSumKernelPredU32 deviceGrid d n (abovePredicate threshold).cmp
        (abovePredicate threshold).a (abovePredicate threshold).b := by
    simp [matrixSumKernelU32, matrixSumKernelPredU32, matrixPredMatchDev,
      predMatchDev, abovePredicate]
  rw [matrixCpuReduce_eq, above]
  exact matrixSumKernelPredU32_launch d (abovePredicate threshold) schedule

theorem matrixMinKernelU32_launch :
    (matrixMinKernelU32 deviceGrid d n threshold).launch order
        0xFFFFFFFFFFFFFFFF =
      matrixCpuReduce d n threshold AGG_MIN := by
  have above : matrixMinKernelU32 deviceGrid d n threshold =
      matrixMinKernelPredU32 deviceGrid d n (abovePredicate threshold).cmp
        (abovePredicate threshold).a (abovePredicate threshold).b := rfl
  rw [matrixCpuReduce_eq, above]
  exact matrixMinKernelPredU32_launch d (abovePredicate threshold) schedule

theorem matrixMaxKernelU32_launch :
    (matrixMaxKernelU32 deviceGrid d n threshold).launch order 0 =
      matrixCpuReduce d n threshold AGG_MAX := by
  have above : matrixMaxKernelU32 deviceGrid d n threshold =
      matrixMaxKernelPredU32 deviceGrid d n (abovePredicate threshold).cmp
        (abovePredicate threshold).a (abovePredicate threshold).b := rfl
  rw [matrixCpuReduce_eq, above]
  exact matrixMaxKernelPredU32_launch d (abovePredicate threshold) schedule

end

/-- A launch over the resident column is the host's loop over it. -/
theorem matrixGpuScan_eq {order : List BlockStep}
    (schedule : BlockReduce.Schedule deviceGrid.gridDim deviceGrid.blockDim
      order) (threshold : UInt32) (op : MatrixAggOp) :
    matrixGpuScan threshold op order =
      matrixCpuReduce scanColumn MATRIX_SCAN_COLUMN_SIZE threshold op := by
  have quads : 4 * (MATRIX_SCAN_COLUMN_SIZE / 4) = MATRIX_SCAN_COLUMN_SIZE := by
    decide
  unfold matrixGpuScan
  rw [cudaMemset_zero, cudaMemset_ones,
    matrixSumKernelU32_launch schedule, matrixMinKernelU32_launch schedule,
    matrixMaxKernelU32_launch schedule,
    matrixScanKernelU32x4_launch deviceGrid_launchable schedule, quads,
    UInt64.zero_add]
  split
  · rename_i sum
    rw [sum]
  split
  · rename_i least
    rw [least]
  split
  · rename_i greatest
    rw [greatest]
  · rename_i sum least greatest
    exact (matrixCpuReduce_count _ _ _ sum least greatest).symm

section
variable {κ : Type} [CostArith κ]

/-- A scan of the resident column. -/
theorem HostScans.executeScan_resident (engine : HostScans κ) {q : ScanQuery}
    (resident : q.scanColumnId = 0) :
    engine.executeScan q = some ({ q with
        transactionId := matrixCpuReduce scanColumn MATRIX_SCAN_COLUMN_SIZE
          q.scanThreshold q.scanAggOp },
      { engine with
        counters := engine.counters.count
          (matrixCpuReduce scanColumn MATRIX_SCAN_COLUMN_SIZE q.scanThreshold
            q.scanAggOp) }) := by
  unfold HostScans.executeScan Catalog.executeScanQuery
  rw [if_pos resident]
  rfl

/-- Any scans of the resident column, with any threshold and any aggregate,
leave the same answers and the same counters on both engines, whatever the
orders of the launches. -/
theorem scan_backends_agree (scans : List (List BlockStep × ScanQuery))
    (scheduled : ∀ scan ∈ scans, BlockReduce.Schedule deviceGrid.gridDim
      deviceGrid.blockDim scan.1)
    (resident : ∀ scan ∈ scans, scan.2.scanColumnId = 0)
    (engine : HostScans κ) :
    engine.executeScans (scans.map Prod.snd) =
      some ((engine.counters.executeScans scans).1,
        { engine with
          counters := (engine.counters.executeScans scans).2 }) := by
  induction scans generalizing engine with
  | nil => rfl
  | cons scan scans induction =>
      obtain ⟨order, q⟩ := scan
      have launched := matrixGpuScan_eq
        (scheduled (order, q) List.mem_cons_self) q.scanThreshold q.scanAggOp
      have later := induction
        (fun scan member => scheduled scan (List.mem_cons_of_mem _ member))
        (fun scan member => resident scan (List.mem_cons_of_mem _ member))
        { engine with
          counters := engine.counters.count
            (matrixGpuScan q.scanThreshold q.scanAggOp order) }
      rw [List.map_cons, HostScans.executeScans,
        engine.executeScan_resident (resident (order, q) List.mem_cons_self),
        ← launched, Option.bind_some]
      dsimp only
      rw [later]
      rfl

end

/-- A sum and then a count of the values above eight. -/
theorem scan_backends_agree_twice :
    ∃ copies engine, HostScans.executeScans
        { catalog := (Catalog.fresh 0 : Catalog ℚ), counters := .zero }
        [Analytics.blankScan.prepared 8 0 AGG_SUM,
          Analytics.blankScan.prepared 8 0 AGG_COUNT] =
        some (copies, engine) ∧
      copies = (ScanCounters.zero.executeScans
        [(BlockReduce.sequential 1024 255,
            Analytics.blankScan.prepared 8 0 AGG_SUM),
          (BlockReduce.sequential 1024 255,
            Analytics.blankScan.prepared 8 0 AGG_COUNT)]).1 := by
  refine ⟨_, _, scan_backends_agree
    [(BlockReduce.sequential 1024 255,
        Analytics.blankScan.prepared 8 0 AGG_SUM),
      (BlockReduce.sequential 1024 255,
        Analytics.blankScan.prepared 8 0 AGG_COUNT)]
    ?_ ?_ _, rfl⟩
  · simp only [List.forall_mem_cons]
    have schedule : BlockReduce.Schedule deviceGrid.gridDim deviceGrid.blockDim
        (BlockReduce.sequential 1024 255) :=
      BlockReduce.schedule_sequential 1024 255
    exact ⟨schedule, schedule, nofun⟩
  · exact List.forall_mem_cons.mpr
      ⟨ScanQuery.scanColumnId_prepared _ _ _ _,
        List.forall_mem_singleton.mpr
          (ScanQuery.scanColumnId_prepared _ _ _ _)⟩

/-! ## The kernels that count -/

/-- The values of the resident column above a threshold. -/
theorem countP_scanColumn {n : Nat} (small : n ≤ 2 ^ 32) (threshold : UInt32) :
    ((List.range n).countP fun i => scanColumn i > threshold) =
      n - 1 - threshold.toNat := by
  induction n with
  | zero => simp
  | succ n induction =>
      have number : (scanColumn n).toNat = n := by
        rw [scanColumn, UInt32.toNat_ofNat']
        exact Nat.mod_eq_of_lt small
      rw [List.range_succ, List.countP_append, induction (by omega),
        List.countP_singleton]
      simp only [gt_iff_lt, UInt32.lt_iff_toNat_lt, number, decide_eq_true_eq]
      split
      · omega
      · omega

end MatrixDB
