import MatrixDB.Gpu.Kernels

/-!
# The scan with several items per thread (`compute_cuda.cuh`)

In each round a thread takes `ITEMS` indices, a grid stride apart, loads them
all and then compares them.  The last round is cut off by a guard.
-/

namespace MatrixDB

open Lib

/-- `idx`: the index of the item `k`. -/
def scanIndex (baseStride base k : Nat) : Nat := base + k * baseStride

/-- The registers of a round. -/
def loadItems (items : Nat) (data : Nat → UInt32) (n baseStride base : Nat) :
    List UInt32 :=
  (List.range items).map fun k =>
    let idx := scanIndex baseStride base k
    if idx < n then data idx else 0

/-- The registers of a round are compared where the index is in range. -/
def compareItems (n : Nat) (threshold : UInt32) (baseStride base : Nat)
    (reg : List UInt32) (count : UInt64) : UInt64 :=
  reg.zipIdx.foldl
    (fun count item =>
      if scanIndex baseStride base item.2 < n then
        count + if item.1 > threshold then 1 else 0
      else count)
    count

/-- The values of `base` in the loop of a thread. -/
def scanBases (items : Nat) (grid : Grid) (n : Nat) (thread : Nat × Nat) :
    List Nat :=
  strideLoop n (grid.stride * items) (globalId grid.blockDim thread)

def matrixScanKernelIpt (items : Nat) (grid : Grid) (data : Nat → UInt32)
    (n : Nat) (threshold : UInt32) : BlockReduce UInt64 where
  atomic := (· + ·)
  init := 0
  gather block thread :=
    (scanBases items grid n (block, thread)).foldl
      (fun count base =>
        compareItems n threshold grid.stride base
          (loadItems items data n grid.stride base) count)
      0

/-! ## The indices of a thread -/

/-- The indices of a round that pass the guard. -/
def guardedIndices (items n baseStride base : Nat) : List Nat :=
  ((List.range items).map (scanIndex baseStride base)).filter (· < n)

/-- The guarded indices of a thread. -/
def scanVisits (items : Nat) (grid : Grid) (n : Nat) (thread : Nat × Nat) :
    List Nat :=
  (scanBases items grid n thread).flatMap
    (guardedIndices items n grid.stride)

/-- A thread visits what it would visit with one item a round. -/
theorem scanVisits_eq {grid : Grid} (launchable : grid.Launchable)
    {items : Nat} (some : 0 < items) (n : Nat) (thread : Nat × Nat) :
    scanVisits items grid n thread = grid.rows n thread := by
  have positive : 0 < grid.stride :=
    Nat.mul_pos launchable.blocks launchable.threads
  exact strideLoop_chunks positive some _

theorem scanVisits_perm {grid : Grid} (launchable : grid.Launchable)
    {items : Nat} (some : 0 < items) (n : Nat) :
    (grid.threads.flatMap (scanVisits items grid n)).Perm (List.range n) := by
  have same : scanVisits items grid n = grid.rows n :=
    funext (scanVisits_eq launchable some n)
  rw [same]
  exact Grid.rows_perm launchable n

/-! ## The count of a thread -/

section
variable (data : Nat → UInt32) (n : Nat) (threshold : UInt32)

/-- One index counted. -/
def countAbove (count : UInt64) (i : Nat) : UInt64 :=
  if data i > threshold then count + 1 else count

theorem zipIdx_loadItems (items baseStride base : Nat) :
    (loadItems items data n baseStride base).zipIdx =
      (List.range items).map fun k =>
        (if scanIndex baseStride base k < n then
          data (scanIndex baseStride base k)
        else 0, k) := by
  unfold loadItems
  induction items with
  | zero => rfl
  | succ items induction =>
      rw [List.range_succ, List.map_append, List.zipIdx_append, induction]
      simp

/-- A round counts the indices that pass the guard. -/
theorem compareItems_loadItems (items baseStride base : Nat)
    (count : UInt64) :
    compareItems n threshold baseStride base
        (loadItems items data n baseStride base) count =
      (guardedIndices items n baseStride base).foldl
        (countAbove data threshold) count := by
  rw [compareItems, zipIdx_loadItems, guardedIndices, List.foldl_map,
    List.foldl_filter, List.foldl_map]
  congr 1
  funext count k
  by_cases inside : scanIndex baseStride base k < n
  · simp only [inside, if_true, decide_true, countAbove]
    split <;> simp
  · simp only [inside, if_false, decide_false, Bool.false_eq_true]

theorem gather_matrixScanKernelIpt (items : Nat) (grid : Grid)
    (block thread : Nat) :
    (matrixScanKernelIpt items grid data n threshold).gather block thread =
      (scanVisits items grid n (block, thread)).foldl
        (countAbove data threshold) 0 := by
  simp only [matrixScanKernelIpt, compareItems_loadItems]
  rw [scanVisits, List.foldl_flatMap]

end

/-! ## The count of a launch -/

/-- A count is a sum of ones. -/
theorem foldl_countAbove (data : Nat → UInt32) (threshold : UInt32)
    (rows : List Nat) (count : UInt64) :
    rows.foldl (countAbove data threshold) count =
      count + UInt64.ofNat (rows.countP fun i => data i > threshold) := by
  induction rows generalizing count with
  | nil => simp
  | cons i rows induction =>
      rw [List.foldl_cons, induction, List.countP_cons]
      by_cases above : data i > threshold
      · simp only [countAbove, above, if_true, decide_true]
        rw [UInt64.add_assoc, Nat.add_comm, UInt64.ofNat_add]
        rfl
      · simp only [countAbove, above, if_false, decide_false,
          Bool.false_eq_true, Nat.add_zero]

theorem launch_matrixScanKernelIpt {items : Nat} (some : 0 < items)
    {grid : Grid} (launchable : grid.Launchable) {order : List BlockStep}
    (schedule : BlockReduce.Schedule grid.gridDim grid.blockDim order)
    (data : Nat → UInt32) (n : Nat) (threshold : UInt32) (out : UInt64) :
    (matrixScanKernelIpt items grid data n threshold).launch order out =
      out + UInt64.ofNat
        ((List.range n).countP fun i => data i > threshold) := by
  have launched := @BlockReduce.launch_eq UInt64
    (matrixScanKernelIpt items grid data n threshold)
    ⟨UInt64.add_assoc⟩ ⟨UInt64.add_comm⟩ _ _ _ schedule UInt64.add_zero
    launchable.threads out
  have counted : ∀ (threads : List (Nat × Nat)) (out : UInt64),
      (threads.map fun thread =>
        (matrixScanKernelIpt items grid data n threshold).gather thread.1
          thread.2).foldl (· + ·) out =
      out + UInt64.ofNat ((threads.flatMap (scanVisits items grid n)).countP
        fun i => data i > threshold) := by
    intro threads
    induction threads with
    | nil => simp
    | cons thread threads induction =>
        intro out
        rw [List.map_cons, List.foldl_cons, induction, List.flatMap_cons,
          List.countP_append, gather_matrixScanKernelIpt, foldl_countAbove,
          UInt64.zero_add, UInt64.ofNat_add, UInt64.add_assoc]
  have visits := scanVisits_perm launchable some n
  rw [launched]
  exact (counted _ out).trans (by rw [← visits.countP_eq]; rfl)

/-- Over all threads of a launch each index is visited once, and under every
schedule the cell that was set to zero holds the number of those above the
threshold. -/
theorem scan_visits_once {items : Nat} (some : 0 < items) {grid : Grid}
    (launchable : grid.Launchable) {n : Nat} (addressable : n < 2 ^ 64) :
    (grid.threads.flatMap (scanVisits items grid n)).Perm (List.range n) ∧
      ∀ (data : Nat → UInt32) (threshold : UInt32) (order : List BlockStep),
        BlockReduce.Schedule grid.gridDim grid.blockDim order →
        ((matrixScanKernelIpt items grid data n threshold).launch order
            (cudaMemset 0x00)).toNat =
          (List.range n).countP fun i => data i > threshold := by
  constructor
  · exact scanVisits_perm launchable some n
  · intro data threshold order schedule
    have zero : cudaMemset 0x00 = 0 := by decide
    have bound : (List.range n).countP (fun i => data i > threshold) ≤ n := by
      simpa using List.countP_le_length (l := List.range n)
    rw [zero, launch_matrixScanKernelIpt some launchable schedule,
      UInt64.zero_add]
    exact UInt64.toNat_ofNat_of_lt' (show _ < 2 ^ 64 by omega)

/-- Two blocks of two threads with three items each, over five elements. -/
theorem scan_visits_five :
    ((matrixScanKernelIpt 3 { gridDim := 2, blockDim := 2 }
        (fun i => UInt32.ofNat (i * i)) 5 3).launch
        (BlockReduce.sequential 2 1) (cudaMemset 0x00)).toNat = 3 := by
  have launchable : Grid.Launchable { gridDim := 2, blockDim := 2 } := by
    constructor <;> decide
  have visited := scan_visits_once (show 0 < 3 by decide) launchable
    (show 5 < 2 ^ 64 by decide)
  rw [visited.2 _ _ _ (BlockReduce.schedule_sequential 2 1)]
  decide

end MatrixDB
