import MatrixDB.Compute.Typed
import MatrixDB.Lib.BlockReduce

/-!
# Kernels (`compute_cuda.cuh`)

A launch runs every thread of a grid to its end.  The scalar kernels gather in
each thread, then in each block and then in one cell; the grouped kernels update
one of many cells for every row.  The order of the atomic updates is an argument
of a launch.
-/

namespace MatrixDB

open Lib

/-! ## Predicates, atomics and cells -/

section
variable {V : Type} [LT V] [DecidableLT V] [LE V] [DecidableLE V] [BEq V]

def predMatchDev (v : V) (c : MatrixCmp) (a b : V) : Bool :=
  match c with
  | .GE => v ≥ a
  | .LT => v < a
  | .LE => v ≤ a
  | .EQ => v == a
  | .NE => v != a
  | .BETWEEN => v ≥ a && v ≤ b
  | .GT => v > a

/-- The device's predicate is the host's. -/
theorem predMatchDev_eq (v : V) (p : Predicate V) :
    predMatchDev v p.cmp p.a p.b = predMatch v p := by
  obtain ⟨cmp, a, b⟩ := p
  cases cmp <;> rfl

end

def matrixPredMatchDev (v : UInt32) (c : MatrixCmp) (a b : UInt32) : Bool :=
  predMatchDev v c a b

def matrixPredMatchI64Dev (v : Int64) (c : MatrixCmp) (a b : Int64) : Bool :=
  predMatchDev v c a b

section
variable {A : Type} [LT A] [DecidableLT A]

def atomicMin (old val : A) : A := if val < old then val else old

def atomicMax (old val : A) : A := if val > old then val else old

end

/-- A cell of eight bytes after `cudaMemset`. -/
def cudaMemset (byte : UInt8) : UInt64 := u64OfBytes (List.replicate 8 byte)

/-! ## Grids -/

/-- `gridDim.x` and `blockDim.x` of a launch. -/
structure Grid where
  gridDim : Nat
  blockDim : Nat
  deriving DecidableEq, Repr

namespace Grid

def threads (grid : Grid) : List (Nat × Nat) :=
  gridThreads grid.gridDim grid.blockDim

def stride (grid : Grid) : Nat := grid.gridDim * grid.blockDim

/-- The rows of a thread's grid-stride loop. -/
def rows (grid : Grid) (n : Nat) (thread : Nat × Nat) : List Nat :=
  strideLoop n grid.stride (globalId grid.blockDim thread)

/-- Both sizes are positive, as a launch requires. -/
structure Launchable (grid : Grid) : Prop where
  blocks : 0 < grid.gridDim
  threads : 0 < grid.blockDim

/-- Every row is some thread's, and one thread's only. -/
theorem rows_perm {grid : Grid} (launchable : grid.Launchable) (n : Nat) :
    (grid.threads.flatMap (grid.rows n)).Perm (List.range n) :=
  gridLoop_perm launchable.blocks launchable.threads

end Grid

/-! ## Scalar kernels -/

/-- The shape of a scalar kernel: `start` and `step` are those of the thread's
own variable, which becomes a value of the block's cell at the end. -/
def scalarKernel {A L : Type} (grid : Grid) (n : Nat) (atomic : A → A → A)
    (blk : A) (widen : L → A) (start : L) (step : L → Nat → L) :
    BlockReduce A where
  atomic := atomic
  init := blk
  gather block thread :=
    widen ((grid.rows n (block, thread)).foldl step start)

section
variable (grid : Grid) (data : Nat → UInt32) (n : Nat) (c : MatrixCmp)
  (a b : UInt32)

def matrixCountKernelPredU32 : BlockReduce UInt64 :=
  scalarKernel grid n (· + ·) 0 id 0 fun count i =>
    if matrixPredMatchDev (data i) c a b then count + 1 else count

def matrixSumKernelPredU32 : BlockReduce UInt64 :=
  scalarKernel grid n (· + ·) 0 id 0 fun sum i =>
    if matrixPredMatchDev (data i) c a b then sum + (data i).toUInt64 else sum

def matrixMinKernelPredU32 : BlockReduce UInt64 :=
  scalarKernel grid n atomicMin 0xFFFFFFFFFFFFFFFF id 0xFFFFFFFFFFFFFFFF
    fun least i =>
      if matrixPredMatchDev (data i) c a b && (data i).toUInt64 < least then
        (data i).toUInt64
      else least

def matrixMaxKernelPredU32 : BlockReduce UInt64 :=
  scalarKernel grid n atomicMax 0 id 0 fun greatest i =>
    if matrixPredMatchDev (data i) c a b && (data i).toUInt64 > greatest then
      (data i).toUInt64
    else greatest

end

section
variable (grid : Grid) (d : Nat → Int64) (n : Nat) (c : MatrixCmp)
  (a b : Int64)

def matrixCountKernelPredI64 : BlockReduce UInt64 :=
  scalarKernel grid n (· + ·) 0 id 0 fun count i =>
    if matrixPredMatchI64Dev (d i) c a b then count + 1 else count

/-- The sum of a thread is signed, that of a block is not. -/
def matrixSumKernelPredI64 : BlockReduce UInt64 :=
  scalarKernel grid n (· + ·) 0 Int64.toUInt64 0 fun sum i =>
    if matrixPredMatchI64Dev (d i) c a b then sum + d i else sum

def matrixMinKernelPredI64 : BlockReduce Int64 :=
  scalarKernel grid n atomicMin Int64.maxValue id Int64.maxValue fun least i =>
    if matrixPredMatchI64Dev (d i) c a b && d i < least then d i else least

def matrixMaxKernelPredI64 : BlockReduce Int64 :=
  scalarKernel grid n atomicMax Int64.minValue id Int64.minValue
    fun greatest i =>
      if matrixPredMatchI64Dev (d i) c a b && d i > greatest then d i
      else greatest

end

/-- `BLOCKS` and `TPB` of the host functions. -/
def deviceGrid : Grid := { gridDim := 1024, blockDim := 256 }

/-- What is launched for an unfiltered reduction: `GE` of the least value. -/
def devPredicate {V : Type} (pred : Predicate V) (least zero : V)
    (hasFilter : Bool) : Predicate V :=
  { cmp := if hasFilter then pred.cmp else .GE
    a := if hasFilter then pred.a else least
    b := if hasFilter then pred.b else zero }

def matrixGpuReduceDevU32 (d : Nat → UInt32) (n : Nat) (pred : MatrixPredicate)
    (op : MatrixAggOp) (hasFilter : Bool) (order : List BlockStep) : UInt64 :=
  let p := devPredicate pred 0 0 hasFilter
  if op = AGG_SUM then
    (matrixSumKernelPredU32 deviceGrid d n p.cmp p.a p.b).launch order
      (cudaMemset 0x00)
  else if op = AGG_MIN then
    (matrixMinKernelPredU32 deviceGrid d n p.cmp p.a p.b).launch order
      (cudaMemset 0xFF)
  else if op = AGG_MAX then
    (matrixMaxKernelPredU32 deviceGrid d n p.cmp p.a p.b).launch order
      (cudaMemset 0x00)
  else
    (matrixCountKernelPredU32 deviceGrid d n p.cmp p.a p.b).launch order
      (cudaMemset 0x00)

/-- `init` of the `int64` host functions. -/
def devInitI64 (op : MatrixAggOp) : Int64 :=
  if op = AGG_MIN then Int64.maxValue
  else if op = AGG_MAX then Int64.minValue
  else 0

def matrixGpuReduceDevI64 (d : Nat → Int64) (n : Nat)
    (pred : MatrixPredicateI64) (op : MatrixAggOp) (hasFilter : Bool)
    (order : List BlockStep) : Int64 :=
  let p := devPredicate pred Int64.minValue 0 hasFilter
  if op = AGG_SUM then
    ((matrixSumKernelPredI64 deviceGrid d n p.cmp p.a p.b).launch order
      (devInitI64 op).toUInt64).toInt64
  else if op = AGG_MIN then
    (matrixMinKernelPredI64 deviceGrid d n p.cmp p.a p.b).launch order
      (devInitI64 op)
  else if op = AGG_MAX then
    (matrixMaxKernelPredI64 deviceGrid d n p.cmp p.a p.b).launch order
      (devInitI64 op)
  else
    ((matrixCountKernelPredI64 deviceGrid d n p.cmp p.a p.b).launch order
      (devInitI64 op).toUInt64).toInt64

/-! ## Grouped kernels -/

/-- The shape of a grouped kernel: every row that counts updates the cell of
its key. -/
structure GroupKernel (A : Type) where
  atomic : A → A → A
  updates : Nat → Bool
  cell : Nat → Nat
  value : Nat → A

/-- The cells after a launch that takes the rows in some order. -/
def GroupKernel.launch {A : Type} (K : GroupKernel A) (order : List Nat)
    (out : List A) : List A :=
  order.foldl
    (fun out i =>
      if K.updates i then
        out.modify (K.cell i) fun old => K.atomic old (K.value i)
      else out)
    out

/-- An order in which the threads of a grid take their rows. -/
def RowSchedule (grid : Grid) (n : Nat) (order : List Nat) : Prop :=
  Interleaves (grid.threads.map (grid.rows n)) order

def groupKernel {A : Type} (atomic : A → A → A) (keys : Nat → UInt32)
    (numGroups : UInt32) (keep : Nat → Bool) (value : Nat → A) :
    GroupKernel A where
  atomic := atomic
  updates i := keys i < numGroups && keep i
  cell i := (keys i).toNat
  value := value

section
variable (keys vals : Nat → UInt32) (numGroups : UInt32)

def matrixGroupCountKernel : GroupKernel UInt64 :=
  groupKernel (· + ·) keys numGroups (fun _ => true) fun _ => 1

def matrixGroupSumKernel : GroupKernel UInt64 :=
  groupKernel (· + ·) keys numGroups (fun _ => true) fun i => (vals i).toUInt64

def matrixGroupMinKernel : GroupKernel UInt64 :=
  groupKernel atomicMin keys numGroups (fun _ => true)
    fun i => (vals i).toUInt64

def matrixGroupMaxKernel : GroupKernel UInt64 :=
  groupKernel atomicMax keys numGroups (fun _ => true)
    fun i => (vals i).toUInt64

variable (c : MatrixCmp) (a b : UInt32)

def matrixGroupCountKernelPred : GroupKernel UInt64 :=
  groupKernel (· + ·) keys numGroups
    (fun i => matrixPredMatchDev (vals i) c a b) fun _ => 1

def matrixGroupSumKernelPred : GroupKernel UInt64 :=
  groupKernel (· + ·) keys numGroups
    (fun i => matrixPredMatchDev (vals i) c a b) fun i => (vals i).toUInt64

def matrixGroupMinKernelPred : GroupKernel UInt64 :=
  groupKernel atomicMin keys numGroups
    (fun i => matrixPredMatchDev (vals i) c a b) fun i => (vals i).toUInt64

def matrixGroupMaxKernelPred : GroupKernel UInt64 :=
  groupKernel atomicMax keys numGroups
    (fun i => matrixPredMatchDev (vals i) c a b) fun i => (vals i).toUInt64

end

section
variable (keys : Nat → UInt32) (vals : Nat → Int64) (numGroups : UInt32)
  (c : MatrixCmp) (a b : Int64)

def matrixGroupCountKernelI64 : GroupKernel UInt64 :=
  groupKernel (· + ·) keys numGroups
    (fun i => matrixPredMatchI64Dev (vals i) c a b) fun _ => 1

def matrixGroupSumKernelI64 : GroupKernel UInt64 :=
  groupKernel (· + ·) keys numGroups
    (fun i => matrixPredMatchI64Dev (vals i) c a b) fun i => (vals i).toUInt64

def matrixGroupMinKernelI64 : GroupKernel Int64 :=
  groupKernel atomicMin keys numGroups
    (fun i => matrixPredMatchI64Dev (vals i) c a b) vals

def matrixGroupMaxKernelI64 : GroupKernel Int64 :=
  groupKernel atomicMax keys numGroups
    (fun i => matrixPredMatchI64Dev (vals i) c a b) vals

end

/-- What is copied to `out_host`. -/
def matrixGpuGroupReduceDev (dk dv : Nat → UInt32) (numGroups : UInt32)
    (op : MatrixAggOp) (pred : MatrixPredicate) (hasFilter : Bool)
    (order : List Nat) : List UInt64 :=
  let out := List.replicate numGroups.toNat
    (cudaMemset (if op = AGG_MIN then 0xFF else 0x00))
  let (c, a, b) := (pred.cmp, pred.a, pred.b)
  if hasFilter then
    if op = AGG_SUM then
      (matrixGroupSumKernelPred dk dv numGroups c a b).launch order out
    else if op = AGG_MIN then
      (matrixGroupMinKernelPred dk dv numGroups c a b).launch order out
    else if op = AGG_MAX then
      (matrixGroupMaxKernelPred dk dv numGroups c a b).launch order out
    else (matrixGroupCountKernelPred dk dv numGroups c a b).launch order out
  else
    if op = AGG_SUM then
      (matrixGroupSumKernel dk dv numGroups).launch order out
    else if op = AGG_MIN then
      (matrixGroupMinKernel dk dv numGroups).launch order out
    else if op = AGG_MAX then
      (matrixGroupMaxKernel dk dv numGroups).launch order out
    else (matrixGroupCountKernel dk numGroups).launch order out

/-- Sums and counts are taken in unsigned cells; all cells are copied as
bits. -/
def matrixGpuGroupReduceDevI64 (dk : Nat → UInt32) (dv : Nat → Int64)
    (numGroups : UInt32) (op : MatrixAggOp) (pred : MatrixPredicateI64)
    (hasFilter : Bool) (order : List Nat) : List UInt64 :=
  let init := List.replicate numGroups.toNat (devInitI64 op)
  let p := devPredicate pred Int64.minValue 0 hasFilter
  if op = AGG_SUM then
    (matrixGroupSumKernelI64 dk dv numGroups p.cmp p.a p.b).launch order
      (init.map Int64.toUInt64)
  else if op = AGG_MIN then
    ((matrixGroupMinKernelI64 dk dv numGroups p.cmp p.a p.b).launch order
      init).map Int64.toUInt64
  else if op = AGG_MAX then
    ((matrixGroupMaxKernelI64 dk dv numGroups p.cmp p.a p.b).launch order
      init).map Int64.toUInt64
  else
    (matrixGroupCountKernelI64 dk dv numGroups p.cmp p.a p.b).launch order
      (init.map Int64.toUInt64)

end MatrixDB
