import MatrixDB.Compute.Integers
import MatrixDB.Gpu.Kernels

/-!
# Reductions on the device

Whatever the order of the atomic updates, a kernel computes the aggregate that
the host's loop computes over the same rows.  A query on a column in VRAM has
therefore the answer it has in memory.
-/

namespace MatrixDB

open Lib

/-! ## Atomics -/

theorem atomicMin_eq_of_linear {A : Type} [LT A] [DecidableLT A]
    {val : A → Int} (order : ∀ a b : A, a < b ↔ val a < val b) (x y : A) :
    val (atomicMin x y) = min (val x) (val y) := by
  unfold atomicMin
  split
  · rename_i less
    have lower := (order y x).mp less
    omega
  · rename_i no
    have upper := mt (order y x).mpr no
    omega

theorem atomicMax_eq_of_linear {A : Type} [LT A] [DecidableLT A]
    {val : A → Int} (order : ∀ a b : A, a < b ↔ val a < val b) (x y : A) :
    val (atomicMax x y) = max (val x) (val y) := by
  unfold atomicMax
  split
  · rename_i greater
    have upper := (order x y).mp greater
    omega
  · rename_i no
    have lower := mt (order x y).mpr no
    omega

/-- A value is known by its place in the order. -/
structure Ordered {A : Type} [LT A] (val : A → Int) : Prop where
  lt : ∀ a b : A, a < b ↔ val a < val b
  inj : ∀ a b : A, val a = val b → a = b

theorem ordered_u64 : Ordered fun a : UInt64 => (a.toNat : Int) := by
  constructor
  · intro a b
    rw [UInt64.lt_iff_toNat_lt]
    omega
  · intro a b same
    exact UInt64.toNat_inj.mp (by omega)

theorem ordered_i64 : Ordered Int64.toInt := by
  constructor
  · intro a b
    exact Int64.lt_iff_toInt_lt
  · intro a b same
    exact Int64.toInt_inj.mp same

section
variable {A : Type} [LT A] [DecidableLT A] {val : A → Int}

theorem atomicMin_assoc (ordered : Ordered val) :
    Std.Associative (atomicMin : A → A → A) := by
  constructor
  intro x y z
  apply ordered.inj
  simp only [atomicMin_eq_of_linear ordered.lt]
  omega

theorem atomicMin_comm (ordered : Ordered val) :
    Std.Commutative (atomicMin : A → A → A) := by
  constructor
  intro x y
  apply ordered.inj
  simp only [atomicMin_eq_of_linear ordered.lt]
  omega

theorem atomicMax_assoc (ordered : Ordered val) :
    Std.Associative (atomicMax : A → A → A) := by
  constructor
  intro x y z
  apply ordered.inj
  simp only [atomicMax_eq_of_linear ordered.lt]
  omega

theorem atomicMax_comm (ordered : Ordered val) :
    Std.Commutative (atomicMax : A → A → A) := by
  constructor
  intro x y
  apply ordered.inj
  simp only [atomicMax_eq_of_linear ordered.lt]
  omega

end

instance : Std.Associative (atomicMin : UInt64 → UInt64 → UInt64) :=
  atomicMin_assoc ordered_u64

instance : Std.Commutative (atomicMin : UInt64 → UInt64 → UInt64) :=
  atomicMin_comm ordered_u64

instance : Std.Associative (atomicMax : UInt64 → UInt64 → UInt64) :=
  atomicMax_assoc ordered_u64

instance : Std.Commutative (atomicMax : UInt64 → UInt64 → UInt64) :=
  atomicMax_comm ordered_u64

instance : Std.Associative (atomicMin : Int64 → Int64 → Int64) :=
  atomicMin_assoc ordered_i64

instance : Std.Commutative (atomicMin : Int64 → Int64 → Int64) :=
  atomicMin_comm ordered_i64

instance : Std.Associative (atomicMax : Int64 → Int64 → Int64) :=
  atomicMax_assoc ordered_i64

instance : Std.Commutative (atomicMax : Int64 → Int64 → Int64) :=
  atomicMax_comm ordered_i64

/-! ## A scalar launch -/

/-- A launch adds the weights of the rows that count to the cell. -/
theorem scalarKernel_launch {A L : Type} {grid : Grid}
    (launchable : grid.Launchable) {order : List BlockStep}
    (schedule : BlockReduce.Schedule grid.gridDim grid.blockDim order)
    {n : Nat} {atomic : A → A → A} [assoc : Std.Associative atomic]
    [comm : Std.Commutative atomic] {blk : A} (unit : ∀ x, atomic x blk = x)
    {widen : L → A} {start : L} {step : L → Nat → L} (keep : Nat → Bool)
    (weight : Nat → A)
    (gathers : ∀ rows : List Nat, widen (rows.foldl step start) =
      ((rows.filter keep).map weight).foldl atomic blk) (out : A) :
    (scalarKernel grid n atomic blk widen start step).launch order out =
      (((List.range n).filter keep).map weight).foldl atomic out := by
  have launched := @BlockReduce.launch_eq A
    (scalarKernel grid n atomic blk widen start step) assoc comm _ _ _ schedule
    unit launchable.threads out
  have shares : (gridThreads grid.gridDim grid.blockDim).map (fun thread =>
      (scalarKernel grid n atomic blk widen start step).gather thread.1
        thread.2) =
      grid.threads.map fun thread =>
        (((grid.rows n thread).filter keep).map weight).foldl atomic blk :=
    List.map_congr_left fun thread _ => gathers _
  rw [launched, shares]
  have flat := foldl_totals unit grid.threads
    (fun thread => ((grid.rows n thread).filter keep).map weight) out
  have rows := (((Grid.rows_perm launchable n).filter keep).map weight)
  rw [List.filter_flatMap, List.map_flatMap] at rows
  exact flat.trans rows.foldl_op_eq

/-- A guarded step of a least or greatest value is a guarded atomic. -/
theorem guarded_min {A : Type} [LT A] [DecidableLT A] (hit : Bool)
    (least v : A) :
    (if hit && v < least then v else least) =
      if hit then atomicMin least v else least := by
  cases hit <;> simp [atomicMin]

theorem guarded_max {A : Type} [LT A] [DecidableLT A] (hit : Bool)
    (greatest v : A) :
    (if hit && v > greatest then v else greatest) =
      if hit then atomicMax greatest v else greatest := by
  cases hit <;> simp [atomicMax]

theorem foldl_guarded {A : Type} (rows : List Nat) (keep : Nat → Bool)
    (op : A → A → A) (weight : Nat → A) (start : A) :
    rows.foldl (fun acc i => if keep i then op acc (weight i) else acc) start =
      ((rows.filter keep).map weight).foldl op start := by
  rw [List.foldl_map, List.foldl_filter]

/-! ## The host's loops over the same atomics -/

namespace AggKernel

variable {V A : Type} (K : AggKernel V A)

theorem fold_sum (values : List V) :
    K.fold AGG_SUM values = (values.map K.widen).foldl K.add K.zero := by
  rw [List.foldl_map]
  rfl

theorem fold_count {op : MatrixAggOp} (sum : op ≠ AGG_SUM) (least : op ≠ AGG_MIN)
    (greatest : op ≠ AGG_MAX) (values : List V) :
    K.fold op values = (values.map fun _ => K.one).foldl K.add K.zero := by
  have step : K.groupStep op = fun c _ => K.add c K.one := by
    funext c v
    simp only [groupStep, sum, least, greatest, if_false]
  rw [List.foldl_map, fold, step]
  simp only [groupInit, least, greatest, if_false]

theorem fold_min [LT A] [DecidableLT A]
    (below : ∀ v m, K.below v m = decide (K.widen v < m)) (values : List V) :
    K.fold AGG_MIN values =
      (values.map K.widen).foldl atomicMin K.minInit := by
  rw [List.foldl_map]
  have step : K.groupStep AGG_MIN = fun m v => atomicMin m (K.widen v) := by
    funext m v
    have other : ¬ AGG_MIN = AGG_SUM := by decide
    simp [groupStep, other, below, atomicMin]
  rw [fold, step]
  rfl

theorem fold_max [LT A] [DecidableLT A]
    (above : ∀ v m, K.above v m = decide (K.widen v > m)) (values : List V) :
    K.fold AGG_MAX values =
      (values.map K.widen).foldl atomicMax K.maxInit := by
  rw [List.foldl_map]
  have step : K.groupStep AGG_MAX = fun m v => atomicMax m (K.widen v) := by
    funext m v
    have other : ¬ AGG_MAX = AGG_SUM := by decide
    have neither : ¬ AGG_MAX = AGG_MIN := by decide
    simp [groupStep, other, neither, above, atomicMax]
  rw [fold, step]
  rfl

end AggKernel

/-! ## `uint32` -/

theorem cudaMemset_zero : cudaMemset 0x00 = 0 := by decide

theorem cudaMemset_ones : cudaMemset 0xFF = 0xFFFFFFFFFFFFFFFF := by decide

section
variable {order : List BlockStep} {n : Nat} (d : Nat → UInt32)
  (p : MatrixPredicate)
  (schedule : BlockReduce.Schedule deviceGrid.gridDim deviceGrid.blockDim order)

theorem deviceGrid_launchable : deviceGrid.Launchable := by
  constructor <;> decide

theorem matrixPredMatchDev_eq (v : UInt32) :
    matrixPredMatchDev v p.cmp p.a p.b = matrixPredMatch v p :=
  predMatchDev_eq v p

/-- What the device computes over a column, and the host over the rows that
count. -/
def hitsU32 (n : Nat) : List UInt32 :=
  ((List.range n).filter fun i => matrixPredMatch (d i) p).map d

include schedule

theorem matrixSumKernelPredU32_launch :
    (matrixSumKernelPredU32 deviceGrid d n p.cmp p.a p.b).launch order 0 =
      u32Kernel.fold AGG_SUM (hitsU32 d p n) := by
  rw [u32Kernel.fold_sum, hitsU32, List.map_map]
  apply scalarKernel_launch deviceGrid_launchable schedule UInt64.add_zero
    (fun i => matrixPredMatch (d i) p)
  intro rows
  simp only [matrixPredMatchDev_eq]
  exact foldl_guarded rows _ _ _ 0

theorem matrixCountKernelPredU32_launch {op : MatrixAggOp} (sum : op ≠ AGG_SUM)
    (least : op ≠ AGG_MIN) (greatest : op ≠ AGG_MAX) :
    (matrixCountKernelPredU32 deviceGrid d n p.cmp p.a p.b).launch order 0 =
      u32Kernel.fold op (hitsU32 d p n) := by
  rw [u32Kernel.fold_count sum least greatest, hitsU32, List.map_map]
  apply scalarKernel_launch deviceGrid_launchable schedule UInt64.add_zero
    (fun i => matrixPredMatch (d i) p)
  intro rows
  simp only [matrixPredMatchDev_eq]
  exact foldl_guarded rows _ _ _ 0

theorem matrixMinKernelPredU32_launch :
    (matrixMinKernelPredU32 deviceGrid d n p.cmp p.a p.b).launch order
        0xFFFFFFFFFFFFFFFF =
      u32Kernel.fold AGG_MIN (hitsU32 d p n) := by
  rw [u32Kernel.fold_min fun _ _ => rfl, hitsU32, List.map_map]
  apply scalarKernel_launch deviceGrid_launchable schedule ?_
    (fun i => matrixPredMatch (d i) p)
  · intro rows
    simp only [matrixPredMatchDev_eq, guarded_min]
    exact foldl_guarded rows _ _ _ _
  · intro x
    have bound := x.toNat_lt
    apply ordered_u64.inj
    rw [atomicMin_eq_of_linear ordered_u64.lt]
    simp only [UInt64.reduceToNat]
    omega

theorem matrixMaxKernelPredU32_launch :
    (matrixMaxKernelPredU32 deviceGrid d n p.cmp p.a p.b).launch order 0 =
      u32Kernel.fold AGG_MAX (hitsU32 d p n) := by
  rw [u32Kernel.fold_max fun _ _ => rfl, hitsU32, List.map_map]
  apply scalarKernel_launch deviceGrid_launchable schedule ?_
    (fun i => matrixPredMatch (d i) p)
  · intro rows
    simp only [matrixPredMatchDev_eq, guarded_max]
    exact foldl_guarded rows _ _ _ _
  · intro x
    apply ordered_u64.inj
    rw [atomicMax_eq_of_linear ordered_u64.lt]
    simp only [UInt64.reduceToNat]
    omega

end

theorem hitsU32_unfiltered (d : Nat → UInt32) (pred : MatrixPredicate)
    (n : Nat) :
    hitsU32 d (devPredicate pred 0 0 false) n = (List.range n).map d := by
  have all : ∀ i, matrixPredMatch (d i) (devPredicate pred 0 0 false) := by
    intro i
    simp [matrixPredMatch, predMatch, devPredicate]
  unfold hitsU32
  rw [List.filter_eq_self.mpr fun i _ => all i]

theorem matrixGpuReduceDevU32_eq {order : List BlockStep} {n : Nat}
    (schedule : BlockReduce.Schedule deviceGrid.gridDim deviceGrid.blockDim
      order) (d : Nat → UInt32) (pred : MatrixPredicate) (op : MatrixAggOp)
    (hasFilter : Bool) :
    some (matrixGpuReduceDevU32 d n pred op hasFilter order) =
      if hasFilter then matrixCpuReducePred d n pred op none
      else some (matrixCpuReduceAll d n op) := by
  have device : matrixGpuReduceDevU32 d n pred op hasFilter order =
      u32Kernel.fold op (hitsU32 d (devPredicate pred 0 0 hasFilter) n) := by
    unfold matrixGpuReduceDevU32
    simp only [cudaMemset_zero, cudaMemset_ones]
    split
    · rename_i sum
      subst sum
      exact matrixSumKernelPredU32_launch d _ schedule
    split
    · rename_i least
      subst least
      exact matrixMinKernelPredU32_launch d _ schedule
    split
    · rename_i greatest
      subst greatest
      exact matrixMaxKernelPredU32_launch d _ schedule
    · rename_i sum least greatest
      exact matrixCountKernelPredU32_launch d _ schedule sum least greatest
  rw [device]
  cases hasFilter with
  | true =>
      rw [if_pos rfl]
      exact congrArg some (u32Kernel.reduceRows_eq op n _ d).symm
  | false =>
      rw [if_neg Bool.false_ne_true, hitsU32_unfiltered]
      exact congrArg some
        (u32Kernel.reduceAll_eq u32Kernel_integer.counts d n op).symm

/-! ## `int64` -/

theorem toUInt64_foldl (values : List Int64) (start : Int64) :
    (values.foldl (· + ·) start).toUInt64 =
      (values.map Int64.toUInt64).foldl (· + ·) start.toUInt64 := by
  induction values generalizing start with
  | nil => rfl
  | cons v values induction =>
      rw [List.foldl_cons, induction, Int64.toUInt64_add]
      rfl

section
variable {order : List BlockStep} {n : Nat} (d : Nat → Int64)
  (p : MatrixPredicateI64)
  (schedule : BlockReduce.Schedule deviceGrid.gridDim deviceGrid.blockDim order)

theorem matrixPredMatchI64Dev_eq (v : Int64) :
    matrixPredMatchI64Dev v p.cmp p.a p.b = matrixPredMatchI64 v p :=
  predMatchDev_eq v p

def hitsI64 (n : Nat) : List Int64 :=
  ((List.range n).filter fun i => matrixPredMatchI64 (d i) p).map d

include schedule

theorem matrixSumKernelPredI64_launch :
    (matrixSumKernelPredI64 deviceGrid d n p.cmp p.a p.b).launch order 0 =
      (i64Kernel.fold AGG_SUM (hitsI64 d p n)).toUInt64 := by
  have host : i64Kernel.fold AGG_SUM (hitsI64 d p n) =
      (hitsI64 d p n).foldl (· + ·) 0 := rfl
  rw [host, toUInt64_foldl, hitsI64, List.map_map]
  apply scalarKernel_launch deviceGrid_launchable schedule UInt64.add_zero
    (fun i => matrixPredMatchI64 (d i) p)
  intro rows
  simp only [matrixPredMatchI64Dev_eq]
  rw [foldl_guarded rows _ (· + ·) d 0, toUInt64_foldl, List.map_map]
  rfl

theorem matrixCountKernelPredI64_launch {op : MatrixAggOp} (sum : op ≠ AGG_SUM)
    (least : op ≠ AGG_MIN) (greatest : op ≠ AGG_MAX) :
    (matrixCountKernelPredI64 deviceGrid d n p.cmp p.a p.b).launch order 0 =
      (i64Kernel.fold op (hitsI64 d p n)).toUInt64 := by
  have host := i64Kernel.fold_count sum least greatest (hitsI64 d p n)
  have bits := toUInt64_foldl ((hitsI64 d p n).map fun _ => i64Kernel.one)
    i64Kernel.zero
  rw [host]
  refine Eq.trans ?_ bits.symm
  rw [hitsI64, List.map_map, List.map_map]
  apply scalarKernel_launch deviceGrid_launchable schedule UInt64.add_zero
    (fun i => matrixPredMatchI64 (d i) p)
  intro rows
  simp only [matrixPredMatchI64Dev_eq]
  exact foldl_guarded rows _ _ _ 0

theorem matrixMinKernelPredI64_launch :
    (matrixMinKernelPredI64 deviceGrid d n p.cmp p.a p.b).launch order
        Int64.maxValue =
      i64Kernel.fold AGG_MIN (hitsI64 d p n) := by
  rw [i64Kernel.fold_min fun _ _ => rfl, hitsI64, List.map_map]
  apply scalarKernel_launch deviceGrid_launchable schedule ?_
    (fun i => matrixPredMatchI64 (d i) p)
  · intro rows
    simp only [matrixPredMatchI64Dev_eq, guarded_min]
    exact foldl_guarded rows _ _ _ _
  · intro x
    have bound := x.toInt_lt
    have top : Int64.maxValue.toInt = 2 ^ 63 - 1 := by decide
    apply ordered_i64.inj
    rw [atomicMin_eq_of_linear ordered_i64.lt, top]
    omega

theorem matrixMaxKernelPredI64_launch :
    (matrixMaxKernelPredI64 deviceGrid d n p.cmp p.a p.b).launch order
        Int64.minValue =
      i64Kernel.fold AGG_MAX (hitsI64 d p n) := by
  rw [i64Kernel.fold_max fun _ _ => rfl, hitsI64, List.map_map]
  apply scalarKernel_launch deviceGrid_launchable schedule ?_
    (fun i => matrixPredMatchI64 (d i) p)
  · intro rows
    simp only [matrixPredMatchI64Dev_eq, guarded_max]
    exact foldl_guarded rows _ _ _ _
  · intro x
    have bound := x.le_toInt
    have bottom : Int64.minValue.toInt = -2 ^ 63 := by decide
    apply ordered_i64.inj
    rw [atomicMax_eq_of_linear ordered_i64.lt, bottom]
    omega

end

theorem matrixPredMatchI64_unfiltered (v : Int64) (pred : MatrixPredicateI64) :
    matrixPredMatchI64 v (devPredicate pred Int64.minValue 0 false) := by
  simp [matrixPredMatchI64, predMatch, devPredicate]

theorem matrixGpuReduceDevI64_eq {order : List BlockStep} {n : Nat}
    (schedule : BlockReduce.Schedule deviceGrid.gridDim deviceGrid.blockDim
      order) (d : Nat → Int64) (pred : MatrixPredicateI64) (op : MatrixAggOp)
    (hasFilter : Bool) :
    some (matrixGpuReduceDevI64 d n pred op hasFilter order) =
      if hasFilter then matrixCpuReducePredI64 d n pred op none
      else some (matrixCpuReduceAllI64 d n op) := by
  have device : matrixGpuReduceDevI64 d n pred op hasFilter order =
      i64Kernel.fold op
        (hitsI64 d (devPredicate pred Int64.minValue 0 hasFilter) n) := by
    unfold matrixGpuReduceDevI64
    dsimp only
    split
    · rename_i sum
      subst sum
      rw [← Int64.toInt64_toUInt64 (i64Kernel.fold _ _)]
      exact congrArg UInt64.toInt64 (matrixSumKernelPredI64_launch d _ schedule)
    split
    · rename_i least
      subst least
      exact matrixMinKernelPredI64_launch d _ schedule
    split
    · rename_i greatest
      subst greatest
      exact matrixMaxKernelPredI64_launch d _ schedule
    · rename_i sum least greatest
      have zero : devInitI64 op = 0 := by
        rw [devInitI64, if_neg least, if_neg greatest]
      rw [← Int64.toInt64_toUInt64 (i64Kernel.fold _ _), zero]
      exact congrArg UInt64.toInt64
        (matrixCountKernelPredI64_launch d _ schedule sum least greatest)
  rw [device]
  cases hasFilter with
  | true =>
      rw [if_pos rfl]
      exact congrArg some (i64Kernel.reduceRows_eq op n _ d).symm
  | false =>
      have hits : hitsI64 d (devPredicate pred Int64.minValue 0 false) n =
          (List.range n).map d := by
        unfold hitsI64
        rw [List.filter_eq_self.mpr fun i _ =>
          matrixPredMatchI64_unfiltered (d i) pred]
      rw [if_neg Bool.false_ne_true, hits]
      exact congrArg some
        (i64Kernel.reduceAll_eq i64Kernel_integer.counts d n op).symm

/-! ## A grouped launch -/

/-- Each cell folds the rows that update it, in whatever order they came. -/
theorem GroupKernel.launch_eq {A : Type} {K : GroupKernel A}
    [Std.Associative K.atomic] [Std.Commutative K.atomic] {grid : Grid}
    (launchable : grid.Launchable) {n : Nat} {order : List Nat}
    (schedule : RowSchedule grid n order) (size : Nat) (start : A) :
    K.launch order (List.replicate size start) =
      (List.range size).map fun g =>
        (((List.range n).filter fun i => K.updates i && K.cell i = g).map
          K.value).foldl K.atomic start := by
  have all : order.Perm (List.range n) := by
    refine schedule.perm.trans ?_
    rw [← List.flatMap_def]
    exact Grid.rows_perm launchable n
  unfold launch
  rw [← List.foldl_filter]
  apply List.ext_getElem?
  intro g
  rw [getElem?_foldl_modify K.cell fun old i => K.atomic old (K.value i),
    List.getElem?_map, List.filter_filter]
  by_cases inside : g < size
  · rw [List.getElem?_replicate_of_lt inside, List.getElem?_range inside,
      Option.map_some, Option.map_some, ← List.foldl_map]
    apply congrArg some
    have mine := (all.filter fun i => K.updates i && K.cell i = g).map K.value
    rw [← mine.foldl_op_eq]
    simp only [Bool.and_comm]
  · have beyond : size ≤ g := Nat.not_lt.mp inside
    rw [List.getElem?_eq_none (by simpa using beyond),
      List.getElem?_eq_none (by simpa using beyond)]
    rfl

theorem groupKernel_launch {A : Type} {atomic : A → A → A}
    [assoc : Std.Associative atomic] [comm : Std.Commutative atomic]
    {grid : Grid} (launchable : grid.Launchable) {n : Nat} {order : List Nat}
    (schedule : RowSchedule grid n order) (keys : Nat → UInt32)
    (numGroups : UInt32) (keep : Nat → Bool) (value : Nat → A) (start : A) :
    (groupKernel atomic keys numGroups keep value).launch order
        (List.replicate numGroups.toNat start) =
      (List.range numGroups.toNat).map fun g =>
        (((List.range n).filter fun i => keep i && (keys i).toNat = g).map
          value).foldl atomic start := by
  rw [@GroupKernel.launch_eq A (groupKernel atomic keys numGroups keep value)
    assoc comm grid launchable n order schedule]
  apply List.map_congr_left
  intro g inside
  have small : g < numGroups.toNat := List.mem_range.mp inside
  have rows : ∀ {p q : Nat → Bool}, (∀ i ∈ List.range n, p i = q i) →
      (((List.range n).filter p).map value).foldl atomic start =
        (((List.range n).filter q).map value).foldl atomic start := by
    intro p q same
    rw [List.filter_congr same]
  apply rows
  intro i _
  by_cases own : (keys i).toNat = g
  · have below : keys i < numGroups := UInt32.lt_iff_toNat_lt.mpr (own ▸ small)
    simp [groupKernel, own, below]
  · simp [groupKernel, own]

section
variable {order : List Nat} {n : Nat} (schedule : RowSchedule deviceGrid n order)
  (dk : Nat → UInt32) (numGroups : UInt32)

include schedule

/-- A grouped kernel is the host's loop when its atomic folds a group's values
as the loop does. -/
theorem groupKernel_groups {V A B : Type} {atomic : A → A → A}
    [Std.Associative atomic] [Std.Commutative atomic] (K : AggKernel V B)
    (op : MatrixAggOp) (bits : B → A) (hit : V → Bool) (dv : Nat → V)
    (weight : V → A) {start : A}
    (folds : ∀ values : List V,
      (values.map weight).foldl atomic start = bits (K.fold op values)) :
    (groupKernel atomic dk numGroups (fun i => hit (dv i))
        fun i => weight (dv i)).launch order
        (List.replicate numGroups.toNat start) =
      (K.groupRows op n numGroups (fun i => hit (dv i)) dk dv).map bits := by
  rw [groupKernel_launch deviceGrid_launchable schedule, K.groupRows_eq,
    List.map_map]
  apply List.map_congr_left
  intro g _
  rw [Function.comp_apply, ← folds, List.map_map]
  rfl

/-- The four `uint32` kernels with one condition. -/
theorem u32Groups_launch (dv : Nat → UInt32) (hit : UInt32 → Bool)
    (op : MatrixAggOp) :
    (if op = AGG_SUM then
        (groupKernel (· + ·) dk numGroups (fun i => hit (dv i))
          fun i => (dv i).toUInt64).launch order
      else if op = AGG_MIN then
        (groupKernel atomicMin dk numGroups (fun i => hit (dv i))
          fun i => (dv i).toUInt64).launch order
      else if op = AGG_MAX then
        (groupKernel atomicMax dk numGroups (fun i => hit (dv i))
          fun i => (dv i).toUInt64).launch order
      else
        (groupKernel (· + ·) dk numGroups (fun i => hit (dv i))
          fun _ => 1).launch order)
      (List.replicate numGroups.toNat
        (cudaMemset (if op = AGG_MIN then 0xFF else 0x00))) =
      u32Kernel.groupRows op n numGroups (fun i => hit (dv i)) dk dv := by
  have same : ∀ values : List UInt64, values.map id = values := List.map_id
  split
  · rename_i sum
    subst sum
    have folds : ∀ values : List UInt32,
        (values.map UInt32.toUInt64).foldl (· + ·) 0 =
          id (u32Kernel.fold AGG_SUM values) :=
      fun values => (u32Kernel.fold_sum values).symm
    have launched := groupKernel_groups schedule dk numGroups u32Kernel AGG_SUM
      id hit dv UInt32.toUInt64 folds
    exact launched.trans (same _)
  split
  · rename_i least
    subst least
    have launched := groupKernel_groups schedule dk numGroups u32Kernel AGG_MIN
      id hit dv UInt32.toUInt64
      fun values => (u32Kernel.fold_min (fun _ _ => rfl) values).symm
    exact launched.trans (same _)
  split
  · rename_i least greatest
    subst greatest
    have launched := groupKernel_groups schedule dk numGroups u32Kernel AGG_MAX
      id hit dv UInt32.toUInt64
      fun values => (u32Kernel.fold_max (fun _ _ => rfl) values).symm
    exact launched.trans (same _)
  · rename_i sum least greatest
    have folds : ∀ values : List UInt32,
        (values.map fun _ => 1).foldl (· + ·) (0 : UInt64) =
          id (u32Kernel.fold op values) :=
      fun values => (u32Kernel.fold_count sum least greatest values).symm
    have launched := groupKernel_groups schedule dk numGroups u32Kernel op
      id hit dv (fun _ => 1) folds
    exact launched.trans (same _)

theorem matrixGpuGroupReduceDev_eq (dv : Nat → UInt32) (op : MatrixAggOp)
    (pred : MatrixPredicate) (hasFilter : Bool) :
    some (matrixGpuGroupReduceDev dk dv numGroups op pred hasFilter order) =
      if hasFilter then
        matrixCpuGroupReducePred pred dk dv n numGroups op none
      else matrixCpuGroupReduce dk dv n numGroups op none := by
  cases hasFilter with
  | true =>
      have launched := u32Groups_launch schedule dk numGroups dv
        (matrixPredMatch · pred) op
      rw [if_pos rfl]
      refine Eq.trans ?_ (congrArg some launched)
      simp only [matrixGpuGroupReduceDev, if_true, matrixGroupSumKernelPred,
        matrixGroupMinKernelPred, matrixGroupMaxKernelPred,
        matrixGroupCountKernelPred, matrixPredMatchDev_eq]
      apply congrArg some
      split
      · rfl
      split
      · rfl
      split <;> rfl
  | false =>
      have launched := u32Groups_launch schedule dk numGroups dv
        (fun _ => true) op
      rw [if_neg Bool.false_ne_true]
      refine Eq.trans ?_ (congrArg some launched)
      simp only [matrixGpuGroupReduceDev, Bool.false_eq_true, if_false,
        matrixGroupSumKernel, matrixGroupMinKernel, matrixGroupMaxKernel,
        matrixGroupCountKernel]
      apply congrArg some
      split
      · rfl
      split
      · rfl
      split <;> rfl

theorem i64Groups_launch (dv : Nat → Int64) (pred : MatrixPredicateI64)
    (hasFilter : Bool) (op : MatrixAggOp) :
    matrixGpuGroupReduceDevI64 dk dv numGroups op pred hasFilter order =
      (i64Kernel.groupRows op n numGroups
        (fun i => matrixPredMatchI64 (dv i)
          (devPredicate pred Int64.minValue 0 hasFilter)) dk dv).map
        Int64.toUInt64 := by
  unfold matrixGpuGroupReduceDevI64
  dsimp only
  generalize devPredicate pred Int64.minValue 0 hasFilter = p
  have same : ∀ values : List Int64, values.map id = values := List.map_id
  split
  · rename_i sum
    subst sum
    have folds : ∀ values : List Int64,
        (values.map Int64.toUInt64).foldl (· + ·) 0 =
          (i64Kernel.fold AGG_SUM values).toUInt64 :=
      fun values => (toUInt64_foldl values 0).symm
    have launched := groupKernel_groups schedule dk numGroups i64Kernel AGG_SUM
      Int64.toUInt64 (matrixPredMatchI64 · p) dv Int64.toUInt64 folds
    rw [List.map_replicate]
    simp only [matrixGroupSumKernelI64, matrixPredMatchI64Dev_eq]
    exact launched
  split
  · rename_i least
    subst least
    have launched := groupKernel_groups schedule dk numGroups i64Kernel AGG_MIN
      id (matrixPredMatchI64 · p) dv id
      fun values => (i64Kernel.fold_min (fun _ _ => rfl) values).symm
    simp only [matrixGroupMinKernelI64, matrixPredMatchI64Dev_eq]
    exact congrArg (List.map Int64.toUInt64) (launched.trans (same _))
  split
  · rename_i greatest
    subst greatest
    have launched := groupKernel_groups schedule dk numGroups i64Kernel AGG_MAX
      id (matrixPredMatchI64 · p) dv id
      fun values => (i64Kernel.fold_max (fun _ _ => rfl) values).symm
    simp only [matrixGroupMaxKernelI64, matrixPredMatchI64Dev_eq]
    exact congrArg (List.map Int64.toUInt64) (launched.trans (same _))
  · rename_i sum least greatest
    have folds : ∀ values : List Int64,
        (values.map fun _ => 1).foldl (· + ·) (0 : UInt64) =
          (i64Kernel.fold op values).toUInt64 := by
      intro values
      have bits := toUInt64_foldl (values.map fun _ => i64Kernel.one)
        i64Kernel.zero
      rw [i64Kernel.fold_count sum least greatest]
      refine Eq.trans ?_ bits.symm
      rw [List.map_map]
      rfl
    have zero : devInitI64 op = 0 := by
      rw [devInitI64, if_neg least, if_neg greatest]
    have launched := groupKernel_groups schedule dk numGroups i64Kernel op
      Int64.toUInt64 (matrixPredMatchI64 · p) dv (fun _ => 1) folds
    rw [List.map_replicate, zero]
    simp only [matrixGroupCountKernelI64, matrixPredMatchI64Dev_eq]
    exact launched

theorem matrixGpuGroupReduceDevI64_eq (dv : Nat → Int64) (op : MatrixAggOp)
    (pred : MatrixPredicateI64) (hasFilter : Bool) :
    some (matrixGpuGroupReduceDevI64 dk dv numGroups op pred hasFilter order) =
      (if hasFilter then
        matrixCpuGroupReduceI64Pred pred dk dv n numGroups op none
      else matrixCpuGroupReduceI64 dk dv n numGroups op none).map
        (List.map Int64.toUInt64) := by
  rw [i64Groups_launch schedule dk numGroups dv pred hasFilter op]
  cases hasFilter with
  | true => rfl
  | false =>
      simp only [matrixPredMatchI64_unfiltered]
      rfl

end

/-! ## Queries on columns in VRAM -/

/-- `scan_tiered_column` of a column in VRAM. -/
def scanTieredColumnDevice (q : MatrixQuery) (bytes : Bytes) (n : Nat)
    (order : List BlockStep) : Option UInt64 :=
  (u32Rows n bytes).map fun v =>
    matrixGpuReduceDevU32 v n q.pred q.agg q.hasFilter order

/-- `scan_tiered_column_i64` of a column in VRAM. -/
def scanTieredColumnI64Device (q : MatrixQuery) (bytes : Bytes) (n : Nat)
    (order : List BlockStep) : Option UInt64 :=
  (i64Rows n bytes).map fun v =>
    (matrixGpuReduceDevI64 v n q.predI64 q.agg q.hasFilter order).toUInt64

/-- `grouped_aggregate` and `grouped_aggregate_pred` of two columns in VRAM,
without a null mask. -/
def groupedAggregateDevice (q : MatrixQuery) (keys bytes : Bytes) (n : Nat)
    (order : List Nat) : Option (List UInt64) := do
  let k ← u32Rows n keys
  let v ← u32Rows n bytes
  some (matrixGpuGroupReduceDev k v q.numGroups q.agg q.pred q.hasFilter order)

/-- `grouped_aggregate_i64` of two columns in VRAM, without a null mask. -/
def groupedAggregateI64Device (q : MatrixQuery) (keys bytes : Bytes) (n : Nat)
    (order : List Nat) : Option (List UInt64) := do
  let k ← u32Rows n keys
  let v ← i64Rows n bytes
  some (matrixGpuGroupReduceDevI64 k v q.numGroups q.agg q.predI64 q.hasFilter
    order)

section
variable {n : Nat} (q : MatrixQuery) (keys bytes : Bytes)

theorem scanTieredColumnDevice_eq {order : List BlockStep}
    (schedule : BlockReduce.Schedule deviceGrid.gridDim deviceGrid.blockDim
      order) :
    scanTieredColumnDevice q bytes n order = reduceScalar .U32 q bytes n := by
  unfold scanTieredColumnDevice reduceScalar
  cases u32Rows n bytes with
  | none => rfl
  | some v => exact matrixGpuReduceDevU32_eq schedule v _ _ _

theorem scanTieredColumnI64Device_eq {order : List BlockStep}
    (schedule : BlockReduce.Schedule deviceGrid.gridDim deviceGrid.blockDim
      order) :
    scanTieredColumnI64Device q bytes n order =
      reduceScalar .I64 q bytes n := by
  unfold scanTieredColumnI64Device reduceScalar
  cases i64Rows n bytes with
  | none => rfl
  | some v =>
      exact congrArg (Option.map Int64.toUInt64)
        (matrixGpuReduceDevI64_eq schedule v _ _ _)

theorem groupedAggregateDevice_eq {order : List Nat}
    (schedule : RowSchedule deviceGrid n order) :
    groupedAggregateDevice q keys bytes n order =
      reduceGrouped .U32 q keys bytes n none := by
  unfold groupedAggregateDevice reduceGrouped
  cases u32Rows n keys with
  | none => rfl
  | some k =>
      cases u32Rows n bytes with
      | none => rfl
      | some v => exact matrixGpuGroupReduceDev_eq schedule k _ v _ _ _

theorem groupedAggregateI64Device_eq {order : List Nat}
    (schedule : RowSchedule deviceGrid n order) :
    groupedAggregateI64Device q keys bytes n order =
      reduceGrouped .I64 q keys bytes n none := by
  unfold groupedAggregateI64Device reduceGrouped
  cases u32Rows n keys with
  | none => rfl
  | some k =>
      cases i64Rows n bytes with
      | none => rfl
      | some v => exact matrixGpuGroupReduceDevI64_eq schedule k _ v _ _ _

end

/-- The reductions of a launch are those of the host. -/
structure ReducesAlike (n : Nat) (order : List BlockStep) (rows : List Nat) :
    Prop where
  u32 : ∀ (d : Nat → UInt32) (pred : MatrixPredicate) (op : MatrixAggOp)
    (hasFilter : Bool),
    some (matrixGpuReduceDevU32 d n pred op hasFilter order) =
      if hasFilter then matrixCpuReducePred d n pred op none
      else some (matrixCpuReduceAll d n op)
  i64 : ∀ (d : Nat → Int64) (pred : MatrixPredicateI64) (op : MatrixAggOp)
    (hasFilter : Bool),
    some (matrixGpuReduceDevI64 d n pred op hasFilter order) =
      if hasFilter then matrixCpuReducePredI64 d n pred op none
      else some (matrixCpuReduceAllI64 d n op)
  groupedU32 : ∀ (dk dv : Nat → UInt32) (numGroups : UInt32) (op : MatrixAggOp)
    (pred : MatrixPredicate) (hasFilter : Bool),
    some (matrixGpuGroupReduceDev dk dv numGroups op pred hasFilter rows) =
      if hasFilter then
        matrixCpuGroupReducePred pred dk dv n numGroups op none
      else matrixCpuGroupReduce dk dv n numGroups op none
  groupedI64 : ∀ (dk : Nat → UInt32) (dv : Nat → Int64) (numGroups : UInt32)
    (op : MatrixAggOp) (pred : MatrixPredicateI64) (hasFilter : Bool),
    some (matrixGpuGroupReduceDevI64 dk dv numGroups op pred hasFilter rows) =
      (if hasFilter then
        matrixCpuGroupReduceI64Pred pred dk dv n numGroups op none
      else matrixCpuGroupReduceI64 dk dv n numGroups op none).map
        (List.map Int64.toUInt64)
  scanned : ∀ (q : MatrixQuery) (bytes : Bytes),
    scanTieredColumnDevice q bytes n order = reduceScalar .U32 q bytes n ∧
      scanTieredColumnI64Device q bytes n order = reduceScalar .I64 q bytes n
  grouped : ∀ (q : MatrixQuery) (keys bytes : Bytes),
    groupedAggregateDevice q keys bytes n rows =
        reduceGrouped .U32 q keys bytes n none ∧
      groupedAggregateI64Device q keys bytes n rows =
        reduceGrouped .I64 q keys bytes n none

theorem device_reduces_alike {n : Nat} {order : List BlockStep}
    {rows : List Nat}
    (schedule : BlockReduce.Schedule deviceGrid.gridDim deviceGrid.blockDim
      order) (taken : RowSchedule deviceGrid n rows) :
    ReducesAlike n order rows where
  u32 d pred op _ := matrixGpuReduceDevU32_eq schedule d pred op _
  i64 d pred op _ := matrixGpuReduceDevI64_eq schedule d pred op _
  groupedU32 dk dv numGroups op pred hasFilter :=
    matrixGpuGroupReduceDev_eq taken dk numGroups dv op pred hasFilter
  groupedI64 dk dv numGroups op pred hasFilter :=
    matrixGpuGroupReduceDevI64_eq taken dk numGroups dv op pred hasFilter
  scanned q bytes := ⟨scanTieredColumnDevice_eq q bytes schedule,
    scanTieredColumnI64Device_eq q bytes schedule⟩
  grouped q keys bytes := ⟨groupedAggregateDevice_eq q keys bytes taken,
    groupedAggregateI64Device_eq q keys bytes taken⟩

/-- Three rows, fewer than there are threads: all blocks take part. -/
theorem device_reduces_three_rows :
    matrixGpuReduceDevU32 (fun i => UInt32.ofNat (10 + i)) 3
        { cmp := .GT, a := 10, b := 0 } AGG_SUM true
        (BlockReduce.sequential 1024 255) = 23 ∧
      matrixGpuGroupReduceDev (fun i => UInt32.ofNat (i % 2))
        (fun i => UInt32.ofNat (10 + i)) 2 AGG_MIN
        { cmp := .GT, a := 10, b := 0 } true
        (deviceGrid.threads.map (deviceGrid.rows 3)).flatten = [12, 11] := by
  have alike := device_reduces_alike (BlockReduce.schedule_sequential 1024 255)
    (interleaves_flatten (deviceGrid.threads.map (deviceGrid.rows 3)))
  constructor
  · apply Option.some.inj
    rw [alike.u32]
    decide
  · apply Option.some.inj
    rw [alike.groupedU32]
    decide

end MatrixDB
