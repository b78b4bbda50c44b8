import MatrixDB.Engine.Batching
import MatrixDB.Gpu.Kernels
import MatrixDB.KVStore.Refinement

/-!
# Point operations on the device (`compute_cuda.cuh`)

The device keeps its store as an array with a slot for every masked key, and the
threads of a page's block write to it without atomics.  For keys that are slots
themselves the value written is the slot's number whichever thread writes it, so
that the order of the accesses does not matter, and the store is the host's.
-/

namespace MatrixDB

open Lib

/-! ## The kernel -/

/-- The device's memory that batches work on. -/
structure DeviceStore where
  store : List UInt64
  reads : UInt64
  writes : UInt64
  deriving DecidableEq, Repr

/-- An access of a thread to the device's memory. -/
inductive PageStep where
  | load (slot : Nat)
  | store (slot : Nat) (value : UInt64)
  | addReads (r : UInt32)
  | addWrites (w : UInt32)
  deriving DecidableEq, Repr

namespace DeviceStore

/-- What the constructor of `CUDAGPUEngine` sets to zero. -/
def zeroed : DeviceStore :=
  { store := List.replicate MATRIX_STORE_SLOTS (cudaMemset 0x00)
    reads := cudaMemset 0x00
    writes := cudaMemset 0x00 }

/-- Every write commits. -/
def commits (device : DeviceStore) : UInt64 := device.writes

def storeChecksum (device : DeviceStore) : UInt64 :=
  device.store.foldl (· + ·) 0

/-- A value that is read is not kept. -/
def step (device : DeviceStore) : PageStep → DeviceStore
  | .load _ => device
  | .store slot value => { device with store := device.store.set slot value }
  | .addReads r => { device with reads := device.reads + r.toUInt64 }
  | .addWrites w => { device with writes := device.writes + w.toUInt64 }

end DeviceStore

def matrixSlotOf (key : UInt64) : Nat := (key &&& MATRIX_STORE_MASK).toNat

/-- The access for one query. -/
def DatabaseQuery.pageSteps (query : DatabaseQuery) : List PageStep :=
  if query.opcode = OP_READ then [.load (matrixSlotOf query.queryId)]
  else if query.opcode = OP_WRITE then
    [.store (matrixSlotOf query.queryId) query.queryId]
  else []

/-- The queries of a thread: its place behind the page's begin, then a block
further each time. -/
def threadQueries (binned : List DatabaseQuery) (offsets : List Nat)
    (blockDim : Nat) (thread : Nat × Nat) : List DatabaseQuery :=
  (strideLoop (offsets.getD (thread.1 + 1) 0) blockDim
    (offsets.getD thread.1 0 + thread.2)).filterMap (binned[·]?)

/-- A counter of a thread. -/
def countOpcode (opcode : UInt32) (queries : List DatabaseQuery) : UInt32 :=
  queries.foldl
    (fun count query => if query.opcode = opcode then count + 1 else count) 0

/-- The counters are added at the end, those that are zero not at all. -/
def counterSteps (r w : UInt32) : List PageStep :=
  (if r ≠ 0 then [.addReads r] else []) ++
    if w ≠ 0 then [.addWrites w] else []

/-- The accesses of a thread. -/
def matrixPageKernel (binned : List DatabaseQuery) (offsets : List Nat)
    (blockDim : Nat) (thread : Nat × Nat) : List PageStep :=
  if thread.1 ≥ MATRIX_PAGE_COUNT then []
  else
    let queries := threadQueries binned offsets blockDim thread
    queries.flatMap DatabaseQuery.pageSteps ++
      counterSteps (countOpcode OP_READ queries) (countOpcode OP_WRITE queries)

/-- One block per page. -/
def pageGrid : Grid := { gridDim := MATRIX_PAGE_COUNT, blockDim := 128 }

/-- The threads that `execute_batch` launches. -/
def batchThreads (batch : List DatabaseQuery) : List (List PageStep) :=
  if batch = [] then []
  else
    let (binned, offsets) := matrixBinByPage (batch.take MATRIX_BATCH_MAX)
    pageGrid.threads.map (matrixPageKernel binned offsets pageGrid.blockDim)

/-- An order of all accesses of a batch. -/
def PageSchedule (batch : List DatabaseQuery) (order : List PageStep) : Prop :=
  Interleaves (batchThreads batch) order

/-- Batches one after another, each in its order. -/
def DeviceStore.executeBatches (device : DeviceStore)
    (orders : List (List PageStep)) : DeviceStore :=
  orders.foldl (fun device order => order.foldl DeviceStore.step device) device

/-! ## Steps in any order -/

/-- The slot and the value of a store. -/
def PageStep.target : PageStep → Option (Nat × UInt64)
  | .store slot value => some (slot, value)
  | _ => none

def PageStep.readsAdded : PageStep → UInt64
  | .addReads r => r.toUInt64
  | _ => 0

def PageStep.writesAdded : PageStep → UInt64
  | .addWrites w => w.toUInt64
  | _ => 0

namespace DeviceStore

theorem store_foldl_step (order : List PageStep) (device : DeviceStore) :
    (order.foldl step device).store =
      (order.filterMap PageStep.target).foldl
        (fun store write => store.set write.1 write.2) device.store := by
  induction order generalizing device with
  | nil => rfl
  | cons access order induction =>
      rw [List.foldl_cons, induction]
      cases access <;> rfl

theorem reads_foldl_step (order : List PageStep) (device : DeviceStore) :
    (order.foldl step device).reads =
      (order.map PageStep.readsAdded).foldl (· + ·) device.reads := by
  induction order generalizing device with
  | nil => rfl
  | cons access order induction =>
      rw [List.foldl_cons, induction, List.map_cons, List.foldl_cons]
      cases access <;> simp [step, PageStep.readsAdded]

theorem writes_foldl_step (order : List PageStep) (device : DeviceStore) :
    (order.foldl step device).writes =
      (order.map PageStep.writesAdded).foldl (· + ·) device.writes := by
  induction order generalizing device with
  | nil => rfl
  | cons access order induction =>
      rw [List.foldl_cons, induction, List.map_cons, List.foldl_cons]
      cases access <;> simp [step, PageStep.writesAdded]

end DeviceStore

/-- Where every slot is written one value only, it holds that value after any
order of the writes. -/
theorem getElem?_foldl_set {val : Nat → UInt64}
    {writes : List (Nat × UInt64)}
    (fixed : ∀ write ∈ writes, write.2 = val write.1) (store : List UInt64)
    (slot : Nat) :
    (writes.foldl (fun store write => store.set write.1 write.2) store)[slot]? =
      if slot ∈ writes.map Prod.fst then (store[slot]?).map fun _ => val slot
      else store[slot]? := by
  induction writes generalizing store with
  | nil => simp
  | cons write writes induction =>
      have first := fixed write List.mem_cons_self
      have later := induction fun other member => fixed other (.tail _ member)
      rw [List.foldl_cons, later, List.map_cons, List.getElem?_set]
      by_cases same : write.1 = slot
      · subst same
        by_cases inside : write.1 < store.length
        · simp [inside, first]
        · simp [inside]
      · simp [same, Ne.symm same]

theorem length_foldl_set (writes : List (Nat × UInt64)) (store : List UInt64) :
    (writes.foldl (fun store write => store.set write.1 write.2)
      store).length = store.length := by
  induction writes generalizing store with
  | nil => rfl
  | cons write writes induction =>
      rw [List.foldl_cons, induction, List.length_set]

/-! ## The queries of the threads -/

/-- A loop that starts further on. -/
theorem strideLoop_add (n stride shift start : Nat) :
    strideLoop (shift + n) stride (shift + start) =
      (strideLoop n stride start).map (shift + ·) := by
  by_cases positive : 0 < stride
  · induction start using strideLoop_induction (n := n) positive with
    | beyond start large =>
        rw [strideLoop_of_le large, strideLoop_of_le (by omega)]
        rfl
    | round start small induction =>
        rw [strideLoop_of_lt small positive,
          strideLoop_of_lt (by omega) positive, List.map_cons, ← induction,
          Nat.add_assoc]
  · rw [strideLoop, if_neg fun both => positive both.2, strideLoop,
      if_neg fun both => positive both.2]
    rfl

/-- The loops of a block cover its page. -/
theorem strideLoop_block {blockDim : Nat} (threads : 0 < blockDim)
    (first last : Nat) :
    ((List.range blockDim).flatMap fun thread =>
        strideLoop last blockDim (first + thread)).Perm
      (List.range' first (last - first)) := by
  by_cases some : first ≤ last
  · have loops : ∀ thread, strideLoop last blockDim (first + thread) =
        (strideLoop (last - first) blockDim thread).map (first + ·) := by
      intro thread
      rw [← strideLoop_add, Nat.add_sub_cancel' some]
    have covered := (strideLoop_perm (n := last - first) threads).map
      (first + ·)
    rw [List.map_flatMap, ← List.range'_eq_map_range] at covered
    simp only [loops]
    exact covered
  · have none : last - first = 0 := by omega
    have loops : ∀ thread, strideLoop last blockDim (first + thread) = [] := by
      intro thread
      exact strideLoop_of_le (by omega)
    simp [none, loops]

section
variable (binned : List DatabaseQuery) (offsets : List Nat)

/-- The queries of a page. -/
def pageQueries (page : Nat) : List DatabaseQuery :=
  (List.range' (offsets.getD page 0)
    (offsets.getD (page + 1) 0 - offsets.getD page 0)).filterMap (binned[·]?)

theorem pageQueries_eq (page : Nat) :
    pageQueries binned offsets page =
      ((List.range' (offsets.getD page 0)
        (offsets.getD (page + 1) 0 - offsets.getD page 0)).filterMap
          fun position => (binned[position]?).map fun query =>
            (position, query)).map Prod.snd := by
  rw [pageQueries, List.map_filterMap]
  congr 1
  funext position
  cases binned[position]? <;> rfl

theorem visitOrder_snd :
    (visitOrder binned offsets).map Prod.snd =
      (List.range MATRIX_PAGE_COUNT).flatMap (pageQueries binned offsets) := by
  rw [visitOrder, List.map_flatMap, ← funext (pageQueries_eq binned offsets)]

theorem threadQueries_block {blockDim : Nat} (threads : 0 < blockDim)
    (page : Nat) :
    ((List.range blockDim).flatMap fun thread =>
        threadQueries binned offsets blockDim (page, thread)).Perm
      (pageQueries binned offsets page) := by
  have covered := (strideLoop_block threads (offsets.getD page 0)
    (offsets.getD (page + 1) 0)).filterMap (binned[·]?)
  rw [List.filterMap_flatMap] at covered
  exact covered

theorem threadQueries_grid {blockDim : Nat} (threads : 0 < blockDim)
    (pages : Nat) :
    ((gridThreads pages blockDim).flatMap
        (threadQueries binned offsets blockDim)).Perm
      ((List.range pages).flatMap (pageQueries binned offsets)) := by
  rw [gridThreads, List.flatMap_assoc]
  apply List.Perm.flatMap_left
  intro page _
  rw [List.flatMap_map]
  exact threadQueries_block binned offsets threads page

end

/-- The queries of all threads are the queries of the batch. -/
theorem threadQueries_perm {batch : List DatabaseQuery}
    (short : batch.length ≤ MATRIX_BATCH_MAX) :
    (pageGrid.threads.flatMap (threadQueries (matrixBinByPage batch).1
      (matrixBinByPage batch).2 pageGrid.blockDim)).Perm
        (matrixBinByPage batch).1 := by
  have threads : 0 < pageGrid.blockDim := by decide
  have visited : (visitOrder (matrixBinByPage batch).1
      (matrixBinByPage batch).2).map Prod.snd = (matrixBinByPage batch).1 := by
    have all := binnedQueries_eq short
    unfold binnedQueries at all
    simp only [List.take_of_length_le short] at all
    rw [all, positioned, List.map_map]
    exact List.zipIdx_map_fst 0 _
  rw [visitOrder_snd] at visited
  have grid := threadQueries_grid (matrixBinByPage batch).1
    (matrixBinByPage batch).2 threads MATRIX_PAGE_COUNT
  rw [visited] at grid
  exact grid

/-! ## The accesses of a batch -/

theorem countOpcode_eq (opcode : UInt32) (queries : List DatabaseQuery) :
    countOpcode opcode queries =
      UInt32.ofNat (queries.countP fun query => query.opcode = opcode) := by
  have counted : ∀ start : UInt32, queries.foldl (fun count query =>
      if query.opcode = opcode then count + 1 else count) start =
      start + UInt32.ofNat
        (queries.countP fun query => query.opcode = opcode) := by
    induction queries with
    | nil => simp
    | cons query queries induction =>
        intro start
        rw [List.foldl_cons, induction, List.countP_cons]
        by_cases same : query.opcode = opcode
        · simp only [same, if_true, decide_true]
          rw [UInt32.add_assoc, Nat.add_comm, UInt32.ofNat_add]
          rfl
        · simp [same]
  rw [countOpcode, counted, UInt32.zero_add]

/-- A counter of fewer than `2 ^ 32` queries is widened without loss. -/
theorem toUInt64_countOpcode {queries : List DatabaseQuery}
    (short : queries.length ≤ MATRIX_BATCH_MAX) (opcode : UInt32) :
    (countOpcode opcode queries).toUInt64 =
      UInt64.ofNat (queries.countP fun query => query.opcode = opcode) := by
  have bound : (queries.countP fun query => query.opcode = opcode) ≤
      queries.length := List.countP_le_length
  have small : (queries.countP fun query => query.opcode = opcode) <
      2 ^ 32 := by
    rw [MATRIX_BATCH_MAX] at short
    omega
  have large : (queries.countP fun query => query.opcode = opcode) <
      2 ^ 64 := by omega
  apply UInt64.toNat_inj.mp
  rw [countOpcode_eq, UInt32.toNat_toUInt64, UInt32.toNat_ofNat_of_lt' small,
    UInt64.toNat_ofNat_of_lt' large]

theorem readsAdded_pageSteps (query : DatabaseQuery) :
    ∀ access ∈ query.pageSteps, access.readsAdded = 0 ∧
      access.writesAdded = 0 := by
  intro access member
  unfold DatabaseQuery.pageSteps at member
  split at member
  · rw [List.mem_singleton.mp member]
    exact ⟨rfl, rfl⟩
  · split at member
    · rw [List.mem_singleton.mp member]
      exact ⟨rfl, rfl⟩
    · cases member

/-- Nothing is added where every summand is zero. -/
theorem foldl_add_zeros {values : List UInt64}
    (zeros : ∀ value ∈ values, value = 0) (start : UInt64) :
    values.foldl (· + ·) start = start := by
  induction values with
  | nil => rfl
  | cons value values induction =>
      rw [List.foldl_cons, zeros value List.mem_cons_self, UInt64.add_zero]
      exact induction fun other member => zeros other (.tail _ member)

theorem reads_counterSteps (r w : UInt32) (start : UInt64) :
    ((counterSteps r w).map PageStep.readsAdded).foldl (· + ·) start =
      start + r.toUInt64 := by
  unfold counterSteps
  by_cases none : r = 0
  · subst none
    by_cases other : w = 0 <;> simp [other, PageStep.readsAdded]
  · by_cases other : w = 0 <;> simp [none, other, PageStep.readsAdded]

theorem writes_counterSteps (r w : UInt32) (start : UInt64) :
    ((counterSteps r w).map PageStep.writesAdded).foldl (· + ·) start =
      start + w.toUInt64 := by
  unfold counterSteps
  by_cases none : w = 0
  · subst none
    by_cases other : r = 0 <;> simp [other, PageStep.writesAdded]
  · by_cases other : r = 0 <;> simp [none, other, PageStep.writesAdded]

theorem target_counterSteps {r w : UInt32} {access : PageStep}
    (member : access ∈ counterSteps r w) : access.target = none := by
  unfold counterSteps at member
  rcases List.mem_append.mp member with first | second
  · split at first
    · rw [List.mem_singleton.mp first]
      rfl
    · cases first
  · split at second
    · rw [List.mem_singleton.mp second]
      rfl
    · cases second

theorem target_pageSteps {query : DatabaseQuery} {write : Nat × UInt64} :
    write ∈ query.pageSteps.filterMap PageStep.target ↔
      query.opcode = OP_WRITE ∧
        write = (matrixSlotOf query.queryId, query.queryId) := by
  unfold DatabaseQuery.pageSteps
  by_cases read : query.opcode = OP_READ
  · have notWrite : query.opcode ≠ OP_WRITE := by
      rw [read]
      decide
    rw [if_pos read]
    simp [PageStep.target, notWrite]
  · rw [if_neg read]
    by_cases writes : query.opcode = OP_WRITE
    · rw [if_pos writes]
      simp [PageStep.target, writes]
    · rw [if_neg writes]
      simp [writes]

section
variable {binned : List DatabaseQuery} {offsets : List Nat} {blockDim : Nat}
  {thread : Nat × Nat} (inside : thread.1 < MATRIX_PAGE_COUNT)

include inside

theorem matrixPageKernel_eq :
    matrixPageKernel binned offsets blockDim thread =
      (threadQueries binned offsets blockDim thread).flatMap
          DatabaseQuery.pageSteps ++
        counterSteps
          (countOpcode OP_READ (threadQueries binned offsets blockDim thread))
          (countOpcode OP_WRITE
            (threadQueries binned offsets blockDim thread)) := by
  rw [matrixPageKernel, if_neg (Nat.not_le.mpr inside)]

/-- The stores of a thread. -/
theorem target_matrixPageKernel {write : Nat × UInt64} :
    write ∈ (matrixPageKernel binned offsets blockDim thread).filterMap
        PageStep.target ↔
      ∃ query ∈ threadQueries binned offsets blockDim thread,
        query.opcode = OP_WRITE ∧
        write = (matrixSlotOf query.queryId, query.queryId) := by
  have counters : (counterSteps
      (countOpcode OP_READ (threadQueries binned offsets blockDim thread))
      (countOpcode OP_WRITE
        (threadQueries binned offsets blockDim thread))).filterMap
        PageStep.target = [] :=
    List.filterMap_eq_nil_iff.mpr fun _ member => target_counterSteps member
  rw [matrixPageKernel_eq inside, List.filterMap_append, counters,
    List.append_nil, List.filterMap_flatMap, List.mem_flatMap]
  simp only [target_pageSteps]

variable (short : (threadQueries binned offsets blockDim thread).length ≤
  MATRIX_BATCH_MAX)

include short

/-- What a thread adds to the two counters. -/
theorem reads_matrixPageKernel (start : UInt64) :
    ((matrixPageKernel binned offsets blockDim thread).map
        PageStep.readsAdded).foldl (· + ·) start =
      start + UInt64.ofNat
        (readCount (threadQueries binned offsets blockDim thread)) := by
  rw [matrixPageKernel_eq inside, List.map_append, List.foldl_append,
    reads_counterSteps, toUInt64_countOpcode short, readCount,
    foldl_add_zeros]
  intro value member
  obtain ⟨access, there, rfl⟩ := List.mem_map.mp member
  obtain ⟨query, _, here⟩ := List.mem_flatMap.mp there
  exact (readsAdded_pageSteps query access here).1

theorem writes_matrixPageKernel (start : UInt64) :
    ((matrixPageKernel binned offsets blockDim thread).map
        PageStep.writesAdded).foldl (· + ·) start =
      start + UInt64.ofNat
        (queryWrites
          (threadQueries binned offsets blockDim thread)).length := by
  rw [matrixPageKernel_eq inside, List.map_append, List.foldl_append,
    writes_counterSteps, toUInt64_countOpcode short, queryWrites,
    List.length_map, ← List.countP_eq_length_filter, foldl_add_zeros]
  intro value member
  obtain ⟨access, there, rfl⟩ := List.mem_map.mp member
  obtain ⟨query, _, here⟩ := List.mem_flatMap.mp there
  exact (readsAdded_pageSteps query access here).2

end

/-! ## A batch under a schedule -/

/-- What a batch does to the device. -/
structure Performed (queries : List DatabaseQuery)
    (before after : DeviceStore) : Prop where
  reads : after.reads = before.reads + UInt64.ofNat (readCount queries)
  writes : after.writes =
    before.writes + UInt64.ofNat (queryWrites queries).length
  size : after.store.length = before.store.length
  slot : (∀ query ∈ queries, matrixSlotOf query.queryId =
      query.queryId.toNat) → ∀ key : UInt64,
    after.store[key.toNat]? =
      if (key, key) ∈ queryWrites queries then
        (before.store[key.toNat]?).map fun _ => key
      else before.store[key.toNat]?

theorem mem_queryWrites {queries : List DatabaseQuery} {key : UInt64} :
    (key, key) ∈ queryWrites queries ↔
      ∃ query ∈ queries, query.opcode = OP_WRITE ∧ query.queryId = key := by
  unfold queryWrites
  rw [List.mem_map]
  constructor
  · rintro ⟨query, member, same⟩
    obtain ⟨listed, writes⟩ := List.mem_filter.mp member
    exact ⟨query, listed, of_decide_eq_true writes,
      congrArg Prod.fst same⟩
  · rintro ⟨query, listed, writes, rfl⟩
    exact ⟨query, List.mem_filter.mpr ⟨listed, decide_eq_true writes⟩, rfl⟩

theorem mem_pageGrid_threads {thread : Nat × Nat}
    (member : thread ∈ pageGrid.threads) : thread.1 < MATRIX_PAGE_COUNT := by
  obtain ⟨page, inside, here⟩ := List.mem_flatMap.mp member
  obtain ⟨place, _, rfl⟩ := List.mem_map.mp here
  exact List.mem_range.mp inside

section
variable {batch : List DatabaseQuery}
  (short : batch.length ≤ MATRIX_BATCH_MAX)

include short

theorem length_threadQueries {thread : Nat × Nat}
    (member : thread ∈ pageGrid.threads) :
    (threadQueries (matrixBinByPage batch).1 (matrixBinByPage batch).2
      pageGrid.blockDim thread).length ≤ MATRIX_BATCH_MAX := by
  have all := (threadQueries_perm short).length_eq
  have sorted : (matrixBinByPage batch).1.length = batch.length := by
    rw [matrixBinByPage_fst]
    exact (grouped_perm (DatabaseQuery.page_lt batch)).length_eq
  have part := (List.sublist_flatten_of_mem
    (List.mem_map_of_mem (f := threadQueries (matrixBinByPage batch).1
      (matrixBinByPage batch).2 pageGrid.blockDim) member)).length_le
  rw [← List.flatMap_def] at part
  omega

omit short in
/-- What threads add one after another. -/
theorem foldl_threads {added : PageStep → UInt64}
    {amount : List DatabaseQuery → Nat} (nothing : amount [] = 0)
    (sum : ∀ earlier later,
      amount (earlier ++ later) = amount earlier + amount later)
    {program : Nat × Nat → List PageStep}
    {queries : Nat × Nat → List DatabaseQuery} {threads : List (Nat × Nat)}
    (one : ∀ thread ∈ threads, ∀ start,
      ((program thread).map added).foldl (· + ·) start =
        start + UInt64.ofNat (amount (queries thread))) (start : UInt64) :
    (((threads.map program).flatten).map added).foldl (· + ·) start =
      start + UInt64.ofNat (amount (threads.flatMap queries)) := by
  induction threads generalizing start with
  | nil =>
      rw [List.flatMap_nil, nothing]
      exact (UInt64.add_zero start).symm
  | cons thread threads induction =>
      have first := one thread List.mem_cons_self start
      have later := induction
        (fun other member => one other (.tail _ member))
        (start + UInt64.ofNat (amount (queries thread)))
      rw [List.map_cons, List.flatten_cons, List.map_append,
        List.foldl_append, first, later, List.flatMap_cons, sum,
        UInt64.ofNat_add, UInt64.add_assoc]

/-- The counters of all threads add up to those of the batch. -/
theorem reads_threads (start : UInt64) :
    (((pageGrid.threads.map (matrixPageKernel (matrixBinByPage batch).1
        (matrixBinByPage batch).2 pageGrid.blockDim)).flatten).map
        PageStep.readsAdded).foldl (· + ·) start =
      start + UInt64.ofNat (readCount (matrixBinByPage batch).1) := by
  have total := (threadQueries_perm short).countP_eq
    fun query => query.opcode = OP_READ
  rw [foldl_threads (show readCount [] = 0 from rfl) readCount_append
    fun thread member => reads_matrixPageKernel (mem_pageGrid_threads member)
      (length_threadQueries short member)]
  exact congrArg (fun count => start + UInt64.ofNat count) total

theorem writes_threads (start : UInt64) :
    (((pageGrid.threads.map (matrixPageKernel (matrixBinByPage batch).1
        (matrixBinByPage batch).2 pageGrid.blockDim)).flatten).map
        PageStep.writesAdded).foldl (· + ·) start =
      start + UInt64.ofNat (queryWrites (matrixBinByPage batch).1).length := by
  have total := (queryWrites_perm (threadQueries_perm short)).length_eq
  have sum : ∀ earlier later, (queryWrites (earlier ++ later)).length =
      (queryWrites earlier).length + (queryWrites later).length := by
    intro earlier later
    rw [queryWrites_append, List.length_append]
  rw [@foldl_threads PageStep.writesAdded
    (fun queries => (queryWrites queries).length) rfl sum _ _ _
    fun thread member => writes_matrixPageKernel (mem_pageGrid_threads member)
      (length_threadQueries short member)]
  exact congrArg (fun count => start + UInt64.ofNat count) total

/-- The stores of all threads are the writes of the batch. -/
theorem target_threads {write : Nat × UInt64} :
    write ∈ ((pageGrid.threads.map (matrixPageKernel (matrixBinByPage batch).1
        (matrixBinByPage batch).2 pageGrid.blockDim)).flatten).filterMap
          PageStep.target ↔
      ∃ query ∈ (matrixBinByPage batch).1, query.opcode = OP_WRITE ∧
        write = (matrixSlotOf query.queryId, query.queryId) := by
  have all := threadQueries_perm short
  rw [← List.flatMap_def, List.filterMap_flatMap, List.mem_flatMap]
  constructor
  · rintro ⟨thread, member, stores⟩
    obtain ⟨query, listed, writes⟩ := (target_matrixPageKernel
      (mem_pageGrid_threads member)).mp stores
    exact ⟨query, all.mem_iff.mp (List.mem_flatMap.mpr
      ⟨thread, member, listed⟩), writes⟩
  · rintro ⟨query, listed, writes⟩
    obtain ⟨thread, member, here⟩ :=
      List.mem_flatMap.mp (all.mem_iff.mpr listed)
    exact ⟨thread, member, (target_matrixPageKernel
      (mem_pageGrid_threads member)).mpr ⟨query, here, writes⟩⟩

/-- A batch that is not empty, in any order of its accesses. -/
theorem performed {order : List PageStep} (some : batch ≠ [])
    (scheduled : PageSchedule batch order) (device : DeviceStore) :
    Performed (matrixBinByPage batch).1 device
      (order.foldl DeviceStore.step device) := by
  have all : order.Perm (pageGrid.threads.map (matrixPageKernel
      (matrixBinByPage batch).1 (matrixBinByPage batch).2
        pageGrid.blockDim)).flatten := by
    have taken := scheduled.perm
    rw [batchThreads, if_neg some, List.take_of_length_le short] at taken
    exact taken
  constructor
  · rw [DeviceStore.reads_foldl_step, (all.map _).foldl_op_eq,
      reads_threads short]
  · rw [DeviceStore.writes_foldl_step, (all.map _).foldl_op_eq,
      writes_threads short]
  · rw [DeviceStore.store_foldl_step, length_foldl_set]
  · intro identical key
    have stores : ∀ write, write ∈ order.filterMap PageStep.target ↔
        ∃ query ∈ (matrixBinByPage batch).1, query.opcode = OP_WRITE ∧
          write = (query.queryId.toNat, query.queryId) := by
      intro write
      rw [(all.filterMap _).mem_iff, target_threads short]
      constructor
      · rintro ⟨query, listed, writes, same⟩
        rw [identical query listed] at same
        exact ⟨query, listed, writes, same⟩
      · rintro ⟨query, listed, writes, same⟩
        rw [← identical query listed] at same
        exact ⟨query, listed, writes, same⟩
    have fixed : ∀ write ∈ order.filterMap PageStep.target,
        write.2 = UInt64.ofNat write.1 := by
      intro write member
      obtain ⟨query, _, _, rfl⟩ := (stores write).mp member
      exact (UInt64.ofNat_toNat).symm
    have written : key.toNat ∈ (order.filterMap PageStep.target).map Prod.fst ↔
        (key, key) ∈ queryWrites (matrixBinByPage batch).1 := by
      rw [List.mem_map, mem_queryWrites]
      constructor
      · rintro ⟨write, member, same⟩
        obtain ⟨query, listed, writes, stored⟩ := (stores write).mp member
        rw [stored] at same
        exact ⟨query, listed, writes, UInt64.toNat_inj.mp same⟩
      · rintro ⟨query, listed, writes, same⟩
        subst same
        exact ⟨(query.queryId.toNat, query.queryId),
          (stores _).mpr ⟨query, listed, writes, rfl⟩, rfl⟩
    rw [DeviceStore.store_foldl_step, getElem?_foldl_set fixed]
    simp only [written, UInt64.ofNat_toNat]

end

end MatrixDB
