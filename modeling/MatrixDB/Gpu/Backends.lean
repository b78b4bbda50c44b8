import MatrixDB.Gpu.PageKernel

/-!
# One state of point operations on both backends

As long as all keys are slots, the device's array shows the host's table: the
slot of a stored key holds the key, any other slot holds zero.  A batch keeps it
so whatever the order of the device's accesses, and neither store ever refuses
or loses a write.
-/

namespace MatrixDB

open Lib

/-- The key is a slot. -/
def InSlots (key : UInt64) : Prop := key.toNat < MATRIX_STORE_SLOTS

theorem matrixSlotOf_eq {key : UInt64} (inSlots : InSlots key) :
    matrixSlotOf key = key.toNat := by
  have mask : MATRIX_STORE_MASK.toNat = 2 ^ 16 - 1 := by decide
  rw [matrixSlotOf, UInt64.toNat_and, mask, Nat.and_two_pow_sub_one_eq_mod]
  exact Nat.mod_eq_of_lt inSlots

/-! ## Room -/

/-- A table whose keys are slots has room for every slot. -/
theorem accepts_in_slots {kv : KVStore MATRIX_STORE_SLOTS}
    (held : ∀ key value, kv.get key = some value → InSlots key)
    {key : UInt64} (inSlots : InSlots key) :
    ¬(kv.Full ∧ kv.get key = none) := by
  rintro ⟨full, absent⟩
  have listed : ∀ other ∈ kv.forEach.map Prod.fst,
      InSlots other ∧ other ≠ key := by
    intro other member
    obtain ⟨entry, there, rfl⟩ := List.mem_map.mp member
    have stored := kv.mem_forEach_iff.mp there
    refine ⟨held _ _ stored, ?_⟩
    intro same
    rw [same, absent] at stored
    cases stored
  have numbers : ((kv.forEach.map Prod.fst).map UInt64.toNat).Nodup :=
    kv.nodup_forEach_keys.map fun _ _ same => UInt64.toNat_inj.mp same
  have inside : ((kv.forEach.map Prod.fst).map UInt64.toNat) ⊆
      (List.range MATRIX_STORE_SLOTS).erase key.toNat := by
    intro number member
    obtain ⟨other, there, rfl⟩ := List.mem_map.mp member
    obtain ⟨small, different⟩ := listed other there
    refine (List.mem_erase_of_ne ?_).mpr (List.mem_range.mpr small)
    exact fun same => different (UInt64.toNat_inj.mp same)
  have fits := (numbers.subperm inside).length_le
  rw [List.length_map, List.length_map, kv.length_forEach,
    List.length_erase_of_mem (List.mem_range.mpr inSlots), List.length_range,
    full] at fits
  have positive : 0 < MATRIX_STORE_SLOTS := by decide
  omega

theorem acceptsAll_in_slots {writes : List (UInt64 × UInt64)}
    (small : ∀ write ∈ writes, InSlots write.1)
    {kv : KVStore MATRIX_STORE_SLOTS}
    (held : ∀ key value, kv.get key = some value → InSlots key) :
    (KVStore.refusing MATRIX_STORE_SLOTS).AcceptsAll kv writes := by
  induction writes generalizing kv with
  | nil => trivial
  | cons write writes induction =>
      have here := small write List.mem_cons_self
      refine ⟨accepts_in_slots held here, ?_⟩
      apply induction fun other member => small other (.tail _ member)
      intro key value stored
      by_cases same : key = write.1
      · rw [same]
        exact here
      · rw [KVStore.refusing_put, kv.get_put_ne write.2 same] at stored
        exact held key value stored

/-! ## The states of both backends -/

/-- The device shows what the engine holds. -/
structure Mirrored (device : DeviceStore) (engine : PointOps) : Prop where
  size : device.store.length = MATRIX_STORE_SLOTS
  slot : ∀ key, InSlots key →
    device.store[key.toNat]? = some ((engine.kv.get key).getD 0)
  held : ∀ key value, engine.kv.get key = some value →
    InSlots key ∧ value = key
  reads : device.reads = engine.reads
  writes : device.writes = engine.writes
  commits : device.commits = engine.commits

/-- An engine whose store is empty and whose counters are zero, with or without a
log. -/
def PointOps.built (coldStore : Option ColdStore) : PointOps :=
  { PointOps.onStore .SYNC_EACH KVStore.fresh with coldStore := coldStore }

theorem mirrored_built (coldStore : Option ColdStore) :
    Mirrored DeviceStore.zeroed (PointOps.built coldStore) where
  size := List.length_replicate
  slot key inSlots := by
    change (List.replicate MATRIX_STORE_SLOTS (cudaMemset 0x00))[key.toNat]? =
      some ((KVStore.fresh.get key).getD 0)
    have small : key.toNat < MATRIX_STORE_SLOTS := inSlots
    rw [List.getElem?_replicate, if_pos small, KVStore.get_fresh]
    rfl
  held key value stored := by
    change KVStore.fresh.get key = some value at stored
    rw [KVStore.get_fresh] at stored
    cases stored
  reads := rfl
  writes := rfl
  commits := rfl

/-- Both backends clip a batch. -/
theorem actions_clipped (engine : PointOps) (batch : List DatabaseQuery) :
    engine.actions (.executeBatch batch) =
      engine.actions (.executeBatch (batch.take MATRIX_BATCH_MAX)) := by
  have size : (0 : Nat) < MATRIX_BATCH_MAX := by decide
  change engine.executeBatchActions batch = engine.executeBatchActions _
  unfold PointOps.executeBatchActions binnedQueries
  simp only [List.take_take, Nat.min_self]
  by_cases empty : batch = []
  · rw [empty]
    rfl
  · have some : batch.take MATRIX_BATCH_MAX ≠ [] := by
      intro none
      rcases List.take_eq_nil_iff.mp none with zero | nil
      · omega
      · exact empty nil
    rw [if_neg empty, if_neg some]

theorem batchThreads_clipped (batch : List DatabaseQuery) :
    batchThreads batch = batchThreads (batch.take MATRIX_BATCH_MAX) := by
  have size : (0 : Nat) < MATRIX_BATCH_MAX := by decide
  unfold batchThreads
  simp only [List.take_take, Nat.min_self]
  by_cases empty : batch = []
  · rw [empty]
    rfl
  · have some : batch.take MATRIX_BATCH_MAX ≠ [] := by
      intro none
      rcases List.take_eq_nil_iff.mp none with zero | nil
      · omega
      · exact empty nil
    rw [if_neg empty, if_neg some]

/-- A batch of slots on both backends. -/
theorem Mirrored.executeBatch {device : DeviceStore} {world : World}
    (mirrored : Mirrored device world.engine) (asserts : Bool)
    {batch : List DatabaseQuery}
    (small : ∀ query ∈ batch, InSlots query.queryId) {order : List PageStep}
    (scheduled : PageSchedule batch order) :
    ∃ after, (World.machine asserts).runAll
        (world.engine.actions (.executeBatch batch)) world = some after ∧
      Mirrored (order.foldl DeviceStore.step device) after.engine := by
  unfold PageSchedule at scheduled
  rw [batchThreads_clipped] at scheduled
  rw [actions_clipped]
  have inside : ∀ query ∈ batch.take MATRIX_BATCH_MAX, InSlots query.queryId :=
    fun query member => small query (List.mem_of_mem_take member)
  have short : (batch.take MATRIX_BATCH_MAX).length ≤ MATRIX_BATCH_MAX :=
    List.length_take_le _ _
  generalize batch.take MATRIX_BATCH_MAX = batch at scheduled inside short
  have sorted : (matrixBinByPage batch).1.Perm batch := by
    rw [matrixBinByPage_fst]
    exact grouped_perm (DatabaseQuery.page_lt batch)
  have writesInside : ∀ queries : List DatabaseQuery, queries.Perm batch →
      ∀ write ∈ queryWrites queries, InSlots write.1 ∧ write.2 = write.1 := by
    intro queries same write member
    obtain ⟨query, there, rfl⟩ := List.mem_map.mp member
    exact ⟨inside query (same.mem_iff.mp (List.mem_filter.mp there).1), rfl⟩
  have heldKeys : ∀ key value, world.engine.kv.get key = some value →
      InSlots key := fun key value stored => (mirrored.held key value stored).1
  have room : world.engine.HasRoom batch := acceptsAll_in_slots
    (fun write member => (writesInside batch (.refl _) write member).1) heldKeys
  obtain ⟨after, ran, done, _⟩ := run_executeBatch asserts short room
  refine ⟨after, ran, ?_⟩
  by_cases empty : batch = []
  · subst empty
    have none : order = [] := List.perm_nil.mp scheduled.perm
    have same := Option.some.inj ran
    rw [none, ← same]
    exact mirrored
  · have performed := performed short empty scheduled device
    have stored : ∀ key, after.engine.kv.get key =
        (lastWrite key (queryWrites (matrixBinByPage batch).1)).or
          (world.engine.kv.get key) := by
      intro key
      rw [done.kv]
      exact RefusingStore.AcceptsAll.get_replay _ (acceptsAll_in_slots
        (fun write member => (writesInside _ sorted write member).1) heldKeys)
        key
    have last : ∀ key, lastWrite key (queryWrites (matrixBinByPage batch).1) =
        if (key, key) ∈ queryWrites (matrixBinByPage batch).1 then some key
        else none := by
      intro key
      cases found : lastWrite key
          (queryWrites (matrixBinByPage batch).1) with
      | none =>
          have absent := lastWrite_eq_none_iff.mp found
          rw [if_neg fun member => absent _ member rfl]
      | some value =>
          have member := mem_of_lastWrite found
          have same : value = key := (writesInside _ sorted _ member).2
          rw [same] at member ⊢
          rw [if_pos member]
    constructor
    · exact performed.size.trans mirrored.size
    · intro key inSlots
      have identical : ∀ query ∈ (matrixBinByPage batch).1,
          matrixSlotOf query.queryId = query.queryId.toNat :=
        fun query member =>
          matrixSlotOf_eq (inside query (sorted.mem_iff.mp member))
      rw [performed.slot identical, mirrored.slot key inSlots, stored, last]
      split <;> rfl
    · intro key value found
      rw [stored, last] at found
      split at found
      · rename_i written
        cases found
        exact ⟨(writesInside _ sorted _ written).1, rfl⟩
      · exact mirrored.held key value found
    · rw [performed.reads, mirrored.reads, done.reads]
    · rw [performed.writes, mirrored.writes, done.writes]
    · have committed := mirrored.commits
      unfold DeviceStore.commits at committed ⊢
      rw [performed.writes, committed, done.commits]

/-! ## The checksums -/

theorem toNat_foldl_sum (values : List UInt64) (start : UInt64) :
    (values.foldl (· + ·) start).toNat =
      (start.toNat + (values.map UInt64.toNat).sum) % 2 ^ 64 := by
  induction values generalizing start with
  | nil => exact (Nat.mod_eq_of_lt start.toNat_lt).symm
  | cons value values induction =>
      rw [List.foldl_cons, induction, UInt64.toNat_add, List.map_cons,
        List.sum_cons, Nat.mod_add_mod, Nat.add_assoc]

theorem sum_map_ite (keep : Nat → Bool) (numbers : List Nat) :
    (numbers.map fun i => if keep i then i else 0).sum =
      (numbers.filter keep).sum := by
  induction numbers with
  | nil => rfl
  | cons i numbers induction =>
      rw [List.map_cons, List.sum_cons, induction]
      cases kept : keep i <;> simp [kept]

/-- The slots add up to the values in the table. -/
theorem Mirrored.checksum {device : DeviceStore} {engine : PointOps}
    (mirrored : Mirrored device engine) :
    device.storeChecksum = engine.kv.checksum := by
  let stored (i : Nat) : Bool := (engine.kv.get (UInt64.ofNat i)).isSome
  have number : ∀ i < MATRIX_STORE_SLOTS, (UInt64.ofNat i).toNat = i := by
    intro i small
    have slots : MATRIX_STORE_SLOTS = 65536 := rfl
    exact UInt64.toNat_ofNat_of_lt' (show i < 2 ^ 64 by omega)
  have slots : device.store.map UInt64.toNat =
      (List.range MATRIX_STORE_SLOTS).map fun i =>
        if stored i then i else 0 := by
    apply List.ext_getElem?
    intro i
    rw [List.getElem?_map, List.getElem?_map]
    by_cases small : i < MATRIX_STORE_SLOTS
    · have inSlots : InSlots (UInt64.ofNat i) := by
        rw [InSlots, number i small]
        exact small
      have shown := mirrored.slot _ inSlots
      rw [number i small] at shown
      rw [shown, List.getElem?_range small, Option.map_some, Option.map_some]
      congr 1
      cases found : engine.kv.get (UInt64.ofNat i) with
      | none => simp [stored, found]
      | some value =>
          have same := (mirrored.held _ _ found).2
          simp [stored, found, same, number i small]
    · have large := Nat.not_lt.mp small
      rw [List.getElem?_eq_none (by rw [mirrored.size]; exact large),
        List.getElem?_eq_none (by rw [List.length_range]; exact large)]
      rfl
  have table : (engine.kv.forEach.map fun entry => entry.2.toNat).Perm
      ((List.range MATRIX_STORE_SLOTS).filter stored) := by
    have values : (engine.kv.forEach.map fun entry => entry.2.toNat) =
        (engine.kv.forEach.map Prod.fst).map UInt64.toNat := by
      rw [List.map_map]
      apply List.map_congr_left
      rintro ⟨key, value⟩ member
      have same := (mirrored.held _ _
        (engine.kv.mem_forEach_iff.mp member)).2
      exact congrArg UInt64.toNat same
    have once : ((engine.kv.forEach.map Prod.fst).map UInt64.toNat).Nodup :=
      engine.kv.nodup_forEach_keys.map fun _ _ same => UInt64.toNat_inj.mp same
    rw [values]
    refine (List.perm_ext_iff_of_nodup once
      (List.nodup_range.filter _)).mpr ?_
    intro i
    rw [List.mem_filter, List.mem_range]
    constructor
    · intro member
      obtain ⟨key, there, rfl⟩ := List.mem_map.mp member
      obtain ⟨⟨other, value⟩, listed, rfl⟩ := List.mem_map.mp there
      have found := engine.kv.mem_forEach_iff.mp listed
      refine ⟨(mirrored.held _ _ found).1, ?_⟩
      simp [stored, found]
    · rintro ⟨small, present⟩
      obtain ⟨value, found⟩ := Option.isSome_iff_exists.mp present
      have listed := engine.kv.mem_forEach_iff.mpr found
      refine List.mem_map.mpr ⟨UInt64.ofNat i, ?_, number i small⟩
      exact List.mem_map.mpr ⟨_, listed, rfl⟩
  have added := toNat_foldl_sum device.store 0
  have host := KVStore.toNat_foldl_add engine.kv.forEach 0
  apply UInt64.toNat_inj.mp
  rw [DeviceStore.storeChecksum, added, slots, sum_map_ite, ← table.sum_eq]
  exact host.symm

/-! ## Runs -/

/-- What the two backends report. -/
structure SamePointOps (device : DeviceStore) (engine : PointOps) :
    Prop where
  reads : device.reads = engine.reads
  writes : device.writes = engine.writes
  commits : device.commits = engine.commits
  checksum : device.storeChecksum = engine.kv.checksum

theorem Mirrored.executeBatches {batches : List (List DatabaseQuery)}
    {orders : List (List PageStep)}
    (scheduled : List.Forall₂ PageSchedule batches orders)
    (small : ∀ batch ∈ batches, ∀ query ∈ batch, InSlots query.queryId)
    (asserts : Bool) {device : DeviceStore} {world : World}
    (mirrored : Mirrored device world.engine) :
    ∃ after, world.runEvents asserts
        (batches.map fun batch => .call (.executeBatch batch)) = some after ∧
      Mirrored (device.executeBatches orders) after.engine := by
  induction scheduled generalizing device world with
  | nil => exact ⟨world, rfl, mirrored⟩
  | cons first later induction =>
      obtain ⟨next, ran, kept⟩ := mirrored.executeBatch asserts
        (small _ List.mem_cons_self) first
      obtain ⟨after, ranLater, last⟩ := induction
        (fun batch member => small batch (.tail _ member)) kept
      refine ⟨after, ?_, last⟩
      rw [List.map_cons, World.runEvents, World.runEvent, ran]
      exact ranLater

/-- Batches of slots leave both backends with the same counters and the same
checksum, whatever the order of the device's accesses. -/
theorem backends_agree {batches : List (List DatabaseQuery)}
    {orders : List (List PageStep)}
    (scheduled : List.Forall₂ PageSchedule batches orders)
    (small : ∀ batch ∈ batches, ∀ query ∈ batch,
      query.queryId.toNat < MATRIX_STORE_SLOTS)
    (asserts : Bool) (coldStore : Option ColdStore) (disk : Disk)
    (notes : List Note) :
    ∃ after, World.runEvents asserts
        { engine := PointOps.built coldStore, disk := disk, notes := notes }
        (batches.map fun batch => .call (.executeBatch batch)) = some after ∧
      SamePointOps (DeviceStore.zeroed.executeBatches orders)
        after.engine := by
  have start : Mirrored DeviceStore.zeroed (World.engine
      { engine := PointOps.built coldStore, disk := disk, notes := notes }) :=
    mirrored_built coldStore
  obtain ⟨after, ran, mirrored⟩ := start.executeBatches scheduled small asserts
  exact ⟨after, ran, mirrored.reads, mirrored.writes, mirrored.commits,
    mirrored.checksum⟩

/-- A key that is written twice and read, and a second batch. -/
theorem backends_agree_twice :
    ∃ orders after, World.runEvents true
        { engine := PointOps.built none, disk := Disk.empty, notes := [] }
        [.call (.executeBatch [⟨7, 0, OP_WRITE⟩, ⟨7, 0, OP_READ⟩,
          ⟨7, 0, OP_WRITE⟩]), .call (.executeBatch [⟨64, 0, OP_WRITE⟩])] =
          some after ∧
      SamePointOps (DeviceStore.zeroed.executeBatches orders)
        after.engine := by
  have small : ∀ batch ∈ [[(⟨7, 0, OP_WRITE⟩ : DatabaseQuery),
      ⟨7, 0, OP_READ⟩, ⟨7, 0, OP_WRITE⟩], [⟨64, 0, OP_WRITE⟩]],
      ∀ query ∈ batch, query.queryId.toNat < MATRIX_STORE_SLOTS := by
    decide
  exact ⟨_, backends_agree
    (.cons (interleaves_flatten _) (.cons (interleaves_flatten _) .nil)) small
    true none Disk.empty []⟩

end MatrixDB
