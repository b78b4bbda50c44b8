import MatrixDB.Engine.OrderedIndex
import MatrixDB.Lib.CountingSort

/-!
# A batch by pages and a batch in order

`execute_batch` works through a batch page by page.  Queries on one key share a
page and keep their order there, and queries on different keys do not touch what
the other ones read, so the answers and the store are those of the batch taken
query by query.
-/

namespace MatrixDB

open Lib

/-! ## The counting sort -/

theorem matrixPageOf_lt (key : UInt64) :
    matrixPageOf key < MATRIX_PAGE_COUNT := by
  have masked : (key &&& MATRIX_STORE_MASK).toNat ≤
      MATRIX_STORE_MASK.toNat := by
    rw [UInt64.toNat_and]
    exact Nat.and_le_right
  have mask : MATRIX_STORE_MASK.toNat = 65535 := by decide
  have size : MATRIX_PAGE_SIZE = 64 := by decide
  unfold matrixPageOf
  rw [size, MATRIX_PAGE_COUNT]
  omega

/-- The page of a query. -/
def DatabaseQuery.page (query : DatabaseQuery) : Nat :=
  matrixPageOf query.queryId

theorem DatabaseQuery.page_lt (batch : List DatabaseQuery) :
    ∀ query ∈ batch, query.page < MATRIX_PAGE_COUNT :=
  fun query _ => matrixPageOf_lt query.queryId

theorem pageCounts_eq (batch : List DatabaseQuery) :
    pageCounts batch =
      tally DatabaseQuery.page batch (List.replicate MATRIX_PAGE_COUNT 0) :=
  rfl

theorem scatter_eq (batch : List DatabaseQuery) (cursor : List Nat)
    (binned : List DatabaseQuery) :
    scatter batch cursor binned =
      scatterInto DatabaseQuery.page batch cursor binned := by
  induction batch generalizing cursor binned with
  | nil => rfl
  | cons query batch induction => exact induction _ _

/-- Each page's offset is the number of queries on lower pages. -/
theorem getElem?_pageOffsets (batch : List DatabaseQuery) {page : Nat}
    (known : page ≤ MATRIX_PAGE_COUNT) :
    (pageOffsets (pageCounts batch))[page]? =
      some (binStart DatabaseQuery.page batch page) :=
  getElem?_offsets batch known

theorem matrixBinByPage_snd (batch : List DatabaseQuery) :
    (matrixBinByPage batch).2 = pageOffsets (pageCounts batch) := rfl

theorem matrixBinByPage_fst (batch : List DatabaseQuery) :
    (matrixBinByPage batch).1 =
      grouped DatabaseQuery.page MATRIX_PAGE_COUNT batch := by
  unfold matrixBinByPage
  simp only
  rw [scatter_eq]
  apply scatterInto_eq_grouped (DatabaseQuery.page_lt batch)
  · intro page known
    rw [List.getElem?_take_of_lt known]
    exact getElem?_pageOffsets batch (Nat.le_of_lt known)
  · exact List.length_replicate

/-- The pages' slices, in the order of the pages, are all positions. -/
theorem binnedQueries_eq {batch : List DatabaseQuery}
    (short : batch.length ≤ MATRIX_BATCH_MAX) :
    binnedQueries batch = positioned 0 (matrixBinByPage batch).1 := by
  have sorted := matrixBinByPage_fst batch
  have size : (matrixBinByPage batch).1.length = batch.length := by
    rw [sorted]
    exact (grouped_perm (DatabaseQuery.page_lt batch)).length_eq
  unfold binnedQueries visitOrder
  simp only [List.take_of_length_le short]
  have slices : ∀ page ∈ List.range MATRIX_PAGE_COUNT,
      (List.range' ((matrixBinByPage batch).2.getD page 0)
        ((matrixBinByPage batch).2.getD (page + 1) 0 -
          (matrixBinByPage batch).2.getD page 0)).filterMap
          (fun position => ((matrixBinByPage batch).1[position]?).map
            fun query => (position, query)) =
        ((positioned 0 (matrixBinByPage batch).1).drop
          (binStart DatabaseQuery.page batch page)).take
            (binCount DatabaseQuery.page batch page) := by
    intro page member
    have known := List.mem_range.mp member
    have start : (matrixBinByPage batch).2.getD page 0 =
        binStart DatabaseQuery.page batch page := by
      rw [List.getD_eq_getElem?_getD, matrixBinByPage_snd,
        getElem?_pageOffsets batch (Nat.le_of_lt known)]
      rfl
    have next : (matrixBinByPage batch).2.getD (page + 1) 0 =
        binStart DatabaseQuery.page batch page +
          binCount DatabaseQuery.page batch page := by
      rw [List.getD_eq_getElem?_getD, matrixBinByPage_snd,
        getElem?_pageOffsets batch known, binStart_succ]
      rfl
    rw [start, next, Nat.add_sub_cancel_left, filterMap_range']
  rw [List.flatMap_congr slices, flatMap_slices,
    binStart_all (DatabaseQuery.page_lt batch), ← size]
  apply List.take_of_length_le
  apply Nat.le_of_eq
  rw [positioned, List.length_map, List.length_zipIdx]

/-! ## What a list of queries does -/

/-- The writes of a list of queries: the value is the key. -/
def queryWrites (queries : List DatabaseQuery) : List (UInt64 × UInt64) :=
  (queries.filter fun query => query.opcode = OP_WRITE).map
    fun query => (query.queryId, query.queryId)

def readCount (queries : List DatabaseQuery) : Nat :=
  queries.countP fun query => query.opcode = OP_READ

/-- The copy of a query that `execute_batch` leaves behind, when the store holds
`held`. -/
def DatabaseQuery.answered (held : UInt64 → Option UInt64)
    (query : DatabaseQuery) : DatabaseQuery :=
  if query.opcode = OP_READ then
    { query with transactionId := (held query.queryId).getD 0 }
  else query

/-- What the store holds after a query that is accepted. -/
def DatabaseQuery.heldAfter (held : UInt64 → Option UInt64)
    (query : DatabaseQuery) : UInt64 → Option UInt64 :=
  if query.opcode = OP_WRITE then
    fun key => if key = query.queryId then some query.queryId else held key
  else held

/-- The answered copies of queries that are executed one after another. -/
def answers : (UInt64 → Option UInt64) → List DatabaseQuery →
    List DatabaseQuery
  | _, [] => []
  | held, query :: later =>
      query.answered held :: answers (query.heldAfter held) later

theorem queryWrites_append (earlier later : List DatabaseQuery) :
    queryWrites (earlier ++ later) =
      queryWrites earlier ++ queryWrites later := by
  rw [queryWrites, List.filter_append, List.map_append]
  rfl

theorem readCount_append (earlier later : List DatabaseQuery) :
    readCount (earlier ++ later) = readCount earlier + readCount later :=
  List.countP_append

theorem queryWrites_perm {left right : List DatabaseQuery}
    (permuted : left.Perm right) :
    (queryWrites left).Perm (queryWrites right) :=
  (permuted.filter _).map _

@[simp] theorem DatabaseQuery.answered_queryId
    (held : UInt64 → Option UInt64) (query : DatabaseQuery) :
    (query.answered held).queryId = query.queryId := by
  unfold answered
  split <;> rfl

theorem DatabaseQuery.heldAfter_ne (held : UInt64 → Option UInt64)
    {query : DatabaseQuery} {key : UInt64} (different : key ≠ query.queryId) :
    query.heldAfter held key = held key := by
  unfold heldAfter
  split
  · exact if_neg different
  · rfl

theorem map_queryId_answers (held : UInt64 → Option UInt64)
    (queries : List DatabaseQuery) :
    (answers held queries).map DatabaseQuery.queryId =
      queries.map DatabaseQuery.queryId := by
  induction queries generalizing held with
  | nil => rfl
  | cons query queries induction =>
      rw [answers, List.map_cons, List.map_cons, induction,
        DatabaseQuery.answered_queryId]

/-- Only the keys that are asked for matter. -/
theorem answers_congr {held other : UInt64 → Option UInt64}
    {queries : List DatabaseQuery}
    (same : ∀ query ∈ queries, held query.queryId = other query.queryId) :
    answers held queries = answers other queries := by
  induction queries generalizing held other with
  | nil => rfl
  | cons query queries induction =>
      have here := same query List.mem_cons_self
      have first : query.answered held = query.answered other := by
        unfold DatabaseQuery.answered
        rw [here]
      have rest : answers (query.heldAfter held) queries =
          answers (query.heldAfter other) queries := by
        apply induction
        intro later member
        have equal := same later (List.mem_cons_of_mem _ member)
        unfold DatabaseQuery.heldAfter
        split
        · simp only [equal]
        · exact equal
      rw [answers, answers, first, rest]

/-- Queries on other keys can be left out. -/
theorem answers_filter (keep : UInt64 → Bool) (held : UInt64 → Option UInt64)
    (queries : List DatabaseQuery) :
    answers held (queries.filter fun query => keep query.queryId) =
      (answers held queries).filter fun query => keep query.queryId := by
  induction queries generalizing held with
  | nil => rfl
  | cons query queries induction =>
      rw [answers, List.filter_cons, List.filter_cons,
        DatabaseQuery.answered_queryId, ← induction]
      cases kept : keep query.queryId with
      | true => rfl
      | false =>
          simp only [Bool.false_eq_true, if_false]
          apply answers_congr
          intro later member
          have inside := (List.mem_filter.mp member).2
          have different : later.queryId ≠ query.queryId := by
            intro same
            rw [same, kept] at inside
            cases inside
          exact (DatabaseQuery.heldAfter_ne held different).symm

theorem answers_append (held : UInt64 → Option UInt64)
    (earlier later : List DatabaseQuery)
    (apart : ∀ first ∈ earlier, ∀ second ∈ later,
      first.queryId ≠ second.queryId) :
    answers held (earlier ++ later) =
      answers held earlier ++ answers held later := by
  induction earlier generalizing held with
  | nil => rfl
  | cons query earlier induction =>
      have others := apart query List.mem_cons_self
      rw [List.cons_append, answers, answers, induction,
        List.cons_append]
      · congr 2
        apply answers_congr
        intro second member
        exact DatabaseQuery.heldAfter_ne held (others second member).symm
      · intro first member
        exact apart first (List.mem_cons_of_mem _ member)

/-- Binning the queries bins their answers. -/
theorem answers_grouped (held : UInt64 → Option UInt64)
    (queries : List DatabaseQuery) (pages : Nat) :
    answers held (grouped DatabaseQuery.page pages queries) =
      grouped DatabaseQuery.page pages (answers held queries) := by
  induction pages with
  | zero => rfl
  | succ pages induction =>
      unfold grouped at induction ⊢
      rw [List.range_succ, List.flatMap_append, List.flatMap_append,
        List.flatMap_singleton, List.flatMap_singleton, answers_append,
        induction]
      · congr 1
        exact answers_filter (fun key => matrixPageOf key = pages) held queries
      · intro first inLower second inPage same
        obtain ⟨lower, member, inside⟩ := List.mem_flatMap.mp inLower
        have left := of_decide_eq_true (List.mem_filter.mp inside).2
        have right := of_decide_eq_true (List.mem_filter.mp inPage).2
        have below := List.mem_range.mp member
        rw [DatabaseQuery.page] at left right
        rw [same, right] at left
        omega

/-! ## Running queries -/

/-- What a list of queries has done to the store, the index, the counters and
the log. -/
structure Executed (queries : List DatabaseQuery) (before after : World) :
    Prop where
  kv : after.engine.kv = (KVStore.refusing MATRIX_STORE_SLOTS).replay
    before.engine.kv (queryWrites queries)
  keyIndex : after.engine.keyIndex = (queryWrites queries).foldl
    (fun index write => insertEntry write.1 write.2 index)
    before.engine.keyIndex
  reads : after.engine.reads =
    before.engine.reads + UInt64.ofNat (readCount queries)
  writes : after.engine.writes =
    before.engine.writes + UInt64.ofNat (queryWrites queries).length
  commits : after.engine.commits =
    before.engine.commits + UInt64.ofNat (queryWrites queries).length
  storeOverflows : after.engine.storeOverflows = before.engine.storeOverflows
  coldStore : after.engine.coldStore.isSome = before.engine.coldStore.isSome
  wal : after.disk.wal = before.disk.wal ++
    if before.engine.coldStore.isSome then
      encodeAll ((queryWrites queries).map fun write => .put write.1 write.2)
    else []

theorem Executed.nil (world : World) : Executed [] world world where
  kv := rfl
  keyIndex := rfl
  reads := (UInt64.add_zero _).symm
  writes := (UInt64.add_zero _).symm
  commits := (UInt64.add_zero _).symm
  storeOverflows := rfl
  coldStore := rfl
  wal := by split <;> exact (List.append_nil _).symm

theorem Executed.append {earlier later : List DatabaseQuery}
    {before middle after : World} (first : Executed earlier before middle)
    (second : Executed later middle after) :
    Executed (earlier ++ later) before after where
  kv := by
    rw [second.kv, first.kv, queryWrites_append, RefusingStore.replay_append]
  keyIndex := by
    rw [second.keyIndex, first.keyIndex, queryWrites_append,
      List.foldl_append]
  reads := by
    rw [second.reads, first.reads, readCount_append, UInt64.ofNat_add,
      UInt64.add_assoc]
  writes := by
    rw [second.writes, first.writes, queryWrites_append, List.length_append,
      UInt64.ofNat_add, UInt64.add_assoc]
  commits := by
    rw [second.commits, first.commits, queryWrites_append,
      List.length_append, UInt64.ofNat_add, UInt64.add_assoc]
  storeOverflows := second.storeOverflows.trans first.storeOverflows
  coldStore := second.coldStore.trans first.coldStore
  wal := by
    rw [second.wal, first.wal, first.coldStore, List.append_assoc,
      queryWrites_append, List.map_append, encodeAll_append]
    split <;> rfl

/-- An accepted write, with or without assertions. -/
theorem PointOps.applyCommittedWrite_accepted (asserts : Bool)
    (engine : PointOps) {key : UInt64} (value : UInt64)
    (room : ¬(engine.kv.Full ∧ engine.kv.get key = none)) :
    engine.applyCommittedWrite asserts key value =
      some { engine with
        kv := (engine.kv.put key value).2
        writes := engine.writes + 1
        commits := engine.commits + 1
        keyIndex := indexInsert key value engine.keyIndex } := by
  have accepted : (engine.kv.put key value).1 = true := by
    rw [← Bool.not_eq_false, engine.kv.put_fst_eq_false_iff]
    exact room
  unfold PointOps.applyCommittedWrite
  simp [accepted]

theorem queryWrites_other {query : DatabaseQuery}
    (other : query.opcode ≠ OP_WRITE) : queryWrites [query] = [] := by
  simp [queryWrites, other]

theorem queryWrites_write {query : DatabaseQuery}
    (write : query.opcode = OP_WRITE) :
    queryWrites [query] = [(query.queryId, query.queryId)] := by
  simp [queryWrites, write]

theorem readCount_read {query : DatabaseQuery} (read : query.opcode = OP_READ) :
    readCount [query] = 1 := by
  simp [readCount, read]

theorem readCount_other {query : DatabaseQuery}
    (other : query.opcode ≠ OP_READ) : readCount [query] = 0 := by
  simp [readCount, other]

/-- What one query does, apart from its answer, if its write is accepted. -/
theorem run_query (asserts : Bool) {engine : PointOps} {world : World}
    {position : Nat} {query : DatabaseQuery}
    (sameLog : engine.coldStore.isSome = world.engine.coldStore.isSome)
    (stands : world.engine.binned[position]? = some query)
    (room : (KVStore.refusing MATRIX_STORE_SLOTS).AcceptsAll world.engine.kv
      (queryWrites [query])) :
    ∃ after, (World.machine asserts).runAll
        (engine.queryActions (position, query)) world = some after ∧
      Executed [query] world after ∧
      after.engine.kv.get = query.heldAfter world.engine.kv.get ∧
      after.engine.binned = world.engine.binned.set position
        (query.answered world.engine.kv.get) := by
  unfold PointOps.queryActions
  by_cases read : query.opcode = OP_READ
  · have noWrite : query.opcode ≠ OP_WRITE := by
      rw [read]
      decide
    simp only [read, if_true]
    refine ⟨_, rfl, ?_, ?_, ?_⟩
    · exact {
        kv := by rw [queryWrites_other noWrite]; rfl
        keyIndex := by rw [queryWrites_other noWrite]; rfl
        reads := by rw [readCount_read read]; rfl
        writes := by
          rw [queryWrites_other noWrite]
          exact (UInt64.add_zero _).symm
        commits := by
          rw [queryWrites_other noWrite]
          exact (UInt64.add_zero _).symm
        storeOverflows := rfl
        coldStore := rfl
        wal := by
          rw [queryWrites_other noWrite]
          split <;> exact (List.append_nil _).symm }
    · unfold DatabaseQuery.heldAfter
      rw [if_neg noWrite]
    · unfold DatabaseQuery.answered
      rw [if_pos read]
      change world.engine.binned.modify position _ = _
      rw [List.modify_eq_set_getElem?, stands]
      rfl
  · have unanswered : world.engine.binned.set position
        (query.answered world.engine.kv.get) = world.engine.binned := by
      unfold DatabaseQuery.answered
      rw [if_neg read]
      obtain ⟨inside, same⟩ := List.getElem?_eq_some_iff.mp stands
      rw [← same, List.set_getElem_self]
    by_cases write : query.opcode = OP_WRITE
    · rw [queryWrites_write write] at room
      have stored : (world.engine.kv.put query.queryId query.queryId).2.get =
          query.heldAfter world.engine.kv.get := by
        funext key
        unfold DatabaseQuery.heldAfter
        rw [if_pos write]
        by_cases same : key = query.queryId
        · rw [same, KVStore.get_put_self _ _ _ room.1, if_pos rfl]
        · rw [KVStore.get_put_ne _ _ same, if_neg same]
      have inserted := PointOps.indexInsert_eq query.queryId query.queryId
        world.engine.keyIndex
      simp only [if_neg read, if_pos write]
      cases logged : engine.coldStore.isSome with
      | false =>
          rw [logged] at sameLog
          have accepted := PointOps.applyCommittedWrite_accepted asserts
            world.engine query.queryId room.1
          simp only [Bool.false_eq_true, if_false, List.nil_append,
            Machine.runAll, World.machine, World.run, accepted,
            Option.map_some]
          refine ⟨_, rfl, ?_, stored, unanswered.symm⟩
          exact {
            kv := by rw [queryWrites_write write]; rfl
            keyIndex := by rw [queryWrites_write write]; exact inserted
            reads := by
              rw [readCount_other read]
              exact (UInt64.add_zero _).symm
            writes := by rw [queryWrites_write write]; rfl
            commits := by rw [queryWrites_write write]; rfl
            storeOverflows := rfl
            coldStore := rfl
            wal := by
              rw [← sameLog]
              exact (List.append_nil _).symm }
      | true =>
          rw [logged] at sameLog
          have accepted := PointOps.applyCommittedWrite_accepted asserts
            (World.countRecord world.engine) query.queryId room.1
          simp only [if_true, List.cons_append, List.nil_append,
            Machine.runAll, World.machine, World.run, World.appendBytes,
            accepted, Option.map_some]
          refine ⟨_, rfl, ?_, stored, unanswered.symm⟩
          exact {
            kv := by rw [queryWrites_write write]; rfl
            keyIndex := by rw [queryWrites_write write]; exact inserted
            reads := by
              rw [readCount_other read]
              exact (UInt64.add_zero _).symm
            writes := by rw [queryWrites_write write]; rfl
            commits := by rw [queryWrites_write write]; rfl
            storeOverflows := rfl
            coldStore := Option.isSome_map
            wal := by
              rw [← sameLog, queryWrites_write write, List.take_length]
              simp }
    · simp only [if_neg read, if_neg write]
      refine ⟨_, rfl, ?_, ?_, unanswered.symm⟩
      · exact {
          kv := by rw [queryWrites_other write]; rfl
          keyIndex := by rw [queryWrites_other write]; rfl
          reads := by
            rw [readCount_other read]
            exact (UInt64.add_zero _).symm
          writes := by
            rw [queryWrites_other write]
            exact (UInt64.add_zero _).symm
          commits := by
            rw [queryWrites_other write]
            exact (UInt64.add_zero _).symm
          storeOverflows := rfl
          coldStore := rfl
          wal := by
            rw [queryWrites_other write]
            split <;> exact (List.append_nil _).symm }
      · unfold DatabaseQuery.heldAfter
        rw [if_neg write]

/-- A list of queries at consecutive positions. -/
theorem run_queries (asserts : Bool) {engine : PointOps} {world : World}
    {done queries : List DatabaseQuery}
    (sameLog : engine.coldStore.isSome = world.engine.coldStore.isSome)
    (stand : world.engine.binned = done ++ queries)
    (room : (KVStore.refusing MATRIX_STORE_SLOTS).AcceptsAll world.engine.kv
      (queryWrites queries)) :
    ∃ after, (World.machine asserts).runAll
        ((positioned done.length queries).flatMap engine.queryActions) world =
          some after ∧
      Executed queries world after ∧
      after.engine.binned = done ++ answers world.engine.kv.get queries := by
  induction queries generalizing world done with
  | nil => exact ⟨world, rfl, Executed.nil world, stand⟩
  | cons query queries induction =>
      have both : queryWrites (query :: queries) =
          queryWrites [query] ++ queryWrites queries :=
        queryWrites_append [query] queries
      rw [both, RefusingStore.acceptsAll_append] at room
      have stands : world.engine.binned[done.length]? = some query := by
        rw [stand, List.getElem?_append_right (Nat.le_refl _), Nat.sub_self]
        rfl
      obtain ⟨middle, ran, first, held, binned⟩ :=
        run_query asserts sameLog stands room.1
      have later := room.2
      rw [← first.kv] at later
      have shifted : middle.engine.binned =
          (done ++ [query.answered world.engine.kv.get]) ++ queries := by
        rw [binned, stand, List.set_append_right _ _ (Nat.le_refl _),
          Nat.sub_self, List.set_cons_zero, List.append_assoc,
          List.singleton_append]
      obtain ⟨after, ranLater, second, answered⟩ :=
        induction (sameLog.trans first.coldStore.symm) shifted later
      rw [List.length_append, List.length_singleton] at ranLater
      refine ⟨after, ?_, first.append second, ?_⟩
      · rw [positioned_cons, List.flatMap_cons, Machine.runAll_append, ran]
        exact ranLater
      · rw [answered, held, List.append_assoc, List.singleton_append, answers]

/-! ## The batch and its queries one by one -/

/-- Replaying logged puts gives them back. -/
theorem replay_puts (writes : List (UInt64 × UInt64)) :
    replay (encodeAll (writes.map fun write => .put write.1 write.2)) =
      writes := by
  have stepped : ∀ state : ReplayState,
      state.steps (writes.map fun write => .put write.1 write.2) =
        { state with applied := state.applied ++ writes } := by
    induction writes with
    | nil =>
        intro state
        rw [List.append_nil]
        rfl
    | cons write writes induction =>
        intro state
        have later := induction (state.step (.put write.1 write.2))
        rw [ReplayState.steps] at later ⊢
        rw [List.map_cons, List.foldl_cons, later]
        simp [ReplayState.step]
  have whole := scan_torn (writes.map fun write =>
    WalRecord.put write.1 write.2) (.inl rfl) .start
  rw [List.append_nil] at whole
  rw [replay, whole, stepped]
  exact List.nil_append writes

/-- No write of the batch finds the table full. -/
def PointOps.HasRoom (engine : PointOps) (batch : List DatabaseQuery) : Prop :=
  (KVStore.refusing MATRIX_STORE_SLOTS).AcceptsAll engine.kv
    (queryWrites batch)

theorem actions_executeBatch (engine : PointOps) {batch : List DatabaseQuery}
    (some : batch ≠ []) (short : batch.length ≤ MATRIX_BATCH_MAX) :
    engine.actions (.executeBatch batch) =
      .bin (matrixBinByPage batch).1 ::
        (positioned 0 (matrixBinByPage batch).1).flatMap
          engine.queryActions := by
  change engine.executeBatchActions batch = _
  unfold PointOps.executeBatchActions
  rw [if_neg some, List.take_of_length_le short, binnedQueries_eq short]

/-- A batch is executed in the order of its pages. -/
theorem run_executeBatch (asserts : Bool) {world : World}
    {batch : List DatabaseQuery} (short : batch.length ≤ MATRIX_BATCH_MAX)
    (room : world.engine.HasRoom batch) :
    ∃ after, (World.machine asserts).runAll
        (world.engine.actions (.executeBatch batch)) world = some after ∧
      Executed (matrixBinByPage batch).1 world after ∧
      (batch ≠ [] → after.engine.binned =
        (matrixBinByPage (answers world.engine.kv.get batch)).1) := by
  have permuted : (matrixBinByPage batch).1.Perm batch := by
    rw [matrixBinByPage_fst]
    exact grouped_perm (DatabaseQuery.page_lt batch)
  by_cases empty : batch = []
  · subst empty
    rw [List.perm_nil.mp permuted]
    exact ⟨world, rfl, Executed.nil world, fun some => absurd rfl some⟩
  · rw [actions_executeBatch _ empty short]
    let binned : World := { world with
      engine := { world.engine with binned := (matrixBinByPage batch).1 } }
    have roomBinned : (KVStore.refusing MATRIX_STORE_SLOTS).AcceptsAll
        binned.engine.kv (queryWrites (matrixBinByPage batch).1) :=
      KVStore.acceptsAll_perm (queryWrites_perm permuted.symm) room
    have stand : binned.engine.binned = [] ++ (matrixBinByPage batch).1 := rfl
    have sameLog : world.engine.coldStore.isSome =
        binned.engine.coldStore.isSome := rfl
    obtain ⟨after, ran, done, answered⟩ :=
      run_queries asserts sameLog stand roomBinned
    refine ⟨after, ran, { done with }, ?_⟩
    intro _
    rw [answered, List.nil_append, matrixBinByPage_fst, matrixBinByPage_fst]
    exact answers_grouped _ batch MATRIX_PAGE_COUNT

/-- A query as a batch of its own. -/
def World.executeOne (asserts : Bool) (world : World) (query : DatabaseQuery) :
    Option World :=
  (World.machine asserts).runAll
    (world.engine.actions (.executeBatch [query])) world

/-- The queries of a batch one after another, with the copy that each leaves
behind. -/
def World.executeInOrder (asserts : Bool) : List DatabaseQuery → World →
    Option (List DatabaseQuery × World)
  | [], world => some ([], world)
  | query :: later, world =>
      (world.executeOne asserts query).bind fun next =>
        (executeInOrder asserts later next).map fun (copies, last) =>
          (next.engine.binned ++ copies, last)

/-- A batch of one query leaves its answer in the first position. -/
theorem run_executeOne (asserts : Bool) {world : World} {query : DatabaseQuery}
    (room : world.engine.HasRoom [query]) :
    ∃ after, world.executeOne asserts query = some after ∧
      Executed [query] world after ∧
      after.engine.kv.get = query.heldAfter world.engine.kv.get ∧
      after.engine.binned = [query.answered world.engine.kv.get] := by
  have alone : (matrixBinByPage [query]).1 = [query] := by
    rw [matrixBinByPage_fst]
    exact List.perm_singleton.mp (grouped_perm (DatabaseQuery.page_lt _))
  have short : [query].length ≤ MATRIX_BATCH_MAX := by
    rw [List.length_singleton, MATRIX_BATCH_MAX]
    omega
  unfold World.executeOne
  rw [actions_executeBatch _ (List.cons_ne_nil _ _) short, alone]
  let binned : World := { world with
    engine := { world.engine with binned := [query] } }
  have sameLog : world.engine.coldStore.isSome =
      binned.engine.coldStore.isSome := rfl
  have stands : binned.engine.binned[0]? = some query := rfl
  obtain ⟨after, ran, done, held, answered⟩ :=
    run_query asserts sameLog stands room
  refine ⟨after, ?_, { done with }, held, answered⟩
  change Machine.runAll _ (world.engine.queryActions (0, query) ++ []) binned =
    some after
  rw [List.append_nil]
  exact ran

theorem run_executeInOrder (asserts : Bool) {world : World}
    {batch : List DatabaseQuery} (room : world.engine.HasRoom batch) :
    ∃ last, world.executeInOrder asserts batch =
        some (answers world.engine.kv.get batch, last) ∧
      Executed batch world last := by
  induction batch generalizing world with
  | nil => exact ⟨world, rfl, Executed.nil world⟩
  | cons query batch induction =>
      have both : queryWrites (query :: batch) =
          queryWrites [query] ++ queryWrites batch :=
        queryWrites_append [query] batch
      unfold PointOps.HasRoom at room
      rw [both, RefusingStore.acceptsAll_append] at room
      have one : world.engine.HasRoom [query] := room.1
      obtain ⟨next, ran, first, held, answered⟩ := run_executeOne asserts one
      have later : next.engine.HasRoom batch := by
        unfold PointOps.HasRoom
        rw [first.kv]
        exact room.2
      obtain ⟨last, ranLater, second⟩ := induction later
      refine ⟨last, ?_, first.append second⟩
      rw [World.executeInOrder, ran, Option.bind_some, ranLater,
        Option.map_some, answered, held, answers]
      dsimp only
      rw [List.singleton_append]

/-! ## Both orders agree -/

/-- Queries on one key come in the order of the batch. -/
theorem filter_matrixBinByPage (batch : List DatabaseQuery) (key : UInt64) :
    ((matrixBinByPage batch).1.filter fun query => query.queryId = key) =
      batch.filter fun query => query.queryId = key := by
  rw [matrixBinByPage_fst]
  apply filter_grouped (matrixPageOf_lt key)
  intro query _ same
  rw [DatabaseQuery.page, of_decide_eq_true same]

theorem lastWrite_queryWrites (queries : List DatabaseQuery) (key : UInt64) :
    lastWrite key (queryWrites queries) = lastWrite key
      (queryWrites (queries.filter fun query => query.queryId = key)) := by
  rw [← lastWrite_filter key (queryWrites queries)]
  congr 1
  unfold queryWrites
  rw [List.filter_map, List.filter_filter, List.filter_filter]
  congr 1
  apply List.filter_congr
  intro query _
  exact Bool.and_comm _ _

theorem lastWrite_matrixBinByPage (batch : List DatabaseQuery)
    (key : UInt64) :
    lastWrite key (queryWrites (matrixBinByPage batch).1) =
      lastWrite key (queryWrites batch) := by
  rw [lastWrite_queryWrites, filter_matrixBinByPage, ← lastWrite_queryWrites]

/-- The offsets cut the binned queries into the pages, each with its queries in
the order of the batch. -/
structure BinnedByPage (batch binned : List DatabaseQuery)
    (offsets : List Nat) : Prop where
  first : offsets[0]? = some 0
  last : offsets[MATRIX_PAGE_COUNT]? = some batch.length
  page : ∀ page < MATRIX_PAGE_COUNT, ∃ first last,
    offsets[page]? = some first ∧ offsets[page + 1]? = some last ∧
    first ≤ last ∧ (binned.drop first).take (last - first) =
      batch.filter fun query => matrixPageOf query.queryId = page
  perm : binned.Perm batch

theorem matrixBinByPage_binned (batch : List DatabaseQuery) :
    BinnedByPage batch (matrixBinByPage batch).1 (matrixBinByPage batch).2 := by
  have inside := DatabaseQuery.page_lt batch
  refine ⟨?_, ?_, ?_, ?_⟩
  · rw [matrixBinByPage_snd, getElem?_pageOffsets batch (Nat.zero_le _),
      binStart_zero]
  · rw [matrixBinByPage_snd, getElem?_pageOffsets batch (Nat.le_refl _),
      binStart_all inside]
  · intro page known
    refine ⟨binStart DatabaseQuery.page batch page,
      binStart DatabaseQuery.page batch (page + 1), ?_, ?_, ?_, ?_⟩
    · rw [matrixBinByPage_snd,
        getElem?_pageOffsets batch (Nat.le_of_lt known)]
    · rw [matrixBinByPage_snd, getElem?_pageOffsets batch known]
    · exact binStart_mono batch (Nat.le_succ page)
    · rw [binStart_succ, Nat.add_sub_cancel_left, matrixBinByPage_fst]
      exact slice_grouped inside known
  · rw [matrixBinByPage_fst]
    exact grouped_perm inside

/-- For a batch that fits, page order and batch order give the same map, index,
counters and answers, and the log records of the batch rebuild the map. -/
theorem executeBatch_eq_executeInOrder (asserts : Bool) {world : World}
    {batch : List DatabaseQuery} (short : batch.length ≤ MATRIX_BATCH_MAX)
    (ascending : Ascending world.engine.keyIndex)
    (room : world.engine.HasRoom batch) :
    (∃ after copies last logged,
      (World.machine asserts).runAll
        (world.engine.actions (.executeBatch batch)) world = some after ∧
      world.executeInOrder asserts batch = some (copies, last) ∧
      (∀ key, after.engine.kv.get key = last.engine.kv.get key) ∧
      after.engine.keyIndex = last.engine.keyIndex ∧
      after.engine.reads = last.engine.reads ∧
      after.engine.writes = last.engine.writes ∧
      after.engine.commits = last.engine.commits ∧
      after.engine.storeOverflows = last.engine.storeOverflows ∧
      copies.map DatabaseQuery.queryId = batch.map DatabaseQuery.queryId ∧
      (batch ≠ [] → after.engine.binned = (matrixBinByPage copies).1) ∧
      after.disk.wal = world.disk.wal ++ logged ∧
      (world.engine.coldStore.isSome → ∀ key,
        ((KVStore.refusing MATRIX_STORE_SLOTS).replay world.engine.kv
          (replay logged)).get key = last.engine.kv.get key)) ∧
    BinnedByPage batch (matrixBinByPage batch).1 (matrixBinByPage batch).2 := by
  refine ⟨?_, matrixBinByPage_binned batch⟩
  obtain ⟨after, ran, binned, answered⟩ := run_executeBatch asserts short room
  obtain ⟨last, ranInOrder, ordered⟩ := run_executeInOrder asserts room
  have permuted : (matrixBinByPage batch).1.Perm batch := by
    rw [matrixBinByPage_fst]
    exact grouped_perm (DatabaseQuery.page_lt batch)
  have writesPermuted := queryWrites_perm permuted
  have roomBinned :=
    KVStore.acceptsAll_perm writesPermuted.symm room
  have sameMap : ∀ key, after.engine.kv.get key = last.engine.kv.get key := by
    intro key
    have left := roomBinned.get_replay _ key
    have right := RefusingStore.AcceptsAll.get_replay _ room key
    rw [lastWrite_matrixBinByPage, ← right] at left
    rw [binned.kv, ordered.kv]
    exact left
  have sameIndex : after.engine.keyIndex = last.engine.keyIndex := by
    rw [binned.keyIndex, ordered.keyIndex]
    apply Ascending.ext (ascending.insertAll _) (ascending.insertAll _)
    rintro ⟨key, value⟩
    rw [mem_insertWrites_iff ascending, mem_insertWrites_iff ascending,
      lastWrite_matrixBinByPage]
  refine ⟨after, answers world.engine.kv.get batch, last, _, ran, ranInOrder,
    sameMap, sameIndex, ?_, ?_, ?_, ?_, ?_, answered, binned.wal, ?_⟩
  · rw [binned.reads, ordered.reads, readCount, permuted.countP_eq]
    rfl
  · rw [binned.writes, ordered.writes, writesPermuted.length_eq]
  · rw [binned.commits, ordered.commits, writesPermuted.length_eq]
  · rw [binned.storeOverflows, ordered.storeOverflows]
  · exact map_queryId_answers _ batch
  · intro logs key
    rw [if_pos logs, replay_puts, ← binned.kv]
    exact sameMap key

/-- A read before and one after the write of its key, on a new engine. -/
theorem executeBatch_eq_executeInOrder_fresh :
    ∃ after copies last,
      (World.machine true).runAll
        ((World.initial .SYNC_EACH).engine.actions
          (.executeBatch [⟨7, 0, OP_READ⟩, ⟨64, 0, OP_WRITE⟩,
            ⟨7, 0, OP_WRITE⟩, ⟨7, 0, OP_READ⟩]))
        (World.initial .SYNC_EACH) = some after ∧
      (World.initial .SYNC_EACH).executeInOrder true
        [⟨7, 0, OP_READ⟩, ⟨64, 0, OP_WRITE⟩, ⟨7, 0, OP_WRITE⟩,
          ⟨7, 0, OP_READ⟩] = some (copies, last) ∧
      (∀ key, after.engine.kv.get key = last.engine.kv.get key) ∧
      after.engine.binned = (matrixBinByPage copies).1 := by
  have room : (World.initial .SYNC_EACH).engine.HasRoom
      [⟨7, 0, OP_READ⟩, ⟨64, 0, OP_WRITE⟩, ⟨7, 0, OP_WRITE⟩,
        ⟨7, 0, OP_READ⟩] := by
    refine ⟨?_, ?_, trivial⟩
    · rintro ⟨full, _⟩
      cases full
    · rintro ⟨full, _⟩
      cases full
  have ascending : Ascending (World.initial .SYNC_EACH).engine.keyIndex :=
    (PointOps.mirrors_onStore .SYNC_EACH KVStore.fresh).ascending
  obtain ⟨⟨after, copies, last, _, ran, ranInOrder, same, _, _, _, _, _, _,
    answered, _⟩, _⟩ :=
    executeBatch_eq_executeInOrder true (by decide) ascending room
  exact ⟨after, copies, last, ran, ranInOrder, same,
    answered (List.cons_ne_nil _ _)⟩

end MatrixDB
