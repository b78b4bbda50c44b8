import MatrixDB.Pipeline.RingCalls

/-!
# The pipeline and the queries in order

Whatever the four threads do, the flushed batches are a prefix of what was
produced, and the engine has done what it would have done query by query.
-/

namespace MatrixDB

open Lib

theorem pointsOf_point (q : DatabaseQuery) (later : List Ingest) :
    pointsOf (.point q :: later) = q :: pointsOf later := rfl

theorem pointsOf_scan (q : ScanQuery) (later : List Ingest) :
    pointsOf (.scan q :: later) = pointsOf later := rfl

theorem scansOf_point (q : DatabaseQuery) (later : List Ingest) :
    scansOf (.point q :: later) = scansOf later := rfl

theorem scansOf_scan (q : ScanQuery) (later : List Ingest) :
    scansOf (.scan q :: later) = q :: scansOf later := rfl

/-! ## Two orders on the engine -/

/-- What is asked of an engine finds the same in both. -/
structure SameStore (left right : PointOps) : Prop where
  get : ∀ key, left.kv.get key = right.kv.get key
  keyIndex : left.keyIndex = right.keyIndex
  reads : left.reads = right.reads
  writes : left.writes = right.writes
  commits : left.commits = right.commits
  storeOverflows : left.storeOverflows = right.storeOverflows

/-- Two orders that agree on every key. -/
theorem Executed.sameStore {left right : List DatabaseQuery}
    {before after last : World} (permuted : left.Perm right)
    (same : ∀ key, (left.filter fun query => query.queryId = key) =
      right.filter fun query => query.queryId = key)
    (ascending : Ascending before.engine.keyIndex)
    (room : before.engine.HasRoom right)
    (first : Executed left before after)
    (second : Executed right before last) :
    SameStore after.engine last.engine := by
  have writesPermuted := queryWrites_perm permuted
  have roomLeft := KVStore.acceptsAll_perm writesPermuted.symm room
  have lasts : ∀ key, lastWrite key (queryWrites left) =
      lastWrite key (queryWrites right) := by
    intro key
    rw [lastWrite_queryWrites, same, ← lastWrite_queryWrites]
  constructor
  · intro key
    have here := roomLeft.get_replay _ key
    have there := RefusingStore.AcceptsAll.get_replay _ room key
    rw [lasts, ← there] at here
    rw [first.kv, second.kv]
    exact here
  · rw [first.keyIndex, second.keyIndex]
    apply Ascending.ext (ascending.insertAll _) (ascending.insertAll _)
    rintro ⟨key, value⟩
    rw [mem_insertWrites_iff ascending, mem_insertWrites_iff ascending, lasts]
  · rw [first.reads, second.reads, readCount, permuted.countP_eq]
    rfl
  · rw [first.writes, second.writes, writesPermuted.length_eq]
  · rw [first.commits, second.commits, writesPermuted.length_eq]
  · rw [first.storeOverflows, second.storeOverflows]

namespace Pipeline

variable {S : Type} {asserts : Bool} {executeScan : S → ScanQuery → Option S}
  {program : List Ingest} {first : World} {firstEngine : S}
  {p after : Pipeline S}

/-- The queries of the batches as the engine visits them. -/
def binned (flushed : List (List DatabaseQuery)) : List DatabaseQuery :=
  flushed.flatMap fun batch => (matrixBinByPage batch).1

/-! ## What holds between any two steps -/

/-- The ring of point operations, the batch, and what has been flushed. -/
structure Points (program : List Ingest) (first : World) (p : Pipeline S) :
    Prop where
  ring : Threads.Reachable id p.pointRing
  sent : pointsOf program = p.pointRing.pushed ++ pointsOf p.toSend
  holds : ∀ held, p.pointRing.producer.value = some held →
    ∃ later, p.toSend = .point held :: later
  popped : p.pointRing.popped = p.flushed.flatten ++ p.batch
  total : p.totalProcessed = p.flushed.flatten.length
  sizes : ∀ batch ∈ p.flushed,
    batch ≠ [] ∧ batch.length ≤ BATCH_SIZE_LIMIT
  fits : p.batch.length ≤ BATCH_SIZE_LIMIT
  room : p.batcher ≠ .checking → p.batch.length < BATCH_SIZE_LIMIT
  called : p.batcher = .popping ↔ p.pointRing.consumer ≠ .idle
  executed : Executed (binned p.flushed) first p.world
  stopped : p.batcher = .stopped → p.runState = false

/-- The ring of scans and what has been run. -/
structure Scans (executeScan : S → ScanQuery → Option S)
    (program : List Ingest) (firstEngine : S) (p : Pipeline S) : Prop where
  ring : Threads.Reachable id p.scanRing
  sent : scansOf program = p.scanRing.pushed ++ scansOf p.toSend
  holds : ∀ held, p.scanRing.producer.value = some held →
    ∃ later, p.toSend = .scan held :: later
  popped : p.scanRing.popped = p.scanned ++
    match p.scanner with
    | .executing _ => [p.scanRing.output]
    | _ => []
  counted : p.scansProcessed = p.scanned.length
  called : (∃ draining, p.scanner = .popping draining) ↔
    p.scanRing.consumer ≠ .idle
  executed : p.scanned.foldlM executeScan firstEngine = some p.scanEngine
  draining : p.scanner ∈ [.head true, .popping true, .executing true,
    .stopped] → p.runState = false

/-- `main` has stopped the consumers only after its wait. -/
def Waits (program : List Ingest) (p : Pipeline S) : Prop :=
  p.runState = false → p.waited program = true

structure Invariant (executeScan : S → ScanQuery → Option S)
    (program : List Ingest) (first : World) (firstEngine : S)
    (p : Pipeline S) : Prop where
  points : Points program first p
  scans : Scans executeScan program firstEngine p
  waits : Waits program p

theorem invariant_start (q : DatabaseQuery) (scan : ScanQuery) :
    Invariant executeScan program first firstEngine
      (start program first firstEngine q scan) where
  points :=
    { ring := .start q q
      sent := rfl
      holds := nofun
      popped := rfl
      total := rfl
      sizes := nofun
      fits := Nat.zero_le _
      room := fun _ => (by decide : 0 < BATCH_SIZE_LIMIT)
      called := ⟨nofun, fun other => absurd rfl other⟩
      executed := .nil first
      stopped := nofun }
  scans :=
    { ring := .start scan scan
      sent := rfl
      holds := nofun
      popped := rfl
      counted := rfl
      called := ⟨nofun, fun other => absurd rfl other⟩
      executed := rfl
      draining := by simp [start] }
  waits := nofun

/-! ## The producer -/

theorem Invariant.stepProducer
    (invariant : Invariant executeScan program first firstEngine p)
    (ran : p.stepProducer = some after) :
    Invariant executeScan program first firstEngine after := by
  obtain ⟨points, scans, waits⟩ := invariant
  unfold Pipeline.stepProducer at ran
  have still : ∀ {after : Pipeline S}, p.toSend ≠ [] →
      after.runState = p.runState → Waits program after := by
    intro after some same stops
    have waited := waits (same.symm.trans stops)
    unfold Pipeline.waited at waited
    simp only [Bool.and_eq_true, List.isEmpty_iff] at waited
    exact absurd waited.1.1 some
  have pointHolds := points.holds
  have scanHolds := scans.holds
  have pointSent := points.sent
  have scanSent := scans.sent
  cases send : p.toSend with
  | nil =>
      rw [send] at ran
      cases ran
  | cons next later =>
      have some : p.toSend ≠ [] := by simp [send]
      rw [send] at pointHolds scanHolds pointSent scanSent
      cases next with
      | point q =>
          simp only [send] at ran
          obtain ⟨⟨ring, event⟩, offered, same⟩ := Option.map_eq_some_iff.mp ran
          have offers := Threads.offer_offers (by
            intro held holds
            obtain ⟨_, equal⟩ := pointHolds held holds
            cases equal
            rfl) offered
          cases same
          refine ⟨{ points with
            ring := points.ring.offer offered
            sent := ?_
            holds := ?_
            popped := offers.popped.trans points.popped
            called := ?_ }, { scans with
            sent := ?_
            holds := ?_ }, still some rfl⟩
          · rw [offers.pushed, pointSent]
            split
            · rw [List.append_assoc]
              rfl
            · rw [List.append_nil]
          · intro held holds
            obtain ⟨rfl, goes⟩ := offers.holds held holds
            exact ⟨later, if_neg goes⟩
          · rw [offers.consumer]
            exact points.called
          · rw [scanSent]
            split
            · rfl
            · rfl
          · intro held holds
            obtain ⟨_, equal⟩ := scanHolds held holds
            cases equal
      | scan q =>
          simp only [send] at ran
          obtain ⟨⟨ring, event⟩, offered, same⟩ := Option.map_eq_some_iff.mp ran
          have offers := Threads.offer_offers (by
            intro held holds
            obtain ⟨_, equal⟩ := scanHolds held holds
            cases equal
            rfl) offered
          cases same
          refine ⟨{ points with
            sent := ?_
            holds := ?_ }, { scans with
            ring := scans.ring.offer offered
            sent := ?_
            holds := ?_
            popped := ?_
            called := ?_ }, still some rfl⟩
          · rw [pointSent]
            split
            · rfl
            · rfl
          · intro held holds
            obtain ⟨_, equal⟩ := pointHolds held holds
            cases equal
          · rw [offers.pushed, scanSent]
            split
            · rw [List.append_assoc]
              rfl
            · rw [List.append_nil]
          · intro held holds
            obtain ⟨rfl, goes⟩ := offers.holds held holds
            exact ⟨later, if_neg goes⟩
          · rw [offers.popped, offers.output]
            exact scans.popped
          · rw [offers.consumer]
            exact scans.called

/-! ## The batcher -/

theorem Points.produced (points : Points program first p)
    (few : (pointsOf program).length < 2 ^ 64) :
    ∃ rest, pointsOf program = p.flushed.flatten ++ p.batch ++ rest := by
  have sent := points.sent
  have pushed : p.pointRing.pushed.length < 2 ^ 64 := by
    rw [sent, List.length_append] at few
    omega
  obtain ⟨unread, queued⟩ := points.ring.popped_prefix pushed
  rw [← queued, points.popped, List.append_assoc] at sent
  exact ⟨_, sent⟩

theorem perm_binned (flushed : List (List DatabaseQuery)) :
    (binned flushed).Perm flushed.flatten := by
  induction flushed with
  | nil => exact .nil
  | cons batch flushed induction =>
      have here : (matrixBinByPage batch).1.Perm batch := by
        rw [matrixBinByPage_fst]
        exact grouped_perm (DatabaseQuery.page_lt batch)
      exact here.append induction

theorem binned_concat (flushed : List (List DatabaseQuery))
    (batch : List DatabaseQuery) :
    binned (flushed ++ [batch]) =
      binned flushed ++ (matrixBinByPage batch).1 := by
  rw [binned, List.flatMap_append, List.flatMap_singleton]
  rfl

/-- What has been flushed left room for what follows. -/
theorem Points.hasRoom (points : Points program first p)
    (few : (pointsOf program).length < 2 ^ 64)
    (room : first.engine.HasRoom (pointsOf program)) :
    p.world.engine.HasRoom p.batch := by
  obtain ⟨rest, produced⟩ := points.produced few
  have permuted : (pointsOf program).Perm
      (binned p.flushed ++ (p.batch ++ rest)) := by
    rw [produced, List.append_assoc]
    exact (perm_binned p.flushed).symm.append_right _
  have accepts := KVStore.acceptsAll_perm (queryWrites_perm permuted) room
  rw [queryWrites_append, queryWrites_append, RefusingStore.acceptsAll_append,
    RefusingStore.acceptsAll_append, ← points.executed.kv] at accepts
  exact accepts.2.1

theorem mustFlush_spec {batch : List DatabaseQuery} {elapsed : Nat}
    (flush : mustFlush batch elapsed = true) : batch ≠ [] := by
  rintro rfl
  cases flush

theorem lt_of_not_mustFlush {batch : List DatabaseQuery} {elapsed : Nat}
    (waits : ¬mustFlush batch elapsed = true) :
    batch.length < BATCH_SIZE_LIMIT := by
  cases batch with
  | nil => exact (by decide : 0 < BATCH_SIZE_LIMIT)
  | cons q batch =>
      unfold mustFlush at waits
      simp only [List.isEmpty_cons, Bool.not_false, Bool.true_and,
        Bool.or_eq_true, decide_eq_true_eq, not_or] at waits
      exact Nat.not_le.mp waits.1

theorem batch_short {batch : List DatabaseQuery}
    (fits : batch.length ≤ BATCH_SIZE_LIMIT) :
    batch.length ≤ MATRIX_BATCH_MAX :=
  Nat.le_trans fits (by decide)

theorem Invariant.stepBatcher
    (few : (pointsOf program).length < 2 ^ 64)
    (room : first.engine.HasRoom (pointsOf program))
    (invariant : Invariant executeScan program first firstEngine p)
    {incoming : DatabaseQuery} {elapsed : Nat}
    (ran : p.stepBatcher asserts incoming elapsed = some after) :
    Invariant executeScan program first firstEngine after := by
  obtain ⟨points, scans, waits⟩ := invariant
  have called := points.called
  unfold Pipeline.stepBatcher at ran
  cases place : p.batcher with
  | head =>
      simp only [place] at ran called
      split at ran
      · rename_i running
        obtain ⟨⟨ring, event⟩, popping, same⟩ := Option.map_eq_some_iff.mp ran
        obtain ⟨other, popped, busy⟩ := Threads.tryPop_called popping
        cases same
        refine ⟨{ points with
          ring := points.ring.step popping
          sent := ?_
          holds := ?_
          popped := popped.trans points.popped
          room := fun _ => points.room (by simp [place])
          called := ⟨fun _ => busy, fun _ => rfl⟩
          stopped := nofun }, { scans with }, waits⟩
        · rw [other.pushed]
          exact points.sent
        · rw [other.producer]
          exact points.holds
      · rename_i stops
        cases ran
        refine ⟨{ points with
          room := fun _ => points.room (by simp [place])
          called := ⟨nofun, fun busy => (nomatch called.mpr busy)⟩
          stopped := fun _ => (Bool.not_eq_true _).mp stops }, { scans with },
          waits⟩
  | popping =>
      simp only [place] at ran called
      obtain ⟨⟨ring, event⟩, popping, ran⟩ := Option.bind_eq_some_iff.mp ran
      obtain ⟨other, takes⟩ := Threads.stepConsumer_takes popping
      have sent : pointsOf program = ring.pushed ++ pointsOf p.toSend := by
        rw [other.pushed]
        exact points.sent
      have holds : ∀ held, ring.producer.value = some held →
          ∃ later, p.toSend = .point held :: later := by
        rw [other.producer]
        exact points.holds
      cases takes with
      | goes same busy =>
          cases ran
          exact ⟨{ points with
            ring := points.ring.step popping
            sent := sent
            holds := holds
            popped := same.trans points.popped
            room := fun _ => points.room (by simp [place])
            called := ⟨fun _ => busy, fun _ => rfl⟩
            stopped := nofun }, { scans with }, waits⟩
      | failed same idle =>
          cases ran
          exact ⟨{ points with
            ring := points.ring.step popping
            sent := sent
            holds := holds
            popped := same.trans points.popped
            room := fun other => absurd rfl other
            called := ⟨nofun, fun busy => absurd idle busy⟩
            stopped := nofun }, { scans with }, waits⟩
      | popped more idle =>
          simp only at ran
          split at ran
          · rename_i space
            cases ran
            refine ⟨{ points with
              ring := points.ring.step popping
              sent := sent
              holds := holds
              popped := ?_
              fits := ?_
              room := fun other => absurd rfl other
              called := ⟨nofun, fun busy => absurd idle busy⟩
              stopped := nofun }, { scans with }, waits⟩
            · rw [more, points.popped, List.append_assoc]
            · rw [List.length_append, List.length_singleton]
              exact space
          · cases ran
  | checking =>
      simp only [place] at ran called
      split at ran
      · rename_i flush
        obtain ⟨world, executes, same⟩ := Option.map_eq_some_iff.mp ran
        obtain ⟨reached, ran, executed, _⟩ := run_executeBatch asserts
          (batch_short points.fits) (points.hasRoom few room)
        cases executes.symm.trans ran
        cases same
        refine ⟨{ points with
          popped := ?_
          total := ?_
          sizes := ?_
          fits := Nat.zero_le _
          room := fun _ => (by decide : 0 < BATCH_SIZE_LIMIT)
          called := ⟨nofun, fun busy => (nomatch called.mpr busy)⟩
          executed := ?_
          stopped := nofun }, { scans with }, ?_⟩
        · rw [points.popped]
          simp
        · rw [points.total]
          simp
        · intro batch member
          rcases List.mem_append.mp member with earlier | last
          · exact points.sizes batch earlier
          · cases List.mem_singleton.mp last
            exact ⟨mustFlush_spec flush, points.fits⟩
        · rw [binned_concat]
          exact points.executed.append executed
        · intro stops
          have waited := waits stops
          simp only [Pipeline.waited, Bool.and_eq_true, decide_eq_true_eq]
            at waited ⊢
          exact ⟨⟨waited.1.1, Nat.le_add_right_of_le waited.1.2⟩, waited.2⟩
      · rename_i waiting
        cases ran
        exact ⟨{ points with
          room := fun _ => lt_of_not_mustFlush waiting
          called := ⟨nofun, fun busy => (nomatch called.mpr busy)⟩
          stopped := nofun }, { scans with }, waits⟩
  | stopped =>
      simp only [place] at ran
      cases ran

/-! ## The scanner and `main` -/

theorem Invariant.stepScanner
    (invariant : Invariant executeScan program first firstEngine p)
    {incoming : ScanQuery}
    (ran : p.stepScanner executeScan incoming = some after) :
    Invariant executeScan program first firstEngine after := by
  obtain ⟨points, scans, waits⟩ := invariant
  have called := scans.called
  have popped := scans.popped
  have drains := scans.draining
  unfold Pipeline.stepScanner at ran
  cases place : p.scanner with
  | head draining =>
      simp only [place] at ran called popped drains
      obtain ⟨⟨ring, event⟩, popping, same⟩ := Option.map_eq_some_iff.mp ran
      obtain ⟨other, still, busy⟩ := Threads.tryPop_called popping
      cases same
      refine ⟨{ points with }, { scans with
        ring := scans.ring.step popping
        sent := ?_
        holds := ?_
        popped := still.trans popped
        called := ⟨fun _ => busy, fun _ => ⟨_, rfl⟩⟩
        draining := ?_ }, waits⟩
      · rw [other.pushed]
        exact scans.sent
      · rw [other.producer]
        exact scans.holds
      · cases draining with
        | true => exact fun _ => drains (by simp)
        | false => simp
  | popping draining =>
      simp only [place] at ran called popped drains
      obtain ⟨⟨ring, event⟩, popping, same⟩ := Option.map_eq_some_iff.mp ran
      obtain ⟨other, takes⟩ := Threads.stepConsumer_takes popping
      have sent : scansOf program = ring.pushed ++ scansOf p.toSend := by
        rw [other.pushed]
        exact scans.sent
      have holds : ∀ held, ring.producer.value = some held →
          ∃ later, p.toSend = .scan held :: later := by
        rw [other.producer]
        exact scans.holds
      cases takes with
      | goes still busy =>
          cases same
          exact ⟨{ points with }, { scans with
            ring := scans.ring.step popping
            sent := sent
            holds := holds
            popped := still.trans popped
            called := ⟨fun _ => busy, fun _ => ⟨_, rfl⟩⟩
            draining := drains }, waits⟩
      | failed still idle =>
          cases same
          refine ⟨{ points with }, { scans with
            ring := scans.ring.step popping
            sent := sent
            holds := holds
            popped := ?_
            called := ?_
            draining := ?_ }, waits⟩
          · rw [still, popped]
            cases draining <;> rfl
          · cases draining <;>
              exact ⟨nofun, fun busy => absurd idle busy⟩
          · cases draining with
            | true => exact fun _ => drains (by simp)
            | false => simp
      | popped more idle =>
          cases same
          refine ⟨{ points with }, { scans with
            ring := scans.ring.step popping
            sent := sent
            holds := holds
            popped := ?_
            called := ⟨nofun, fun busy => absurd idle busy⟩
            draining := ?_ }, waits⟩
          · rw [more, popped, List.append_nil]
          · cases draining with
            | true => exact fun _ => drains (by simp)
            | false => simp
  | executing draining =>
      simp only [place] at ran called popped drains
      obtain ⟨engine, executes, same⟩ := Option.map_eq_some_iff.mp ran
      cases same
      refine ⟨{ points with }, { scans with
        popped := ?_
        counted := ?_
        called := ⟨nofun, fun busy => (nomatch called.mpr busy)⟩
        executed := ?_
        draining := ?_ }, ?_⟩
      · rw [popped, List.append_nil]
      · rw [scans.counted, List.length_append, List.length_singleton]
      · rw [List.foldlM_append, scans.executed]
        simp [executes]
      · cases draining with
        | true => exact fun _ => drains (by simp)
        | false => simp
      · intro stops
        have waited := waits stops
        simp only [Pipeline.waited, Bool.and_eq_true, decide_eq_true_eq]
          at waited ⊢
        exact ⟨waited.1, Nat.le_succ_of_le waited.2⟩
  | stopped =>
      simp only [place] at ran
      cases ran

theorem Invariant.stepMain
    (invariant : Invariant executeScan program first firstEngine p)
    (ran : p.stepMain program = some after) :
    Invariant executeScan program first firstEngine after := by
  obtain ⟨points, scans, _⟩ := invariant
  unfold Pipeline.stepMain at ran
  split at ran
  · rename_i ready
    cases ran
    exact ⟨{ points with stopped := fun _ => rfl },
      { scans with draining := fun _ => rfl },
      fun _ => (Bool.and_eq_true_iff.mp ready).2⟩
  · cases ran

/-- One step of any thread. -/
theorem Invariant.step (few : (pointsOf program).length < 2 ^ 64)
    (room : first.engine.HasRoom (pointsOf program))
    (invariant : Invariant executeScan program first firstEngine p)
    {action : PipelineAction}
    (ran : p.step asserts executeScan program action = some after) :
    Invariant executeScan program first firstEngine after := by
  cases action with
  | producer => exact invariant.stepProducer ran
  | batcher incoming elapsed => exact invariant.stepBatcher few room ran
  | scanner incoming => exact invariant.stepScanner ran
  | main => exact invariant.stepMain ran

/-- Every interleaving. -/
theorem Reachable.invariant {q : DatabaseQuery} {scan : ScanQuery}
    (reached : Reachable asserts executeScan program
      (Pipeline.start program first firstEngine q scan) p)
    (few : (pointsOf program).length < 2 ^ 64)
    (room : first.engine.HasRoom (pointsOf program)) :
    Invariant executeScan program first firstEngine p := by
  induction reached with
  | start => exact invariant_start q scan
  | step _ ran induction => exact induction.step few room ran

/-! ## What has been done at any time -/

/-- Queries on one key are visited in the order they were flushed in. -/
theorem filter_binned (flushed : List (List DatabaseQuery)) (key : UInt64) :
    ((binned flushed).filter fun query => query.queryId = key) =
      flushed.flatten.filter fun query => query.queryId = key := by
  induction flushed with
  | nil => rfl
  | cons batch flushed induction =>
      have parts : binned (batch :: flushed) =
          (matrixBinByPage batch).1 ++ binned flushed := List.flatMap_cons
      rw [parts, List.filter_append, filter_matrixBinByPage, induction,
        List.flatten_cons, List.filter_append]

/-- What has been flushed is a prefix, in batches that fit, and leaves the
engine where the queries leave it one by one. -/
structure PointsInOrder (asserts : Bool) (program : List Ingest)
    (first : World) (p : Pipeline S) : Prop where
  produced : p.flushed.flatten <+: pointsOf program
  processed : p.totalProcessed = p.flushed.flatten.length
  sizes : ∀ batch ∈ p.flushed,
    batch ≠ [] ∧ batch.length ≤ BATCH_SIZE_LIMIT
  executed : ∃ copies last,
    first.executeInOrder asserts p.flushed.flatten = some (copies, last) ∧
      SameStore p.world.engine last.engine

structure ScansInOrder (executeScan : S → ScanQuery → Option S)
    (program : List Ingest) (firstEngine : S) (p : Pipeline S) : Prop where
  produced : p.scanned <+: scansOf program
  processed : p.scansProcessed = p.scanned.length
  executed : p.scanned.foldlM executeScan firstEngine = some p.scanEngine

theorem Points.inOrder (points : Points program first p)
    (few : (pointsOf program).length < 2 ^ 64)
    (ascending : Ascending first.engine.keyIndex)
    (room : first.engine.HasRoom (pointsOf program)) :
    PointsInOrder asserts program first p := by
  obtain ⟨rest, produced⟩ := points.produced few
  have roomFlushed : first.engine.HasRoom p.flushed.flatten := by
    unfold PointOps.HasRoom at room ⊢
    rw [produced, List.append_assoc, queryWrites_append,
      RefusingStore.acceptsAll_append] at room
    exact room.1
  obtain ⟨last, ran, ordered⟩ := run_executeInOrder asserts roomFlushed
  exact {
    produced := ⟨p.batch ++ rest, by rw [produced, List.append_assoc]⟩
    processed := points.total
    sizes := points.sizes
    executed := ⟨_, last, ran, points.executed.sameStore
      (perm_binned p.flushed) (filter_binned p.flushed) ascending roomFlushed
      ordered⟩ }

theorem Scans.produced (scans : Scans executeScan program firstEngine p)
    (fewScans : (scansOf program).length < 2 ^ 64) :
    p.scanRing.popped <+: scansOf program := by
  have sent := scans.sent
  have pushed : p.scanRing.pushed.length < 2 ^ 64 := by
    rw [sent, List.length_append] at fewScans
    omega
  have queued := scans.ring.popped_prefix pushed
  exact queued.trans ⟨_, sent.symm⟩

theorem Scans.inOrder (scans : Scans executeScan program firstEngine p)
    (fewScans : (scansOf program).length < 2 ^ 64) :
    ScansInOrder executeScan program firstEngine p where
  produced := by
    have popped := scans.produced fewScans
    rw [scans.popped] at popped
    exact (List.prefix_append _ _).trans popped
  processed := scans.counted
  executed := scans.executed

/-- Once `main` has stopped the consumers, nothing is on its way. -/
structure Drained (program : List Ingest) (p : Pipeline S) : Prop where
  points : p.flushed.flatten = pointsOf program
  batch : p.batch = []
  pointRing : p.pointRing.popped = p.pointRing.pushed
  scans : p.scanned = scansOf program
  scanRing : p.scanRing.popped = p.scanRing.pushed

theorem eq_of_prefix_length {T : Type} {done all : List T}
    (first : done <+: all) (long : all.length ≤ done.length) : done = all :=
  first.eq_of_length (Nat.le_antisymm first.length_le long)

theorem Invariant.drained
    (invariant : Invariant executeScan program first firstEngine p)
    (few : (pointsOf program).length < 2 ^ 64)
    (fewScans : (scansOf program).length < 2 ^ 64)
    (stopped : p.runState = false) : Drained program p := by
  obtain ⟨points, scans, waits⟩ := invariant
  have waited := waits stopped
  simp only [Pipeline.waited, Bool.and_eq_true, decide_eq_true_eq,
    List.isEmpty_iff] at waited
  obtain ⟨⟨sent, processed⟩, scanned⟩ := waited
  obtain ⟨rest, produced⟩ := points.produced few
  rw [points.total] at processed
  have all : p.flushed.flatten = pointsOf program :=
    eq_of_prefix_length ⟨p.batch ++ rest, by
      rw [produced, List.append_assoc]⟩ processed
  have nothing : p.batch ++ rest = [] := by
    rw [← all, List.append_assoc] at produced
    exact List.self_eq_append_right.mp produced
  have batch := (List.append_eq_nil_iff.mp nothing).1
  have pushedPoints : pointsOf program = p.pointRing.pushed := by
    rw [points.sent, sent]
    exact List.append_nil _
  have pushedScans : scansOf program = p.scanRing.pushed := by
    rw [scans.sent, sent]
    exact List.append_nil _
  have scannedAll : p.scanned = scansOf program := by
    apply eq_of_prefix_length (scans.inOrder fewScans).produced
    rw [← scans.counted]
    exact scanned
  exact {
    points := all
    batch := batch
    pointRing := by
      rw [points.popped, all, batch, List.append_nil]
      exact pushedPoints
    scans := scannedAll
    scanRing := by
      have popped := scans.produced fewScans
      have queued : p.scanned <+: p.scanRing.popped := by
        rw [scans.popped]
        exact List.prefix_append _ _
      have long := queued.length_le
      rw [scannedAll] at long
      rw [eq_of_prefix_length popped long]
      exact pushedScans }

/-- Every thread that has not returned can take its next step; the batch never
leaves its array. -/
structure Moves (asserts : Bool) (executeScan : S → ScanQuery → Option S)
    (p : Pipeline S) : Prop where
  producer : p.toSend ≠ [] → p.stepProducer.isSome
  batcher : p.batcher ≠ .stopped → ∀ incoming elapsed,
    (p.stepBatcher asserts incoming elapsed).isSome
  scanner : p.scanner ≠ .stopped → ∀ incoming,
    (p.stepScanner executeScan incoming).isSome

theorem stepProducer_total (p : Pipeline S) (some : p.toSend ≠ []) :
    p.stepProducer.isSome := by
  unfold Pipeline.stepProducer
  cases send : p.toSend with
  | nil => exact absurd send some
  | cons next later =>
      cases next with
      | point q =>
          rw [Option.isSome_map]
          exact Threads.offer_total _ q
      | scan q =>
          rw [Option.isSome_map]
          exact Threads.offer_total _ q

theorem Points.batcher_total (points : Points program first p)
    (few : (pointsOf program).length < 2 ^ 64)
    (room : first.engine.HasRoom (pointsOf program))
    (moving : p.batcher ≠ .stopped) (incoming : DatabaseQuery)
    (elapsed : Nat) : (p.stepBatcher asserts incoming elapsed).isSome := by
  have called := points.called
  unfold Pipeline.stepBatcher
  cases place : p.batcher with
  | head =>
      dsimp only
      split
      · rw [Option.isSome_map]
        apply Threads.tryPop_total
        by_contra busy
        have popping := called.mpr busy
        rw [place] at popping
        cases popping
      · rfl
  | popping =>
      have fits := points.room (by simp [place])
      obtain ⟨⟨ring, event⟩, ran⟩ := Option.isSome_iff_exists.mp
        (Threads.stepConsumer_total (called.mp place))
      obtain ⟨_, takes⟩ := Threads.stepConsumer_takes ran
      dsimp only
      rw [ran, Option.bind_some]
      cases takes with
      | goes => rfl
      | failed => rfl
      | popped =>
          dsimp only
          rw [if_pos fits]
          rfl
  | checking =>
      dsimp only
      split
      · obtain ⟨after, ran, _⟩ := run_executeBatch asserts
          (batch_short points.fits) (points.hasRoom few room)
        rw [ran]
        rfl
      · rfl
  | stopped => exact absurd place moving

/-- An initial part of a computation that succeeds. -/
theorem foldlM_prefix {T : Type} {f : S → T → Option S} {start last : S}
    {done all : List T} (ran : all.foldlM f start = some last)
    (first : done <+: all) : ∃ middle, done.foldlM f start = some middle := by
  obtain ⟨rest, rfl⟩ := first
  rw [List.foldlM_append] at ran
  obtain ⟨middle, done, _⟩ := Option.bind_eq_some_iff.mp ran
  exact ⟨middle, done⟩

/-- The engine runs the scan that has just been popped. -/
theorem Scans.executes (scans : Scans executeScan program firstEngine p)
    (fewScans : (scansOf program).length < 2 ^ 64) {last : S}
    (runs : (scansOf program).foldlM executeScan firstEngine = some last)
    {draining : Bool} (place : p.scanner = .executing draining) :
    ∃ engine, executeScan p.scanEngine p.scanRing.output = some engine := by
  have popped := scans.popped
  rw [place] at popped
  have next := scans.produced fewScans
  rw [popped] at next
  obtain ⟨engine, ran⟩ := foldlM_prefix runs next
  rw [List.foldlM_append, scans.executed] at ran
  obtain ⟨middle, same, executes⟩ := Option.bind_eq_some_iff.mp ran
  cases same
  rw [List.foldlM_cons] at executes
  obtain ⟨engine, executed, _⟩ := Option.bind_eq_some_iff.mp executes
  exact ⟨engine, executed⟩

theorem Scans.scanner_total (scans : Scans executeScan program firstEngine p)
    (fewScans : (scansOf program).length < 2 ^ 64) {last : S}
    (runs : (scansOf program).foldlM executeScan firstEngine = some last)
    (moving : p.scanner ≠ .stopped) (incoming : ScanQuery) :
    (p.stepScanner executeScan incoming).isSome := by
  have called := scans.called
  unfold Pipeline.stepScanner
  cases place : p.scanner with
  | head draining =>
      rw [Option.isSome_map]
      apply Threads.tryPop_total
      by_contra busy
      obtain ⟨_, popping⟩ := called.mpr busy
      rw [place] at popping
      cases popping
  | popping draining =>
      rw [Option.isSome_map]
      exact Threads.stepConsumer_total (called.mp ⟨draining, place⟩)
  | executing draining =>
      obtain ⟨engine, executed⟩ := scans.executes fewScans runs place
      rw [Option.isSome_map, executed]
      rfl
  | stopped => exact absurd place moving

/-- A write of the slot 7 and a count over the resident column. -/
def writeAndScan : List Ingest :=
  [.point ⟨7, 0, OP_WRITE⟩, .scan (Analytics.blankScan.prepared 8 0 AGG_COUNT)]

/-- The scans of a catalog. -/
def catalogScan (catalog : Catalog ℚ) (q : ScanQuery) : Option (Catalog ℚ) :=
  (catalog.executeScanQuery q).map Prod.snd

theorem runs_writeAndScan :
    (scansOf writeAndScan).foldlM catalogScan (Catalog.fresh 1024) =
      some (Catalog.fresh 1024) := by
  have resident := ScanQuery.scanColumnId_prepared Analytics.blankScan 8 0
    AGG_COUNT
  rw [writeAndScan, scansOf_point, scansOf_scan, List.foldlM_cons, catalogScan,
    Catalog.executeScanQuery, if_pos resident]
  rfl

theorem hasRoom_writeAndScan :
    (World.initial .SYNC_EACH).engine.HasRoom (pointsOf writeAndScan) := by
  refine ⟨?_, trivial⟩
  rintro ⟨full, _⟩
  cases full

end Pipeline

end MatrixDB
