import MatrixDB.Pipeline.InOrder

/-!
# Every run of the pipeline can be completed

Whatever the threads have done so far, there is a way to let them finish: the
consumers empty their rings, the producer sends its next item, and so on until
`main` stops them.
-/

namespace MatrixDB

open Lib

namespace Pipeline

variable {S : Type} {asserts : Bool} {executeScan : S → ScanQuery → Option S}
  {program : List Ingest} {first : World} {firstEngine : S}
  {p middle after : Pipeline S}

theorem Reachable.trans
    (earlier : Reachable asserts executeScan program p middle)
    (later : Reachable asserts executeScan program middle after) :
    Reachable asserts executeScan program p after := by
  induction later with
  | start => exact earlier
  | step _ ran induction => exact .step induction ran

theorem Reachable.one {action : PipelineAction}
    (ran : p.step asserts executeScan program action = some after) :
    Reachable asserts executeScan program p after :=
  .step .start ran

theorem Invariant.run (few : (pointsOf program).length < 2 ^ 64)
    (room : first.engine.HasRoom (pointsOf program))
    (invariant : Invariant executeScan program first firstEngine p)
    (ran : Reachable asserts executeScan program p after) :
    Invariant executeScan program first firstEngine after := by
  induction ran with
  | start => exact invariant
  | step _ ran induction => exact induction.step few room ran

/-! ## The batcher alone -/

/-- What the batcher leaves as it is. -/
structure BatcherMoves (p after : Pipeline S) : Prop where
  toSend : after.toSend = p.toSend
  scanRing : after.scanRing = p.scanRing
  scanner : after.scanner = p.scanner
  runState : after.runState = p.runState
  ring : Threads.SameProducer p.pointRing after.pointRing

theorem BatcherMoves.trans (earlier : BatcherMoves p middle)
    (later : BatcherMoves middle after) : BatcherMoves p after where
  toSend := later.toSend.trans earlier.toSend
  scanRing := later.scanRing.trans earlier.scanRing
  scanner := later.scanner.trans earlier.scanner
  runState := later.runState.trans earlier.runState
  ring := ⟨later.ring.pushed.trans earlier.ring.pushed,
    later.ring.producer.trans earlier.ring.producer⟩

/-- The batcher at the head of its loop, with nothing in its batch. -/
structure BatcherRests (p : Pipeline S) : Prop where
  head : p.batcher = .head
  batch : p.batch = []

theorem batcher_pops {success : Bool}
    {ring : Threads pointCapacity DatabaseQuery} (place : p.batcher = .popping)
    (fits : p.batch.length < BATCH_SIZE_LIMIT)
    (pops : Threads.Pops p.pointRing success ring) :
    Reachable asserts executeScan program p
      { p with
        pointRing := ring
        batch := p.batch ++ if success then [ring.output] else []
        batcher := .checking } := by
  generalize held : p.pointRing = threads at pops
  induction pops generalizing p with
  | @last threads after success ran =>
      have here : p.step asserts executeScan program
          (.batcher threads.output 0) =
          some { p with
            pointRing := after
            batch := p.batch ++ if success then [after.output] else []
            batcher := .checking } := by
        simp only [Pipeline.step, stepBatcher, place, held, ran,
          Option.bind_some]
        cases success with
        | true => exact if_pos fits
        | false => simp
      exact Reachable.one here
  | @more threads middle after success ran later induction =>
      have here : p.step asserts executeScan program
          (.batcher threads.output 0) =
          some { p with pointRing := middle } := by
        simp only [Pipeline.step, stepBatcher, place, held, ran,
          Option.bind_some]
      exact (Reachable.one here).trans
        (induction (p := { p with pointRing := middle }) place fits rfl)

section
variable (few : (pointsOf program).length < 2 ^ 64)
  (room : first.engine.HasRoom (pointsOf program))
  (invariant : Invariant executeScan program first firstEngine p)

include few in
theorem Points.fewPushed (points : Points program first p) :
    p.pointRing.pushed.length < 2 ^ 64 := by
  rw [points.sent, List.length_append] at few
  omega

include few room invariant

theorem Invariant.checks (place : p.batcher = .checking) :
    ∃ after, Reachable asserts executeScan program p after ∧
      BatcherRests after ∧ BatcherMoves p after ∧
      after.pointRing = p.pointRing := by
  by_cases flush : mustFlush p.batch TEMPORAL_LIMIT_US
  · obtain ⟨world, ran, _⟩ := run_executeBatch asserts
      (batch_short invariant.points.fits) (invariant.points.hasRoom few room)
    have here : p.step asserts executeScan program
        (.batcher p.pointRing.output TEMPORAL_LIMIT_US) =
        some { p with
          world := world
          totalProcessed := p.totalProcessed + p.batch.length
          batch := []
          flushed := p.flushed ++ [p.batch]
          batcher := .head } := by
      simp only [Pipeline.step, Pipeline.stepBatcher, place, flush, if_true, ran,
        Option.map_some]
    exact ⟨_, .one here, ⟨rfl, rfl⟩, ⟨rfl, rfl, rfl, rfl, rfl, rfl⟩, rfl⟩
  · have empty : p.batch = [] := by
      by_contra some
      unfold mustFlush at flush
      simp [some] at flush
    have here : p.step asserts executeScan program
        (.batcher p.pointRing.output TEMPORAL_LIMIT_US) =
        some { p with batcher := .head } := by
      simp only [Pipeline.step, Pipeline.stepBatcher, place, flush]
      rfl
    exact ⟨_, .one here, ⟨rfl, empty⟩, ⟨rfl, rfl, rfl, rfl, rfl, rfl⟩, rfl⟩

/-- The rest of a round of the batcher, from its call on. -/
theorem Invariant.popsAndChecks (place : p.batcher = .popping) :
    ∃ success after, Threads.Pops p.pointRing success after.pointRing ∧
      Reachable asserts executeScan program p after ∧ BatcherRests after ∧
      BatcherMoves p after := by
  have points := invariant.points
  obtain ⟨success, ring, pops⟩ := Threads.pops_total (points.called.mp place)
  obtain ⟨popped, reached, checking, moved, same⟩ :
      ∃ middle, Reachable asserts executeScan program p middle ∧
        middle.batcher = .checking ∧ BatcherMoves p middle ∧
        middle.pointRing = ring :=
    ⟨_, batcher_pops place (points.room (by simp [place])) pops, rfl,
      ⟨rfl, rfl, rfl, rfl, (pops.spec points.ring (points.fewPushed few)).1⟩,
      rfl⟩
  obtain ⟨after, checks, rests, moves, kept⟩ :=
    (invariant.run few room reached).checks few room checking
  refine ⟨success, after, ?_, reached.trans checks, rests, moved.trans moves⟩
  rw [kept, same]
  exact pops

/-- A whole round of the batcher. -/
theorem Invariant.round (running : p.runState = true)
    (head : p.batcher = .head) :
    ∃ after, Reachable asserts executeScan program p after ∧
      BatcherRests after ∧ BatcherMoves p after ∧
      (after.pointRing.unread < p.pointRing.unread ∨
        after.pointRing.unread = 0) := by
  have points := invariant.points
  have idle : p.pointRing.consumer = .idle := by
    by_contra busy
    have popping := points.called.mpr busy
    rw [head] at popping
    cases popping
  obtain ⟨⟨ring, event⟩, called⟩ := Option.isSome_iff_exists.mp
    (Threads.tryPop_total p.pointRing.output idle)
  obtain ⟨same, popped, _⟩ := Threads.tryPop_called called
  have here : p.step asserts executeScan program
      (.batcher p.pointRing.output 0) =
      some { p with pointRing := ring, batcher := .popping } := by
    simp only [Pipeline.step, Pipeline.stepBatcher, head, running, if_true, called,
      Option.map_some]
  have reached := Reachable.one here
  obtain ⟨success, after, pops, later, rests, moves⟩ :=
    (invariant.run few room reached).popsAndChecks few room rfl
  have moved : BatcherMoves p
      { p with pointRing := ring, batcher := .popping } :=
    ⟨rfl, rfl, rfl, rfl, same⟩
  refine ⟨after, reached.trans later, rests, moved.trans moves, ?_⟩
  have unread := pops.unread (points.ring.step called)
    (by rw [same.pushed]; exact points.fewPushed few)
    (Threads.tryPop_fresh called)
  unfold Threads.unread at unread ⊢
  rw [← popped, ← same.pushed]
  exact unread.imp And.right And.right

/-- The batcher comes to the head of its loop. -/
theorem Invariant.batcher_rests (running : p.runState = true) :
    ∃ after, Reachable asserts executeScan program p after ∧
      BatcherRests after ∧ BatcherMoves p after := by
  cases place : p.batcher with
  | head =>
      obtain ⟨after, reached, rests, moves, _⟩ :=
        invariant.round few room running place
      exact ⟨after, reached, rests, moves⟩
  | popping =>
      obtain ⟨_, after, _, reached, rests, moves⟩ :=
        invariant.popsAndChecks few room place
      exact ⟨after, reached, rests, moves⟩
  | checking =>
      obtain ⟨after, reached, rests, moves, _⟩ :=
        invariant.checks few room place
      exact ⟨after, reached, rests, moves⟩
  | stopped =>
      rw [invariant.points.stopped place] at running
      cases running

/-- The batcher empties its ring. -/
theorem Invariant.batcher_drains (running : p.runState = true) :
    ∃ after, Reachable asserts executeScan program p after ∧
      BatcherRests after ∧ BatcherMoves p after ∧
      after.pointRing.unread = 0 := by
  obtain ⟨middle, reached, rests, moved⟩ :=
    invariant.batcher_rests few room running
  have runningMiddle := moved.runState.trans running
  have invariantMiddle := invariant.run few room reached
  have drains : ∃ after, Reachable asserts executeScan program middle after ∧
      BatcherRests after ∧ BatcherMoves middle after ∧
      after.pointRing.unread = 0 := by
    clear moved reached
    induction amount : middle.pointRing.unread using Nat.strong_induction_on
      generalizing middle with
    | _ count induction =>
        obtain ⟨after, reached, rests, moves, unread⟩ :=
          invariantMiddle.round few room runningMiddle rests.head
        rcases unread with fewer | drained
        · rw [amount] at fewer
          obtain ⟨last, later, rests, movesLater, drained⟩ := induction _ fewer
            after rests (moves.runState.trans runningMiddle)
            (invariantMiddle.run few room reached) rfl
          exact ⟨last, reached.trans later, rests, moves.trans movesLater,
            drained⟩
        · exact ⟨after, reached, rests, moves, drained⟩
  obtain ⟨after, later, rests, moves, drained⟩ := drains
  exact ⟨after, reached.trans later, rests, moved.trans moves, drained⟩

/-- Once `main` has stopped it, the batcher returns. -/
theorem Invariant.batcher_stops (stopped : p.runState = false) :
    ∃ after, Reachable asserts executeScan program p after ∧
      after.batcher = .stopped ∧ BatcherMoves p after := by
  have leaves : ∀ {p : Pipeline S}, p.runState = false → p.batcher = .head →
      Reachable asserts executeScan program p
        { p with batcher := .stopped } := by
    intro p stopped head
    have here : p.step asserts executeScan program
        (.batcher p.pointRing.output 0) =
        some { p with batcher := .stopped } := by
      simp only [Pipeline.step, Pipeline.stepBatcher, head, stopped]
      rfl
    exact .one here
  obtain ⟨middle, reached, place, moves⟩ :
      ∃ middle, Reachable asserts executeScan program p middle ∧
        (middle.batcher = .head ∨ middle.batcher = .stopped) ∧
        BatcherMoves p middle := by
    cases place : p.batcher with
    | popping =>
        obtain ⟨_, middle, _, reached, rests, moves⟩ :=
          invariant.popsAndChecks few room place
        exact ⟨middle, reached, .inl rests.head, moves⟩
    | checking =>
        obtain ⟨middle, reached, rests, moves, _⟩ :=
          invariant.checks few room place
        exact ⟨middle, reached, .inl rests.head, moves⟩
    | head => exact ⟨p, .start, .inl place, ⟨rfl, rfl, rfl, rfl, rfl, rfl⟩⟩
    | stopped => exact ⟨p, .start, .inr place, ⟨rfl, rfl, rfl, rfl, rfl, rfl⟩⟩
  rcases place with head | done
  · have last := leaves (moves.runState.trans stopped) head
    exact ⟨_, reached.trans last, rfl,
      moves.trans ⟨rfl, rfl, rfl, rfl, rfl, rfl⟩⟩
  · exact ⟨middle, reached, done, moves⟩

end

/-! ## The scanner alone -/

/-- What the scanner leaves as it is. -/
structure ScannerMoves (p after : Pipeline S) : Prop where
  toSend : after.toSend = p.toSend
  pointRing : after.pointRing = p.pointRing
  batcher : after.batcher = p.batcher
  batch : after.batch = p.batch
  runState : after.runState = p.runState
  ring : Threads.SameProducer p.scanRing after.scanRing

theorem ScannerMoves.refl (p : Pipeline S) : ScannerMoves p p :=
  ⟨rfl, rfl, rfl, rfl, rfl, rfl, rfl⟩

theorem ScannerMoves.trans (earlier : ScannerMoves p middle)
    (later : ScannerMoves middle after) : ScannerMoves p after where
  toSend := later.toSend.trans earlier.toSend
  pointRing := later.pointRing.trans earlier.pointRing
  batcher := later.batcher.trans earlier.batcher
  batch := later.batch.trans earlier.batch
  runState := later.runState.trans earlier.runState
  ring := ⟨later.ring.pushed.trans earlier.ring.pushed,
    later.ring.producer.trans earlier.ring.producer⟩

theorem scanner_pops {success draining : Bool}
    {ring : Threads scanCapacity ScanQuery}
    (place : p.scanner = .popping draining)
    (pops : Threads.Pops p.scanRing success ring) :
    Reachable asserts executeScan program p
      { p with
        scanRing := ring
        scanner := if success then .executing draining
          else if draining then .stopped else .head false } := by
  generalize held : p.scanRing = threads at pops
  induction pops generalizing p with
  | @last threads after success ran =>
      have here : p.step asserts executeScan program
          (.scanner threads.output) =
          some { p with
            scanRing := after
            scanner := if success then .executing draining
              else if draining then .stopped else .head false } := by
        simp only [Pipeline.step, stepScanner, place, held, ran,
          Option.map_some]
        cases success <;> rfl
      exact Reachable.one here
  | @more threads middle after success ran later induction =>
      have here : p.step asserts executeScan program
          (.scanner threads.output) = some { p with scanRing := middle } := by
        simp only [Pipeline.step, stepScanner, place, held, ran,
          Option.map_some]
      exact (Reachable.one here).trans
        (induction (p := { p with scanRing := middle }) place rfl)

section
variable (few : (pointsOf program).length < 2 ^ 64)
  (room : first.engine.HasRoom (pointsOf program))
  (fewScans : (scansOf program).length < 2 ^ 64) {last : S}
  (runs : (scansOf program).foldlM executeScan firstEngine = some last)
  (invariant : Invariant executeScan program first firstEngine p)

include fewScans in
theorem Scans.fewPushed (scans : Scans executeScan program firstEngine p) :
    p.scanRing.pushed.length < 2 ^ 64 := by
  rw [scans.sent, List.length_append] at fewScans
  omega

include fewScans runs invariant in
theorem Invariant.scans_one {draining : Bool}
    (place : p.scanner = .executing draining) :
    ∃ after, Reachable asserts executeScan program p after ∧
      after.scanner = .head draining ∧ ScannerMoves p after ∧
      after.scanRing = p.scanRing := by
  obtain ⟨engine, executed⟩ := invariant.scans.executes fewScans runs place
  have here : p.step asserts executeScan program
      (.scanner p.scanRing.output) =
      some { p with
        scanEngine := engine
        scansProcessed := p.scansProcessed + 1
        scanned := p.scanned ++ [p.scanRing.output]
        scanner := .head draining } := by
    simp only [Pipeline.step, Pipeline.stepScanner, place, executed,
      Option.map_some]
  exact ⟨_, .one here, rfl, ⟨rfl, rfl, rfl, rfl, rfl, rfl, rfl⟩, rfl⟩

include few room fewScans runs invariant

/-- The rest of a round of the scanner, from its call on. -/
theorem Invariant.popsAndScans {draining : Bool}
    (place : p.scanner = .popping draining) :
    ∃ success after, Threads.Pops p.scanRing success after.scanRing ∧
      Reachable asserts executeScan program p after ∧ ScannerMoves p after ∧
      after.scanner = if success then .head draining
        else if draining then .stopped else .head false := by
  have scans := invariant.scans
  obtain ⟨success, ring, pops⟩ :=
    Threads.pops_total (scans.called.mp ⟨draining, place⟩)
  obtain ⟨middle, reached, there, moved, same⟩ :
      ∃ middle, Reachable asserts executeScan program p middle ∧
        middle.scanner = (if success then .executing draining
          else if draining then .stopped else .head false) ∧
        ScannerMoves p middle ∧ middle.scanRing = ring :=
    ⟨_, scanner_pops place pops, rfl,
      ⟨rfl, rfl, rfl, rfl, rfl,
        (pops.spec scans.ring (scans.fewPushed fewScans)).1⟩, rfl⟩
  cases success with
  | true =>
      obtain ⟨after, scanned, head, moves, kept⟩ :=
        (invariant.run few room reached).scans_one fewScans runs there
      refine ⟨true, after, ?_, reached.trans scanned, moved.trans moves, head⟩
      rw [kept, same]
      exact pops
  | false =>
      refine ⟨false, middle, ?_, reached, moved, there⟩
      rw [same]
      exact pops

/-- A whole round of the scanner: it takes a scan and goes on, or it has seen
its ring empty. -/
theorem Invariant.scanRound {draining : Bool}
    (head : p.scanner = .head draining) :
    ∃ after, Reachable asserts executeScan program p after ∧
      ScannerMoves p after ∧
      (after.scanRing.unread < p.scanRing.unread ∧
          after.scanner = .head (draining || !p.runState) ∨
        after.scanRing.unread = 0 ∧
          after.scanner = if draining || !p.runState then .stopped
            else .head false) := by
  have scans := invariant.scans
  have idle : p.scanRing.consumer = .idle := by
    by_contra busy
    obtain ⟨_, popping⟩ := scans.called.mpr busy
    rw [head] at popping
    cases popping
  obtain ⟨⟨ring, event⟩, called⟩ := Option.isSome_iff_exists.mp
    (Threads.tryPop_total p.scanRing.output idle)
  obtain ⟨same, popped, _⟩ := Threads.tryPop_called called
  have here : p.step asserts executeScan program
      (.scanner p.scanRing.output) =
      some { p with
        scanRing := ring
        scanner := .popping (draining || !p.runState) } := by
    simp only [Pipeline.step, Pipeline.stepScanner, head, called,
      Option.map_some]
  have reached := Reachable.one here
  obtain ⟨success, after, pops, later, moves, place⟩ :=
    (invariant.run few room reached).popsAndScans few room fewScans runs rfl
  have moved : ScannerMoves p
      { p with
        scanRing := ring
        scanner := .popping (draining || !p.runState) } :=
    ⟨rfl, rfl, rfl, rfl, rfl, same⟩
  have ringReached := scans.ring.step called
  have fewRing : ring.pushed.length < 2 ^ 64 := by
    rw [same.pushed]
    exact scans.fewPushed fewScans
  refine ⟨after, reached.trans later, moved.trans moves, ?_⟩
  have unread : ring.unread = p.scanRing.unread := by
    unfold Threads.unread
    rw [popped, same.pushed]
  rw [← unread]
  rcases pops.unread ringReached fewRing (Threads.tryPop_fresh called) with
    ⟨rfl, fewer⟩ | ⟨rfl, empty⟩
  · exact .inl ⟨fewer, place⟩
  · exact .inr ⟨empty, place⟩

/-- The scanner comes to the head of its loop, or has returned. -/
theorem Invariant.scanner_comes :
    ∃ after, Reachable asserts executeScan program p after ∧
      ScannerMoves p after ∧
      ((∃ draining, after.scanner = .head draining) ∨
        after.scanner = .stopped) := by
  cases place : p.scanner with
  | head draining => exact ⟨p, .start, .refl p, .inl ⟨draining, place⟩⟩
  | popping draining =>
      obtain ⟨success, after, _, reached, moves, there⟩ :=
        invariant.popsAndScans few room fewScans runs place
      refine ⟨after, reached, moves, ?_⟩
      split at there
      · exact .inl ⟨_, there⟩
      split at there
      · exact .inr there
      · exact .inl ⟨_, there⟩
  | executing draining =>
      obtain ⟨after, reached, there, moves, _⟩ :=
        invariant.scans_one fewScans runs place
      exact ⟨after, reached, moves, .inl ⟨_, there⟩⟩
  | stopped => exact ⟨p, .start, .refl p, .inr place⟩

/-- Before `main` stops it, the scanner empties its ring and goes on. -/
theorem Invariant.scanner_drains (running : p.runState = true) :
    ∃ after, Reachable asserts executeScan program p after ∧
      ScannerMoves p after ∧ after.scanner = .head false ∧
      after.scanRing.unread = 0 := by
  obtain ⟨middle, reached, moved, place⟩ :=
    invariant.scanner_comes few room fewScans runs
  have runningMiddle := moved.runState.trans running
  have invariantMiddle := invariant.run few room reached
  have head : middle.scanner = .head false := by
    have drains := invariantMiddle.scans.draining
    rw [runningMiddle] at drains
    rcases place with ⟨draining, head⟩ | stopped
    · cases draining with
      | true => exact absurd (drains (by simp [head])) (by decide)
      | false => exact head
    · exact absurd (drains (by simp [stopped])) (by decide)
  have drains : ∃ after, Reachable asserts executeScan program middle after ∧
      ScannerMoves middle after ∧ after.scanner = .head false ∧
      after.scanRing.unread = 0 := by
    clear moved reached place
    induction amount : middle.scanRing.unread using Nat.strong_induction_on
      generalizing middle with
    | _ count induction =>
        obtain ⟨after, reached, moves, outcome⟩ :=
          invariantMiddle.scanRound few room fewScans runs head
        simp only [runningMiddle, Bool.not_true, Bool.or_false,
          Bool.false_eq_true, if_false] at outcome
        rcases outcome with ⟨fewer, head⟩ | ⟨drained, head⟩
        · rw [amount] at fewer
          obtain ⟨last, later, movesLater, head, drained⟩ := induction _ fewer
            after (moves.runState.trans runningMiddle)
            (invariantMiddle.run few room reached) head rfl
          exact ⟨last, reached.trans later, moves.trans movesLater, head,
            drained⟩
        · exact ⟨after, reached, moves, head, drained⟩
  obtain ⟨after, later, moves, head, drained⟩ := drains
  exact ⟨after, reached.trans later, moved.trans moves, head, drained⟩

/-- Once `main` has stopped it, the scanner returns. -/
theorem Invariant.scanner_stops (stopped : p.runState = false) :
    ∃ after, Reachable asserts executeScan program p after ∧
      ScannerMoves p after ∧ after.scanner = .stopped := by
  obtain ⟨middle, reached, moved, place⟩ :=
    invariant.scanner_comes few room fewScans runs
  have stoppedMiddle := moved.runState.trans stopped
  have invariantMiddle := invariant.run few room reached
  rcases place with ⟨draining, head⟩ | done
  · have stops : ∃ after, Reachable asserts executeScan program middle after ∧
        ScannerMoves middle after ∧ after.scanner = .stopped := by
      clear moved reached
      induction amount : middle.scanRing.unread using Nat.strong_induction_on
        generalizing middle draining with
      | _ count induction =>
          obtain ⟨after, reached, moves, outcome⟩ :=
            invariantMiddle.scanRound few room fewScans runs head
          simp only [stoppedMiddle, Bool.not_false, Bool.or_true, if_true]
            at outcome
          rcases outcome with ⟨fewer, head⟩ | ⟨_, done⟩
          · rw [amount] at fewer
            obtain ⟨last, later, movesLater, done⟩ := induction _ fewer
              after (moves.runState.trans stoppedMiddle)
              (invariantMiddle.run few room reached) true head rfl
            exact ⟨last, reached.trans later, moves.trans movesLater, done⟩
          · exact ⟨after, reached, moves, done⟩
    obtain ⟨after, later, moves, done⟩ := stops
    exact ⟨after, reached.trans later, moved.trans moves, done⟩
  · exact ⟨middle, reached, moved, done⟩

end

/-! ## The producer alone -/

theorem delivers_point {q : DatabaseQuery} {later : List Ingest}
    {ring : Threads pointCapacity DatabaseQuery}
    (next : p.toSend = .point q :: later)
    (delivers : Threads.Delivers q p.pointRing ring) :
    Reachable asserts executeScan program p
      { p with pointRing := ring, toSend := later } := by
  generalize held : p.pointRing = threads at delivers
  induction delivers generalizing p with
  | @last threads after offered =>
      have here : p.step asserts executeScan program .producer =
          some { p with pointRing := after, toSend := later } := by
        simp only [Pipeline.step, stepProducer, next, held, offered,
          Option.map_some, if_true]
      exact Reachable.one here
  | @more threads middle after event offered goes rest induction =>
      have here : p.step asserts executeScan program .producer =
          some { p with pointRing := middle } := by
        simp only [Pipeline.step, stepProducer, next, held, offered,
          Option.map_some, if_neg goes]
      exact (Reachable.one here).trans
        (induction (p := { p with pointRing := middle }) next rfl)

theorem delivers_scan {q : ScanQuery} {later : List Ingest}
    {ring : Threads scanCapacity ScanQuery}
    (next : p.toSend = .scan q :: later)
    (delivers : Threads.Delivers q p.scanRing ring) :
    Reachable asserts executeScan program p
      { p with scanRing := ring, toSend := later } := by
  generalize held : p.scanRing = threads at delivers
  induction delivers generalizing p with
  | @last threads after offered =>
      have here : p.step asserts executeScan program .producer =
          some { p with scanRing := after, toSend := later } := by
        simp only [Pipeline.step, stepProducer, next, held, offered,
          Option.map_some, if_true]
      exact Reachable.one here
  | @more threads middle after event offered goes rest induction =>
      have here : p.step asserts executeScan program .producer =
          some { p with scanRing := middle } := by
        simp only [Pipeline.step, stepProducer, next, held, offered,
          Option.map_some, if_neg goes]
      exact (Reachable.one here).trans
        (induction (p := { p with scanRing := middle }) next rfl)

section
variable (few : (pointsOf program).length < 2 ^ 64)
  (fewScans : (scansOf program).length < 2 ^ 64)
  (invariant : Invariant executeScan program first firstEngine p)

include few fewScans invariant

/-- With both rings empty the producer sends its next item. -/
theorem Invariant.sends (points : p.pointRing.unread = 0)
    (scans : p.scanRing.unread = 0) {next : Ingest} {later : List Ingest}
    (toSend : p.toSend = next :: later) :
    ∃ after, Reachable asserts executeScan program p after ∧
      after.toSend = later ∧ after.runState = p.runState := by
  cases next with
  | point q =>
      have holds : ∀ held, p.pointRing.producer.value = some held →
          held = q := by
        intro held holds
        obtain ⟨_, same⟩ := invariant.points.holds held holds
        rw [toSend] at same
        cases same
        rfl
      obtain ⟨ring, delivers⟩ := Threads.delivers_of_empty holds
        invariant.points.ring (invariant.points.fewPushed few) points
      exact ⟨_, delivers_point toSend delivers, rfl, rfl⟩
  | scan q =>
      have holds : ∀ held, p.scanRing.producer.value = some held →
          held = q := by
        intro held holds
        obtain ⟨_, same⟩ := invariant.scans.holds held holds
        rw [toSend] at same
        cases same
        rfl
      obtain ⟨ring, delivers⟩ := Threads.delivers_of_empty holds
        invariant.scans.ring (invariant.scans.fewPushed fewScans) scans
      exact ⟨_, delivers_scan toSend delivers, rfl, rfl⟩

end

/-! ## All threads -/

section
variable (few : (pointsOf program).length < 2 ^ 64)
  (room : first.engine.HasRoom (pointsOf program))
  (fewScans : (scansOf program).length < 2 ^ 64) {last : S}
  (runs : (scansOf program).foldlM executeScan firstEngine = some last)
  (invariant : Invariant executeScan program first firstEngine p)

include few room fewScans runs invariant

/-- Both consumers empty their rings. -/
theorem Invariant.drains (running : p.runState = true) :
    ∃ after, Reachable asserts executeScan program p after ∧
      after.toSend = p.toSend ∧ after.runState = true ∧
      BatcherRests after ∧ after.pointRing.unread = 0 ∧
      after.scanner = .head false ∧ after.scanRing.unread = 0 := by
  obtain ⟨middle, reached, rests, moved, drained⟩ :=
    invariant.batcher_drains few room running
  obtain ⟨after, later, moves, head, empty⟩ :=
    (invariant.run few room reached).scanner_drains few room fewScans runs
      (moved.runState.trans running)
  refine ⟨after, reached.trans later, moves.toSend.trans moved.toSend,
    (moves.runState.trans moved.runState).trans running,
    ⟨moves.batcher.trans rests.head, moves.batch.trans rests.batch⟩, ?_, head,
    empty⟩
  rw [moves.pointRing]
  exact drained

/-- The producer sends everything, and both consumers take it. -/
theorem Invariant.sendsAll (running : p.runState = true) :
    ∃ after, Reachable asserts executeScan program p after ∧
      after.toSend = [] ∧ after.runState = true ∧
      BatcherRests after ∧ after.pointRing.unread = 0 ∧
      after.scanner = .head false ∧ after.scanRing.unread = 0 := by
  induction items : p.toSend generalizing p with
  | nil =>
      obtain ⟨after, reached, same, rest⟩ :=
        invariant.drains few room fewScans runs running
      exact ⟨after, reached, same.trans items, rest⟩
  | cons next later induction =>
      obtain ⟨middle, reached, same, stillRunning, _, points, _, scans⟩ :=
        invariant.drains few room fewScans runs running
      have invariantMiddle := invariant.run few room reached
      obtain ⟨sent, sends, left, kept⟩ := invariantMiddle.sends few fewScans
        points scans (same.trans items)
      obtain ⟨after, rest⟩ := induction
        (invariantMiddle.run few room sends) (kept.trans stillRunning) left
      exact ⟨after, (reached.trans sends).trans rest.1, rest.2⟩

omit room runs in
/-- Then `main` sees both counters where it wants them. -/
theorem Invariant.waited (sent : p.toSend = []) (rests : BatcherRests p)
    (points : p.pointRing.unread = 0) (head : p.scanner = .head false)
    (scans : p.scanRing.unread = 0) : p.waited program = true := by
  obtain ⟨pointsHold, scansHold, _⟩ := invariant
  have fewPoints := pointsHold.fewPushed few
  have fewScanned := scansHold.fewPushed fewScans
  have pushedPoints : pointsOf program = p.pointRing.pushed := by
    rw [pointsHold.sent, sent]
    exact List.append_nil _
  have pushedScans : scansOf program = p.scanRing.pushed := by
    rw [scansHold.sent, sent]
    exact List.append_nil _
  have popped := pointsHold.popped
  rw [rests.batch, List.append_nil] at popped
  have scanned := scansHold.popped
  rw [head, List.append_nil] at scanned
  unfold Threads.unread at points scans
  simp only [Pipeline.waited, sent, List.isEmpty_nil, Bool.true_and,
    Bool.and_eq_true, decide_eq_true_eq]
  constructor
  · rw [pointsHold.total, ← popped, pushedPoints]
    omega
  · rw [scansHold.counted, ← scanned, pushedScans]
    omega

end

/-- Every thread has returned. -/
structure Finished (p : Pipeline S) : Prop where
  toSend : p.toSend = []
  runState : p.runState = false
  batcher : p.batcher = .stopped
  scanner : p.scanner = .stopped

section
variable (few : (pointsOf program).length < 2 ^ 64)
  (room : first.engine.HasRoom (pointsOf program))
  (fewScans : (scansOf program).length < 2 ^ 64) {last : S}
  (runs : (scansOf program).foldlM executeScan firstEngine = some last)
  (invariant : Invariant executeScan program first firstEngine p)

include few room fewScans runs invariant

theorem Invariant.finishes :
    ∃ after, Reachable asserts executeScan program p after ∧
      Finished after := by
  have stops : ∀ {p : Pipeline S},
      Invariant executeScan program first firstEngine p →
      p.runState = false →
      ∃ after, Reachable asserts executeScan program p after ∧
        Finished after := by
    intro p invariant stopped
    have waited := invariant.waits stopped
    simp only [Pipeline.waited, Bool.and_eq_true, List.isEmpty_iff] at waited
    obtain ⟨middle, reached, batcher, moved⟩ :=
      invariant.batcher_stops few room stopped
    obtain ⟨after, later, moves, scanner⟩ :=
      (invariant.run few room reached).scanner_stops few room fewScans runs
        (moved.runState.trans stopped)
    exact ⟨after, reached.trans later,
      (moves.toSend.trans moved.toSend).trans waited.1.1,
      (moves.runState.trans moved.runState).trans stopped,
      moves.batcher.trans batcher, scanner⟩
  cases running : p.runState with
  | false => exact stops invariant running
  | true =>
      obtain ⟨middle, reached, sent, stillRunning, rests, points, head,
        scans⟩ := invariant.sendsAll few room fewScans runs running
      have invariantMiddle := invariant.run few room reached
      have waited := invariantMiddle.waited few fewScans sent rests points
        head scans
      have here : middle.step asserts executeScan program .main =
          some { middle with runState := false } := by
        simp only [Pipeline.step, Pipeline.stepMain, stillRunning, waited,
          Bool.and_self, if_true]
      have stopping := Reachable.one here
      obtain ⟨after, later, finished⟩ :=
        stops (invariantMiddle.run few room stopping) rfl
      exact ⟨after, (reached.trans stopping).trans later, finished⟩

end

/-- Whatever the threads have done so far, they can all return, and then every
item has been processed. -/
theorem Reachable.completes {q : DatabaseQuery} {scan : ScanQuery} {last : S}
    (reached : Reachable asserts executeScan program
      (Pipeline.start program first firstEngine q scan) p)
    (few : (pointsOf program).length < 2 ^ 64)
    (fewScans : (scansOf program).length < 2 ^ 64)
    (room : first.engine.HasRoom (pointsOf program))
    (runs : (scansOf program).foldlM executeScan firstEngine = some last) :
    ∃ after, Reachable asserts executeScan program p after ∧
      Finished after ∧ Drained program after := by
  have invariant := reached.invariant few room
  obtain ⟨after, later, finished⟩ :=
    invariant.finishes few room fewScans runs
  exact ⟨after, later, finished, (invariant.run few room later).drained few
    fewScans finished.runState⟩

/-- From the start. -/
theorem completes_writeAndScan :
    ∃ after, Reachable true catalogScan writeAndScan
        (Pipeline.start writeAndScan (World.initial .SYNC_EACH)
          (Catalog.fresh 1024) ⟨0, 0, OP_READ⟩ Analytics.blankScan) after ∧
      Finished after ∧ Drained writeAndScan after :=
  Reachable.completes .start (by decide) (by decide) hasRoom_writeAndScan
    runs_writeAndScan

end Pipeline

end MatrixDB
