import MatrixDB.Engine.Durability

/-!
# Histories over one log path

Runs of the engine follow one another on the same files.  Recovery never
repairs the log it reads: a torn tail and transactional puts without a marker
stay where they are, and the next run appends behind them.  `Careful` names
the calls for which this is harmless.
-/

namespace MatrixDB

open Lib

/-- A call that appends finds no torn tail, and a commit no transactional
puts that wait for a marker. -/
def CarefulCall (world : World) : Op → Prop
  | .executeBatch batch => HasWrite batch → tornTail world.disk.wal = []
  | .commit =>
      tornTail world.disk.wal = [] ∧ leftoverTxn world.disk.wal = []
  | _ => True

def Careful (world : World) : Event → Prop
  | .call op => CarefulCall world op
  | .restart _ => True
  | .crash op _ _ _ => CarefulCall world op

instance (batch : List DatabaseQuery) : Decidable (HasWrite batch) :=
  inferInstanceAs
    (Decidable (∃ visit ∈ binnedQueries batch, visit.2.opcode = OP_WRITE))

instance (world : World) : (op : Op) → Decidable (CarefulCall world op)
  | .executeBatch batch =>
      inferInstanceAs
        (Decidable (HasWrite batch → tornTail world.disk.wal = []))
  | .commit =>
      inferInstanceAs (Decidable
        (tornTail world.disk.wal = [] ∧ leftoverTxn world.disk.wal = []))
  | .begin | .txnPut _ _ | .rollback | .checkpoint | .shutdown =>
      inferInstanceAs (Decidable True)

instance (world : World) : (event : Event) → Decidable (Careful world event)
  | .call op => inferInstanceAs (Decidable (CarefulCall world op))
  | .restart _ => inferInstanceAs (Decidable True)
  | .crash op _ _ _ => inferInstanceAs (Decidable (CarefulCall world op))

/-- Every event of a history is careful in the world it happens in. -/
def CarefulAlong (asserts : Bool) : World → List Event → Prop
  | _, [] => True
  | world, event :: later =>
      Careful world event ∧
        ∀ next ∈ world.runEvent asserts event,
          CarefulAlong asserts next later

instance decideCarefulAlong (asserts : Bool) :
    (world : World) → (events : List Event) →
      Decidable (CarefulAlong asserts world events)
  | _, [] => inferInstanceAs (Decidable True)
  | world, event :: later =>
      have _ : DecidablePred
          fun next => CarefulAlong asserts next later :=
        fun next => decideCarefulAlong asserts next later
      inferInstanceAs (Decidable
        (Careful world event ∧
          ∀ next ∈ world.runEvent asserts event,
            CarefulAlong asserts next later))

/-- Events after which a new engine is constructed. -/
def Event.IsStop : Event → Prop
  | .call _ => False
  | .restart _ => True
  | .crash _ _ _ _ => True

/-- Events of a history whose calls are only cut inside a checkpoint. -/
def Event.StopsAtCheckpoint : Event → Prop
  | .call _ => True
  | .restart _ => True
  | .crash op _ _ _ => op = .checkpoint ∨ op = .shutdown

variable {tail : List (UInt64 × UInt64) → Bytes → Prop} {asserts : Bool}

theorem Settled.reopen {world : World} {kv : KVStore MATRIX_STORE_SLOTS}
    {leftover : List (UInt64 × UInt64)} {torn : Bytes}
    (image : DiskImage world.disk kv leftover torn)
    (explained : Explained world.notes kv) (sync : SyncPolicy) :
    ∃ next, world.reopen sync = some next ∧ next.engine.kv = kv ∧
      Settled next kv leftover torn := by
  refine ⟨{ world with engine := PointOps.onStore sync kv }, ?_, rfl, ?_⟩
  · simp [World.reopen, openEngine, image.recoverKv_eq]
  · exact ⟨image, explained, RefusingStore.SameMap.refl kvOps kv, rfl⟩

/-- A call leaves a settled world settled, and is safe to cut. -/
theorem call_settled {world : World} (clean : tail [] [])
    (settled : SettledIf tail world) (op : Op)
    (careful : CarefulCall world op) :
    (∀ final,
      (World.machine asserts).runAll (world.engine.actions op) world =
        some final → SettledIf tail final) ∧
      ∀ count extent, CrashSafe (world.crashIn asserts op count extent) := by
  have logged : world.engine.coldStore.isSome = true := by
    obtain ⟨_, _, _, _, settled⟩ := settled
    exact settled.logged
  have quiet : ∀ actions : List Action,
      (∀ action ∈ actions, action.IsLocal) →
      (World.machine asserts).CrashTriple (SettledIf tail) actions
        (SettledIf tail) CrashSafe := by
    intro actions isLocal
    exact (settled_of_isLocal isLocal).weaken (fun _ same => same)
      (fun _ same => same) (fun _ safe => safe.crashSafe)
  cases op with
  | executeBatch batch =>
      have start : SettledIf
          (fun leftover torn => tail leftover torn ∧
            (HasWrite batch → torn = [])) world := by
        obtain ⟨kv, leftover, torn, condition, settled⟩ := settled
        refine ⟨kv, leftover, torn, ⟨condition, ?_⟩, settled⟩
        intro hasWrite
        rw [← settled.image.tornTail_eq]
        exact careful hasWrite
      obtain ⟨complete, stopped⟩ :=
        executeBatch_triple world.engine logged batch
          (fun hasWrite _ _ condition => condition.2 hasWrite) world start
      refine ⟨?_, stopped⟩
      intro final finished
      exact (complete final finished).weaken fun _ _ condition => condition.1
  | begin =>
      exact quiet _ (by simp [PointOps.actions, Action.IsLocal]) world settled
  | txnPut key value =>
      exact quiet _ (by simp [PointOps.actions, Action.IsLocal]) world settled
  | commit =>
      have start : ∃ kv, Settled world kv [] [] := by
        obtain ⟨kv, leftover, torn, _, settled⟩ := settled
        have noTorn := settled.image.tornTail_eq.symm.trans careful.1
        have noLeftover := settled.image.leftoverTxn_eq.symm.trans careful.2
        subst noTorn noLeftover
        exact ⟨kv, settled⟩
      obtain ⟨complete, stopped⟩ :=
        commit_triple world.engine logged world ⟨start, rfl⟩
      refine ⟨?_, stopped⟩
      intro final finished
      apply (complete final finished).weaken
      intro leftover torn condition
      rw [condition.1, condition.2]
      exact clean
  | rollback =>
      exact quiet world.engine.rollbackActions
        (by simp [PointOps.rollbackActions, Action.IsLocal]) world settled
  | checkpoint =>
      obtain ⟨complete, stopped⟩ :=
        checkpoint_triple world.engine world.engine.inTxn clean world settled
      exact ⟨complete, fun count extent => (stopped count extent).crashSafe⟩
  | shutdown =>
      obtain ⟨complete, stopped⟩ :=
        shutdown_triple world.engine clean world settled
      exact ⟨complete, fun count extent => (stopped count extent).crashSafe⟩

theorem initial_settled (sync : SyncPolicy) (clean : tail [] []) :
    SettledIf tail (World.initial sync) :=
  ⟨KVStore.fresh, [], [], clean, DiskImage.empty, Explained.initial,
    RefusingStore.SameMap.refl kvOps _, rfl⟩

/-! ## Runs with crashes -/

/-- The world can be left anywhere between two calls. -/
abbrev SettledAny : World → Prop := SettledIf fun _ _ => True

theorem CrashSafe.reopen {world : World} (safe : CrashSafe world)
    (sync : SyncPolicy) :
    ∃ next, world.reopen sync = some next ∧ SettledAny next := by
  obtain ⟨kv, leftover, torn, image, explained⟩ := safe
  obtain ⟨next, opened, _, settled⟩ := Settled.reopen image explained sync
  exact ⟨next, opened, kv, leftover, torn, trivial, settled⟩

/-- Recovery succeeds after every stop, and gives a settled world. -/
theorem stop_settled {world : World} (settled : SettledAny world)
    {event : Event} (careful : Careful world event) (stop : event.IsStop) :
    ∃ next, world.runEvent asserts event = some next ∧ SettledAny next := by
  cases event with
  | call op => exact stop.elim
  | restart sync => exact settled.crashSafe.reopen sync
  | crash op count extent sync =>
      have safe : CrashSafe (world.crashIn asserts op count extent) :=
        (call_settled trivial settled op careful).2 count extent
      exact safe.reopen sync

theorem event_settled {world next : World} (settled : SettledAny world)
    {event : Event} (careful : Careful world event)
    (ran : world.runEvent asserts event = some next) : SettledAny next := by
  cases event with
  | call op => exact (call_settled trivial settled op careful).1 next ran
  | restart sync | crash op count extent sync =>
      obtain ⟨other, stopped, settled⟩ := stop_settled settled careful trivial
      rw [ran] at stopped
      cases stopped
      exact settled

theorem run_settled {world final : World} (settled : SettledAny world)
    {history : List Event} (careful : CarefulAlong asserts world history)
    (ran : world.runEvents asserts history = some final) :
    SettledAny final := by
  induction history generalizing world with
  | nil =>
      cases ran
      exact settled
  | cons event later induction =>
      simp only [World.runEvents] at ran
      cases step : world.runEvent asserts event with
      | none => simp [step] at ran
      | some next =>
          rw [step] at ran
          exact induction (event_settled settled careful.1 step)
            (careful.2 next step) ran

theorem CarefulAlong.last {world final : World} {history : List Event}
    {ending : Event}
    (careful : CarefulAlong asserts world (history ++ [ending]))
    (ran : world.runEvents asserts history = some final) :
    CarefulAlong asserts world history ∧ Careful final ending := by
  induction history generalizing world with
  | nil =>
      cases ran
      exact ⟨trivial, careful.1⟩
  | cons event later induction =>
      simp only [World.runEvents] at ran
      cases step : world.runEvent asserts event with
      | none => simp [step] at ran
      | some next =>
          rw [step] at ran
          obtain ⟨before, last⟩ := induction (careful.2 next step) ran
          refine ⟨⟨careful.1, ?_⟩, last⟩
          intro other same
          rw [step] at same
          cases same
          exact before

/-- The recovered engine after a careful history and one more stop. -/
theorem recovered_explained {sync : SyncPolicy} {history : List Event}
    {ending : Event} {world : World} (stop : ending.IsStop)
    (careful : CarefulAlong asserts (World.initial sync)
      (history ++ [ending]))
    (reached : (World.initial sync).runEvents asserts history = some world) :
    ∃ final, world.runEvent asserts ending = some final ∧
      Explained final.notes final.engine.kv := by
  obtain ⟨before, last⟩ := careful.last reached
  have settled : SettledAny world :=
    run_settled (initial_settled sync trivial) before reached
  obtain ⟨final, stopped, kv, _, _, _, recovered⟩ :=
    stop_settled settled last stop
  exact ⟨final, stopped, recovered.explained.congr recovered.live⟩

/-- Over careful histories no acknowledged write is lost: every recovery
gives each key its last acknowledged write or one issued after it. -/
theorem acknowledged_writes_survive (asserts : Bool) (sync : SyncPolicy)
    (history : List Event) (ending : Event) (stop : ending.IsStop)
    (careful : CarefulAlong asserts (World.initial sync)
      (history ++ [ending]))
    (world : World)
    (reached : (World.initial sync).runEvents asserts history = some world) :
    ∃ final, world.runEvent asserts ending = some final ∧
      (¬final.engine.kv.Full →
        ∀ key, Recoverable key (final.engine.kv.get key) final.notes) := by
  obtain ⟨final, stopped, explained⟩ :=
    recovered_explained stop careful reached
  exact ⟨final, stopped, explained.recoverable⟩

/-- A committed write, a checkpoint cut while its file is written, and a
second transaction. -/
def checkpointedHistory : List Event :=
  [.call .begin, .call (.txnPut 1 10), .call .commit,
    .crash .checkpoint 1 5 .SYNC_EACH, .call .begin, .call (.txnPut 1 11)]

theorem acknowledged_writes_survive_checkpointed :
    ∃ world final,
      (World.initial .SYNC_EACH).runEvents true checkpointedHistory =
        some world ∧
      world.runEvent true (.crash .commit 4 0 .SYNC_OFF) = some final ∧
      ¬final.engine.kv.Full ∧
      Recoverable 1 (final.engine.kv.get 1) final.notes := by
  obtain ⟨world, reached⟩ : ∃ world,
      (World.initial .SYNC_EACH).runEvents true checkpointedHistory =
        some world := Option.isSome_iff_exists.mp (by decide +kernel)
  obtain ⟨final, stopped, survive⟩ :=
    acknowledged_writes_survive true .SYNC_EACH checkpointedHistory
      (.crash .commit 4 0 .SYNC_OFF) trivial (by decide +kernel) world reached
  have sizes : (((World.initial .SYNC_EACH).runEvents true
      checkpointedHistory).bind fun world =>
        (world.runEvent true (.crash .commit 4 0 .SYNC_OFF)).map
          fun final => final.engine.kv.size) = some 1 := by decide +kernel
  have room : ¬final.engine.kv.Full := by
    simp only [reached, stopped, Option.bind_some, Option.map_some,
      Option.some.injEq] at sizes
    rw [KVStore.Full, sizes]
    decide
  exact ⟨world, final, reached, stopped, room, survive room 1⟩

/-- A crash inside `commit` leaves four bytes; the next run commits behind
them and restarts. -/
def tornHistory : List Event :=
  [.call .begin, .call (.txnPut 7 70), .crash .commit 2 4 .SYNC_EACH,
    .call .begin, .call (.txnPut 1 10), .call .commit, .restart .SYNC_EACH]

/-- The acknowledged write of the run that recovered from a torn log is
lost. -/
theorem acknowledged_write_lost :
    ∃ final,
      (World.initial .SYNC_EACH).runEvents true tornHistory = some final ∧
      ¬final.engine.kv.Full ∧
      ¬Recoverable 1 (final.engine.kv.get 1) final.notes := by
  have outcome : ((World.initial .SYNC_EACH).runEvents true tornHistory).map
      (fun final =>
        (final.notes, final.engine.kv.get 1, final.engine.kv.size)) =
      some ([.acked [(1, 10)], .durable [(1, 10)], .issued [(1, 10)],
        .issued [(7, 70)]], none, 0) := by decide +kernel
  obtain ⟨final, reached, observed⟩ := Option.map_eq_some_iff.mp outcome
  simp only [Prod.mk.injEq] at observed
  obtain ⟨notes, value, size⟩ := observed
  refine ⟨final, reached, ?_, ?_⟩
  · rw [KVStore.Full, size]
    decide
  · rw [notes, value]
    simp [Recoverable, lastWrite]

/-- Over careful histories every recovered store holds exactly the auto-commit
writes that reached the log and the groups whose own marker did. -/
theorem uncommitted_never_resurrected (asserts : Bool) (sync : SyncPolicy)
    (history : List Event) (ending : Event) (stop : ending.IsStop)
    (careful : CarefulAlong asserts (World.initial sync)
      (history ++ [ending]))
    (world : World)
    (reached : (World.initial sync).runEvents asserts history = some world) :
    ∃ final, world.runEvent asserts ending = some final ∧
      ∀ key, final.engine.kv.get key =
        (kvOps.replay KVStore.fresh (durableWrites final.notes)).get key := by
  obtain ⟨final, stopped, explained⟩ :=
    recovered_explained stop careful reached
  refine ⟨final, stopped, ?_⟩
  intro key
  exact (explained.durable key).symm

theorem uncommitted_never_resurrected_checkpointed :
    ∃ world final,
      (World.initial .SYNC_EACH).runEvents true checkpointedHistory =
        some world ∧
      world.runEvent true (.crash .commit 3 27 .SYNC_OFF) = some final ∧
      ∀ key, final.engine.kv.get key =
        (kvOps.replay KVStore.fresh (durableWrites final.notes)).get key := by
  obtain ⟨world, reached⟩ : ∃ world,
      (World.initial .SYNC_EACH).runEvents true checkpointedHistory =
        some world := Option.isSome_iff_exists.mp (by decide +kernel)
  obtain ⟨final, stopped, recovered⟩ :=
    uncommitted_never_resurrected true .SYNC_EACH checkpointedHistory
      (.crash .commit 3 27 .SYNC_OFF) trivial (by decide +kernel) world
      reached
  exact ⟨world, final, reached, stopped, recovered⟩

/-- A crash inside `commit` leaves the whole transactional put and no marker;
the next run commits a group of its own and restarts. -/
def danglingHistory : List Event :=
  [.call .begin, .call (.txnPut 1 10), .crash .commit 2 28 .SYNC_EACH,
    .call .begin, .call (.txnPut 2 20), .call .commit, .restart .SYNC_EACH]

/-- The marker of the second transaction commits the first one's write. -/
theorem uncommitted_resurrected :
    ∃ final,
      (World.initial .SYNC_EACH).runEvents true danglingHistory =
        some final ∧
      durableWrites final.notes = [(2, 20)] ∧
      final.engine.kv.get 1 = some 10 ∧
      ¬∀ key, final.engine.kv.get key =
        (kvOps.replay KVStore.fresh (durableWrites final.notes)).get key := by
  have outcome :
      ((World.initial .SYNC_EACH).runEvents true danglingHistory).map
        (fun final => (durableWrites final.notes, final.engine.kv.get 1)) =
      some ([(2, 20)], some 10) := by decide +kernel
  obtain ⟨final, reached, observed⟩ := Option.map_eq_some_iff.mp outcome
  simp only [Prod.mk.injEq] at observed
  obtain ⟨durable, value⟩ := observed
  refine ⟨final, reached, durable, value, ?_⟩
  intro same
  have absent : (kvOps.replay KVStore.fresh [(2, 20)]).get 1 = none := by
    decide +kernel
  rw [durable] at same
  exact absurd ((same 1).symm.trans value) (by rw [absent]; simp)

/-! ## Runs cut only inside checkpoints -/

/-- The world at a stop, before the next constructor. -/
def World.atStop (asserts : Bool) (world : World) : Event → World
  | .call _ => world
  | .restart _ => world
  | .crash op count extent _ => world.crashIn asserts op count extent

/-- Whole records only, and every group closed by its marker. -/
abbrev SettledClean : World → Prop :=
  SettledIf fun leftover torn => leftover = [] ∧ torn = []

theorem SettledClean.careful {world : World} (settled : SettledClean world)
    (op : Op) : CarefulCall world op := by
  obtain ⟨kv, leftover, torn, ⟨noLeftover, noTorn⟩, settled⟩ := settled
  have tornTail := settled.image.tornTail_eq.trans noTorn
  have leftoverTxn := settled.image.leftoverTxn_eq.trans noLeftover
  cases op with
  | executeBatch batch => exact fun _ => tornTail
  | commit => exact ⟨tornTail, leftoverTxn⟩
  | begin | txnPut | rollback | checkpoint | shutdown => trivial

theorem SettledClean.atStop {world : World} (settled : SettledClean world)
    {event : Event} (stops : event.StopsAtCheckpoint) :
    SettledClean (world.atStop asserts event) := by
  cases event with
  | call op => exact settled
  | restart sync => exact settled
  | crash op count extent sync =>
      rcases stops with rfl | rfl
      · exact (checkpoint_triple world.engine world.engine.inTxn ⟨rfl, rfl⟩
          world settled).2 count extent
      · exact (shutdown_triple world.engine ⟨rfl, rfl⟩ world settled).2
          count extent

theorem SettledClean.reopen {world : World} (settled : SettledClean world)
    (sync : SyncPolicy) :
    ∃ next, world.reopen sync = some next ∧ SettledClean next ∧
      ∀ key, next.engine.kv.get key = world.engine.kv.get key := by
  obtain ⟨kv, leftover, torn, condition, settled⟩ := settled
  obtain ⟨next, opened, recovered, reopened⟩ :=
    Settled.reopen settled.image settled.explained sync
  refine ⟨next, opened, ⟨kv, leftover, torn, condition, reopened⟩, ?_⟩
  intro key
  rw [recovered]
  exact settled.live key

theorem runEvent_of_stop {world : World} {event : Event}
    (stop : event.IsStop) :
    ∃ sync, world.runEvent asserts event =
      (world.atStop asserts event).reopen sync := by
  cases event with
  | call op => exact stop.elim
  | restart sync => exact ⟨sync, rfl⟩
  | crash op count extent sync => exact ⟨sync, rfl⟩

theorem run_settledClean {world final : World}
    (settled : SettledClean world) {history : List Event}
    (stops : ∀ event ∈ history, event.StopsAtCheckpoint)
    (ran : world.runEvents asserts history = some final) :
    SettledClean final := by
  induction history generalizing world with
  | nil =>
      cases ran
      exact settled
  | cons event later induction =>
      simp only [World.runEvents] at ran
      cases step : world.runEvent asserts event with
      | none => simp [step] at ran
      | some next =>
          rw [step] at ran
          refine induction ?_ (fun other member =>
            stops other (List.mem_cons_of_mem _ member)) ran
          have atStop : SettledClean (world.atStop asserts event) :=
            settled.atStop (stops event List.mem_cons_self)
          cases event with
          | call op =>
              exact (call_settled ⟨rfl, rfl⟩ settled op
                (settled.careful op)).1 next step
          | restart sync | crash op count extent sync =>
              obtain ⟨other, opened, clean, _⟩ := atStop.reopen sync
              have same : some other = some next := opened.symm.trans step
              cases same
              exact clean

/-- The recovered map is the live map at the stop, for every stop between
calls and inside a checkpoint. -/
theorem recovered_eq_live (asserts : Bool) (sync : SyncPolicy)
    (history : List Event)
    (stops : ∀ event ∈ history, event.StopsAtCheckpoint) (world : World)
    (reached : (World.initial sync).runEvents asserts history = some world)
    (ending : Event) (stop : ending.IsStop)
    (stopsAt : ending.StopsAtCheckpoint) :
    ∃ final, world.runEvent asserts ending = some final ∧
      ∀ key, final.engine.kv.get key =
        (world.atStop asserts ending).engine.kv.get key := by
  have settled : SettledClean world :=
    run_settledClean (initial_settled sync ⟨rfl, rfl⟩) stops reached
  obtain ⟨next, reopened⟩ := runEvent_of_stop stop
  obtain ⟨final, opened, _, same⟩ := (settled.atStop stopsAt).reopen next
  exact ⟨final, reopened.trans opened, same⟩

theorem recovered_eq_live_checkpointed :
    ∃ world final,
      (World.initial .SYNC_EACH).runEvents true checkpointedHistory =
        some world ∧
      world.runEvent true (.crash .shutdown 4 0 .SYNC_EACH) = some final ∧
      ∀ key, final.engine.kv.get key =
        (world.atStop true (.crash .shutdown 4 0 .SYNC_EACH)).engine.kv.get
          key := by
  obtain ⟨world, reached⟩ : ∃ world,
      (World.initial .SYNC_EACH).runEvents true checkpointedHistory =
        some world := Option.isSome_iff_exists.mp (by decide +kernel)
  obtain ⟨final, stopped, same⟩ :=
    recovered_eq_live true .SYNC_EACH checkpointedHistory
      (by simp [checkpointedHistory, Event.StopsAtCheckpoint]) world reached
      (.crash .shutdown 4 0 .SYNC_EACH) trivial (.inr rfl)
  exact ⟨world, final, reached, stopped, same⟩

end MatrixDB
