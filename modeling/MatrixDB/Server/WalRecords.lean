import MatrixDB.ColdStore.TornLog
import MatrixDB.Engine.Batching
import MatrixDB.Engine.Histories
import MatrixDB.Server.Core

/-!
# The number of records in the log

`wal_records` is the counter of the open log: every append adds one and a
checkpoint sets it to zero.  The constructor starts it at zero too, also on a log
that already holds records; from such a restart on the number is too small.
-/

namespace MatrixDB

open Lib

/-! ## Records in a file -/

/-- The rounds of the loop of `replay` that read a record. -/
def countLoop : Nat → Bytes → Nat
  | 0, _ => 0
  | fuel + 1, file =>
      match readRecord file with
      | some (_, rest) => countLoop fuel rest + 1
      | none => 0

/-- How many records a replay of a file reads. -/
def recordsRead (file : Bytes) : Nat := countLoop file.length file

theorem countLoop_eq_of_le {fuel more : Nat} {file : Bytes}
    (enough : file.length ≤ fuel) (larger : fuel ≤ more) :
    countLoop more file = countLoop fuel file := by
  induction fuel generalizing more file with
  | zero =>
      have empty : file = [] := List.length_eq_zero_iff.mp (by omega)
      subst empty
      cases more <;> rfl
  | succ fuel induction =>
      cases more with
      | zero => omega
      | succ more =>
          simp only [countLoop]
          cases read : readRecord file with
          | none => rfl
          | some result =>
              obtain ⟨payload, rest⟩ := result
              have shorter := readRecord_length_lt read
              have onward : countLoop more rest = countLoop fuel rest :=
                induction (by omega) (by omega)
              exact congrArg (· + 1) onward

theorem recordsRead_encode (record : WalRecord) (rest : Bytes) :
    recordsRead (record.encode ++ rest) = recordsRead rest + 1 := by
  have read := record.readRecord_encode rest
  have shorter := readRecord_length_lt read
  unfold recordsRead
  cases size : (record.encode ++ rest).length with
  | zero => omega
  | succ fuel =>
      simp only [countLoop, read]
      rw [countLoop_eq_of_le (Nat.le_refl _) (by omega)]

theorem recordsRead_encodeAll (records : List WalRecord) :
    recordsRead (encodeAll records) = records.length := by
  induction records with
  | nil => rfl
  | cons record records induction =>
      rw [encodeAll_cons, recordsRead_encode, induction, List.length_cons]

/-- A record takes bytes. -/
theorem recordsRead_le (records : List WalRecord) :
    records.length ≤ (encodeAll records).length := by
  induction records with
  | nil => exact Nat.le_refl _
  | cons record records induction =>
      have size := record.length_encode
      rw [encodeAll_cons, List.length_append, List.length_cons]
      omega

/-! ## The counter -/

/-- The log holds whole records, as many as the counter says. -/
def Counted (world : World) : Prop :=
  ∃ records store, world.disk.wal = encodeAll records ∧
    world.engine.coldStore = some store ∧
    store.recordsWritten = UInt64.ofNat records.length

theorem counted_initial (sync : SyncPolicy) :
    Counted (World.initial sync) :=
  ⟨[], { policy := sync, recordsWritten := 0 }, rfl, rfl, rfl⟩

theorem Counted.congr {world next : World} (counted : Counted world)
    (wal : next.disk.wal = world.disk.wal)
    (coldStore : next.engine.coldStore = world.engine.coldStore) :
    Counted next := by
  obtain ⟨records, store, held, opened, count⟩ := counted
  exact ⟨records, store, wal.trans held, coldStore.trans opened, count⟩

theorem coldStore_applyCommittedWrite {asserts : Bool}
    {engine after : PointOps} {key value : UInt64}
    (applied : engine.applyCommittedWrite asserts key value = some after) :
    after.coldStore = engine.coldStore := by
  unfold PointOps.applyCommittedWrite at applied
  dsimp only at applied
  split at applied
  · cases applied
    rfl
  · split at applied
    · cases applied
    · cases applied
      rfl

/-- No action makes the counter wrong. -/
theorem Counted.run {asserts : Bool} {action : Action} {world next : World}
    (counted : Counted world)
    (ran : (World.machine asserts).run action world = some next) :
    Counted next := by
  cases action with
  | append record =>
      cases ran
      obtain ⟨records, store, held, opened, count⟩ := counted
      refine ⟨records ++ [record],
        { store with recordsWritten := store.recordsWritten + 1 }, ?_, ?_, ?_⟩
      · rw [encodeAll_append, ← held]
        change world.disk.wal ++ record.encode.take record.encode.length =
          world.disk.wal ++ (record.encode ++ [])
        rw [List.take_length, List.append_nil]
      · change (world.engine.coldStore.map _) = _
        rw [opened]
        rfl
      · rw [count, List.length_append, UInt64.ofNat_add]
        rfl
  | truncate =>
      cases ran
      obtain ⟨records, store, _, opened, _⟩ := counted
      refine ⟨[], { store with recordsWritten := 0 }, rfl, ?_, rfl⟩
      change (world.engine.coldStore.map _) = _
      rw [opened]
      rfl
  | applyCommittedWrite key value =>
      obtain ⟨engine, applied, same⟩ := Option.map_eq_some_iff.mp ran
      rw [← same]
      exact counted.congr rfl (coldStore_applyCommittedWrite applied)
  | require holds =>
      simp only [World.machine, World.run] at ran
      split at ran
      · cases ran
      · cases ran
        exact counted
  | note | bin | readKey | openTxn | bufferPut | closeCommitted
  | closeRolledBack | writeTmp | renameTmp | countCheckpoint =>
      cases ran
      exact counted.congr rfl rfl

theorem Counted.runAll {asserts : Bool} {actions : List Action}
    {world next : World} (counted : Counted world)
    (ran : (World.machine asserts).runAll actions world = some next) :
    Counted next := by
  induction actions generalizing world with
  | nil =>
      cases ran
      exact counted
  | cons action actions induction =>
      rw [Machine.runAll] at ran
      split at ran
      · rename_i middle first
        exact induction (counted.run first) ran
      · cases ran

/-- A constructor starts at zero and leaves the log as it is. -/
theorem reopen_log {sync : SyncPolicy} {world next : World}
    (opened : world.reopen sync = some next) :
    next.disk = world.disk ∧ next.engine.coldStore =
      some { policy := sync, recordsWritten := 0 } := by
  obtain ⟨engine, built, same⟩ := Option.map_eq_some_iff.mp opened
  obtain ⟨kv, _, fresh⟩ := Option.map_eq_some_iff.mp built
  rw [← same, ← fresh]
  exact ⟨rfl, rfl⟩

theorem Counted.reopen {sync : SyncPolicy} {world next : World}
    (counted : Counted world) (empty : recordsRead world.disk.wal = 0)
    (opened : world.reopen sync = some next) : Counted next := by
  obtain ⟨records, _, held, _, _⟩ := counted
  obtain ⟨disk, coldStore⟩ := reopen_log opened
  rw [held, recordsRead_encodeAll] at empty
  have none : records = [] := List.length_eq_zero_iff.mp empty
  refine ⟨[], { policy := sync, recordsWritten := 0 }, ?_, coldStore, rfl⟩
  rw [disk, held, none]

/-! ## Runs -/

/-- A call, or a clean restart on a log in which a replay finds no record. -/
def World.CountsOn (world : World) : Event → Prop
  | .call _ => True
  | .restart _ => recordsRead world.disk.wal = 0
  | .crash _ _ _ _ => False

/-- A history all of whose steps count on. -/
def World.CountsThrough (asserts : Bool) (world : World) :
    List Event → Prop
  | [] => True
  | event :: later => world.CountsOn event ∧
      ∀ next, world.runEvent asserts event = some next →
        next.CountsThrough asserts later

theorem Counted.runEvent {asserts : Bool} {event : Event}
    {world next : World} (counted : Counted world)
    (counts : world.CountsOn event)
    (ran : world.runEvent asserts event = some next) : Counted next := by
  cases event with
  | call op => exact counted.runAll ran
  | restart sync => exact counted.reopen counts ran
  | crash op count extent sync => exact counts.elim

theorem Counted.runEvents {asserts : Bool} {history : List Event}
    {world final : World} (counted : Counted world)
    (counts : world.CountsThrough asserts history)
    (ran : world.runEvents asserts history = some final) :
    Counted final := by
  induction history generalizing world with
  | nil =>
      cases ran
      exact counted
  | cons event later induction =>
      rw [World.runEvents] at ran
      split at ran
      · rename_i next first
        exact induction (counted.runEvent counts.1 first)
          (counts.2 next first) ran
      · cases ran

/-- `wal_records` and the pending records of `health` are the number of records
that a replay would read.  A file has fewer than `2 ^ 64` bytes. -/
def CPUMockEngine.TellsLogSize {κ : Type} (engine : CPUMockEngine κ) : Prop :=
  engine.points.disk.wal.length < 2 ^ 64 →
    engine.walRecords.toNat = recordsRead engine.points.disk.wal ∧
      engine.health[4]? = some engine.walRecords

theorem Counted.tellsLogSize {κ : Type} {world : World}
    (counted : Counted world) (catalog : Catalog κ) :
    CPUMockEngine.TellsLogSize { catalog := catalog, points := world } := by
  intro size
  obtain ⟨records, store, held, opened, count⟩ := counted
  have written : CPUMockEngine.walRecords
      { catalog := catalog, points := world } = store.recordsWritten := by
    unfold CPUMockEngine.walRecords
    rw [opened]
  have bound := recordsRead_le records
  change world.disk.wal.length < 2 ^ 64 at size
  rw [held] at size
  refine ⟨?_, rfl⟩
  rw [written, count]
  change _ = recordsRead world.disk.wal
  rw [held, recordsRead_encodeAll]
  exact UInt64.toNat_ofNat_of_lt' (show _ < 2 ^ 64 by omega)

/-- After a restart the counters are right exactly if a replay found no
record. -/
theorem reopen_tells_iff {κ : Type} {sync : SyncPolicy} {world next : World}
    (small : world.disk.wal.length < 2 ^ 64)
    (opened : world.reopen sync = some next) (catalog : Catalog κ) :
    CPUMockEngine.TellsLogSize { catalog := catalog, points := next } ↔
      recordsRead world.disk.wal = 0 := by
  obtain ⟨disk, coldStore⟩ := reopen_log opened
  have zero : CPUMockEngine.walRecords
      { catalog := catalog, points := next } = 0 := by
    unfold CPUMockEngine.walRecords
    rw [coldStore]
  unfold CPUMockEngine.TellsLogSize
  rw [zero]
  change (next.disk.wal.length < 2 ^ 64 →
    0 = recordsRead next.disk.wal ∧ some (CPUMockEngine.walRecords
      { catalog := catalog, points := next }) = some 0) ↔ _
  rw [disk, zero]
  constructor
  · intro tells
    exact (tells small).1.symm
  · intro none _
    exact ⟨none.symm, rfl⟩

/-- If every restart finds a log without records, the counters are right in
every state. -/
theorem walRecords_exact {κ : Type} {asserts : Bool} {sync : SyncPolicy}
    {history : List Event}
    (counts : (World.initial sync).CountsThrough asserts history)
    {front back : List Event} (split : history = front ++ back)
    {reached : World}
    (ran : (World.initial sync).runEvents asserts front = some reached)
    (catalog : Catalog κ) :
    CPUMockEngine.TellsLogSize { catalog := catalog, points := reached } := by
  have earlier : ∀ {world : World} {front back : List Event},
      world.CountsThrough asserts (front ++ back) →
        world.CountsThrough asserts front := by
    intro world front
    induction front generalizing world with
    | nil => exact fun _ => trivial
    | cons event front induction =>
        intro back through
        exact ⟨through.1, fun next first => induction (through.2 next first)⟩
  rw [split] at counts
  exact ((counted_initial sync).runEvents (earlier counts) ran).tellsLogSize
    catalog

theorem runEvents_call {asserts : Bool} {op : Op} {world next : World}
    (ran : (World.machine asserts).runAll (world.engine.actions op) world =
      some next) (later : List Event) :
    world.runEvents asserts (.call op :: later) =
      next.runEvents asserts later := by
  rw [World.runEvents, World.runEvent, ran]

theorem runEvents_restart {sync : SyncPolicy} {world next : World}
    (opened : world.reopen sync = some next) (asserts : Bool)
    (later : List Event) :
    world.runEvents asserts (.restart sync :: later) =
      next.runEvents asserts later := by
  rw [World.runEvents, World.runEvent, opened]

/-- A write behind a restart on an empty log. -/
theorem walRecords_exact_restarted :
    ∃ reached, (World.initial .SYNC_EACH).runEvents true
        [.restart .SYNC_EACH, .call (.executeBatch [⟨7, 0, OP_WRITE⟩])] =
          some reached ∧
      CPUMockEngine.TellsLogSize
        { catalog := (Catalog.fresh 0 : Catalog ℚ), points := reached } := by
  have room : (World.initial .SYNC_EACH).engine.HasRoom
      [⟨7, 0, OP_WRITE⟩] := by
    refine ⟨?_, trivial⟩
    rintro ⟨full, _⟩
    cases full
  obtain ⟨reached, ran, _⟩ := run_executeBatch true (by decide) room
  have both : (World.initial .SYNC_EACH).runEvents true
      [.restart .SYNC_EACH, .call (.executeBatch [⟨7, 0, OP_WRITE⟩])] =
        some reached := by
    have reopened : (World.initial .SYNC_EACH).reopen .SYNC_EACH =
        some (World.initial .SYNC_EACH) := rfl
    rw [runEvents_restart reopened, runEvents_call ran, World.runEvents]
  refine ⟨reached, both,
    walRecords_exact ?_ (List.append_nil _).symm both _⟩
  exact ⟨rfl, fun _ _ => ⟨trivial, fun _ _ => trivial⟩⟩

/-- After one write and a clean restart the counter is zero, and a replay reads
one record. -/
theorem walRecords_forgotten :
    ∃ reached, (World.initial .SYNC_EACH).runEvents true
        [.call (.executeBatch [⟨7, 0, OP_WRITE⟩]), .restart .SYNC_EACH] =
          some reached ∧
      CPUMockEngine.walRecords
        { catalog := (Catalog.fresh 0 : Catalog ℚ), points := reached } = 0 ∧
      recordsRead reached.disk.wal = 1 := by
  have room : (World.initial .SYNC_EACH).engine.HasRoom
      [⟨7, 0, OP_WRITE⟩] := by
    refine ⟨?_, trivial⟩
    rintro ⟨full, _⟩
    cases full
  obtain ⟨written, ran, done, _⟩ := run_executeBatch true (by decide) room
  have called : (World.initial .SYNC_EACH).runEvents true
      [.call (.executeBatch [⟨7, 0, OP_WRITE⟩])] = some written := by
    rw [runEvents_call ran, World.runEvents]
  have settled : SettledClean written :=
    run_settledClean (initial_settled .SYNC_EACH ⟨rfl, rfl⟩)
      (by simp [Event.StopsAtCheckpoint]) called
  obtain ⟨reached, opened, _, _⟩ := settled.reopen .SYNC_EACH
  obtain ⟨disk, coldStore⟩ := reopen_log opened
  refine ⟨reached, ?_, ?_, ?_⟩
  · rw [runEvents_call ran, runEvents_restart opened, World.runEvents]
  · unfold CPUMockEngine.walRecords
    rw [coldStore]
  · have alone : (matrixBinByPage [⟨7, 0, OP_WRITE⟩]).1 =
        [⟨7, 0, OP_WRITE⟩] := by
      rw [matrixBinByPage_fst]
      exact List.perm_singleton.mp (grouped_perm (DatabaseQuery.page_lt _))
    have wal : written.disk.wal = encodeAll [.put 7 7] := by
      rw [done.wal, alone]
      rfl
    rw [disk, wal, recordsRead_encodeAll]
    rfl

end MatrixDB
