import MatrixDB.Server.DaemonOrder
import MatrixDB.Engine.Histories

/-!
# What peers have been told survives (`server_tcp.hpp`, `concurrent_server.hpp`)

The process of an accept loop may be killed at any moment, in the middle of a
`PUT` too.  A new engine on the same files has the writes of all calls that had
been decided, in their order, and perhaps the write that was going on.
-/

namespace MatrixDB

open Lib

/-! ## One write -/

/-- A `PUT`, as `serve_core` runs it. -/
def putOps (key value : UInt64) : List Op :=
  [.begin, .txnPut key value, .commit]

/-- A `PUT` that is cut anywhere. -/
def World.CutPut (asserts : Bool) (world : World) (key value : UInt64)
    (after : World) : Prop :=
  ∃ earlier op later middle count extent,
    putOps key value = earlier ++ op :: later ∧
      world.runEvents asserts (earlier.map .call) = some middle ∧
      after = middle.crashIn asserts op count extent

variable {asserts : Bool} {key value : UInt64} {world after : World}

/-- `commit` adds its group to the durable writes, with its marker. -/
theorem durable_commit (asserts : Bool) (engine : PointOps)
    (logged : engine.coldStore.isSome = true)
    (held : List (UInt64 × UInt64)) :
    (World.machine asserts).CrashTriple
      (fun world => durableWrites world.notes = held ∧
        world.engine.txnBuf = engine.txnBuf)
      engine.commitActions
      (fun world => durableWrites world.notes = held ++ engine.txnBuf)
      (fun world => durableWrites world.notes = held ∨
        durableWrites world.notes = held ++ engine.txnBuf) := by
  -- The actions before the marker.
  have before : (World.machine asserts).CrashTriple
      (fun world => durableWrites world.notes = held ∧
        world.engine.txnBuf = engine.txnBuf)
      ([.require engine.inTxn, .note (.issued engine.txnBuf)] ++
        engine.txnBuf.flatMap fun write : UInt64 × UInt64 =>
          [.append (.txnPut write.1 write.2)])
      (fun world => durableWrites world.notes = held ∧
        world.engine.txnBuf = engine.txnBuf)
      (fun world => durableWrites world.notes = held ∧
        world.engine.txnBuf = engine.txnBuf) := by
    apply Machine.CrashTriple.steady
    intro action member world holds
    have kinds : action = .require engine.inTxn ∨
        action = .note (.issued engine.txnBuf) ∨
        ∃ write : UInt64 × UInt64,
          action = .append (.txnPut write.1 write.2) := by
      simp only [List.mem_append, List.mem_cons, List.not_mem_nil, or_false,
        List.mem_flatMap] at member
      rcases member with (rfl | rfl) | ⟨write, _, rfl⟩
      · exact .inl rfl
      · exact .inr (.inl rfl)
      · exact .inr (.inr ⟨write, rfl⟩)
    rcases kinds with rfl | rfl | ⟨write, rfl⟩
    · refine ⟨?_, fun _ => holds⟩
      intro next ran
      simp only [World.machine, World.run] at ran
      split at ran
      · cases ran
      · cases ran
        exact holds
    · refine ⟨?_, fun _ => holds⟩
      intro next ran
      cases ran
      exact holds
    · constructor
      · intro next ran
        cases ran
        simpa [World.appendBytes, World.countRecord] using holds
      · intro extent
        simpa [World.machine, World.cut, World.appendBytes] using holds
  have marker : (World.machine asserts).CrashTriple
      (fun world => durableWrites world.notes = held ∧
        world.engine.txnBuf = engine.txnBuf)
      [.append .commit]
      (fun world => durableWrites world.notes = held ++ engine.txnBuf)
      (fun world => durableWrites world.notes = held ∨
        durableWrites world.notes = held ++ engine.txnBuf) := by
    have done : (World.machine asserts).CrashTriple
        (fun world => durableWrites world.notes = held ++ engine.txnBuf) []
        (fun world => durableWrites world.notes = held ++ engine.txnBuf)
        (fun world => durableWrites world.notes = held ∨
          durableWrites world.notes = held ++ engine.txnBuf) :=
      .nil fun world holds => .inr holds
    refine Machine.CrashTriple.cons ?_ ?_ ?_ done
    · intro world holds
      exact .inl holds.1
    · rintro world extent ⟨durable, buffered⟩
      by_cases whole : WalRecord.commit.encode.length ≤ extent
      · right
        simp [World.machine, World.cut, World.appendBytes, whole,
          durableWrites, durable, buffered]
      · left
        simpa [World.machine, World.cut, World.appendBytes, whole] using durable
    · rintro world next ⟨durable, buffered⟩ ran
      cases ran
      simp [World.appendBytes, durableWrites, durable, buffered]
  have behind : (World.machine asserts).CrashTriple
      (fun world => durableWrites world.notes = held ++ engine.txnBuf)
      (engine.txnBuf.flatMap
          (fun write : UInt64 × UInt64 =>
            [.applyCommittedWrite write.1 write.2]) ++
        [.closeCommitted, .note (.acked engine.txnBuf)])
      (fun world => durableWrites world.notes = held ++ engine.txnBuf)
      (fun world => durableWrites world.notes = held ++ engine.txnBuf) := by
    apply Machine.CrashTriple.steady
    intro action member world holds
    have kinds : (∃ write : UInt64 × UInt64,
          action = .applyCommittedWrite write.1 write.2) ∨
        action = .closeCommitted ∨ action = .note (.acked engine.txnBuf) := by
      simp only [List.mem_append, List.mem_cons, List.not_mem_nil, or_false,
        List.mem_flatMap] at member
      rcases member with ⟨write, _, rfl⟩ | rfl | rfl
      · exact .inl ⟨write, rfl⟩
      · exact .inr (.inl rfl)
      · exact .inr (.inr rfl)
    rcases kinds with ⟨write, rfl⟩ | rfl | rfl
    · refine ⟨?_, fun _ => holds⟩
      intro next ran
      obtain ⟨_, _, rfl⟩ := Option.map_eq_some_iff.mp ran
      exact holds
    · refine ⟨?_, fun _ => holds⟩
      intro next ran
      cases ran
      exact holds
    · refine ⟨?_, fun _ => holds⟩
      intro next ran
      cases ran
      exact holds
  unfold PointOps.commitActions
  rw [if_pos logged]
  have first := (before.weaken (fun _ holds => holds) (fun _ holds => holds)
    fun _ holds => .inl holds.1).append marker
  have all := first.append (behind.weaken (fun _ holds => holds)
    (fun _ holds => holds) fun _ holds => .inr holds)
  simpa only [List.append_assoc] using all

/-- The group of a `PUT` is its write. -/
theorem runEvents_beginPut
    (ran : world.runEvents asserts
      [.call .begin, .call (.txnPut key value)] = some after) :
    after.engine.txnBuf = [(key, value)] ∧ after.notes = world.notes ∧
      after.engine.coldStore = world.engine.coldStore := by
  cases opened : world.engine.inTxn <;> cases asserts <;>
    simp [World.runEvents, World.runEvent, PointOps.actions, opened,
      Machine.runAll, World.machine, World.run] at ran <;>
    subst ran <;> exact ⟨rfl, rfl, rfl⟩

theorem runEvents_begin
    (ran : world.runEvents asserts [.call .begin] = some after) :
    after.notes = world.notes := by
  cases opened : world.engine.inTxn <;> cases asserts <;>
    simp [World.runEvents, World.runEvent, PointOps.actions, opened,
      Machine.runAll, World.machine, World.run] at ran <;>
    subst ran <;> rfl

/-- Neither `begin` nor `txn_put` says anything about durable writes. -/
theorem notes_crashIn {op : Op}
    (quiet : op = .begin ∨ ∃ key value, op = .txnPut key value) (count extent : Nat) :
    (world.crashIn asserts op count extent).notes = world.notes := by
  have steady : (World.machine asserts).CrashTriple
      (fun next => next.notes = world.notes) (world.engine.actions op)
      (fun next => next.notes = world.notes)
      (fun next => next.notes = world.notes) := by
    apply Machine.CrashTriple.steady
    intro action member next holds
    have isLocal : action.IsLocal := by
      rcases quiet with rfl | ⟨key, value, rfl⟩ <;>
        simp only [PointOps.actions, List.mem_cons, List.not_mem_nil,
          or_false] at member <;>
        rcases member with rfl | rfl <;> trivial
    refine ⟨fun final ran => (isLocal.run ran).2.1.trans holds, ?_⟩
    intro extent
    rw [isLocal.cut]
    exact holds
  exact (steady world rfl).2 count extent

theorem SettledClean.logged (settled : SettledClean world) :
    world.engine.coldStore.isSome = true := by
  obtain ⟨_, _, _, _, settled⟩ := settled
  exact settled.logged

theorem SettledClean.call {op : Op} (settled : SettledClean world)
    (ran : world.runEvent asserts (.call op) = some after) :
    SettledClean after :=
  (call_settled ⟨rfl, rfl⟩ settled op (settled.careful op)).1 after ran

theorem runEvents_append (earlier later : List Event) (world : World) :
    world.runEvents asserts (earlier ++ later) =
      (world.runEvents asserts earlier).bind
        fun next => next.runEvents asserts later := by
  induction earlier generalizing world with
  | nil => rfl
  | cons event earlier induction =>
      rw [List.cons_append, World.runEvents, World.runEvents]
      cases world.runEvent asserts event with
      | none => rfl
      | some next => exact induction next

theorem SettledClean.calls {ops : List Op} (settled : SettledClean world)
    (ran : world.runEvents asserts (ops.map .call) = some after) :
    SettledClean after := by
  induction ops generalizing world with
  | nil =>
      cases ran
      exact settled
  | cons op later induction =>
      rw [List.map_cons, World.runEvents] at ran
      cases first : world.runEvent asserts (.call op) with
      | none =>
          rw [first] at ran
          cases ran
      | some next =>
          rw [first] at ran
          exact induction (settled.call first) ran

/-- A `PUT` that returns. -/
theorem SettledClean.put (settled : SettledClean world)
    (ran : world.runEvents asserts ((putOps key value).map .call) =
      some after) :
    SettledClean after ∧
      durableWrites after.notes =
        durableWrites world.notes ++ [(key, value)] := by
  refine ⟨settled.calls ran, ?_⟩
  have whole : (putOps key value).map Event.call =
      [.call .begin, .call (.txnPut key value)] ++ [.call .commit] := rfl
  rw [whole, runEvents_append] at ran
  obtain ⟨middle, begun, last⟩ := Option.bind_eq_some_iff.mp ran
  have committed : (World.machine asserts).runAll middle.engine.commitActions
      middle = some after := by
    rw [World.runEvents] at last
    cases finished : middle.runEvent asserts (.call .commit) with
    | none =>
        rw [finished] at last
        cases last
    | some final =>
        rw [finished] at last
        cases last
        exact finished
  obtain ⟨buffered, notes, logged⟩ := runEvents_beginPut begun
  have open_ : middle.engine.coldStore.isSome = true := by
    rw [logged]
    exact settled.logged
  have durable := (durable_commit asserts middle.engine open_
    (durableWrites world.notes) middle ⟨by rw [notes], rfl⟩).1 after committed
  rw [durable, buffered]

/-- A `PUT` that is cut: the write is durable or not. -/
theorem SettledClean.cutPut (settled : SettledClean world)
    (cut : world.CutPut asserts key value after) :
    CrashSafe after ∧
      (durableWrites after.notes = durableWrites world.notes ∨
        durableWrites after.notes =
          durableWrites world.notes ++ [(key, value)]) := by
  obtain ⟨earlier, op, later, middle, count, extent, split, ran, rfl⟩ := cut
  have clean := settled.calls ran
  refine ⟨(call_settled ⟨rfl, rfl⟩ clean op (clean.careful op)).2 count extent,
    ?_⟩
  have place : earlier = [] ∧ op = .begin ∨
      earlier = [.begin] ∧ op = .txnPut key value ∨
      earlier = [.begin, .txnPut key value] ∧ op = .commit := by
    rcases earlier with _ | ⟨first, _ | ⟨second, _ | ⟨third, more⟩⟩⟩ <;>
      simp_all [putOps]
  rcases place with ⟨rfl, rfl⟩ | ⟨rfl, rfl⟩ | ⟨rfl, rfl⟩
  · cases ran
    left
    rw [notes_crashIn (.inl rfl)]
  · left
    rw [notes_crashIn (.inr ⟨key, value, rfl⟩), runEvents_begin ran]
  · obtain ⟨buffered, notes, logged⟩ := runEvents_beginPut ran
    have open_ : middle.engine.coldStore.isSome = true := by
      rw [logged]
      exact settled.logged
    have durable := (durable_commit asserts middle.engine open_
      (durableWrites world.notes) middle ⟨by rw [notes], rfl⟩).2 count extent
    rw [buffered] at durable
    exact durable

/-! ## What a world holds and recovers -/

/-- What the durable writes leave. -/
def World.recovers (world : World) : KVStore MATRIX_STORE_SLOTS :=
  kvOps.replay KVStore.fresh (durableWrites world.notes)

theorem SettledClean.recovers (settled : SettledClean world) :
    kvOps.SameMap world.recovers world.engine.kv := by
  obtain ⟨kv, _, _, _, settled⟩ := settled
  exact settled.explained.durable.trans kvOps settled.live

theorem CrashSafe.recovers (safe : CrashSafe world) (sync : SyncPolicy) :
    ∃ next, world.reopen sync = some next ∧
      ∀ key, next.engine.kv.get key = world.recovers.get key := by
  obtain ⟨kv, leftover, torn, image, explained⟩ := safe
  obtain ⟨next, opened, recovered, _⟩ := Settled.reopen image explained sync
  refine ⟨next, opened, ?_⟩
  intro key
  rw [recovered]
  exact (explained.durable key).symm

/-- More durable writes. -/
theorem recovers_append {writes : List (UInt64 × UInt64)}
    (settled : SettledClean world)
    (notes : durableWrites after.notes = durableWrites world.notes ++ writes) :
    kvOps.SameMap after.recovers (kvOps.replay world.engine.kv writes) := by
  rw [World.recovers, notes, kvOps.replay_append]
  exact kvOps.replay_sameMap settled.recovers writes

/-! ## Requests -/

/-- The write that a call asks for, if its principal may write. -/
def AccessPolicy.writeOf (policy : AccessPolicy) (call : Call) :
    Option (UInt64 × UInt64) :=
  if policy.canWrite call.principal then putOf call.bytes else .none

section
variable {ι κ : Type} [SoundCost κ] {policy : AccessPolicy}
  {engine next : CPUMockEngine κ}

/-- What a request does to the store and its files. -/
theorem matrixServe_points {call : Call} {ns : UInt64} {response : Bytes}
    (served : engine.matrixServe asserts policy call.principal call.bytes ns =
      some (response, next)) :
    (policy.writeOf call = none → next.points = engine.points) ∧
    ∀ key value, policy.writeOf call = some (key, value) →
      engine.points.runEvents asserts ((putOps key value).map .call) =
        some next.points := by
  unfold CPUMockEngine.matrixServe CPUMockEngine.serveCore at served
  unfold AccessPolicy.writeOf putOf
  cases read : matrixDeserializeRequest call.bytes with
  | none =>
      simp only [read, Option.map_some, Option.some.injEq,
        Prod.mk.injEq] at served
      simp [served.2]
  | some req =>
      simp only [read] at served
      by_cases authorized : policy.authorizes call.principal req = true
      · rw [if_pos authorized] at served
        cases kind : req.kind with
        | PUT =>
            have writes : policy.canWrite call.principal = true := by
              simpa [AccessPolicy.authorizes, kind] using authorized
            simp only [CPUMockEngine.dispatch, kind, Option.map_map,
              Option.map_eq_some_iff] at served
            obtain ⟨points, ran, same⟩ := served
            cases same
            simp only [writes, if_true, Option.bind_some, kind]
            refine ⟨fun nothing => absurd nothing (Option.some_ne_none _), ?_⟩
            intro key value same
            cases same
            exact ran
        | QUERY =>
            simp only [CPUMockEngine.dispatch, kind, Option.map_map,
              Option.map_eq_some_iff] at served
            obtain ⟨answer, _, same⟩ := served
            cases same
            simp [kind]
        | GET | HEALTH | STATS =>
            simp only [CPUMockEngine.dispatch, kind, Option.map_some,
              Option.some.injEq, Prod.mk.injEq] at served
            simp [kind, served.2]
      · rw [if_neg authorized] at served
        simp only [Option.map_some, Option.some.injEq, Prod.mk.injEq] at served
        by_cases put : req.kind = .PUT
        · have refused : policy.canWrite call.principal = false := by
            simpa [AccessPolicy.authorizes, put] using authorized
          simp [refused, served.2]
        · simp [put, served.2]

/-- A request for counters writes nothing. -/
theorem writeOf_uncovered {call : Call} (counters : ¬call.Covered) :
    policy.writeOf call = none := by
  unfold Call.Covered at counters
  push Not at counters
  obtain ⟨req, decoded, _, _, put⟩ := counters
  simp [AccessPolicy.writeOf, putOf, decoded, put]

/-- The writes of an order. -/
def DaemonConfig.writes (config : DaemonConfig)
    (order : List (Incoming ι × Bytes)) : List (UInt64 × UInt64) :=
  order.filterMap fun said => config.policy.writeOf said.1.call

theorem Serves.durable {config : DaemonConfig} {clock : Incoming ι → UInt64}
    {order : List (Incoming ι × Bytes)} {final : CPUMockEngine κ}
    (serves : Serves (config.Responds clock) engine order final)
    (settled : SettledClean engine.points) :
    SettledClean final.points ∧
      durableWrites final.points.notes =
        durableWrites engine.points.notes ++ config.writes order := by
  induction serves with
  | done => exact ⟨settled, (List.append_nil _).symm⟩
  | @call last next calls id response before responds induction =>
      obtain ⟨clean, notes⟩ := induction
      rw [DaemonConfig.writes, List.filterMap_append, ← DaemonConfig.writes,
        ← List.append_assoc, ← notes]
      by_cases covered : id.call.Covered
      · have points := matrixServe_points (responds.1 covered)
        cases writes : config.policy.writeOf id.call with
        | none =>
            rw [points.1 writes]
            simpa [writes] using clean
        | some write =>
            obtain ⟨key, value⟩ := write
            obtain ⟨after, more⟩ := clean.put (points.2 key value writes)
            refine ⟨after, ?_⟩
            rw [more]
            simp [writes]
      · cases responds.2 covered
        simpa [writeOf_uncovered covered] using clean

end

/-! ## A kill -/

section
variable {ι κ : Type} [DecidableEq ι] [SoundCost κ] {config : DaemonConfig}
  {daemon : Daemon ι κ}

/-- The files when the process is killed.  While a call has the engine for
itself, they are those it has found and what its `PUT` has done to them. -/
inductive Daemon.Killed (config : DaemonConfig) (daemon : Daemon ι κ) :
    World → Prop where
  | between
      (free : ∀ id entry left, daemon.lock.phase id ≠ .writing entry left) :
      Daemon.Killed config daemon daemon.lock.state.points
  | asking {id : Incoming ι} {entry left : CPUMockEngine κ}
      (alone : daemon.lock.phase id = .writing entry left)
      (asks : config.policy.writeOf id.call = none) :
      Daemon.Killed config daemon entry.points
  | writing {id : Incoming ι} {entry left : CPUMockEngine κ}
      {key value : UInt64} {world : World}
      (alone : daemon.lock.phase id = .writing entry left)
      (writes : config.policy.writeOf id.call = some (key, value))
      (cut : entry.points.CutPut config.asserts key value world) :
      Daemon.Killed config daemon world

/-- Nothing, or the write of the call that has the engine for itself. -/
def Daemon.InFlight (config : DaemonConfig) (daemon : Daemon ι κ)
    (writes : List (UInt64 × UInt64)) : Prop :=
  writes = [] ∨ ∃ id entry left write,
    daemon.lock.phase id = .writing entry left ∧
      config.policy.writeOf id.call = some write ∧ writes = [write]

omit [DecidableEq ι] [SoundCost κ] in
/-- The files of a killed process, next to the calls in their order. -/
theorem Daemon.Killed.recovers {final : CPUMockEngine κ} {world : World}
    (killed : daemon.Killed config world)
    (synced : Synced SameData daemon.lock final)
    (settled : SettledClean final.points) :
    CrashSafe world ∧ ∃ inFlight, daemon.InFlight config inFlight ∧
      durableWrites world.notes =
        durableWrites final.points.notes ++ inFlight := by
  cases killed with
  | between free =>
      rw [← (synced.quiet free).points]
      exact ⟨settled.crashSafe, [], .inl rfl, (List.append_nil _).symm⟩
  | asking alone =>
      rw [← (synced.writing _ _ _ alone).2.points]
      exact ⟨settled.crashSafe, [], .inl rfl, (List.append_nil _).symm⟩
  | @writing id entry left key value world alone writes cut =>
      rw [← (synced.writing _ _ _ alone).2.points] at cut
      obtain ⟨safe, durable | durable⟩ := settled.cutPut cut
      · exact ⟨safe, [], .inl rfl, durable.trans (List.append_nil _).symm⟩
      · exact ⟨safe, [(key, value)],
          .inr ⟨id, entry, left, (key, value), alone, writes, rfl⟩, durable⟩

/-- Kill the process at any moment of any run that began on a log without a
torn tail or an open group, and open the files again: the store is what the
calls that were decided, in their one order, have made of it, perhaps with the
write that was going on.  Every response that a peer was sent belongs to one of
these calls. -/
theorem DaemonRun.acknowledged_survive {engine : CPUMockEngine κ}
    (wellFormed : engine.catalog.WellFormed)
    (settled : SettledClean engine.points) {streams : ι → Bytes}
    {trace : List (DaemonEvent ι)}
    (run : DaemonRun config (Daemon.start engine streams) trace daemon)
    {world : World} (killed : daemon.Killed config world) (sync : SyncPolicy)
    (clock : Incoming ι → UInt64) :
    ∃ order final,
      daemon.InOneOrder config clock engine streams trace order final ∧
      ∃ inFlight reopened, daemon.InFlight config inFlight ∧
        world.reopen sync = some reopened ∧
        ∀ key, reopened.engine.kv.get key =
          (kvOps.replay engine.points.engine.kv
            (config.writes order ++ inFlight)).get key := by
  obtain ⟨order, final, ordered⟩ := run.inOneOrder wellFormed clock
  obtain ⟨clean, notes⟩ := Serves.durable ordered.serves settled
  obtain ⟨safe, inFlight, flight, durable⟩ :=
    killed.recovers ordered.data clean
  obtain ⟨reopened, opened, held⟩ := safe.recovers sync
  refine ⟨order, final, ordered, inFlight, reopened, flight, opened, ?_⟩
  intro key
  rw [notes, List.append_assoc] at durable
  rw [held]
  exact recovers_append settled durable key

/-- Killed while the log has a part of the record of the write. -/
theorem acknowledged_survive_cut :
    ∃ trace daemon world reopened,
      DaemonRun oneToken (Daemon.start emptyShop twoPeers) trace daemon ∧
      daemon.Killed oneToken world ∧ 0 < world.disk.wal.length ∧
      world.reopen .SYNC_EACH = some reopened ∧
      ∃ order final inFlight, daemon.InOneOrder oneToken (fun _ => 0) emptyShop
          twoPeers trace order final ∧
        ∀ key, reopened.engine.kv.get key =
          (kvOps.replay KVStore.fresh
            (oneToken.writes order ++ inFlight)).get key := by
  obtain ⟨trace, daemon, run, _, alone, _⟩ := twoPeers_alone
  have settled : SettledClean emptyShop.points :=
    initial_settled .SYNC_OFF ⟨rfl, rfl⟩
  have writes : oneToken.policy.writeOf tokenWrite.call = some (5, 50) := by
    simp [oneToken, tokenWrite, AccessPolicy.writeOf, AccessPolicy.canWrite,
      AccessPolicy.permissive, putOf, writeThenRead, deserialize_serialize]
  have begun : ((emptyShop.points.runEvents true
      [.call .begin, .call (.txnPut 5 50)]).map fun middle =>
        (middle.crashIn true .commit 2 10).disk.wal.length) = some 10 := by
    decide +kernel
  obtain ⟨middle, ran, size⟩ := Option.map_eq_some_iff.mp begun
  have cut : emptyShop.points.CutPut true 5 50
      (middle.crashIn true .commit 2 10) :=
    ⟨[.begin, .txnPut 5 50], .commit, [], middle, 2, 10, rfl, ran, rfl⟩
  have killed : daemon.Killed oneToken (middle.crashIn true .commit 2 10) :=
    .writing alone writes cut
  obtain ⟨order, final, ordered, inFlight, reopened, _, opened, held⟩ :=
    run.acknowledged_survive (Catalog.wellFormed_fresh 1024) settled killed
      .SYNC_EACH fun _ => 0
  refine ⟨trace, daemon, _, reopened, run, killed, ?_, opened, order, final,
    inFlight, ordered, held⟩
  rw [size]
  decide

end

end MatrixDB
