import MatrixDB.Server.Linearization
import MatrixDB.Catalog.Live

/-!
# Sequences of requests

Two requests stop a server whose assertions are compiled in: a `PUT` that finds
a transaction open or brings a new key to a full store, and a scalar query of a
column whose mask is too short.  Every other request is answered, and a `GET`
returns what was acknowledged last.
-/

namespace MatrixDB

open Lib

/-! ## One write -/

/-- A transaction of one write, as `serve_core` runs it. -/
theorem World.runEvents_put (world : World) (key value : UInt64) :
    (world.runEvents true
        [.call .begin, .call (.txnPut key value), .call .commit]).map
      (fun after => (after.engine.kv, after.engine.inTxn)) =
      if world.engine.inTxn = true ∨
          world.engine.kv.Full ∧ world.engine.kv.get key = none then none
      else some ((world.engine.kv.put key value).2, false) := by
  cases opened : world.engine.inTxn with
  | true =>
      simp [World.runEvents, World.runEvent, PointOps.actions, opened,
        Machine.runAll, World.machine, World.run]
  | false =>
      by_cases full : world.engine.kv.Full ∧ world.engine.kv.get key = none
      · cases logged : world.engine.coldStore <;>
          simp [World.runEvents, World.runEvent, PointOps.actions, opened,
            PointOps.commitActions, logged, Machine.runAll, World.machine,
            World.run, World.appendBytes, World.countRecord,
            PointOps.applyCommittedWrite_asserted, full]
      · cases logged : world.engine.coldStore <;>
          simp [World.runEvents, World.runEvent, PointOps.actions, opened,
            PointOps.commitActions, logged, Machine.runAll, World.machine,
            World.run, World.appendBytes, World.countRecord,
            PointOps.applyCommittedWrite_asserted, full]

/-! ## One request -/

/-- The write a request asks for. -/
def putOf (bytes : Bytes) : Option (UInt64 × UInt64) :=
  (matrixDeserializeRequest bytes).bind fun req =>
    if req.kind = .PUT then some (req.key, req.value) else none

/-- The key a request asks for. -/
def getOf (bytes : Bytes) : Option UInt64 :=
  (matrixDeserializeRequest bytes).bind fun req =>
    if req.kind = .GET then some req.key else none

variable {κ : Type}

namespace CPUMockEngine

/-- A `PUT` that runs into an assertion. -/
def PutAborts (engine : CPUMockEngine κ) (bytes : Bytes) : Prop :=
  ∃ key value, putOf bytes = some (key, value) ∧
    (engine.points.engine.inTxn = true ∨
      engine.points.engine.kv.Full ∧ engine.kvGet key = none)

/-- A query that reads past the end of a mask. -/
def QueryReadsPastMask (engine : CPUMockEngine κ) (bytes : Bytes) : Prop :=
  ∃ req, matrixDeserializeRequest bytes = some req ∧ req.kind = .QUERY ∧
    engine.catalog.ReadsPastMask req.query

end CPUMockEngine

section
variable [SoundCost κ] {engine after : CPUMockEngine κ} {principal ns : UInt64}
  {bytes response : Bytes}

/-- Nothing is forbidden. -/
theorem matrixServe_permissive (asserts : Bool) :
    engine.matrixServe asserts .permissive principal bytes ns =
      match matrixDeserializeRequest bytes with
      | none =>
          some (matrixSerializeResponse
            { status := ServerStatus.ERR_BADREQUEST.code, results := [] },
            engine)
      | some req => (engine.dispatch asserts req ns).map fun answer =>
          (matrixSerializeResponse answer.1, answer.2) := by
  unfold CPUMockEngine.matrixServe CPUMockEngine.serveCore
  cases read : matrixDeserializeRequest bytes with
  | none => rfl
  | some req =>
      have allowed : AccessPolicy.permissive.authorizes principal req := by
        cases kind : req.kind <;>
          simp [AccessPolicy.authorizes, AccessPolicy.authorizesQuery,
            AccessPolicy.canRead, AccessPolicy.canWrite,
            AccessPolicy.canQuery, AccessPolicy.permissive, kind]
      simp only [allowed, if_true, Option.map_map]
      rfl

theorem isSome_matrixServe_iff (wellFormed : engine.catalog.WellFormed) :
    (engine.matrixServe true .permissive principal bytes ns).isSome ↔
      ¬ engine.PutAborts bytes ∧ ¬ engine.QueryReadsPastMask bytes := by
  rw [matrixServe_permissive]
  unfold CPUMockEngine.PutAborts CPUMockEngine.QueryReadsPastMask putOf
  cases read : matrixDeserializeRequest bytes with
  | none => simp
  | some req =>
      rw [Option.isSome_map]
      unfold CPUMockEngine.dispatch
      cases kind : req.kind with
      | GET => simp [kind]
      | HEALTH => simp [kind]
      | STATS => simp [kind]
      | QUERY =>
          obtain ⟨last, _, answered⟩ :=
            Catalog.executeQuery_eq wellFormed ns req.query
          have returns := Catalog.answer_returns_iff wellFormed req.query
          simp [kind, answered, returns]
      | PUT =>
          have stored := engine.points.runEvents_put req.key req.value
          have same := congrArg Option.isSome stored
          rw [Option.isSome_map] at same
          simp only [Option.isSome_map, same]
          split <;> simp_all [CPUMockEngine.kvGet]

/-- What a request that returns has done to the engine. -/
theorem matrixServe_effect (wellFormed : engine.catalog.WellFormed)
    (served : engine.matrixServe true .permissive principal bytes ns =
      some (response, after)) :
    after.catalog.WellFormed ∧
      match putOf bytes with
      | none => after.points = engine.points
      | some (key, value) =>
          response = matrixSerializeResponse
            { status := ServerStatus.OK.code, results := [] } ∧
          after.points.engine.kv =
            (engine.points.engine.kv.put key value).2 ∧
          after.points.engine.inTxn = false ∧
          ¬(engine.points.engine.kv.Full ∧ engine.kvGet key = none) := by
  rw [matrixServe_permissive] at served
  unfold putOf
  cases read : matrixDeserializeRequest bytes with
  | none =>
      simp only [read] at served
      cases served
      exact ⟨wellFormed, rfl⟩
  | some req =>
      simp only [read] at served
      obtain ⟨⟨resp, next⟩, dispatched, same⟩ :=
        Option.map_eq_some_iff.mp served
      cases same
      unfold CPUMockEngine.dispatch at dispatched
      cases kind : req.kind with
      | GET =>
          simp only [kind] at dispatched
          cases dispatched
          exact ⟨wellFormed, by simp [kind]⟩
      | HEALTH =>
          simp only [kind] at dispatched
          cases dispatched
          exact ⟨wellFormed, by simp [kind]⟩
      | STATS =>
          simp only [kind] at dispatched
          cases dispatched
          exact ⟨wellFormed, by simp [kind]⟩
      | QUERY =>
          simp only [kind] at dispatched
          obtain ⟨last, keeps, answered⟩ :=
            Catalog.executeQuery_eq wellFormed ns req.query
          rw [answered, Option.map_map] at dispatched
          obtain ⟨answer, _, same⟩ := Option.map_eq_some_iff.mp dispatched
          cases same
          exact ⟨keeps.wellFormed, by simp [kind]⟩
      | PUT =>
          simp only [kind] at dispatched
          obtain ⟨points, ran, same⟩ := Option.map_eq_some_iff.mp dispatched
          cases same
          have stored := engine.points.runEvents_put req.key req.value
          rw [ran, Option.map_some] at stored
          refine ⟨wellFormed, ?_⟩
          rw [Option.bind_some, if_pos kind]
          split at stored
          · cases stored
          · rename_i room
            obtain ⟨kv, idle⟩ := Prod.mk.inj (Option.some.inj stored)
            exact ⟨rfl, kv, idle, fun full => room (.inr full)⟩

/-- A `GET` returns the value of its key, if it has one. -/
theorem matrixServe_get {key : UInt64} (asked : getOf bytes = some key)
    (served : engine.matrixServe true .permissive principal bytes ns =
      some (response, after)) :
    response = matrixSerializeResponse
      { status := ServerStatus.OK.code
        results := (engine.kvGet key).toList } := by
  obtain ⟨req, read, same⟩ := Option.bind_eq_some_iff.mp asked
  split at same
  · rename_i kind
    cases same
    rw [matrixServe_permissive, read] at served
    simp only [CPUMockEngine.dispatch, kind, Option.map_some,
      Option.some.injEq, Prod.mk.injEq] at served
    exact served.1.symm
  · cases same

/-! ## A sequence of requests -/

variable {ι : Type} {calls : ι → Call} {clock : ι → UInt64}

/-- A run can be cut at any of its responses. -/
theorem serveInTurn_split {asserts : Bool} {policy : AccessPolicy}
    {before later : List (ι × Bytes)} {i : ι} {order : List ι}
    (ran : engine.serveInTurn asserts policy calls clock order =
      some (before ++ (i, response) :: later, after)) :
    ∃ rest middle next, order = before.map Prod.fst ++ i :: rest ∧
      engine.serveInTurn asserts policy calls clock (before.map Prod.fst) =
        some (before, middle) ∧
      middle.matrixServe asserts policy (calls i).principal (calls i).bytes
        (clock i) = some (response, next) ∧
      next.serveInTurn asserts policy calls clock rest =
        some (later, after) := by
  induction before generalizing engine order with
  | nil =>
      cases order with
      | nil => cases ran
      | cons first rest =>
          obtain ⟨⟨reply, next⟩, served, ran⟩ :=
            Option.bind_eq_some_iff.mp ran
          obtain ⟨⟨others, final⟩, others_served, same⟩ :=
            Option.bind_eq_some_iff.mp ran
          cases same
          exact ⟨rest, engine, next, rfl, rfl, served, others_served⟩
  | cons exchange before induction =>
      cases order with
      | nil => cases ran
      | cons first rest =>
          obtain ⟨⟨reply, next⟩, served, ran⟩ :=
            Option.bind_eq_some_iff.mp ran
          obtain ⟨⟨others, final⟩, others_served, same⟩ :=
            Option.bind_eq_some_iff.mp ran
          cases same
          obtain ⟨tail, middle, second, split, upTo, reached, behind⟩ :=
            induction others_served
          refine ⟨tail, middle, second, ?_, ?_, reached, behind⟩
          · rw [split]
            rfl
          · simp [CPUMockEngine.serveInTurn, served, upTo]

/-- What every request that is answered keeps, a run keeps. -/
theorem serveInTurn_preserves {asserts : Bool} {policy : AccessPolicy}
    {order : List ι} {served : List (ι × Bytes)}
    (inv : CPUMockEngine κ → Prop) (holds : inv engine)
    (keeps : ∀ before after principal bytes ns response, inv before →
      before.matrixServe asserts policy principal bytes ns =
        some (response, after) → inv after)
    (ran : engine.serveInTurn asserts policy calls clock order =
      some (served, after)) : inv after := by
  induction order generalizing engine served with
  | nil =>
      cases ran
      exact holds
  | cons i order induction =>
      obtain ⟨⟨reply, next⟩, first, ran⟩ := Option.bind_eq_some_iff.mp ran
      obtain ⟨⟨others, final⟩, rest, same⟩ := Option.bind_eq_some_iff.mp ran
      cases same
      exact induction (keeps _ _ _ _ _ _ holds first) rest

/-- A run is answered to its end if every request it comes to is answered. -/
theorem isSome_serveInTurn {asserts : Bool} {policy : AccessPolicy}
    {order : List ι}
    (answers : ∀ before i later served middle, order = before ++ i :: later →
      engine.serveInTurn asserts policy calls clock before =
        some (served, middle) →
      (middle.matrixServe asserts policy (calls i).principal (calls i).bytes
        (clock i)).isSome) :
    (engine.serveInTurn asserts policy calls clock order).isSome := by
  induction order generalizing engine with
  | nil => rfl
  | cons i order induction =>
      have answered := answers [] i order [] engine rfl rfl
      obtain ⟨⟨reply, next⟩, served⟩ := Option.isSome_iff_exists.mp answered
      have rest : (next.serveInTurn asserts policy calls clock
          order).isSome := by
        apply induction
        intro before j later exchanges middle split ran
        apply answers (i :: before) j later ((i, reply) :: exchanges) middle
        · rw [split]
          rfl
        · simp [CPUMockEngine.serveInTurn, served, ran]
      obtain ⟨⟨others, final⟩, ran⟩ := Option.isSome_iff_exists.mp rest
      simp [CPUMockEngine.serveInTurn, served, ran]

/-- The catalog stays well formed throughout. -/
theorem wellFormed_serveInTurn {order : List ι} {served : List (ι × Bytes)}
    (wellFormed : engine.catalog.WellFormed)
    (ran : engine.serveInTurn true .permissive calls clock order =
      some (served, after)) :
    after.catalog.WellFormed :=
  serveInTurn_preserves (fun engine => engine.catalog.WellFormed)
    wellFormed (fun _ _ _ _ _ _ formed served =>
      (matrixServe_effect formed served).1) ran

/-- No run gets past a request that stops the server. -/
theorem serveInTurn_stops {before later : List ι} {i : ι}
    {served : List (ι × Bytes)} {middle : CPUMockEngine κ}
    (ran : engine.serveInTurn true .permissive calls clock before =
      some (served, middle))
    (stops : middle.matrixServe true .permissive (calls i).principal
      (calls i).bytes (clock i) = none) :
    engine.serveInTurn true .permissive calls clock (before ++ i :: later) =
      none := by
  induction before generalizing engine served with
  | nil =>
      cases ran
      simp [CPUMockEngine.serveInTurn, stops]
  | cons j before induction =>
      obtain ⟨⟨reply, next⟩, first, ran⟩ := Option.bind_eq_some_iff.mp ran
      obtain ⟨⟨others, final⟩, rest, same⟩ := Option.bind_eq_some_iff.mp ran
      cases same
      simp [CPUMockEngine.serveInTurn, first, induction rest]

/-- A request for a write and the response that acknowledges it. -/
def Acknowledges (bytes response : Bytes) (key value : UInt64) : Prop :=
  putOf bytes = some (key, value) ∧
    ∃ resp, response = matrixSerializeResponse resp ∧
      resp.status = ServerStatus.OK.code

/-- A value stays until a write of its key is acknowledged. -/
theorem kvGet_serveInTurn {order : List ι} {served : List (ι × Bytes)}
    {key : UInt64} (wellFormed : engine.catalog.WellFormed)
    (ran : engine.serveInTurn true .permissive calls clock order =
      some (served, after))
    (unwritten : ∀ exchange ∈ served, ∀ value,
      ¬ Acknowledges (calls exchange.1).bytes exchange.2 key value) :
    after.kvGet key = engine.kvGet key := by
  induction order generalizing engine served with
  | nil =>
      cases ran
      rfl
  | cons i order induction =>
      obtain ⟨⟨reply, next⟩, first, ran⟩ := Option.bind_eq_some_iff.mp ran
      obtain ⟨⟨others, final⟩, rest, same⟩ := Option.bind_eq_some_iff.mp ran
      cases same
      obtain ⟨kept, effect⟩ := matrixServe_effect wellFormed first
      have later := induction kept rest fun exchange member =>
        unwritten exchange (List.mem_cons_of_mem _ member)
      rw [later]
      cases asks : putOf (calls i).bytes with
      | none =>
          simp only [asks] at effect
          unfold CPUMockEngine.kvGet
          rw [effect]
      | some write =>
          obtain ⟨written, value⟩ := write
          simp only [asks] at effect
          obtain ⟨acknowledged, stored, _, _⟩ := effect
          have different : key ≠ written := by
            intro same
            subst same
            exact unwritten (i, reply) List.mem_cons_self value
              ⟨asks, _, acknowledged, rfl⟩
          unfold CPUMockEngine.kvGet
          rw [stored]
          exact KVStore.get_put_ne _ value different

end

/-- An engine whose catalog a CPU build can reach. -/
def CPUMockEngine.Live [CostArith κ] (strtod : Bytes → StrtodResult)
    (engine : CPUMockEngine κ) : Prop :=
  ∃ analytics : Analytics κ, analytics.Live strtod ∧
    engine.catalog = analytics.catalog

section
variable [SoundCost κ] {ι : Type} {calls : ι → Call} {clock : ι → UInt64}
  {strtod : Bytes → StrtodResult} {engine : CPUMockEngine κ}

/-- A run over any requests is answered to its end if no `PUT` in it runs into
an assertion and no query reads past a mask.  A `PUT` that runs into an
assertion is not acknowledged.  After the acknowledgement of a write, every
`GET` of its key returns what it wrote until the next acknowledgement. -/
theorem acknowledged_writes_kept (live : engine.Live strtod)
    (order : List ι) :
    ((∀ before i later served middle, order = before ++ i :: later →
        engine.serveInTurn true .permissive calls clock before =
          some (served, middle) →
        ¬ middle.PutAborts (calls i).bytes ∧
          ¬ middle.QueryReadsPastMask (calls i).bytes) →
      (engine.serveInTurn true .permissive calls clock order).isSome) ∧
    (∀ before i later served middle, order = before ++ i :: later →
      engine.serveInTurn true .permissive calls clock before =
        some (served, middle) →
      middle.PutAborts (calls i).bytes →
      engine.serveInTurn true .permissive calls clock order = none) ∧
    ∀ served final, engine.serveInTurn true .permissive calls clock order =
        some (served, final) →
      ∀ before i ack between j reply later key value,
        served = before ++ (i, ack) :: between ++ (j, reply) :: later →
        Acknowledges (calls i).bytes ack key value →
        (∀ exchange ∈ between, ∀ other,
          ¬ Acknowledges (calls exchange.1).bytes exchange.2 key other) →
        getOf (calls j).bytes = some key →
        reply = matrixSerializeResponse
          { status := ServerStatus.OK.code, results := [value] } := by
  obtain ⟨analytics, reached, same⟩ := live
  have wellFormed : engine.catalog.WellFormed := by
    rw [same]
    exact reached.settled.wellFormed
  refine ⟨?_, ?_, ?_⟩
  · intro safe
    apply isSome_serveInTurn
    intro before i later served middle split ran
    have formed := wellFormed_serveInTurn wellFormed ran
    exact (isSome_matrixServe_iff formed).mpr
      (safe before i later served middle split ran)
  · intro before i later served middle split ran aborts
    rw [split]
    apply serveInTurn_stops ran
    have formed := wellFormed_serveInTurn wellFormed ran
    rw [← Option.not_isSome_iff_eq_none, isSome_matrixServe_iff formed]
    intro returns
    exact returns.1 aborts
  · intro served final ran before i ack between j reply later key value
      split acknowledged unwritten asked
    rw [split, List.append_assoc, List.cons_append] at ran
    obtain ⟨rest, middle, next, _, upTo, put, ran⟩ := serveInTurn_split ran
    have formed := wellFormed_serveInTurn wellFormed upTo
    obtain ⟨kept, effect⟩ := matrixServe_effect formed put
    rw [acknowledged.1] at effect
    obtain ⟨_, stored, _, accepted⟩ := effect
    have held : next.kvGet key = some value := by
      unfold CPUMockEngine.kvGet
      rw [stored]
      exact KVStore.get_put_self _ key value accepted
    obtain ⟨_, state, _, _, between_ran, get, _⟩ := serveInTurn_split ran
    have unchanged := kvGet_serveInTurn kept between_ran unwritten
    rw [matrixServe_get asked get, unchanged, held]
    rfl

end

/-- A write of one key, and a read of it. -/
def writeThenRead (read : Bool) : Call :=
  { principal := 0
    bytes := matrixSerializeRequest
      { kind := if read then .GET else .PUT, key := 5, value := 50
        query := { valueCol := 0 } } }

theorem live_emptyShop : emptyShop.Live Analytics.noNumber :=
  ⟨.fresh 1024, .fresh 1024, rfl⟩

theorem acknowledged_writes_kept_read :
    ∃ served final, emptyShop.serveInTurn true .permissive writeThenRead
        (fun _ => 0) [false, true] = some (served, final) ∧
      served[1]? = some (true, matrixSerializeResponse
        { status := ServerStatus.OK.code, results := [50] }) := by
  have both : (emptyShop.serveInTurn true .permissive writeThenRead
      (fun _ => 0) [false, true]).isSome := by
    decide +kernel
  obtain ⟨⟨served, final⟩, ran⟩ := Option.isSome_iff_exists.mp both
  have kept := (acknowledged_writes_kept live_emptyShop [false, true]).2.2
    served final ran
  have peeled := ran
  simp only [CPUMockEngine.serveInTurn, Option.bind_eq_bind,
    Option.bind_eq_some_iff] at peeled
  obtain ⟨⟨ack, next⟩, put, ⟨later, last⟩, rest, same⟩ := peeled
  obtain ⟨⟨reply, after⟩, get, ⟨others, final'⟩, done, equal⟩ := rest
  cases done
  cases equal
  cases same
  have asks : putOf (writeThenRead false).bytes = some (5, 50) := by
    simp [putOf, writeThenRead, deserialize_serialize]
  have reads : getOf (writeThenRead true).bytes = some 5 := by
    simp [getOf, writeThenRead, deserialize_serialize]
  obtain ⟨_, effect⟩ := matrixServe_effect (Catalog.wellFormed_fresh 1024) put
  rw [asks] at effect
  refine ⟨_, _, ran, ?_⟩
  rw [kept [] false ack [] true reply [] 5 50 rfl ⟨asks, _, effect.1, rfl⟩
    (by simp) reads]
  rfl

/-! ## A full store -/

/-- A write of a key of its own for every number. -/
def distinctPuts (number : Nat) : Call :=
  { principal := 0
    bytes := matrixSerializeRequest
      { kind := .PUT, key := UInt64.ofNat number, value := 1
        query := { valueCol := 0 } } }

theorem putOf_distinctPuts (number : Nat) :
    putOf (distinctPuts number).bytes = some (UInt64.ofNat number, 1) := by
  simp [putOf, distinctPuts, deserialize_serialize]

/-- Every new key takes a slot. -/
theorem distinctPuts_fill {count : Nat} (room : count ≤ MATRIX_STORE_SLOTS) :
    ∃ served middle,
      emptyShop.serveInTurn true .permissive distinctPuts (fun _ => 0)
          (List.range count) = some (served, middle) ∧
      middle.catalog.WellFormed ∧
      middle.points.engine.inTxn = false ∧
      middle.points.engine.kv.size = count ∧
      ∀ number, count ≤ number → number ≤ MATRIX_STORE_SLOTS →
        middle.kvGet (UInt64.ofNat number) = none := by
  induction count with
  | zero =>
      refine ⟨[], emptyShop, rfl, Catalog.wellFormed_fresh 1024, rfl, rfl, ?_⟩
      intro number _ _
      exact KVStore.get_fresh _
  | succ count induction =>
      obtain ⟨served, middle, ran, formed, idle, size, absent⟩ :=
        induction (Nat.le_of_succ_le room)
      have free : ¬ middle.points.engine.kv.Full := by
        rw [KVStore.Full, size]
        exact Nat.ne_of_lt room
      have new := absent count (Nat.le_refl count) (Nat.le_of_succ_le room)
      have answered : (middle.matrixServe true .permissive
          (distinctPuts count).principal (distinctPuts count).bytes 0).isSome := by
        apply (isSome_matrixServe_iff formed).mpr
        constructor
        · rintro ⟨key, value, _, opened | ⟨full, _⟩⟩
          · rw [idle] at opened
            cases opened
          · exact free full
        · rintro ⟨req, read, query, _⟩
          rw [distinctPuts, deserialize_serialize] at read
          cases read
          cases query
      obtain ⟨⟨ack, next⟩, put⟩ := Option.isSome_iff_exists.mp answered
      obtain ⟨kept, effect⟩ := matrixServe_effect formed put
      rw [putOf_distinctPuts] at effect
      obtain ⟨_, stored, closed, _⟩ := effect
      refine ⟨served ++ [(count, ack)], next, ?_, kept, closed, ?_, ?_⟩
      · rw [List.range_succ]
        exact serveInTurn_concat ran put
      · rw [stored, KVStore.size_put, size]
        simp only [CPUMockEngine.kvGet] at new
        simp [new, free]
      · intro number above below
        have different : UInt64.ofNat number ≠ UInt64.ofNat count := by
          intro same
          have numbers := congrArg UInt64.toNat same
          rw [UInt64.toNat_ofNat_of_lt' (by simp [MATRIX_STORE_SLOTS] at *; omega),
            UInt64.toNat_ofNat_of_lt' (by simp [MATRIX_STORE_SLOTS] at *; omega)] at numbers
          omega
        unfold CPUMockEngine.kvGet
        rw [stored, KVStore.get_put_ne _ _ different]
        exact absent number (Nat.le_of_succ_le above) below

/-- One key too many stops the server of a fresh engine. -/
theorem full_store_stops :
    emptyShop.Live Analytics.noNumber ∧
      emptyShop.points.engine.inTxn = false ∧
      emptyShop.serveInTurn true .permissive distinctPuts (fun _ => 0)
        (List.range (MATRIX_STORE_SLOTS + 1)) = none := by
  refine ⟨live_emptyShop, rfl, ?_⟩
  obtain ⟨served, middle, ran, formed, _, size, absent⟩ :=
    distinctPuts_fill (Nat.le_refl MATRIX_STORE_SLOTS)
  rw [List.range_succ]
  apply serveInTurn_stops ran
  rw [← Option.not_isSome_iff_eq_none, isSome_matrixServe_iff formed]
  intro returns
  exact returns.1 ⟨_, _, putOf_distinctPuts _, .inr ⟨size,
    absent _ (Nat.le_refl _) (Nat.le_refl _)⟩⟩

end MatrixDB
