import MatrixDB.Server.Isolation
import MatrixDB.Lib.SharedLock

/-!
# Concurrent calls in one order (`concurrent_server.hpp`)

`ConcurrentServer::serve` is called by any number of threads.  The fast path
skips the heat and the rebalancing of `execute_query`, so a run of concurrent
calls and the same calls through `matrix_serve`, one after another, leave the
columns in different tiers.  They hold the same data all the time, and no
response depends on more.
-/

namespace MatrixDB

open Lib Catalog

/-- The arguments of `serve`. -/
structure Call where
  principal : UInt64
  bytes : Bytes
  deriving DecidableEq, Repr

/-- A call without a request for the counters of the engine. -/
def Call.Covered (call : Call) : Prop :=
  ∀ req, matrixDeserializeRequest call.bytes = some req →
    req.kind = .QUERY ∨ req.kind = .GET ∨ req.kind = .PUT

variable {κ : Type}

/-! ## The same data -/

/-- Two engines that hold the same data, wherever their columns live. -/
structure SameData (left right : CPUMockEngine κ) : Prop where
  leftFormed : left.catalog.WellFormed
  rightFormed : right.catalog.WellFormed
  points : right.points = left.points
  views : ∀ id, right.catalog.view id = left.catalog.view id
  maxQueryGroups :
    right.catalog.maxQueryGroups = left.catalog.maxQueryGroups

namespace SameData

variable {first second third : CPUMockEngine κ}

theorem refl (wellFormed : first.catalog.WellFormed) : SameData first first :=
  ⟨wellFormed, wellFormed, rfl, fun _ => rfl, rfl⟩

theorem symm (same : SameData first second) : SameData second first :=
  ⟨same.rightFormed, same.leftFormed, same.points.symm,
    fun id => (same.views id).symm, same.maxQueryGroups.symm⟩

theorem trans (before : SameData first second)
    (after : SameData second third) : SameData first third where
  leftFormed := before.leftFormed
  rightFormed := after.rightFormed
  points := after.points.trans before.points
  views id := (after.views id).trans (before.views id)
  maxQueryGroups := after.maxQueryGroups.trans before.maxQueryGroups

theorem of_keeps {catalog : Catalog κ}
    (wellFormed : first.catalog.WellFormed)
    (keeps : Keeps first.catalog catalog) :
    SameData first { first with catalog := catalog } where
  leftFormed := wellFormed
  rightFormed := keeps.wellFormed
  points := rfl
  views := keeps.view
  maxQueryGroups := keeps.maxQueryGroups

theorem answer (same : SameData first second) (q : MatrixQuery) :
    second.catalog.answer q = first.catalog.answer q := by
  unfold Catalog.answer
  rw [same.maxQueryGroups, same.views, same.views, same.views]

/-- The same change of the points. -/
theorem put_points (same : SameData first second) (points : World) :
    SameData { first with points := points }
      { second with points := points } :=
  ⟨same.leftFormed, same.rightFormed, rfl, same.views, same.maxQueryGroups⟩

end SameData

variable [SoundCost κ] {asserts : Bool} {policy : AccessPolicy}

/-- `execute_query` on the same data. -/
theorem executeQuery_same {left right : CPUMockEngine κ}
    (same : SameData left right) (ns ns' : UInt64) (q : MatrixQuery)
    {status : MatrixQueryStatus} {out : List UInt64} {after : Catalog κ}
    (ran : left.catalog.executeQuery ns q = some (status, out, after)) :
    ∃ other, right.catalog.executeQuery ns' q = some (status, out, other) ∧
      SameData { left with catalog := after }
        { right with catalog := other } := by
  obtain ⟨leftAfter, leftKeeps, leftRan⟩ :=
    executeQuery_eq same.leftFormed ns q
  obtain ⟨rightAfter, rightKeeps, rightRan⟩ :=
    executeQuery_eq same.rightFormed ns' q
  rw [leftRan] at ran
  obtain ⟨result, answered, equal⟩ := Option.map_eq_some_iff.mp ran
  simp only [Prod.mk.injEq] at equal
  obtain ⟨rfl, rfl, rfl⟩ := equal
  refine ⟨rightAfter, ?_, ?_⟩
  · rw [rightRan, same.answer, answered]
    rfl
  · exact (SameData.of_keeps same.leftFormed leftKeeps).symm.trans
      (same.trans (.of_keeps same.rightFormed rightKeeps))

/-- `matrix_serve` on the same data. -/
theorem matrixServe_same {left right : CPUMockEngine κ}
    (same : SameData left right) {call : Call} (covered : call.Covered)
    (ns ns' : UInt64) {response : Bytes} {after : CPUMockEngine κ}
    (ran : left.matrixServe asserts policy call.principal call.bytes ns =
      some (response, after)) :
    ∃ other, right.matrixServe asserts policy call.principal call.bytes ns' =
        some (response, other) ∧ SameData after other := by
  unfold CPUMockEngine.matrixServe CPUMockEngine.serveCore at ran ⊢
  cases decoded : matrixDeserializeRequest call.bytes with
  | none =>
      simp only [decoded, Option.map_some, Option.some.injEq,
        Prod.mk.injEq] at ran ⊢
      obtain ⟨rfl, rfl⟩ := ran
      exact ⟨right, ⟨rfl, rfl⟩, same⟩
  | some req =>
      simp only [decoded] at ran ⊢
      split at ran
      · rename_i authorized
        rw [if_pos authorized]
        rcases covered req decoded with query | get | put
        · simp only [CPUMockEngine.dispatch, query, Option.map_map,
            Option.map_eq_some_iff] at ran ⊢
          obtain ⟨⟨status, out, catalog⟩, answered, equal⟩ := ran
          obtain ⟨other, again, kept⟩ :=
            executeQuery_same same ns ns' req.query answered
          cases equal
          exact ⟨_, ⟨_, again, rfl⟩, kept⟩
        · simp only [CPUMockEngine.dispatch, get, Option.map_some,
            Option.some.injEq, Prod.mk.injEq] at ran ⊢
          obtain ⟨rfl, rfl⟩ := ran
          refine ⟨right, ⟨?_, rfl⟩, same⟩
          rw [CPUMockEngine.kvGet, same.points]
          rfl
        · simp only [CPUMockEngine.dispatch, put, Option.map_map,
            Option.map_eq_some_iff] at ran ⊢
          obtain ⟨points, committed, equal⟩ := ran
          cases equal
          rw [same.points]
          exact ⟨_, ⟨points, committed, rfl⟩, same.put_points points⟩
      · rename_i forbids
        rw [if_neg forbids]
        simp only [Option.map_some, Option.some.injEq, Prod.mk.injEq] at ran ⊢
        obtain ⟨rfl, rfl⟩ := ran
        exact ⟨right, ⟨rfl, rfl⟩, same⟩

/-! ## The shared section -/

/-- A call that begins with the shared lock does not change the data. -/
theorem matrixServe_shared {engine : CPUMockEngine κ}
    (wellFormed : engine.catalog.WellFormed) {call : Call}
    (covered : call.Covered) (mode : lockMode call.bytes = .shared)
    {ns : UInt64} {response : Bytes} {after : CPUMockEngine κ}
    (ran : engine.matrixServe asserts policy call.principal call.bytes ns =
      some (response, after)) : SameData engine after := by
  unfold CPUMockEngine.matrixServe CPUMockEngine.serveCore at ran
  cases decoded : matrixDeserializeRequest call.bytes with
  | none =>
      simp only [decoded, Option.map_some, Option.some.injEq,
        Prod.mk.injEq] at ran
      obtain ⟨-, rfl⟩ := ran
      exact .refl wellFormed
  | some req =>
      simp only [decoded] at ran
      split at ran
      · rcases covered req decoded with query | get | put
        · simp only [CPUMockEngine.dispatch, query, Option.map_map,
            Option.map_eq_some_iff] at ran
          obtain ⟨⟨status, out, catalog⟩, answered, equal⟩ := ran
          obtain ⟨kept, keeps, same⟩ :=
            executeQuery_eq wellFormed ns req.query
          rw [same] at answered
          obtain ⟨_, _, equal'⟩ := Option.map_eq_some_iff.mp answered
          cases equal
          cases equal'
          exact .of_keeps wellFormed keeps
        · simp only [CPUMockEngine.dispatch, get, Option.map_some,
            Option.some.injEq, Prod.mk.injEq] at ran
          obtain ⟨-, rfl⟩ := ran
          exact .refl wellFormed
        · simp [lockMode, decoded, put] at mode
      · simp only [Option.map_some, Option.some.injEq, Prod.mk.injEq] at ran
        obtain ⟨-, rfl⟩ := ran
        exact .refl wellFormed

/-- What a shared section returns is what `matrix_serve` would. -/
theorem sharedSection_serves {engine : CPUMockEngine κ}
    (wellFormed : engine.catalog.WellFormed) {call : Call}
    (covered : call.Covered) (mode : lockMode call.bytes = .shared)
    (ns : UInt64) {outcome : SharedOutcome} {response : Bytes}
    (ran : engine.sharedSection asserts policy call.principal call.bytes =
      some outcome)
    (returned : outcome = .answered response ∨ outcome = .served response) :
    ∃ after, engine.matrixServe asserts policy call.principal call.bytes ns =
        some (response, after) ∧ SameData engine after := by
  suffices serves : ∃ after, engine.matrixServe asserts policy call.principal
      call.bytes ns = some (response, after) by
    obtain ⟨after, serve⟩ := serves
    exact ⟨after, serve, matrixServe_shared wellFormed covered mode serve⟩
  -- What is asked of `matrix_serve` does not depend on the clock.
  have viaServe : (engine.matrixServe asserts policy call.principal call.bytes
      0).map (fun result => SharedOutcome.answered result.1) = some outcome →
      ∃ after, engine.matrixServe asserts policy call.principal call.bytes ns =
        some (response, after) := by
    intro asked
    obtain ⟨⟨response', after⟩, served, equal⟩ :=
      Option.map_eq_some_iff.mp asked
    subst equal
    obtain ⟨other, again, _⟩ :=
      matrixServe_same (.refl wellFormed) covered 0 ns served
    simp only [SharedOutcome.answered.injEq, reduceCtorEq, or_false] at returned
    subst returned
    exact ⟨other, again⟩
  unfold CPUMockEngine.sharedSection at ran
  cases decoded : matrixDeserializeRequest call.bytes with
  | none =>
      simp only [decoded] at ran
      exact viaServe ran
  | some req =>
      simp only [decoded] at ran
      split at ran
      · rename_i query
        split at ran
        · rename_i authorized
          obtain ⟨read, shared, equal⟩ := Option.map_eq_some_iff.mp ran
          cases read with
          | NEEDS_EXCLUSIVE =>
              subst equal
              simp at returned
          | SERVED out =>
              subst equal
              have serve := matrixServe_query wellFormed decoded query policy
                call.principal asserts ns
              rcases executeQuerySharedImpl_eq wellFormed req.query with
                refused | ⟨result, answer, same⟩
              · rw [refused] at shared
                cases shared
              · rw [same] at shared
                obtain ⟨out', rfl, equal⟩ := Option.map_eq_some_iff.mp shared
                cases equal
                rw [if_pos authorized, answer] at serve
                obtain ⟨⟨response', after⟩, served, equal⟩ :=
                  Option.map_eq_some_iff.mp serve
                simp only [reduceCtorEq, SharedOutcome.served.injEq,
                  false_or] at returned
                refine ⟨after, ?_⟩
                rw [served, ← returned]
                exact congrArg (fun bytes => some (bytes, after)) equal
        · exact viaServe ran
      · exact viaServe ran

/-! ## What a shared section looks at -/

/-- Another value of the latency counters. -/
def CPUMockEngine.Alike (before after : CPUMockEngine κ) : Prop :=
  ∃ latency, after =
    { before with catalog := { before.catalog with latency := latency } }

/-- Put together from looks at several moments: each column, each type, each
mask and each key may come from another one. -/
structure Assembled (looks : List (CPUMockEngine κ))
    (seen : CPUMockEngine κ) : Prop where
  columns : ∀ id, ∃ look ∈ looks,
    seen.catalog.columns.lookup id = look.catalog.columns.lookup id
  colTypes : ∀ id, ∃ look ∈ looks,
    seen.catalog.colTypes.lookup id = look.catalog.colTypes.lookup id
  nullMasks : ∀ id, ∃ look ∈ looks,
    seen.catalog.nullMasks.lookup id = look.catalog.nullMasks.lookup id
  maxQueryGroups : ∃ look ∈ looks,
    seen.catalog.maxQueryGroups = look.catalog.maxQueryGroups
  keys : ∀ key, ∃ look ∈ looks, seen.kvGet key = look.kvGet key

omit [SoundCost κ] in
/-- Looks between which nothing but the latency changes are a look at one
moment. -/
theorem Assembled.of_alike {looks : List (CPUMockEngine κ)}
    {seen state : CPUMockEngine κ} (assembled : Assembled looks seen)
    (alike : ∀ look ∈ looks, look.Alike state) : Assembled [state] seen := by
  have moment : ∀ {A : Type} {value : A} (read : CPUMockEngine κ → A),
      (∀ look : CPUMockEngine κ, look.Alike state → read state = read look) →
      (∃ look ∈ looks, value = read look) →
      ∃ look ∈ [state], value = read look := by
    intro A value read steady found
    obtain ⟨look, member, same⟩ := found
    exact ⟨state, List.mem_singleton_self state,
      same.trans (steady look (alike look member)).symm⟩
  constructor
  · intro id
    apply moment (fun look => look.catalog.columns.lookup id) _
      (assembled.columns id)
    rintro look ⟨latency, rfl⟩
    rfl
  · intro id
    apply moment (fun look => look.catalog.colTypes.lookup id) _
      (assembled.colTypes id)
    rintro look ⟨latency, rfl⟩
    rfl
  · intro id
    apply moment (fun look => look.catalog.nullMasks.lookup id) _
      (assembled.nullMasks id)
    rintro look ⟨latency, rfl⟩
    rfl
  · apply moment (fun look => look.catalog.maxQueryGroups) _
      assembled.maxQueryGroups
    rintro look ⟨latency, rfl⟩
    rfl
  · intro key
    apply moment (fun look => look.kvGet key) _ (assembled.keys key)
    rintro look ⟨latency, rfl⟩
    rfl

omit [SoundCost κ] in
theorem executeQuerySharedImpl_seen {seen state : CPUMockEngine κ}
    (assembled : Assembled [state] seen) (q : MatrixQuery) :
    seen.catalog.executeQuerySharedImpl q =
      state.catalog.executeQuerySharedImpl q := by
  have columns : ∀ id, seen.catalog.columns.lookup id =
      state.catalog.columns.lookup id := by
    simpa using assembled.columns
  have colTypes : ∀ id, seen.catalog.colTypes.lookup id =
      state.catalog.colTypes.lookup id := by
    simpa using assembled.colTypes
  have nullMasks : ∀ id, seen.catalog.nullMasks.lookup id =
      state.catalog.nullMasks.lookup id := by
    simpa using assembled.nullMasks
  have maxQueryGroups : seen.catalog.maxQueryGroups =
      state.catalog.maxQueryGroups := by
    simpa using assembled.maxQueryGroups
  have resident : ∀ id, seen.catalog.hostResident id =
      state.catalog.hostResident id := by
    simp [hostResident, columns]
  have host : ∀ id, seen.catalog.hostBytes id =
      state.catalog.hostBytes id := by
    simp [hostBytes, columns]
  have type : ∀ id, seen.catalog.columnType id =
      state.catalog.columnType id := by
    simp [columnType, colTypes]
  have rows : ∀ id, seen.catalog.columnRows id =
      state.catalog.columnRows id := by
    simp [columnRows, sizeBytes, type, columns]
  simp only [executeQuerySharedImpl, resident, host, type, rows, nullMasks,
    maxQueryGroups]

/-- A shared section depends on nothing but what it looked at. -/
theorem sharedSection_seen {seen state : CPUMockEngine κ}
    (assembled : Assembled [state] seen) {call : Call}
    (covered : call.Covered) (mode : lockMode call.bytes = .shared) :
    seen.sharedSection asserts policy call.principal call.bytes =
      state.sharedSection asserts policy call.principal call.bytes := by
  unfold CPUMockEngine.sharedSection CPUMockEngine.matrixServe
    CPUMockEngine.serveCore
  cases decoded : matrixDeserializeRequest call.bytes with
  | none => simp
  | some req =>
      rcases covered req decoded with query | get | put
      · simp only [query, if_true, AccessPolicy.authorizes,
          executeQuerySharedImpl_seen assembled]
        split
        · rfl
        · simp
      · have keys : seen.kvGet req.key = state.kvGet req.key := by
          simpa using assembled.keys req.key
        simp only [get, CPUMockEngine.dispatch, keys, reduceCtorEq, if_false]
        split <;> simp
      · simp [lockMode, decoded, put] at mode

/-! ## The server -/

/-- How a shared section ends. -/
inductive SharedOutcome.Ends (state : CPUMockEngine κ) :
    SharedOutcome → Option Bytes → CPUMockEngine κ → Prop where
  | answered (response : Bytes) :
      Ends state (.answered response) (some response) state
  | served (response : Bytes) (ns : UInt64) :
      Ends state (.served response) (some response) (state.timed ns)
  | escalate : Ends state .escalate none state

/-- `ConcurrentServer::serve` over a number of calls. -/
def concurrentServer {ι : Type} (asserts : Bool) (policy : AccessPolicy)
    (calls : ι → Call) : LockedServer ι (CPUMockEngine κ) Bytes where
  startsShared i := lockMode (calls i).bytes = .shared
  Sees := Assembled
  Reads i seen state outcome after :=
    lockMode (calls i).bytes = .shared ∧
      ∃ ended, seen.sharedSection asserts policy (calls i).principal
        (calls i).bytes = some ended ∧ ended.Ends state outcome after
  Writes i state response after :=
    ∃ ns, state.matrixServe asserts policy (calls i).principal
      (calls i).bytes ns = some (response, after)

section
variable {ι : Type} {calls : ι → Call}

/-- What the sections of the server are equivalent to. -/
theorem concurrentServer_linearizes (covered : ∀ i, (calls i).Covered)
    (clock : ι → UInt64) :
    Linearizes (concurrentServer (κ := κ) asserts policy calls)
      (fun i engine response after =>
        engine.matrixServe asserts policy (calls i).principal (calls i).bytes
          (clock i) = some (response, after))
      SameData CPUMockEngine.Alike where
  trans := by
    rintro first _ _ ⟨_, rfl⟩ ⟨latency, rfl⟩
    exact ⟨latency, rfl⟩
  refl state := ⟨state.catalog.latency, rfl⟩
  keeps := by
    rintro i seen state outcome after ⟨_, ended, _, ends⟩
    cases ends with
    | answered | escalate => exact ⟨state.catalog.latency, rfl⟩
    | served response ns => exact ⟨state.catalog.latency.record ns, rfl⟩
  sees := by
    rintro i looks seen state outcome after assembled alike
      ⟨mode, ended, ran, ends⟩
    rw [sharedSection_seen (assembled.of_alike alike) (covered i) mode] at ran
    exact ⟨mode, ended, ran, ends⟩
  answers := by
    rintro i state response after other ⟨mode, ended, ran, ends⟩ same
    have kept : SameData state after := by
      cases ends with
      | answered => exact .refl same.leftFormed
      | served _ ns =>
          exact .of_keeps same.leftFormed
            (keeps_recordQueryLatency same.leftFormed ns)
    have returned : ended = .answered response ∨ ended = .served response := by
      cases ends with
      | answered => exact .inl rfl
      | served => exact .inr rfl
    obtain ⟨middle, serves, data⟩ := sharedSection_serves same.leftFormed
      (covered i) mode 0 ran returned
    obtain ⟨next, again, reached⟩ :=
      matrixServe_same same (covered i) 0 (clock i) serves
    exact ⟨next, again, kept.symm.trans (data.trans reached)⟩
  refuses := by
    rintro i state after other ⟨_, ended, _, ends⟩ same
    cases ends
    exact same
  writes := by
    rintro i state response after other ⟨ns, ran⟩ same
    exact matrixServe_same same (covered i) ns (clock i) ran

/-- The calls one after another through `matrix_serve`; each takes the time
the clock says. -/
def CPUMockEngine.serveInTurn (asserts : Bool) (policy : AccessPolicy)
    (calls : ι → Call) (clock : ι → UInt64) (engine : CPUMockEngine κ) :
    List ι → Option (List (ι × Bytes) × CPUMockEngine κ)
  | [] => some ([], engine)
  | i :: later => do
      let (response, next) ← engine.matrixServe asserts policy
        (calls i).principal (calls i).bytes (clock i)
      let (served, final) ← next.serveInTurn asserts policy calls clock later
      some ((i, response) :: served, final)

theorem serveInTurn_concat {clock : ι → UInt64} {order : List ι} {i : ι}
    {engine middle final : CPUMockEngine κ} {served : List (ι × Bytes)}
    {response : Bytes}
    (before : engine.serveInTurn asserts policy calls clock order =
      some (served, middle))
    (ran : middle.matrixServe asserts policy (calls i).principal
      (calls i).bytes (clock i) = some (response, final)) :
    engine.serveInTurn asserts policy calls clock (order ++ [i]) =
      some (served ++ [(i, response)], final) := by
  induction order generalizing engine served with
  | nil =>
      cases before
      simp [CPUMockEngine.serveInTurn, ran]
  | cons j later induction =>
      simp only [CPUMockEngine.serveInTurn, Option.bind_eq_bind,
        Option.bind_eq_some_iff] at before
      obtain ⟨⟨first, next⟩, serves, ⟨rest, last⟩, served, equal⟩ := before
      cases equal
      simp [CPUMockEngine.serveInTurn, serves, induction served]

theorem serveInTurn_of_serves {clock : ι → UInt64}
    {engine final : CPUMockEngine κ} {served : List (ι × Bytes)}
    (serves : Serves (fun i state response after =>
      state.matrixServe asserts policy (calls i).principal (calls i).bytes
        (clock i) = some (response, after)) engine served final) :
    engine.serveInTurn asserts policy calls clock (served.map Prod.fst) =
      some (served, final) := by
  induction serves with
  | done => rfl
  | call _ ran induction =>
      rw [List.map_append]
      exact serveInTurn_concat induction ran

/-- However the sections of concurrent calls interleave, the calls can be put
into an order that agrees with real time in which `matrix_serve`, called once
for each, gives the same responses and leaves the same key-value map and
files. -/
theorem concurrent_serve_linearizable [DecidableEq ι]
    (covered : ∀ i, (calls i).Covered) {engine : CPUMockEngine κ}
    (wellFormed : engine.catalog.WellFormed)
    {trace : List (LockEvent ι Bytes)}
    {last : LockState ι (CPUMockEngine κ) Bytes}
    (run : LockRun (concurrentServer asserts policy calls)
      (LockState.start engine) trace last)
    (complete : ∀ i, ∃ response, last.phase i = .returned response)
    (clock : ι → UInt64) :
    ∃ order served final, order.Nodup ∧ (∀ i, i ∈ order) ∧
      RealTime trace order ∧
      engine.serveInTurn asserts policy calls clock order =
        some (served, final) ∧
      served.map Prod.fst = order ∧
      (∀ i response, last.phase i = .returned response →
        (i, response) ∈ served) ∧
      final.points = last.state.points := by
  obtain ⟨served, final, serves, same, once, realTime, responses⟩ :=
    run.linearizable (concurrentServer_linearizes covered clock)
      (.refl wellFormed) complete
  refine ⟨served.map Prod.fst, served, final, once, ?_, realTime,
    serveInTurn_of_serves serves, rfl, responses, same.points⟩
  intro i
  obtain ⟨response, returned⟩ := complete i
  exact List.mem_map_of_mem (responses i response returned)

end

/-- A query for a column that is missing, and a write. -/
def shopCalls (write : Bool) : Call :=
  { principal := 0
    bytes := matrixSerializeRequest
      { kind := if write then .PUT else .QUERY, key := 5, value := 50
        query := { valueCol := 1 } } }

def emptyShop : CPUMockEngine ℚ :=
  { catalog := fresh 1024, points := World.initial .SYNC_OFF }

theorem shopCalls_covered (write : Bool) : (shopCalls write).Covered := by
  intro req decoded
  rw [shopCalls, deserialize_serialize] at decoded
  cases decoded
  cases write with
  | false => exact .inl rfl
  | true => exact .inr (.inr rfl)

/-- The query lets go of the shared lock, the write comes in between, and the
query starts over. -/
theorem shop_run :
    ∃ trace last, .escalate false ∈ trace ∧
      LockRun (concurrentServer true .permissive shopCalls)
        (LockState.start emptyShop) trace last ∧
      ∀ i, ∃ response, last.phase i = .returned response := by
  have shared : lockMode (shopCalls false).bytes = .shared := by
    simp [shopCalls, lockMode, deserialize_serialize]
  have exclusive : lockMode (shopCalls true).bytes = .exclusive := by
    simp [shopCalls, lockMode, deserialize_serialize]
  have declined : emptyShop.sharedSection true .permissive 0
      (shopCalls false).bytes = some .escalate := by
    decide +kernel
  have both : ((emptyShop.matrixServe true .permissive 0 (shopCalls true).bytes
      0).bind fun written => written.2.matrixServe true .permissive 0
        (shopCalls false).bytes 0).isSome := by
    decide +kernel
  obtain ⟨⟨refusal, final⟩, wrote⟩ := Option.isSome_iff_exists.mp both
  obtain ⟨⟨response, written⟩, put, query⟩ := Option.bind_eq_some_iff.mp wrote
  let server := concurrentServer (κ := ℚ) true .permissive shopCalls
  let begin : LockState Bool (CPUMockEngine ℚ) Bytes := .start emptyShop
  have start : LockRun server begin [] begin := .done
  have asked := start.step (.invoke (i := false) rfl)
  have entered := asked.step (.acquireShared (i := false)
    (by simp [LockState.move, server, concurrentServer, shared])
    (by intro j; cases j <;> rfl))
  have looked := entered.step (.look (i := false) rfl)
  have saw : Assembled [emptyShop] emptyShop := by
    constructor <;> simp
  have read := looked.step (.read (i := false) rfl saw
    ⟨shared, .escalate, declined, .escalate⟩)
  have released := read.step (.escalate (i := false) rfl)
  have called := released.step (.invoke (i := true) rfl)
  have locked := called.step (.acquireExclusive (i := true)
    (by simp [LockState.move, server, concurrentServer, exclusive])
    (by intro j; cases j <;> exact ⟨rfl, rfl⟩))
  have stored := locked.step (.finish (i := true) rfl rfl ⟨0, put⟩)
  have answered := stored.step (.returnExclusive (i := true) rfl)
  have relocked := answered.step (.acquireExclusive (i := false) rfl
    (by intro j; cases j <;> exact ⟨rfl, rfl⟩))
  have served := relocked.step (.finish (i := false) rfl rfl ⟨0, query⟩)
  have ended := served.step (.returnExclusive (i := false) rfl)
  refine ⟨_, _, by simp, ended, ?_⟩
  intro i
  cases i with
  | false => exact ⟨refusal, rfl⟩
  | true => exact ⟨response, rfl⟩

theorem concurrent_serve_linearizable_escalated :
    ∃ trace last, .escalate false ∈ trace ∧
      LockRun (concurrentServer true .permissive shopCalls)
        (LockState.start emptyShop) trace last ∧
      ∃ order served final, order.Nodup ∧ (∀ i, i ∈ order) ∧
        RealTime trace order ∧
        emptyShop.serveInTurn true .permissive shopCalls (fun _ => 0) order =
          some (served, final) ∧
        served.map Prod.fst = order ∧
        (∀ i response, last.phase i = .returned response →
          (i, response) ∈ served) ∧
        final.points = last.state.points := by
  obtain ⟨trace, last, escalates, run, complete⟩ := shop_run
  exact ⟨trace, last, escalates, run, concurrent_serve_linearizable
    shopCalls_covered (wellFormed_fresh 1024) run complete fun _ => 0⟩

end MatrixDB
