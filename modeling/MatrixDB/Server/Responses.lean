import MatrixDB.Server.Serving
import MatrixDB.Server.Audit

/-!
# What a response can be

A request stops the server, or it is answered by a response whose size is
known beforehand: a word for each group of a grouped query that passes every
check, and otherwise no more words than the statistics have.
-/

namespace MatrixDB

open Lib

/-! ## How many words a query returns -/

section
variable {q : MatrixQuery} {value : ColumnView} {out : List UInt64}

theorem length_groupRows {V A : Type} (K : AggKernel V A) (op : MatrixAggOp)
    (n : Nat) (groups : UInt32) (keep : Nat → Bool) (keys : Nat → UInt32)
    (v : Nat → V) : (K.groupRows op n groups keep keys v).length =
      groups.toNat := by
  rw [AggKernel.groupRows_eq, List.length_map, List.length_range]

theorem length_groupReduceImpl {V A : Type} {K : AggKernel V A}
    {op : MatrixAggOp} {n : Nat} {groups : UInt32} {hit : V → Bool}
    {keys : Nat → UInt32} {v : Nat → V} {nulls : Option Bytes}
    {words : List A}
    (reduced : K.groupReduceImpl hit keys v n groups op nulls = some words) :
    words.length = groups.toNat := by
  obtain ⟨live, _, same⟩ := Option.map_eq_some_iff.mp reduced
  rw [← same, length_groupRows]

theorem length_reduceGrouped {key : ColumnView} {nulls : Option Bytes}
    (u32 : key.type = .U32) (rows : key.rows = value.rows)
    (result : reduceGrouped value.type q key.bytes value.bytes value.rows
      nulls = some out) : out.length = q.numGroups.toNat := by
  obtain ⟨V, A, K, read, hit, element⟩ := exists_elementKernel value.type
  rw [element.reduceGrouped_eq q (words_fit u32 rows) (rows_fit value)]
    at result
  obtain ⟨words, reduced, same⟩ := Option.map_eq_some_iff.mp result
  rw [← same, List.length_map]
  split at reduced
  · exact length_groupReduceImpl reduced
  · exact length_groupReduceImpl reduced

theorem length_reduceGroupedCross {key filter : ColumnView}
    (keyU32 : key.type = .U32) (keyRows : key.rows = value.rows)
    (filterU32 : filter.type = .U32) (filterRows : filter.rows = value.rows)
    (result : reduceGroupedCross value.type q key.bytes filter.bytes
      value.bytes key.rows = some out) : out.length = q.numGroups.toNat := by
  obtain ⟨V, A, K, read, hit, element⟩ := exists_elementKernel value.type
  rw [keyRows, element.reduceGroupedCross_eq q (words_fit keyU32 keyRows)
    (words_fit filterU32 filterRows) (rows_fit value)] at result
  cases result
  rw [List.length_map]
  exact length_groupRows K _ _ _ _ _ _

theorem length_one {result : Option UInt64} (ran : one result = some out) :
    out.length = 1 := by
  obtain ⟨word, _, same⟩ := Option.map_eq_some_iff.mp ran
  rw [← same]
  rfl

end

/-- A grouped query that passes every check. -/
def PassesChecks (maxGroups : UInt32) (q : MatrixQuery)
    (value key filter : Option ColumnView) : Prop :=
  q.grouped = true ∧ ∃ v k, value = some v ∧ key = some k ∧
    Admitted maxGroups q v k ∧
    if q.crossFilter then
      ∃ f, filter = some f ∧ f.type = .U32 ∧ f.rows = v.rows
    else v.type = .U32 → k.bytes.length = v.bytes.length

/-- An answer has one word, or one for each group. -/
theorem Answered.words {maxGroups : UInt32} {q : MatrixQuery}
    {value : ColumnView} {key filter : Option ColumnView} {out : List UInt64}
    (answered : Answered maxGroups q value key filter out) :
    out.length = 1 ∨
      PassesChecks maxGroups q (some value) key filter ∧
        out.length = q.numGroups.toNat := by
  cases answered with
  | scalarCross _ _ _ _ _ result => exact .inl (length_one result)
  | nullable _ _ _ result => exact .inl (length_one result)
  | scan _ _ _ result => exact .inl (length_one result)
  | groupedCross cross grouped keyed admitted found u32 aligned result =>
      right
      constructor
      · refine ⟨grouped, value, _, rfl, keyed, admitted, ?_⟩
        rw [cross]
        exact ⟨_, found, u32, aligned⟩
      · exact length_reduceGroupedCross admitted.keyU32 admitted.aligned u32
          aligned result
  | grouped own grouped keyed admitted lengths result =>
      right
      constructor
      · refine ⟨grouped, value, _, rfl, keyed, admitted, ?_⟩
        rw [own]
        exact lengths
      · exact length_reduceGrouped admitted.keyU32 admitted.aligned result

/-- A grouped query that passes every check is answered. -/
theorem PassesChecks.answered {maxGroups : UInt32} {q : MatrixQuery}
    {value key filter : Option ColumnView}
    (passes : PassesChecks maxGroups q value key filter) :
    ∃ out, answerOf maxGroups q value key filter = some (.OK, out) ∧
      out.length = q.numGroups.toNat := by
  obtain ⟨grouped, v, k, rfl, rfl, admitted, checks⟩ := passes
  cases cross : q.crossFilter with
  | true =>
      rw [cross] at checks
      obtain ⟨f, rfl, u32, aligned⟩ := checks
      have reduced : (reduceGroupedCross v.type q k.bytes f.bytes v.bytes
          k.rows).isSome := by
        rw [admitted.aligned]
        exact isSome_reduceGroupedCross admitted.keyU32 admitted.aligned u32
          aligned
      obtain ⟨out, result⟩ := Option.isSome_iff_exists.mp reduced
      exact ⟨out, answerOf_ok.mpr (.groupedCross cross grouped rfl admitted
        rfl u32 aligned result), length_reduceGroupedCross admitted.keyU32
          admitted.aligned u32 aligned result⟩
  | false =>
      rw [cross] at checks
      obtain ⟨out, result⟩ := Option.isSome_iff_exists.mp
        (isSome_reduceGrouped (q := q) admitted.keyU32 admitted.aligned)
      exact ⟨out, answerOf_ok.mpr (.grouped cross grouped rfl admitted checks
        result), length_reduceGrouped admitted.keyU32 admitted.aligned result⟩

/-! ## When a request stops the server -/

/-- Without assertions a transaction of one write always goes through. -/
theorem World.isSome_runEvents_put (world : World) (asserts : Bool)
    (key value : UInt64) :
    (world.runEvents asserts
        [.call .begin, .call (.txnPut key value), .call .commit]).isSome ↔
      ¬(asserts = true ∧ (world.engine.inTxn = true ∨
        world.engine.kv.Full ∧ world.engine.kv.get key = none)) := by
  cases asserts with
  | true =>
      have stored := congrArg Option.isSome (world.runEvents_put key value)
      rw [Option.isSome_map] at stored
      rw [stored]
      split <;> simp_all
  | false =>
      have applied : ∀ engine : PointOps, ∃ after,
          engine.applyCommittedWrite false key value = some after := by
        intro engine
        unfold PointOps.applyCommittedWrite
        simp only
        split
        · exact ⟨_, rfl⟩
        · exact ⟨_, rfl⟩
      choose after applied using applied
      cases logged : world.engine.coldStore <;>
        simp [World.runEvents, World.runEvent, PointOps.actions,
          PointOps.commitActions, logged, Machine.runAll, World.machine,
          World.run, World.appendBytes, World.countRecord, applied]

variable {κ : Type}

namespace CPUMockEngine

/-- The principal may make the request, and it is a `PUT` that fails an
assertion or a query that reads past the end of a mask. -/
def Stops (engine : CPUMockEngine κ) (asserts : Bool) (policy : AccessPolicy)
    (principal : UInt64) (bytes : Bytes) : Prop :=
  (∃ req, matrixDeserializeRequest bytes = some req ∧
    policy.authorizes principal req = true) ∧
  (asserts = true ∧ engine.PutAborts bytes ∨ engine.QueryReadsPastMask bytes)

/-- A grouped query the principal may make that passes every check. -/
def AnswersGroups (engine : CPUMockEngine κ) (policy : AccessPolicy)
    (principal : UInt64) (bytes : Bytes) (groups : UInt32) : Prop :=
  ∃ req, matrixDeserializeRequest bytes = some req ∧
    policy.authorizes principal req = true ∧ req.kind = .QUERY ∧
    req.query.numGroups = groups ∧
    PassesChecks engine.catalog.maxQueryGroups req.query
      (engine.catalog.view req.query.valueCol)
      (engine.catalog.view req.query.keyCol)
      (engine.catalog.view req.query.filterCol)

end CPUMockEngine

section
variable [SoundCost κ] {engine after : CPUMockEngine κ} {asserts : Bool}
  {policy : AccessPolicy} {principal ns : UInt64} {bytes response : Bytes}

/-- A request is answered if it does not stop the server, and only then. -/
theorem isSome_matrixServe_iff_not_stops
    (wellFormed : engine.catalog.WellFormed) :
    (engine.matrixServe asserts policy principal bytes ns).isSome ↔
      ¬ engine.Stops asserts policy principal bytes := by
  unfold CPUMockEngine.matrixServe CPUMockEngine.serveCore
    CPUMockEngine.Stops CPUMockEngine.PutAborts
    CPUMockEngine.QueryReadsPastMask putOf
  cases read : matrixDeserializeRequest bytes with
  | none => simp
  | some req =>
      cases allowed : policy.authorizes principal req with
      | false => simp [allowed]
      | true =>
          unfold CPUMockEngine.dispatch
          cases kind : req.kind with
          | GET => simp [kind, allowed]
          | HEALTH => simp [kind, allowed]
          | STATS => simp [kind, allowed]
          | QUERY =>
              obtain ⟨last, _, answered⟩ :=
                Catalog.executeQuery_eq wellFormed ns req.query
              have returns := Catalog.answer_returns_iff wellFormed req.query
              simp [kind, allowed, answered, returns]
          | PUT =>
              have stored := engine.points.isSome_runEvents_put asserts
                req.key req.value
              simp [kind, allowed, CPUMockEngine.kvGet, stored]

theorem keeps_executeQuery {catalog last : Catalog κ} {q : MatrixQuery}
    {status : MatrixQueryStatus} {out : List UInt64}
    (wellFormed : catalog.WellFormed)
    (ran : catalog.executeQuery ns q = some (status, out, last)) :
    Catalog.Keeps catalog last := by
  obtain ⟨after, keeps, answered⟩ := Catalog.executeQuery_eq wellFormed ns q
  rw [answered] at ran
  obtain ⟨answer, _, same⟩ := Option.map_eq_some_iff.mp ran
  cases same
  exact keeps

/-- What a request that is answered does to the catalog, and how many words
its response has. -/
theorem matrixServe_response (wellFormed : engine.catalog.WellFormed)
    (ran : engine.matrixServe asserts policy principal bytes ns =
      some (response, after)) :
    Catalog.Keeps engine.catalog after.catalog ∧
      ∃ resp, response = matrixSerializeResponse resp ∧
        (resp.results.length ≤ 12 ∨ ∃ groups,
          engine.AnswersGroups policy principal bytes groups ∧
            resp.results.length = groups.toNat) := by
  have same := Catalog.Keeps.refl wellFormed
  unfold CPUMockEngine.matrixServe CPUMockEngine.serveCore at ran
  cases read : matrixDeserializeRequest bytes with
  | none =>
      simp only [read] at ran
      cases ran
      exact ⟨same, _, rfl, .inl (Nat.zero_le _)⟩
  | some req =>
      simp only [read] at ran
      split at ran
      · rename_i allowed
        rw [Option.map_map] at ran
        obtain ⟨⟨resp, next⟩, dispatched, equal⟩ :=
          Option.map_eq_some_iff.mp ran
        cases equal
        unfold CPUMockEngine.dispatch at dispatched
        cases kind : req.kind with
        | GET =>
            simp only [kind] at dispatched
            cases dispatched
            refine ⟨same, _, rfl, .inl ?_⟩
            cases engine.kvGet req.key <;> simp
        | HEALTH =>
            simp only [kind] at dispatched
            cases dispatched
            exact ⟨same, _, rfl, .inl (by simp [CPUMockEngine.health])⟩
        | STATS =>
            simp only [kind] at dispatched
            cases dispatched
            exact ⟨same, _, rfl, .inl (by simp [CPUMockEngine.stats])⟩
        | PUT =>
            simp only [kind] at dispatched
            obtain ⟨points, _, equal⟩ := Option.map_eq_some_iff.mp dispatched
            cases equal
            exact ⟨same, _, rfl, .inl (Nat.zero_le _)⟩
        | QUERY =>
            simp only [kind] at dispatched
            obtain ⟨⟨status, out, catalog⟩, queried, equal⟩ :=
              Option.map_eq_some_iff.mp dispatched
            cases equal
            refine ⟨keeps_executeQuery wellFormed queried, _, rfl, ?_⟩
            by_cases ok : status = .OK
            · rw [ok] at queried
              obtain ⟨value, seen, answered⟩ :=
                (Catalog.executeQuery_ok wellFormed).mp ⟨_, queried⟩
              rcases answered.words with single | ⟨passes, many⟩
              · exact .inl (by simp [single])
              · rw [← seen] at passes
                exact .inr ⟨_, ⟨req, read, allowed, kind, rfl, passes⟩, many⟩
            · rw [(executeQuery_rejected queried ok).1]
              exact .inl (Nat.zero_le _)
      · cases ran
        exact ⟨same, _, rfl, .inl (Nat.zero_le _)⟩

/-- A grouped query that passes every check is answered with a word for each
group. -/
theorem matrixServe_groups {groups : UInt32}
    (wellFormed : engine.catalog.WellFormed)
    (answers : engine.AnswersGroups policy principal bytes groups) :
    ∃ resp after, engine.matrixServe asserts policy principal bytes ns =
        some (matrixSerializeResponse resp, after) ∧
      resp.results.length = groups.toNat := by
  obtain ⟨req, read, allowed, kind, rfl, passes⟩ := answers
  obtain ⟨out, answered, words⟩ := passes.answered
  obtain ⟨last, _, ran⟩ := Catalog.executeQuery_eq wellFormed ns req.query
  rw [Catalog.answer, answered] at ran
  refine ⟨{ status := MatrixQueryStatus.OK.code, results := out },
    { engine with catalog := last }, ?_, words⟩
  simp [CPUMockEngine.matrixServe, CPUMockEngine.serveCore, read, allowed,
    CPUMockEngine.dispatch, kind, ran]

theorem keeps_serveInTurn {ι : Type} {calls : ι → Call} {clock : ι → UInt64}
    {order : List ι} {served : List (ι × Bytes)}
    (wellFormed : engine.catalog.WellFormed)
    (ran : engine.serveInTurn asserts policy calls clock order =
      some (served, after)) : Catalog.Keeps engine.catalog after.catalog := by
  apply serveInTurn_preserves
    (fun state => Catalog.Keeps engine.catalog state.catalog)
    (Catalog.Keeps.refl wellFormed) _ ran
  intro before next _ _ _ _ keeps answered
  exact keeps.trans (matrixServe_response keeps.wellFormed answered).1

/-! ## How many bytes a response has -/

theorem length_serializeResponse (r : MatrixResponse) :
    (matrixSerializeResponse r).length = 12 + 8 * r.results.length := by
  have words : (r.results.flatMap u64Bytes).length = 8 * r.results.length :=
    length_flatMap_uniform _ fun word _ => length_u64Bytes word
  simp only [matrixSerializeResponse, List.length_append, words,
    length_u32Bytes, length_u64Bytes]
  omega

/-- The group limit bounds the responses. -/
theorem length_matrixServe_le (wellFormed : engine.catalog.WellFormed)
    (ran : engine.matrixServe asserts policy principal bytes ns =
      some (response, after)) :
    response.length ≤
      108 + 8 * engine.catalog.maxQueryGroups.toNat := by
  obtain ⟨_, resp, rfl, words⟩ := matrixServe_response wellFormed ran
  rw [length_serializeResponse]
  rcases words with few | ⟨groups, ⟨req, _, _, _, rfl, passes⟩, many⟩
  · omega
  · obtain ⟨_, _, _, _, _, admitted, _⟩ := passes
    have bounded := UInt32.le_iff_toNat_le.mp
      (UInt32.not_lt.mp admitted.bounded)
    omega

end

end MatrixDB
