import MatrixDB.Server.Core
import MatrixDB.Catalog.Loading

/-!
# What a principal can learn from queries

Both dispatchers ask the policy for the value column and, in a grouped query,
for the key column.  Neither asks for the column of a cross-column filter, so
a query can report on a column its principal was not granted.  This is the
only way in which a query depends on such a column.
-/

namespace MatrixDB

open Lib Catalog

/-- The response to a query that was answered. -/
def respond (answer : MatrixQueryStatus × List UInt64) : Bytes :=
  matrixSerializeResponse { status := answer.1.code, results := answer.2 }

def forbidden : Bytes :=
  matrixSerializeResponse
    { status := ServerStatus.ERR_FORBIDDEN.code, results := [] }

variable {κ : Type}

theorem view_zero {catalog : Catalog κ} (wellFormed : catalog.WellFormed) :
    catalog.view 0 = none := by
  rw [Catalog.view, wellFormed.zero]
  rfl

theorem contents_of_view_none {catalog : Catalog κ} {id : UInt64}
    (unseen : catalog.view id = none) : catalog.contents id = none := by
  unfold Catalog.view at unseen
  exact Option.map_eq_none_iff.mp unseen

/-! ## Two runs -/

/-- Two engines with the same data for the columns of a principal. -/
structure SameGranted (policy : AccessPolicy) (principal : UInt64)
    (left right : CPUMockEngine κ) : Prop where
  views : ∀ col, policy.canQuery principal col = true →
    right.catalog.view col = left.catalog.view col
  maxQueryGroups :
    right.catalog.maxQueryGroups = left.catalog.maxQueryGroups

/-- An admitted query whose answer depends on a filter column that was not
granted. -/
structure FilterLeaks (policy : AccessPolicy) (principal : UInt64)
    (q : MatrixQuery) : Prop where
  authorized : policy.authorizesQuery principal q = true
  cross : q.crossFilter = true
  ungranted : policy.canQuery principal q.filterCol = false
  value : q.valueCol ≠ 0
  grouped : q.grouped = true →
    q.keyCol ≠ 0 ∧ q.keyCol ≠ q.valueCol ∧ q.numGroups ≠ 0

/-- The answer reads no key column unless the query is grouped, and no filter
column unless the filter is on another column. -/
theorem answerOf_congr (maxGroups : UInt32) {q : MatrixQuery}
    {value key key' filter filter' : Option ColumnView}
    (sameKey : q.grouped = true → key' = key)
    (sameFilter : q.crossFilter = true → filter' = filter) :
    answerOf maxGroups q value key' filter' =
      answerOf maxGroups q value key filter := by
  cases value with
  | none => rfl
  | some v =>
      cases cross : q.crossFilter with
      | true =>
          rw [sameFilter cross]
          cases grouped : q.grouped with
          | true => rw [sameKey grouped]
          | false => simp [answerOf, cross, grouped]
      | false =>
          cases grouped : q.grouped with
          | true =>
              rw [sameKey grouped]
              simp [answerOf, cross, grouped]
          | false => simp [answerOf, cross, grouped]

/-- Without a value column, and in a group that is refused, the filter column
is not looked at. -/
theorem answerOf_refused (maxGroups : UInt32) {q : MatrixQuery}
    {value key filter filter' : Option ColumnView}
    (early : value = none ∨ (q.grouped = true ∧
      (key = none ∨ q.keyCol = q.valueCol ∨ q.numGroups = 0))) :
    answerOf maxGroups q value key filter' =
      answerOf maxGroups q value key filter := by
  rcases early with none | ⟨grouped, early⟩
  · rw [none]
    rfl
  · cases value with
    | none => rfl
    | some v =>
        cases cross : q.crossFilter with
        | false => simp [answerOf, cross, grouped]
        | true =>
            cases key with
            | none => simp [answerOf, cross, grouped, answerGroupedCross]
            | some k =>
                have invalid : q.keyCol = q.valueCol ∨ q.numGroups = 0 := by
                  simpa using early
                simp [answerOf, cross, grouped, answerGroupedCross, invalid]

/-- A query that does not leak is answered from granted columns. -/
theorem answer_granted {policy : AccessPolicy} {principal : UInt64}
    {q : MatrixQuery} (authorized : policy.authorizesQuery principal q = true)
    (tight : ¬ FilterLeaks policy principal q)
    {left right : CPUMockEngine κ} (leftFormed : left.catalog.WellFormed)
    (same : SameGranted policy principal left right) :
    right.catalog.answer q = left.catalog.answer q := by
  simp only [AccessPolicy.authorizesQuery, Bool.and_eq_true, Bool.or_eq_true,
    Bool.not_eq_true'] at authorized
  have value := same.views q.valueCol authorized.1
  have key : q.grouped = true →
      right.catalog.view q.keyCol = left.catalog.view q.keyCol := by
    intro grouped
    apply same.views
    simpa [grouped] using authorized.2
  unfold Catalog.answer
  rw [same.maxQueryGroups, value]
  by_cases granted : q.crossFilter = true →
      policy.canQuery principal q.filterCol = true
  · apply answerOf_congr _ key
    intro cross
    exact same.views q.filterCol (granted cross)
  · simp only [Classical.not_imp, Bool.not_eq_true] at granted
    rw [answerOf_congr _ key fun _ => rfl]
    apply answerOf_refused
    by_cases zero : q.valueCol = 0
    · left
      rw [zero]
      exact view_zero leftFormed
    · right
      -- Otherwise nothing stands between the query and the filter column.
      by_contra late
      apply tight
      refine ⟨?_, granted.1, granted.2, zero, ?_⟩
      · simpa [AccessPolicy.authorizesQuery] using authorized
      · intro grouped
        refine ⟨?_, ?_, ?_⟩
        · intro keyZero
          exact late ⟨grouped, .inl (by rw [keyZero]; exact view_zero leftFormed)⟩
        · intro equal
          exact late ⟨grouped, .inr (.inl equal)⟩
        · intro none
          exact late ⟨grouped, .inr (.inr none)⟩

variable [SoundCost κ]

/-! ## The response to a query -/

section
variable {engine : CPUMockEngine κ} (wellFormed : engine.catalog.WellFormed)
  {bytes : Bytes} {req : MatrixRequest}
  (decoded : matrixDeserializeRequest bytes = some req)
  (query : req.kind = .QUERY)

include wellFormed decoded query

theorem serveCore_query (policy : AccessPolicy) (principal : UInt64)
    (asserts : Bool) (ns : UInt64) :
    (engine.serveCore asserts policy principal bytes ns).map Prod.fst =
      if policy.authorizesQuery principal req.query then
        (engine.catalog.answer req.query).map respond
      else some forbidden := by
  obtain ⟨after, _, ran⟩ := executeQuery_eq wellFormed ns req.query
  simp only [CPUMockEngine.serveCore, decoded, AccessPolicy.authorizes, query]
  split
  · simp only [CPUMockEngine.dispatch, query, ran, Option.map_map]
    rfl
  · rfl

theorem matrixServe_query (policy : AccessPolicy) (principal : UInt64)
    (asserts : Bool) (ns : UInt64) :
    (engine.matrixServe asserts policy principal bytes ns).map Prod.fst =
      if policy.authorizesQuery principal req.query then
        (engine.catalog.answer req.query).map respond
      else some forbidden := by
  rw [← serveCore_query wellFormed decoded query policy principal asserts ns,
    CPUMockEngine.matrixServe, Option.map_map]
  rfl

theorem concurrentServe_query (policy : AccessPolicy) (principal : UInt64)
    (asserts : Bool) (ns : UInt64) :
    (engine.concurrentServe asserts policy principal bytes ns).map Prod.fst =
      if policy.authorizesQuery principal req.query then
        (engine.catalog.answer req.query).map respond
      else some forbidden := by
  have serve := matrixServe_query wellFormed decoded query policy principal
    asserts
  have mode : lockMode bytes = .shared := by
    simp [lockMode, decoded, query]
  simp only [CPUMockEngine.concurrentServe, mode,
    CPUMockEngine.sharedSection, decoded, query, if_true]
  split
  · rename_i authorized
    simp only [authorized, if_true] at serve
    rcases executeQuerySharedImpl_eq wellFormed req.query with
      refused | ⟨result, answer, ran⟩
    · simp only [refused, Option.map_some, Option.bind_eq_bind,
        Option.bind_some]
      exact serve ns
    · rw [ran, answer]
      cases result with
      | none => rfl
      | some out => rfl
  · rename_i forbids
    simp only [forbids] at serve
    obtain ⟨result, ran, same⟩ := Option.map_eq_some_iff.mp (serve 0)
    simp [ran, same]

end

/-! ## A leak -/

/-- A `uint32` column without rows. -/
def emptyView : ColumnView := { type := .U32, bytes := [], nulls := none }

/-- A column without rows can be loaded under any free id. -/
theorem exists_load_empty {catalog : Catalog κ}
    (wellFormed : catalog.WellFormed) {id : UInt64} (nonzero : id ≠ 0)
    (unused : catalog.contents id = none) :
    ∃ after, catalog.loadScanColumn id [] = some after := by
  have absent : catalog.columns.lookup id = none := by
    cases found : catalog.columns.lookup id with
    | none => rfl
    | some column =>
        obtain ⟨bytes, holds⟩ := wellFormed.held id column found
        rw [contents, contentsOf_eq found holds] at unused
        cases unused
  unfold Catalog.loadScanColumn Catalog.loadBytes
  simp [nonzero, absent]

theorem loads_empty_view {before after : Catalog κ}
    (wellFormed : before.WellFormed) {id : UInt64}
    (loaded : before.loadScanColumn id [] = some after)
    (unmasked : before.nullMasks = ∅) :
    after.WellFormed ∧ after.nullMasks = ∅ ∧
      after.view id = some emptyView ∧
      (∀ other, other ≠ id → after.view other = before.view other) ∧
      after.maxQueryGroups = before.maxQueryGroups := by
  have loads := loadScanColumn_loads wellFormed loaded
  refine ⟨loads.wellFormed, loads.nullMasks.trans unmasked, ?_, ?_,
    loads.maxQueryGroups⟩
  · rw [loads.view_self, unmasked]
    rfl
  · intro other different
    exact loads.view_ne different

/-- Two catalogs that differ in whether one column exists. -/
theorem exists_twin_catalogs {value key filter : UInt64} (value0 : value ≠ 0)
    (key0 : key ≠ 0) (filter0 : filter ≠ 0) (keyValue : key ≠ value)
    (filterValue : filter ≠ value) (filterKey : filter ≠ key) :
    ∃ left right : Catalog κ, left.WellFormed ∧ right.WellFormed ∧
      (∀ other, other ≠ filter → right.view other = left.view other) ∧
      right.maxQueryGroups = left.maxQueryGroups ∧
      left.view value = some emptyView ∧ left.view key = some emptyView ∧
      left.view filter = none ∧ right.view filter = some emptyView := by
  have empty : ∀ id, (fresh 0 : Catalog κ).view id = none := fun _ => rfl
  have formed := wellFormed_fresh (κ := κ) 0
  obtain ⟨first, loadValue⟩ := exists_load_empty formed value0 rfl
  obtain ⟨formed₁, masks₁, value₁, others₁, _⟩ :=
    loads_empty_view formed loadValue rfl
  obtain ⟨left, loadKey⟩ := exists_load_empty formed₁ key0
    (contents_of_view_none ((others₁ key keyValue).trans (empty key)))
  obtain ⟨formed₂, masks₂, key₂, others₂, _⟩ :=
    loads_empty_view formed₁ loadKey masks₁
  have unseen : left.view filter = none := by
    rw [others₂ filter filterKey, others₁ filter filterValue]
    exact empty filter
  obtain ⟨right, loadFilter⟩ := exists_load_empty formed₂ filter0
    (contents_of_view_none unseen)
  obtain ⟨formed₃, _, filter₃, others₃, groups₃⟩ :=
    loads_empty_view formed₂ loadFilter masks₂
  refine ⟨left, right, formed₂, formed₃, others₃, groups₃, ?_, key₂, unseen,
    filter₃⟩
  rw [others₂ value (Ne.symm keyValue)]
  exact value₁

theorem exists_third_id (left right : UInt64) :
    ∃ id : UInt64, id ≠ 0 ∧ id ≠ left ∧ id ≠ right := by
  by_cases one : left = 1 ∨ right = 1
  · by_cases two : left = 2 ∨ right = 2
    · refine ⟨3, by decide, ?_⟩
      grind
    · refine ⟨2, by decide, ?_⟩
      grind
  · refine ⟨1, by decide, ?_⟩
    grind

/-- A filter column that is missing is reported, one that is there is not. -/
theorem answerOf_filter {q : MatrixQuery} (cross : q.crossFilter = true)
    {key : Option ColumnView}
    (keyed : q.grouped = true → key = some emptyView ∧
      q.keyCol ≠ q.valueCol ∧ q.numGroups ≠ 0) (maxGroups : UInt32) :
    answerOf maxGroups q (some emptyView) key none =
        refused .ERR_UNSUPPORTED_TYPE ∧
      ∀ out, answerOf maxGroups q (some emptyView) key (some emptyView) ≠
        some (.ERR_UNSUPPORTED_TYPE, out) := by
  cases grouped : q.grouped with
  | false =>
      constructor
      · simp [answerOf, cross, grouped, answerScalarCross]
      · intro out
        simp [answerOf, cross, grouped, answerScalarCross, emptyView, served]
  | true =>
      obtain ⟨rfl, distinct, nonzero⟩ := keyed grouped
      constructor
      · simp [answerOf, cross, grouped, answerGroupedCross, distinct, nonzero,
          emptyView]
      · intro out
        simp only [answerOf, cross, grouped, answerGroupedCross, distinct,
          nonzero, emptyView, if_true, ne_eq, not_true_eq_false, or_self,
          if_false]
        split
        · simp [refused]
        · simp [served]

/-- Responses of different status differ. -/
theorem status_of_respond {left right : MatrixQueryStatus × List UInt64}
    (same : respond left = respond right) : left.1 = right.1 := by
  have codes := status_of_serialized same
  cases first : left.1 <;> cases second : right.1 <;>
    simp [first, second, MatrixQueryStatus.code] at codes ⊢

/-- Two catalogs that hold the same for a principal and answer a leaking
query differently. -/
theorem exists_leak {policy : AccessPolicy} {principal : UInt64}
    {q : MatrixQuery} (leaks : FilterLeaks policy principal q) :
    ∃ left right : Catalog κ, left.WellFormed ∧ right.WellFormed ∧
      (∀ col, policy.canQuery principal col = true →
        right.view col = left.view col) ∧
      right.maxQueryGroups = left.maxQueryGroups ∧
      left.answer q = refused .ERR_UNSUPPORTED_TYPE ∧
      ∀ out, right.answer q ≠ some (.ERR_UNSUPPORTED_TYPE, out) := by
  have granted := leaks.authorized
  simp only [AccessPolicy.authorizesQuery, Bool.and_eq_true, Bool.or_eq_true,
    Bool.not_eq_true'] at granted
  have cross := leaks.cross
  simp only [MatrixQuery.crossFilter, Bool.and_eq_true, bne_iff_ne] at cross
  -- The key of a grouped query, or any other id.
  obtain ⟨key, key0, keyValue, filterKey, isKey⟩ : ∃ key : UInt64,
      key ≠ 0 ∧ key ≠ q.valueCol ∧ q.filterCol ≠ key ∧
        (q.grouped = true → q.keyCol = key) := by
    cases grouped : q.grouped with
    | true =>
        obtain ⟨nonzero, distinct, _⟩ := leaks.grouped grouped
        refine ⟨q.keyCol, nonzero, distinct, ?_, fun _ => rfl⟩
        intro same
        have ungranted := leaks.ungranted
        rw [same] at ungranted
        simp [grouped, ungranted] at granted
    | false =>
        obtain ⟨id, nonzero, notValue, notFilter⟩ :=
          exists_third_id q.valueCol q.filterCol
        exact ⟨id, nonzero, notValue, Ne.symm notFilter, by simp⟩
  obtain ⟨left, right, leftFormed, rightFormed, others, groups, value, keyed,
    unseen, seen⟩ := exists_twin_catalogs (κ := κ) leaks.value key0 cross.1.2
      keyValue cross.2 filterKey
  have keyView : q.grouped = true → left.view q.keyCol = some emptyView ∧
      q.keyCol ≠ q.valueCol ∧ q.numGroups ≠ 0 := by
    intro grouped
    obtain ⟨_, distinct, nonzero⟩ := leaks.grouped grouped
    exact ⟨by rw [isKey grouped]; exact keyed, distinct, nonzero⟩
  obtain ⟨missing, present⟩ := answerOf_filter leaks.cross keyView
    left.maxQueryGroups
  refine ⟨left, right, leftFormed, rightFormed, ?_, groups, ?_, ?_⟩
  · intro col granted
    apply others
    intro isFilter
    rw [isFilter, leaks.ungranted] at granted
    cases granted
  · rw [Catalog.answer, value, unseen]
    exact missing
  · intro out
    have sameKey : q.grouped = true →
        right.view q.keyCol = left.view q.keyCol := by
      intro grouped
      apply others
      rw [isKey grouped]
      exact Ne.symm filterKey
    rw [Catalog.answer, groups, others _ (Ne.symm cross.2), value, seen,
      answerOf_congr _ sameKey fun _ => rfl]
    exact present out

/-- The data a query may depend on is what its principal was granted, unless
it filters on a column that was not: then, and only then, two engines that
differ in that column alone can respond differently. -/
theorem query_isolation_iff {policy : AccessPolicy} {principal : UInt64}
    {bytes : Bytes} {req : MatrixRequest}
    (decoded : matrixDeserializeRequest bytes = some req)
    (query : req.kind = .QUERY) :
    (∀ (asserts : Bool) (ns ns' : UInt64) (left right : CPUMockEngine κ),
      left.catalog.WellFormed → right.catalog.WellFormed →
      SameGranted policy principal left right →
        (left.serveCore asserts policy principal bytes ns).map Prod.fst =
          (right.serveCore asserts policy principal bytes ns').map Prod.fst ∧
        (left.concurrentServe asserts policy principal bytes ns).map Prod.fst =
          (right.concurrentServe asserts policy principal bytes ns').map
            Prod.fst) ↔
      ¬ FilterLeaks policy principal req.query := by
  constructor
  · intro isolated leaks
    obtain ⟨left, right, leftFormed, rightFormed, views, groups, missing,
      present⟩ := exists_leak (κ := κ) leaks
    have same : SameGranted policy principal
        { catalog := left, points := World.initial .SYNC_OFF }
        { catalog := right, points := World.initial .SYNC_OFF } :=
      ⟨views, groups⟩
    have responses := (isolated true 0 0 _ _ leftFormed rightFormed same).1
    rw [serveCore_query leftFormed decoded query,
      serveCore_query rightFormed decoded query, leaks.authorized] at responses
    simp only [if_true, missing, refused, Option.map_some] at responses
    obtain ⟨⟨status, out⟩, answer, equal⟩ :=
      Option.map_eq_some_iff.mp responses.symm
    have unsupported : status = .ERR_UNSUPPORTED_TYPE :=
      status_of_respond equal
    rw [unsupported] at answer
    exact present out answer
  · intro tight asserts ns ns' left right leftFormed rightFormed same
    rw [serveCore_query leftFormed decoded query,
      serveCore_query rightFormed decoded query,
      concurrentServe_query leftFormed decoded query,
      concurrentServe_query rightFormed decoded query]
    split
    · rename_i authorized
      rw [answer_granted authorized tight leftFormed same]
      exact ⟨rfl, rfl⟩
    · exact ⟨rfl, rfl⟩

/-- Two amounts, and a flag for each that principal 7 may not see. -/
def ledger (flags : List UInt32) : Option (Catalog ℚ) := do
  let catalog ← (fresh 1024).loadScanColumn 1 [5, 8]
  catalog.loadScanColumn 2 flags

theorem ledger_eq {flags : List UInt32} (made : (ledger flags).isSome) :
    ∃ catalog, ledger flags = some catalog ∧ catalog.WellFormed ∧
      catalog.maxQueryGroups = MAX_QUERY_GROUPS ∧
      catalog.view 1 = some
        { type := .U32, bytes := [5, 8].flatMap u32Bytes, nulls := none } := by
  obtain ⟨catalog, loaded⟩ := Option.isSome_iff_exists.mp made
  refine ⟨catalog, loaded, ?_⟩
  unfold ledger at loaded
  obtain ⟨first, amounts, rest⟩ := Option.bind_eq_some_iff.mp loaded
  have loads := loadScanColumn_loads (wellFormed_fresh 1024) amounts
  have more := loadScanColumn_loads loads.wellFormed rest
  refine ⟨more.wellFormed, more.maxQueryGroups.trans loads.maxQueryGroups, ?_⟩
  rw [more.view_ne (by decide), loads.view_self]
  rfl

/-- Principal 7 was granted column 1. -/
def auditor : AccessPolicy := AccessPolicy.none.allowColumn 7 1

theorem canQuery_auditor {col : UInt64}
    (granted : auditor.canQuery 7 col = true) : col = 1 := by
  have columns : auditor.cols.lookup 7 = some {1} := AList.lookup_insert _
  have restricted : auditor.allowAll = false := rfl
  simpa [AccessPolicy.canQuery, columns, restricted] using granted

/-- The number of amounts whose flag is set. -/
def flaggedRequest : MatrixRequest :=
  { kind := .QUERY, key := 0, value := 0
    query := { valueCol := 1, hasFilter := true, filterCol := 2 } }

/-- The number of amounts. -/
def countRequest : MatrixRequest :=
  { flaggedRequest with query := { valueCol := 1 } }

/-- Two engines that differ in the flags. -/
theorem twin_ledgers :
    ∃ left right : CPUMockEngine ℚ,
      left.catalog.WellFormed ∧ right.catalog.WellFormed ∧
      SameGranted auditor 7 left right ∧
      left.catalog.answer flaggedRequest.query = some (.OK, [0]) ∧
      right.catalog.answer flaggedRequest.query = some (.OK, [2]) := by
  obtain ⟨left, madeLeft, leftFormed, leftGroups, leftAmounts⟩ := ledger_eq
    (by decide +kernel : (ledger [0, 0]).isSome)
  obtain ⟨right, madeRight, rightFormed, rightGroups, rightAmounts⟩ :=
    ledger_eq (by decide +kernel : (ledger [1, 1]).isSome)
  have leftAnswer : (ledger [0, 0]).bind (·.answer flaggedRequest.query) =
      some (.OK, [0]) := by
    decide +kernel
  have rightAnswer : (ledger [1, 1]).bind (·.answer flaggedRequest.query) =
      some (.OK, [2]) := by
    decide +kernel
  rw [madeLeft, Option.bind_some] at leftAnswer
  rw [madeRight, Option.bind_some] at rightAnswer
  refine ⟨{ catalog := left, points := World.initial .SYNC_OFF },
    { catalog := right, points := World.initial .SYNC_OFF }, leftFormed,
    rightFormed, ⟨?_, rightGroups.trans leftGroups.symm⟩, leftAnswer,
    rightAnswer⟩
  intro col granted
  rw [canQuery_auditor granted]
  exact rightAmounts.trans leftAmounts.symm

/-- Principal 7 counts the flags of a column it was not granted. -/
theorem query_leaks_filter :
    auditor.allowAll = false ∧ ∃ left right : CPUMockEngine ℚ,
      left.catalog.WellFormed ∧ right.catalog.WellFormed ∧
      SameGranted auditor 7 left right ∧
      (left.serveCore true auditor 7 (matrixSerializeRequest flaggedRequest)
        0).map Prod.fst = some (respond (.OK, [0])) ∧
      (right.serveCore true auditor 7 (matrixSerializeRequest flaggedRequest)
        0).map Prod.fst = some (respond (.OK, [2])) ∧
      respond (.OK, [0]) ≠ respond (.OK, [2]) := by
  have decoded := deserialize_serialize flaggedRequest
  have authorized : auditor.authorizesQuery 7 flaggedRequest.query = true := by
    decide +kernel
  obtain ⟨left, right, leftFormed, rightFormed, same, leftAnswer,
    rightAnswer⟩ := twin_ledgers
  refine ⟨rfl, left, right, leftFormed, rightFormed, same, ?_, ?_,
    by decide +kernel⟩
  · rw [serveCore_query leftFormed decoded rfl, authorized, leftAnswer]
    rfl
  · rw [serveCore_query rightFormed decoded rfl, authorized, rightAnswer]
    rfl

/-- A count without the filter does not tell the two engines apart. -/
theorem query_isolation_unfiltered :
    ∃ left right : CPUMockEngine ℚ,
      left.catalog.answer flaggedRequest.query ≠
        right.catalog.answer flaggedRequest.query ∧
      SameGranted auditor 7 left right ∧
      (left.serveCore true auditor 7 (matrixSerializeRequest countRequest)
        0).map Prod.fst =
        (right.serveCore true auditor 7 (matrixSerializeRequest countRequest)
          0).map Prod.fst ∧
      (left.concurrentServe true auditor 7
        (matrixSerializeRequest countRequest) 0).map Prod.fst =
        (right.concurrentServe true auditor 7
          (matrixSerializeRequest countRequest) 0).map Prod.fst := by
  obtain ⟨left, right, leftFormed, rightFormed, same, leftAnswer,
    rightAnswer⟩ := twin_ledgers
  have tight : ¬ FilterLeaks auditor 7 countRequest.query :=
    fun leaks => Bool.noConfusion leaks.cross
  refine ⟨left, right, ?_, same, ?_⟩
  · rw [leftAnswer, rightAnswer]
    decide
  · exact (query_isolation_iff (deserialize_serialize countRequest) rfl).mpr
      tight true 0 0 left right leftFormed rightFormed same

end MatrixDB
