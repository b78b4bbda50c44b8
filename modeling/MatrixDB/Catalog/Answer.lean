import MatrixDB.Catalog.Residency

/-!
# What a query answers

The answer to a query is a function of three columns and the group limit, and
of nothing else the engine holds: not of the tiers, the heat, the counters or
any other column.  `execute_query` returns this answer, and the shared path
returns it too whenever it serves.
-/

namespace MatrixDB

open Lib

/-- The data of one column, wherever it lives. -/
structure ColumnView where
  type : MatrixType
  bytes : Bytes
  nulls : Option Bytes
  deriving DecidableEq, Repr

namespace ColumnView

def rows (view : ColumnView) : Nat := view.bytes.length / view.type.width

/-- The mask, if it covers exactly the rows. -/
def rowNulls (view : ColumnView) (n : Nat) : Option Bytes :=
  view.nulls.filter fun mask => mask.length = n

end ColumnView

theorem rows_fit (column : ColumnView) :
    column.type.width * column.rows ≤ column.bytes.length :=
  Nat.mul_div_le column.bytes.length column.type.width

abbrev Answer := Option (MatrixQueryStatus × List UInt64)

def refused (status : MatrixQueryStatus) : Answer := some (status, [])

def served (result : Option (List UInt64)) : Answer :=
  result.map fun out => (.OK, out)

def one (result : Option UInt64) : Option (List UInt64) :=
  result.map fun value => [value]

def answerScalarCross (q : MatrixQuery) (value : ColumnView)
    (filter : Option ColumnView) : Answer :=
  match filter with
  | none => refused .ERR_UNSUPPORTED_TYPE
  | some f =>
      if f.type ≠ .U32 then refused .ERR_UNSUPPORTED_TYPE
      else if f.rows ≠ value.rows then refused .ERR_INVALID_GROUP
      else served (one (reduceCross value.type q f.bytes value.bytes f.rows))

def answerGroupedCross (maxGroups : UInt32) (q : MatrixQuery)
    (value : ColumnView) (key filter : Option ColumnView) : Answer :=
  match key with
  | none => refused .ERR_INVALID_GROUP
  | some k =>
      if q.keyCol = q.valueCol ∨ q.numGroups = 0 then
        refused .ERR_INVALID_GROUP
      else if k.type ≠ .U32 then refused .ERR_UNSUPPORTED_TYPE
      else
        match filter with
        | none => refused .ERR_UNSUPPORTED_TYPE
        | some f =>
            if f.type ≠ .U32 then refused .ERR_UNSUPPORTED_TYPE
            else if maxGroups < q.numGroups then refused .ERR_TOO_MANY_GROUPS
            else if k.rows ≠ value.rows ∨ f.rows ≠ value.rows then
              refused .ERR_INVALID_GROUP
            else
              served (reduceGroupedCross value.type q k.bytes f.bytes
                value.bytes k.rows)

/-- A `uint32` value column compares sizes before it looks at the key type;
the eight-byte ones look at the key type first. -/
def answerGrouped (maxGroups : UInt32) (q : MatrixQuery) (value : ColumnView)
    (key : Option ColumnView) : Answer :=
  match key with
  | none => refused .ERR_INVALID_GROUP
  | some k =>
      if value.type = .U32 then
        if q.keyCol = q.valueCol ∨ q.numGroups = 0 ∨
            k.bytes.length ≠ value.bytes.length then
          refused .ERR_INVALID_GROUP
        else if k.type ≠ .U32 then refused .ERR_UNSUPPORTED_TYPE
        else if maxGroups < q.numGroups then refused .ERR_TOO_MANY_GROUPS
        else
          served (reduceGrouped value.type q k.bytes value.bytes value.rows
            (value.rowNulls value.rows))
      else if k.type ≠ .U32 then refused .ERR_UNSUPPORTED_TYPE
      else if q.keyCol = q.valueCol ∨ q.numGroups = 0 ∨
          k.rows ≠ value.rows then
        refused .ERR_INVALID_GROUP
      else if maxGroups < q.numGroups then refused .ERR_TOO_MANY_GROUPS
      else
        served (reduceGrouped value.type q k.bytes value.bytes value.rows
          (value.rowNulls value.rows))

def answerScalar (q : MatrixQuery) (value : ColumnView) : Answer :=
  match value.nulls with
  | some mask =>
      served (one (reduceNullable value.type q value.bytes value.rows mask))
  | none => served (one (reduceScalar value.type q value.bytes value.rows))

/-- The answer, from the value, key and filter columns of the query. -/
def answerOf (maxGroups : UInt32) (q : MatrixQuery)
    (value key filter : Option ColumnView) : Answer :=
  match value with
  | none => refused .ERR_UNKNOWN_COLUMN
  | some v =>
      if q.crossFilter then
        if q.grouped then answerGroupedCross maxGroups q v key filter
        else answerScalarCross q v filter
      else if q.grouped then answerGrouped maxGroups q v key
      else answerScalar q v

/-! ## When a query is answered -/

/-- What makes a grouped query admissible. -/
structure Admitted (maxGroups : UInt32) (q : MatrixQuery)
    (value key : ColumnView) : Prop where
  distinct : q.keyCol ≠ q.valueCol
  nonzero : q.numGroups ≠ 0
  bounded : ¬ maxGroups < q.numGroups
  keyU32 : key.type = .U32
  aligned : key.rows = value.rows

/-- The five ways in which a query is answered `OK`. -/
inductive Answered (maxGroups : UInt32) (q : MatrixQuery)
    (value : ColumnView) (key filter : Option ColumnView)
    (out : List UInt64) : Prop where
  | scalarCross {f : ColumnView} (cross : q.crossFilter = true)
      (scalar : q.grouped = false) (found : filter = some f)
      (u32 : f.type = .U32) (aligned : f.rows = value.rows)
      (result : one (reduceCross value.type q f.bytes value.bytes f.rows) =
        some out) : Answered maxGroups q value key filter out
  | groupedCross {k f : ColumnView} (cross : q.crossFilter = true)
      (grouped : q.grouped = true) (keyed : key = some k)
      (admitted : Admitted maxGroups q value k) (found : filter = some f)
      (u32 : f.type = .U32) (aligned : f.rows = value.rows)
      (result : reduceGroupedCross value.type q k.bytes f.bytes value.bytes
        k.rows = some out) : Answered maxGroups q value key filter out
  | grouped {k : ColumnView} (own : q.crossFilter = false)
      (grouped : q.grouped = true) (keyed : key = some k)
      (admitted : Admitted maxGroups q value k)
      (lengths : value.type = .U32 → k.bytes.length = value.bytes.length)
      (result : reduceGrouped value.type q k.bytes value.bytes value.rows
        (value.rowNulls value.rows) = some out) :
      Answered maxGroups q value key filter out
  | nullable {mask : Bytes} (own : q.crossFilter = false)
      (scalar : q.grouped = false) (masked : value.nulls = some mask)
      (result : one (reduceNullable value.type q value.bytes value.rows mask) =
        some out) : Answered maxGroups q value key filter out
  | scan (own : q.crossFilter = false) (scalar : q.grouped = false)
      (unmasked : value.nulls = none)
      (result : one (reduceScalar value.type q value.bytes value.rows) =
        some out) : Answered maxGroups q value key filter out

theorem served_ok {result : Option (List UInt64)} {out : List UInt64} :
    served result = some (.OK, out) ↔ result = some out := by
  cases result with
  | none => simp [served]
  | some other => simp [served]

theorem answered_of_grouped {maxGroups : UInt32} {q : MatrixQuery}
    {value : ColumnView} {key filter : Option ColumnView}
    {out : List UInt64} (own : q.crossFilter = false)
    (grouped : q.grouped = true)
    (answered : answerGrouped maxGroups q value key = some (.OK, out)) :
    Answered maxGroups q value key filter out := by
  unfold answerGrouped at answered
  cases keyed : key with
  | none => simp [keyed, refused] at answered
  | some k =>
      simp only [keyed] at answered
      by_cases u32 : value.type = .U32
      · simp only [u32, if_true] at answered
        split at answered
        · simp [refused] at answered
        · rename_i valid
          simp only [not_or, ne_eq, Decidable.not_not] at valid
          split at answered
          · simp [refused] at answered
          · rename_i keyU32
            simp only [ne_eq, Decidable.not_not] at keyU32
            split at answered
            · simp [refused] at answered
            · rename_i bounded
              have rows : k.rows = value.rows := by
                simp [ColumnView.rows, keyU32, u32, valid.2.2]
              apply Answered.grouped own grouped rfl
                ⟨valid.1, valid.2.1, bounded, keyU32, rows⟩
              · intro _
                exact valid.2.2
              · rw [u32]
                exact served_ok.mp answered
      · simp only [u32, if_false] at answered
        split at answered
        · simp [refused] at answered
        · rename_i keyU32
          simp only [ne_eq, Decidable.not_not] at keyU32
          split at answered
          · simp [refused] at answered
          · rename_i valid
            simp only [not_or, ne_eq, Decidable.not_not] at valid
            split at answered
            · simp [refused] at answered
            · rename_i bounded
              apply Answered.grouped own grouped rfl
                ⟨valid.1, valid.2.1, bounded, keyU32, valid.2.2⟩
              · intro narrow
                exact absurd narrow u32
              · exact served_ok.mp answered

theorem answered_of_groupedCross {maxGroups : UInt32} {q : MatrixQuery}
    {value : ColumnView} {key filter : Option ColumnView}
    {out : List UInt64} (cross : q.crossFilter = true)
    (grouped : q.grouped = true)
    (answered : answerGroupedCross maxGroups q value key filter =
      some (.OK, out)) : Answered maxGroups q value key filter out := by
  unfold answerGroupedCross at answered
  cases keyed : key with
  | none => simp [keyed, refused] at answered
  | some k =>
      simp only [keyed] at answered
      split at answered
      · simp [refused] at answered
      · rename_i valid
        simp only [not_or] at valid
        split at answered
        · simp [refused] at answered
        · rename_i keyU32
          simp only [ne_eq, Decidable.not_not] at keyU32
          cases found : filter with
          | none => simp [found, refused] at answered
          | some f =>
              simp only [found] at answered
              split at answered
              · simp [refused] at answered
              · rename_i u32
                simp only [ne_eq, Decidable.not_not] at u32
                split at answered
                · simp [refused] at answered
                · rename_i bounded
                  split at answered
                  · simp [refused] at answered
                  · rename_i aligned
                    simp only [not_or, ne_eq, Decidable.not_not] at aligned
                    exact .groupedCross cross grouped rfl
                      ⟨valid.1, valid.2, bounded, keyU32, aligned.1⟩ rfl u32
                      aligned.2 (served_ok.mp answered)

theorem answered_of_scalarCross {maxGroups : UInt32} {q : MatrixQuery}
    {value : ColumnView} {key filter : Option ColumnView}
    {out : List UInt64} (cross : q.crossFilter = true)
    (scalar : q.grouped = false)
    (answered : answerScalarCross q value filter = some (.OK, out)) :
    Answered maxGroups q value key filter out := by
  unfold answerScalarCross at answered
  cases found : filter with
  | none => simp [found, refused] at answered
  | some f =>
      simp only [found] at answered
      split at answered
      · simp [refused] at answered
      · rename_i u32
        simp only [ne_eq, Decidable.not_not] at u32
        split at answered
        · simp [refused] at answered
        · rename_i aligned
          simp only [ne_eq, Decidable.not_not] at aligned
          exact .scalarCross cross scalar rfl u32 aligned
            (served_ok.mp answered)

theorem answered_of_scalar {maxGroups : UInt32} {q : MatrixQuery}
    {value : ColumnView} {key filter : Option ColumnView}
    {out : List UInt64} (own : q.crossFilter = false)
    (scalar : q.grouped = false)
    (answered : answerScalar q value = some (.OK, out)) :
    Answered maxGroups q value key filter out := by
  unfold answerScalar at answered
  cases masked : value.nulls with
  | some mask =>
      simp only [masked] at answered
      exact .nullable own scalar masked (served_ok.mp answered)
  | none =>
      simp only [masked] at answered
      exact .scan own scalar masked (served_ok.mp answered)

theorem answerOf_ok {maxGroups : UInt32} {q : MatrixQuery}
    {value : ColumnView} {key filter : Option ColumnView}
    {out : List UInt64} :
    answerOf maxGroups q (some value) key filter = some (.OK, out) ↔
      Answered maxGroups q value key filter out := by
  constructor
  · intro answered
    unfold answerOf at answered
    simp only at answered
    split at answered
    · rename_i cross
      split at answered
      · rename_i grouped
        exact answered_of_groupedCross cross grouped answered
      · rename_i scalar
        exact answered_of_scalarCross cross (by simpa using scalar) answered
    · rename_i own
      split at answered
      · rename_i grouped
        exact answered_of_grouped (by simpa using own) grouped answered
      · rename_i scalar
        exact answered_of_scalar (by simpa using own) (by simpa using scalar)
          answered
  · intro answered
    unfold answerOf
    cases answered with
    | scalarCross cross scalar found u32 aligned result =>
        simpa [cross, scalar, answerScalarCross, found, u32, aligned]
          using served_ok.mpr result
    | groupedCross cross grouped keyed admitted found u32 aligned result =>
        simpa [cross, grouped, answerGroupedCross, keyed, found, u32, aligned,
          admitted.distinct, admitted.nonzero, admitted.bounded,
          admitted.keyU32, admitted.aligned] using served_ok.mpr result
    | grouped own grouped keyed admitted lengths result =>
        have done := served_ok.mpr result
        by_cases narrow : value.type = .U32
        · simpa [own, grouped, answerGrouped, keyed, narrow, lengths narrow,
            admitted.distinct, admitted.nonzero, admitted.bounded,
            admitted.keyU32] using done
        · simpa [own, grouped, answerGrouped, keyed, narrow,
            admitted.distinct, admitted.nonzero, admitted.bounded,
            admitted.keyU32, admitted.aligned] using done
    | nullable own scalar masked result =>
        simpa [own, scalar, answerScalar, masked] using served_ok.mpr result
    | scan own scalar unmasked result =>
        simpa [own, scalar, answerScalar, unmasked] using served_ok.mpr result

variable {κ : Type}

namespace Catalog

def view (catalog : Catalog κ) (id : UInt64) : Option ColumnView :=
  (catalog.contents id).map fun bytes =>
    { type := catalog.columnType id
      bytes := bytes
      nulls := catalog.nullMasks.lookup id }

/-- The answer to a query over the data of a catalog. -/
def answer (catalog : Catalog κ) (q : MatrixQuery) : Answer :=
  answerOf catalog.maxQueryGroups q (catalog.view q.valueCol)
    (catalog.view q.keyCol) (catalog.view q.filterCol)

theorem Keeps.view {before after : Catalog κ} (keeps : Keeps before after)
    (id : UInt64) : after.view id = before.view id := by
  unfold Catalog.view
  rw [keeps.contents, keeps.columnType, keeps.nullMasks]

theorem Keeps.answer {before after : Catalog κ} (keeps : Keeps before after)
    (q : MatrixQuery) : after.answer q = before.answer q := by
  unfold Catalog.answer
  rw [keeps.maxQueryGroups, keeps.view, keeps.view, keeps.view]

/-! ## Reading a catalog through its views -/

theorem contents_of_view {catalog : Catalog κ} {id : UInt64} {v : ColumnView}
    (seen : catalog.view id = some v) : catalog.contents id = some v.bytes := by
  unfold view at seen
  obtain ⟨bytes, read, equal⟩ := Option.map_eq_some_iff.mp seen
  rw [read, ← equal]

theorem columnType_of_view {catalog : Catalog κ} {id : UInt64}
    {v : ColumnView} (seen : catalog.view id = some v) :
    catalog.columnType id = v.type := by
  unfold view at seen
  obtain ⟨bytes, _, equal⟩ := Option.map_eq_some_iff.mp seen
  rw [← equal]

theorem nullMasks_of_view {catalog : Catalog κ} {id : UInt64}
    {v : ColumnView} (seen : catalog.view id = some v) :
    catalog.nullMasks.lookup id = v.nulls := by
  unfold view at seen
  obtain ⟨bytes, _, equal⟩ := Option.map_eq_some_iff.mp seen
  rw [← equal]

theorem catalogHas_view {catalog : Catalog κ} (wellFormed : catalog.WellFormed)
    (id : UInt64) : catalog.catalogHas id = (catalog.view id).isSome := by
  rw [catalogHas_eq wellFormed, view, Option.isSome_map]

theorem sizeBytes_of_view {catalog : Catalog κ}
    (wellFormed : catalog.WellFormed) {id : UInt64} {v : ColumnView}
    (seen : catalog.view id = some v) :
    catalog.sizeBytes id = v.bytes.length := by
  rw [sizeBytes_eq wellFormed, contents_of_view seen]
  rfl

theorem columnRows_of_view {catalog : Catalog κ}
    (wellFormed : catalog.WellFormed) {id : UInt64} {v : ColumnView}
    (seen : catalog.view id = some v) : catalog.columnRows id = v.rows := by
  rw [columnRows, sizeBytes_of_view wellFormed seen, columnType_of_view seen]
  rfl

theorem registered_of_view {catalog : Catalog κ} {id : UInt64}
    {v : ColumnView} (seen : catalog.view id = some v) :
    (catalog.contents id).isSome := by
  rw [contents_of_view seen]
  rfl

/-- What a reduction reads of a borrowed column. -/
structure Lends (borrowed : Catalog κ) (id : UInt64) (v : ColumnView) :
    Prop where
  hostBytes : borrowed.hostBytes id = some v.bytes
  sizeBytes : borrowed.sizeBytes id = v.bytes.length
  columnType : borrowed.columnType id = v.type
  nullMasks : borrowed.nullMasks.lookup id = v.nulls

theorem Lent.lends {catalog borrowed : Catalog κ} {ids : List UInt64}
    (lent : Lent catalog ids borrowed) {id : UInt64} (member : id ∈ ids)
    {v : ColumnView} (seen : catalog.view id = some v) :
    Lends borrowed id v := by
  have kept : borrowed.view id = some v := by
    rw [lent.keeps.view, seen]
  refine ⟨?_, sizeBytes_of_view lent.keeps.wellFormed kept,
    columnType_of_view kept, nullMasks_of_view kept⟩
  rw [lent.hostBytes id member, contents_of_view seen]

theorem Lends.valueNulls {borrowed : Catalog κ} {id : UInt64} {v : ColumnView}
    (lends : Lends borrowed id v) (n : Nat) :
    borrowed.valueNulls id n = v.rowNulls n := by
  unfold Catalog.valueNulls
  rw [lends.nullMasks]
  rfl

/-! ## The paths -/

section
variable [SoundCost κ]

theorem scanTyped_eq {catalog : Catalog κ} (wellFormed : catalog.WellFormed)
    {q : MatrixQuery} {v : ColumnView}
    (value : catalog.view q.valueCol = some v) :
    ∃ after, Keeps catalog after ∧
      scanTyped v.type catalog q =
        (reduceScalar v.type q v.bytes v.rows).map fun r => (r, after) := by
  apply scanBorrowed_eq wellFormed
  · intro id member
    rw [List.mem_singleton.mp member]
    exact registered_of_view value
  · intro borrowed lent
    have lends := lent.lends List.mem_cons_self value
    simp only [lends.hostBytes, lends.sizeBytes]
    rfl

theorem scalarAggregateNullable_eq {catalog : Catalog κ}
    (wellFormed : catalog.WellFormed) {q : MatrixQuery} {v : ColumnView}
    (value : catalog.view q.valueCol = some v) {mask : Bytes}
    (masked : v.nulls = some mask) :
    ∃ after, Keeps catalog after ∧
      catalog.scalarAggregateNullable q =
        (reduceNullable v.type q v.bytes v.rows mask).map
          fun r => (r, after) := by
  apply scanBorrowed_eq wellFormed
  · intro id member
    rw [List.mem_singleton.mp member]
    exact registered_of_view value
  · intro borrowed lent
    have lends := lent.lends List.mem_cons_self value
    simp only [lends.hostBytes, lends.sizeBytes, lends.columnType,
      lends.nullMasks, masked]
    rfl

theorem scalarCrossFilter_eq {catalog : Catalog κ}
    (wellFormed : catalog.WellFormed) {q : MatrixQuery} {v f : ColumnView}
    (value : catalog.view q.valueCol = some v)
    (filter : catalog.view q.filterCol = some f) (u32 : f.type = .U32) :
    ∃ after, Keeps catalog after ∧
      catalog.scalarCrossFilter q =
        (reduceCross v.type q f.bytes v.bytes f.rows).map
          fun r => (r, after) := by
  apply scanBorrowed_eq wellFormed
  · intro id member
    rcases List.mem_pair.mp member with own | own
    · rw [own]
      exact registered_of_view filter
    · rw [own]
      exact registered_of_view value
  · intro borrowed lent
    have lendsFilter := lent.lends (by simp) filter
    have lendsValue := lent.lends (by simp) value
    simp only [lendsFilter.hostBytes, lendsFilter.sizeBytes,
      lendsValue.hostBytes, lendsValue.columnType, ColumnView.rows, u32]
    rfl

theorem groupedCrossFilter_eq {catalog : Catalog κ}
    (wellFormed : catalog.WellFormed) {q : MatrixQuery} {v k f : ColumnView}
    (value : catalog.view q.valueCol = some v)
    (key : catalog.view q.keyCol = some k)
    (filter : catalog.view q.filterCol = some f) (u32 : k.type = .U32) :
    ∃ after, Keeps catalog after ∧
      catalog.groupedCrossFilter q =
        (reduceGroupedCross v.type q k.bytes f.bytes v.bytes k.rows).map
          fun r => (r, after) := by
  apply scanBorrowed_eq wellFormed
  · intro id member
    have listed := List.mem_eraseDups.mp member
    simp only [List.mem_cons, List.not_mem_nil, or_false] at listed
    rcases listed with own | own | own
    · rw [own]
      exact registered_of_view value
    · rw [own]
      exact registered_of_view filter
    · rw [own]
      exact registered_of_view key
  · intro borrowed lent
    have lendsKey := lent.lends (List.mem_eraseDups.mpr (by simp)) key
    have lendsFilter :=
      lent.lends (List.mem_eraseDups.mpr (by simp)) filter
    have lendsValue := lent.lends (List.mem_eraseDups.mpr (by simp)) value
    simp only [lendsKey.hostBytes, lendsKey.sizeBytes, lendsFilter.hostBytes,
      lendsValue.hostBytes, lendsValue.columnType, ColumnView.rows, u32]
    rfl

end

theorem groupedAggregate_eq {catalog : Catalog κ}
    (wellFormed : catalog.WellFormed) {q : MatrixQuery} {v k : ColumnView}
    (value : catalog.view q.valueCol = some v)
    (key : catalog.view q.keyCol = some k) (u32 : v.type = .U32)
    (distinct : q.keyCol ≠ q.valueCol)
    (aligned : k.bytes.length = v.bytes.length) :
    ∃ after, Keeps catalog after ∧
      catalog.groupedAggregate q =
        (reduceGrouped v.type q k.bytes v.bytes v.rows
          (v.rowNulls v.rows)).map fun r => (r, after) := by
  unfold groupedAggregate
  rw [if_neg distinct, sizeBytes_of_view wellFormed key,
    sizeBytes_of_view wellFormed value, aligned, if_neg (by simp)]
  apply withBorrowed_eq wellFormed
  · intro id member
    rcases List.mem_pair.mp member with own | own
    · rw [own]
      exact registered_of_view key
    · rw [own]
      exact registered_of_view value
  · intro borrowed lent
    have lendsKey := lent.lends (by simp) key
    have lendsValue := lent.lends (by simp) value
    simp only [lendsKey.hostBytes, lendsKey.sizeBytes, lendsValue.hostBytes,
      lendsValue.valueNulls, aligned, ColumnView.rows, u32]
    rfl

theorem groupedAggregateWide_eq {catalog : Catalog κ}
    (wellFormed : catalog.WellFormed) {q : MatrixQuery} {v k : ColumnView}
    (value : catalog.view q.valueCol = some v)
    (key : catalog.view q.keyCol = some k) (wide : v.type.width = 8) :
    ∃ after, Keeps catalog after ∧
      groupedAggregateWide v.type catalog q =
        (reduceGrouped v.type q k.bytes v.bytes v.rows
          (v.rowNulls v.rows)).map fun r => (r, after) := by
  apply withBorrowed_eq wellFormed
  · intro id member
    rcases List.mem_pair.mp member with own | own
    · rw [own]
      exact registered_of_view key
    · rw [own]
      exact registered_of_view value
  · intro borrowed lent
    have lendsKey := lent.lends (by simp) key
    have lendsValue := lent.lends (by simp) value
    simp only [lendsKey.hostBytes, lendsValue.hostBytes, lendsValue.sizeBytes,
      lendsValue.valueNulls, ColumnView.rows, wide]
    rfl

/-! ## The dispatch -/

theorem follow_single {catalog : Catalog κ} {result : Option UInt64}
    {path : Option (UInt64 × Catalog κ)}
    (followed : ∃ after, Keeps catalog after ∧
      path = result.map fun r => (r, after)) :
    ∃ after, Keeps catalog after ∧
      path.map single = (one result).map fun out => (out, after) := by
  obtain ⟨after, keeps, ran⟩ := followed
  refine ⟨after, keeps, ?_⟩
  rw [ran]
  cases result with
  | none => rfl
  | some value => rfl

section
variable [SoundCost κ]

/-- The engine returns an answer and keeps its data. -/
def Answers (catalog : Catalog κ) (q : MatrixQuery) (answer : Answer) : Prop :=
  ∃ after, Keeps catalog after ∧
    catalog.executeQueryImpl q = answer.map fun r => (r.1, r.2, after)

theorem answers_refused {catalog : Catalog κ}
    (wellFormed : catalog.WellFormed) {q : MatrixQuery}
    {status : MatrixQueryStatus} (route : catalog.route q = .error status) :
    Answers catalog q (refused status) := by
  refine ⟨catalog, .refl wellFormed, ?_⟩
  unfold executeQueryImpl
  rw [route]
  rfl

theorem answers_served {catalog : Catalog κ} {q : MatrixQuery} {taken : Route}
    (route : catalog.route q = .ok taken) {result : Option (List UInt64)}
    (followed : ∃ after, Keeps catalog after ∧
      catalog.follow q taken = result.map fun out => (out, after)) :
    Answers catalog q (served result) := by
  obtain ⟨after, keeps, ran⟩ := followed
  refine ⟨after, keeps, ?_⟩
  simp only [executeQueryImpl, served, route, ran]
  cases result with
  | none => rfl
  | some out => rfl

theorem answers_scalarCross {catalog : Catalog κ}
    (wellFormed : catalog.WellFormed) {q : MatrixQuery} {v : ColumnView}
    (value : catalog.view q.valueCol = some v)
    (route : catalog.route q = catalog.routeScalarCross q) :
    Answers catalog q
      (answerScalarCross q v (catalog.view q.filterCol)) := by
  unfold answerScalarCross
  unfold routeScalarCross at route
  rw [catalogHas_view wellFormed, columnRows_of_view wellFormed value] at route
  cases filter : catalog.view q.filterCol with
  | none =>
      apply answers_refused wellFormed
      simpa [filter] using route
  | some f =>
      rw [columnRows_of_view wellFormed filter, columnType_of_view filter,
        filter] at route
      simp only
      split
      · rename_i typed
        apply answers_refused wellFormed
        simpa [typed] using route
      · rename_i u32
        simp only [ne_eq, Decidable.not_not] at u32
        split
        · rename_i misaligned
          apply answers_refused wellFormed
          simpa [u32, misaligned] using route
        · rename_i aligned
          simp only [ne_eq, Decidable.not_not] at aligned
          have taken : catalog.route q = .ok .scalarCross := by
            simpa [u32, aligned] using route
          apply answers_served taken
          exact follow_single
            (scalarCrossFilter_eq wellFormed value filter u32)

theorem answers_groupedCross {catalog : Catalog κ}
    (wellFormed : catalog.WellFormed) {q : MatrixQuery} {v : ColumnView}
    (value : catalog.view q.valueCol = some v)
    (route : catalog.route q = catalog.routeGroupedCross q) :
    Answers catalog q
      (answerGroupedCross catalog.maxQueryGroups q v
        (catalog.view q.keyCol) (catalog.view q.filterCol)) := by
  unfold answerGroupedCross
  unfold routeGroupedCross at route
  rw [catalogHas_view wellFormed, catalogHas_view wellFormed,
    columnRows_of_view wellFormed value] at route
  cases key : catalog.view q.keyCol with
  | none =>
      apply answers_refused wellFormed
      simpa [key] using route
  | some k =>
      rw [columnRows_of_view wellFormed key, columnType_of_view key,
        key] at route
      simp only
      split
      · rename_i invalid
        apply answers_refused wellFormed
        simpa [invalid] using route
      · rename_i valid
        split
        · rename_i typed
          apply answers_refused wellFormed
          simpa [valid, typed] using route
        · rename_i u32
          simp only [ne_eq, Decidable.not_not] at u32
          cases filter : catalog.view q.filterCol with
          | none =>
              apply answers_refused wellFormed
              simpa [valid, u32, filter] using route
          | some f =>
              rw [columnRows_of_view wellFormed filter,
                columnType_of_view filter, filter] at route
              simp only
              split
              · rename_i typed
                apply answers_refused wellFormed
                simpa [valid, u32, typed] using route
              · rename_i filterU32
                simp only [ne_eq, Decidable.not_not] at filterU32
                split
                · rename_i many
                  apply answers_refused wellFormed
                  simpa [valid, u32, filterU32, many] using route
                · rename_i admitted
                  split
                  · rename_i misaligned
                    apply answers_refused wellFormed
                    simpa [valid, u32, filterU32, admitted, misaligned]
                      using route
                  · rename_i aligned
                    have taken : catalog.route q = .ok .groupedCross := by
                      simpa [valid, u32, filterU32, admitted, aligned]
                        using route
                    apply answers_served taken
                    exact groupedCrossFilter_eq wellFormed value key filter u32

theorem answers_groupedU32 {catalog : Catalog κ}
    (wellFormed : catalog.WellFormed) {q : MatrixQuery} {v : ColumnView}
    (value : catalog.view q.valueCol = some v) (u32 : v.type = .U32)
    (route : catalog.route q = catalog.routeGroupedU32 q) :
    Answers catalog q
      (answerGrouped catalog.maxQueryGroups q v (catalog.view q.keyCol)) := by
  unfold answerGrouped
  unfold routeGroupedU32 at route
  rw [catalogHas_view wellFormed, sizeBytes_of_view wellFormed value] at route
  cases key : catalog.view q.keyCol with
  | none =>
      apply answers_refused wellFormed
      simpa [key] using route
  | some k =>
      rw [sizeBytes_of_view wellFormed key, columnType_of_view key,
        key] at route
      simp only [if_pos u32]
      split
      · rename_i invalid
        apply answers_refused wellFormed
        simpa [or_assoc, invalid] using route
      · rename_i valid
        split
        · rename_i typed
          apply answers_refused wellFormed
          simpa [or_assoc, valid, typed] using route
        · rename_i keyU32
          split
          · rename_i many
            apply answers_refused wellFormed
            simpa [or_assoc, valid, keyU32, many] using route
          · rename_i admitted
            have taken : catalog.route q = .ok .grouped := by
              simpa [or_assoc, valid, keyU32, admitted] using route
            apply answers_served taken
            simp only [not_or, ne_eq, Decidable.not_not] at valid
            have path := groupedAggregate_eq wellFormed value key u32 valid.1
              valid.2.2
            simpa [follow, columnType_of_view value, u32] using path

theorem answers_groupedWide {catalog : Catalog κ}
    (wellFormed : catalog.WellFormed) {q : MatrixQuery} {v : ColumnView}
    (value : catalog.view q.valueCol = some v) (wide : v.type ≠ .U32)
    (route : catalog.route q = catalog.routeGroupedWide q) :
    Answers catalog q
      (answerGrouped catalog.maxQueryGroups q v (catalog.view q.keyCol)) := by
  unfold answerGrouped
  unfold routeGroupedWide at route
  rw [catalogHas_view wellFormed,
    columnRows_of_view wellFormed value] at route
  cases key : catalog.view q.keyCol with
  | none =>
      apply answers_refused wellFormed
      simpa [key] using route
  | some k =>
      rw [columnRows_of_view wellFormed key, columnType_of_view key,
        key] at route
      simp only [if_neg wide]
      split
      · rename_i typed
        apply answers_refused wellFormed
        simpa [typed] using route
      · rename_i keyU32
        simp only [ne_eq, Decidable.not_not] at keyU32
        split
        · rename_i invalid
          apply answers_refused wellFormed
          simpa [or_assoc, keyU32, invalid] using route
        · rename_i valid
          split
          · rename_i many
            apply answers_refused wellFormed
            simpa [or_assoc, keyU32, valid, many] using route
          · rename_i admitted
            have taken : catalog.route q = .ok .grouped := by
              simpa [or_assoc, keyU32, valid, admitted] using route
            apply answers_served taken
            have eight : v.type.width = 8 := by
              cases ty : v.type with
              | U32 => exact absurd ty wide
              | I64 => rfl
              | F64 => rfl
            have path := groupedAggregateWide_eq wellFormed value key eight
            unfold follow
            rw [columnType_of_view value]
            cases ty : v.type with
            | U32 => exact absurd ty wide
            | I64 =>
                rw [ty] at path
                exact path
            | F64 =>
                rw [ty] at path
                exact path

theorem answers_scalar {catalog : Catalog κ} (wellFormed : catalog.WellFormed)
    {q : MatrixQuery} {v : ColumnView}
    (value : catalog.view q.valueCol = some v)
    (route : catalog.route q =
      if (catalog.nullMasks.lookup q.valueCol).isSome then .ok .nullable
      else .ok .scan) :
    Answers catalog q (answerScalar q v) := by
  unfold answerScalar
  rw [nullMasks_of_view value] at route
  cases masked : v.nulls with
  | some mask =>
      rw [masked] at route
      apply answers_served route
      exact follow_single (scalarAggregateNullable_eq wellFormed value masked)
  | none =>
      rw [masked] at route
      apply answers_served route
      have path := follow_single (scanTyped_eq wellFormed value)
      unfold follow
      rw [columnType_of_view value]
      cases ty : v.type with
      | U32 =>
          rw [ty] at path
          exact path
      | I64 =>
          rw [ty] at path
          exact path
      | F64 =>
          rw [ty] at path
          exact path

/-- `execute_query_impl` returns the answer. -/
theorem executeQueryImpl_eq {catalog : Catalog κ}
    (wellFormed : catalog.WellFormed) (q : MatrixQuery) :
    Answers catalog q (catalog.answer q) := by
  have has := catalogHas_view wellFormed q.valueCol
  have route : catalog.route q = catalog.route q := rfl
  conv at route => rhs; unfold Catalog.route
  unfold answer answerOf
  cases value : catalog.view q.valueCol with
  | none =>
      apply answers_refused wellFormed
      simpa [has, value] using route
  | some v =>
      rw [has, value, columnType_of_view value] at route
      simp only
      split
      · rename_i cross
        split
        · rename_i grouped
          apply answers_groupedCross wellFormed value
          simpa [cross, grouped] using route
        · rename_i scalar
          apply answers_scalarCross wellFormed value
          simpa [cross, scalar] using route
      · rename_i own
        split
        · rename_i grouped
          cases ty : v.type with
          | U32 =>
              apply answers_groupedU32 wellFormed value ty
              simpa [own, grouped, ty] using route
          | I64 =>
              apply answers_groupedWide wellFormed value (by simp [ty])
              simpa [own, grouped, ty] using route
          | F64 =>
              apply answers_groupedWide wellFormed value (by simp [ty])
              simpa [own, grouped, ty] using route
        · rename_i scalar
          apply answers_scalar wellFormed value
          simpa [own, scalar] using route

/-- A query returns the answer and changes nothing but tiers and counters. -/
theorem executeQuery_eq {catalog : Catalog κ}
    (wellFormed : catalog.WellFormed) (ns : UInt64) (q : MatrixQuery) :
    ∃ after, Keeps catalog after ∧
      catalog.executeQuery ns q =
        (catalog.answer q).map fun r => (r.1, r.2, after) := by
  obtain ⟨after, keeps, ran⟩ := executeQueryImpl_eq wellFormed q
  refine ⟨after.recordQueryLatency ns,
    keeps.trans (keeps_recordQueryLatency keeps.wellFormed ns), ?_⟩
  rw [executeQuery, ran, Option.map_map]
  rfl

/-- What makes `execute_query` return `OK`. -/
theorem executeQuery_ok {catalog : Catalog κ}
    (wellFormed : catalog.WellFormed) {ns : UInt64} {q : MatrixQuery}
    {out : List UInt64} :
    (∃ after, catalog.executeQuery ns q = some (.OK, out, after)) ↔
      ∃ value, catalog.view q.valueCol = some value ∧
        Answered catalog.maxQueryGroups q value (catalog.view q.keyCol)
          (catalog.view q.filterCol) out := by
  obtain ⟨after, _, ran⟩ := executeQuery_eq wellFormed ns q
  rw [ran, answer]
  cases seen : catalog.view q.valueCol with
  | none => simp [answerOf, refused]
  | some value =>
      constructor
      · rintro ⟨_, returned⟩
        obtain ⟨⟨status, result⟩, answered, equal⟩ :=
          Option.map_eq_some_iff.mp returned
        simp only [Prod.mk.injEq] at equal
        obtain ⟨isOk, same, _⟩ := equal
        subst isOk same
        exact ⟨value, rfl, answerOf_ok.mp answered⟩
      · rintro ⟨_, same, answered⟩
        cases same
        rw [answerOf_ok.mpr answered]
        exact ⟨after, rfl⟩

end

/-! ## The shared path -/

theorem hostResident_view {catalog : Catalog κ}
    (wellFormed : catalog.WellFormed) {id : UInt64}
    (resident : catalog.hostResident id) :
    ∃ v, catalog.view id = some v ∧ catalog.hostBytes id = some v.bytes := by
  unfold hostResident at resident
  cases found : catalog.columns.lookup id with
  | none => simp [found] at resident
  | some column =>
      have host : column.tier = .HOST := by simpa [found] using resident
      obtain ⟨bytes, holds⟩ := wellFormed.held id column found
      have read : catalog.contents id = some bytes :=
        contentsOf_eq found holds
      refine ⟨_, by rw [view, read]; rfl, ?_⟩
      rw [hostBytes, found, Option.bind_some]
      exact holds.hostPtr_eq host

theorem words_of_view {catalog : Catalog κ} (wellFormed : catalog.WellFormed)
    {id : UInt64} {v : ColumnView} (seen : catalog.view id = some v) :
    v.bytes.length % 4 = 0 := by
  have whole := wellFormed.whole id v.bytes (contents_of_view seen)
  rw [columnType_of_view seen] at whole
  cases ty : v.type with
  | U32 =>
      rw [ty] at whole
      exact whole
  | I64 =>
      rw [ty, MatrixType.width] at whole
      omega
  | F64 =>
      rw [ty, MatrixType.width] at whole
      omega

/-- The shared path declines, or returns what `execute_query` would. -/
theorem executeQuerySharedImpl_eq {catalog : Catalog κ}
    (wellFormed : catalog.WellFormed) (q : MatrixQuery) :
    catalog.executeQuerySharedImpl q = some .NEEDS_EXCLUSIVE ∨
      ∃ result, catalog.answer q = served result ∧
        catalog.executeQuerySharedImpl q = result.map .SERVED := by
  unfold executeQuerySharedImpl
  split
  · exact .inl rfl
  · rename_i resident
    simp only [Bool.or_eq_true, Bool.not_eq_true', not_or,
      Bool.not_eq_false, Bool.not_eq_true, Option.isSome_eq_false_iff,
      Option.isNone_iff_eq_none] at resident
    obtain ⟨v, value, vals⟩ := hostResident_view wellFormed resident.1
    have unmasked : v.nulls = none := by
      rw [← nullMasks_of_view value]
      exact resident.2
    have rows := columnRows_of_view wellFormed value
    have type := columnType_of_view value
    simp only [vals, Option.bind_eq_bind, Option.bind_some, rows, type]
    unfold answer answerOf
    simp only [value]
    split
    · rename_i scalarCross
      simp only [Bool.and_eq_true, Bool.not_eq_true'] at scalarCross
      split
      · exact .inl rfl
      · rename_i filterResident
        simp only [Bool.or_eq_true, Bool.not_eq_true', not_or,
          Bool.not_eq_false, bne_iff_ne, ne_eq,
          Decidable.not_not] at filterResident
        obtain ⟨f, filter, fbytes⟩ :=
          hostResident_view wellFormed filterResident.1
        have filterU32 : f.type = .U32 := by
          rw [← columnType_of_view filter]
          exact filterResident.2
        rw [columnRows_of_view wellFormed filter]
        split
        · exact .inl rfl
        · rename_i aligned
          simp only [bne_iff_ne, ne_eq, Decidable.not_not] at aligned
          right
          refine ⟨one (reduceCross v.type q f.bytes v.bytes f.rows), ?_, ?_⟩
          · simp [scalarCross, answerScalarCross, filter, filterU32, aligned]
          · simp only [fbytes, Option.bind_some, ← aligned]
            cases reduceCross v.type q f.bytes v.bytes f.rows with
            | none => rfl
            | some r => rfl
    · split
      · exact .inl rfl
      · rename_i notScalarCross notGroupedCross
        have own : q.crossFilter = false := by
          cases grouped : q.grouped with
          | false => simpa [grouped] using notScalarCross
          | true => simpa [grouped] using notGroupedCross
        split
        · rename_i grouped
          split
          · exact .inl rfl
          · rename_i valid
            simp only [Bool.or_eq_true, Bool.not_eq_true', not_or,
              Bool.not_eq_false, beq_iff_eq, decide_eq_true_eq, bne_iff_ne,
              ne_eq, Decidable.not_not] at valid
            obtain ⟨⟨⟨⟨⟨keyResident, distinct⟩, nonzero⟩, admitted⟩, keyType⟩,
              aligned⟩ := valid
            obtain ⟨k, key, kbytes⟩ := hostResident_view wellFormed keyResident
            rw [columnType_of_view key] at keyType
            rw [columnRows_of_view wellFormed key] at aligned
            right
            refine ⟨reduceGrouped v.type q k.bytes v.bytes v.rows none, ?_, ?_⟩
            · have lengths : v.type = .U32 →
                  k.bytes.length = v.bytes.length := by
                intro u32
                have kWords := words_of_view wellFormed key
                have vWords := words_of_view wellFormed value
                simp only [ColumnView.rows, keyType, u32,
                  MatrixType.width] at aligned
                omega
              have noNulls : v.rowNulls v.rows = none := by
                simp [ColumnView.rowNulls, unmasked]
              simp only [own, key, answerGrouped, noNulls]
              by_cases u32 : v.type = .U32
              · simp [u32, distinct, nonzero, lengths u32, keyType, admitted]
              · simp [u32, distinct, nonzero, aligned, keyType, admitted]
            · simp only [kbytes, Option.bind_some]
              cases reduceGrouped v.type q k.bytes v.bytes v.rows none with
              | none => rfl
              | some out => rfl
        · rename_i scalar
          right
          refine ⟨one (reduceScalar v.type q v.bytes v.rows), ?_, ?_⟩
          · simp [own, answerScalar, unmasked]
          · cases reduceScalar v.type q v.bytes v.rows with
            | none => rfl
            | some r => rfl

end Catalog

end MatrixDB
