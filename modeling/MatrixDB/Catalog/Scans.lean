import MatrixDB.Catalog.Joins
import MatrixDB.Catalog.Live
import MatrixDB.Compute.Integers
import MatrixDB.Lib.Extremes

/-!
# Scans against queries (`OP_SCAN`)

A scan carries its threshold, its column and its aggregate in the payload.  It
reduces a column of the catalog without looking at its null mask, so it agrees
with the same query as long as no NULL row shows in the aggregate.
-/

namespace MatrixDB

open Lib CostArith

/-! ## The payload -/

def OP_SCAN : UInt32 := 3

/-- The fields of a query that a scan reads or writes. -/
structure ScanQuery where
  transactionId : UInt64
  opcode : UInt32
  payload : Bytes
  whole : payload.length = 32

/-- Store a field at an offset. -/
def putField (payload : Bytes) (offset : Nat) (field : Bytes) : Bytes :=
  payload.take offset ++ field ++ payload.drop (offset + field.length)

/-- Load a field of some width. -/
def getField (payload : Bytes) (offset width : Nat) : Bytes :=
  (payload.drop offset).take width

section
variable {payload field : Bytes} {offset : Nat}

theorem length_putField (fits : offset + field.length ≤ payload.length) :
    (putField payload offset field).length = payload.length := by
  simp only [putField, List.length_append, List.length_take, List.length_drop]
  omega

theorem getField_putField (fits : offset + field.length ≤ payload.length)
    {width : Nat} (length : width = field.length) :
    getField (putField payload offset field) offset width = field := by
  subst length
  have front : (payload.take offset).length = offset := by
    rw [List.length_take]
    omega
  unfold getField putField
  rw [List.append_assoc, List.drop_append_of_le_length (by omega)]
  simp

theorem getField_putField_above (fits : offset + field.length ≤ payload.length)
    {offset' width : Nat} (above : offset + field.length ≤ offset') :
    getField (putField payload offset field) offset' width =
      getField payload offset' width := by
  unfold getField putField
  congr 1
  have front : (payload.take offset ++ field).length =
      offset + field.length := by
    rw [List.length_append, List.length_take]
    omega
  rw [List.drop_append, List.drop_eq_nil_of_le (by omega), List.nil_append,
    List.drop_drop, front]
  congr 1
  omega

theorem getField_putField_below (fits : offset + field.length ≤ payload.length)
    {offset' width : Nat} (below : offset' + width ≤ offset) :
    getField (putField payload offset field) offset' width =
      getField payload offset' width := by
  have front : (payload.take offset).length = offset := by
    rw [List.length_take]
    omega
  unfold getField putField
  rw [List.append_assoc, List.drop_append_of_le_length (by omega),
    List.take_append_of_le_length (by rw [List.length_drop]; omega),
    List.drop_take, List.take_take]
  congr 1
  omega

end

namespace ScanQuery

def setScanTarget (q : ScanQuery) (threshold : UInt32) (columnId : UInt64) :
    ScanQuery :=
  { q with
    opcode := OP_SCAN
    payload :=
      putField (putField q.payload 0 (u32Bytes threshold)) 8
        (u64Bytes columnId)
    whole := by
      have first : (putField q.payload 0 (u32Bytes threshold)).length = 32 := by
        rw [length_putField, q.whole]
        simp [q.whole]
      rw [length_putField, first]
      simp [first] }

def setScanAggOp (q : ScanQuery) (op : MatrixAggOp) : ScanQuery :=
  { q with
    payload := putField q.payload 16 (u32Bytes op)
    whole := by
      rw [length_putField, q.whole]
      simp [q.whole] }

def scanThreshold (q : ScanQuery) : UInt32 :=
  u32OfBytes (getField q.payload 0 4)

def scanColumnId (q : ScanQuery) : UInt64 :=
  u64OfBytes (getField q.payload 8 8)

def scanAggOp (q : ScanQuery) : MatrixAggOp :=
  u32OfBytes (getField q.payload 16 4)

/-- A scan of a column, as a client prepares it. -/
def prepared (q : ScanQuery) (threshold : UInt32) (columnId : UInt64)
    (op : MatrixAggOp) : ScanQuery :=
  (q.setScanTarget threshold columnId).setScanAggOp op

section
variable (q : ScanQuery) (threshold : UInt32) (columnId : UInt64)
  (op : MatrixAggOp)

theorem fits_target :
    8 + (u64Bytes columnId).length ≤
      (putField q.payload 0 (u32Bytes threshold)).length := by
  rw [length_putField]
  · simp [q.whole]
  · simp [q.whole]

theorem scanThreshold_prepared :
    (q.prepared threshold columnId op).scanThreshold = threshold := by
  have whole := (q.setScanTarget threshold columnId).whole
  unfold scanThreshold prepared setScanAggOp
  rw [getField_putField_below (by simp [whole]) (by decide)]
  unfold setScanTarget
  rw [getField_putField_below (fits_target q threshold columnId) (by decide),
    getField_putField (by simp [q.whole]) (by simp), u32OfBytes_u32Bytes]

theorem scanColumnId_prepared :
    (q.prepared threshold columnId op).scanColumnId = columnId := by
  have whole := (q.setScanTarget threshold columnId).whole
  unfold scanColumnId prepared setScanAggOp
  rw [getField_putField_below (by simp [whole]) (by decide)]
  unfold setScanTarget
  rw [getField_putField (fits_target q threshold columnId) (by simp),
    u64OfBytes_u64Bytes]

theorem scanAggOp_prepared :
    (q.prepared threshold columnId op).scanAggOp = op := by
  have whole := (q.setScanTarget threshold columnId).whole
  unfold scanAggOp prepared setScanAggOp
  rw [getField_putField (by simp [whole]) (by simp), u32OfBytes_u32Bytes]

end

end ScanQuery

/-! ## Running a scan -/

def MATRIX_SCAN_COLUMN_SIZE : Nat := 16777216

/-- The column that a scan of id zero reads: each row holds its number. -/
def scanColumn (row : Nat) : UInt32 := UInt32.ofNat row

/-- `matrix_cpu_reduce`: the values above a threshold. -/
def matrixCpuReduce (v : Nat → UInt32) (n : Nat) (threshold : UInt32)
    (op : MatrixAggOp) : UInt64 :=
  u32Kernel.reduceRows op n (fun i => v i > threshold) v

variable {κ : Type}

namespace Catalog

/-- `execute_scan`, which reads its arguments from the payload. -/
def executeScanQuery [CostArith κ] (catalog : Catalog κ) (q : ScanQuery) :
    Option (ScanQuery × Catalog κ) :=
  if q.scanColumnId = 0 then
    some ({ q with
      transactionId := matrixCpuReduce scanColumn MATRIX_SCAN_COLUMN_SIZE
        q.scanThreshold q.scanAggOp }, catalog)
  else
    (catalog.executeScan q.scanColumnId q.scanThreshold q.scanAggOp).map
      fun (c, catalog) => ({ q with transactionId := c }, catalog)

end Catalog

/-! ## NULL rows above a threshold -/

namespace ColumnView

variable (column : ColumnView)

/-- The rows of a `uint32` column above a threshold. -/
def above (threshold : UInt32) : List Nat :=
  (List.range column.rows).filter fun row =>
    u32At column.bytes row > threshold

def number (row : Nat) : Nat := (u32At column.bytes row).toNat

/-- The NULL rows above a threshold do not show in an aggregate: there are
none, or, depending on the aggregate, their sum is zero modulo `2 ^ 64` or each
has another row below or above it. -/
def HidesNulls (threshold : UInt32) (op : MatrixAggOp) : Prop :=
  match column.nulls with
  | none => True
  | some mask =>
      let live := fun row => mask.getD row 0 == 0
      let kept := (column.above threshold).filter live
      let dropped := (column.above threshold).filter fun row => !live row
      column.rows ≤ mask.length ∧
        (if op = AGG_SUM then (dropped.map column.number).sum % 2 ^ 64 = 0
        else if op = AGG_MIN then ∀ row ∈ dropped, ∃ other ∈ kept,
          column.number other ≤ column.number row
        else if op = AGG_MAX then ∀ row ∈ dropped, ∃ other ∈ kept,
          column.number row ≤ column.number other
        else dropped = [])

end ColumnView

/-- The integers that 64 bits can hold. -/
def InWord (x : Int) : Prop := 0 ≤ x ∧ x < 2 ^ 64

theorem ofInt_inj {a b : Int} (aFits : InWord a) (bFits : InWord b) :
    UInt64.ofInt a = UInt64.ofInt b ↔ a = b := by
  obtain ⟨aPos, aFits⟩ := aFits
  obtain ⟨bPos, bFits⟩ := bFits
  constructor
  · intro same
    have numbers := congrArg UInt64.toNat same
    simp only [UInt64.ofInt] at numbers
    rw [UInt64.toNat_ofNat_of_lt' (by simp only [UInt64.size]; omega),
      UInt64.toNat_ofNat_of_lt' (by simp only [UInt64.size]; omega)] at numbers
    omega
  · rintro rfl
    rfl

theorem ofInt_eq_zero (n : Nat) :
    UInt64.ofInt (n : Int) = 0 ↔ n % 2 ^ 64 = 0 := by
  rw [← UInt64.toNat_inj, UInt64.ofInt,
    UInt64.toNat_ofNat_of_lt' (by simp only [UInt64.size]; omega)]
  simp only [UInt64.toNat_zero]
  omega

theorem inWord_getD {found : Option Int} {bound : Int} (fits : InWord bound)
    (each : ∀ x ∈ found, InWord x) : InWord (found.getD bound) := by
  cases found with
  | none => exact fits
  | some x => exact each x rfl

section
variable {rows : List Nat} {val : Nat → Nat} (live : Nat → Bool)

/-- Rows that are not counted change nothing when they are the aggregate's
neutral elements. -/
theorem integerAggregate_filter (op : MatrixAggOp)
    (long : rows.length < 2 ^ 64)
    (between : ∀ r ∈ rows, 0 < val r ∧ val r < 2 ^ 64 - 1) :
    integerAggregate (2 ^ 64 - 1) 0 op (rows.map fun r => (val r : Int)) =
        integerAggregate (2 ^ 64 - 1) 0 op
          ((rows.filter live).map fun r => (val r : Int)) ↔
      if op = AGG_SUM then
        ((rows.filter fun r => !live r).map val).sum % 2 ^ 64 = 0
      else if op = AGG_MIN then ∀ r ∈ rows.filter fun r => !live r,
        ∃ k ∈ rows.filter live, val k ≤ val r
      else if op = AGG_MAX then ∀ r ∈ rows.filter fun r => !live r,
        ∃ k ∈ rows.filter live, val r ≤ val k
      else (rows.filter fun r => !live r) = [] := by
  have fits : ∀ r ∈ rows, InWord (val r : Int) := by
    intro r member
    have bounds := between r member
    constructor <;> omega
  have fitsKept : ∀ r ∈ rows.filter live, InWord (val r : Int) :=
    fun r member => fits r (List.mem_filter.mp member).1
  have word : ∀ {rows : List Nat}, (∀ r ∈ rows, InWord (val r : Int)) →
      ∀ x ∈ rows.map (fun r => (val r : Int)), InWord x := by
    intro rows each x member
    obtain ⟨r, inside, rfl⟩ := List.mem_map.mp member
    exact each r inside
  have covers : ∀ {R : Nat → Nat → Prop}, (∀ r, R r r) →
      ((∀ r ∈ rows, ∃ k ∈ rows.filter live, R k r) ↔
        ∀ r ∈ rows.filter fun r => !live r, ∃ k ∈ rows.filter live, R k r) := by
    intro R same
    constructor
    · intro covered r member
      exact covered r (List.mem_filter.mp member).1
    · intro covered r member
      by_cases kept : live r
      · exact ⟨r, List.mem_filter.mpr ⟨member, kept⟩, same r⟩
      · exact covered r (List.mem_filter.mpr ⟨member, by simpa using kept⟩)
  unfold integerAggregate
  by_cases sum : op = AGG_SUM
  · subst sum
    have whole : ((rows.filter fun r => !live r).map
        fun r => (val r : Int)).sum =
          (((rows.filter fun r => !live r).map val).sum : Nat) := by
      rw [Nat.cast_list_sum, List.map_map]
      rfl
    rw [if_pos rfl, if_pos rfl, if_pos rfl,
      ← sum_filter_add_sum_filter_not live, whole, UInt64.ofInt_add,
      UInt64.add_eq_left]
    exact ofInt_eq_zero _
  by_cases least : op = AGG_MIN
  · subst least
    simp only [if_neg sum, if_true]
    rw [ofInt_inj
      (inWord_getD (by constructor <;> norm_num)
        fun x found => word fits x (List.min?_mem found))
      (inWord_getD (by constructor <;> norm_num)
        fun x found => word fitsKept x (List.min?_mem found)),
      min?_filter_getD]
    · simp only [Int.ofNat_le]
      exact covers fun r => Nat.le_refl _
    · intro r member
      have bounds := between r member
      omega
  by_cases greatest : op = AGG_MAX
  · subst greatest
    simp only [if_neg sum, if_neg least, if_true]
    rw [ofInt_inj
      (inWord_getD (by constructor <;> norm_num)
        fun x found => word fits x (List.max?_mem found))
      (inWord_getD (by constructor <;> norm_num)
        fun x found => word fitsKept x (List.max?_mem found)),
      max?_filter_getD]
    · simp only [Int.ofNat_le]
      exact covers fun r => Nat.le_refl _
    · intro r member
      have bounds := between r member
      omega
  · simp only [if_neg sum, if_neg least, if_neg greatest, List.length_map]
    have parts := (List.filter_append_perm live rows).length_eq
    rw [List.length_append] at parts
    rw [← List.length_eq_zero_iff]
    constructor
    · intro same
      have numbers := congrArg UInt64.toNat same
      rw [UInt64.toNat_ofNat_of_lt' long,
        UInt64.toNat_ofNat_of_lt' (by simp only [UInt64.size]; omega)]
        at numbers
      omega
    · intro none
      rw [none, Nat.add_zero] at parts
      rw [parts]

end

/-! ## The two results -/

/-- The query that a scan is compared with: the same column and aggregate, and
the filter `value > threshold`. -/
def scanQueryOf (columnId : UInt64) (threshold : UInt32) (op : MatrixAggOp) :
    MatrixQuery :=
  { valueCol := columnId, agg := op, hasFilter := true, cmp := .GT
    threshold := threshold }

section
variable {column : ColumnView} (u32 : column.type = .U32) (id : UInt64)
  (threshold : UInt32) (op : MatrixAggOp)

include u32 in
theorem rows_u32 :
    u32Rows column.rows column.bytes = some (u32At column.bytes) := by
  apply if_pos
  have fit := rows_fit column
  rwa [u32] at fit

theorem reduceRows_u32 (n : Nat) (keep : Nat → Bool) (v : Nat → UInt32) :
    u32Kernel.reduceRows op n keep v =
      integerAggregate (2 ^ 64 - 1) 0 op
        (((List.range n).filter keep).map fun row => ((v row).toNat : Int)) :=
  u32Kernel_integer.encode_reduceRows op n keep v

include u32 in
theorem reduceScalar_above :
    reduceScalar column.type (scanQueryOf id threshold op) column.bytes
        column.rows =
      some (integerAggregate (2 ^ 64 - 1) 0 op
        ((column.above threshold).map fun row =>
          (column.number row : Int))) := by
  rw [u32]
  simp only [reduceScalar, rows_u32 u32, Option.bind_eq_bind,
    Option.bind_some, scanQueryOf, if_true, matrixCpuReducePred,
    AggKernel.reducePred, liveRows, Option.map_some, reduceRows_u32,
    Bool.true_and]
  rfl

include u32 in
theorem reduceNullable_above (mask : Bytes) :
    reduceNullable column.type (scanQueryOf id threshold op) column.bytes
        column.rows mask =
      if column.rows ≤ mask.length then
        some (integerAggregate (2 ^ 64 - 1) 0 op
          (((column.above threshold).filter fun row =>
            mask.getD row 0 == 0).map fun row => (column.number row : Int)))
      else none := by
  rw [u32]
  simp only [reduceNullable, rows_u32 u32, Option.bind_eq_bind,
    Option.bind_some, scanQueryOf, if_true, matrixCpuReducePred,
    AggKernel.reducePred, liveRows]
  split
  · simp only [Option.map_some, reduceRows_u32, ColumnView.above,
      List.filter_filter]
    rfl
  · rfl

end

namespace Catalog

variable [SoundCost κ] {catalog : Catalog κ}

/-- A scan and a query return the same value, and neither changes a column. -/
def ScanAgrees (catalog : Catalog κ) (ns : UInt64) (scan : ScanQuery)
    (query : MatrixQuery) : Prop :=
  ∃ value scanned queried,
    catalog.executeScanQuery scan =
      some ({ scan with transactionId := value }, scanned) ∧
    catalog.executeQuery ns query = some (.OK, [value], queried) ∧
    (∀ id, scanned.contents id = catalog.contents id) ∧
    ∀ id, queried.contents id = catalog.contents id

section
variable (wellFormed : catalog.WellFormed) {id : UInt64} {column : ColumnView}
  (seen : catalog.view id = some column) (u32 : column.type = .U32)
  (q : ScanQuery) (threshold : UInt32) (op : MatrixAggOp)

include wellFormed seen u32 in
theorem executeScanQuery_eq :
    ∃ scanned, (∀ id, scanned.contents id = catalog.contents id) ∧
      catalog.executeScanQuery (q.prepared threshold id op) =
        some ({ q.prepared threshold id op with
          transactionId := integerAggregate (2 ^ 64 - 1) 0 op
            ((column.above threshold).map fun row =>
              (column.number row : Int)) }, scanned) := by
  have nonzero : id ≠ 0 := by
    rintro rfl
    have held := contents_of_view seen
    rw [wellFormed.zero] at held
    cases held
  have seen' : catalog.view (scanQueryOf id threshold op).valueCol =
      some column := seen
  obtain ⟨scanned, keeps, ran⟩ := scanTyped_eq wellFormed seen'
  rw [reduceScalar_above u32, u32] at ran
  refine ⟨scanned, keeps.contents, ?_⟩
  unfold executeScanQuery
  rw [ScanQuery.scanColumnId_prepared, ScanQuery.scanThreshold_prepared,
    ScanQuery.scanAggOp_prepared, if_neg nonzero]
  have same : catalog.executeScan id threshold op =
      scanTyped .U32 catalog (scanQueryOf id threshold op) := rfl
  rw [same, ran]
  rfl

include wellFormed seen in
theorem executeQuery_above (ns : UInt64) :
    ∃ queried, (∀ id, queried.contents id = catalog.contents id) ∧
      catalog.executeQuery ns (scanQueryOf id threshold op) =
        (match column.nulls with
          | some mask => (reduceNullable column.type
              (scanQueryOf id threshold op) column.bytes column.rows mask)
          | none => (reduceScalar column.type (scanQueryOf id threshold op)
              column.bytes column.rows)).map fun value =>
                (.OK, [value], queried) := by
  obtain ⟨queried, keeps, ran⟩ :=
    executeQuery_eq wellFormed ns (scanQueryOf id threshold op)
  refine ⟨queried, keeps.contents, ?_⟩
  have seen' : catalog.view (scanQueryOf id threshold op).valueCol =
      some column := seen
  have scalar : catalog.answer (scanQueryOf id threshold op) =
      answerScalar (scanQueryOf id threshold op) column := by
    rw [answer, seen']
    rfl
  rw [ran, scalar, answerScalar]
  cases column.nulls with
  | none =>
      simp only [served, one, Option.map_map]
      rfl
  | some mask =>
      simp only [served, one, Option.map_map]
      rfl

include wellFormed seen u32 in
theorem scanAgrees_iff_hides (ns : UInt64) :
    catalog.ScanAgrees ns (q.prepared threshold id op)
        (scanQueryOf id threshold op) ↔ column.HidesNulls threshold op := by
  obtain ⟨scanned, scanKeeps, scanRan⟩ :=
    executeScanQuery_eq wellFormed seen u32 q threshold op
  obtain ⟨queried, queryKeeps, queryRan⟩ :=
    executeQuery_above wellFormed seen threshold op ns
  have short : (column.above threshold).length ≤ column.rows := by
    have fewer := List.length_filter_le (fun row =>
      decide (u32At column.bytes row > threshold)) (List.range column.rows)
    rwa [List.length_range] at fewer
  have long := Nat.lt_of_le_of_lt short (rows_lt wellFormed seen)
  have between : ∀ r ∈ column.above threshold,
      0 < column.number r ∧ column.number r < 2 ^ 64 - 1 := by
    intro r member
    have larger := of_decide_eq_true (List.mem_filter.mp member).2
    have small := (u32At column.bytes r).toNat_lt
    have positive := Nat.lt_of_le_of_lt (Nat.zero_le _)
      (UInt32.lt_iff_toNat_lt.mp larger)
    exact ⟨positive, by unfold ColumnView.number; omega⟩
  unfold ColumnView.HidesNulls
  cases masked : column.nulls with
  | none =>
      rw [masked] at queryRan
      dsimp only at queryRan
      rw [reduceScalar_above u32] at queryRan
      exact ⟨fun _ => trivial, fun _ => ⟨_, scanned, queried, scanRan,
        queryRan, scanKeeps, queryKeeps⟩⟩
  | some mask =>
      rw [masked] at queryRan
      dsimp only at queryRan
      rw [reduceNullable_above u32] at queryRan
      have hidden := integerAggregate_filter
        (fun row => mask.getD row 0 == 0) op long between
      constructor
      · rintro ⟨value, scanned', queried', scanRan', queryRan', _⟩
        have scans : value = integerAggregate (2 ^ 64 - 1) 0 op
            ((column.above threshold).map fun row =>
              (column.number row : Int)) := by
          have same := scanRan'.symm.trans scanRan
          simp only [Option.some.injEq, Prod.mk.injEq] at same
          exact congrArg ScanQuery.transactionId same.1
        by_cases covered : column.rows ≤ mask.length
        · rw [if_pos covered, queryRan'] at queryRan
          simp only [Option.map_some, Option.some.injEq, Prod.mk.injEq,
            List.cons.injEq] at queryRan
          exact ⟨covered, hidden.mp (scans.symm.trans queryRan.2.1.1)⟩
        · rw [if_neg covered, queryRan'] at queryRan
          cases queryRan
      · rintro ⟨covered, hides⟩
        rw [if_pos covered, ← hidden.mpr hides] at queryRan
        exact ⟨_, scanned, queried, scanRan, queryRan, scanKeeps, queryKeeps⟩

end

end Catalog

namespace Analytics

variable [SoundCost κ] {strtod : Bytes → StrtodResult} {engine : Analytics κ}

/-- A scan of a `uint32` column agrees with the query exactly when no NULL row
shows. -/
theorem scanAgrees_iff (live : Live strtod engine) {id : UInt64}
    {column : ColumnView} (seen : engine.catalog.view id = some column)
    (u32 : column.type = .U32) (q : ScanQuery) (threshold : UInt32)
    (op : MatrixAggOp) (ns : UInt64) :
    engine.catalog.ScanAgrees ns (q.prepared threshold id op)
        (scanQueryOf id threshold op) ↔ column.HidesNulls threshold op :=
  Catalog.scanAgrees_iff_hides live.settled.wellFormed seen u32 q threshold op
    ns

/-! ## A NULL row -/

/-- Two rows, the first of which is NULL. -/
def oneNull : Option (Analytics ℚ) := do
  let (_, engine) ←
    (CatalogCall.loadScanColumn 7 [5, 9]).run noNumber (fun _ => 0) (fresh 64)
  let (_, engine) ←
    (CatalogCall.setColumnNulls 7 [1, 0]).run noNumber (fun _ => 0) engine
  some engine

/-- A payload of zeros. -/
def blankScan : ScanQuery := ⟨0, 0, List.replicate 32 0, by decide⟩

theorem exists_oneNull :
    ∃ engine : Analytics ℚ, Live noNumber engine ∧
      ∃ column, engine.catalog.view 7 = some column ∧ column.type = .U32 ∧
        column.nulls = some [1, 0] ∧ column.bytes = [5, 9].flatMap u32Bytes := by
  have seen : (oneNull.bind fun engine => (engine.catalog.view 7).map
      fun column => (column.type, column.nulls, column.bytes)) =
        some (.U32, some [1, 0], [5, 9].flatMap u32Bytes) := by
    decide +kernel
  obtain ⟨engine, made, found⟩ := Option.bind_eq_some_iff.mp seen
  obtain ⟨column, viewed, same⟩ := Option.map_eq_some_iff.mp found
  simp only [Prod.mk.injEq] at same
  unfold oneNull at made
  obtain ⟨⟨_, first⟩, loaded, made⟩ := Option.bind_eq_some_iff.mp made
  obtain ⟨⟨_, second⟩, nulled, made⟩ := Option.bind_eq_some_iff.mp made
  cases made
  exact ⟨_, .call (.call (.fresh 64) loaded) nulled, column, viewed, same⟩

theorem scanAgrees_iff_masked :
    ∃ engine : Analytics ℚ, Live noNumber engine ∧
      engine.catalog.ScanAgrees 0 (blankScan.prepared 6 7 AGG_COUNT)
        (scanQueryOf 7 6 AGG_COUNT) := by
  obtain ⟨engine, live, column, seen, u32, nulls, bytes⟩ := exists_oneNull
  refine ⟨engine, live,
    (scanAgrees_iff live seen u32 blankScan 6 AGG_COUNT 0).mpr ?_⟩
  obtain ⟨ty, content, mask⟩ := column
  subst u32 nulls bytes
  unfold ColumnView.HidesNulls
  dsimp only
  decide +kernel

/-- Above zero the scan counts the NULL row as well. -/
theorem scan_counts_null :
    ∃ engine : Analytics ℚ, Live noNumber engine ∧
      (∃ column, engine.catalog.view 7 = some column ∧ column.type = .U32) ∧
      ¬ engine.catalog.ScanAgrees 0 (blankScan.prepared 0 7 AGG_COUNT)
        (scanQueryOf 7 0 AGG_COUNT) := by
  obtain ⟨engine, live, column, seen, u32, nulls, bytes⟩ := exists_oneNull
  refine ⟨engine, live, ⟨column, seen, u32⟩, ?_⟩
  intro agrees
  have hides := (Catalog.scanAgrees_iff_hides live.settled.wellFormed seen u32
    blankScan 0 AGG_COUNT 0).mp agrees
  obtain ⟨ty, content, mask⟩ := column
  subst u32 nulls bytes
  revert hides
  unfold ColumnView.HidesNulls
  dsimp only
  decide +kernel

end Analytics

end MatrixDB
