import MatrixDB.Catalog.Reference
import MatrixDB.Catalog.Totality
import MatrixDB.Lib.Classes
import MatrixDB.Lib.FloatCount
import MatrixDB.Query.Grammar

/-!
# The number of groups of a parsed query

A parsed `GROUP BY` asks for one group more than the largest key, in 32 bits.
Rows whose key is not below the number of groups are skipped by every grouped
loop, so the number decides whether a row is lost.
-/

namespace MatrixDB

open Lib ColumnView

/-! ## The rows a query takes, whatever the type of its value column -/

/-- The filter of a query on the value column itself. -/
def ColumnView.hits (column : ColumnView) (q : MatrixQuery) (row : Nat) :
    Bool :=
  match column.type with
  | .U32 => matrixPredMatch (u32At column.bytes row) q.pred
  | .I64 => matrixPredMatchI64 (i64At column.bytes row) q.predI64
  | .F64 => matrixPredMatchF64 (f64At column.bytes row) q.predF64

/-- The rows that pass the filter of a query. -/
def MatrixQuery.takes (q : MatrixQuery) (value : ColumnView)
    (filter : Option ColumnView) (row : Nat) : Bool :=
  if q.crossFilter then
    match filter with
    | some f => matrixPredMatch (u32At f.bytes row) q.pred
    | none => false
  else !q.hasFilter || value.hits q row

def MatrixQuery.taken (q : MatrixQuery) (value : ColumnView)
    (filter : Option ColumnView) : List Nat :=
  (List.range value.rows).filter (q.takes value filter)

section
variable {V A : Type} {value : ColumnView} {K : AggKernel V A}
  {read : Bytes → Nat → V} {hit : MatrixQuery → V → Bool}

theorem hit_eq (element : ElementKernel value.type K read hit)
    (q : MatrixQuery) (row : Nat) :
    hit q (read value.bytes row) = value.hits q row := by
  unfold ColumnView.hits
  generalize value.type = ty at element
  cases element with
  | u32 => rfl
  | i64 => rfl
  | f64 => rfl

theorem takes_cross {q : MatrixQuery} (cross : q.crossFilter = true)
    (value f : ColumnView) :
    q.takes value (some f) =
      fun row => matrixPredMatch (u32At f.bytes row) q.pred := by
  funext row
  simp [MatrixQuery.takes, cross]

theorem takes_own {q : MatrixQuery} (own : q.crossFilter = false)
    (value : ColumnView) (filter : Option ColumnView) :
    q.takes value filter = fun row => !q.hasFilter || value.hits q row := by
  funext row
  simp [MatrixQuery.takes, own]

/-- The rows of one group, as the grouped loops find them. -/
theorem classOf_taken (q : MatrixQuery) (value k : ColumnView)
    (filter : Option ColumnView) (g : Nat) :
    classOf (wordAt (some k)) (q.taken value filter) g =
      (List.range value.rows).filter fun row =>
        q.takes value filter row && (u32At k.bytes row).toNat = g := by
  rw [classOf, MatrixQuery.taken, List.filter_filter]
  apply List.filter_congr
  intro row _
  exact Bool.and_comm _ _

theorem groupRows_taken (q : MatrixQuery) (k : ColumnView)
    (filter : Option ColumnView) :
    (K.groupRows q.agg value.rows q.numGroups (q.takes value filter)
        (u32At k.bytes) (read value.bytes)).map K.encode =
      (List.range q.numGroups.toNat).map fun g =>
        K.encode (K.fold q.agg
          ((classOf (wordAt (some k)) (q.taken value filter) g).map
            (read value.bytes))) := by
  rw [K.groupRows_eq, List.map_map]
  apply List.map_congr_left
  intro g _
  rw [Function.comp_apply, classOf_taken]

/-- A grouped answer is one fold for each group. -/
theorem answered_groups (element : ElementKernel value.type K read hit)
    (unmasked : value.nulls = none) {maxGroups : UInt32} {q : MatrixQuery}
    (grouped : q.grouped = true) {key filter : Option ColumnView}
    {out : List UInt64}
    (answered : Answered maxGroups q value key filter out) :
    ∃ k, key = some k ∧ Admitted maxGroups q value k ∧
      out = (List.range q.numGroups.toNat).map fun g =>
        K.encode (K.fold q.agg
          ((classOf (wordAt key) (q.taken value filter) g).map
            (read value.bytes))) := by
  cases answered with
  | scalarCross _ scalar =>
      rw [grouped] at scalar
      cases scalar
  | nullable _ scalar =>
      rw [grouped] at scalar
      cases scalar
  | scan _ scalar =>
      rw [grouped] at scalar
      cases scalar
  | @groupedCross k f cross _ keyed admitted found u32 aligned result =>
      refine ⟨k, keyed, admitted, ?_⟩
      have keysFit := words_fit admitted.keyU32 admitted.aligned
      have filterFit := words_fit u32 aligned
      rw [admitted.aligned, element.reduceGroupedCross_eq q keysFit filterFit
        (rows_fit value), AggKernel.groupReduceFilteredBy] at result
      rw [keyed, found, ← groupRows_taken, takes_cross cross]
      exact (Option.some.inj result).symm
  | @grouped k own _ keyed admitted lengths result =>
      refine ⟨k, keyed, admitted, ?_⟩
      have keysFit := words_fit admitted.keyU32 admitted.aligned
      have noNulls : value.rowNulls value.rows = none := by
        simp [ColumnView.rowNulls, unmasked]
      rw [noNulls, element.reduceGrouped_eq q keysFit (rows_fit value)]
        at result
      rw [keyed, ← groupRows_taken, takes_own own]
      apply Option.some.inj
      rw [← result]
      cases filtered : q.hasFilter with
      | true =>
          simp [AggKernel.groupReduceImpl, liveRows, hit_eq element]
      | false => simp [AggKernel.groupReduceImpl, liveRows]

/-- A scalar answer is one fold; unfiltered loops have their own code. -/
theorem answered_scalar (element : ElementKernel value.type K read hit)
    (unmasked : value.nulls = none) {maxGroups : UInt32} {q : MatrixQuery}
    (scalar : q.grouped = false) {key filter : Option ColumnView}
    {out : List UInt64}
    (answered : Answered maxGroups q value key filter out) :
    out = [K.encode (if q.hasFilter then
      K.fold q.agg ((q.taken value filter).map (read value.bytes))
      else K.reduceAll (read value.bytes) value.rows q.agg)] := by
  cases answered with
  | groupedCross _ grouped =>
      rw [scalar] at grouped
      cases grouped
  | grouped _ grouped =>
      rw [scalar] at grouped
      cases grouped
  | nullable _ _ masked =>
      rw [unmasked] at masked
      cases masked
  | @scalarCross f cross _ found u32 aligned result =>
      have filtered : q.hasFilter = true := by
        simp only [MatrixQuery.crossFilter, Bool.and_eq_true] at cross
        exact cross.1.1
      have filterFit := words_fit u32 aligned
      rw [aligned, element.reduceCross_eq q filterFit (rows_fit value),
        AggKernel.reduceFilteredBy, K.reduceRows_eq] at result
      rw [if_pos filtered, found, MatrixQuery.taken, takes_cross cross]
      exact (Option.some.inj result).symm
  | scan own _ _ result =>
      rw [element.reduceScalar_eq q (rows_fit value)] at result
      rw [MatrixQuery.taken, takes_own own]
      apply Option.some.inj
      rw [← result]
      cases filtered : q.hasFilter with
      | true =>
          simp [AggKernel.reducePred, liveRows, hit_eq element,
            K.reduceRows_eq, one]
      | false => simp [one]

end

/-! ## Every aggregate of the two forms is answered -/

section
variable {value : ColumnView} {maxGroups : UInt32} {q : MatrixQuery}
  {key filter : Option ColumnView} {out : List UInt64}

theorem exists_answered_grouped (grouped : q.grouped = true)
    (answered : Answered maxGroups q value key filter out)
    (op : MatrixAggOp) :
    ∃ groups, Answered maxGroups { q with agg := op } value key filter
      groups := by
  cases answered with
  | scalarCross _ scalar =>
      rw [grouped] at scalar
      cases scalar
  | nullable _ scalar =>
      rw [grouped] at scalar
      cases scalar
  | scan _ scalar =>
      rw [grouped] at scalar
      cases scalar
  | @groupedCross k f cross _ keyed admitted found u32 aligned _ =>
      obtain ⟨groups, result⟩ := Option.isSome_iff_exists.mp
        (isSome_reduceGroupedCross (q := { q with agg := op })
          admitted.keyU32 admitted.aligned u32 aligned)
      rw [← admitted.aligned] at result
      exact ⟨groups, .groupedCross cross grouped keyed
        ⟨admitted.distinct, admitted.nonzero, admitted.bounded,
          admitted.keyU32, admitted.aligned⟩ found u32 aligned result⟩
  | @grouped k own _ keyed admitted lengths _ =>
      obtain ⟨groups, result⟩ := Option.isSome_iff_exists.mp
        (isSome_reduceGrouped (q := { q with agg := op }) admitted.keyU32
          admitted.aligned)
      exact ⟨groups, .grouped own grouped keyed
        ⟨admitted.distinct, admitted.nonzero, admitted.bounded,
          admitted.keyU32, admitted.aligned⟩ lengths result⟩

theorem exists_answered_scalar (unmasked : value.nulls = none)
    (grouped : q.grouped = true)
    (answered : Answered maxGroups q value key filter out)
    (op : MatrixAggOp) (other : Option ColumnView) :
    ∃ scalar, Answered maxGroups { q.ungrouped with agg := op } value other
      filter [scalar] := by
  cases answered with
  | scalarCross _ scalar =>
      rw [grouped] at scalar
      cases scalar
  | nullable _ scalar =>
      rw [grouped] at scalar
      cases scalar
  | scan _ scalar =>
      rw [grouped] at scalar
      cases scalar
  | @groupedCross k f cross _ keyed admitted found u32 aligned _ =>
      obtain ⟨scalar, result⟩ := Option.isSome_iff_exists.mp
        (isSome_reduceCross (q := { q.ungrouped with agg := op }) u32 aligned)
      rw [← aligned] at result
      exact ⟨scalar, .scalarCross cross rfl found u32 aligned
        (congrArg one result)⟩
  | @grouped k own _ keyed admitted lengths _ =>
      obtain ⟨scalar, result⟩ := Option.isSome_iff_exists.mp
        (isSome_reduceScalar { q.ungrouped with agg := op } value)
      exact ⟨scalar, .scan own rfl unmasked (congrArg one result)⟩

end

/-! ## Counts -/

/-- What counting so many rows of a column answers. -/
def countBits (ty : MatrixType) (rows : Nat) : UInt64 :=
  match ty with
  | .F64 => (Float.ofNat rows).toBits
  | _ => UInt64.ofNat rows

/-- A count is exact while its type holds it. -/
def Countable (ty : MatrixType) (rows : Nat) : Prop :=
  match ty with
  | .F64 => rows < 2 ^ 53
  | _ => rows < 2 ^ 64

theorem Countable.mono {ty : MatrixType} {fewer more : Nat}
    (countable : Countable ty more) (below : fewer ≤ more) :
    Countable ty fewer := by
  cases ty with
  | U32 => exact Nat.lt_of_le_of_lt below countable
  | I64 => exact Nat.lt_of_le_of_lt below countable
  | F64 => exact Nat.lt_of_le_of_lt below countable

theorem ofNat_inj {a b : Nat} (aFits : a < 2 ^ 64) (bFits : b < 2 ^ 64)
    (same : UInt64.ofNat a = UInt64.ofNat b) : a = b := by
  have numbers := congrArg UInt64.toNat same
  rwa [UInt64.toNat_ofNat_of_lt' aFits, UInt64.toNat_ofNat_of_lt' bFits]
    at numbers

theorem countBits_inj {ty : MatrixType} {a b : Nat} (aFits : Countable ty a)
    (bFits : Countable ty b) (same : countBits ty a = countBits ty b) :
    a = b := by
  cases ty with
  | F64 => exact toBits_ofNat_inj aFits bFits same
  | U32 => exact ofNat_inj aFits bFits same
  | I64 => exact ofNat_inj aFits bFits same

theorem countBits_zero (ty : MatrixType) : countBits ty 0 = 0 := by
  cases ty with
  | U32 => rfl
  | I64 => rfl
  | F64 => exact toBits_zero

/-- The sum of results, in the arithmetic of the column. -/
def addResults (ty : MatrixType) (results : List UInt64) : UInt64 :=
  match ty with
  | .F64 =>
      (results.foldl (fun sum result => sum + Float.ofBits result) 0.0).toBits
  | _ => results.foldl (· + ·) 0

theorem float_zero : (0.0 : Float) = Float.ofNat 0 := by
  apply Float.toBits_inj.mp
  decide +kernel

theorem float_one : (1.0 : Float) = Float.ofNat 1 := by
  apply Float.toBits_inj.mp
  decide +kernel

theorem foldl_add_counts (counts : List Nat) (start : Nat)
    (small : start + counts.sum < 2 ^ 53) :
    (counts.map (countBits .F64)).foldl
        (fun sum result => sum + Float.ofBits result) (Float.ofNat start) =
      Float.ofNat (start + counts.sum) := by
  induction counts generalizing start with
  | nil => rfl
  | cons count counts induction =>
      rw [List.sum_cons] at small
      rw [List.map_cons, List.foldl_cons, countBits, Float.ofBits_toBits,
        ofNat_add_ofNat (by omega), induction _ (by omega), List.sum_cons,
        Nat.add_assoc]

theorem foldl_add_words (counts : List Nat) (start : UInt64) :
    (counts.map UInt64.ofNat).foldl (· + ·) start =
      start + UInt64.ofNat counts.sum := by
  induction counts generalizing start with
  | nil => exact (UInt64.add_zero _).symm
  | cons count counts induction =>
      rw [List.map_cons, List.foldl_cons, induction, List.sum_cons,
        UInt64.ofNat_add, UInt64.add_assoc]

/-- Counts add up to the count of all. -/
theorem addResults_counts {ty : MatrixType} {counts : List Nat}
    (countable : Countable ty counts.sum) :
    addResults ty (counts.map (countBits ty)) = countBits ty counts.sum := by
  cases ty with
  | F64 =>
      have small : 0 + counts.sum < 2 ^ 53 := by
        rw [Nat.zero_add]
        exact countable
      have added := foldl_add_counts counts 0 small
      rw [← float_zero, Nat.zero_add] at added
      exact congrArg Float.toBits added
  | U32 =>
      have added := foldl_add_words counts 0
      rwa [UInt64.zero_add] at added
  | I64 =>
      have added := foldl_add_words counts 0
      rwa [UInt64.zero_add] at added

section
variable {V A : Type} {ty : MatrixType} {K : AggKernel V A}
  {read : Bytes → Nat → V} {hit : MatrixQuery → V → Bool}

theorem fold_count_f64 (values : List Float) (start : Nat)
    (small : start + values.length < 2 ^ 53) :
    values.foldl (f64Kernel.groupStep AGG_COUNT) (Float.ofNat start) =
      Float.ofNat (start + values.length) := by
  induction values generalizing start with
  | nil => rfl
  | cons v values induction =>
      rw [List.length_cons] at small
      have step : f64Kernel.groupStep AGG_COUNT (Float.ofNat start) v =
          Float.ofNat (start + 1) := by
        rw [← ofNat_add_ofNat (by omega), ← float_one]
        rfl
      rw [List.foldl_cons, step, induction _ (by omega), List.length_cons]
      congr 1
      omega

theorem integerAggregate_count (least greatest : Int) (values : List Int) :
    integerAggregate least greatest AGG_COUNT values =
      UInt64.ofNat values.length := by
  simp [integerAggregate, AGG_COUNT, AGG_SUM, AGG_MIN, AGG_MAX]

/-- Counting is the same for every type, up to the encoding. -/
theorem encode_count (element : ElementKernel ty K read hit)
    {values : List V} (countable : Countable ty values.length) :
    K.encode (K.fold AGG_COUNT values) = countBits ty values.length := by
  cases element with
  | u32 =>
      rw [u32Kernel_integer.encode_fold, integerAggregate_count,
        List.length_map]
      rfl
  | i64 =>
      rw [i64Kernel_integer.encode_fold, integerAggregate_count,
        List.length_map]
      rfl
  | f64 =>
      have small : 0 + values.length < 2 ^ 53 := by
        rw [Nat.zero_add]
        exact countable
      have counted := fold_count_f64 values 0 small
      rw [← float_zero, Nat.zero_add] at counted
      exact congrArg Float.toBits counted

theorem encode_ofRows (element : ElementKernel ty K read hit) (rows : Nat) :
    K.encode (K.ofRows rows) = countBits ty rows := by
  cases element with
  | u32 => rfl
  | i64 => rfl
  | f64 => rfl

end

/-! ## No row is lost -/

/-- The number that a result of an integer column stands for. -/
def resultValue (ty : MatrixType) (result : UInt64) : Int :=
  match ty with
  | .U32 => result.toNat
  | _ => result.toInt64.toInt

/-- The results of the groups that count a row. -/
def occupiedResults (counts results : List UInt64) : List UInt64 :=
  ((counts.zip results).filter fun pair => pair.1 != 0).map (·.2)

section
variable {κ : Type} [CostArith κ]

/-- One aggregate of a query, with its `GROUP BY` and without it. -/
structure Both (catalog : Catalog κ) (q : MatrixQuery) (op : MatrixAggOp)
    (groups : List UInt64) (scalar : UInt64) : Prop where
  grouped : ∃ ns after, catalog.executeQuery ns { q with agg := op } =
    some (.OK, groups, after)
  scalar : ∃ ns after,
    catalog.executeQuery ns { q.ungrouped with agg := op } =
      some (.OK, [scalar], after)

/-- The groups of a query hold all the rows it takes, as far as the
aggregates can tell. -/
structure LosesNoRow (catalog : Catalog κ) (q : MatrixQuery)
    (ty : MatrixType) : Prop where
  counts : ∃ groups scalar, Both catalog q AGG_COUNT groups scalar ∧
    addResults ty groups = scalar
  sums : ty ≠ .F64 → ∃ groups scalar, Both catalog q AGG_SUM groups scalar ∧
    addResults ty groups = scalar
  least : ty ≠ .F64 → ∀ counts rows, Both catalog q AGG_COUNT counts rows →
    rows ≠ 0 → ∃ groups scalar, Both catalog q AGG_MIN groups scalar ∧
      ((occupiedResults counts groups).map (resultValue ty)).min? =
        some (resultValue ty scalar)
  greatest : ty ≠ .F64 → ∀ counts rows, Both catalog q AGG_COUNT counts rows →
    rows ≠ 0 → ∃ groups scalar, Both catalog q AGG_MAX groups scalar ∧
      ((occupiedResults counts groups).map (resultValue ty)).max? =
        some (resultValue ty scalar)

end

/-! ## What the engine answers to both forms -/

section
variable {κ : Type} [SoundCost κ] {catalog : Catalog κ}
  (wellFormed : catalog.WellFormed) {q : MatrixQuery}
  (grouped : q.grouped = true) {value : ColumnView}
  (seen : catalog.view q.valueCol = some value)
  (unmasked : value.nulls = none) {ns : UInt64} {out : List UInt64}
  {after : Catalog κ}
  (ok : catalog.executeQuery ns q = some (.OK, out, after))
  {V A : Type} {K : AggKernel V A} {read : Bytes → Nat → V}
  {hit : MatrixQuery → V → Bool}
  (element : ElementKernel value.type K read hit)

/-- The fold of one group. -/
def groupFold (catalog : Catalog κ) (K : AggKernel V A)
    (read : Bytes → Nat → V) (q : MatrixQuery) (value : ColumnView)
    (op : MatrixAggOp) (g : Nat) : A :=
  K.fold op ((classOf (wordAt (catalog.view q.keyCol))
    (q.taken value (catalog.view q.filterCol)) g).map (read value.bytes))

/-- The fold of all the rows. -/
def scalarFold (catalog : Catalog κ) (K : AggKernel V A)
    (read : Bytes → Nat → V) (q : MatrixQuery) (value : ColumnView)
    (op : MatrixAggOp) : A :=
  if q.hasFilter then
    K.fold op ((q.taken value (catalog.view q.filterCol)).map
      (read value.bytes))
  else K.reduceAll (read value.bytes) value.rows op

include wellFormed grouped seen unmasked ok element

theorem both_iff (op : MatrixAggOp) (groups : List UInt64)
    (scalar : UInt64) :
    Both catalog q op groups scalar ↔
      groups = (List.range q.numGroups.toNat).map (fun g =>
        K.encode (groupFold catalog K read q value op g)) ∧
      scalar = K.encode (scalarFold catalog K read q value op) := by
  obtain ⟨other, same, answered⟩ :=
    (Catalog.executeQuery_ok wellFormed).mp ⟨after, ok⟩
  cases seen.symm.trans same
  have unique : ∀ {groups}, Answered catalog.maxQueryGroups
      { q with agg := op } value (catalog.view q.keyCol)
      (catalog.view q.filterCol) groups →
      groups = (List.range q.numGroups.toNat).map fun g =>
        K.encode (groupFold catalog K read q value op g) := by
    intro groups answered
    obtain ⟨k, keyed, _, result⟩ :=
      answered_groups (q := { q with agg := op }) element unmasked grouped
        answered
    exact result
  have uniqueScalar : ∀ {scalar}, Answered catalog.maxQueryGroups
      { q.ungrouped with agg := op } value (catalog.view 0)
      (catalog.view q.filterCol) [scalar] →
      scalar = K.encode (scalarFold catalog K read q value op) := by
    intro scalar answered
    have result := answered_scalar (q := { q.ungrouped with agg := op })
      element unmasked rfl answered
    exact (List.cons.inj result).1
  constructor
  · intro both
    obtain ⟨ns, after, ran⟩ := both.grouped
    obtain ⟨ns', after', ran'⟩ := both.scalar
    obtain ⟨one, oneSeen, answered⟩ :=
      (Catalog.executeQuery_ok wellFormed).mp ⟨after, ran⟩
    obtain ⟨two, twoSeen, answered'⟩ :=
      (Catalog.executeQuery_ok wellFormed).mp ⟨after', ran'⟩
    cases seen.symm.trans oneSeen
    cases seen.symm.trans twoSeen
    exact ⟨unique answered, uniqueScalar answered'⟩
  · rintro ⟨rfl, rfl⟩
    obtain ⟨groups, one⟩ := exists_answered_grouped grouped answered op
    obtain ⟨scalar, two⟩ := exists_answered_scalar unmasked grouped answered
      op (catalog.view 0)
    rw [← unique one, ← uniqueScalar two]
    constructor
    · have ran : ∃ after, catalog.executeQuery ns { q with agg := op } =
          some (.OK, groups, after) :=
        (Catalog.executeQuery_ok wellFormed).mpr ⟨value, seen, one⟩
      exact ⟨ns, ran⟩
    · have ran : ∃ after, catalog.executeQuery ns
          { q.ungrouped with agg := op } = some (.OK, [scalar], after) :=
        (Catalog.executeQuery_ok wellFormed).mpr ⟨value, seen, two⟩
      exact ⟨ns, ran⟩

omit wellFormed grouped seen unmasked ok element in
theorem length_taken_le (q : MatrixQuery) (value : ColumnView)
    (filter : Option ColumnView) :
    (q.taken value filter).length ≤ value.rows := by
  have fewer := List.length_filter_le (q.takes value filter)
    (List.range value.rows)
  rwa [List.length_range] at fewer

omit [SoundCost κ] wellFormed grouped seen unmasked ok in
theorem encode_groupFold_count (countable : Countable value.type value.rows)
    (g : Nat) :
    K.encode (groupFold catalog K read q value AGG_COUNT g) =
      countBits value.type (classOf (wordAt (catalog.view q.keyCol))
        (q.taken value (catalog.view q.filterCol)) g).length := by
  have fewer : (classOf (wordAt (catalog.view q.keyCol))
      (q.taken value (catalog.view q.filterCol)) g).length ≤ value.rows :=
    Nat.le_trans (List.length_filter_le _ _) (length_taken_le _ _ _)
  rw [groupFold, encode_count element]
  · rw [List.length_map]
  · rw [List.length_map]
    exact countable.mono fewer

omit [SoundCost κ] wellFormed grouped seen unmasked ok in
theorem encode_scalarFold_count (countable : Countable value.type value.rows) :
    K.encode (scalarFold catalog K read q value AGG_COUNT) =
      countBits value.type
        (q.taken value (catalog.view q.filterCol)).length := by
  unfold scalarFold
  cases filtered : q.hasFilter with
  | true =>
      rw [if_pos rfl, encode_count element]
      · rw [List.length_map]
      · rw [List.length_map]
        exact countable.mono (length_taken_le _ _ _)
  | false =>
      have own : q.crossFilter = false := by
        simp [MatrixQuery.crossFilter, filtered]
      have all : q.taken value (catalog.view q.filterCol) =
          List.range value.rows := by
        rw [MatrixQuery.taken, takes_own own, filtered]
        exact List.filter_eq_self.mpr fun _ _ => rfl
      have counting : K.reduceAll (read value.bytes) value.rows AGG_COUNT =
          K.ofRows value.rows := by
        simp [AggKernel.reduceAll, AGG_COUNT, AGG_SUM, AGG_MIN, AGG_MAX]
      rw [if_neg Bool.false_ne_true, counting, encode_ofRows element, all,
        List.length_range]

/-- The counts of the groups add up if and only if the key of every taken row
is a group. -/
theorem counts_add_up_iff (countable : Countable value.type value.rows) :
    (∃ groups scalar, Both catalog q AGG_COUNT groups scalar ∧
      addResults value.type groups = scalar) ↔
      ∀ row ∈ q.taken value (catalog.view q.filterCol),
        wordAt (catalog.view q.keyCol) row < q.numGroups.toNat := by
  have both := both_iff wellFormed grouped seen unmasked ok element AGG_COUNT
  have inGroups := length_classes (wordAt (catalog.view q.keyCol))
    (q.taken value (catalog.view q.filterCol)) q.numGroups.toNat
  have fewer := List.length_filter_le
    (fun row => decide (wordAt (catalog.view q.keyCol) row <
      q.numGroups.toNat)) (q.taken value (catalog.view q.filterCol))
  have most := length_taken_le q value (catalog.view q.filterCol)
  have added : addResults value.type (((List.range q.numGroups.toNat).map
      fun g => (classOf (wordAt (catalog.view q.keyCol))
        (q.taken value (catalog.view q.filterCol)) g).length).map
          (countBits value.type)) = _ :=
    addResults_counts (countable.mono (by rw [inGroups]; omega))
  rw [inGroups, List.map_map] at added
  simp only [both, encode_groupFold_count element countable,
    encode_scalarFold_count element countable]
  constructor
  · rintro ⟨_, _, ⟨rfl, rfl⟩, adds⟩ row member
    have same := countBits_inj (countable.mono (by omega))
      (countable.mono most) (added.symm.trans adds)
    simpa using List.length_filter_eq_length_iff.mp same row member
  · intro inside
    refine ⟨_, _, ⟨rfl, rfl⟩, added.trans ?_⟩
    rw [List.filter_eq_self.mpr (by simpa using inside)]

end

/-! ## Sums and extremes over integers -/

section
variable {κ : Type} {catalog : Catalog κ} {q : MatrixQuery}
  {value : ColumnView} {V A : Type} {K : AggKernel V A}
  {read : Bytes → Nat → V} {hit : MatrixQuery → V → Bool} {val : V → Int}
  {acc : A → Int} (column : IntegerColumn value K read hit val acc)

include column

theorem encode_fold_integer (op : MatrixAggOp) (rows : List Nat) :
    K.encode (K.fold op (rows.map (read value.bytes))) =
      integerAggregate value.leastOfNone value.greatestOfNone op
        (rows.map value.integerAt) := by
  rw [column.integer.encode_fold, column.least, column.greatest,
    List.map_map]
  congr 1
  apply List.map_congr_left
  intro row _
  exact column.valueAt row

theorem encode_scalarFold_integer (op : MatrixAggOp) :
    K.encode (scalarFold catalog K read q value op) =
      integerAggregate value.leastOfNone value.greatestOfNone op
        ((q.taken value (catalog.view q.filterCol)).map
          value.integerAt) := by
  rw [← encode_fold_integer column]
  unfold scalarFold
  cases filtered : q.hasFilter with
  | true => rfl
  | false =>
      have own : q.crossFilter = false := by
        simp [MatrixQuery.crossFilter, filtered]
      have all : q.taken value (catalog.view q.filterCol) =
          List.range value.rows := by
        rw [MatrixQuery.taken, takes_own own, filtered]
        exact List.filter_eq_self.mpr fun _ _ => rfl
      rw [if_neg Bool.false_ne_true, K.reduceAll_eq column.integer.counts, all]

end

theorem integerAggregate_sum (least greatest : Int) (values : List Int) :
    integerAggregate least greatest AGG_SUM values =
      UInt64.ofInt values.sum := by
  simp [integerAggregate, AGG_SUM]

theorem integerAggregate_min {least greatest m : Int} {values : List Int}
    (smallest : values.min? = some m) :
    integerAggregate least greatest AGG_MIN values = UInt64.ofInt m := by
  simp [integerAggregate, AGG_SUM, AGG_MIN, smallest]

theorem integerAggregate_max {least greatest m : Int} {values : List Int}
    (largest : values.max? = some m) :
    integerAggregate least greatest AGG_MAX values = UInt64.ofInt m := by
  simp [integerAggregate, AGG_SUM, AGG_MIN, AGG_MAX, largest]

theorem foldl_add_integers (sums : List Int) (start : UInt64) :
    (sums.map UInt64.ofInt).foldl (· + ·) start =
      start + UInt64.ofInt sums.sum := by
  induction sums generalizing start with
  | nil => exact (UInt64.add_zero _).symm
  | cons sum sums induction =>
      rw [List.map_cons, List.foldl_cons, induction, List.sum_cons,
        UInt64.ofInt_add, UInt64.add_assoc]

theorem addResults_integers {ty : MatrixType} (integer : ty ≠ .F64)
    (sums : List Int) :
    addResults ty (sums.map UInt64.ofInt) = UInt64.ofInt sums.sum := by
  have added := foldl_add_integers sums 0
  rw [UInt64.zero_add] at added
  cases ty with
  | U32 => exact added
  | I64 => exact added
  | F64 => exact absurd rfl integer

/-- A value of a column survives its encoding. -/
theorem resultValue_ofInt {value : ColumnView} (row : Nat) :
    resultValue value.type (UInt64.ofInt (value.integerAt row)) =
      value.integerAt row := by
  unfold resultValue ColumnView.integerAt
  cases value.type with
  | U32 =>
      have bound := (u32At value.bytes row).toNat_lt
      have narrow : ((u32At value.bytes row).toNat : Int) % 2 ^ 64 =
          (u32At value.bytes row).toNat := by omega
      simp only [UInt64.ofInt, narrow, Int.toNat_natCast]
      rw [UInt64.toNat_ofNat_of_lt' (by simp only [UInt64.size]; omega)]
  | I64 =>
      rw [← toUInt64_eq_ofInt]
      rfl
  | F64 =>
      rw [← toUInt64_eq_ofInt]
      rfl

section
variable {κ : Type} [SoundCost κ] {catalog : Catalog κ}
  (wellFormed : catalog.WellFormed) {q : MatrixQuery}
  (grouped : q.grouped = true) {value : ColumnView}
  (seen : catalog.view q.valueCol = some value)
  (unmasked : value.nulls = none) {ns : UInt64} {out : List UInt64}
  {after : Catalog κ}
  (ok : catalog.executeQuery ns q = some (.OK, out, after))
  (integer : value.type ≠ .F64)
  (covered : ∀ row ∈ q.taken value (catalog.view q.filterCol),
    wordAt (catalog.view q.keyCol) row < q.numGroups.toNat)

theorem integer_column {value : ColumnView} (integer : value.type ≠ .F64) :
    value.type = .U32 ∨ value.type = .I64 := by
  cases ty : value.type with
  | U32 => exact .inl rfl
  | I64 => exact .inr rfl
  | F64 => exact absurd ty integer

include wellFormed grouped seen unmasked ok integer covered

theorem sums_add_up :
    ∃ groups scalar, Both catalog q AGG_SUM groups scalar ∧
      addResults value.type groups = scalar := by
  obtain ⟨V, A, K, read, hit, val, acc, column⟩ :=
    exists_integerColumn (integer_column integer)
  refine ⟨_, _, (both_iff wellFormed grouped seen unmasked ok column.element
    AGG_SUM _ _).mpr ⟨rfl, rfl⟩, ?_⟩
  have total := sum_classes (wordAt (catalog.view q.keyCol)) value.integerAt
    (q.taken value (catalog.view q.filterCol)) q.numGroups.toNat
  rw [List.filter_eq_self.mpr (by simpa using covered)] at total
  have added := addResults_integers integer
    ((List.range q.numGroups.toNat).map fun g =>
      ((classOf (wordAt (catalog.view q.keyCol))
        (q.taken value (catalog.view q.filterCol)) g).map
          value.integerAt).sum)
  rw [total, List.map_map] at added
  rw [encode_scalarFold_integer column, integerAggregate_sum, ← added]
  congr 1
  apply List.map_congr_left
  intro g _
  rw [groupFold, encode_fold_integer column, integerAggregate_sum]
  rfl

omit [SoundCost κ] wellFormed grouped seen unmasked ok integer covered in
theorem occupiedResults_map (groups : Nat) (counts results : Nat → UInt64) :
    occupiedResults ((List.range groups).map counts)
        ((List.range groups).map results) =
      ((List.range groups).filter fun g => counts g != 0).map results := by
  rw [occupiedResults, List.zip_map', List.filter_map, List.map_map]
  rfl

omit [SoundCost κ] wellFormed grouped seen unmasked ok integer covered in
/-- An aggregate that finds an element answers that element. -/
theorem resultValue_best {op : MatrixAggOp} {best : List Int → Option Int}
    {R : Int → Int → Prop} (finds : Finds best R)
    (aggregates : ∀ {least greatest m : Int} {values : List Int},
      best values = some m →
        integerAggregate least greatest op values = UInt64.ofInt m)
    {rows : List Nat} {m : Int}
    (found : best (rows.map value.integerAt) = some m) (least greatest : Int) :
    resultValue value.type (integerAggregate least greatest op
      (rows.map value.integerAt)) = m := by
  obtain ⟨row, _, same⟩ :=
    List.mem_map.mp ((finds.found _ _).mp found).1
  rw [aggregates found, ← same, resultValue_ofInt]

/-- The extremes, for an aggregate that finds one: `MIN` and `MAX` differ in
`best` and the order only. -/
theorem extremes_agree {op : MatrixAggOp} {best : List Int → Option Int}
    {R : Int → Int → Prop} (finds : Finds best R)
    (aggregates : ∀ {least greatest m : Int} {values : List Int},
      best values = some m →
        integerAggregate least greatest op values = UInt64.ofInt m)
    (countable : Countable value.type value.rows)
    {counts : List UInt64} {rows : UInt64}
    (counted : Both catalog q AGG_COUNT counts rows) (some_row : rows ≠ 0) :
    ∃ groups scalar, Both catalog q op groups scalar ∧
      best ((occupiedResults counts groups).map (resultValue value.type)) =
        some (resultValue value.type scalar) := by
  obtain ⟨V, A, K, read, hit, val, acc, column⟩ :=
    exists_integerColumn (integer_column integer)
  have both := both_iff wellFormed grouped seen unmasked ok column.element
  obtain ⟨rfl, rfl⟩ := (both AGG_COUNT _ _).mp counted
  refine ⟨_, _, (both op _ _).mpr ⟨rfl, rfl⟩, ?_⟩
  simp only [encode_groupFold_count column.element countable]
  rw [encode_scalarFold_count column.element countable] at some_row
  have most := length_taken_le q value (catalog.view q.filterCol)
  have nonempty : q.taken value (catalog.view q.filterCol) ≠ [] := by
    intro empty
    rw [empty, List.length_nil, countBits_zero] at some_row
    exact some_row rfl
  have exists_best : ∀ rows : List Nat, rows ≠ [] →
      ∃ m, best (rows.map value.integerAt) = some m := by
    intro rows occupied
    apply Option.ne_none_iff_exists'.mp
    intro none
    exact occupied (List.map_eq_nil_iff.mp (finds.nothing _ none))
  obtain ⟨m, whole⟩ := exists_best _ nonempty
  rw [occupiedResults_map, List.map_map, encode_scalarFold_integer column,
    resultValue_best finds aggregates whole]
  refine best_of_classes finds covered value.integerAt ?_ ?_ whole
  · intro g _
    have fewer : (classOf (wordAt (catalog.view q.keyCol))
        (q.taken value (catalog.view q.filterCol)) g).length ≤ value.rows :=
      Nat.le_trans (List.length_filter_le _ _) most
    rw [bne_iff_ne, Ne, not_iff_not]
    constructor
    · intro zero
      apply List.length_eq_zero_iff.mp
      apply countBits_inj (countable.mono fewer)
        (countable.mono (Nat.zero_le _))
      rw [zero, countBits_zero]
    · intro empty
      rw [empty, List.length_nil, countBits_zero]
  · intro g _ occupied
    have holds : classOf (wordAt (catalog.view q.keyCol))
        (q.taken value (catalog.view q.filterCol)) g ≠ [] := by
      intro empty
      rw [empty, List.length_nil, countBits_zero] at occupied
      simp at occupied
    obtain ⟨m, found⟩ := exists_best _ holds
    rw [found, Function.comp_apply, groupFold, encode_fold_integer column,
      resultValue_best finds aggregates found]

end

/-! ## The number of groups -/

namespace Catalog

variable {κ : Type} {catalog : Catalog κ}

theorem key_le_max (keys : Nat → UInt32) {n row : Nat} (inside : row < n) :
    (keys row).toNat ≤ (matrixCpuReduceAll keys n AGG_MAX).toNat := by
  have encoded := u32Kernel_integer.encode_reduceAll AGG_MAX n keys
  let values := (List.range n).map fun row => ((keys row).toNat : Int)
  have member : ((keys row).toNat : Int) ∈ values :=
    List.mem_map.mpr ⟨row, List.mem_range.mpr inside, rfl⟩
  cases largest : values.max? with
  | none =>
      rw [List.max?_eq_none_iff.mp largest] at member
      cases member
  | some m =>
      obtain ⟨among, bound⟩ := List.max?_eq_some_iff.mp largest
      obtain ⟨other, _, rfl⟩ := List.mem_map.mp among
      have small := (keys other).toNat_lt
      have found : matrixCpuReduceAll keys n AGG_MAX =
          UInt64.ofInt ((keys other).toNat : Int) :=
        encoded.trans (integerAggregate_max largest)
      have below := bound _ member
      have narrow : ((keys other).toNat : Int) % 2 ^ 64 =
          (keys other).toNat := by omega
      rw [found, UInt64.ofInt, narrow, Int.toNat_natCast,
        UInt64.toNat_ofNat_of_lt' (by simp only [UInt64.size]; omega)]
      omega

/-- One group more than the largest key, if that fits. -/
theorem key_lt_groups {key : UInt32} {mx : UInt64}
    (below : key.toNat ≤ mx.toNat) :
    key < (if 0xFFFFFFFF ≤ mx then 0xFFFFFFFF else (mx + 1).toUInt32) ∨
      key = 0xFFFFFFFF := by
  have bound := key.toNat_lt
  split
  · by_cases top : key = 0xFFFFFFFF
    · exact .inr top
    · left
      apply UInt32.lt_iff_toNat_lt.mpr
      have other : key.toNat ≠ 4294967295 := by
        intro same
        exact top (UInt32.toNat_inj.mp same)
      change key.toNat < 4294967295
      omega
  · rename_i fits
    left
    have small : mx.toNat < 4294967295 := by
      have above := mt UInt64.le_iff_toNat_le.mpr fits
      change ¬ 4294967295 ≤ mx.toNat at above
      omega
    apply UInt32.lt_iff_toNat_lt.mpr
    have sum : (mx + 1).toUInt32.toNat = mx.toNat + 1 := by
      rw [UInt64.toNat_toUInt32, UInt64.toNat_add]
      change (mx.toNat + 1) % 2 ^ 64 % 2 ^ 32 = _
      omega
    omega

/-- A key that is not below the number of groups is the largest of all. -/
theorem key_lt_keyGroups {bytes : Bytes} {row : Nat}
    (inside : row < bytes.length / 4) :
    u32At bytes row < keyGroups bytes ∨ u32At bytes row = 0xFFFFFFFF := by
  have occupied : bytes.length / 4 ≠ 0 := by omega
  have found := key_lt_groups (key_le_max (u32At bytes) inside)
  simpa only [keyGroups, if_neg occupied] using found

/-- The query of a string with a `GROUP BY` is the query of the clauses before
it, with the key and the derived number of groups. -/
theorem parseQuery_grouped (wellFormed : catalog.WellFormed)
    {strtod : Bytes → StrtodResult} {sql : Bytes} {q : MatrixQuery}
    {after : Catalog κ}
    (parsed : catalog.parseQuery strtod sql = some (.OK, q, after))
    (grouped : q.grouped = true) :
    ∃ aggs tokens bytes, catalog.parseHead strtod sql =
        .ok (aggs, q.ungrouped, tokens) ∧ peek tokens = ascii "GROUP" ∧
      catalog.contents q.keyCol = some bytes ∧
      q.numGroups = keyGroups bytes ∧ Keeps catalog after := by
  obtain ⟨aggs, filtered, rest, ⟨added, tokens⟩, head, group, tail⟩ :=
    parseQueryImpl_ok.mp (parseQuery_ok.mp parsed)
  obtain ⟨selected, behind, set, select, filter, rfl⟩ := parseHead_sound head
  obtain ⟨_, plain, unlimited⟩ := filter.frame selected
  rw [select.plain.1] at plain
  rw [select.plain.2] at unlimited
  unfold parseGroup at group
  split at group
  · rename_i seen
    split at group
    · cases group
    · rename_i kid tokens keyed
      obtain ⟨⟨groups, back⟩, derived, same⟩ :=
        Option.map_eq_some_iff.mp group
      cases same
      obtain ⟨bytes, held, rfl, keeps⟩ :=
        deriveNumGroupsU32_held wellFormed derived
      have none : ({ set selected with
          grouped := true
          keyCol := kid
          numGroups := keyGroups bytes } : MatrixQuery).limit = 0 := unlimited
      obtain ⟨limit, _, rfl⟩ := parseTail_sound none tail
      rw [← plain] at head
      exact ⟨aggs, rest, bytes, head, seen, held, rfl, keeps⟩
  · cases group
    have scalar : (set selected).grouped = false := by
      rw [← plain]
      rfl
    obtain ⟨_, rfl⟩ := (parseTail_scalar scalar).mp tail
    rw [scalar] at grouped
    cases grouped

end Catalog

/-! ## A parsed `GROUP BY` -/

section
variable {κ : Type} [SoundCost κ] {catalog : Catalog κ}
  (wellFormed : catalog.WellFormed) {q : MatrixQuery}
  {value : ColumnView} (seen : catalog.view q.valueCol = some value)

omit [SoundCost κ] in
include wellFormed seen in
/-- Rows of integers are counted exactly. -/
theorem countable_of_view
    (doubles : value.type = .F64 → value.rows < 2 ^ 53) :
    Countable value.type value.rows := by
  obtain ⟨bytes, held, rfl⟩ := Option.map_eq_some_iff.mp seen
  have sized := wellFormed.sized _ bytes held
  have fewer : bytes.length / (catalog.columnType q.valueCol).width ≤
      bytes.length := Nat.div_le_self _ _
  have small : bytes.length / (catalog.columnType q.valueCol).width <
      2 ^ 64 := by
    unfold MAX_VECTOR_BYTES at sized
    omega
  unfold Countable
  split
  · rename_i f64
    exact doubles f64
  · exact small

include wellFormed seen in
/-- A `GROUP BY` loses no row if and only if the key of every row it takes is
below the number of groups. -/
theorem losesNoRow_iff_covered (grouped : q.grouped = true)
    (unmasked : value.nulls = none) {ns : UInt64} {out : List UInt64}
    {after : Catalog κ}
    (ok : catalog.executeQuery ns q = some (.OK, out, after))
    (doubles : value.type = .F64 → value.rows < 2 ^ 53) :
    LosesNoRow catalog q value.type ↔
      ∀ row ∈ q.taken value (catalog.view q.filterCol),
        wordAt (catalog.view q.keyCol) row < q.numGroups.toNat := by
  have countable := countable_of_view wellFormed seen doubles
  obtain ⟨V, A, K, read, hit, element⟩ := exists_elementKernel value.type
  have counts := counts_add_up_iff wellFormed grouped seen unmasked ok element
    countable
  constructor
  · intro keeps
    exact counts.mp keeps.counts
  · intro covered
    constructor
    · exact counts.mpr covered
    · intro integer
      exact sums_add_up wellFormed grouped seen unmasked ok integer covered
    · intro integer _ _ counted occupied
      exact extremes_agree wellFormed grouped seen unmasked ok integer covered
        finds_min integerAggregate_min countable counted occupied
    · intro integer _ _ counted occupied
      exact extremes_agree wellFormed grouped seen unmasked ok integer covered
        finds_max integerAggregate_max countable counted occupied

/-- The groups of a parsed query hold every key but the largest. -/
theorem key_lt_numGroups (wellFormed : catalog.WellFormed)
    {strtod : Bytes → StrtodResult} {sql : Bytes} {after : Catalog κ}
    (parsed : catalog.parseQuery strtod sql = some (.OK, q, after))
    (grouped : q.grouped = true)
    (seen : after.view q.valueCol = some value)
    (unmasked : value.nulls = none) {ns : UInt64} {out : List UInt64}
    {done : Catalog κ}
    (ok : after.executeQuery ns q = some (.OK, out, done)) {row : Nat}
    (inside : row < value.rows) :
    wordAt (after.view q.keyCol) row < q.numGroups.toNat ↔
      wordAt (after.view q.keyCol) row ≠ 0xFFFFFFFF := by
  obtain ⟨_, _, bytes, _, _, held, derived, keeps⟩ :=
    Catalog.parseQuery_grouped wellFormed parsed grouped
  obtain ⟨other, same, answered⟩ :=
    (Catalog.executeQuery_ok keeps.wellFormed).mp ⟨done, ok⟩
  cases seen.symm.trans same
  obtain ⟨V, A, K, read, hit, element⟩ := exists_elementKernel value.type
  obtain ⟨k, keyed, admitted, _⟩ :=
    answered_groups element unmasked grouped answered
  have known := keyed
  rw [Catalog.view, keeps.contents, held] at known
  have content : k.bytes = bytes :=
    congrArg ColumnView.bytes (Option.some.inj known).symm
  have row_of_key : row < bytes.length / 4 := by
    have rows := admitted.aligned
    rw [ColumnView.rows, admitted.keyU32, content] at rows
    exact rows ▸ inside
  rw [keyed, derived]
  constructor
  · intro below top
    have narrow := (keyGroups bytes).toNat_lt
    omega
  · intro other
    rw [wordAt, content] at other ⊢
    rcases Catalog.key_lt_keyGroups row_of_key with below | top
    · exact UInt32.lt_iff_toNat_lt.mp below
    · rw [top] at other
      exact absurd rfl other

/-- A parsed `GROUP BY` that is answered loses no row if and only if no row it
takes has the largest key there is. -/
theorem losesNoRow_iff (wellFormed : catalog.WellFormed)
    {strtod : Bytes → StrtodResult} {sql : Bytes} {after : Catalog κ}
    (parsed : catalog.parseQuery strtod sql = some (.OK, q, after))
    (grouped : q.grouped = true)
    (seen : after.view q.valueCol = some value)
    (unmasked : value.nulls = none) {ns : UInt64} {out : List UInt64}
    {done : Catalog κ}
    (ok : after.executeQuery ns q = some (.OK, out, done))
    (doubles : value.type = .F64 → value.rows < 2 ^ 53) :
    LosesNoRow after q value.type ↔
      ∀ row ∈ q.taken value (after.view q.filterCol),
        wordAt (after.view q.keyCol) row ≠ 0xFFFFFFFF := by
  obtain ⟨_, _, _, _, _, _, _, keeps⟩ :=
    Catalog.parseQuery_grouped wellFormed parsed grouped
  rw [losesNoRow_iff_covered keeps.wellFormed seen grouped unmasked ok doubles]
  apply forall₂_congr
  intro row member
  have inside : row < value.rows :=
    List.mem_range.mp (List.mem_filter.mp member).1
  exact key_lt_numGroups wellFormed parsed grouped seen unmasked ok inside

end

/-! ## Two rows -/

/-- Two keys in column 1 and two values in column 2. -/
def shards (keys : List UInt32) : Option (Catalog ℚ) := do
  let catalog ← (Catalog.fresh 1024).loadScanColumn 1 keys
  let catalog ← catalog.loadScanColumn 2 [5, 7]
  let catalog ← catalog.nameColumn 1 (ascii "k")
  let catalog ← catalog.nameColumn 2 (ascii "v")
  some (catalog.setMaxQueryGroups 0xFFFFFFFF)

theorem wellFormed_shards {keys : List UInt32} {catalog : Catalog ℚ}
    (loaded : shards keys = some catalog) : catalog.WellFormed := by
  obtain ⟨first, loaded₁, rest⟩ := Option.bind_eq_some_iff.mp loaded
  obtain ⟨second, loaded₂, rest⟩ := Option.bind_eq_some_iff.mp rest
  obtain ⟨third, named₁, rest⟩ := Option.bind_eq_some_iff.mp rest
  obtain ⟨fourth, named₂, rest⟩ := Option.bind_eq_some_iff.mp rest
  cases rest
  have loads := Catalog.loadScanColumn_loads
    (Catalog.wellFormed_fresh 1024) loaded₁
  have loads' := Catalog.loadScanColumn_loads loads.wellFormed loaded₂
  apply Catalog.wellFormed_setMaxQueryGroups
  rw [Catalog.nameColumn_eq named₂, Catalog.nameColumn_eq named₁]
  exact Catalog.wellFormed_names
    (Catalog.wellFormed_names loads'.wellFormed _ _) _ _

def shardsValue : ColumnView :=
  { type := .U32, bytes := [5, 7].flatMap u32Bytes, nulls := none }

def shardsKey (keys : List UInt32) : ColumnView :=
  { type := .U32, bytes := keys.flatMap u32Bytes, nulls := none }

/-- A count by key of the two rows is parsed and answered. -/
theorem exists_counted {keys : List UInt32}
    (made : (shards keys).map (fun catalog => (catalog.columnId (ascii "v"),
        catalog.columnId (ascii "k"), catalog.columnType 1,
        catalog.maxQueryGroups)) = some (2, 1, .U32, 0xFFFFFFFF))
    (views : (shards keys).map (fun catalog => (catalog.view 1,
        catalog.view 2)) = some (some (shardsKey keys), some shardsValue))
    (two : (shardsKey keys).bytes.length = 8)
    (occupied : keyGroups (shardsKey keys).bytes ≠ 0) :
    ∃ catalog q after out done, shards keys = some catalog ∧
      catalog.WellFormed ∧ catalog.parseQuery (fun _ => ⟨0, 0, false⟩)
        (ascii "SELECT COUNT(v) GROUP BY k") = some (.OK, q, after) ∧
      q.grouped = true ∧ q.hasFilter = false ∧
      after.view q.valueCol = some shardsValue ∧
      after.view q.keyCol = some (shardsKey keys) ∧
      after.executeQuery 0 q = some (.OK, out, done) := by
  obtain ⟨catalog, loaded, facts⟩ := Option.map_eq_some_iff.mp made
  rw [loaded] at views
  simp only [Option.map_some, Option.some.injEq, Prod.mk.injEq] at facts views
  obtain ⟨value, key, u32, groups⟩ := facts
  obtain ⟨keyView, valueView⟩ := views
  have wellFormed := wellFormed_shards loaded
  have held : catalog.contents 1 = some (shardsKey keys).bytes := by
    obtain ⟨bytes, held, same⟩ := Option.map_eq_some_iff.mp keyView
    rw [held, ← same]
  let q : MatrixQuery :=
    { valueCol := 2, agg := AGG_COUNT, grouped := true, keyCol := 1
      numGroups := keyGroups (shardsKey keys).bytes }
  have tokens : matrixparseTokenize (ascii "SELECT COUNT(v) GROUP BY k") =
      [ascii "SELECT", ascii "COUNT", ascii "(", ascii "v", ascii ")",
        ascii "GROUP", ascii "BY", ascii "k"] := by decide +kernel
  have select : SelectClause catalog
      (matrixparseTokenize (ascii "SELECT COUNT(v) GROUP BY k"))
      (ascii "COUNT") { valueCol := 2, agg := AGG_COUNT }
      [ascii "GROUP", ascii "BY", ascii "k"] := by
    rw [tokens, ← value]
    refine .select (by decide) rfl ?_
    rw [value]
    decide
  have keyed : GroupKey catalog implemented
      [ascii "GROUP", ascii "BY", ascii "k"] 1 [] := by
    rw [← key]
    refine .named (by decide) (by decide) ?_ ?_
    · rw [key]
      decide
    · rw [key]
      exact u32
  have statement : Statement (fun _ => ⟨0, 0, false⟩) catalog implemented
      (matrixparseTokenize (ascii "SELECT COUNT(v) GROUP BY k")) q :=
    .query select .absent (.grouped keyed held .absent)
  obtain ⟨after, parsed⟩ := (parseQuery_ok_iff wellFormed).mpr statement
  obtain ⟨_, _, _, _, _, _, _, keeps⟩ :=
    Catalog.parseQuery_grouped wellFormed parsed rfl
  have aligned : (shardsKey keys).rows = shardsValue.rows := by
    rw [ColumnView.rows, two]
    rfl
  have reduces : (reduceGrouped shardsValue.type q (shardsKey keys).bytes
      shardsValue.bytes shardsValue.rows
      (shardsValue.rowNulls shardsValue.rows)).isSome :=
    isSome_reduceGrouped rfl aligned
  obtain ⟨out, result⟩ := Option.isSome_iff_exists.mp reduces
  have admitted : Admitted after.maxQueryGroups q shardsValue
      (shardsKey keys) := by
    refine ⟨(by decide : (1 : UInt64) ≠ 2), occupied, ?_, rfl, aligned⟩
    rw [keeps.maxQueryGroups, groups]
    intro above
    have narrow := (keyGroups (shardsKey keys).bytes).toNat_lt
    have wide := UInt32.lt_iff_toNat_lt.mp above
    change 4294967295 < (keyGroups (shardsKey keys).bytes).toNat at wide
    omega
  have answered : Answered after.maxQueryGroups q shardsValue
      (after.view q.keyCol) (after.view q.filterCol) out :=
    .grouped rfl rfl ((keeps.view 1).trans keyView) admitted
      (fun _ => two) result
  obtain ⟨done, ok⟩ := (Catalog.executeQuery_ok keeps.wellFormed).mpr
    ⟨shardsValue, (keeps.view 2).trans valueView, answered⟩
  exact ⟨catalog, q, after, out, done, loaded, wellFormed, parsed, rfl, rfl,
    (keeps.view 2).trans valueView, (keeps.view 1).trans keyView, ok⟩

theorem mem_taken_shards {q : MatrixQuery} (unfiltered : q.hasFilter = false)
    {filter : Option ColumnView} {row : Nat} :
    row ∈ q.taken shardsValue filter ↔ row < 2 := by
  have own : q.crossFilter = false := by
    simp [MatrixQuery.crossFilter, unfiltered]
  have rows : shardsValue.rows = 2 := by decide
  rw [MatrixQuery.taken, takes_own own, unfiltered, rows]
  simp

theorem losesNoRow_iff_shards :
    ∃ catalog q after, shards [0, 1] = some catalog ∧
      catalog.parseQuery (fun _ => ⟨0, 0, false⟩)
        (ascii "SELECT COUNT(v) GROUP BY k") = some (.OK, q, after) ∧
      q.grouped = true ∧ LosesNoRow after q .U32 := by
  obtain ⟨catalog, q, after, out, done, loaded, wellFormed, parsed, grouped,
    unfiltered, valueView, keyView, ok⟩ :=
    @exists_counted [0, 1] (by decide +kernel) (by decide +kernel)
      (by decide) (by decide +kernel)
  refine ⟨catalog, q, after, loaded, parsed, grouped,
    (losesNoRow_iff wellFormed parsed grouped valueView rfl ok ?_).mpr ?_⟩
  · intro f64
    cases f64
  · intro row taken
    have inside := (mem_taken_shards unfiltered).mp taken
    rw [keyView]
    interval_cases row
    · decide
    · decide

/-- A row with the largest key there is is in no group. -/
theorem largest_key_lost :
    ∃ catalog q after out done, shards [0, 0xFFFFFFFF] = some catalog ∧
      catalog.WellFormed ∧ catalog.parseQuery (fun _ => ⟨0, 0, false⟩)
        (ascii "SELECT COUNT(v) GROUP BY k") = some (.OK, q, after) ∧
      q.grouped = true ∧ after.view q.valueCol = some shardsValue ∧
      after.executeQuery 0 q = some (.OK, out, done) ∧
      ¬ LosesNoRow after q .U32 := by
  obtain ⟨catalog, q, after, out, done, loaded, wellFormed, parsed, grouped,
    unfiltered, valueView, keyView, ok⟩ :=
    @exists_counted [0, 0xFFFFFFFF] (by decide +kernel)
      (by decide +kernel) (by decide) (by decide +kernel)
  refine ⟨catalog, q, after, out, done, loaded, wellFormed, parsed, grouped,
    valueView, ok, ?_⟩
  intro keeps
  obtain ⟨_, _, _, _, _, _, _, kept⟩ :=
    Catalog.parseQuery_grouped wellFormed parsed grouped
  have covered := (losesNoRow_iff_covered kept.wellFormed valueView grouped
    rfl ok (by intro f64; cases f64)).mp keeps
  have inside := covered 1 ((mem_taken_shards unfiltered).mpr (by decide))
  have last : wordAt (some (shardsKey [0, 0xFFFFFFFF])) 1 = 4294967295 := by
    decide
  have narrow := q.numGroups.toNat_lt
  rw [keyView, last] at inside
  omega

end MatrixDB
