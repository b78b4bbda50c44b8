import MatrixDB.Query.Ranking

/-!
# The rows behind a result

A result is a fold over the rows that pass the filter.  Of these, NULL rows are
left out where the loop of the query reads the null mask of the value column,
which not every loop does.
-/

namespace MatrixDB

open Lib ColumnView

/-- A row whose value is NULL. -/
def ColumnView.nullAt (column : ColumnView) (row : Nat) : Bool :=
  match column.nulls with
  | some mask => mask.getD row 0 != 0
  | none => false

namespace MatrixQuery

variable (q : MatrixQuery) (value : ColumnView) (filter : Option ColumnView)

/-- The loop of a query reads the null mask of its value column: never beside
another filter column, and for groups only when the mask has one entry for
each row. -/
def readsMask : Bool :=
  !q.crossFilter && (!q.grouped || (value.rowNulls value.rows).isSome)

/-- The rows that a result is made of. -/
def folded : List Nat :=
  (q.taken value filter).filter fun row =>
    !(q.readsMask value && value.nullAt row)

/-- The rows that should make it: those that pass the filter and are not
NULL. -/
def contributing : List Nat :=
  (q.taken value filter).filter fun row => !value.nullAt row

/-- The rows of a group, or all of them without groups. -/
def inGroup (key : Option ColumnView) (g : Nat) (rows : List Nat) : List Nat :=
  if q.grouped then classOf (wordAt key) rows g else rows

end MatrixQuery

section
variable {V A : Type} {value : ColumnView} {K : AggKernel V A}
  {read : Bytes → Nat → V} {hit : MatrixQuery → V → Bool}
  {q : MatrixQuery} {key filter : Option ColumnView} {out : List UInt64}
  {maxGroups : UInt32}

theorem rowNulls_some {mask : Bytes}
    (covers : value.rowNulls value.rows = some mask) :
    value.nulls = some mask ∧ mask.length = value.rows := by
  obtain ⟨stored, aligned⟩ := Option.filter_eq_some_iff.mp covers
  exact ⟨stored, of_decide_eq_true aligned⟩

/-- A mask that is read marks the NULL rows. -/
theorem liveRows_read {mask : Bytes} {live : Nat → Bool} {n : Nat}
    (stored : value.nulls = some mask)
    (lives : liveRows (some mask) n = some live) :
    live = fun row => !value.nullAt row := by
  unfold liveRows at lives
  dsimp only at lives
  split at lives
  · rw [← Option.some.inj lives]
    funext row
    simp only [nullAt, stored, bne, Bool.not_not]
  · cases lives

theorem folded_eq (reads : q.readsMask value = true) :
    q.folded value filter = q.contributing value filter := by
  simp only [MatrixQuery.folded, MatrixQuery.contributing, reads,
    Bool.true_and]

theorem folded_unread (unread : q.readsMask value = false) :
    q.folded value filter = q.taken value filter := by
  unfold MatrixQuery.folded
  apply List.filter_eq_self.mpr
  intro row _
  rw [unread, Bool.false_and, Bool.not_false]

theorem folded_filter (p : Nat → Bool)
    (same : ∀ row, p row = (q.takes value filter row &&
      !(q.readsMask value && value.nullAt row))) :
    (List.range value.rows).filter p = q.folded value filter := by
  rw [MatrixQuery.folded, MatrixQuery.taken, List.filter_filter]
  apply List.filter_congr
  intro row _
  rw [same, Bool.and_comm]

theorem classOf_folded (p : Nat → Bool)
    (same : ∀ row, p row = (q.takes value filter row &&
      !(q.readsMask value && value.nullAt row)))
    (k : ColumnView) (g : Nat) :
    ((List.range value.rows).filter fun row =>
      p row && decide ((u32At k.bytes row).toNat = g)) =
        classOf (wordAt (some k)) (q.folded value filter) g := by
  rw [← folded_filter p same, classOf, List.filter_filter]
  apply List.filter_congr
  intro row _
  exact Bool.and_comm _ _

/-- A grouped answer is a fold over the rows of each group. -/
theorem answered_groups_folded (element : ElementKernel value.type K read hit)
    (grouped : q.grouped = true)
    (answered : Answered maxGroups q value key filter out) :
    ∃ k, key = some k ∧ Admitted maxGroups q value k ∧
      out = (List.range q.numGroups.toNat).map fun g =>
        K.encode (K.fold q.agg
          ((classOf (wordAt key) (q.folded value filter) g).map
            (read value.bytes))) := by
  have folds : ∀ (k : ColumnView) (p : Nat → Bool),
      (∀ row, p row = (q.takes value filter row &&
        !(q.readsMask value && value.nullAt row))) →
      (K.groupRows q.agg value.rows q.numGroups p (u32At k.bytes)
          (read value.bytes)).map K.encode =
        (List.range q.numGroups.toNat).map fun g =>
          K.encode (K.fold q.agg
            ((classOf (wordAt (some k)) (q.folded value filter) g).map
              (read value.bytes))) := by
    intro k p same
    rw [K.groupRows_eq, List.map_map]
    apply List.map_congr_left
    intro g _
    rw [Function.comp_apply, classOf_folded p same]
  cases answered with
  | scalarCross _ scalar =>
      rw [grouped] at scalar
      cases scalar
  | nullable _ scalar =>
      rw [grouped] at scalar
      cases scalar
  | scan _ scalar =>
      rw [grouped] at scalar
      cases scalar
  | @groupedCross k f cross _ keyed admitted found u32 aligned result =>
      refine ⟨k, keyed, admitted, ?_⟩
      have keysFit := words_fit admitted.keyU32 admitted.aligned
      have filterFit := words_fit u32 aligned
      rw [admitted.aligned, element.reduceGroupedCross_eq q keysFit filterFit
        (rows_fit value), AggKernel.groupReduceFilteredBy] at result
      rw [keyed, ← Option.some.inj result]
      apply folds
      intro row
      rw [found, takes_cross cross]
      simp [MatrixQuery.readsMask, cross]
  | @grouped k own _ keyed admitted lengths result =>
      refine ⟨k, keyed, admitted, ?_⟩
      have keysFit := words_fit admitted.keyU32 admitted.aligned
      rw [element.reduceGrouped_eq q keysFit (rows_fit value)] at result
      obtain ⟨rows, reduced, rfl⟩ := Option.map_eq_some_iff.mp result
      have live : ∀ live, liveRows (value.rowNulls value.rows) value.rows =
          some live → live = fun row =>
            !(q.readsMask value && value.nullAt row) := by
        intro live lives
        cases covers : value.rowNulls value.rows with
        | none =>
            rw [covers] at lives
            cases lives
            simp [MatrixQuery.readsMask, covers, grouped]
        | some mask =>
            rw [covers] at lives
            rw [liveRows_read (rowNulls_some covers).1 lives]
            simp [MatrixQuery.readsMask, covers, own]
      rw [keyed]
      cases filtered : q.hasFilter with
      | true =>
          rw [if_pos filtered] at reduced
          obtain ⟨lives, found, rfl⟩ := Option.map_eq_some_iff.mp reduced
          apply folds
          intro row
          rw [live lives found, hit_eq element, takes_own own, filtered]
          exact Bool.and_comm _ _
      | false =>
          rw [if_neg (Bool.eq_false_iff.mp filtered)] at reduced
          obtain ⟨lives, found, rfl⟩ := Option.map_eq_some_iff.mp reduced
          apply folds
          intro row
          rw [live lives found, takes_own own, filtered]
          exact Bool.and_comm _ _

/-- An answer without groups is a fold, or the code for all rows of a column
without a mask. -/
theorem answered_scalar_folded (element : ElementKernel value.type K read hit)
    (scalar : q.grouped = false)
    (answered : Answered maxGroups q value key filter out) :
    out = [K.encode (K.fold q.agg
        ((q.folded value filter).map (read value.bytes)))] ∨
      (out = [K.encode (K.reduceAll (read value.bytes) value.rows q.agg)] ∧
        q.folded value filter = List.range value.rows) := by
  have fold : ∀ p : Nat → Bool,
      (∀ row, p row = (q.takes value filter row &&
        !(q.readsMask value && value.nullAt row))) →
      K.reduceRows q.agg value.rows p (read value.bytes) =
        K.fold q.agg ((q.folded value filter).map (read value.bytes)) := by
    intro p same
    rw [K.reduceRows_eq, folded_filter p same]
  cases answered with
  | groupedCross _ grouped =>
      rw [scalar] at grouped
      cases grouped
  | grouped _ grouped =>
      rw [scalar] at grouped
      cases grouped
  | @scalarCross f cross _ found u32 aligned result =>
      apply Or.inl
      rw [aligned, element.reduceCross_eq q (words_fit u32 aligned)
        (rows_fit value), AggKernel.reduceFilteredBy, fold] at result
      · exact (Option.some.inj result).symm
      · intro row
        rw [found, takes_cross cross]
        simp [MatrixQuery.readsMask, cross]
  | @nullable mask own _ masked result =>
      apply Or.inl
      have reads : q.readsMask value = true := by
        simp [MatrixQuery.readsMask, own, scalar]
      rw [element.reduceNullable_eq q (rows_fit value)] at result
      obtain ⟨bits, encoded, rfl⟩ := Option.map_eq_some_iff.mp result
      obtain ⟨total, reduced, rfl⟩ := Option.map_eq_some_iff.mp encoded
      cases filtered : q.hasFilter with
      | true =>
          rw [if_pos filtered] at reduced
          obtain ⟨live, lives, rfl⟩ := Option.map_eq_some_iff.mp reduced
          rw [fold]
          intro row
          rw [liveRows_read masked lives, hit_eq element, takes_own own,
            filtered, reads]
          exact Bool.and_comm _ _
      | false =>
          rw [if_neg (Bool.eq_false_iff.mp filtered)] at reduced
          obtain ⟨live, lives, rfl⟩ := Option.map_eq_some_iff.mp reduced
          rw [fold]
          intro row
          rw [liveRows_read masked lives, takes_own own, filtered, reads]
          rfl
  | scan own _ unmasked result =>
      have nonnull : ∀ row, value.nullAt row = false := by
        intro row
        rw [nullAt, unmasked]
      rw [element.reduceScalar_eq q (rows_fit value)] at result
      cases filtered : q.hasFilter with
      | true =>
          apply Or.inl
          rw [if_pos filtered, AggKernel.reducePred, liveRows] at result
          rw [← fold _ (fun _ => rfl)]
          have same : (fun row => q.takes value filter row &&
              !(q.readsMask value && value.nullAt row)) = fun row =>
                true && hit q (read value.bytes row) := by
            funext row
            rw [nonnull, hit_eq element, takes_own own, filtered]
            simp
          rw [same]
          exact (Option.some.inj result).symm
      | false =>
          apply Or.inr
          rw [if_neg (Bool.eq_false_iff.mp filtered)] at result
          refine ⟨(Option.some.inj result).symm, ?_⟩
          rw [← folded_filter (fun _ => true)]
          · exact List.filter_eq_self.mpr fun _ _ => rfl
          · intro row
            rw [nonnull, takes_own own, filtered]
            simp

end

/-! ## Counts -/

/-- How a count of so many rows is stored: in a column of doubles by the bits
of a double, which are far above any number of rows. -/
def CountedAs (ty : MatrixType) (rows : Nat) (bits : UInt64) : Prop :=
  match ty with
  | .F64 => if rows = 0 then bits = 0 else 2 ^ 61 ≤ bits.toNat
  | _ => bits = UInt64.ofNat rows

theorem countedAs_double {n : Nat} (fits : n < 2 ^ 64) :
    CountedAs .F64 n (Float.ofNat n).toBits := by
  unfold CountedAs
  dsimp only
  split
  · rename_i none
    subst none
    exact toBits_zero
  · rename_i some_row
    have positive : 0 < n := Nat.pos_of_ne_zero some_row
    by_cases small : n < 2 ^ 53
    · have bounds := wholeMantissa_bounds positive small
      rw [toBits_ofNat positive small]
      omega
    · have large := toBits_ofNat_large (Nat.le_of_not_lt small) fits
      omega

section
variable {V A : Type} {ty : MatrixType} {K : AggKernel V A}
  {read : Bytes → Nat → V} {hit : MatrixQuery → V → Bool}

theorem countedAs_fold (element : ElementKernel ty K read hit)
    (values : List V) :
    CountedAs ty values.length (K.encode (K.fold AGG_COUNT values)) := by
  cases element with
  | u32 =>
      rw [u32Kernel_integer.encode_fold, integerAggregate_count,
        List.length_map]
      rfl
  | i64 =>
      rw [i64Kernel_integer.encode_fold, integerAggregate_count,
        List.length_map]
      rfl
  | f64 =>
      have folded := fold_count_doubles values 0 (Nat.zero_le _)
      rw [← float_zero, Nat.zero_add] at folded
      have encoded : f64Kernel.encode (f64Kernel.fold AGG_COUNT values) =
          (Float.ofNat (min values.length (2 ^ 53))).toBits :=
        congrArg Float.toBits folded
      rw [encoded]
      have counted := countedAs_double
        (show min values.length (2 ^ 53) < 2 ^ 64 by omega)
      unfold CountedAs at counted ⊢
      dsimp only at counted ⊢
      have none : min values.length (2 ^ 53) = 0 ↔ values.length = 0 := by
        omega
      simp only [none] at counted
      exact counted

theorem countedAs_all (element : ElementKernel ty K read hit)
    (v : Nat → V) {rows : Nat} (fits : rows < 2 ^ 64) :
    CountedAs ty rows (K.encode (K.reduceAll v rows AGG_COUNT)) := by
  have counting : K.reduceAll v rows AGG_COUNT = K.ofRows rows := by
    simp [AggKernel.reduceAll, AGG_COUNT, AGG_SUM, AGG_MIN, AGG_MAX]
  rw [counting]
  cases element with
  | u32 => rfl
  | i64 => rfl
  | f64 => exact countedAs_double fits

end

section
variable {q : MatrixQuery} {value : ColumnView}
  {key filter : Option ColumnView} {out : List UInt64} {maxGroups : UInt32}

/-- An answer has one value, or one for each group. -/
theorem answered_length
    (answered : Answered maxGroups q value key filter out) :
    out.length = if q.grouped then q.numGroups.toNat else 1 := by
  obtain ⟨V, A, K, read, hit, element⟩ := exists_elementKernel value.type
  split
  · rename_i grouped
    obtain ⟨k, _, _, rfl⟩ := answered_groups_folded element grouped answered
    rw [List.length_map, List.length_range]
  · rename_i scalar
    rcases answered_scalar_folded element (Bool.eq_false_iff.mpr scalar)
      answered with rfl | ⟨rfl, _⟩
    · rfl
    · rfl

/-- An answer with groups has at least one. -/
theorem answered_present
    (answered : Answered maxGroups q value key filter out) : out ≠ [] := by
  have size := answered_length answered
  intro empty
  rw [empty] at size
  split at size
  · rename_i grouped
    obtain ⟨V, A, K, read, hit, element⟩ := exists_elementKernel value.type
    obtain ⟨k, _, admitted, _⟩ :=
      answered_groups_folded element grouped answered
    apply admitted.nonzero
    exact UInt32.toNat_inj.mp size.symm
  · cases size

/-- Every value of a count counts the rows behind it. -/
theorem answered_counts (counts : q.agg = AGG_COUNT)
    (fits : value.rows < 2 ^ 64)
    (answered : Answered maxGroups q value key filter out) {g : Nat}
    {bits : UInt64} (found : out[g]? = some bits) :
    CountedAs value.type
      (q.inGroup key g (q.folded value filter)).length bits := by
  obtain ⟨V, A, K, read, hit, element⟩ := exists_elementKernel value.type
  unfold MatrixQuery.inGroup
  cases grouped : q.grouped with
  | true =>
      obtain ⟨k, _, _, rfl⟩ := answered_groups_folded element grouped answered
      rw [List.getElem?_map] at found
      obtain ⟨g', listed, rfl⟩ := Option.map_eq_some_iff.mp found
      obtain ⟨_, same⟩ := List.getElem?_eq_some_iff.mp listed
      rw [List.getElem_range] at same
      subst same
      have counted := countedAs_fold element
        ((classOf (wordAt key) (q.folded value filter) g).map
          (read value.bytes))
      rw [List.length_map] at counted
      rw [counts]
      exact counted
  | false =>
      have single : ∀ {x : UInt64}, [x][g]? = some bits → bits = x := by
        intro x listed
        rw [List.getElem?_singleton] at listed
        split at listed
        · exact (Option.some.inj listed).symm
        · cases listed
      rw [if_neg Bool.false_ne_true]
      rcases answered_scalar_folded element grouped answered with
        rfl | ⟨rfl, all⟩
      · have counted := countedAs_fold element
          ((q.folded value filter).map (read value.bytes))
        rw [List.length_map] at counted
        rw [single found, counts]
        exact counted
      · rw [single found, counts, all, List.length_range]
        exact countedAs_all element (read value.bytes) fits

end

end MatrixDB
