import MatrixDB.Cli.JoinAnswers

/-!
# Aggregates over a join

The reference reduces the integers of a left column at the pairs of rows of the
join, all of them or those of one group.  `reduce_agg` meets it for both
integer types.
-/

namespace MatrixDB

open Lib CostArith Catalog

/-! ## Loops over gathered integers -/

section
variable {A : Type} [LT A] [DecidableLT A] [Add A] {zero least greatest : A}
  {val : A → Int} (order : ∀ a b : A, a < b ↔ val a < val b)
  {vals : List A}

include order

theorem gatheredAgg_min (bounded : ∀ v ∈ vals, val v ≤ val greatest) :
    val (gatheredAgg zero least greatest AGG_MIN vals) =
      ((vals.map val).min?).getD (val zero) := by
  have step : ∀ (vals : List A) (start : A),
      val (vals.foldl (fun acc v => if v < acc then v else acc) start) =
        (vals.map val).foldl min (val start) := by
    intro vals
    induction vals with
    | nil => intro start; rfl
    | cons v vals induction =>
        intro start
        rw [List.foldl_cons, induction, List.map_cons, List.foldl_cons]
        congr 1
        by_cases smaller : v < start
        · have less := (order v start).mp smaller
          rw [if_pos smaller]
          omega
        · have least := mt (order v start).mpr smaller
          rw [if_neg smaller]
          omega
  unfold gatheredAgg
  cases vals with
  | nil => rfl
  | cons v vals =>
      have sum : ¬ AGG_MIN = AGG_SUM := by decide
      have below : ∀ x ∈ (v :: vals).map val, x ≤ val greatest := by
        intro x member
        obtain ⟨w, inside, rfl⟩ := List.mem_map.mp member
        exact bounded w inside
      simp only [List.isEmpty_cons, Bool.false_eq_true, if_false, sum, if_true]
      rw [step, IntegerKernel.foldl_min_bounded below]
      rfl

theorem gatheredAgg_max {agg : MatrixAggOp} (other : agg ≠ AGG_SUM)
    (other' : agg ≠ AGG_MIN) (bounded : ∀ v ∈ vals, val least ≤ val v) :
    val (gatheredAgg zero least greatest agg vals) =
      ((vals.map val).max?).getD (val zero) := by
  have step : ∀ (vals : List A) (start : A),
      val (vals.foldl (fun acc v => if v > acc then v else acc) start) =
        (vals.map val).foldl max (val start) := by
    intro vals
    induction vals with
    | nil => intro start; rfl
    | cons v vals induction =>
        intro start
        rw [List.foldl_cons, induction, List.map_cons, List.foldl_cons]
        congr 1
        by_cases larger : v > start
        · have less := (order start v).mp larger
          rw [if_pos larger]
          omega
        · have most := mt (order start v).mpr larger
          rw [if_neg larger]
          omega
  unfold gatheredAgg
  cases vals with
  | nil => rfl
  | cons v vals =>
      have above : ∀ x ∈ (v :: vals).map val, val least ≤ x := by
        intro x member
        obtain ⟨w, inside, rfl⟩ := List.mem_map.mp member
        exact bounded w inside
      simp only [List.isEmpty_cons, Bool.false_eq_true, if_false, other,
        other']
      rw [step, IntegerKernel.foldl_max_bounded above]
      rfl

end

theorem gatheredAgg_sum {A : Type} [LT A] [DecidableLT A] [Add A]
    (zero least greatest : A) (vals : List A) :
    gatheredAgg zero least greatest AGG_SUM vals =
      vals.foldl (· + ·) zero := by
  unfold gatheredAgg
  cases vals with
  | nil => rfl
  | cons v vals =>
      simp only [List.isEmpty_cons, Bool.false_eq_true, if_false, if_true]

theorem toNat_foldl_add (vals : List UInt64) (start : UInt64) :
    ((vals.foldl (· + ·) start).toNat : Int) =
      ((start.toNat : Int) + (vals.map fun v => (v.toNat : Int)).sum) %
        2 ^ 64 := by
  induction vals generalizing start with
  | nil =>
      have small := start.toNat_lt
      simp
      omega
  | cons v vals induction =>
      rw [List.foldl_cons, induction, UInt64.toNat_add, List.map_cons,
        List.sum_cons]
      push_cast
      omega

theorem toInt_foldl_add (vals : List Int64) (start : Int64) :
    (vals.foldl (· + ·) start).toInt =
      (start.toInt + (vals.map Int64.toInt).sum).bmod (2 ^ 64) := by
  induction vals generalizing start with
  | nil =>
      simp
  | cons v vals induction =>
      rw [List.foldl_cons, induction, Int64.toInt_add, List.map_cons,
        List.sum_cons]
      simp [Int.add_assoc]

/-! ## The reference -/

/-- An aggregate of integers, as it is printed: a sum modulo 2^64, in the range
of the column's type, and zero for no values. -/
def aggregateText (type : MatrixType) (agg : MatrixAggOp)
    (values : List Int) : Bytes :=
  if agg = AGG_COUNT then decimal values.length
  else if agg = AGG_SUM then
    match type with
    | .U32 => signedDecimal (values.sum % 2 ^ 64)
    | _ => signedDecimal (values.sum.bmod (2 ^ 64))
  else if agg = AGG_MIN then signedDecimal (values.min?.getD 0)
  else signedDecimal (values.max?.getD 0)

theorem signedDecimal_natCast (n : Nat) :
    signedDecimal (n : Int) = decimal n := by
  unfold signedDecimal
  rw [if_neg (by omega), Int.natAbs_natCast]

/-- One loop for both types: `wraps` is what an addition does to a sum. -/
theorem gatheredAgg_text {A : Type} [LT A] [DecidableLT A] [Add A]
    {zero least greatest : A} {val : A → Int}
    (order : ∀ a b : A, a < b ↔ val a < val b) (nothing : val zero = 0)
    {wraps : Int → Int}
    (sums : ∀ vals : List A,
      val (vals.foldl (· + ·) zero) = wraps (vals.map val).sum)
    {vals : List A} (lower : ∀ v ∈ vals, val least ≤ val v)
    (upper : ∀ v ∈ vals, val v ≤ val greatest) (agg : MatrixAggOp) :
    val (gatheredAgg zero least greatest agg vals) =
      if agg = AGG_SUM then wraps (vals.map val).sum
      else if agg = AGG_MIN then ((vals.map val).min?).getD 0
      else ((vals.map val).max?).getD 0 := by
  by_cases sum : agg = AGG_SUM
  · rw [if_pos sum, sum, gatheredAgg_sum, sums]
  · rw [if_neg sum]
    by_cases low : agg = AGG_MIN
    · rw [if_pos low, low, gatheredAgg_min order upper, nothing]
    · rw [if_neg low, gatheredAgg_max order sum low lower, nothing]

variable {κ : Type}

/-- The values of a column at some rows, reduced and printed. -/
theorem reduceAgg_text (printDouble : UInt64 → Bytes) {catalog : Catalog κ}
    {col : UInt64} {column : ColumnView}
    (typed : catalog.columnType col = column.type)
    (integer : column.type ≠ .F64) (agg : MatrixAggOp) (rows : List Nat) :
    (catalog.reduceAgg printDouble col agg (rows.map column.word)).text =
      aggregateText column.type agg (rows.map column.integerAt) := by
  unfold reduceAgg aggregateText
  by_cases count : agg = AGG_COUNT
  · rw [if_pos count, if_pos count, List.length_map, List.length_map]
  rw [if_neg count, if_neg count, typed]
  cases type : column.type with
  | U32 =>
      let vals := rows.map fun row => (u32At column.bytes row).toUInt64
      have masked : (rows.map column.word).map (fun v => v &&& 0xFFFFFFFF) =
          vals := by
        rw [List.map_map]
        apply List.map_congr_left
        intro row _
        have small := (u32At column.bytes row).toNat_lt
        rw [Function.comp_apply, ColumnView.word, type]
        apply UInt64.toNat_inj.mp
        simp only [UInt64.toNat_and, UInt32.toNat_toUInt64,
          UInt64.reduceToNat]
        rw [Nat.and_two_pow_sub_one_eq_mod _ 32, Nat.mod_eq_of_lt small]
      have integers : rows.map column.integerAt =
          vals.map fun v => (v.toNat : Int) := by
        rw [List.map_map]
        apply List.map_congr_left
        intro row _
        rw [Function.comp_apply, ColumnView.integerAt, type,
          UInt32.toNat_toUInt64]
      have upper : ∀ v ∈ vals,
          (v.toNat : Int) ≤ ((0xFFFFFFFFFFFFFFFF : UInt64).toNat : Int) := by
        intro v _
        have small := v.toNat_lt
        simp only [UInt64.reduceToNat]
        omega
      have reduced := @gatheredAgg_text UInt64 _ _ _ 0 0 0xFFFFFFFFFFFFFFFF
        (fun v => (v.toNat : Int))
        (fun a b => by rw [UInt64.lt_iff_toNat_lt, Int.ofNat_lt]) rfl
        (fun sum => sum % 2 ^ 64)
        (fun vals => by rw [toNat_foldl_add, UInt64.toNat_zero]; simp) vals
        (fun v _ => by simp) upper agg
      dsimp only at reduced ⊢
      rw [masked, integers, ← signedDecimal_natCast, reduced]
      split
      · rfl
      · split <;> rfl
  | I64 =>
      have read : (rows.map column.word).map UInt64.toInt64 =
          rows.map (i64At column.bytes) := by
        rw [List.map_map]
        apply List.map_congr_left
        intro row _
        rw [Function.comp_apply, ColumnView.word, type]
        rfl
      have integers : rows.map column.integerAt =
          (rows.map (i64At column.bytes)).map Int64.toInt := by
        rw [List.map_map]
        apply List.map_congr_left
        intro row _
        rw [Function.comp_apply, ColumnView.integerAt, type]
      have reduced := @gatheredAgg_text Int64 _ _ _ 0 Int64.minValue
        Int64.maxValue Int64.toInt
        (fun a b => Int64.lt_iff_toInt_lt) rfl
        (fun sum => sum.bmod (2 ^ 64))
        (fun vals => by rw [toInt_foldl_add]; simp)
        (rows.map (i64At column.bytes))
        (fun v _ => i64Kernel_integer.greatest v)
        (fun v _ => i64Kernel_integer.least v) agg
      dsimp only at reduced ⊢
      rw [read, integers, reduced]
      split
      · rfl
      · split <;> rfl
  | F64 => exact absurd type integer

/-! ## Lines with an aggregate -/

/-- `AGG(lcol)` with the text `inner` in the parentheses. -/
structure AggregateForm (select : Bytes) (agg : MatrixAggOp)
    (inner : Bytes) : Prop where
  text : ∃ name, select = name ++ '('.toUInt8 :: (inner ++ [')'.toUInt8]) ∧
    aggOf (up (cliTrim name)) = .ok agg ∧
    '('.toUInt8 ∉ name ∧ ')'.toUInt8 ∉ name
  closed : ')'.toUInt8 ∉ inner

theorem takeWhile_append_cons {A : Type} {p : A → Bool} {front : List A}
    (passes : ∀ a ∈ front, p a = true) {stop : A} (stops : p stop = false)
    (behind : List A) :
    (front ++ stop :: behind).takeWhile p = front ∧
      (front ++ stop :: behind).dropWhile p = stop :: behind := by
  constructor
  · rw [List.takeWhile_append_of_pos passes, List.takeWhile_cons_of_neg,
      List.append_nil]
    simp [stops]
  · rw [List.dropWhile_append_of_pos passes, List.dropWhile_cons_of_neg]
    simp [stops]

theorem AggregateForm.contains {select inner : Bytes} {agg : MatrixAggOp}
    (form : AggregateForm select agg inner) :
    select.contains '('.toUInt8 := by
  obtain ⟨name, rfl, _⟩ := form.text
  simp

section
variable {catalog : Catalog κ} {select inner : Bytes} {agg : MatrixAggOp}
  (form : AggregateForm select agg inner)

include form

theorem joinAggregate_eq (strtod : Bytes → StrtodResult)
    (known : catalog.columnId (cliTrim inner) ≠ 0) (tail : List Bytes) :
    catalog.joinAggregate strtod select tail =
      (catalog.joinGroup strtod tail).map fun (gcol, post) =>
        { agg, lcol := catalog.columnId (cliTrim inner), gcol, post } := by
  obtain ⟨name, rfl, aggregate, plain, plain'⟩ := form.text
  have opens : ∀ c ∈ name, (c != '('.toUInt8) = true := by
    intro c member
    exact bne_iff_ne.mpr fun same => plain (same ▸ member)
  have closes : ∀ c ∈ inner, (c != ')'.toUInt8) = true := by
    intro c member
    exact bne_iff_ne.mpr fun same => form.closed (same ▸ member)
  obtain ⟨front, behind⟩ := takeWhile_append_cons opens
    (by decide : ('('.toUInt8 != '('.toUInt8) = false)
    (inner ++ [')'.toUInt8])
  obtain ⟨between, _⟩ := takeWhile_append_cons closes
    (by decide : (')'.toUInt8 != ')'.toUInt8) = false) []
  have shut : (inner ++ [')'.toUInt8]).contains ')'.toUInt8 := by simp
  have nested : name.contains ')'.toUInt8 = false := by simpa using plain'
  unfold Catalog.joinAggregate
  rw [front, behind, List.drop_one, List.tail_cons]
  dsimp only
  rw [nested, shut, between, aggregate]
  simp only [Bool.not_true, Bool.or_self, Bool.false_eq_true, if_false,
    known]
  cases catalog.joinGroup strtod tail <;> rfl

end

theorem joinGroup_eq {catalog : Catalog κ} (strtod : Bytes → StrtodResult)
    {group by' g : Bytes} (spelled : Spells group "GROUP")
    (spelled' : Spells by' "BY") (known : catalog.columnId g ≠ 0) :
    catalog.joinGroup strtod [group, by', g] =
      .ok (catalog.columnId g, .plain) := by
  have words : ¬ (up group ≠ ascii "GROUP" ∨ up by' ≠ ascii "BY") :=
    not_or.mpr ⟨not_not.mpr spelled, not_not.mpr spelled'⟩
  unfold Catalog.joinGroup
  dsimp only
  rw [if_neg words, if_neg known]
  rfl

/-! ## Runs -/

/-- The buckets of some pairs of a group and a value. -/
theorem joinBuckets_eq {A : Type} (items : List A) (group value : A → UInt64) :
    ∃ groups : List UInt64, groups.Pairwise (· < ·) ∧
      (∀ g, g ∈ groups ↔ ∃ item ∈ items, group item = g) ∧
      joinBuckets (items.map group) (items.map value) =
        groups.map fun g =>
          (g, (items.filter fun item => group item = g).map value) := by
  let rows := items.map fun item => (group item, value item)
  let push := fun (vals : List UInt64) (row : UInt64 × UInt64) =>
    vals ++ [row.2]
  have bucket : ∀ g, ((rows.filter fun row => row.1 = g).foldl push []) =
      (items.filter fun item => group item = g).map value := by
    intro g
    have pushed : ∀ some : List (UInt64 × UInt64),
        some.foldl push [] = some.map Prod.snd := by
      intro some
      rw [List.foldl_append_eq_append, List.nil_append]
      exact List.map_eq_flatMap.symm
    rw [pushed, List.filter_map, List.map_map]
    rfl
  refine ⟨(intoOrdered Prod.fst [] push rows).map Prod.fst, ?_, ?_, ?_⟩
  · have ascending := ascending_intoOrdered Prod.fst [] push rows
    exact List.pairwise_map.mpr ascending
  · intro g
    rw [List.mem_map]
    constructor
    · rintro ⟨⟨k, vals⟩, member, rfl⟩
      obtain ⟨⟨row, inside, own⟩, _⟩ :=
        (mem_intoOrdered Prod.fst [] push).mp member
      obtain ⟨item, found, rfl⟩ := List.mem_map.mp inside
      exact ⟨item, found, own⟩
    · rintro ⟨item, found, own⟩
      exact ⟨(g, _), (mem_intoOrdered Prod.fst [] push).mpr
        ⟨⟨_, List.mem_map_of_mem found, own⟩, rfl⟩, rfl⟩
  · unfold joinBuckets
    rw [List.zip_map']
    calc
      _ = ((intoOrdered Prod.fst [] push rows).map Prod.fst).map fun g =>
          (g, (rows.filter fun row => row.1 = g).foldl push []) :=
        intoOrdered_eq Prod.fst [] push rows
      _ = _ := by simp only [bucket]

theorem mem_keyPairs {left right : ColumnView} {pair : Nat × Nat}
    (member : pair ∈ keyPairs left right) :
    pair.1 < left.rows ∧ pair.2 < right.rows := by
  obtain ⟨inside, inside', _⟩ := mem_matchingPairs.mp member
  exact ⟨inside, inside'⟩

/-- What a join aggregate prints for all pairs of rows. -/
def wholeText (left right measure : ColumnView) (agg : MatrixAggOp) : Bytes :=
  aggregateText measure.type agg
    ((keyPairs left right).map fun pair => measure.integerAt pair.1)

/-- What it prints for the pairs of one group. -/
def pairsRow (catalog : Catalog κ) (gcol : UInt64)
    (left right measure dimension : ColumnView) (agg : MatrixAggOp)
    (g : UInt64) : CliLine :=
  .row [catalog.groupLabel gcol g,
    aggregateText measure.type agg
      (((keyPairs left right).filter fun pair =>
        dimension.word pair.2 = g).map fun pair =>
          measure.integerAt pair.1)]

section
variable {catalog : Catalog κ} (wellFormed : catalog.WellFormed)

include wellFormed

/-- A gather of one side of some pairs of rows. -/
theorem gather_side {id : UInt64} {column : ColumnView}
    (seen : catalog.view id = some column) {pairs : List (Nat × Nat)}
    {side : Nat × Nat → Nat} (inside : ∀ pair ∈ pairs, side pair < column.rows) :
    ∃ after, Keeps catalog after ∧ Untouched catalog after ∧
      catalog.gather id (pairs.map fun pair => UInt64.ofNat (side pair)) =
        some (pairs.map fun pair => column.word (side pair), after) := by
  have fits := rows_lt wellFormed seen
  have within : ∀ r ∈ pairs.map side, r < column.rows := by
    intro r member
    obtain ⟨pair, found, rfl⟩ := List.mem_map.mp member
    exact inside pair found
  obtain ⟨after, keeps, untouched, ran⟩ :=
    gather_eq wellFormed seen (inside_ofNat fits within)
  refine ⟨after, keeps, untouched, ?_⟩
  rw [map_word_ofNat fits within] at ran
  simpa only [List.map_map, Function.comp_def] using ran

variable {lk rk : Bytes} {left right : ColumnView}
  (keys : JoinKeys catalog lk rk left right) {lcol : UInt64}
  {measure : ColumnView} (measured : catalog.view lcol = some measure)
  (integer : measure.type ≠ .F64) (aligned : measure.rows = left.rows)
  (printDouble : UInt64 → Bytes) (agg : MatrixAggOp)

include keys measured integer aligned

theorem runJoinAggregate_scalar :
    ∃ after, catalog.runJoinAggregate printDouble left.type
      (catalog.columnId lk) (catalog.columnId rk)
      { agg, lcol, gcol := 0, post := .plain } =
        some ([.row [wholeText left right measure agg]], after) := by
  obtain ⟨middle, keeps, _, joined⟩ := joinPairs_eq wellFormed keys
  have seen : middle.view lcol = some measure :=
    (keeps.view lcol).trans measured
  have inside : ∀ pair ∈ keyPairs left right, pair.1 < measure.rows := by
    intro pair member
    rw [aligned]
    exact (mem_keyPairs member).1
  obtain ⟨after, keeps', _, gathered⟩ :=
    gather_side keeps.wellFormed seen inside
  have typed : after.columnType lcol = measure.type := by
    rw [keeps'.columnType]
    exact columnType_of_view seen
  have reduced := reduceAgg_text printDouble typed integer agg
    ((keyPairs left right).map Prod.fst)
  simp only [List.map_map, Function.comp_def] at reduced
  refine ⟨after, ?_⟩
  unfold runJoinAggregate
  rw [joined]
  simp only [Option.bind_eq_bind, Option.bind_some, List.map_map,
    Function.comp_def, rowNumbers]
  rw [gathered]
  simp only [Option.bind_some, if_true, reduced, wholeText]

variable {gcol : UInt64} {dimension : ColumnView}
  (grouped : catalog.view gcol = some dimension)
  (aligned' : dimension.rows = right.rows)

include grouped aligned'

/-- The groups are those of the pairs, in ascending order. -/
theorem runJoinAggregate_grouped :
    ∃ (groups : List UInt64) (after : Catalog κ),
      groups.Pairwise (· < ·) ∧
      (∀ g, g ∈ groups ↔ ∃ pair ∈ keyPairs left right,
        dimension.word pair.2 = g) ∧
      catalog.runJoinAggregate printDouble left.type (catalog.columnId lk)
        (catalog.columnId rk) { agg, lcol, gcol, post := .plain } =
          some (groups.map (pairsRow catalog gcol left right measure
            dimension agg), after) := by
  obtain ⟨middle, keeps, _, joined⟩ := joinPairs_eq wellFormed keys
  have seen : middle.view lcol = some measure :=
    (keeps.view lcol).trans measured
  have inside : ∀ pair ∈ keyPairs left right, pair.1 < measure.rows := by
    intro pair member
    rw [aligned]
    exact (mem_keyPairs member).1
  obtain ⟨later, keeps', _, gathered⟩ :=
    gather_side keeps.wellFormed seen inside
  have seen' : later.view gcol = some dimension :=
    (keeps'.view gcol).trans ((keeps.view gcol).trans grouped)
  have inside' : ∀ pair ∈ keyPairs left right, pair.2 < dimension.rows := by
    intro pair member
    rw [aligned']
    exact (mem_keyPairs member).2
  obtain ⟨after, keeps'', _, gathered'⟩ :=
    gather_side keeps'.wellFormed seen' inside'
  have whole := keeps.trans (keeps'.trans keeps'')
  have typed : after.columnType lcol = measure.type := by
    rw [whole.columnType]
    exact columnType_of_view measured
  have nonzero : gcol ≠ 0 := known_of_view wellFormed grouped
  obtain ⟨groups, ascending, occurs, buckets⟩ :=
    joinBuckets_eq (keyPairs left right)
      (fun pair => dimension.word pair.2) (fun pair => measure.word pair.1)
  refine ⟨groups, after, ascending, occurs, ?_⟩
  unfold runJoinAggregate
  rw [joined]
  simp only [Option.bind_eq_bind, Option.bind_some, List.map_map,
    Function.comp_def, rowNumbers]
  rw [gathered]
  simp only [Option.bind_some, nonzero, if_false]
  rw [gathered']
  simp only [Option.bind_some, buckets, JoinPost.keep, List.map_map,
    Function.comp_def, Option.some.injEq, Prod.mk.injEq, and_true]
  apply List.map_congr_left
  intro g _
  have reduced := reduceAgg_text printDouble typed integer agg
    (((keyPairs left right).filter fun pair =>
      dimension.word pair.2 = g).map Prod.fst)
  simp only [List.map_map, Function.comp_def] at reduced
  rw [whole.shown.groupLabel, reduced]
  rfl

end

section
variable [SoundCost κ] {strtod : Bytes → StrtodResult} {engine : Analytics κ}
  (live : Analytics.Live strtod engine)
  {lk rk : Bytes} {left right : ColumnView}
  (keys : JoinKeys engine.catalog lk rk left right)
  {line select inner : Bytes} {tail : List Bytes}
  (form : JoinForm line select lk rk tail) {agg : MatrixAggOp}
  (aggregate : AggregateForm select agg inner) {measure : ColumnView}
  (measured : engine.catalog.view (engine.catalog.columnId (cliTrim inner)) =
    some measure)

include live keys form aggregate measured

/-- The branch that a line with an aggregate goes to. -/
theorem runSql_joinAggregate (printDouble : UInt64 → Bytes)
    (ns : Nat → UInt64) (mode : OutMode) :
    (countsPairs select = true →
      (left.type = .U32 → ∃ after,
        engine.catalog.runSql strtod printDouble ns mode line = some
          ([.row [decimal ((keyPairs left right).length % 2 ^ 64)]], after)) ∧
      (left.type = .I64 →
        engine.catalog.runSql strtod printDouble ns mode line = none)) ∧
    (countsPairs select = false → ∀ gcol post,
      engine.catalog.joinGroup strtod tail = .ok (gcol, post) →
      engine.catalog.runSql strtod printDouble ns mode line =
        engine.catalog.runJoinAggregate printDouble left.type
          (engine.catalog.columnId lk) (engine.catalog.columnId rk)
          { agg, lcol := engine.catalog.columnId (cliTrim inner), gcol,
            post }) := by
  have wellFormed := live.settled.wellFormed
  have routed : engine.catalog.runSql strtod printDouble ns mode line =
      engine.catalog.joinBranch printDouble strtod mode left.type
        (engine.catalog.columnId lk) (engine.catalog.columnId rk) select
        tail := by
    unfold Catalog.runSql
    rw [form.route]
    exact runJoin_eq wellFormed keys printDouble strtod mode form
  constructor
  · intro counts
    rw [routed, Catalog.joinBranch, if_pos counts]
    constructor
    · intro typed
      obtain ⟨after, _, _, ran⟩ := hashJoinCount_u32 wellFormed keys typed
      rw [ran]
      exact ⟨after, rfl⟩
    · intro typed
      rw [hashJoinCount_i64 keys typed]
      rfl
  · intro counts gcol post grouped
    have known := known_of_view wellFormed measured
    rw [routed, Catalog.joinBranch, if_neg (by simp [counts]),
      if_pos aggregate.contains, joinAggregate_eq aggregate strtod known,
      grouped]
    rfl

variable (integer : measure.type ≠ .F64) (aligned : measure.rows = left.rows)

include integer aligned

/-- An aggregate over a join is that of the measure at all pairs of rows, or at
those of each group that occurs, in ascending order, unless the text before the
`JOIN` has both a `COUNT` and a star in it.  Then the shell counts the pairs of
`uint32` keys, and aborts when the keys are `int64`. -/
theorem joinAggregates_iff (printDouble : UInt64 → Bytes)
    (ns : Nat → UInt64) (mode : OutMode) :
    (tail = [] →
      ((∃ after, engine.catalog.runSql strtod printDouble ns mode line =
          some ([.row [wholeText left right measure agg]], after)) ↔
        countsPairs select = false ∨ left.type = .U32 ∧
          wholeText left right measure agg =
            decimal ((keyPairs left right).length % 2 ^ 64))) ∧
    ∀ group by' g dimension, tail = [group, by', g] →
      Spells group "GROUP" → Spells by' "BY" →
      engine.catalog.view (engine.catalog.columnId g) = some dimension →
      dimension.rows = right.rows →
      ((∃ (groups : List UInt64) (after : Catalog κ),
          groups.Pairwise (· < ·) ∧
          (∀ k, k ∈ groups ↔ ∃ pair ∈ keyPairs left right,
            dimension.word pair.2 = k) ∧
          engine.catalog.runSql strtod printDouble ns mode line =
            some (groups.map (pairsRow engine.catalog
              (engine.catalog.columnId g) left right measure dimension agg),
              after)) ↔
        countsPairs select = false) := by
  have wellFormed := live.settled.wellFormed
  obtain ⟨counted, reduced⟩ := runSql_joinAggregate live keys form aggregate
    measured printDouble ns mode
  constructor
  · rintro rfl
    constructor
    · rintro ⟨after, ran⟩
      cases counts : countsPairs select with
      | false => exact .inl rfl
      | true =>
          right
          obtain ⟨narrow, wide⟩ := counted counts
          cases typed : left.type with
          | U32 =>
              obtain ⟨after', ran'⟩ := narrow typed
              have same := Option.some.inj (ran.symm.trans ran')
              simp only [Prod.mk.injEq, List.cons.injEq, CliLine.row.injEq,
                and_true] at same
              exact ⟨rfl, same.1⟩
          | I64 =>
              rw [wide typed] at ran
              cases ran
          | F64 => exact absurd typed keys.integer
    · intro prints
      cases counts : countsPairs select with
      | false =>
          obtain ⟨after, ran⟩ := runJoinAggregate_scalar wellFormed keys
            measured integer aligned printDouble agg
          exact ⟨after, (reduced counts 0 .plain rfl).trans ran⟩
      | true =>
          rw [counts] at prints
          obtain ⟨typed, same⟩ := prints.resolve_left Bool.noConfusion
          obtain ⟨after, ran⟩ := (counted counts).1 typed
          rw [← same] at ran
          exact ⟨after, ran⟩
  · rintro group by' g dimension rfl spelled spelled' seen aligned'
    constructor
    · rintro ⟨groups, after, _, _, ran⟩
      cases counts : countsPairs select with
      | false => rfl
      | true =>
          obtain ⟨narrow, wide⟩ := counted counts
          cases typed : left.type with
          | U32 =>
              -- One field is no row of a group.
              obtain ⟨after', ran'⟩ := narrow typed
              have same := Option.some.inj (ran.symm.trans ran')
              cases groups with
              | nil => cases (Prod.mk.inj same).1
              | cons k groups =>
                  have first := (List.cons.inj (Prod.mk.inj same).1).1
                  have fields := congrArg List.length (CliLine.row.inj first)
                  cases fields
          | I64 =>
              rw [wide typed] at ran
              cases ran
          | F64 => exact absurd typed keys.integer
    · intro counts
      have known := known_of_view wellFormed seen
      obtain ⟨groups, after, ascending, occurs, ran⟩ :=
        runJoinAggregate_grouped wellFormed keys measured integer aligned
          printDouble agg seen aligned'
      refine ⟨groups, after, ascending, occurs, ?_⟩
      rw [reduced counts _ _ (joinGroup_eq strtod spelled spelled' known)]
      exact ran

end

theorem aggregateForm_of_parts {agg : MatrixAggOp} (name inner : Bytes)
    (aggregate : aggOf (up (cliTrim name)) = .ok agg)
    (plain : '('.toUInt8 ∉ name ∧ ')'.toUInt8 ∉ name)
    (closed : ')'.toUInt8 ∉ inner) :
    AggregateForm (name ++ '('.toUInt8 :: (inner ++ [')'.toUInt8])) agg
      inner :=
  ⟨⟨name, rfl, aggregate, plain⟩, closed⟩

/-- A measure whose name ends in a star. -/
theorem joinAggregates_iff_groups :
    ∃ (engine : Analytics ℚ) (groups : List UInt64) (after : Catalog ℚ),
      groups.Pairwise (· < ·) ∧
      (∀ k, k ∈ groups ↔ ∃ pair ∈ keyPairs (narrowColumn [4, 4, 5])
        (narrowColumn [4, 5]), (narrowColumn [7, 3]).word pair.2 = k) ∧
      engine.catalog.runSql Analytics.noNumber (fun _ => []) (fun _ => 0) .LIST
        (ascii "SELECT SUM(n*) JOIN u = w GROUP BY g") =
          some (groups.map (pairsRow engine.catalog
            (engine.catalog.columnId (ascii "g")) (narrowColumn [4, 4, 5])
            (narrowColumn [4, 5]) (wideColumn [10, -20, 30])
            (narrowColumn [7, 3]) AGG_SUM), after) := by
  obtain ⟨engine, live, keys, _, measured, grouped⟩ := exists_sides
  have form : JoinForm (ascii "SELECT SUM(n*) JOIN u = w GROUP BY g")
      (ascii "SUM(n*)") (ascii "u") (ascii "w")
      [ascii "GROUP", ascii "BY", ascii "g"] :=
    joinForm_of_parts [ascii "SUM(n*)"] (by decide +kernel)
      (by decide +kernel) (by decide) (by decide)
  have aggregate : AggregateForm (ascii "SUM(n*)") AGG_SUM (ascii "n*") :=
    aggregateForm_of_parts (ascii "SUM") (ascii "n*") rfl (by decide)
      (by decide)
  obtain ⟨groups, after, prints⟩ := ((joinAggregates_iff live keys form
    aggregate measured (by decide) (by decide) (fun _ => []) (fun _ => 0)
    .LIST).2 (ascii "GROUP") (ascii "BY") (ascii "g") _ rfl (by decide)
    (by decide) grouped (by decide)).mpr (by decide)
  exact ⟨engine, groups, after, prints⟩

/-- Its count over `int64` keys is taken for `COUNT(*)`. -/
theorem starred_measure_aborts :
    ∃ (engine : Analytics ℚ) (left right measure : ColumnView),
      Analytics.Live Analytics.noNumber engine ∧
      JoinKeys engine.catalog (ascii "x") (ascii "y") left right ∧
      engine.catalog.view (engine.catalog.columnId (ascii "n*")) =
        some measure ∧
      measure.type = .I64 ∧ measure.rows = left.rows ∧
      engine.catalog.runSql Analytics.noNumber (fun _ => []) (fun _ => 0)
        .LIST (ascii "SELECT COUNT(n*) JOIN x = y") = none := by
  obtain ⟨engine, live, _, keys, measured, _⟩ := exists_sides
  have form : JoinForm (ascii "SELECT COUNT(n*) JOIN x = y")
      (ascii "COUNT(n*)") (ascii "x") (ascii "y") [] :=
    joinForm_of_parts [ascii "COUNT(n*)"] (by decide +kernel)
      (by decide +kernel) (by decide) (by decide)
  have aggregate : AggregateForm (ascii "COUNT(n*)") AGG_COUNT
      (ascii "n*") :=
    aggregateForm_of_parts (ascii "COUNT") (ascii "n*") rfl (by decide)
      (by decide)
  exact ⟨engine, _, _, _, live, keys, measured, rfl, by decide,
    ((runSql_joinAggregate live keys form aggregate measured (fun _ => [])
      (fun _ => 0) .LIST).1 (by decide)).2 rfl⟩

end MatrixDB
