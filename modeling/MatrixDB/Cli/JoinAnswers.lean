import MatrixDB.Catalog.Reference
import MatrixDB.Cli.Router
import MatrixDB.Query.Projection

/-!
# What the joins of the shell answer

The reference of a join is the list of the pairs of rows with equal keys.  The
three branches of the shell share one guard on the types of the keys, and run
different joins of the engine.
-/

namespace MatrixDB

open Lib CostArith Catalog

/-! ## The lines -/

/-- A line that the blanks cut into the parts of a join. -/
structure JoinForm (line select lk rk : Bytes) (tail : List Bytes) :
    Prop where
  routed : has " JOIN " (up line)
  tokens : ∃ first list word,
    splitWs line = first :: list ++ word :: lk :: ascii "=" :: rk :: tail ∧
      Spells word "JOIN" ∧ (∀ token ∈ first :: list, ¬ Spells token "JOIN") ∧
      select = joinTokens list

theorem JoinForm.route {line select lk rk : Bytes} {tail : List Bytes}
    (form : JoinForm line select lk rk tail) : routeOf line = .join := by
  rw [routeOf, if_pos form.routed]

theorem JoinForm.joinLine {line select lk rk : Bytes} {tail : List Bytes}
    (form : JoinForm line select lk rk tail) :
    joinLine (splitWs line) = some { select, lk, rk, tail } := by
  obtain ⟨first, list, word, cut, spelled, before, rfl⟩ := form.tokens
  have skipped : ∀ token ∈ first :: list, (!isJoin token) = true := by
    intro token member
    have other := before token member
    simpa [isJoin, Spells] using other
  have stops : isJoin word = true := by
    simpa [isJoin, Spells] using spelled
  have behind : (first :: list ++ word :: lk :: ascii "=" :: rk :: tail).dropWhile
      (fun token => !isJoin token) =
        word :: lk :: ascii "=" :: rk :: tail := by
    rw [List.dropWhile_append_of_pos skipped]
    simp [stops]
  have front : (first :: list ++ word :: lk :: ascii "=" :: rk :: tail).takeWhile
      (fun token => !isJoin token) = first :: list := by
    rw [List.takeWhile_append_of_pos skipped]
    simp [stops]
  unfold MatrixDB.joinLine
  rw [cut, behind, front]
  rfl

/-! ## The pairs -/

/-- The pairs of rows of two columns with equal integers. -/
def keyPairs (left right : ColumnView) : List (Nat × Nat) :=
  matchingPairs left.integerAt left.rows right.integerAt right.rows

/-- Two columns that a line may join. -/
structure JoinKeys {κ : Type} (catalog : Catalog κ) (lk rk : Bytes)
    (left right : ColumnView) : Prop where
  leftSeen : catalog.view (catalog.columnId lk) = some left
  rightSeen : catalog.view (catalog.columnId rk) = some right
  leftPlain : catalog.stringDictSize (catalog.columnId lk) = 0
  rightPlain : catalog.stringDictSize (catalog.columnId rk) = 0
  same : right.type = left.type
  integer : left.type ≠ .F64

theorem keyPairs_u32 {left right : ColumnView} (leftU32 : left.type = .U32)
    (rightU32 : right.type = .U32) :
    keyPairs left right = matchingPairs (u32At left.bytes) left.rows
      (u32At right.bytes) right.rows := by
  have injective : Function.Injective fun v : UInt32 => (v.toNat : Int) := by
    intro v w same
    exact UInt32.toNat_inj.mp (Int.ofNat_inj.mp same)
  have read : ∀ column : ColumnView, column.type = .U32 →
      column.integerAt = fun row => ((u32At column.bytes row).toNat : Int) := by
    intro column u32
    funext row
    rw [ColumnView.integerAt, u32]
  rw [keyPairs, read left leftU32, read right rightU32]
  exact matchingPairs_map injective

theorem keyPairs_i64 {left right : ColumnView} (leftI64 : left.type = .I64)
    (rightI64 : right.type = .I64) :
    keyPairs left right = matchingPairs (i64At left.bytes) left.rows
      (i64At right.bytes) right.rows := by
  have injective : Function.Injective Int64.toInt := by
    intro v w same
    exact Int64.toInt_inj.mp same
  have read : ∀ column : ColumnView, column.type = .I64 →
      column.integerAt = fun row => (i64At column.bytes row).toInt := by
    intro column i64
    funext row
    rw [ColumnView.integerAt, i64]
  rw [keyPairs, read left leftI64, read right rightI64]
  exact matchingPairs_map injective

/-- Row numbers as the engine returns them. -/
def rowNumbers (pair : Nat × Nat) : UInt64 × UInt64 :=
  (UInt64.ofNat pair.1, UInt64.ofNat pair.2)

variable {κ : Type}

section
variable {catalog : Catalog κ} (wellFormed : catalog.WellFormed)
  {lk rk : Bytes} {left right : ColumnView}
  (keys : JoinKeys catalog lk rk left right)

include wellFormed keys

theorem joinPairs_eq :
    ∃ after, Keeps catalog after ∧ Untouched catalog after ∧
      catalog.joinPairs left.type (catalog.columnId lk)
        (catalog.columnId rk) =
        some ((keyPairs left right).map rowNumbers, after) := by
  cases typed : left.type with
  | U32 =>
      have rightU32 := keys.same.trans typed
      obtain ⟨after, keeps, untouched, ran⟩ := hashJoin_eq wellFormed
        keys.leftSeen keys.rightSeen typed rightU32
      rw [joinProbe_eq, ← keyPairs_u32 typed rightU32] at ran
      exact ⟨after, keeps, untouched, ran⟩
  | I64 =>
      have rightI64 := keys.same.trans typed
      obtain ⟨after, keeps, untouched, ran⟩ := hashJoinI64_eq wellFormed
        keys.leftSeen keys.rightSeen typed rightI64
      rw [joinProbe_eq, ← keyPairs_i64 typed rightI64] at ran
      exact ⟨after, keeps, untouched, ran⟩
  | F64 => exact absurd typed keys.integer

omit wellFormed in
/-- Nothing but `uint32` keys can be counted. -/
theorem hashJoinCount_i64 (typed : left.type = .I64) :
    catalog.hashJoinCount (catalog.columnId lk) (catalog.columnId rk) =
      none := by
  have leftTyped := columnType_of_view keys.leftSeen
  rw [Catalog.hashJoinCount]
  apply if_neg
  simp [joinable, leftTyped, typed]

theorem hashJoinCount_u32 (typed : left.type = .U32) :
    ∃ after, Keeps catalog after ∧ Untouched catalog after ∧
      catalog.hashJoinCount (catalog.columnId lk) (catalog.columnId rk) =
        some (UInt64.ofNat (keyPairs left right).length, after) := by
  have rightU32 := keys.same.trans typed
  obtain ⟨after, keeps, untouched, ran⟩ := hashJoinCount_eq wellFormed
    keys.leftSeen keys.rightSeen typed rightU32
  rw [countProbe_eq, ← keyPairs_u32 typed rightU32] at ran
  exact ⟨after, keeps, untouched, ran⟩

/-- A join passes the guards that its branches share. -/
theorem runJoin_read (printDouble : UInt64 → Bytes)
    (strtod : Bytes → StrtodResult) (mode : OutMode) {line select : Bytes}
    {tail : List Bytes}
    (read : MatrixDB.joinLine (splitWs line) = some { select, lk, rk, tail }) :
    catalog.runJoin printDouble strtod mode line =
      catalog.joinBranch printDouble strtod mode left.type
        (catalog.columnId lk) (catalog.columnId rk) select tail := by
  have leftTyped := columnType_of_view keys.leftSeen
  have rightTyped := columnType_of_view keys.rightSeen
  have known : ¬ (catalog.columnId lk = 0 ∨ catalog.columnId rk = 0) :=
    not_or.mpr ⟨known_of_view wellFormed keys.leftSeen,
      known_of_view wellFormed keys.rightSeen⟩
  have plain : ¬ (0 < catalog.stringDictSize (catalog.columnId lk) ∨
      0 < catalog.stringDictSize (catalog.columnId rk)) := by
    rw [keys.leftPlain, keys.rightPlain]
    decide
  have typed : ¬ (left.type ≠ right.type ∨ left.type = .F64) :=
    not_or.mpr ⟨not_not.mpr keys.same.symm, keys.integer⟩
  unfold Catalog.runJoin
  rw [read]
  dsimp only
  rw [if_neg known, if_neg plain, leftTyped, rightTyped, if_neg typed]

theorem runJoin_eq (printDouble : UInt64 → Bytes)
    (strtod : Bytes → StrtodResult) (mode : OutMode) {line select : Bytes}
    {tail : List Bytes} (form : JoinForm line select lk rk tail) :
    catalog.runJoin printDouble strtod mode line =
      catalog.joinBranch printDouble strtod mode left.type
        (catalog.columnId lk) (catalog.columnId rk) select tail :=
  runJoin_read wellFormed keys printDouble strtod mode form.joinLine

end

/-! ## Counting the pairs -/

/-- A character other than a letter is in a text as it is in upper case. -/
theorem mem_of_mem_up {c : UInt8} (fixed : ∀ d : UInt8, toUpper d = c → d = c)
    {text : Bytes} (member : c ∈ up text) : c ∈ text := by
  obtain ⟨d, inside, same⟩ := List.mem_map.mp member
  rw [fixed d same] at inside
  exact inside

theorem countsPairs_star {select : Bytes}
    (star : up select = ascii "COUNT(*)") : countsPairs select := by
  have counts : has "COUNT" (ascii "COUNT(*)") := by decide
  have starred : '*'.toUInt8 ∈ select := by
    apply mem_of_mem_up (by decide +kernel)
    rw [star]
    decide
  unfold countsPairs
  rw [star, counts]
  simpa using starred

section
variable [SoundCost κ] {strtod : Bytes → StrtodResult} {engine : Analytics κ}
  (live : Analytics.Live strtod engine)
  {lk rk : Bytes} {left right : ColumnView}
  (keys : JoinKeys engine.catalog lk rk left right)
  {line select : Bytes} (form : JoinForm line select lk rk [])
  (star : up select = ascii "COUNT(*)")

include live keys form star

theorem runSql_star (printDouble : UInt64 → Bytes) (ns : Nat → UInt64)
    (mode : OutMode) :
    (left.type = .U32 → ∃ after,
      engine.catalog.runSql strtod printDouble ns mode line = some
        ([.row [decimal ((keyPairs left right).length % 2 ^ 64)]], after)) ∧
    (left.type = .I64 →
      engine.catalog.runSql strtod printDouble ns mode line = none) := by
  have wellFormed := live.settled.wellFormed
  have branch : engine.catalog.runSql strtod printDouble ns mode line =
      (engine.catalog.hashJoinCount (engine.catalog.columnId lk)
        (engine.catalog.columnId rk)).map fun answer =>
          ([.row [decimal answer.1.toNat]], answer.2) := by
    unfold Catalog.runSql
    rw [form.route]
    dsimp only
    rw [runJoin_eq wellFormed keys printDouble strtod mode form,
      Catalog.joinBranch, if_pos (countsPairs_star star)]
  constructor
  · intro typed
    obtain ⟨after, _, _, ran⟩ := hashJoinCount_u32 wellFormed keys typed
    rw [branch, ran]
    exact ⟨after, rfl⟩
  · intro typed
    rw [branch, hashJoinCount_i64 keys typed]
    rfl

/-- `COUNT(*)` of a join prints the number of pairs, over which an aggregate or
a projection of the same join ranges, exactly when the keys are `uint32` and 64
bits can hold it.  With `int64` keys the shell aborts. -/
theorem countsEveryPair_iff (printDouble : UInt64 → Bytes)
    (ns : Nat → UInt64) (mode : OutMode) :
    (∃ pairs after, engine.catalog.joinPairs left.type
        (engine.catalog.columnId lk) (engine.catalog.columnId rk) =
          some (pairs, after) ∧
        pairs.length = (keyPairs left right).length) ∧
    ((∃ after, engine.catalog.runSql strtod printDouble ns mode line =
        some ([.row [decimal (keyPairs left right).length]], after)) ↔
      left.type = .U32 ∧ (keyPairs left right).length < 2 ^ 64) := by
  have wellFormed := live.settled.wellFormed
  obtain ⟨counted, aborted⟩ :=
    runSql_star live keys form star printDouble ns mode
  constructor
  · obtain ⟨after, _, _, ran⟩ := joinPairs_eq wellFormed keys
    exact ⟨_, after, ran, List.length_map _⟩
  · constructor
    · rintro ⟨after, ran⟩
      cases typed : left.type with
      | U32 =>
          obtain ⟨after', ran'⟩ := counted typed
          have same := Option.some.inj (ran.symm.trans ran')
          simp only [Prod.mk.injEq, List.cons.injEq, CliLine.row.injEq,
            decimal_inj] at same
          have small := Nat.mod_lt (keyPairs left right).length
            (by decide : 0 < 2 ^ 64)
          exact ⟨rfl, by omega⟩
      | I64 =>
          rw [aborted typed] at ran
          cases ran
      | F64 => exact absurd typed keys.integer
    · rintro ⟨typed, small⟩
      obtain ⟨after, ran⟩ := counted typed
      rw [Nat.mod_eq_of_lt small] at ran
      exact ⟨after, ran⟩

end

/-! ## Joins of six columns -/

/-- Keys of either type, a measure and a dimension. -/
def sides : Option (Analytics ℚ) :=
  (Analytics.fresh 1024).afterCalls Analytics.noNumber
    [.loadScanColumn 1 [4, 4, 5], .nameColumn 1 (ascii "u"),
      .loadScanColumn 2 [4, 5], .nameColumn 2 (ascii "w"),
      .loadScanColumnI64 3 [1, 1, 2], .nameColumn 3 (ascii "x"),
      .loadScanColumnI64 4 [1, 2], .nameColumn 4 (ascii "y"),
      .loadScanColumnI64 5 [10, -20, 30], .nameColumn 5 (ascii "n*"),
      .loadScanColumn 6 [7, 3], .nameColumn 6 (ascii "g")]

/-- A column of eight-byte integers. -/
def wideColumn (values : List Int64) : ColumnView :=
  { type := .I64
    bytes := values.flatMap fun v => u64Bytes v.toUInt64
    nulls := none }

/-- A column of `uint32`. -/
def narrowColumn (values : List UInt32) : ColumnView :=
  { type := .U32, bytes := values.flatMap u32Bytes, nulls := none }

theorem exists_sides :
    ∃ engine : Analytics ℚ, Analytics.Live Analytics.noNumber engine ∧
      JoinKeys engine.catalog (ascii "u") (ascii "w")
        (narrowColumn [4, 4, 5]) (narrowColumn [4, 5]) ∧
      JoinKeys engine.catalog (ascii "x") (ascii "y")
        (wideColumn [1, 1, 2]) (wideColumn [1, 2]) ∧
      engine.catalog.view (engine.catalog.columnId (ascii "n*")) =
        some (wideColumn [10, -20, 30]) ∧
      engine.catalog.view (engine.catalog.columnId (ascii "g")) =
        some (narrowColumn [7, 3]) := by
  have seen : (sides.map fun engine =>
      ([ascii "u", ascii "w", ascii "x", ascii "y", ascii "n*",
        ascii "g"].map fun name =>
          (engine.catalog.view (engine.catalog.columnId name),
            engine.catalog.stringDictSize (engine.catalog.columnId name)))) =
      some [(some (narrowColumn [4, 4, 5]), 0),
        (some (narrowColumn [4, 5]), 0), (some (wideColumn [1, 1, 2]), 0),
        (some (wideColumn [1, 2]), 0), (some (wideColumn [10, -20, 30]), 0),
        (some (narrowColumn [7, 3]), 0)] := by
    decide +kernel
  obtain ⟨engine, made, same⟩ := Option.map_eq_some_iff.mp seen
  simp only [List.map_cons, List.map_nil, List.cons.injEq, Prod.mk.injEq,
    and_true] at same
  obtain ⟨u, w, x, y, measure, dimension⟩ := same
  exact ⟨engine, (Analytics.Live.fresh 1024).afterCalls made,
    ⟨u.1, w.1, u.2, w.2, rfl, by decide⟩,
    ⟨x.1, y.1, x.2, y.2, rfl, by decide⟩, measure.1, dimension.1⟩

/-- A line that is its own proof of being a join. -/
theorem joinForm_of_parts {line select lk rk : Bytes} {tail : List Bytes}
    (list : List Bytes) (routed : has " JOIN " (up line) = true)
    (cut : splitWs line = ascii "SELECT" :: list ++ ascii "JOIN" :: lk ::
      ascii "=" :: rk :: tail)
    (plain : (ascii "SELECT" :: list).all fun token => !isJoin token)
    (joined : select = joinTokens list) :
    JoinForm line select lk rk tail := by
  refine ⟨routed, ascii "SELECT", list, ascii "JOIN", cut, by decide, ?_,
    joined⟩
  intro token member spelled
  have other := List.all_eq_true.mp plain token member
  simp [isJoin, Spells] at other spelled
  exact other spelled

theorem countsEveryPair_iff_narrow :
    ∃ (engine : Analytics ℚ) (after : Catalog ℚ),
      engine.catalog.runSql Analytics.noNumber (fun _ => []) (fun _ => 0) .LIST
        (ascii "SELECT COUNT(*) JOIN u = w") =
          some ([.row [ascii "3"]], after) := by
  obtain ⟨engine, live, keys, _⟩ := exists_sides
  have form : JoinForm (ascii "SELECT COUNT(*) JOIN u = w") (ascii "COUNT(*)")
      (ascii "u") (ascii "w") [] :=
    joinForm_of_parts [ascii "COUNT(*)"] (by decide +kernel)
      (by decide +kernel) (by decide) (by decide)
  have three : (keyPairs (narrowColumn [4, 4, 5])
      (narrowColumn [4, 5])).length = 3 := by decide +kernel
  obtain ⟨after, ran⟩ := (countsEveryPair_iff live keys form (by decide)
    (fun _ => []) (fun _ => 0) .LIST).2.mpr ⟨rfl, by rw [three]; decide⟩
  rw [three] at ran
  exact ⟨engine, after, ran⟩

/-- Two `int64` columns with matching keys are not counted. -/
theorem star_aborts_wide :
    ∃ (engine : Analytics ℚ) (left right : ColumnView),
      Analytics.Live Analytics.noNumber engine ∧
      JoinKeys engine.catalog (ascii "x") (ascii "y") left right ∧
      left.type = .I64 ∧
      engine.catalog.runSql Analytics.noNumber (fun _ => []) (fun _ => 0)
        .LIST (ascii "SELECT COUNT(*) JOIN x = y") = none := by
  obtain ⟨engine, live, _, keys, _⟩ := exists_sides
  have form : JoinForm (ascii "SELECT COUNT(*) JOIN x = y") (ascii "COUNT(*)")
      (ascii "x") (ascii "y") [] :=
    joinForm_of_parts [ascii "COUNT(*)"] (by decide +kernel)
      (by decide +kernel) (by decide) (by decide)
  exact ⟨engine, _, _, live, keys, rfl,
    (runSql_star live keys form (by decide) (fun _ => []) (fun _ => 0)
      .LIST).2 rfl⟩

end MatrixDB
