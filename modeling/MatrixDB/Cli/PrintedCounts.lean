import MatrixDB.Cli.Cells
import MatrixDB.Query.Counts

/-!
# Printed counts

A count is printed as the number its answer stores.  That is the number of
rows the loop of the query has counted, but in a column of doubles it is the
bits of a double, and a loop that reads no null mask counts NULL rows too.
-/

namespace MatrixDB

open Lib Catalog ColumnView

section
variable {q : MatrixQuery} {value : ColumnView}
  {key filter : Option ColumnView} {g : Nat}

theorem inGroup_filter (p : Nat → Bool) (rows : List Nat) :
    q.inGroup key g (rows.filter p) = (q.inGroup key g rows).filter p := by
  unfold MatrixQuery.inGroup
  split
  · rw [classOf, classOf, List.filter_filter, List.filter_filter]
    apply List.filter_congr
    intro row _
    exact Bool.and_comm _ _
  · rfl

/-- Some of the rows that pass the filter are counted. -/
theorem counted_le (p : Nat → Bool) :
    (q.inGroup key g ((q.taken value filter).filter p)).length ≤
      value.rows := by
  have within : ∀ rows : List Nat,
      (q.inGroup key g rows).length ≤ rows.length := by
    intro rows
    unfold MatrixQuery.inGroup
    split
    · exact List.length_filter_le _ _
    · exact Nat.le_refl _
  calc (q.inGroup key g ((q.taken value filter).filter p)).length
      ≤ ((q.taken value filter).filter p).length := within _
    _ ≤ (q.taken value filter).length := List.length_filter_le _ _
    _ ≤ (List.range value.rows).length := List.length_filter_le _ _
    _ = value.rows := List.length_range

/-- No NULL row of the group is counted. -/
def MatrixQuery.CountsLive (q : MatrixQuery) (value : ColumnView)
    (key filter : Option ColumnView) (g : Nat) : Prop :=
  ∀ row ∈ q.inGroup key g (q.taken value filter),
    value.nullAt row = true → q.readsMask value = true

theorem length_folded_iff :
    (q.inGroup key g (q.folded value filter)).length =
        (q.inGroup key g (q.contributing value filter)).length ↔
      q.CountsLive value key filter g := by
  cases reads : q.readsMask value with
  | true =>
      rw [folded_eq reads]
      constructor
      · intro _ row _ _
        exact reads
      · intro _
        rfl
  | false =>
      rw [folded_unread reads, MatrixQuery.contributing, inGroup_filter,
        eq_comm, List.length_filter_eq_length_iff]
      constructor
      · intro live row member null
        have unmarked := live row member
        rw [null] at unmarked
        cases unmarked
      · intro live row member
        cases null : value.nullAt row with
        | false => rfl
        | true =>
            have read := live row member null
            rw [reads] at read
            cases read

theorem CountedAs.stored {ty : MatrixType} {rows : Nat} {bits : UInt64}
    (counted : CountedAs ty rows bits) (integers : ty ≠ .F64) :
    bits = UInt64.ofNat rows := by
  cases ty with
  | F64 => exact absurd rfl integers
  | U32 => exact counted
  | I64 => exact counted

/-- What is stored for a count is the number of contributing rows unless it is
a double or NULL rows are in it. -/
theorem countedAs_iff (fits : value.rows < 2 ^ 61) {bits : UInt64}
    (counted : CountedAs value.type
      (q.inGroup key g (q.folded value filter)).length bits) :
    bits.toNat = (q.inGroup key g (q.contributing value filter)).length ↔
      q.CountsLive value key filter g ∧
        (value.type = .F64 →
          q.inGroup key g (q.contributing value filter) = []) := by
  have few : (q.inGroup key g (q.folded value filter)).length ≤ value.rows :=
    counted_le _
  have fewer : (q.inGroup key g (q.contributing value filter)).length ≤
      value.rows := counted_le _
  have small : (q.inGroup key g (q.folded value filter)).length < 2 ^ 64 := by
    omega
  rw [← length_folded_iff, ← List.length_eq_zero_iff]
  by_cases integers : value.type ≠ .F64
  · rw [counted.stored integers, UInt64.toNat_ofNat_of_lt' small]
    simp [integers]
  · rw [not_not] at integers
    rw [integers] at counted ⊢
    unfold CountedAs at counted
    dsimp only at counted
    split at counted
    · rename_i none
      rw [counted, none]
      simp [eq_comm]
    · constructor
      · intro same
        omega
      · intro ⟨same, uncounted⟩
        have empty := uncounted rfl
        omega

end

section
variable {κ : Type} [SoundCost κ] {strtod : Bytes → StrtodResult}
  {engine : Analytics κ} {line : Bytes} {ns : Nat → UInt64}
  {printDouble : UInt64 → Bytes} {mode : OutMode} {lines : List CliLine}
  {after : Catalog κ} {first q : MatrixQuery} {g : Nat}
  {label : Option Bytes} {text : Bytes} {value : ColumnView}

omit [SoundCost κ] in
/-- A column has less than `2 ^ 61` rows. -/
theorem rows_lt_width {catalog : Catalog κ} (wellFormed : catalog.WellFormed)
    {id : UInt64} (seen : catalog.view id = some value) :
    value.rows < 2 ^ 61 := by
  have sized := wellFormed.sized id _ (contents_of_view seen)
  have width : 4 ≤ value.type.width := by
    cases value.type <;> decide
  have rows : value.rows ≤ value.bytes.length / 4 :=
    Nat.div_le_div_left width (by decide)
  unfold MAX_VECTOR_BYTES at sized
  omega

/-- What a printed count stores. -/
theorem Cell.stores (live : Analytics.Live strtod engine)
    (ran : engine.catalog.runSql strtod printDouble ns mode line =
      some (lines, after))
    (cell : Cell strtod engine.catalog line lines first q g label text)
    (counts : q.agg = AGG_COUNT)
    (seen : engine.catalog.view q.valueCol = some value) :
    ∃ bits : UInt64, text = decimal bits.toNat ∧
      value.rows < 2 ^ 61 ∧
      CountedAs value.type (q.inGroup (engine.catalog.view q.keyCol) g
        (q.folded value (engine.catalog.view q.filterCol))).length bits := by
  have settled := live.settled
  obtain ⟨out, bits, ⟨value', seen', answered⟩, found, shown⟩ :=
    (cell.shows settled ran).answer
  cases seen.symm.trans seen'
  have fits := rows_lt_width settled.wellFormed seen
  refine ⟨bits, ?_, fits, answered_counts counts (by omega) answered found⟩
  rw [shown]
  exact if_pos counts

/-- A printed count is the number of contributing rows of its group if and
only if no NULL row of the group is counted and the column is not of doubles,
or nothing is counted. -/
theorem printed_count_iff (live : Analytics.Live strtod engine)
    (ran : engine.catalog.runSql strtod printDouble ns mode line =
      some (lines, after))
    (cell : Cell strtod engine.catalog line lines first q g label text)
    (counts : q.agg = AGG_COUNT)
    (seen : engine.catalog.view q.valueCol = some value) :
    text = decimal (q.inGroup (engine.catalog.view q.keyCol) g
        (q.contributing value (engine.catalog.view q.filterCol))).length ↔
      q.CountsLive value (engine.catalog.view q.keyCol)
          (engine.catalog.view q.filterCol) g ∧
        (value.type = .F64 → q.inGroup (engine.catalog.view q.keyCol) g
          (q.contributing value (engine.catalog.view q.filterCol)) = []) := by
  obtain ⟨bits, rfl, fits, counted⟩ := cell.stores live ran counts seen
  rw [decimal_inj]
  exact countedAs_iff fits counted

/-- In a column of integers a printed count is the number of rows that the loop
of its query takes into the group. -/
theorem printed_counts (live : Analytics.Live strtod engine)
    (ran : engine.catalog.runSql strtod printDouble ns mode line =
      some (lines, after))
    (cell : Cell strtod engine.catalog line lines first q g label text)
    (counts : q.agg = AGG_COUNT)
    (seen : engine.catalog.view q.valueCol = some value)
    (integers : value.type ≠ .F64) :
    text = decimal (q.inGroup (engine.catalog.view q.keyCol) g
      (q.folded value (engine.catalog.view q.filterCol))).length := by
  obtain ⟨bits, rfl, fits, counted⟩ := cell.stores live ran counts seen
  have few : (q.inGroup (engine.catalog.view q.keyCol) g
      (q.folded value (engine.catalog.view q.filterCol))).length ≤
        value.rows := counted_le _
  rw [decimal_inj, counted.stored integers]
  exact UInt64.toNat_ofNat_of_lt' (show _ < 2 ^ 64 by omega)

end

/-! ## A NULL row -/

/-- Two columns, the first with a NULL row. -/
def surveyed : Option (Analytics ℚ) :=
  (Analytics.fresh 1024).afterCalls Analytics.noNumber
    [.loadScanColumn 1 [4, 7], .nameColumn 1 (ascii "a"),
      .setColumnNulls 1 [1, 0], .loadScanColumn 2 [5, 9],
      .nameColumn 2 (ascii "b")]

/-- A line with one aggregate that is its own proof of what it prints. -/
theorem exists_surveyed {line text : Bytes} {q : MatrixQuery}
    {value : ColumnView} {filter : Option ColumnView}
    (route : routeOf line = .single) (plain : q.grouped = false)
    (printed : (surveyed.bind fun engine =>
      (engine.catalog.parseQuery Analytics.noNumber line).bind fun parsed =>
        (engine.catalog.runSql Analytics.noNumber (fun _ => []) (fun _ => 0)
          .LIST line).bind fun ran =>
          (engine.catalog.view parsed.2.1.valueCol).map fun value =>
            (parsed.1, parsed.2.1, ran.1, value,
              engine.catalog.view parsed.2.1.filterCol)) =
      some (.OK, q, [.row [text]], value, filter)) :
    ∃ (engine : Analytics ℚ) (lines : List CliLine) (after : Catalog ℚ),
      Analytics.Live Analytics.noNumber engine ∧
      engine.catalog.runSql Analytics.noNumber (fun _ => []) (fun _ => 0)
          .LIST line = some (lines, after) ∧
      Cell Analytics.noNumber engine.catalog line lines q q 0 none text ∧
      engine.catalog.view q.valueCol = some value ∧
      engine.catalog.view q.filterCol = filter := by
  obtain ⟨engine, made, printed⟩ := Option.bind_eq_some_iff.mp printed
  obtain ⟨⟨status, q', parsed⟩, parses, printed⟩ :=
    Option.bind_eq_some_iff.mp printed
  obtain ⟨⟨lines, after⟩, ran, printed⟩ := Option.bind_eq_some_iff.mp printed
  obtain ⟨value', seen, same⟩ := Option.map_eq_some_iff.mp printed
  cases same
  exact ⟨engine, _, after, (Analytics.Live.fresh 1024).afterCalls made, ran,
    .scalar route parses plain rfl, seen, rfl⟩

theorem printed_counts_surveyed :
    ∃ (engine : Analytics ℚ) (q : MatrixQuery) (value : ColumnView),
      engine.catalog.view q.valueCol = some value ∧ value.nulls ≠ none ∧
      decimal 1 = decimal (q.inGroup (engine.catalog.view q.keyCol) 0
        (q.folded value (engine.catalog.view q.filterCol))).length := by
  obtain ⟨engine, lines, after, live, ran, cell, seen, _⟩ := @exists_surveyed
    (ascii "SELECT COUNT(a)") (decimal 1) { valueCol := 1, agg := AGG_COUNT }
    ⟨.U32, [4, 7].flatMap u32Bytes, some [1, 0]⟩ none (by decide +kernel) rfl
    (by decide +kernel)
  exact ⟨engine, _, _, seen, by decide,
    printed_counts live ran cell rfl seen (by decide)⟩

/-- Behind a filter on another column a NULL row is counted. -/
theorem null_row_printed :
    ∃ (engine : Analytics ℚ) (lines : List CliLine) (after : Catalog ℚ)
      (q : MatrixQuery) (value : ColumnView) (text : Bytes),
      Analytics.Live Analytics.noNumber engine ∧
      engine.catalog.runSql Analytics.noNumber (fun _ => []) (fun _ => 0)
          .LIST (ascii "SELECT COUNT(a) WHERE b > 1") =
        some (lines, after) ∧
      Cell Analytics.noNumber engine.catalog
        (ascii "SELECT COUNT(a) WHERE b > 1") lines q q 0 none text ∧
      q.agg = AGG_COUNT ∧ engine.catalog.view q.valueCol = some value ∧
      text ≠ decimal (q.inGroup (engine.catalog.view q.keyCol) 0
        (q.contributing value (engine.catalog.view q.filterCol))).length := by
  obtain ⟨engine, lines, after, live, ran, cell, seen, filter⟩ :=
    @exists_surveyed (ascii "SELECT COUNT(a) WHERE b > 1") (decimal 2)
      { valueCol := 1, agg := AGG_COUNT, hasFilter := true, filterCol := 2,
        threshold := 1 }
      ⟨.U32, [4, 7].flatMap u32Bytes, some [1, 0]⟩
      (some ⟨.U32, [5, 9].flatMap u32Bytes, none⟩) (by decide +kernel) rfl
      (by decide +kernel)
  refine ⟨engine, lines, after, _, _, _, live, ran, cell, rfl, seen, ?_⟩
  rw [filter, Ne, decimal_inj, MatrixQuery.inGroup, if_neg (by decide)]
  decide +kernel

end MatrixDB
