import MatrixDB.Catalog.Totality
import MatrixDB.Query.Keeping
import MatrixDB.Query.Projection
import MatrixDB.Query.Strings

/-!
# When a query string returns

Of the calls that take a string only the scalar aggregates can fail, where the
mask of their column is too short.
-/

namespace MatrixDB

open Lib CostArith Catalog

variable {κ : Type} {strtod : Bytes → StrtodResult} {catalog after : Catalog κ}

namespace Catalog

/-- What a text is parsed for. -/
def Parses (strtod : Bytes → StrtodResult) (catalog : Catalog κ) (sql : Bytes)
    (q : MatrixQuery) : Prop :=
  ∃ after, catalog.parseQuery strtod sql = some (.OK, q, after)

theorem forall_parses_iff {sql : Bytes} {status : MatrixQueryStatus}
    {q : MatrixQuery} {P : MatrixQuery → Prop}
    (parsed : catalog.parseQuery strtod sql = some (status, q, after)) :
    (∀ q', Parses strtod catalog sql q' → P q') ↔ (status = .OK → P q) := by
  constructor
  · rintro all rfl
    exact all q ⟨after, parsed⟩
  · rintro own q' ⟨other, parses⟩
    cases parsed.symm.trans parses
    exact own rfl

/-! ## What a query keeps -/

theorem Keeps.named (keeps : Keeps catalog after)
    (wellFormed : catalog.WellFormed) (named : catalog.Named) :
    after.Named := by
  intro name id stored
  rw [keeps.nameToId] at stored
  have registered := named name id stored
  rw [isSome_lookup_eq keeps.wellFormed, keeps.contents]
  rwa [isSome_lookup_eq wellFormed] at registered

theorem Keeps.back (keeps : Keeps catalog after)
    (wellFormed : catalog.WellFormed) : Keeps after catalog where
  wellFormed := wellFormed
  contents id := (keeps.contents id).symm
  colTypes := keeps.colTypes.symm
  nullMasks := keeps.nullMasks.symm
  stringDicts := keeps.stringDicts.symm
  stringEncoders := keeps.stringEncoders.symm
  columnNames := keeps.columnNames.symm
  nameToId := keeps.nameToId.symm
  maxQueryGroups := keeps.maxQueryGroups.symm

theorem Keeps.readsPastMask (keeps : Keeps catalog after)
    (wellFormed : catalog.WellFormed) (q : MatrixQuery) :
    after.ReadsPastMask q ↔ catalog.ReadsPastMask q := by
  unfold ReadsPastMask
  rw [catalogHas_view keeps.wellFormed, catalogHas_view wellFormed, keeps.view,
    keeps.nullMasks, keeps.columnRows wellFormed]

theorem not_readsPastMask {q : MatrixQuery} (grouped : q.grouped = true) :
    ¬ catalog.ReadsPastMask q := by
  rintro ⟨scalar, _⟩
  exact Bool.noConfusion (grouped.symm.trans scalar)

section
variable [SoundCost κ] (wellFormed : catalog.WellFormed)

include wellFormed

theorem isSome_executeQuery_iff (ns : UInt64) (q : MatrixQuery) :
    (catalog.executeQuery ns q).isSome ↔ ¬ catalog.ReadsPastMask q := by
  obtain ⟨after, _, ran⟩ := executeQuery_eq wellFormed ns q
  rw [ran, Option.isSome_map]
  exact answer_returns_iff wellFormed q

theorem isSome_groupsOf (ns : UInt64) (q : MatrixQuery) :
    (catalog.groupsOf ns q).isSome := by
  unfold groupsOf
  split
  · rename_i grouped
    rw [Option.isSome_map]
    exact (isSome_executeQuery_iff wellFormed ns q).mpr
      (not_readsPastMask grouped)
  · rfl

/-- Both queries of an average read the same rows. -/
theorem isSome_average_iff (ns : Nat → UInt64) (q : MatrixQuery) :
    (catalog.average ns q).isSome ↔ ¬ catalog.ReadsPastMask q := by
  have sum := isSome_executeQuery_iff wellFormed (ns 0)
    { q with agg := AGG_SUM }
  rw [average]
  cases ran : catalog.executeQuery (ns 0) { q with agg := AGG_SUM } with
  | none =>
      rw [ran] at sum
      exact sum
  | some answer =>
      obtain ⟨status, sv, middle⟩ := answer
      rw [ran] at sum
      have safe : ¬ catalog.ReadsPastMask q := sum.mp rfl
      have keeps := keeps_executeQuery wellFormed ran
      have count := (isSome_executeQuery_iff keeps.wellFormed (ns 1)
        { q with agg := AGG_COUNT }).mpr (by
          rw [keeps.readsPastMask wellFormed]
          exact safe)
      obtain ⟨⟨status', cv, last⟩, counted⟩ :=
        Option.isSome_iff_exists.mp count
      refine iff_of_true ?_ safe
      simp only [Option.bind_eq_bind, Option.bind_some]
      split
      · rw [counted]
        simp only [Option.bind_some]
        split
        · rfl
        · rfl
      · rfl

/-- The distinct values of the rows that are not NULL. -/
def distinctOf (column : ColumnView) (live : Nat → Bool) : UInt64 :=
  match column.type with
  | .U32 => distinctCount (u32At column.bytes) column.rows live
  | .I64 => distinctCount (i64At column.bytes) column.rows live
  | .F64 => distinctCount (f64At column.bytes) column.rows live

omit [SoundCost κ] wellFormed in
/-- A mask of the right length covers every row. -/
theorem isSome_liveRows (id : UInt64) (n : Nat) :
    (liveRows (catalog.valueNulls id n) n).isSome := by
  cases covered : catalog.valueNulls id n with
  | none => rfl
  | some mask =>
      obtain ⟨_, aligned⟩ := Option.filter_eq_some_iff.mp covered
      simp only [decide_eq_true_eq] at aligned
      simp [liveRows, aligned]

theorem scanBorrowed_some {A : Type} {ids : List UInt64}
    (registered : ∀ id ∈ ids, (catalog.contents id).isSome)
    {reduce : Catalog κ → Option A} {result : A}
    (reduced : ∀ lent, Lent catalog ids lent → reduce lent = some result) :
    ∃ after, Keeps catalog after ∧
      catalog.scanBorrowed ids reduce = some (result, after) :=
  scanBorrowed_eq wellFormed registered reduced

theorem countDistinct_eq {id : UInt64} {column : ColumnView}
    (seen : catalog.view id = some column) {live : Nat → Bool}
    (alive : liveRows (catalog.valueNulls id column.rows) column.rows =
      some live) :
    ∃ after, Keeps catalog after ∧
      catalog.countDistinct id = some (distinctOf column live, after) := by
  have registered : ∀ other ∈ [id], (catalog.contents other).isSome := by
    intro other member
    cases List.mem_singleton.mp member
    exact registered_of_view seen
  have typed := columnType_of_view seen
  have fit := rows_fit column
  have width : column.bytes.length / column.type.width = column.rows := rfl
  apply scanBorrowed_some wellFormed registered
  intro lent shows
  have lends := shows.lends List.mem_cons_self seen
  simp only [lends.hostBytes, lends.sizeBytes, shows.keeps.columnType, typed,
    shows.keeps.valueNulls, width, alive, Option.bind_eq_bind,
    Option.bind_some]
  unfold distinctOf
  cases type : column.type with
  | U32 =>
      rw [type] at fit
      simp only [u32Rows_eq fit, Option.map_some]
  | I64 =>
      rw [type] at fit
      simp only [i64Rows_eq fit, Option.map_some]
  | F64 =>
      rw [type] at fit
      simp only [f64Rows_eq fit, Option.map_some]

theorem isSome_countDistinct {id : UInt64} {column : ColumnView}
    (seen : catalog.view id = some column) :
    (catalog.countDistinct id).isSome := by
  obtain ⟨live, alive⟩ := Option.isSome_iff_exists.mp
    (isSome_liveRows id column.rows)
  obtain ⟨_, _, ran⟩ := countDistinct_eq wellFormed seen alive
  rw [ran]
  rfl

end

/-! ## Strings -/

/-- What is parsed for an average. -/
def averageText (sql : Bytes) : Option Bytes :=
  match matrixparseTokenize sql with
  | first :: agg :: tokens =>
      if up agg = ascii "AVG" then
        some (joinTokens (first :: ascii "SUM" :: tokens))
      else none
  | _ => none

/-- The scalar aggregate that a text is parsed for does not read past a
mask. -/
def WithinMasks (strtod : Bytes → StrtodResult) (catalog : Catalog κ)
    (sql : Bytes) : Prop :=
  ∀ q, catalog.Parses strtod sql q → ¬ catalog.ReadsPastMask q

section
variable [SoundCost κ] (wellFormed : catalog.WellFormed)
  (named : catalog.Named)

include wellFormed named

theorem isSome_avgQuery_iff (ns : Nat → UInt64) (sql : Bytes) :
    (catalog.avgQuery strtod ns sql).isSome ↔
      ∀ text ∈ averageText sql, catalog.WithinMasks strtod text := by
  unfold avgQuery averageText
  rcases tokenized : matrixparseTokenize sql with _ | ⟨first, _ | ⟨agg, tokens⟩⟩
  · simp
  · simp
  · dsimp only
    by_cases average : up agg = ascii "AVG"
    · rw [if_pos average, if_pos average]
      obtain ⟨status, q, middle, parsed, _⟩ := parseQuery_returns wellFormed
        named strtod (joinTokens (first :: ascii "SUM" :: tokens))
      have keeps := keeps_parseQuery wellFormed parsed
      simp only [Option.mem_def, Option.some.injEq, forall_eq', WithinMasks]
      rw [forall_parses_iff parsed, parsed]
      simp only [Option.bind_eq_bind, Option.bind_some]
      by_cases accepted : status = .OK
      · rw [if_pos accepted, isSome_average_iff keeps.wellFormed,
          keeps.readsPastMask wellFormed]
        exact ⟨fun safe _ => safe, fun safe => safe accepted⟩
      · rw [if_neg accepted]
        exact iff_of_true rfl fun other => absurd other accepted
    · rw [if_neg average, if_neg average]
      simp

theorem isSome_topQuery (ns : UInt64) (sql : Bytes) :
    (catalog.topQuery strtod ns sql).isSome := by
  obtain ⟨status, q, middle, parsed, _⟩ :=
    parseQuery_returns wellFormed named strtod sql
  have keeps := keeps_parseQuery wellFormed parsed
  unfold topQuery
  rw [parsed]
  simp only [Option.bind_eq_bind, Option.bind_some]
  split
  · rw [topGroups, Option.isSome_map]
    exact isSome_groupsOf keeps.wellFormed ns q
  · rfl

theorem isSome_havingQuery (ns : UInt64) (sql : Bytes) :
    (catalog.havingQuery strtod ns sql).isSome := by
  unfold havingQuery
  dsimp only
  split
  · obtain ⟨status, q, middle, parsed, _⟩ :=
      parseQuery_returns wellFormed named strtod
        (joinTokens ((matrixparseTokenize sql).takeWhile fun token =>
          !(up token == ascii "HAVING")))
    have keeps := keeps_parseQuery wellFormed parsed
    rw [parsed]
    simp only [Option.bind_eq_bind, Option.bind_some]
    split
    · split
      · rw [having, Option.isSome_map]
        exact isSome_groupsOf keeps.wellFormed ns q
      · rfl
    · rfl
  · rfl

theorem isSome_distinctQuery (sql : Bytes) :
    (catalog.distinctQuery sql).isSome := by
  unfold distinctQuery
  split
  · split
    · dsimp only
      split
      · rfl
      · rename_i known
        obtain ⟨column, seen⟩ := view_of_known wellFormed named known
        rw [Option.isSome_map]
        exact isSome_countDistinct wellFormed seen
    · rfl
  · rfl

end

end Catalog

end MatrixDB
