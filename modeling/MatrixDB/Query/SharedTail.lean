import MatrixDB.Catalog.Alignment
import MatrixDB.Cli.Aggregates
import MatrixDB.Lib.Separated
import MatrixDB.Query.Comparisons
import MatrixDB.Query.Grouping
import MatrixDB.Query.Keeping
import MatrixDB.Query.Lexing

/-!
# One tail for all aggregates of a query

A query with several aggregates is cut in front of a blank and a keyword.  The
tokens need no blank there, or another one, and a tail that the cut does not
find stays with the last aggregate alone.
-/

namespace MatrixDB

open Lib CostArith

/-! ## Cutting a query -/

/-- A query is `SELECT`, a list and a tail, which has a blank in front. -/
structure Cut (sql list rest : Bytes) : Prop where
  whole : ∃ blanks word, sql = blanks ++ word ++ list ++ rest ∧
    (∀ c ∈ blanks, isSpace c) ∧ Spells word "SELECT"
  opens : ∀ c ∈ rest.head?, isSpace c
  begins : ∀ c ∈ (solid rest).head?, toUpper c ∈ ascii "WGO"

theorem toUpper_space {c : UInt8} (space : toUpper c = 32) : c = 32 := by
  revert c
  decide +kernel

theorem isSpace_of_letter {c : UInt8} (letter : toUpper c ∈ ascii "WGO") :
    isSpace c = false := by
  revert c
  decide +kernel

/-- A keyword behind a blank, in any letters. -/
theorem opens_of_keyword {word : String}
    (listed : word ∈ [" WHERE", " GROUP", " ORDER"]) {rest : Bytes}
    (stands : (ascii word).isPrefixOf (up rest)) :
    (∀ c ∈ rest.head?, isSpace c) ∧
      ∀ c ∈ (solid rest).head?, toUpper c ∈ ascii "WGO" := by
  obtain ⟨behind, same⟩ := List.isPrefixOf_iff_prefix.mp stands
  have start : ∃ d tail, ascii word = 32 :: d :: tail ∧
      d ∈ ascii "WGO" := by
    simp only [List.mem_cons, List.not_mem_nil, or_false] at listed
    rcases listed with rfl | rfl | rfl
    · exact ⟨_, _, rfl, by decide⟩
    · exact ⟨_, _, rfl, by decide⟩
    · exact ⟨_, _, rfl, by decide⟩
  obtain ⟨d, tail, spelled, letter⟩ := start
  rw [spelled] at same
  cases rest with
  | nil => cases same
  | cons c rest =>
      cases rest with
      | nil => simp [up] at same
      | cons e rest =>
          obtain ⟨first, later⟩ := List.cons.inj same
          obtain ⟨second, _⟩ := List.cons.inj later
          obtain rfl := toUpper_space first.symm
          rw [second] at letter
          have visible := isSpace_of_letter letter
          have blank : isSpace 32 = true := by decide
          constructor
          · intro c head
            cases head
            exact blank
          · intro c head
            simp [solid, blank, visible] at head
            rw [← head]
            exact letter

theorem findFrom_some {word text : Bytes} {start position : Nat}
    (found : findFrom word text start = some position) :
    word.isPrefixOf (text.drop position) ∧ start ≤ position := by
  have stands := List.find?_some found
  have listed := List.mem_of_find?_eq_some found
  obtain ⟨i, inside, rfl⟩ := List.getElem_of_mem listed
  refine ⟨stands, ?_⟩
  simp

/-- No keyword begins within the `SELECT`. -/
theorem six_le_keyword {word : String}
    (listed : word ∈ [" WHERE", " GROUP", " ORDER"]) {text : Bytes}
    (selects : (ascii "SELECT").isPrefixOf text) {position : Nat}
    (stands : (ascii word).isPrefixOf (text.drop position)) :
    6 ≤ position := by
  obtain ⟨behind, rfl⟩ := List.isPrefixOf_iff_prefix.mp selects
  obtain ⟨later, same⟩ := List.isPrefixOf_iff_prefix.mp stands
  have blank : (ascii word).head? = some 32 := by
    simp only [List.mem_cons, List.not_mem_nil, or_false] at listed
    rcases listed with rfl | rfl | rfl <;> rfl
  have first : (List.drop position (ascii "SELECT" ++ behind)).head? =
      some 32 := by
    rw [← same, List.head?_append, blank]
    rfl
  by_contra small
  have inside : position < 6 := by omega
  interval_cases position <;> cases first

/-- The first keyword cuts a text that begins with `SELECT`. -/
theorem cut_at_keyword {body list rest : Bytes} {start : Nat}
    (selects : (ascii "SELECT").isPrefixOf (up body))
    (found : (match ([" WHERE", " GROUP", " ORDER"].filterMap fun word =>
        findFrom (ascii word) (up body) start).min? with
      | none => (body.drop 6, [])
      | some tail => ((body.take tail).drop 6, body.drop tail)) =
        (list, rest)) : Cut body list rest := by
  have spelled : Spells (body.take 6) "SELECT" := by
    obtain ⟨behind, same⟩ := List.isPrefixOf_iff_prefix.mp selects
    rw [Spells, up, List.map_take]
    rw [up] at same
    rw [← same]
    rfl
  split at found
  · cases found
    refine ⟨⟨[], body.take 6, ?_, ?_, spelled⟩, ?_, ?_⟩
    · simp
    · simp
    · simp
    · simp [solid]
  · rename_i tail least
    cases found
    obtain ⟨word, listed, stands⟩ :=
      List.mem_filterMap.mp (List.min?_mem least)
    have begins := (findFrom_some stands).1
    have inside := six_le_keyword listed selects begins
    rw [up, ← List.map_drop] at begins
    obtain ⟨opens, plain⟩ := opens_of_keyword listed begins
    refine ⟨⟨[], body.take 6, ?_, ?_, spelled⟩, opens, plain⟩
    · have front : body.take 6 = (body.take tail).take 6 := by
        rw [List.take_take, Nat.min_eq_left inside]
      rw [List.nil_append, front, List.take_append_drop,
        List.take_append_drop]
    · simp

theorem Cut.skip {blanks body list rest : Bytes}
    (blank : ∀ c ∈ blanks, isSpace c) (cut : Cut body list rest) :
    Cut (blanks ++ body) list rest := by
  obtain ⟨⟨inner, word, rfl, blank', spelled⟩, opens, begins⟩ := cut
  refine ⟨⟨blanks ++ inner, word, ?_, ?_, spelled⟩, opens, begins⟩
  · simp only [List.append_assoc]
  · intro c member
    rcases List.mem_append.mp member with mine | mine
    · exact blank c mine
    · exact blank' c mine

theorem cut_of_splitSelect {sql list rest : Bytes}
    (found : splitSelect sql = some (list, rest)) : Cut sql list rest := by
  unfold splitSelect at found
  dsimp only at found
  split at found
  · rename_i selects
    have blank : ∀ c ∈ sql.takeWhile isSpace, isSpace c :=
      fun c member => List.mem_takeWhile_imp member
    have inner : Cut (sql.dropWhile isSpace) list rest := by
      apply @cut_at_keyword _ _ _ 6 selects
      split at found
      · rename_i none
        simpa only [none] using Option.some.inj found
      · rename_i tail least
        simpa only [least] using Option.some.inj found
    have outer := inner.skip blank
    rwa [List.takeWhile_append_dropWhile] at outer
  · cases found

theorem cut_of_cutLine {line : Bytes} (routed : isMultiAggregate line) :
    Cut line (cutLine line).1 (cutLine line).2 := by
  have selects : (ascii "SELECT").isPrefixOf (up line) := by
    unfold isMultiAggregate at routed
    simp only [Bool.and_eq_true] at routed
    exact routed.1.1
  exact @cut_at_keyword _ _ _ 0 selects rfl

/-! ## The rows of a tail -/

namespace MatrixQuery

/-- The same comparison, whatever it is that is compared. -/
structure SameBounds (q q' : MatrixQuery) : Prop where
  cmp : q'.cmp = q.cmp
  u32 : q'.threshold = q.threshold ∧ q'.upper = q.upper
  i64 : q'.loI64 = q.loI64 ∧ q'.hiI64 = q.hiI64
  f64 : q'.loF64 = q.loF64 ∧ q'.hiF64 = q.hiF64

/-- The same filter and the same groups, for two value columns. -/
structure SameTail (q q' : MatrixQuery) : Prop where
  bounds : q.SameBounds q'
  hasFilter : q'.hasFilter = q.hasFilter
  filtered : q.hasFilter = true → q'.filtered = q.filtered
  grouped : q'.grouped = q.grouped
  keyCol : q'.keyCol = q.keyCol
  numGroups : q'.numGroups = q.numGroups

theorem SameBounds.hits {q q' : MatrixQuery} (same : q.SameBounds q')
    (column : ColumnView) (row : Nat) :
    column.hits q' row = column.hits q row := by
  obtain ⟨cmp, ⟨threshold, upper⟩, ⟨loI64, hiI64⟩, loF64, hiF64⟩ := same
  simp only [ColumnView.hits, pred, predI64, predF64, cmp, threshold, upper,
    loI64, hiI64, loF64, hiF64]

theorem SameBounds.pred_eq {q q' : MatrixQuery} (same : q.SameBounds q') :
    q'.pred = q.pred := by
  simp only [pred, same.cmp, same.u32.1, same.u32.2]

end MatrixQuery

section
variable {κ : Type} {strtod : Bytes → StrtodResult} {catalog : Catalog κ}

theorem FilterPredicate.sameBounds {d : Dialect} {f : UInt64}
    {tokens rest : List Bytes} {set : MatrixQuery → MatrixQuery}
    (predicate : FilterPredicate strtod catalog d f tokens set rest)
    {q q' : MatrixQuery} (same : q.SameBounds q') :
    (set q).SameBounds (set q') := by
  obtain ⟨_, ⟨threshold, upper⟩, ⟨loI64, hiI64⟩, loF64, hiF64⟩ := same
  cases predicate with
  | @number _ _ _ bound =>
      cases bound <;> constructor <;>
        simp [Bound.put, threshold, upper, loI64, hiI64, loF64, hiF64]
  | @numbers _ _ _ _ least most =>
      cases least <;> cases most <;> constructor <;>
        simp [Bound.put, threshold, upper, loI64, hiI64, loF64, hiF64]
  | string => constructor <;> simp [upper, loI64, hiI64, loF64, hiF64]
  | strings => constructor <;> simp [loI64, hiI64, loF64, hiF64]
  | openStrings => constructor <;> simp [loI64, hiI64, loF64, hiF64]

theorem FilterPredicate.unique {f : UInt64} {tokens rest rest' : List Bytes}
    {set set' : MatrixQuery → MatrixQuery}
    (present : ∀ token ∈ tokens, token ≠ [])
    (predicate : FilterPredicate strtod catalog implemented f tokens set rest)
    (predicate' : FilterPredicate strtod catalog implemented f tokens set'
      rest') (q : MatrixQuery) : set' q = set q ∧ rest' = rest := by
  have first := (predicate_ok present).mpr ⟨set, predicate, (rfl : _ = set q)⟩
  have second :=
    (predicate_ok present).mpr ⟨set', predicate', (rfl : _ = set' q)⟩
  exact Prod.mk.inj (Except.ok.inj (second.symm.trans first))

/-- What two value columns make of one filter. -/
theorem WhereClause.same {vid vid' : UInt64} {tokens rest rest' : List Bytes}
    {set set' : MatrixQuery → MatrixQuery}
    (present : ∀ token ∈ tokens, token ≠ [])
    (clause : WhereClause strtod catalog implemented vid tokens set rest)
    (clause' : WhereClause strtod catalog implemented vid' tokens set' rest')
    (behind : peek rest ≠ ascii "WHERE")
    (behind' : peek rest' ≠ ascii "WHERE") {q q' : MatrixQuery}
    (own : q.valueCol = vid) (own' : q'.valueCol = vid')
    (bounds : q.SameBounds q') (unfiltered : q'.hasFilter = q.hasFilter)
    (none : q.hasFilter = false) :
    rest' = rest ∧ (set q).SameBounds (set' q') ∧
      (set' q').hasFilter = (set q).hasFilter ∧
      ((set q).hasFilter = true →
        (set' q').filtered = (set q).filtered) := by
  cases clause with
  | absent =>
      cases clause' with
      | absent =>
          refine ⟨rfl, bounds, unfiltered, ?_⟩
          intro filters
          exact absurd (none.symm.trans filters) (by decide)
      | filter spelled => exact absurd spelled behind
  | @filter word f tokens _ set spelled known _ predicate =>
      cases clause' with
      | absent => exact absurd spelled behind'
      | filter _ _ _ predicate' =>
          have later : ∀ token ∈ tokens, token ≠ [] := by
            intro token member
            exact present token (by simp [member])
          subst own own'
          obtain ⟨equal, rfl⟩ := predicate.unique later predicate' { q' with
            filterCol := if catalog.columnId f = q'.valueCol then 0
              else catalog.columnId f
            hasFilter := true }
          refine ⟨rfl, ?_, ?_, ?_⟩
          · dsimp only
            rw [equal]
            apply predicate.sameBounds
            exact ⟨bounds.cmp, bounds.u32, bounds.i64, bounds.f64⟩
          · dsimp only
            rw [equal, (predicate.filtered _).1, (predicate.filtered _).1]
          · intro _
            dsimp only
            rw [equal, (predicate.filtered _).2, (predicate.filtered _).2,
              MatrixQuery.filtered_where _ known,
              MatrixQuery.filtered_where _ known]

theorem TailClause.sameBounds {aggs aggs' : Bytes} {vid vid' : UInt64}
    {tokens tokens' : List Bytes} {finish finish' : MatrixQuery → MatrixQuery}
    (tail : TailClause catalog implemented aggs vid tokens finish)
    (tail' : TailClause catalog implemented aggs' vid' tokens' finish')
    {q q' : MatrixQuery} (same : q.SameBounds q') :
    (finish q).SameBounds (finish' q') := by
  obtain ⟨cmp, u32, i64, f64⟩ := same
  cases tail with
  | scalar =>
      cases tail' with
      | scalar => exact ⟨cmp, u32, i64, f64⟩
      | grouped => exact ⟨cmp, u32, i64, f64⟩
  | grouped =>
      cases tail' with
      | scalar => exact ⟨cmp, u32, i64, f64⟩
      | grouped => exact ⟨cmp, u32, i64, f64⟩

/-- What two value columns make of the groups of one tail. -/
theorem TailClause.same {aggs aggs' : Bytes} {vid vid' : UInt64}
    {tokens : List Bytes} {finish finish' : MatrixQuery → MatrixQuery}
    (tail : TailClause catalog implemented aggs vid tokens finish)
    (tail' : TailClause catalog implemented aggs' vid' tokens finish')
    {q q' : MatrixQuery} (plain : q.ungrouped = q)
    (plain' : q'.ungrouped = q') :
    (finish' q').grouped = (finish q).grouped ∧
      (finish' q').keyCol = (finish q).keyCol ∧
      (finish' q').numGroups = (finish q).numGroups := by
  cases tail with
  | scalar =>
      cases tail' with
      | scalar =>
          rw [← plain, ← plain']
          exact ⟨rfl, rfl, rfl⟩
      | grouped key => cases key
  | grouped key held =>
      cases tail' with
      | scalar => cases key
      | grouped key' held' =>
          obtain ⟨_, keyed⟩ := parseKey_complete key
          obtain ⟨_, keyed'⟩ := parseKey_complete key'
          cases keyed.symm.trans keyed'
          cases held.symm.trans held'
          exact ⟨rfl, rfl, rfl⟩

/-- The queries of two aggregates with one tail. -/
theorem sameTail_of_statements {word agg col word' agg' col' : Bytes}
    {tail : List Bytes} {q q' : MatrixQuery}
    (present : ∀ token ∈ tail, token ≠ [])
    (first : Statement strtod catalog implemented
      (word :: ([agg, ascii "(", col, ascii ")"] ++ tail)) q)
    (second : Statement strtod catalog implemented
      (word' :: ([agg', ascii "(", col', ascii ")"] ++ tail)) q') :
    q.SameTail q' := by
  obtain ⟨select, filter, ends⟩ := first
  obtain ⟨select', filter', ends'⟩ := second
  cases select
  cases select'
  obtain ⟨rfl, bounds, filters, column⟩ := filter.same present filter'
    ends.peek_ne ends'.peek_ne rfl rfl ⟨rfl, ⟨rfl, rfl⟩, ⟨rfl, rfl⟩, rfl, rfl⟩
    rfl rfl
  obtain ⟨_, plain, _⟩ := filter.frame
    { valueCol := catalog.columnId col, agg := _ }
  obtain ⟨_, plain', _⟩ := filter'.frame
    { valueCol := catalog.columnId col', agg := _ }
  obtain ⟨grouped, key, groups⟩ := ends.same ends' plain plain'
  obtain ⟨filters₁, _, column₁⟩ := ends.frame (_ : MatrixQuery)
  obtain ⟨filters₂, _, column₂⟩ := ends'.frame (_ : MatrixQuery)
  refine ⟨ends.sameBounds ends' bounds, ?_, ?_, grouped, key, groups⟩
  · rw [filters₁, filters₂]
    exact filters
  · rw [filters₁, column₁, column₂]
    exact column

/-! ## The rows of a result -/

/-- A result is what the columns of an engine give for a query. -/
def Catalog.Serves (catalog : Catalog κ) (q : MatrixQuery)
    (out : List UInt64) : Prop :=
  ∃ value, catalog.view q.valueCol = some value ∧
    Answered catalog.maxQueryGroups q value (catalog.view q.keyCol)
      (catalog.view q.filterCol) out

/-- Two queries take the same rows, into the same groups. -/
structure SameRows (catalog : Catalog κ) (q q' : MatrixQuery) : Prop where
  takes : ∀ value value', catalog.view q.valueCol = some value →
    catalog.view q'.valueCol = some value' → ∀ row,
      q'.takes value' (catalog.view q'.filterCol) row =
        q.takes value (catalog.view q.filterCol) row
  grouped : q'.grouped = q.grouped
  keyCol : q'.keyCol = q.keyCol
  numGroups : q'.numGroups = q.numGroups

theorem answered_cross_u32 {maxGroups : UInt32} {q : MatrixQuery}
    {value f : ColumnView} {key : Option ColumnView} {out : List UInt64}
    (answered : Answered maxGroups q value key (some f) out)
    (cross : q.crossFilter = true) : f.type = .U32 := by
  cases answered with
  | scalarCross _ _ found u32 =>
      cases found
      exact u32
  | groupedCross _ _ _ _ found u32 =>
      cases found
      exact u32
  | grouped own => exact absurd (own.symm.trans cross) (by decide)
  | nullable own => exact absurd (own.symm.trans cross) (by decide)
  | scan own => exact absurd (own.symm.trans cross) (by decide)

/-- The rows of an answered query pass the filter on the filtered column. -/
theorem takes_eq {q : MatrixQuery} {out : List UInt64} {value : ColumnView}
    (answers : catalog.Serves q out)
    (seen : catalog.view q.valueCol = some value) (row : Nat) :
    q.takes value (catalog.view q.filterCol) row = (!q.hasFilter ||
      (catalog.view q.filtered).any fun column => column.hits q row) := by
  obtain ⟨other, seen', answered⟩ := answers
  cases seen.symm.trans seen'
  cases cross : q.crossFilter with
  | true =>
      have parts := cross
      simp only [MatrixQuery.crossFilter, Bool.and_eq_true, bne_iff_ne] at parts
      obtain ⟨⟨filters, zero⟩, _⟩ := parts
      have column : q.filtered = q.filterCol := by
        rw [MatrixQuery.filtered, if_neg zero]
      rw [column, filters]
      cases found : catalog.view q.filterCol with
      | none => simp [MatrixQuery.takes, cross]
      | some f =>
          rw [found] at answered
          have u32 := answered_cross_u32 answered cross
          simp [MatrixQuery.takes, cross, ColumnView.hits, u32]
  | false =>
      rw [takes_own cross]
      cases filters : q.hasFilter with
      | false => rfl
      | true =>
          have column : q.filtered = q.valueCol := by
            rw [MatrixQuery.filtered]
            split
            · rfl
            · rename_i zero
              by_contra other
              have parts : q.crossFilter = true := by
                simp [MatrixQuery.crossFilter, filters, zero, other]
              rw [cross] at parts
              cases parts
          simp [column, seen]

theorem MatrixQuery.SameTail.sameRows {q q' : MatrixQuery}
    (same : q.SameTail q') {out out' : List UInt64}
    (answers : catalog.Serves q out) (answers' : catalog.Serves q' out') :
    SameRows catalog q q' := by
  refine ⟨?_, same.grouped, same.keyCol, same.numGroups⟩
  intro value value' seen seen' row
  rw [takes_eq answers seen, takes_eq answers' seen', same.hasFilter]
  cases filters : q.hasFilter with
  | false => rfl
  | true => simp only [same.filtered filters, same.bounds.hits]

/-! ## Runs of a list -/

/-- The aggregates of a list are parsed and answered one after another. -/
inductive TermRuns [CostArith κ] (strtod : Bytes → StrtodResult)
    (rest : Bytes) : Catalog κ → List Bytes → List MatrixQuery →
      List (List UInt64) → Catalog κ → Prop where
  | nil {catalog : Catalog κ} : TermRuns strtod rest catalog [] [] [] catalog
  | cons {catalog parsed ran after : Catalog κ} {term : Bytes}
      {terms : List Bytes} {q : MatrixQuery} {qs : List MatrixQuery}
      {out : List UInt64} {outs : List (List UInt64)} {ns : UInt64}
      (parses : catalog.parseQuery strtod (ascii "SELECT " ++ term ++ rest) =
        some (.OK, q, parsed))
      (answers : parsed.executeQuery ns q = some (.OK, out, ran))
      (others : TermRuns strtod rest ran terms qs outs after) :
      TermRuns strtod rest catalog (term :: terms) (q :: qs) (out :: outs)
        after

theorem queryTerms_runs [CostArith κ] {ns : Nat → UInt64} {rest : Bytes}
    {terms : List Bytes} {results outs : List (List UInt64)}
    {after : Catalog κ}
    (ran : Catalog.queryTerms strtod ns rest terms results catalog =
      some (outs, after)) :
    outs = [] ∨ ∃ qs later, outs = results ++ later ∧
      TermRuns strtod rest catalog terms qs later after := by
  induction terms generalizing results catalog with
  | nil =>
      cases ran
      exact .inr ⟨[], [], (List.append_nil _).symm, .nil⟩
  | cons term terms induction =>
      obtain ⟨⟨status, q, parsed⟩, parses, ran⟩ :=
        Option.bind_eq_some_iff.mp ran
      dsimp only at ran
      split at ran
      · rename_i ok
        subst ok
        obtain ⟨⟨status, out, answered⟩, answers, ran⟩ :=
          Option.bind_eq_some_iff.mp ran
        dsimp only at ran
        split at ran
        · rename_i ok
          subst ok
          rcases induction ran with none | ⟨qs, later, rfl, others⟩
          · exact .inl none
          · exact .inr ⟨q :: qs, out :: later, by simp,
              .cons parses answers others⟩
        · cases ran
          exact .inl rfl
      · cases ran
        exact .inl rfl

/-- What a run over the terms of a line adds to the columns before it. -/
theorem runTerms_columns [CostArith κ] {ns : Nat → UInt64} {rest : Bytes}
    {terms : List Bytes} {before columns : List AggregateColumn}
    {after : Catalog κ}
    (ran : Catalog.runTerms strtod ns rest terms before catalog =
      some (some columns, after)) :
    ∃ later, columns = before ++ later ∧
      later.map AggregateColumn.label = terms ∧
      TermRuns strtod rest catalog terms (later.map AggregateColumn.query)
        (later.map AggregateColumn.result) after := by
  induction terms generalizing before catalog with
  | nil =>
      cases ran
      exact ⟨[], (List.append_nil _).symm, rfl, .nil⟩
  | cons term terms induction =>
      obtain ⟨⟨status, q, parsed⟩, parses, ran⟩ :=
        Option.bind_eq_some_iff.mp ran
      dsimp only at ran
      split at ran
      · rename_i ok
        subst ok
        obtain ⟨⟨status, out, answered⟩, answers, ran⟩ :=
          Option.bind_eq_some_iff.mp ran
        dsimp only at ran
        split at ran
        · rename_i ok
          subst ok
          obtain ⟨later, rfl, labels, others⟩ := induction ran
          refine ⟨{ query := q, result := out, label := term } :: later, ?_,
            ?_, .cons parses answers others⟩
          · rw [List.append_assoc]
            rfl
          · rw [List.map_cons, labels]
        · cases ran
      · cases ran

/-- Every run is the statement of its own text over the same data. -/
theorem TermRuns.statements [SoundCost κ] {rest : Bytes}
    {before after : Catalog κ} {terms : List Bytes} {qs : List MatrixQuery}
    {outs : List (List UInt64)}
    (runs : TermRuns strtod rest before terms qs outs after)
    (keeps : Catalog.Keeps catalog before) :
    List.Forall₂ (fun term q => Statement strtod catalog implemented
        (matrixparseTokenize (ascii "SELECT " ++ term ++ rest)) q) terms qs ∧
      List.Forall₂ catalog.Serves qs outs := by
  induction runs with
  | nil => exact ⟨.nil, .nil⟩
  | @cons first parsed ran after term terms q qs out outs ns parses answers
      others induction =>
      have statement := keeps.statement
        ((parseQuery_ok_iff keeps.wellFormed).mp ⟨_, parses⟩)
      have keeps' := keeps.trans (keeps_parseQuery keeps.wellFormed parses)
      have keeps'' := keeps'.trans
        (Catalog.keeps_executeQuery keeps'.wellFormed answers)
      obtain ⟨value, seen, answered⟩ :=
        (Catalog.executeQuery_ok keeps'.wellFormed).mp ⟨_, answers⟩
      rw [keeps'.view, keeps'.view] at answered
      rw [keeps'.view] at seen
      rw [keeps'.maxQueryGroups] at answered
      obtain ⟨statements, answers'⟩ := induction keeps''
      exact ⟨.cons statement statements,
        .cons ⟨value, seen, answered⟩ answers'⟩

end

/-! ## Readings of a query -/

/-- The tokens of the pieces of a list that are not blank. -/
def elementsOf (pieces : List Bytes) : List (List Bytes) :=
  filled (pieces.map matrixparseTokenize)

/-- The text of a query as a list of aggregates and one tail. -/
inductive Reads : Bytes → List (List Bytes) → List Bytes → Prop where
  | reads {blanks word rest : Bytes} {pieces : List Bytes}
      (blank : ∀ c ∈ blanks, isSpace c) (spelled : Spells word "SELECT")
      (aggregates : ∀ element ∈ elementsOf pieces, ∃ agg col,
        element = [agg, ascii "(", col, ascii ")"]) :
      Reads (blanks ++ word ++ [','.toUInt8].intercalate pieces ++ rest)
        (elementsOf pieces) (matrixparseTokenize rest)

section
variable {κ : Type} (strtod : Bytes → StrtodResult) (catalog : Catalog κ)

/-- What is parsed for a term. -/
def termTokens (rest term : Bytes) : List Bytes :=
  matrixparseTokenize (ascii "SELECT " ++ term ++ rest)

/-- Every result of a query is that of its own aggregate with the one tail of
the query, and all of them are over the same rows and groups. -/
inductive SharesTail (sql rest : Bytes) (terms : List Bytes)
    (outs : List (List UInt64)) : Prop where
  | shares {elements : List (List Bytes)} {tail : List Bytes}
      {queries : List MatrixQuery} (reading : Reads sql elements tail)
      (parsed : terms.map (termTokens rest) =
        elements.map fun element => ascii "SELECT" :: (element ++ tail))
      (statements : List.Forall₂ (fun element q =>
        Statement strtod catalog implemented
          (ascii "SELECT" :: (element ++ tail)) q) elements queries)
      (results : List.Forall₂ catalog.Serves queries outs)
      (sameRows : ∀ q ∈ queries, ∀ q' ∈ queries, SameRows catalog q q')

/-- A query is accepted by `query_multi`, or by the shell as a line of several
aggregates: its list, its tail, the terms of the list and their results. -/
inductive AcceptsList [CostArith κ] (sql : Bytes) : Bytes → Bytes →
    List Bytes → List (List UInt64) → Prop where
  | queryMulti {ns : Nat → UInt64} {list rest : Bytes}
      {outs : List (List UInt64)} {after : Catalog κ}
      (cut : splitSelect sql = some (list, rest))
      (ran : catalog.queryMulti strtod ns sql = some (outs, after))
      (answered : outs ≠ []) :
      AcceptsList sql list rest (selectTerms list) outs
  | shell {ns : Nat → UInt64} {columns : List AggregateColumn}
      {after : Catalog κ} (routed : isMultiAggregate sql)
      (ran : catalog.multiAggregate strtod ns sql =
        some (some columns, after)) :
      AcceptsList sql (cutLine sql).1 (cutLine sql).2
        (lineTerms (cutLine sql).1) (columns.map (·.result))

end

theorem filled_solid (pieces : List Bytes) :
    filled (pieces.map solid) = (elementsOf pieces).map List.flatten := by
  induction pieces with
  | nil => rfl
  | cons piece pieces induction =>
      unfold elementsOf at induction ⊢
      rw [List.map_cons, List.map_cons]
      by_cases blank : matrixparseTokenize piece = []
      · have empty : solid piece = [] := by
          rw [← matrixparseTokenize_flatten, blank]
          rfl
        rw [blank, empty, filled_cons_nil, filled_cons_nil, induction]
      · have visible : solid piece ≠ [] := by
          intro empty
          exact blank (matrixparseTokenize_eq_nil.mpr (solid_eq_nil.mp empty))
        rw [filled_cons blank, filled_cons visible, List.map_cons, induction,
          matrixparseTokenize_flatten]

/-- The tokens of a text behind which a blank stands. -/
theorem termTokens_eq {rest : Bytes} (opens : ∀ c ∈ rest.head?, isSpace c)
    (term : Bytes) :
    termTokens rest term = ascii "SELECT" ::
      (matrixparseTokenize term ++ matrixparseTokenize rest) := by
  have front : ascii "SELECT " ++ term ++ rest =
      ascii "SELECT" ++ (32 :: (term ++ rest)) := rfl
  have blank : ∀ c ∈ (32 :: (term ++ rest) : Bytes).head?, isSpace c := by
    intro c head
    cases head
    decide
  have word : matrixparseTokenize (ascii "SELECT") = [ascii "SELECT"] := by
    decide +kernel
  rw [termTokens, front, matrixparseTokenize_append _ blank, word,
    matrixparseTokenize_cons, if_pos (by decide),
    matrixparseTokenize_append term opens]
  rfl

/-- Equal texts behind different lists of visible tokens. -/
theorem tokens_cancel {front front' behind behind' : List Bytes}
    (same : front ++ behind = front' ++ behind')
    (size : behind.flatten.length = behind'.flatten.length)
    (present : ∀ token ∈ behind, token ≠ [])
    (present' : ∀ token ∈ behind', token ≠ []) : front = front' := by
  have none : ∀ {extra tokens : List Bytes},
      (extra ++ tokens).flatten.length = tokens.flatten.length →
      (∀ token ∈ extra ++ tokens, token ≠ []) → extra = [] := by
    intro extra tokens size present
    rw [List.flatten_append, List.length_append] at size
    have empty : extra.flatten = [] := by
      apply List.length_eq_zero_iff.mp
      omega
    apply List.eq_nil_iff_forall_not_mem.mpr
    intro token member
    exact present token (List.mem_append_left _ member)
      (List.flatten_eq_nil_iff.mp empty token member)
  rcases List.append_eq_append_iff.mp same with
    ⟨extra, rfl, rfl⟩ | ⟨extra, rfl, rfl⟩
  · rw [none size present, List.append_nil]
  · rw [none size.symm present', List.append_nil]

theorem elementsOf_present (pieces : List Bytes) :
    ∀ element ∈ elementsOf pieces, element ≠ [] := by
  intro element member
  have kept := List.of_mem_filter member
  simpa using kept

/-- Blank pieces, and one more. -/
theorem elementsOf_last {pieces : List Bytes}
    (blank : ∀ piece ∈ pieces, matrixparseTokenize piece = []) (x : Bytes) :
    elementsOf (pieces ++ [x]) = filled [matrixparseTokenize x] := by
  have none : filled (pieces.map matrixparseTokenize) = [] := by
    apply filled_eq_nil.mpr
    intro tokens member
    obtain ⟨piece, listed, rfl⟩ := List.mem_map.mp member
    exact blank piece listed
  unfold elementsOf
  rw [List.map_append, filled, List.filter_append]
  unfold filled at none
  rw [none]
  rfl

theorem not_keyword_of_agg {c : UInt8} (letter : toUpper c ∈ ascii "CSM") :
    toUpper c ∉ ascii "WGO" ∧ c ≠ ','.toUInt8 := by
  revert c
  decide +kernel

/-- The name of an aggregate begins with none of the keywords of a tail, nor
with a comma. -/
theorem head_of_agg {agg : Bytes} {op : MatrixAggOp}
    (aggregate : aggOf (up agg) = .ok op) :
    ∃ c behind, agg = c :: behind ∧ toUpper c ∉ ascii "WGO" ∧
      c ≠ ','.toUInt8 := by
  cases agg with
  | nil => cases aggregate
  | cons c behind =>
      have letter : toUpper c ∈ ascii "CSM" := by
        unfold aggOf at aggregate
        split at aggregate
        · rename_i spelled
          rw [(List.cons.inj spelled).1]
          decide
        · split at aggregate
          · rename_i spelled
            rw [(List.cons.inj spelled).1]
            decide
          · split at aggregate
            · rename_i spelled
              rw [(List.cons.inj spelled).1]
              decide
            · split at aggregate
              · rename_i spelled
                rw [(List.cons.inj spelled).1]
                decide
              · cases aggregate
      exact ⟨c, behind, rfl, not_keyword_of_agg letter⟩

/-- A statement names an aggregate behind its `SELECT`. -/
theorem head_of_statement {κ : Type} {strtod : Bytes → StrtodResult}
    {catalog : Catalog κ} {tokens : List Bytes} {q : MatrixQuery}
    (statement : Statement strtod catalog implemented
      (ascii "SELECT" :: tokens) q) :
    ∃ agg col tail c behind,
      tokens = agg :: ascii "(" :: col :: ascii ")" :: tail ∧
      agg = c :: behind ∧ toUpper c ∉ ascii "WGO" ∧ c ≠ ','.toUInt8 := by
  obtain ⟨select, _, _⟩ := statement
  cases select with
  | @select _ agg col _ _ _ aggregate =>
      obtain ⟨c, behind, named⟩ := head_of_agg aggregate
      exact ⟨agg, col, _, c, behind, rfl, named⟩

theorem isSpace_of_select {c : UInt8} (letter : toUpper c ∈ ascii "SELECT") :
    isSpace c = false := by
  revert c
  decide +kernel

theorem length_of_spells {word : Bytes} (spelled : Spells word "SELECT") :
    word.length = 6 := by
  have size := congrArg List.length spelled
  rw [up, List.length_map] at size
  exact size

/-- The characters of a query. -/
theorem solid_text {blanks word list rest : Bytes}
    (blank : ∀ c ∈ blanks, isSpace c) (spelled : Spells word "SELECT") :
    solid (blanks ++ word ++ list ++ rest) =
      word ++ (solid list ++ solid rest) := by
  have none : solid blanks = [] := solid_eq_nil.mpr (List.all_eq_true.mpr blank)
  have all : solid word = word := by
    apply List.filter_eq_self.mpr
    intro c member
    have letter : toUpper c ∈ up word := List.mem_map_of_mem member
    rw [spelled] at letter
    simp [isSpace_of_select letter]
  rw [solid_append, solid_append, solid_append, none, all, List.nil_append,
    List.append_assoc]

theorem solid_intercalate (pieces : List Bytes) :
    solid ([','.toUInt8].intercalate pieces) =
      [','.toUInt8].intercalate (pieces.map solid) :=
  filter_intercalate (by decide) pieces

/-! ## The condition -/

section
variable {κ : Type} {strtod : Bytes → StrtodResult} {catalog : Catalog κ}
  {sql list rest : Bytes} {terms : List Bytes} {queries : List MatrixQuery}
  {outs : List (List UInt64)} (cut : Cut sql list rest)
  (listed : terms.map matrixparseTokenize =
    elementsOf (list.splitOn ','.toUInt8))
  (statements : List.Forall₂ (fun term q =>
    Statement strtod catalog implemented (termTokens rest term) q) terms
    queries)
  (results : List.Forall₂ catalog.Serves queries outs)

include statements results in
/-- A reading that the parser follows gives all aggregates its tail. -/
theorem sharesTail_of_reads {elements : List (List Bytes)} {text : Bytes}
    (reading : Reads sql elements (matrixparseTokenize text))
    (aggregates : ∀ element ∈ elements, ∃ agg col,
      element = [agg, ascii "(", col, ascii ")"])
    (parsed : terms.map (termTokens rest) = elements.map fun element =>
      ascii "SELECT" :: (element ++ matrixparseTokenize text)) :
    SharesTail strtod catalog sql rest terms outs := by
  have statements' : List.Forall₂ (fun element q =>
      Statement strtod catalog implemented
        (ascii "SELECT" :: (element ++ matrixparseTokenize text)) q)
      elements queries := by
    have both : List.Forall₂ (fun tokens q =>
        Statement strtod catalog implemented tokens q)
        (terms.map (termTokens rest)) queries :=
      List.forall₂_map_left_iff.mpr statements
    rw [parsed] at both
    exact List.forall₂_map_left_iff.mp both
  refine .shares reading parsed statements' results ?_
  have present := matrixparseTokenize_present text
  intro q member q' member'
  obtain ⟨element, listed, statement⟩ := related_left statements' member
  obtain ⟨element', listed', statement'⟩ := related_left statements' member'
  obtain ⟨out, _, serves⟩ := related_right results member
  obtain ⟨out', _, serves'⟩ := related_right results member'
  obtain ⟨agg, col, rfl⟩ := aggregates element listed
  obtain ⟨agg', col', rfl⟩ := aggregates element' listed'
  exact (sameTail_of_statements present statement statement').sameRows serves
    serves'

include listed statements cut in
/-- The terms of an accepted list, as they are parsed. -/
theorem term_statement {element : List Bytes}
    (member : element ∈ elementsOf (list.splitOn ','.toUInt8)) :
    ∃ q, Statement strtod catalog implemented
      (ascii "SELECT" :: (element ++ matrixparseTokenize rest)) q := by
  rw [← listed] at member
  obtain ⟨term, written, rfl⟩ := List.mem_map.mp member
  obtain ⟨q, _, statement⟩ := related_right statements written
  rw [termTokens_eq cut.opens] at statement
  exact ⟨q, statement⟩

include cut listed in
theorem map_termTokens :
    terms.map (termTokens rest) =
      (elementsOf (list.splitOn ','.toUInt8)).map fun element =>
        ascii "SELECT" :: (element ++ matrixparseTokenize rest) := by
  rw [← listed, List.map_map]
  apply List.map_congr_left
  intro term _
  exact termTokens_eq cut.opens term

include cut listed statements results in
/-- Aggregates of four tokens stand before the whole tail. -/
theorem sharesTail_of_four
    (four : ∀ term ∈ terms, (matrixparseTokenize term).length = 4) :
    SharesTail strtod catalog sql rest terms outs := by
  have aggregates : ∀ element ∈ elementsOf (list.splitOn ','.toUInt8),
      ∃ agg col, element = [agg, ascii "(", col, ascii ")"] := by
    intro element member
    obtain ⟨q, statement⟩ := term_statement cut listed statements member
    rw [← listed] at member
    obtain ⟨term, written, rfl⟩ := List.mem_map.mp member
    obtain ⟨agg, col, tail, _, _, whole, _⟩ := head_of_statement statement
    have size := four term written
    have front := congrArg (List.take 4) whole
    rw [List.take_append_of_le_length (by omega),
      List.take_of_length_le (by omega)] at front
    exact ⟨agg, col, front⟩
  obtain ⟨blanks, word, rfl, blank, spelled⟩ := cut.whole
  have reading := @Reads.reads blanks word rest
    (list.splitOn ','.toUInt8) blank spelled aggregates
  rw [List.intercalate_splitOn] at reading
  exact sharesTail_of_reads statements results reading aggregates
    (map_termTokens cut listed)

include cut listed statements results in
/-- A single aggregate keeps whatever stands behind it. -/
theorem sharesTail_of_last
    (last : ∀ piece ∈ (list.splitOn ','.toUInt8).dropLast,
      piece.all isSpace) :
    SharesTail strtod catalog sql rest terms outs := by
  have pieces := (List.dropLast_append_getLast
    (List.splitOn_ne_nil ','.toUInt8 list)).symm
  generalize (list.splitOn ','.toUInt8).dropLast = before at pieces last
  generalize (list.splitOn ','.toUInt8).getLast
    (List.splitOn_ne_nil ','.toUInt8 list) = piece at pieces
  have none : ∀ piece ∈ before, matrixparseTokenize piece = [] := by
    intro piece member
    exact matrixparseTokenize_eq_nil.mpr (last piece member)
  have single := elementsOf_last none piece
  rw [← pieces] at single
  by_cases blank : matrixparseTokenize piece = []
  · apply sharesTail_of_four cut listed statements results
    intro term written
    have empty : terms.map matrixparseTokenize = [] := by
      rw [listed, single, blank]
      rfl
    rw [List.map_eq_nil_iff.mp empty] at written
    cases written
  · have alone : elementsOf (list.splitOn ','.toUInt8) =
        [matrixparseTokenize piece] := by
      rw [single, filled_cons blank]
      rfl
    have member : matrixparseTokenize piece ∈
        elementsOf (list.splitOn ','.toUInt8) := by simp [alone]
    obtain ⟨q, statement⟩ := term_statement cut listed statements member
    obtain ⟨agg, col, tail, _, _, whole, _⟩ := head_of_statement statement
    rw [← matrixparseTokenize_append piece cut.opens] at whole
    obtain ⟨x, y, same, front, back⟩ := exists_cut (piece ++ rest) 4
    rw [whole] at front back
    have elements : elementsOf (before ++ [x]) =
        [[agg, ascii "(", col, ascii ")"]] := by
      rw [elementsOf_last none x, front]
      rfl
    have aggregates : ∀ element ∈ elementsOf (before ++ [x]),
        ∃ agg col, element = [agg, ascii "(", col, ascii ")"] := by
      intro element member
      rw [elements, List.mem_singleton] at member
      exact ⟨agg, col, member⟩
    obtain ⟨blanks, word, text, blank, spelled⟩ := cut.whole
    have reading := @Reads.reads blanks word y (before ++ [x]) blank spelled
      aggregates
    have texts : [','.toUInt8].intercalate (before ++ [x]) ++ y =
        list ++ rest := by
      rw [intercalate_last _ same.symm, ← pieces, List.intercalate_splitOn]
    rw [List.append_assoc, texts, ← List.append_assoc, ← text] at reading
    refine sharesTail_of_reads statements results reading aggregates ?_
    rw [map_termTokens cut listed, alone, elements, back]
    rw [matrixparseTokenize_append piece cut.opens] at whole
    simp only [List.map_cons, List.map_nil, whole]
    rfl

include cut listed statements in
/-- Where all aggregates share the tail of a reading, the reading ends its
list where the cut does, unless there is a single aggregate, in last place. -/
theorem cut_of_sharesTail
    (shares : SharesTail strtod catalog sql rest terms outs) :
    (∀ term ∈ terms, (matrixparseTokenize term).length = 4) ∨
      ∀ piece ∈ (list.splitOn ','.toUInt8).dropLast, piece.all isSpace := by
  obtain ⟨reading, parsed, -, -, -⟩ := shares
  rw [map_termTokens cut listed] at parsed
  obtain ⟨blank, spelled, aggregates⟩ := reading
  rename_i blanks word behind pieces
  -- one element after another, with what is parsed behind it
  have pairs : List.Forall₂ (fun element element' : List Bytes =>
      element ++ matrixparseTokenize rest =
        element' ++ matrixparseTokenize behind)
      (elementsOf (list.splitOn ','.toUInt8)) (elementsOf pieces) := by
    rw [← List.forall₂_eq_eq_eq] at parsed
    have mapped := List.forall₂_map_right_iff.mp
      (List.forall₂_map_left_iff.mp parsed)
    exact mapped.imp fun _ _ same => (List.cons.inj same).2
  have aligned : List.Forall₂
      (fun piece piece' => piece ++ solid rest = piece' ++ solid behind)
      (filled ((list.splitOn ','.toUInt8).map solid))
      (filled (pieces.map solid)) := by
    rw [filled_solid, filled_solid]
    apply List.forall₂_map_left_iff.mpr
    apply List.forall₂_map_right_iff.mpr
    apply pairs.imp
    intro element element' same
    have texts := congrArg List.flatten same
    rwa [List.flatten_append, List.flatten_append,
      matrixparseTokenize_flatten, matrixparseTokenize_flatten] at texts
  -- the same characters, cut in two ways
  have texts : [','.toUInt8].intercalate
        ((list.splitOn ','.toUInt8).map solid) ++ solid rest =
      [','.toUInt8].intercalate (pieces.map solid) ++ solid behind := by
    obtain ⟨blanks', word', whole, blank', spelled'⟩ := cut.whole
    have characters := congrArg solid whole
    rw [solid_text blank spelled, solid_text blank' spelled',
      solid_intercalate] at characters
    have sizes : word.length = word'.length := by
      rw [length_of_spells spelled, length_of_spells spelled']
    have same := (List.append_inj characters sizes).2
    rw [← @List.intercalate_splitOn _ list _ _ ','.toUInt8,
      solid_intercalate] at same
    exact same.symm
  have plain : ∀ piece ∈ (list.splitOn ','.toUInt8).map solid,
      ','.toUInt8 ∉ piece := by
    intro piece member
    obtain ⟨raw, written, rfl⟩ := List.mem_map.mp member
    intro comma
    exact not_mem_of_splitOn raw written (List.mem_of_mem_filter comma)
  have starts : ∀ piece ∈ pieces.map solid,
      piece.head? ≠ some ','.toUInt8 := by
    intro piece member
    obtain ⟨raw, written, rfl⟩ := List.mem_map.mp member
    rw [← matrixparseTokenize_flatten]
    by_cases empty : matrixparseTokenize raw = []
    · rw [empty]
      simp
    · have kept : matrixparseTokenize raw ∈ elementsOf pieces := by
        apply List.mem_filter.mpr
        exact ⟨List.mem_map_of_mem written, by simpa using empty⟩
      obtain ⟨element, other, equal⟩ := related_left pairs kept
      obtain ⟨q, statement⟩ := term_statement cut listed statements other
      obtain ⟨agg, col, front⟩ := aggregates _ kept
      rw [equal, front] at statement
      obtain ⟨_, _, _, c, later, whole, named, _, comma⟩ :=
        head_of_statement statement
      rw [front, (List.cons.inj whole).1, named]
      intro head
      exact comma (Option.some.inj head)
  have opens : (solid rest).head? ≠ some ','.toUInt8 := by
    intro comma
    have letter := cut.begins _ comma
    exact absurd letter (by decide)
  rcases same_rest_or_last plain starts opens texts aligned with same | last
  · left
    intro term written
    have member : matrixparseTokenize term ∈
        elementsOf (list.splitOn ','.toUInt8) := by
      rw [← listed]
      exact List.mem_map_of_mem written
    obtain ⟨element, other, equal⟩ := related_right pairs member
    obtain ⟨agg, col, rfl⟩ := aggregates element other
    have size : (matrixparseTokenize rest).flatten.length =
        (matrixparseTokenize behind).flatten.length := by
      rw [matrixparseTokenize_flatten, matrixparseTokenize_flatten, same]
    rw [tokens_cancel equal size (matrixparseTokenize_present rest)
      (matrixparseTokenize_present behind)]
    rfl
  · right
    intro piece member
    apply solid_eq_nil.mp
    apply last
    rw [← List.map_dropLast]
    exact List.mem_map_of_mem member

end

/-- The terms of a list, however they are trimmed. -/
theorem map_terms {trimmed : Bytes → Bytes} {list : Bytes}
    (same : ∀ text, matrixparseTokenize (trimmed text) =
      matrixparseTokenize text)
    (visible : ∀ term ∈ ((list.splitOn ','.toUInt8).map trimmed).filter
      (fun term => term ≠ []), matrixparseTokenize term ≠ []) :
    (((list.splitOn ','.toUInt8).map trimmed).filter
        fun term => term ≠ []).map matrixparseTokenize =
      elementsOf (list.splitOn ','.toUInt8) := by
  generalize list.splitOn ','.toUInt8 = pieces at visible ⊢
  induction pieces with
  | nil => rfl
  | cons piece pieces induction =>
      unfold elementsOf at induction ⊢
      rw [List.map_cons, List.map_cons]
      rw [List.map_cons] at visible
      by_cases empty : trimmed piece = []
      · have none : matrixparseTokenize piece = [] := by
          rw [← same, empty]
          rfl
        rw [none, filled_cons_nil,
          List.filter_cons_of_neg (by simpa using empty)]
        rw [List.filter_cons_of_neg (by simpa using empty)] at visible
        exact induction visible
      · rw [List.filter_cons_of_pos (by simpa using empty)] at visible ⊢
        have present := visible _ List.mem_cons_self
        rw [same] at present
        rw [List.map_cons, filled_cons present, same]
        exact congrArg _ (induction fun term member =>
          visible term (List.mem_cons_of_mem _ member))

section
variable {κ : Type} [SoundCost κ] {strtod : Bytes → StrtodResult}
  {catalog : Catalog κ} {sql list rest : Bytes} {terms : List Bytes}
  {outs : List (List UInt64)}

omit [SoundCost κ] in
/-- A term without tokens is not parsed. -/
theorem term_visible (cut : Cut sql list rest) {term : Bytes}
    {q : MatrixQuery} (statement : Statement strtod catalog implemented
      (termTokens rest term) q) : matrixparseTokenize term ≠ [] := by
  intro none
  rw [termTokens_eq cut.opens, none, List.nil_append] at statement
  obtain ⟨agg, col, tail, c, behind, whole, named, letter, _⟩ :=
    head_of_statement statement
  apply letter
  apply cut.begins
  rw [← matrixparseTokenize_flatten, whole, named]
  rfl

/-- What an accepted list consists of. -/
theorem AcceptsList.runs (wellFormed : catalog.WellFormed)
    (accepted : AcceptsList strtod catalog sql list rest terms outs) :
    Cut sql list rest ∧
      terms.map matrixparseTokenize =
        elementsOf (list.splitOn ','.toUInt8) ∧
      ∃ queries, List.Forall₂ (fun term q =>
          Statement strtod catalog implemented (termTokens rest term) q)
          terms queries ∧
        List.Forall₂ catalog.Serves queries outs := by
  have spaces : ∀ c, isSpace c = true → isSpace c = true := fun _ space => space
  have blanks : ∀ c, isCliBlank c = true → isSpace c = true := by
    decide +kernel
  have facts : ∀ {list rest : Bytes} {terms : List Bytes}
      {qs : List MatrixQuery} {outs : List (List UInt64)} {after : Catalog κ},
      TermRuns strtod rest catalog terms qs outs after → Cut sql list rest →
      (∀ term ∈ terms, matrixparseTokenize term ≠ []) ∧
      ∃ queries, List.Forall₂ (fun term q =>
          Statement strtod catalog implemented (termTokens rest term) q)
          terms queries ∧
        List.Forall₂ catalog.Serves queries outs := by
    intro list rest terms qs outs after runs cut
    obtain ⟨statements, results⟩ := runs.statements (.refl wellFormed)
    refine ⟨?_, qs, statements, results⟩
    intro term member
    obtain ⟨q, _, statement⟩ := related_right statements member
    exact term_visible cut statement
  cases accepted with
  | @queryMulti ns _ _ _ after cut ran answered =>
      unfold Catalog.queryMulti at ran
      rw [cut] at ran
      rcases queryTerms_runs ran with none | ⟨qs, later, same, runs⟩
      · exact absurd none answered
      · rw [List.nil_append] at same
        subst same
        obtain ⟨visible, queries, statements, results⟩ :=
          facts runs (cut_of_splitSelect cut)
        exact ⟨cut_of_splitSelect cut,
          map_terms (matrixparseTokenize_trimmed spaces) visible, queries,
          statements, results⟩
  | @shell ns columns after routed ran =>
      obtain ⟨⟨found, back⟩, ran, same⟩ := Option.bind_eq_some_iff.mp ran
      have kept : found.filter (fun columns => columns ≠ []) =
          some columns := congrArg Prod.fst (Option.some.inj same)
      obtain ⟨rfl, _⟩ := Option.filter_eq_some_iff.mp kept
      obtain ⟨later, rfl, _, runs⟩ := runTerms_columns ran
      obtain ⟨visible, queries, statements, results⟩ :=
        facts runs (cut_of_cutLine routed)
      exact ⟨cut_of_cutLine routed,
        map_terms (matrixparseTokenize_trimmed blanks) visible, queries,
        statements, results⟩

/-- All aggregates of an accepted query share its tail if and only if each of
them is four tokens, with nothing behind the bracket, or only one is written,
behind the last comma. -/
theorem sharesTail_iff_four (wellFormed : catalog.WellFormed)
    (accepted : AcceptsList strtod catalog sql list rest terms outs) :
    SharesTail strtod catalog sql rest terms outs ↔
      (∀ term ∈ terms, (matrixparseTokenize term).length = 4) ∨
        ∀ piece ∈ (list.splitOn ','.toUInt8).dropLast,
          piece.all isSpace := by
  obtain ⟨cut, listed, queries, statements, results⟩ :=
    accepted.runs wellFormed
  constructor
  · exact cut_of_sharesTail cut listed statements
  · rintro (four | last)
    · exact sharesTail_of_four cut listed statements results four
    · exact sharesTail_of_last cut listed statements results last

theorem sharesTail_iff (wellFormed : catalog.WellFormed)
    (accepted : AcceptsList strtod catalog sql list rest terms outs) :
    SharesTail strtod catalog sql rest terms outs ↔
      (∀ term ∈ terms, (matrixparseTokenize term).length = 4) ∨
        ∀ piece ∈ (list.splitOn ','.toUInt8).dropLast,
          piece.all isSpace :=
  sharesTail_iff_four wellFormed accepted

end

/-! ## Two aggregates of two rows -/

/-- A literal of no number. -/
def noDouble : Bytes → StrtodResult := fun _ => ⟨0, 0, false⟩

/-- Two aggregates of the shards, with some character before the `WHERE`. -/
def twoAggregates (c : UInt8) : Bytes :=
  ascii "SELECT COUNT(v), SUM(v)" ++ c :: ascii "WHERE k > 0"

theorem exists_twoAggregates {c : UInt8} {list rest : Bytes}
    {outs : List (List UInt64)}
    (cut : splitSelect (twoAggregates c) = some (list, rest))
    (ran : (shards [0, 1]).bind (fun catalog =>
      (catalog.queryMulti noDouble (fun _ => 0) (twoAggregates c)).map (·.1)) =
        some outs) (answered : outs ≠ []) :
    ∃ catalog, shards [0, 1] = some catalog ∧ catalog.WellFormed ∧
      AcceptsList noDouble catalog (twoAggregates c) list rest
        (selectTerms list) outs := by
  obtain ⟨catalog, made, mapped⟩ := Option.bind_eq_some_iff.mp ran
  obtain ⟨⟨results, after⟩, ran', rfl⟩ := Option.map_eq_some_iff.mp mapped
  exact ⟨catalog, made, wellFormed_shards made,
    .queryMulti cut ran' answered⟩

theorem sharesTail_shards :
    ∃ catalog, shards [0, 1] = some catalog ∧
      SharesTail noDouble catalog (twoAggregates 32) (ascii " WHERE k > 0")
        [ascii "COUNT(v)", ascii "SUM(v)"] [[1], [7]] := by
  have cut : splitSelect (twoAggregates 32) =
      some (ascii " COUNT(v), SUM(v)", ascii " WHERE k > 0") := by
    decide +kernel
  have listed : selectTerms (ascii " COUNT(v), SUM(v)") =
      [ascii "COUNT(v)", ascii "SUM(v)"] := by decide +kernel
  obtain ⟨catalog, made, wellFormed, accepted⟩ :=
    @exists_twoAggregates 32 _ _ [[1], [7]] cut (by decide +kernel) (by decide)
  rw [listed] at accepted
  refine ⟨catalog, made, (sharesTail_iff wellFormed accepted).mpr (.inl ?_)⟩
  decide +kernel

/-- With a tab before the `WHERE`, the count is that of both rows, and the sum
that of one. -/
theorem tail_of_one_aggregate :
    ∃ catalog list, shards [0, 1] = some catalog ∧ catalog.WellFormed ∧
      AcceptsList noDouble catalog (twoAggregates 9) list []
        (selectTerms list) [[2], [7]] ∧
      ¬ SharesTail noDouble catalog (twoAggregates 9) [] (selectTerms list)
        [[2], [7]] := by
  have cut : splitSelect (twoAggregates 9) =
      some (ascii " COUNT(v), SUM(v)" ++ 9 :: ascii "WHERE k > 0", []) := by
    decide +kernel
  obtain ⟨catalog, made, wellFormed, accepted⟩ :=
    @exists_twoAggregates 9 _ _ [[2], [7]] cut (by decide +kernel) (by decide)
  refine ⟨catalog, _, made, wellFormed, accepted, ?_⟩
  intro shares
  rcases (sharesTail_iff_four wellFormed accepted).mp shares with four | last
  · revert four
    decide +kernel
  · revert last
    decide +kernel

end MatrixDB
