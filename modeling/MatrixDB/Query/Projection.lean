import MatrixDB.Query.SharedTail

/-!
# Projections

A projection names a column, and may have a `WHERE` on a `uint32` column and a
`LIMIT`, in this order.  Its clause is taken for that of a count, so the filter
is the one that an aggregate query with the same clause has.
-/

namespace MatrixDB

open Lib CostArith Catalog

variable {κ : Type}

/-! ## What a projection asks for -/

/-- The end of a projection. -/
inductive LimitClause : List Bytes → Option UInt64 → Prop where
  | absent : LimitClause [] none
  | limit {word decimal : Bytes} {n : UInt64} (spelled : Spells word "LIMIT")
      (number : fromCharsU64 decimal = some n) :
      LimitClause [word, decimal] (some n)

section
variable (strtod : Bytes → StrtodResult) (catalog : Catalog κ)

/-- The clause between the column and the limit.  Its predicate is the one of
any query that `parse_query` accepts with this clause. -/
inductive FilterClause (column : ColumnView) : List Bytes →
    Option (ColumnView × MatrixPredicate) → Prop where
  | absent : FilterClause column [] none
  | filter {word f sql select agg value : Bytes} {region : List Bytes}
      {q : MatrixQuery} {after : Catalog κ} {filter : ColumnView}
      (spelled : Spells word "WHERE")
      (seen : catalog.view (catalog.columnId f) = some filter)
      (u32 : filter.type = .U32) (aligned : filter.rows = column.rows)
      (clause : matrixparseTokenize sql = select ::
        ([agg, ascii "(", value, ascii ")"] ++ (word :: f :: region)))
      (parsed : catalog.parseQuery strtod sql = some (.OK, q, after)) :
      FilterClause column (word :: f :: region) (some (filter, q.pred))

/-- The tokens of a projection, the column, its filter and its limit. -/
inductive Projection : List Bytes → ColumnView →
    Option (ColumnView × MatrixPredicate) → Option UInt64 → Prop where
  | select {word name : Bytes} {region tail : List Bytes}
      {column : ColumnView} {filter : Option (ColumnView × MatrixPredicate)}
      {limit : Option UInt64} (spelled : Spells word "SELECT")
      (seen : catalog.view (catalog.columnId name) = some column)
      (unlimited : ∀ token ∈ region, ¬ Spells token "LIMIT")
      (filtered : FilterClause strtod catalog column region filter)
      (limited : LimitClause tail limit) :
      Projection (word :: name :: (region ++ tail)) column filter limit

end

/-- The first rows, up to a limit. -/
def upTo {A : Type} (limit : Option UInt64) (rows : List A) : List A :=
  match limit with
  | none => rows
  | some n => rows.take n.toNat

theorem limited_getD {A : Type} {limit : Option UInt64}
    (positive : limit ≠ some 0) (rows : List A) :
    limited (limit.getD 0) rows = upTo limit rows := by
  cases limit with
  | none => rfl
  | some n =>
      have nonzero : n ≠ 0 := fun zero => positive (congrArg some zero)
      exact if_neg nonzero

/-! ## The limit -/

theorem splitLimit_sound {tokens region : List Bytes} {limit : UInt64}
    (split : splitLimit tokens = some (region, limit)) :
    ∃ tail n, tokens = region ++ tail ∧ LimitClause tail n ∧
      limit = n.getD 0 ∧ ∀ token ∈ region, ¬ Spells token "LIMIT" := by
  have whole := List.takeWhile_append_dropWhile
    (p := fun token => !(up token == ascii "LIMIT")) (l := tokens)
  have unlimited : ∀ token ∈ tokens.takeWhile
      fun token => !(up token == ascii "LIMIT"),
      ¬ Spells token "LIMIT" := by
    intro token member
    simpa [Spells] using List.mem_takeWhile_imp member
  unfold splitLimit at split
  dsimp only at split
  cases rest : tokens.dropWhile fun token => !(up token == ascii "LIMIT") with
  | nil =>
      rw [rest] at split
      cases split
      rw [rest, List.append_nil] at whole
      rw [whole] at unlimited
      exact ⟨[], none, (List.append_nil _).symm, .absent, rfl, unlimited⟩
  | cons word behind =>
      rw [rest] at split whole
      have spelled : Spells word "LIMIT" := by
        have head := List.head?_dropWhile_not
          (fun token => !(up token == ascii "LIMIT")) tokens
        rw [rest] at head
        simpa [Spells] using head
      cases behind with
      | nil => cases split
      | cons decimal more =>
          cases more with
          | nil =>
              obtain ⟨n, number, same⟩ := Option.map_eq_some_iff.mp split
              cases same
              exact ⟨[word, decimal], some _, whole.symm,
                .limit spelled number, rfl, unlimited⟩
          | cons => cases split

theorem splitLimit_complete {region tail : List Bytes} {n : Option UInt64}
    (unlimited : ∀ token ∈ region, ¬ Spells token "LIMIT")
    (clause : LimitClause tail n) :
    splitLimit (region ++ tail) = some (region, n.getD 0) := by
  have skipped : ∀ token ∈ region, (!(up token == ascii "LIMIT")) = true := by
    intro token member
    simpa [Spells] using unlimited token member
  unfold splitLimit
  dsimp only
  rw [List.takeWhile_append_of_pos skipped,
    List.dropWhile_append_of_pos skipped]
  cases clause with
  | absent => simp
  | @limit word decimal n spelled number =>
      have stops : (!(up word == ascii "LIMIT")) = false := by
        simpa [Spells] using spelled
      simp [stops, number]

/-! ## The filter -/

section
variable {strtod : Bytes → StrtodResult} {catalog : Catalog κ}

theorem FilterPredicate.rest_suffix {d : Dialect} {f : UInt64}
    {tokens rest : List Bytes} {set : MatrixQuery → MatrixQuery}
    (predicate : FilterPredicate strtod catalog d f tokens set rest) :
    rest <:+ tokens := by
  cases predicate with
  | number => exact ⟨[_, _], rfl⟩
  | numbers => exact ⟨[_, _, _, _], rfl⟩
  | string => exact ⟨[_, _], rfl⟩
  | strings => exact ⟨[_, _, _, _], rfl⟩
  | openStrings => exact List.nil_suffix

/-- Without a limit, what follows a filter suits every aggregate. -/
theorem TailClause.unranked {d : Dialect} {aggs aggs' : Bytes}
    {vid vid' : UInt64} {tokens : List Bytes}
    {finish : MatrixQuery → MatrixQuery}
    (tail : TailClause catalog d aggs vid tokens finish)
    (unlimited : ∀ token ∈ tokens, ¬ Spells token "LIMIT") :
    TailClause catalog d aggs' vid' tokens finish := by
  cases tail with
  | scalar => exact .scalar
  | grouped key held ranking =>
      cases ranking with
      | absent => exact .grouped key held .absent
      | top _ _ _ _ limited =>
          cases key with
          | named => exact absurd limited (unlimited _ (by simp))

/-- The clause of an accepted query is accepted behind a count, with the same
predicate. -/
theorem count_of_statement {select agg value word f : Bytes}
    {region : List Bytes} {q : MatrixQuery}
    (present : ∀ token ∈ word :: f :: region, token ≠ [])
    (statement : Statement strtod catalog implemented (select ::
      ([agg, ascii "(", value, ascii ")"] ++ (word :: f :: region))) q)
    (spelled : Spells word "WHERE")
    (u32 : catalog.columnType (catalog.columnId f) = .U32)
    (unlimited : ∀ token ∈ region, ¬ Spells token "LIMIT") :
    ∃ q', Statement strtod catalog implemented (ascii "SELECT" ::
      ([ascii "COUNT", ascii "(", f, ascii ")"] ++ (word :: f :: region)))
        q' ∧ q'.hasFilter = true ∧ q'.pred = q.pred := by
  have whole := statement
  obtain ⟨selected, filter, ends⟩ := statement
  cases selected
  cases filter with
  | absent => exact absurd spelled ends.peek_ne
  | filter _ known _ predicate =>
      have later := fun token member =>
        unlimited token (predicate.rest_suffix.subset member)
      have counted : Statement strtod catalog implemented (ascii "SELECT" ::
          ([ascii "COUNT", ascii "(", f, ascii ")"] ++
            (word :: f :: region))) _ :=
        .query (.select rfl rfl known)
          (.filter spelled known (fun _ => u32) predicate)
          (ends.unranked later)
      have same := sameTail_of_statements present whole counted
      refine ⟨_, counted, ?_, same.bounds.pred_eq⟩
      rw [(ends.frame _).1, (predicate.filtered _).1]

/-! ## Running a projection -/

/-- The text that a clause is parsed in. -/
theorem tokenize_count {f : Bytes} {region : List Bytes}
    (alone : ∀ token ∈ f :: region, Tokens token [token]) :
    matrixparseTokenize (joinTokens (ascii "SELECT" :: ascii "COUNT" ::
        ascii "(" :: f :: ascii ")" :: region)) =
      ascii "SELECT" ::
        ([ascii "COUNT", ascii "(", f, ascii ")"] ++ region) := by
  have words : ∀ token ∈ [ascii "SELECT", ascii "COUNT", ascii "(",
      ascii ")"], Tokens token [token] := by
    intro token member
    have single : matrixparseTokenize token = [token] := by
      revert token
      decide
    have made := tokens_matrixparseTokenize token
    rwa [single] at made
  apply matrixparseTokenize_joinTokens
  intro token member
  simp only [List.mem_cons] at member words alone
  rcases member with same | same | same | same | same | later
  · exact words token (.inl same)
  · exact words token (.inr (.inl same))
  · exact words token (.inr (.inr (.inl same)))
  · exact alone token (.inl same)
  · exact words token (.inr (.inr (.inr (.inl same))))
  · exact alone token (.inr later)

theorem not_statement_where {word f : Bytes} {q : MatrixQuery}
    (spelled : Spells word "WHERE") :
    ¬ Statement strtod catalog implemented (ascii "SELECT" ::
      ([ascii "COUNT", ascii "(", f, ascii ")"] ++ [word])) q := by
  intro statement
  obtain ⟨selected, filter, ends⟩ := statement
  cases selected
  cases filter with
  | absent => exact absurd spelled ends.peek_ne

variable (wellFormed : catalog.WellFormed) (named : catalog.Named)

include wellFormed named in
theorem projectFiltered_sound {id : UInt64} {column : ColumnView}
    (seen : catalog.view id = some column) {word f : Bytes}
    {region rest : List Bytes} (spelled : Spells word "WHERE")
    (within : ∃ behind, region ++ rest = f :: behind)
    (alone : ∀ token ∈ f :: word :: region, Tokens token [token])
    (limit : UInt64) :
    ∃ out after, catalog.projectFiltered strtod id f (word :: region) limit =
        some (out, after) ∧ Untouched catalog after ∧
      (out ≠ [] → ∃ filter,
        FilterClause strtod catalog column (word :: region) filter) := by
  have nothing : ∀ after : Catalog κ, Untouched catalog after →
      ∃ out after', some (([] : List UInt64), after) = some (out, after') ∧
        Untouched catalog after' ∧ (out ≠ [] → ∃ filter,
          FilterClause strtod catalog column (word :: region) filter) := by
    intro after untouched
    exact ⟨[], after, rfl, untouched, fun filled => absurd rfl filled⟩
  unfold projectFiltered
  dsimp only
  split
  · exact nothing catalog (.refl catalog)
  · rename_i known
    obtain ⟨nonzero, u32⟩ := not_or.mp known
    obtain ⟨status, q, middle, parsed, untouched⟩ :=
      parseQuery_returns wellFormed named strtod (joinTokens
        (ascii "SELECT" :: ascii "COUNT" :: ascii "(" :: f :: ascii ")" ::
          word :: region))
    have keeps := keeps_parseQuery wellFormed parsed
    obtain ⟨bytes, held⟩ := named.held wellFormed nonzero
    obtain ⟨filter, filterSeen⟩ : ∃ filter,
        catalog.view (catalog.columnId f) = some filter := by
      rw [view, held]
      exact ⟨_, rfl⟩
    have seen' : middle.view id = some column := (keeps.view _).trans seen
    have filterSeen' : middle.view (catalog.columnId f) = some filter :=
      (keeps.view _).trans filterSeen
    rw [parsed]
    simp only [Option.bind_eq_bind, Option.bind_some,
      columnRows_of_view keeps.wellFormed seen',
      columnRows_of_view keeps.wellFormed filterSeen']
    split
    · rename_i accepted
      obtain ⟨rfl, _, aligned⟩ := accepted
      have typed : filter.type = .U32 := by
        rw [← columnType_of_view filterSeen]
        exact not_not.mp u32
      obtain ⟨after, _, untouched', ran⟩ := project_filtered_eq
        keeps.wellFormed seen' filterSeen' typed aligned q.pred limit
      refine ⟨_, after, ran, untouched.trans untouched', ?_⟩
      intro _
      have tokens := tokenize_count alone
      cases region with
      | nil =>
          have statement := (parseQuery_ok_iff wellFormed).mp ⟨_, parsed⟩
          rw [tokens] at statement
          exact absurd statement (not_statement_where spelled)
      | cons g region =>
          obtain ⟨behind, same⟩ := within
          cases same
          exact ⟨_, .filter spelled filterSeen typed aligned tokens parsed⟩
    · exact nothing middle untouched

include wellFormed named in
theorem projectFiltered_complete {id : UInt64} {column : ColumnView}
    (seen : catalog.view id = some column) {word f : Bytes}
    {region : List Bytes} {filter : ColumnView × MatrixPredicate}
    (alone : ∀ token ∈ f :: word :: f :: region, Tokens token [token])
    (unlimited : ∀ token ∈ region, ¬ Spells token "LIMIT")
    (clause : FilterClause strtod catalog column (word :: f :: region)
      (some filter)) (limit : UInt64) :
    ∃ after, Untouched catalog after ∧
      catalog.projectFiltered strtod id f (word :: f :: region) limit =
        some (limited limit (column.selected (some filter)), after) := by
  cases clause with
  | filter spelled filterSeen u32 aligned clause parsed =>
      rename_i q _ filter
      have statement := (parseQuery_ok_iff wellFormed).mp ⟨_, parsed⟩
      rw [clause] at statement
      have present : ∀ token ∈ word :: f :: region, token ≠ [] := by
        rintro token member rfl
        cases alone [] (.tail _ member)
      have typed : catalog.columnType (catalog.columnId f) = .U32 := by
        rw [columnType_of_view filterSeen]
        exact u32
      obtain ⟨q', counted, filters, same⟩ :=
        count_of_statement present statement spelled typed unlimited
      rw [← tokenize_count alone] at counted
      obtain ⟨middle, reparsed⟩ := (parseQuery_ok_iff wellFormed).mpr counted
      obtain ⟨status, q'', middle', ran, untouched⟩ :=
        parseQuery_returns wellFormed named strtod _
      cases reparsed.symm.trans ran
      have keeps := keeps_parseQuery wellFormed reparsed
      have seen' : middle.view id = some column := (keeps.view _).trans seen
      have filterSeen' : middle.view (catalog.columnId f) = some filter :=
        (keeps.view _).trans filterSeen
      have nonzero : catalog.columnId f ≠ 0 := by
        intro zero
        have held := contents_of_view filterSeen
        rw [zero, wellFormed.zero] at held
        cases held
      obtain ⟨after, _, untouched', projected⟩ := project_filtered_eq
        keeps.wellFormed seen' filterSeen' u32 aligned q'.pred limit
      rw [same] at projected
      refine ⟨after, untouched.trans untouched', ?_⟩
      unfold projectFiltered
      dsimp only
      have known : ¬ (catalog.columnId f = 0 ∨
          catalog.columnType (catalog.columnId f) ≠ .U32) :=
        not_or.mpr ⟨nonzero, not_not.mpr typed⟩
      rw [if_neg known, reparsed]
      simp only [Option.bind_eq_bind, Option.bind_some,
        columnRows_of_view keeps.wellFormed seen',
        columnRows_of_view keeps.wellFormed filterSeen']
      rw [if_pos ⟨trivial, filters, aligned⟩, same]
      exact projected

/-! ## Projections of a string -/

theorem view_of_known (wellFormed : catalog.WellFormed)
    (named : catalog.Named) {name : Bytes}
    (known : catalog.columnId name ≠ 0) :
    ∃ column, catalog.view (catalog.columnId name) = some column := by
  obtain ⟨bytes, held⟩ := named.held wellFormed known
  rw [view, held]
  exact ⟨_, rfl⟩

theorem known_of_view (wellFormed : catalog.WellFormed) {id : UInt64}
    {column : ColumnView} (seen : catalog.view id = some column) : id ≠ 0 := by
  rintro rfl
  have held := contents_of_view seen
  rw [wellFormed.zero] at held
  cases held

include wellFormed named in
/-- Every projection returns, leaves the columns where they are, and has an
empty result unless its string is well formed. -/
theorem projectQuery_sound (sql : Bytes) :
    ∃ out after, catalog.projectQuery strtod sql = some (out, after) ∧
      Untouched catalog after ∧
      (out ≠ [] → ∃ column filter limit, Projection strtod catalog
        (matrixparseTokenize sql) column filter limit) := by
  have nothing : ∃ out after, some (([] : List UInt64), catalog) =
      some (out, after) ∧ Untouched catalog after ∧
      (out ≠ [] → ∃ column filter limit, Projection strtod catalog
        (matrixparseTokenize sql) column filter limit) :=
    ⟨[], catalog, rfl, .refl catalog, fun filled => absurd rfl filled⟩
  have alone := (tokens_matrixparseTokenize sql).alone
  unfold projectQuery
  split
  rotate_left
  · exact nothing
  rename_i select col tokens tokenized
  dsimp only
  rw [tokenized] at alone nothing ⊢
  split
  · exact nothing
  rename_i valid
  obtain ⟨spelled, valid⟩ := not_or.mp valid
  obtain ⟨bare, known⟩ := not_or.mp valid
  obtain ⟨column, seen⟩ := view_of_known wellFormed named known
  split
  · exact nothing
  · rename_i limit split
    obtain ⟨tail, n, rfl, clause, rfl, unlimited⟩ := splitLimit_sound split
    obtain ⟨after, _, untouched, ran⟩ :=
      project_all_eq wellFormed seen _ (n.getD 0)
    exact ⟨_, after, ran, untouched, fun _ => ⟨column, none, n,
      .select (not_not.mp spelled) seen unlimited .absent clause⟩⟩
  · rename_i first region limit split
    obtain ⟨tail, n, rfl, clause, rfl, unlimited⟩ := splitLimit_sound split
    split
    · rename_i word fcol behind whole
      obtain ⟨_, same⟩ := List.cons.inj whole
      change region ++ tail = fcol :: behind at same
      split
      · rename_i where'
        have inside : ∀ token ∈ fcol :: first :: region,
            token ∈ select :: col :: (first :: region ++ tail) := by
          intro token member
          have later : fcol ∈ region ++ tail := by
            rw [same]
            exact List.mem_cons_self
          simp only [List.mem_append] at later
          simp only [List.cons_append, List.mem_cons, List.mem_append]
            at member ⊢
          rcases member with rfl | rfl | member
          · exact .inr (.inr (.inr later))
          · exact .inr (.inr (.inl rfl))
          · exact .inr (.inr (.inr (.inl member)))
        obtain ⟨out, after, ran, untouched, filled⟩ :=
          projectFiltered_sound wellFormed named seen where' ⟨behind, same⟩
            (fun token member => alone token (inside token member))
            (n.getD 0)
        refine ⟨out, after, ran, untouched, ?_⟩
        intro visible
        obtain ⟨filter, filtered⟩ := filled visible
        exact ⟨column, filter, n, .select (not_not.mp spelled) seen unlimited
          filtered clause⟩
      · exact nothing
    · exact nothing

include wellFormed named in
theorem projectQuery_complete {sql : Bytes} {column : ColumnView}
    {filter : Option (ColumnView × MatrixPredicate)} {limit : Option UInt64}
    (projection : Projection strtod catalog (matrixparseTokenize sql) column
      filter limit) :
    ∃ after, catalog.projectQuery strtod sql =
      some (limited (limit.getD 0) (column.selected filter), after) := by
  have alone := (tokens_matrixparseTokenize sql).alone
  generalize tokenized : matrixparseTokenize sql = tokens at projection alone
  cases projection with
  | @select word name region tail _ _ _ spelled seen unlimited filtered
      clause =>
    have bare : (next (region ++ tail)).1 ≠ ascii "(" := by
      cases filtered with
      | absent =>
          cases clause with
          | absent => decide
          | limit spelled =>
              rintro rfl
              cases spelled
      | filter spelled =>
          rintro rfl
          cases spelled
    have valid : ¬ (up word ≠ ascii "SELECT" ∨
        (next (region ++ tail)).1 = ascii "(" ∨ catalog.columnId name = 0) :=
      not_or.mpr ⟨not_not.mpr spelled,
        not_or.mpr ⟨bare, known_of_view wellFormed seen⟩⟩
    have split := splitLimit_complete unlimited clause
    unfold projectQuery
    rw [tokenized]
    dsimp only
    rw [if_neg valid, split]
    cases filtered with
    | absent =>
        obtain ⟨after, _, _, ran⟩ :=
          project_all_eq wellFormed seen { cmp := .GT, a := 0, b := 0 }
            (limit.getD 0)
        exact ⟨after, ran⟩
    | @filter where' f sql' select agg value region q parsed fview spelled'
        fseen u32 aligned tokens' parses =>
        have inside : ∀ token ∈ f :: where' :: f :: region,
            Tokens token [token] := by
          intro token member
          apply alone
          simp only [List.cons_append, List.mem_cons, List.mem_append]
            at member ⊢
          rcases member with rfl | rfl | rfl | member
          · exact .inr (.inr (.inr (.inl rfl)))
          · exact .inr (.inr (.inl rfl))
          · exact .inr (.inr (.inr (.inl rfl)))
          · exact .inr (.inr (.inr (.inr (.inl member))))
        have behind : ∀ token ∈ region, ¬ Spells token "LIMIT" := by
          intro token member
          exact unlimited token (.tail _ (.tail _ member))
        obtain ⟨after, _, ran⟩ := projectFiltered_complete wellFormed named
          seen inside behind
          (.filter spelled' fseen u32 aligned tokens' parses) (limit.getD 0)
        have named' : up where' = ascii "WHERE" := spelled'
        refine ⟨after, ?_⟩
        simp only [List.cons_append]
        rw [if_pos named']
        exact ran

end

section
variable [SoundCost κ] {strtod : Bytes → StrtodResult} {engine : Analytics κ}

/-- A projection reads no row that its column does not have, and leaves both
columns as they are.  Its result is empty unless the string is well formed, and
then, up to the limit, the values at the rows that the filter lets through. -/
theorem projectQuery_selects (live : Analytics.Live strtod engine)
    (sql : Bytes) :
    ∃ out after, engine.catalog.projectQuery strtod sql = some (out, after) ∧
      Untouched engine.catalog after ∧
      (out ≠ [] → ∃ column filter limit, Projection strtod engine.catalog
        (matrixparseTokenize sql) column filter limit) ∧
      ∀ column filter limit, Projection strtod engine.catalog
        (matrixparseTokenize sql) column filter limit → limit ≠ some 0 →
        out = upTo limit (column.selected filter) := by
  have wellFormed := live.settled.wellFormed
  obtain ⟨out, after, ran, untouched, filled⟩ :=
    projectQuery_sound wellFormed live.named sql
  refine ⟨out, after, ran, untouched, filled, ?_⟩
  intro column filter limit projection positive
  obtain ⟨after', ran'⟩ :=
    projectQuery_complete wellFormed live.named projection
  cases ran.symm.trans ran'
  exact limited_getD positive _

end

/-! ## A projection of three rows -/

/-- Two columns with names. -/
def tagged : Option (Analytics ℚ) := do
  let step := fun (engine : Analytics ℚ) (call : CatalogCall) =>
    (call.run Analytics.noNumber (fun _ => 0) engine).map (·.2)
  let engine ← step (.fresh 64) (.loadScanColumnI64 7 [10, 20, 30])
  let engine ← step engine (.loadScanColumn 8 [0, 1, 1])
  let engine ← step engine (.nameColumn 7 (ascii "v"))
  step engine (.nameColumn 8 (ascii "k"))

theorem live_tagged {engine : Analytics ℚ} (made : tagged = some engine) :
    Analytics.Live Analytics.noNumber engine := by
  have step : ∀ {engine after : Analytics ℚ} {call : CatalogCall},
      Analytics.Live Analytics.noNumber engine →
      (call.run Analytics.noNumber (fun _ => 0) engine).map (·.2) =
        some after → Analytics.Live Analytics.noNumber after := by
    intro engine after call live stepped
    obtain ⟨⟨result, _⟩, ran, same⟩ := Option.map_eq_some_iff.mp stepped
    cases same
    exact .call live ran
  unfold tagged at made
  obtain ⟨_, first, made⟩ := Option.bind_eq_some_iff.mp made
  obtain ⟨_, second, made⟩ := Option.bind_eq_some_iff.mp made
  obtain ⟨_, third, last⟩ := Option.bind_eq_some_iff.mp made
  exact step (step (step (step (.fresh 64) first) second) third) last

theorem projectQuery_selects_tagged :
    ∃ engine after column filter limit, tagged = some engine ∧
      engine.catalog.projectQuery Analytics.noNumber
        (ascii "SELECT v WHERE k = 1 LIMIT 1") = some ([20], after) ∧
      Untouched engine.catalog after ∧
      Projection Analytics.noNumber engine.catalog (matrixparseTokenize
        (ascii "SELECT v WHERE k = 1 LIMIT 1")) column filter limit ∧
      (limit ≠ some 0 → [20] = upTo limit (column.selected filter)) := by
  have evaluated : (tagged.bind fun engine =>
      (engine.catalog.projectQuery Analytics.noNumber
        (ascii "SELECT v WHERE k = 1 LIMIT 1")).map (·.1)) = some [20] := by
    decide +kernel
  obtain ⟨engine, made, found⟩ := Option.bind_eq_some_iff.mp evaluated
  obtain ⟨out, after, ran, untouched, filled, selects⟩ :=
    projectQuery_selects (live_tagged made)
      (ascii "SELECT v WHERE k = 1 LIMIT 1")
  rw [ran] at found
  cases found
  obtain ⟨column, filter, limit, projection⟩ := filled (by decide)
  exact ⟨engine, after, column, filter, limit, made, ran, untouched,
    projection, selects column filter limit projection⟩

end MatrixDB
