import MatrixDB.Cli.Routing

/-!
# The cells of a printed result

A line with aggregates is printed as a table: a row for each group, or one
row.  Each cell shows what some query answers for some group, whichever branch
has printed it.
-/

namespace MatrixDB

open Lib CostArith Catalog

/-! ## Lists -/

theorem mapM_eq_some_iff {A B : Type} {f : A → Option B} {xs : List A}
    {ys : List B} : xs.mapM f = some ys ↔ xs.map f = ys.map some := by
  induction xs generalizing ys with
  | nil => cases ys <;> simp
  | cons x xs induction =>
      rw [List.mapM_cons, List.map_cons]
      cases first : f x with
      | none => cases ys <;> simp
      | some y =>
          cases others : xs.mapM f with
          | none =>
              cases ys with
              | nil => simp
              | cons z ys =>
                  have failed : xs.map f ≠ ys.map some := by
                    intro same
                    rw [induction.mpr same] at others
                    cases others
                  simp [failed]
          | some rest =>
              rw [induction.mp others]
              cases ys with
              | nil => simp
              | cons z ys =>
                  simp [List.map_inj_right]

/-- An item of the result comes from the item at its place. -/
theorem getElem?_of_mapM {A B : Type} {f : A → Option B} {xs : List A}
    {ys : List B} {i : Nat} {y : B} (made : xs.mapM f = some ys)
    (listed : ys[i]? = some y) : ∃ x, xs[i]? = some x ∧ f x = some y := by
  have same := congrArg (fun items => items[i]?) (mapM_eq_some_iff.mp made)
  simp only [List.getElem?_map, listed, Option.map_some] at same
  exact Option.map_eq_some_iff.mp same

theorem forall₂_at {A B : Type} {R : A → B → Prop} {xs : List A} {ys : List B}
    (related : List.Forall₂ R xs ys) {i : Nat} {x : A} {y : B}
    (left : xs[i]? = some x) (right : ys[i]? = some y) : R x y := by
  induction related generalizing i with
  | nil => cases left
  | cons here _ induction =>
      cases i with
      | zero =>
          cases left
          cases right
          exact here
      | succ i => exact induction left right

theorem numbered_getElem? (out : List UInt64) (g : Nat) :
    (numbered out)[g]? = out[g]?.map fun bits => (UInt64.ofNat g, bits) := by
  rw [numbered, List.getElem?_map, List.getElem?_zipIdx]
  cases out[g]? <;> simp

/-- A pair of a group and its value, of less than `2 ^ 64` groups. -/
theorem getElem?_of_numbered {out : List UInt64} {pair : UInt64 × UInt64}
    (fits : out.length < 2 ^ 64) (member : pair ∈ numbered out) :
    out[pair.1.toNat]? = some pair.2 := by
  obtain ⟨g, listed⟩ := List.getElem?_of_mem member
  rw [numbered_getElem?] at listed
  obtain ⟨bits, found, rfl⟩ := Option.map_eq_some_iff.mp listed
  obtain ⟨inside, _⟩ := List.getElem?_eq_some_iff.mp found
  rw [UInt64.toNat_ofNat_of_lt' (Nat.lt_trans inside fits)]
  exact found

/-! ## Cells -/

section
variable {κ : Type} [CostArith κ] (strtod : Bytes → StrtodResult)
  (catalog : Catalog κ) (line : Bytes) (lines : List CliLine)

/-- The clauses of a line before its `HAVING`. -/
def havingHead (line : Bytes) : Bytes :=
  joinTokens ((matrixparseTokenize line).takeWhile fun token =>
    !(up token == ascii "HAVING"))

/-- The query of a term of a line. -/
structure TermQuery (c : Nat) (q : MatrixQuery) : Prop where
  parses : ∃ term after, (lineTerms (cutLine line).1)[c]? = some term ∧
    catalog.parseQuery strtod (ascii "SELECT " ++ term ++ (cutLine line).2) =
      some (.OK, q, after)

/-- A cell of the lines that are printed: the query that its label is made
for, the query whose answer it shows and the group of that, the label, and the
text. -/
inductive Cell : MatrixQuery → MatrixQuery → Nat → Option Bytes → Bytes →
    Prop where
  | scalar {q : MatrixQuery} {parsed : Catalog κ} {text : Bytes}
      (route : routeOf line = .single)
      (parses : catalog.parseQuery strtod line = some (.OK, q, parsed))
      (plain : q.grouped = false) (shown : lines = [.row [text]]) :
      Cell q q 0 none text
  | group {q : MatrixQuery} {parsed : Catalog κ} {g : Nat}
      {label text : Bytes} (route : routeOf line = .single)
      (parses : catalog.parseQuery strtod line = some (.OK, q, parsed))
      (grouped : q.grouped = true) (unlimited : q.limit = 0)
      (shown : lines[g]? = some (.row [label, text])) :
      Cell q q g (some label) text
  | top {q : MatrixQuery} {parsed after : Catalog κ} {ns : UInt64}
      {pairs : List (UInt64 × UInt64)} {i : Nat} {pair : UInt64 × UInt64}
      {label text : Bytes} (route : routeOf line = .single)
      (parses : catalog.parseQuery strtod line = some (.OK, q, parsed))
      (grouped : q.grouped = true) (limited : q.limit ≠ 0)
      (ranked : catalog.topQuery strtod ns line = some (pairs, after))
      (listed : pairs[i]? = some pair)
      (shown : lines[i]? = some (.row [label, text])) :
      Cell q q pair.1.toNat (some label) text
  | having {cut : Nat} {before q : MatrixQuery} {first parsed after : Catalog κ}
      {ns : UInt64} {pairs : List (UInt64 × UInt64)} {i : Nat}
      {pair : UInt64 × UInt64} {label text : Bytes}
      (route : routeOf line = .having cut)
      (cuts : catalog.parseQuery strtod (line.take cut) =
        some (.OK, before, first))
      (parses : catalog.parseQuery strtod (havingHead line) =
        some (.OK, q, parsed))
      (kept : catalog.havingQuery strtod ns line = some (pairs, after))
      (listed : pairs[i]? = some pair)
      (shown : lines[i]? = some (.row [label, text])) :
      Cell before q pair.1.toNat (some label) text
  | term {first q : MatrixQuery} {c : Nat} {labels values : List Bytes}
      {text : Bytes} (route : routeOf line = .multi)
      (heads : TermQuery strtod catalog line 0 first)
      (plain : first.grouped = false)
      (parses : TermQuery strtod catalog line c q)
      (shown : lines = [.row labels, .row values])
      (value : values[c]? = some text) : Cell first q 0 none text
  | groupTerm {first q : MatrixQuery} {c g : Nat} {label : Bytes}
      {values : List Bytes} {text : Bytes} (route : routeOf line = .multi)
      (heads : TermQuery strtod catalog line 0 first)
      (grouped : first.grouped = true)
      (parses : TermQuery strtod catalog line c q)
      (shown : lines[g + 1]? = some (.row (label :: values)))
      (value : values[c]? = some text) : Cell first q g (some label) text

end

/-- What a cell shows: the answer of its query for its group. -/
structure Shows {κ : Type} (printDouble : UInt64 → Bytes)
    (catalog : Catalog κ) (first q : MatrixQuery) (g : Nat)
    (label : Option Bytes) (text : Bytes) : Prop where
  answer : ∃ out bits, catalog.Serves q out ∧ out[g]? = some bits ∧
    text = catalog.decodeAgg printDouble q bits
  label : ∀ l ∈ label,
    l = catalog.groupLabel first.keyCol (UInt64.ofNat g)

section
variable {κ : Type} [SoundCost κ] {strtod : Bytes → StrtodResult}
  {catalog : Catalog κ} {q : MatrixQuery} {out : List UInt64}

omit [SoundCost κ] in
theorem Catalog.Serves.length_lt (serves : catalog.Serves q out) :
    out.length < 2 ^ 64 := by
  obtain ⟨value, _, answered⟩ := serves
  have groups := q.numGroups.toNat_lt
  rw [answered_length answered]
  split <;> omega

/-- An answer is what the columns give, whatever was parsed before. -/
theorem serves_of_answer {parsed after : Catalog κ} {n : UInt64}
    (keeps : Keeps catalog parsed)
    (answers : parsed.executeQuery n q = some (.OK, out, after)) :
    catalog.Serves q out := by
  obtain ⟨value, seen, answered⟩ :=
    (executeQuery_ok keeps.wellFormed).mp ⟨after, answers⟩
  rw [keeps.view, keeps.view, keeps.maxQueryGroups] at answered
  rw [keeps.view] at seen
  exact ⟨value, seen, answered⟩

omit [SoundCost κ] in
/-- A row of a grouped result, for a pair of the answer. -/
theorem shows_pair {printDouble : UInt64 → Bytes}
    (serves : catalog.Serves q out)
    {first : MatrixQuery} {pair : UInt64 × UInt64}
    (member : pair ∈ numbered out) {label text : Bytes}
    (labelled : label = catalog.groupLabel first.keyCol pair.1)
    (decoded : text = catalog.decodeAgg printDouble q pair.2) :
    Shows printDouble catalog first q pair.1.toNat (some label) text := by
  have found := getElem?_of_numbered serves.length_lt member
  refine ⟨⟨out, pair.2, serves, found, decoded⟩, ?_⟩
  intro l same
  rw [← Option.some.inj same, UInt64.ofNat_toNat]
  exact labelled

/-- A row of a list of pairs. -/
theorem row_of_pairs {κ : Type} {catalog : Catalog κ} {q : MatrixQuery}
    {printDouble : UInt64 → Bytes} {pairs : List (UInt64 × UInt64)} {i : Nat}
    {label text : Bytes}
    (shown : (pairs.map (catalog.groupRow printDouble q))[i]? =
      some (.row [label, text])) :
    ∃ pair, pairs[i]? = some pair ∧
      label = catalog.groupLabel q.keyCol pair.1 ∧
      text = catalog.decodeAgg printDouble q pair.2 := by
  rw [List.getElem?_map] at shown
  obtain ⟨pair, listed, same⟩ := Option.map_eq_some_iff.mp shown
  cases same
  exact ⟨pair, listed, rfl, rfl⟩

section
variable {parsed after : Catalog κ} {line : Bytes} {ns : Nat → UInt64}
  {printDouble : UInt64 → Bytes} {lines : List CliLine}

/-- The branch for one aggregate prints a result or an error. -/
theorem runSingle_cases (settled : catalog.Settled)
    (parses : catalog.parseQuery strtod line = some (.OK, q, parsed))
    (ran : catalog.runSingle strtod printDouble ns line =
      some (lines, after)) :
    (∃ message, lines = [.error message]) ∨
      ∃ out last, parsed.executeQuery (ns 0) q = some (.OK, out, last) ∧
        catalog.Serves q out ∧
        lines = resultRows printDouble catalog q out := by
  have keeps := keeps_parseQuery settled.wellFormed parses
  cases answers : parsed.executeQuery (ns 0) q with
  | none =>
      unfold Catalog.runSingle at ran
      rw [parses, Option.bind_eq_bind, Option.bind_some] at ran
      dsimp only at ran
      rw [if_pos rfl, answers] at ran
      cases ran
  | some result =>
      obtain ⟨status, out, last⟩ := result
      by_cases ok : status = .OK
      · subst ok
        obtain ⟨final, same⟩ := runSingle_eq settled parses answers printDouble
        cases ran.symm.trans same
        exact .inr ⟨out, last, rfl, serves_of_answer keeps answers, rfl⟩
      · unfold Catalog.runSingle at ran
        rw [parses, Option.bind_eq_bind, Option.bind_some] at ran
        dsimp only at ran
        rw [if_pos rfl, answers, Option.bind_eq_bind, Option.bind_some] at ran
        dsimp only at ran
        rw [if_neg ok] at ran
        cases ran
        exact .inl ⟨_, rfl⟩

/-! ### One aggregate -/

variable (settled : catalog.Settled)
  (parses : catalog.parseQuery strtod line = some (.OK, q, parsed))

include settled parses

theorem shows_scalar (plain : q.grouped = false) {text : Bytes}
    (ran : catalog.runSingle strtod printDouble ns line =
      some ([.row [text]], after)) :
    Shows printDouble catalog q q 0 none text := by
  rcases runSingle_cases settled parses ran with
    ⟨message, failed⟩ | ⟨out, last, _, serves, rows⟩
  · cases failed
  · obtain ⟨value, seen, answered⟩ := serves
    have size := answered_length answered
    rw [plain] at size
    obtain ⟨bits, rfl⟩ := List.length_eq_one_iff.mp size
    have row : resultRows printDouble catalog q [bits] =
        [.row [catalog.decodeAgg printDouble q bits]] := by
      simp [resultRows, plain]
    rw [row] at rows
    cases rows
    exact ⟨⟨[bits], bits, ⟨value, seen, answered⟩, rfl, rfl⟩, nofun⟩

theorem shows_group (grouped : q.grouped = true) (unlimited : q.limit = 0)
    (ran : catalog.runSingle strtod printDouble ns line =
      some (lines, after)) {g : Nat} {label text : Bytes}
    (shown : lines[g]? = some (.row [label, text])) :
    Shows printDouble catalog q q g (some label) text := by
  rcases runSingle_cases settled parses ran with
    ⟨message, rfl⟩ | ⟨out, last, _, serves, rfl⟩
  · rw [List.getElem?_singleton] at shown
    split at shown <;> cases shown
  · have rows : resultRows printDouble catalog q out =
        (numbered out).map (catalog.groupRow printDouble q) := by
      simp [resultRows, grouped, unlimited]
    rw [rows] at shown
    obtain ⟨pair, listed, rfl, rfl⟩ := row_of_pairs shown
    rw [numbered_getElem?] at listed
    obtain ⟨bits, found, rfl⟩ := Option.map_eq_some_iff.mp listed
    refine ⟨⟨out, bits, serves, found, rfl⟩, ?_⟩
    intro l same
    exact (Option.some.inj same).symm

theorem shows_top (grouped : q.grouped = true) (limited : q.limit ≠ 0)
    (ran : catalog.runSingle strtod printDouble ns line =
      some (lines, after)) {n : UInt64} {pairs : List (UInt64 × UInt64)}
    {other : Catalog κ}
    (ranked : catalog.topQuery strtod n line = some (pairs, other)) {i : Nat}
    {pair : UInt64 × UInt64} (listed : pairs[i]? = some pair)
    {label text : Bytes} (shown : lines[i]? = some (.row [label, text])) :
    Shows printDouble catalog q q pair.1.toNat (some label) text := by
  rcases runSingle_cases settled parses ran with
    ⟨message, rfl⟩ | ⟨out, last, answers, serves, rfl⟩
  · rw [List.getElem?_singleton] at shown
    split at shown <;> cases shown
  · have keptParsed := ((settled.kept.parseQuery strtod line).ensures _ _
      parses).2
    obtain ⟨⟨_, last'⟩, answers', rfl, _⟩ :=
      (keptParsed.executeQuery (ns 0) n q).follows answers
    obtain ⟨value, seen, _⟩ := (executeQuery_ok
      keptParsed.left.wellFormed).mp ⟨_, answers⟩
    have top := topQuery_answered ⟨grouped, parsed, parses, seen, answers'⟩
      limited
    cases ranked.symm.trans top
    have rows : resultRows printDouble catalog q out =
        (partialSort q.limit.toNat (numbered out)).map
          (catalog.groupRow printDouble q) := by
      simp [resultRows, grouped, limited]
    rw [rows] at shown
    obtain ⟨pair', listed', labelled, decoded⟩ := row_of_pairs shown
    cases listed.symm.trans listed'
    have member : pair ∈ numbered out :=
      (topOf_partialSort _ _).mem _ (List.mem_of_getElem? listed)
    exact shows_pair serves member labelled decoded

end

/-! ### `HAVING` -/

section
variable {before parsed first after : Catalog κ} {line : Bytes}
  {ns : Nat → UInt64} {printDouble : UInt64 → Bytes}
  {lines : List CliLine} {cut : Nat} {k : MatrixQuery}
  (settled : catalog.Settled)
  (parses : catalog.parseQuery strtod (havingHead line) =
    some (.OK, q, parsed))

include settled parses

/-- A `HAVING` keeps some groups of the answer to the clauses before it. -/
theorem havingQuery_pairs {n : UInt64} {pairs : List (UInt64 × UInt64)}
    (kept : catalog.havingQuery strtod n line = some (pairs, after)) :
    pairs = [] ∨ q.grouped = true ∧ ∃ out, catalog.Serves q out ∧
      ∀ pair ∈ pairs, pair ∈ numbered out := by
  have keeps := keeps_parseQuery settled.wellFormed parses
  unfold Catalog.havingQuery at kept
  unfold havingHead at parses
  dsimp only at kept
  split at kept
  · rw [parses, Option.bind_eq_bind, Option.bind_some] at kept
    dsimp only at kept
    split at kept
    · split at kept
      · obtain ⟨⟨groups, last⟩, ran, same⟩ := Option.map_eq_some_iff.mp kept
        cases same
        unfold Catalog.groupsOf at ran
        split at ran
        · rename_i grouped
          obtain ⟨⟨status, out, final⟩, answers, same⟩ :=
            Option.map_eq_some_iff.mp ran
          dsimp only at same
          split at same
          · rename_i ok
            subst ok
            cases same
            refine .inr ⟨grouped, out, serves_of_answer keeps answers, ?_⟩
            intro pair member
            exact List.mem_of_mem_filter member
          · cases same
            exact .inl rfl
        · cases ran
          exact .inl rfl
      · cases kept
        exact .inl rfl
    · cases kept
      exact .inl rfl
  · cases kept
    exact .inl rfl

omit [SoundCost κ] in
/-- The text before a word begins with the same aggregate. -/
theorem sameSelect_of_cut
    (cuts : catalog.parseQuery strtod (line.take cut) =
      some (.OK, k, first)) : k.agg = q.agg ∧ k.valueCol = q.valueCol := by
  have wellFormed := settled.wellFormed
  have left := (parseQuery_ok_iff wellFormed).mp ⟨_, cuts⟩
  have right := (parseQuery_ok_iff wellFormed).mp ⟨_, parses⟩
  have alone : ∀ token ∈ (matrixparseTokenize line).takeWhile fun token =>
      !(up token == ascii "HAVING"), Tokens token [token] := by
    intro token member
    exact (tokens_matrixparseTokenize line).alone token
      ((List.takeWhile_sublist _).subset member)
  rw [havingHead, matrixparseTokenize_joinTokens alone] at right
  obtain ⟨word, agg, col, behind, tokens, aggregate, column, _⟩ := left.begins
  obtain ⟨word', agg', col', behind', tokens', aggregate', column', _⟩ :=
    right.begins
  obtain ⟨later, whole⟩ :=
    matrixparseTokenize_goes_on (line.take cut) (line.drop cut)
  rw [List.take_append_drop, tokens] at whole
  have start := List.takeWhile_prefix (l := matrixparseTokenize line)
    fun token => !(up token == ascii "HAVING")
  rw [tokens', whole] at start
  obtain ⟨rest, same⟩ := start
  simp only [List.dropLast_cons_cons, List.cons_append, List.cons.injEq] at same
  obtain ⟨_, rfl, _, rfl, _⟩ := same
  refine ⟨?_, column.trans column'.symm⟩
  exact Except.ok.inj (aggregate.symm.trans aggregate')

omit [SoundCost κ] in
/-- A pair of the answer, printed for the text before a word. -/
theorem shows_before
    (cuts : catalog.parseQuery strtod (line.take cut) =
      some (.OK, k, first)) (serves : catalog.Serves q out)
    {pair : UInt64 × UInt64} (member : pair ∈ numbered out) :
    Shows printDouble catalog k q pair.1.toNat
      (some (catalog.groupLabel k.keyCol pair.1))
      (catalog.decodeAgg printDouble k pair.2) := by
  obtain ⟨agg, column⟩ := sameSelect_of_cut settled parses cuts
  apply shows_pair serves member rfl
  rw [Catalog.decodeAgg, Catalog.decodeAgg, agg, column]

theorem shows_having
    (ran : catalog.runHaving strtod printDouble ns line cut =
      some (lines, after))
    (cuts : catalog.parseQuery strtod (line.take cut) =
      some (.OK, k, first)) {n : UInt64} {other : Catalog κ}
    {pairs : List (UInt64 × UInt64)}
    (kept : catalog.havingQuery strtod n line = some (pairs, other)) {i : Nat}
    {pair : UInt64 × UInt64} (listed : pairs[i]? = some pair)
    {label text : Bytes} (shown : lines[i]? = some (.row [label, text])) :
    Shows printDouble catalog k q pair.1.toNat (some label) text := by
  have keptFirst := settled.kept.further
    (keeps_parseQuery settled.wellFormed cuts)
    ((settled.kept.parseQuery strtod _).ensures _ _ cuts).2.left
  obtain ⟨final, ran', keptFinal⟩ :=
    (keptFirst.havingQuery strtod n (ns 0) line).follows kept
  have rows : final.groupRow printDouble k = catalog.groupRow printDouble k :=
    funext (keptFinal.shown.groupRow printDouble k)
  unfold Catalog.runHaving at ran
  rw [cuts, Option.bind_eq_bind, Option.bind_some] at ran
  dsimp only at ran
  rw [if_pos rfl, ran', Option.bind_eq_bind, Option.bind_some] at ran
  dsimp only at ran
  rw [rows] at ran
  cases ran
  obtain ⟨pair', listed', labelled, decoded⟩ := row_of_pairs shown
  cases listed.symm.trans listed'
  rcases havingQuery_pairs settled parses kept with
    rfl | ⟨_, out, serves, among⟩
  · cases listed
  · rw [labelled, decoded]
    exact shows_before settled parses cuts serves
      (among pair (List.mem_of_getElem? listed))

end

/-! ### Several aggregates -/

theorem TermRuns.keeps {rest : Bytes} {before after : Catalog κ}
    {terms : List Bytes} {qs : List MatrixQuery} {outs : List (List UInt64)}
    (runs : TermRuns strtod rest before terms qs outs after)
    (keeps : Keeps catalog before) : Keeps catalog after := by
  induction runs with
  | nil => exact keeps
  | cons parses answers _ induction =>
      have keeps' := keeps.trans (keeps_parseQuery keeps.wellFormed parses)
      exact induction (keeps'.trans
        (keeps_executeQuery keeps'.wellFormed answers))

/-- The columns of a line, one for each of its terms. -/
structure LineColumns {κ : Type} [CostArith κ]
    (strtod : Bytes → StrtodResult) (catalog : Catalog κ) (line : Bytes)
    (columns : List AggregateColumn) (after : Catalog κ) : Prop where
  keeps : Keeps catalog after
  serves : ∀ (c : Nat) (column : AggregateColumn),
    columns[c]? = some column → catalog.Serves column.query column.result
  labels : columns.map AggregateColumn.label = lineTerms (cutLine line).1
  terms : ∀ (c : Nat) (column : AggregateColumn), columns[c]? = some column →
    TermQuery strtod catalog line c column.query

omit [SoundCost κ] in
/-- A term has one query. -/
theorem TermQuery.unique {line : Bytes} {c : Nat} {q' : MatrixQuery}
    (one : TermQuery strtod catalog line c q)
    (other : TermQuery strtod catalog line c q') : q = q' := by
  obtain ⟨term, after, listed, parses⟩ := one
  obtain ⟨term', after', listed', parses'⟩ := other
  cases listed.symm.trans listed'
  cases parses.symm.trans parses'
  rfl

theorem LineColumns.parsed {line : Bytes} {columns : List AggregateColumn}
    {after : Catalog κ}
    (lineColumns : LineColumns strtod catalog line columns after) {c : Nat}
    {column : AggregateColumn} (listed : columns[c]? = some column)
    (parses : TermQuery strtod catalog line c q) : q = column.query :=
  parses.unique (lineColumns.terms c column listed)

theorem LineColumns.first {line : Bytes} {head : AggregateColumn}
    {others : List AggregateColumn} {after : Catalog κ}
    (lineColumns : LineColumns strtod catalog line (head :: others) after)
    (parses : TermQuery strtod catalog line 0 q) : q = head.query :=
  lineColumns.parsed rfl parses

theorem lineColumns_of_runTerms {line : Bytes} {ns : Nat → UInt64}
    {columns : List AggregateColumn} {after : Catalog κ}
    (wellFormed : catalog.WellFormed)
    (ran : Catalog.runTerms strtod ns (cutLine line).2
      (lineTerms (cutLine line).1) [] catalog = some (some columns, after)) :
    LineColumns strtod catalog line columns after := by
  obtain ⟨later, same, labels, runs⟩ := runTerms_columns ran
  rw [List.nil_append] at same
  subst same
  obtain ⟨statements, answers⟩ := runs.statements (.refl wellFormed)
  refine ⟨runs.keeps (.refl wellFormed), ?_, labels, ?_⟩
  · intro c column listed
    apply forall₂_at answers
    · rw [List.getElem?_map, listed]
      rfl
    · rw [List.getElem?_map, listed]
      rfl
  · intro c column listed
    have term : (lineTerms (cutLine line).1)[c]? = some column.label := by
      rw [← labels, List.getElem?_map, listed]
      rfl
    have query : (columns.map AggregateColumn.query)[c]? =
        some column.query := by
      rw [List.getElem?_map, listed]
      rfl
    obtain ⟨other, parses⟩ := (parseQuery_ok_iff wellFormed).mpr
      (forall₂_at statements term query)
    exact ⟨column.label, other, term, parses⟩

section
variable {line : Bytes} {ns : Nat → UInt64} {printDouble : UInt64 → Bytes}
  {lines : List CliLine} {after : Catalog κ} (settled : catalog.Settled)
  (ran : catalog.runMulti strtod printDouble ns line = some (lines, after))

include settled ran

/-- Several aggregates are printed as an error, as one row, or as a row for
each group of the first. -/
theorem runMulti_cases :
    (∃ message, lines = [.error message]) ∨
      ∃ first others, LineColumns strtod catalog line (first :: others) after ∧
        ((first.query.grouped = false ∧
          lines = [.row ((first :: others).map AggregateColumn.label),
            .row ((first :: others).map fun column =>
              catalog.decodeAgg printDouble column.query
                (column.result.headD 0))]) ∨
        (first.query.grouped = true ∧ ∃ rows,
          (List.range first.result.length).mapM (catalog.multiRow printDouble
            first.query.keyCol (first :: others)) = some rows ∧
          lines = .row (ascii "key" ::
            (first :: others).map AggregateColumn.label) :: rows)) := by
  unfold Catalog.runMulti at ran
  dsimp only at ran
  obtain ⟨⟨columns, back⟩, terms, ran⟩ := Option.bind_eq_some_iff.mp ran
  dsimp only at ran
  split at ran
  · cases ran
    exact .inl ⟨_, rfl⟩
  · cases ran
    exact .inl ⟨_, rfl⟩
  · rename_i first others
    have columns := lineColumns_of_runTerms settled.wellFormed terms
    have same := columns.keeps.shown
    have decode : back.decodeAgg printDouble = catalog.decodeAgg printDouble :=
      funext fun q => funext (same.decodeAgg printDouble q)
    have row : back.multiRow printDouble = catalog.multiRow printDouble := by
      funext key columns g
      unfold Catalog.multiRow
      rw [decode, same.groupLabel]
    split at ran
    · rename_i grouped
      obtain ⟨rows, made, ran⟩ := Option.bind_eq_some_iff.mp ran
      cases ran
      rw [row] at made
      exact .inr ⟨first, others, columns, .inr ⟨grouped, rows, made, rfl⟩⟩
    · rename_i scalar
      cases ran
      rw [decode]
      exact .inr ⟨first, others, columns,
        .inl ⟨Bool.eq_false_iff.mpr scalar, rfl⟩⟩

theorem shows_term {first : MatrixQuery}
    (heads : TermQuery strtod catalog line 0 first)
    (plain : first.grouped = false) {c : Nat}
    (parses : TermQuery strtod catalog line c q)
    {labels values : List Bytes} (shown : lines = [.row labels, .row values])
    {text : Bytes} (value : values[c]? = some text) :
    Shows printDouble catalog first q 0 none text := by
  rcases runMulti_cases settled ran with ⟨message, rfl⟩ |
    ⟨head, others, columns, ⟨_, rfl⟩ | ⟨grouped, _⟩⟩
  · cases shown
  · cases shown
    rw [List.getElem?_map] at value
    obtain ⟨column, listed, rfl⟩ := Option.map_eq_some_iff.mp value
    obtain rfl := columns.parsed listed parses
    have serves := columns.serves c column listed
    obtain ⟨_, _, answered⟩ := serves
    obtain ⟨bits, rest, result⟩ :=
      List.exists_cons_of_ne_nil (answered_present answered)
    refine ⟨⟨column.result, bits, columns.serves c column listed, ?_, ?_⟩,
      nofun⟩
    · rw [result]
      rfl
    · rw [result]
      rfl
  · rw [← columns.first heads, plain] at grouped
    cases grouped

theorem shows_groupTerm {first : MatrixQuery}
    (heads : TermQuery strtod catalog line 0 first)
    (grouped : first.grouped = true) {c g : Nat}
    (parses : TermQuery strtod catalog line c q) {label : Bytes}
    {values : List Bytes}
    (shown : lines[g + 1]? = some (.row (label :: values))) {text : Bytes}
    (value : values[c]? = some text) :
    Shows printDouble catalog first q g (some label) text := by
  rcases runMulti_cases settled ran with ⟨message, rfl⟩ |
    ⟨head, others, columns, ⟨scalar, _⟩ | ⟨_, rows, made, rfl⟩⟩
  · cases shown
  · rw [← columns.first heads, grouped] at scalar
    cases scalar
  · have same := columns.first heads
    subst same
    rw [List.getElem?_cons_succ] at shown
    obtain ⟨g', listed, row⟩ := getElem?_of_mapM made shown
    obtain ⟨_, same⟩ := List.getElem?_eq_some_iff.mp listed
    rw [List.getElem_range] at same
    subst same
    obtain ⟨texts, cells, same⟩ := Option.map_eq_some_iff.mp row
    cases same
    obtain ⟨column, listed, shown⟩ := getElem?_of_mapM cells value
    obtain ⟨bits, found, rfl⟩ := Option.map_eq_some_iff.mp shown
    obtain rfl := columns.parsed listed parses
    refine ⟨⟨column.result, bits, columns.serves c column listed, found, rfl⟩,
      ?_⟩
    intro l same
    exact (Option.some.inj same).symm

end

/-- Every cell shows the answer of its query for its group, decoded by the
query, behind the label of the group. -/
theorem Cell.shows (settled : catalog.Settled) {line : Bytes}
    {ns : Nat → UInt64} {printDouble : UInt64 → Bytes} {mode : OutMode}
    {lines : List CliLine} {after : Catalog κ}
    (ran : catalog.runSql strtod printDouble ns mode line =
      some (lines, after)) {first : MatrixQuery} {g : Nat}
    {label : Option Bytes} {text : Bytes}
    (cell : Cell strtod catalog line lines first q g label text) :
    Shows printDouble catalog first q g label text := by
  unfold Catalog.runSql at ran
  cases cell with
  | scalar route parses plain shown =>
      rw [route] at ran
      subst shown
      exact shows_scalar settled parses plain ran
  | group route parses grouped unlimited shown =>
      rw [route] at ran
      exact shows_group settled parses grouped unlimited ran shown
  | top route parses grouped limited ranked listed shown =>
      rw [route] at ran
      exact shows_top settled parses grouped limited ran ranked listed shown
  | having route cuts parses kept listed shown =>
      rw [route] at ran
      exact shows_having settled parses ran cuts kept listed shown
  | term route heads plain parses shown value =>
      rw [route] at ran
      exact shows_term settled ran heads plain parses shown value
  | groupTerm route heads grouped parses shown value =>
      rw [route] at ran
      exact shows_groupTerm settled ran heads grouped parses shown value

omit [SoundCost κ] in
/-- A query with groups is answered for a key of `uint32`. -/
theorem Catalog.Serves.keyed (serves : catalog.Serves q out)
    (grouped : q.grouped = true) : catalog.columnType q.keyCol = .U32 := by
  obtain ⟨value, _, answered⟩ := serves
  obtain ⟨V, A, K, read, hit, element⟩ := exists_elementKernel value.type
  obtain ⟨k, seen, admitted, _⟩ :=
    answered_groups_folded element grouped answered
  rw [columnType_of_view seen]
  exact admitted.keyU32

/-- A label stands for a key of `uint32`, if a `HAVING` is cut where its query
ends. -/
theorem Cell.keyed (settled : catalog.Settled) {line : Bytes}
    {ns : Nat → UInt64} {printDouble : UInt64 → Bytes} {mode : OutMode}
    {lines : List CliLine} {after : Catalog κ}
    (ran : catalog.runSql strtod printDouble ns mode line =
      some (lines, after)) {first : MatrixQuery} {g : Nat}
    {label text : Bytes}
    (cell : Cell strtod catalog line lines first q g (some label) text)
    (cutAtEnd : ∀ cut, routeOf line = .having cut →
      first.keyCol = q.keyCol) : catalog.columnType first.keyCol = .U32 := by
  obtain ⟨⟨out, bits, serves, _, _⟩, _⟩ := cell.shows settled ran
  cases cell with
  | group _ _ grouped => exact serves.keyed grouped
  | top _ _ grouped => exact serves.keyed grouped
  | having route _ parses kept listed =>
      rw [cutAtEnd _ route]
      rcases havingQuery_pairs settled parses kept with rfl | ⟨grouped, _⟩
      · cases listed
      · exact serves.keyed grouped
  | groupTerm route heads grouped _ shown =>
      unfold Catalog.runSql at ran
      rw [route] at ran
      rcases runMulti_cases settled ran with
        ⟨message, rfl⟩ | ⟨head, others, columns, _⟩
      · cases shown
      · have same := columns.first heads
        subst same
        exact (columns.serves 0 head rfl).keyed grouped

end

end MatrixDB
