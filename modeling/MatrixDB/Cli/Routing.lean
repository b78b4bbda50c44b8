import MatrixDB.Cli.JoinAnswers
import MatrixDB.Query.Counts
import MatrixDB.Query.SharedTail

/-!
# Lines that the router takes from the parser

The words of the router are looked for in a whole line, with the names and the
literals in it.  A line that is parsed as one aggregate is printed as one if
and only if none of them is found before.
-/

namespace MatrixDB

open Lib CostArith Catalog

/-! ## The tokens of a statement -/

section
variable {κ : Type} {strtod : Bytes → StrtodResult} {catalog : Catalog κ}

theorem cmpOf_word {word : String} {text : Bytes} (spelled : Spells text word)
    (letters : up (ascii word) = ascii word ∧ cmpOf (ascii word) = none) :
    cmpOf text = none := by
  cases signed : cmpOf text with
  | none => rfl
  | some cmp =>
      obtain ⟨same, _⟩ := cmpOf_some signed
      have upper : up text = text := by
        rw [same]
        cases cmp <;> decide
      rw [← upper, spelled, letters.2] at signed
      cases signed

theorem not_number {word : String} {text : Bytes} (spelled : Spells text word)
    (letters : (ascii word).any fun c => !isDigit c) :
    fromCharsU64 text = none := by
  have plain : ∀ c : UInt8, isDigit c = true → toUpper c = c := by
    decide +kernel
  unfold fromCharsU64 fromCharsUnsigned
  split
  · rename_i number
    obtain ⟨c, member, other⟩ := List.any_eq_true.mp letters
    rw [← spelled] at member
    obtain ⟨d, inside, rfl⟩ := List.mem_map.mp member
    have digit := List.all_eq_true.mp number.2.1 d inside
    rw [plain d digit, digit] at other
    cases other
  · rfl

/-- A word before the last token is no comparison. -/
theorem unsigned_word {word : String} {text last op v : Bytes}
    {x y : List Bytes} (split : x ++ [text, last] = y ++ [op, v])
    (spelled : Spells text word)
    (letters : up (ascii word) = ascii word ∧ cmpOf (ascii word) = none) :
    cmpOf op = none := by
  obtain ⟨_, same⟩ := List.append_inj' split rfl
  cases same
  exact cmpOf_word spelled letters

/-- What follows a filter ends with no comparison. -/
theorem TailClause.unsigned {aggs : Bytes} {vid : UInt64}
    {x y tokens : List Bytes} {op v : Bytes}
    {finish : MatrixQuery → MatrixQuery}
    (tail : TailClause catalog implemented aggs vid tokens finish)
    (split : x ++ tokens = y ++ [op, v]) :
    tokens = [] ∨ cmpOf op = none := by
  cases tail with
  | scalar => exact .inl rfl
  | grouped key _ ranking =>
      apply Or.inr
      cases key with
      | @named group _ _ _ _ spelled' =>
          cases ranking with
          | absent =>
              exact unsigned_word (x := x ++ [group])
                (by simpa using split) spelled' (by decide)
          | @top order by' s desc _ _ _ _ _ _ _ limited =>
              exact unsigned_word (x := x ++ [group, _, _, order, by', s,
                desc]) (by simpa using split) limited (by decide)
      | nameless _ spelled =>
          exact unsigned_word split spelled (by decide)

/-- Behind a comparison of a number at the end of a filter. -/
theorem FilterPredicate.behind_where {f : UInt64} {tokens : List Bytes}
    {set : MatrixQuery → MatrixQuery} {x y : List Bytes}
    {word name op v key before : Bytes} {n : UInt64}
    (predicate : FilterPredicate strtod catalog implemented f tokens set [])
    (split : x ++ word :: name :: tokens = y ++ [before, key, op, v])
    (signed : cmpOf op ≠ none) (number : fromCharsU64 v = some n) :
    before = word := by
  cases predicate with
  | number =>
      obtain ⟨_, same⟩ := List.append_inj' split rfl
      exact (List.cons.inj same).1.symm
  | string =>
      obtain ⟨_, same⟩ := List.append_inj' split rfl
      exact (List.cons.inj same).1.symm
  | @numbers between lo _ _ _ _ _ _ _ _ joined =>
      exact absurd (unsigned_word (x := x ++ [word, name, between, lo])
        (y := y ++ [before, key]) (by simpa using split) joined
        (by decide)) signed
  | @strings _ between lo _ _ _ _ _ joined =>
      exact absurd (unsigned_word (x := x ++ [word, name, between, lo])
        (y := y ++ [before, key]) (by simpa using split) joined
        (by decide)) signed
  | @openStrings _ _ _ also _ _ _ joined =>
      have last : also = v := by simpa using congrArg List.getLast? split
      rw [← last, not_number joined (by decide)] at number
      cases number

theorem FilterPredicate.exists_used {f : UInt64} {tokens rest : List Bytes}
    {set : MatrixQuery → MatrixQuery}
    (predicate : FilterPredicate strtod catalog implemented f tokens set
      rest) : ∃ used, tokens = used ++ rest := by
  cases predicate with
  | @number sign lit => exact ⟨[sign, lit], rfl⟩
  | @numbers between lo also hi => exact ⟨[between, lo, also, hi], rfl⟩
  | @string _ sign lit => exact ⟨[sign, lit], rfl⟩
  | @strings _ between lo also hi => exact ⟨[between, lo, also, hi], rfl⟩
  | openStrings => exact ⟨_, (List.append_nil _).symm⟩

/-- A comparison of a number at the end of a statement is in its `WHERE`. -/
theorem Statement.behind_where {tokens front : List Bytes} {q : MatrixQuery}
    {word key op v : Bytes} {n : UInt64}
    (statement : Statement strtod catalog implemented tokens q)
    (split : tokens = front ++ [word, key, op, v]) (signed : cmpOf op ≠ none)
    (number : fromCharsU64 v = some n) : Spells word "WHERE" := by
  obtain ⟨select, filter, tail⟩ := statement
  cases select with
  | @select selects agg col _ _ =>
  cases filter with
  | absent =>
      rcases tail.unsigned (x := [selects, agg, ascii "(", col, ascii ")"])
        (y := front ++ [word, key]) (by simpa using split) with
        rfl | unsigned
      · have last : ascii ")" = v := by
          simpa using congrArg List.getLast? split
        rw [← last] at number
        cases number
      · exact absurd unsigned signed
  | @filter where' name inner rest _ spelled _ _ predicate =>
      obtain ⟨used, rfl⟩ := predicate.exists_used
      rcases tail.unsigned
        (x := [selects, agg, ascii "(", col, ascii ")", where', name] ++
          used)
        (y := front ++ [word, key]) (by simpa using split) with
        rfl | unsigned
      · have same := predicate.behind_where
          (x := [selects, agg, ascii "(", col, ascii ")"]) split signed number
        rw [same]
        exact spelled
      · exact absurd unsigned signed

/-- What follows a `SELECT` sets neither the aggregate nor its column. -/
theorem FilterPredicate.sameSelect {f : UInt64} {tokens rest : List Bytes}
    {set : MatrixQuery → MatrixQuery}
    (predicate : FilterPredicate strtod catalog implemented f tokens set rest)
    (q : MatrixQuery) :
    (set q).agg = q.agg ∧ (set q).valueCol = q.valueCol := by
  refine ⟨?_, (predicate.frame q).1⟩
  cases predicate with
  | @number _ _ _ bound => cases bound <;> rfl
  | @numbers _ _ _ _ lower upper => cases lower <;> cases upper <;> rfl
  | string => rfl
  | strings => rfl
  | openStrings => rfl

theorem WhereClause.sameSelect {vid : UInt64} {tokens rest : List Bytes}
    {set : MatrixQuery → MatrixQuery}
    (clause : WhereClause strtod catalog implemented vid tokens set rest)
    (q : MatrixQuery) :
    (set q).agg = q.agg ∧ (set q).valueCol = q.valueCol := by
  cases clause with
  | absent => exact ⟨rfl, rfl⟩
  | filter _ _ _ predicate => exact predicate.sameSelect _

theorem TailClause.sameSelect {aggs : Bytes} {vid : UInt64}
    {tokens : List Bytes} {finish : MatrixQuery → MatrixQuery}
    (tail : TailClause catalog implemented aggs vid tokens finish)
    (q : MatrixQuery) :
    (finish q).agg = q.agg ∧ (finish q).valueCol = q.valueCol := by
  cases tail with
  | scalar => exact ⟨rfl, rfl⟩
  | grouped => exact ⟨rfl, rfl⟩

/-- A statement begins with its aggregate, and a keyword follows that. -/
theorem Statement.begins {tokens : List Bytes} {q : MatrixQuery}
    (statement : Statement strtod catalog implemented tokens q) :
    ∃ word agg col behind,
      tokens = word :: agg :: ascii "(" :: col :: ascii ")" :: behind ∧
      aggOf (up agg) = .ok q.agg ∧ q.valueCol = catalog.columnId col ∧
      behind.head? ≠ some (ascii ")") := by
  obtain ⟨select, filter, tail⟩ := statement
  cases select with
  | @select word agg col op _ _ aggregate =>
  have sets := filter.sameSelect
    { valueCol := catalog.columnId col, agg := op }
  refine ⟨word, agg, col, _, rfl, ?_, ?_, ?_⟩
  · rw [(tail.sameSelect _).1, sets.1]
    exact aggregate
  · rw [(tail.sameSelect _).2, sets.2]
  · intro bracket
    have other : ∀ {token : Bytes} {word : String}, Spells token word →
        ascii ")" = token → up (ascii ")") = ascii word := by
      rintro token word spelled rfl
      exact spelled
    cases filter with
    | absent =>
        cases tail with
        | scalar => cases bracket
        | grouped key =>
            cases key with
            | named spelled =>
                exact absurd (other spelled (Option.some.inj bracket).symm)
                  (by decide)
            | nameless _ spelled =>
                exact absurd (other spelled (Option.some.inj bracket).symm)
                  (by decide)
    | filter spelled =>
        exact absurd (other spelled (Option.some.inj bracket).symm) (by decide)

theorem mem_of_token {line token : Bytes} {c : UInt8}
    (member : token ∈ matrixparseTokenize line) (inside : c ∈ token) :
    c ∈ line := by
  have spelled : c ∈ (matrixparseTokenize line).flatten :=
    List.mem_flatten_of_mem member inside
  rw [matrixparseTokenize_flatten] at spelled
  exact List.mem_of_mem_filter spelled

/-- A line that is parsed has a bracket. -/
theorem Statement.bracket {line : Bytes} {q : MatrixQuery}
    (statement : Statement strtod catalog implemented
      (matrixparseTokenize line) q) : '('.toUInt8 ∈ line := by
  obtain ⟨word, agg, col, behind, tokens, _⟩ := statement.begins
  have member : ascii "(" ∈ matrixparseTokenize line := by simp [tokens]
  exact mem_of_token member (by decide)

/-- So does a term that is parsed with its tail. -/
theorem bracket_of_term {sql list rest term : Bytes} {q : MatrixQuery}
    (cut : Cut sql list rest)
    (statement : Statement strtod catalog implemented (termTokens rest term)
      q) : '('.toUInt8 ∈ term := by
  have visible := term_visible cut statement
  rw [termTokens_eq cut.opens] at statement
  obtain ⟨agg, col, tail, _, _, whole, _⟩ := head_of_statement statement
  generalize tokenized : matrixparseTokenize term = tokens at whole visible
  rcases tokens with _ | ⟨first, _ | ⟨second, others⟩⟩
  · exact absurd rfl visible
  · have behind : matrixparseTokenize rest = ascii "(" :: _ :=
      (List.cons.inj whole).2
    have opened : (solid rest).head? = some '('.toUInt8 := by
      rw [← matrixparseTokenize_flatten, behind]
      rfl
    exact absurd (cut.begins _ opened) (by decide)
  · have same : second = ascii "(" :=
      (List.cons.inj (List.cons.inj whole).2).1
    subst same
    have member : ascii "(" ∈ matrixparseTokenize term := by simp [tokenized]
    exact mem_of_token member (by decide)

end

/-! ## What other branches make of a statement -/

section
variable {κ : Type} [SoundCost κ] {strtod : Bytes → StrtodResult}
  {catalog : Catalog κ} {line : Bytes} {q : MatrixQuery}
  (statement : Statement strtod catalog implemented (matrixparseTokenize line)
    q)

include statement

omit [SoundCost κ] in
theorem distinctQuery_statement [CostArith κ] :
    catalog.distinctQuery line = some (none, catalog) := by
  obtain ⟨word, agg, col, behind, tokens, _, _, closed⟩ := statement.begins
  unfold Catalog.distinctQuery
  rw [tokens]
  rcases behind with _ | ⟨right, _ | ⟨more, others⟩⟩
  · rfl
  · dsimp only
    rw [if_neg]
    rintro ⟨_, _, _, _, same⟩
    exact closed (by rw [same]; rfl)
  · rfl

omit [SoundCost κ] in
theorem avgQuery_statement [CostArith κ] (ns : Nat → UInt64) :
    catalog.avgQuery strtod ns line = some ([], catalog) := by
  obtain ⟨word, agg, col, behind, tokens, aggregate, _⟩ := statement.begins
  unfold Catalog.avgQuery
  rw [tokens]
  dsimp only
  rw [if_neg]
  intro average
  rw [average] at aggregate
  cases aggregate

omit [SoundCost κ] in
theorem havingQuery_statement [CostArith κ] {other after : Catalog κ}
    {ns : UInt64} {groups : List (UInt64 × UInt64)}
    (ran : other.havingQuery strtod ns line = some (groups, after)) :
    groups = [] := by
  unfold Catalog.havingQuery at ran
  dsimp only at ran
  split at ran
  · rename_i word key op v behind
    obtain ⟨⟨status, q', parsed⟩, _, ran⟩ := Option.bind_eq_some_iff.mp ran
    dsimp only at ran
    split at ran
    · split at ran
      · rename_i cmp threshold signed number
        have split := List.takeWhile_append_dropWhile
          (p := fun token => !(up token == ascii "HAVING"))
          (l := matrixparseTokenize line)
        rw [behind] at split
        have spelled := statement.behind_where split.symm (by simp [signed])
          number
        have having := List.head_dropWhile_not
          (fun token => !(up token == ascii "HAVING"))
          (l := matrixparseTokenize line) (by simp [behind])
        simp only [behind, List.head_cons, Bool.not_eq_false',
          beq_iff_eq] at having
        exact absurd (spelled.symm.trans having) (by decide)
      · cases ran
        rfl
    · cases ran
      rfl
  · cases ran
    rfl

end

/-! ## The result of a line -/

section
variable {κ : Type}

/-- A line that is parsed as one query, and the result that answers it. -/
structure ParsedLine [CostArith κ] (strtod : Bytes → StrtodResult)
    (catalog : Catalog κ) (line : Bytes) (q : MatrixQuery)
    (out : List UInt64) : Prop where
  answers : ∃ ns parsed after,
    catalog.parseQuery strtod line = some (.OK, q, parsed) ∧
      parsed.executeQuery ns q = some (.OK, out, after)

/-- The lines that show a result: the value, a row for each group, or a row
for each of the best groups. -/
inductive PrintsResult (printDouble : UInt64 → Bytes) (catalog : Catalog κ)
    (q : MatrixQuery) (out : List UInt64) : List CliLine → Prop where
  | scalar {value : UInt64} (scalar : q.grouped = false)
      (single : out = [value]) :
      PrintsResult printDouble catalog q out
        [.row [catalog.decodeAgg printDouble q value]]
  | groups (grouped : q.grouped = true) (unlimited : q.limit = 0) :
      PrintsResult printDouble catalog q out
        ((numbered out).map (catalog.groupRow printDouble q))
  | top {best : List (UInt64 × UInt64)} (grouped : q.grouped = true)
      (limited : q.limit ≠ 0)
      (ranked : TopOf (fun a b => b.2 ≤ a.2) q.limit.toNat (numbered out)
        best) :
      PrintsResult printDouble catalog q out
        (best.map (catalog.groupRow printDouble q))

/-- The rows that are printed for a result. -/
def resultRows (printDouble : UInt64 → Bytes) (catalog : Catalog κ)
    (q : MatrixQuery) (out : List UInt64) : List CliLine :=
  if q.grouped ∧ q.limit ≠ 0 then
    (partialSort q.limit.toNat (numbered out)).map
      (catalog.groupRow printDouble q)
  else if q.grouped then
    (numbered out).map (catalog.groupRow printDouble q)
  else
    [.row [(out.head?.map (catalog.decodeAgg printDouble q)).getD []]]

end

section
variable {κ : Type} [SoundCost κ] {strtod : Bytes → StrtodResult}
  {catalog parsed after : Catalog κ} {line : Bytes} {q : MatrixQuery}
  {out : List UInt64} {ns : Nat → UInt64}

omit [SoundCost κ] in
theorem printsResult_resultRows (printDouble : UInt64 → Bytes)
    (one : q.grouped = false → ∃ v, out = [v]) :
    PrintsResult printDouble catalog q out
      (resultRows printDouble catalog q out) := by
  unfold resultRows
  split
  · rename_i limited
    exact .top limited.1 limited.2 (topOf_partialSort _ _)
  · rename_i unlimited
    split
    · rename_i grouped
      apply PrintsResult.groups grouped
      by_contra limited
      exact unlimited ⟨grouped, limited⟩
    · rename_i scalar
      have scalar := Bool.eq_false_iff.mpr scalar
      obtain ⟨v, rfl⟩ := one scalar
      exact .scalar scalar rfl

/-- A query that is parsed and answered leaves the data as it was. -/
theorem kept_of_answer (settled : catalog.Settled) {n : UInt64}
    (parses : catalog.parseQuery strtod line = some (.OK, q, parsed))
    (answers : parsed.executeQuery n q = some (.OK, out, after)) :
    Kept catalog catalog after := by
  have keptParsed := ((settled.kept.parseQuery strtod line).ensures _ _
    parses).2
  have keptAfter := ((keptParsed.executeQuery _ _ q).ensures _ _ answers).2
  have keeps := (keeps_parseQuery settled.wellFormed parses).trans
    (keeps_executeQuery keptParsed.left.wellFormed answers)
  exact settled.kept.further keeps keptAfter.left

/-- What the branch for one aggregate prints. -/
theorem runSingle_eq (settled : catalog.Settled)
    (parses : catalog.parseQuery strtod line = some (.OK, q, parsed))
    (answers : parsed.executeQuery (ns 0) q = some (.OK, out, after))
    (printDouble : UInt64 → Bytes) :
    ∃ final, catalog.runSingle strtod printDouble ns line =
        some (resultRows printDouble catalog q out, final) := by
  have kept := kept_of_answer settled parses answers
  have rows : after.groupRow printDouble q = catalog.groupRow printDouble q :=
    funext (kept.same.groupRow printDouble q)
  have value : after.decodeAgg printDouble q =
      catalog.decodeAgg printDouble q :=
    funext (kept.same.decodeAgg printDouble q)
  have ran : catalog.runSingle strtod printDouble ns line =
      if q.grouped ∧ q.limit ≠ 0 then
        (after.topQuery strtod (ns 1) line).bind fun top =>
          some (top.1.map (top.2.groupRow printDouble q), top.2)
      else if q.grouped then
        some ((numbered out).map (after.groupRow printDouble q), after)
      else
        some ([.row [(out.head?.map
          (after.decodeAgg printDouble q)).getD []]], after) := by
    unfold Catalog.runSingle
    rw [parses]
    dsimp only [Option.bind_eq_bind, Option.bind_some]
    rw [if_pos rfl, answers]
    rfl
  rw [ran]
  unfold resultRows
  split
  · rename_i limited
    obtain ⟨value, seen, _⟩ := (executeQuery_ok
      (keeps_parseQuery settled.wellFormed parses).wellFormed).mp
        ⟨after, answers⟩
    have top := topQuery_answered ⟨limited.1, parsed, parses, seen, answers⟩
      limited.2
    obtain ⟨final, top', kept'⟩ := (kept.topQuery strtod (ns 0) (ns 1)
      line).follows top
    refine ⟨final, ?_⟩
    have rows : final.groupRow printDouble q =
        catalog.groupRow printDouble q :=
      funext (kept'.shown.groupRow printDouble q)
    rw [top', Option.bind_some]
    dsimp only
    rw [rows]
  · split
    · exact ⟨after, by rw [rows]⟩
    · exact ⟨after, by rw [value]⟩

end

/-! ## Routes -/

/-- What some branches find in a line. -/
theorem routeOf_spec (line : Bytes) :
    (routeOf line = .join → has " JOIN " (up line)) ∧
      (routeOf line = .multi → isMultiAggregate line) ∧
      (routeOf line = .projection → '('.toUInt8 ∉ line) := by
  unfold routeOf
  split
  · rename_i join
    exact ⟨fun _ => join, nofun, nofun⟩
  · split
    · exact ⟨nofun, nofun, nofun⟩
    · split
      · exact ⟨nofun, nofun, nofun⟩
      · split
        · exact ⟨nofun, nofun, nofun⟩
        · split
          · rename_i several
            exact ⟨nofun, fun _ => several, nofun⟩
          · split
            · exact ⟨nofun, nofun, nofun⟩
            · rename_i none
              refine ⟨nofun, nofun, fun _ member => none ?_⟩
              exact List.contains_iff_mem.mpr member

/-- No word of the router is in a line, in names and literals neither, and
there is no comma behind its `SELECT`. -/
structure Unclaimed (line : Bytes) : Prop where
  join : has " JOIN " (up line) = false
  distinct : has "DISTINCT" (up line) = false
  having : has "HAVING" (up line) = false
  average : has "AVG(" (up line) = false
  several : isMultiAggregate line = false

theorem routeOf_single_iff {line : Bytes} :
    routeOf line = .single ↔ Unclaimed line ∧ '('.toUInt8 ∈ line := by
  unfold routeOf
  constructor
  · intro route
    split at route
    · cases route
    · rename_i join
      split at route
      · cases route
      · rename_i distinct
        split at route
        · cases route
        · rename_i having
          split at route
          · cases route
          · rename_i average
            split at route
            · cases route
            · rename_i several
              split at route
              · rename_i bracket
                refine ⟨⟨?_, ?_, ?_, ?_, ?_⟩,
                  List.contains_iff_mem.mp bracket⟩
                · exact Bool.eq_false_iff.mpr join
                · exact Bool.eq_false_iff.mpr distinct
                · exact findFrom_eq_none.mp having
                · exact Bool.eq_false_iff.mpr average
                · exact Bool.eq_false_iff.mpr several
              · cases route
  · rintro ⟨unclaimed, bracket⟩
    have having := findFrom_eq_none.mpr unclaimed.having
    simp only [unclaimed.join, unclaimed.distinct, having, unclaimed.average,
      unclaimed.several, List.contains_iff_mem.mpr bracket]
    rfl

/-! ## Lines that show something else -/

theorem isDigit_decimal (n : Nat) : ∀ c ∈ decimal n, isDigit c := by
  have digit : ∀ d < 10, isDigit (UInt8.ofNat (48 + d)) := by decide
  induction n using Nat.strongRecOn with
  | ind n induction =>
      intro c member
      rw [decimal_eq, List.mem_append, List.mem_singleton] at member
      rcases member with front | rfl
      · split at front
        · cases front
        · exact induction (n / 10) (by omega) c front
      · exact digit (n % 10) (Nat.mod_lt n (by decide))

section
variable {κ : Type} {printDouble : UInt64 → Bytes}
  (plain : ∀ v, '('.toUInt8 ∉ printDouble v) {catalog : Catalog κ}
  {q : MatrixQuery} {out : List UInt64} {lines : List CliLine}

include plain

/-- No number has a bracket. -/
theorem decodeAgg_plain (v : UInt64) :
    '('.toUInt8 ∉ catalog.decodeAgg printDouble q v := by
  have digits : ∀ n, '('.toUInt8 ∉ decimal n := by
    intro n member
    exact absurd (isDigit_decimal n _ member) (by decide)
  unfold Catalog.decodeAgg Catalog.decodeNum
  split
  · exact digits _
  · split
    · unfold signedDecimal
      split
      · simp only [List.mem_cons, not_or]
        exact ⟨by decide, digits _⟩
      · exact digits _
    · exact plain v
    · exact digits _

/-- A result begins with a row that ends with a number. -/
theorem PrintsResult.first
    (shows : PrintsResult printDouble catalog q out lines)
    (present : out ≠ []) :
    ∃ front text others, lines = .row (front ++ [text]) :: others ∧
      '('.toUInt8 ∉ text := by
  have row : ∀ groups : List (UInt64 × UInt64), groups ≠ [] →
      ∃ front text others, groups.map (catalog.groupRow printDouble q) =
        .row (front ++ [text]) :: others ∧ '('.toUInt8 ∉ text := by
    intro groups some_group
    obtain ⟨group, others, rfl⟩ := List.exists_cons_of_ne_nil some_group
    exact ⟨[catalog.groupLabel q.keyCol group.1], _, _, rfl,
      decodeAgg_plain plain group.2⟩
  have groups : numbered out ≠ [] := by
    simpa [numbered] using present
  cases shows with
  | @scalar value =>
      exact ⟨[], _, [], rfl, decodeAgg_plain plain value⟩
  | groups => exact row _ groups
  | @top best _ limited ranked =>
      apply row
      intro none
      have size := ranked.length
      rw [none, List.length_nil] at size
      have number : q.limit.toNat ≠ 0 := by
        intro zero
        exact limited (UInt64.toNat_inj.mp zero)
      have length : (numbered out).length ≠ 0 := by simpa using groups
      omega

end

section
variable {κ : Type} [SoundCost κ] {strtod : Bytes → StrtodResult}
  {catalog : Catalog κ} {line : Bytes} {ns : Nat → UInt64}

/-- Several aggregates begin with an error or with their terms. -/
theorem runMulti_first {printDouble : UInt64 → Bytes} {lines : List CliLine}
    {after : Catalog κ} (wellFormed : catalog.WellFormed)
    (routed : isMultiAggregate line)
    (ran : catalog.runMulti strtod printDouble ns line =
      some (lines, after)) :
    (∃ message, lines = [.error message]) ∨
      ∃ front text others, lines = .row (front ++ [text]) :: others ∧
        '('.toUInt8 ∈ text := by
  unfold Catalog.runMulti at ran
  dsimp only at ran
  obtain ⟨⟨columns, back⟩, terms, ran⟩ := Option.bind_eq_some_iff.mp ran
  dsimp only at ran
  split at ran
  · cases ran
    exact .inl ⟨_, rfl⟩
  · cases ran
    exact .inl ⟨_, rfl⟩
  · rename_i first others
    apply Or.inr
    obtain ⟨later, same, labels, runs⟩ := runTerms_columns terms
    rw [List.nil_append] at same
    subst same
    have listed : (first :: others).map AggregateColumn.label ≠ [] := by
      simp
    have split := List.dropLast_append_getLast listed
    generalize List.dropLast _ = front at split
    generalize List.getLast _ listed = text at split
    have bracket : '('.toUInt8 ∈ text := by
      obtain ⟨statements, _⟩ := runs.statements (.refl wellFormed)
      have member : text ∈ lineTerms (cutLine line).1 := by
        rw [← labels, ← split]
        simp
      obtain ⟨q, _, statement⟩ := related_right statements member
      exact bracket_of_term (cut_of_cutLine routed) statement
    split at ran
    · obtain ⟨rows, _, same⟩ := Option.bind_eq_some_iff.mp ran
      cases same
      refine ⟨ascii "key" :: front, text, rows, ?_, bracket⟩
      rw [List.cons_append, split]
    · cases ran
      exact ⟨front, text, _, by rw [split], bracket⟩

/-- What is printed for a line that another branch takes is not its result;
a line that is read as a join is left open. -/
theorem single_of_prints (settled : catalog.Settled) {q : MatrixQuery}
    {out : List UInt64} (parsed : ParsedLine strtod catalog line q out)
    {printDouble : UInt64 → Bytes} (plain : ∀ v, '('.toUInt8 ∉ printDouble v)
    {mode : OutMode} {lines : List CliLine} {after : Catalog κ}
    (ran : catalog.runSql strtod printDouble ns mode line =
      some (lines, after))
    (shows : PrintsResult printDouble catalog q out lines) :
    routeOf line = .single ∨
      (routeOf line = .join ∧ (joinLine (splitWs line)).isSome) := by
  have wellFormed := settled.wellFormed
  obtain ⟨n, middle, last, parses, answers⟩ := parsed.answers
  have statement := (parseQuery_ok_iff wellFormed).mp ⟨_, parses⟩
  obtain ⟨value, _, answered⟩ := (executeQuery_ok
    (keeps_parseQuery wellFormed parses).wellFormed).mp ⟨last, answers⟩
  obtain ⟨front, text, others, begins, clean⟩ :=
    shows.first plain (answered_present answered)
  have noError : ∀ message, lines ≠ [.error message] := by
    intro message failed
    rw [failed] at begins
    cases begins
  unfold Catalog.runSql at ran
  cases route : routeOf line with
  | single => exact .inl rfl
  | join =>
      rw [route] at ran
      dsimp only at ran
      refine .inr ⟨rfl, ?_⟩
      unfold Catalog.runJoin at ran
      cases read : joinLine (splitWs line) with
      | some parts => rfl
      | none =>
          rw [read] at ran
          cases ran
          exact absurd rfl (noError _)
  | distinct =>
      rw [route] at ran
      dsimp only at ran
      rw [Catalog.runDistinct, distinctQuery_statement statement] at ran
      cases ran
      exact absurd rfl (noError _)
  | having cut =>
      rw [route] at ran
      dsimp only at ran
      obtain ⟨⟨status, q', first⟩, parses', ran⟩ :=
        Option.bind_eq_some_iff.mp ran
      dsimp only at ran
      split at ran
      · obtain ⟨⟨groups, second⟩, filtered, ran⟩ :=
          Option.bind_eq_some_iff.mp ran
        have none := havingQuery_statement statement filtered
        subst none
        cases ran
        cases begins
      · cases ran
        exact absurd rfl (noError _)
  | average =>
      rw [route] at ran
      dsimp only at ran
      rw [Catalog.runAverage, avgQuery_statement statement] at ran
      cases ran
      exact absurd rfl (noError _)
  | multi =>
      rw [route] at ran
      dsimp only at ran
      rcases runMulti_first wellFormed ((routeOf_spec line).2.1 route) ran with
        ⟨message, failed⟩ | ⟨front', text', others', begins', bracket⟩
      · exact absurd failed (noError message)
      · rw [begins] at begins'
        have same := CliLine.row.inj (List.cons.inj begins').1
        obtain ⟨_, last⟩ := List.append_inj' same rfl
        rw [List.singleton_inj.mp last] at clean
        exact absurd bracket clean
  | projection =>
      exact absurd statement.bracket ((routeOf_spec line).2.2 route)

end

/-! ## When the result is printed -/

section
variable {κ : Type} [SoundCost κ] {strtod : Bytes → StrtodResult}
  {engine : Analytics κ} (live : Analytics.Live strtod engine)
  {line : Bytes} {q : MatrixQuery} {out : List UInt64}
  (parsed : ParsedLine strtod engine.catalog line q out)
  {printDouble : UInt64 → Bytes} (plain : ∀ v, '('.toUInt8 ∉ printDouble v)
  (ns : Nat → UInt64) (mode : OutMode)

include live parsed plain

/-- The result of a line that is parsed and answered is printed where no word
of the router is found; where one is, something else is printed, except
perhaps for a line whose blanks cut it into a join as well. -/
theorem prints_parsed_iff :
    (Unclaimed line → ∃ lines after,
      engine.catalog.runSql strtod printDouble ns mode line =
          some (lines, after) ∧
        PrintsResult printDouble engine.catalog q out lines) ∧
    ((∃ lines after,
      engine.catalog.runSql strtod printDouble ns mode line =
          some (lines, after) ∧
        PrintsResult printDouble engine.catalog q out lines) →
      Unclaimed line ∨
        (has " JOIN " (up line) ∧ (joinLine (splitWs line)).isSome)) := by
  constructor
  · intro unclaimed
    obtain ⟨n, middle, last, parses, answers⟩ := parsed.answers
    have wellFormed := live.settled.wellFormed
    have statement := (parseQuery_ok_iff wellFormed).mp ⟨_, parses⟩
    have route := routeOf_single_iff.mpr ⟨unclaimed, statement.bracket⟩
    have keptMiddle := ((live.settled.kept.parseQuery strtod line).ensures _ _
      parses).2
    obtain ⟨⟨_, last'⟩, answers', rfl, _⟩ :=
      (keptMiddle.executeQuery n (ns 0) q).follows answers
    obtain ⟨final, ran⟩ := runSingle_eq live.settled parses answers'
      printDouble
    refine ⟨_, final, ?_, printsResult_resultRows printDouble ?_⟩
    · unfold Catalog.runSql
      rw [route]
      exact ran
    · intro scalar
      obtain ⟨value, _, answered⟩ := (executeQuery_ok
        (keeps_parseQuery wellFormed parses).wellFormed).mp ⟨last, answers⟩
      have size := answered_length answered
      rw [scalar] at size
      exact List.length_eq_one_iff.mp size
  · rintro ⟨lines, after, ran, shows⟩
    rcases single_of_prints live.settled parsed plain ran shows with
      single | ⟨join, read⟩
    · exact .inl (routeOf_single_iff.mp single).1
    · exact .inr ⟨(routeOf_spec line).1 join, read⟩

end

/-! ## Two names -/

/-- Two columns, one with a word of the router in its name. -/
def visits : Option (Analytics ℚ) :=
  (Analytics.fresh 1024).afterCalls Analytics.noNumber
    [.loadScanColumn 1 [4, 4, 5], .nameColumn 1 (ascii "USER_ID"),
      .loadScanColumn 2 [4, 5], .nameColumn 2 (ascii "DISTINCT_ID")]

/-- A line that is its own proof of being answered. -/
theorem exists_visits {line : Bytes} {q : MatrixQuery} {out : List UInt64}
    (answered : (visits.bind fun engine =>
      (engine.catalog.parseQuery Analytics.noNumber line).bind fun parsed =>
        (parsed.2.2.executeQuery 0 parsed.2.1).map fun result =>
          (parsed.1, parsed.2.1, result.1, result.2.1)) =
      some (.OK, q, .OK, out)) :
    ∃ engine : Analytics ℚ, Analytics.Live Analytics.noNumber engine ∧
      ParsedLine Analytics.noNumber engine.catalog line q out := by
  obtain ⟨engine, made, ran⟩ := Option.bind_eq_some_iff.mp answered
  obtain ⟨⟨status, q', parsed⟩, parses, ran⟩ := Option.bind_eq_some_iff.mp ran
  obtain ⟨⟨status', out', after⟩, answers, same⟩ :=
    Option.map_eq_some_iff.mp ran
  cases same
  exact ⟨engine, (Analytics.Live.fresh 1024).afterCalls made,
    ⟨0, parsed, after, parses, answers⟩⟩

theorem prints_parsed_iff_visits :
    ∃ (engine : Analytics ℚ) (q : MatrixQuery) (lines : List CliLine)
      (after : Catalog ℚ),
      engine.catalog.runSql Analytics.noNumber (fun _ => []) (fun _ => 0)
          .LIST (ascii "SELECT COUNT(USER_ID)") = some (lines, after) ∧
        PrintsResult (fun _ => []) engine.catalog q [3] lines := by
  obtain ⟨engine, live, parsed⟩ := @exists_visits
    (ascii "SELECT COUNT(USER_ID)") { valueCol := 1, agg := AGG_COUNT } [3]
    (by decide +kernel)
  have unclaimed : Unclaimed (ascii "SELECT COUNT(USER_ID)") := by
    constructor <;> decide +kernel
  obtain ⟨lines, after, ran, shows⟩ := (prints_parsed_iff live parsed
    (fun _ => List.not_mem_nil) (fun _ => 0) .LIST).1 unclaimed
  exact ⟨engine, _, lines, after, ran, shows⟩

/-- The count of a column whose name has a word of the router is not
printed. -/
theorem name_claimed :
    ∃ (engine : Analytics ℚ) (q : MatrixQuery),
      Analytics.Live Analytics.noNumber engine ∧
      ParsedLine Analytics.noNumber engine.catalog
        (ascii "SELECT COUNT(DISTINCT_ID)") q [2] ∧
      ¬ ∃ lines after,
        engine.catalog.runSql Analytics.noNumber (fun _ => []) (fun _ => 0)
            .LIST (ascii "SELECT COUNT(DISTINCT_ID)") = some (lines, after) ∧
          PrintsResult (fun _ => []) engine.catalog q [2] lines := by
  obtain ⟨engine, live, parsed⟩ := @exists_visits
    (ascii "SELECT COUNT(DISTINCT_ID)") { valueCol := 2, agg := AGG_COUNT }
    [2] (by decide +kernel)
  refine ⟨engine, _, live, parsed, ?_⟩
  rintro ⟨lines, after, ran, shows⟩
  rcases single_of_prints live.settled parsed (fun _ => List.not_mem_nil) ran
    shows with route | ⟨route, _⟩
  · revert route
    decide +kernel
  · revert route
    decide +kernel

end MatrixDB
