import MatrixDB.Catalog.Transparency
import MatrixDB.Query.Ranks

/-!
# The grammar of a query

A query is a list of tokens, and each clause takes some of them off its front.
The productions are those of the documented grammar.  In three places the
parser takes more or fewer token lists, and a dialect says which.
-/

namespace MatrixDB

open Lib

/-- Where grammars of a query differ. -/
structure Dialect where
  /-- An ordered comparison with a quoted empty string. -/
  emptyString : Bool
  /-- A `BETWEEN` over strings that ends the query behind its `AND`. -/
  openBetween : Bool
  /-- A `GROUP BY` that ends the query and means the column without a name. -/
  namelessKey : Bool

/-- What is documented: a literal is any token, and every token is there. -/
def documented : Dialect := ⟨true, false, false⟩

/-- What `parse_query` takes. -/
def implemented : Dialect := ⟨false, true, true⟩

/-- What both take. -/
def common : Dialect := ⟨false, false, false⟩

/-- A keyword, in upper or lower case. -/
def Spells (text : Bytes) (word : String) : Prop := up text = ascii word

instance (text : Bytes) (word : String) : Decidable (Spells text word) :=
  inferInstanceAs (Decidable (up text = ascii word))

/-! ## Literals -/

/-- A numeric literal, for the fields of its type. -/
inductive Bound where
  | u32 (x : UInt32)
  | i64 (x : Int64)
  | f64 (bits : UInt64)

/-- A number of a column's type that takes the whole token. -/
def readBound (strtod : Bytes → StrtodResult) (ty : MatrixType) (v : Bytes) :
    Option Bound :=
  if v = [] then none
  else
    match ty with
    | .F64 =>
        if (strtod v).consumed = v.length ∧ ¬ (strtod v).erange then
          some (.f64 (strtod v).value)
        else none
    | .I64 => (fromCharsI64 v).map .i64
    | .U32 => (fromCharsU32 v).map .u32

/-- The lower bound, which is also the only one, or the upper one. -/
def Bound.put (bound : Bound) (lo : Bool) (q : MatrixQuery) : MatrixQuery :=
  match bound, lo with
  | .u32 x, true => { q with threshold := x }
  | .u32 x, false => { q with upper := x }
  | .i64 x, true => { q with loI64 := x }
  | .i64 x, false => { q with hiI64 := x }
  | .f64 bits, true => { q with loF64 := bits }
  | .f64 bits, false => { q with hiF64 := bits }

def MatrixCmp.ordered (cmp : MatrixCmp) : Bool := cmp != .EQ && cmp != .NE

/-- The last code whose string is not above `x`, or the first code. -/
def lastCode (dict : List Bytes) (x : Bytes) : UInt32 :=
  if upperBound dict x = 0 then 0 else upperBound dict x - 1

variable {κ : Type} (strtod : Bytes → StrtodResult) (catalog : Catalog κ)

/-- A comparison with a string, as a comparison of codes. -/
def stringPredicate (f : UInt64) (dict : List Bytes) (cmp : MatrixCmp)
    (x : Bytes) : MatrixCmp × UInt32 :=
  match cmp with
  | .GT => (.GE, upperBound dict x)
  | .GE => (.GE, lowerBound dict x)
  | .LT => (.LT, lowerBound dict x)
  | .LE => (.LT, upperBound dict x)
  | .EQ => (.EQ, catalog.stringEncode f x)
  | .NE => (.NE, catalog.stringEncode f x)
  | .BETWEEN => (.BETWEEN, lowerBound dict x)

/-! ## Clauses -/

/-- `SELECT agg ( col )`: the aggregate as it is written, and the query. -/
inductive SelectClause : List Bytes → Bytes → MatrixQuery → List Bytes →
    Prop where
  | select {word agg col : Bytes} {op : MatrixAggOp} {rest : List Bytes}
      (spelled : Spells word "SELECT") (aggregate : aggOf (up agg) = .ok op)
      (known : catalog.columnId col ≠ 0) :
      SelectClause (word :: agg :: ascii "(" :: col :: ascii ")" :: rest)
        (up agg) { valueCol := catalog.columnId col, agg := op } rest

/-- A predicate on column `f`, and what it sets. -/
inductive FilterPredicate (d : Dialect) (f : UInt64) :
    List Bytes → (MatrixQuery → MatrixQuery) → List Bytes → Prop where
  | number {sign lit : Bytes} {cmp : MatrixCmp} {bound : Bound}
      {rest : List Bytes} (plain : catalog.stringDicts.lookup f = none)
      (signed : cmpOf (up sign) = some cmp)
      (literal : readBound strtod (catalog.columnType f) lit = some bound) :
      FilterPredicate d f (sign :: lit :: rest)
        (fun q => bound.put true { q with cmp := cmp }) rest
  | numbers {between lo also hi : Bytes} {lower upper : Bound}
      {rest : List Bytes} (plain : catalog.stringDicts.lookup f = none)
      (spelled : Spells between "BETWEEN")
      (least : readBound strtod (catalog.columnType f) lo = some lower)
      (joined : Spells also "AND")
      (most : readBound strtod (catalog.columnType f) hi = some upper) :
      FilterPredicate d f (between :: lo :: also :: hi :: rest)
        (fun q => upper.put false (lower.put true { q with cmp := .BETWEEN }))
        rest
  | string {dict : List Bytes} {sign lit : Bytes} {cmp : MatrixCmp}
      {rest : List Bytes} (coded : catalog.stringDicts.lookup f = some dict)
      (signed : cmpOf (up sign) = some cmp)
      (literal : cmp.ordered → unquote lit = [] → d.emptyString) :
      FilterPredicate d f (sign :: lit :: rest)
        (fun q => { q with
          cmp := (stringPredicate catalog f dict cmp (unquote lit)).1
          threshold :=
            (stringPredicate catalog f dict cmp (unquote lit)).2 }) rest
  | strings {dict : List Bytes} {between lo also hi : Bytes}
      {rest : List Bytes} (coded : catalog.stringDicts.lookup f = some dict)
      (spelled : Spells between "BETWEEN") (joined : Spells also "AND") :
      FilterPredicate d f (between :: lo :: also :: hi :: rest)
        (fun q => { q with
          cmp := .BETWEEN
          threshold := lowerBound dict (unquote lo)
          upper := lastCode dict (unquote hi) }) rest
  | openStrings {dict : List Bytes} {between lo also : Bytes}
      (allowed : d.openBetween)
      (coded : catalog.stringDicts.lookup f = some dict)
      (spelled : Spells between "BETWEEN") (joined : Spells also "AND") :
      FilterPredicate d f [between, lo, also]
        (fun q => { q with
          cmp := .BETWEEN
          threshold := lowerBound dict (unquote lo)
          upper := lastCode dict [] }) []

/-- An optional `WHERE` on the value column or on a `uint32` column. -/
inductive WhereClause (d : Dialect) (vid : UInt64) :
    List Bytes → (MatrixQuery → MatrixQuery) → List Bytes → Prop where
  | absent {rest : List Bytes} : WhereClause d vid rest id rest
  | filter {word f : Bytes} {tokens rest : List Bytes}
      {set : MatrixQuery → MatrixQuery} (spelled : Spells word "WHERE")
      (known : catalog.columnId f ≠ 0)
      (typed : catalog.columnId f ≠ vid →
        catalog.columnType (catalog.columnId f) = .U32)
      (predicate : FilterPredicate strtod catalog d (catalog.columnId f)
        tokens set rest) :
      WhereClause d vid (word :: f :: tokens)
        (fun q => set { q with
          filterCol :=
            if catalog.columnId f = vid then 0 else catalog.columnId f
          hasFilter := true }) rest

/-- `GROUP BY k`. -/
inductive GroupKey (d : Dialect) : List Bytes → UInt64 → List Bytes →
    Prop where
  | named {group by' k : Bytes} {rest : List Bytes}
      (spelled : Spells group "GROUP") (spelled' : Spells by' "BY")
      (known : catalog.columnId k ≠ 0)
      (u32 : catalog.columnType (catalog.columnId k) = .U32) :
      GroupKey d (group :: by' :: k :: rest) (catalog.columnId k) rest
  | nameless {group by' : Bytes} (allowed : d.namelessKey)
      (spelled : Spells group "GROUP") (spelled' : Spells by' "BY")
      (known : catalog.columnId [] ≠ 0)
      (u32 : catalog.columnType (catalog.columnId []) = .U32) :
      GroupKey d [group, by'] (catalog.columnId []) []

/-- An optional `ORDER BY s DESC LIMIT n`, up to the end. -/
inductive Ranking (aggs : Bytes) (vid : UInt64) : List Bytes → UInt64 →
    Prop where
  | absent : Ranking aggs vid [] 0
  | top {order by' s desc limit decimal : Bytes} {n : UInt64}
      (spelled : Spells order "ORDER") (spelled' : Spells by' "BY")
      (sorts : up s = aggs ∨ catalog.columnId s = vid)
      (descending : Spells desc "DESC") (limited : Spells limit "LIMIT")
      (number : fromCharsU64 decimal = some n) (positive : n ≠ 0) :
      Ranking aggs vid [order, by', s, desc, limit, decimal] n

/-- One group more than the largest key in the bytes of a key column. -/
def keyGroups (bytes : Bytes) : UInt32 :=
  let n := bytes.length / 4
  let mx := matrixCpuReduceAll (u32At bytes) n AGG_MAX
  if n = 0 then 0
  else if 0xFFFFFFFF ≤ mx then 0xFFFFFFFF
  else (mx + 1).toUInt32

/-- What may follow the filter, up to the end. -/
inductive TailClause (d : Dialect) (aggs : Bytes) (vid : UInt64) :
    List Bytes → (MatrixQuery → MatrixQuery) → Prop where
  | scalar : TailClause d aggs vid [] id
  | grouped {tokens rest : List Bytes} {kid limit : UInt64} {bytes : Bytes}
      (key : GroupKey catalog d tokens kid rest)
      (held : catalog.contents kid = some bytes)
      (ranking : Ranking catalog aggs vid rest limit) :
      TailClause d aggs vid tokens fun q =>
        { q with
          grouped := true
          keyCol := kid
          numGroups := keyGroups bytes
          limit := limit }

/-- A token list of the grammar and the query it stands for. -/
inductive Statement (d : Dialect) : List Bytes → MatrixQuery → Prop where
  | query {tokens rest rest' : List Bytes} {aggs : Bytes} {q : MatrixQuery}
      {set finish : MatrixQuery → MatrixQuery}
      (select : SelectClause catalog tokens aggs q rest)
      (filter : WhereClause strtod catalog d q.valueCol rest set rest')
      (tail : TailClause catalog d aggs q.valueCol rest' finish) :
      Statement d tokens (finish (set q))

/-! ## Taking tokens -/

theorem bind_ok {E A B : Type} {x : Except E A} {f : A → Except E B} {b : B} :
    x >>= f = .ok b ↔ ∃ a, x = .ok a ∧ f a = .ok b := by
  cases x with
  | error e =>
      constructor
      · intro equal
        cases equal
      · rintro ⟨a, equal, _⟩
        cases equal
  | ok a =>
      constructor
      · intro equal
        exact ⟨a, rfl, equal⟩
      · rintro ⟨_, equal, result⟩
        cases equal
        exact result

theorem ite_error {E A : Type} {p : Prop} [Decidable p] {e : E}
    {x : Except E A} {a : A} :
    (if p then .error e else x) = .ok a ↔ ¬ p ∧ x = .ok a := by
  split
  · simp_all
  · simp_all

theorem ite_else_error {E A : Type} {p : Prop} [Decidable p] {e : E}
    {x : Except E A} {a : A} :
    (if p then x else .error e) = .ok a ↔ p ∧ x = .ok a := by
  split
  · simp_all
  · simp_all

theorem expect_ok {word : String} (visible : ascii word ≠ [])
    {tokens rest : List Bytes} :
    expect word tokens = .ok rest ↔
      ∃ token, tokens = token :: rest ∧ Spells token word := by
  cases tokens with
  | nil =>
      have missing : up (next []).1 ≠ ascii word := visible.symm
      simp [expect, missing]
  | cons token tokens =>
      rw [expect, ite_else_error]
      simp [next, Spells, and_comm]

theorem expectParen_ok {paren : String} (visible : ascii paren ≠ [])
    {tokens rest : List Bytes} :
    expectParen paren tokens = .ok rest ↔ tokens = ascii paren :: rest := by
  cases tokens with
  | nil =>
      have missing : (next []).1 ≠ ascii paren := visible.symm
      simp [expectParen, missing]
  | cons token tokens =>
      rw [expectParen, ite_else_error]
      simp [next]

theorem aggOf_ok_visible {aggs : Bytes} {op : MatrixAggOp}
    (aggregate : aggOf aggs = .ok op) : aggs ≠ [] := by
  rintro rfl
  cases aggregate

theorem cmpOf_visible {ops : Bytes} {cmp : MatrixCmp}
    (signed : cmpOf ops = some cmp) : ops ≠ [] := by
  rintro rfl
  cases signed

variable {catalog}

@[simp] theorem next_cons (token : Bytes) (tokens : List Bytes) :
    next (token :: tokens) = (token, tokens) := rfl

/-- A first token that is not empty is there. -/
theorem cons_of_next {tokens : List Bytes} (present : (next tokens).1 ≠ []) :
    tokens = (next tokens).1 :: (next tokens).2 := by
  cases tokens with
  | nil => exact absurd rfl present
  | cons token tokens => rfl

/-- So is one with a token behind it. -/
theorem cons_of_rest {tokens : List Bytes} (more : (next tokens).2 ≠ []) :
    tokens = (next tokens).1 :: (next tokens).2 := by
  cases tokens with
  | nil => exact absurd rfl more
  | cons token tokens => rfl

theorem parseSelect_ok {tokens rest : List Bytes} {aggs : Bytes}
    {q : MatrixQuery} :
    catalog.parseSelect tokens = .ok (aggs, q, rest) ↔
      SelectClause catalog tokens aggs q rest := by
  constructor
  · intro parsed
    obtain ⟨behind, first, parsed⟩ := bind_ok.mp parsed
    obtain ⟨word, whole, spelled⟩ := (expect_ok (by decide)).mp first
    obtain ⟨op, aggregate, parsed⟩ := bind_ok.mp parsed
    obtain ⟨inner, opened, parsed⟩ := bind_ok.mp parsed
    obtain ⟨outer, closed, parsed⟩ := bind_ok.mp parsed
    obtain ⟨known, parsed⟩ := ite_error.mp parsed
    cases parsed
    have opened := (expectParen_ok (by decide)).mp opened
    have closed := (expectParen_ok (by decide)).mp closed
    have named : behind = (next behind).1 :: (next behind).2 := by
      apply cons_of_rest
      rw [opened]
      exact List.cons_ne_nil _ _
    have column : inner = (next inner).1 :: (next inner).2 := by
      apply cons_of_rest
      rw [closed]
      exact List.cons_ne_nil _ _
    rw [whole, named, opened, column, closed]
    exact .select spelled aggregate known
  · rintro ⟨spelled, aggregate, known⟩
    apply bind_ok.mpr
    refine ⟨_, (expect_ok (by decide)).mpr ⟨_, rfl, spelled⟩, ?_⟩
    apply bind_ok.mpr
    refine ⟨_, aggregate, ?_⟩
    apply bind_ok.mpr
    refine ⟨_, (expectParen_ok (by decide)).mpr rfl, ?_⟩
    apply bind_ok.mpr
    refine ⟨_, (expectParen_ok (by decide)).mpr rfl, ?_⟩
    exact ite_error.mpr ⟨known, rfl⟩

/-! ## Predicates -/

theorem setBound_ok {strtod : Bytes → StrtodResult} {ty : MatrixType}
    {q q' : MatrixQuery} {lo : Bool} {v : Bytes} :
    setBound strtod ty q lo v = .ok q' ↔
      ∃ bound, readBound strtod ty v = some bound ∧ q' = bound.put lo q := by
  unfold setBound readBound
  by_cases empty : v = []
  · simp [empty]
  · simp only [if_neg empty]
    cases ty with
    | F64 =>
        by_cases junk : (strtod v).consumed ≠ v.length ∨ (strtod v).erange
        · have unread : ¬ ((strtod v).consumed = v.length ∧
              ¬ (strtod v).erange) := by
            rintro ⟨whole, ranged⟩
            exact junk.elim (absurd whole) ranged
          simp only [if_pos junk, if_neg unread]
          simp
        · have read : (strtod v).consumed = v.length ∧
              ¬ (strtod v).erange := by
            simpa [not_or] using junk
          simp only [if_neg junk, if_pos read]
          cases lo <;> simp [Bound.put, eq_comm]
    | I64 =>
        cases read : fromCharsI64 v with
        | none => simp
        | some x => cases lo <;> simp [Bound.put, eq_comm]
    | U32 =>
        cases read : fromCharsU32 v with
        | none => simp
        | some x => cases lo <;> simp [Bound.put, eq_comm]

theorem readBound_visible {strtod : Bytes → StrtodResult} {ty : MatrixType}
    {v : Bytes} {bound : Bound} (read : readBound strtod ty v = some bound) :
    v ≠ [] := by
  rintro rfl
  cases read

section
variable {strtod : Bytes → StrtodResult} {f : UInt64} {q q' : MatrixQuery}
  {tokens rest : List Bytes}

theorem parseNumericFilter_ok (plain : catalog.stringDicts.lookup f = none) :
    parseNumericFilter strtod (catalog.columnType f) (up (next tokens).1) q
        (next tokens).2 = .ok (q', rest) ↔
      ∃ set, FilterPredicate strtod catalog implemented f tokens set rest ∧
        q' = set q := by
  constructor
  · intro parsed
    unfold parseNumericFilter at parsed
    split at parsed
    · rename_i spelled
      have word : (next tokens).1 ≠ [] := by
        intro empty
        rw [empty] at spelled
        cases spelled
      obtain ⟨_, low, parsed⟩ := bind_ok.mp parsed
      obtain ⟨behind, joined, parsed⟩ := bind_ok.mp parsed
      obtain ⟨_, high, parsed⟩ := bind_ok.mp parsed
      cases parsed
      obtain ⟨lower, least, rfl⟩ := setBound_ok.mp low
      obtain ⟨upper, most, rfl⟩ := setBound_ok.mp high
      obtain ⟨also, between, joins⟩ := (expect_ok (by decide)).mp joined
      have predicate : FilterPredicate strtod catalog implemented f
          ((next tokens).1 :: (next (next tokens).2).1 :: also ::
            (next behind).1 :: (next behind).2) _ _ :=
        .numbers plain spelled least joins most
      rw [← cons_of_next (readBound_visible most), ← between,
        ← cons_of_next (readBound_visible least), ← cons_of_next word]
        at predicate
      exact ⟨_, predicate, rfl⟩
    · split at parsed
      · cases parsed
      · rename_i cmp signed
        obtain ⟨_, low, parsed⟩ := bind_ok.mp parsed
        cases parsed
        obtain ⟨bound, literal, rfl⟩ := setBound_ok.mp low
        have word : (next tokens).1 ≠ [] := by
          intro empty
          rw [empty] at signed
          exact cmpOf_visible signed rfl
        have predicate : FilterPredicate strtod catalog implemented f
            ((next tokens).1 :: (next (next tokens).2).1 ::
              (next (next tokens).2).2) _ _ :=
          .number plain signed literal
        rw [← cons_of_next (readBound_visible literal), ← cons_of_next word]
          at predicate
        exact ⟨_, predicate, rfl⟩
  · rintro ⟨set, predicate, rfl⟩
    cases predicate with
    | @number sign lit cmp bound _ _ signed literal =>
        have other : up sign ≠ ascii "BETWEEN" := by
          intro spelled
          rw [spelled] at signed
          cases signed
        simp only [next_cons]
        rw [parseNumericFilter, if_neg other, signed]
        apply bind_ok.mpr
        exact ⟨_, setBound_ok.mpr ⟨bound, literal, rfl⟩, rfl⟩
    | @numbers between lo also hi lower upper _ _ spelled least joined most =>
        have word : up between = ascii "BETWEEN" := spelled
        simp only [next_cons]
        rw [parseNumericFilter, if_pos word]
        apply bind_ok.mpr
        refine ⟨_, setBound_ok.mpr ⟨lower, least, rfl⟩, ?_⟩
        apply bind_ok.mpr
        refine ⟨_, (expect_ok (by decide)).mpr ⟨also, rfl, joined⟩, ?_⟩
        apply bind_ok.mpr
        exact ⟨_, setBound_ok.mpr ⟨upper, most, rfl⟩, rfl⟩
    | string coded =>
        rw [plain] at coded
        cases coded
    | strings coded =>
        rw [plain] at coded
        cases coded
    | openStrings _ coded =>
        rw [plain] at coded
        cases coded

/-- How a comparison is written. -/
def MatrixCmp.sign : MatrixCmp → String
  | .GT => ">"
  | .GE => ">="
  | .LT => "<"
  | .LE => "<="
  | .EQ => "="
  | .NE => "!="
  | .BETWEEN => "BETWEEN"

theorem cmpOf_some {ops : Bytes} {cmp : MatrixCmp}
    (signed : cmpOf ops = some cmp) :
    ops = ascii cmp.sign ∧ cmp ≠ .BETWEEN := by
  unfold cmpOf at signed
  repeat' split at signed
  all_goals cases signed
  all_goals exact ⟨by assumption, by decide⟩

theorem parseDictFilter_ok {dict : List Bytes}
    (coded : catalog.stringDicts.lookup f = some dict)
    (present : ∀ token ∈ tokens, token ≠ []) :
    catalog.parseDictFilter f dict (up (next tokens).1) q (next tokens).2 =
        .ok (q', rest) ↔
      ∃ set, FilterPredicate strtod catalog implemented f tokens set rest ∧
        q' = set q := by
  constructor
  · intro parsed
    unfold Catalog.parseDictFilter at parsed
    split at parsed
    · rename_i spelled
      have word : (next tokens).1 ≠ [] := by
        intro empty
        rw [empty] at spelled
        cases spelled
      obtain ⟨behind, joined, parsed⟩ := bind_ok.mp parsed
      cases parsed
      obtain ⟨also, between, joins⟩ := (expect_ok (by decide)).mp joined
      have low : (next tokens).2 =
          (next (next tokens).2).1 :: (next (next tokens).2).2 := by
        apply cons_of_rest
        rw [between]
        exact List.cons_ne_nil _ _
      have whole : (next tokens).1 :: (next (next tokens).2).1 :: also ::
          behind = tokens := by
        rw [← between, ← low, ← cons_of_next word]
      cases behind with
      | nil =>
          have predicate : FilterPredicate strtod catalog implemented f
              [(next tokens).1, (next (next tokens).2).1, also] _ [] :=
            .openStrings rfl coded spelled joins
          rw [whole] at predicate
          exact ⟨_, predicate, rfl⟩
      | cons hi behind =>
          have predicate : FilterPredicate strtod catalog implemented f
              ((next tokens).1 :: (next (next tokens).2).1 :: also :: hi ::
                behind) _ behind := .strings coded spelled joins
          rw [whole] at predicate
          exact ⟨_, predicate, rfl⟩
    · split at parsed
      · rename_i equality
        obtain ⟨literal, parsed⟩ := ite_error.mp parsed
        cases parsed
        have word : (next tokens).1 ≠ [] := by
          intro empty
          rw [empty] at equality
          revert equality
          decide
        have whole : (next tokens).1 :: (next (next tokens).2).1 ::
            (next (next tokens).2).2 = tokens := by
          rw [← cons_of_next literal, ← cons_of_next word]
        rcases equality with same | other
        · have signed : cmpOf (up (next tokens).1) = some .EQ := by
            rw [same]
            rfl
          have predicate : FilterPredicate strtod catalog implemented f
              ((next tokens).1 :: (next (next tokens).2).1 ::
                (next (next tokens).2).2) _ _ :=
            .string coded signed fun ordered => absurd ordered (by decide)
          rw [whole] at predicate
          refine ⟨_, predicate, ?_⟩
          simp [same, stringPredicate]
        · have signed : cmpOf (up (next tokens).1) = some .NE := by
            rw [other]
            rfl
          have predicate : FilterPredicate strtod catalog implemented f
              ((next tokens).1 :: (next (next tokens).2).1 ::
                (next (next tokens).2).2) _ _ :=
            .string coded signed fun ordered => absurd ordered (by decide)
          rw [whole] at predicate
          refine ⟨_, predicate, ?_⟩
          rw [other]
          rfl
      · obtain ⟨literal, parsed⟩ := ite_error.mp parsed
        have second : (next (next tokens).2).1 ≠ [] := by
          intro empty
          rw [empty] at literal
          exact literal rfl
        have word : (next tokens).1 ≠ [] := by
          intro empty
          rw [empty] at parsed
          revert parsed
          simp +decide
        have whole : (next tokens).1 :: (next (next tokens).2).1 ::
            (next (next tokens).2).2 = tokens := by
          rw [← cons_of_next second, ← cons_of_next word]
        have ordered : ∀ cmp : MatrixCmp,
            cmpOf (up (next tokens).1) = some cmp →
            FilterPredicate strtod catalog implemented f tokens
              (fun q => { q with
                cmp := (stringPredicate catalog f dict cmp
                  (unquote (next (next tokens).2).1)).1
                threshold := (stringPredicate catalog f dict cmp
                  (unquote (next (next tokens).2).1)).2 })
              (next (next tokens).2).2 := by
          intro cmp signed
          have predicate : FilterPredicate strtod catalog implemented f
              ((next tokens).1 :: (next (next tokens).2).1 ::
                (next (next tokens).2).2) _ _ :=
            .string coded signed fun _ empty => absurd empty literal
          rwa [whole] at predicate
        split at parsed
        · rename_i sign
          cases parsed
          exact ⟨_, ordered .GT (by rw [sign]; rfl), rfl⟩
        · split at parsed
          · rename_i sign
            cases parsed
            exact ⟨_, ordered .GE (by rw [sign]; rfl), rfl⟩
          · split at parsed
            · rename_i sign
              cases parsed
              exact ⟨_, ordered .LT (by rw [sign]; rfl), rfl⟩
            · obtain ⟨sign, parsed⟩ := ite_else_error.mp parsed
              cases parsed
              exact ⟨_, ordered .LE (by rw [sign]; rfl), rfl⟩
  · rintro ⟨set, predicate, rfl⟩
    cases predicate with
    | number plain =>
        rw [plain] at coded
        cases coded
    | numbers plain =>
        rw [plain] at coded
        cases coded
    | @string other sign lit cmp _ found signed literal =>
        cases coded.symm.trans found
        obtain ⟨written, single⟩ := cmpOf_some signed
        have there : lit ≠ [] := present lit (by simp)
        simp only [next_cons]
        rw [Catalog.parseDictFilter, written]
        cases cmp with
        | BETWEEN => exact absurd rfl single
        | EQ => simp +decide [there, stringPredicate]
        | NE => simp +decide [there, stringPredicate]
        | GT =>
            have visible : unquote lit ≠ [] := fun empty =>
              absurd (literal rfl empty) Bool.false_ne_true
            simp +decide [visible, stringPredicate]
        | GE =>
            have visible : unquote lit ≠ [] := fun empty =>
              absurd (literal rfl empty) Bool.false_ne_true
            simp +decide [visible, stringPredicate]
        | LT =>
            have visible : unquote lit ≠ [] := fun empty =>
              absurd (literal rfl empty) Bool.false_ne_true
            simp +decide [visible, stringPredicate]
        | LE =>
            have visible : unquote lit ≠ [] := fun empty =>
              absurd (literal rfl empty) Bool.false_ne_true
            simp +decide [visible, stringPredicate]
    | @strings other between lo also hi _ found spelled joined =>
        cases coded.symm.trans found
        have word : up between = ascii "BETWEEN" := spelled
        simp only [next_cons]
        rw [Catalog.parseDictFilter, if_pos word]
        apply bind_ok.mpr
        exact ⟨_, (expect_ok (by decide)).mpr ⟨also, rfl, joined⟩, rfl⟩
    | @openStrings other between lo also _ found spelled joined =>
        cases coded.symm.trans found
        have word : up between = ascii "BETWEEN" := spelled
        simp only [next_cons]
        rw [Catalog.parseDictFilter, if_pos word]
        apply bind_ok.mpr
        exact ⟨_, (expect_ok (by decide)).mpr ⟨also, rfl, joined⟩, rfl⟩

theorem not_filterPredicate_nil {d : Dialect}
    {set : MatrixQuery → MatrixQuery} :
    ¬ FilterPredicate strtod catalog d f [] set rest := by
  intro predicate
  cases predicate

/-- The part of `parseWhere` behind the name of the column. -/
theorem predicate_ok (present : ∀ token ∈ tokens, token ≠ []) :
    (match catalog.stringDicts.lookup f with
      | some dict =>
          catalog.parseDictFilter f dict (up (next tokens).1) q
            (next tokens).2
      | none =>
          parseNumericFilter strtod (catalog.columnType f)
            (up (next tokens).1) q (next tokens).2) = .ok (q', rest) ↔
      ∃ set, FilterPredicate strtod catalog implemented f tokens set rest ∧
        q' = set q := by
  cases coded : catalog.stringDicts.lookup f with
  | none => exact parseNumericFilter_ok coded
  | some dict => exact parseDictFilter_ok coded present

theorem peek_visible {word : String} (visible : ascii word ≠ [])
    (seen : peek tokens = ascii word) : (next tokens).1 ≠ [] := by
  intro empty
  rw [peek, empty] at seen
  exact visible seen.symm

theorem present_rest (present : ∀ token ∈ tokens, token ≠ []) :
    ∀ token ∈ (next tokens).2, token ≠ [] := by
  cases tokens with
  | nil => exact present
  | cons token tokens =>
      intro other member
      exact present other (List.mem_cons_of_mem token member)

theorem parseWhere_sound (present : ∀ token ∈ tokens, token ≠ [])
    (parsed : catalog.parseWhere strtod q tokens = .ok (q', rest)) :
    ∃ set, WhereClause strtod catalog implemented q.valueCol tokens set rest ∧
      q' = set q := by
  unfold Catalog.parseWhere at parsed
  split at parsed
  · rename_i spelled
    obtain ⟨known, parsed⟩ := ite_error.mp parsed
    obtain ⟨typed, parsed⟩ := ite_error.mp parsed
    have whole := cons_of_next (peek_visible (by decide) spelled)
    have later := present_rest (present_rest present)
    obtain ⟨set, predicate, rfl⟩ := (predicate_ok later).mp parsed
    have named : (next tokens).2 =
        (next (next tokens).2).1 :: (next (next tokens).2).2 := by
      apply cons_of_rest
      intro empty
      rw [empty] at predicate
      exact not_filterPredicate_nil predicate
    have clause : WhereClause strtod catalog implemented q.valueCol
        ((next tokens).1 :: (next (next tokens).2).1 ::
          (next (next tokens).2).2) _ rest :=
      .filter spelled known (by simpa using typed) predicate
    rw [← named, ← whole] at clause
    exact ⟨_, clause, rfl⟩
  · cases parsed
    exact ⟨id, .absent, rfl⟩

theorem parseWhere_complete (present : ∀ token ∈ tokens, token ≠ [])
    {set : MatrixQuery → MatrixQuery}
    (clause : WhereClause strtod catalog implemented q.valueCol tokens set
      rest) (other : peek rest ≠ ascii "WHERE") :
    catalog.parseWhere strtod q tokens = .ok (set q, rest) := by
  cases clause with
  | absent => rw [Catalog.parseWhere, if_neg other, id]
  | @filter word f tokens _ set spelled known typed predicate =>
      have seen : peek (word :: f :: tokens) = ascii "WHERE" := spelled
      rw [Catalog.parseWhere, if_pos seen]
      simp only [next_cons]
      refine ite_error.mpr ⟨known, ite_error.mpr ⟨by simpa using typed, ?_⟩⟩
      apply (predicate_ok _).mpr
      · exact ⟨set, predicate, rfl⟩
      · intro token member
        exact present token (by simp [member])

/-! ## Groups and ranking -/

theorem parseKey_sound {kid : UInt64}
    (parsed : catalog.parseKey (next tokens).2 = .ok (kid, rest))
    (seen : peek tokens = ascii "GROUP") :
    GroupKey catalog implemented tokens kid rest := by
  obtain ⟨behind, by', parsed⟩ := bind_ok.mp parsed
  obtain ⟨known, parsed⟩ := ite_error.mp parsed
  obtain ⟨u32, parsed⟩ := ite_error.mp parsed
  cases parsed
  obtain ⟨word, between, spelled⟩ := (expect_ok (by decide)).mp by'
  have whole := cons_of_next (peek_visible (by decide) seen)
  rw [between] at whole
  rw [whole]
  cases behind with
  | nil => exact .nameless rfl seen spelled known (not_not.mp u32)
  | cons k behind => exact .named seen spelled known (not_not.mp u32)

theorem parseKey_complete {kid : UInt64}
    (key : GroupKey catalog implemented tokens kid rest) :
    peek tokens = ascii "GROUP" ∧
      catalog.parseKey (next tokens).2 = .ok (kid, rest) := by
  cases key with
  | @named group by' k _ spelled spelled' known u32 =>
      refine ⟨spelled, ?_⟩
      apply bind_ok.mpr
      refine ⟨_, (expect_ok (by decide)).mpr ⟨by', rfl, spelled'⟩, ?_⟩
      exact ite_error.mpr ⟨known, ite_error.mpr ⟨not_not.mpr u32, rfl⟩⟩
  | @nameless group by' _ spelled spelled' known u32 =>
      refine ⟨spelled, ?_⟩
      apply bind_ok.mpr
      refine ⟨_, (expect_ok (by decide)).mpr ⟨by', rfl, spelled'⟩, ?_⟩
      exact ite_error.mpr ⟨known, ite_error.mpr ⟨not_not.mpr u32, rfl⟩⟩

theorem parseEnd_ok {parsed : MatrixQuery × List Bytes} :
    Catalog.parseEnd parsed = .ok q ↔ parsed = (q, []) := by
  obtain ⟨other, tokens⟩ := parsed
  rw [Catalog.parseEnd, ite_else_error]
  simp [and_comm]

/-- `parseOrder` and the end, behind a `GROUP BY`. -/
theorem parseTail_sound {aggs : Bytes} (unlimited : q.limit = 0)
    (parsed : catalog.parseTail aggs (q, tokens) = .ok q') :
    ∃ limit, Ranking catalog aggs q.valueCol tokens limit ∧
      q' = { q with limit := limit } := by
  obtain ⟨ordered, parsed, ended⟩ := bind_ok.mp parsed
  cases parseEnd_ok.mp ended
  unfold Catalog.parseOrder at parsed
  split at parsed
  · rename_i seen
    obtain ⟨behind, by', parsed⟩ := bind_ok.mp parsed
    obtain ⟨_, parsed⟩ := ite_else_error.mp parsed
    obtain ⟨sorts, parsed⟩ := ite_error.mp parsed
    obtain ⟨behind', desc, parsed⟩ := bind_ok.mp parsed
    obtain ⟨last, limit, parsed⟩ := bind_ok.mp parsed
    obtain ⟨first, tokens', spelled'⟩ := (expect_ok (by decide)).mp by'
    obtain ⟨down, behind'', descending⟩ := (expect_ok (by decide)).mp desc
    obtain ⟨word, behind''', limited⟩ := (expect_ok (by decide)).mp limit
    split at parsed
    · cases parsed
    · rename_i n number
      obtain ⟨positive, parsed⟩ := ite_error.mp parsed
      have finished : (next last).2 = [] :=
        congrArg Prod.snd (Except.ok.inj parsed)
      have chosen : q' = { q with limit := n } :=
        (congrArg Prod.fst (Except.ok.inj parsed)).symm
      have digits : (next last).1 ≠ [] := by
        intro empty
        rw [empty] at number
        cases number
      have sorted : behind = (next behind).1 :: (next behind).2 := by
        apply cons_of_rest
        rw [behind'']
        exact List.cons_ne_nil _ _
      have whole : tokens = [(next tokens).1, first, (next behind).1, down,
          word, (next last).1] := by
        rw [← finished, ← cons_of_next digits, ← behind''', ← behind'',
          ← sorted, ← tokens', ← cons_of_next (peek_visible (by decide) seen)]
      refine ⟨n, ?_, chosen⟩
      rw [whole]
      exact .top seen spelled' (by simpa [or_iff_not_imp_left] using sorts)
        descending limited number positive
  · cases parsed
    exact ⟨0, .absent, by rw [← unlimited]⟩

theorem parseTail_complete {aggs : Bytes} {limit : UInt64}
    (grouped : q.grouped = true) (unlimited : q.limit = 0)
    (ranking : Ranking catalog aggs q.valueCol tokens limit) :
    catalog.parseTail aggs (q, tokens) = .ok { q with limit := limit } := by
  cases ranking with
  | absent =>
      rw [← unlimited]
      rfl
  | @top order by' s desc limit' decimal _ spelled spelled' sorts descending
      limited number positive =>
      have seen : peek [order, by', s, desc, limit', decimal] =
          ascii "ORDER" := spelled
      apply bind_ok.mpr
      refine ⟨_, ?_, parseEnd_ok.mpr rfl⟩
      rw [Catalog.parseOrder, if_pos seen]
      apply bind_ok.mpr
      refine ⟨_, (expect_ok (by decide)).mpr ⟨by', rfl, spelled'⟩, ?_⟩
      refine ite_else_error.mpr ⟨grouped, ite_error.mpr ⟨?_, ?_⟩⟩
      · simpa [or_iff_not_imp_left] using sorts
      · apply bind_ok.mpr
        refine ⟨_, (expect_ok (by decide)).mpr ⟨desc, rfl, descending⟩, ?_⟩
        apply bind_ok.mpr
        refine ⟨_, (expect_ok (by decide)).mpr ⟨limit', rfl, limited⟩, ?_⟩
        simp only [next_cons, number]
        exact ite_error.mpr ⟨positive, rfl⟩

end

/-! ## Errors -/

/-- No clause fails with `OK`. -/
structure FailsLoudly {A : Type} (x : Except MatrixQueryStatus A) :
    Prop where
  loud : x ≠ .error .OK

namespace FailsLoudly

variable {A B : Type}

theorem ok (a : A) : FailsLoudly (.ok a) := by
  constructor
  intro equal
  cases equal

theorem parse : FailsLoudly (A := A) (.error .ERR_PARSE) := by
  constructor
  intro equal
  cases equal

theorem unknown : FailsLoudly (A := A) (.error .ERR_UNKNOWN_COLUMN) := by
  constructor
  intro equal
  cases equal

theorem bind {x : Except MatrixQueryStatus A}
    {f : A → Except MatrixQueryStatus B} (first : FailsLoudly x)
    (then' : ∀ a, FailsLoudly (f a)) : FailsLoudly (x >>= f) := by
  cases x with
  | error status =>
      constructor
      intro equal
      cases equal
      exact first.loud rfl
  | ok a => exact then' a

theorem ite {p : Prop} [Decidable p] {x y : Except MatrixQueryStatus A}
    (yes : FailsLoudly x) (no : FailsLoudly y) :
    FailsLoudly (if p then x else y) := by
  split
  · exact yes
  · exact no

theorem expect (word : String) (tokens : List Bytes) :
    FailsLoudly (expect word tokens) := .ite (.ok _) .parse

theorem expectParen (paren : String) (tokens : List Bytes) :
    FailsLoudly (expectParen paren tokens) := .ite (.ok _) .parse

theorem aggOf (aggs : Bytes) : FailsLoudly (aggOf aggs) :=
  .ite (.ok _) (.ite (.ok _) (.ite (.ok _) (.ite (.ok _) .parse)))

theorem setBound (strtod : Bytes → StrtodResult) (ty : MatrixType)
    (q : MatrixQuery) (lo : Bool) (v : Bytes) :
    FailsLoudly (setBound strtod ty q lo v) := by
  apply ite .parse
  cases ty with
  | F64 => exact .ite .parse (.ite (.ok _) (.ok _))
  | I64 =>
      cases fromCharsI64 v with
      | none => exact .parse
      | some x => exact .ite (.ok _) (.ok _)
  | U32 =>
      cases fromCharsU32 v with
      | none => exact .parse
      | some x => exact .ite (.ok _) (.ok _)

theorem parseNumericFilter (strtod : Bytes → StrtodResult) (ty : MatrixType)
    (ops : Bytes) (q : MatrixQuery) (tokens : List Bytes) :
    FailsLoudly (parseNumericFilter strtod ty ops q tokens) := by
  apply ite
  · refine .bind (.setBound ..) ?_
    intro q
    refine .bind (.expect ..) ?_
    intro tokens
    refine .bind (.setBound ..) ?_
    intro q
    exact .ok _
  · cases cmpOf ops with
    | none => exact .parse
    | some cmp =>
        refine .bind (.setBound ..) ?_
        intro q
        exact .ok _

variable (catalog : Catalog κ)

theorem parseDictFilter (pcol : UInt64) (dict : List Bytes) (ops : Bytes)
    (q : MatrixQuery) (tokens : List Bytes) :
    FailsLoudly (catalog.parseDictFilter pcol dict ops q tokens) := by
  apply ite
  · refine .bind (.expect ..) ?_
    intro tokens
    exact .ok _
  · apply ite
    · exact .ite .parse (.ok _)
    · exact .ite .parse (.ite (.ok _) (.ite (.ok _) (.ite (.ok _)
        (.ite (.ok _) .parse))))

theorem parseSelect (tokens : List Bytes) :
    FailsLoudly (catalog.parseSelect tokens) := by
  refine .bind (.expect ..) ?_
  intro tokens
  refine .bind (.aggOf _) ?_
  intro op
  refine .bind (.expectParen ..) ?_
  intro tokens
  refine .bind (.expectParen ..) ?_
  intro tokens
  exact .ite .unknown (.ok _)

theorem parseWhere (strtod : Bytes → StrtodResult) (q : MatrixQuery)
    (tokens : List Bytes) :
    FailsLoudly (catalog.parseWhere strtod q tokens) := by
  refine .ite (.ite .unknown (.ite .parse ?_)) (.ok _)
  dsimp only
  split
  · exact .parseDictFilter ..
  · exact .parseNumericFilter ..

theorem parseKey (tokens : List Bytes) :
    FailsLoudly (catalog.parseKey tokens) := by
  refine .bind (.expect ..) ?_
  intro tokens
  exact .ite .unknown (.ite .parse (.ok _))

theorem parseTail (aggs : Bytes) (parsed : MatrixQuery × List Bytes) :
    FailsLoudly (catalog.parseTail aggs parsed) := by
  refine .bind (.ite (.bind (.expect ..) ?_) (.ok _)) ?_
  · intro tokens
    refine .ite (.ite .parse (.bind (.expect ..) ?_)) .parse
    intro tokens
    refine .bind (.expect ..) ?_
    intro tokens
    cases fromCharsU64 (next tokens).1 with
    | none => exact .parse
    | some n => exact .ite .parse (.ok _)
  · intro parsed
    exact .ite (.ok _) .parse

theorem parseHead (strtod : Bytes → StrtodResult) (sql : Bytes) :
    FailsLoudly (catalog.parseHead strtod sql) := by
  refine .bind (.parseSelect ..) ?_
  intro selected
  refine .bind (.parseWhere ..) ?_
  intro filtered
  exact .ok _

end FailsLoudly

/-! ## The parser takes its grammar -/

theorem tokenizeLoop_present (fuel : Nat) (text : Bytes) :
    ∀ token ∈ tokenizeLoop fuel text, token ≠ [] := by
  induction fuel generalizing text with
  | zero =>
      intro token member
      cases member
  | succ fuel induction =>
      cases text with
      | nil =>
          intro token member
          cases member
      | cons c rest =>
          unfold tokenizeLoop
          split
          · exact induction rest
          · split
            · intro token member
              rcases List.mem_cons.mp member with rfl | later
              · exact List.cons_ne_nil _ _
              · exact induction rest token later
            · split
              · split
                · intro token member
                  cases List.mem_singleton.mp member
                  exact List.cons_ne_nil _ _
                · split
                  · intro token member
                    rcases List.mem_cons.mp member with rfl | later
                    · exact List.cons_ne_nil _ _
                    · exact induction _ token later
                  · intro token member
                    rcases List.mem_cons.mp member with rfl | later
                    · exact List.cons_ne_nil _ _
                    · exact induction _ token later
              · intro token member
                rcases List.mem_cons.mp member with rfl | later
                · exact List.cons_ne_nil _ _
                · exact induction _ token later

theorem matrixparseTokenize_present (sql : Bytes) :
    ∀ token ∈ matrixparseTokenize sql, token ≠ [] :=
  tokenizeLoop_present sql.length sql

section
variable {strtod : Bytes → StrtodResult}

/-- A query without its `GROUP BY` clause, and so without what follows it. -/
def MatrixQuery.ungrouped (q : MatrixQuery) : MatrixQuery :=
  { q with grouped := false, keyCol := 0, numGroups := 0, limit := 0 }

/-- A filter sets nothing but the fields of a filter. -/
theorem FilterPredicate.frame {d : Dialect} {f : UInt64}
    {tokens rest : List Bytes} {set : MatrixQuery → MatrixQuery}
    (predicate : FilterPredicate strtod catalog d f tokens set rest)
    (q : MatrixQuery) :
    (set q).valueCol = q.valueCol ∧ (set q).ungrouped = set q.ungrouped ∧
      (set q).limit = q.limit := by
  cases predicate with
  | @number _ _ _ bound => cases bound <;> exact ⟨rfl, rfl, rfl⟩
  | @numbers _ _ _ _ lower upper =>
      cases lower <;> cases upper <;> exact ⟨rfl, rfl, rfl⟩
  | string => exact ⟨rfl, rfl, rfl⟩
  | strings => exact ⟨rfl, rfl, rfl⟩
  | openStrings => exact ⟨rfl, rfl, rfl⟩

theorem WhereClause.frame {d : Dialect} {vid : UInt64}
    {tokens rest : List Bytes} {set : MatrixQuery → MatrixQuery}
    (clause : WhereClause strtod catalog d vid tokens set rest)
    (q : MatrixQuery) :
    (set q).valueCol = q.valueCol ∧ (set q).ungrouped = set q.ungrouped ∧
      (set q).limit = q.limit := by
  cases clause with
  | absent => exact ⟨rfl, rfl, rfl⟩
  | filter _ _ _ predicate => exact predicate.frame _

theorem SelectClause.rest_subset {tokens rest : List Bytes} {aggs : Bytes}
    {q : MatrixQuery} (select : SelectClause catalog tokens aggs q rest) :
    ∀ token ∈ rest, token ∈ tokens := by
  cases select
  intro token member
  simp [member]

/-- The clauses before `GROUP BY`. -/
theorem parseHead_sound {sql : Bytes} {aggs : Bytes} {q : MatrixQuery}
    {rest : List Bytes}
    (parsed : catalog.parseHead strtod sql = .ok (aggs, q, rest)) :
    ∃ selected behind set, SelectClause catalog (matrixparseTokenize sql) aggs
        selected behind ∧
      WhereClause strtod catalog implemented selected.valueCol behind set
        rest ∧ q = set selected := by
  obtain ⟨⟨aggs', selected, behind⟩, first, parsed⟩ := bind_ok.mp parsed
  obtain ⟨⟨q', rest'⟩, second, parsed⟩ := bind_ok.mp parsed
  cases parsed
  have select := parseSelect_ok.mp first
  have present : ∀ token ∈ behind, token ≠ [] := by
    intro token member
    exact matrixparseTokenize_present sql token
      (select.rest_subset token member)
  obtain ⟨set, filter, rfl⟩ := parseWhere_sound present second
  exact ⟨selected, behind, set, select, filter, rfl⟩

theorem parseHead_complete {sql : Bytes} {aggs : Bytes} {q : MatrixQuery}
    {behind rest : List Bytes} {set : MatrixQuery → MatrixQuery}
    (select : SelectClause catalog (matrixparseTokenize sql) aggs q behind)
    (filter : WhereClause strtod catalog implemented q.valueCol behind set
      rest) (other : peek rest ≠ ascii "WHERE") :
    catalog.parseHead strtod sql = .ok (aggs, set q, rest) := by
  have present : ∀ token ∈ behind, token ≠ [] := by
    intro token member
    exact matrixparseTokenize_present sql token
      (select.rest_subset token member)
  apply bind_ok.mpr
  refine ⟨_, parseSelect_ok.mpr select, ?_⟩
  apply bind_ok.mpr
  exact ⟨_, parseWhere_complete present filter other, rfl⟩

theorem deriveNumGroupsU32_eq (wellFormed : catalog.WellFormed)
    {kid : UInt64} {bytes : Bytes} (held : catalog.contents kid = some bytes) :
    ∃ after, Catalog.Keeps catalog after ∧
      catalog.deriveNumGroupsU32 kid = some (keyGroups bytes, after) := by
  have registered : (catalog.contents kid).isSome := by
    rw [held]
    rfl
  obtain ⟨home, lent, other, back, borrowed, host, gave, read, keeps,
    sofar⟩ := Catalog.loan_eq wellFormed registered
  cases held.symm.trans read
  refine ⟨back, sofar, ?_⟩
  have size : lent.sizeBytes kid = bytes.length := by
    rw [Catalog.sizeBytes_eq keeps.wellFormed, keeps.contents, held]
    rfl
  have fit : 4 * (bytes.length / 4) ≤ bytes.length :=
    Nat.mul_div_le bytes.length 4
  simp only [Catalog.deriveNumGroupsU32, Catalog.withLoan, borrowed, host,
    size, u32Rows_eq fit, gave, keyGroups, Option.bind_eq_bind,
    Option.bind_some]

theorem deriveNumGroupsU32_held (wellFormed : catalog.WellFormed)
    {kid : UInt64} {result : UInt32 × Catalog κ}
    (derived : catalog.deriveNumGroupsU32 kid = some result) :
    ∃ bytes, catalog.contents kid = some bytes ∧ result.1 = keyGroups bytes ∧
      Catalog.Keeps catalog result.2 := by
  obtain ⟨⟨home, lent⟩, borrowed, _⟩ := Option.bind_eq_some_iff.mp derived
  obtain ⟨bytes, held⟩ := Option.isSome_iff_exists.mp
    (Catalog.registered_of_borrow wellFormed borrowed)
  obtain ⟨after, keeps, ran⟩ := deriveNumGroupsU32_eq wellFormed held
  cases derived.symm.trans ran
  exact ⟨bytes, held, rfl, keeps⟩

theorem SelectClause.plain {tokens rest : List Bytes} {aggs : Bytes}
    {q : MatrixQuery} (select : SelectClause catalog tokens aggs q rest) :
    q.ungrouped = q ∧ q.limit = 0 := by
  cases select
  exact ⟨rfl, rfl⟩

theorem TailClause.peek_ne {d : Dialect} {aggs : Bytes} {vid : UInt64}
    {tokens : List Bytes} {finish : MatrixQuery → MatrixQuery}
    (tail : TailClause catalog d aggs vid tokens finish) :
    peek tokens ≠ ascii "WHERE" := by
  cases tail with
  | scalar => decide
  | grouped key =>
      cases key with
      | named spelled =>
          intro seen
          exact absurd (spelled.symm.trans seen) (by decide)
      | nameless _ spelled =>
          intro seen
          exact absurd (spelled.symm.trans seen) (by decide)

theorem parseTail_keeps {after : Catalog κ}
    (keeps : Catalog.Keeps catalog after) (aggs : Bytes)
    (parsed : MatrixQuery × List Bytes) :
    after.parseTail aggs parsed = catalog.parseTail aggs parsed := by
  have names : after.columnId = catalog.columnId := by
    funext name
    rw [Catalog.columnId, keeps.nameToId]
    rfl
  simp only [Catalog.parseTail, Catalog.parseOrder, names]

/-- Without a `GROUP BY` nothing may follow. -/
theorem parseTail_scalar {aggs : Bytes} {q q' : MatrixQuery}
    {tokens : List Bytes} (scalar : q.grouped = false) :
    catalog.parseTail aggs (q, tokens) = .ok q' ↔ tokens = [] ∧ q' = q := by
  constructor
  · intro parsed
    obtain ⟨ordered, parsed, ended⟩ := bind_ok.mp parsed
    cases parseEnd_ok.mp ended
    unfold Catalog.parseOrder at parsed
    split at parsed
    · obtain ⟨behind, _, parsed⟩ := bind_ok.mp parsed
      obtain ⟨grouped, _⟩ := ite_else_error.mp parsed
      rw [scalar] at grouped
      cases grouped
    · cases parsed
      exact ⟨rfl, rfl⟩
  · rintro ⟨rfl, rfl⟩
    rfl

/-- Nor does the parser as a whole. -/
theorem failsLoudly_parseQueryImpl {sql : Bytes}
    {result : Except MatrixQueryStatus MatrixQuery} {after : Catalog κ}
    (parsed : catalog.parseQueryImpl strtod sql = some (result, after)) :
    FailsLoudly result := by
  unfold Catalog.parseQueryImpl at parsed
  split at parsed
  · rename_i status failed
    cases parsed
    constructor
    rintro ⟨⟩
    exact (FailsLoudly.parseHead catalog strtod sql).loud failed
  · rename_i aggs q tokens _
    obtain ⟨⟨grouped, middle⟩, group, same⟩ := Option.map_eq_some_iff.mp parsed
    cases same
    apply FailsLoudly.bind
    · unfold Catalog.parseGroup at group
      split at group
      · split at group
        · rename_i status failed
          cases group
          constructor
          rintro ⟨⟩
          exact (FailsLoudly.parseKey catalog _).loud failed
        · obtain ⟨derived, _, same⟩ := Option.map_eq_some_iff.mp group
          cases same
          exact .ok _
      · cases group
        exact .ok _
    · intro parsed
      exact .parseTail ..

theorem parseQuery_ok {sql : Bytes} {q : MatrixQuery} {after : Catalog κ} :
    catalog.parseQuery strtod sql = some (.OK, q, after) ↔
      catalog.parseQueryImpl strtod sql = some (.ok q, after) := by
  constructor
  · intro parsed
    obtain ⟨⟨result, back⟩, ran, same⟩ := Option.map_eq_some_iff.mp parsed
    cases result with
    | error status =>
        cases same
        exact absurd rfl (failsLoudly_parseQueryImpl ran).loud
    | ok other =>
        cases same
        exact ran
  · intro ran
    rw [Catalog.parseQuery, ran]
    rfl

theorem parseQueryImpl_ok {sql : Bytes} {q : MatrixQuery}
    {after : Catalog κ} :
    catalog.parseQueryImpl strtod sql = some (.ok q, after) ↔
      ∃ aggs filtered rest grouped,
        catalog.parseHead strtod sql = .ok (aggs, filtered, rest) ∧
        catalog.parseGroup filtered rest = some (.ok grouped, after) ∧
        after.parseTail aggs grouped = .ok q := by
  unfold Catalog.parseQueryImpl
  cases head : catalog.parseHead strtod sql with
  | error status => simp
  | ok parts =>
      obtain ⟨aggs, filtered, rest⟩ := parts
      simp only [Option.map_eq_some_iff]
      constructor
      · rintro ⟨⟨result, back⟩, group, same⟩
        cases result with
        | error status => cases same
        | ok grouped =>
            have tail : back.parseTail aggs grouped = .ok q :=
              congrArg Prod.fst same
            obtain rfl : back = after := congrArg Prod.snd same
            exact ⟨aggs, filtered, rest, grouped, rfl, group, tail⟩
      · rintro ⟨_, _, _, grouped, same, group, tail⟩
        cases same
        exact ⟨_, group, congrArg (·, after) tail⟩

/-- `parse_query` answers `OK` exactly on the statements of its grammar, with
the query they stand for. -/
theorem parseQuery_ok_iff (wellFormed : catalog.WellFormed) {sql : Bytes}
    {q : MatrixQuery} :
    (∃ after, catalog.parseQuery strtod sql = some (.OK, q, after)) ↔
      Statement strtod catalog implemented (matrixparseTokenize sql) q := by
  simp only [parseQuery_ok, parseQueryImpl_ok]
  constructor
  · rintro ⟨after, aggs, filtered, rest, ⟨grouped, tokens⟩, head, group, tail⟩
    obtain ⟨selected, behind, set, select, filter, rfl⟩ :=
      parseHead_sound head
    obtain ⟨column, plain, unlimited⟩ := filter.frame selected
    rw [select.plain.1] at plain
    rw [select.plain.2] at unlimited
    unfold Catalog.parseGroup at group
    split at group
    · rename_i seen
      split at group
      · cases group
      · rename_i kid tokens keyed
        obtain ⟨⟨groups, back⟩, derived, same⟩ :=
          Option.map_eq_some_iff.mp group
        cases same
        obtain ⟨bytes, held, rfl, keeps⟩ :=
          deriveNumGroupsU32_held wellFormed derived
        rw [parseTail_keeps keeps] at tail
        have none : ({ set selected with
            grouped := true
            keyCol := kid
            numGroups := keyGroups bytes } : MatrixQuery).limit = 0 :=
          unlimited
        obtain ⟨limit, ranking, rfl⟩ := parseTail_sound none tail
        have sorted : Ranking catalog aggs selected.valueCol tokens limit := by
          rw [← column]
          exact ranking
        exact .query select filter
          (.grouped (parseKey_sound keyed seen) held sorted)
    · cases group
      have scalar : (set selected).grouped = false := by
        rw [← plain]
        rfl
      obtain ⟨rfl, rfl⟩ := (parseTail_scalar scalar).mp tail
      exact .query select filter .scalar
  · intro statement
    obtain ⟨select, filter, tail⟩ := statement
    rename_i behind rest aggs selected set finish
    obtain ⟨column, plain, unlimited⟩ := filter.frame selected
    rw [select.plain.1] at plain
    rw [select.plain.2] at unlimited
    have head := parseHead_complete select filter tail.peek_ne
    cases tail with
    | scalar =>
        have scalar : (set selected).grouped = false := by
          rw [← plain]
          rfl
        exact ⟨catalog, aggs, set selected, [], _, head, rfl,
          (parseTail_scalar scalar).mpr ⟨rfl, rfl⟩⟩
    | @grouped _ tokens kid limit bytes key held ranking =>
        obtain ⟨after, keeps, derived⟩ := deriveNumGroupsU32_eq wellFormed held
        obtain ⟨seen, keyed⟩ := parseKey_complete key
        refine ⟨after, aggs, set selected, rest, ({ set selected with
            grouped := true
            keyCol := kid
            numGroups := keyGroups bytes }, tokens), head, ?_, ?_⟩
        · rw [Catalog.parseGroup, if_pos seen, keyed]
          simp only [derived, Option.map_some]
        · rw [parseTail_keeps keeps]
          rw [← column] at ranking
          have done : catalog.parseTail aggs ({ set selected with
              grouped := true
              keyCol := kid
              numGroups := keyGroups bytes }, tokens) = _ :=
            parseTail_complete rfl unlimited ranking
          exact done

end

/-! ## Where the parser leaves the documentation -/

section
variable (catalog)

/-- What `parse_query` is documented to do with a string. -/
structure ParsesAsDocumented (sql : Bytes) : Prop where
  accepts : ∀ q,
    (∃ after, catalog.parseQuery strtod sql = some (.OK, q, after)) ↔
      Statement strtod catalog documented (matrixparseTokenize sql) q
  resets : ∀ status q after,
    catalog.parseQuery strtod sql = some (status, q, after) →
      status ≠ .OK → q = {}

/-- The three kinds of statement that the parser and the documented grammar
do not agree on. -/
inductive Divergence (tokens : List Bytes) : Prop where
  | emptyString {word f sign lit aggs : Bytes} {rest dict : List Bytes}
      {q : MatrixQuery} {cmp : MatrixCmp} {finish : MatrixQuery → MatrixQuery}
      (select : SelectClause catalog tokens aggs q
        (word :: f :: sign :: lit :: rest))
      (spelled : Spells word "WHERE") (known : catalog.columnId f ≠ 0)
      (typed : catalog.columnId f ≠ q.valueCol →
        catalog.columnType (catalog.columnId f) = .U32)
      (coded : catalog.stringDicts.lookup (catalog.columnId f) = some dict)
      (signed : cmpOf (up sign) = some cmp) (ordered : cmp.ordered)
      (empty : unquote lit = [])
      (tail : TailClause catalog documented aggs q.valueCol rest finish) :
      Divergence tokens
  | openBetween {word f between lo also aggs : Bytes} {dict : List Bytes}
      {q : MatrixQuery}
      (select : SelectClause catalog tokens aggs q
        [word, f, between, lo, also])
      (spelled : Spells word "WHERE") (known : catalog.columnId f ≠ 0)
      (typed : catalog.columnId f ≠ q.valueCol →
        catalog.columnType (catalog.columnId f) = .U32)
      (coded : catalog.stringDicts.lookup (catalog.columnId f) = some dict)
      (range : Spells between "BETWEEN") (joined : Spells also "AND") :
      Divergence tokens
  | namelessKey {group by' aggs bytes : Bytes} {rest : List Bytes}
      {q : MatrixQuery} {set : MatrixQuery → MatrixQuery}
      (select : SelectClause catalog tokens aggs q rest)
      (filter : WhereClause strtod catalog common q.valueCol rest set
        [group, by'])
      (spelled : Spells group "GROUP") (spelled' : Spells by' "BY")
      (known : catalog.columnId [] ≠ 0)
      (u32 : catalog.columnType (catalog.columnId []) = .U32)
      (held : catalog.contents (catalog.columnId []) = some bytes) :
      Divergence tokens

end

/-- What one dialect takes the other takes too. -/
structure Dialect.Within (d d' : Dialect) : Prop where
  emptyString : d.emptyString → d'.emptyString
  openBetween : d.openBetween → d'.openBetween
  namelessKey : d.namelessKey → d'.namelessKey

theorem common_within (d : Dialect) : common.Within d := by
  constructor
  · intro allowed
    cases allowed
  · intro allowed
    cases allowed
  · intro allowed
    cases allowed

section
variable {strtod : Bytes → StrtodResult} {d d' : Dialect}
  {tokens rest : List Bytes} {set : MatrixQuery → MatrixQuery}

theorem FilterPredicate.mono (within : d.Within d') {f : UInt64}
    (predicate : FilterPredicate strtod catalog d f tokens set rest) :
    FilterPredicate strtod catalog d' f tokens set rest := by
  cases predicate with
  | number plain signed literal => exact .number plain signed literal
  | numbers plain spelled least joined most =>
      exact .numbers plain spelled least joined most
  | string coded signed literal =>
      apply FilterPredicate.string coded signed
      intro ordered empty
      exact within.emptyString (literal ordered empty)
  | strings coded spelled joined => exact .strings coded spelled joined
  | openStrings allowed coded spelled joined =>
      exact .openStrings (within.openBetween allowed) coded spelled joined

theorem WhereClause.mono (within : d.Within d') {vid : UInt64}
    (clause : WhereClause strtod catalog d vid tokens set rest) :
    WhereClause strtod catalog d' vid tokens set rest := by
  cases clause with
  | absent => exact .absent
  | filter spelled known typed predicate =>
      exact .filter spelled known typed (predicate.mono within)

/-- A filter that the parser takes is in every dialect, or it ends the query
behind its `AND`. -/
theorem FilterPredicate.common_or_open {f : UInt64}
    (predicate : FilterPredicate strtod catalog implemented f tokens set
      rest) :
    FilterPredicate strtod catalog common f tokens set rest ∨
      rest = [] ∧ ∃ between lo also dict, tokens = [between, lo, also] ∧
        catalog.stringDicts.lookup f = some dict ∧
        Spells between "BETWEEN" ∧ Spells also "AND" := by
  cases predicate with
  | number plain signed literal => exact .inl (.number plain signed literal)
  | numbers plain spelled least joined most =>
      exact .inl (.numbers plain spelled least joined most)
  | string coded signed literal => exact .inl (.string coded signed literal)
  | strings coded spelled joined =>
      exact .inl (.strings coded spelled joined)
  | openStrings allowed coded spelled joined =>
      exact .inr ⟨rfl, _, _, _, _, rfl, coded, spelled, joined⟩

/-- A documented filter is in every dialect, or it is an ordered comparison
with a quoted empty string. -/
theorem FilterPredicate.common_or_empty {f : UInt64}
    (predicate : FilterPredicate strtod catalog documented f tokens set
      rest) :
    FilterPredicate strtod catalog common f tokens set rest ∨
      ∃ sign lit dict cmp, tokens = sign :: lit :: rest ∧
        catalog.stringDicts.lookup f = some dict ∧
        cmpOf (up sign) = some cmp ∧ cmp.ordered ∧ unquote lit = [] := by
  cases predicate with
  | number plain signed literal => exact .inl (.number plain signed literal)
  | numbers plain spelled least joined most =>
      exact .inl (.numbers plain spelled least joined most)
  | @string dict sign lit cmp _ coded signed literal =>
      by_cases empty : cmp.ordered ∧ unquote lit = []
      · exact .inr ⟨_, _, _, _, rfl, coded, signed, empty⟩
      · left
        apply FilterPredicate.string coded signed
        intro ordered none
        exact absurd ⟨ordered, none⟩ empty
  | strings coded spelled joined =>
      exact .inl (.strings coded spelled joined)
  | openStrings allowed => cases allowed

theorem not_range_of_signed {sign : Bytes} {cmp : MatrixCmp}
    (signed : cmpOf (up sign) = some cmp) : ¬ Spells sign "BETWEEN" := by
  intro spelled
  rw [spelled] at signed
  cases signed

theorem not_coded_of_plain {f : UInt64} {dict : List Bytes}
    (plain : catalog.stringDicts.lookup f = none) :
    ¬ catalog.stringDicts.lookup f = some dict := by
  rw [plain]
  intro coded
  cases coded

/-- Without open ranges, the tokens say where a filter ends. -/
theorem FilterPredicate.rest_unique (closed : d.openBetween = false)
    (closed' : d'.openBetween = false) {f : UInt64} {rest' : List Bytes}
    {set' : MatrixQuery → MatrixQuery}
    (predicate : FilterPredicate strtod catalog d f tokens set rest)
    (predicate' : FilterPredicate strtod catalog d' f tokens set' rest') :
    rest = rest' := by
  cases predicate with
  | number plain signed =>
      cases predicate' with
      | number => rfl
      | numbers _ spelled => exact absurd spelled (not_range_of_signed signed)
      | string coded => exact absurd coded (not_coded_of_plain plain)
      | strings coded => exact absurd coded (not_coded_of_plain plain)
      | openStrings allowed => exact absurd allowed (by simp [closed'])
  | numbers plain spelled =>
      cases predicate' with
      | number _ signed => exact absurd spelled (not_range_of_signed signed)
      | numbers => rfl
      | string coded => exact absurd coded (not_coded_of_plain plain)
      | strings coded => exact absurd coded (not_coded_of_plain plain)
  | string coded signed =>
      cases predicate' with
      | number plain => exact absurd coded (not_coded_of_plain plain)
      | numbers plain => exact absurd coded (not_coded_of_plain plain)
      | string => rfl
      | strings _ spelled => exact absurd spelled (not_range_of_signed signed)
      | openStrings allowed => exact absurd allowed (by simp [closed'])
  | strings coded spelled =>
      cases predicate' with
      | number plain => exact absurd coded (not_coded_of_plain plain)
      | numbers plain => exact absurd coded (not_coded_of_plain plain)
      | string _ signed => exact absurd spelled (not_range_of_signed signed)
      | strings => rfl
  | openStrings allowed => exact absurd allowed (by simp [closed])

theorem WhereClause.rest_unique (closed : d.openBetween = false)
    (closed' : d'.openBetween = false) {vid : UInt64} {rest' : List Bytes}
    {set' : MatrixQuery → MatrixQuery}
    (clause : WhereClause strtod catalog d vid tokens set rest)
    (clause' : WhereClause strtod catalog d' vid tokens set' rest')
    (behind : peek rest ≠ ascii "WHERE")
    (behind' : peek rest' ≠ ascii "WHERE") : rest = rest' := by
  cases clause with
  | absent =>
      cases clause' with
      | absent => rfl
      | filter spelled => exact absurd spelled behind
  | filter spelled _ _ predicate =>
      cases clause' with
      | absent => exact absurd spelled behind'
      | filter _ _ _ predicate' =>
          exact predicate.rest_unique closed closed' predicate'

theorem SelectClause.unique {tokens rest rest' : List Bytes}
    {aggs aggs' : Bytes} {q q' : MatrixQuery}
    (select : SelectClause catalog tokens aggs q rest)
    (select' : SelectClause catalog tokens aggs' q' rest') :
    aggs' = aggs ∧ q' = q ∧ rest' = rest := by
  obtain ⟨_, aggregate, _⟩ := select
  obtain ⟨_, aggregate', _⟩ := select'
  cases aggregate.symm.trans aggregate'
  exact ⟨rfl, rfl, rfl⟩

/-! ## The three divergences -/

theorem TailClause.mono (within : d.Within d') {aggs : Bytes} {vid : UInt64}
    {finish : MatrixQuery → MatrixQuery}
    (tail : TailClause catalog d aggs vid tokens finish) :
    TailClause catalog d' aggs vid tokens finish := by
  cases tail with
  | scalar => exact .scalar
  | grouped key held ranking =>
      refine .grouped ?_ held ranking
      cases key with
      | named spelled spelled' known u32 =>
          exact .named spelled spelled' known u32
      | nameless allowed spelled spelled' known u32 =>
          exact .nameless (within.namelessKey allowed) spelled spelled' known
            u32

/-- A statement with a quoted empty string in an ordered comparison is
refused. -/
theorem not_implemented_emptyString {word f sign lit aggs : Bytes}
    {rest dict : List Bytes} {q result : MatrixQuery} {cmp : MatrixCmp}
    (select : SelectClause catalog tokens aggs q
      (word :: f :: sign :: lit :: rest)) (spelled : Spells word "WHERE")
    (coded : catalog.stringDicts.lookup (catalog.columnId f) = some dict)
    (signed : cmpOf (up sign) = some cmp) (ordered : cmp.ordered)
    (empty : unquote lit = []) :
    ¬ Statement strtod catalog implemented tokens result := by
  rintro ⟨select', filter, tail⟩
  obtain ⟨rfl, rfl, same⟩ := select.unique select'
  rw [same] at filter
  cases filter with
  | absent => exact tail.peek_ne spelled
  | filter _ _ _ predicate =>
      cases predicate with
      | number plain => exact not_coded_of_plain plain coded
      | numbers plain => exact not_coded_of_plain plain coded
      | string _ signed' literal =>
          cases signed.symm.trans signed'
          exact absurd (literal ordered empty) (by decide)
      | strings _ range => exact not_range_of_signed signed range
      | openStrings _ _ range => exact not_range_of_signed signed range

/-- A query that ends behind the `AND` of a range of strings is not
documented. -/
theorem not_documented_openBetween {word f between lo also aggs : Bytes}
    {dict : List Bytes} {q result : MatrixQuery}
    (select : SelectClause catalog tokens aggs q
      [word, f, between, lo, also]) (spelled : Spells word "WHERE")
    (coded : catalog.stringDicts.lookup (catalog.columnId f) = some dict)
    (range : Spells between "BETWEEN") :
    ¬ Statement strtod catalog documented tokens result := by
  rintro ⟨select', filter, tail⟩
  obtain ⟨rfl, rfl, same⟩ := select.unique select'
  rw [same] at filter
  cases filter with
  | absent => exact tail.peek_ne spelled
  | filter _ _ _ predicate =>
      cases predicate with
      | number plain => exact not_coded_of_plain plain coded
      | string _ signed => exact not_range_of_signed signed range
      | openStrings allowed => cases allowed

/-- Nor is a `GROUP BY` without its key. -/
theorem not_documented_namelessKey {group by' aggs : Bytes}
    {rest : List Bytes} {q result : MatrixQuery}
    (select : SelectClause catalog tokens aggs q rest)
    (filter : WhereClause strtod catalog common q.valueCol rest set
      [group, by']) (spelled : Spells group "GROUP") :
    ¬ Statement strtod catalog documented tokens result := by
  rintro ⟨select', filter', tail⟩
  obtain ⟨rfl, rfl, rfl⟩ := select.unique select'
  have behind : peek [group, by'] ≠ ascii "WHERE" := by
    intro seen
    exact absurd (spelled.symm.trans seen) (by decide)
  obtain rfl := filter.rest_unique rfl rfl filter' behind tail.peek_ne
  cases tail with
  | grouped key =>
      cases key with
      | nameless allowed => cases allowed

/-- Where there is no divergence, both dialects take the same statements. -/
theorem statement_iff (agree : ¬ Divergence strtod catalog tokens)
    (q : MatrixQuery) :
    Statement strtod catalog implemented tokens q ↔
      Statement strtod catalog documented tokens q := by
  constructor
  · rintro ⟨select, filter, tail⟩
    rename_i behind rest aggs selected set finish
    have shared : WhereClause strtod catalog common selected.valueCol behind
        set rest := by
      cases filter with
      | absent => exact .absent
      | filter spelled known typed predicate =>
          rcases predicate.common_or_open with shared |
            ⟨rfl, between, lo, also, dict, rfl, coded, range, joined⟩
          · exact .filter spelled known typed shared
          · exact absurd (.openBetween select spelled known typed coded range
              joined) agree
    refine .query select (shared.mono (common_within documented)) ?_
    cases tail with
    | scalar => exact .scalar
    | grouped key held ranking =>
        cases key with
        | named spelled spelled' known u32 =>
            exact .grouped (.named spelled spelled' known u32) held ranking
        | nameless _ spelled spelled' known u32 =>
            exact absurd (.namelessKey select shared spelled spelled' known u32
              held) agree
  · rintro ⟨select, filter, tail⟩
    rename_i behind rest aggs selected set finish
    have shared : WhereClause strtod catalog common selected.valueCol behind
        set rest := by
      cases filter with
      | absent => exact .absent
      | filter spelled known typed predicate =>
          rcases predicate.common_or_empty with shared |
            ⟨sign, lit, dict, cmp, rfl, coded, signed, ordered, empty⟩
          · exact .filter spelled known typed shared
          · exact absurd (.emptyString select spelled known typed coded signed
              ordered empty tail) agree
    refine .query select (shared.mono (common_within implemented)) ?_
    cases tail with
    | scalar => exact .scalar
    | grouped key held ranking =>
        cases key with
        | named spelled spelled' known u32 =>
            exact .grouped (.named spelled spelled' known u32) held ranking
        | nameless allowed => cases allowed

/-- A divergence shows. -/
theorem not_statement_iff (divergence : Divergence strtod catalog tokens) :
    ∃ q, ¬ (Statement strtod catalog implemented tokens q ↔
      Statement strtod catalog documented tokens q) := by
  cases divergence with
  | @emptyString word f sign lit aggs rest dict q cmp finish select spelled
      known typed coded signed ordered empty tail =>
      have predicate : ∃ set, FilterPredicate strtod catalog documented
          (catalog.columnId f) (sign :: lit :: rest) set rest := by
        refine ⟨_, .string coded signed ?_⟩
        intro _ _
        rfl
      obtain ⟨set, predicate⟩ := predicate
      have stated : ∃ q, Statement strtod catalog documented tokens q :=
        ⟨_, .query select (.filter spelled known typed predicate) tail⟩
      obtain ⟨result, stated⟩ := stated
      refine ⟨result, ?_⟩
      intro same
      exact not_implemented_emptyString select spelled coded signed ordered
        empty (same.mpr stated)
  | openBetween select spelled known typed coded range joined =>
      have taken : ∃ q, Statement strtod catalog implemented tokens q :=
        ⟨_, .query select (.filter spelled known typed
          (.openStrings rfl coded range joined)) .scalar⟩
      obtain ⟨result, taken⟩ := taken
      refine ⟨result, ?_⟩
      intro same
      exact not_documented_openBetween select spelled coded range
        (same.mp taken)
  | namelessKey select filter spelled spelled' known u32 held =>
      have taken : ∃ q, Statement strtod catalog implemented tokens q :=
        ⟨_, .query select (filter.mono (common_within implemented))
          (.grouped (.nameless rfl spelled spelled' known u32) held .absent)⟩
      obtain ⟨result, taken⟩ := taken
      refine ⟨result, ?_⟩
      intro same
      exact not_documented_namelessKey select filter spelled (same.mp taken)

theorem not_parsesAsDocumented (wellFormed : catalog.WellFormed) {sql : Bytes}
    (divergence : Divergence strtod catalog (matrixparseTokenize sql)) :
    ¬ ParsesAsDocumented strtod catalog sql := by
  intro parses
  obtain ⟨q, differ⟩ := not_statement_iff divergence
  apply differ
  rw [← parseQuery_ok_iff wellFormed]
  exact parses.accepts q

/-- The parser does what is documented, but for the three divergences. -/
theorem parsesAsDocumented_iff (wellFormed : catalog.WellFormed)
    (sql : Bytes) :
    ParsesAsDocumented strtod catalog sql ↔
      ¬ Divergence strtod catalog (matrixparseTokenize sql) := by
  constructor
  · intro parses divergence
    exact not_parsesAsDocumented wellFormed divergence parses
  · intro agree
    constructor
    · intro q
      rw [parseQuery_ok_iff wellFormed]
      exact statement_iff agree q
    · intro status q after parsed failed
      obtain ⟨⟨result, back⟩, _, same⟩ := Option.map_eq_some_iff.mp parsed
      cases result with
      | error other =>
          cases same
          rfl
      | ok other =>
          cases same
          exact absurd rfl failed

end

/-! ## A board of strings -/

/-- The strings of column 1, which has a name. -/
def board : Option (Catalog ℚ) := do
  let catalog ← (Catalog.fresh 1024).loadStringColumnDict 1
    [ascii "b", ascii "m"]
  catalog.nameColumn 1 (ascii "s")

theorem wellFormed_board {catalog : Catalog ℚ}
    (loaded : board = some catalog) : catalog.WellFormed := by
  obtain ⟨first, strings, named⟩ := Option.bind_eq_some_iff.mp loaded
  obtain ⟨_, _, loads, _, rfl⟩ := Catalog.loadStringColumnDict_loads
    (Catalog.wellFormed_fresh 1024) strings
  rw [Catalog.nameColumn_eq named]
  exact Catalog.wellFormed_names
    (Catalog.wellFormed_dicts loads.wellFormed _ _) _ _

/-- The dictionary of the board, as the sort leaves it. -/
theorem board_eq :
    board = (do
      let catalog ← (Catalog.fresh 1024).loadScanColumn 1 [0, 1]
      ({ catalog with
          stringDicts := catalog.stringDicts.insert 1 [ascii "b", ascii "m"]
          stringEncoders := catalog.stringEncoders.insert 1
            (Catalog.encoderOf [ascii "b", ascii "m"]) } :
        Catalog ℚ).nameColumn 1 (ascii "s")) := by
  have sorted : [ascii "b", ascii "m"].Pairwise (· < ·) := by decide
  unfold board Catalog.loadStringColumnDict
  rw [sortedDict_of_sorted sorted]
  rfl

theorem exists_board :
    ∃ catalog, board = some catalog ∧ catalog.columnId (ascii "s") = 1 ∧
      catalog.stringDicts.lookup 1 = some [ascii "b", ascii "m"] ∧
      catalog.columnType 1 = .U32 := by
  have known : board.map (·.columnId (ascii "s")) = some 1 := by
    rw [board_eq]
    decide +kernel
  have coded : board.bind (·.stringDicts.lookup 1) =
      some [ascii "b", ascii "m"] := by
    rw [board_eq]
    decide +kernel
  have typed : board.map (·.columnType 1) = some .U32 := by
    rw [board_eq]
    decide +kernel
  obtain ⟨catalog, made, found⟩ := Option.bind_eq_some_iff.mp coded
  rw [made] at known typed
  exact ⟨catalog, made, Option.some.inj known, found, Option.some.inj typed⟩

theorem parsesAsDocumented_board :
    ∃ catalog, board = some catalog ∧
      ParsesAsDocumented (fun _ => ⟨0, 0, false⟩) catalog
        (ascii "SELECT COUNT(s)") := by
  obtain ⟨catalog, made, _⟩ := exists_board
  refine ⟨catalog, made,
    (parsesAsDocumented_iff (wellFormed_board made) _).mpr ?_⟩
  have tokens : matrixparseTokenize (ascii "SELECT COUNT(s)") =
      [ascii "SELECT", ascii "COUNT", ascii "(", ascii "s", ascii ")"] := by
    decide +kernel
  rw [tokens]
  intro divergence
  cases divergence with
  | emptyString select => cases select
  | openBetween select => cases select
  | namelessKey select filter =>
      cases select
      cases filter

/-- A string is compared with the empty one, `WHERE s < ''`. -/
theorem empty_string_refused :
    ∃ catalog, board = some catalog ∧ catalog.WellFormed ∧
      ¬ ParsesAsDocumented (fun _ => ⟨0, 0, false⟩) catalog
        (ascii "SELECT COUNT(s) WHERE s < " ++ [singleQuote, singleQuote]) := by
  obtain ⟨catalog, made, named, coded, typed⟩ := exists_board
  refine ⟨catalog, made, wellFormed_board made,
    not_parsesAsDocumented (wellFormed_board made) ?_⟩
  have tokens : matrixparseTokenize (ascii "SELECT COUNT(s) WHERE s < " ++
      [singleQuote, singleQuote]) = [ascii "SELECT", ascii "COUNT",
        ascii "(", ascii "s", ascii ")", ascii "WHERE", ascii "s",
        ascii "<", [singleQuote, singleQuote]] := by decide +kernel
  rw [tokens]
  have known : catalog.columnId (ascii "s") ≠ 0 := by
    rw [named]
    decide
  have u32 : catalog.columnType (catalog.columnId (ascii "s")) = .U32 := by
    rw [named]
    exact typed
  have strings : catalog.stringDicts.lookup (catalog.columnId (ascii "s")) =
      some [ascii "b", ascii "m"] := by
    rw [named]
    exact coded
  have select : SelectClause catalog [ascii "SELECT", ascii "COUNT",
      ascii "(", ascii "s", ascii ")", ascii "WHERE", ascii "s", ascii "<",
      [singleQuote, singleQuote]] (ascii "COUNT")
      { valueCol := catalog.columnId (ascii "s"), agg := AGG_COUNT }
      [ascii "WHERE", ascii "s", ascii "<", [singleQuote, singleQuote]] :=
    .select (by decide) rfl known
  have signed : cmpOf (up (ascii "<")) = some .LT := by decide
  exact .emptyString select (by decide) known (fun _ => u32) strings signed
    rfl rfl .scalar

end MatrixDB
